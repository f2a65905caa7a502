import DataflowSpecializer.Platform.Methods
import DataflowSpecializer.Specialization.State

/-! # What is not used -/
namespace DataflowSpecializer.Unused
open Platform

def isFreeCall (call : Invocation) : Bool :=
  call.dispatch ≠ .special && call.method.isSideEffectFree

def isSafeDivisor : Operand → Bool
  | .const (.int n) => n ≠ 0
  | .const (.long n) => n ≠ 0
  | .const (.double _) => true
  | _ => false

def isFree : Rvalue → Bool
  | .use _ | .cast _ _ | .instanceOf _ _ | .field _ _ | .negate _ | .not _ => true
  | .binary .div _ rhs | .binary .rem _ rhs => isSafeDivisor rhs
  | .binary _ _ _ => true
  | .new className _ => isValueClass className
  | .invoke call => isFreeCall call
  | .element _ _ | .length _ | .newArray _ _ => false

def isIdle (b : Body) (counts : Array Nat) : Action → Bool
  | .assign (.loc l) v => counts.getD l 0 == 0 && !b.isParam l && isFree v
  | .invoke call => isFreeCall call
  | _ => false

/-- Removes idle statements, so many times at most; answers how many. -/
def sweepRounds : Nat → Body → Nat × Body
  | 0, b => (0, b)
  | rounds + 1, b =>
    let counts := b.useCounts
    let n := b.stmts.countP fun s => isIdle b counts s.action
    if n = 0 then (0, b)
    else
      let (k, b) := sweepRounds rounds
        { b with stmts := b.stmts.filter fun s => !isIdle b counts s.action }
      (n + k, b)

/-- Removes idle statements until there are none; answers how many. -/
def sweep (b : Body) : Nat × Body := sweepRounds (b.stmts.length + 1) b

def sweepMethods : List MethodId → Program → Nat × Program
  | [], p => (0, p)
  | m :: ms, p =>
    let (n, b) := sweep (p.body m)
    let (k, p) := sweepMethods ms (p.setBody m b)
    (n + k, p)

def isEntryPoint (name : String) : Bool :=
  ["<init>", "attributeChanged", "apply", "latest"].contains name ||
    lifecycle.any fun (n, _) => n == name

def callees (p : Program) (m : MethodId) : List MethodId :=
  (p.body m).calls.filterMap fun (_, call) => p.resolve? call.method

def note (state : List MethodId × Array Bool) (m : MethodId) : List MethodId × Array Bool :=
  let (waiting, seen) := state
  if seen.getD m true then state else (m :: waiting, seen.setIfInBounds m true)

def trace (p : Program) : Nat → List MethodId → Array Bool → Array Bool
  | 0, _, seen => seen
  | _ + 1, [], seen => seen
  | n + 1, m :: waiting, seen =>
    let (waiting, seen) := (callees p m).foldl note (waiting, seen)
    trace p n waiting seen

def called (p : Program) : Array Bool :=
  let n := p.methods.size
  let entry := p.allLiveMethods.filter fun m => isEntryPoint (p.methodDecl m).name
  let (waiting, seen) := entry.foldl note ([], Array.replicate n false)
  trace p n waiting seen

def removeMethods (p : Program) : Nat × Program :=
  let seen := called p
  let unused := p.allLiveMethods.filter fun m => !seen.getD m false
  (unused.length, unused.foldl Program.removeMethod p)

def read? : Action → Option FieldId
  | .assign _ (.field _ f) => some f
  | _ => none

def stored? : Action → Option FieldId
  | .assign (.field _ f) _ => some f
  | _ => none

def unreadFields (p : Program) : List FieldId :=
  let read := p.allLiveMethods.flatMap fun m => (p.body m).stmts.filterMap (read? ·.action)
  (p.liveClasses.flatMap p.liveFields).filter fun f => !read.contains f

def dropStores (fields : List FieldId) (p : Program) (m : MethodId) : Program :=
  let isDropped (s : Stmt) : Bool := match stored? s.action with
    | some f => fields.contains f
    | none => false
  let b := p.body m
  p.setBody m { b with stmts := b.stmts.filter fun s => !isDropped s }

/-- Removes fields that nobody reads, with the stores to them; answers how many. -/
def removeFields : Specialize Nat :=
  modifyGet fun s =>
    let fields := unreadFields s.program
    let p := s.program.allLiveMethods.foldl (dropStores fields) s.program
    (fields.length, { s with
        program := fields.foldl Program.removeField p
        refFields := s.refFields.filter fun _ f => !fields.contains f })

def isMade (p : Program) (c : ClassId) : Bool :=
  let makes (s : Stmt) : Bool := match s.action.value? with
    | some (.new className _) => className == p.className c
    | _ => false
  p.allLiveMethods.any fun m => (p.methodDecl m).owner ≠ c && (p.body m).stmts.any makes

/-- Removes classes of functions that nobody makes, one after the other; answers how many. -/
def removeClosures : List ClassId → Program → Nat × Program
  | [], p => (0, p)
  | c :: cs, p =>
    if isMade p c then removeClosures cs p
    else
      let (k, p) := removeClosures cs (p.removeClass c)
      (k + 1, p)

/-- Removes what is not used; answers how much. -/
def reduce : Specialize Nat := do
  let statements ← Specialize.onProgram fun p => sweepMethods p.allLiveMethods p
  let methods ← Specialize.onProgram removeMethods
  let fields ← removeFields
  let closures ← Specialize.onProgram fun p =>
    removeClosures (p.liveClasses.filter fun c => (p.classDecl c).kind = .closure) p
  return statements + methods + fields + closures
end DataflowSpecializer.Unused
