import DataflowSpecializer.Analysis.Identity

/-! # Comparisons of objects -/
namespace DataflowSpecializer.Equality
def same? (map : ObjectMap) (a b : LocalId) : Option Bool :=
  match map.object? a, map.object? b with
  | some o, some p => some (o = p)
  | _, _ => none

def outcome? (map : ObjectMap) (op : BinaryOp) (a b : LocalId) : Option Bool :=
  match op with
  | .eq => same? map a b
  | .ne => (same? map a b).map (!·)
  | _ => none

def decide? (map : ObjectMap) : Action → Option Action
  | .branch op (.loc a) (.loc b) target =>
    (outcome? map op a b).map fun taken => if taken then .goto target else .nop
  | .assign (.loc l) (.binary op (.loc a) (.loc b)) =>
    (outcome? map op a b).map fun r => .set l (.use (.const (.bool r)))
  | _ => none

def isOpen (map : ObjectMap) (action : Action) : Bool :=
  match action with
  | .branch op (.loc a) (.loc b) _ =>
    (op = .eq || op = .ne) && (outcome? map op a b).isNone &&
      (map.isAmbiguous a || map.isAmbiguous b)
  | _ => false

/-- Decides the comparisons in a method; answers how many. -/
def reduceMethod (m : MethodId) : Specialize Nat := do
  let s ← get
  let map := s.objectMap m
  let b := s.program.body m
  let stmts := b.stmts.map fun st => { st with action := (decide? map st.action).getD st.action }
  let s' := { s with program := s.program.setBody m { b with stmts := stmts } }
  if b.stmts.any fun st => isOpen map st.action then
    set (s'.warn (.warning .ambiguousReference (s.program.methodName m)
      "identity comparison on an ambiguous object left in place"))
  else set s'
  return b.stmts.countP fun st => (decide? map st.action).isSome

def reduceAll : List MethodId → Specialize Nat
  | [] => return 0
  | m :: ms => do
    let n ← reduceMethod m
    let k ← reduceAll ms
    return n + k

/-- Decides comparisons; answers how many. -/
def reduce : Specialize Nat := do
  reduceAll (← get).program.allLiveMethods
end DataflowSpecializer.Equality
