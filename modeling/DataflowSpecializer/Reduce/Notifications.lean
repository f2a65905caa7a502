import DataflowSpecializer.Reduce.Simplify
import DataflowSpecializer.Specialization.State

/-! # Notifications in place -/
namespace DataflowSpecializer.Notifications
structure Site where
  stmt : StmtId
  receiver : LocalId
  argument : Operand
  callee : MethodId

def notifies (p : Program) (m : MethodId) : Bool :=
  (p.body m).calls.any fun (_, call) => call.method.name == "attributeChanged"

def site? (p : Program) (m : MethodId) (s : Stmt) : Option Site :=
  match s.action with
  | .invoke ⟨.virtual, some receiver, method, argument :: _⟩ =>
    if method.name = "attributeChanged" ∧ method.params.length = 1 then
      match p.resolve? method with
      | some callee =>
        if callee ≠ m && !notifies p callee then some ⟨s.id, receiver, argument, callee⟩ else none
      | none => none
    else none
  | _ => none

/-- Takes a local of the caller for every local of the callee; the receiver stands for itself. -/
def takeLocals (callee : Body) (receiver : LocalId) (caller : Body) : Array LocalId × Body :=
  callee.locals.toList.zipIdx.foldl (fun (table, caller) (l, i) =>
      if callee.receiver = some i then (table.push receiver, caller)
      else
        let (new, caller) := caller.newLocal l.name l.type
        (table.push new, caller))
    (#[], caller)

def takeLabels (callee caller : Body) : SortedMap Label Label × Body :=
  (callee.stmts.filterMap fun s => Simplify.label? s.action).foldl (fun (table, caller) l =>
      let (new, caller) := caller.newLabel
      (table.insert l new, caller))
    (.empty, caller)

def copyAction (locals : Array LocalId) (labels : SortedMap Label Label) (done : Label)
    (a : Action) : Action :=
  let a : Action := match a with
    | .ret _ => .goto done
    | a => a
  (a.renameLocals fun l => locals.getD l l).renameLabels fun l => (labels.get? l).getD l

def splice (callee caller : Body) (site : Site) : Body :=
  let (locals, caller) := takeLocals callee site.receiver caller
  let (labels, caller) := takeLabels callee caller
  let (done, caller) := caller.newLabel
  let argument := callee.params.head?.toList.map fun l =>
    Action.set (locals.getD l l) (.use site.argument)
  let copy := callee.stmts.map fun s => copyAction locals labels done s.action
  match caller.insertBefore? site.stmt (argument ++ copy ++ [.label done]) with
  | some (_, caller) => (caller.remove site.stmt).2
  | none => caller

def inlineMethod (p : Program) (m : MethodId) : Nat × Program :=
  let sites := (p.body m).stmts.filterMap (site? p m)
  let b := sites.foldl (fun b site => splice (p.body site.callee) b site) (p.body m)
  (sites.length, p.setBody m b)

/-- Changes methods one after the other; answers how much has changed. -/
def changeAll (f : Program → MethodId → Nat × Program) : List MethodId → Program → Nat × Program
  | [], p => (0, p)
  | m :: ms, p =>
    let (n, p) := f p m
    let (k, p) := changeAll f ms p
    (n + k, p)

/-- Replaces notifications, then simplifies every method; answers how much has changed. -/
def reduce : Specialize Nat :=
  Specialize.onProgram fun p =>
    let (n, p) := changeAll inlineMethod p.allLiveMethods p
    let (k, p) := changeAll Simplify.method p.allLiveMethods p
    (n + k, p)
end DataflowSpecializer.Notifications
