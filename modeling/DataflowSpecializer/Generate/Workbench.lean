import DataflowSpecializer.Code.Draft
import DataflowSpecializer.Specialization.State

/-! # Writing methods -/
namespace DataflowSpecializer
structure Workbench where
  spec : Specialization
  draft : Draft

abbrev Generation (α : Type) : Type := EStateM Fault Workbench α

namespace Generation
def ofDrafting {α : Type} (x : Drafting α) : Generation α := fun w =>
  match x.run w.draft with
  | (a, d) => .ok a { w with draft := d }

def ofSpecialize {α : Type} (x : Specialize α) : Generation α := fun w =>
  match x w.spec with
  | .ok a s => .ok a { w with spec := s }
  | .error f s => .error f { w with spec := s }

instance : MonadLift (StateM Draft) (EStateM Fault Workbench) := ⟨ofDrafting⟩

instance : MonadLift (EStateM Fault Specialization) (EStateM Fault Workbench) := ⟨ofSpecialize⟩

def spec : Generation Specialization := return (← get).spec

def receiver (place code : String) : Generation LocalId := do
  match (← get).draft.body.receiver with
  | some l => return l
  | none => throw (.inconsistent (.lacks place code "receiver"))

def param (place code : String) (i : Nat) : Generation LocalId := do
  match (← get).draft.body.params[i]? with
  | some l => return l
  | none => throw (.inconsistent (.lacks place code "parameter"))
end Generation

def Draft.climb (s : Specialization) : LocalId → List ObjectId → Drafting LocalId
  | l, [] => return l
  | l, c :: cs => do
    let l ← Draft.containerOf l (s.objectType c)
    Draft.climb s l cs

def Draft.descend (s : Specialization) : LocalId → List ObjectId → Drafting LocalId
  | l, [] => return l
  | l, o :: os => do
    let l ← Draft.lookup l (s.model.family o) (s.model.name o) (s.objectType o)
    Draft.descend s l os

def Generation.reference (l : LocalId) (source target : ObjectId) : Generation LocalId := do
  let s ← Generation.spec
  match Specialization.path s.model source target with
  | .error f => throw f
  | .ok (up, down) =>
    let turn ← Draft.climb s l up
    Draft.descend s turn down

namespace Specialize
def draft {α : Type} (b : Body) (x : Generation α) : Specialize (Except Fault α × Draft) :=
  fun s =>
    match x ⟨s, .ofBody b⟩ with
    | .ok a w => .ok (.ok a, w.draft) w.spec
    | .error f w => .ok (.error f, w.draft) w.spec

def setBody (m : MethodId) (b : Body) : Specialize Unit :=
  modify fun s => { s with program := s.program.setBody m b }

def writeBody {α β : Type} (m : MethodId) (b : Body) (x : Generation α)
    (finish : α → Draft → β × Body) : Specialize β := do
  setBody m .empty
  let (r, d) ← draft b x
  match r with
  | .ok a =>
    let (c, b) := finish a d
    setBody m b
    return c
  | .error f =>
    setBody m d.body
    throw f

def extend (m : MethodId) (x : Generation Unit) : Specialize Unit := do
  let s ← get
  writeBody m (s.program.body m) x fun _ d => ((), d.finish)

def writeAnew (m : MethodId) (x : Generation Unit) : Specialize Unit := do
  let s ← get
  writeBody m { s.program.body m with stmts := [] } x fun _ d => ((), d.finish)
end Specialize
end DataflowSpecializer
