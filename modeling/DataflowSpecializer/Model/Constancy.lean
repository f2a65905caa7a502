import DataflowSpecializer.Model.Graph

/-! # Constant variables -/
namespace DataflowSpecializer
/-- The variables that the expression of each variable names. -/
abbrev Dependencies : Type := SortedMap ObjectId (List ObjectId)

structure Constancy where
  /-- The variables that can change, in the order of the model. -/
  changing : List ObjectId
  deps : Dependencies
  /-- All variables, each after those it names. -/
  order : List ObjectId

namespace Constancy
def none : Constancy := ⟨[], .empty, []⟩

instance : Inhabited Constancy := ⟨none⟩

def isConstant (c : Constancy) (v : ObjectId) : Bool := !c.changing.contains v
def depsOf (c : Constancy) (v : ObjectId) : List ObjectId := (c.deps.get? v).getD []

def dependentsOf (deps : Dependencies) (v : ObjectId) : List ObjectId :=
  deps.entries.filterMap fun (w, ds) => if ds.contains v then some w else Option.none

def dependents (c : Constancy) : List (ObjectId × List ObjectId) :=
  c.deps.keys.filterMap fun v =>
    match dependentsOf c.deps v with
    | [] => Option.none
    | ws => some (v, ws)

def changingOrder (c : Constancy) : List ObjectId := c.order.filter c.changing.contains

def reached (c : Constancy) (start : ObjectId → Bool) : List ObjectId :=
  c.order.foldl
    (fun acc w => if (c.depsOf w).any fun d => start d || acc.contains d then acc ++ [w] else acc)
    []

def affectedBy (c : Constancy) (v : ObjectId) : List ObjectId := c.reached (· = v)

def constantAttributes (c : Constancy) (m : Model) (container : ObjectId) : List ObjectId :=
  (m.object container).attributes.filter fun a => m.isVariable a && c.isConstant a

def namedBy (m : Model) (v : ObjectId) : Except Fault (List ObjectId) := do
  match ← m.parse v with
  | Option.none => return []
  | some e => return (e.freeIdentifiers.filterMap (m.resolve? v)).foldl Model.addNew []

/-- Takes a variable whose dependencies have all been listed from the count of the variables that
wait for it, and gives those that wait no longer. -/
def release (deps : Dependencies) (waiting : SortedMap ObjectId Nat)
    (v : ObjectId) : SortedMap ObjectId Nat × List ObjectId :=
  (dependentsOf deps v).foldl (fun (waiting, freed) w =>
      let n := (waiting.get? w).getD 0 - 1
      (waiting.insert w n, if n = 0 then freed ++ [w] else freed))
    (waiting, [])

def orderFrom (deps : Dependencies) : Nat → SortedMap ObjectId Nat → List ObjectId → List ObjectId
  | 0, _, _ => []
  | _ + 1, _, [] => []
  | n + 1, waiting, v :: ready =>
    let (waiting, freed) := release deps waiting v
    v :: orderFrom deps n waiting (ready ++ freed)

def orderOf (deps : Dependencies) : List ObjectId :=
  orderFrom deps deps.size (SortedMap.ofList (deps.entries.map fun (v, ds) => (v, ds.length)))
    (deps.entries.filterMap fun (v, ds) => if ds.isEmpty then some v else Option.none)

def ofModel (m : Model) : Except Fault Constancy := do
  let entries ← m.variableIds.mapM fun v => return (v, ← namedBy m v)
  let deps := SortedMap.ofList entries
  let order := orderOf deps
  if order.length ≠ deps.size then throw (.inconsistent .cyclicVariables)
  let written := m.writers.map (·.2)
  let changed := reached ⟨[], deps, order⟩ written.contains
  return ⟨m.variableIds.filter fun v => written.contains v || changed.contains v, deps, order⟩
end Constancy
end DataflowSpecializer
