import DataflowSpecializer.Code.Body

/-! # Forward flow -/
namespace DataflowSpecializer
/-- Facts of a kind: what holds at the start, how facts merge, what a statement does to them. -/
structure FlowAnalysis (α : Type) where
  start : α
  merge : α → α → α
  transfer : Action → α → α

/-- The facts before and after each statement; none where control does not come. -/
structure FlowFacts (α : Type) where
  before : Array (Option α)
  after : Array (Option α)
deriving DecidableEq

namespace Body
def successors (b : Body) (i : Nat) : List Nat :=
  match b.stmts[i]? with
  | none => []
  | some s =>
    let next := if s.action.fallsThrough && i + 1 < b.stmts.length then [i + 1] else []
    match s.action.jump?.bind b.labelPosition? with
    | some j => if next.contains j then next else next ++ [j]
    | none => next
end Body

namespace FlowFacts
variable {α : Type} [DecidableEq α]

def before? (s : FlowFacts α) (i : Nat) : Option α := (s.before[i]?).join
def after? (s : FlowFacts α) (i : Nat) : Option α := (s.after[i]?).join

def deliver (a : FlowAnalysis α) (out : α) (state : Array (Option α) × List Nat) (i : Nat) :
    Array (Option α) × List Nat :=
  let (before, queue) := state
  let known := (before[i]?).join
  let merged := match known with
    | some x => a.merge x out
    | none => out
  if known = some merged then state
  else (before.setIfInBounds i (some merged), if queue.contains i then queue else queue ++ [i])

def visit (a : FlowAnalysis α) (actions : Array Action) (successors : Array (List Nat)) :
    Nat → FlowFacts α → List Nat → FlowFacts α
  | 0, s, _ => s
  | _ + 1, s, [] => s
  | n + 1, s, i :: queue =>
    match s.before? i with
    | none => visit a actions successors n s queue
    | some x =>
      let out := a.transfer (actions.getD i .nop) x
      if s.after? i = some out then visit a actions successors n s queue
      else
        let (before, queue) := (successors.getD i []).foldl (deliver a out) (s.before, queue)
        visit a actions successors n ⟨before, s.after.setIfInBounds i (some out)⟩ queue

def iterate (a : FlowAnalysis α) (b : Body) (visits : Nat) (s : FlowFacts α) (queue : List Nat) :
    FlowFacts α :=
  let actions := (b.stmts.map Stmt.action).toArray
  let successors := (Array.range b.stmts.length).map b.successors
  visit a actions successors visits s queue

def solve (a : FlowAnalysis α) (b : Body) (visits : Nat) : FlowFacts α :=
  let n := b.stmts.length
  let nothing := Array.replicate n none
  iterate a b visits ⟨nothing.setIfInBounds 0 (some a.start), nothing⟩ (List.range (min n 1))

def resume (a : FlowAnalysis α) (b : Body) (visits : Nat) (s : FlowFacts α) : FlowFacts α :=
  iterate a b visits s ((List.range b.stmts.length).filter fun i => (s.before? i).isSome)
end FlowFacts
end DataflowSpecializer
