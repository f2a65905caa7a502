import DataflowSpecializer.Analysis.Flow
import DataflowSpecializer.Code.Fold
import DataflowSpecializer.Code.Program

/-! # Simplification of bodies -/
namespace DataflowSpecializer.Simplify
def change (f : Action → Option Action) (b : Body) : Nat × Body :=
  (b.stmts.countP fun s => (f s.action).isSome,
    { b with stmts := b.stmts.map fun s => { s with action := (f s.action).getD s.action } })

def keep (b : Body) (stmts : List Stmt) : Nat × Body :=
  (b.stmts.length - stmts.length, { b with stmts := stmts })

def drop (p : Stmt → Bool) (b : Body) : Nat × Body := keep b (b.stmts.filter fun s => !p s)

/-! ### Propagation -/
def foldTextField (p : Program) : Action → Option Action
  | .assign place (.field _ f) =>
    let d := p.fieldDecl f
    match d.isFinal, d.type, d.initial with
    | true, .string, some (.string s) => some (.assign place (.use (.string s)))
    | _, _, _ => none
  | _ => none

def constant? (b : Body) (l : LocalId) : Option Constant :=
  match (b.singleDef? l).map Stmt.action with
  | some (.assign _ (.use (.const c))) => some c
  | _ => none

def propagateConstants (b : Body) : Nat × Body :=
  let constants := (Array.range b.locals.size).map (constant? b)
  let subst : Operand → Option Constant
    | .loc l => (constants[l]?).join
    | .const _ => none
  let replace (o : Operand) : Operand := match subst o with
    | some c => .const c
    | none => o
  ((b.stmts.flatMap fun s => s.action.operands).countP fun o => (subst o).isSome,
    { b with stmts := b.stmts.map fun s => { s with action := s.action.mapOperands replace } })

def hasBackwardJump (b : Body) : Bool :=
  b.stmts.zipIdx.any fun (s, i) =>
    match s.action.jump?.bind b.labelPosition? with
    | some target => target ≤ i
    | none => false

def isStable (b : Body) (l : LocalId) : Bool :=
  if b.isParam l then (b.defs l).isEmpty else (b.singleDef? l).isSome

def copy? (b : Body) (l : LocalId) : Option (StmtId × LocalId) :=
  match b.singleDef? l with
  | some ⟨id, .assign _ (.use (.loc r))⟩ => if isStable b r && r ≠ l then some (id, r) else none
  | _ => none

def mergeLocals (b : Body) (id : StmtId) (l r : LocalId) : Body :=
  { b with
    stmts := (b.stmts.filter (·.id ≠ id)).map fun s =>
      { s with action := s.action.renameLocals fun x => if x = l then r else x } }

def removeCopy (state : Nat × Body) (l : LocalId) : Nat × Body :=
  let (n, b) := state
  match copy? b l with
  | some (id, r) => (n + 1, mergeLocals b id l r)
  | none => (n, b)

def removeCopies (b : Body) : Nat × Body := (List.range b.locals.size).foldl removeCopy (0, b)

def propagateCopies (b : Body) : Nat × Body :=
  if hasBackwardJump b then (0, b) else removeCopies b

def foldCast (b : Body) : Action → Option Action
  | .assign place (.cast type (.loc l)) =>
    if b.localType l = type then some (.assign place (.use (.loc l))) else none
  | _ => none

def foldOperation : Action → Option Action
  | .assign place (.binary op (.const a) (.const b)) =>
    (op.fold? a b).map fun c => .assign place (.use (.const c))
  | .assign place (.negate (.const a)) => a.negate?.map fun c => .assign place (.use (.const c))
  | .assign place (.not (.const a)) => a.not?.map fun c => .assign place (.use (.const c))
  | _ => none

def foldBranch : Action → Option Action
  | .branch op (.const a) (.const b) target =>
    match op.fold? a b with
    | some (.bool taken) => some (if taken then .goto target else .nop)
    | _ => none
  | _ => none

/-! ### Control -/
def reach (successors : Nat → List Nat) : Nat → List Nat → Array Bool → Array Bool
  | 0, _, seen => seen
  | _ + 1, [], seen => seen
  | n + 1, i :: rest, seen =>
    let new := (successors i).filter fun j => !seen.getD j true
    reach successors n (rest ++ new) (new.foldl (fun seen j => seen.setIfInBounds j true) seen)

def reachable (b : Body) : Array Bool :=
  let n := b.stmts.length
  reach b.successors n [0] ((Array.replicate n false).setIfInBounds 0 true)

def removeUnreachable (b : Body) : Nat × Body :=
  let seen := reachable b
  keep b ((b.stmts.zipIdx.filter fun (_, i) => seen.getD i false).map (·.1))

def label? : Action → Option Label
  | .label l => some l
  | _ => none

def startsWithLabel (l : Label) : List Stmt → Bool
  | [] => false
  | s :: rest =>
    match label? s.action with
    | some k => k == l || startsWithLabel l rest
    | none => false

def dropJumps : List Stmt → List Stmt
  | [] => []
  | s :: rest =>
    match s.action with
    | .goto l => if startsWithLabel l rest then dropJumps rest else s :: dropJumps rest
    | _ => s :: dropJumps rest

def removeJumps (b : Body) : Nat × Body := keep b (dropJumps b.stmts)

def removeLabels (b : Body) : Nat × Body :=
  let targets := b.stmts.filterMap (·.action.jump?)
  drop (fun s => match label? s.action with
    | some l => !targets.contains l
    | none => false) b

def isCopy : Rvalue → Bool
  | .use _ | .cast _ _ | .instanceOf _ _ => true
  | _ => false

def removeDeadCopies (b : Body) : Nat × Body :=
  let counts := b.useCounts
  drop (fun s => match s.action with
    | .assign (.loc l) v => isCopy v && counts.getD l 0 == 0
    | _ => false) b

def removeNops (b : Body) : Nat × Body := drop (fun s => s.action = .nop) b

def rules (p : Program) : List (Body → Nat × Body) :=
  [change (foldTextField p), propagateConstants, propagateCopies, fun b => change (foldCast b) b,
    change foldOperation, change foldBranch, removeUnreachable, removeJumps, removeLabels,
    removeDeadCopies, removeNops]

/-- Applies rules one after the other; answers how much they change together. -/
def applyAll : List (Body → Nat × Body) → Body → Nat × Body
  | [], b => (0, b)
  | r :: rs, b =>
    let (n, b) := r b
    let (k, b) := applyAll rs b
    (n + k, b)

def repeatRules (p : Program) : Nat → Body → Nat × Body
  | 0, b => (0, b)
  | rounds + 1, b =>
    let (n, b) := applyAll (rules p) b
    if n = 0 then (0, b)
    else
      let (k, b) := repeatRules p rounds b
      (n + k, b)

/-- Simplifies a body and drops the locals that are left over; answers how much has changed. -/
def body (p : Program) (b : Body) : Nat × Body :=
  let (n, b) := repeatRules p (b.stmts.length + 8) b
  match b.compactLocals? with
  | some b => (n + 1, b)
  | none => (n, b)

def method (p : Program) (m : MethodId) : Nat × Program :=
  let (n, b) := body p (p.body m)
  (n, p.setBody m b)
end DataflowSpecializer.Simplify
