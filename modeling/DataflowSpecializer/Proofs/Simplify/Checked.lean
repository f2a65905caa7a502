import DataflowSpecializer.Proofs.Code.Checked
import DataflowSpecializer.Proofs.Simplify.Correctness
import DataflowSpecializer.Reduce.Unused

/-! # Look-ups while bodies are simplified

Simplification and the removal of idle statements look up counts, the types of locals and the
declarations of fields, over and over in bodies that change meanwhile.
-/
namespace DataflowSpecializer.Checked
open List Option DataflowSpecializer.Action Simplify
variable {b : Body} {p : Program} {a : Action}

section Decorate
variable {α : Type}

def decorate (f : Action → Option α) (b : Body) : Option (List (Stmt × α)) :=
  b.stmts.mapM fun s => (f s.action).map fun x => (s, x)

lemma decorate_eq {f : Action → Option α} {g : Action → α} (h : ∀ a ∈ b.code, f a = some (g a)) :
    decorate f b = some (b.stmts.map fun s => (s, g s.action)) := by
  refine mapM_eq_pure fun s hs => ?_
  rw [h s.action (List.mem_map_of_mem hs)]
  rfl
end Decorate

def change (f : Action → Option (Option Action)) (b : Body) : Option (Nat × Body) := do
  let found ← decorate f b
  return (found.countP fun (_, a) => a.isSome,
    { b with stmts := found.map fun (s, a) => { s with action := a.getD s.action } })

lemma change_eq {f : Action → Option (Option Action)} {g : Action → Option Action}
    (h : ∀ a ∈ b.code, f a = some (g a)) : change f b = some (Simplify.change g b) := by
  rw [change, decorate_eq h, bind_eq_bind, bind_some, countP_map, List.map_map]
  rfl

def drop (q : Action → Option Bool) (b : Body) : Option (Nat × Body) := do
  let found ← decorate q b
  return Simplify.keep b ((found.filter fun (_, gone) => !gone).map (·.1))

lemma filter_decorated (r : Action → Bool) (stmts : List Stmt) :
    ((stmts.map fun s => (s, r s.action)).filter fun (_, gone) => !gone).map (·.1) =
      stmts.filter fun s => !r s.action := by
  rw [List.filter_map, List.map_map]
  exact List.map_id _

lemma countP_decorated (r : Action → Bool) (stmts : List Stmt) :
    (stmts.map fun s => (s, r s.action)).countP (·.2) = stmts.countP fun s => r s.action :=
  countP_map

lemma drop_eq {q : Action → Option Bool} {r : Action → Bool} (h : ∀ a ∈ b.code, q a = some (r a)) :
    drop q b = some (Simplify.drop (fun s => r s.action) b) := by
  rw [drop, decorate_eq h, bind_eq_bind, bind_some, filter_decorated]
  rfl

def foldTextField (p : Program) : Action → Option (Option Action)
  | .assign place (.field _ f) => do
    let d ← p.fields[f]?
    return match d.isFinal, d.type, d.initial with
      | true, .string, some (.string s) => some (.assign place (.use (.string s)))
      | _, _, _ => none
  | _ => return none

lemma foldTextField_eq (h : ∀ f, .read f ∈ a.demands → f < p.fields.size) :
    foldTextField p a = some (Simplify.foldTextField p a) := by
  cases a with
  | assign place v =>
    cases v with
    | field base f =>
      have hread : .read f ∈ (Action.assign place (.field base f)).demands := by
        cases place <;> simp [demands, Rvalue.demands]
      have hd : p.fields[f]? = some (p.fieldDecl f) := getElem?_eq_getD (h f hread) default
      rw [foldTextField, hd]
      rfl
    | _ => rfl
  | _ => rfl

def foldCast (b : Body) : Action → Option (Option Action)
  | .assign place (.cast type (.loc l)) => do
    let d ← b.locals[l]?
    return if d.type = type then some (.assign place (.use (.loc l))) else none
  | _ => return none

lemma foldCast_eq (h : ∀ l ∈ a.mentions, l < b.locals.size) :
    foldCast b a = some (Simplify.foldCast b a) := by
  cases a with
  | assign place v =>
    cases v with
    | cast type o =>
      cases o with
      | loc l =>
        have hl : l ∈ (Action.assign place (.cast type (.loc l))).mentions := by
          cases place <;> simp [mentions, Action.uses, Rvalue.locals, Operand.locals]
        have hd : b.locals[l]? = some (b.locals.getD l default) := getElem?_eq_getD (h l hl) default
        rw [foldCast, hd]
        rfl
      | const => rfl
    | _ => rfl
  | _ => rfl

def isDeadCopy (counts : Array Nat) : Action → Option Bool
  | .assign (.loc l) v => (counts[l]?).map fun n => isCopy v && n == 0
  | _ => some false

def removeDeadCopies (b : Body) : Option (Nat × Body) := do
  let counts ← useCounts b
  drop (isDeadCopy counts) b

lemma getElem?_useCounts (hb : b.WellFormed)
    (h : .assign (.loc l) v ∈ b.code) : b.useCounts[l]? = some (b.useCounts.getD l 0) := by
  refine getElem?_eq_getD ?_ 0
  rw [(useCounts_eq hb).2]
  exact hb.locals _ h l (target?_mem_mentions rfl)

lemma removeDeadCopies_eq (hb : b.WellFormed) :
    removeDeadCopies b = some (Simplify.removeDeadCopies b) := by
  rw [removeDeadCopies, (useCounts_eq hb).1, bind_eq_bind, bind_some]
  refine drop_eq (r := Simplify.isDeadCopy b) fun a ha => ?_
  cases a with
  | assign place v =>
    cases place with
    | loc l => rw [isDeadCopy, getElem?_useCounts hb ha]; rfl
    | _ => rfl
  | _ => rfl

def rules (p : Program) : List (Body → Option (Nat × Body)) :=
  [change (foldTextField p), fun b => some (propagateConstants b),
    fun b => some (propagateCopies b), fun b => change (foldCast b) b,
    fun b => some (Simplify.change foldOperation b),
    fun b => some (Simplify.change foldBranch b),
    fun b => some (removeUnreachable b), fun b => some (removeJumps b),
    fun b => some (removeLabels b), removeDeadCopies,
    fun b => some (removeNops b)]

lemma rules_eq (hP : ∀ f, P (.read f) → f < p.fields.size) :
    List.Forall₂ (fun check rule => ∀ b, b.Fits P → check b = some (rule b))
      (rules p) (Simplify.rules p) := by
  -- Three rules look something up: a field, a local and the counts.
  have hunchecked (rule : Body → Nat × Body) (b : Body) (_ : b.Fits P) :
      some (rule b) = some (rule b) := rfl
  refine .cons (fun b hb => change_eq fun a ha => foldTextField_eq fun f hf => ?_) <|
    .cons (hunchecked _) <| .cons (hunchecked _) <|
    .cons (fun b hb => change_eq fun a ha => foldCast_eq (hb.locals a ha)) <|
    .cons (hunchecked _) <| .cons (hunchecked _) <| .cons (hunchecked _) <|
    .cons (hunchecked _) <| .cons (hunchecked _) <|
    .cons (fun b hb => removeDeadCopies_eq hb.toWellFormed) <| .cons (hunchecked _) .nil
  exact hP f (hb.demands a ha _ hf)

/-- Applies rules one after the other; answers how much they change together. -/
def applyAll : List (Body → Option (Nat × Body)) → Body → Option (Nat × Body)
  | [], b => some (0, b)
  | r :: rs, b => do
    let (n, b) ← r b
    let (k, b) ← applyAll rs b
    return (n + k, b)

lemma applyAll_eq
    (h : List.Forall₂ (fun check rule => ∀ b, b.Fits P → check b = some (rule b)) checks rs)
    (hfits : ∀ rule ∈ rs, ∀ b : Body, b.Fits P → (rule b).2.Fits P) (hb : b.Fits P) :
    applyAll checks b = some (Simplify.applyAll rs b) := by
  induction h generalizing b with
  | nil => rfl
  | @cons check rule checks rs hrule _ ih =>
    obtain ⟨hfirst, hrest⟩ := forall_mem_cons.1 hfits
    have hnext := hfirst b hb
    rw [applyAll, hrule b hb, bind_eq_bind, bind_some, Simplify.applyAll]
    generalize rule b = r at hnext ⊢
    obtain ⟨n, b'⟩ := r
    dsimp only
    rw [ih hrest hnext]
    rfl

def repeatRules (p : Program) : Nat → Body → Option (Nat × Body)
  | 0, b => some (0, b)
  | rounds + 1, b => do
    let (n, b) ← applyAll (rules p) b
    if n = 0 then return (0, b)
    else
      let (k, b) ← repeatRules p rounds b
      return (n + k, b)

lemma repeatRules_eq (hP : ∀ f, P (.read f) → f < p.fields.size) (rounds : Nat) (hb : b.Fits P) :
    repeatRules p rounds b = some (Simplify.repeatRules p rounds b) := by
  induction rounds generalizing b with
  | zero => rfl
  | succ rounds ih =>
    have hround : (Simplify.applyAll (Simplify.rules p) b).2.Fits P :=
      applyAll_related (R := fun b b' => b.Fits P → b'.Fits P) (fun _ h => h)
        (fun h h' hb => h' (h hb)) (fun _ h _ hb => rules_fits h hb) b hb
    rw [repeatRules, applyAll_eq (rules_eq hP) (fun _ h _ hb => rules_fits h hb) hb,
      bind_eq_bind, bind_some, Simplify.repeatRules]
    generalize Simplify.applyAll (Simplify.rules p) b = r at hround ⊢
    obtain ⟨n, b'⟩ := r
    dsimp only
    split
    · rfl
    · rw [ih hround]
      rfl

/-- Simplifies a body and drops the locals that are left over; answers how much has changed. -/
def body (p : Program) (b : Body) : Option (Nat × Body) := do
  let (n, b) ← repeatRules p (b.stmts.length + 8) b
  match ← compactLocals b with
  | some b => return (n + 1, b)
  | none => return (n, b)

/-- **No look-up of simplification fails in a body that fits.** -/
theorem body_eq (hP : ∀ f, P (.read f) → f < p.fields.size) (hb : b.Fits P) :
    body p b = some (Simplify.body p b) := by
  have hrepeat : (Simplify.repeatRules p (b.stmts.length + 8) b).2.Fits P :=
    repeatRules_related (R := fun b b' => b.Fits P → b'.Fits P) (fun _ h => h)
      (fun h h' hb => h' (h hb)) (fun _ h _ hb => rules_fits h hb) _ b hb
  rw [body, repeatRules_eq hP _ hb, bind_eq_bind, bind_some, Simplify.body]
  generalize Simplify.repeatRules p (b.stmts.length + 8) b = r at hrepeat ⊢
  obtain ⟨n, b'⟩ := r
  dsimp only
  rw [compactLocals_eq hrepeat.toWellFormed, bind_eq_bind, bind_some]
  cases b'.compactLocals? <;> rfl

def isIdle (b : Body) (counts : Array Nat) : Action → Option Bool
  | .assign (.loc l) v => (counts[l]?).map fun n => n == 0 && !b.isParam l && Unused.isFree v
  | .invoke call => some (Unused.isFreeCall call)
  | _ => some false

lemma isIdle_eq (hb : b.WellFormed) (ha : a ∈ b.code) :
    isIdle b b.useCounts a = some (Unused.isIdle b b.useCounts a) := by
  cases a with
  | assign place v =>
    cases place with
    | loc l => rw [isIdle, getElem?_useCounts hb ha]; rfl
    | _ => rfl
  | _ => rfl

/-- Removes idle statements, so many times at most; answers how many. -/
def sweepRounds : Nat → Body → Option (Nat × Body)
  | 0, b => some (0, b)
  | rounds + 1, b => do
    let counts ← useCounts b
    let found ← decorate (isIdle b counts) b
    let n := found.countP (·.2)
    if n = 0 then return (0, b)
    else
      let (k, b) ← sweepRounds rounds
        { b with stmts := (found.filter fun (_, gone) => !gone).map (·.1) }
      return (n + k, b)

lemma sweepRounds_eq (rounds : Nat) (hb : b.WellFormed) :
    sweepRounds rounds b = some (Unused.sweepRounds rounds b) := by
  induction rounds generalizing b with
  | zero => rfl
  | succ rounds ih =>
    have hrest := (Rewrites.filter (p := fun a => !Unused.isIdle b b.useCounts a) hb
      fun _ _ _ _ => rfl).wellFormed hb
    rw [sweepRounds, (useCounts_eq hb).1, bind_eq_bind, bind_some,
      decorate_eq fun a ha => isIdle_eq hb ha, bind_eq_bind, bind_some,
      filter_decorated, countP_decorated, Unused.sweepRounds]
    dsimp only
    split
    · rfl
    · rw [ih hrest]
      rfl

/-- Removes idle statements until there are none; answers how many. -/
def sweep (b : Body) : Option (Nat × Body) := sweepRounds (b.stmts.length + 1) b

/-- **No look-up of the removal of idle statements fails in a well-formed body.** -/
theorem sweep_eq (hb : b.WellFormed) : sweep b = some (Unused.sweep b) := sweepRounds_eq _ hb
end DataflowSpecializer.Checked
