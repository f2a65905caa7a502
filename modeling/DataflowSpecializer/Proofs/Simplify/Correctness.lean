import DataflowSpecializer.Proofs.Simplify.Renumbering

/-! # Simplification does not change what a body does -/
namespace DataflowSpecializer.Simplify
open List
variable {ρ W : Type} {m : Interpretation ρ W} {values : List (Datum ρ)} {w : W} {p : Program}
  {rule : Body → Nat × Body} {P : Demand → Prop}

lemma body_eq (p : Program) (b : Body) : (body p b).2 =
      let b' := (repeatRules p (b.stmts.length + 8) b).2
      b'.compactLocals?.getD b' := by
  unfold body
  generalize repeatRules p (b.stmts.length + 8) b = result
  dsimp only
  cases result.2.compactLocals? <;> rfl

section Related
variable {R : Body → Body → Prop} (hrefl : ∀ b, R b b)
  (htrans : ∀ {b b' b''}, R b b' → R b' b'' → R b b'')

include hrefl htrans

lemma applyAll_related (h : ∀ rule ∈ rs, ∀ b, R b (rule b).2)
    (b : Body) : R b (applyAll rs b).2 := by
  induction rs generalizing b with
  | nil => exact hrefl b
  | cons rule rs ih =>
    have hfirst := h rule (.head _) b
    exact htrans hfirst (ih (fun rule' h' => h rule' (.tail _ h')) (rule b).2)

variable (h : ∀ rule ∈ rules p, ∀ b, R b (rule b).2)

include h

lemma repeatRules_related (rounds : Nat) (b : Body) : R b (repeatRules p rounds b).2 := by
  induction rounds generalizing b with
  | zero => exact hrefl b
  | succ rounds ih =>
    have hround : R b (applyAll (rules p) b).2 := applyAll_related hrefl htrans h b
    simp only [repeatRules]
    split
    · exact hround
    · exact htrans hround (ih _)

lemma body_related
    (hcompact : ∀ {b b'}, b.compactLocals? = some b' → R b b') (b : Body) : R b (body p b).2 := by
  have hrepeat : R b _ := repeatRules_related hrefl htrans h (b.stmts.length + 8) b
  rw [body_eq]
  generalize (repeatRules p (b.stmts.length + 8) b).2 = b' at hrepeat ⊢
  cases hb' : b'.compactLocals? with
  | none => simpa [hb'] using hrepeat
  | some b'' => simpa [hb'] using htrans hrepeat (hcompact hb')
end Related

lemma rules_sound (hm : m.Conforms p) (h : rule ∈ rules p) (b : Body) :
    Sound m values w b (rule b).2 := by
  simp only [rules, mem_cons, not_mem_nil, or_false] at h
  rcases h with rfl | rfl | rfl | rfl | rfl | rfl | rfl | rfl | rfl | rfl | rfl
  · exact foldTextField_sound hm
  · exact propagateConstants_sound
  · exact propagateCopies_sound
  · exact foldCast_sound
  · exact foldOperation_sound hm
  · exact foldBranch_sound hm
  · exact removeUnreachable_sound
  · exact removeJumps_sound
  · exact removeLabels_sound
  · exact removeDeadCopies_sound hm
  · exact removeNops_sound

lemma body_sound (hm : m.Conforms p) (b : Body) : Sound m values w b (body p b).2 :=
  body_related .refl .trans (fun _ h => rules_sound hm h) compactLocals?_sound b

/-- **Simplification keeps the meaning of a body.**  From any arguments and in any world, a body
whose run reads no local before it is assigned performs the same effects when it is simplified,
and ends alike or, like before, never. -/
theorem body_sameBehaviour (hm : m.Conforms p) {b : Body} (hb : Regular m values w b) :
    Regular m values w (body p b).2 ∧
      SameBehaviour (b.step m) ((body p b).2.step m) (b.start values w)
        ((body p b).2.start values w) ∧ (RunsForever (b.step m) (b.start values w) ↔
        RunsForever ((body p b).2.step m) ((body p b).2.start values w)) := by
  obtain ⟨hregular, hsame⟩ := body_sound hm b hb
  exact ⟨hregular, hsame, hsame.runsForever⟩

lemma rules_fits (h : rule ∈ rules p) {b : Body} (hb : b.Fits P) : (rule b).2.Fits P := by
  have hwf := hb.toWellFormed
  simp only [rules, mem_cons, not_mem_nil, or_false] at h
  rcases h with rfl | rfl | rfl | rfl | rfl | rfl | rfl | rfl | rfl | rfl | rfl
  · exact (change_rewrites foldTextField_folded hwf).fits hb
  · exact (propagateConstants_rewrites hwf).fits hb
  · exact propagateCopies_fits hb
  · exact (change_rewrites foldCast_folded hwf).fits hb
  · exact (change_rewrites foldOperation_folded hwf).fits hb
  · exact (change_rewrites foldBranch_folded hwf).fits hb
  · exact (removeUnreachable_rewrites hwf).fits hb
  · exact (removeJumps_rewrites hwf).fits hb
  · exact (removeLabels_rewrites hwf).fits hb
  · exact (removeDeadCopies_rewrites hwf).fits hb
  · exact (removeNops_rewrites hwf).fits hb

lemma body_fits {b : Body} (hb : b.Fits P) : (body p b).2.Fits P :=
  body_related (R := fun b b' => b.Fits P → b'.Fits P) (fun _ h => h) (fun h h' hb => h' (h hb))
    (fun _ h _ hb => rules_fits h hb)
    (fun h hb => (compactLocals?_rewrites hb.toWellFormed h).fits hb) b hb

lemma rules_nextStmt (h : rule ∈ rules p) (b : Body) : (rule b).2.nextStmt = b.nextStmt := by
  simp only [rules, mem_cons, not_mem_nil, or_false] at h
  rcases h with rfl | rfl | rfl | rfl | rfl | rfl | rfl | rfl | rfl | rfl | rfl
  case inr.inr.inl =>
    unfold propagateCopies
    split
    · rfl
    · refine foldlRecOn _ _ (motive := fun r : Nat × Body => r.2.nextStmt = b.nextStmt) rfl
        fun r hr l _ => ?_
      unfold removeCopy
      dsimp only
      split <;> exact hr
  all_goals rfl

lemma body_nextStmt (p : Program) (b : Body) : (body p b).2.nextStmt = b.nextStmt :=
  body_related (R := fun b b' => b'.nextStmt = b.nextStmt) (fun _ => rfl) (fun h h' => h'.trans h)
    (fun _ => rules_nextStmt) (fun h => by rw [compactLocals?_eq_some h]) b

def constants : Interpretation Unit Unit where
  perform _ w := (.value (.const .null), w)
  cast _ v := some v
  instanceOf _ _ := false
  binary
    | op, .const a, .const b => (op.compute? a b).map .const
    | _, _, _ => none
  negate
    | .const a => a.negated?.map .const
    | _ => none
  not
    | .const a => a.negation?.map .const
    | _ => none
  text _ := none

lemma constants_conforms : constants.Conforms .empty where
  cast _ _ := rfl
  binary op a b c h := by simp [constants, h]
  negate a c h := by simp [constants, h]
  not a c h := by simp [constants, h]
  text f s h := by cases h

/-- Logs a copy of its argument and returns it; there is a branch that is always taken. -/
def logged : Body where
  locals := #[⟨"x", .int⟩, ⟨"n", .int⟩, ⟨"test", .boolean⟩, ⟨"copy", .int⟩]
  stmts := [
    ⟨0, .set 1 (.use (.int 2))⟩,
    ⟨1, .set 2 (.binary .eq (.loc 1) (.int 2))⟩,
    ⟨2, .branch .eq (.loc 2) (.const (.bool true)) 0⟩,
    ⟨3, .throw (.loc 0)⟩,
    ⟨4, .label 0⟩,
    ⟨5, .set 3 (.use (.loc 0))⟩,
    ⟨6, .invoke ⟨.static, none, ⟨"Log", "write", [.int], .void⟩, [.loc 3]⟩⟩,
    ⟨7, .ret (some (.loc 3))⟩]
  receiver := none
  params := [0]
  nextStmt := 8
  nextLabel := 1

example : (body .empty logged).2.code = [
    .invoke ⟨.static, none, ⟨"Log", "write", [.int], .void⟩, [.loc 0]⟩,
    .ret (some (.loc 0))] := by decide +kernel

lemma logged_ends (x : Constant) : Ends (logged.step constants) (logged.start [.const x] ())
      [.call .static none ⟨"Log", "write", [.int], .void⟩ [.const x]]
      (.returned (some (.const x))) := by
  show Ends _ _ ([] ++ ([] ++ ([] ++ ([] ++ ([_] ++ []))))) _
  exact .next rfl (.next rfl (.next rfl (.next rfl (.next rfl (.done rfl)))))

lemma logged_regular (x : Constant) : Regular constants [.const x] () logged where
  wellFormed := by
    have htargets : ∀ a ∈ logged.code, ∀ l ∈ a.jump?, .label l ∈ logged.code := by decide
    exact ⟨by decide, by decide, htargets, by decide, by decide⟩
  assigned es hes := by cases ((logged_ends x).unique hes).2
  typed _ _ _ _ _ _ := rfl

theorem logged_simplified_ends :
    Ends ((body .empty logged).2.step constants) ((body .empty logged).2.start [.const (.int 7)] ())
      [.call .static none ⟨"Log", "write", [.int], .void⟩ [.const (.int 7)]]
      (.returned (some (.const (.int 7)))) :=
  ((body_sameBehaviour constants_conforms (logged_regular (.int 7))).2.1.ends _ _).1
    (logged_ends (.int 7))
end DataflowSpecializer.Simplify
