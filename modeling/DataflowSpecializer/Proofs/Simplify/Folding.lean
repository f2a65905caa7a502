import DataflowSpecializer.Proofs.Code.Arithmetic
import DataflowSpecializer.Proofs.Simplify.Rewriting

/-! # Folding -/
namespace DataflowSpecializer
open Option DataflowSpecializer.Action Rvalue Rewrite Request
variable {ρ W : Type}

/-- What simplification takes for granted: casts never fail, operations on constants
yield what they do on the machine, and a text field that never changes holds the text it has at
first. -/
structure Interpretation.Conforms (m : Interpretation ρ W) (p : Program) : Prop where
  cast : ∀ t v, (m.cast t v).isSome
  binary : ∀ op a b c, op.compute? a b = some c → m.binary op (.const a) (.const b) = some (.const c)
  negate : ∀ a c, a.negated? = some c → m.negate (.const a) = some (.const c)
  not : ∀ a c, a.negation? = some c → m.not (.const a) = some (.const c)
  text : ∀ f s, (p.fieldDecl f).isFinal → (p.fieldDecl f).type = .string →
    (p.fieldDecl f).initial = some (.string s) → m.text f = some s

namespace Simplify
variable {m : Interpretation ρ W} {values : List (Datum ρ)} {w : W} {p : Program} {b : Body}
  {a a' : Action}

/-- What a statement may be changed to: another value is assigned, or a branch is decided. -/
inductive Folded : Action → Action → Prop
  | value {place : Place} {v : Rvalue} {o : Operand} : o.locals ⊆ v.locals →
      Folded (.assign place v) (.assign place (.use o))
  | taken {op : BinaryOp} {x y : Operand} {target : Label} :
      Folded (.branch op x y target) (.goto target)
  | skipped {op : BinaryOp} {x y : Operand} {target : Label} : Folded (.branch op x y target) .nop

namespace Folded
variable {a a' : Action}

variable (h : Folded a a')

include h

lemma ne_label (l : Label) : a ≠ .label l ∧ a' ≠ .label l := by cases h <;> exact ⟨nofun, nofun⟩

lemma jump? (hl : a'.jump? = some l) : a.jump? = some l := by
  cases h with
  | taken => exact hl
  | value | skipped => cases hl

lemma mentions_subset : a'.mentions ⊆ a.mentions := by
  cases h with
  | @value place v o hsubset =>
    cases place <;> simp_all [mentions, Action.uses, target?, Rvalue.locals]
  | taken | skipped => exact List.nil_subset _

lemma demands_subset : a'.demands ⊆ a.demands := by
  cases h with
  | @value place v o _ => cases place <;> simp [Action.demands, Rvalue.demands]
  | taken | skipped => exact List.nil_subset _
end Folded

lemma evaluate_assign {v v' : Rvalue}
    (h : ∀ r, v.evaluate m env = some r → v'.evaluate m env = some r)
    (hi : (Action.assign place v).evaluate m env = some i) :
    (Action.assign place v').evaluate m env = some i := by
  cases place with
  | loc l =>
    obtain ⟨r, hr, rfl⟩ := map_eq_some_iff.1 hi
    simp only [Action.evaluate, h r hr, map_some]
  | field base f =>
    simp only [Action.evaluate] at hi ⊢
    split at hi
    · rename_i x r hx hr
      rw [hx, h r hr]
      exact hi
    · cases hi
  | element base index =>
    simp only [Action.evaluate] at hi ⊢
    split at hi
    · rename_i x k r hx hk hr
      rw [hx, hk, h r hr]
      exact hi
    · cases hi

section Change
variable {f : Action → Option Action} (hfolded : ∀ a a', f a = some a' → Folded a a')

include hfolded

lemma change_rewrites (hb : b.WellFormed) :
    Rewrites b (change f b).2 (.ofMap fun a => (f a).getD a) := by
  refine .inPlace hb ?_ (keepsLabels_ofMap (fun a l => ?_) fun a l hl => ?_) ?_
  · rw [stmts_ofMap, change]
  · cases hf : f a with
    | none => exact .rfl
    | some a' =>
      have hne := (hfolded a a' hf).ne_label l
      exact iff_of_false hne.2 hne.1
  · cases hf : f a with
    | none => rwa [hf] at hl
    | some a' =>
      rw [hf] at hl
      exact (hfolded a a' hf).jump? hl
  · intro a rest a' _ ha
    obtain rfl : (f a).getD a = a' := some.inj ha
    cases hf : f a with
    | none => exact ⟨fun _ h => h, fun _ h => h⟩
    | some a' => exact ⟨(hfolded a a' hf).mentions_subset, (hfolded a a' hf).demands_subset⟩

lemma change_sound (hevaluate : ∀ {es s a a' i}, Reaches (b.step m) (b.start values w) es s →
      b.Typed m s.env → f a = some a' → a.evaluate m s.env = some i →
      a'.evaluate m s.env = some i) :
    Sound m values w b (change f b).2 := by
  intro hb
  refine (Simulates.inPlace ?_ (change_rewrites hfolded hb.wellFormed) ?_ ?_).sound hb
  · rw [stmts_ofMap, change]
  · intro es s a rest a' i hs hrest hi ha
    obtain rfl : (f a).getD a = a' := some.inj ha
    cases hf : f a with
    | none => exact hi
    | some a' => exact hevaluate hs (hb.typed es s hs) hf hi
  · intro es s a rest i _ _ _ ha
    cases ha
end Change

lemma foldTextField_eq_some (h : foldTextField p a = some a') :
    ∃ place base f s, a = .assign place (.field base f) ∧
      a' = .assign place (.use (.string s)) ∧ (p.fieldDecl f).isFinal ∧
      (p.fieldDecl f).type = .string ∧ (p.fieldDecl f).initial = some (.string s) := by
  unfold foldTextField at h
  split at h
  · rename_i place base f
    dsimp only at h
    split at h
    · rename_i s hfinal htype hinitial
      exact ⟨place, base, f, s, rfl, (some.inj h).symm, hfinal, htype, hinitial⟩
    · cases h
  · cases h

lemma foldTextField_folded (a a' : Action) (h : foldTextField p a = some a') : Folded a a' := by
  obtain ⟨place, base, f, text, rfl, rfl, -⟩ := foldTextField_eq_some h
  exact .value nofun

lemma foldTextField_sound (hm : m.Conforms p) :
    Sound m values w b (change (foldTextField p) b).2 := by
  refine change_sound foldTextField_folded fun {es s a a' i} _ _ h hi => ?_
  obtain ⟨place, base, f, text, rfl, rfl, hfinal, htype, hinitial⟩ := foldTextField_eq_some h
  refine evaluate_assign (fun r hr => ?_) hi
  obtain ⟨x, -, rfl⟩ := map_eq_some_iff.1 hr
  rw [hm.text f text hfinal htype hinitial]
  rfl

lemma foldCast_eq_some (h : foldCast b a = some a') : ∃ place l,
    a = .assign place (.cast (b.localType l) (.loc l)) ∧ a' = .assign place (.use (.loc l)) := by
  unfold foldCast at h
  split at h
  · split at h
    · rename_i place type l htype
      subst htype
      exact ⟨place, l, rfl, (some.inj h).symm⟩
    · cases h
  · cases h

lemma foldCast_folded (a a' : Action) (h : foldCast b a = some a') : Folded a a' := by
  obtain ⟨place, l, rfl, rfl⟩ := foldCast_eq_some h
  exact .value fun _ h => h

lemma foldCast_sound : Sound m values w b (change (foldCast b) b).2 := by
  refine change_sound foldCast_folded fun {es s a a' i} _ htyped h hi => ?_
  obtain ⟨place, l, rfl, rfl⟩ := foldCast_eq_some h
  refine evaluate_assign (fun r hr => ?_) hi
  obtain ⟨v, hv, rfl⟩ := map_eq_some_iff.1 hr
  rw [htyped l v hv]
  simp only [Rvalue.evaluate, hv, map_some, ofOption]

lemma foldOperation_eq_some (h : foldOperation a = some a') :
    ∃ place v c, a = .assign place v ∧ a' = .assign place (.use (.const c)) ∧
      ∀ {ρ W : Type} {m : Interpretation ρ W}, m.Conforms p →
        ∀ env, v.evaluate m env = some (.value (.const c)) := by
  unfold foldOperation at h
  split at h
  · rename_i place op x y
    obtain ⟨c, hc, rfl⟩ := map_eq_some_iff.1 h
    rw [BinaryOp.fold?_eq_compute?] at hc
    refine ⟨place, _, c, rfl, rfl, fun hm env => ?_⟩
    simp only [Rvalue.evaluate, Operand.read, hm.binary op x y c hc, ofOption]
  · rename_i place x
    obtain ⟨c, hc, rfl⟩ := map_eq_some_iff.1 h
    rw [Constant.negate?_eq_negated?] at hc
    refine ⟨place, _, c, rfl, rfl, fun hm env => ?_⟩
    simp only [Rvalue.evaluate, Operand.read, map_some, hm.negate x c hc, ofOption]
  · rename_i place x
    obtain ⟨c, hc, rfl⟩ := map_eq_some_iff.1 h
    rw [Constant.not?_eq_negation?] at hc
    refine ⟨place, _, c, rfl, rfl, fun hm env => ?_⟩
    simp only [Rvalue.evaluate, Operand.read, map_some, hm.not x c hc, ofOption]
  · cases h

lemma foldOperation_folded (a a' : Action) (h : foldOperation a = some a') : Folded a a' := by
  obtain ⟨place, v, c, rfl, rfl, -⟩ := foldOperation_eq_some (p := .empty) h
  exact .value nofun

lemma foldOperation_sound (hm : m.Conforms p) : Sound m values w b (change foldOperation b).2 := by
  refine change_sound foldOperation_folded fun {es s a a' i} _ _ h hi => ?_
  obtain ⟨place, v, c, rfl, rfl, hv⟩ := foldOperation_eq_some h
  refine evaluate_assign (fun r hr => ?_) hi
  rw [hv hm] at hr
  exact hr

lemma foldBranch_eq_some (h : foldBranch a = some a') :
    ∃ op x y target taken, a = .branch op (.const x) (.const y) target ∧
      op.fold? x y = some (.bool taken) ∧ a' = if taken then .goto target else .nop := by
  unfold foldBranch at h
  split at h
  · rename_i op x y target
    split at h
    · rename_i taken htaken
      exact ⟨op, x, y, target, taken, rfl, htaken, (some.inj h).symm⟩
    · cases h
  · cases h

lemma foldBranch_folded (a a' : Action) (h : foldBranch a = some a') : Folded a a' := by
  obtain ⟨op, x, y, target, taken, rfl, -, rfl⟩ := foldBranch_eq_some h
  cases taken with
  | true => exact .taken
  | false => exact .skipped

lemma foldBranch_sound (hm : m.Conforms p) : Sound m values w b (change foldBranch b).2 := by
  refine change_sound foldBranch_folded fun {es s a a' i} _ _ h hi => ?_
  obtain ⟨op, x, y, target, taken, rfl, htaken, rfl⟩ := foldBranch_eq_some h
  rw [BinaryOp.fold?_eq_compute?] at htaken
  simp only [Action.evaluate, Operand.read, hm.binary op x y _ htaken] at hi
  cases taken <;> exact hi
end Simplify
end DataflowSpecializer
