import DataflowSpecializer.Proofs.Run.Reached

/-! # The loop over the iterations -/
namespace DataflowSpecializer
open List Option
namespace Specialization
variable {s : Specialization}

lemma Reached.topClass (h : Reached m o stages s) : ∃ c, s.classOf.get? Model.top = some c := by
  induction h with
  | generated h =>
    obtain ⟨c, hc, -⟩ := (Classes.generated_of_eq_ok h).loop
    exact ⟨c, hc⟩
  | @reduced _ stage _ _ s _ hs hx h ih =>
    obtain ⟨-, hextends, hshrinks⟩ := reduction_ensures hs.fit hx _ _ h
    by_cases hstage : stage = .deadCode
    · rwa [(hshrinks hstage).1.classOf]
    · rwa [(hextends hstage).classOf]

lemma Reached.loop (h : Reached m o stages s) (hstages : .deadCode ∉ stages)
    (hc : s.classOf.get? Model.top = some c) : s.program.HasMethod c "execute" := by
  induction h with
  | generated h =>
    obtain ⟨k, hk, hloop⟩ := (Classes.generated_of_eq_ok h).loop
    obtain rfl := some.inj (hk.symm.trans hc)
    exact hloop
  | @reduced _ stage _ _ s _ hs hx h ih =>
    obtain ⟨hbefore, hstage⟩ := not_or.1 (fun h => hstages (mem_append.2 h))
    have hextends := (reduction_ensures hs.fit hx _ _ h).2.1 fun heq => hstage (by simp [heq])
    rw [hextends.classOf] at hc
    exact hextends.program.hasMethod (ih hbefore hc)

lemma Reached.noLoop (h : Reached m o (stages ++ [.deadCode]) s) (c : ClassId) :
    ¬ s.program.HasMethod c "execute" := by
  generalize hall : stages ++ [Stage.deadCode] = all at h
  cases h with
  | generated h => cases append_ne_nil_of_right_ne_nil _ (cons_ne_nil _ _) hall
  | reduced hs hx h =>
    obtain ⟨-, hlast⟩ := append_inj' hall rfl
    exact ((reduction_ensures hs.fit hx _ _ h).2.2 (singleton_inj.1 hlast).symm).2 c
end Specialization

namespace Run
open DataflowSpecializer.Specialization (Reached after? reached_of_after?)

lemma getLast?_rounds (k : Nat) :
    (replicate (k + 1) (Stage.round .verify)).flatten.getLast? = some .deadCode := by
  rw [replicate_succ', flatten_append, flatten_singleton, getLast?_append, Stage.round_verify]
  rfl

/-- The loop over the iterations is there until unused code is removed and not after that, so that
no run to the last stage keeps it. The class of the top-level entity is live throughout. -/
theorem loop_lost_with_unused_code (m : Model) (o : Options) :
    (∀ stages s, Reached m o stages s → ∃ c, s.classOf? Model.top = some c ∧
      s.program.isLiveClass c ∧
      (.deadCode ∉ stages → (s.program.method? c "execute").isSome) ∧
      (stages.getLast? = some .deadCode → s.program.method? c "execute" = none)) ∧
    ∀ {σ : Type} (clock : StateM σ Nat) (w : σ) (p : Option Provenance) (r : Run),
      (upTo clock .verify { start m o with provenance := p } w).1 = (none, r) →
      ∃ c, r.spec.classOf? Model.top = some c ∧ r.spec.program.isLiveClass c ∧
        r.spec.program.method? c "execute" = none := by
  have hreached : ∀ stages s, Reached m o stages s → ∃ c, s.classOf? Model.top = some c ∧
      s.program.isLiveClass c ∧
      (.deadCode ∉ stages → (s.program.method? c "execute").isSome) ∧
      (stages.getLast? = some .deadCode → s.program.method? c "execute" = none) := by
    intro stages s h
    obtain ⟨c, hc⟩ := h.topClass
    have hclass := h.fit.objectClass hc
    have hmethod : (s.program.method? c "execute").isSome ↔ s.program.HasMethod c "execute" :=
      h.fit.layout.isSome_method?_iff hclass.lt
    refine ⟨c, hc, by simp [Program.isLiveClass, hclass.live], fun hstages => ?_, fun hlast => ?_⟩
    · exact hmethod.2 (h.loop hstages hc)
    · obtain ⟨before, rfl⟩ := getLast?_eq_some_iff.1 hlast
      rw [← not_isSome_iff_eq_none, hmethod]
      exact h.noLoop c
  refine ⟨hreached, fun clock w p r hr => ?_⟩
  have h := upTo_reaches clock w .verify (r := { start m o with provenance := p }) rfl
  rw [hr] at h
  obtain ⟨k, s, hs, all, hspec⟩ := h
  obtain ⟨c, hc, hlive, -, hgone⟩ := hreached _ s hs
  rw [hspec]
  exact ⟨c, hc, hlive, hgone (getLast?_rounds k)⟩

/-- In a composite with nothing in it, a stage that adds fields keeps the loop and the removal of
unused code drops it. -/
theorem loop_lost_after_references : ∃ m s s', Reached m {} [.fieldsForAttributes] s ∧
      Reached m {} [.fieldsForAttributes, .deadCode] s' ∧
      (∃ c, s.classOf? Model.top = some c ∧ (s.program.method? c "execute").isSome) ∧
      ∃ c, s'.classOf? Model.top = some c ∧ s'.program.method? c "execute" = none := by
  have h : ((Model.ofDescription { name := "M" }).toOption.any fun m =>
      (after? m {} [.fieldsForAttributes]).isSome &&
        (after? m {} [.fieldsForAttributes, .deadCode]).isSome) := by
    decide +kernel
  obtain ⟨m, -, h⟩ := (Option.any_eq_true _ _).1 h
  obtain ⟨h, h'⟩ := (Bool.and_eq_true_iff ..).1 h
  obtain ⟨s, hs⟩ := isSome_iff_exists.1 h
  obtain ⟨s', hs'⟩ := isSome_iff_exists.1 h'
  have hreached := reached_of_after? hs
  have hreached' := reached_of_after? hs'
  obtain ⟨c, hc, -, hkept, -⟩ := (loop_lost_with_unused_code m {}).1 _ s hreached
  obtain ⟨c', hc', -, -, hlost⟩ := (loop_lost_with_unused_code m {}).1 _ s' hreached'
  exact ⟨m, s, s', hreached, hreached', ⟨c, hc, hkept (by decide)⟩, c', hc', hlost rfl⟩

/-- A composite with nothing in it already loses its loop. -/
theorem loop_lost_of_empty_composite : ∃ r, verified? { name := "M" } {} = some r ∧
      ∃ c, r.spec.classOf? Model.top = some c ∧ r.spec.program.method? c "execute" = none := by
  have h : (verified? { name := "M" } {}).any (fun r =>
      (r.spec.classOf? Model.top).any fun c => (r.spec.program.method? c "execute").isNone) := by
    decide +kernel
  obtain ⟨r, hr, h⟩ := (Option.any_eq_true _ _).1 h
  obtain ⟨c, hc, h⟩ := (Option.any_eq_true _ _).1 h
  exact ⟨r, hr, c, hc, isNone_iff_eq_none.1 h⟩
end Run
end DataflowSpecializer
