import Mathlib.Order.Nat
import Mathlib.Tactic.Common

/-! # Behaviours of deterministic machines -/
namespace DataflowSpecializer
open List
/-- What a step does: it performs events, and leads on or ends the run. -/
inductive Step (ε ω σ : Type) where
  | next (events : List ε) (state : σ)
  | done (events : List ε) (ending : ω)

section Runs
variable {ε ω σ : Type} (step : σ → Step ε ω σ)

/-- A run gets from one state to another and performs these events. -/
inductive Reaches : σ → List ε → σ → Prop
  | refl (s : σ) : Reaches s [] s
  | head {s t u : σ} {es fs : List ε} :
      step s = .next es t → Reaches t fs u → Reaches s (es ++ fs) u

/-- The run from here performs these events and comes to this end. -/
inductive Ends : σ → List ε → ω → Prop
  | done {s : σ} {es : List ε} {w : ω} : step s = .done es w → Ends s es w
  | next {s t : σ} {es fs : List ε} {w : ω} :
      step s = .next es t → Ends t fs w → Ends s (es ++ fs) w

/-- A run that has no end: wherever it gets, there is a further step. -/
def RunsForever (s : σ) : Prop := ∀ es t, Reaches step s es t → ∃ fs u, step t = .next fs u

variable {step} {es fs : List ε} {s t : σ}

lemma Reaches.single (h : step s = .next es t) : Reaches step s es t := by
  have := Reaches.head h (.refl t)
  rwa [append_nil] at this

lemma Reaches.trans (hst : Reaches step s es t)
    (htu : Reaches step t fs u) : Reaches step s (es ++ fs) u := by
  induction hst with
  | refl => exact htu
  | head h _ ih =>
    rw [append_assoc]
    exact .head h (ih htu)

lemma Reaches.invariant {es : List ε} (h : Reaches step s es t) {P : σ → Prop} (hs : P s)
    (hstep : ∀ {fs gs : List ε} {u v : σ}, Reaches step s fs u → P u → step u = .next gs v → P v) :
    P t := by
  induction h with
  | refl => exact hs
  | head hst _ ih => exact ih (hstep (.refl _) hs hst) fun hu => hstep (.head hst hu)

lemma Reaches.ends (h : Reaches step s es t)
    (ht : Ends step t fs w) : Ends step s (es ++ fs) w := by
  induction h with
  | refl => exact ht
  | head h _ ih =>
    rw [append_assoc]
    exact .next h (ih ht)

lemma Ends.not_runsForever (h : Ends step s es w) : ¬ RunsForever step s := by
  induction h with
  | @done s es w hs =>
    intro hforever
    obtain ⟨fs, u, hu⟩ := hforever [] s (.refl s)
    rw [hs] at hu
    cases hu
  | next hs _ ih =>
    intro hforever
    exact ih fun es t ht => hforever _ t (.head hs ht)

lemma Ends.unique (h : Ends step s es w) (h' : Ends step s fs w') : es = fs ∧ w = w' := by
  induction h generalizing fs with
  | done hs =>
    cases h' with
    | done hs' => rw [hs] at hs'; cases hs'; exact ⟨rfl, rfl⟩
    | next hs' => rw [hs] at hs'; cases hs'
  | next hs _ ih =>
    cases h' with
    | done hs' => rw [hs] at hs'; cases hs'
    | next hs' ht =>
      rw [hs] at hs'
      cases hs'
      obtain ⟨rfl, rfl⟩ := ih ht
      exact ⟨rfl, rfl⟩

lemma Reaches.last_unique
    (ht : Reaches step s es t) (hu : Reaches step s fs u) (ht' : step t = .done es' w)
    (hu' : step u = .done fs' w') : t = u := by
  induction ht generalizing fs with
  | refl =>
    cases hu with
    | refl => rfl
    | head hs => rw [hs] at ht'; cases ht'
  | head hs _ ih =>
    cases hu with
    | refl => rw [hs] at hu'; cases hu'
    | head hs' hu =>
      rw [hs] at hs'
      cases hs'
      exact ih hu ht'

lemma runsForever_iff : RunsForever step s ↔ ¬ ∃ es w, Ends step s es w := by
  constructor
  · rintro hforever ⟨es, w, h⟩
    exact h.not_runsForever hforever
  · intro hnever es t ht
    cases hstep : step t with
    | next fs u => exact ⟨fs, u, rfl⟩
    | done fs w => exact absurd ⟨_, w, ht.ends (.done hstep)⟩ hnever
end Runs

/-! ## Comparison -/
section Comparison
variable {ε ω σ τ υ : Type} {step : σ → Step ε ω σ} {step' : τ → Step ε ω τ}
  {step'' : υ → Step ε ω υ}

/-- Both machines perform the same events and come to the same ends. -/
structure SameBehaviour (step : σ → Step ε ω σ) (step' : τ → Step ε ω τ) (s : σ) (t : τ) :
    Prop where
  performs : ∀ es, (∃ u, Reaches step s es u) ↔ ∃ u, Reaches step' t es u
  ends : ∀ es w, Ends step s es w ↔ Ends step' t es w

lemma SameBehaviour.refl (s : σ) : SameBehaviour step step s s := ⟨fun _ => .rfl, fun _ _ => .rfl⟩

lemma SameBehaviour.trans (hst : SameBehaviour step step' s t)
    (htu : SameBehaviour step' step'' t u) : SameBehaviour step step'' s u :=
  ⟨fun es => (hst.performs es).trans (htu.performs es),
    fun es w => (hst.ends es w).trans (htu.ends es w)⟩

lemma SameBehaviour.runsForever (h : SameBehaviour step step' s t) :
    RunsForever step s ↔ RunsForever step' t := by
  simp only [runsForever_iff, h.ends]

inductive Step.Alike (R : σ → τ → Prop) : Step ε ω σ → Step ε ω τ → Prop
  | next {es : List ε} {s : σ} {t : τ} : R s t → Alike R (.next es s) (.next es t)
  | done (es : List ε) (w : ω) : Alike R (.done es w) (.done es w)

inductive Advance (step : σ → Step ε ω σ) (step' : τ → Step ε ω τ) (R : σ → τ → Prop)
    (rank : σ → τ → Nat) (s : σ) (t : τ) : Prop
  /-- The first one takes a step without events, and the second one waits. -/
  | left {s' : σ} : step s = .next [] s' → R s' t → rank s' t < rank s t →
      Advance step step' R rank s t
  /-- The second one takes a step without events, and the first one waits. -/
  | right {t' : τ} : step' t = .next [] t' → R s t' → rank s t' < rank s t →
      Advance step step' R rank s t
  | both {es : List ε} {s' : σ} {t' : τ} : step s = .next es s' → step' t = .next es t' →
      R s' t' → Advance step step' R rank s t
  | done {es : List ε} {w : ω} : step s = .done es w → step' t = .done es w →
      Advance step step' R rank s t

def Simulation (step : σ → Step ε ω σ) (step' : τ → Step ε ω τ) (R : σ → τ → Prop)
    (rank : σ → τ → Nat) : Prop :=
  ∀ s t, R s t → Advance step step' R rank s t

namespace Simulation
variable {R : σ → τ → Prop} {rank : σ → τ → Nat} {es : List ε} {t : τ} {s : σ}

variable (h : Simulation step step' R rank)

include h

lemma symm : Simulation step' step (fun t s => R s t) (fun t s => rank s t) := by
  intro t s hst
  cases h s t hst with
  | left hs hr hrank => exact .right hs hr hrank
  | right ht hr hrank => exact .left ht hr hrank
  | both hs ht hr => exact .both ht hs hr
  | done hs ht => exact .done ht hs

lemma follow (hst : R s t) (hs : step s = .next es s') : ∃ t', Reaches step' t es t' ∧ R s' t' := by
  -- Only the second machine can make the first one wait, and each time the rank decreases.
  induction hn : rank s t using Nat.strongRecOn generalizing t with
  | ind n ih =>
    cases h s t hst with
    | left hs' hr _ =>
      rw [hs] at hs'
      cases hs'
      exact ⟨t, .refl t, hr⟩
    | @right t' ht hr hrank =>
      obtain ⟨u, hu, hru⟩ := ih (rank s t') (hn ▸ hrank) hr rfl
      exact ⟨u, .head ht hu, hru⟩
    | both hs' ht hr =>
      rw [hs] at hs'
      cases hs'
      exact ⟨_, .single ht, hr⟩
    | done hs' _ =>
      rw [hs] at hs'
      cases hs'

lemma follow_reaches (hs : Reaches step s es s') :
    ∀ {t : τ}, R s t → ∃ t', Reaches step' t es t' ∧ R s' t' := by
  induction hs with
  | refl s => exact fun {t} hst => ⟨t, .refl t, hst⟩
  | head hs _ ih =>
    intro t hst
    obtain ⟨u, hu, hru⟩ := h.follow hst hs
    obtain ⟨t', ht', hr⟩ := ih hru
    exact ⟨t', hu.trans ht', hr⟩

lemma follow_done (hst : R s t) (hs : step s = .done es w) : Ends step' t es w := by
  induction hn : rank s t using Nat.strongRecOn generalizing t with
  | ind n ih =>
    cases h s t hst with
    | left hs' _ _ | both hs' _ _ =>
      rw [hs] at hs'
      cases hs'
    | @right t' ht hr hrank => exact .next ht (ih (rank s t') (hn ▸ hrank) hr rfl)
    | done hs' ht =>
      rw [hs] at hs'
      cases hs'
      exact .done ht

lemma follow_ends (hs : Ends step s es w) : ∀ {t : τ}, R s t → Ends step' t es w := by
  induction hs with
  | done hs => exact fun hst => h.follow_done hst hs
  | next hs _ ih =>
    intro t hst
    obtain ⟨u, hu, hru⟩ := h.follow hst hs
    exact hu.ends (ih hru)

/-- **Related machines behave alike.** -/
theorem sameBehaviour (hst : R s t) :
    SameBehaviour step step' s t where
  performs es := by
    constructor
    · rintro ⟨u, hu⟩
      obtain ⟨v, hv, -⟩ := h.follow_reaches hu hst
      exact ⟨v, hv⟩
    · rintro ⟨u, hu⟩
      obtain ⟨v, hv, -⟩ := h.symm.follow_reaches hu hst
      exact ⟨v, hv⟩
  ends es w := ⟨fun hs => h.follow_ends hs hst, fun ht => h.symm.follow_ends ht hst⟩
end Simulation
end Comparison
end DataflowSpecializer
