import DataflowSpecializer.Code.Draft
import DataflowSpecializer.Proofs.Code.Block
import DataflowSpecializer.Proofs.Generate.Runtime

/-! # Writing code that computes

`Draft.Writes` says what a step of writing leaves in a draft, and `Draft.Emits` joins to it what the
written statements do: begun in a state of which something is known, they compute a value and leave
it where the step said, or they trap.
-/
namespace DataflowSpecializer
open Platform Library List Option Executes DataflowSpecializer.Action Env

def Env.AgreeBelow {ρ : Type} (n : Nat) (env env' : Env ρ) : Prop := ∀ l < n, env' l = env l

lemma Env.AgreeBelow.refl {ρ : Type} (n : Nat) (env : Env ρ) : env.AgreeBelow n env :=
  fun _ _ => rfl

lemma Env.AgreeBelow.trans {ρ : Type} {n k : Nat} {env env' env'' : Env ρ} (hnk : n ≤ k)
    (h : env.AgreeBelow n env') (h' : env'.AgreeBelow k env'') : env.AgreeBelow n env'' :=
  fun l hl => (h' l (hl.trans_le hnk)).trans (h l hl)

lemma Env.AgreeBelow.set {ρ : Type} (env : Env ρ) (h : n ≤ l) (v : Datum ρ) :
    env.AgreeBelow n (env.set l v) := fun _ hk =>
  set_of_ne env (hk.trans_le h).ne v

namespace Draft
def size (d : Draft) : Nat := d.body.locals.size
def nextLabel (d : Draft) : Nat := d.body.nextLabel

lemma bind_run {α β : Type} (x : Drafting α) (k : α → Drafting β) (d : Draft) :
    (x >>= k) d = k (x d).1 (x d).2 := rfl

structure Writes (d d' : Draft) (f : List Action) : Prop where
  actions : d'.actions = d.actions ++ f
  locals : d.size ≤ d'.size
  labels : d.nextLabel ≤ d'.nextLabel
  placed : ∀ l : Nat, Action.label l ∈ f → d.nextLabel ≤ l ∧ l < d'.nextLabel

section Writes
variable {d d1 d2 : Draft} {f g : List Action}

lemma Writes.refl (d : Draft) : Writes d d [] where
  actions := (append_nil _).symm
  locals := .refl
  labels := .refl
  placed := fun _ h => by cases h

variable (hf : Writes d d1 f)

include hf

lemma Writes.trans (hg : Writes d1 d2 g) : Writes d d2 (f ++ g) where
  actions := by rw [hg.actions, hf.actions, append_assoc]
  locals := hf.locals.trans hg.locals
  labels := hf.labels.trans hg.labels
  placed l hl := by
    rcases mem_append.1 hl with hl | hl
    · exact ⟨(hf.placed l hl).1, (hf.placed l hl).2.trans_le hg.labels⟩
    · exact ⟨hf.labels.trans (hg.placed l hl).1, (hg.placed l hl).2⟩

lemma Writes.unique (hg : Writes d d1 g) : f = g :=
  append_cancel_left (hf.actions.symm.trans hg.actions)

lemma Writes.fresh (hg : Writes d1 d2 g) : Fresh g f := fun l hg' hf' =>
  Nat.lt_irrefl l ((hf.placed l hf').2.trans_le (hg.placed l hg').1)
end Writes

section Steps
variable (d : Draft)

lemma value_size (name : String) (t : CodeType) (v : Rvalue) :
    (value name t v d).2.size = d.size + 1 := by
  show (d.body.locals.push _).size = _
  rw [Array.size_push]
  rfl

lemma value_writes (name : String) (t : CodeType) (v : Rvalue) :
    Writes d (value name t v d).2 [.set d.size v] where
  actions := by
    show (d.pending.push _).toList = _
    rw [Array.toList_push]
    rfl
  locals := by rw [value_size]; exact Nat.le_succ _
  labels := .refl
  placed l h := by simp [Action.set] at h

lemma emit_writes (h : ∀ l, a ≠ .label l) : Writes d (emit a d).2 [a] where
  actions := by
    show (d.pending.push a).toList = _
    rw [Array.toList_push]
    rfl
  locals := .refl
  labels := .refl
  placed l hl := absurd (mem_singleton.1 hl).symm (h l)
end Steps

/-! ## What it does -/
abbrev Assertion : Type := Env Ref → Heap → Prop

/-- `P` speaks of locals below `n` and of arrays that are on the heap, so that it goes on to hold
while other locals are set and other arrays are allocated. -/
def Stable (n : Nat) (P : Assertion) : Prop :=
  ∀ ⦃env env' w w'⦄, env.AgreeBelow n env' → w <+: w' → P env w → P env' w'

def Holds (l : LocalId) (v : Datum Ref) : Assertion := fun env _ => env l = some v

/-- From `d` to `d'`, statements were written that compute `x`. Begun in a state with `P`, they
end in one with `Q` of the outcome, or trap if there is none. They set no local that was
taken before them and no array. -/
structure Emits {α : Type} (m : Interpretation Ref Heap) (d d' : Draft) (P : Assertion)
    (x : Option α) (Q : α → Assertion) : Prop where
  writes : ∃ f, Writes d d' f
  stable : ∀ a, Stable d'.size (Q a)
  computes : ∀ {f}, Writes d d' f → ∀ {env w}, P env w →
    Computes m f env w x fun a env' w' => Q a env' w' ∧ env.AgreeBelow d.size env' ∧ w <+: w'

section Stability
variable {n k : Nat} {P Q : Assertion}

lemma Stable.mono (h : Stable n P) (hnk : n ≤ k) : Stable k P := fun _ _ _ _ henv hw hP =>
  h (fun l hl => henv l (hl.trans_le hnk)) hw hP

lemma Stable.and (hP : Stable n P) (hQ : Stable n Q) : Stable n fun env w => P env w ∧ Q env w :=
  fun _ _ _ _ henv hw h => ⟨hP henv hw h.1, hQ henv hw h.2⟩

lemma stable_holds (h : l < n) (v : Datum Ref) : Stable n (Holds l v) :=
  fun _ _ _ _ henv _ hl => (henv l h).trans hl
end Stability

section Emits
variable {α β : Type} {m : Interpretation Ref Heap} {d d1 d2 : Draft} {P : Assertion}
  {x : Option α} {y : Option β} {Q : α → Assertion} {R : β → Assertion}

lemma Emits.pure (hQ : ∀ a, Stable d.size (Q a)) (h : ∀ {env w}, P env w → Q a env w) :
    Emits m d d P (some a) Q where
  writes := ⟨_, .refl d⟩
  stable := hQ
  computes hf env w hP := by
    rw [hf.unique (.refl d)]
    exact .pure ⟨h hP, .refl _ _, prefix_refl w⟩

lemma Emits.bind [Nonempty α] {k : α → Option β} (h1 : Emits m d d1 P x Q) (hP : Stable d.size P)
    (h2 : ∀ a P', Stable d1.size P' → (∀ {env w}, P' env w → x = some a ∧ Q a env w ∧ P env w) →
      Emits m d1 d2 P' (k a) R) :
    Emits m d d2 P (x.bind k) R := by
  obtain ⟨f, hf⟩ := h1.writes
  have hstable (a : α) : Stable d1.size fun env w => x = some a ∧ Q a env w ∧ P env w :=
    fun _ _ _ _ henv hw h => ⟨h.1, h1.stable a henv hw h.2.1, hP.mono hf.locals henv hw h.2.2⟩
  have h2 (a : α) := h2 a _ (hstable a) id
  obtain ⟨g, hg⟩ := (h2 (Classical.arbitrary α)).writes
  refine ⟨⟨_, hf.trans hg⟩, (h2 (Classical.arbitrary α)).stable, fun hfg env w hpre => ?_⟩
  obtain rfl := hfg.unique (hf.trans hg)
  have hfirst := h1.computes hf hpre
  cases x with
  | none => exact fails_append hfirst
  | some a =>
    obtain ⟨env', w', hexec, hQ, henv, hw⟩ := hfirst
    refine hexec.computes ?_ (hf.fresh hg)
    refine ((h2 a).computes hg ⟨rfl, hQ, hP henv hw hpre⟩).imp ?_
    rintro b env'' w'' ⟨hR, henv', hw'⟩
    exact ⟨hR, henv.trans hf.locals henv', hw.trans hw'⟩

lemma Emits.congr (h : Emits m d d1 P x Q)
    (hx : ∀ {env w}, P env w → x' = x) : Emits m d d1 P x' Q where
  writes := h.writes
  stable := h.stable
  computes hf env w hP := by
    rw [hx hP]
    exact h.computes hf hP

lemma Emits.seq [Nonempty α] (h1 : Emits m d d1 P x Q) (hP : Stable d.size P)
    (hnone : ∀ {env w}, P env w → x = none → y = none)
    (h2 : ∀ a P', Stable d1.size P' → (∀ {env w}, P' env w → x = some a ∧ Q a env w ∧ P env w) →
      Emits m d1 d2 P' y R) :
    Emits m d d2 P y R := by
  refine (h1.bind (k := fun _ => y) hP h2).congr fun hpre => ?_
  cases x with
  | none => exact hnone hpre rfl
  | some a => rfl

lemma Emits.note {F : α → Prop} (h : Emits m d d1 P x Q)
    (hF : ∀ {env w}, P env w → ∀ a, x = some a → F a) :
    Emits m d d1 P x fun a env w => Q a env w ∧ F a where
  writes := h.writes
  stable a _ _ _ _ henv hw hQ := ⟨h.stable a henv hw hQ.1, hQ.2⟩
  computes hf env w hP := by
    have hx := h.computes hf hP
    cases x with
    | none => exact hx
    | some a =>
      obtain ⟨env', w', hexec, hQ, hrest⟩ := hx
      exact ⟨env', w', hexec, ⟨hQ, hF hP a rfl⟩, hrest⟩

lemma Emits.of_map (h : Emits m d d1 P (x.map g) R) : Emits m d d1 P x fun a => R (g a) where
  writes := h.writes
  stable a := h.stable (g a)
  computes hf env w hP := by
    have hx := h.computes hf hP
    cases x with
    | none | some a => exact hx
end Emits

section Single
variable {α : Type} {m : Interpretation Ref Heap} {d : Draft} {P : Assertion}

def outcome : Reply Ref → Option (Datum Ref)
  | .value v => some v
  | .throws _ | .traps _ => none

lemma stable_value_holds (name : String) (t : CodeType) (v : Rvalue) (u : Datum Ref) :
    Stable (value name t v d).2.size (Holds (value name t v d).1 u) :=
  stable_holds (by rw [value_size]; exact Nat.lt_succ_self _) u

lemma value_emits (name : String) (t : CodeType) {v : Rvalue}
    (h : ∀ {env w}, P env w → ∃ e r w', v.evaluate m env = some (.effect e) ∧
      m.perform e w = (r, w') ∧ (∀ u, r ≠ .throws u) ∧ outcome r = y ∧ w <+: w') :
    Emits m d (value name t v d).2 P y (Holds (value name t v d).1) where
  writes := ⟨_, value_writes d name t v⟩
  stable := stable_value_holds name t v
  computes hf env w hP := by
    rw [hf.unique (value_writes d name t v)]
    obtain ⟨e, r, w', hv, he, hr, rfl, hw⟩ := h hP
    have heval : (Action.set d.size v).evaluate m env = some (.set d.size (.effect e)) := by
      simp only [Action.set, evaluate, hv, map_some]
    cases r with
    | value x => exact ⟨_, w', .set_effect heval he, set_self .., .set env .refl x, hw⟩
    | throws u => exact absurd rfl (hr u)
    | traps c => exact set_effect_fails heval he

lemma cast_emits (name : String) (t : CodeType) (h : ∀ {env w}, P env w → env l = some x) :
    Emits m d (cast name t l d).2 P (m.cast t x) (Holds (cast name t l d).1) where
  writes := ⟨_, value_writes d name t _⟩
  stable := stable_value_holds name t _
  computes hf env w hP := by
    rw [hf.unique (value_writes d name t _)]
    have heval : (Action.set d.size (.cast t (.loc l))).evaluate m env =
        some (.set d.size (.ofOption (.cast t x) (m.cast t x))) := by
      simp only [Action.set, evaluate, Rvalue.evaluate, Operand.read, h hP, map_some]
    cases hcast : m.cast t x with
    | none =>
      rw [hcast] at heval
      exact set_trap heval
    | some v =>
      rw [hcast] at heval
      exact ⟨_, w, .set_value heval, set_self .., .set env .refl v, prefix_refl w⟩
end Single

/-! ## Two ways to a value -/
def opening (name : String) (type : CodeType) (d : Draft) : Draft :=
  (label (label (temp name type d).2).2).2

def turning (result l : LocalId) (other done : Label) (d : Draft) : Draft :=
  (place other (goto done (assign result (.use (.loc l)) d).2).2).2

def closing (result l : LocalId) (done : Label) (d : Draft) : Draft :=
  (place done (assign result (.use (.loc l)) d).2).2

section TwoWays
variable {m : Interpretation Ref Heap} {d d1 d2 d3 : Draft} {test first second : List Action}
  {f : List Action}

@[simp] lemma opening_actions (name : String) (type : CodeType) :
    (opening name type d).actions = d.actions := rfl

@[simp] lemma opening_size (name : String) (type : CodeType) :
    (opening name type d).size = d.size + 1 := by
  show (d.body.locals.push _).size = _
  rw [Array.size_push]
  rfl

@[simp] lemma opening_nextLabel (name : String) (type : CodeType) :
    (opening name type d).nextLabel = d.nextLabel + 2 := rfl

@[simp] lemma turning_actions (result l : LocalId) (other done : Label) :
    (turning result l other done d).actions =
      d.actions ++ [.set result (.use (.loc l)), .goto done, .label other] := by
  show (((d.pending.push _).push _).push _).toList = _
  simp [actions]

@[simp] lemma turning_size (result l : LocalId) (other done : Label) :
    (turning result l other done d).size = d.size := rfl

@[simp] lemma turning_nextLabel (result l : LocalId) (other done : Label) :
    (turning result l other done d).nextLabel = d.nextLabel := rfl

@[simp] lemma closing_actions (result l : LocalId) (done : Label) :
    (closing result l done d).actions =
      d.actions ++ [.set result (.use (.loc l)), .label done] := by
  show ((d.pending.push _).push _).toList = _
  simp [actions]

@[simp] lemma closing_size (result l : LocalId) (done : Label) :
    (closing result l done d).size = d.size := rfl

@[simp] lemma closing_nextLabel (result l : LocalId) (done : Label) :
    (closing result l done d).nextLabel = d.nextLabel := rfl

lemma label_mem_append_set : Action.label l ∈ f ++ [.set x v] ↔ Action.label l ∈ f := by
  simp [Action.set]

variable {name : String} {type : CodeType} {a b : LocalId} {F : Value → Prop} {P : Assertion}

lemma twoWays_writes (htest : Writes (opening name type d) d1 test) (hfirst : Writes d1 d2 first)
    (hsecond : Writes (turning d.size a d.nextLabel (d.nextLabel + 1) d2) d3 second) :
    Writes d (closing d.size b (d.nextLabel + 1) d3)
        (twoWays test (first ++ [.set d.size (.use (.loc a))])
          (second ++ [.set d.size (.use (.loc b))]) d.nextLabel (d.nextLabel + 1)) ∧
      TwoWays test (first ++ [.set d.size (.use (.loc a))])
        (second ++ [.set d.size (.use (.loc b))]) d.nextLabel (d.nextLabel + 1) := by
  have h1 := htest.labels
  have h2 := hfirst.labels
  have h3 := hsecond.labels
  simp only [opening_nextLabel, turning_nextLabel] at h1 h3
  have htest' := htest.placed
  have hsecond' := hsecond.placed
  simp only [opening_nextLabel, turning_nextLabel] at htest' hsecond'
  refine ⟨⟨?_, ?_, ?_, ?_⟩, ⟨?_, ?_, ?_, ?_, ?_⟩⟩
  · rw [closing_actions, hsecond.actions, turning_actions, hfirst.actions, htest.actions,
      opening_actions]
    simp [twoWays]
  · have := htest.locals
    have := hfirst.locals
    have := hsecond.locals
    simp only [opening_size, turning_size, closing_size] at *
    omega
  · rw [closing_nextLabel]
    omega
  · intro l hl
    rw [closing_nextLabel]
    simp only [twoWays, Action.set, mem_append, mem_cons, not_mem_nil, reduceCtorEq,
      or_false, false_or, Action.label.injEq] at hl
    rcases hl with hl | hl | rfl | hl | rfl
    · have := htest' l hl; omega
    · have := hfirst.placed l hl; omega
    · omega
    · have := hsecond' l hl; omega
    · omega
  · exact Nat.ne_of_lt (Nat.lt_succ_self _)
  iterate 2
    · intro hl
      rw [mem_append, mem_append, label_mem_append_set, label_mem_append_set] at hl
      rcases hl with hl | hl | hl
      · have := htest' _ hl; omega
      · have := hfirst.placed _ hl; omega
      · have := hsecond' _ hl; omega
  · intro l hl hmem
    have := htest' _ hmem
    have := hfirst.placed _ (label_mem_append_set.1 hl)
    omega
  · intro l hl hmem
    have := hsecond' _ (label_mem_append_set.1 hl)
    rw [← append_assoc, label_mem_append_set, mem_append] at hmem
    rcases hmem with hmem | hmem
    · have := htest' _ hmem; omega
    · have := hfirst.placed _ hmem; omega

lemma Emits.then_set {x : Option Value} {l result : LocalId}
    {n : Nat} {Q : Value → Assertion} (h : Emits m d d1 P x Q)
    (hf : Writes d d1 f) (hQ : ∀ {v env w}, Q v env w → env l = some (ofValue v) ∧ F v)
    (hd : n ≤ d.size) (hresult : n ≤ result) {env0 env : Env Ref} {w0 w : Heap}
    (henv0 : env0.AgreeBelow n env) (hw0 : w0 <+: w) (hP : P env w) :
    Computes m (f ++ [.set result (.use (.loc l))]) env w x fun v env' w' =>
      (Holds result (ofValue v) env' w' ∧ F v) ∧ env0.AgreeBelow n env' ∧ w0 <+: w' := by
  have hx := h.computes hf hP
  cases x with
  | none => exact fails_append hx
  | some v =>
    obtain ⟨env', w', hexec, hv, henv, hw⟩ := hx
    have hset : (Action.set result (.use (.loc l))).evaluate m env' =
        some (.set result (.value (ofValue v))) := by
      simp only [Action.set, evaluate, Rvalue.evaluate, Operand.read, (hQ hv).1, map_some]
    exact ⟨_, w', hexec.seq (.set_value hset) (fresh_of_no_label (by simp [Action.set])),
      ⟨set_self .., (hQ hv).2⟩,
      (henv0.trans hd henv).trans (Nat.le_refl n) (.set env' hresult _), hw0.trans hw⟩

lemma twoWays_emits (hP : Stable d.size P) (htest : Writes (opening name type d) d1 test)
    (hexec : ∀ {env w}, P env w → (z = none ∧ Executes m test env w .fails) ∨
      ∃ env1 w1, env.AgreeBelow d.size env1 ∧ w <+: w1 ∧
        (z = x ∧ Executes m test env w (.falls env1 w1) ∨
          z = y ∧ Executes m test env w (.jumps d.nextLabel env1 w1)))
    (hfirst : Emits m d1 d2 P x Q) (hQ : ∀ {v env w}, Q v env w → env a = some (ofValue v) ∧ F v)
    (hsecond : Emits m (turning d.size a d.nextLabel (d.nextLabel + 1) d2) d3 P y R)
    (hR : ∀ {v env w}, R v env w → env b = some (ofValue v) ∧ F v) :
    Emits m d (closing d.size b (d.nextLabel + 1) d3) P z fun v env w =>
      Holds d.size (ofValue v) env w ∧ F v := by
  obtain ⟨first, hfirst'⟩ := hfirst.writes
  obtain ⟨second, hsecond'⟩ := hsecond.writes
  obtain ⟨hwrites, hways⟩ := twoWays_writes (b := b) htest hfirst' hsecond'
  have hsize := htest.locals
  have hsize1 := hfirst'.locals
  have hsize2 := hsecond'.locals
  simp only [opening_size, turning_size] at hsize hsize2
  have hclosing : d.size < (closing d.size b (d.nextLabel + 1) d3).size := by
    rw [closing_size]
    omega
  refine ⟨⟨_, hwrites⟩, fun v => ?_, fun hf env w hpre => ?_⟩
  · exact (stable_holds hclosing _).and fun _ _ _ _ _ _ h => h
  · rw [hf.unique hwrites]
    rcases hexec hpre with ⟨rfl, hfails⟩ | ⟨env1, w1, henv, hw, ⟨rfl, hfalls⟩ | ⟨rfl, hjumps⟩⟩
    · exact fails_append hfails
    · exact hfalls.first_way hways (hfirst.then_set hfirst' hQ (by omega) (Nat.le_refl d.size) henv hw
        (hP henv hw hpre))
    · exact hjumps.second_way hways (hsecond.then_set hsecond' hR (by rw [turning_size]; omega)
        (Nat.le_refl d.size) henv hw (hP henv hw hpre))
end TwoWays
end Draft
end DataflowSpecializer
