import DataflowSpecializer.Proofs.Code.Machine

/-! # Blocks of code

A block is a list of statements that is entered at its beginning. `Executes` says how it is left,
in whatever code it stands: at its end, by a jump to a label, or by a trap.
-/
namespace DataflowSpecializer
open List Config Instruction DataflowSpecializer.Action
variable {ρ W : Type} {m : Interpretation ρ W} {f g pre : List Action}

def Fresh (f pre : List Action) : Prop := ∀ l, label l ∈ f → label l ∉ pre

inductive Exit (ρ W : Type) where
  | falls (env : Env ρ) (world : W)
  | jumps (target : Label) (env : Env ρ) (world : W)
  | fails

/-- From a state in the middle of `code`, control leaves a block in the given way; `post` are the
statements behind the block. -/
def Leaves (m : Interpretation ρ W) (code post : List Action) (c : Config ρ W) : Exit ρ W → Prop
  | .falls env w => ∃ es, Reaches (Config.step m code) c es ⟨post, env, w⟩
  | .jumps l env w => ∀ target, afterLabel l code = some target →
      ∃ es, Reaches (Config.step m code) c es ⟨target, env, w⟩
  | .fails => ∃ es t, Ends (Config.step m code) c es (.trapped t)

def Executes (m : Interpretation ρ W) (f : List Action) (env : Env ρ) (w : W) (x : Exit ρ W) :
    Prop :=
  ∀ pre post, Fresh f pre → Leaves m (pre ++ f ++ post) post ⟨f ++ post, env, w⟩ x

lemma Leaves.of_reaches (hcd : Reaches (Config.step m code) c es d) (hd : Leaves m code post d x) :
    Leaves m code post c x := by
  cases x with
  | falls env w =>
    obtain ⟨fs, hfs⟩ := hd
    exact ⟨_, hcd.trans hfs⟩
  | jumps l env w =>
    intro target htarget
    obtain ⟨fs, hfs⟩ := hd target htarget
    exact ⟨_, hcd.trans hfs⟩
  | fails =>
    obtain ⟨fs, t, hfs⟩ := hd
    exact ⟨_, t, hcd.ends hfs⟩

lemma Fresh.append_left (h : Fresh (f ++ g) pre) : Fresh f pre :=
  fun l hl => h l (mem_append_left g hl)

lemma Fresh.append_right (h : Fresh (f ++ g) pre) : Fresh g pre :=
  fun l hl => h l (mem_append_right f hl)

lemma Fresh.append (h : Fresh f pre) (h' : Fresh f post) : Fresh f (pre ++ post) := fun l hl hmem =>
  (mem_append.1 hmem).elim (h l hl) (h' l hl)

lemma fresh_of_no_label (h : ∀ l, label l ∉ f) : Fresh f pre := fun l hl => absurd hl (h l)

section Blocks
variable {f g h : List Action} {env env1 env2 : Env ρ} {w w1 w2 : W} {l : Label} {x : Exit ρ W}

lemma Executes.nil (env : Env ρ) (w : W) : Executes m [] env w (.falls env w) :=
  fun _ _ _ => ⟨[], .refl _⟩

lemma Executes.seq (hf : Executes m f env w (.falls env1 w1)) (hg : Executes m g env1 w1 x)
    (hfresh : Fresh g f) : Executes m (f ++ g) env w x := by
  intro pre post hpre
  -- In either block's view, the other one belongs to the code around it.
  obtain ⟨es, hes⟩ := hf pre (g ++ post) hpre.append_left
  have hgx := hg (pre ++ f) post (hpre.append_right.append hfresh)
  rw [← append_assoc] at hes
  rw [← append_assoc pre f g, append_assoc f g post]
  exact hgx.of_reaches hes

lemma Executes.fails_append (hf : Executes m f env w .fails) :
    Executes m (f ++ g) env w .fails := by
  intro pre post hpre
  have h := hf pre (g ++ post) hpre.append_left
  rwa [← append_assoc, append_assoc pre f g, ← append_assoc f g post] at h

variable (hf : Executes m f env w (.jumps l env1 w1))

include hf

lemma Executes.jumps_append : Executes m (f ++ g) env w (.jumps l env1 w1) := by
  intro pre post hpre
  have h := hf pre (g ++ post) hpre.append_left
  rwa [← append_assoc, append_assoc pre f g, ← append_assoc f g post] at h

lemma Executes.land (hh : Executes m h env1 w1 x) (hlf : label l ∉ f) (hlg : label l ∉ g)
    (hfresh : Fresh h (f ++ (g ++ [.label l]))) :
    Executes m (f ++ (g ++ .label l :: h)) env w x := by
  intro pre post hpre
  have hlabel := hpre.append_right.append_right
  have hhpre : Fresh h pre := fun k hk => hlabel k (.tail _ hk)
  have htarget : afterLabel l (pre ++ f ++ (g ++ .label l :: h ++ post)) = some (h ++ post) := by
    have hsplit : pre ++ f ++ (g ++ .label l :: h ++ post) =
        (pre ++ f ++ g) ++ .label l :: (h ++ post) := by simp
    rw [hsplit]
    exact afterLabel_of_first (by simp [hlabel l (.head _), hlf, hlg])
  obtain ⟨es, hes⟩ := hf pre (g ++ .label l :: h ++ post) hpre.append_left _ htarget
  have hhx := hh (pre ++ (f ++ (g ++ [.label l]))) post (hhpre.append hfresh)
  have hcode : pre ++ (f ++ (g ++ [.label l])) ++ h ++ post =
      pre ++ f ++ (g ++ .label l :: h ++ post) := by simp
  rw [hcode] at hhx
  have hx := hhx.of_reaches hes
  rwa [← append_assoc f, ← append_assoc (pre ++ f), append_assoc pre f] at hx
end Blocks

/-! ## Single statements -/
section Single
variable {a : Action} {env : Env ρ} {w w' : W} {l : LocalId} {e : Effect ρ} {v : Datum ρ}

lemma Executes.of_next (es : List (Effect ρ))
    (h : ∀ code rest, Config.step m code ⟨a :: rest, env, w⟩ = .next es ⟨rest, env', w'⟩) :
    Executes m [a] env w (.falls env' w') := by
  intro pre post _
  exact ⟨es, .single (h _ post)⟩

lemma Executes.of_trapped (es : List (Effect ρ)) (t : Trap ρ)
    (h : ∀ code rest, Config.step m code ⟨a :: rest, env, w⟩ = .done es (.trapped t)) :
    Executes m [a] env w .fails := by
  intro pre post _
  exact ⟨es, t, .done (h _ post)⟩

lemma Executes.set_value (h : a.evaluate m env = some (.set l (.value v))) :
    Executes m [a] env w (.falls (env.set l v) w) :=
  .of_next [] fun _ _ => by rw [step_cons h]; rfl

section
variable (h : a.evaluate m env = some (.set l (.effect e)))

include h

lemma Executes.set_effect (he : m.perform e w = (.value v, w')) :
    Executes m [a] env w (.falls (env.set l v) w') :=
  .of_next [e] fun _ _ => by
    rw [step_cons h]
    simp only [execute, Request.run, Effect.run, he]

lemma Executes.set_effect_fails (he : m.perform e w = (.traps cause, w')) :
    Executes m [a] env w .fails :=
  .of_trapped [e] (.effect cause) fun _ _ => by
    rw [step_cons h]
    simp only [execute, Request.run, Effect.run, he]
end

lemma Executes.set_trap (h : a.evaluate m env = some (.set l (.trap t))) :
    Executes m [a] env w .fails :=
  .of_trapped [] t fun _ _ => by rw [step_cons h]; rfl

lemma Executes.store (h : a.evaluate m env = some (.store (.value v) effect))
    (he : m.perform (effect v) w = (.value u, w')) : Executes m [a] env w (.falls env w') :=
  .of_next [effect v] fun _ _ => by
    rw [step_cons h]
    simp only [execute, Request.run, Effect.run, he]

lemma Executes.skip (h : a.evaluate m env = some .skip) : Executes m [a] env w (.falls env w) :=
  .of_next [] fun _ _ => by rw [step_cons h]; rfl

lemma Executes.goto (h : a.evaluate m env = some (.goto target)) :
    Executes m [a] env w (.jumps target env w) := by
  intro pre post _ rest hrest
  refine ⟨[], .single ?_⟩
  show Config.step m _ ⟨a :: post, env, w⟩ = _
  rw [step_cons h]
  simp only [execute, hrest]
end Single

section Computations
variable {α β : Type} {f g : List Action} {env : Env ρ} {w : W} {x : Option α}
  {P : α → Env ρ → W → Prop} {Q : β → Env ρ → W → Prop}

/-- A block for a computation: it falls through in a state that fits the outcome, or it traps if
there is none. -/
def Computes (m : Interpretation ρ W) (f : List Action) (env : Env ρ) (w : W) (x : Option α)
    (P : α → Env ρ → W → Prop) : Prop :=
  match x with
  | some a => ∃ env' w', Executes m f env w (.falls env' w') ∧ P a env' w'
  | none => Executes m f env w .fails

lemma Computes.pure (h : P a env w) : Computes m [] env w (some a) P := ⟨env, w, .nil env w, h⟩

lemma Executes.computes (hf : Executes m f env w (.falls env1 w1))
    (hg : Computes m g env1 w1 x P) (hfresh : Fresh g f) : Computes m (f ++ g) env w x P := by
  cases x with
  | none =>
    have hfails : Executes m g env1 w1 .fails := hg
    exact hf.seq hfails hfresh
  | some a =>
    obtain ⟨env2, w2, hg, hP⟩ := hg
    exact ⟨env2, w2, hf.seq hg hfresh, hP⟩

lemma Computes.imp {Q : α → Env ρ → W → Prop} (hf : Computes m f env w x P)
    (h : ∀ a env' w', P a env' w' → Q a env' w') : Computes m f env w x Q := by
  cases x with
  | none => exact hf
  | some a =>
    obtain ⟨env', w', hf, hP⟩ := hf
    exact ⟨env', w', hf, h a env' w' hP⟩
end Computations

def twoWays (test first second : List Action) (other done : Label) : List Action :=
  test ++ (first ++ .goto done :: .label other :: (second ++ [.label done]))

structure TwoWays (test first second : List Action) (other done : Label) : Prop where
  other_ne_done : other ≠ done
  other_not_mem : label other ∉ test ++ (first ++ second)
  done_not_mem : label done ∉ test ++ (first ++ second)
  first_fresh : Fresh first test
  second_fresh : Fresh second (test ++ first)

section TwoWays
variable {α : Type} {test first second : List Action} {other done : Label} {env env1 : Env ρ}
  {w w1 : W} {x : Option α} {P : α → Env ρ → W → Prop}

lemma Computes.then_goto (h : Computes m first env w x P) (hother : label done ∉ first)
    (hg : label done ∉ g) :
    Computes m (first ++ .goto done :: (g ++ [.label done])) env w x P := by
  cases x with
  | none => exact Executes.fails_append h
  | some a =>
    obtain ⟨env', w', hexec, hP⟩ := h
    refine ⟨env', w', ?_, hP⟩
    have hjump : Executes m (first ++ [.goto done]) env w (.jumps done env' w') :=
      hexec.seq (.goto rfl) (fresh_of_no_label (by simp))
    have hland := hjump.land (g := g) (.nil env' w') (by simpa using hother) hg
      (fresh_of_no_label (by simp))
    simpa using hland

variable (h : TwoWays test first second other done)

include h

lemma Executes.first_way
    (htest : Executes m test env w (.falls env1 w1)) (hfirst : Computes m first env1 w1 x P) :
    Computes m (twoWays test first second other done) env w x P := by
  have hdone := h.done_not_mem
  have hother := h.other_not_mem
  simp only [mem_append, not_or] at hdone hother
  refine htest.computes ?_ ?_
  · refine hfirst.then_goto (g := .label other :: second) hdone.2.1 ?_
    simpa [h.other_ne_done.symm] using hdone.2.2
  · intro l hl hmem
    simp only [mem_append, mem_cons, label.injEq, not_mem_nil, or_false,
      reduceCtorEq, false_or] at hl
    rcases hl with hl | rfl | hl | rfl
    · exact h.first_fresh l hl hmem
    · exact hother.1 hmem
    · exact h.second_fresh l hl (mem_append_left _ hmem)
    · exact hdone.1 hmem

lemma Executes.second_way (htest : Executes m test env w (.jumps other env1 w1))
    (hsecond : Computes m second env1 w1 x P) :
    Computes m (twoWays test first second other done) env w x P := by
  have hdone := h.done_not_mem
  have hother := h.other_not_mem
  simp only [mem_append, not_or] at hdone hother
  have hland {exit : Exit ρ W} (hexec : Executes m (second ++ [.label done]) env1 w1 exit) :
      Executes m (twoWays test first second other done) env w exit := by
    have hcode : twoWays test first second other done =
        test ++ ((first ++ [.goto done]) ++ .label other :: (second ++ [.label done])) := by
      simp [twoWays]
    rw [hcode]
    refine htest.land hexec hother.1 (by simpa using hother.2.1) ?_
    intro l hl hmem
    simp only [mem_append, mem_cons, label.injEq, not_mem_nil, or_false, reduceCtorEq] at hl hmem
    rcases hl with hl | rfl
    · rcases hmem with hmem | hmem | rfl
      · exact h.second_fresh l hl (mem_append_left _ hmem)
      · exact h.second_fresh l hl (mem_append_right _ hmem)
      · exact hother.2.2 hl
    · rcases hmem with hmem | hmem | hmem
      · exact hdone.1 hmem
      · exact hdone.2.1 hmem
      · exact h.other_ne_done hmem.symm
  cases x with
  | none => exact hland (Executes.fails_append hsecond)
  | some a =>
    obtain ⟨env', w', hexec, hP⟩ := hsecond
    have hfresh : Fresh [.label done] second := by
      intro l hl
      rw [mem_singleton.1 hl]
      exact hdone.2.2
    exact ⟨env', w', hland (hexec.seq (.skip rfl) hfresh), hP⟩
end TwoWays
end DataflowSpecializer
