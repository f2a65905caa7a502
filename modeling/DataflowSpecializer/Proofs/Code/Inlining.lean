import DataflowSpecializer.Proofs.Fitness.Methods

/-! # Calls in place

A call is carried out with a frame for the caller and one for the callee. A copy of the callee in
place of the call does the same with one frame. The two run in step: entering is the assignment of
the argument, and a return is the jump to the end of the copy. A copy that is entered again finds
what was left in its locals, which does no harm to a callee that assigns before it reads.
-/
namespace DataflowSpecializer
open List Option Simplify DataflowSpecializer.Action
variable {ρ W : Type}

/-! ## Two frames -/
def Step.map {ε ω σ τ : Type} (f : σ → τ) : Step ε ω σ → Step ε ω τ
  | .next es s => .next es (f s)
  | .done es w => .done es w

lemma Step.Alike.map {ε ω σ σ' τ : Type} {R : σ' → τ → Prop} {g : σ → σ'} {s : Step ε ω σ}
    {t : Step ε ω τ} (h : s.Alike (fun s t => R (g s) t) t) : (s.map g).Alike R t := by
  cases h with
  | next h => exact .next h
  | done es w => exact .done es w

/-- The caller and the callee that it notifies. -/
inductive Frame (ρ W : Type) where
  | caller (c : Config ρ W)
  /-- The callee runs, and the locals of the caller wait. -/
  | callee (c : Config ρ W) (back : Env ρ)

/-- `post` are the statements after the call. -/
def Frame.step (m : Interpretation ρ W) (callee : Body) (x : Notifications.Site)
    (code : List Action) (call : Action) (post : List Action) :
    Frame ρ W → Step (Effect ρ) (Ending ρ) (Frame ρ W)
  | .caller c =>
    if c.rest = call :: post then
      match c.env x.receiver, x.argument.read c.env with
      | some this, some v => .next [] (.callee (callee.start [this, v] c.world) c.env)
      | _, _ => .done [] .unassigned
    else (c.step m code).map .caller
  | .callee c back =>
    match c.rest with
    | [] | .ret _ :: _ => .next [] (.caller ⟨post, back, c.world⟩)
    | _ => (c.step m callee.code).map (.callee · back)

/-- A method that can stand in place of its calls. -/
structure Inlinable (m : Interpretation ρ W) (callee : Body) (this param : LocalId) : Prop where
  wellFormed : callee.WellFormed
  receiver : callee.receiver = some this
  params : callee.params = [param]
  distinct : param ≠ this
  keeps : ∀ a ∈ callee.code, a.target? ≠ some this
  assigned : ∀ u v w es, ¬ Ends (callee.step m) (callee.start [u, v] w) es .unassigned

/-! ## Copies -/
def Instruction.relabel (φ : Label → Label) : Instruction ρ → Instruction ρ
  | .goto l => .goto (φ l)
  | i => i

section Execution
variable {m : Interpretation ρ W} {env env' : Env ρ} {f : LocalId → LocalId} {φ : Label → Label}

lemma Action.evaluate_renameLabels (φ : Label → Label) (a : Action) :
    (a.renameLabels φ).evaluate m env = (a.evaluate m env).map (·.relabel φ) := by
  cases a with
  | branch op lhs rhs target =>
    simp only [renameLabels, evaluate]
    cases lhs.read env <;> cases rhs.read env <;> try rfl
    simp only [map_some, Instruction.ofCondition]
    split <;> rfl
  | assign place value =>
    cases place with
    | loc l => simp only [renameLabels, evaluate, Option.map_map]; rfl
    | field base g | element base index =>
      simp only [renameLabels, evaluate]
      split <;> rfl
  | ret value => cases value <;> simp only [renameLabels, evaluate, Option.map_map] <;> rfl
  | invoke call | throw o => simp only [renameLabels, evaluate, Option.map_map]; rfl
  | goto target | label l | nop => rfl

/-- Instructions do alike with other locals and labels, if they go on alike. -/
lemma Instruction.execute_alike {R : Config ρ W → Config ρ W → Prop} {i : Instruction ρ}
    {code code' rest rest' : List Action} {w : W}
    (hset : ∀ l r, i = .set l r → ∀ v w, R ⟨rest, env.set l v, w⟩ ⟨rest', env'.set (f l) v, w⟩)
    (hnext : ∀ w, R ⟨rest, env, w⟩ ⟨rest', env', w⟩)
    (hjump : ∀ l, i = .goto l →
      afterLabel l code = none ∧ afterLabel (φ l) code' = none ∧ φ l = l ∨
        ∃ t t', afterLabel l code = some t ∧ afterLabel (φ l) code' = some t' ∧
          R ⟨t, env, w⟩ ⟨t', env', w⟩) :
    (i.execute m code rest env w).Alike R
      (((i.retarget f).relabel φ).execute m code' rest' env' w) := by
  cases i with
  | set l r => exact Request.run_alike _ _ fun v w => .next (hset l r rfl v w)
  | store r effect =>
    simp only [retarget, relabel, execute]
    exact Request.run_alike _ _ fun v w => Effect.run_alike _ _ fun _ w => .next (hnext w)
  | perform e => exact Effect.run_alike _ _ fun _ w => .next (hnext w)
  | goto l =>
    rcases hjump l rfl with ⟨h, h', hl⟩ | ⟨t, t', h, h', hR⟩
    · rw [hl] at h'
      simp only [execute, retarget, relabel, h, h', hl]
      exact .done _ _
    · simp only [execute, retarget, relabel, h, h']
      exact .next hR
  | skip => exact .next (hnext w)
  | ret value => exact .done _ _
  | throw value => exact .done _ _
  | trap t => exact .done _ _
end Execution

/-- A call, and a copy of the callee with other locals and labels. -/
structure CallCopy where
  callee : Body
  this : LocalId
  param : LocalId
  site : Notifications.Site
  pre : List Action
  call : Action
  post : List Action
  rename : LocalId → LocalId
  relabel : Label → Label
  done : Label

namespace CallCopy
variable (k : CallCopy)

def code : List Action := k.pre ++ k.call :: k.post

/-- The copy of a statement: a return becomes a jump to the end. -/
def copy : Action → Action
  | .ret _ => .goto k.done
  | a => (a.exchange (.newNames k.rename)).renameLabels k.relabel

/-- What stands in place of the call. -/
def inPlace : List Action :=
  .set (k.rename k.param) (.use k.site.argument) :: (k.callee.code.map k.copy ++ [.label k.done])

/-- The caller with the copy in place of the call. -/
def spliced : List Action := k.pre ++ (k.inPlace ++ k.post)

abbrev step (m : Interpretation ρ W) : Frame ρ W → Step (Effect ρ) (Ending ρ) (Frame ρ W) :=
  Frame.step m k.callee k.site k.code k.call k.post

/-- The caller has locals below `n` and labels below `first`, and the copy has others. -/
structure Apart (n first : Nat) : Prop where
  plain : label? k.call = none
  locals : ∀ a ∈ k.code, ∀ l ∈ a.mentions, l < n
  jumps : ∀ a ∈ k.code, ∀ l, a.jump? = some l → l < first
  labels : ∀ l, .label l ∈ k.pre → l < first
  base : k.site.receiver < n
  argument : ∀ l ∈ k.site.argument.locals, l < n
  receiver : k.rename k.this = k.site.receiver
  fresh : ∀ l < k.callee.locals.size, l ≠ k.this → n ≤ k.rename l
  distinct : ∀ l < k.callee.locals.size, l ≠ k.this → ∀ i < k.callee.locals.size, i ≠ l →
    k.rename i ≠ k.rename l
  newLabels : ∀ l, .label l ∈ k.callee.code → first ≤ k.relabel l ∧ k.relabel l < k.done
  distinctLabels : ∀ l i, .label l ∈ k.callee.code → .label i ∈ k.callee.code →
    k.relabel l = k.relabel i → l = i
  done : first ≤ k.done

variable {k} {n first : Nat}

lemma copy_eq_label {a : Action} {l : Label} :
    k.copy a = .label l ↔ ∃ i, a = .label i ∧ k.relabel i = l := by
  cases a with
  | assign place value => cases place <;> simp [copy, exchange, renameLabels]
  | _ => simp [copy, exchange, renameLabels, eq_comm]

/-! ## Labels -/
section Labels
variable (hk : k.Apart n first)

include hk

/-- The labels of the caller are where they were. -/
lemma Apart.afterLabel_caller {l : Label} (hl : l < first) :
    (∃ rest, rest <:+ k.pre ∧ afterLabel l k.code = some (rest ++ k.call :: k.post) ∧
      afterLabel l k.spliced = some (rest ++ (k.inPlace ++ k.post))) ∨
      afterLabel l k.code = afterLabel l k.post ∧ afterLabel l k.spliced = afterLabel l k.post := by
  unfold code spliced
  by_cases hmem : .label l ∈ k.pre
  · obtain ⟨start, rest, hpre, hstart⟩ := eq_append_cons_of_mem hmem
    rw [hpre, append_assoc, append_assoc]
    exact .inl ⟨rest, (suffix_cons _ _).trans (suffix_append _ _), afterLabel_of_first hstart,
      afterLabel_of_first hstart⟩
  · refine .inr ⟨?_, ?_⟩
    · rw [afterLabel_append hmem, afterLabel, if_neg]
      intro h
      have := hk.plain
      rw [h] at this
      cases this
    · rw [afterLabel_append hmem, afterLabel_append]
      intro h
      rcases mem_cons.1 h with h | h
      · cases h
      · rcases mem_append.1 h with h | h
        · obtain ⟨a, ha, hl'⟩ := List.mem_map.1 h
          obtain ⟨i, rfl, rfl⟩ := copy_eq_label.1 hl'
          exact Nat.not_lt.2 (hk.newLabels i ha).1 hl
        · cases mem_singleton.1 h
          exact Nat.not_lt.2 hk.done hl

lemma Apart.afterLabel_callee {l : Label} {rest : List Action}
    (h : afterLabel l k.callee.code = some rest) :
    afterLabel (k.relabel l) k.spliced = some (rest.map k.copy ++ .label k.done :: k.post) := by
  obtain ⟨start, hcode, hstart⟩ := eq_append_of_afterLabel h
  have hmem : .label l ∈ k.callee.code := hcode ▸ mem_append_right _ mem_cons_self
  have hnone : .label (k.relabel l) ∉ start.map k.copy := by
    intro h
    obtain ⟨a, ha, hl⟩ := List.mem_map.1 h
    obtain ⟨i, rfl, hi⟩ := copy_eq_label.1 hl
    have himem : .label i ∈ k.callee.code := hcode ▸ mem_append_left _ ha
    exact hstart (hk.distinctLabels i l himem hmem hi ▸ ha)
  rw [spliced, afterLabel_append fun h => Nat.not_lt.2 (hk.newLabels l hmem).1 (hk.labels _ h),
    inPlace, hcode, map_append, map_cons, copy_eq_label.2 ⟨l, rfl, rfl⟩]
  simp only [cons_append, append_assoc]
  rw [afterLabel, if_neg (by rintro ⟨⟩), afterLabel_of_first hnone]
  rfl

lemma Apart.afterLabel_done : afterLabel k.done k.spliced = some k.post := by
  rw [spliced, afterLabel_append fun h => Nat.not_lt.2 hk.done (hk.labels _ h), inPlace, cons_append,
    append_assoc, afterLabel, if_neg (by rintro ⟨⟩)]
  refine afterLabel_of_first fun h => ?_
  obtain ⟨a, ha, hl⟩ := List.mem_map.1 h
  obtain ⟨i, rfl, hi⟩ := copy_eq_label.1 hl
  exact Nat.ne_of_lt (hk.newLabels i ha).2 hi
end Labels

/-! ## The simulation -/
section Simulation
variable (k) (m : Interpretation ρ W) (n : Nat)

/-- The copy of the callee runs, and the locals of the caller are kept. -/
inductive Copied (back : Env ρ) : Config ρ W → Config ρ W → Prop
  | mk {rest : List Action} {env env' : Env ρ} {w : W} : (∀ l < n, env' l = back l) →
      (∀ l < k.callee.locals.size, ∀ u, env l = some u → env' (k.rename l) = some u) →
      Copied back ⟨rest, env, w⟩ ⟨rest.map k.copy ++ .label k.done :: k.post, env', w⟩

inductive Inlined : Frame ρ W → Config ρ W → Prop
  | before {rest : List Action} {env env' : Env ρ} {w : W} : rest <:+ k.pre →
      (∀ l < n, env' l = env l) → Inlined (.caller ⟨rest ++ k.call :: k.post, env, w⟩)
        ⟨rest ++ (k.inPlace ++ k.post), env', w⟩
  | after {rest : List Action} {env env' : Env ρ} {w : W} : rest <:+ k.post →
      (∀ l < n, env' l = env l) → Inlined (.caller ⟨rest, env, w⟩) ⟨rest, env', w⟩
  | inside {s t : Config ρ W} {back : Env ρ} {u v : Datum ρ} {w : W} {es : List (Effect ρ)} :
      Reaches (k.callee.step m) (k.callee.start [u, v] w) es s → k.Copied n back s t →
      Inlined (.callee s back) t

variable {k m n}

section Alike
variable {a : Action} {rest : List Action} {env env' : Env ρ} {w : W} (hk : k.Apart n first)

include hk

lemma caller_alike {rest' : List Action} (ha : a ∈ k.code) (henv : ∀ l < n, env' l = env l)
    (hnext : ∀ {env env' : Env ρ} {w : W}, (∀ l < n, env' l = env l) →
      k.Inlined m n (.caller ⟨rest, env, w⟩) ⟨rest', env', w⟩) :
    (Config.step m k.code ⟨a :: rest, env, w⟩).Alike (fun s t => k.Inlined m n (.caller s) t)
      (Config.step m k.spliced ⟨a :: rest', env', w⟩) := by
  have huses : ∀ l ∈ a.uses, env' l = env l := fun l hl =>
    henv l (hk.locals a ha l (mem_append_left _ hl))
  cases hi : a.evaluate m env with
  | none =>
    have hi' : a.evaluate m env' = none := by
      by_contra hsome
      obtain ⟨i, hi'⟩ := ne_none_iff_exists'.1 hsome
      rw [evaluate_congr (fun l hl => (huses l hl).symm) hi'] at hi
      cases hi
    rw [Config.step_unassigned hi, Config.step_unassigned hi']
    exact .done _ _
  | some i =>
    have hi' := evaluate_congr huses hi
    rw [Config.step_cons hi, Config.step_cons hi']
    have hsame : (i.retarget id).relabel id = i := by cases i <;> rfl
    nth_rewrite 2 [← hsame]
    refine Instruction.execute_alike (fun l r hset v w => hnext fun i hi => ?_) (fun w => hnext henv)
      fun l hgoto => ?_
    · by_cases hil : i = l
      · rw [hil, id, Env.set_self, Env.set_self]
      · rw [id, Env.set_of_ne _ hil, Env.set_of_ne _ hil]
        exact henv i hi
    · subst hgoto
      have hl := hk.jumps a ha l ((declared_of_evaluate hi).1 l rfl)
      rcases hk.afterLabel_caller hl with ⟨t, ht, h, h'⟩ | ⟨h, h'⟩
      · exact .inr ⟨_, _, h, h', .before ht henv⟩
      · cases hpost : afterLabel l k.post with
        | none => exact .inl ⟨h.trans hpost, h'.trans hpost, rfl⟩
        | some t =>
          exact .inr ⟨_, _, h.trans hpost, h'.trans hpost, .after (afterLabel_suffix hpost) henv⟩

variable (hcallee : Inlinable m k.callee k.this k.param)

include hcallee

lemma callee_alike {t : Config ρ W} {back : Env ρ} {i : Instruction ρ}
    (h : k.Copied n back ⟨a :: rest, env, w⟩ t) (ha : a ∈ k.callee.code)
    (hret : ∀ o, a ≠ .ret o) (hi : a.evaluate m env = some i) :
    (Config.step m k.callee.code ⟨a :: rest, env, w⟩).Alike (k.Copied n back)
      (Config.step m k.spliced t) := by
  obtain @⟨_, _, env', _, hback, henv⟩ := h
  have hlocals := hcallee.wellFormed.locals a ha
  have hi' : (k.copy a).evaluate m env' = some ((i.retarget k.rename).relabel k.relabel) := by
    have hcarries : ∀ l ∈ a.uses, (Exchange.newNames k.rename).Carries env env' l := fun l hl v hv =>
      have hv' := henv l (hlocals l (mem_append_left _ hl)) v hv
      ⟨hv', hv'⟩
    have hcopy : k.copy a = (a.exchange (.newNames k.rename)).renameLabels k.relabel := by
      cases a with
      | ret o => exact absurd rfl (hret o)
      | _ => rfl
    rw [hcopy, evaluate_renameLabels, evaluate_exchange hcarries hi]
    rfl
  rw [map_cons, cons_append, Config.step_cons hi, Config.step_cons hi']
  refine Instruction.execute_alike (fun l r hset v w => ?_) (fun w => .mk hback henv)
    fun l hgoto => ?_
  · subst hset
    have htarget := (declared_of_evaluate hi).2 l r rfl
    have hl := hlocals l (mem_append_right _ (mem_toList.2 htarget))
    have hne : l ≠ k.this := fun h => hcallee.keeps a ha (h ▸ htarget)
    refine .mk (fun i hi => ?_) fun i hi u hu => ?_
    · have hil := Nat.ne_of_lt (Nat.lt_of_lt_of_le hi (hk.fresh l hl hne))
      exact (Env.set_of_ne _ hil v).trans (hback i hi)
    · by_cases hil : i = l
      · rw [hil, Env.set_self] at hu
        rw [hil, Env.set_self, hu]
      · rw [Env.set_of_ne _ hil] at hu
        rw [Env.set_of_ne _ (hk.distinct l hl hne i hi hil)]
        exact henv i hi u hu
  · subst hgoto
    have hplaced := hcallee.wellFormed.targets a ha l ((declared_of_evaluate hi).1 l rfl)
    obtain ⟨start, t, hcode, hstart⟩ := eq_append_cons_of_mem hplaced
    have ht : afterLabel l k.callee.code = some t := hcode ▸ afterLabel_of_first hstart
    exact .inr ⟨t, _, ht, hk.afterLabel_callee ht, .mk hback henv⟩

lemma enter_alike {u : Datum ρ} (henv : ∀ l < n, env' l = env l)
    (hu : env k.site.receiver = some u) :
    (k.step m (.caller ⟨k.call :: k.post, env, w⟩)).Alike (k.Inlined m n)
      (Config.step m k.spliced ⟨k.inPlace ++ k.post, env', w⟩) := by
  have hread : k.site.argument.read env' = k.site.argument.read env := by
    cases harg : k.site.argument with
    | loc l => exact henv l (hk.argument l (by simp [harg, Operand.locals]))
    | const c => rfl
  have hentry : k.callee.entry = [k.this, k.param] := by
    rw [Body.entry, hcallee.receiver, hcallee.params]
    rfl
  have hfresh := hk.fresh k.param (hcallee.wellFormed.entry _ (by simp [hentry])) hcallee.distinct
  have hset : (Action.set (k.rename k.param) (.use k.site.argument)).evaluate m env' =
      (k.site.argument.read env).map fun v => .set (k.rename k.param) (.value v) := by
    simp [Action.set, Action.evaluate, Rvalue.evaluate, hread, Function.comp_def]
  simp only [step, Frame.step, if_true, hu]
  rw [inPlace, cons_append]
  cases hv : k.site.argument.read env with
  | none =>
    rw [hv] at hset
    rw [Config.step_unassigned hset]
    exact .done _ _
  | some v =>
    rw [hv] at hset
    rw [Config.step_cons hset]
    rw [append_assoc]
    refine .next (.inside (.refl _) (.mk (fun l hl => ?_) fun l hl y hy => ?_))
    · exact (Env.set_of_ne _ (Nat.ne_of_lt (Nat.lt_of_lt_of_le hl hfresh)) v).trans (henv l hl)
    · simp only [Body.entryEnv, hentry, zip_cons_cons, lookup_cons] at hy
      split at hy
      · rename_i hthis
        obtain rfl := beq_iff_eq.1 hthis
        have hne := Nat.ne_of_lt (Nat.lt_of_lt_of_le hk.base hfresh)
        rw [hk.receiver]
        exact (Env.set_of_ne _ hne v).trans ((henv _ hk.base).trans (hu.trans hy))
      · split at hy
        · rename_i hlp
          obtain rfl := beq_iff_eq.1 hlp
          exact (Env.set_self env' _ v).trans hy
        · cases hy
end Alike

variable (hk : k.Apart n first) (hcallee : Inlinable m k.callee k.this k.param)

include hk hcallee

lemma step_alike {s : Frame ρ W} {t : Config ρ W}
    (hbase : ∀ env w, s = .caller ⟨k.call :: k.post, env, w⟩ → env k.site.receiver ≠ none)
    (h : k.Inlined m n s t) : (k.step m s).Alike (k.Inlined m n) (Config.step m k.spliced t) := by
  cases h with
  | @before rest env env' w hrest henv =>
    cases rest with
    | nil =>
      obtain ⟨u, hu⟩ := ne_none_iff_exists'.1 (hbase env w rfl)
      exact enter_alike hk hcallee henv hu
    | cons a rest =>
      have hne : a :: rest ++ k.call :: k.post ≠ k.call :: k.post := fun h => by
        have := congrArg length h
        simp only [length_append, length_cons] at this
        omega
      rw [step, Frame.step, if_neg hne]
      exact .map (caller_alike hk (mem_append_left _ (hrest.subset mem_cons_self)) henv fun henv =>
        .before ((suffix_cons a rest).trans hrest) henv)
  | @after rest env env' w hrest henv =>
    have hne : rest ≠ k.call :: k.post := fun h => by
      have := hrest.length_le
      rw [h, length_cons] at this
      omega
    rw [step, Frame.step, if_neg hne]
    cases rest with
    | nil => exact .done _ _
    | cons a rest =>
      exact .map (caller_alike hk (mem_append_right _ (.tail _ (hrest.subset mem_cons_self))) henv
        fun henv => .after ((suffix_cons a rest).trans hrest) henv)
  | @inside s t back u v w es hs hcopied =>
    obtain ⟨ahead, env, world⟩ := s
    cases ahead with
    | nil =>
      obtain ⟨hback, -⟩ := hcopied
      exact .next (.after suffix_rfl hback)
    | cons a rest =>
      by_cases hret : ∃ o, a = .ret o
      · obtain ⟨o, rfl⟩ := hret
        obtain ⟨hback, -⟩ := hcopied
        simp only [map_cons, cons_append, copy, Config.step, Action.evaluate, Instruction.execute,
          hk.afterLabel_done]
        exact .next (.after suffix_rfl hback)
      · have ha : a ∈ k.callee.code := (Config.rest_suffix hs suffix_rfl).subset mem_cons_self
        cases hi : a.evaluate m env with
        | none =>
          have hend := hs.ends (.done (Config.step_unassigned hi))
          exact absurd hend (hcallee.assigned u v w _)
        | some i =>
          have halike := callee_alike hk hcallee hcopied ha (not_exists.1 hret) hi
          have hstep : k.step m (.callee ⟨a :: rest, env, world⟩ back) =
              (Config.step m k.callee.code ⟨a :: rest, env, world⟩).map (.callee · back) := by
            cases a with
            | ret o => exact absurd ⟨o, rfl⟩ hret
            | _ => rfl
          rw [hstep]
          generalize hnext : Config.step m k.callee.code ⟨a :: rest, env, world⟩ = y at halike ⊢
          generalize Config.step m k.spliced t = z at halike ⊢
          cases halike with
          | next hcopied => exact .next (.inside (hs.trans (.single hnext)) hcopied)
          | done es w => exact .done es w

/-- **A copy in place of a call behaves as the call.** -/
lemma sameBehaviour (env : Env ρ) (w : W)
    (hbase : ∀ es env' w', Reaches (k.step m) (.caller ⟨k.code, env, w⟩) es
      (.caller ⟨k.call :: k.post, env', w'⟩) → env' k.site.receiver ≠ none) :
    SameBehaviour (k.step m) (Config.step m k.spliced) (.caller ⟨k.code, env, w⟩)
      ⟨k.spliced, env, w⟩ := by
  let R (s : Frame ρ W) (t : Config ρ W) : Prop :=
    (∃ es, Reaches (k.step m) (.caller ⟨k.code, env, w⟩) es s) ∧ k.Inlined m n s t
  have hsimulation : Simulation (k.step m) (Config.step m k.spliced) R fun _ _ => 0 := by
    rintro s t ⟨⟨es, hs⟩, hst⟩
    have halike := step_alike hk hcallee (fun env' w' h => hbase es env' w' (h ▸ hs)) hst
    generalize hnext : k.step m s = y at halike
    generalize hnext' : Config.step m k.spliced t = z at halike
    cases halike with
    | next h => exact .both hnext hnext' ⟨⟨_, hs.trans (.single hnext)⟩, h⟩
    | done es w => exact .done hnext hnext'
  exact hsimulation.sameBehaviour ⟨⟨[], .refl _⟩, .before suffix_rfl fun _ _ => rfl⟩
end Simulation
end CallCopy
/-! ## Splicing -/
namespace Notifications
variable {callee caller : Body} {x : Site} {this param : LocalId}

def callCopy (callee caller : Body) (x : Site) (this param : LocalId) (before after : List Stmt)
    (call : Action) : CallCopy where
  callee := callee
  this := this
  param := param
  site := x
  pre := before.map Stmt.action
  call := call
  post := after.map Stmt.action
  rename l := (takeLocals callee x.receiver caller).1.getD l l
  relabel l := ((takeLabels callee (takeLocals callee x.receiver caller).2).1.get? l).getD l
  done := (takeLabels callee (takeLocals callee x.receiver caller).2).2.nextLabel

/-- The end of a copy is a label that the callee does not have, or is not jumped to. -/
def EndsApart (callee caller : Body) : Prop :=
  ∀ o, .ret o ∈ callee.code →
    caller.nextLabel + (labelsOf callee.code).length ∉ labelsOf callee.code

section Splice
variable (this param) {before after : List Stmt} {call : Action}
  (hstmts : caller.stmts = before ++ ⟨x.stmt, call⟩ :: after) (hcaller : caller.Fits fun _ => True)
  (hreceiver : x.receiver < caller.locals.size)

include hstmts hcaller hreceiver

lemma splice_code (hcallee : (labelsOf callee.code).Nodup) (hparams : callee.params = [param])
    (hend : EndsApart callee caller) : (splice callee caller x).entry = caller.entry ∧
      (splice callee caller x).code =
        (callCopy callee caller x this param before after call).spliced := by
  obtain ⟨-, htaken⟩ := takeLocals_spec callee hreceiver
  obtain ⟨-, hout, hdone, hr2⟩ :=
    takeLabels_spec callee (takeLocals callee x.receiver caller).2 hcallee
  rw [htaken.nextLabel] at hdone
  have hr := (htaken.reserves.trans hr2).trans (.newLabel _)
  let k := callCopy callee caller x this param before after call
  have hcopy : ∀ a ∈ callee.code, copyAction (takeLocals callee x.receiver caller).1
      (takeLabels callee (takeLocals callee x.receiver caller).2).1 k.done a = k.copy a := by
    intro a ha
    unfold copyAction
    dsimp only
    rw [renameLocals_eq_exchange]
    cases a with
    | ret o =>
      have hnone := hout k.done ((show k.done = _ from hdone) ▸ hend o ha)
      simp only [CallCopy.copy, exchange, renameLabels, hnone, getD_none]
    | _ => rfl
  unfold splice
  dsimp only
  have hinserted : callee.params.head?.toList.map (fun l =>
        set ((takeLocals callee x.receiver caller).1.getD l l) (.use x.argument)) ++
      callee.stmts.map (fun s => copyAction (takeLocals callee x.receiver caller).1
        (takeLabels callee (takeLocals callee x.receiver caller).2).1 k.done s.action) ++
      [.label k.done] = k.inPlace := by
    rw [hparams, CallCopy.inPlace, show k.callee.code.map k.copy = _ from (map_congr_left hcopy).symm,
      Body.code, List.map_map]
    rfl
  rw [show (takeLabels callee (takeLocals callee x.receiver caller).2).2.newLabel.1 = k.done from rfl,
    hinserted]
  generalize (takeLabels callee (takeLocals callee x.receiver caller).2).2.newLabel.2 = b at hr ⊢
  have hb : b.stmts = before ++ ⟨x.stmt, call⟩ :: after := hr.stmts.trans hstmts
  have hbefore : ∀ s ∈ before, ¬ (s.id == x.stmt) := by
    intro s hs h
    have hnodup := hcaller.ids
    rw [hstmts, map_append, map_cons] at hnodup
    exact (nodup_append.1 hnodup).2.2 s.id (List.mem_map_of_mem hs) x.stmt mem_cons_self
      (beq_iff_eq.1 h)
  have hpos : b.position? x.stmt = some before.length := by
    rw [Body.position?, hb, findIdx?_append, findIdx?_eq_none_iff.2 fun s hs =>
      Bool.of_not_eq_true (hbefore s hs)]
    simp [findIdx?_cons]
  have hnew : ∀ s ∈ b.number k.inPlace, ¬ (s.id == x.stmt) := by
    intro s hs h
    have hmem : s.id ∈ range' b.nextStmt k.inPlace.length :=
      Body.number_id b k.inPlace ▸ List.mem_map_of_mem hs
    have hlt := hcaller.idsBelow ⟨x.stmt, call⟩ (hstmts ▸ by simp)
    have hle := (mem_range'_1.1 hmem).1
    rw [hr.nextStmt, beq_iff_eq.1 h] at hle
    exact Nat.not_le.2 hlt hle
  simp only [Body.insertBefore?, hpos, map_some]
  refine ⟨hr.entry, ?_⟩
  simp only [Body.remove, Body.insertAt, Body.code, hb, take_left, drop_left]
  rw [eraseP_append_right _ fun s hs => (mem_append.1 hs).elim (hbefore s) (hnew s), eraseP_cons]
  simp [Body.number_action, CallCopy.spliced, k, callCopy]

lemma callCopy_apart (hcallee : callee.WellFormed) (hthis : callee.receiver = some this)
    (hplain : label? call = none) (hargument : ∀ l ∈ x.argument.locals, l < caller.locals.size) :
    (callCopy callee caller x this param before after call).Apart caller.locals.size
      caller.nextLabel := by
  let k := callCopy callee caller x this param before after call
  have hcode : k.code = caller.code := by simp [k, CallCopy.code, callCopy, Body.code, hstmts]
  obtain ⟨hsize, htaken⟩ := takeLocals_spec callee hreceiver
  obtain ⟨hin, -, hdone, -⟩ :=
    takeLabels_spec callee (takeLocals callee x.receiver caller).2 hcallee.labels
  rw [htaken.nextLabel] at hin hdone
  have hself : this < callee.locals.size := hcallee.entry this (by simp [Body.entry, hthis])
  have hother {l : LocalId} (hl : l < callee.locals.size) (hne : l ≠ this) :=
    htaken.fresh l (hsize ▸ hl) (by simpa [hthis] using Ne.symm hne)
  have hlabel {l : Label} (hl : .label l ∈ callee.code) :
      k.relabel l = caller.nextLabel + (labelsOf callee.code).idxOf l :=
    congrArg (·.getD l) (hin l (mem_labelsOf.2 hl))
  have hpre {l : Label} (hl : .label l ∈ k.pre) : .label l ∈ k.code := mem_append_left _ hl
  change k.done = _ at hdone
  show k.Apart _ _
  exact {
    plain := hplain
    locals := hcode ▸ hcaller.locals
    jumps := fun a ha l hl => hcaller.labelsBelow l (mem_labelsOf.2 (hcaller.targets a (hcode ▸ ha) l hl))
    labels := fun l hl => hcaller.labelsBelow l (mem_labelsOf.2 (hcode ▸ hpre hl))
    base := hreceiver
    argument := hargument
    receiver := htaken.receiver this (hsize ▸ hself) hthis
    fresh := fun l hl hne => (hother hl hne).1
    distinct := fun l hl hne i hi hil => (hother hl hne).2 i (hsize ▸ hi) hil
    newLabels := fun l hl => by
      rw [hlabel hl, hdone]
      exact ⟨Nat.le_add_right _ _,
        Nat.add_lt_add_left (idxOf_lt_length_of_mem (mem_labelsOf.2 hl)) _⟩
    distinctLabels := fun l i hl hi h => by
      rw [hlabel hl, hlabel hi] at h
      exact (idxOf_inj (mem_labelsOf.2 hl)).1 (Nat.add_left_cancel h)
    done := hdone ▸ Nat.le_add_right _ _ }
end Splice

/-- **A notification in place does what the call did**, if the label at the end of the copy has a
number that the callee does not use: runs of the caller with a frame for the callee, and runs of the
spliced body, have the same effects and endings, whether they return, throw or go on for ever. -/
theorem splice_sameBehaviour {m : Interpretation ρ W} (before after : List Stmt)
    {call : Invocation} (hcaller : caller.Fits fun _ => True)
    (hstmts : caller.stmts = before ++ ⟨x.stmt, .invoke call⟩ :: after)
    (hbase : call.base = some x.receiver) (hargument : x.argument ∈ call.args)
    (hcallee : Inlinable m callee this param) (hend : EndsApart callee caller)
    (values : List (Datum ρ)) (w : W) (hassigned : ∀ es env' w',
      Reaches (Frame.step m callee x caller.code (.invoke call) (after.map Stmt.action))
        (.caller (caller.start values w)) es
        (.caller ⟨.invoke call :: after.map Stmt.action, env', w'⟩) → env' x.receiver ≠ none) :
    SameBehaviour (Frame.step m callee x caller.code (.invoke call) (after.map Stmt.action))
        ((splice callee caller x).step m) (.caller (caller.start values w))
        ((splice callee caller x).start values w) ∧
      (splice callee caller x).Fits fun _ => True := by
  have hlocals := hcaller.locals (.invoke call) (by simp [Body.code, hstmts])
  have hreceiver : x.receiver < caller.locals.size :=
    hlocals _ (by simp [Action.mentions, Action.uses, Invocation.locals, hbase])
  have harguments : ∀ l ∈ x.argument.locals, l < caller.locals.size := by
    intro l hl
    refine hlocals l ?_
    simp only [Action.mentions, Action.uses, Invocation.locals, mem_append, mem_flatMap]
    exact .inl (.inr ⟨_, hargument, hl⟩)
  let k := callCopy callee caller x this param before after (.invoke call)
  have hcode : k.code = caller.code := by simp [k, CallCopy.code, callCopy, Body.code, hstmts]
  obtain ⟨hentry, hspliced⟩ := splice_code this param hstmts hcaller hreceiver
    hcallee.wellFormed.labels hcallee.params hend
  constructor
  · have hapart := callCopy_apart this param hstmts hcaller hreceiver hcallee.wellFormed
      hcallee.receiver rfl harguments
    have hsame := CallCopy.sameBehaviour (k := k) hapart hcallee (caller.entryEnv values) w
      (by rw [CallCopy.step, hcode]; exact hassigned)
    rw [CallCopy.step, hcode] at hsame
    have hstart : (splice callee caller x).start values w = ⟨k.spliced, caller.entryEnv values, w⟩ := by
      unfold Body.start Body.entryEnv
      rw [hentry, hspliced]
    rw [Body.step, hstart, hspliced]
    exact hsame
  · have hsite : ⟨x.stmt, .invoke call⟩ ∈ caller.stmts := hstmts ▸ by simp
    exact (splice_fits hcallee.wellFormed (fun _ _ _ _ => trivial) hcaller
      ⟨.of_mem hcaller hsite rfl, hreceiver, fun l hl => harguments l (by simpa using hl)⟩).1

/-- A callee that places one label and returns. -/
def placing (l : Label) : Body where
  locals := #[⟨"this", .object "Sink"⟩, ⟨"event", .object "Event"⟩]
  stmts := [⟨0, .label l⟩, ⟨1, .ret none⟩]
  receiver := some 0
  params := [1]
  nextStmt := 2
  nextLabel := l + 1

def notification : Invocation where
  dispatch := .virtual
  base := some 0
  method := ⟨"Sink", "attributeChanged", [.object "Event"], .void⟩
  args := [.loc 1]

def notifier : Body := { placing 0 with
  stmts := [⟨0, .invoke notification⟩, ⟨1, .ret none⟩]
  nextLabel := 0 }

def notified : Site := ⟨0, 0, .loc 1, 0⟩

/-- The notifier with two frames. -/
abbrev notifying (l : Label) : Frame Unit Unit → Step (Effect Unit) (Ending Unit) (Frame Unit Unit) :=
  Frame.step constants (placing l) notified notifier.code (.invoke notification) [.ret none]

/-- The callee places its label and returns, and so the notifier does, with two frames and with
one. -/
theorem splice_sameBehaviour_of_notifier :
    Ends (notifying 0) (.caller (notifier.start [.ref (), .ref ()] ())) [] (.returned none) ∧
      Ends ((splice (placing 0) notifier notified).step constants)
        ((splice (placing 0) notifier notified).start [.ref (), .ref ()] ()) [] (.returned none) := by
  have hcallee : Inlinable constants (placing 0) 0 1 := by
    refine ⟨⟨by decide, by decide, ?_, by decide, by decide⟩, rfl, rfl, by decide, by decide, ?_⟩
    · simp [Body.code, placing, Action.jump?]
    · intro u v w es hends
      have hreturns : Ends ((placing 0).step constants) ((placing 0).start [u, v] w) _ _ :=
        .next rfl (.done rfl)
      cases (hends.unique hreturns).2
  have hcaller : notifier.Fits fun _ => True := by
    refine ⟨⟨by decide, by decide, ?_, by decide, by decide⟩, by decide, by decide, by simp⟩
    simp [Body.code, notifier, Action.jump?]
  have hends : Ends (notifying 0) (.caller (notifier.start [.ref (), .ref ()] ())) _ _ :=
    .next rfl (.next rfl (.next rfl (.done rfl)))
  -- The call is reached once, with the receiver that the notifier was started with.
  have hassigned : ∀ es env' w', Reaches (notifying 0) (.caller (notifier.start [.ref (), .ref ()] ()))
      es (.caller ⟨[.invoke notification, .ret none], env', w'⟩) → env' 0 ≠ none := by
    intro es env' w' hreach
    cases hreach with
    | refl => exact some_ne_none _
    | head hst h =>
      cases hst
      cases h with
      | head hst h =>
        cases hst
        cases h with
        | head hst h =>
          cases hst
          cases h with
          | head hst h => cases hst
  have hsame := (splice_sameBehaviour (x := notified) [] [⟨1, .ret none⟩] hcaller rfl rfl
    (mem_singleton.2 rfl) hcallee (fun o _ => by decide) _ _ hassigned).1
  exact ⟨hends, (hsame.ends _ _).1 hends⟩

/-- The label of the callee has the number that the end of the copy gets: the return goes to the
copy of that label, again and again. -/
theorem splice_loops_of_sharedLabel :
    Ends (notifying 1) (.caller (notifier.start [.ref (), .ref ()] ())) [] (.returned none) ∧
      RunsForever ((splice (placing 1) notifier notified).step constants)
        ((splice (placing 1) notifier notified).start [.ref (), .ref ()] ()) := by
  have hends : Ends (notifying 1) (.caller (notifier.start [.ref (), .ref ()] ())) _ _ :=
    .next rfl (.next rfl (.next rfl (.done rfl)))
  refine ⟨hends, ?_⟩
  let b := splice (placing 1) notifier notified
  let env := (b.entryEnv [.ref (), .ref ()]).set 2 (.ref () : Datum Unit)
  have hloop {es : List (Effect Unit)} {t : Config Unit Unit}
      (h : Reaches (b.step constants) (b.start [.ref (), .ref ()] ()) es t) :
      t ∈ [b.start [.ref (), .ref ()] (), ⟨b.code.drop 1, env, ()⟩, ⟨b.code.drop 2, env, ()⟩] := by
    refine h.invariant (P := (· ∈ _)) mem_cons_self ?_
    simp only [mem_cons, not_mem_nil, or_false]
    rintro fs gs u v _ (rfl | rfl | rfl) hstep <;> cases hstep
    · exact .inr (.inl rfl)
    · exact .inr (.inr rfl)
    · exact .inr (.inr rfl)
  intro es t ht
  have hmem := hloop ht
  simp only [mem_cons, not_mem_nil, or_false] at hmem
  rcases hmem with rfl | rfl | rfl
  all_goals exact ⟨_, _, rfl⟩

end Notifications
end DataflowSpecializer
