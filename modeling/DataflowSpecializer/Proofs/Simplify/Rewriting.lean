import DataflowSpecializer.Proofs.Code.Fitness
import DataflowSpecializer.Proofs.Code.Exchange

/-! # Rewriting of bodies -/
namespace DataflowSpecializer
open List Option DataflowSpecializer.Action Instruction

variable {a : Action} {rest : List Action}
variable {ρ W : Type}

@[simp] lemma Rvalue.demands_exchange (x : Exchange) (v : Rvalue) :
    (v.exchange x).demands = v.demands := by
  cases v <;> rfl

@[simp] lemma Action.demands_exchange (x : Exchange) (a : Action) :
    (a.exchange x).demands = a.demands := by
  cases a with
  | assign place v => cases place <;> simp [exchange, demands]
  | _ => rfl

lemma Action.mem_mentions_newNames
    (h : l ∈ (a.exchange (.newNames f)).mentions) : ∃ k ∈ a.mentions, l = f k := by
  rcases mem_append.1 h with h | h
  · obtain ⟨k, hk, hkl⟩ := a.covers_exchange l h
    exact ⟨k, mem_append_left _ hk, hkl.elim (fun h => h) mem_singleton.1⟩
  · rw [target?_exchange, mem_toList, map_eq_some_iff] at h
    obtain ⟨k, hk, rfl⟩ := h
    exact ⟨k, mem_append_right _ (mem_toList.2 hk), rfl⟩

namespace Body
def entryEnv (b : Body) (values : List (Datum ρ)) : Env ρ := fun l => (b.entry.zip values).lookup l

def start (b : Body) (values : List (Datum ρ)) (w : W) : Config ρ W :=
  ⟨b.code, b.entryEnv values, w⟩

abbrev step (m : Interpretation ρ W) (b : Body) :
    Config ρ W → Step (Effect ρ) (Ending ρ) (Config ρ W) :=
  Config.step m b.code

def Typed (m : Interpretation ρ W) (b : Body) (env : Env ρ) : Prop :=
  ∀ l v, env l = some v → m.cast (b.localType l) v = some v
end Body

section Soundness
variable (m : Interpretation ρ W) (values : List (Datum ρ)) (w : W)

structure Regular (b : Body) : Prop where
  wellFormed : b.WellFormed
  assigned : ∀ es, ¬ Ends (b.step m) (b.start values w) es .unassigned
  typed : ∀ es s, Reaches (b.step m) (b.start values w) es s → b.Typed m s.env

def Sound (b b' : Body) : Prop :=
  Regular m values w b → Regular m values w b' ∧
      SameBehaviour (b.step m) (b'.step m) (b.start values w) (b'.start values w)

variable {m values w} {es : List (Effect ρ)} {s : Config ρ W}

lemma Sound.refl (b : Body) : Sound m values w b b := fun h => ⟨h, .refl _⟩

lemma Sound.trans (h : Sound m values w b b') (h' : Sound m values w b' b'') :
    Sound m values w b b'' := by
  intro hb
  obtain ⟨hb', hsame⟩ := h hb
  obtain ⟨hb'', hsame'⟩ := h' hb'
  exact ⟨hb'', hsame.trans hsame'⟩

lemma Regular.evaluates {b : Body} (hb : Regular m values w b)
    (hs : Reaches (b.step m) (b.start values w) es s)
    (hrest : s.rest = a :: rest) : ∃ i, a.evaluate m s.env = some i := by
  obtain ⟨_, env, world⟩ := s
  cases hrest
  cases ha : a.evaluate m env with
  | some i => exact ⟨i, rfl⟩
  | none => exact absurd (hs.ends (.done (Config.step_unassigned ha))) (hb.assigned _)

lemma Regular.rest_suffix {b : Body}
    (hs : Reaches (b.step m) (b.start values w) es s) : s.rest <:+ b.code :=
  Config.rest_suffix hs (suffix_refl _)
end Soundness

/-- What comes for a statement, by the statements that follow it: another one, or none. -/
abbrev Rewrite : Type := Action → List Action → Option Action

namespace Rewrite
def actions (g : Rewrite) : List Action → List Action
  | [] => []
  | a :: rest => (g a rest).toList ++ g.actions rest

/-- Rewrites every statement; those that are kept keep their ids. -/
def stmts (g : Rewrite) : List Stmt → List Stmt
  | [] => []
  | s :: rest => ((g s.action (rest.map Stmt.action)).map (Stmt.mk s.id)).toList ++ g.stmts rest

variable {g : Rewrite} {code : List Action} {a' : Action}

lemma stmts_action (g : Rewrite) (ss : List Stmt) :
    (g.stmts ss).map Stmt.action = g.actions (ss.map Stmt.action) := by
  induction ss with
  | nil => rfl
  | cons s ss ih =>
    simp only [stmts, map_append, ih, map_cons, actions]
    cases g s.action (ss.map Stmt.action) <;> rfl

lemma stmts_ids (g : Rewrite) (ss : List Stmt) :
    List.Sublist ((g.stmts ss).map Stmt.id) (ss.map Stmt.id) := by
  induction ss with
  | nil => exact .slnil
  | cons s ss ih =>
    simp only [stmts, map_append, map_cons]
    cases g s.action (ss.map Stmt.action) with
    | none => exact ih.cons _
    | some a => exact ih.cons_cons _

lemma mem_actions (h : a' ∈ g.actions code) :
    ∃ a rest, a :: rest <:+ code ∧ g a rest = some a' := by
  induction code with
  | nil => cases h
  | cons a rest ih =>
    rcases mem_append.1 h with h | h
    · exact ⟨a, rest, suffix_refl _, mem_toList.1 h⟩
    · obtain ⟨b, rest', hsuffix, hb⟩ := ih h
      exact ⟨b, rest', hsuffix.trans (suffix_cons a rest), hb⟩

lemma mem_actions_of_suffix (h : a :: rest <:+ code)
    (ha : g a rest = some a') : a' ∈ g.actions code := by
  induction code with
  | nil => exact absurd (suffix_nil.1 h) (cons_ne_nil _ _)
  | cons b code ih =>
    rcases suffix_cons_iff.1 h with h | h
    · cases h
      exact mem_append_left _ (mem_toList.2 ha)
    · exact mem_append_right _ (ih h)

lemma suffix_actions (h : a' :: rest' <:+ g.actions code) :
    ∃ a rest, a :: rest <:+ code ∧ g a rest = some a' ∧ rest' = g.actions rest := by
  induction code with
  | nil => exact absurd (suffix_nil.1 h) (cons_ne_nil _ _)
  | cons a rest ih =>
    have htail (h : a' :: rest' <:+ g.actions rest) :
        ∃ b rest'', b :: rest'' <:+ a :: rest ∧ g b rest'' = some a' ∧ rest' = g.actions rest'' := by
      obtain ⟨b, rest'', hsuffix, hb⟩ := ih h
      exact ⟨b, rest'', hsuffix.trans (suffix_cons a rest), hb⟩
    rw [actions] at h
    cases ha : g a rest with
    | none =>
      rw [ha] at h
      exact htail h
    | some c =>
      rw [ha] at h
      rcases suffix_cons_iff.1 h with h | h
      · cases h
        exact ⟨a, rest, suffix_refl _, ha, rfl⟩
      · exact htail h

structure KeepsLabels (g : Rewrite) (code : List Action) : Prop where
  label : ∀ a rest l, a :: rest <:+ code → g a rest = some (.label l) → a = .label l
  jump : ∀ a rest a' l, a :: rest <:+ code → g a rest = some a' → a'.jump? = some l →
    a.jump? = some l ∧ ∀ rest', .label l :: rest' <:+ code → g (.label l) rest' = some (.label l)

lemma afterLabel_actions
    (hlabel : ∀ a rest, a :: rest <:+ code → g a rest = some (.label l) → a = .label l)
    (hkept : ∀ rest, .label l :: rest <:+ code → g (.label l) rest = some (.label l)) :
    afterLabel l (g.actions code) = (afterLabel l code).map g.actions := by
  induction code with
  | nil => rfl
  | cons a rest ih =>
    have ih := ih (fun b rest' h => hlabel b rest' (h.trans (suffix_cons a rest)))
      fun rest' h => hkept rest' (h.trans (suffix_cons a rest))
    rw [actions, afterLabel]
    by_cases ha : a = .label l
    · subst ha
      rw [hkept rest (suffix_refl _), if_pos rfl]
      exact if_pos rfl
    · rw [if_neg ha, ← ih]
      refine afterLabel_append fun h => ha ?_
      exact hlabel a rest (suffix_refl _) (mem_toList.1 h)

lemma KeepsLabels.labels_sublist (h : g.KeepsLabels code) :
    List.Sublist (labelsOf (g.actions code)) (labelsOf code) := by
  unfold labelsOf
  have hlabel := h.label
  clear h
  induction code with
  | nil => exact .slnil
  | cons a rest ih =>
    have ih := ih fun b rest' l h => hlabel b rest' l (h.trans (suffix_cons a rest))
    have hrest := ih.trans ((sublist_cons_self a rest).filterMap Simplify.label?)
    rw [actions, filterMap_append]
    cases ha : g a rest with
    | none => exact hrest
    | some a' =>
      cases hl : Simplify.label? a' with
      | none => simpa [hl] using hrest
      | some l =>
        obtain rfl : a' = .label l := by
          cases a' <;> cases hl
          rfl
        cases hlabel a rest l (suffix_refl _) ha
        exact ih.cons_cons l

lemma KeepsLabels.targets (h : g.KeepsLabels code)
    (htargets : ∀ a ∈ code, ∀ l, a.jump? = some l → .label l ∈ code) :
    ∀ a ∈ g.actions code, ∀ l, a.jump? = some l → .label l ∈ g.actions code := by
  intro a' ha' l hl
  obtain ⟨a, rest, hsuffix, ha⟩ := mem_actions ha'
  obtain ⟨hjump, hkept⟩ := h.jump a rest a' l hsuffix ha hl
  have hplaced := htargets a (hsuffix.subset (.head _)) l hjump
  obtain ⟨pre, rest', rfl⟩ := append_of_mem hplaced
  have hsuffix' := suffix_append pre (.label l :: rest')
  exact mem_actions_of_suffix hsuffix' (hkept rest' hsuffix')
end Rewrite

structure Rewrites (b b' : Body) (g : Rewrite) : Prop where
  stmts : b'.stmts = g.stmts b.stmts
  nextStmt : b'.nextStmt = b.nextStmt
  nextLabel : b'.nextLabel = b.nextLabel
  keepsLabels : g.KeepsLabels b.code
  locals : ∀ a rest a', a :: rest <:+ b.code → g a rest = some a' →
    ∀ l ∈ a'.mentions, l < b'.locals.size
  entry : ∀ l ∈ b'.entry, l < b'.locals.size
  demands : ∀ a rest a', a :: rest <:+ b.code → g a rest = some a' → a'.demands ⊆ a.demands

namespace Rewrites
variable {b b' : Body} {g : Rewrite}

lemma code (h : Rewrites b b' g) : b'.code = g.actions b.code := by
  rw [Body.code, h.stmts, Rewrite.stmts_action, Body.code]

lemma wellFormed (h : Rewrites b b' g) (hb : b.WellFormed) : b'.WellFormed  where
  ids := by
    rw [h.stmts]
    exact (g.stmts_ids b.stmts).nodup hb.ids
  labels := by
    rw [h.code]
    exact h.keepsLabels.labels_sublist.nodup hb.labels
  targets := by
    rw [h.code]
    exact h.keepsLabels.targets hb.targets
  locals := by
    rw [h.code]
    intro a' ha' l hl
    obtain ⟨a, rest, hsuffix, ha⟩ := Rewrite.mem_actions ha'
    exact h.locals a rest a' hsuffix ha l hl
  entry := h.entry

lemma fits (h : Rewrites b b' g) (hb : b.Fits P) : b'.Fits P  where
  toWellFormed := h.wellFormed hb.toWellFormed
  idsBelow s hs := by
    rw [h.nextStmt]
    have hid : s.id ∈ b.stmts.map Stmt.id :=
      (g.stmts_ids b.stmts).subset (h.stmts ▸ List.mem_map_of_mem hs)
    obtain ⟨t, ht, htid⟩ := List.mem_map.1 hid
    exact htid ▸ hb.idsBelow t ht
  labelsBelow l hl := by
    rw [h.nextLabel]
    rw [h.code] at hl
    exact hb.labelsBelow l (h.keepsLabels.labels_sublist.subset hl)
  demands a' ha' x hx := by
    rw [h.code] at ha'
    obtain ⟨a, rest, hsuffix, ha⟩ := Rewrite.mem_actions ha'
    exact hb.demands a (hsuffix.subset (.head _)) x (h.demands a rest a' hsuffix ha hx)

lemma inPlace (hb : b.WellFormed) (hstmts : b' = { b with stmts := g.stmts b.stmts })
    (hkeeps : g.KeepsLabels b.code)
    (hmentions : ∀ a rest a', a :: rest <:+ b.code → g a rest = some a' →
      a'.mentions ⊆ a.mentions ∧ a'.demands ⊆ a.demands) : Rewrites b b' g := by
  subst hstmts
  exact {
    stmts := rfl
    nextStmt := rfl
    nextLabel := rfl
    keepsLabels := hkeeps
    locals := fun a rest a' hsuffix ha l hl =>
      hb.locals a (hsuffix.subset (.head _)) l ((hmentions a rest a' hsuffix ha).1 hl)
    entry := hb.entry
    demands := fun a rest a' hsuffix ha => (hmentions a rest a' hsuffix ha).2 }

lemma select (hb : b.WellFormed) (hstmts : b' = { b with stmts := g.stmts b.stmts })
    (hsame : ∀ {a rest a'}, g a rest = some a' → a' = a)
    (htarget : ∀ {a rest l}, a :: rest <:+ b.code → g a rest = some a → a.jump? = some l →
      ∀ rest', .label l :: rest' <:+ b.code → g (.label l) rest' = some (.label l)) :
    Rewrites b b' g := by
  refine .inPlace hb hstmts ⟨fun a rest l _ ha => (hsame ha).symm, ?_⟩ ?_
  · intro a rest a' l hsuffix ha hl
    obtain rfl := hsame ha
    exact ⟨hl, htarget hsuffix ha hl⟩
  · intro a rest a' _ ha
    rw [hsame ha]
    exact ⟨List.Subset.refl _, List.Subset.refl _⟩
end Rewrites

/-! ## Simulation -/
section Simulation
variable {m : Interpretation ρ W} {values : List (Datum ρ)} {w : W} {b b' : Body} {g : Rewrite}
  {E : Env ρ → Env ρ → Prop} {T : Env ρ → Prop} {env env' : Env ρ} {s : Config ρ W}

inductive Agrees (T : Env ρ → Prop) (E : Env ρ → Env ρ → Prop) (env env' : Env ρ) :
    Instruction ρ → Instruction ρ → Prop
  | set {l l' : LocalId} {r : Request ρ} :
      (∀ v, T (env.set l v) → E (env.set l v) (env'.set l' v)) →
      Agrees T E env env' (.set l r) (.set l' r)
  | same {i : Instruction ρ} : (∀ l r, i ≠ .set l r) → Agrees T E env env' i i

structure Vanishes (m : Interpretation ρ W) (b : Body) (g : Rewrite) (E : Env ρ → Env ρ → Prop)
    (s : Config ρ W) (rest : List Action) (env' : Env ρ) (s' : Config ρ W) : Prop where
  step : b.step m s = .next [] s'
  world : s'.world = s.world
  env : E s'.env env'
  ahead : s'.rest.length ≤ rest.length
  labels : ∃ ls : List Label, g.actions rest = ls.map .label ++ g.actions s'.rest

structure Simulates (m : Interpretation ρ W) (values : List (Datum ρ)) (w : W) (b b' : Body)
    (g : Rewrite) (E : Env ρ → Env ρ → Prop) : Prop extends Rewrites b b' g where
  start : E (b.entryEnv values) (b'.entryEnv values)
  typed : ∀ env env', E env env' → b.Typed m env → b'.Typed m env'
  kept : ∀ {es s a rest a' env' i}, Reaches (b.step m) (b.start values w) es s →
    s.rest = a :: rest → E s.env env' → a.evaluate m s.env = some i → g a rest = some a' →
    ∃ i', a'.evaluate m env' = some i' ∧ Agrees (b.Typed m) E s.env env' i i'
  dropped : ∀ {es s a rest env' i}, Reaches (b.step m) (b.start values w) es s →
    s.rest = a :: rest → E s.env env' → a.evaluate m s.env = some i → g a rest = none →
    ∃ s', Vanishes m b g E s rest env' s'

structure Matches (g : Rewrite) (T : Env ρ → Prop) (E : Env ρ → Env ρ → Prop) (s t : Config ρ W) :
    Prop where
  env : T s.env → E s.env t.env
  world : t.world = s.world
  rest : ∃ ls : List Label, t.rest = ls.map .label ++ g.actions s.rest

lemma Matches.of_actions
    (henv : T env → E env env') : Matches g T E ⟨rest, env, w⟩ ⟨g.actions rest, env', w⟩ :=
  ⟨henv, rfl, [], rfl⟩

lemma Agrees.execute_alike {i i' : Instruction ρ} (h : Agrees T E env env' i i') (henv : E env env')
    (hjump : ∀ l, i = .goto l → afterLabel l code' = (afterLabel l code).map g.actions) :
    (i.execute m code rest env w).Alike (Matches g T E)
      (i'.execute m code' (g.actions rest) env' w) := by
  cases h with
  | set hset => exact Request.run_alike _ _ fun v w => .next (.of_actions (hset v))
  | same hi =>
    cases i with
    | set l r => exact absurd rfl (hi l r)
    | store r effect =>
      rw [execute, execute]
      exact Request.run_alike _ _ fun v w =>
        Effect.run_alike _ _ fun _ w => .next (.of_actions fun _ => henv)
    | perform e => exact Effect.run_alike _ _ fun _ w => .next (.of_actions fun _ => henv)
    | goto l =>
      simp only [execute, hjump l rfl]
      cases afterLabel l code with
      | none => exact .done _ _
      | some rest' => exact .next (.of_actions fun _ => henv)
    | skip => exact .next (.of_actions fun _ => henv)
    | ret value | throw value | trap t => exact .done _ _

namespace Simulates
lemma afterLabel (h : Simulates m values w b b' g E) {a' : Action}
    (hsuffix : a :: rest <:+ b.code) (ha : g a rest = some a')
    (hl : a'.jump? = some l) : DataflowSpecializer.afterLabel l b'.code =
      (DataflowSpecializer.afterLabel l b.code).map g.actions := by
  obtain ⟨-, hkept⟩ := h.keepsLabels.jump a rest a' l hsuffix ha hl
  rw [h.code]
  exact Rewrite.afterLabel_actions (fun c rest' => h.keepsLabels.label c rest' l) hkept

structure Related (m : Interpretation ρ W) (values : List (Datum ρ)) (w : W) (b : Body)
    (g : Rewrite) (E : Env ρ → Env ρ → Prop) (s t : Config ρ W) : Prop where
  reached : ∃ es, Reaches (b.step m) (b.start values w) es s
  matching : Matches g (fun _ => True) E s t

variable (h : Simulates m values w b b' g E)

include h

lemma advance_actions (hb : Regular m values w b)
    (hs : Reaches (b.step m) (b.start values w) es ⟨ahead, env, world⟩) (henv : E env env') :
    Advance (b.step m) (b'.step m) (Related m values w b g E)
      (fun s t => s.rest.length + t.rest.length) ⟨ahead, env, world⟩
      ⟨g.actions ahead, env', world⟩ := by
  cases ahead with
  | nil => exact .done rfl rfl
  | cons a rest =>
    obtain ⟨i, hi⟩ := hb.evaluates hs rfl
    have hsuffix := Regular.rest_suffix hs
    cases ha : g a rest with
    | none =>
      obtain ⟨s', hv⟩ := h.dropped hs rfl henv hi ha
      have hactions : g.actions (a :: rest) = g.actions rest := by
        rw [Rewrite.actions, ha, toList_none, nil_append]
      refine .left hv.step ⟨⟨_, hs.trans (.single hv.step)⟩, fun _ => hv.env, hv.world.symm, ?_⟩ ?_
      · rw [hactions]
        exact hv.labels
      · have := hv.ahead
        simp only [length_cons]
        omega
    | some a' =>
      obtain ⟨i', hi', hagrees⟩ := h.kept hs rfl henv hi ha
      have hjump (l : Label) (hl : i = .goto l) : DataflowSpecializer.afterLabel l b'.code =
            (DataflowSpecializer.afterLabel l b.code).map g.actions := by
        subst hl
        cases hagrees
        exact h.afterLabel hsuffix ha ((declared_of_evaluate hi').1 _ rfl)
      have halike : (b.step m ⟨a :: rest, env, world⟩).Alike (Matches g (b.Typed m) E)
          (b'.step m ⟨g.actions (a :: rest), env', world⟩) := by
        rw [Rewrite.actions, ha, toList_some, singleton_append, Body.step, Body.step,
          Config.step_cons hi, Config.step_cons hi']
        exact hagrees.execute_alike henv hjump
      generalize hstep : b.step m ⟨a :: rest, env, world⟩ = x at halike
      generalize hstep' : b'.step m ⟨g.actions (a :: rest), env', world⟩ = x' at halike
      cases halike with
      | done => exact .done hstep hstep'
      | next hmatches =>
        have hreached := hs.trans (.single hstep)
        exact .both hstep hstep'
          ⟨⟨_, hreached⟩, fun _ => hmatches.env (hb.typed _ _ hreached), hmatches.world,
            hmatches.rest⟩

lemma simulation (hb : Regular m values w b) :
    Simulation (b.step m) (b'.step m) (Related m values w b g E)
      (fun s t => s.rest.length + t.rest.length) := by
  rintro ⟨ahead, env, world⟩ ⟨_, env', _⟩ ⟨⟨es, hs⟩, henv, ⟨⟩, ls, ⟨⟩⟩
  cases ls with
  | nil => exact h.advance_actions hb hs (henv trivial)
  | cons l ls =>
    have hpass : b'.step m ⟨(l :: ls).map .label ++ g.actions ahead, env', world⟩ =
        .next [] ⟨ls.map .label ++ g.actions ahead, env', world⟩ := rfl
    refine .right hpass ⟨⟨es, hs⟩, henv, rfl, ls, rfl⟩ ?_
    simp

/-- **A rewriting whose statements are simulated is sound.** -/
theorem sound : Sound m values w b b' := by
  intro hb
  have hstart : Related m values w b g E (b.start values w) (b'.start values w) :=
    ⟨⟨[], .refl _⟩, fun _ => h.start, rfl, [], h.code⟩
  have hsimulation := h.simulation hb
  have hsame := hsimulation.sameBehaviour hstart
  refine ⟨⟨h.wellFormed hb.wellFormed, fun es hes => hb.assigned es ((hsame.ends _ _).2 hes), ?_⟩,
    hsame⟩
  intro es t ht
  obtain ⟨s, hs, hrelated⟩ := hsimulation.symm.follow_reaches ht hstart
  exact h.typed _ _ (hrelated.matching.env trivial) (hb.typed es s hs)
end Simulates

lemma Agrees.alike (i : Instruction ρ)
    (hset : ∀ l v, T (env.set l v) → E (env.set l v) (env'.set l v)) :
    Agrees T E env env' i i := by
  cases i with
  | set l r => exact .set (hset l)
  | _ => exact .same fun l r h => by cases h

lemma Agrees.refl (env : Env ρ) (i : Instruction ρ) :
    Agrees T (fun env env' => env' = env) env env i i := .alike i fun _ _ _ => rfl

lemma vanishes_skip
    (hrest : s.rest = a :: rest) (hi : a.evaluate m s.env = some .skip) (henv : E s.env env') :
    Vanishes m b g E s rest env' ⟨rest, s.env, s.world⟩ := by
  obtain ⟨_, env, world⟩ := s
  cases hrest
  exact ⟨Config.step_cons hi, rfl, henv, .refl, [], rfl⟩

lemma vanishes_set (hrest : s.rest = a :: rest)
    (hi : a.evaluate m s.env = some (.set l (.value v))) (henv : E (s.env.set l v) env') :
    Vanishes m b g E s rest env' ⟨rest, s.env.set l v, s.world⟩ := by
  obtain ⟨_, env, world⟩ := s
  cases hrest
  exact ⟨Config.step_cons hi, rfl, henv, .refl, [], rfl⟩

lemma Simulates.inPlace (hstmts : b' = { b with stmts := g.stmts b.stmts })
    (hrewrites : Rewrites b b' g)
    (hkept : ∀ {es s a rest a' i}, Reaches (b.step m) (b.start values w) es s →
      s.rest = a :: rest → a.evaluate m s.env = some i → g a rest = some a' →
      a'.evaluate m s.env = some i)
    (hdropped : ∀ {es s a rest i}, Reaches (b.step m) (b.start values w) es s →
      s.rest = a :: rest → a.evaluate m s.env = some i → g a rest = none →
      ∃ s', Vanishes m b g (fun env env' => env' = env) s rest s.env s') :
    Simulates m values w b b' g fun env env' => env' = env := by
  subst hstmts
  exact { hrewrites with
    start := rfl
    typed := fun env env' henv htyped => henv ▸ htyped
    kept := fun {es s a rest a' env' i} hs hrest henv hi ha => by
      subst henv
      exact ⟨i, hkept hs hrest hi ha, .refl _ i⟩
    dropped := fun {es s a rest env' i} hs hrest henv hi ha => by
      subst henv
      exact hdropped hs hrest hi ha }
end Simulation

namespace Rewrite
def ofMap (f : Action → Action) : Rewrite := fun a _ => some (f a)
def ofFilter (p : Action → Bool) : Rewrite := fun a _ => if p a then some a else none

lemma stmts_ofMap (f : Action → Action) (ss : List Stmt) :
    (ofMap f).stmts ss = ss.map fun s => { s with action := f s.action } := by
  induction ss with
  | nil => rfl
  | cons s ss ih =>
    rw [stmts, ih]
    rfl

lemma stmts_ofFilter (p : Action → Bool) (ss : List Stmt) :
    (ofFilter p).stmts ss = ss.filter fun s => p s.action := by
  induction ss with
  | nil => rfl
  | cons s ss ih =>
    rw [stmts, ih, filter_cons, ofFilter]
    split <;> rfl

lemma keepsLabels_exchange (hf : ∀ a, f a = a.exchange x)
    (code : List Action) : (ofMap f).KeepsLabels code where
  label a _ l _ ha := exchange_eq_label.1 ((hf a).symm.trans (some.inj ha))
  jump a _ a' l _ ha hl := by
    obtain rfl : f a = a' := some.inj ha
    rw [hf, jump?_exchange] at hl
    exact ⟨hl, fun _ _ => congrArg some (hf _)⟩

lemma keepsLabels_ofMap (hlabel : ∀ a l, f a = .label l ↔ a = .label l)
    (hjump : ∀ a l, (f a).jump? = some l → a.jump? = some l) : (ofMap f).KeepsLabels code where
  label a _ l _ ha := (hlabel a l).1 (some.inj ha)
  jump a _ a' l _ ha hl := by
    cases ha
    exact ⟨hjump a l hl, fun _ _ => congrArg some ((hlabel _ l).2 rfl)⟩

lemma eq_of_ofFilter (h : ofFilter p a rest = some a') : p a ∧ a' = a := by
  unfold ofFilter at h
  split at h
  · cases h
    exact ⟨‹_›, rfl⟩
  · cases h
end Rewrite

lemma Rewrites.filter {b : Body} (hb : b.WellFormed)
    (htarget : ∀ a ∈ b.code, ∀ l, a.jump? = some l → p (.label l)) :
    Rewrites b { b with stmts := b.stmts.filter fun s => p s.action } (.ofFilter p) := by
  refine .select hb ?_ (fun ha => (Rewrite.eq_of_ofFilter ha).2) ?_
  · rw [Rewrite.stmts_ofFilter]
  · intro a rest l hsuffix _ hl _ _
    exact if_pos (htarget a (hsuffix.subset (.head _)) l hl)
end DataflowSpecializer
