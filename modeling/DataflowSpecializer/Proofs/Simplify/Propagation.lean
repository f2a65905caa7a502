import DataflowSpecializer.Proofs.Simplify.Removal

/-! # Propagation -/
namespace DataflowSpecializer
open List Option DataflowSpecializer.Action Instruction Regular Env Rewrite Exchange Bool
variable {ρ W : Type}

namespace Simplify
variable {m : Interpretation ρ W} {values : List (Datum ρ)} {w : W} {b : Body} {l r : LocalId}
  {es : List (Effect ρ)} {id : StmtId} {s : Config ρ W} {P : Demand → Prop} {rest : List Action}
  {env env' : Env ρ} {v : Datum ρ} {c : Constant}

lemma mem_entry_iff : l ∈ b.entry ↔ b.isParam l := by
  simp only [Body.entry, Body.isParam, mem_append, mem_toList, or_eq_true,
    beq_iff_eq, contains_iff_mem]

lemma entryEnv_of_not_isParam (h : b.isParam l = false)
    (values : List (Datum ρ)) : b.entryEnv values l = none := by
  rw [Body.entryEnv, lookup_eq_none_iff]
  rintro ⟨k, v⟩ hkv
  have hk : k ∈ b.entry := (of_mem_zip hkv).1
  simp only [bne_iff_ne, ne_eq]
  rintro rfl
  rw [mem_entry_iff, h] at hk
  cases hk

structure AssignedOnce (b : Body) (l : LocalId) (s : Stmt) : Prop where
  notParam : b.isParam l = false
  defs : b.defs l = [s]

lemma singleDef?_eq_some {l : LocalId} {s : Stmt} :
    b.singleDef? l = some s ↔ AssignedOnce b l s := by
  unfold Body.singleDef?
  split
  · rename_i hparam
    exact ⟨nofun, fun h => by rw [h.notParam] at hparam; cases hparam⟩
  · rename_i hparam
    rw [not_eq_true] at hparam
    split
    · rename_i s' hdefs
      rw [some_inj]
      exact ⟨fun h => ⟨hparam, h ▸ hdefs⟩, fun h => (singleton_inj.1 (hdefs.symm.trans h.defs))⟩
    · rename_i hdefs
      exact ⟨nofun, fun h => absurd h.defs (hdefs s)⟩

namespace AssignedOnce
variable {l : LocalId} {s : Stmt}

variable (h : AssignedOnce b l s)

include h

lemma mem : s ∈ b.stmts ∧ s.action.target? = some l := by
  have hmem : s ∈ b.defs l := h.defs ▸ mem_singleton_self s
  obtain ⟨hs, htarget⟩ := mem_filter.1 hmem
  exact ⟨hs, beq_iff_eq.1 htarget⟩

lemma eq_of_target {s' : Stmt} (hs' : s' ∈ b.stmts)
    (htarget : s'.action.target? = some l) : s' = s := by
  have hmem : s' ∈ b.defs l := mem_filter.2 ⟨hs', beq_iff_eq.2 htarget⟩
  rw [h.defs] at hmem
  exact mem_singleton.1 hmem

lemma action_eq {a : Action} (ha : a ∈ b.code) (htarget : a.target? = some l) : a = s.action := by
  obtain ⟨s', hs', rfl⟩ := List.mem_map.1 ha
  rw [h.eq_of_target hs' htarget]

lemma not_assigned_behind {a : Action}
    (hsuffix : a :: rest <:+ b.code) (htarget : a.target? = some l) :
    ∀ c ∈ rest, c.target? ≠ some l := by
  have hcount : b.code.countP (·.target? == some l) = 1 := by
    rw [Body.code, countP_map, countP_eq_length_filter]
    exact congrArg List.length h.defs
  obtain ⟨pre, hpre⟩ := hsuffix
  have hhead : (fun c : Action => c.target? == some l) a := beq_iff_eq.2 htarget
  rw [← hpre, countP_append, countP_cons, if_pos hhead] at hcount
  have hzero : rest.countP (·.target? == some l) = 0 := by omega
  intro c hc hctarget
  exact countP_eq_zero.1 hzero c hc (beq_iff_eq.2 hctarget)
end AssignedOnce

lemma constant?_eq_some {l : LocalId} (h : constant? b l = some c) :
    ∃ s, AssignedOnce b l s ∧ s.action = .assign (.loc l) (.use (.const c)) := by
  unfold constant? at h
  split at h
  · rename_i place c' hdef
    cases h
    obtain ⟨s, hs, haction⟩ := map_eq_some_iff.1 hdef
    have honce := singleDef?_eq_some.1 hs
    have htarget := honce.mem.2
    rw [haction] at htarget
    cases place <;> cases htarget
    exact ⟨s, honce, haction⟩
  · cases h

lemma holds_constant (hs : Reaches (b.step m) (b.start values w) es s)
    (hl : constant? b l = some c) (hv : s.env l = some v) : v = .const c := by
  obtain ⟨d, honce, hd⟩ := constant?_eq_some hl
  revert v
  refine hs.invariant (P := fun s => ∀ {v}, s.env l = some v → v = .const c) ?_ ?_
  · intro v hv
    cases (entryEnv_of_not_isParam honce.notParam values).symm.trans hv
  · intro fs gs t u ht ih htu v hv
    cases Config.moves htu with
    | @assigned k value rest x hrest _ henv hvalue =>
      rw [henv] at hv
      by_cases hk : l = k
      · subst hk
        have hmem := (rest_suffix ht).subset (hrest ▸ mem_cons_self)
        have haction := honce.action_eq hmem rfl
        rw [hd] at haction
        cases haction
        rw [set_self] at hv
        rw [← some.inj hv]
        exact hvalue _ rfl
      · rw [set_of_ne _ hk] at hv
        exact ih hv
    | jumped _ _ _ henv | passed _ _ _ _ henv =>
      rw [henv] at hv
      exact ih hv

def constantFor (b : Body) : Operand → Operand
  | .loc l => if l < b.locals.size then ((constant? b l).map Operand.const).getD (.loc l) else .loc l
  | o => o

lemma constantFor_loc (b : Body) (l : LocalId) : constantFor b (.loc l) = .loc l ∨
      ∃ c, constantFor b (.loc l) = .const c ∧ constant? b l = some c := by
  rw [constantFor]
  split
  · cases hc : constant? b l with
    | none => exact .inl rfl
    | some c => exact .inr ⟨c, rfl, rfl⟩
  · exact .inl rfl

lemma propagateConstants_body (b : Body) : (propagateConstants b).2 =
      { b with stmts := (ofMap (mapOperands (constantFor b))).stmts b.stmts } := by
  rw [stmts_ofMap, propagateConstants]
  refine congrArg (fun ss => { b with stmts := ss }) (map_congr_left fun s _ => ?_)
  refine congrArg (fun f => Stmt.mk s.id (s.action.mapOperands f)) (funext fun o => ?_)
  cases o with
  | const c => rfl
  | loc l =>
    rw [constantFor]
    by_cases hl : l < b.locals.size
    · cases hc : constant? b l <;> simp [hl, hc]
    · simp [hl]

lemma constantFor_const (b : Body) (c : Constant) : constantFor b (.const c) = .const c := rfl

lemma propagateConstants_rewrites (hb : b.WellFormed) :
    Rewrites b (propagateConstants b).2 (.ofMap (mapOperands (constantFor b))) := by
  have hexchange := mapOperands_eq_exchange _ (constantFor_const b)
  refine .inPlace hb (propagateConstants_body b) (keepsLabels_exchange hexchange _) ?_
  intro a rest a' _ ha
  obtain rfl : a.mapOperands (constantFor b) = a' := some.inj ha
  rw [hexchange, demands_exchange]
  refine ⟨fun l hl => ?_, List.Subset.refl _⟩
  rcases mem_append.1 hl with hl | hl
  · obtain ⟨k, hk, hkl⟩ := a.covers_exchange l hl
    have : l = k := by
      rcases hkl with rfl | hkl
      · rfl
      · simp only [substitution] at hkl
        rcases constantFor_loc b k with h | ⟨c, h, -⟩
        · rw [h] at hkl
          exact mem_singleton.1 hkl
        · rw [h] at hkl
          cases hkl
    exact mem_append_left _ (this ▸ hk)
  · rw [target?_exchange] at hl
    exact mem_append_right _ (by simpa [substitution] using hl)

lemma propagateConstants_sound : Sound m values w b (propagateConstants b).2 := by
  intro hb
  have hconst := constantFor_const b
  refine (Simulates.inPlace (propagateConstants_body b)
    (propagateConstants_rewrites hb.wellFormed) ?_ ?_).sound hb
  · intro es s a rest a' i hs _ hi ha
    obtain rfl : a.mapOperands (constantFor b) = a' := some.inj ha
    rw [mapOperands_eq_exchange _ hconst]
    have hcarries : ∀ l ∈ a.uses, (substitution (constantFor b) hconst).Carries s.env s.env l := by
      intro l _ v hv
      refine ⟨?_, hv⟩
      simp only [substitution]
      rcases constantFor_loc b l with h | ⟨c, h, hc⟩
      · rw [h]
        exact hv
      · rw [h, holds_constant hs hc hv]
        rfl
    have := evaluate_exchange hcarries hi
    rwa [substitution, retarget_id] at this
  · intro es s a rest i _ _ _ ha
    cases ha

/-! ## Copies -/
def JumpsForward (code : List Action) : Prop :=
  ∀ a rest l, a :: rest <:+ code → a.jump? = some l → .label l ∈ rest

lemma jumpsForward_of_not_hasBackwardJump (hb : b.WellFormed) (h : hasBackwardJump b = false) :
    JumpsForward b.code := by
  intro a rest l hsuffix hjump
  obtain ⟨s, hs, rfl⟩ := action_of_suffix hsuffix
  have hplaced := hb.targets s.action (hsuffix.subset (.head _)) l hjump
  obtain ⟨pre, hpre⟩ := hsuffix
  obtain ⟨before, after, hcode, hbefore⟩ := eq_append_cons_of_mem hplaced
  have hposition : b.code.length - (s.action :: rest).length = pre.length := by simp [← hpre]
  have hlt : pre.length < before.length := by
    rw [hposition] at hs
    have hmem : (s, pre.length) ∈ b.stmts.zipIdx := mk_mem_zipIdx_iff_getElem?.2 hs
    have hforward := List.any_eq_false.1 h _ hmem
    simpa [hjump, labelPosition?_of_first hcode hbefore] using hforward
  rcases append_eq_append_iff.1 (hpre.trans hcode) with ⟨between, rfl, hrest⟩ | ⟨more, rfl, -⟩
  · cases between with
    | nil => simp at hlt
    | cons c between =>
      rw [cons_append] at hrest
      rw [(List.cons.inj hrest).2]
      exact mem_append_right _ (.head _)
  · rw [length_append] at hlt
    omega

lemma JumpsForward.actions {g : Rewrite} (h : JumpsForward code)
    (hkeeps : g.KeepsLabels code) : JumpsForward (g.actions code) := by
  intro a' rest' l hsuffix' hl
  obtain ⟨a, rest, hsuffix, ha, rfl⟩ := suffix_actions hsuffix'
  obtain ⟨hjump, hkept⟩ := hkeeps.jump a rest a' l hsuffix ha hl
  obtain ⟨pre, post, rfl⟩ := append_of_mem (h a rest l hsuffix hjump)
  have hpost := suffix_append pre (.label l :: post)
  exact mem_actions_of_suffix hpost (hkept post (hpost.trans ((suffix_cons _ _).trans hsuffix)))

lemma not_assigned_ahead (hforward : JumpsForward b.code)
    (hlabels : (b.code.filterMap label?).Nodup)
    (honce : AssignedOnce b l d)
    (hs : Reaches (b.step m) (b.start values w) es s)
    (hv : s.env l = some v) : ∀ a ∈ s.rest, a.target? ≠ some l := by
  revert v
  refine hs.invariant (P := fun s => ∀ {v}, s.env l = some v → ∀ a ∈ s.rest, a.target? ≠ some l)
    ?_ ?_
  · intro v hv
    cases (entryEnv_of_not_isParam honce.notParam values).symm.trans hv
  · intro fs gs t u ht ih htu v hv
    have hsuffix := rest_suffix ht
    cases Config.moves htu with
    | @assigned k value rest x hrest hurest henv _ =>
      rw [hurest]
      by_cases hk : k = l
      · subst hk
        exact honce.not_assigned_behind (hrest ▸ hsuffix) rfl
      · rw [henv, set_of_ne _ (Ne.symm hk)] at hv
        intro a ha
        exact ih hv a (hrest ▸ .tail _ ha)
    | @jumped c rest k hrest hjump hafter henv =>
      rw [henv] at hv
      rw [hrest] at hsuffix
      -- The label is placed once, and ahead.
      obtain ⟨pre, post, hpost⟩ := append_of_mem (hforward c rest k hsuffix hjump)
      obtain ⟨before, hbefore⟩ := hsuffix
      have hcode : b.code = (before ++ c :: pre) ++ .label k :: post := by
        rw [← hbefore, hpost, append_assoc, cons_append]
      rw [hcode] at hlabels hafter
      rw [afterLabel_of_first (not_mem_of_labels_nodup hlabels)] at hafter
      intro a ha
      refine ih hv a ?_
      rw [hrest, hpost, some.inj hafter]
      exact .tail _ (mem_append_right _ (.tail _ ha))
    | passed hrest _ _ hurest henv =>
      rw [henv] at hv
      rw [hurest]
      intro a ha
      exact ih hv a (hrest ▸ .tail _ ha)

structure IsCopyOf (b : Body) (id : StmtId) (l r : LocalId) : Prop where
  once : AssignedOnce b l ⟨id, .assign (.loc l) (.use (.loc r))⟩
  stable : isStable b r
  ne : r ≠ l

lemma copy?_eq_some (h : copy? b l = some (id, r)) : IsCopyOf b id l r := by
  unfold copy? at h
  split at h
  · rename_i id' place r' hdef
    split at h
    · rename_i hcond
      cases h
      have honce := singleDef?_eq_some.1 hdef
      have htarget := honce.mem.2
      cases place <;> cases htarget
      simp only [ne_eq, and_eq_true, decide_eq_true_eq] at hcond
      exact ⟨honce, hcond.1, hcond.2⟩
    · cases h
  · cases h

def merged (l r : LocalId) (x : LocalId) : LocalId := if x = l then r else x

def mergeRewrite (l r : LocalId) : Rewrite :=
  fun a _ => if a.target? = some l then none else some (a.renameLocals (merged l r))

lemma mergeRewrite_eq_some {a : Action} (h : mergeRewrite l r a rest = some a') :
    a.target? ≠ some l ∧ a' = a.exchange (.newNames (merged l r)) := by
  unfold mergeRewrite at h
  split at h
  · cases h
  · cases h
    exact ⟨‹_›, renameLocals_eq_exchange _ a⟩

lemma mergeRewrite_eq_none {a : Action}
    (h : mergeRewrite l r a rest = none) : a.target? = some l := by
  unfold mergeRewrite at h
  split at h
  · assumption
  · cases h

lemma mergeRewrite_stmts (l r : LocalId) (ss : List Stmt) :
    (mergeRewrite l r).stmts ss = (ss.filter fun s => s.action.target? ≠ some l).map fun s =>
      { s with action := s.action.renameLocals fun x => if x = l then r else x } := by
  induction ss with
  | nil => rfl
  | cons s ss ih =>
    rw [Rewrite.stmts, ih, filter_cons, mergeRewrite]
    by_cases h : s.action.target? = some l
    · simp [h]
    · simp [h]
      rfl

lemma mergeLocals_eq (hb : b.WellFormed) (h : IsCopyOf b id l r) :
    mergeLocals b id l r = { b with stmts := (mergeRewrite l r).stmts b.stmts } := by
  rw [mergeRewrite_stmts, mergeLocals]
  congr 2
  refine filter_congr fun s hs => ?_
  rw [decide_eq_decide]
  refine not_congr ?_
  constructor
  · intro hid
    have := inj_on_of_nodup_map hb.ids hs h.once.mem.1 hid
    rw [this]
    rfl
  · intro htarget
    rw [h.once.eq_of_target hs htarget]

/-- All locals but `l` hold the same; what `l` held is what `r` holds. -/
def Merged (l r : LocalId) (env env' : Env ρ) : Prop :=
  (∀ x, env' x = if x = l then none else env x) ∧ ∀ v, env l = some v → env r = some v

lemma keepsLabels_mergeRewrite (l r : LocalId) (code : List Action) :
    (mergeRewrite l r).KeepsLabels code where
  label a rest k _ ha := by
    obtain ⟨-, h⟩ := mergeRewrite_eq_some ha
    exact exchange_eq_label.1 h.symm
  jump a rest a' k _ ha hk := by
    obtain ⟨-, rfl⟩ := mergeRewrite_eq_some ha
    rw [jump?_exchange] at hk
    exact ⟨hk, fun _ _ => rfl⟩

lemma Merged.carries (h : Merged l r env env') (hne : r ≠ l)
    (x : LocalId) : (newNames (merged l r)).Carries env env' x := by
  have hread {v : Datum ρ} (hv : env x = some v) : env' (merged l r x) = some v := by
    rw [merged, h.1]
    by_cases hx : x = l
    · subst hx
      rw [if_pos rfl, if_neg hne]
      exact h.2 v hv
    · rw [if_neg hx, if_neg hx]
      exact hv
  exact fun v hv => ⟨hread hv, hread hv⟩

lemma Merged.set (h : Merged l r env env') (hk : k ≠ l)
    (hr : k = r → env l = none) (v : Datum ρ) : Merged l r (env.set k v) (env'.set k v) := by
  refine ⟨fun x => ?_, fun u hu => ?_⟩
  · by_cases hx : x = k
    · subst hx
      rw [set_self, set_self, if_neg hk]
    · rw [set_of_ne _ hx, set_of_ne _ hx, h.1]
  · rw [set_of_ne _ (Ne.symm hk)] at hu
    have hkr : r ≠ k := by
      rintro rfl
      rw [hr rfl] at hu
      cases hu
    rw [set_of_ne _ hkr]
    exact h.2 u hu

lemma unassigned_of_stable (hforward : JumpsForward b.code)
    (hlabels : (b.code.filterMap label?).Nodup) {r : LocalId} (hstable : isStable b r)
    (hs : Reaches (b.step m) (b.start values w) es s)
    {a : Action} (ha : a ∈ s.rest) (htarget : a.target? = some r) : s.env r = none := by
  have hmem : a ∈ b.code := (rest_suffix hs).subset ha
  unfold isStable at hstable
  split at hstable
  · obtain ⟨d, hd, rfl⟩ := List.mem_map.1 hmem
    have hdefs : d ∈ b.defs r := mem_filter.2 ⟨hd, beq_iff_eq.2 htarget⟩
    rw [List.isEmpty_iff.1 hstable] at hdefs
    cases hdefs
  · obtain ⟨d, hd⟩ := isSome_iff_exists.1 hstable
    cases hv : s.env r with
    | none => rfl
    | some v =>
      have honce := singleDef?_eq_some.1 hd
      exact absurd htarget (not_assigned_ahead hforward hlabels honce hs hv a ha)

lemma mergeLocals_rewrites (hb : b.WellFormed)
    (h : IsCopyOf b id l r) : Rewrites b (mergeLocals b id l r) (mergeRewrite l r) := by
  rw [mergeLocals_eq hb h]
  have hcopy : Action.assign (.loc l) (.use (.loc r)) ∈ b.code :=
    List.mem_map.2 ⟨_, h.once.mem.1, rfl⟩
  have hr : r < b.locals.size := hb.locals _ hcopy r (mem_append_left _ (mem_singleton_self r))
  exact {
    stmts := rfl
    nextStmt := rfl
    nextLabel := rfl
    keepsLabels := keepsLabels_mergeRewrite l r b.code
    locals := fun a rest a' hsuffix ha k hk => by
      obtain ⟨-, rfl⟩ := mergeRewrite_eq_some ha
      obtain ⟨x, hx, rfl⟩ := mem_mentions_newNames hk
      unfold merged
      split
      · exact hr
      · exact hb.locals a (hsuffix.subset (.head _)) x hx
    entry := hb.entry
    demands := fun a rest a' _ ha => by
      obtain ⟨-, rfl⟩ := mergeRewrite_eq_some ha
      rw [demands_exchange]
      exact List.Subset.refl _ }

lemma mergeLocals_sound (hforward : JumpsForward b.code)
    (h : IsCopyOf b id l r) : Sound m values w b (mergeLocals b id l r) := by
  intro hb
  have hrewrites := mergeLocals_rewrites hb.wellFormed h
  rw [mergeLocals_eq hb.wellFormed h] at hrewrites ⊢
  refine Simulates.sound (g := mergeRewrite l r) (E := Merged l r) ?_ hb
  exact { hrewrites with
    start := by
      have hl := entryEnv_of_not_isParam h.once.notParam values
      refine ⟨fun x => ?_, fun v hv => ?_⟩
      · split
        · rename_i hx
          exact hx ▸ hl
        · rfl
      · rw [hl] at hv
        cases hv
    typed := fun env env' henv htyped x v hv => by
      rw [henv.1] at hv
      split at hv
      · cases hv
      · exact htyped x v hv
    kept := fun {es s a rest a' env' i} hs hrest henv hi ha => by
      obtain ⟨htarget, rfl⟩ := mergeRewrite_eq_some ha
      refine ⟨_, evaluate_exchange (fun x _ => henv.carries h.ne x) hi, ?_⟩
      cases i with
      | set k q =>
        have hk := (declared_of_evaluate hi).2 _ _ rfl
        have hne : k ≠ l := by
          rintro rfl
          exact htarget hk
        have hmerged : merged l r k = k := if_neg hne
        rw [retarget, show (newNames (merged l r)).target k = k from hmerged]
        refine .set fun v _ => henv.set hne ?_ v
        rintro rfl
        have hnone := unassigned_of_stable hforward hb.wellFormed.labels h.stable hs
          (hrest ▸ mem_cons_self) hk
        cases hl : s.env l with
        | none => rfl
        | some u =>
          have := henv.2 u hl
          rw [hnone] at this
          cases this
      | _ => exact .same fun _ _ h => by cases h
    dropped := fun {es s a rest env' i} hs hrest henv hi ha => by
      have hmem : a ∈ b.code := (rest_suffix hs).subset (hrest ▸ mem_cons_self)
      obtain rfl := h.once.action_eq hmem (mergeRewrite_eq_none ha)
      obtain ⟨q, hq, rfl⟩ := map_eq_some_iff.1 hi
      obtain ⟨v, hv, rfl⟩ := map_eq_some_iff.1 hq
      refine ⟨_, vanishes_set hrest hi ⟨fun x => ?_, fun u hu => ?_⟩⟩
      · rw [henv.1]
        by_cases hx : x = l
        · rw [if_pos hx, if_pos hx]
        · rw [if_neg hx, if_neg hx, set_of_ne _ hx]
      · rw [set_self] at hu
        rw [set_of_ne _ h.ne, ← hu]
        exact hv }

lemma foldl_removeCopy_fits (ls : List LocalId) (n : Nat) {b : Body}
    (hb : b.Fits P) : (ls.foldl removeCopy (n, b)).2.Fits P := by
  induction ls generalizing n b with
  | nil => exact hb
  | cons l ls ih =>
    rw [foldl_cons, removeCopy]
    split
    · rename_i id r hcopy
      exact ih _ ((mergeLocals_rewrites hb.toWellFormed (copy?_eq_some hcopy)).fits hb)
    · exact ih _ hb

lemma propagateCopies_fits (hb : b.Fits P) : (propagateCopies b).2.Fits P := by
  unfold propagateCopies
  split
  · exact hb
  · exact foldl_removeCopy_fits _ 0 hb

lemma foldl_removeCopy_sound (ls : List LocalId) (n : Nat) {b : Body}
    (hforward : JumpsForward b.code) : Sound m values w b (ls.foldl removeCopy (n, b)).2 := by
  induction ls generalizing n b with
  | nil => exact .refl b
  | cons l ls ih =>
    rw [foldl_cons, removeCopy]
    split
    · rename_i id r hcopy
      have h := copy?_eq_some hcopy
      intro hb
      have hsound : Sound m values w b _ := mergeLocals_sound hforward h
      refine (hsound.trans (ih (n + 1) ?_)) hb
      rw [mergeLocals_eq hb.wellFormed h, Body.code, stmts_action]
      exact hforward.actions (keepsLabels_mergeRewrite l r b.code)
    · exact ih n hforward

lemma propagateCopies_sound : Sound m values w b (propagateCopies b).2 := by
  intro hb
  unfold propagateCopies
  split
  · exact Sound.refl b hb
  · rename_i hback
    rw [not_eq_true] at hback
    exact foldl_removeCopy_sound _ 0 (jumpsForward_of_not_hasBackwardJump hb.wellFormed hback) hb
end Simplify
end DataflowSpecializer
