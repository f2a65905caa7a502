import DataflowSpecializer.Proofs.Simplify.Folding

/-! # Removal

Rules that drop statements: those that control never reaches, jumps to where control comes
anyway, labels that nothing jumps to, assignments of locals that nobody reads, and statements
that do nothing.
-/
namespace DataflowSpecializer.Simplify
open List Option Simulates Rewrite Body Env Regular DataflowSpecializer.Action
variable {ρ W : Type} {m : Interpretation ρ W} {values : List (Datum ρ)} {w : W} {b : Body}
  {l : Label} {rest : List Action} {a : Action} {i j : Nat} {ss : List Stmt} {env : Env ρ}

section Drop
variable {q : Action → Bool} (htarget : ∀ a ∈ b.code, ∀ l, a.jump? = some l → q (.label l) = false)

include htarget

lemma drop_rewrites (hb : b.WellFormed) :
    Rewrites b (drop (fun s => q s.action) b).2 (.ofFilter fun a => !q a) :=
  .filter (p := fun a => !q a) hb fun a ha l hl => by rw [htarget a ha l hl]; rfl

lemma drop_sound (hskip : ∀ env a, q a → a.evaluate m env = some .skip) :
    Sound m values w b (drop (fun s => q s.action) b).2 := by
  intro hb
  refine (inPlace ?_ (drop_rewrites htarget hb.wellFormed) ?_ ?_).sound hb
  · rw [stmts_ofFilter]
    rfl
  · intro es s a rest a' i _ _ hi ha
    rw [(eq_of_ofFilter ha).2]
    exact hi
  · intro es s a rest i _ hrest _ ha
    have hq : q a := by
      by_contra hq
      simp [ofFilter, hq] at ha
    exact ⟨_, vanishes_skip hrest (hskip s.env a hq) rfl⟩
end Drop

lemma removeNops_rewrites (hb : b.WellFormed) :
    Rewrites b (removeNops b).2 (.ofFilter fun a => !decide (a = .nop)) :=
  drop_rewrites (q := fun a => a = .nop) (fun _ _ _ _ => rfl) hb

lemma removeNops_sound : Sound m values w b (removeNops b).2 := by
  refine drop_sound (q := fun a => a = .nop) (fun _ _ _ _ => rfl) fun env a ha => ?_
  obtain rfl := of_decide_eq_true ha
  rfl

def isUntargeted (b : Body) (a : Action) : Bool :=
  match label? a with
  | some l => !(b.stmts.filterMap (·.action.jump?)).contains l
  | none => false

lemma not_isUntargeted (ha : a ∈ b.code) (hl : a.jump? = some l) :
    isUntargeted b (.label l) = false := by
  obtain ⟨s, hs, rfl⟩ := List.mem_map.1 ha
  simpa [isUntargeted, label?] using ⟨s, hs, hl⟩

lemma removeLabels_rewrites (hb : b.WellFormed) :
    Rewrites b (removeLabels b).2 (.ofFilter fun a => !isUntargeted b a) :=
  drop_rewrites (fun _ ha _ hl => not_isUntargeted ha hl) hb

lemma removeLabels_sound : Sound m values w b (removeLabels b).2 := by
  refine drop_sound (q := isUntargeted b) (fun _ ha _ hl => not_isUntargeted ha hl) ?_
  intro env a ha
  cases a with
  | label l => rfl
  | _ => cases ha

lemma useCounts_eq (b : Body) :
    b.useCounts = (b.code.flatMap Action.uses).foldl (fun counts l => counts.modify l (· + 1))
      (Array.replicate b.locals.size 0) := by
  rw [useCounts, Body.code, foldl_flatMap, foldl_map]

lemma getD_foldl_modify (ls : List LocalId) {counts : Array Nat}
    (hl : l < counts.size) : (ls.foldl (fun counts l => counts.modify l (· + 1)) counts).getD l 0 =
      counts.getD l 0 + ls.count l := by
  induction ls generalizing counts with
  | nil => rfl
  | cons k ls ih =>
    rw [foldl_cons, ih (by rwa [Array.size_modify])]
    by_cases hk : k = l
    · subst hk
      simp [Array.getD, hl, Array.getElem_modify]
      omega
    · simp [Array.getD, hl, Array.getElem_modify, hk]

lemma not_mem_uses_of_useCounts (hl : l < b.locals.size)
    (hcount : b.useCounts.getD l 0 = 0) (ha : a ∈ b.code) : l ∉ a.uses := by
  rw [useCounts_eq, getD_foldl_modify _ (by simpa using hl)] at hcount
  have hzero : (b.code.flatMap Action.uses).count l = 0 := by omega
  intro hmem
  exact count_eq_zero.1 hzero (mem_flatMap.2 ⟨a, ha, hmem⟩)

lemma evaluate_of_isCopy (hm : m.Conforms p) {v : Rvalue} (hv : isCopy v)
    (hr : v.evaluate m env = some r) : ∃ u, r = .value u := by
  cases v with
  | use o =>
    obtain ⟨x, -, rfl⟩ := map_eq_some_iff.1 hr
    exact ⟨x, rfl⟩
  | cast t o =>
    obtain ⟨x, -, rfl⟩ := map_eq_some_iff.1 hr
    obtain ⟨u, hu⟩ := isSome_iff_exists.1 (hm.cast t x)
    exact ⟨u, by rw [hu]; rfl⟩
  | instanceOf c o =>
    obtain ⟨x, -, rfl⟩ := map_eq_some_iff.1 hr
    exact ⟨_, rfl⟩
  | _ => cases hv

def AgreeOnReads (m : Interpretation ρ W) (b : Body) (env env' : Env ρ) : Prop :=
  (∀ a ∈ b.code, ∀ l ∈ a.uses, env' l = env l) ∧ b.Typed m env'

lemma AgreeOnReads.refl (h : b.Typed m env) : AgreeOnReads m b env env := ⟨fun _ _ _ _ => rfl, h⟩

lemma AgreeOnReads.set {env env' : Env ρ} (h : AgreeOnReads m b env env')
    (htyped : b.Typed m (env.set l v)) :
    AgreeOnReads m b (env.set l v) (env'.set l v) := by
  refine ⟨fun a ha k hk => ?_, fun k u hu => ?_⟩
  · by_cases hkl : k = l
    · rw [hkl, set_self, set_self]
    · rw [set_of_ne _ hkl, set_of_ne _ hkl]
      exact h.1 a ha k hk
  · by_cases hkl : k = l
    · subst hkl
      rw [set_self] at hu
      exact htyped k u (by rwa [set_self])
    · rw [set_of_ne _ hkl] at hu
      exact h.2 k u hu

def isDeadCopy (b : Body) : Action → Bool
  | .assign (.loc l) v => isCopy v && b.useCounts.getD l 0 == 0
  | _ => false

lemma isDeadCopy_iff : isDeadCopy b a ↔
    ∃ l v, a = .assign (.loc l) v ∧ isCopy v ∧ b.useCounts.getD l 0 = 0 := by
  generalize hcounts : b.useCounts = counts
  constructor
  · intro h
    unfold isDeadCopy at h
    rw [hcounts] at h
    split at h
    · rename_i l v
      obtain ⟨hcopy, hcount⟩ := Bool.and_eq_true_iff.1 h
      exact ⟨l, v, rfl, hcopy, beq_iff_eq.1 hcount⟩
    · cases h
  · rintro ⟨l, v, rfl, hcopy, hcount⟩
    rw [isDeadCopy, hcounts, hcopy, hcount]
    rfl

lemma removeDeadCopies_eq (b : Body) :
    removeDeadCopies b = drop (fun s => isDeadCopy b s.action) b := rfl

lemma removeDeadCopies_rewrites (hb : b.WellFormed) :
    Rewrites b (removeDeadCopies b).2 (.ofFilter fun a => !isDeadCopy b a) := by
  rw [removeDeadCopies_eq]
  exact drop_rewrites (fun _ _ _ _ => rfl) hb

lemma removeDeadCopies_sound (hm : m.Conforms p) : Sound m values w b (removeDeadCopies b).2 := by
  intro hb
  refine Simulates.sound (g := .ofFilter fun a => !isDeadCopy b a) (E := AgreeOnReads m b) ?_ hb
  exact { removeDeadCopies_rewrites hb.wellFormed with
    start := .refl (hb.typed [] (b.start values w) (.refl _))
    typed := fun env env' h _ => h.2
    kept := fun {es s a rest a' env' i} hs hrest henv hi ha => by
      obtain ⟨-, rfl⟩ := eq_of_ofFilter ha
      have hmem : a' ∈ b.code := (rest_suffix hs).subset (hrest ▸ mem_cons_self)
      exact ⟨i, evaluate_congr (henv.1 a' hmem) hi, .alike i fun l v => henv.set⟩
    dropped := fun {es s a rest env' i} hs hrest henv hi ha => by
      have hdead : isDeadCopy b a := by
        by_contra hdead
        simp [ofFilter, hdead] at ha
      obtain ⟨l, v, rfl, hcopy, hcount⟩ := isDeadCopy_iff.1 hdead
      obtain ⟨r, hr, rfl⟩ := map_eq_some_iff.1 hi
      obtain ⟨u, rfl⟩ := evaluate_of_isCopy hm hcopy hr
      have hmem := (rest_suffix hs).subset (hrest ▸ mem_cons_self)
      have hl : l < b.locals.size := hb.wellFormed.locals _ hmem l (by simp [mentions, target?])
      refine ⟨_, vanishes_set hrest hi ⟨fun c hc k hk => ?_, henv.2⟩⟩
      have hkl : k ≠ l := by
        rintro rfl
        exact not_mem_uses_of_useCounts hl hcount hc hk
      rw [set_of_ne _ hkl]
      exact henv.1 c hc k hk }

lemma startsWithLabel_iff : startsWithLabel l ss ↔ ∃ ls ks : List Label, ∃ rest,
        ss.map Stmt.action = ls.map .label ++ .label l :: (ks.map .label ++ rest) := by
  induction ss with
  | nil => simp [startsWithLabel]
  | cons s ss ih =>
    rw [startsWithLabel]
    constructor
    · intro h
      split at h
      · rename_i k hk
        obtain hs : s.action = .label k := by cases hs : s.action <;> simp_all [label?]
        rcases Bool.or_eq_true_iff.1 h with h | h
        · obtain rfl := beq_iff_eq.1 h
          exact ⟨[], [], ss.map Stmt.action, by simp [hs]⟩
        · obtain ⟨ls, ks, rest, hss⟩ := ih.1 h
          exact ⟨k :: ls, ks, rest, by simp [hs, hss]⟩
      · cases h
    · rintro ⟨ls, ks, rest, h⟩
      cases ls with
      | nil =>
        rw [map_cons, map_nil, nil_append] at h
        simp [(List.cons.inj h).1, label?]
      | cons k ls =>
        rw [map_cons, map_cons, cons_append] at h
        obtain ⟨hs, hss⟩ := List.cons.inj h
        simp [hs, label?, ih.2 ⟨ls, ks, rest, hss⟩]

def dropJump : Rewrite := fun a rest =>
  match a with
  | .goto l => if startsWithLabel l (rest.map (Stmt.mk 0)) then none else some a
  | _ => some a

lemma startsWithLabel_map_action (l : Label) (ss : List Stmt) :
    startsWithLabel l ((ss.map Stmt.action).map (Stmt.mk 0)) = startsWithLabel l ss := by
  rw [Bool.eq_iff_iff, startsWithLabel_iff, startsWithLabel_iff, List.map_map (g := Stmt.action)]
  simp [Function.comp_def]

lemma dropJumps_eq (ss : List Stmt) : dropJumps ss = dropJump.stmts ss := by
  induction ss with
  | nil => rfl
  | cons s ss ih =>
    obtain ⟨id, a⟩ := s
    rw [dropJumps, Rewrite.stmts, ih]
    cases a with
    | goto l =>
      simp only [dropJump, startsWithLabel_map_action]
      split <;> rfl
    | _ => rfl

lemma dropJump_eq_some (h : dropJump a rest = some a') : a' = a := by
  unfold dropJump at h
  split at h
  · split at h <;> cases h
    rfl
  · cases h
    rfl

lemma dropJump_eq_none (h : dropJump a rest = none) :
    ∃ l, ∃ ls ks : List Label, ∃ rest', a = .goto l ∧
      rest = ls.map .label ++ .label l :: (ks.map .label ++ rest') := by
  unfold dropJump at h
  split at h
  · split at h
    · rename_i l hl
      obtain ⟨ls, ks, rest', hrest⟩ := startsWithLabel_iff.1 hl
      refine ⟨l, ls, ks, rest', rfl, ?_⟩
      rwa [List.map_map, show Stmt.action ∘ Stmt.mk 0 = id from rfl, List.map_id] at hrest
    · cases h
  · cases h

lemma dropJump_actions_labels (ls : List Label) (rest : List Action) :
    dropJump.actions (ls.map .label ++ rest) = ls.map .label ++ dropJump.actions rest := by
  induction ls with
  | nil => rfl
  | cons l ls ih =>
    rw [map_cons, cons_append, actions, ih]
    rfl

lemma not_mem_of_labels_nodup
    (h : ((pre ++ .label l :: post).filterMap label?).Nodup) : Action.label l ∉ pre := by
  intro hmem
  rw [filterMap_append, nodup_append] at h
  refine h.2.2 l (mem_filterMap.2 ⟨_, hmem, rfl⟩) l ?_ rfl
  exact mem_filterMap.2 ⟨_, (.head _), rfl⟩

lemma removeJumps_eq (b : Body) :
    (removeJumps b).2 = { b with stmts := dropJump.stmts b.stmts } := by
  rw [removeJumps, keep, dropJumps_eq]

lemma removeJumps_rewrites (hb : b.WellFormed) : Rewrites b (removeJumps b).2 dropJump :=
  .select hb (removeJumps_eq b) dropJump_eq_some fun _ _ _ _ _ => rfl

lemma removeJumps_sound : Sound m values w b (removeJumps b).2 := by
  intro hb
  refine (inPlace (removeJumps_eq b) (removeJumps_rewrites hb.wellFormed) ?_ ?_).sound hb
  · intro es s a rest a' i _ _ hi ha
    rw [dropJump_eq_some ha]
    exact hi
  · intro es s a rest i hs hrest hi ha
    obtain ⟨l, ls, ks, rest', rfl, rfl⟩ := dropJump_eq_none ha
    obtain ⟨pre, hpre⟩ := rest_suffix hs
    rw [hrest] at hpre
    -- The label is placed once, so the jump leads to just behind it.
    have hcode : b.code = (pre ++ .goto l :: ls.map .label) ++ .label l :: (ks.map .label ++ rest') := by
      rw [← hpre, append_assoc]
      rfl
    have hafter : afterLabel l b.code = some (ks.map .label ++ rest') := by
      have hlabels := hb.wellFormed.labels
      rw [hcode] at hlabels ⊢
      exact afterLabel_of_first (not_mem_of_labels_nodup hlabels)
    obtain ⟨_, env, world⟩ := s
    cases hrest
    refine ⟨⟨ks.map .label ++ rest', env, world⟩, ?_, rfl, rfl, ?_, ls ++ [l], ?_⟩
    · cases hi
      rw [Body.step, Config.step_cons (i := .goto l) rfl, Instruction.execute, hafter]
    · simp only [length_append, length_cons]
      omega
    · have := dropJump_actions_labels (ls ++ [l]) (ks.map .label ++ rest')
      simpa using this

section Reach
variable {successors : Nat → List Nat} {seen : Array Bool}

lemma getD_foldl_set (new : List Nat) (seen : Array Bool) (i : Nat) (d : Bool) :
    (new.foldl (fun seen j => seen.setIfInBounds j true) seen).getD i d =
      if i ∈ new ∧ i < seen.size then true else seen.getD i d := by
  induction new generalizing seen with
  | nil => simp
  | cons j new ih =>
    rw [foldl_cons, ih, Array.size_setIfInBounds]
    by_cases hi : i < seen.size
    · by_cases hj : j = i
      · subst hj
        simp [hi, Array.getD]
      · simp [hi, Array.getD, hj, Ne.symm hj]
    · simp [hi, Array.getD]

lemma count_foldl_set {new : List Nat} (hnodup : new.Nodup)
    (hnew : ∀ j ∈ new, seen.getD j true = false) :
    (new.foldl (fun seen j => seen.setIfInBounds j true) seen).count false + new.length =
      seen.count false := by
  induction new generalizing seen with
  | nil => rfl
  | cons j new ih =>
    obtain ⟨hj, hnodup⟩ := nodup_cons.1 hnodup
    have hunseen := hnew j (.head _)
    have hlt : j < seen.size := by
      by_contra hge
      simp [Array.getD, hge] at hunseen
    have hget : seen[j] = false := by simpa [Array.getD, hlt] using hunseen
    have hcount : (seen.setIfInBounds j true).count false + 1 = seen.count false := by
      have hpos : 0 < seen.count false := Array.count_pos_iff.2 (hget ▸ Array.getElem_mem hlt)
      rw [Array.setIfInBounds, dif_pos hlt, Array.count_set]
      simp [hget]
      omega
    have hrest : ∀ k ∈ new, (seen.setIfInBounds j true).getD k true = false := by
      intro k hk
      have hkj : k ∉ [j] := fun h => hj (mem_singleton.1 h ▸ hk)
      have hset := getD_foldl_set [j] seen k true
      rw [if_neg fun h => hkj h.1] at hset
      exact hset.trans (hnew k (.tail _ hk))
    rw [foldl_cons, length_cons, ← hcount, ← ih hnodup hrest, Nat.add_assoc]

lemma reach_of_seen (fuel : Nat) (work : List Nat)
    (h : seen.getD i false) : (reach successors fuel work seen).getD i false := by
  fun_induction reach successors fuel work seen with
  | case1 | case2 => exact h
  | case3 n j rest seen new ih =>
    refine ih ?_
    rw [getD_foldl_set]
    split
    · rfl
    · exact h

lemma reach_closed (hnodup : ∀ i, (successors i).Nodup) (fuel : Nat) (work : List Nat)
    (seen : Array Bool) (hfuel : work.length + seen.count false ≤ fuel)
    (hwork : ∀ i, seen.getD i false → i ∈ work ∨ ∀ j ∈ successors i, seen.getD j true) :
    ∀ i, (reach successors fuel work seen).getD i false →
      ∀ j ∈ successors i, (reach successors fuel work seen).getD j true := by
  fun_induction reach successors fuel work seen with
  | case1 work seen =>
    intro i hi
    have hnil : work = [] := length_eq_zero_iff.1 (by omega)
    exact (hwork i hi).resolve_left (by simp [hnil])
  | case2 =>
    intro i hi
    exact (hwork i hi).resolve_left (by simp)
  | case3 n i rest seen new ih =>
    have hnew : ∀ j ∈ new, seen.getD j true = false := by
      intro j hj
      simpa using (mem_filter.1 hj).2
    have hnodup' : new.Nodup := (hnodup i).filter _
    have hcount := count_foldl_set hnodup' hnew
    refine ih ?_ ?_
    · simp only [length_cons, length_append] at hfuel ⊢
      omega
    · have hmono (d : Bool) (j : Nat) (hj : seen.getD j d) :
          (new.foldl (fun seen j => seen.setIfInBounds j true) seen).getD j d := by
        rw [getD_foldl_set]
        split
        · rfl
        · exact hj
      intro k hk
      rw [getD_foldl_set] at hk
      split at hk
      · rename_i hnew
        exact .inl (mem_append_right _ hnew.1)
      · rcases hwork k hk with hmem | hclosed
        · rcases mem_cons.1 hmem with rfl | hmem
          · right
            intro j hj
            by_cases hseen : seen.getD j true
            · exact hmono true j hseen
            · have hjnew : j ∈ new := mem_filter.2 ⟨hj, by simpa using hseen⟩
              have hlt : j < seen.size := by
                by_contra hge
                simp [Array.getD, hge] at hseen
              rw [getD_foldl_set, if_pos ⟨hjnew, hlt⟩]
          · exact .inl (mem_append_left _ hmem)
        · exact .inr fun j hj => hmono true j (hclosed j hj)

lemma size_foldl_set (new : List Nat) (seen : Array Bool) :
    (new.foldl (fun seen j => seen.setIfInBounds j true) seen).size = seen.size := by
  induction new generalizing seen with
  | nil => rfl
  | cons j new ih => rw [foldl_cons, ih, Array.size_setIfInBounds]

lemma size_reach (fuel : Nat) (work : List Nat) (seen : Array Bool) :
    (reach successors fuel work seen).size = seen.size := by
  fun_induction reach successors fuel work seen with
  | case1 | case2 => rfl
  | case3 n j rest seen new ih => rw [ih, size_foldl_set]
end Reach

/-! ### Positions -/
lemma labelPosition?_of_first {pre : List Action}
    (hcode : b.code = pre ++ .label l :: rest) (hpre : Action.label l ∉ pre) :
    b.labelPosition? l = some pre.length := by
  have hmap : b.labelPosition? l = b.code.findIdx? (· == .label l) := by
    rw [Body.code, findIdx?_map]
    rfl
  have hnone : pre.findIdx? (· == Action.label l) = none := by
    rw [findIdx?_eq_none_iff]
    intro a ha
    exact beq_eq_false_iff_ne.2 fun h => hpre (h ▸ ha)
  rw [hmap, hcode, findIdx?_append, hnone, findIdx?_cons]
  simp

lemma lt_of_labelPosition? (h : b.labelPosition? l = some j) :
    j < b.stmts.length := (findIdx?_eq_some_iff_getElem.1 h).1

lemma mem_successors_iff {s : Stmt} (hs : b.stmts[i]? = some s) :
    j ∈ b.successors i ↔ (s.action.fallsThrough ∧ i + 1 < b.stmts.length ∧ j = i + 1) ∨
      ∃ l, s.action.jump? = some l ∧ b.labelPosition? l = some j := by
  rw [← bind_eq_some_iff, successors, hs]
  dsimp only
  generalize hnext : (if s.action.fallsThrough && i + 1 < b.stmts.length then [i + 1] else []) = next
  have hmem : j ∈ next ↔ s.action.fallsThrough ∧ i + 1 < b.stmts.length ∧ j = i + 1 := by
    subst hnext
    by_cases hlt : i + 1 < b.stmts.length <;> cases s.action.fallsThrough <;> simp [hlt]
  rw [← hmem]
  cases s.action.jump?.bind b.labelPosition? with
  | none => simp
  | some k =>
    dsimp only
    split
    · rename_i hk
      have hk : k ∈ next := contains_iff_mem.1 hk
      exact ⟨.inl, fun h => h.elim id fun h => some.inj h ▸ hk⟩
    · rw [mem_append, mem_singleton, some_inj, eq_comm (a := j)]

lemma lt_of_mem_successors (h : j ∈ b.successors i) : j < b.stmts.length := by
  cases hs : b.stmts[i]? with
  | none => simp [successors, hs] at h
  | some s =>
    rcases (mem_successors_iff hs).1 h with ⟨-, hlt, rfl⟩ | ⟨l, -, hl⟩
    · exact hlt
    · exact lt_of_labelPosition? hl

lemma successors_nodup (b : Body) (i : Nat) : (b.successors i).Nodup := by
  unfold successors
  split
  · exact nodup_nil
  · rename_i s _
    dsimp only
    generalize hnext : (if s.action.fallsThrough && i + 1 < b.stmts.length then [i + 1] else []) = next
    have hnodup : next.Nodup := by
      rw [← hnext]
      split <;> simp
    split
    · split
      · exact hnodup
      · rename_i j _ hj
        have hj : j ∉ next := fun h => hj (contains_iff_mem.2 h)
        simp only [nodup_append, hnodup, nodup_cons, not_mem_nil, not_false_iff,
          nodup_nil, and_self, true_and, mem_singleton]
        rintro k hk _ rfl rfl
        exact hj hk
    · exact hnodup

def InReach (b : Body) (rest : List Action) : Prop :=
  rest ≠ [] → (reachable b).getD (b.code.length - rest.length) false

lemma length_code (b : Body) : b.code.length = b.stmts.length := length_map _

lemma reachable_zero (h : 0 < b.stmts.length) : (reachable b).getD 0 false := by
  refine reach_of_seen _ _ ?_
  simp [Array.getD, h]

lemma reachable_successor (hi : (reachable b).getD i false)
    (hj : j ∈ b.successors i) : (reachable b).getD j false := by
  have hlt := lt_of_mem_successors hj
  have hsize : (reachable b).size = b.stmts.length := by
    rw [reachable, size_reach, Array.size_setIfInBounds, Array.size_replicate]
  have hclosed : (reachable b).getD j true := by
    refine reach_closed (successors_nodup b) _ _ _ ?_ ?_ i hi j hj
    · have hunseen : ∀ k ∈ [0], (Array.replicate b.stmts.length false).getD k true = false := by
        simp [Array.getD]
        omega
      have hcount := count_foldl_set (pairwise_singleton _ 0) hunseen
      simp only [foldl_cons, foldl_nil, length_singleton, Array.count_replicate_self] at hcount
      simp only [length_singleton]
      omega
    · intro k hk
      left
      by_contra hne
      have hset := getD_foldl_set [0] (.replicate b.stmts.length false) k false
      rw [if_neg fun h => hne h.1] at hset
      rw [foldl_cons, foldl_nil, hk] at hset
      simp [Array.getD] at hset
  simp only [Array.getD, hsize, hlt, dite_true] at hclosed ⊢
  exact hclosed

section Positions
variable {a : Action}

lemma action_of_suffix (h : a :: rest <:+ b.code) :
    ∃ s, b.stmts[b.code.length - (a :: rest).length]? = some s ∧ s.action = a := by
  obtain ⟨pre, hpre⟩ := h
  have hget : b.code[b.code.length - (a :: rest).length]? = some a := by
    rw [← hpre]
    simp
  rw [Body.code, getElem?_map] at hget
  exact map_eq_some_iff.1 hget

lemma InReach.next (h : InReach b (a :: rest)) (hsuffix : a :: rest <:+ b.code)
    (hfalls : a.fallsThrough) : InReach b rest := by
  intro hne
  obtain ⟨s, hs, rfl⟩ := action_of_suffix hsuffix
  have hlength := hsuffix.length_le
  have hpos : 0 < rest.length := length_pos_iff.2 hne
  rw [length_cons] at hs hlength
  refine reachable_successor (h (cons_ne_nil _ _)) ((mem_successors_iff hs).2 (.inl ?_))
  rw [length_code] at hlength ⊢
  exact ⟨hfalls, by omega, by omega⟩

lemma InReach.target {rest' : List Action} (h : InReach b (a :: rest))
    (hsuffix : a :: rest <:+ b.code) (hjump : a.jump? = some l)
    (hlabel : b.labelPosition? l = some (b.code.length - (rest'.length + 1))) :
    InReach b (.label l :: rest') := by
  intro _
  obtain ⟨s, hs, rfl⟩ := action_of_suffix hsuffix
  exact reachable_successor (h (cons_ne_nil _ _)) ((mem_successors_iff hs).2 (.inr ⟨l, hjump, hlabel⟩))
end Positions

lemma inReach_of_reaches {s : Config ρ W}
    (hs : Reaches (b.step m) (b.start values w) es s) : InReach b s.rest := by
  refine hs.invariant (P := fun s => InReach b s.rest) ?_ ?_
  · intro hne
    have hpos : 0 < b.code.length := length_pos_iff.2 hne
    have hzero := reachable_zero (length_code b ▸ hpos)
    rwa [Body.start, Nat.sub_self]
  · intro fs gs u v hu hreach huv
    have hsuffix := rest_suffix hu
    cases Config.moves huv with (rw [hrest] at hreach hsuffix)
    | assigned hrest hv _ _ =>
      rw [hv]
      exact hreach.next hsuffix rfl
    | jumped hrest hjump hl _ =>
      obtain ⟨pre, hcode, hpre⟩ := eq_append_of_afterLabel hl
      have hposition := labelPosition?_of_first hcode hpre
      rw [show pre.length = b.code.length - (v.rest.length + 1) by simp [hcode]] at hposition
      have htarget := hreach.target hsuffix hjump hposition
      exact htarget.next (hcode ▸ suffix_append _ _) rfl
    | passed hrest _ hfalls hv _ =>
      rw [hv]
      exact hreach.next hsuffix hfalls

def keepSeen (seen : Array Bool) (n : Nat) : Rewrite :=
  fun a rest => if seen.getD (n - (rest.length + 1)) false then some a else none

lemma keepSeen_eq_some {seen : Array Bool} (h : keepSeen seen n a rest = some a') :
    seen.getD (n - (rest.length + 1)) false ∧ a' = a := by
  unfold keepSeen at h
  split at h
  · cases h
    exact ⟨‹_›, rfl⟩
  · cases h

lemma filter_zipIdx_eq (seen : Array Bool) (h : k + ss.length = n) :
    (((ss.zipIdx k).filter fun (_, i) => seen.getD i false).map (·.1)) =
      (keepSeen seen n).stmts ss := by
  induction ss generalizing k with
  | nil => rfl
  | cons s ss ih =>
    rw [length_cons] at h
    have hk : n - ((ss.map Stmt.action).length + 1) = k := by
      rw [length_map]
      omega
    rw [zipIdx_cons, Rewrite.stmts, ← ih (k := k + 1) (by omega), keepSeen, hk, filter_cons]
    cases hseen : seen.getD k false
    · rw [if_neg (by simp [hseen])]
      rfl
    · rw [if_pos hseen]
      rfl

lemma removeUnreachable_eq (b : Body) : (removeUnreachable b).2 =
    { b with stmts := (keepSeen (reachable b) b.code.length).stmts b.stmts } := by
  rw [removeUnreachable, keep, length_code, filter_zipIdx_eq _ (Nat.zero_add _)]

lemma removeUnreachable_rewrites (hb : b.WellFormed) :
    Rewrites b (removeUnreachable b).2 (keepSeen (reachable b) b.code.length) := by
  refine .select hb (removeUnreachable_eq b) (fun ha => (keepSeen_eq_some ha).2) ?_
  intro a rest l hsuffix ha hl rest' hsuffix'
  have hreach : InReach b (a :: rest) := fun _ => (keepSeen_eq_some ha).1
  obtain ⟨pre, hcode⟩ := hsuffix'
  have hpre : Action.label l ∉ pre := not_mem_of_labels_nodup (hcode ▸ hb.labels)
  have hposition := labelPosition?_of_first hcode.symm hpre
  rw [show pre.length = b.code.length - (rest'.length + 1) by simp [← hcode]] at hposition
  exact if_pos (hreach.target hsuffix hl hposition (cons_ne_nil _ _))

lemma removeUnreachable_sound : Sound m values w b (removeUnreachable b).2 := by
  intro hb
  refine (inPlace (removeUnreachable_eq b)
    (removeUnreachable_rewrites hb.wellFormed) ?_ ?_).sound hb
  · intro es s a rest a' i _ _ hi ha
    rw [(keepSeen_eq_some ha).2]
    exact hi
  · -- Control never stands at a statement that is dropped.
    intro es s a rest i hs hrest _ ha
    have hreach := inReach_of_reaches hs
    rw [hrest] at hreach
    have hseen := hreach (cons_ne_nil _ _)
    rw [keepSeen, ← length_cons, if_pos hseen] at ha
    cases ha
end DataflowSpecializer.Simplify
