import DataflowSpecializer.Proofs.Simplify.Propagation

/-! # Renumbering of locals

Locals that nothing mentions are dropped, and each of the others gets the number of those before it
that are kept (`lookup_eq_count`).
-/
namespace DataflowSpecializer.Simplify
open List Option DataflowSpecializer.Action Body Rewrite Env
variable {ρ W : Type} {m : Interpretation ρ W} {values : List (Datum ρ)} {w : W} {b : Body}
  {kept : List Bool} {l : LocalId} {b' : Body}

def Mentioned (b : Body) (l : LocalId) : Prop := l ∈ b.entry ∨ ∃ a ∈ b.code, l ∈ a.mentions

lemma modify_eq_setIfInBounds (used : Array Bool) (l : LocalId) :
    (used.modify l fun _ => true) = used.setIfInBounds l true := by
  apply Array.ext
  · simp
  · intro i hi _
    rw [Array.size_modify] at hi
    rw [Array.getElem_modify, Array.getElem_setIfInBounds hi]

lemma mentioned_eq (b : Body) : b.mentioned = (b.entry ++ b.code.flatMap mentions).foldl
      (fun used l => used.setIfInBounds l true) (.replicate b.locals.size false) := by
  simp only [mentioned, Body.code, Body.entry, foldl_append, foldl_flatMap,
    foldl_map, mentions, modify_eq_setIfInBounds]

lemma size_mentioned (b : Body) : b.mentioned.size = b.locals.size := by
  rw [mentioned_eq, size_foldl_set, Array.size_replicate]

lemma getD_mentioned (hb : b.WellFormed) (h : Mentioned b l) :
    l < b.locals.size ∧ b.mentioned.getD l false := by
  have hlt : l < b.locals.size := by
    rcases h with h | ⟨a, ha, hl⟩
    · exact hb.entry l h
    · exact hb.locals a ha l hl
  refine ⟨hlt, ?_⟩
  rw [mentioned_eq, getD_foldl_set, if_pos]
  refine ⟨mem_append.2 ?_, by rwa [Array.size_replicate]⟩
  exact h.imp_right fun ⟨a, ha, hl⟩ => mem_flatMap.2 ⟨a, ha, hl⟩

def rank (kept : List Bool) (l : Nat) : Nat := (kept.take l).count true

lemma rank_cons_succ (k : Bool) (kept : List Bool) (l : Nat) :
    rank (k :: kept) (l + 1) = (if k then 1 else 0) + rank kept l := by
  cases k <;> simp [rank, Nat.add_comm]

lemma rank_lt (hi : kept[i]? = some true) (hij : i < j) : rank kept i < rank kept j := by
  induction kept generalizing i j with
  | nil => cases hi
  | cons k kept ih =>
    obtain ⟨j, rfl⟩ : ∃ j', j = j' + 1 := ⟨j - 1, by omega⟩
    cases i with
    | zero =>
      cases hi
      rw [rank_cons_succ, if_pos rfl, rank, take_zero, count_nil]
      omega
    | succ i =>
      rw [rank_cons_succ, rank_cons_succ]
      have := ih hi (Nat.lt_of_succ_lt_succ hij)
      omega

lemma rank_inj (hi : kept[i]? = some true)
    (hj : kept[j]? = some true) (h : rank kept i = rank kept j) : i = j := by
  rcases Nat.lt_trichotomy i j with hij | hij | hij
  · have := rank_lt hi hij
    omega
  · exact hij
  · have := rank_lt hj hij
    omega

lemma getElem?_rank {α : Type} {xs : List α} (hlength : xs.length = kept.length)
    (hi : kept[i]? = some true) :
    (((xs.zip kept).filter (·.2)).map (·.1))[rank kept i]? = xs[i]? := by
  induction xs generalizing kept i with
  | nil =>
    obtain rfl := length_eq_zero_iff.1 hlength.symm
    cases hi
  | cons x xs ih =>
    cases kept with
    | nil => cases hi
    | cons k kept =>
      have hlength := Nat.succ.inj hlength
      cases i with
      | zero =>
        cases hi
        rfl
      | succ i =>
        have hi : kept[i]? = some true := hi
        rw [rank_cons_succ, getElem?_cons_succ, ← ih hlength hi]
        cases k
        · simp
        · rw [if_pos rfl, Nat.add_comm]
          rfl

lemma foldl_renumbering (kept : List Bool) (table : Array LocalId) (n : Nat) :
    (kept.foldl (fun (table, n) keep => (table.push n, if keep then n + 1 else n))
      ((table, n) : Array LocalId × Nat)).1.toList =
        table.toList ++ (range kept.length).map fun l => n + rank kept l := by
  induction kept generalizing table n with
  | nil => simp
  | cons k kept ih =>
    rw [foldl_cons, ih, Array.toList_push, append_assoc, length_cons,
      range_succ_eq_map, map_cons, List.map_map]
    refine congrArg (table.toList ++ n :: ·) (map_congr_left fun l _ => ?_)
    rw [Function.comp, Nat.succ_eq_add_one, rank_cons_succ]
    split <;> omega

lemma toList_renumbering (kept : Array Bool) :
    (renumbering kept).toList = (range kept.size).map fun l => rank kept.toList l := by
  rw [renumbering, ← Array.foldl_toList, foldl_renumbering]
  simp

lemma size_renumbering (kept : Array Bool) : (renumbering kept).size = kept.size := by
  rw [← Array.length_toList, toList_renumbering, length_map, length_range]

lemma getD_renumbering (kept : Array Bool) (hl : l < kept.size) :
    (renumbering kept).getD l l = rank kept.toList l := by
  rw [Array.getD_eq_getD_getElem?, ← Array.getElem?_toList, toList_renumbering, getElem?_map,
    getElem?_range hl]
  rfl

/-! ## The renumbered body -/
def newNumber (b : Body) (l : LocalId) : LocalId := (renumbering b.mentioned).getD l l

lemma compactLocals?_eq_some (h : b.compactLocals? = some b') : b' = { b with
      locals := ((b.locals.zip b.mentioned).filter (·.2)).map (·.1)
      stmts := (ofMap (renameLocals (newNumber b))).stmts b.stmts
      receiver := b.receiver.map (newNumber b)
      params := b.params.map (newNumber b) } := by
  rw [compactLocals?] at h
  split at h
  · cases h
  · cases h
    rw [stmts_ofMap]
    rfl

section NewNumber
variable {l k : LocalId}

variable (hb : b.WellFormed)

include hb

lemma kept_of_mentioned (h : Mentioned b l) : b.mentioned.toList[l]? = some true := by
  obtain ⟨hlt, hget⟩ := getD_mentioned hb h
  rw [Array.getElem?_toList]
  rw [← size_mentioned] at hlt
  simpa [Array.getD, hlt] using hget

lemma newNumber_eq_rank (h : Mentioned b l) : newNumber b l = rank b.mentioned.toList l := by
  refine getD_renumbering _ ?_
  rw [size_mentioned]
  exact (getD_mentioned hb h).1

lemma newNumber_inj (hl : Mentioned b l) (hk : Mentioned b k)
    (h : newNumber b l = newNumber b k) : l = k := by
  rw [newNumber_eq_rank hb hl, newNumber_eq_rank hb hk] at h
  exact rank_inj (kept_of_mentioned hb hl) (kept_of_mentioned hb hk) h

lemma getElem?_newNumber (h : Mentioned b l) :
    (((b.locals.zip b.mentioned).filter (·.2)).map (·.1))[newNumber b l]? = b.locals[l]? := by
  have hlength : b.locals.toList.length = b.mentioned.toList.length := (size_mentioned b).symm
  rw [newNumber_eq_rank hb h, ← Array.getElem?_toList, ← Array.getElem?_toList,
    ← getElem?_rank hlength (kept_of_mentioned hb h)]
  simp
end NewNumber

def Renumbered (b : Body) (env env' : Env ρ) : Prop :=
  (∀ l, Mentioned b l → env' (newNumber b l) = env l) ∧
    ∀ k v, env' k = some v → ∃ l, Mentioned b l ∧ newNumber b l = k ∧ env l = some v

lemma Renumbered.set (hb : b.WellFormed) {env env' : Env ρ} (h : Renumbered b env env')
    (hl : Mentioned b l) (v : Datum ρ) :
    Renumbered b (env.set l v) (env'.set (newNumber b l) v) := by
  refine ⟨fun k hk => ?_, fun k u hu => ?_⟩
  · by_cases hkl : k = l
    · rw [hkl, set_self, set_self]
    · rw [set_of_ne _ hkl, set_of_ne _ fun h => hkl (newNumber_inj hb hk hl h)]
      exact h.1 k hk
  · by_cases hkl : k = newNumber b l
    · subst hkl
      rw [set_self] at hu
      exact ⟨l, hl, rfl, by rwa [set_self]⟩
    · rw [set_of_ne _ hkl] at hu
      obtain ⟨x, hx, rfl, hxu⟩ := h.2 k u hu
      refine ⟨x, hx, rfl, ?_⟩
      rwa [set_of_ne]
      rintro rfl
      exact hkl rfl

lemma lookup_zip_map {f : LocalId → LocalId} {x : LocalId} (ks : List LocalId)
    (vs : List (Datum ρ)) (h : ∀ k ∈ ks, f k = f x → k = x) :
    ((ks.map f).zip vs).lookup (f x) = (ks.zip vs).lookup x := by
  induction ks generalizing vs with
  | nil => rfl
  | cons k ks ih =>
    cases vs with
    | nil => rfl
    | cons v vs =>
      rw [map_cons, zip_cons_cons, zip_cons_cons, List.lookup_cons, List.lookup_cons,
        ih vs fun k hk => h k (.tail _ hk)]
      have hk := h k (.head _)
      by_cases hx : k = x
      · subst hx
        simp
      · have hne : f x ≠ f k := fun hf => hx (hk hf.symm)
        rw [beq_false_of_ne hne, beq_false_of_ne (Ne.symm hx)]

lemma Renumbered.entry (hb : b.WellFormed) (values : List (Datum ρ)) :
    Renumbered b (b.entryEnv values) fun l =>
      ((b.entry.map (newNumber b)).zip values).lookup l := by
  have hlookup {l : LocalId} (hl : Mentioned b l) :
      ((b.entry.map (newNumber b)).zip values).lookup (newNumber b l) = b.entryEnv values l :=
    lookup_zip_map b.entry values fun k hk h => newNumber_inj hb (.inl hk) hl h
  refine ⟨fun l hl => hlookup hl, fun k v hkv => ?_⟩
  have hmem : k ∈ b.entry.map (newNumber b) := by
    by_contra hk
    dsimp only at hkv
    rw [lookup_eq_none_iff.2] at hkv
    · cases hkv
    · rintro ⟨x, u⟩ hx
      simp only [bne_iff_ne, ne_eq]
      rintro rfl
      exact hk (of_mem_zip hx).1
  obtain ⟨l, hl, rfl⟩ := List.mem_map.1 hmem
  exact ⟨l, .inl hl, rfl, (hlookup (.inl hl)).symm.trans hkv⟩

lemma newNumber_lt (hb : b.WellFormed) (hl : Mentioned b l) :
    newNumber b l < (((b.locals.zip b.mentioned).filter (·.2)).map (·.1)).size := by
  have hget := getElem?_newNumber hb hl
  rw [Array.getElem?_eq_getElem (getD_mentioned hb hl).1] at hget
  exact (Array.getElem?_eq_some_iff.1 hget).1

lemma map_entry (b : Body) : b.receiver.toList.map (newNumber b) ++ b.params.map (newNumber b) =
      b.entry.map (newNumber b) := (map_append).symm

lemma compactLocals?_rewrites (hb : b.WellFormed) (h : b.compactLocals? = some b') :
    Rewrites b b' (.ofMap (renameLocals (newNumber b))) := by
  obtain rfl := compactLocals?_eq_some h
  have hexchange := renameLocals_eq_exchange (newNumber b)
  exact {
    stmts := rfl
    nextStmt := rfl
    nextLabel := rfl
    keepsLabels := keepsLabels_exchange hexchange b.code
    locals := fun a rest a' hsuffix ha k hk => by
      obtain rfl : a.renameLocals (newNumber b) = a' := some.inj ha
      rw [hexchange] at hk
      obtain ⟨x, hx, rfl⟩ := mem_mentions_newNames hk
      exact newNumber_lt hb (.inr ⟨a, hsuffix.subset (.head _), hx⟩)
    entry := fun l hl => by
      rw [Body.entry, toList_map, map_entry] at hl
      obtain ⟨x, hx, rfl⟩ := List.mem_map.1 hl
      exact newNumber_lt hb (.inl hx)
    demands := fun a rest a' _ ha => by
      obtain rfl : a.renameLocals (newNumber b) = a' := some.inj ha
      rw [hexchange, demands_exchange]
      exact List.Subset.refl _ }

lemma compactLocals?_sound (h : b.compactLocals? = some b') : Sound m values w b b' := by
  intro hb
  have hwf := hb.wellFormed
  have hrewrites := compactLocals?_rewrites hwf h
  obtain rfl := compactLocals?_eq_some h
  refine Simulates.sound (g := .ofMap (renameLocals (newNumber b))) (E := Renumbered b) ?_ hb
  exact { hrewrites with
    start := by
      have := Renumbered.entry hwf values
      rwa [← map_entry, ← toList_map] at this
    typed := fun env env' henv htyped k v hv => by
      obtain ⟨l, hl, rfl, hlv⟩ := henv.2 k v hv
      have htype : localType { b with
          locals := ((b.locals.zip b.mentioned).filter (·.2)).map (·.1)
          stmts := (ofMap (renameLocals (newNumber b))).stmts b.stmts
          receiver := b.receiver.map (newNumber b)
          params := b.params.map (newNumber b) } (newNumber b l) = b.localType l := by
        rw [localType, localType, Array.getD_eq_getD_getElem?, getElem?_newNumber hwf hl,
          Array.getD_eq_getD_getElem?]
      rw [htype]
      exact htyped l v hlv
    kept := fun {es s a rest a' env' i} hs hrest henv hi ha => by
      obtain rfl : a.renameLocals (newNumber b) = a' := some.inj ha
      have hmem : a ∈ b.code := (Regular.rest_suffix hs).subset (hrest ▸ mem_cons_self)
      rw [renameLocals_eq_exchange]
      refine ⟨_, evaluate_exchange (fun l hl v hv => ?_) hi, ?_⟩
      · have hread := henv.1 l (.inr ⟨a, hmem, mem_append_left _ hl⟩)
        exact ⟨hread.trans hv, hread.trans hv⟩
      · cases i with
        | set l r =>
          have hl := (declared_of_evaluate hi).2 _ _ rfl
          exact .set fun v _ =>
            henv.set hwf (.inr ⟨a, hmem, mem_append_right _ (mem_toList.2 hl)⟩) v
        | _ => exact .same fun _ _ h => by cases h
    dropped := fun _ _ _ _ ha => by cases ha }
end DataflowSpecializer.Simplify
