import Mathlib.Data.List.Perm.Subperm
import DataflowSpecializer.Proofs.Model.Equations
import DataflowSpecializer.Model.Constancy

/-! # The order of the variables -/
namespace DataflowSpecializer
open List SortedMap DataflowSpecializer.Expr
namespace Constancy
def named (deps : Dependencies) (v : ObjectId) : List ObjectId := (deps.get? v).getD []

def Ordered (deps : Dependencies) (vs : List ObjectId) : Prop :=
  ∀ v ∈ vs, ∀ d ∈ named deps v, d ∈ vs ∧ vs.idxOf d < vs.idxOf v

structure Closed (deps : Dependencies) : Prop where
  nodup : ∀ v, (named deps v).Nodup
  contains : ∀ v, ∀ d ∈ named deps v, deps.contains d

section Dependencies
variable {deps : Dependencies} {v w : ObjectId} {vs : List ObjectId}

lemma contains_of_mem_named (h : w ∈ named deps v) : deps.contains v := by
  unfold named at h
  cases hv : deps.get? v with
  | none =>
    rw [hv] at h
    cases h
  | some ds => rw [SortedMap.contains, hv, Option.isSome_some]

lemma entries_eq (deps : Dependencies) :
    deps.entries = deps.keys.map fun w => (w, named deps w) := by
  have h := deps.map_entries (fun w ds => (w, ds)) []
  rwa [map_id'] at h

lemma dependentsOf_eq (deps : Dependencies) (v : ObjectId) :
    dependentsOf deps v = deps.keys.filter fun w => (named deps w).contains v := by
  rw [dependentsOf, entries_eq, filterMap_map, ← filterMap_eq_filter]
  refine filterMap_congr fun w _ => ?_
  simp only [Function.comp_apply, Option.guard]

lemma mem_dependentsOf : w ∈ dependentsOf deps v ↔ v ∈ named deps w := by
  rw [dependentsOf_eq, mem_filter, contains_iff_mem, and_iff_right_iff_imp, mem_keys_iff]
  exact contains_of_mem_named

lemma nodup_dependentsOf : (dependentsOf deps v).Nodup := by
  rw [dependentsOf_eq]
  exact (nodup_keys deps).filter _

lemma Ordered.concat (h : Ordered deps vs) (hv : v ∉ vs) (hnamed : ∀ d ∈ named deps v, d ∈ vs) :
    Ordered deps (vs ++ [v]) := by
  intro u hu d hd
  obtain hu | hu := mem_append.1 hu
  · obtain ⟨hmem, hlt⟩ := h u hu d hd
    rw [idxOf_append_of_mem hmem, idxOf_append_of_mem hu]
    exact ⟨mem_append_left _ hmem, hlt⟩
  · obtain rfl := mem_singleton.1 hu
    have hmem := hnamed d hd
    rw [idxOf_append_of_mem hmem, idxOf_append_of_notMem hv]
    exact ⟨mem_append_left _ hmem, (idxOf_lt_length_of_mem hmem).trans_le (Nat.le_add_right _ _)⟩
end Dependencies

def missing (deps : Dependencies) (done : List ObjectId) (w : ObjectId) : Nat :=
  ((named deps w).filter fun d => !done.contains d).length

section Missing
variable {deps : Dependencies} {done : List ObjectId} {v w : ObjectId}

lemma missing_eq_zero_iff : missing deps done w = 0 ↔ ∀ d ∈ named deps w, d ∈ done := by
  rw [missing, length_eq_zero_iff, filter_eq_nil_iff]
  simp

lemma missing_concat (hdeps : Closed deps) (hv : v ∉ done) : missing deps (done ++ [v]) w =
      if v ∈ named deps w then missing deps done w - 1 else missing deps done w := by
  have hnodup := hdeps.nodup w
  unfold missing
  generalize named deps w = ds at hnodup ⊢
  have hfilter : ds.filter (fun d => !(done ++ [v]).contains d) =
      (ds.filter fun d => !done.contains d).erase v := by
    rw [(hnodup.filter _).erase_eq_filter, filter_filter]
    refine filter_congr fun d _ => ?_
    by_cases hd : d = v <;> simp [hd]
  rw [hfilter]
  split
  · rename_i hmem
    rw [length_erase_of_mem]
    simpa [mem_filter, hv] using hmem
  · rename_i hmem
    rw [erase_of_not_mem]
    exact fun h => hmem (mem_filter.1 h).1
end Missing

lemma foldl_release (ws : List ObjectId) (hws : ws.Nodup) (waiting : SortedMap ObjectId Nat)
    (freed : List ObjectId) :
    let r := ws.foldl (fun (waiting, freed) w =>
        let n := (waiting.get? w).getD 0 - 1
        (waiting.insert w n, if n = 0 then freed ++ [w] else freed))
      (waiting, freed)
    (∀ u, (r.1.get? u).getD 0 =
      if u ∈ ws then (waiting.get? u).getD 0 - 1 else (waiting.get? u).getD 0) ∧
    r.2 = freed ++ ws.filter fun w => (waiting.get? w).getD 0 - 1 = 0 := by
  induction ws generalizing waiting freed with
  | nil => simp
  | cons w ws ih =>
    obtain ⟨hw, hws⟩ := nodup_cons.1 hws
    obtain ⟨hwaiting, hfreed⟩ := ih hws (waiting.insert w ((waiting.get? w).getD 0 - 1))
      (if (waiting.get? w).getD 0 - 1 = 0 then freed ++ [w] else freed)
    refine ⟨fun u => ?_, ?_⟩
    · rw [foldl_cons, hwaiting]
      by_cases hu : u = w
      · simp [hu, hw]
      · simp [hu, get?_insert_of_ne _ hu]
    · rw [foldl_cons, hfreed]
      have hfilter : ws.filter (fun u => ((waiting.insert w ((waiting.get? w).getD 0 - 1)).get? u).getD 0
          - 1 = 0) = ws.filter fun u => (waiting.get? u).getD 0 - 1 = 0 := by
        refine filter_congr fun u hu => ?_
        rw [get?_insert_of_ne _ (ne_of_mem_of_not_mem hu hw)]
      rw [hfilter, filter_cons]
      split <;> simp_all

structure Progress (deps : Dependencies) (done : List ObjectId)
    (waiting : SortedMap ObjectId Nat) (ready : List ObjectId) : Prop where
  nodup : (done ++ ready).Nodup
  mem_iff : ∀ w, w ∈ done ++ ready ↔ deps.contains w ∧ ∀ d ∈ named deps w, d ∈ done
  waiting : ∀ w, deps.contains w → (waiting.get? w).getD 0 = missing deps done w
  ordered : Ordered deps done

section Listing
variable {deps : Dependencies} {done ready : List ObjectId}
  {waiting : SortedMap ObjectId Nat} {v : ObjectId} {rank : ObjectId → Nat}

lemma Progress.mem_freed (hdeps : Closed deps) (h : Progress deps done waiting (v :: ready))
    (w : ObjectId) : w ∈ (release deps waiting v).2 ↔
      v ∈ named deps w ∧ ∀ d ∈ named deps w, d ∈ done ++ [v] := by
  have hv : v ∉ done := fun hv => by
    have := nodup_append.1 h.nodup
    exact this.2.2 v hv v (.head _) rfl
  have hnodup : (dependentsOf deps v).Nodup := nodup_dependentsOf
  rw [release, (foldl_release _ hnodup waiting []).2, nil_append, mem_filter, mem_dependentsOf, decide_eq_true_eq,
    ← missing_eq_zero_iff, missing_concat hdeps hv]
  refine and_congr_right fun hw => ?_
  rw [if_pos hw, h.waiting w (contains_of_mem_named hw)]

lemma Progress.step (hdeps : Closed deps) (h : Progress deps done waiting (v :: ready)) :
    Progress deps (done ++ [v]) (release deps waiting v).1
      (ready ++ (release deps waiting v).2) := by
  have hsplit := nodup_append.1 h.nodup
  have hv : v ∉ done := fun hv => hsplit.2.2 v hv v (.head _) rfl
  have hnamed := ((h.mem_iff v).1 (mem_append_right _ (.head _))).2
  have hassoc : done ++ [v] ++ (ready ++ (release deps waiting v).2) =
      (done ++ v :: ready) ++ (release deps waiting v).2 := by simp
  refine ⟨?_, fun w => ?_, fun w hw => ?_, h.ordered.concat hv hnamed⟩
  · rw [hassoc]
    refine nodup_append.2 ⟨h.nodup, ?_, fun w hw u hu heq => ?_⟩
    · rw [release, (foldl_release _ nodup_dependentsOf waiting []).2, nil_append]
      exact nodup_dependentsOf.filter _
    · subst heq
      exact hv (((h.mem_iff w).1 hw).2 v ((h.mem_freed hdeps w).1 hu).1)
  · rw [hassoc, mem_append, h.mem_iff, h.mem_freed hdeps]
    constructor
    · rintro (⟨hw, hall⟩ | ⟨hvw, hall⟩)
      · exact ⟨hw, fun d hd => mem_append_left _ (hall d hd)⟩
      · exact ⟨contains_of_mem_named hvw, hall⟩
    · rintro ⟨hw, hall⟩
      by_cases hvw : v ∈ named deps w
      · exact .inr ⟨hvw, hall⟩
      · refine .inl ⟨hw, fun d hd => ?_⟩
        obtain hd' | hd' := mem_append.1 (hall d hd)
        · exact hd'
        · exact absurd (mem_singleton.1 hd' ▸ hd) hvw
  · rw [release, (foldl_release _ nodup_dependentsOf waiting []).1, missing_concat hdeps hv,
      h.waiting w hw]
    simp only [mem_dependentsOf]

lemma Progress.complete (hdeps : Closed deps) (h : Progress deps done waiting [])
    (hrank : ∀ v, ∀ d ∈ named deps v, rank d < rank v)
    (hw : deps.contains w) : w ∈ done := by
  induction hn : rank w using Nat.strongRecOn generalizing w with
  | ind n ih =>
    have hmem := (h.mem_iff w).2 ⟨hw, fun d hd =>
      ih (rank d) (hn ▸ hrank w d hd) (hdeps.contains w d hd) rfl⟩
    rwa [append_nil] at hmem

structure Complete (deps : Dependencies) (order : List ObjectId) : Prop where
  perm : order.Perm deps.keys
  ordered : Ordered deps order

lemma Progress.subset_keys (h : Progress deps done waiting ready) : done ⊆ deps.keys := by
  intro w hw
  exact mem_keys_iff.2 ((h.mem_iff w).1 (mem_append_left _ hw)).1

lemma complete_orderFrom (hdeps : Closed deps)
    (hrank : ∀ v, ∀ d ∈ named deps v, rank d < rank v) (n : Nat) {done : List ObjectId}
    {waiting : SortedMap ObjectId Nat} (h : Progress deps done waiting ready)
    (hn : n + done.length = deps.size) : Complete deps
    (done ++ orderFrom deps n waiting ready) := by
  have hnodup : done.Nodup := (nodup_append.1 h.nodup).1
  induction n generalizing done ready waiting with
  | zero =>
    -- as many are listed as there are
    rw [orderFrom, append_nil]
    refine ⟨?_, h.ordered⟩
    refine (hnodup.subperm h.subset_keys).perm_of_length_le ?_
    rw [SortedMap.keys, length_map, ← SortedMap.size]
    omega
  | succ n ih =>
    cases ready with
    | nil =>
      rw [orderFrom, append_nil]
      refine ⟨(perm_ext_iff_of_nodup hnodup (nodup_keys deps)).2 fun w => ?_, h.ordered⟩
      exact ⟨fun hw => h.subset_keys hw, fun hw => h.complete hdeps hrank (mem_keys_iff.1 hw)⟩
    | cons v ready =>
      have hstep := h.step hdeps
      have hlist := ih hstep (by rw [length_append, length_singleton]; omega)
        (nodup_append.1 hstep.nodup).1
      rw [append_assoc] at hlist
      exact hlist

lemma progress_start (deps : Dependencies) : Progress deps []
      (ofList (deps.entries.map fun (v, ds) => (v, ds.length)))
      (deps.entries.filterMap fun (v, ds) => if ds.isEmpty then some v else Option.none) := by
  have hwaiting : deps.entries.map (fun (v, ds) => (v, ds.length)) =
      deps.keys.map fun v => (v, (named deps v).length) :=
    deps.map_entries (fun v ds => (v, ds.length)) []
  have hready : deps.entries.filterMap (fun (v, ds) => if ds.isEmpty then some v else Option.none) =
      deps.keys.filter fun v => (named deps v).isEmpty := by
    rw [entries_eq, filterMap_map, ← filterMap_eq_filter]
    refine filterMap_congr fun w _ => ?_
    simp only [Function.comp_apply, Option.guard]
  rw [hwaiting, hready]
  refine ⟨(nodup_keys deps).filter _, fun w => ?_, fun w hw => ?_, nofun⟩
  · rw [nil_append, mem_filter, mem_keys_iff, List.isEmpty_iff,
      eq_nil_iff_forall_not_mem]
    simp
  · rw [get?_ofList_map, if_pos (mem_keys_iff.2 hw), Option.getD_some, missing]
    simp

lemma complete_orderOf (hdeps : Closed deps) (rank : ObjectId → Nat)
    (hrank : ∀ v, ∀ d ∈ named deps v, rank d < rank v) : Complete deps (orderOf deps) :=
  complete_orderFrom hdeps hrank deps.size (progress_start deps) rfl
end Listing

/-! ## The analysis of a model -/
section Model
variable {m : Model} {v w : ObjectId}

def namesOf (m : Model) (v : ObjectId) : List ObjectId :=
  match m.parse v with
  | .ok (some e) => (m.named v e).foldl Model.addNew []
  | _ => []

lemma foldl_addNew (us vs : List ObjectId) (h : vs.Nodup) :
    (us.foldl Model.addNew vs).Nodup ∧ ∀ w, w ∈ us.foldl Model.addNew vs ↔ w ∈ vs ∨ w ∈ us := by
  induction us generalizing vs with
  | nil => exact ⟨h, by simp⟩
  | cons u us ih =>
    rw [foldl_cons, Model.addNew]
    split
    · rename_i hu
      rw [contains_iff_mem] at hu
      obtain ⟨hnodup, hmem⟩ := ih vs h
      refine ⟨hnodup, fun w => (hmem w).trans ?_⟩
      rw [mem_cons]
      refine ⟨Or.imp_right .inr, ?_⟩
      rintro (hw | rfl | hw)
      · exact .inl hw
      · exact .inl hu
      · exact .inr hw
    · rename_i hu
      rw [contains_iff_mem] at hu
      rw [← concat_eq_append]
      obtain ⟨hnodup, hmem⟩ := ih _ (h.concat hu)
      refine ⟨hnodup, fun w => (hmem w).trans ?_⟩
      rw [concat_eq_append, mem_append, mem_singleton, mem_cons, or_assoc]

lemma nodup_namesOf : (namesOf m v).Nodup := by
  unfold namesOf
  split
  · exact (foldl_addNew _ [] nodup_nil).1
  · exact nodup_nil

lemma mem_namesOf (hv : m.isVariable v) : w ∈ namesOf m v ↔ m.Names v w := by
  unfold namesOf Model.Names
  split
  · rename_i e he
    rw [(foldl_addNew _ [] nodup_nil).2 w, he]
    simp [hv]
  · rename_i hparse
    refine ⟨nofun, ?_⟩
    rintro ⟨-, e, he, -⟩
    exact absurd he (hparse e)

lemma namedBy_eq (h : ∃ r, m.parse v = .ok r) : namedBy m v = .ok (namesOf m v) := by
  obtain ⟨r, hr⟩ := h
  unfold namedBy namesOf
  rw [hr]
  cases r <;> rfl

def depsOfModel (m : Model) : Dependencies := ofList (m.variableIds.map fun v => (v, namesOf m v))

lemma contains_depsOfModel : (depsOfModel m).contains v ↔ m.isVariable v := by
  rw [← mem_keys_iff, depsOfModel, mem_keys_ofList, ← Model.mem_variableIds]
  simp

lemma keys_depsOfModel : (depsOfModel m).keys.Perm m.variableIds := by
  refine (perm_ext_iff_of_nodup (nodup_keys _) Model.nodup_variableIds).2 fun v => ?_
  rw [mem_keys_iff, contains_depsOfModel, Model.mem_variableIds]

lemma mem_named_depsOfModel : w ∈ named (depsOfModel m) v ↔ m.Names v w := by
  rw [named, depsOfModel, get?_ofList_map]
  split
  · rename_i hv
    exact mem_namesOf (Model.mem_variableIds.1 hv)
  · rename_i hv
    exact ⟨nofun, fun hw => absurd (Model.mem_variableIds.2 hw.1) hv⟩

lemma closed_depsOfModel : Closed (depsOfModel m) where
  nodup v := by
    rw [named, depsOfModel, get?_ofList_map]
    split
    · exact nodup_namesOf
    · exact nodup_nil
  contains v d hd := contains_depsOfModel.2 (mem_named_depsOfModel.1 hd).isVariable

def analysis (m : Model) : Constancy :=
  let deps := depsOfModel m
  let order := orderOf deps
  let written := m.writers.map (·.2)
  let changed := reached ⟨[], deps, order⟩ written.contains
  ⟨m.variableIds.filter fun v => written.contains v || changed.contains v, deps, order⟩

lemma ofModel_eq (hparse : ∀ v ∈ m.variableIds, ∃ r, m.parse v = .ok r)
    (hcomplete : Complete (depsOfModel m) (orderOf (depsOfModel m))) :
    ofModel m = .ok (analysis m) := by
  have hentries : m.variableIds.mapM (fun v => do return (v, ← namedBy m v)) =
      .ok (m.variableIds.map fun v => (v, namesOf m v)) :=
    mapM_eq_pure fun v hv => by rw [namedBy_eq (hparse v hv)]; rfl
  have hlength : (orderOf (depsOfModel m)).length = (depsOfModel m).size := by
    rw [hcomplete.perm.length_eq, SortedMap.keys, length_map, SortedMap.size]
  unfold ofModel
  rw [hentries]
  change (if (orderOf (depsOfModel m)).length ≠ (depsOfModel m).size then _ else _) = _
  rw [if_neg (not_not.2 hlength)]
  rfl

lemma complete_of_evaluated {vs : List ObjectId} {values : Model.Values}
    (h : m.Evaluated vs values) (hvs : ∀ v, v ∈ vs ↔ v ∈ m.variableIds) :
    Complete (depsOfModel m) (orderOf (depsOfModel m)) := by
  refine complete_orderOf closed_depsOfModel vs.idxOf fun v d hd => ?_
  have hd := mem_named_depsOfModel.1 hd
  exact (h.names_lt ((hvs v).2 (Model.mem_variableIds.2 hd.1)) hd).2
end Model
end Constancy

namespace Model
variable {m : Model} {values : Values}

lemma Satisfied.value {x : Variable} (h : m.Satisfied m.values v)
    (hx : m.var? v = some x) (hblank : Text.isAllBlank x.expression = false) :
    ∃ e y, parse? x.expression = some e ∧ x.value = some y ∧
      m.evaluateExpr m.values v e = .ok y := by
  obtain ⟨y, hy, hyields⟩ := h
  have hvalue : y = x.value := by
    rw [get?_values, isVariable, hx] at hy
    exact (Option.some.inj hy).symm
  have hparse : ∀ {r}, m.parse v = .ok r → ∃ e, parse? x.expression = some e ∧ r = some e := by
    intro r hr
    have hexpression : m.expression? v = some x.expression := by
      unfold var? at hx
      split at hx
      · rename_i hk
        cases hx
        rw [expression?, hk]
      · cases hx
    rw [parse, hexpression] at hr
    simp only [hblank, Bool.false_eq_true, if_false] at hr
    split at hr
    · rename_i e he
      cases hr
      exact ⟨e, he, rfl⟩
    · cases hr
  cases y with
  | none =>
    obtain ⟨e, -, he⟩ := hparse hyields
    cases he
  | some y =>
    obtain ⟨e, he, hevaluate⟩ := hyields
    obtain ⟨e', hread, heq⟩ := hparse he
    cases heq
    exact ⟨e, y, hread, hvalue.symm, hevaluate⟩

lemma parse_of_satisfied (h : ∀ v, m.isVariable v → m.Satisfied values v) :
    ∀ v ∈ m.variableIds, ∃ r, m.parse v = .ok r := by
  intro v hv
  obtain ⟨y, -, hyields⟩ := h v (mem_variableIds.1 hv)
  cases y with
  | none => exact ⟨_, hyields⟩
  | some y => exact ⟨_, hyields.choose_spec.1⟩

lemma Evaluated.acyclic (h : m.Evaluated vs values)
    (hvs : ∀ v, v ∈ vs ↔ v ∈ m.variableIds) (v : ObjectId) : ¬ Relation.TransGen m.Names v v := by
  have hlt : ∀ {v w}, Relation.TransGen m.Names v w → vs.idxOf w < vs.idxOf v := by
    intro v w hw
    have hstep : ∀ {v w}, m.Names v w → vs.idxOf w < vs.idxOf v := fun hw =>
      (h.names_lt ((hvs _).2 (mem_variableIds.2 hw.1)) hw).2
    induction hw with
    | single hw => exact hstep hw
    | tail _ hw ih => exact (hstep hw).trans ih
  exact fun hv => Nat.lt_irrefl _ (hlt hv)

/-- The values of a loaded model solve its equations. No variable depends on itself, and the
analysis of the model succeeds with an order in which each variable comes once and after those it
names. -/
theorem values_solve_equations (d : Description.Entity) (m : Model) (h : ofDescription d = .ok m) :
    (∀ v x, m.var? v = some x → Text.isAllBlank x.expression = false →
      ∃ e y, parse? x.expression = some e ∧ x.value = some y ∧
        m.evaluateExpr m.values v e = .ok y) ∧ (∀ v, ¬ Relation.TransGen m.Names v v) ∧
    ∃ c, Constancy.ofModel m = .ok c ∧ c.order.Perm m.variableIds ∧
      ∀ v w, m.Names v w → c.order.idxOf w < c.order.idxOf v := by
  obtain ⟨vs, hvs, hmem⟩ := evaluated_of_ofDescription h
  have hsatisfied : ∀ v, m.isVariable v → m.Satisfied m.values v := fun v hv =>
    hvs.satisfied ((hmem v).2 (mem_variableIds.2 hv))
  have hparse := parse_of_satisfied hsatisfied
  have hcomplete := Constancy.complete_of_evaluated hvs hmem
  refine ⟨fun v x hx hblank => ?_, hvs.acyclic hmem, _, Constancy.ofModel_eq hparse hcomplete, ?_, ?_⟩
  · exact (hsatisfied v (by rw [isVariable, hx]; rfl)).value hx hblank
  · exact hcomplete.perm.trans Constancy.keys_depsOfModel
  · intro v w hw
    have hv : v ∈ (Constancy.analysis m).order :=
      (hcomplete.perm.trans Constancy.keys_depsOfModel).mem_iff.2 (mem_variableIds.2 hw.1)
    exact (hcomplete.ordered v hv w (Constancy.mem_named_depsOfModel.2 hw)).2

def chainedParameters : Description.Entity where
  name := "M"
  parameters := [{ name := "a", expression := "b + 1" }, { name := "b", expression := "2" }]
  entities :=
    [{ name := "c"
       parameters := [{ name := "s", expression := "a * b", type := some "double" }] }]

/-- The innermost of the chained parameters. -/
theorem values_solve_equations_of_chain : ∃ m, ofDescription chainedParameters = .ok m ∧
      (∃ x e y, m.var? 4 = some x ∧ parse? x.expression = some e ∧ x.value = some y ∧
        m.evaluateExpr m.values 4 e = .ok y) ∧ ¬ Relation.TransGen m.Names 4 4 ∧
      ∃ c, Constancy.ofModel m = .ok c ∧ c.order.Perm m.variableIds := by
  have h : ((ofDescription chainedParameters).toOption.any fun m =>
      (m.var? 4).any fun x => !Text.isAllBlank x.expression) := by decide +kernel
  obtain ⟨m, hm, h⟩ := exists_ok_of_any h
  obtain ⟨x, hx, hblank⟩ := (Option.any_eq_true _ _).1 h
  obtain ⟨hvalues, hacyclic, c, hc, horder, -⟩ := values_solve_equations _ m hm
  obtain ⟨e, y, hy⟩ := hvalues 4 x hx (by simpa using hblank)
  exact ⟨m, hm, ⟨x, e, y, hx, hy⟩, hacyclic 4, c, hc, horder⟩
end Model
end DataflowSpecializer
