import Mathlib.Data.List.Basic
import Mathlib.Logic.Relation
import DataflowSpecializer.Proofs.Expression.Scope
import DataflowSpecializer.Proofs.Model.Loading

/-! # The equations of a model -/
namespace DataflowSpecializer.Model
open List Option SortedMap
/-- The expression of `v` names the variable `w`. -/
def Names (m : Model) (v w : ObjectId) : Prop :=
  m.isVariable v ∧ ∃ e, m.parse v = .ok (some e) ∧ w ∈ m.named v e

/-- What the expression of `v` comes to; a blank one comes to nothing. -/
def Yields (m : Model) (values : Values) (v : ObjectId) : Option Value → Prop
  | none => m.parse v = .ok none
  | some x => ∃ e, m.parse v = .ok (some e) ∧ m.evaluateExpr values v e = .ok x

/-- The value of `v` is the one that its expression comes to. -/
def Satisfied (m : Model) (values : Values) (v : ObjectId) : Prop :=
  ∃ y, values.get? v = some y ∧ m.Yields values v y

def values (m : Model) : Values :=
  ofList (m.variableIds.map fun v => (v, (m.var? v).bind (·.value)))

section Equations
variable {m : Model} {v w : ObjectId} {values values' : Values}

lemma mem_variableIds : v ∈ m.variableIds ↔ m.isVariable v := by
  rw [variableIds, mem_filter, ids, mem_range, and_iff_right_iff_imp]
  intro hv
  refine lt_size_of_family fun hf => ?_
  unfold isVariable var? at hv
  split at hv
  · rename_i hk
    rw [family, hk] at hf
    cases hf
  · cases hv

lemma nodup_variableIds : m.variableIds.Nodup := nodup_range.filter _

lemma isVariable_of_resolve? {owner : ObjectId} {name : String}
    (h : m.resolve? owner name = some w) : m.isVariable w := by
  obtain ⟨s, -, h⟩ := exists_of_findSome?_eq_some h
  split at h
  · split at h
    · rename_i hw
      rw [← some.inj h]
      exact hw.2
    · cases h
  · cases h

lemma isVariable_of_mem_named (h : w ∈ m.named v e) : m.isVariable w := by
  obtain ⟨name, -, h⟩ := mem_filterMap.1 h
  exact isVariable_of_resolve? h

lemma Names.isVariable (h : m.Names v w) : m.isVariable w := by
  obtain ⟨-, e, -, hw⟩ := h
  exact isVariable_of_mem_named hw

lemma evaluateExpr_congr (h : ∀ w ∈ m.named v e, values.get? w = values'.get? w) :
    m.evaluateExpr values v e = m.evaluateExpr values' v e := by
  have hscope : e.evaluate (m.valueScope values v) = e.evaluate (m.valueScope values' v) := by
    refine Expr.evaluate_congr fun name hname => ?_
    unfold valueScope
    cases hw : m.resolve? v name with
    | none => rfl
    | some w =>
      have hmem : w ∈ m.named v e := mem_filterMap.2 ⟨name, hname, hw⟩
      simp only [bind_eq_bind, bind_some, h w hmem]
  rw [evaluateExpr, evaluateExpr, hscope]

lemma Yields.congr (h : m.Yields values v y)
    (hv : m.isVariable v) (hnamed : ∀ w, m.Names v w → values'.get? w = values.get? w) :
    m.Yields values' v y := by
  cases y with
  | none => exact h
  | some x =>
    obtain ⟨e, he, hx⟩ := h
    exact ⟨e, he, (evaluateExpr_congr fun w hw => hnamed w ⟨hv, e, he, hw⟩).trans hx⟩

lemma Satisfied.congr (h : m.Satisfied values v)
    (hvar : m.isVariable v) (hv : values'.get? v = values.get? v)
    (hnamed : ∀ w, m.Names v w → values'.get? w = values.get? w) : m.Satisfied values' v := by
  obtain ⟨y, hy, hyields⟩ := h
  exact ⟨y, hv.trans hy, hyields.congr hvar hnamed⟩
end Equations

inductive Evaluated (m : Model) : List ObjectId → Values → Prop
  | start : Evaluated m [] .empty
  | step {vs : List ObjectId} {values : Values} {v : ObjectId} {y : Option Value} :
    Evaluated m vs values → v ∉ vs → m.isVariable v → (∀ w, m.Names v w → w ∈ vs) →
    m.Yields values v y → Evaluated m (vs ++ [v]) (values.insert v y)

namespace Evaluated
variable {m : Model} {vs : List ObjectId} {values : Values} {v w : ObjectId}

section
variable (h : m.Evaluated vs values)

include h

lemma contains_iff : values.contains v ↔ v ∈ vs := by
  induction h with
  | start => simp [SortedMap.contains]
  | step _ _ _ _ _ ih => rw [SortedMap.contains_insert, ih, mem_append, mem_singleton, or_comm]

lemma isVariable (hv : v ∈ vs) : m.isVariable v := by
  induction h with
  | start => cases hv
  | step _ _ hvar _ _ ih =>
    obtain hv | hv := mem_append.1 hv
    · exact ih hv
    · rwa [mem_singleton.1 hv]

lemma names_lt (hv : v ∈ vs) (hw : m.Names v w) : w ∈ vs ∧ vs.idxOf w < vs.idxOf v := by
  induction h with
  | start => cases hv
  | @step vs _ u _ _ hu _ hnamed _ ih =>
    obtain hv | hv := mem_append.1 hv
    · obtain ⟨hmem, hlt⟩ := ih hv
      rw [idxOf_append_of_mem hmem, idxOf_append_of_mem hv]
      exact ⟨mem_append_left _ hmem, hlt⟩
    · obtain rfl := mem_singleton.1 hv
      have hmem := hnamed w hw
      rw [idxOf_append_of_mem hmem, idxOf_append_of_notMem hu]
      exact ⟨mem_append_left _ hmem, (idxOf_lt_length_of_mem hmem).trans_le (Nat.le_add_right _ _)⟩

lemma satisfied (hv : v ∈ vs) : m.Satisfied values v := by
  induction h with
  | start => cases hv
  | @step vs values u y hvs hu hvar hnamed hyields ih =>
    -- what is evaluated later changes no value that an equation depends on
    have hkept : ∀ w ∈ vs, (values.insert u y).get? w = values.get? w := fun w hw =>
      get?_insert_of_ne _ (ne_of_mem_of_not_mem hw hu) y
    obtain hv | hv := mem_append.1 hv
    · exact (ih hv).congr (hvs.isVariable hv) (hkept v hv) fun w hw =>
        hkept w (hvs.names_lt hv hw).1
    · obtain rfl := mem_singleton.1 hv
      exact ⟨y, get?_insert_self .., hyields.congr hvar fun w hw => hkept w (hnamed w hw)⟩
end

lemma foldlM {f : Values → ObjectId → Except Fault Values} {P : ObjectId → Prop}
    (us : List ObjectId) {values' : Values} (h : m.Evaluated vs values)
    (hus : us.foldlM f values = .ok values')
    (hf : ∀ u ∈ us, ∀ vs values values', m.Evaluated vs values → f values u = .ok values' →
      ∃ vs', m.Evaluated (vs ++ vs') values' ∧ u ∈ vs ++ vs' ∧ ∀ w ∈ vs', P w) :
    ∃ vs', m.Evaluated (vs ++ vs') values' ∧ (∀ u ∈ us, u ∈ vs ++ vs') ∧ ∀ w ∈ vs', P w := by
  induction us generalizing vs values with
  | nil =>
    cases hus
    exact ⟨[], by rwa [append_nil], nofun, nofun⟩
  | cons u us ih =>
    rw [foldlM_cons] at hus
    obtain ⟨values1, hu, hus⟩ := bind_eq_ok.1 hus
    obtain ⟨vs1, h1, hmem, hnew1⟩ := hf u (.head _) vs values values1 h hu
    obtain ⟨vs2, h2, hmem2, hnew2⟩ := ih h1 hus fun u hu => hf u (.tail _ hu)
    refine ⟨vs1 ++ vs2, ?_, forall_mem_cons.2 ⟨?_, ?_⟩, forall_mem_append.2 ⟨hnew1, hnew2⟩⟩
    · rwa [← append_assoc]
    · rw [← append_assoc]
      exact mem_append_left _ hmem
    · rwa [← append_assoc]
end Evaluated

lemma evaluateVariable_evaluates {m : Model} (n : Nat) {path vs : List ObjectId}
    {values values' : Values} {v : ObjectId} (hvar : m.isVariable v)
    (hvs : m.Evaluated vs values) (h : m.evaluateVariable n path values v = .ok values') :
    ∃ vs', m.Evaluated (vs ++ vs') values' ∧ v ∈ vs ++ vs' ∧ ∀ u ∈ vs', u ∉ path := by
  induction n generalizing path vs values values' v with
  | zero => cases h
  | succ n ih =>
    unfold evaluateVariable at h
    split at h
    · rename_i hdone
      cases h
      refine ⟨[], ?_, ?_, nofun⟩
      · rwa [append_nil]
      · rwa [append_nil, ← hvs.contains_iff]
    · rename_i hnew
      rw [hvs.contains_iff] at hnew
      split at h
      · cases h
      · rename_i hpath
        rw [contains_iff_mem] at hpath
        obtain ⟨r, hparse, h⟩ := bind_eq_ok.1 h
        have hnames : ∀ {e w}, r = some e → m.Names v w → w ∈ m.named v e := by
          rintro e w rfl ⟨-, e', he', hw⟩
          rw [hparse] at he'
          cases he'
          exact hw
        cases r with
        | none =>
          cases h
          refine ⟨[v], hvs.step hnew hvar (fun w hw => ?_) hparse, ?_, ?_⟩
          · obtain ⟨-, e, he, -⟩ := hw
            rw [hparse] at he
            cases he
          · exact mem_append_right _ (.head _)
          · rintro u hu
            rwa [mem_singleton.1 hu]
        | some e =>
          obtain ⟨values1, hnamed, x, hx, h⟩ := bind₂_eq_ok h
          cases h
          obtain ⟨vs1, h1, hmem, hwaiting⟩ := hvs.foldlM (m.named v e) hnamed
            fun u hu vs values values' hvs hu' => ih (isVariable_of_mem_named hu) hvs hu'
          refine ⟨vs1 ++ [v], ?_, ?_, ?_⟩
          · rw [← append_assoc]
            refine h1.step ?_ hvar (fun w hw => hmem w (hnames rfl hw)) ⟨e, hparse, hx⟩
            exact fun hv => (mem_append.1 hv).elim hnew fun hv => hwaiting v hv (.head _)
          · simp
          · refine forall_mem_append.2 ⟨fun u hu hpath => ?_, ?_⟩
            · exact hwaiting u hu (.tail _ hpath)
            · rintro u hu
              rwa [mem_singleton.1 hu]

lemma variableValues_evaluates {m : Model} {values : Values} (h : m.variableValues = .ok values) :
    ∃ vs, m.Evaluated vs values ∧ ∀ v, v ∈ vs ↔ v ∈ m.variableIds := by
  obtain ⟨vs, hvs, hmem, -⟩ := Evaluated.start.foldlM (P := fun u => u ∉ []) m.variableIds h
    fun u hu vs values values' hvs hu' =>
      evaluateVariable_evaluates _ (mem_variableIds.1 hu) hvs hu'
  rw [nil_append] at hvs hmem
  exact ⟨vs, hvs, fun v => ⟨fun hv => mem_variableIds.2 (hvs.isVariable hv), hmem v⟩⟩

section Loaded
variable {m : Model} {values : Values} {k : KnownTypes} {v : ObjectId}

lemma value_loaded : (((m.setValues values).setTypes k).var? v).bind (·.value) =
      (m.var? v).bind fun _ => (values.get? v).join := by
  by_cases hlt : v < m.objects.size
  · unfold var? kind setTypes
    rw [object_mapIdx, if_pos (by simpa [setValues] using hlt), setValues, object_mapIdx, if_pos hlt]
    cases hk : (m.object v).kind <;> simp [hk, Variable.withValue]
  · have hnone : ∀ {m' : Model}, m'.objects.size ≤ v → m'.var? v = none := fun hle => by
      rw [var?, kind, object_of_le hle]
      rfl
    rw [hnone (Nat.not_lt.1 hlt), hnone (by simpa [setTypes, setValues] using Nat.not_lt.1 hlt)]
    rfl

lemma get?_values :
    m.values.get? v = if m.isVariable v then some ((m.var? v).bind (·.value)) else none := by
  rw [Model.values, get?_ofList_map]
  simp only [mem_variableIds]

lemma values_loaded (h : ∀ v, values.contains v ↔ m.isVariable v) :
    ((m.setValues values).setTypes k).values = values := by
  refine ext_get? fun v => ?_
  rw [get?_values, (sameObjects_loaded m values k).isVariable, value_loaded]
  split
  · rename_i hv
    obtain ⟨y, hy⟩ := isSome_iff_exists.1 ((h v).2 hv)
    obtain ⟨x, hx⟩ := isSome_iff_exists.1 hv
    rw [hx, hy]
    rfl
  · rename_i hv
    rw [← h, SortedMap.contains, not_isSome_iff_eq_none] at hv
    exact hv.symm
end Loaded

variable {m m' : Model}

lemma SameObjects.names (h : m.SameObjects m') (v w : ObjectId) : m'.Names v w ↔ m.Names v w := by
  simp only [Names, h.isVariable, h.parse, h.named]

lemma SameObjects.yields (h : m.SameObjects m') (values : Values) (v : ObjectId)
    (y : Option Value) : m'.Yields values v y ↔ m.Yields values v y := by
  have hexpr : ∀ e x, m'.evaluateExpr values v e = .ok x ↔ m.evaluateExpr values v e = .ok x := by
    intro e x
    have hscope : m'.valueScope values v = m.valueScope values v :=
      funext fun name => by rw [valueScope, h.resolve?, valueScope]
    unfold evaluateExpr
    rw [hscope, h.declared]
    split
    · simp
    · split
      · rfl
      · split <;> simp
  cases y with
  | none => rw [Yields, h.parse, Yields]
  | some x => simp only [Yields, h.parse, hexpr]

lemma SameObjects.evaluated (h : m.SameObjects m') {vs : List ObjectId}
    {values : Values} (hvs : m.Evaluated vs values) : m'.Evaluated vs values := by
  induction hvs with
  | start => exact .start
  | step _ hv hvar hnamed hyields ih =>
    refine ih.step hv ((h.isVariable _).trans hvar) (fun w hw => ?_) ((h.yields _ _ _).2 hyields)
    exact hnamed w ((h.names _ w).1 hw)

lemma evaluated_of_ofDescription {m : Model} (h : ofDescription d = .ok m) :
    ∃ vs, m.Evaluated vs m.values ∧ ∀ v, v ∈ vs ↔ v ∈ m.variableIds := by
  obtain ⟨m0, values, k, -, hvalues, -, rfl⟩ := ofDescription_eq_ok h
  obtain ⟨vs, hvs, hmem⟩ := variableValues_evaluates hvalues
  have hsame := sameObjects_loaded m0 values k
  refine ⟨vs, ?_, fun v => by rw [hmem, hsame.variableIds]⟩
  rw [values_loaded fun v => by rw [hvs.contains_iff, hmem, mem_variableIds]]
  exact hsame.evaluated hvs
end DataflowSpecializer.Model
