import DataflowSpecializer.Proofs.Value.Order
import DataflowSpecializer.Value.Arithmetic

/-! # Values at their types

`Value.HasType v t` says that `v` is one of the values that `t` promises: not only does its own type
lie below `t`, the elements and fields inside lie below what `t` says of them.
-/
namespace DataflowSpecializer.Value
open List Option ValueType

variable {a b v w : Value} {e s t : ValueType} {op : ArithOp} {c : Value} {d : ValueType}
  {gs : FieldTypes} {vs : List Value} {u : ValueType}

inductive HasType : Value → ValueType → Prop
  | unknown (v : Value) : HasType v .unknown
  | general (v : Value) : HasType v .general
  | scalar {v : Value} {t : ValueType} : scalarLeq v.type t → HasType v t
  | array {d e : ValueType} {vs : List Value} : d.leq e → (∀ v ∈ vs, HasType v e) →
      (vs = [] → e = .general ∨ e = .unknown) → HasType (.array d vs) (.array e)
  | matrix {d e : ValueType} {rows cols : Nat} {vs : List Value} : d.leq e →
      (∀ v ∈ vs, HasType v e) → (vs = [] → e = .general ∨ e = .unknown) →
      HasType (.matrix d rows cols vs) (.matrix e)
  | record {fs : List (String × Value)} {gs : FieldTypes} :
      (∀ g ∈ gs, (fs.lookup g.1).isSome) →
      (∀ g ∈ gs, ∀ v, fs.lookup g.1 = some v → HasType v g.2) → HasType (.record fs) (.record gs)
  | function {params : Params} {body : Expr}
      {captured : List (String × Value)} :
      HasType (.function params body captured) (.function params.length)

/-- A value whose parts fit together: elements have types below the element type of their
collection, a matrix has its rows and columns filled, a collection without elements has no
element type of its own, and the labels of a record increase. -/
inductive WellFormed : Value → Prop
  | scalar {v : Value} : v.type.isScalar → WellFormed v
  | array {e : ValueType} {vs : List Value} : e.IsCanonical → (∀ v ∈ vs, WellFormed v) →
      (∀ v ∈ vs, v.type.leq e) → (vs = [] → e = .general ∨ e = .unknown) →
      WellFormed (.array e vs)
  | matrix {e : ValueType} {rows cols : Nat} {vs : List Value} : e.IsCanonical →
      vs.length = rows * cols → (∀ v ∈ vs, WellFormed v) → (∀ v ∈ vs, v.type.leq e) →
      (vs = [] → e = .general ∨ e = .unknown) → WellFormed (.matrix e rows cols vs)
  | record {fs : List (String × Value)} : fs.Pairwise (fun a b => a.1 < b.1) →
      (∀ f ∈ fs, WellFormed f.2) → WellFormed (.record fs)
  | function {params : Params} {body : Expr}
      {captured : List (String × Value)} : WellFormed (.function params body captured)

/-! ## Types of values -/
lemma fieldTypes_eq_map (fs : List (String × Value)) :
    fieldTypes fs = fs.map fun f => (f.1, f.2.type) := by
  induction fs with
  | nil => rfl
  | cons f fs ih => rw [fieldTypes, ih, map_cons]

lemma lookup_fieldTypes (fs : List (String × Value)) (label : String) :
    (fieldTypes fs).lookup label = (fs.lookup label).map type := by
  induction fs with
  | nil => rfl
  | cons f fs ih =>
    obtain ⟨l, v⟩ := f
    rw [fieldTypes, List.lookup_cons, List.lookup_cons, ih]
    cases label == l <;> rfl

lemma type_ofLiteral_isScalar (l : Literal) : (ofLiteral l).type.isScalar := by
  cases l <;> rfl

lemma type_ne_unknown (v : Value) : v.type ≠ .unknown := by cases v <;> simp [type]

lemma HasType.type_leq (h : HasType v t) : v.type.leq t := by
  induction h with
  | unknown => rfl
  | general v => exact leq_general_iff.2 v.type_ne_unknown
  | scalar h =>
    rw [leq_eq_scalarLeq (scalarLeq_isScalar h).2]
    exact h
  | array hde => exact array_leq_iff.2 (.inr (.inr ⟨_, rfl, hde⟩))
  | matrix hde => exact matrix_leq_iff.2 (.inr (.inr ⟨_, rfl, hde⟩))
  | @record fs gs hsome _ ih =>
    refine record_leq_iff.2 (.inr (.inr ⟨gs, rfl, ?_⟩))
    refine leqFields_iff.2 fun g hg => ?_
    obtain ⟨v, hv⟩ := isSome_iff_exists.1 (hsome g hg)
    exact ⟨v.type, by rw [lookup_fieldTypes, hv, map_some], ih g hg v hv⟩
  | function => exact function_leq_iff.2 (.inr (.inr rfl))

lemma hasType_self_of_isScalar (h : v.type.isScalar) : HasType v v.type :=
  .scalar (scalarLeq_refl h)

lemma top_leq (hs : s = .general ∨ s = .unknown) (h : s.leq t) : t = .general ∨ t = .unknown := by
  rcases hs with rfl | rfl
  · exact general_leq_iff.1 h
  · exact .inr (unknown_leq_iff.1 h)

lemma HasType.of_fields (h : ∀ g ∈ gs, ∃ v, fs.lookup g.1 = some v ∧ HasType v g.2) :
    HasType (.record fs) (.record gs) := by
  refine .record (fun g hg => ?_) fun g hg v hv => ?_
  · exact isSome_iff_exists.2 ((h g hg).imp fun _ => And.left)
  · obtain ⟨w, hw, hty⟩ := h g hg
    obtain rfl := some.inj (hv.symm.trans hw)
    exact hty

/-- **A value of a type is a value of every type above it.** -/
theorem HasType.mono (h : HasType v s) : ∀ {t : ValueType}, s.leq t → HasType v t := by
  induction h with (intro t hst)
  | unknown v =>
    rw [unknown_leq_iff.1 hst]
    exact .unknown v
  | general v =>
    rcases general_leq_iff.1 hst with rfl | rfl
    · exact .general v
    · exact .unknown v
  | scalar h =>
    rcases (scalar_leq_iff (scalarLeq_isScalar h).2).1 hst with
      rfl | rfl | hst
    · exact .general _
    · exact .unknown _
    · exact .scalar (scalarLeq_trans h hst)
  | array hde _ hnil ih =>
    rcases array_leq_iff.1 hst with rfl | rfl | ⟨u, rfl, heu⟩
    · exact .general _
    · exact .unknown _
    · exact .array (leq_trans hde heu) (fun v hv => ih v hv heu) fun hvs => top_leq (hnil hvs) heu
  | matrix hde _ hnil ih =>
    rcases matrix_leq_iff.1 hst with rfl | rfl | ⟨u, rfl, heu⟩
    · exact .general _
    · exact .unknown _
    · exact .matrix (leq_trans hde heu) (fun v hv => ih v hv heu) fun hvs => top_leq (hnil hvs) heu
  | record hsome _ ih =>
    rcases record_leq_iff.1 hst with rfl | rfl | ⟨hs, rfl, hle⟩
    · exact .general _
    · exact .unknown _
    · refine .of_fields fun h hh => ?_
      obtain ⟨s, hs, hsh⟩ := leqFields_iff.1 hle h hh
      have hmem := mem_of_lookup hs
      obtain ⟨v, hv⟩ := isSome_iff_exists.1 (hsome _ hmem)
      exact ⟨v, hv, ih _ hmem v hv hsh⟩
  | function =>
    rcases function_leq_iff.1 hst with rfl | rfl | rfl
    · exact .general _
    · exact .unknown _
    · exact .function

lemma WellFormed.type_isCanonical (h : v.WellFormed) : v.type.IsCanonical := by
  induction h with
  | scalar h => exact isCanonical_of_isScalar h
  | array hcanon => exact .array hcanon
  | matrix hcanon => exact .matrix hcanon
  | @record fs hsorted _ ih =>
    rw [type, fieldTypes_eq_map]
    refine .record (pairwise_map.2 hsorted) fun g hg => ?_
    obtain ⟨f, hf, rfl⟩ := List.mem_map.1 hg
    exact ih f hf
  | function => exact .function

/-- **A well-formed value is one that its type promises.** -/
theorem WellFormed.hasType (h : v.WellFormed) : HasType v v.type := by
  induction h with
  | scalar h => exact hasType_self_of_isScalar h
  | array hcanon _ hle hnil ih =>
    exact .array (leq_refl hcanon) (fun v hv => (ih v hv).mono (hle v hv)) hnil
  | matrix hcanon _ _ hle hnil ih =>
    exact .matrix (leq_refl hcanon) (fun v hv => (ih v hv).mono (hle v hv)) hnil
  | @record fs hsorted _ ih =>
    rw [type, fieldTypes_eq_map]
    refine .of_fields fun g hg => ?_
    obtain ⟨f, hf, rfl⟩ := List.mem_map.1 hg
    exact ⟨f.2, lookup_of_mem hsorted hf, ih f hf⟩
  | function => exact .function

lemma convertList_eq_ok (h : convertList t vs = .ok ws) :
    List.Forall₂ (fun v w => convert t v = .ok w) vs ws := by
  have hmapM : convertList t vs = vs.mapM (convert t) := by
    clear h
    induction vs with
    | nil => rfl
    | cons v vs ih =>
      rw [convertList, mapM_cons, ih]
      cases convert t v <;> cases vs.mapM (convert t) <;> rfl
  exact forall₂_of_mapM (hmapM ▸ h)

lemma widen?_type (h : v.widen? t = some w) : w.type = t ∧ t.isScalar := by
  cases t <;> simp [widen?, map_eq_some_iff] at h <;> grind [type, isScalar]

lemma convert_cases (h : convert t v = .ok w) :
    (w = v ∧ (v.type = t ∨ t = .general ∨ t = .unknown)) ∨
    (∃ d e vs ws, v = .array d vs ∧ t = .array e ∧ convertList e vs = .ok ws ∧ w = .array e ws) ∨
    (∃ d e rows cols vs ws, v = .matrix d rows cols vs ∧ t = .matrix e ∧
      convertList e vs = .ok ws ∧ w = .matrix e rows cols ws) ∨
    (v.type.isScalar ∧ w.type = t ∧ t.isScalar) := by
  rw [convert.eq_def] at h
  split at h
  · rename_i hsame
    cases h
    exact .inl ⟨rfl, hsame⟩
  · split at h
    · rename_i hle
      split at h
      · split at h
        · obtain ⟨ws, hws, rfl⟩ := map_eq_ok.1 h
          exact .inr (.inl ⟨_, _, _, ws, rfl, rfl, hws, rfl⟩)
        · cases h
      · split at h
        · obtain ⟨ws, hws, rfl⟩ := map_eq_ok.1 h
          exact .inr (.inr (.inl ⟨_, _, _, _, _, ws, rfl, rfl, hws, rfl⟩))
        · cases h
      · split at h
        · rename_i w' hw
          cases h
          obtain ⟨hty, hscalar⟩ := widen?_type hw
          rw [leq_eq_scalarLeq hscalar] at hle
          exact .inr (.inr (.inr ⟨(scalarLeq_isScalar hle).1, hty, hscalar⟩))
        · cases h
    · cases h

lemma eq_nil_of_forall₂ {R : Value → Value → Prop} (h : List.Forall₂ R vs ws) (hws : ws = []) :
    vs = [] := by
  subst hws
  exact forall₂_nil_right_iff.1 h

/-- **A value converted to a type below what is known of it keeps what is known.** -/
theorem HasType.convert (h : HasType v u) :
    ∀ {t : ValueType} {w : Value}, v.convert t = .ok w → t.leq u → HasType w u := by
  induction h with (intro t w hw htu)
  | unknown => exact .unknown w
  | general => exact .general w
  | scalar h =>
    have hv := scalarLeq_isScalar h
    rcases convert_cases hw with ⟨rfl, -⟩ | ⟨_, _, _, _, rfl, -⟩ | ⟨_, _, _, _, _, _, rfl, -⟩ |
      ⟨-, rfl, -⟩
    · exact .scalar h
    · cases hv.1
    · cases hv.1
    · rw [leq_eq_scalarLeq hv.2] at htu
      exact .scalar htu
  | array hde hvs hnil ih =>
    rcases convert_cases hw with ⟨rfl, -⟩ | ⟨_, _, _, _, hv, rfl, hws, rfl⟩ |
      ⟨_, _, _, _, _, _, hv, -⟩ | ⟨hv, -⟩
    · exact .array hde hvs hnil
    · cases hv
      have hconv := convertList_eq_ok hws
      rw [ValueType.leq] at htu
      refine .array htu (fun w hw => ?_) fun h => hnil (eq_nil_of_forall₂ hconv h)
      obtain ⟨v, hv, hvw⟩ := exists_of_forall₂ hconv hw
      exact ih v hv hvw htu
    all_goals cases hv
  | matrix hde hvs hnil ih =>
    rcases convert_cases hw with ⟨rfl, -⟩ | ⟨_, _, _, _, hv, -⟩ |
      ⟨_, _, _, _, _, _, hv, rfl, hws, rfl⟩ | ⟨hv, -⟩
    · exact .matrix hde hvs hnil
    · cases hv
    · cases hv
      have hconv := convertList_eq_ok hws
      rw [ValueType.leq] at htu
      refine .matrix htu (fun w hw => ?_) fun h => hnil (eq_nil_of_forall₂ hconv h)
      obtain ⟨v, hv, hvw⟩ := exists_of_forall₂ hconv hw
      exact ih v hv hvw htu
    · cases hv
  | record hsome hfs =>
    rcases convert_cases hw with ⟨rfl, -⟩ | ⟨_, _, _, _, hv, -⟩ | ⟨_, _, _, _, _, _, hv, -⟩ | ⟨hv, -⟩
    · exact .record hsome hfs
    all_goals cases hv
  | function =>
    rcases convert_cases hw with ⟨rfl, -⟩ | ⟨_, _, _, _, hv, -⟩ | ⟨_, _, _, _, _, _, hv, -⟩ | ⟨hv, -⟩
    · exact .function
    all_goals cases hv

lemma HasType.convertIfPossible (h : HasType v u)
    (htu : t.leq u) : HasType (v.convertIfPossible t) u := by
  rw [Value.convertIfPossible]
  split
  · rename_i w hw
    exact h.convert hw htu
  · exact h

section Collections
variable {vs : List Value} {u : ValueType}

section
variable (hvs : ∀ v ∈ vs, HasType v u)

include hvs

lemma lubAll_types_leq (hnil : vs = [] → u = .general ∨ u = .unknown) :
    (lubAll (vs.map type)).leq u := by
  by_cases h : vs = []
  · subst h
    exact general_leq_iff.2 (hnil rfl)
  · refine lubAll_least (by simpa using h) fun t ht => ?_
    obtain ⟨v, hv, rfl⟩ := List.mem_map.1 ht
    exact (hvs v hv).type_leq

lemma hasType_map_convertIfPossible
    (htu : t.leq u) : ∀ w ∈ vs.map (convertIfPossible t), HasType w u := by
  intro w hw
  obtain ⟨v, hv, rfl⟩ := List.mem_map.1 hw
  exact (hvs v hv).convertIfPossible htu

lemma hasType_arrayOf
    (hnil : vs = [] → u = .general ∨ u = .unknown) : HasType (arrayOf vs) (.array u) := by
  have hle := lubAll_types_leq hvs hnil
  exact .array hle (hasType_map_convertIfPossible hvs hle) fun h => hnil (map_eq_nil_iff.1 h)

lemma hasType_matrixOf (hnil : vs = [] → u = .general ∨ u = .unknown) (rows cols : Nat) :
    HasType (matrixOf rows cols vs) (.matrix u) := by
  have hle := lubAll_types_leq hvs hnil
  exact .matrix hle (hasType_map_convertIfPossible hvs hle) fun h => hnil (map_eq_nil_iff.1 h)
end

lemma hasType_recordOf {gs : FieldTypes}
    (h : List.Forall₂ (fun f g => f.1 = g.1 ∧ HasType f.2 g.2) fs gs) :
    HasType (recordOf fs) (.record (SortedMap.ofList gs).entries) :=
  .of_fields (lookup_ofList_forall₂ h)
end Collections

lemma isCanonical_of_scalar_leq {a : ValueType} (ha : a.isScalar)
    (h : a.leq s) : s.IsCanonical := by
  rcases (scalar_leq_iff ha).1 h with rfl | rfl | h
  · exact .general
  · exact .unknown
  · exact isCanonical_of_isScalar (scalarLeq_isScalar h).2

lemma HasType.of_type_eq (h : HasType v t)
    (hv : v.type.isScalar) (hw : w.type = v.type) : HasType w t :=
  (hasType_self_of_isScalar (hw ▸ hv)).mono (hw ▸ h.type_leq)

lemma isScalar_lub (ha : a.type.isScalar) (hb : b.type.isScalar)
    (hc : c.type = a.type.lub b.type) : c.type.isScalar := by
  rw [hc, lub_scalars ha hb]
  exact scalarLub_isScalar ha hb

lemma HasType.of_type_eq_lub (ha : HasType a s)
    (hb : HasType b t) (has : a.type.isScalar) (hbs : b.type.isScalar)
    (hc : c.type = a.type.lub b.type) : HasType c (s.lub t) := by
  refine (hasType_self_of_isScalar (isScalar_lub has hbs hc)).mono ?_
  rw [hc]
  refine lub_least (leq_trans ha.type_leq ?_) (leq_trans hb.type_leq (leq_lub_right s t))
  exact leq_lub_left (isCanonical_of_scalar_leq has ha.type_leq) t

lemma unify_scalars {a' b' : Value} (h : unify a b = .ok (a', b'))
    (hty : a'.type = b'.type) (hs : a'.type.isScalar) :
    a.type.isScalar ∧ b.type.isScalar ∧ a'.type = a.type.lub b.type := by
  obtain ⟨x, hx, y, hy, h⟩ := bind₂_eq_ok h
  cases h
  have hscalar : ∀ {t : ValueType} {v w : Value}, v.convert t = .ok w →
      w.type.isScalar → v.type.isScalar ∧
        (w.type = t ∨ t = .general ∨ t = .unknown) := by
    intro t v w hw hws
    rcases convert_cases hw with ⟨rfl, ht⟩ | ⟨_, _, _, _, -, -, -, rfl⟩ |
      ⟨_, _, _, _, _, _, -, -, -, rfl⟩ | ⟨hv, hwt, -⟩
    · exact ⟨hws, ht⟩
    iterate 2 cases hws
    · exact ⟨hv, .inl hwt⟩
  obtain ⟨ha, hat⟩ := hscalar hx hs
  obtain ⟨hb, -⟩ := hscalar hy (hty ▸ hs)
  have hjoin := scalarLub_isScalar ha hb
  rw [← lub_scalars ha hb] at hjoin
  refine ⟨ha, hb, hat.resolve_right ?_⟩
  rintro (h | h) <;> rw [h] at hjoin <;> cases hjoin

lemma onComplex_type {x y z w : Float} (h : op.onComplex x y z w = .ok c) : c.type = .complex := by
  cases op <;> cases h <;> rfl

lemma scalarArith_type (h : scalarArith op a b = .ok c) :
    a.type.isScalar ∧ b.type.isScalar ∧ c.type = a.type.lub b.type := by
  obtain ⟨⟨a', b'⟩, hu, h⟩ := bind_eq_ok.1 h
  have hout : a'.type = b'.type ∧ a'.type.isScalar ∧ c.type = a'.type := by
    split at h
    iterate 3
      · rename_i heq
        obtain ⟨z, -, h⟩ := bind_eq_ok.1 h
        cases heq; cases h
        exact ⟨rfl, rfl, rfl⟩
    · rename_i heq
      cases heq; cases h
      exact ⟨rfl, rfl, rfl⟩
    · rename_i heq
      cases heq
      exact ⟨rfl, rfl, onComplex_type h⟩
    · split at h
      · rename_i heq _
        cases heq; cases h
        exact ⟨rfl, rfl, rfl⟩
      · cases h
    · cases h
  obtain ⟨ha, hb, hjoin⟩ := unify_scalars hu hout.1 hout.2.1
  exact ⟨ha, hb, hout.2.2.trans hjoin⟩

lemma bitwise_type {op : BitOp} (h : bitwise op a b = .ok c) :
    a.type.isScalar ∧ b.type.isScalar ∧ c.type = a.type.lub b.type := by
  obtain ⟨⟨a', b'⟩, hu, h⟩ := bind_eq_ok.1 h
  have hout : a'.type = b'.type ∧ a'.type.isScalar ∧ c.type = a'.type := by
    split at h
    case h_5 => cases h
    all_goals
      rename_i heq
      cases heq; cases h
      exact ⟨rfl, rfl, rfl⟩
  obtain ⟨ha, hb, hjoin⟩ := unify_scalars hu hout.1 hout.2.1
  exact ⟨ha, hb, hout.2.2.trans hjoin⟩

/-! ## Arithmetic on collections -/
lemma arithZip_eq_ok (h : arithZip op as bs = .ok cs) :
    (cs = [] → as = [] ∨ bs = []) ∧ ∀ c ∈ cs, ∃ a ∈ as, ∃ b ∈ bs, arith op a b = .ok c := by
  induction as generalizing bs cs with
  | nil =>
    rw [arithZip.eq_def] at h
    cases h
    exact ⟨fun _ => .inl rfl, fun _ hc => by cases hc⟩
  | cons a as ih =>
    cases bs with
    | nil =>
      rw [arithZip.eq_def] at h
      cases h
      exact ⟨fun _ => .inr rfl, fun _ hc => by cases hc⟩
    | cons b bs =>
      rw [arithZip] at h
      obtain ⟨c, hc, cs', hcs, h⟩ := bind₂_eq_ok h
      cases h
      refine ⟨fun hnil => (by cases hnil), fun x hx => ?_⟩
      rcases mem_cons.1 hx with rfl | hx
      · exact ⟨a, (.head _), b, (.head _), hc⟩
      · obtain ⟨a', ha, b', hb, hab⟩ := (ih hcs).2 x hx
        exact ⟨a', .tail _ ha, b', .tail _ hb, hab⟩

lemma negateList_eq_ok (h : negateList vs = .ok ws) :
    List.Forall₂ (fun v w => negate v = .ok w) vs ws := by
  have hmapM : negateList vs = vs.mapM negate := by
    clear h
    induction vs with
    | nil => rfl
    | cons v vs ih => rw [negateList, mapM_cons, ih]
  exact forall₂_of_mapM (hmapM ▸ h)

lemma arith_of_isScalar (ha : a.type.isScalar)
    (hb : b.type.isScalar) : arith op a b = scalarArith op a b := by
  have hspread : spreadLeft op a b = scalarArith op a b := by cases b <;> first | rfl | cases hb
  cases a <;> first | exact hspread | cases ha

lemma lub_top (h : (d = .general ∨ d = .unknown) ∨ e = .general ∨ e = .unknown) :
    d.lub e = .general ∨ d.lub e = .unknown := by
  rcases h with (rfl | rfl) | rfl | rfl
  · rw [ValueType.lub]
    split
    · exact .inr rfl
    · exact .inl rfl
  · exact .inr rfl
  · cases d <;> simp [ValueType.lub, isScalar]
  · exact .inr (lub_unknown_right d)

lemma hasType_of_top (h : t = .general ∨ t = .unknown) : HasType v t := by
  rcases h with rfl | rfl
  · exact .general v
  · exact .unknown v

lemma lub_array_top (h : ∀ e, t ≠ .array e) :
    (ValueType.array d).lub t = .general ∨ (ValueType.array d).lub t = .unknown := by
  cases t <;> simp_all [ValueType.lub]

lemma lub_matrix_top (h : ∀ e, t ≠ .matrix e) :
    (ValueType.matrix d).lub t = .general ∨ (ValueType.matrix d).lub t = .unknown := by
  cases t <;> simp_all [ValueType.lub]

lemma lub_scalar_top (hs : s.isScalar) (ht : ¬ t.isScalar) :
    s.lub t = .general ∨ s.lub t = .unknown := by
  cases s <;> cases hs <;> cases t <;> simp_all [ValueType.lub, isScalar]

lemma arithZip_hasType
    (ih : ∀ a ∈ as, ∀ b, HasType b e → ∀ c, arith op a b = .ok c → HasType c (d.lub e))
    (hbs : ∀ b ∈ bs, HasType b e) (hanil : as = [] → d = .general ∨ d = .unknown)
    (hbnil : bs = [] → e = .general ∨ e = .unknown) (h : arithZip op as bs = .ok cs) :
    (∀ c ∈ cs, HasType c (d.lub e)) ∧ (cs = [] → d.lub e = .general ∨ d.lub e = .unknown) := by
  obtain ⟨hnil, hcs⟩ := arithZip_eq_ok h
  refine ⟨fun c hc => ?_, fun hc => lub_top ((hnil hc).imp hanil hbnil)⟩
  obtain ⟨a, ha, b, hb, hab⟩ := hcs c hc
  exact ih a ha b (hbs b hb) c hab

/-- **Arithmetic on values of types `s` and `t` gives a value of their join.** -/
theorem HasType.arith (ha : HasType a s) :
    ∀ {b : Value} {t : ValueType}, HasType b t → ∀ {c : Value}, a.arith op b = .ok c →
      HasType c (s.lub t) := by
  induction ha with (intro b t hb c hc)
  | unknown => exact .unknown c
  | general => exact hasType_of_top (lub_top (.inl (.inl rfl)))
  | @scalar a s ha =>
    obtain ⟨has, hs⟩ := scalarLeq_isScalar ha
    by_cases ht : t.isScalar
    · have hbt := hb.type_leq
      rw [leq_eq_scalarLeq ht] at hbt
      rw [arith_of_isScalar has (scalarLeq_isScalar hbt).1] at hc
      obtain ⟨-, hbs, hcty⟩ := scalarArith_type hc
      exact (HasType.scalar ha).of_type_eq_lub hb has hbs hcty
    · exact hasType_of_top (lub_scalar_top hs ht)
  | array _ _ hanil ih =>
    cases hb with
    | array _ hbs hbnil =>
      rw [Value.arith] at hc
      split at hc
      · obtain ⟨cs, hcs, rfl⟩ := map_eq_ok.1 hc
        rw [ValueType.lub]
        obtain ⟨hcs, hcnil⟩ := arithZip_hasType (fun a ha b hb c hc => ih a ha hb hc) hbs hanil
          hbnil hcs
        exact hasType_arrayOf hcs hcnil
      · cases hc
    | scalar hb =>
      have ht := (scalarLeq_isScalar hb).2
      exact hasType_of_top (lub_array_top (by rintro e rfl; cases ht))
    | _ => exact hasType_of_top (lub_array_top (by simp))
  | @matrix _ _ rows cols _ _ _ hanil ih =>
    cases hb with
    | matrix _ hbs hbnil =>
      rw [Value.arith] at hc
      split at hc
      · split at hc
        · obtain ⟨cs, hcs, rfl⟩ := map_eq_ok.1 hc
          rw [ValueType.lub]
          obtain ⟨hcs, hcnil⟩ := arithZip_hasType (fun a ha b hb c hc => ih a ha hb hc) hbs hanil
            hbnil hcs
          exact hasType_matrixOf hcs hcnil rows cols
        · cases hc
      · cases (scalarArith_type hc).1
    | scalar hb =>
      have ht := (scalarLeq_isScalar hb).2
      exact hasType_of_top (lub_matrix_top (by rintro e rfl; cases ht))
    | _ => exact hasType_of_top (lub_matrix_top (by simp))
  | record | function =>
    rw [Value.arith] at hc
    · cases (scalarArith_type hc).1
    all_goals simp

lemma HasType.bitwise {op : BitOp} (ha : HasType a s)
    (hb : HasType b t) (hc : a.bitwise op b = .ok c) : HasType c (s.lub t) := by
  obtain ⟨has, hbs, hty⟩ := bitwise_type hc
  exact ha.of_type_eq_lub hb has hbs hty

lemma HasType.negate (h : HasType v t) : ∀ {w : Value}, v.negate = .ok w → HasType w t := by
  induction h with (intro w hw)
  | unknown => exact .unknown w
  | general => exact .general w
  | @scalar v t h =>
    have hty : w.type = v.type := by
      cases v with
      | ubyte | int | long | double | complex => cases hw; rfl
      | boolean | string => cases hw
      | array | matrix | record | function => cases (scalarLeq_isScalar h).1
    exact (HasType.scalar h).of_type_eq (scalarLeq_isScalar h).1 hty
  | array _ _ hnil ih =>
    rw [Value.negate] at hw
    obtain ⟨ws, hws, rfl⟩ := map_eq_ok.1 hw
    have hneg := negateList_eq_ok hws
    refine hasType_arrayOf (fun w hw => ?_) fun h => hnil (eq_nil_of_forall₂ hneg h)
    obtain ⟨v, hv, hvw⟩ := exists_of_forall₂ hneg hw
    exact ih v hv hvw
  | matrix | record | function => cases hw

lemma HasType.shift {op : ShiftOp} {n : Int32} (h : HasType v t)
    (hw : v.shift op n = .ok w) : HasType w t := by
  cases v <;> cases hw <;> exact h.of_type_eq rfl rfl

lemma HasType.bitwiseNot (h : HasType v t) (hw : v.bitwiseNot = .ok w) : HasType w t := by
  cases v <;> cases hw <;> exact h.of_type_eq rfl rfl

lemma hasType_boolean (b : Bool) : HasType (.boolean b) .boolean := .scalar rfl

lemma hasType_not (h : v.not = .ok w) : HasType w .boolean := by
  cases v <;> cases h
  exact hasType_boolean _

lemma hasType_isLessThan (h : a.isLessThan b = .ok c) : HasType c .boolean := by
  obtain ⟨⟨a', b'⟩, -, h⟩ := bind_eq_ok.1 h
  split at h
  case h_5 => cases h
  all_goals
    cases h
    exact hasType_boolean _

lemma HasType.array_inv (h : HasType v (.array e)) :
    ∃ d vs, v = .array d vs ∧ ∀ x ∈ vs, HasType x e := by
  cases h with
  | scalar h => cases (scalarLeq_isScalar h).2
  | array _ hvs _ => exact ⟨_, _, rfl, hvs⟩

lemma HasType.matrix_inv (h : HasType v (.matrix e)) :
    ∃ d rows cols vs, v = .matrix d rows cols vs ∧ ∀ x ∈ vs, HasType x e := by
  cases h with
  | scalar h => cases (scalarLeq_isScalar h).2
  | matrix _ hvs _ => exact ⟨_, _, _, _, rfl, hvs⟩

lemma HasType.record_inv (h : HasType v (.record gs)) : ∃ fs, v = .record fs ∧
      ∀ g ∈ gs, ∃ x, fs.lookup g.1 = some x ∧ HasType x g.2 := by
  cases h with
  | scalar h => cases (scalarLeq_isScalar h).2
  | record hsome hfs =>
    refine ⟨_, rfl, fun g hg => ?_⟩
    obtain ⟨x, hx⟩ := isSome_iff_exists.1 (hsome g hg)
    exact ⟨x, hx, hfs g hg x hx⟩

lemma mem_of_element (h : (Value.array d vs).element i = .ok w) : w ∈ vs := by
  rw [element] at h
  split at h <;> cases h
  rename_i hfound
  split at hfound
  · cases hfound
  · exact mem_of_getElem? hfound

lemma mem_of_matrixElement {row col : Int32}
    (h : (Value.matrix d rows cols vs).matrixElement row col = .ok w) : w ∈ vs := by
  simp only [matrixElement] at h
  split at h
  · cases h
  · split at h <;> cases h
    rename_i hfound
    exact mem_of_getElem? hfound

lemma HasType.element (h : HasType v (.array e)) (hw : v.element i = .ok w) : HasType w e := by
  obtain ⟨d, vs, rfl, hvs⟩ := h.array_inv
  exact hvs w (mem_of_element hw)

lemma HasType.matrixElement {row col : Int32}
    (h : HasType v (.matrix e)) (hw : v.matrixElement row col = .ok w) : HasType w e := by
  obtain ⟨d, rows, cols, vs, rfl, hvs⟩ := h.matrix_inv
  exact hvs w (mem_of_matrixElement hw)

lemma HasType.field (h : HasType v (.record gs)) (ht : gs.lookup label = some t)
    (hw : v.field label = .ok w) : HasType w t := by
  obtain ⟨fs, rfl, hfs⟩ := h.record_inv
  obtain ⟨x, hx, hty⟩ := hfs (label, t) (mem_of_lookup ht)
  simp only [Value.field, hx] at hw
  cases hw
  exact hty
end DataflowSpecializer.Value
