import DataflowSpecializer.Proofs.Value.Typing

/-! # Shapes of values

What code needs to know of a value is how it is built: as a collection, a record, a function or a
single token.  A type says that for the parts too.
-/
namespace DataflowSpecializer.Value
open List Option ValueType
/-- A value is built as a type says, in the parts too; single tokens are not told apart, and a
collection may have any element type of its own. -/
inductive HasShape : Value → ValueType → Prop
  | unknown (v : Value) : HasShape v .unknown
  | general (v : Value) : HasShape v .general
  | scalar {v : Value} {t : ValueType} : v.type.isScalar → t.isScalar → HasShape v t
  | array {d e : ValueType} {vs : List Value} : (∀ v ∈ vs, HasShape v e) →
      HasShape (.array d vs) (.array e)
  | matrix {d e : ValueType} {rows cols : Nat} {vs : List Value} : (∀ v ∈ vs, HasShape v e) →
      HasShape (.matrix d rows cols vs) (.matrix e)
  | record {fs : List (String × Value)} {gs : FieldTypes} :
      (∀ g ∈ gs, (fs.lookup g.1).isSome) →
      (∀ g ∈ gs, ∀ v, fs.lookup g.1 = some v → HasShape v g.2) → HasShape (.record fs) (.record gs)
  | function {params : Params} {body : Expr} {captured : List (String × Value)} :
      HasShape (.function params body captured) (.function params.length)

section Shapes
variable {a b c v w : Value} {d e s t : ValueType} {vs ws : List Value} {gs : FieldTypes}

lemma HasShape.of_fields (h : ∀ g ∈ gs, ∃ v, fs.lookup g.1 = some v ∧ HasShape v g.2) :
    HasShape (.record fs) (.record gs) := by
  refine .record (fun g hg => ?_) fun g hg v hv => ?_
  · exact isSome_iff_exists.2 ((h g hg).imp fun _ => And.left)
  · obtain ⟨w, hw, hshape⟩ := h g hg
    obtain rfl := some.inj (hv.symm.trans hw)
    exact hshape

/-- **A value of a shape has every shape above it.** -/
theorem HasShape.mono (h : HasShape v s) : ∀ {t : ValueType}, s.leq t → HasShape v t := by
  induction h with (intro t hst)
  | unknown v =>
    rw [unknown_leq_iff.1 hst]
    exact .unknown v
  | general v =>
    rcases general_leq_iff.1 hst with rfl | rfl
    · exact .general v
    · exact .unknown v
  | scalar hv hs =>
    rcases (scalar_leq_iff hs).1 hst with rfl | rfl | hst
    · exact .general _
    · exact .unknown _
    · exact .scalar hv (scalarLeq_isScalar hst).2
  | array _ ih =>
    rcases array_leq_iff.1 hst with rfl | rfl | ⟨u, rfl, heu⟩
    · exact .general _
    · exact .unknown _
    · exact .array fun v hv => ih v hv heu
  | matrix _ ih =>
    rcases matrix_leq_iff.1 hst with rfl | rfl | ⟨u, rfl, heu⟩
    · exact .general _
    · exact .unknown _
    · exact .matrix fun v hv => ih v hv heu
  | record hsome _ ih =>
    rcases record_leq_iff.1 hst with rfl | rfl | ⟨hs, rfl, hle⟩
    · exact .general _
    · exact .unknown _
    · refine .of_fields fun h hh => ?_
      obtain ⟨s, hs, hsh⟩ := leqFields_iff.1 hle h hh
      have hmem := mem_of_lookup hs
      obtain ⟨v, hv⟩ := isSome_iff_exists.1 (hsome _ hmem)
      exact ⟨v, hv, ih _ hmem v hv hsh⟩
  | function =>
    rcases function_leq_iff.1 hst with rfl | rfl | rfl
    · exact .general _
    · exact .unknown _
    · exact .function

lemma HasShape.array_inv (h : HasShape v (.array e)) :
    ∃ d vs, v = .array d vs ∧ ∀ x ∈ vs, HasShape x e := by
  cases h with
  | scalar _ h => cases h
  | array hvs => exact ⟨_, _, rfl, hvs⟩

lemma HasShape.matrix_inv (h : HasShape v (.matrix e)) :
    ∃ d rows cols vs, v = .matrix d rows cols vs ∧ ∀ x ∈ vs, HasShape x e := by
  cases h with
  | scalar _ h => cases h
  | matrix hvs => exact ⟨_, _, _, _, rfl, hvs⟩

lemma HasShape.record_inv (h : HasShape v (.record gs)) : ∃ fs, v = .record fs ∧
      ∀ g ∈ gs, ∀ x, fs.lookup g.1 = some x → HasShape x g.2 := by
  cases h with
  | scalar _ h => cases h
  | record _ hfs => exact ⟨_, rfl, hfs⟩

lemma HasShape.function_inv (h : HasShape v (.function n)) :
    ∃ params body captured, v = .function params body captured := by
  cases h with
  | scalar _ h => cases h
  | function => exact ⟨_, _, _, rfl⟩

lemma HasShape.element (h : HasShape v (.array e)) (hw : v.element i = .ok w) : HasShape w e := by
  obtain ⟨d, vs, rfl, hvs⟩ := h.array_inv
  exact hvs w (mem_of_element hw)

lemma HasShape.matrixElement {row col : Int32}
    (h : HasShape v (.matrix e)) (hw : v.matrixElement row col = .ok w) : HasShape w e := by
  obtain ⟨d, rows, cols, vs, rfl, hvs⟩ := h.matrix_inv
  exact hvs w (mem_of_matrixElement hw)

lemma HasShape.field (h : HasShape v (.record gs)) (ht : gs.lookup label = some t)
    (hw : v.field label = .ok w) : HasShape w t := by
  obtain ⟨fs, rfl, hfs⟩ := h.record_inv
  rw [Value.field] at hw
  split at hw <;> cases hw
  rename_i hfound
  exact hfs (label, t) (mem_of_lookup ht) w hfound

lemma hasShape_boolean (h : HasType v .boolean) : HasShape v .boolean := by
  have hle := h.type_leq
  rw [leq_eq_scalarLeq rfl] at hle
  exact .scalar (scalarLeq_isScalar hle).1 rfl

lemma hasShape_of_top (h : t = .general ∨ t = .unknown) : HasShape v t := by
  rcases h with rfl | rfl
  · exact .general v
  · exact .unknown v

/-! ## Conversions and operations -/
lemma HasShape.convert (h : HasShape v s) :
    ∀ {t : ValueType} {w : Value}, v.convert t = .ok w → HasShape w s := by
  induction h with (intro t w hw)
  | unknown => exact .unknown w
  | general => exact .general w
  | scalar hv hs =>
    rcases convert_cases hw with ⟨rfl, -⟩ | ⟨_, _, _, _, rfl, -⟩ | ⟨_, _, _, _, _, _, rfl, -⟩ |
      ⟨-, rfl, ht⟩
    · exact .scalar hv hs
    · cases hv
    · cases hv
    · exact .scalar ht hs
  | array hvs ih =>
    rcases convert_cases hw with ⟨rfl, -⟩ | ⟨_, _, _, _, hv, -, hws, rfl⟩ |
      ⟨_, _, _, _, _, _, hv, -⟩ | ⟨hv, -⟩
    · exact .array hvs
    · cases hv
      refine .array fun w hw => ?_
      obtain ⟨v, hv, hvw⟩ := exists_of_forall₂ (convertList_eq_ok hws) hw
      exact ih v hv hvw
    · cases hv
    · cases hv
  | matrix hvs ih =>
    rcases convert_cases hw with ⟨rfl, -⟩ | ⟨_, _, _, _, hv, -⟩ |
      ⟨_, _, _, _, _, _, hv, -, hws, rfl⟩ | ⟨hv, -⟩
    · exact .matrix hvs
    · cases hv
    · cases hv
      refine .matrix fun w hw => ?_
      obtain ⟨v, hv, hvw⟩ := exists_of_forall₂ (convertList_eq_ok hws) hw
      exact ih v hv hvw
    · cases hv
  | record hsome hfs =>
    rcases convert_cases hw with ⟨rfl, -⟩ | ⟨_, _, _, _, hv, -⟩ | ⟨_, _, _, _, _, _, hv, -⟩ | ⟨hv, -⟩
    · exact .record hsome hfs
    all_goals cases hv
  | function =>
    rcases convert_cases hw with ⟨rfl, -⟩ | ⟨_, _, _, _, hv, -⟩ | ⟨_, _, _, _, _, _, hv, -⟩ | ⟨hv, -⟩
    · exact .function
    all_goals cases hv

lemma hasShape_map_convertIfPossible (h : ∀ v ∈ vs, HasShape v s) (t : ValueType) :
    ∀ w ∈ vs.map (convertIfPossible t), HasShape w s := by
  intro w hw
  obtain ⟨v, hv, rfl⟩ := List.mem_map.1 hw
  rw [Value.convertIfPossible]
  split
  · rename_i hw
    exact (h v hv).convert hw
  · exact h v hv

lemma hasShape_arrayOf (h : ∀ v ∈ vs, HasShape v s) : HasShape (arrayOf vs) (.array s) :=
  .array (hasShape_map_convertIfPossible h _)

lemma hasShape_matrixOf (h : ∀ v ∈ vs, HasShape v s) (rows cols : Nat) :
    HasShape (matrixOf rows cols vs) (.matrix s) :=
  .matrix (hasShape_map_convertIfPossible h _)

lemma hasShape_recordOf (h : List.Forall₂ (fun f g => f.1 = g.1 ∧ HasShape f.2 g.2) fs gs) :
    HasShape (recordOf fs) (.record (SortedMap.ofList gs).entries) :=
  .of_fields (lookup_ofList_forall₂ h)

lemma HasShape.of_isScalar (h : HasShape v t) (hv : v.type.isScalar)
    (hc : c.type.isScalar) : HasShape c t := by
  cases h with
  | unknown => exact .unknown c
  | general => exact .general c
  | scalar _ ht => exact .scalar hc ht
  | array | matrix | record | function => cases hv

lemma HasShape.of_scalars (ha : HasShape a s) (hb : HasShape b t) (hav : a.type.isScalar)
    (hbv : b.type.isScalar) (hc : c.type.isScalar) : HasShape c (s.lub t) := by
  have hscalar {v : Value} {t : ValueType} (h : HasShape v t) (hv : v.type.isScalar) :
      (t = .general ∨ t = .unknown) ∨ t.isScalar := by
    cases h with
    | unknown => exact .inl (.inr rfl)
    | general => exact .inl (.inl rfl)
    | scalar _ ht => exact .inr ht
    | array | matrix | record | function => cases hv
  rcases hscalar ha hav with hs | hs
  · exact hasShape_of_top (lub_top (.inl hs))
  · rcases hscalar hb hbv with ht | ht
    · exact hasShape_of_top (lub_top (.inr ht))
    · rw [lub_scalars hs ht]
      exact .scalar hc (scalarLub_isScalar hs ht)

/-- **Arithmetic on values of two shapes gives a value of their join.** -/
theorem HasShape.arith (ha : HasShape a s) : ∀ {b : Value} {t : ValueType}, HasShape b t →
    ∀ {c : Value}, a.arith op b = .ok c → HasShape c (s.lub t) := by
  induction ha with (intro b t hb c hc)
  | unknown => exact .unknown c
  | general => exact hasShape_of_top (lub_top (.inl (.inl rfl)))
  | scalar ha hs =>
    by_cases ht : t.isScalar
    · have hbv : b.type.isScalar := by
        cases hb with
        | scalar hb => exact hb
        | _ => cases ht
      rw [arith_of_isScalar ha hbv] at hc
      obtain ⟨-, -, hcty⟩ := scalarArith_type hc
      exact (HasShape.scalar ha hs).of_scalars hb ha hbv (isScalar_lub ha hbv hcty)
    · exact hasShape_of_top (lub_scalar_top hs ht)
  | @array x d as _ ih =>
    cases hb with
    | array hbs =>
      rw [Value.arith] at hc
      split at hc
      · obtain ⟨cs, hcs, rfl⟩ := map_eq_ok.1 hc
        rw [ValueType.lub]
        refine hasShape_arrayOf fun c hc => ?_
        obtain ⟨a, ha, b, hb, hab⟩ := (arithZip_eq_ok hcs).2 c hc
        exact ih a ha (hbs b hb) hab
      · cases hc
    | scalar _ ht => exact hasShape_of_top (lub_array_top (by rintro e rfl; cases ht))
    | _ => exact hasShape_of_top (lub_array_top (by simp))
  | @matrix x d rows cols as _ ih =>
    cases hb with
    | matrix hbs =>
      rw [Value.arith] at hc
      split at hc
      · split at hc
        · obtain ⟨cs, hcs, rfl⟩ := map_eq_ok.1 hc
          rw [ValueType.lub]
          refine hasShape_matrixOf (fun c hc => ?_) rows cols
          obtain ⟨a, ha, b, hb, hab⟩ := (arithZip_eq_ok hcs).2 c hc
          exact ih a ha (hbs b hb) hab
        · cases hc
      · cases (scalarArith_type hc).1
    | scalar _ ht => exact hasShape_of_top (lub_matrix_top (by rintro e rfl; cases ht))
    | _ => exact hasShape_of_top (lub_matrix_top (by simp))
  | record | function =>
    rw [Value.arith] at hc
    · cases (scalarArith_type hc).1
    all_goals simp

lemma HasShape.negate (h : HasShape v t) : ∀ {w : Value}, v.negate = .ok w → HasShape w t := by
  induction h with (intro w hw)
  | unknown => exact .unknown w
  | general => exact .general w
  | @scalar v t hv ht =>
    refine .scalar ?_ ht
    cases v with
    | array | matrix | record | function => cases hv
    | _ => cases hw <;> rfl
  | array _ ih =>
    rw [Value.negate] at hw
    obtain ⟨ws, hws, rfl⟩ := map_eq_ok.1 hw
    refine hasShape_arrayOf fun w hw => ?_
    obtain ⟨v, hv, hvw⟩ := exists_of_forall₂ (negateList_eq_ok hws) hw
    exact ih v hv hvw
  | matrix | record | function => cases hw

lemma one_type (h : v.one = .ok c) : v.type.isScalar ∧ c.type = v.type := by
  rw [one] at h
  split at h <;> cases h
  all_goals simp only [*, isScalar, type, and_self]

lemma multiplyTimes_type (hv : v.type.isScalar) :
    ∀ {acc : Value}, acc.type = v.type → multiplyTimes v n acc = .ok c → c.type = v.type := by
  induction n with
  | zero =>
    intro acc hacc h
    cases h
    exact hacc
  | succ n ih =>
    intro acc hacc h
    rw [multiplyTimes] at h
    split at h
    · rename_i u hu
      refine ih ?_ h
      rw [multiply, arith_of_isScalar (hacc ▸ hv) hv] at hu
      obtain ⟨-, -, hty⟩ := scalarArith_type hu
      rw [hty, hacc, lub_scalars hv hv, scalarLub, if_pos (scalarLeq_refl hv)]
    · cases h

lemma pow_type_of_nonneg (hn : ¬n < 0) (h : v.pow n = .ok c) :
    v.type.isScalar ∧ c.type = v.type := by
  rw [pow, if_neg hn] at h
  split at h
  · rename_i unit hunit
    obtain ⟨hv, hty⟩ := one_type hunit
    exact ⟨hv, multiplyTimes_type hv hty h⟩
  · cases h

lemma pow_type_of_neg (hn : n < 0) (h : v.pow n = .ok c) :
    c.type = .double ∧ (v.type = .ubyte ∨ v.type = .int ∨ v.type = .double) := by
  rw [pow, if_pos hn] at h
  split at h
  · rename_i hdouble
    cases h
    refine ⟨rfl, ?_⟩
    cases v <;> cases hdouble <;> simp [type]
  · cases h

lemma pow_isScalar (h : v.pow n = .ok c) : v.type.isScalar ∧ c.type.isScalar := by
  by_cases hn : n < 0
  · obtain ⟨hc, hv⟩ := pow_type_of_neg hn h
    rw [hc]
    rcases hv with hv | hv | hv <;> rw [hv] <;> exact ⟨rfl, rfl⟩
  · obtain ⟨hv, hc⟩ := pow_type_of_nonneg hn h
    rw [hc]
    exact ⟨hv, hv⟩

lemma HasShape.pow (h : HasShape v t) (hc : v.pow n = .ok c) : HasShape c t :=
  h.of_isScalar (pow_isScalar hc).1 (pow_isScalar hc).2

lemma HasShape.shift {op : ShiftOp} {n : Int32} (h : HasShape v t) (hw : v.shift op n = .ok w) :
    HasShape w t := by
  cases v <;> cases hw <;> exact h.of_isScalar rfl rfl

lemma HasShape.bitwiseNot (h : HasShape v t) (hw : v.bitwiseNot = .ok w) : HasShape w t := by
  cases v <;> cases hw <;> exact h.of_isScalar rfl rfl
end Shapes
end DataflowSpecializer.Value
