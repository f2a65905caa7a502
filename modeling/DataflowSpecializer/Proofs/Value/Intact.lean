import DataflowSpecializer.Proofs.Expression.Spelled
import DataflowSpecializer.Proofs.Value.Shape

/-! # Intact values -/
namespace DataflowSpecializer.Value
open List ValueType
/-- Matrices have as many values as rows and columns say, elements have types below the element
type, and functions were spelled; in the parts too. -/
inductive Intact : Value → Prop
  | scalar {v : Value} : v.type.isScalar → Intact v
  | array {e : ValueType} {vs : List Value} : e.IsCanonical → (∀ v ∈ vs, Intact v) →
      (∀ v ∈ vs, v.type.leq e) → Intact (.array e vs)
  | matrix {e : ValueType} {rows cols : Nat} {vs : List Value} : e.IsCanonical →
      vs.length = rows * cols → (∀ v ∈ vs, Intact v) → (∀ v ∈ vs, v.type.leq e) →
      Intact (.matrix e rows cols vs)
  | record {fs : List (String × Value)} : fs.Pairwise (fun f g => f.1 < g.1) →
      (∀ f ∈ fs, Intact f.2) → Intact (.record fs)
  | function {params : Params} {body : Expr}
      {captured : List (String × Value)} : (Expr.function params body).Spelled →
      (∀ f ∈ captured, Intact f.2) → Intact (.function params body captured)

variable {v w a b c : Value} {vs : List Value} {row col : Int32}

lemma Intact.type_isCanonical (h : v.Intact) : v.type.IsCanonical := by
  induction h with
  | scalar h => exact isCanonical_of_isScalar h
  | array he => exact .array he
  | matrix he => exact .matrix he
  | record hsorted _ ih =>
    rw [type, fieldTypes_eq_map]
    refine .record (pairwise_map.2 hsorted) fun g hg => ?_
    obtain ⟨f, hf, rfl⟩ := mem_map.1 hg
    exact ih f hf
  | function => exact .function

/-- **An intact value is built as its type says.** -/
theorem Intact.hasShape (h : v.Intact) : HasShape v v.type := by
  induction h with
  | scalar h => exact .scalar h h
  | array _ _ hle ih => exact .array fun v hv => (ih v hv).mono (hle v hv)
  | matrix _ _ _ hle ih => exact .matrix fun v hv => (ih v hv).mono (hle v hv)
  | record hsorted _ ih =>
    rw [type, fieldTypes_eq_map]
    refine .of_fields fun g hg => ?_
    obtain ⟨f, hf, rfl⟩ := mem_map.1 hg
    exact ⟨f.2, lookup_of_mem hsorted hf, ih f hf⟩
  | function => exact .function

lemma intact_of_hasType_boolean (h : HasType v .boolean) : v.Intact := by
  have hle := h.type_leq
  rw [leq_eq_scalarLeq rfl] at hle
  exact .scalar (scalarLeq_isScalar hle).1

/-- **A conversion keeps values intact, and its result is below the type it asks for.** -/
theorem Intact.convert (h : v.Intact) : ∀ {t : ValueType} {w : Value}, t.IsCanonical →
    v.convert t = .ok w → w.Intact ∧ w.type.leq t := by
  have hsame {v : Value} (hv : v.Intact) {t : ValueType} (h : v.type = t ∨ t = .general ∨ t = .unknown) :
      v.Intact ∧ v.type.leq t := by
    refine ⟨hv, ?_⟩
    rcases h with rfl | rfl | rfl
    · exact leq_refl hv.type_isCanonical
    · exact leq_general_iff.2 (type_ne_unknown v)
    · exact leq_unknown _
  have hlist {vs ws : List Value} {e : ValueType} (he : e.IsCanonical)
      (ih : ∀ v ∈ vs, ∀ {t : ValueType} {w : Value}, t.IsCanonical → v.convert t = .ok w →
        w.Intact ∧ w.type.leq t) (hws : convertList e vs = .ok ws) :
      ∀ w ∈ ws, w.Intact ∧ w.type.leq e := by
    intro w hw
    obtain ⟨v, hv, hvw⟩ := exists_of_forall₂ (convertList_eq_ok hws) hw
    exact ih v hv he hvw
  induction h with (intro t w ht hw)
  | scalar hv =>
    obtain ⟨rfl, hs⟩ | ⟨_, _, _, _, rfl, -⟩ | ⟨_, _, _, _, _, _, rfl, -⟩ | ⟨-, rfl, hs⟩ :=
      convert_cases hw
    · exact hsame (.scalar hv) hs
    · cases hv
    · cases hv
    · exact ⟨.scalar hs, leq_refl ht⟩
  | array he hvs hle ih =>
    obtain ⟨rfl, hs⟩ | ⟨_, e', _, ws, heq, rfl, hws, rfl⟩ | ⟨_, _, _, _, _, _, heq, -⟩ | ⟨hv, -⟩ :=
      convert_cases hw
    · exact hsame (.array he hvs hle) hs
    · cases heq
      cases ht with
      | array he' =>
        have hall := hlist he' ih hws
        exact ⟨.array he' (fun w hw => (hall w hw).1) fun w hw => (hall w hw).2,
          leq_refl (.array he')⟩
    · cases heq
    · cases hv
  | matrix he hlength hvs hle ih =>
    obtain ⟨rfl, hs⟩ | ⟨_, _, _, _, heq, -⟩ | ⟨_, e', _, _, _, ws, heq, rfl, hws, rfl⟩ | ⟨hv, -⟩ :=
      convert_cases hw
    · exact hsame (.matrix he hlength hvs hle) hs
    · cases heq
    · cases heq
      cases ht with
      | matrix he' =>
        have hall := hlist he' ih hws
        exact ⟨.matrix he' ((convertList_eq_ok hws).length_eq ▸ hlength) (fun w hw => (hall w hw).1)
          fun w hw => (hall w hw).2, leq_refl (.matrix he')⟩
    · cases hv
  | record hsorted hfs =>
    obtain ⟨rfl, hs⟩ | ⟨_, _, _, _, h, -⟩ | ⟨_, _, _, _, _, _, h, -⟩ | ⟨h, -⟩ := convert_cases hw
    · exact hsame (.record hsorted hfs) hs
    all_goals cases h
  | function hspelled hcaptured =>
    obtain ⟨rfl, hs⟩ | ⟨_, _, _, _, h, -⟩ | ⟨_, _, _, _, _, _, h, -⟩ | ⟨h, -⟩ := convert_cases hw
    · exact hsame (.function hspelled hcaptured) hs
    all_goals cases h

section
variable (h : ∀ v ∈ vs, v.Intact)

include h

lemma intact_convertIfPossible : ∀ w ∈ vs.map (convertIfPossible (.lubAll (vs.map type))),
      w.Intact ∧ w.type.leq (.lubAll (vs.map type)) := by
  have hcanonical : ∀ t ∈ vs.map type, t.IsCanonical :=
    forall_mem_map.2 fun v hv => (h v hv).type_isCanonical
  refine forall_mem_map.2 fun v hv => ?_
  rw [convertIfPossible]
  split
  · rename_i w hw
    exact (h v hv).convert (isCanonical_lubAll hcanonical) hw
  · exact ⟨h v hv, leq_lubAll hcanonical (mem_map_of_mem hv)⟩

lemma isCanonical_lubAll_types : (lubAll (vs.map type)).IsCanonical :=
  isCanonical_lubAll (forall_mem_map.2 fun v hv => (h v hv).type_isCanonical)

lemma intact_arrayOf : (arrayOf vs).Intact :=
  have hall := intact_convertIfPossible h
  .array (isCanonical_lubAll_types h) (fun w hw => (hall w hw).1) fun w hw => (hall w hw).2
end

lemma intact_matrixOf (hlength : vs.length = rows * cols)
    (h : ∀ v ∈ vs, v.Intact) : (matrixOf rows cols vs).Intact :=
  have hall := intact_convertIfPossible h
  .matrix (isCanonical_lubAll_types h) (length_map _ |>.trans hlength)
    (fun w hw => (hall w hw).1) fun w hw => (hall w hw).2

lemma intact_recordOf (h : ∀ f ∈ fs, f.2.Intact) : (recordOf fs).Intact :=
  .record (entries_increasing _) fun f hf => h f (mem_of_mem_ofList hf)

lemma intact_scalarArith (h : scalarArith op a b = .ok c) : c.Intact := by
  obtain ⟨ha, hb, hc⟩ := scalarArith_type h
  refine .scalar ?_
  rw [hc, lub_scalars ha hb]
  exact scalarLub_isScalar ha hb

lemma intact_bitwise (h : bitwise op a b = .ok c) : c.Intact := by
  obtain ⟨ha, hb, hc⟩ := bitwise_type h
  refine .scalar ?_
  rw [hc, lub_scalars ha hb]
  exact scalarLub_isScalar ha hb

lemma spreadRight_eq_mapM (op : ArithOp) (as : List Value) (b : Value) :
    spreadRight op as b = as.mapM fun a => arith op a b := by
  induction as with
  | nil => rw [spreadRight]; rfl
  | cons a as ih => rw [spreadRight, mapM_cons, ih]

lemma spreadLeftList_eq_mapM (op : ArithOp) (a : Value) (bs : List Value) :
    spreadLeftList op a bs = bs.mapM (spreadLeft op a) := by
  induction bs with
  | nil => rw [spreadLeftList]; rfl
  | cons b bs ih => rw [spreadLeftList, mapM_cons, ih]

lemma length_arithZip {as bs cs : List Value} (h : arithZip op as bs = .ok cs) :
    cs.length = min as.length bs.length := by
  induction as generalizing bs cs with
  | nil =>
    rw [arithZip.eq_def] at h
    cases h
    simp
  | cons a as ih =>
    cases bs with
    | nil =>
      rw [arithZip.eq_def] at h
      cases h
      simp
    | cons b bs =>
      rw [arithZip] at h
      obtain ⟨c, -, cs', hcs, h⟩ := bind₂_eq_ok h
      cases h
      simp [ih hcs, Nat.succ_min_succ]

lemma Intact.spreadLeft (hb : b.Intact) : ∀ {c : Value}, a.spreadLeft op b = .ok c → c.Intact := by
  induction hb with
  | array _ _ _ ih =>
    intro c hc
    rw [Value.spreadLeft] at hc
    obtain ⟨cs, hcs, rfl⟩ := map_eq_ok.1 hc
    refine intact_arrayOf fun c hc => ?_
    rw [spreadLeftList_eq_mapM] at hcs
    obtain ⟨b, hb, hc⟩ := exists_of_forall₂ (forall₂_of_mapM hcs) hc
    exact ih b hb hc
  | @scalar b hb =>
    intro c hc
    cases b <;> first | exact intact_scalarArith hc | cases hb
  | _ => exact fun hc => intact_scalarArith hc

/-- **Arithmetic on intact values gives an intact one.** -/
theorem Intact.arith (ha : a.Intact) :
    ∀ {b c : Value}, b.Intact → a.arith op b = .ok c → c.Intact := by
  induction ha with (intro b c hb hc)
  | @scalar a ha =>
    cases a <;> first | exact hb.spreadLeft hc | cases ha
  | array _ _ _ ih =>
    rw [Value.arith.eq_def] at hc
    simp only at hc
    split at hc
    · split at hc
      · obtain ⟨cs, hcs, rfl⟩ := map_eq_ok.1 hc
        refine intact_arrayOf fun c hc => ?_
        obtain ⟨a, ha, b, hmem, hab⟩ := (arithZip_eq_ok hcs).2 c hc
        cases hb with
        | scalar hb => cases hb
        | array _ hbs _ => exact ih a ha (hbs b hmem) hab
      · cases hc
    · split at hc
      · obtain ⟨cs, hcs, rfl⟩ := map_eq_ok.1 hc
        refine intact_arrayOf fun c hc => ?_
        rw [spreadRight_eq_mapM] at hcs
        obtain ⟨a, ha, hab⟩ := exists_of_forall₂ (forall₂_of_mapM hcs) hc
        exact ih a ha hb hab
      · exact intact_scalarArith hc
  | matrix _ hlength _ _ ih =>
    rw [Value.arith.eq_def] at hc
    simp only at hc
    split at hc
    · split at hc
      · split at hc
        · rename_i hdims
          obtain ⟨rfl, rfl⟩ := hdims
          obtain ⟨cs, hcs, rfl⟩ := map_eq_ok.1 hc
          cases hb with
          | scalar hb => cases hb
          | matrix _ hlength' hbs _ =>
            have hcount := length_arithZip hcs
            refine intact_matrixOf (by omega) fun c hc => ?_
            obtain ⟨a, ha, b, hmem, hab⟩ := (arithZip_eq_ok hcs).2 c hc
            exact ih a ha (hbs b hmem) hab
        · cases hc
      · exact intact_scalarArith hc
    · exact intact_scalarArith hc
  | record | function => exact intact_scalarArith hc

lemma Intact.negate (h : v.Intact) : ∀ {w : Value}, v.negate = .ok w → w.Intact := by
  induction h with (intro w hw)
  | @scalar v hv =>
    cases v with
    | ubyte | int | long | double | complex => cases hw; exact .scalar rfl
    | boolean | string => cases hw
    | array | matrix | record | function => cases hv
  | array _ _ _ ih =>
    rw [Value.negate] at hw
    obtain ⟨ws, hws, rfl⟩ := map_eq_ok.1 hw
    refine intact_arrayOf fun w hw => ?_
    obtain ⟨v, hv, hvw⟩ := exists_of_forall₂ (negateList_eq_ok hws) hw
    exact ih v hv hvw
  | matrix | record | function => cases hw

lemma Intact.element (h : v.Intact) (hw : v.element i = .ok w) : w.Intact := by
  cases h with
  | @scalar v hv => cases v <;> first | cases hw | cases hv
  | array _ hvs _ => exact hvs w (mem_of_element hw)
  | matrix | record | function => cases hw

lemma Intact.matrixElement (h : v.Intact) (hw : v.matrixElement row col = .ok w) : w.Intact := by
  cases h with
  | @scalar v hv => cases v <;> first | cases hw | cases hv
  | matrix _ _ hvs _ => exact hvs w (mem_of_matrixElement hw)
  | array | record | function => cases hw

lemma Intact.field (h : v.Intact) (hw : v.field label = .ok w) : w.Intact := by
  cases h with
  | @scalar v hv => cases v <;> first | cases hw | cases hv
  | record _ hfs =>
    rw [Value.field] at hw
    split at hw <;> cases hw
    rename_i hfound
    exact hfs _ (mem_of_lookup hfound)
  | array | matrix | function => cases hw

lemma length_renderList (vs : List Value) : (renderList vs).length = vs.length := by
  induction vs with
  | nil => rfl
  | cons v vs ih => rw [renderList, length_cons, length_cons, ih]

variable {e : ValueType} {rows cols : Nat}

variable (h : (Value.matrix e rows cols vs).Intact)

include h

lemma Intact.matrixElement_of_lt (hrow : 0 ≤ row) (hcol : 0 ≤ col) (hrows : row.toInt.toNat < rows)
    (hcols : col.toInt.toNat < cols) :
    ∃ w ∈ vs, (Value.matrix e rows cols vs).matrixElement row col = .ok w := by
  cases h with
  | scalar h => cases h
  | matrix _ hlength _ _ =>
    have hlt : row.toInt.toNat * cols + col.toInt.toNat < vs.length := by
      have hle : (row.toInt.toNat + 1) * cols ≤ vs.length := hlength ▸ Nat.mul_le_mul_right cols hrows
      rw [Nat.succ_mul] at hle
      omega
    refine ⟨vs[row.toInt.toNat * cols + col.toInt.toNat], getElem_mem _, ?_⟩
    have hin : ¬(row < 0 ∨ col < 0 ∨ rows ≤ row.toInt.toNat ∨ cols ≤ col.toInt.toNat) := by
      simp only [not_or, Int32.not_lt, Nat.not_le]
      exact ⟨hrow, hcol, hrows, hcols⟩
    simp only [Value.matrixElement, if_neg hin, getElem?_eq_getElem hlt]

lemma Intact.length_row (hr : r < rows) :
    (((renderList vs).drop (r * cols)).take cols).length = cols := by
  cases h with
  | scalar h => cases h
  | matrix _ hlength _ _ =>
    have hle : (r + 1) * cols ≤ vs.length := hlength ▸ Nat.mul_le_mul_right cols hr
    rw [length_take, length_drop, length_renderList]
    rw [Nat.succ_mul] at hle
    omega
end DataflowSpecializer.Value
