import Mathlib.Order.BoundedOrder.Lattice
import DataflowSpecializer.Proofs.Value.Order

/-! # The lattice of types

Types whose records list their labels in order (`CanonicalType`) form a join semilattice with a
greatest element under `leq`; its join is `lub`.
-/
namespace DataflowSpecializer
open ValueType

variable {a b : ValueType}

lemma eq_of_lookup_eq {α : Type} {fs gs : List (String × α)}
    (hfs : fs.Pairwise fun a b => a.1 < b.1) (hgs : gs.Pairwise fun a b => a.1 < b.1)
    (h : ∀ label, fs.lookup label = gs.lookup label) : fs = gs := by
  let m : SortedMap String α := ⟨fs, hfs.imp compareOfLessAndEq_eq_lt.2⟩
  let n : SortedMap String α := ⟨gs, hgs.imp compareOfLessAndEq_eq_lt.2⟩
  have hmn : m = n := SortedMap.ext_get? fun label => by
    rw [← lookup_entries, ← lookup_entries]
    exact h label
  exact congrArg SortedMap.entries hmn

namespace ValueType
lemma scalarLeq_antisymm (hab : scalarLeq a b) (hba : scalarLeq b a) : a = b := by
  obtain ⟨ha, hb⟩ := scalarLeq_isScalar hab
  cases a <;> simp [isScalar] at ha <;> cases b <;> simp [isScalar] at hb <;> simp_all [scalarLeq]

lemma leq_antisymm (ha : a.IsCanonical) :
    ∀ {b : ValueType}, b.IsCanonical → leq a b → leq b a → a = b := by
  induction ha with (intro b hb hab hba)
  | array _ ih =>
    rcases array_leq_iff.1 hab with rfl | rfl | ⟨e, rfl, hde⟩
    · cases hba
    · cases hba
    · cases hb with
      | array he => rw [ih he hde hba]
  | matrix _ ih =>
    rcases matrix_leq_iff.1 hab with rfl | rfl | ⟨e, rfl, hde⟩
    · cases hba
    · cases hba
    · cases hb with
      | matrix he => rw [ih he hde hba]
  | @record fs hfs _ ih =>
    rcases record_leq_iff.1 hab with rfl | rfl | ⟨gs, rfl, hfg⟩
    · cases hba
    · cases hba
    · cases hb with
      | record hgs hcanon =>
        have hgf : leqFields gs fs := hba
        -- A label that one record has, the other has too, at the same type.
        rw [eq_of_lookup_eq hfs hgs fun label => ?_]
        cases hs : fs.lookup label with
        | none =>
          cases ht : gs.lookup label with
          | none => rfl
          | some t =>
            obtain ⟨s, hs', -⟩ := leqFields_iff.1 hfg _ (mem_of_lookup ht)
            rw [hs] at hs'
            cases hs'
        | some s =>
          obtain ⟨t, ht, hts⟩ := leqFields_iff.1 hgf _ (mem_of_lookup hs)
          obtain ⟨s', hs', hst⟩ := leqFields_iff.1 hfg _ (mem_of_lookup ht)
          obtain rfl : s = s' := Option.some.inj (hs.symm.trans hs')
          have hst : s = t := ih _ (mem_of_lookup hs) (hcanon _ (mem_of_lookup ht)) hst hts
          rw [ht, hst]
  | function =>
    rcases function_leq_iff.1 hab with rfl | rfl | rfl
    · cases hba
    · cases hba
    · rfl
  | general =>
    rcases general_leq_iff.1 hab with rfl | rfl
    · rfl
    · cases hba
  | unknown =>
    exact (unknown_leq_iff.1 hab).symm
  | boolean | ubyte | int | long | double | complex | fix | string =>
    rcases (scalar_leq_iff rfl).1 hab with rfl | rfl | hab
    · cases hba
    · cases hba
    · rw [leq_eq_scalarLeq rfl] at hba
      exact scalarLeq_antisymm hab hba
end ValueType

@[ext]
structure CanonicalType where
  type : ValueType
  canonical : type.IsCanonical

namespace CanonicalType
instance : SemilatticeSup CanonicalType where
  le a b := a.type.leq b.type
  le_refl a := leq_refl a.canonical
  le_trans _ _ _ := leq_trans
  le_antisymm a b hab hba := CanonicalType.ext (leq_antisymm a.canonical b.canonical hab hba)
  sup a b := ⟨a.type.lub b.type, isCanonical_lub a.canonical b.canonical⟩
  le_sup_left a b := leq_lub_left a.canonical b.type
  le_sup_right a b := leq_lub_right a.type b.type
  sup_le _ _ _ := lub_least

instance : OrderTop CanonicalType where
  top := ⟨.unknown, .unknown⟩
  le_top a := leq_unknown a.type
end CanonicalType

namespace ValueType
section
variable (ha : a.IsCanonical)

include ha

lemma lub_self : lub a a = a := congrArg CanonicalType.type (sup_idem (⟨a, ha⟩ : CanonicalType))

lemma lub_comm (hb : b.IsCanonical) : lub a b = lub b a :=
  congrArg CanonicalType.type (sup_comm (⟨a, ha⟩ : CanonicalType) ⟨b, hb⟩)

lemma lub_assoc {c : ValueType} (hb : b.IsCanonical)
    (hc : c.IsCanonical) : lub (lub a b) c = lub a (lub b c) :=
  congrArg CanonicalType.type (sup_assoc (⟨a, ha⟩ : CanonicalType) ⟨b, hb⟩ ⟨c, hc⟩)

lemma compare_eq (hb : b.IsCanonical) : compare a b =
      match leq a b, leq b a with
      | true, true => .same
      | true, false => .lower
      | false, true => .higher
      | false, false => .incomparable := by
  unfold compare
  by_cases heq : a = b
  · subst b
    rw [if_pos rfl, leq_refl ha]
  · rw [if_neg heq]
    cases hab : leq a b <;> cases hba : leq b a
    · rfl
    · rfl
    · rfl
    · exact absurd (leq_antisymm ha hb hab hba) heq
end

/-! ## The code order -/
lemma merge_array (d e : ValueType) : merge (.array d) (.array e) = .array (merge d e) := rfl

lemma merge_of_ne_array (h : ∀ d e, a = .array d → b = .array e → False) :
    merge a b = if a = b then a else .unknown := by
  rw [merge.eq_2]
  exact h

lemma merge_self : ∀ a : ValueType, merge a a = a 
  | .array d => by rw [merge_array, merge_self d]
  | .boolean | .ubyte | .int | .long | .double | .complex | .fix | .string | .matrix _
  | .record _ | .function _ | .general | .unknown =>
    (merge_of_ne_array (by nofun)).trans (if_pos rfl)

lemma merge_unknown (a : ValueType) : merge a .unknown = .unknown := by
  refine (merge_of_ne_array (by nofun)).trans ?_
  split
  · assumption
  · rfl

lemma merge_comm (a b : ValueType) : merge a b = merge b a := by
  fun_induction merge a b with
  | case1 d e ih => rw [merge_array, ih]
  | case2 => rw [merge_self]
  | case3 a b harray hne =>
    rw [merge_of_ne_array fun e d hb ha => harray d e ha hb, if_neg (Ne.symm hne)]

lemma unknown_merge (a : ValueType) : merge .unknown a = .unknown := by
  rw [merge_comm, merge_unknown]

lemma merge_eq_or (h : ∀ d e, a = .array d → b = .array e → False) :
    merge a b = a ∨ merge a b = .unknown := by
  rw [merge_of_ne_array h]
  split
  · exact .inl rfl
  · exact .inr rfl

lemma array_merge_of_ne {d c : ValueType} (h : ∀ e, c ≠ .array e) :
    merge (.array d) c = .unknown := by
  rw [merge_of_ne_array fun _ e _ hc => h e hc, if_neg fun hc => h d hc.symm]

lemma merge_assoc (a b c : ValueType) : merge (merge a b) c = merge a (merge b c) := by
  fun_induction merge a b generalizing c with
  | case1 d e ih =>
    by_cases hc : ∃ x, c = .array x
    · obtain ⟨x, rfl⟩ := hc
      rw [merge_array, merge_array, merge_array, ih]
    · have hne : ∀ x, c ≠ .array x := fun x h => hc ⟨x, h⟩
      rw [array_merge_of_ne hne, array_merge_of_ne hne, merge_unknown]
  | case2 a harray =>
    have hne : ∀ d, a ≠ .array d := fun d h => harray d d h h
    rw [merge_of_ne_array fun d _ h _ => hne d h]
    split
    · rw [merge_self]
    · rw [merge_unknown]
  | case3 a b harray hne =>
    rw [unknown_merge]
    by_cases hbc : ∃ e x, b = .array e ∧ c = .array x
    · obtain ⟨e, x, rfl, rfl⟩ := hbc
      rw [merge_array, merge_of_ne_array fun d _ h _ => harray d e h rfl, if_neg]
      rintro rfl
      exact harray _ e rfl rfl
    · rcases merge_eq_or (a := b) (b := c) fun e x hb hc => hbc ⟨e, x, hb, hc⟩ with h | h
      · rw [h, merge_of_ne_array harray, if_neg hne]
      · rw [h, merge_unknown]

lemma isCanonical_merge (ha : a.IsCanonical) (b : ValueType) : (merge a b).IsCanonical := by
  fun_induction merge a b with
  | case1 d e ih =>
    cases ha with
    | array hd => exact .array (ih hd)
  | case2 => exact ha
  | case3 => exact .unknown

lemma lub_leq_merge (ha : a.IsCanonical) : leq (lub a b) (merge a b) := by
  fun_induction merge a b with
  | case1 d e ih =>
    cases ha with
    | array hd => exact ih hd
  | case2 =>
    rw [lub_self ha]
    exact leq_refl ha
  | case3 => exact leq_unknown _

/-- **Types form a join semilattice.**  The value order is a partial order with the greatest
element `unknown`, its join is `lub`, comparisons tell the order, and the join of generated code
is a join in its own right that never says more than `lub` does. -/
theorem semilattice_laws {a b c : ValueType} (ha : a.IsCanonical) (hb : b.IsCanonical)
    (hc : c.IsCanonical) : (leq a a ∧ (leq a b → leq b c → leq a c) ∧
      (leq a b → leq b a → a = b) ∧ leq a .unknown) ∧
    ((lub a b).IsCanonical ∧ leq a (lub a b) ∧ leq b (lub a b) ∧
      (leq a c → leq b c → leq (lub a b) c)) ∧
    (lub a a = a ∧ lub a b = lub b a ∧ lub (lub a b) c = lub a (lub b c)) ∧ (compare a b).code =
      (if leq a b then if leq b a then 0 else -1 else if leq b a then 1 else 2) ∧
    (merge a a = a ∧ merge a b = merge b a ∧ merge (merge a b) c = merge a (merge b c) ∧
      leq (lub a b) (merge a b)) := by
  refine ⟨⟨leq_refl ha, leq_trans, leq_antisymm ha hb, leq_unknown a⟩,
    ⟨isCanonical_lub ha hb, leq_lub_left ha b, leq_lub_right a b, lub_least⟩,
    ⟨lub_self ha, lub_comm ha hb, lub_assoc ha hb hc⟩, ?_,
    ⟨merge_self a, merge_comm a b, merge_assoc a b c, lub_leq_merge ha⟩⟩
  rw [compare_eq ha hb]
  cases leq a b <;> cases leq b a <;> rfl

/-- Of two records of arrays the join keeps the label that both have, at the join of its types,
and it is below the third record, which has that label alone. -/
theorem semilattice_laws_of_records :
    let a : ValueType := .record [("size", .int), ("values", .array .int)]
    let b : ValueType := .record [("unit", .string), ("values", .array .double)]
    let c : ValueType := .record [("values", .array .general)]
    a.IsCanonical ∧ b.IsCanonical ∧ c.IsCanonical ∧
      lub a b = .record [("values", .array .double)] ∧ leq (lub a b) c ∧
      lub (lub a b) c = lub a (lub b c) ∧ (compare a b).code = 2 := by
  intro a b c
  have ha : a.IsCanonical := .record (by decide) (by simpa using ⟨.int, .array .int⟩)
  have hb : b.IsCanonical := .record (by decide) (by simpa using ⟨.string, .array .double⟩)
  have hc : c.IsCanonical := .record (by decide) (by simpa using .array .general)
  obtain ⟨-, ⟨-, -, -, hleast⟩, ⟨-, -, hassoc⟩, hcode, -⟩ := semilattice_laws ha hb hc
  exact ⟨ha, hb, hc, by decide, hleast (by decide) (by decide), hassoc, hcode.trans (by decide)⟩
end ValueType
end DataflowSpecializer
