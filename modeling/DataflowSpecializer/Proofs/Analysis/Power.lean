import DataflowSpecializer.Analysis.ValueTypes
import DataflowSpecializer.Proofs.Generate.Operators

/-! # The types of powers -/
namespace DataflowSpecializer
lemma Expr.infer_power_eq_ok {scope : TypeScope} {base exponent : Expr} {t : ValueType} :
    Expr.infer scope (.power base exponent) = .ok t ↔
      (∃ u, exponent.infer scope = .ok u) ∧ base.infer scope = .ok t := by
  rw [Expr.infer, bind_eq_ok]
  constructor
  · rintro ⟨u, hu, ht⟩
    exact ⟨⟨u, hu⟩, ht⟩
  · rintro ⟨⟨u, hu⟩, ht⟩
    exact ⟨u, hu, ht⟩

lemma ExprSite.type_of_generate_power {g : ExprSite} {exponent : Expr}
    {t : ValueType} (h : g.generate (.power base exponent) w = .ok (l, t) w') :
    ∃ b w1, g.generate base w = .ok (b, t) w1 := by
  simp only [generate, Generation.bind_eq_ok, Generation.drafting_bind, Generation.pure_eq_ok] at h
  obtain ⟨⟨b, u⟩, w1, hb, _, _, -, hl, -⟩ := h
  cases hl
  exact ⟨b, w1, hb⟩

lemma TypeContext.callResult?_pow (c : TypeContext) (x : TypeFact) {call : Invocation}
    (hdispatch : call.dispatch ≠ .static) (hbase : call.base = some base)
    (hname : call.method.name = "pow") : c.callResult? x call = some (x.local_ base) := by
  rw [callResult?, if_neg hdispatch, hbase, Option.bind_some, methodResult?, hname]
  rfl

namespace Value
variable {v r : Value}

lemma pow_type (h : v.pow n = .ok r) : r.type = if n < 0 then .double else v.type := by
  by_cases hn : n < 0
  · rw [if_pos hn]
    exact (pow_type_of_neg hn h).1
  · rw [if_neg hn]
    exact (pow_type_of_nonneg hn h).2

lemma pow_type_leq_iff (h : v.pow n = .ok r) {t : ValueType} (ht : v.type.leq t) :
    r.type.leq t ↔ 0 ≤ n ∨ ValueType.double.leq t := by
  rw [pow_type h, ← Int32.not_lt]
  by_cases hn : n < 0
  · simp [hn]
  · simp [hn, ht]

lemma double_leq_of_pow_neg (hn : n < 0) (h : v.pow n = .ok r) :
    ValueType.double.leq v.type ↔ v.type = .double := by
  rcases (pow_type_of_neg hn h).2 with hv | hv | hv <;> rw [hv] <;> decide
end Value

/-- The type that inference, generation and the analysis of methods give to a power is the one that
they give to its base. A type that holds the base holds the power exactly if the exponent is not
negative or the type holds doubles; the base's own type does so for doubles alone. -/
theorem power_keeps_type_iff {v r : Value} {n : Int32} (h : v.pow n = .ok r) :
    (r.type.leq v.type ↔ 0 ≤ n ∨ v.type = .double) ∧ (∀ t : ValueType, v.type.leq t →
      (r.type.leq t ↔ 0 ≤ n ∨ ValueType.double.leq t)) ∧
    r.type = (if n < 0 then .double else v.type) ∧
    (∀ (scope : TypeScope) (base exponent : Expr) (t : ValueType),
      Expr.infer scope (.power base exponent) = .ok t ↔
        (∃ u, exponent.infer scope = .ok u) ∧ base.infer scope = .ok t) ∧
    (∀ (g : ExprSite) (base exponent : Expr) (w w' : Workbench) (l : LocalId) (t : ValueType),
      g.generate (.power base exponent) w = .ok (l, t) w' →
        ∃ b w1, g.generate base w = .ok (b, t) w1) ∧
    ∀ (c : TypeContext) (x : TypeFact) (call : Invocation) (base : LocalId),
      call.dispatch ≠ .static → call.base = some base → call.method.name = "pow" →
        c.callResult? x call = some (x.local_ base) := by
  refine ⟨?_, fun _ => Value.pow_type_leq_iff h, Value.pow_type h,
    fun _ _ _ _ => Expr.infer_power_eq_ok, fun _ _ _ _ _ _ _ => ExprSite.type_of_generate_power,
    fun c x _ _ => TypeContext.callResult?_pow c x⟩
  have hself : v.type.leq v.type :=
    ValueType.leq_refl (ValueType.isCanonical_of_isScalar (Value.pow_isScalar h).1)
  rw [Value.pow_type_leq_iff h hself]
  by_cases hn : n < 0
  · rw [Value.double_leq_of_pow_neg hn h]
  · simp [Int32.not_lt.1 hn]

theorem power_keeps_type_of_cube :
    (Value.int 3).pow 3 = .ok (.int 27) ∧ (Value.int 27).type.leq (Value.int 3).type :=
  have h : (Value.int 3).pow 3 = .ok (.int 27) := rfl
  ⟨h, (power_keeps_type_iff h).1.2 (.inl (by decide))⟩

/-- A half, as a power of two, is no integer, but two is one to inference. -/
theorem power_leaves_type_of_half :
    ∃ r, (Value.int 2).pow (-1) = .ok r ∧ r.type.leq (Value.int 2).type = false ∧
      Expr.infer (fun _ => none) (.power (.literal (.int 2)) (.literal (.int (-1)))) = .ok .int :=
  ⟨_, rfl, rfl, rfl⟩
end DataflowSpecializer
