import Mathlib.Tactic.Common
import DataflowSpecializer.Code.Fold
import DataflowSpecializer.Reduce.Boxing

/-! # Arithmetic without boxes

Arithmetic on boxed numbers is replaced by the operation of the machine on their contents, read with
the accessor of the joined type.
-/
namespace DataflowSpecializer
open BinaryOp
/-! ## Division -/
namespace ArithOp
def native : ArithOp → BinaryOp
  | .add => .add
  | .subtract => .sub
  | .multiply => .mul
  | .divide => .div
  | .modulo => .rem

lemma arithmetic?_name (op : ArithOp) : Boxing.arithmetic? op.name = some op.native := by
  cases op <;> rfl

/-- The quotient does not fit the type. -/
def Overflows (op : ArithOp) : Constant → Constant → Prop
  | .int x, .int y => (op = .divide ∨ op = .modulo) ∧ x = Int32.minValue ∧ y = -1
  | .long x, .long y => (op = .divide ∨ op = .modulo) ∧ x = Int64.minValue ∧ y = -1
  | _, _ => False
end ArithOp

lemma dividesInt32_iff (x y : Int32) :
    (dividesInt32 x y ↔ ¬y = 0) ↔ ¬(x = Int32.minValue ∧ y = -1) := by
  have hone : y = -1 → ¬y = 0 := by rintro rfl; decide
  by_cases hx : x = Int32.minValue <;> by_cases hy : y = -1 <;> by_cases h0 : y = 0 <;>
    simp_all [dividesInt32]

lemma dividesInt64_iff (x y : Int64) :
    (dividesInt64 x y ↔ ¬y = 0) ↔ ¬(x = Int64.minValue ∧ y = -1) := by
  have hone : y = -1 → ¬y = 0 := by rintro rfl; decide
  by_cases hx : x = Int64.minValue <;> by_cases hy : y = -1 <;> by_cases h0 : y = 0 <;>
    simp_all [dividesInt64]

lemma toOption_ite_eq_iff {α ε : Type} [Decidable p] [Decidable q] (n : α) (e : ε) :
    (if p then Except.ok n else Except.error e : Except ε α).toOption =
      (if q then none else some n) ↔ (p ↔ ¬q) := by
  by_cases hp : p <;> by_cases hq : q <;> simp [hp, hq, Except.toOption]

namespace ArithOp
lemma onInt32_eq_iff (op : ArithOp) (x y : Int32) :
    (op.onInt32 x y).toOption = op.native.onInt32? x y ↔ ¬op.Overflows (.int x) (.int y) := by
  cases op with
  | add | subtract | multiply => simp [onInt32, native, onInt32?, Overflows, Except.toOption]
  | divide | modulo =>
    refine (toOption_ite_eq_iff _ _).trans ((dividesInt32_iff x y).trans ?_)
    simp [Overflows]

lemma onInt64_eq_iff (op : ArithOp) (x y : Int64) :
    (op.onInt64 x y).toOption = op.native.onInt64? x y ↔ ¬op.Overflows (.long x) (.long y) := by
  cases op with
  | add | subtract | multiply => simp [onInt64, native, onInt64?, Overflows, Except.toOption]
  | divide | modulo =>
    refine (toOption_ite_eq_iff _ _).trans ((dividesInt64_iff x y).trans ?_)
    simp [Overflows]
end ArithOp

namespace Boxing
/-- The folded constant is the outcome of the boxed call. -/
def Agrees (outcome : Outcome) (className : String) (folded : Option Constant) :
    Prop :=
  (∀ r, outcome = .ok r ↔ ∃ c, folded = some c ∧ literal? className c = some r) ∧
    ((∃ e, outcome = .error e) ↔ folded = none)

lemma agrees_map_iff {α : Type} {box : α → Value} {write : α → Constant} {className : String}
    (hbox : ∀ n, literal? className (write n) = some (box n)) (hinj : ∀ n k, box n = box k → n = k)
    (x : Except EvalError α) (y : Option α) :
    Agrees (x.map box) className (y.map write) ↔ x.toOption = y := by
  cases x with
  | error e =>
    cases y with
    | none | some k => simp [Agrees, Except.map, Except.toOption]
  | ok n =>
    cases y with
    | none => simp [Agrees, Except.map, Except.toOption]
    | some k =>
      constructor
      · intro h
        obtain ⟨c, hc, hn⟩ := (h.1 (box n)).1 rfl
        cases hc
        rw [hbox] at hn
        exact congrArg some (hinj n k (Option.some.inj hn).symm)
      · intro h
        cases h
        refine ⟨fun r => ?_, by simp [Except.map]⟩
        simp [Except.map, hbox]

inductive Operands (a b : Value) : ValueType → Constant → Constant → Prop where
  | int {x y : Int32} (h : ∀ op, a.arith op b = (op.onInt32 x y).map .int) :
      Operands a b .int (.int x) (.int y)
  | long {x y : Int64} (h : ∀ op, a.arith op b = (op.onInt64 x y).map .long) :
      Operands a b .long (.long x) (.long y)
  | double {x y : Float} (h : ∀ op, a.arith op b = .ok (.double (op.onFloat x y))) :
      Operands a b .double (.double x) (.double y)

variable {a b : Value}

lemma exists_operands (ha : a.type.isNativeNumeric) (hb : b.type.isNativeNumeric)
    (ht : (a.type.lub b.type).isNativeNumeric) :
    ∃ accessor ca cb, (a.type.lub b.type).nativeAccessor? = some accessor ∧
      content? accessor a = some ca ∧ content? accessor b = some cb ∧
      Operands a b (a.type.lub b.type) ca cb := by
  cases a with
  | int x =>
    cases b with
    | int y => exact ⟨_, _, _, rfl, rfl, rfl, .int fun _ => rfl⟩
    | long y => exact ⟨_, _, _, rfl, rfl, rfl, .long fun _ => rfl⟩
    | double y => exact ⟨_, _, _, rfl, rfl, rfl, .double fun _ => rfl⟩
    | _ => cases hb
  | long x =>
    cases b with
    | int y | long y => exact ⟨_, _, _, rfl, rfl, rfl, .long fun _ => rfl⟩
    -- Not every long is a double, so that these two are joined as texts.
    | double y => cases ht
    | _ => cases hb
  | double x =>
    cases b with
    | int y | double y => exact ⟨_, _, _, rfl, rfl, rfl, .double fun _ => rfl⟩
    | long y => cases ht
    | _ => cases hb
  | _ => cases ha

namespace Operands
variable {t : ValueType} {ca cb : Constant}

lemma agrees_iff (h : Operands a b t ca cb) (op : ArithOp) :
    Agrees (a.arith op b) t.valueClass (op.native.fold? ca cb) ↔ ¬op.Overflows ca cb := by
  cases h with
  | @int x y h =>
    have hfold : op.native.fold? (.int x) (.int y) = (op.native.onInt32? x y).map .int := by
      cases op <;> rfl
    rw [h, hfold, agrees_map_iff (fun _ => rfl) fun _ _ => Value.int.inj]
    exact op.onInt32_eq_iff x y
  | @long x y h =>
    have hfold : op.native.fold? (.long x) (.long y) = (op.native.onInt64? x y).map .long := by
      cases op <;> rfl
    rw [h, hfold, agrees_map_iff (fun _ => rfl) fun _ _ => Value.long.inj]
    exact op.onInt64_eq_iff x y
  | @double x y h =>
    have hfold : op.native.fold? (.double x) (.double y) = (some (op.onFloat x y)).map .double := by
      cases op <;> rfl
    have hmap : a.arith op b = (Except.ok (op.onFloat x y)).map .double := h op
    rw [hmap, hfold, agrees_map_iff (fun _ => rfl) fun _ _ => Value.double.inj]
    simp [Except.toOption, ArithOp.Overflows]

lemma of_overflows (h : Operands a b t ca cb) {op : ArithOp} (ho : op.Overflows ca cb) :
    a.arith op b = .error .divisionByZero ∧ ∃ c, op.native.fold? ca cb = some c ∧
        (op = .divide → c = ca) ∧ (op = .modulo → c = .int 0 ∨ c = .long 0) := by
  cases h with
  | int h =>
    obtain ⟨hop, rfl, rfl⟩ := ho
    rw [h]
    rcases hop with rfl | rfl
    · exact ⟨rfl, _, rfl, fun _ => rfl, by simp⟩
    · exact ⟨rfl, _, rfl, by simp, fun _ => .inl rfl⟩
  | long h =>
    obtain ⟨hop, rfl, rfl⟩ := ho
    rw [h]
    rcases hop with rfl | rfl
    · exact ⟨rfl, _, rfl, fun _ => rfl, by simp⟩
    · exact ⟨rfl, _, rfl, by simp, fun _ => .inr rfl⟩
  | double h => exact ho.elim
end Operands

/-- **Arithmetic on native numbers agrees with the operation on their contents except for a quotient
out of range.**  That one is refused by the values, and the machine wraps it around. -/
theorem unboxed_agrees_iff (ha : a.type.isNativeNumeric)
    (hb : b.type.isNativeNumeric) (ht : (a.type.lub b.type).isNativeNumeric)
    (op : ArithOp) : ∃ accessor ca cb bop, (a.type.lub b.type).nativeAccessor? = some accessor ∧
      content? accessor a = some ca ∧ content? accessor b = some cb ∧
      arithmetic? op.name = some bop ∧
      (Agrees (a.arith op b) (a.type.lub b.type).valueClass (bop.fold? ca cb) ↔
        ¬op.Overflows ca cb) ∧ (op.Overflows ca cb → a.arith op b = .error .divisionByZero ∧
        ∃ c, bop.fold? ca cb = some c ∧
          (op = .divide → c = ca) ∧ (op = .modulo → c = .int 0 ∨ c = .long 0)) := by
  obtain ⟨accessor, ca, cb, haccessor, hca, hcb, h⟩ := exists_operands ha hb ht
  exact ⟨accessor, ca, cb, op.native, haccessor, hca, hcb, op.arithmetic?_name,
    h.agrees_iff op, h.of_overflows⟩

theorem unboxed_agrees_of_quotient : (Value.int (-7)).arith .divide (.long 2) = .ok (.long (-3)) ∧
      ∃ c, fold? .div (.long (-7)) (.long 2) = some c ∧
        literal? ValueType.long.valueClass c = some (.long (-3)) := by
  obtain ⟨accessor, ca, cb, bop, haccessor, hca, hcb, hbop, hiff, -⟩ :=
    unboxed_agrees_iff (a := .int (-7)) (b := .long 2) rfl rfl rfl .divide
  cases haccessor
  cases hca
  cases hcb
  cases hbop
  exact ⟨rfl, ((hiff.2 fun h => absurd h.2.1 (by decide)).1 (.long (-3))).1 rfl⟩

/-- The least integer divided by -1. -/
theorem unboxed_differs_of_least :
    (Value.int Int32.minValue).arith .divide (.int (-1)) = .error .divisionByZero ∧
      content? "intValue" (.int Int32.minValue) = some (.int Int32.minValue) ∧
      content? "intValue" (.int (-1)) = some (.int (-1)) ∧
      fold? .div (.int Int32.minValue) (.int (-1)) = some (.int Int32.minValue) ∧
      literal? ValueType.int.valueClass (.int Int32.minValue) = some (.int Int32.minValue) :=
  ⟨rfl, rfl, rfl, rfl, rfl⟩
end Boxing
end DataflowSpecializer
