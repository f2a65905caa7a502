import Mathlib.Algebra.Group.Int.Defs
import Mathlib.Algebra.Group.Nat.Defs
import Mathlib.Tactic.Common
import DataflowSpecializer.Code.Fold

/-! # The arithmetic of the machine -/
namespace DataflowSpecializer
open BitVec
namespace BinaryOp
def onWhole? (op : BinaryOp) (width : Nat) (x y : Int) : Option Int :=
  match op with
  | .add => some (x + y)
  | .sub => some (x - y)
  | .mul => some (x * y)
  | .div => if y = 0 then none else some (x.tdiv y)
  | .rem => if y = 0 then none else some (x.tmod y)
  | .shl => some (x * 2 ^ (y % width).toNat)
  | .shr => some (x / 2 ^ (y % width).toNat)
  | .ushr => some (x % 2 ^ width / 2 ^ (y % width).toNat)
  | _ => none

def onBits? {w : Nat} (op : BinaryOp) (x y : BitVec w) : Option (BitVec w) :=
  match op with
  | .and => some (x &&& y)
  | .or => some (x ||| y)
  | .xor => some (x ^^^ y)
  | _ => none

def onWord32? (op : BinaryOp) (x y : Int32) : Option Int32 :=
  ((op.onWhole? 32 x.toInt y.toInt).map Int32.ofInt).or
    ((op.onBits? x.toBitVec y.toBitVec).map Int32.ofBitVec)

def onWord64? (op : BinaryOp) (x y : Int64) : Option Int64 :=
  if op ∈ [.shl, .shr, .ushr] then none
  else
    ((op.onWhole? 64 x.toInt y.toInt).map Int64.ofInt).or
      ((op.onBits? x.toBitVec y.toBitVec).map Int64.ofBitVec)

def shiftWord64? (op : BinaryOp) (x : Int64) (y : Int32) : Option Int64 :=
  if op ∈ [.shl, .shr, .ushr] then (op.onWhole? 64 x.toInt y.toInt).map Int64.ofInt else none

def comparesWhole? (op : BinaryOp) (x y : Int) : Option Bool :=
  match op with
  | .eq => some (x = y)
  | .ne => some (x ≠ y)
  | .lt => some (x < y)
  | .le => some (x ≤ y)
  | .gt => some (y < x)
  | .ge => some (y ≤ x)
  | _ => none

def comparesSame? (op : BinaryOp) (same : Bool) : Option Bool :=
  match op with
  | .eq => some same
  | .ne => some !same
  | _ => none

/-- What an operator yields on constants when code runs. Numbers of one type are combined and
compared, and booleans too, but these only for equality. -/
def compute? (op : BinaryOp) (a b : Constant) : Option Constant :=
  match a, b with
  | .int x, .int y =>
    ((op.comparesWhole? x.toInt y.toInt).map .bool).or ((op.onWord32? x y).map .int)
  | .long x, .long y =>
    ((op.comparesWhole? x.toInt y.toInt).map .bool).or ((op.onWord64? x y).map .long)
  | .long x, .int y => (op.shiftWord64? x y).map .long
  | .double x, .double y =>
    ((op.holds? (orderOfDoubles x y)).map .bool).or ((op.onDouble? x y).map .double)
  | .bool x, .bool y => ((op.comparesSame? (x == y)).map .bool).or ((op.onBool? x y).map .bool)
  | .null, .null => (op.comparesSame? true).map .bool
  | _, _ => none
end BinaryOp

namespace Constant
def negated? : Constant → Option Constant
  | .int n => some (.int (Int32.ofInt (-n.toInt)))
  | .long n => some (.long (Int64.ofInt (-n.toInt)))
  | .double x => some (.double (-x))
  | _ => none

def negation? : Constant → Option Constant
  | .bool true => some (.bool false)
  | .bool false => some (.bool true)
  | _ => none
end Constant

lemma toNat_smod (y n : BitVec w) (hn : 0 < n.toInt) :
    (y.smod n).toNat = (y.toInt % n.toInt).toNat := by
  have hmod : (y.smod n).toInt = y.toInt % n.toInt := by
    rw [toInt_smod, Int.fmod_eq_emod_of_nonneg _ (Int.le_of_lt hn)]
  have hnonneg : 0 ≤ (y.smod n).toInt := by
    rw [hmod]
    exact Int.emod_nonneg _ (Int.ne_of_gt hn)
  have hlt := (y.smod n).isLt
  rw [← hmod]
  rw [toInt_eq_toNat_cond] at hnonneg ⊢
  split at hnonneg
  · rename_i hsmall
    rw [if_pos hsmall, Int.toNat_natCast]
  · omega

lemma ofInt_mul_two_pow (x : BitVec w) (k : Nat) : BitVec.ofInt w (x.toInt * 2 ^ k) = x <<< k := by
  have hpow : BitVec.ofInt w (2 ^ k) = BitVec.twoPow w k := by
    apply eq_of_toNat_eq
    have hcast : (2 : Int) ^ k = ((2 ^ k : Nat) : Int) := by simp
    rw [hcast, ofInt_natCast, toNat_ofNat, toNat_twoPow]
  rw [ofInt_mul, ofInt_toInt, hpow, shiftLeft_eq_mul_twoPow]

lemma ofInt_div_two_pow (x : BitVec w) (k : Nat) :
    BitVec.ofInt w (x.toInt / 2 ^ k) = x.sshiftRight k := by
  have hshift : x.toInt / 2 ^ k = (x.sshiftRight k).toInt := by
    rw [toInt_sshiftRight, Int.shiftRight_eq_div_pow]
    simp
  rw [hshift, ofInt_toInt]

lemma ofInt_emod_div_two_pow (x : BitVec w) (k : Nat) :
    BitVec.ofInt w (x.toInt % 2 ^ w / 2 ^ k) = x >>> k := by
  have hcast : (2 : Int) ^ w = ((2 ^ w : Nat) : Int) := by simp
  have hunsigned : x.toInt % 2 ^ w = x.toNat := by
    rw [hcast, toInt_eq_toNat_bmod, Int.bmod_emod]
    exact Int.emod_eq_of_lt (by omega) (Int.ofNat_lt.2 x.isLt)
  have hshift : (x.toNat : Int) / 2 ^ k = ((x >>> k).toNat : Int) := by
    rw [toNat_ushiftRight, Nat.shiftRight_eq_div_pow]
    simp
  rw [hunsigned, hshift, ofInt_natCast, ofNat_toNat, setWidth_eq]

section Words
lemma shiftLeft_int32 (x y : Int32) :
    Int32.ofInt (x.toInt * 2 ^ (y.toInt % 32).toNat) = x <<< y := by
  rw [← Int32.toBitVec_inj]
  show _ = x.toBitVec <<< (y.toBitVec.smod 32).toNat
  rw [toNat_smod _ _ (by decide), ← ofInt_mul_two_pow]
  rfl

lemma shiftRight_int32 (x y : Int32) :
    Int32.ofInt (x.toInt / 2 ^ (y.toInt % 32).toNat) = x >>> y := by
  rw [← Int32.toBitVec_inj]
  show _ = x.toBitVec.sshiftRight (y.toBitVec.smod 32).toNat
  rw [toNat_smod _ _ (by decide), ← ofInt_div_two_pow]
  rfl

lemma toNat_emod_int32 (y : Int32) : (y.toInt % 32).toNat = y.toBitVec.toNat % 32 := by
  show (y.toBitVec.toInt % 32).toNat = _
  rw [toInt_eq_toNat_cond]
  split <;> omega

lemma logicalShiftRight_int32 (x y : Int32) :
    Int32.ofInt (x.toInt % 2 ^ 32 / 2 ^ (y.toInt % 32).toNat) =
      (x.toUInt32 >>> y.toUInt32).toInt32 := by
  rw [← Int32.toBitVec_inj]
  show _ = x.toBitVec >>> (y.toBitVec % 32#32).toNat
  rw [toNat_umod, toNat_emod_int32, ← ofInt_emod_div_two_pow]
  rfl

lemma shiftLeft_int64 (x : Int64) (y : Int32) :
    Int64.ofInt (x.toInt * 2 ^ (y.toInt % 64).toNat) = x <<< y.toInt64 := by
  rw [← Int64.toBitVec_inj]
  show _ = x.toBitVec <<< (y.toInt64.toBitVec.smod 64).toNat
  rw [toNat_smod _ _ (by decide), ← ofInt_mul_two_pow, ← Int32.toInt_toInt64 y]
  rfl

lemma shiftRight_int64 (x : Int64) (y : Int32) :
    Int64.ofInt (x.toInt / 2 ^ (y.toInt % 64).toNat) = x >>> y.toInt64 := by
  rw [← Int64.toBitVec_inj]
  show _ = x.toBitVec.sshiftRight (y.toInt64.toBitVec.smod 64).toNat
  rw [toNat_smod _ _ (by decide), ← ofInt_div_two_pow, ← Int32.toInt_toInt64 y]
  rfl

lemma toNat_emod_int64 (y : Int32) : (y.toInt % 64).toNat = y.toInt64.toBitVec.toNat % 64 := by
  rw [← Int32.toInt_toInt64 y]
  show (y.toInt64.toBitVec.toInt % 64).toNat = _
  rw [toInt_eq_toNat_cond]
  split <;> omega

lemma logicalShiftRight_int64 (x : Int64) (y : Int32) :
    Int64.ofInt (x.toInt % 2 ^ 64 / 2 ^ (y.toInt % 64).toNat) =
      (x.toUInt64 >>> y.toInt64.toUInt64).toInt64 := by
  rw [← Int64.toBitVec_inj]
  show _ = x.toBitVec >>> (y.toInt64.toBitVec % 64#64).toNat
  rw [toNat_umod, toNat_emod_int64, ← ofInt_emod_div_two_pow]
  rfl
end Words

namespace BinaryOp
variable (op : BinaryOp)

include op

lemma onWord32?_eq_onInt32? (x y : Int32) : op.onWord32? x y = op.onInt32? x y := by
  have hzero : y.toInt = 0 ↔ y = 0 := by rw [← Int32.toInt_inj]; rfl
  cases op with
  | add => simp [onWord32?, onWhole?, onInt32?, Int32.ofInt_add]
  | sub => simp [onWord32?, onWhole?, onInt32?, Int32.ofInt_sub]
  | mul => simp [onWord32?, onWhole?, onInt32?, Int32.ofInt_mul]
  | div =>
    have hdiv : Int32.ofInt (x.toInt.tdiv y.toInt) = x / y := by
      rw [← Int32.toInt_inj, Int32.toInt_div, Int32.toInt_ofInt]
    by_cases hy : y = 0 <;> simp [onWord32?, onWhole?, onBits?, onInt32?, hzero, hy, hdiv]
  | rem =>
    have hmod : Int32.ofInt (x.toInt.tmod y.toInt) = x % y := by
      rw [← Int32.toInt_mod, Int32.ofInt_toInt]
    by_cases hy : y = 0 <;> simp [onWord32?, onWhole?, onBits?, onInt32?, hzero, hy, hmod]
  | shl => exact congrArg some (shiftLeft_int32 x y)
  | shr => exact congrArg some (shiftRight_int32 x y)
  | ushr => exact congrArg some (logicalShiftRight_int32 x y)
  | and | or | xor | eq | ne | lt | le | gt | ge => rfl

lemma onWord64?_eq_onInt64? (x y : Int64) : op.onWord64? x y = op.onInt64? x y := by
  have hzero : y.toInt = 0 ↔ y = 0 := by rw [← Int64.toInt_inj]; rfl
  cases op with
  | add => simp [onWord64?, onWhole?, onInt64?, Int64.ofInt_add]
  | sub => simp [onWord64?, onWhole?, onInt64?, Int64.ofInt_sub]
  | mul => simp [onWord64?, onWhole?, onInt64?, Int64.ofInt_mul]
  | div =>
    have hdiv : Int64.ofInt (x.toInt.tdiv y.toInt) = x / y := by
      rw [← Int64.toInt_inj, Int64.toInt_div, Int64.toInt_ofInt]
    by_cases hy : y = 0 <;> simp [onWord64?, onWhole?, onBits?, onInt64?, hzero, hy, hdiv]
  | rem =>
    have hmod : Int64.ofInt (x.toInt.tmod y.toInt) = x % y := by
      rw [← Int64.toInt_mod, Int64.ofInt_toInt]
    by_cases hy : y = 0 <;> simp [onWord64?, onWhole?, onBits?, onInt64?, hzero, hy, hmod]
  | and | or | xor | shl | shr | ushr | eq | ne | lt | le | gt | ge => rfl

lemma shiftWord64?_eq_shiftInt64? (x : Int64) (y : Int32) :
    op.shiftWord64? x y = op.shiftInt64? x y := by
  cases op with
  | shl => exact congrArg some (shiftLeft_int64 x y)
  | shr => exact congrArg some (shiftRight_int64 x y)
  | ushr => exact congrArg some (logicalShiftRight_int64 x y)
  | _ => rfl

lemma holds?_of_whole (hlt : order = .lt ↔ x < y) (heq : order = .eq ↔ x = y) :
    op.holds? (some order) = op.comparesWhole? x y := by
  have hgt : order = .gt ↔ y < x := by cases order <;> simp_all <;> omega
  cases op <;> cases order <;> simp_all [holds?, comparesWhole?]

lemma holds?_compare_int32 (x y : Int32) :
    op.holds? (some (compare x y)) = op.comparesWhole? x.toInt y.toInt := by
  apply holds?_of_whole
  · rw [← Int32.lt_iff_toInt_lt]
    exact compareOfLessAndEq_eq_lt
  · rw [Int32.toInt_inj]
    exact Std.LawfulEqOrd.compare_eq_iff_eq

lemma holds?_compare_int64 (x y : Int64) :
    op.holds? (some (compare x y)) = op.comparesWhole? x.toInt y.toInt := by
  apply holds?_of_whole
  · rw [← Int64.lt_iff_toInt_lt]
    exact compareOfLessAndEq_eq_lt
  · rw [Int64.toInt_inj]
    exact Std.LawfulEqOrd.compare_eq_iff_eq

/-- **What is folded is what the machine would compute.** -/
theorem fold?_eq_compute? (a b : Constant) : op.fold? a b = op.compute? a b := by
  cases a with
  | int x =>
    cases b with
    | int y =>
      change (if op.isComparison then (op.holds? (some (compare x y))).map Constant.bool
        else (op.onInt32? x y).map Constant.int) =
        ((op.comparesWhole? x.toInt y.toInt).map .bool).or ((op.onWord32? x y).map .int)
      rw [holds?_compare_int32, onWord32?_eq_onInt32?]
      cases op <;> rfl
    | _ => cases op <;> rfl
  | long x =>
    cases b with
    | long y =>
      change (if op.isComparison then (op.holds? (some (compare x y))).map Constant.bool
        else (op.onInt64? x y).map Constant.long) =
        ((op.comparesWhole? x.toInt y.toInt).map .bool).or ((op.onWord64? x y).map .long)
      rw [holds?_compare_int64, onWord64?_eq_onInt64?]
      cases op <;> rfl
    | int y =>
      change op.fold? (.long x) (.int y) = (op.shiftWord64? x y).map .long
      rw [shiftWord64?_eq_shiftInt64?]
      cases op <;> rfl
    | _ => cases op <;> rfl
  | bool x =>
    cases b with
    | bool y => cases op <;> cases x <;> cases y <;> rfl
    | _ => cases op <;> rfl
  | double x | null | string s => cases b <;> cases op <;> rfl
end BinaryOp

namespace Constant
lemma negate?_eq_negated? (a : Constant) : a.negate? = a.negated? := by
  cases a with
  | int n => simp [negate?, negated?, Int32.ofInt_neg]
  | long n => simp [negate?, negated?, Int64.ofInt_neg]
  | _ => rfl

lemma not?_eq_negation? (a : Constant) : a.not? = a.negation? := by
  cases a with
  | bool b => cases b <;> rfl
  | _ => rfl
end Constant
end DataflowSpecializer
