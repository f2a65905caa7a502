import DataflowSpecializer.Code.Statement
import DataflowSpecializer.Value.Arithmetic

/-! # Operations on constants -/
namespace DataflowSpecializer
namespace BinaryOp
def holds? (op : BinaryOp) (order : Option Ordering) : Option Bool :=
  match op, order with
  | .eq, o => some (o == some .eq)
  | .ne, o => some (o != some .eq)
  | .lt, o => some (o == some .lt)
  | .le, o => some (o == some .lt || o == some .eq)
  | .gt, o => some (o == some .gt)
  | .ge, o => some (o == some .gt || o == some .eq)
  | _, _ => none

/-- The order of two doubles; a value that is not a number has none. -/
def orderOfDoubles (x y : Float) : Option Ordering :=
  if x < y then some .lt else if x > y then some .gt else if x == y then some .eq else none

def compare? (op : BinaryOp) (a b : Constant) : Option Bool :=
  match a, b with
  | .int x, .int y => op.holds? (some (compare x y))
  | .long x, .long y => op.holds? (some (compare x y))
  | .double x, .double y => op.holds? (orderOfDoubles x y)
  | .bool x, .bool y =>
    if op = .eq ∨ op = .ne then op.holds? (some (if x = y then .eq else .lt)) else none
  | .null, .null => if op = .eq ∨ op = .ne then op.holds? (some .eq) else none
  | _, _ => none

def onInt32? (op : BinaryOp) (x y : Int32) : Option Int32 :=
  match op with
  | .add => some (x + y)
  | .sub => some (x - y)
  | .mul => some (x * y)
  | .div => if y = 0 then none else some (x / y)
  | .rem => if y = 0 then none else some (x % y)
  | .and => some (x &&& y)
  | .or => some (x ||| y)
  | .xor => some (x ^^^ y)
  | .shl => some (ShiftOp.left.onInt32 x y)
  | .shr => some (ShiftOp.right.onInt32 x y)
  | .ushr => some (ShiftOp.logicalRight.onInt32 x y)
  | _ => none

def onInt64? (op : BinaryOp) (x y : Int64) : Option Int64 :=
  match op with
  | .add => some (x + y)
  | .sub => some (x - y)
  | .mul => some (x * y)
  | .div => if y = 0 then none else some (x / y)
  | .rem => if y = 0 then none else some (x % y)
  | .and => some (x &&& y)
  | .or => some (x ||| y)
  | .xor => some (x ^^^ y)
  | _ => none

def shiftInt64? (op : BinaryOp) (x : Int64) (distance : Int32) : Option Int64 :=
  match op with
  | .shl => some (ShiftOp.left.onInt64 x distance)
  | .shr => some (ShiftOp.right.onInt64 x distance)
  | .ushr => some (ShiftOp.logicalRight.onInt64 x distance)
  | _ => none

def onDouble? (op : BinaryOp) (x y : Float) : Option Float :=
  match op with
  | .add => some (x + y)
  | .sub => some (x - y)
  | .mul => some (x * y)
  | .div => some (x / y)
  | .rem => some (Number.remainder x y)
  | _ => none

def onBool? : BinaryOp → Bool → Bool → Option Bool
  | .and, x, y => some (x && y)
  | .or, x, y => some (x || y)
  | .xor, x, y => some (x ^^ y)
  | _, _, _ => none

def combine? (op : BinaryOp) (a b : Constant) : Option Constant :=
  match a, b with
  | .int x, .int y => (op.onInt32? x y).map .int
  | .long x, .long y => (op.onInt64? x y).map .long
  | .long x, .int y => (op.shiftInt64? x y).map .long
  | .double x, .double y => (op.onDouble? x y).map .double
  | .bool x, .bool y => (op.onBool? x y).map .bool
  | _, _ => none

def fold? (op : BinaryOp) (a b : Constant) : Option Constant :=
  if op.isComparison then (op.compare? a b).map .bool else op.combine? a b
end BinaryOp

namespace Constant
def negate? : Constant → Option Constant
  | .int n => some (.int (-n))
  | .long n => some (.long (-n))
  | .double x => some (.double (-x))
  | _ => none

def not? : Constant → Option Constant
  | .bool b => some (.bool (!b))
  | _ => none
end Constant
end DataflowSpecializer
