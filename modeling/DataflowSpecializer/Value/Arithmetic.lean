import DataflowSpecializer.Value.Basic

/-! # Operations on values -/
namespace DataflowSpecializer
/-- Integer division that refuses a zero divisor and a quotient out of range. -/
def dividesInt32 (x y : Int32) : Bool := y ≠ 0 && !(x = Int32.minValue && y = -1)

@[inherit_doc dividesInt32]
def dividesInt64 (x y : Int64) : Bool := y ≠ 0 && !(x = Int64.minValue && y = -1)

namespace ArithOp
def onUInt8 (op : ArithOp) (x y : UInt8) : Except EvalError UInt8 :=
  match op with
  | .add => .ok (x + y)
  | .subtract => .ok (x - y)
  | .multiply => .ok (x * y)
  | .divide => if y ≠ 0 then .ok (x / y) else .error .divisionByZero
  | .modulo => if y ≠ 0 then .ok (x % y) else .error .divisionByZero

def onInt32 (op : ArithOp) (x y : Int32) : Except EvalError Int32 :=
  match op with
  | .add => .ok (x + y)
  | .subtract => .ok (x - y)
  | .multiply => .ok (x * y)
  | .divide => if dividesInt32 x y then .ok (x / y) else .error .divisionByZero
  | .modulo => if dividesInt32 x y then .ok (x % y) else .error .divisionByZero

def onInt64 (op : ArithOp) (x y : Int64) : Except EvalError Int64 :=
  match op with
  | .add => .ok (x + y)
  | .subtract => .ok (x - y)
  | .multiply => .ok (x * y)
  | .divide => if dividesInt64 x y then .ok (x / y) else .error .divisionByZero
  | .modulo => if dividesInt64 x y then .ok (x % y) else .error .divisionByZero

def onFloat (op : ArithOp) (x y : Float) : Float :=
  match op with
  | .add => x + y
  | .subtract => x - y
  | .multiply => x * y
  | .divide => x / y
  | .modulo => Number.remainder x y

def onComplex (op : ArithOp) (a b c d : Float) : Outcome :=
  match op with
  | .add => .ok (.complex (a + c) (b + d))
  | .subtract => .ok (.complex (a - c) (b - d))
  | .multiply => .ok (.complex (a * c - b * d) (a * d + b * c))
  | .divide =>
    let denominator := c * c + d * d
    .ok (.complex ((a * c + b * d) / denominator) ((b * c - a * d) / denominator))
  | .modulo => .error .complexModulo
end ArithOp

namespace BitOp
def onBool : BitOp → Bool → Bool → Bool
  | .and, x, y => x && y
  | .or, x, y => x || y
  | .xor, x, y => x != y

def onUInt8 : BitOp → UInt8 → UInt8 → UInt8
  | .and, x, y => x &&& y
  | .or, x, y => x ||| y
  | .xor, x, y => x ^^^ y

def onInt32 : BitOp → Int32 → Int32 → Int32
  | .and, x, y => x &&& y
  | .or, x, y => x ||| y
  | .xor, x, y => x ^^^ y

def onInt64 : BitOp → Int64 → Int64 → Int64
  | .and, x, y => x &&& y
  | .or, x, y => x ||| y
  | .xor, x, y => x ^^^ y
end BitOp

/-! ### Shifts

The distance counts modulo the width of the operand. -/
namespace ShiftOp
def onUInt8 (op : ShiftOp) (x : UInt8) (distance : Int32) : UInt8 :=
  match op with
  | .left => x <<< distance.toUInt32.toUInt8
  | .right | .logicalRight => x >>> distance.toUInt32.toUInt8

def onInt32 (op : ShiftOp) (x distance : Int32) : Int32 :=
  match op with
  | .left => x <<< distance
  | .right => x >>> distance
  | .logicalRight => (x.toUInt32 >>> distance.toUInt32).toInt32

def onInt64 (op : ShiftOp) (x : Int64) (distance : Int32) : Int64 :=
  match op with
  | .left => x <<< distance.toInt64
  | .right => x >>> distance.toInt64
  | .logicalRight => (x.toUInt64 >>> distance.toInt64.toUInt64).toInt64
end ShiftOp

namespace Value
/-! ### Arithmetic -/
def unify (a b : Value) : Except EvalError (Value × Value) := do
  let t := a.type.lub b.type
  let a ← a.convert t
  let b ← b.convert t
  return (a, b)

def scalarArith (op : ArithOp) (a b : Value) : Outcome := do
  match ← unify a b with
  | (.ubyte x, .ubyte y) => return .ubyte (← op.onUInt8 x y)
  | (.int x, .int y) => return .int (← op.onInt32 x y)
  | (.long x, .long y) => return .long (← op.onInt64 x y)
  | (.double x, .double y) => return .double (op.onFloat x y)
  | (.complex x y, .complex z w) => op.onComplex x y z w
  | (.string x, .string y) =>
    if op = .add then return .string (x ++ y)
    else throw (.undefinedBetween op a.type b.type)
  | _ => throw (.undefinedBetween op a.type b.type)

mutual

def spreadLeft (op : ArithOp) (a : Value) : Value → Outcome
  | .array _ values => (spreadLeftList op a values).map arrayOf
  | b => scalarArith op a b

def spreadLeftList (op : ArithOp) (a : Value) : List Value → Except EvalError (List Value)
  | [] => .ok []
  | b :: bs => do
    let c ← spreadLeft op a b
    let cs ← spreadLeftList op a bs
    return c :: cs
end

mutual

def arith (op : ArithOp) (a b : Value) : Outcome :=
  match a with
  | .array element as =>
    match b with
    | .array _ bs =>
      if as.length = bs.length then (arithZip op as bs).map arrayOf
      else .error (.lengthsDiffer op as.length bs.length)
    | b =>
      if b.type.isScalar then (spreadRight op as b).map arrayOf
      else scalarArith op (.array element as) b
  | .matrix element rows cols as =>
    match b with
    | .matrix t rows' cols' bs =>
      if op = .add ∨ op = .subtract then
        if rows = rows' ∧ cols = cols' then (arithZip op as bs).map (matrixOf rows cols)
        else .error (.dimensionsDiffer op)
      else scalarArith op (.matrix element rows cols as) (.matrix t rows' cols' bs)
    | b => scalarArith op (.matrix element rows cols as) b
  | a => if a.type.isScalar then spreadLeft op a b else scalarArith op a b

def arithZip (op : ArithOp) : List Value → List Value → Except EvalError (List Value)
  | a :: as, b :: bs => do
    let c ← arith op a b
    let cs ← arithZip op as bs
    return c :: cs
  | _, _ => .ok []

def spreadRight (op : ArithOp) : List Value → Value → Except EvalError (List Value)
  | [], _ => .ok []
  | a :: as, b => do
    let c ← arith op a b
    let cs ← spreadRight op as b
    return c :: cs
end

def add : Value → Value → Outcome := arith .add
def subtract : Value → Value → Outcome := arith .subtract
def multiply : Value → Value → Outcome := arith .multiply
def divide : Value → Value → Outcome := arith .divide
def modulo : Value → Value → Outcome := arith .modulo

mutual

def negate : Value → Outcome
  | .ubyte n => .ok (.ubyte (-n))
  | .int n => .ok (.int (-n))
  | .long n => .ok (.long (-n))
  | .double x => .ok (.double (-x))
  | .complex re im => .ok (.complex (-re) (-im))
  | .array _ values => (negateList values).map arrayOf
  | v => .error (.undefinedOn .negation v.type)

def negateList : List Value → Except EvalError (List Value)
  | [] => .ok []
  | v :: vs => do
    let w ← negate v
    let ws ← negateList vs
    return w :: ws
end

def one (v : Value) : Outcome :=
  match v.type with
  | .ubyte => .ok (.ubyte 1)
  | .int => .ok (.int 1)
  | .long => .ok (.long 1)
  | .double => .ok (.double 1.0)
  | .complex => .ok (.complex 1.0 0.0)
  | t => .error (.undefinedOn .one t)

def zero (v : Value) : Outcome := do
  subtract (← one v) (← one v)

def multiplyTimes (v : Value) : Nat → Value → Outcome
  | 0, acc => .ok acc
  | n + 1, acc =>
    match multiply acc v with
    | .ok acc => multiplyTimes v n acc
    | .error e => .error e

def pow (v : Value) (times : Int32) : Outcome :=
  if times < 0 then
    match v.toDouble? with
    | some x => .ok (.double (Number.powerInt x times.toInt))
    | none => .error .negativeExponent
  else
    match one v with
    | .ok unit => multiplyTimes v times.toInt.toNat unit
    | .error e => .error e

/-- The magnitude; that of a complex number is a double. -/
def absolute : Value → Outcome
  | .ubyte n => .ok (.ubyte n)
  | .int n => .ok (.int (if n < 0 then -n else n))
  | .long n => .ok (.long (if n < 0 then -n else n))
  | .double x => .ok (.double x.abs)
  | .complex re im => .ok (.double (Number.hypotenuse re im))
  | v => .error (.undefinedOn .absolute v.type)

def isEqualTo (a b : Value) : Value :=
  match unify a b with
  | .ok (a, b) => .boolean (a == b)
  | .error _ => .boolean false

def isLessThan (a b : Value) : Outcome := do
  match ← unify a b with
  | (.ubyte x, .ubyte y) => return .boolean (x < y)
  | (.int x, .int y) => return .boolean (x < y)
  | (.long x, .long y) => return .boolean (x < y)
  | (.double x, .double y) => return .boolean (x < y)
  | _ => throw (.undefinedOn .ordering (a.type.lub b.type))

def not : Value → Outcome
  | .boolean b => .ok (.boolean !b)
  | v => .error (.undefinedOn .logicalNot v.type)

def bitwise (op : BitOp) (a b : Value) : Outcome := do
  match ← unify a b with
  | (.boolean x, .boolean y) => return .boolean (op.onBool x y)
  | (.ubyte x, .ubyte y) => return .ubyte (op.onUInt8 x y)
  | (.int x, .int y) => return .int (op.onInt32 x y)
  | (.long x, .long y) => return .long (op.onInt64 x y)
  | _ => throw (.undefinedOn .bitwise (a.type.lub b.type))

def bitwiseNot : Value → Outcome
  | .ubyte n => .ok (.ubyte (~~~n))
  | .int n => .ok (.int (~~~n))
  | .long n => .ok (.long (~~~n))
  | v => .error (.undefinedOn .bitwiseNot v.type)

def shift (op : ShiftOp) (distance : Int32) : Value → Outcome
  | .int n => .ok (.int (op.onInt32 n distance))
  | .long n => .ok (.long (op.onInt64 n distance))
  | .ubyte n => .ok (.ubyte (op.onUInt8 n distance))
  | v => .error (.undefinedOn .shift v.type)

def element (v : Value) (index : Int32) : Outcome :=
  match v with
  | .array _ values =>
    match if index < 0 then none else values[index.toInt.toNat]? with
    | some e => .ok e
    | none => .error (.arrayIndex index)
  | v => .error (.notAnArray v.type)

def matrixElement (v : Value) (row col : Int32) : Outcome :=
  match v with
  | .matrix _ rows cols values =>
    let (r, c) := (row.toInt.toNat, col.toInt.toNat)
    if row < 0 ∨ col < 0 ∨ rows ≤ r ∨ cols ≤ c then .error (.matrixIndex row col)
    else
      match values[r * cols + c]? with
      | some e => .ok e
      | none => .error (.matrixIndex row col)
  | v => .error (.notAMatrix v.type)

def field (v : Value) (label : String) : Outcome :=
  match v with
  | .record fields =>
    match fields.lookup label with
    | some e => .ok e
    | none => .error (.noField label)
  | v => .error (.notARecord v.type)

def length : Value → Outcome
  | .array _ values => .ok (.int (Int32.ofNat values.length))
  | .string s => .ok (.int (Int32.ofNat s.length))
  | v => .error (.undefinedOn .length v.type)
end Value
end DataflowSpecializer
