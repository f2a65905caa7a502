import DataflowSpecializer.Expression.Syntax
import DataflowSpecializer.Number
import DataflowSpecializer.Value.Error

/-! # Values -/
namespace DataflowSpecializer
inductive Value where
  | boolean (value : Bool)
  | ubyte (value : UInt8)
  | int (value : Int32)
  | long (value : Int64)
  | double (value : Float)
  | complex (re im : Float)
  | string (value : String)
  | array (element : ValueType) (values : List Value)
  /-- The values stand row by row. -/
  | matrix (element : ValueType) (rows cols : Nat) (values : List Value)
  | record (fields : List (String × Value))
  | function (params : List (String × Option ValueType)) (body : Expr)
      (captured : List (String × Value))
deriving Inhabited, Repr

/-- The value of an expression, or why there is none. -/
abbrev Outcome : Type := Except EvalError Value

namespace Value
mutual

def type : Value → ValueType
  | .boolean _ => .boolean
  | .ubyte _ => .ubyte
  | .int _ => .int
  | .long _ => .long
  | .double _ => .double
  | .complex _ _ => .complex
  | .string _ => .string
  | .array element _ => .array element
  | .matrix element _ _ _ => .matrix element
  | .record fields => .record (fieldTypes fields)
  | .function params _ _ => .function params.length

def fieldTypes : List (String × Value) → FieldTypes
  | [] => []
  | (label, v) :: fields => (label, type v) :: fieldTypes fields
end

def ofLiteral : Literal → Value
  | .boolean b => .boolean b
  | .ubyte n => .ubyte n
  | .int n => .int n
  | .long n => .long n
  | .double x => .double x
  | .string s => .string s

mutual

def beq : Value → Value → Bool
  | .boolean a, .boolean b => a == b
  | .ubyte a, .ubyte b => a == b
  | .int a, .int b => a == b
  | .long a, .long b => a == b
  | .double a, .double b => a == b
  | .complex a c, .complex b d => a == b && c == d
  | .string a, .string b => a == b
  | .array s as, .array t bs => s == t && beqList as bs
  | .matrix s r c as, .matrix t q d bs => s == t && r == q && c == d && beqList as bs
  | .record as, .record bs => beqFields as bs
  | .function ps a as, .function qs b bs => ps == qs && a == b && beqFields as bs
  | _, _ => false

def beqList : List Value → List Value → Bool
  | [], [] => true
  | a :: as, b :: bs => beq a b && beqList as bs
  | _, _ => false

def beqFields : List (String × Value) → List (String × Value) → Bool
  | [], [] => true
  | (l, a) :: as, (m, b) :: bs => l == m && beq a b && beqFields as bs
  | _, _ => false
end

instance : BEq Value := ⟨beq⟩

def renderRows (rows cols : Nat) (texts : List String) : String :=
  "; ".intercalate ((List.range rows).map fun r =>
    ", ".intercalate ((texts.drop (r * cols)).take cols))

mutual

def render : Value → String
  | .boolean b => if b then "true" else "false"
  | .ubyte n => toString n.toNat ++ "ub"
  | .int n => toString n.toInt
  | .long n => toString n.toInt ++ "L"
  | .double x => Number.showFloat x
  | .complex re im =>
    if im < 0.0 then Number.showFloat re ++ " - " ++ Number.showFloat (-im) ++ "i"
    else Number.showFloat re ++ " + " ++ Number.showFloat im ++ "i"
  | .string s => Text.quote s
  | .array _ values => "\x7b" ++ ", ".intercalate (renderList values) ++ "\x7d"
  | .matrix _ rows cols values => "[" ++ renderRows rows cols (renderList values) ++ "]"
  | .record fields => "\x7b" ++ ", ".intercalate (renderFields fields) ++ "\x7d"
  | .function params _ _ => "(function(" ++ ", ".intercalate (params.map (·.1)) ++ ") ...)"

def renderList : List Value → List String
  | [] => []
  | v :: vs => render v :: renderList vs

def renderFields : List (String × Value) → List String
  | [] => []
  | (label, v) :: fields => (label ++ " = " ++ render v) :: renderFields fields
end

def toBool? : Value → Option Bool
  | .boolean b => some b
  | _ => none

def toInt? : Value → Option Int32
  | .ubyte n => some (Int32.ofNat n.toNat)
  | .int n => some n
  | _ => none

def toLong? : Value → Option Int64
  | .ubyte n => some (Int64.ofNat n.toNat)
  | .int n => some n.toInt64
  | .long n => some n
  | _ => none

def toDouble? : Value → Option Float
  | .ubyte n => some n.toFloat
  | .int n => some n.toFloat
  | .double x => some x
  | _ => none

def widen? (v : Value) : ValueType → Option Value
  | .int => v.toInt?.map .int
  | .long => v.toLong?.map .long
  | .double => v.toDouble?.map .double
  | .complex => v.toDouble?.map fun re => .complex re 0.0
  | .string => some (.string v.render)
  | _ => none

mutual

/-- The value at type `t`. Only conversions without loss succeed; `general` and `unknown` take
every value as it is. -/
def convert (t : ValueType) (v : Value) : Outcome :=
  if v.type = t ∨ t = .general ∨ t = .unknown then .ok v
  else if v.type.leq t then
    match v with
    | .array _ values =>
      match t with
      | .array e => (convertList e values).map (.array e)
      | t => .error (.cannotConvert v.type t)
    | .matrix _ rows cols values =>
      match t with
      | .matrix e => (convertList e values).map (.matrix e rows cols)
      | t => .error (.cannotConvert v.type t)
    | v =>
      match v.widen? t with
      | some w => .ok w
      | none => .error (.cannotConvert v.type t)
  else .error (.cannotConvert v.type t)

def convertList (t : ValueType) : List Value → Except EvalError (List Value)
  | [] => .ok []
  | v :: vs =>
    match convert t v with
    | .error e => .error e
    | .ok w =>
      match convertList t vs with
      | .error e => .error e
      | .ok ws => .ok (w :: ws)
end

def convertIfPossible (t : ValueType) (v : Value) : Value :=
  match convert t v with
  | .ok w => w
  | .error _ => v

/-- The array of some values. Its element type is the join of theirs, and they are converted
to it. -/
def arrayOf (values : List Value) : Value :=
  let element := ValueType.lubAll (values.map type)
  .array element (values.map (convertIfPossible element))

@[inherit_doc arrayOf]
def matrixOf (rows cols : Nat) (values : List Value) : Value :=
  let element := ValueType.lubAll (values.map type)
  .matrix element rows cols (values.map (convertIfPossible element))

/-- The record with the given fields; of two with one label the later counts. -/
def recordOf (fields : List (String × Value)) : Value := .record (SortedMap.ofList fields).entries
end Value
end DataflowSpecializer
