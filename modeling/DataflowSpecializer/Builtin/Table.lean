import DataflowSpecializer.Builtin.Carrier
import DataflowSpecializer.Value.Arithmetic

/-! # Builtins -/
namespace DataflowSpecializer
open Platform
inductive CallForm where
  | function
  | method
deriving DecidableEq, Repr

def CallForm.name : CallForm → String
  | .function => "Function"
  | .method => "Method"

inductive CallTarget where
  | static (className method : String)
  /-- A method of the first argument. -/
  | virtual (method : String)
deriving DecidableEq, Repr

def CallTarget.render : CallTarget → String
  | .static className method =>
    "Static \x7b class: " ++ Text.quote className ++ ", method: " ++ Text.quote method ++ " \x7d"
  | .virtual method => "Virtual \x7b method: " ++ Text.quote method ++ " \x7d"

inductive ResultRule where
  /-- The type of the boxed result. -/
  | fixed
  /-- The join of the argument types. -/
  | joinArgs
  /-- The element type of the first argument. -/
  | elementOfFirst
  /-- An array of the second argument's type. -/
  | arrayOfSecond
deriving DecidableEq, Repr

structure Builtin where
  name : String
  form : CallForm
  params : List Carrier
  result : Carrier
  rule : ResultRule
  target : CallTarget
  /-- The value of a call on constant arguments. -/
  evaluate : List Value → Outcome

namespace Builtin
/-! ### Evaluation -/
def doubleArg (name : String) (args : List Value) (i : Nat) : Except EvalError Float :=
  match args[i]?.bind Value.toDouble? with
  | some x => .ok x
  | none => .error (.notNumeric name i)

def evalReal (name : String) (f : Float → Float) (args : List Value) : Outcome :=
  do
    let x ← doubleArg name args 0
    return .double (f x)

def evalReal2 (name : String) (f : Float → Float → Float) (args : List Value) :
    Outcome := do
  let x ← doubleArg name args 0
  let y ← doubleArg name args 1
  return .double (f x y)

def evalNone (name : String) (_ : List Value) : Outcome :=
  .error (.noConstantValue name)

def evalAbs : List Value → Outcome
  | [x] => x.absolute
  | _ => .error (.unexpectedArguments "abs" "one argument")

def evalRound (args : List Value) : Outcome := do
  let x ← doubleArg "round" args 0
  return .long (Number.roundHalfUp x)

/-- Of two equal arguments the first is taken. -/
def evalMin : List Value → Outcome
  | [a, b] => do
    let less ← b.isLessThan a
    (if less.toBool? = some true then b else a).convert (a.type.lub b.type)
  | _ => .error (.unexpectedArguments "min" "two arguments")

@[inherit_doc evalMin]
def evalMax : List Value → Outcome
  | [a, b] => do
    let less ← a.isLessThan b
    (if less.toBool? = some true then b else a).convert (a.type.lub b.type)
  | _ => .error (.unexpectedArguments "max" "two arguments")

def evalSum : List Value → Outcome
  | [.array _ []] => .ok (.int 0)
  | [.array _ (first :: rest)] => rest.foldlM Value.add first
  | _ => .error (.unexpectedArguments "sum" "an array")

def maxElements : Nat := 1048576

def elementCount (what : String) (rows cols : Int32) : Except EvalError Nat :=
  if rows < 0 ∨ cols < 0 then .error (.negativeDimension what)
  else
    let n := rows.toInt.toNat * cols.toInt.toNat
    if n ≤ maxElements then .ok n else .error (.tooManyElements what rows cols maxElements)

def intArg (builtin arg : String) (v : Value) : Except EvalError Int32 :=
  match v.toInt? with
  | some n => .ok n
  | none => .error (.notAnInt builtin arg)

def evalRepeat : List Value → Outcome
  | [count, value] => do
    let n ← intArg "repeat" "count" count
    if n < 0 then throw (.negativeCount "repeat" n)
    let n ← elementCount "repeat" n 1
    return .arrayOf (List.replicate n value)
  | _ => .error (.unexpectedArguments "repeat" "two arguments")

def evalZeroMatrix : List Value → Outcome
  | [rows, cols] => do
    let rows ← intArg "zeroMatrix" "rows" rows
    let cols ← intArg "zeroMatrix" "cols" cols
    let n ← elementCount "zeroMatrix" rows cols
    return .matrix .double rows.toInt.toNat cols.toInt.toNat (List.replicate n (.double 0.0))
  | _ => .error (.unexpectedArguments "zeroMatrix" "two arguments")

def evalConjugate : List Value → Outcome
  | [x] => do
    match ← x.convert .complex with
    | .complex re im => return .complex re (-im)
    | v => throw (.cannotConvert v.type .complex)
  | _ => .error (.unexpectedArguments "conjugate" "one argument")

def evalLength : List Value → Outcome
  | [x] => x.length
  | _ => .error (.unexpectedArguments "length" "a receiver")

def evalToString : List Value → Outcome
  | [x] => .ok (.string x.render)
  | _ => .error (.unexpectedArguments "toString" "a receiver")

def evalArith (op : ArithOp) : List Value → Outcome
  | [a, b] => a.arith op b
  | _ => .error (.unexpectedArguments op.name "one argument")

/-! ### The table -/
def function (name : String) (params : List Carrier) (result : Carrier) (className : String)
    (evaluate : List Value → Outcome) : Builtin :=
  ⟨name, .function, params, result, .fixed, .static className name, evaluate⟩

def real (name : String) (f : Float → Float) : Builtin :=
  function name [.double] .double math (evalReal name f)

def real2 (name : String) (f : Float → Float → Float) : Builtin :=
  function name [.double, .double] .double math (evalReal2 name f)

def method (name : String) (params : List Carrier) (result : Carrier) (rule : ResultRule)
    (evaluate : List Value → Outcome) : Builtin :=
  ⟨name, .method, params, result, rule, .virtual name, evaluate⟩

def arithmetic (op : ArithOp) : Builtin :=
  method op.name [.token, .token] .token .joinArgs (evalArith op)

/-- Every builtin; the first entry that fits a call is taken. -/
def table : List Builtin :=
  [real "sin" Float.sin, real "cos" Float.cos, real "tan" Float.tan, real "asin" Float.asin,
    real "acos" Float.acos, real "atan" Float.atan, real "exp" Float.exp, real "log" Float.log,
    real "log10" Float.log10, real "sqrt" Float.sqrt, real "floor" Float.floor,
    real "ceil" Float.ceil, real2 "atan2" Float.atan2, real2 "pow" Float.pow,
    function "abs" [.int] .int math evalAbs,
    function "abs" [.long] .long math evalAbs,
    function "abs" [.double] .double math evalAbs,
    function "round" [.double] .long math evalRound,
    function "min" [.int, .int] .int math evalMin,
    function "min" [.long, .long] .long math evalMin,
    function "min" [.double, .double] .double math evalMin,
    function "max" [.int, .int] .int math evalMax,
    function "max" [.long, .long] .long math evalMax,
    function "max" [.double, .double] .double math evalMax,
    function "conjugate" [.complex] .complex utilityFunctions evalConjugate,
    function "fix" [.double, .int, .int] .fix utilityFunctions (evalNone "fix"),
    function "zeroMatrix" [.int, .int] .doubleMatrix utilityFunctions evalZeroMatrix,
    function "transpose" [.doubleMatrix] .doubleMatrix utilityFunctions (evalNone "transpose"),
    { function "sum" [.tokenArray] .token utilityFunctions evalSum with
      rule := .elementOfFirst },
    { function "repeat" [.int, .token] .array utilityFunctions evalRepeat with
      rule := .arrayOfSecond },
    method "length" [.array] .int .fixed evalLength,
    method "toString" [.token] .string .fixed evalToString,
    arithmetic .add, arithmetic .subtract, arithmetic .multiply, arithmetic .divide]

def accepts (b : Builtin) (form : CallForm) (args : List ValueType) : Bool :=
  b.form == form && b.params.length == args.length &&
    (b.params.zip args).all fun (k, t) => k.accepts t

def lookup? (name : String) (form : CallForm) (args : List ValueType) : Option Builtin :=
  table.find? fun b => b.name == name && b.accepts form args

def isKnown (name : String) : Bool := table.any fun b => b.name == name

def needsInterpreter (name : String) : Bool := name == "eval" || name == "matlab"

def resultType (b : Builtin) (args : List ValueType) : ValueType :=
  match b.rule with
  | .fixed => b.result.valueType
  | .joinArgs =>
    match args with
    | [] => .unknown
    | t :: ts => ts.foldl ValueType.lub t
  | .elementOfFirst => (args.head?.bind ValueType.element?).getD .general
  | .arrayOfSecond => .array (args[1]?.getD .general)

def signature (b : Builtin) : String :=
  b.name ++ "([" ++ ", ".intercalate (b.params.map Carrier.name) ++ "]) -> " ++ b.result.name

def fingerprint : String :=
  String.join (table.map fun b =>
    b.form.name ++ " " ++ b.signature ++ " " ++ b.target.render ++ "\n")

def constant? : String → Option Value
  | "PI" | "pi" => some (.double 3.141592653589793)
  | "E" | "e" => some (.double 2.718281828459045)
  | "i" | "j" => some (.complex 0.0 1.0)
  | "Infinity" => some (.double Number.infinity)
  | "NaN" => some (.double Number.notANumber)
  | "MaxInt" => some (.int Int32.maxValue)
  | "MinInt" => some (.int Int32.minValue)
  | _ => none
end Builtin

structure CallMemo where
  entries : List ((String × CallForm × List ValueType) × Option Builtin)
  hits : Nat

namespace CallMemo
def empty : CallMemo := ⟨[], 0⟩

def resolve (memo : CallMemo) (name : String) (form : CallForm) (args : List ValueType) :
    Option Builtin × CallMemo :=
  match memo.entries.lookup (name, form, args) with
  | some found => (found, { memo with hits := memo.hits + 1 })
  | none =>
    let found := Builtin.lookup? name form args
    (found, { memo with entries := ((name, form, args), found) :: memo.entries })
end CallMemo
end DataflowSpecializer
