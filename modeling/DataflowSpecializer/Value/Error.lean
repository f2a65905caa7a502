import DataflowSpecializer.Value.TypeName

/-! # Errors of evaluation -/
namespace DataflowSpecializer
inductive ArithOp where
  | add
  | subtract
  | multiply
  | divide
  | modulo
deriving DecidableEq, Repr

def ArithOp.name : ArithOp → String
  | .add => "add"
  | .subtract => "subtract"
  | .multiply => "multiply"
  | .divide => "divide"
  | .modulo => "modulo"

inductive PartialOp where
  | negation
  | one
  | absolute
  | ordering
  | logicalNot
  | bitwise
  | bitwiseNot
  | shift
  | length
deriving DecidableEq, Repr

def PartialOp.phrase : PartialOp → String
  | .negation => "negation is"
  | .one => "one is"
  | .absolute => "absolute is"
  | .ordering => "ordering is"
  | .logicalNot => "logical not is"
  | .bitwise => "bitwise operations are"
  | .bitwiseNot => "bitwise not is"
  | .shift => "shift is"
  | .length => "length is"

inductive EvalError where
  | cannotConvert (source target : ValueType)
  | undefinedOn (op : PartialOp) (type : ValueType)
  | undefinedBetween (op : ArithOp) (lhs rhs : ValueType)
  | divisionByZero
  | complexModulo
  | lengthsDiffer (op : ArithOp) (lhs rhs : Nat)
  | dimensionsDiffer (op : ArithOp)
  | negativeExponent
  | arrayIndex (index : Int32)
  | matrixIndex (row col : Int32)
  | notAnArray (type : ValueType)
  | notAMatrix (type : ValueType)
  | notARecord (type : ValueType)
  | noField (label : String)
  | memberOf (label : String) (type : ValueType)
  | undefinedIdentifier (name : String)
  | exponentNotInt (type : ValueType)
  | shiftNotInt (type : ValueType)
  | operandNotBoolean (type : ValueType)
  | conditionNotBoolean (type : ValueType)
  | emptyChain
  | arrayIndexNotInt
  | matrixRowNotInt
  | matrixColumnNotInt
  | argumentCount (expected given : Nat)
  | cannotApply (type : ValueType) (args : Nat)
  | needsInterpreter (name : String)
  | noFunction (name : String) (args : List ValueType)
  /-- Functions apply functions to each other without end. -/
  | tooDeep
  | notNumeric (builtin : String) (arg : Nat)
  | unexpectedArguments (builtin expected : String)
  | noConstantValue (builtin : String)
  | notAnInt (builtin arg : String)
  | negativeCount (builtin : String) (count : Int32)
  | negativeDimension (builtin : String)
  | tooManyElements (builtin : String) (rows cols : Int32) (limit : Nat)
deriving DecidableEq, Repr

def EvalError.message : EvalError → String
  | .cannotConvert source target => "cannot convert " ++ source.render ++ " to " ++ target.render
  | .undefinedOn op type => op.phrase ++ " not defined on " ++ type.render
  | .undefinedBetween op lhs rhs =>
    op.name ++ " is not defined between " ++ lhs.render ++ " and " ++ rhs.render
  | .divisionByZero => "division by zero"
  | .complexModulo => "modulo is not defined on complex"
  | .lengthsDiffer op m n =>
    "array lengths differ in " ++ op.name ++ ": " ++ toString m ++ " vs " ++ toString n
  | .dimensionsDiffer op => "matrix dimensions differ in " ++ op.name
  | .negativeExponent => "negative exponent on a non-numeric token"
  | .arrayIndex i => "array index " ++ toString i.toInt ++ " out of bounds"
  | .matrixIndex r c =>
    "matrix index (" ++ toString r.toInt ++ ", " ++ toString c.toInt ++ ") out of bounds"
  | .notAnArray type => "cannot index " ++ type.render
  | .notAMatrix type => "cannot index " ++ type.render ++ " as a matrix"
  | .notARecord type => type.render ++ " is not a record"
  | .noField label => "record has no field '" ++ label ++ "'"
  | .memberOf label type => "'." ++ label ++ "' applied to " ++ type.render
  | .undefinedIdentifier name => "undefined identifier '" ++ name ++ "'"
  | .exponentNotInt type => "exponent must be an int, found " ++ type.render
  | .shiftNotInt type => "shift distance must be an int, found " ++ type.render
  | .operandNotBoolean type => "logical operand is " ++ type.render ++ ", not boolean"
  | .conditionNotBoolean type => "condition is " ++ type.render ++ ", not boolean"
  | .emptyChain => "empty bitwise chain"
  | .arrayIndexNotInt => "array index must be an int"
  | .matrixRowNotInt => "matrix row must be an int"
  | .matrixColumnNotInt => "matrix column must be an int"
  | .argumentCount expected given =>
    "function expects " ++ toString expected ++ " arguments, got " ++ toString given
  | .cannotApply type args =>
    "cannot apply a " ++ type.render ++ " to " ++ toString args ++ " arguments"
  | .needsInterpreter name => "'" ++ name ++ "' requires a run-time interpreter"
  | .noFunction name args =>
    "no function " ++ name ++ "(" ++ ", ".intercalate (args.map ValueType.render) ++
      ") with a native conversion"
  | .tooDeep => "functions are nested too deeply"
  | .notNumeric builtin arg => builtin ++ ": argument " ++ toString arg ++ " is not numeric"
  | .unexpectedArguments builtin expected => builtin ++ " expects " ++ expected
  | .noConstantValue builtin => builtin ++ " has no compile-time value"
  | .notAnInt builtin arg => builtin ++ ": " ++ arg ++ " is not an int"
  | .negativeCount builtin count => builtin ++ ": negative count " ++ toString count.toInt
  | .negativeDimension builtin => builtin ++ ": negative dimension"
  | .tooManyElements builtin rows cols limit =>
    builtin ++ ": " ++ toString rows.toInt ++ " x " ++ toString cols.toInt ++ " exceeds " ++
      toString limit ++ " elements"
end DataflowSpecializer
