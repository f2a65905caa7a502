import DataflowSpecializer.Platform.Classes

/-! # Carriers -/
namespace DataflowSpecializer
inductive Carrier where
  | boolean
  | int
  | long
  | double
  | string
  | complex
  | fix
  | booleanMatrix
  | intMatrix
  | longMatrix
  | doubleMatrix
  | complexMatrix
  | fixMatrix
  /-- The elements of an array. -/
  | tokenArray
  /-- An array as it is. -/
  | array
  /-- Any value as it is. -/
  | token
deriving DecidableEq, Repr

namespace Carrier
open Platform

def name : Carrier → String
  | .boolean => "Boolean"
  | .int => "Int"
  | .long => "Long"
  | .double => "Double"
  | .string => "String"
  | .complex => "Complex"
  | .fix => "Fix"
  | .booleanMatrix => "BooleanMatrix"
  | .intMatrix => "IntMatrix"
  | .longMatrix => "LongMatrix"
  | .doubleMatrix => "DoubleMatrix"
  | .complexMatrix => "ComplexMatrix"
  | .fixMatrix => "FixMatrix"
  | .tokenArray => "TokenArray"
  | .array => "Array"
  | .token => "Token"

def all : List Carrier :=
  [.boolean, .int, .long, .double, .string, .complex, .fix, .booleanMatrix, .intMatrix,
    .longMatrix, .doubleMatrix, .complexMatrix, .fixMatrix, .tokenArray, .array, .token]

def ofName? (name : String) : Option Carrier := all.find? fun k => k.name = name

def acceptsScalar : Carrier → ValueType → Bool
  | .boolean, .boolean => true
  | .int, .int | .int, .ubyte => true
  | .long, .int | .long, .ubyte | .long, .long => true
  | .double, .int | .double, .ubyte | .double, .double => true
  | .string, .string => true
  | .complex, .int | .complex, .ubyte | .complex, .double | .complex, .complex => true
  | .fix, .fix => true
  | _, _ => false

def accepts (k : Carrier) (t : ValueType) : Bool :=
  match k, t with
  | .booleanMatrix, .matrix e => acceptsScalar .boolean e
  | .intMatrix, .matrix e => acceptsScalar .int e
  | .longMatrix, .matrix e => acceptsScalar .long e
  | .doubleMatrix, .matrix e => acceptsScalar .double e
  | .complexMatrix, .matrix e => acceptsScalar .complex e
  | .fixMatrix, .matrix e => acceptsScalar .fix e
  | .tokenArray, .array _ => true
  | .array, .array _ => true
  | .token, _ => true
  | k, t => acceptsScalar k t

def codeType : Carrier → CodeType
  | .boolean => .boolean
  | .int => .int
  | .long => .long
  | .double => .double
  | .string => .string
  | .complex => .object Platform.complex
  | .fix => .object fixPoint
  | .booleanMatrix => .array (.array .boolean)
  | .intMatrix => .array (.array .int)
  | .longMatrix => .array (.array .long)
  | .doubleMatrix => .array (.array .double)
  | .complexMatrix => .array (.array (.object Platform.complex))
  | .fixMatrix => .array (.array (.object fixPoint))
  | .tokenArray => .array (.object Platform.token)
  | .array => .object arrayToken
  | .token => .object Platform.token

def accessor? : Carrier → Option String
  | .boolean => some "booleanValue"
  | .int => some "intValue"
  | .long => some "longValue"
  | .double => some "doubleValue"
  | .string => some "stringValue"
  | .complex => some "complexValue"
  | .fix => some "fixValue"
  | .booleanMatrix => some "booleanMatrix"
  | .intMatrix => some "intMatrix"
  | .longMatrix => some "longMatrix"
  | .doubleMatrix => some "doubleMatrix"
  | .complexMatrix => some "complexMatrix"
  | .fixMatrix => some "fixMatrix"
  | .tokenArray => some "arrayValue"
  | .array | .token => none

def boxedClass : Carrier → String
  | .boolean => booleanToken
  | .string => stringToken
  | .tokenArray | .array => arrayToken
  | .int | .long | .double | .complex | .fix => scalarToken
  | .token => Platform.token
  | .booleanMatrix | .intMatrix | .longMatrix | .doubleMatrix | .complexMatrix | .fixMatrix =>
    matrixToken

def wrapper? : Carrier → Option String
  | .boolean => some booleanToken
  | .int => some intToken
  | .long => some longToken
  | .double => some doubleToken
  | .string => some stringToken
  | .complex => some complexToken
  | .fix => some fixToken
  | .booleanMatrix => some booleanMatrixToken
  | .intMatrix => some intMatrixToken
  | .longMatrix => some longMatrixToken
  | .doubleMatrix => some doubleMatrixToken
  | .complexMatrix => some complexMatrixToken
  | .fixMatrix => some fixMatrixToken
  | .tokenArray => some arrayToken
  | .array | .token => none

def valueType : Carrier → ValueType
  | .boolean => .boolean
  | .int => .int
  | .long => .long
  | .double => .double
  | .string => .string
  | .complex => .complex
  | .fix => .fix
  | .booleanMatrix => .matrix .boolean
  | .intMatrix => .matrix .int
  | .longMatrix => .matrix .long
  | .doubleMatrix => .matrix .double
  | .complexMatrix => .matrix .complex
  | .fixMatrix => .matrix .fix
  | .tokenArray | .array => .array .general
  | .token => .general
end Carrier
end DataflowSpecializer
