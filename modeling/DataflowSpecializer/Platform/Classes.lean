import DataflowSpecializer.Code.Statement
import DataflowSpecializer.Value.Type

/-! # Classes of the platform -/
namespace DataflowSpecializer.Platform
/-! ### Values -/
def token : String := "rt.data.Token"
def scalarToken : String := "rt.data.ScalarToken"
def booleanToken : String := "rt.data.BooleanToken"
def unsignedByteToken : String := "rt.data.UnsignedByteToken"
def intToken : String := "rt.data.IntToken"
def longToken : String := "rt.data.LongToken"
def doubleToken : String := "rt.data.DoubleToken"
def complexToken : String := "rt.data.ComplexToken"
def fixToken : String := "rt.data.FixToken"
def stringToken : String := "rt.data.StringToken"
def arrayToken : String := "rt.data.ArrayToken"
def matrixToken : String := "rt.data.MatrixToken"
def booleanMatrixToken : String := "rt.data.BooleanMatrixToken"
def intMatrixToken : String := "rt.data.IntMatrixToken"
def longMatrixToken : String := "rt.data.LongMatrixToken"
def doubleMatrixToken : String := "rt.data.DoubleMatrixToken"
def complexMatrixToken : String := "rt.data.ComplexMatrixToken"
def fixMatrixToken : String := "rt.data.FixMatrixToken"
def recordToken : String := "rt.data.RecordToken"
def functionToken : String := "rt.data.FunctionToken"
def typeLattice : String := "rt.data.type.TypeLattice"
def complex : String := "rt.math.Complex"
def fixPoint : String := "rt.math.FixPoint"
def utilityFunctions : String := "rt.data.expr.UtilityFunctions"
def math : String := "java.lang.Math"

/-! ### Model structure -/
def objectClass : String := "java.lang.Object"
def namedObjectClass : String := "rt.kernel.util.NamedObj"
def attributeClass : String := "rt.kernel.util.Attribute"
def stringAttributeClass : String := "rt.kernel.util.StringAttribute"
def variableClass : String := "rt.data.expr.Variable"
def parameterClass : String := "rt.data.expr.Parameter"
def portParameterClass : String := "rt.actor.parameters.PortParameter"
def entityClass : String := "rt.kernel.Entity"
def compositeEntityClass : String := "rt.kernel.CompositeEntity"
def atomicActorClass : String := "rt.actor.TypedAtomicActor"
def compositeActorClass : String := "rt.actor.TypedCompositeActor"
def untypedPortClass : String := "rt.kernel.Port"
def portClass : String := "rt.actor.TypedIOPort"
def parameterPortClass : String := "rt.actor.parameters.ParameterPort"
def relationClass : String := "rt.actor.TypedIORelation"
def directorClass : String := "rt.actor.Director"
def sdfDirectorClass : String := "rt.domains.sdf.kernel.SDFDirector"
def runtimeExceptionClass : String := "java.lang.RuntimeException"

def superclasses : List (String × String) :=
  [(namedObjectClass, objectClass), (attributeClass, namedObjectClass),
    (stringAttributeClass, attributeClass), (variableClass, attributeClass),
    (parameterClass, variableClass), (portParameterClass, parameterClass),
    (directorClass, attributeClass), (sdfDirectorClass, directorClass),
    (entityClass, namedObjectClass), (compositeEntityClass, entityClass),
    (atomicActorClass, entityClass), (compositeActorClass, compositeEntityClass),
    (untypedPortClass, namedObjectClass), (portClass, untypedPortClass),
    (parameterPortClass, portClass), (relationClass, namedObjectClass),
    (token, objectClass), (scalarToken, token),
    (unsignedByteToken, scalarToken), (intToken, scalarToken), (longToken, scalarToken),
    (doubleToken, scalarToken), (complexToken, scalarToken), (fixToken, scalarToken),
    (booleanToken, token), (stringToken, token), (arrayToken, token), (recordToken, token),
    (functionToken, token), (matrixToken, token), (booleanMatrixToken, matrixToken),
    (intMatrixToken, matrixToken), (longMatrixToken, matrixToken),
    (doubleMatrixToken, matrixToken), (complexMatrixToken, matrixToken),
    (fixMatrixToken, matrixToken)]

def superclass? (className : String) : Option String := superclasses.lookup className

def reaches (ancestor : String) : Nat → String → Bool
  | 0, c => c == ancestor
  | n + 1, c =>
    c == ancestor ||
      match superclass? c with
      | some parent => reaches ancestor n parent
      | none => false

def isSubclass (className ancestor : String) : Bool :=
  reaches ancestor superclasses.length className

def isValueClass (className : String) : Bool :=
  className == typeLattice || isSubclass className token
end Platform

namespace ValueType
open Platform

def valueClass : ValueType → String
  | .boolean => booleanToken
  | .ubyte => unsignedByteToken
  | .int => intToken
  | .long => longToken
  | .double => doubleToken
  | .complex => complexToken
  | .fix => fixToken
  | .string => stringToken
  | .array _ => arrayToken
  | .matrix .boolean => booleanMatrixToken
  | .matrix .int => intMatrixToken
  | .matrix .long => longMatrixToken
  | .matrix .complex => complexMatrixToken
  | .matrix .fix => fixMatrixToken
  | .matrix _ => doubleMatrixToken
  | .record _ => recordToken
  | .function _ => functionToken
  | .general | .unknown => token

def classTypes : List (String × ValueType) :=
  [(booleanToken, .boolean), (unsignedByteToken, .ubyte), (intToken, .int), (longToken, .long),
    (doubleToken, .double), (complexToken, .complex), (fixToken, .fix), (stringToken, .string),
    (booleanMatrixToken, .matrix .boolean), (intMatrixToken, .matrix .int),
    (longMatrixToken, .matrix .long), (doubleMatrixToken, .matrix .double),
    (complexMatrixToken, .matrix .complex), (fixMatrixToken, .matrix .fix)]

def ofValueClass? (className : String) : Option ValueType := classTypes.lookup className

def native? : ValueType → Option CodeType
  | .boolean => some .boolean
  | .ubyte | .int => some .int
  | .long => some .long
  | .double => some .double
  | .string => some .string
  | _ => none

def nativeAccessor? : ValueType → Option String
  | .boolean => some "booleanValue"
  | .ubyte | .int => some "intValue"
  | .long => some "longValue"
  | .double => some "doubleValue"
  | .string => some "stringValue"
  | _ => none
end ValueType
end DataflowSpecializer
