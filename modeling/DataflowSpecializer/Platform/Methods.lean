import DataflowSpecializer.Platform.Classes

/-! # Methods of the platform -/
namespace DataflowSpecializer.Platform
def tokenType : CodeType := .object token

def initOf (className : String) (params : List CodeType) : MethodRef :=
  ⟨className, "<init>", params, .void⟩

def structuralInit (className : String) : MethodRef :=
  initOf className [.object namedObjectClass, .string]

def getContainer : MethodRef := ⟨namedObjectClass, "getContainer", [], .object namedObjectClass⟩

def getAttribute : MethodRef :=
  ⟨namedObjectClass, "getAttribute", [.string], .object attributeClass⟩

def getPort : MethodRef := ⟨entityClass, "getPort", [.string], .object portClass⟩
def getEntity : MethodRef := ⟨compositeEntityClass, "getEntity", [.string], .object entityClass⟩

def getRelation : MethodRef :=
  ⟨compositeEntityClass, "getRelation", [.string], .object relationClass⟩

def getParameterPort : MethodRef := ⟨portParameterClass, "getPort", [], .object parameterPortClass⟩

def setMultiport : MethodRef := ⟨portClass, "setMultiport", [.boolean], .void⟩
def setName : MethodRef := ⟨namedObjectClass, "setName", [.string], .void⟩
def link : MethodRef := ⟨portClass, "link", [.object relationClass], .void⟩

def portGet : MethodRef := ⟨portClass, "get", [.int], tokenType⟩
def portSend : MethodRef := ⟨portClass, "send", [.int, tokenType], .void⟩
def portHasToken : MethodRef := ⟨portClass, "hasToken", [.int], .boolean⟩
def getToken : MethodRef := ⟨variableClass, "getToken", [], tokenType⟩
def setToken : MethodRef := ⟨variableClass, "setToken", [tokenType], .void⟩
def getExpression : MethodRef := ⟨attributeClass, "getExpression", [], .string⟩
def setExpression : MethodRef := ⟨attributeClass, "setExpression", [.string], .void⟩

def lifecycle : List (String × CodeType) :=
  [("preinitialize", .void), ("initialize", .void), ("prefire", .boolean), ("fire", .void),
    ("postfire", .boolean), ("wrapup", .void)]

def lifecycleMethod (className name : String) : MethodRef :=
  ⟨className, name, [], (lifecycle.lookup name).getD .void⟩

/-! ### Values -/
def tokenBinary (name : String) : MethodRef := ⟨token, name, [tokenType], tokenType⟩
def isEqualTo : MethodRef := ⟨token, "isEqualTo", [tokenType], .object booleanToken⟩

def isLessThan : MethodRef :=
  ⟨scalarToken, "isLessThan", [.object scalarToken], .object booleanToken⟩

def tokenUnary (className name : String) : MethodRef := ⟨className, name, [], tokenType⟩

/-- An operation on a value and a number: powers and shifts. -/
def tokenIntArg (className name : String) : MethodRef := ⟨className, name, [.int], tokenType⟩
def arrayGetElement : MethodRef := ⟨arrayToken, "getElement", [.int], tokenType⟩

def matrixGetElement : MethodRef := ⟨matrixToken, "getElementAsToken", [.int, .int], tokenType⟩

def arrayToMatrix (className : String) : MethodRef :=
  ⟨className, "arrayToMatrix", [.array tokenType, .int, .int], .object className⟩

def recordGet : MethodRef := ⟨recordToken, "get", [.string], tokenType⟩
def functionApply : MethodRef := ⟨functionToken, "apply", [.array tokenType], tokenType⟩

def accessor (className name : String) (result : CodeType) : MethodRef :=
  ⟨className, name, [], result⟩

def tokenConvert (className : String) : MethodRef :=
  ⟨className, "convert", [tokenType], .object className⟩

def typeLatticeCompare : MethodRef := ⟨typeLattice, "compare", [tokenType, tokenType], .int⟩

def structureQueries : List String :=
  ["getContainer", "getAttribute", "getPort", "getEntity", "getRelation", "getName",
    "getFullName", "getExpression", "getToken", "hasToken"]
end Platform

namespace MethodRef
open Platform

def isSideEffectFree (m : MethodRef) : Bool :=
  isValueClass m.className || m.className == math || m.className == utilityFunctions ||
    structureQueries.contains m.name

def isCosmetic (m : MethodRef) : Bool :=
  ["setVisibility", "setPersistent", "validate", "setDisplayName"].contains m.name
end MethodRef
end DataflowSpecializer
