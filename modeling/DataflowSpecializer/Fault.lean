import DataflowSpecializer.Actor.Catalogue
import DataflowSpecializer.Json.Reader
import DataflowSpecializer.Value.Basic

/-! # Diagnostics and faults -/
namespace DataflowSpecializer
namespace Diagnostic
inductive Code where
  /-- A construct that cannot be specialized. -/
  | unsupported
  /-- An expression that cannot be read or evaluated. -/
  | badExpression
  /-- Bookkeeping that does not fit together. -/
  | inconsistent
  /-- An obligation of a certificate that does not hold. -/
  | failedObligation
  /-- A reference to a model object that stays a lookup at run time. -/
  | ambiguousReference
  /-- Arithmetic that stays on boxed values. -/
  | boxedArithmetic
  /-- An attribute that only an editor reads. -/
  | editorAttribute
deriving DecidableEq, Repr

def Code.text : Code → String
  | .unsupported => "E0100"
  | .badExpression => "E0101"
  | .inconsistent => "E0200"
  | .failedObligation => "E0600"
  | .ambiguousReference => "W0300"
  | .boxedArithmetic => "W0301"
  | .editorAttribute => "W0302"

def Code.ofText? (s : String) : Option Code :=
  [Code.unsupported, .badExpression, .inconsistent, .failedObligation, .ambiguousReference,
    .boxedArithmetic, .editorAttribute].find? fun c => c.text = s

theorem Code.ofText?_text (c : Code) : Code.ofText? c.text = some c := by
  cases c <;> decide

inductive Level where
  | error
  | warning
deriving DecidableEq, Repr

def Level.text : Level → String
  | .error => "error"
  | .warning => "warning"

structure Cause where
  message : String
  subject : Option String
deriving DecidableEq, Repr
end Diagnostic

/-- A message about a subject: the full name of a model object, or a generated method. -/
structure Diagnostic where
  code : Option Diagnostic.Code
  level : Diagnostic.Level
  subject : String
  message : String
  hint : Option String := none
  causes : List Diagnostic.Cause := []
deriving DecidableEq, Repr

namespace Diagnostic
def warning (code : Code) (subject message : String) : Diagnostic :=
  ⟨some code, .warning, subject, message, none, []⟩

def error (code : Option Code) (subject message : String) : Diagnostic :=
  ⟨code, .error, subject, message, none, []⟩

def Cause.render (c : Cause) : String :=
  "\n  caused by: " ++ c.message ++
    match c.subject with
    | some s => " (" ++ s ++ ")"
    | none => ""

def render (d : Diagnostic) : String :=
  let code := match d.code with
    | some c => "[" ++ c.text ++ "]"
    | none => ""
  let hint := match d.hint with
    | some h => "\n  hint: " ++ h
    | none => ""
  d.level.text ++ code ++ ": " ++ d.subject ++ ": " ++ d.message ++ hint ++
    String.join (d.causes.map Cause.render)

def isSame (d e : Diagnostic) : Bool :=
  d.code = e.code && d.subject = e.subject && d.message = e.message

def addNew (ds : List Diagnostic) (d : Diagnostic) : List Diagnostic :=
  if ds.any (isSame · d) then ds else ds ++ [d]
end Diagnostic

inductive Limitation where
  /-- A parameter whose expression fails on a call that needs an interpreter. -/
  | expression (cause : EvalError)
  | interpreterCall (name : String)
  | member (label : String) (type : ValueType)
  | application (type : ValueType) (args : Nat)
  | call (name : String) (args : List ValueType)
  /-- A builtin constant that no constructor yields. -/
  | constant (name : String) (type : ValueType)
  | actorKind (kind : String)
  | nestedDirector
  | directorKind (kind : String)
  | connectedPortParameter
  | channels (count : Nat)
  | ambiguousWrite (method : String)
  | lateExpression

def Limitation.construct : Limitation → String
  | .expression _ => "expression"
  | .interpreterCall name => "call to " ++ name
  | .member label type => "member access '." ++ label ++ "' on " ++ type.render
  | .application type args =>
    "application of a " ++ type.render ++ " to " ++ toString args ++ " arguments"
  | .call name args => "call " ++ name ++ "(" ++ ", ".intercalate (args.map ValueType.render) ++ ")"
  | .constant name _ => name
  | .actorKind kind => "actor kind " ++ kind
  | .nestedDirector => "a director inside a composite actor"
  | .directorKind kind => "director kind " ++ kind
  | .connectedPortParameter => "a connected port-parameter"
  | .channels count => "a port with " ++ toString count ++ " channels"
  | .ambiguousWrite method => method ++ "() on an ambiguous attribute reference"
  | .lateExpression => "changing an expression after construction"

def Limitation.reason : Limitation → String
  | .expression cause => cause.message
  | .interpreterCall _ => "it requires a run-time interpreter"
  | .member _ _ => "only records have named fields"
  | .application _ _ => "only arrays, matrices and functions can be applied"
  | .call _ _ => "no native conversion exists for these argument types"
  | .constant _ type => "no constant form for " ++ type.render
  | .actorKind kind => ActorKind.missingReason kind
  | .nestedDirector => "only the top-level director drives execution"
  | .directorKind _ => "only synchronous dataflow is scheduled statically"
  | .connectedPortParameter => "it updates its value from a port at run time"
  | .channels _ => "channels are addressed by iterating over the port"
  | .ambiguousWrite _ => "the written attribute cannot be determined statically"
  | .lateExpression => "the new expression would have to be parsed at run time"

inductive Inconsistency where
  /-- Something has no part that it must have. -/
  | lacks (place owner part : String)
  | registeredTwice (object : String)
  | createdTwice (object first second : String)
  | noPath (source target : String)
  | objectTag (field object : Nat)
  | valueTag (field : Nat) (value : Value)
  | typeTag (field : Nat) (type : ValueType)
  | cyclicVariables
  | divergingTypes
  | readOutsideActor (subject : String)
  | linkOutside (relation : String)
  | writesConstant (object method : String)

def Inconsistency.place : Inconsistency → String
  | .lacks place _ _ => place
  | .registeredTwice _ => "class registry"
  | .createdTwice _ _ _ => "creation ledger"
  | .noPath _ _ => "reference path"
  | .objectTag _ _ => "tag store"
  | .valueTag _ _ => "tag store"
  | .typeTag _ _ => "tag store"
  | .cyclicVariables => "constant analysis"
  | .divergingTypes => "type resolution"
  | .readOutsideActor _ => "codegen"
  | .linkOutside _ => "materialize"
  | .writesConstant object _ => object

def Inconsistency.message : Inconsistency → String
  | .lacks _ owner part => owner ++ " has no " ++ part
  | .registeredTwice object => object ++ " is already registered"
  | .createdTwice object first second => object ++ " created by both " ++ first ++ " and " ++ second
  | .noPath source target => "no path from " ++ source ++ " to " ++ target
  | .objectTag field object =>
    "field " ++ toString field ++ " already refers to object " ++ toString object
  | .valueTag field value =>
    "field " ++ toString field ++ " already holds constant " ++ value.render
  | .typeTag field type => "field " ++ toString field ++ " already has type " ++ type.render
  | .cyclicVariables => "variable dependencies are cyclic"
  | .divergingTypes => "port types did not converge"
  | .readOutsideActor subject => subject ++ ": variable read outside an actor"
  | .linkOutside relation => relation ++ " links outside its composite"
  | .writesConstant _ method => method ++ " writes a parameter proven constant"

inductive ModelFault where
  | topKind (name kind : String)
  | invalidName (name : String)
  | duplicate (fullName : String)
  | noSuchPort (actor kind port : String)
  | unknownPort (relation path : String)
  | unknownType (name : String)
deriving DecidableEq, Repr

def ModelFault.message : ModelFault → String
  | .topKind name kind => "top-level entity '" ++ name ++ "' must be a Composite, found " ++ kind
  | .invalidName name => "invalid object name '" ++ name ++ "'"
  | .duplicate fullName => "duplicate object '" ++ fullName ++ "'"
  | .noSuchPort actor kind port =>
    actor ++ ": actor kind " ++ kind ++ " has no port '" ++ port ++ "'"
  | .unknownPort relation path => relation ++ ": link to unknown port '" ++ path ++ "'"
  | .unknownType name => "unknown type '" ++ name ++ "'"

inductive ExpressionFault where
  /-- The text is no expression. -/
  | unreadable
  | selfDependent
  | evaluation (cause : EvalError)
  | unequalRows

def ExpressionFault.message : ExpressionFault → String
  | .unreadable => "syntax error"
  | .selfDependent => "expression depends on itself"
  | .evaluation cause => cause.message
  | .unequalRows => "matrix rows differ in length"

inductive Fault where
  | unsupported (object : String) (limitation : Limitation)
  | inconsistent (cause : Inconsistency)
  | outOfTime (stage : String) (elapsedMs : Nat)
  | model (cause : ModelFault)
  | expression (object : String) (cause : ExpressionFault)
  | json (cause : Json.Error)

namespace Fault
def jsonReason : Json.Error → String
  | .malformed => "malformed text"
  | .truncated => "the text ends too early"
  | .mismatch => "a value of another form is expected"

def message : Fault → String
  | unsupported object l =>
    object ++ ": " ++ l.construct ++ " is not supported because " ++ l.reason
  | inconsistent c => "analysis inconsistency in " ++ c.place ++ ": " ++ c.message
  | outOfTime stage ms =>
    "did not complete: watchdog expired during " ++ stage ++ " after " ++ toString ms ++ "ms"
  | model c => "model error: " ++ c.message
  | expression object c => "expression error in " ++ object ++ ": " ++ c.message
  | json e => "model description is not valid JSON: " ++ jsonReason e

def code? : Fault → Option Diagnostic.Code
  | unsupported _ _ => some .unsupported
  | expression _ _ => some .badExpression
  | inconsistent _ => some .inconsistent
  | outOfTime _ _ | model _ | json _ => none

def isOutOfTime : Fault → Bool
  | outOfTime _ _ => true
  | _ => false
end Fault
end DataflowSpecializer
