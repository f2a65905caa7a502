import DataflowSpecializer.Value.TypeName

/-! # The actor catalogue -/
namespace DataflowSpecializer
inductive AttributeKind where
  /-- An expression, evaluated in the scope of its container. -/
  | parameter
  /-- A text that is taken as it stands. -/
  | stringAttribute
  /-- A parameter with an input port of the same name. -/
  | portParameter
deriving DecidableEq, Repr, Inhabited

inductive ActorKind where
  | const
  | ramp
  | scale
  | addSubtract
  | absoluteValue
  | accumulator
  | expression
  | setVariable
  | recorder
deriving DecidableEq, Repr

structure PortDecl where
  name : String
  input : Bool
  output : Bool
  multiport : Bool := false
  type : Option String := none

structure ParamDecl where
  name : String
  default : String
  kind : AttributeKind
  type : Option String := none

namespace ActorKind
def inputPort : String := "input"
def outputPort : String := "output"
def variableName : String := "variableName"
def expressionText : String := "expression"

def name : ActorKind → String
  | const => "Const"
  | ramp => "Ramp"
  | scale => "Scale"
  | addSubtract => "AddSubtract"
  | absoluteValue => "AbsoluteValue"
  | accumulator => "Accumulator"
  | expression => "Expression"
  | setVariable => "SetVariable"
  | recorder => "Recorder"

def all : List ActorKind :=
  [const, ramp, scale, addSubtract, absoluteValue, accumulator, expression, setVariable, recorder]

def ofName? (s : String) : Option ActorKind := all.find? fun k => k.name = s

theorem ofName?_name (k : ActorKind) : ofName? k.name = some k := by
  cases k <;> decide

def receiving (name : String) : PortDecl := ⟨name, true, false, false, none⟩
def sending (name : String) : PortDecl := ⟨name, false, true, false, none⟩

def ports : ActorKind → List PortDecl
  | const | ramp | expression => [sending outputPort]
  | scale | absoluteValue | accumulator | setVariable => [receiving inputPort, sending outputPort]
  | addSubtract => [receiving "plus", receiving "minus", sending outputPort]
  | recorder => [receiving inputPort]

def params : ActorKind → List ParamDecl
  | const => [⟨"value", "1", .parameter, none⟩]
  | ramp => [⟨"init", "0", .parameter, none⟩, ⟨"step", "1", .parameter, none⟩]
  | scale => [⟨"factor", "1", .parameter, none⟩]
  | accumulator => [⟨"init", "0", .parameter, none⟩]
  | expression => [⟨expressionText, "", .stringAttribute, none⟩]
  | setVariable => [⟨variableName, "", .stringAttribute, none⟩]
  | addSubtract | absoluteValue | recorder => []

def takesExtraPorts (k : ActorKind) : Bool := k = expression

def outputType (k : ActorKind) (port : String) (known : String → Option ValueType) :
    Option ValueType :=
  let join (a b : String) : Option ValueType :=
    match known a, known b with
    | some s, some t => some (s.lub t)
    | _, _ => none
  if port = outputPort then
    match k with
    | const => known "value"
    | ramp => join "init" "step"
    | scale => join inputPort "factor"
    | addSubtract =>
      match known "plus", known "minus" with
      | some s, some t => some (s.lub t)
      | some s, none => some s
      | none, t => t
    | absoluteValue => (known inputPort).map fun t => if t = .complex then .double else t
    | accumulator => join inputPort "init"
    | setVariable => known inputPort
    | expression | recorder => none
  else none

def missingReason : String → String
  | "MathFunction" | "TrigFunction" => "it dynamically creates ports"
  | "ArraySort" | "ArrayPeakSearch" => "it creates array tokens from lists"
  | "TypeTest" => "it walks around the model"
  | "RecordAssembler" | "RecordDisassembler" | "BusAssembler" | "BusDisassembler" =>
    "it iterates over ports"
  | "ExpressionToToken" | "ExpressionReader" => "it evaluates expressions at run time"
  | _ => "it is not in the library catalogue"

def isEditorAttribute (name : String) : Bool :=
  ["_location", "_showName", "_hideName", "_windowProperties", "_iconDescription",
    "_documentation", "_size", "_color"].contains name || name.startsWith "_vergil"

def bit (b : Bool) : String := if b then "1" else "0"

def fingerprint : String :=
  String.join (all.map fun k =>
    k.name ++
      String.join (k.ports.map fun p => " " ++ p.name ++ ":" ++ bit p.input ++ bit p.output) ++
      String.join (k.params.map fun p => " " ++ p.name ++ "=" ++ Text.quote p.default) ++ "\n")
end ActorKind
end DataflowSpecializer
