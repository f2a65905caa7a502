import DataflowSpecializer.Expression.Grammar
import DataflowSpecializer.Fault

/-! # Model graphs -/
namespace DataflowSpecializer
abbrev ObjectId : Type := Nat

namespace Model
structure Port where
  input : Bool
  output : Bool
  multiport : Bool
  declared : Option ValueType
  resolved : ValueType
  /-- The port-parameter that the port belongs to. -/
  parameter : Option ObjectId

structure Variable where
  expression : String
  declared : Option ValueType
  /-- The value when the model is loaded; none for a blank expression. -/
  value : Option Value
  /-- The declared type, or a type for every value it can take. -/
  resolved : ValueType
  isPortParameter : Bool
  /-- The port of a port-parameter. -/
  port : Option ObjectId

inductive Kind where
  | composite
  /-- An actor by the name of its kind, with its entry of the catalogue if there is one. -/
  | atomic (name : String) (kind : Option ActorKind)
  | port (p : Port)
  | relation
  | var (v : Variable)
  /-- An attribute whose text is taken as it stands. -/
  | settable (expression : String)
  | director (kind : String)

inductive Family where
  | attribute
  | port
  | entity
  | relation
deriving DecidableEq, Repr

def Kind.family : Kind → Family
  | .port _ => .port
  | .relation => .relation
  | .composite | .atomic _ _ => .entity
  | .var _ | .settable _ | .director _ => .attribute

structure Object where
  name : String
  /-- The names from the top-level entity on, with dots. -/
  fullName : String
  container : Option ObjectId
  kind : Kind
  attributes : List ObjectId := []
  ports : List ObjectId := []
  entities : List ObjectId := []
  relations : List ObjectId := []
  /-- The relations of a port, or the ports of a relation. -/
  links : List ObjectId := []

instance : Inhabited Object := ⟨⟨"", "", none, .relation, [], [], [], [], []⟩⟩

def Object.contents (o : Object) : Family → List ObjectId
  | .attribute => o.attributes
  | .port => o.ports
  | .entity => o.entities
  | .relation => o.relations
end Model

/-- A model: its objects, the top-level entity first, and what was found while loading. -/
structure Model where
  objects : Array Model.Object
  diagnostics : List Diagnostic

namespace Model
def empty : Model := ⟨#[], []⟩
def top : ObjectId := 0
def iterations : String := "iterations"

/-! ### Single objects -/
def object (m : Model) (o : ObjectId) : Object := m.objects.getD o default
def name (m : Model) (o : ObjectId) : String := (m.object o).name
def fullName (m : Model) (o : ObjectId) : String := (m.object o).fullName
def container (m : Model) (o : ObjectId) : Option ObjectId := (m.object o).container
def kind (m : Model) (o : ObjectId) : Kind := (m.object o).kind
def ids (m : Model) : List ObjectId := List.range m.objects.size

def byName? (m : Model) (fullName : String) : Option ObjectId :=
  m.ids.find? fun o => m.fullName o = fullName

def isEntity (m : Model) (o : ObjectId) : Bool :=
  match m.kind o with
  | .composite | .atomic _ _ => true
  | _ => false

def port? (m : Model) (o : ObjectId) : Option Port :=
  match m.kind o with
  | .port p => some p
  | _ => none

def var? (m : Model) (o : ObjectId) : Option Variable :=
  match m.kind o with
  | .var v => some v
  | _ => none

def isVariable (m : Model) (o : ObjectId) : Bool := (m.var? o).isSome

def isDirector (m : Model) (o : ObjectId) : Bool :=
  match m.kind o with
  | .director _ => true
  | _ => false

def actorKind? (m : Model) (o : ObjectId) : Option ActorKind :=
  match m.kind o with
  | .atomic _ k => k
  | _ => none

def expression? (m : Model) (o : ObjectId) : Option String :=
  match m.kind o with
  | .var v => some v.expression
  | .settable e => some e
  | _ => none

def portType (m : Model) (o : ObjectId) : ValueType :=
  match m.port? o with
  | some p => p.resolved
  | none => .unknown

def variableType (m : Model) (o : ObjectId) : ValueType :=
  match m.var? o with
  | some v => v.resolved
  | none => .unknown

def variableIds (m : Model) : List ObjectId := m.ids.filter m.isVariable
def family (m : Model) (o : ObjectId) : Family := (m.kind o).family

def lookup? (m : Model) (container : ObjectId) (family : Family) (name : String) :
    Option ObjectId :=
  ((m.object container).contents family).find? fun o => m.name o = name

def attribute? (m : Model) (container : ObjectId) (name : String) : Option ObjectId :=
  m.lookup? container .attribute name

def portNamed? (m : Model) (entity : ObjectId) (name : String) : Option ObjectId :=
  m.lookup? entity .port name

def director? (m : Model) (composite : ObjectId) : Option ObjectId :=
  (m.object composite).attributes.find? m.isDirector

def entitiesFrom (m : Model) : Nat → ObjectId → List ObjectId
  | 0, _ => []
  | n + 1, e => e :: (m.object e).entities.flatMap (m.entitiesFrom n)

def entities (m : Model) : List ObjectId := m.entitiesFrom m.objects.size top

def ancestors (m : Model) (o : ObjectId) : List ObjectId :=
  match m.container o with
  | some c => if c < o then c :: m.ancestors c else []
  | none => []
termination_by o

def isAncestor (m : Model) (ancestor o : ObjectId) : Bool := (m.ancestors o).contains ancestor

def scopes (m : Model) (owner : ObjectId) : List ObjectId :=
  if m.isEntity owner then owner :: m.ancestors owner else m.ancestors owner

/-- The variable that an identifier means in an expression of `owner`: the nearest one other than
`owner` itself. -/
def resolve? (m : Model) (owner : ObjectId) (name : String) : Option ObjectId :=
  (m.scopes owner).findSome? fun s =>
    match m.attribute? s name with
    | some v => if v ≠ owner ∧ m.isVariable v then some v else none
    | none => none

def writeTarget? (m : Model) (actor : ObjectId) : Option ObjectId := do
  let named ← m.attribute? actor ActorKind.variableName
  let text ← m.expression? named
  let container ← m.container actor
  m.resolve? container (Text.trim text)

def writers (m : Model) : List (ObjectId × ObjectId) :=
  m.ids.filterMap fun a =>
    if m.actorKind? a = some .setVariable then (m.writeTarget? a).map fun v => (a, v) else none

/-- The expression of an attribute; a blank text has none. -/
def parse (m : Model) (owner : ObjectId) : Except Fault (Option Expr) :=
  match m.expression? owner with
  | none => .ok none
  | some text =>
    if Text.isAllBlank text then .ok none
    else
      match Expr.parse? text with
      | some e => .ok (some e)
      | none => .error (.expression (m.fullName owner) .unreadable)

/-- Whether a port feeds a relation: an output from outside, an input from inside. -/
def drives (m : Model) (port relation : ObjectId) : Bool :=
  match m.port? port, m.container port with
  | some p, some entity =>
    if m.container relation = some entity then p.input else p.output
  | _, _ => false

def receives (m : Model) (port relation : ObjectId) : Bool :=
  match m.port? port, m.container port with
  | some p, some entity =>
    if m.container relation = some entity then p.output else p.input
  | _, _ => false

def addNew (os : List ObjectId) (o : ObjectId) : List ObjectId :=
  if os.contains o then os else os ++ [o]

def sources (m : Model) (port : ObjectId) : List ObjectId :=
  (m.object port).links.foldl (fun acc relation =>
      if m.receives port relation then
        ((m.object relation).links.filter fun p => p ≠ port ∧ m.drives p relation).foldl addNew acc
      else acc)
    []

/-! ## Outlines -/
def Port.direction (p : Port) : String :=
  match p.input, p.output with
  | true, true => "inout"
  | true, false => "input"
  | false, _ => "output"

def Kind.outline : Kind → String
  | .composite => "composite"
  | .atomic name _ => "actor " ++ name
  | .director name => "director " ++ name
  | .port p => p.direction ++ " port : " ++ p.resolved.render
  | .relation => "relation"
  | .var v =>
    match v.value with
    | some value =>
      "parameter \"" ++ v.expression ++ "\" = " ++ value.render ++ " : " ++ v.resolved.render
    | none => "parameter \"\" : " ++ v.resolved.render
  | .settable expression => "string \"" ++ expression ++ "\""

def outlineLine (m : Model) (o : ObjectId) : String :=
  let depth := (m.fullName o).toList.count '.'
  String.join (List.replicate depth "  ") ++ m.name o ++ " (" ++ (m.kind o).outline ++ ")\n"

def outline (m : Model) : String := String.join (m.ids.map m.outlineLine)
end Model
end DataflowSpecializer
