import DataflowSpecializer.Analysis.Flow
import DataflowSpecializer.Analysis.Identity

/-! # Types of the values in a method -/
namespace DataflowSpecializer
open Platform

/-- The types that values have at a point; nothing has reached what is not mentioned. -/
structure TypeFact where
  locals : SortedMap LocalId ValueType
  fields : SortedMap FieldId ValueType
deriving DecidableEq

namespace TypeFact
def empty : TypeFact := ⟨.empty, .empty⟩

/-- The type of a local; unknown if nothing has reached it. -/
def local_ (x : TypeFact) (l : LocalId) : ValueType := (x.locals.get? l).getD .unknown

def operand (x : TypeFact) : Operand → ValueType
  | .loc l => x.local_ l
  | .const _ => .unknown

def merge (x y : TypeFact) : TypeFact :=
  ⟨x.locals.mergeWith ValueType.merge y.locals, x.fields.mergeWith ValueType.lub y.fields⟩
end TypeFact

structure TypeContext where
  model : Model
  facts : FieldFacts
  program : Program
  objects : ObjectMap

namespace TypeContext
def constructed? (className : String) (args : List Operand) : Option ValueType :=
  if className = arrayToken then
    match args with
    | .const (.string element) :: _ => (ValueType.ofName? element).map .array
    | _ => none
  else ValueType.ofValueClass? className

def isArithmetic (name : String) : Bool :=
  ["add", "subtract", "multiply", "divide", "modulo", "bitwiseAnd", "bitwiseOr",
    "bitwiseXor"].contains name

def keepsType (name : String) : Bool :=
  ["negate", "bitwiseNot", "leftShift", "rightShift", "logicalRightShift", "pow"].contains name

def isTest (name : String) : Bool := ["isEqualTo", "isLessThan", "not"].contains name

def methodResult? (c : TypeContext) (x : TypeFact) (call : Invocation) (base : LocalId) :
    Option ValueType :=
  let name := call.method.name
  let className := call.method.className
  let t := x.local_ base
  let argument : ValueType := (call.args.head?.map x.operand).getD .unknown
  if name = "get" ∧ className = portClass then
    (c.objects.object? base).bind fun o => (c.model.port? o).map fun _ => c.model.portType o
  else if name = "getToken" then
    (c.objects.object? base).bind fun o => (c.model.var? o).map fun _ => c.model.variableType o
  else if isArithmetic name then
    some (if t = .unknown ∨ argument = .unknown then .unknown else t.lub argument)
  else if keepsType name then some t
  else if name = "absolute" then some (if t = .complex then .double else t)
  else if isTest name then some .boolean
  else if name = "getElement" ∨ name = "getElementAsToken" then t.element?
  else if name = "get" ∧ className = recordToken then
    match t, call.args with
    | .record fields, .const (.string label) :: _ => fields.lookup label
    | _, _ => none
  else none

def callResult? (c : TypeContext) (x : TypeFact) (call : Invocation) : Option ValueType :=
  if call.dispatch = .static then
    if call.method.name = "convert" ∨ call.method.name = "arrayToMatrix" then
      ValueType.ofValueClass? call.method.className
    else none
  else call.base.bind (c.methodResult? x call)

def fieldType? (c : TypeContext) (x : TypeFact) (f : FieldId) : Option ValueType :=
  match c.facts.type? f with
  | some t => some t
  | none =>
    match (c.program.fieldDecl f).type.className?.bind ValueType.ofValueClass? with
    | some t => some t
    | none => x.fields.get? f

def valueType? (c : TypeContext) (x : TypeFact) : Rvalue → Option ValueType
  | .use (.loc r) | .cast _ (.loc r) => x.locals.get? r
  | .new className args => constructed? className args
  | .field _ f => c.fieldType? x f
  | .invoke call => c.callResult? x call
  | _ => none

def transfer (c : TypeContext) (a : Action) (x : TypeFact) : TypeFact :=
  match a with
  | .assign (.loc l) v =>
    { x with locals := x.locals.insert l ((c.valueType? x v).getD .unknown) }
  | .assign (.field _ f) v =>
    if (c.facts.type? f).isSome then x
    else
      let t : ValueType := match v with
        | .use o => x.operand o
        | _ => .unknown
      { x with fields := x.fields.insert f t }
  | _ => x

def analysis (c : TypeContext) : FlowAnalysis TypeFact := ⟨.empty, TypeFact.merge, c.transfer⟩

def height : ValueType → Nat
  | .array e | .matrix e => height e + 8
  | .record fs => fieldHeights fs + 8
  | _ => 8
where fieldHeights : FieldTypes → Nat
    | [] => 0
    | (_, t) :: fs => height t + 1 + fieldHeights fs

def heightBound (c : TypeContext) (b : Body) : Nat :=
  let modelTypes := c.model.ids.flatMap fun o => [c.model.portType o, c.model.variableType o]
  let named := b.stmts.flatMap fun s =>
    match s.action with
    | .assign _ (.new _ (.const (.string element) :: _)) => (ValueType.ofName? element).toList
    | _ => []
  ((modelTypes ++ c.facts.types.values ++ named).map height).foldl max 24 + 8

/-- A bound on the visits. Every statement changes one place, what is known of a place changes no
oftener than the height allows, and a statement is visited only if something has changed. -/
def visits (c : TypeContext) (b : Body) : Nat :=
  let n := b.stmts.length
  (n + 1) * (n * (c.heightBound b + 2) + 2)

def solve (c : TypeContext) (b : Body) : FlowFacts TypeFact := .solve c.analysis b (c.visits b)

def resume (c : TypeContext) (b : Body) (s : FlowFacts TypeFact) : FlowFacts TypeFact :=
  .resume c.analysis b (b.stmts.length + c.visits b) s
end TypeContext

namespace Specialization
def typeContext (s : Specialization) (m : MethodId) : TypeContext :=
  ⟨s.model, s.facts, s.program, s.objectMap m⟩

def valueTypes (s : Specialization) (m : MethodId) : FlowFacts TypeFact :=
  (s.typeContext m).solve (s.program.body m)
end Specialization
end DataflowSpecializer
