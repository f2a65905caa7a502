import DataflowSpecializer.Builtin.Table
import DataflowSpecializer.Code.Program
import DataflowSpecializer.Model.Constancy
import DataflowSpecializer.Options

/-! # The state of a specialization -/
namespace DataflowSpecializer
structure FieldFacts where
  objects : SortedMap FieldId ObjectId
  values : SortedMap FieldId Value
  types : SortedMap FieldId ValueType

namespace FieldFacts
def empty : FieldFacts := ⟨.empty, .empty, .empty⟩

instance : Inhabited FieldFacts := ⟨empty⟩

def object? (t : FieldFacts) (f : FieldId) : Option ObjectId := t.objects.get? f
def value? (t : FieldFacts) (f : FieldId) : Option Value := t.values.get? f
def type? (t : FieldFacts) (f : FieldId) : Option ValueType := t.types.get? f

def setObject (t : FieldFacts) (f : FieldId) (o : ObjectId) : Except Fault FieldFacts :=
  match t.object? f with
  | some old =>
    if old = o then .ok t else .error (.inconsistent (.objectTag f old))
  | none => .ok { t with objects := t.objects.insert f o }

def setValue (t : FieldFacts) (f : FieldId) (v : Value) : Except Fault FieldFacts :=
  match t.value? f with
  | some old =>
    if old == v then .ok { t with values := t.values.insert f v }
    else .error (.inconsistent (.valueTag f old))
  | none => .ok { t with values := t.values.insert f v }

def setType (t : FieldFacts) (f : FieldId) (type : ValueType) : Except Fault FieldFacts :=
  match t.type? f with
  | some old =>
    if old = type then .ok t else .error (.inconsistent (.typeTag f old))
  | none => .ok { t with types := t.types.insert f type }

def valuedFields (t : FieldFacts) : List FieldId := t.values.keys
end FieldFacts

structure Site where
  /-- The statement whose local holds the reference. -/
  stmt : StmtId
  /-- Whether the statement creates the object. -/
  created : Bool
deriving DecidableEq, Repr

/-- What the stages work on. -/
structure Specialization where
  model : Model
  options : Options
  program : Program := .empty
  facts : FieldFacts := .empty
  constancy : Constancy := .none
  memo : CallMemo := .empty
  diagnostics : List Diagnostic := []
  /-- The entity or director whose constructor creates an object. -/
  ledger : SortedMap ObjectId ObjectId := .empty
  sites : SortedMap (ClassId × ObjectId) Site := .empty
  /-- The field of an object's class that refers to another object. -/
  refFields : SortedMap (ObjectId × ObjectId) FieldId := .empty
  /-- The field that holds the value of a variable. -/
  valueFields : SortedMap ObjectId FieldId := .empty
  /-- The field that holds the text of a settable attribute. -/
  expressionFields : SortedMap ObjectId FieldId := .empty
  /-- The method that computes a variable that can change. -/
  computeMethods : SortedMap ObjectId MethodId := .empty
  classOf : SortedMap ObjectId ClassId := .empty
  objectOf : SortedMap ClassId ObjectId := .empty
  actorClasses : List ClassId := []
  attributeClasses : List ClassId := []
  /-- How many closure classes have been named. -/
  closures : Nat := 0

abbrev Specialize (α : Type) : Type := EStateM Fault Specialization α

namespace Specialization
/-- The start: a model without a program. -/
def start (m : Model) (o : Options) : Specialization where
  model := m
  options := o
  diagnostics := m.diagnostics

def classOf? (s : Specialization) (o : ObjectId) : Option ClassId := s.classOf.get? o
def objectOf? (s : Specialization) (c : ClassId) : Option ObjectId := s.objectOf.get? c
def isActorClass (s : Specialization) (c : ClassId) : Bool := s.actorClasses.contains c

def objectOfMethod? (s : Specialization) (m : MethodId) : Option ObjectId :=
  s.objectOf? (s.program.methodDecl m).owner

def siteLocal? (s : Specialization) (c : ClassId) (o : ObjectId) : Option (StmtId × LocalId) := do
  let site ← s.sites.get? (c, o)
  let init ← s.program.method? c "<init>"
  let stmt ← (s.program.body init).stmt? site.stmt
  let l ← stmt.action.target?
  return (site.stmt, l)

def sanitize (name : String) : String :=
  name.map fun c => if c.isAlphanum || c = '_' then c else '_'

def relativeName (fullName : String) : String :=
  match fullName.toList.dropWhile (· ≠ '.') with
  | _ :: rest => String.ofList rest
  | [] => fullName

def className (s : Specialization) (o : ObjectId) : String :=
  let top := s.options.targetPackage ++ "." ++ sanitize (s.model.name Model.top)
  if o = Model.top then top else top ++ "_" ++ sanitize (relativeName (s.model.fullName o))

def objectType (s : Specialization) (o : ObjectId) : CodeType :=
  .object <|
    match s.model.kind o with
    | .composite | .atomic _ _ | .director _ => s.className o
    | .port p => if p.parameter.isSome then Platform.parameterPortClass else Platform.portClass
    | .relation => Platform.relationClass
    | .var v => if v.isPortParameter then Platform.portParameterClass else Platform.parameterClass
    | .settable _ => Platform.stringAttributeClass

def warn (s : Specialization) (d : Diagnostic) : Specialization :=
  { s with diagnostics := Diagnostic.addNew s.diagnostics d }

/-- How to get from an object to another one: the containers to climb, then the objects to descend
to. -/
def path (m : Model) (source target : ObjectId) : Except Fault (List ObjectId × List ObjectId) :=
  let onWay (c : ObjectId) : Bool := c = target || m.isAncestor c target
  let above := source :: m.ancestors source
  match above.find? onWay with
  | none => .error (.inconsistent (.noPath (m.fullName source) (m.fullName target)))
  | some turn =>
    .ok ((above.takeWhile (!onWay ·) ++ [turn]).drop 1,
      ((target :: m.ancestors target).takeWhile (· ≠ turn)).reverse)
end Specialization

namespace Specialize
def check {α : Type} (r : Except Fault α) : Specialize α :=
  match r with
  | .ok a => return a
  | .error f => throw f

def onProgram {α : Type} (f : Program → α × Program) : Specialize α :=
  modifyGet fun s =>
    let (a, p) := f s.program
    (a, { s with program := p })

def register (o : ObjectId) (c : ClassId) : Specialize Unit := do
  let s ← get
  if s.classOf.contains o || s.objectOf.contains c then
    throw (.inconsistent (.registeredTwice (s.model.fullName o)))
  let s := { s with classOf := s.classOf.insert o c, objectOf := s.objectOf.insert c o }
  match (s.program.classDecl c).kind with
  | .actor => set { s with actorClasses := s.actorClasses ++ [c] }
  | .attribute_ => set { s with attributeClasses := s.attributeClasses ++ [c] }
  | .closure => set s

def classFor (o : ObjectId) : Specialize ClassId := do
  let s ← get
  match s.classOf? o with
  | some c => return c
  | none => throw (.inconsistent (.lacks "class registry" (s.model.fullName o) "generated class"))

def methodNamed (c : ClassId) (name : String) : Specialize MethodId := do
  let s ← get
  match s.program.method? c name with
  | some m => return m
  | none => throw (.inconsistent (.lacks "program" (s.program.className c) ("method " ++ name)))

def recordCreation (o creator : ObjectId) : Specialize Unit := do
  let s ← get
  set { s with ledger := s.ledger.insert o creator }
  match s.ledger.get? o with
  | some first =>
    throw (.inconsistent
      (.createdTwice (s.model.fullName o) (s.model.fullName first) (s.model.fullName creator)))
  | none => return

def recordSite (c : ClassId) (o : ObjectId) (stmt : StmtId) (created : Bool) : Specialize Unit :=
  modify fun s =>
    if s.sites.contains (c, o) then s
    else { s with sites := s.sites.insert (c, o) ⟨stmt, created⟩ }

def closureName (c : ClassId) : Specialize String :=
  modifyGet fun s =>
    let n := s.closures + 1
    (s.program.className c ++ "_CGfunction_" ++ toString n, { s with closures := n })

def onFacts (f : FieldFacts → Except Fault FieldFacts) : Specialize Unit := do
  let s ← get
  let facts ← check (f s.facts)
  set { s with facts := facts }
end Specialize
end DataflowSpecializer
