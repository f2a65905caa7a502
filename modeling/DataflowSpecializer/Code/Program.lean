import DataflowSpecializer.Code.Body
import DataflowSpecializer.Value.Basic

/-! # Programs -/
namespace DataflowSpecializer
inductive ClassKind where
  | actor
  | attribute_
  /-- A function that captures values. -/
  | closure
deriving DecidableEq, Inhabited, Repr

structure ClassDecl where
  name : String
  superclass : String
  kind : ClassKind
  fields : List FieldId
  methods : List MethodId
  removed : Bool
deriving Inhabited

structure FieldDecl where
  owner : ClassId
  name : String
  type : CodeType
  isFinal : Bool
  /-- The value on entry, if it is known. -/
  initial : Option Value
  removed : Bool
deriving Inhabited

structure MethodDecl where
  owner : ClassId
  name : String
  params : List CodeType
  result : CodeType
  isStatic : Bool
  body : Body
  removed : Bool
deriving Inhabited

structure Program where
  classes : Array ClassDecl
  fields : Array FieldDecl
  methods : Array MethodDecl
  /-- The class that was last added under each name. -/
  index : SortedMap String ClassId

namespace Program
def empty : Program := ⟨#[], #[], #[], .empty⟩

instance : Inhabited Program := ⟨empty⟩

def classDecl (p : Program) (c : ClassId) : ClassDecl := p.classes.getD c default
def fieldDecl (p : Program) (f : FieldId) : FieldDecl := p.fields.getD f default
def methodDecl (p : Program) (m : MethodId) : MethodDecl := p.methods.getD m default
def className (p : Program) (c : ClassId) : String := (p.classDecl c).name
def body (p : Program) (m : MethodId) : Body := (p.methodDecl m).body

def setBody (p : Program) (m : MethodId) (b : Body) : Program :=
  { p with methods := p.methods.modify m fun d => { d with body := b } }

def modifyField (p : Program) (f : FieldId) (g : FieldDecl → FieldDecl) : Program :=
  { p with fields := p.fields.modify f g }

def addClass (p : Program) (name superclass : String) (kind : ClassKind) : ClassId × Program :=
  let id := p.classes.size
  (id, { p with
      classes := p.classes.push ⟨name, superclass, kind, [], [], false⟩
      index := p.index.insert name id })

def withdrawClass (p : Program) (c : ClassId) : Bool × Program :=
  let decl := p.classDecl c
  if c + 1 = p.classes.size ∧ decl.fields.isEmpty ∧ decl.methods.isEmpty then
    (true, { p with classes := p.classes.pop, index := p.index.erase decl.name })
  else (false, p)

def addField (p : Program) (c : ClassId) (name : String) (type : CodeType) : FieldId × Program :=
  let id := p.fields.size
  (id, { p with
      fields := p.fields.push ⟨c, name, type, false, none, false⟩
      classes := p.classes.modify c fun d => { d with fields := d.fields ++ [id] } })

/-- The body of a new method: a local for the receiver, if any, and one for each argument. -/
def entryBody (className : String) (params : List CodeType) (isStatic : Bool) : Body :=
  let b : Body :=
    if isStatic then .empty
    else
      let (this, b) := Body.empty.newLocal "this" (.object className)
      { b with receiver := some this }
  params.zipIdx.foldl (fun b (type, i) =>
      let (param, b) := b.newLocal ("p" ++ toString i) type
      { b with params := b.params ++ [param] })
    b

def addMethod (p : Program) (c : ClassId) (name : String) (params : List CodeType)
    (result : CodeType) (isStatic : Bool) : MethodId × Program :=
  let id := p.methods.size
  let body := entryBody (p.className c) params isStatic
  (id, { p with
      methods := p.methods.push ⟨c, name, params, result, isStatic, body, false⟩
      classes := p.classes.modify c fun d => { d with methods := d.methods ++ [id] } })

def isLiveClass (p : Program) (c : ClassId) : Bool := !(p.classDecl c).removed
def isLiveField (p : Program) (f : FieldId) : Bool := !(p.fieldDecl f).removed
def isLiveMethod (p : Program) (m : MethodId) : Bool := !(p.methodDecl m).removed

def liveClasses (p : Program) : List ClassId := (List.range p.classes.size).filter p.isLiveClass

def liveFields (p : Program) (c : ClassId) : List FieldId :=
  (p.classDecl c).fields.filter p.isLiveField

def liveMethods (p : Program) (c : ClassId) : List MethodId :=
  (p.classDecl c).methods.filter p.isLiveMethod

def allLiveMethods (p : Program) : List MethodId := p.liveClasses.flatMap p.liveMethods

def class? (p : Program) (name : String) : Option ClassId :=
  (p.index.get? name).filter p.isLiveClass

def field? (p : Program) (c : ClassId) (name : String) : Option FieldId :=
  (p.liveFields c).find? fun f => (p.fieldDecl f).name == name

def method? (p : Program) (c : ClassId) (name : String) : Option MethodId :=
  (p.liveMethods c).find? fun m => (p.methodDecl m).name == name

/-- The generated method that a reference means: the first with its name and number of
parameters. -/
def resolve? (p : Program) (ref : MethodRef) : Option MethodId :=
  (p.class? ref.className).bind fun c =>
    (p.liveMethods c).find? fun m =>
      (p.methodDecl m).name == ref.name && (p.methodDecl m).params.length == ref.params.length

def methodRef (p : Program) (m : MethodId) : MethodRef :=
  let d := p.methodDecl m
  ⟨p.className d.owner, d.name, d.params, d.result⟩

def methodName (p : Program) (m : MethodId) : String :=
  let d := p.methodDecl m
  p.className d.owner ++ "." ++ d.name

def removeMethod (p : Program) (m : MethodId) : Program :=
  { p with methods := p.methods.modify m fun d => { d with removed := true } }

def removeField (p : Program) (f : FieldId) : Program :=
  p.modifyField f fun d => { d with removed := true }

def removeClass (p : Program) (c : ClassId) : Program :=
  let d := p.classDecl c
  let p := { p with classes := p.classes.modify c fun d => { d with removed := true } }
  let p := d.methods.foldl removeMethod p
  d.fields.foldl removeField p
end Program
end DataflowSpecializer
