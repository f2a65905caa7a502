import DataflowSpecializer.Model.Description
import DataflowSpecializer.Model.Graph

/-! # Building a model -/
namespace DataflowSpecializer.Model
abbrev Build (α : Type) : Type := StateT Model (Except Fault) α

namespace Build
open Description (compositeKind)

def modifyObject (o : ObjectId) (f : Object → Object) : Build Unit :=
  modify fun m => { m with objects := m.objects.modify o f }

def enter (container : ObjectId) (f : Family) (o : ObjectId) : Build Unit :=
  modifyObject container fun c =>
    match f with
    | .attribute => { c with attributes := c.attributes ++ [o] }
    | .port => { c with ports := c.ports ++ [o] }
    | .entity => { c with entities := c.entities ++ [o] }
    | .relation => { c with relations := c.relations ++ [o] }

def isValidName (name : String) : Bool := name ≠ "" && !name.toList.contains '.'

def add (container : Option ObjectId) (name : String) (kind : Kind) : Build ObjectId := do
  let m ← get
  if !isValidName name then throw (.model (.invalidName name))
  let o := m.objects.size
  match container with
  | none => set { m with objects := m.objects.push ⟨name, name, none, kind, [], [], [], [], []⟩ }
  | some c =>
    let fullName := m.fullName c ++ "." ++ name
    if (m.lookup? c kind.family name).isSome then throw (.model (.duplicate fullName))
    set { m with objects := m.objects.push ⟨name, fullName, some c, kind, [], [], [], [], []⟩ }
    enter c kind.family o
  return o

def readType (name : Option String) : Build (Option ValueType) :=
  match name with
  | none => return none
  | some n =>
    match ValueType.ofName? n with
    | some t => return some t
    | none => throw (.model (.unknownType n))

def addPort (entity : ObjectId) (name : String) (input output multiport : Bool)
    (declared : Option ValueType) (parameter : Option ObjectId) : Build ObjectId :=
  add (some entity) name
    (.port ⟨input, output, multiport, declared, declared.getD .unknown, parameter⟩)

def addAttribute (container : ObjectId) (a : Description.Attribute) : Build Unit := do
  let declared ← readType a.type
  match a.kind with
  | .stringAttribute => discard (add (some container) a.name (.settable a.expression))
  | .parameter =>
    discard (add (some container) a.name
      (.var ⟨a.expression, declared, none, .unknown, false, none⟩))
  | .portParameter =>
    let v : Variable := ⟨a.expression, declared, none, .unknown, true, none⟩
    let o ← add (some container) a.name (.var v)
    let p ← addPort container a.name true false false declared (some o)
    modifyObject o fun obj => { obj with kind := .var { v with port := some p } }

def addAttributes (container : ObjectId) : List Description.Attribute → Build Unit
  | [] => return
  | a :: as => do
    addAttribute container a
    addAttributes container as

/-- A director; it always has a number of iterations. -/
def addDirector (container : ObjectId) (d : Description.Director) : Build Unit := do
  let o ← add (some container) d.name (.director d.kind)
  let count := match d.parameters.find? fun p => p.name = iterations with
    | some p => p.expression
    | none => "1"
  addAttribute o ⟨iterations, count, .parameter, some "int"⟩
  addAttributes o (d.parameters.filter fun p => p.name ≠ iterations)

def libraryParameter (given : List Description.Attribute) (d : ParamDecl) : Description.Attribute :=
  match given.find? fun p => p.name = d.name with
  | some p => ⟨d.name, p.expression, d.kind, p.type.or d.type⟩
  | none => ⟨d.name, d.default, d.kind, d.type⟩

def addLibraryPorts (entity : ObjectId) (given : List Description.Port) : List PortDecl → Build Unit
  | [] => return
  | d :: ds => do
    let declared ← readType (((given.find? fun p => p.name = d.name).bind (·.type)).or d.type)
    discard (addPort entity d.name d.input d.output d.multiport declared none)
    addLibraryPorts entity given ds

def addOwnParameters (entity : ObjectId) : List Description.Attribute → Build Unit
  | [] => return
  | a :: as => do
    if ActorKind.isEditorAttribute a.name then
      modify fun m => { m with
        diagnostics := m.diagnostics ++
          [.warning .editorAttribute (m.fullName entity ++ "." ++ a.name)
            "editor-only attribute ignored"] }
    else addAttribute entity a
    addOwnParameters entity as

def addOwnPorts (entity : ObjectId) (kindName : String) (kind : Option ActorKind) :
    List Description.Port → Build Unit
  | [] => return
  | p :: ps => do
    let m ← get
    if kind.any fun k => !k.takesExtraPorts then
      throw (.model (.noSuchPort (m.fullName entity) kindName p.name))
    let declared ← readType p.type
    discard (addPort entity p.name (p.direction ≠ .output) (p.direction ≠ .input) p.multiport
      declared none)
    addOwnPorts entity kindName kind ps

def portAt? (m : Model) (composite : ObjectId) (path : String) : Option ObjectId :=
  let cs := path.toList
  match cs.dropWhile (· ≠ '.') with
  | _ :: port => do
    let child ← m.lookup? composite .entity (String.ofList (cs.takeWhile (· ≠ '.')))
    m.portNamed? child (String.ofList port)
  | [] => m.portNamed? composite path

def addLinks (composite relation : ObjectId) : List String → Build Unit
  | [] => return
  | path :: paths => do
    let m ← get
    match portAt? m composite path with
    | none => throw (.model (.unknownPort (m.fullName relation) path))
    | some p =>
      modifyObject relation fun r => { r with links := r.links ++ [p] }
      modifyObject p fun q => { q with links := q.links ++ [relation] }
      addLinks composite relation paths

def addRelations (composite : ObjectId) : List Description.Relation → Build Unit
  | [] => return
  | r :: rs => do
    let o ← add (some composite) r.name .relation
    addLinks composite o r.links
    addRelations composite rs

def addParts (entity : ObjectId) (kindName : String) (kind : Option ActorKind)
    (parameters : List Description.Attribute) (ports : List Description.Port)
    (director : Option Description.Director) : Build Unit := do
  let libraryParams := (kind.map ActorKind.params).getD []
  let libraryPorts := (kind.map ActorKind.ports).getD []
  addAttributes entity (libraryParams.map (libraryParameter parameters))
  addOwnParameters entity (parameters.filter fun p => !libraryParams.any fun d => d.name = p.name)
  addLibraryPorts entity ports libraryPorts
  addOwnPorts entity kindName kind
    (ports.filter fun p => !libraryPorts.any fun d => d.name = p.name)
  match director with
  | some d => addDirector entity d
  | none => return

mutual

def addEntity (container : Option ObjectId) : Description.Entity → Build Unit
  | ⟨name, kindName, parameters, ports, entities, relations, director⟩ => do
    let kind := if kindName = compositeKind then Kind.composite
      else .atomic kindName (ActorKind.ofName? kindName)
    let o ← add container name kind
    addParts o kindName (ActorKind.ofName? kindName) parameters ports director
    addEntities o entities
    addRelations o relations

def addEntities (container : ObjectId) : List Description.Entity → Build Unit
  | [] => return
  | e :: es => do
    addEntity (some container) e
    addEntities container es
end

def addModel (e : Description.Entity) : Build Unit := do
  if e.kind ≠ compositeKind then throw (.model (.topKind e.name e.kind))
  addEntity none e
  let m ← get
  if (m.director? top).isNone then addDirector top {}
end Build

def build (e : Description.Entity) : Except Fault Model :=
  match Build.addModel e empty with
  | .ok (_, m) => .ok m
  | .error f => .error f
end DataflowSpecializer.Model
