import DataflowSpecializer.Model.Graph

/-! # Firing order -/
namespace DataflowSpecializer.Model
def feeds (m : Model) (composite source target : ObjectId) : Bool :=
  source ≠ target && source ≠ composite && target ≠ composite &&
    (m.object composite).relations.any fun r =>
      let links := (m.object r).links
      (links.any fun p => m.container p = some source && (m.port? p).any (·.output)) &&
        links.any fun p => m.container p = some target && (m.port? p).any (·.input)

def nextToFire (m : Model) (composite : ObjectId) (children placed : List ObjectId) :
    Option ObjectId :=
  let waiting := children.filter fun c => !placed.contains c
  let sources (c : ObjectId) : List ObjectId := children.filter fun p => m.feeds composite p c
  (waiting.find? fun c => (sources c).all placed.contains).or waiting.head?

def fireAfter (m : Model) (composite : ObjectId) (children : List ObjectId) :
    Nat → List ObjectId → List ObjectId
  | 0, placed => placed
  | n + 1, placed =>
    match m.nextToFire composite children placed with
    | some c => m.fireAfter composite children n (placed ++ [c])
    | none => placed

def firingOrder (m : Model) (composite : ObjectId) : List ObjectId :=
  let children := (m.object composite).entities
  m.fireAfter composite children children.length []

def dataflowDirector : String := "SDF"

def checkKind (m : Model) (e : ObjectId) : Except Fault Unit :=
  match m.kind e with
  | .atomic name none => .error (.unsupported (m.fullName e) (.actorKind name))
  | _ => .ok ()

def checkDirector (m : Model) (e : ObjectId) : Except Fault Unit :=
  match m.director? e with
  | none => .ok ()
  | some d =>
    if e ≠ top then .error (.unsupported (m.fullName d) .nestedDirector)
    else
      match m.kind d with
      | .director kind =>
        if kind = dataflowDirector then .ok ()
        else .error (.unsupported (m.fullName d) (.directorKind kind))
      | _ => .ok ()

def checkPort (m : Model) (o : ObjectId) : Except Fault Unit :=
  match m.port? o with
  | none => .ok ()
  | some p =>
    let links := (m.object o).links
    if p.parameter.isSome && !links.isEmpty then
      .error (.unsupported (m.fullName o) .connectedPortParameter)
    else if 1 < links.length then .error (.unsupported (m.fullName o) (.channels links.length))
    else .ok ()

def checkSupported (m : Model) : Except Fault Unit :=
  m.entities.forM fun e => do
    m.checkKind e
    m.checkDirector e
    (m.object e).ports.forM m.checkPort
end DataflowSpecializer.Model
