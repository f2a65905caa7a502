import DataflowSpecializer.Specialization.State

/-! # Which object a local refers to -/
namespace DataflowSpecializer
inductive Identity where
  | object (o : ObjectId)
  /-- More than one object. -/
  | ambiguous
deriving DecidableEq, Repr

namespace Identity
def object? : Identity → Option ObjectId
  | .object o => some o
  | .ambiguous => none

def join (known : Option Identity) (incoming : Identity) : Identity :=
  match known with
  | none => incoming
  | some i => if i = incoming then i else .ambiguous
end Identity

/-- The objects that locals and fields refer to. -/
structure ObjectMap where
  locals : SortedMap LocalId Identity
  fields : SortedMap FieldId Identity
deriving DecidableEq

namespace ObjectMap
def empty : ObjectMap := ⟨.empty, .empty⟩
def identity? (m : ObjectMap) (l : LocalId) : Option Identity := m.locals.get? l
def object? (m : ObjectMap) (l : LocalId) : Option ObjectId := (m.identity? l).bind (·.object?)
def isAmbiguous (m : ObjectMap) (l : LocalId) : Bool := m.identity? l = some .ambiguous
def bound (m : ObjectMap) : Nat := m.locals.size

def addLocal (m : ObjectMap) (l : LocalId) (i : Identity) : ObjectMap :=
  { m with locals := m.locals.insert l (Identity.join (m.locals.get? l) i) }

def addField (m : ObjectMap) (f : FieldId) (i : Identity) : ObjectMap :=
  { m with fields := m.fields.insert f (Identity.join (m.fields.get? f) i) }

def addLocal? (m : ObjectMap) (l : LocalId) (i : Option Identity) : ObjectMap :=
  match i with
  | some i => m.addLocal l i
  | none => m

/-! ### Statements -/
def nameArgument? (call : Invocation) : Option String :=
  match call.args with
  | .const (.string s) :: _ => some s
  | _ => none

def isNavigation (name : String) : Bool :=
  ["getContainer", "getAttribute", "getPort", "getEntity", "getRelation"].contains name

def navigate? (model : Model) (o : ObjectId) (call : Invocation) : Option ObjectId :=
  let find (family : Model.Family) : Option ObjectId :=
    (nameArgument? call).bind (model.lookup? o family)
  match call.method.name with
  | "getContainer" => if call.args.isEmpty then model.container o else none
  | "getAttribute" => find .attribute
  | "getPort" =>
    -- Without a name it is the port of a port-parameter.
    if call.args.isEmpty then (model.var? o).bind (·.port) else find .port
  | "getEntity" => find .entity
  | "getRelation" => find .relation
  | _ => none

def callIdentity? (model : Model) (m : ObjectMap) (call : Invocation) : Option Identity :=
  if isNavigation call.method.name then
    match call.base.bind m.identity? with
    | none => none
    | some .ambiguous => some .ambiguous
    | some (.object o) => (navigate? model o call).map .object
  else none

def fieldIdentity? (facts : FieldFacts) (m : ObjectMap) (f : FieldId) : Option Identity :=
  match facts.object? f with
  | some o => some (.object o)
  | none => m.fields.get? f

def unify (m : ObjectMap) (l r : LocalId) : ObjectMap :=
  let m := m.addLocal? l (m.identity? r)
  m.addLocal? r (m.identity? l)

def step (model : Model) (facts : FieldFacts) (m : ObjectMap) : Action → ObjectMap
  | .assign (.loc l) (.use (.loc r)) => m.unify l r
  | .assign (.loc l) (.cast _ (.loc r)) => m.unify l r
  | .assign (.loc l) (.field _ f) => m.addLocal? l (fieldIdentity? facts m f)
  | .assign (.loc l) (.invoke call) => m.addLocal? l (callIdentity? model m call)
  | .assign (.field _ f) (.use (.loc r)) =>
    match facts.object? f with
    | some o => m.addLocal r (.object o)
    | none =>
      match m.identity? r with
      | some i => m.addField f i
      | none => m
  | _ => m

def round (b : Body) (model : Model) (facts : FieldFacts) (m : ObjectMap) : ObjectMap :=
  b.stmts.foldl (fun m s => m.step model facts s.action) m

def close (b : Body) (model : Model) (facts : FieldFacts) : Nat → ObjectMap → ObjectMap
  | 0, m => m
  | n + 1, m =>
    let m' := m.round b model facts
    if m' = m then m else close b model facts n m'

def resume (b : Body) (model : Model) (facts : FieldFacts) (m : ObjectMap) : ObjectMap :=
  close b model facts (4 * b.stmts.length + 1) m

def analyze (b : Body) (model : Model) (facts : FieldFacts) (receiver : Option ObjectId)
    (seeds : List (LocalId × ObjectId)) : ObjectMap :=
  let start := match b.receiver, receiver with
    | some this, some o => empty.addLocal this (.object o)
    | _, _ => empty
  resume b model facts (seeds.foldl (fun m (l, o) => m.addLocal l (.object o)) start)
end ObjectMap

namespace Specialization
/-- What the locals of a method refer to from the start: in a constructor, the container that is
passed, and what is created and found there. -/
def seeds (s : Specialization) (m : MethodId) : List (LocalId × ObjectId) :=
  let d := s.program.methodDecl m
  if d.name = "<init>" then
    let container := (s.objectOfMethod? m).bind s.model.container
    let passed := match container, d.body.params with
      | some o, l :: _ => [(l, o)]
      | _, _ => []
    passed ++ s.sites.keys.filterMap fun (c, o) =>
      if c = d.owner then (s.siteLocal? c o).map fun (_, l) => (l, o) else none
  else []

def objectMap (s : Specialization) (m : MethodId) : ObjectMap :=
  .analyze (s.program.body m) s.model s.facts (s.objectOfMethod? m) (s.seeds m)
end Specialization
end DataflowSpecializer
