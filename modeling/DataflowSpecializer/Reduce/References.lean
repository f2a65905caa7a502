import DataflowSpecializer.Analysis.Identity
import DataflowSpecializer.Generate.Workbench

/-! # Fields for references -/
namespace DataflowSpecializer
inductive Route where
  | container
  | contents (family : Model.Family)
deriving DecidableEq, Repr

namespace Route
def ofCall? (call : Invocation) : Option Route :=
  if call.dispatch ≠ .virtual then none
  else
    match call.method.name, call.args.length with
    | "getContainer", 0 => some .container
    | "getEntity", 1 => some (.contents .entity)
    | "getPort", 1 => some (.contents .port)
    | "getRelation", 1 => some (.contents .relation)
    | "getAttribute", 1 => some (.contents .attribute)
    | _, _ => none

def follow? (r : Route) (m : Model) (o : ObjectId) (call : Invocation) : Option ObjectId :=
  match r with
  | .container => m.container o
  | .contents family => (ObjectMap.nameArgument? call).bind (m.lookup? o family)

def fieldName (r : Route) (target : String) : String :=
  let name := Specialization.sanitize target
  match r with
  | .container => "_CGContainer"
  | .contents .entity => "_CGentity_" ++ name
  | .contents .port => "_CGport_" ++ name
  | .contents .relation => "_CGrelation_" ++ name
  | .contents .attribute => "_CGattr_" ++ name
end Route

namespace References
structure Known where
  method : MethodId
  stmt : StmtId
  result : LocalId
  base : LocalId
  owner : ObjectId
  target : ObjectId
  route : Route

inductive Finding where
  | known (k : Known)
  /-- A look-up on an ambiguous object, by the name of its method. -/
  | ambiguous (method : MethodId) (call : String)

def examine? (s : Specialization) (routes : List Route) (m : MethodId) (map : ObjectMap)
    (stmt : Stmt) : Option Finding := do
  let result ← stmt.action.target?
  let call ← stmt.action.call?
  let route ← (Route.ofCall? call).filter routes.contains
  let base ← call.base
  match ← map.identity? base with
  | .ambiguous => some (.ambiguous m call.method.name)
  | .object owner =>
    let _ ← s.classOf? owner
    let target ← route.follow? s.model owner call
    some (.known ⟨m, stmt.id, result, base, owner, target, route⟩)

def findings (s : Specialization) (routes : List Route) : List Finding :=
  s.program.allLiveMethods.flatMap fun m =>
    let map := s.objectMap m
    (s.program.body m).stmts.filterMap (examine? s routes m map)

def warning (s : Specialization) (m : MethodId) (call : String) : Diagnostic :=
  { Diagnostic.warning .ambiguousReference (s.program.methodName m)
      (call ++ "() on an ambiguous object left dynamic") with
    hint := some "the receiver may denote more than one model object" }

def superCall? (b : Body) : Option StmtId :=
  (b.stmts.find? fun s =>
    match s.action with
    | .invoke call => call.dispatch = .special
    | _ => false).map (·.id)

def storeContainer (b : Body) (this param : LocalId) (type : CodeType) (f : FieldId) : Body :=
  let write : Drafting Unit := do
    let c ← Draft.cast "container" type param
    Draft.storeField this f (.loc c)
  let (_, d) := write.run (.ofBody b)
  match (superCall? b).bind fun at_ => d.body.insertAfter? at_ d.actions with
  | some (_, b) => b
  | none => (d.body.insertAt 0 d.actions).2

def storeAtSite (b : Body) (this : LocalId) (f : FieldId) (at_ : StmtId) (l : LocalId) : Body :=
  match b.insertAfter? at_ [.assign (.field this f) (.use (.loc l))] with
  | some (_, b) => b
  | none => b

def storeAtEnd (s : Specialization) (b : Body) (this : LocalId) (owner target : ObjectId)
    (f : FieldId) : Except Fault Body := do
  let (up, down) ← Specialization.path s.model owner target
  let write : Drafting Unit := do
    let turn ← Draft.climb s this up
    let l ← Draft.descend s turn down
    Draft.storeField this f (.loc l)
  let (_, d) := write.run (.ofBody b)
  return (d.body.insertBeforeReturn d.actions).2

def storeReference (s : Specialization) (b : Body) (owner target : ObjectId) (f : FieldId)
    (route : Route) (site : Option (StmtId × LocalId)) : Except Fault Body :=
  match b.receiver with
  | none => .ok b
  | some this =>
    match route, b.params, site with
    | .container, param :: _, _ => .ok (storeContainer b this param (s.objectType target) f)
    | _, _, some (at_, l) => .ok (storeAtSite b this f at_ l)
    | _, _, none => storeAtEnd s b this owner target f

def addField (owner target : ObjectId) (route : Route) : Specialize FieldId := do
  let c ← Specialize.classFor owner
  let s ← get
  let f ← Specialize.onProgram fun p =>
    p.addField c (route.fieldName (s.model.name target)) (s.objectType target)
  Specialize.onFacts fun facts => facts.setObject f target
  modify fun s => { s with refFields := s.refFields.insert (owner, target) f }
  let s ← get
  let site := s.siteLocal? c target
  let init ← Specialize.methodNamed c "<init>"
  let b ← Specialize.check (storeReference s (s.program.body init) owner target f route site)
  Specialize.setBody init b
  return f

def field (owner target : ObjectId) (route : Route) : Specialize FieldId := do
  let s ← get
  match (s.refFields.get? (owner, target)).filter s.program.isLiveField with
  | some f => return f
  | none => addField owner target route

def applyAll : List Finding → Specialize Unit
  | [] => return
  | .ambiguous _ _ :: rest => applyAll rest
  | .known k :: rest => do
    let f ← field k.owner k.target k.route
    modify fun s =>
      let (_, b) := (s.program.body k.method).replace k.stmt (.set k.result (.field k.base f))
      { s with program := s.program.setBody k.method b }
    applyAll rest

/-- Reduces the look-ups of some routes; answers how many. -/
def reduce (routes : List Route) : Specialize Nat := do
  let s ← get
  let found := findings s routes
  set (found.foldl (fun t finding => match finding with
      | .ambiguous m call => t.warn (warning s m call)
      | .known _ => t) s)
  applyAll found
  return found.countP fun finding => match finding with
    | .known _ => true
    | .ambiguous _ _ => false

def toEntities : List Route := [.container, .contents .entity]
def toPorts : List Route := [.contents .port, .contents .relation]
def toAttributes : List Route := [.contents .attribute]
end References
end DataflowSpecializer
