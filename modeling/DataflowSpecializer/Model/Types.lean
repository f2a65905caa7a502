import DataflowSpecializer.Expression.Infer
import DataflowSpecializer.Model.Build

/-! # Values of variables, types of ports and variables -/
namespace DataflowSpecializer.Model
/-- The variables that have been evaluated; those with a blank expression have no value. -/
abbrev Values : Type := SortedMap ObjectId (Option Value)

def valueScope (m : Model) (values : Values) (owner : ObjectId) : Scope := fun name => do
  let v ← m.resolve? owner name
  let value ← values.get? v
  value

def occursIn (word : List Char) : List Char → Bool
  | [] => word.isEmpty
  | c :: cs => word.isPrefixOf (c :: cs) || occursIn word cs

def namesInterpreter (message : String) : Bool := occursIn "interpreter".toList message.toList

def evaluationFault (m : Model) (v : ObjectId) (cause : EvalError) : Fault :=
  if namesInterpreter cause.message then .unsupported (m.fullName v) (.expression cause)
  else .expression (m.fullName v) (.evaluation cause)

def evaluateExpr (m : Model) (values : Values) (v : ObjectId) (e : Expr) : Except Fault Value :=
  match e.evaluate (m.valueScope values v) with
  | .error cause => .error (m.evaluationFault v cause)
  | .ok value =>
    match (m.var? v).bind (·.declared) with
    | none => .ok value
    | some t =>
      match value.convert t with
      | .ok value => .ok value
      | .error cause => .error (.expression (m.fullName v) (.evaluation cause))

def named (m : Model) (v : ObjectId) (e : Expr) : List ObjectId :=
  e.freeIdentifiers.filterMap (m.resolve? v)

/-- Evaluates a variable after those it names. `path` holds the variables that wait for it; none
of them may be met again. The number bounds the length of the path. -/
def evaluateVariable (m : Model) : Nat → List ObjectId → Values → ObjectId → Except Fault Values
  | 0, _, _, v => .error (.expression (m.fullName v) .selfDependent)
  | n + 1, path, values, v =>
    if values.contains v then .ok values
    else if path.contains v then .error (.expression (m.fullName v) .selfDependent)
    else do
      match ← m.parse v with
      | none => return values.insert v none
      | some e =>
        let values ← (m.named v e).foldlM (m.evaluateVariable n (v :: path)) values
        let value ← m.evaluateExpr values v e
        return values.insert v (some value)

def variableValues (m : Model) : Except Fault Values :=
  m.variableIds.foldlM (m.evaluateVariable (m.variableIds.length + 1) []) .empty

def Variable.withValue (v : Variable) (value : Option Value) : Variable :=
  { v with
    value := value
    resolved := v.declared.getD (match value with | some x => x.type | none => .unknown) }

def setValues (m : Model) (values : Values) : Model :=
  { m with
    objects := m.objects.mapIdx fun o obj =>
      match obj.kind with
      | .var v => { obj with kind := .var (v.withValue ((values.get? o).join)) }
      | _ => obj }

structure KnownTypes where
  ports : SortedMap ObjectId ValueType
  vars : SortedMap ObjectId ValueType

def joinKnown (known : Option ValueType) (t : ValueType) : ValueType :=
  match known with
  | some s => s.lub t
  | none => t

def joinAll (ts : List ValueType) : Option ValueType :=
  ts.foldl (fun acc t => some (joinKnown acc t)) none

namespace KnownTypes
/-- The identifiers of an actor's expression: its inputs, then variables. -/
def actorScope (m : Model) (k : KnownTypes) (actor : ObjectId) : TypeScope := fun name =>
  let asVariable := (m.resolve? actor name).bind k.vars.get?
  match m.portNamed? actor name with
  | some p => if (m.port? p).any (·.input) then k.ports.get? p else asVariable
  | none => asVariable

def withUnknown (m : Model) (k : KnownTypes) (actor : ObjectId) : KnownTypes :=
  { k with
    ports := (m.object actor).ports.foldl
      (fun ports p => if ports.contains p then ports else ports.insert p .unknown) k.ports }

def expressionOutput (m : Model) (k : KnownTypes) (lenient : Bool) (actor : ObjectId) :
    Except Fault (Option ValueType) :=
  match m.attribute? actor ActorKind.expressionText with
  | none => .ok none
  | some a => do
    match ← m.parse a with
    | none => return none
    | some e =>
      let scope := actorScope m (if lenient then withUnknown m k actor else k) actor
      match e.infer scope with
      | .ok t => return some t
      | .error cause =>
        if lenient then throw (.expression (m.fullName a) (.evaluation cause)) else return none

def actorTypes (m : Model) (k : KnownTypes) (actor : ObjectId) (name : String) : Option ValueType :=
  match m.portNamed? actor name with
  | some p => k.ports.get? p
  | none => (m.attribute? actor name).bind k.vars.get?

/-- The type of a port without a declaration: of what feeds it, of its parameter, or of what its
actor sends. -/
def inferPort (m : Model) (k : KnownTypes) (lenient : Bool) (port : ObjectId) :
    Except Fault (Option ValueType) :=
  match m.container port, m.port? port with
  | some entity, some p =>
    match m.sources port with
    | s :: ss => .ok (joinAll ((s :: ss).filterMap k.ports.get?))
    | [] =>
      match p.parameter with
      | some v => .ok (k.vars.get? v)
      | none =>
        match m.actorKind? entity with
        | none => .ok none
        | some kind =>
          if !p.output then .ok none
          else if kind = .expression then expressionOutput m k lenient entity
          else .ok (kind.outputType (m.name port) (actorTypes m k entity))
  | _, _ => .ok none

/-- Takes over the type of a port; tells whether it is news. -/
def updatePort (m : Model) (lenient : Bool) (state : KnownTypes × Bool) (port : ObjectId) :
    Except Fault (KnownTypes × Bool) :=
  let (k, changed) := state
  if (m.port? port).any (·.declared.isSome) then .ok state
  else do
    match ← inferPort m k lenient port with
    | none => return state
    | some t =>
      if k.ports.get? port = some t then return (k, changed)
      else return ({ k with ports := k.ports.insert port t }, true)

def updateWritten (m : Model) (state : KnownTypes × Bool) (writer : ObjectId × ObjectId) :
    KnownTypes × Bool :=
  let (k, changed) := state
  let (actor, v) := writer
  if (m.var? v).any (·.declared.isSome) then state
  else
    match (m.portNamed? actor ActorKind.inputPort).bind k.ports.get? with
    | none => state
    | some t =>
      let joined := joinKnown (k.vars.get? v) t
      if k.vars.get? v = some joined then (k, changed)
      else ({ k with vars := k.vars.insert v joined }, true)

def portIds (m : Model) : List ObjectId := m.ids.filter fun o => (m.port? o).isSome

def round (m : Model) (lenient : Bool) (k : KnownTypes) : Except Fault (KnownTypes × Bool) := do
  let state ← (portIds m).foldlM (updatePort m lenient) (k, false)
  return m.writers.foldl (updateWritten m) state

/-- Rounds until nothing changes; the number says how many rounds may still bring changes. -/
def settle (m : Model) (lenient : Bool) : Nat → KnownTypes → Except Fault (Nat × KnownTypes)
  | n, k => do
    let (k, changed) ← round m lenient k
    if !changed then return (n - 1, k)
    else
      match n with
      | 0 => throw (.inconsistent .divergingTypes)
      | n + 1 => settle m lenient n k

def initial (m : Model) : KnownTypes where
  ports := SortedMap.ofList
    ((portIds m).filterMap fun p => ((m.port? p).bind (·.declared)).map fun t => (p, t))
  vars := SortedMap.ofList (m.variableIds.filterMap fun o =>
      match m.var? o with
      | some v => if v.declared.isSome || v.value.isSome then some (o, v.resolved) else none
      | none => none)

def roundBound (m : Model) : Nat := 4 * ((portIds m).length + (initial m).vars.size + 4)

def ofModel (m : Model) : Except Fault KnownTypes := do
  let (n, k) ← settle m false (roundBound m) (initial m)
  let (_, k) ← settle m true n k
  return k
end KnownTypes

def setTypes (m : Model) (k : KnownTypes) : Model :=
  { m with
    objects := m.objects.mapIdx fun o obj =>
      match obj.kind with
      | .port p => { obj with kind := .port { p with resolved := (k.ports.get? o).getD .unknown } }
      | .var v => { obj with kind := .var { v with resolved := (k.vars.get? o).getD v.resolved } }
      | _ => obj }

/-! ## Loading a model -/
/-- The model of a description: its objects, their values, their types. -/
def ofDescription (e : Description.Entity) : Except Fault Model := do
  let m ← build e
  let m := m.setValues (← m.variableValues)
  return m.setTypes (← KnownTypes.ofModel m)

def ofJson (text : String) : Except Fault Model :=
  match Description.Entity.ofJson text with
  | .error e => .error (.json e)
  | .ok e => ofDescription e
end DataflowSpecializer.Model
