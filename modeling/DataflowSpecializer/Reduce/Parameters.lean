import DataflowSpecializer.Analysis.Identity
import DataflowSpecializer.Generate.Expression

/-! # Fields for parameters -/
namespace DataflowSpecializer.Parameters
open Platform Specialize Generation

def ownerOf (m : Model) (a : ObjectId) : Except Fault ObjectId :=
  match m.container a with
  | some o => .ok o
  | none => .error (.inconsistent (.lacks "parameter inlining" (m.fullName a) "container"))

def computeCode (v owner : ObjectId) (c : ClassId) (f : FieldId) (e : Option Expr) :
    Generation Unit := do
  let m := (← spec).model
  let this ← receiver (m.fullName v) "compute method"
  match e with
  | none => Draft.storeField this f (.const .null)
  | some e =>
    let (l, t) ← (ExprSite.mk c (some owner) (some v) (m.fullName v) .empty).generate e
    let type := m.variableType v
    if type.isConcrete ∧ t ≠ type then
      let l ← Draft.convert l type
      Draft.storeField this f (.loc l)
    else Draft.storeField this f (.loc l)
  Draft.ret none

def addCompute (v owner : ObjectId) (c : ClassId) (f : FieldId) (name : String) :
    Specialize Unit := do
  let method ← onProgram fun p => p.addMethod c ("_CGcompute_" ++ name) [] .void false
  let e ← check ((← get).model.parse v)
  extend method (computeCode v owner c f e)
  modify fun s => { s with computeMethods := s.computeMethods.insert v method }

def fixField (f : FieldId) (value : Option Value) : Specialize Unit := do
  modify fun s =>
    { s with program := s.program.modifyField f fun d =>
        { d with isFinal := true, initial := value } }
  match value with
  | some v => onFacts fun facts => facts.setValue f v
  | none => return

/-- Makes the field of a variable; answers whether it can change. -/
def addVariable (v owner : ObjectId) (c : ClassId) (info : Model.Variable) : Specialize Bool := do
  let s ← get
  let name := Specialization.sanitize (s.model.name v)
  let f ← onProgram fun p => p.addField c ("_CGvalue_" ++ name) tokenType
  onFacts fun facts => facts.setType f info.resolved
  modify fun s => { s with valueFields := s.valueFields.insert v f }
  if s.constancy.isConstant v then
    fixField f info.value
    return false
  else
    addCompute v owner c f name
    return true

def withoutField (s : Specialization) : List (ObjectId × ObjectId × ClassId × Model.Variable) :=
  s.model.variableIds.filterMap fun v => do
    if s.valueFields.contains v then none
    else
      let owner ← s.model.container v
      let c ← s.classOf? owner
      let info ← s.model.var? v
      return (v, owner, c, info)

/-- Makes fields; answers the variables that can change. -/
def addVariables :
    List (ObjectId × ObjectId × ClassId × Model.Variable) → Specialize (List ObjectId)
  | [] => return []
  | (v, owner, c, info) :: rest => do
    let changing ← addVariable v owner c info
    let vs ← addVariables rest
    return if changing then v :: vs else vs

def withoutExpression (s : Specialization) : List (ObjectId × ClassId × String) :=
  s.model.ids.filterMap fun a =>
    match s.model.kind a with
    | .settable text =>
      if s.expressionFields.contains a then none
      else ((s.model.container a).bind s.classOf?).map fun c => (a, c, text)
    | _ => none

def addExpressions : List (ObjectId × ClassId × String) → Specialize Unit
  | [] => return
  | (a, c, text) :: rest => do
    let name := "_CGexpr_" ++ Specialization.sanitize ((← get).model.name a)
    let f ← onProgram fun p => p.addField c name .string
    fixField f (some (.string text))
    modify fun s => { s with expressionFields := s.expressionFields.insert a f }
    addExpressions rest

def callComputes (s : Specialization) (this : LocalId) (self : ObjectId) :
    List ObjectId → Generation Unit
  | [] => return
  | v :: vs => do
    match s.computeMethods.get? v with
    | none => pure ()
    | some method =>
      match ownerOf s.model v with
      | .error f => throw f
      | .ok owner =>
        let target ← reference this self owner
        Draft.call target (s.program.methodRef method) []
    callComputes s this self vs

def computeAtStart (vs : List ObjectId) : Specialize Unit := do
  let c ← classFor Model.top
  let init ← methodNamed c "<init>"
  let s ← get
  let order := s.constancy.changingOrder.filter vs.contains
  let code : Generation Unit := do
    let this ← receiver "parameter inlining" "constructor"
    callComputes s this Model.top order
  writeBody init (s.program.body init) code
    fun _ d => ((), (d.body.insertBeforeReturn d.actions).2)

/-- Makes the fields and methods that are missing; answers how many fields. -/
def addMissing : Specialize Nat := do
  let missing := withoutField (← get)
  let changing ← addVariables missing
  let texts := withoutExpression (← get)
  addExpressions texts
  if !changing.isEmpty then computeAtStart changing
  return missing.length + texts.length

inductive Access where
  /-- Reads a variable. -/
  | read (stmt : StmtId) (result : LocalId) (v : ObjectId)
  /-- Reads the expression of a variable. -/
  | text (stmt : StmtId) (result : LocalId) (text : String)
  /-- Reads the text of an attribute. -/
  | expression (stmt : StmtId) (result : LocalId) (a : ObjectId)
  /-- Writes a variable. -/
  | write (stmt : StmtId) (base : LocalId) (value : Operand) (v : ObjectId)
  /-- Says nothing new. -/
  | drop (stmt : StmtId)

inductive Finding where
  | access (a : Access)
  /-- A read through an ambiguous reference, by the name of the method. -/
  | ambiguous (call : String)

def isAccess (call : Invocation) : Bool :=
  match call.method.name, call.args.length with
  | "getToken", 0 | "getExpression", 0 | "setToken", 1 | "setExpression", 1 => true
  | _, _ => false

def examineKnown (s : Specialization) (m : MethodId) (self : Bool) (stmt : Stmt)
    (call : Invocation) (base : LocalId) (a : ObjectId) : Except Fault (Option Access) :=
  match call.method.name, s.model.kind a, stmt.action.target? with
  | "getToken", .var _, some l =>
    .ok (if self && (s.valueFields.get? a).any s.program.isLiveField then
      some (.read stmt.id l a) else none)
  | "getExpression", .var v, some l => .ok (some (.text stmt.id l v.expression))
  | "getExpression", .settable _, some l =>
    .ok (if self && s.expressionFields.contains a then some (.expression stmt.id l a) else none)
  | "setToken", .var _, _ =>
    if s.constancy.isConstant a then
      .error (.inconsistent (.writesConstant (s.model.fullName a) (s.program.methodName m)))
    else
      .ok (if self then some (.write stmt.id base (call.args.headD (.const .null)) a) else none)
  | "setExpression", .var _, _ | "setExpression", .settable _, _ =>
    if (s.program.methodDecl m).name = "<init>" ∧
        call.args.head? = some (.string ((s.model.expression? a).getD "")) then
      .ok (some (.drop stmt.id))
    else .error (.unsupported (s.model.fullName a) .lateExpression)
  | _, _, _ => .ok none

def examine (s : Specialization) (m : MethodId) (self : Bool) (map : ObjectMap) (stmt : Stmt)
    (call : Invocation) : Except Fault (Option Finding) :=
  if call.dispatch ≠ .virtual then .ok none
  else if call.method.isCosmetic && stmt.action == .invoke call then
    .ok (some (.access (.drop stmt.id)))
  else if !isAccess call then .ok none
  else
    match call.base with
    | none => .ok none
    | some base =>
      match map.identity? base with
      | none => .ok none
      | some .ambiguous =>
        let name := call.method.name
        if name.startsWith "set" then
          .error (.unsupported (s.program.methodName m) (.ambiguousWrite name))
        else .ok (some (.ambiguous name))
      | some (.object a) => (examineKnown s m self stmt call base a).map fun r => r.map .access

def findings (s : Specialization) (m : MethodId) : Except Fault (List Finding) := do
  let b := s.program.body m
  let self := b.receiver.isSome && (s.objectOfMethod? m).isSome
  let map := s.objectMap m
  let found ← b.calls.mapM fun (stmt, call) => examine s m self map stmt call
  return found.filterMap id

/-! ### Replacement -/
def valueField (s : Specialization) (v : ObjectId) : Except Fault FieldId :=
  match s.valueFields.get? v with
  | some f => .ok f
  | none => .error (.inconsistent (.lacks "parameter inlining" (s.model.fullName v) "value field"))

def expressionField (s : Specialization) (a : ObjectId) : Except Fault FieldId :=
  match s.expressionFields.get? a with
  | some f => .ok f
  | none =>
    .error (.inconsistent (.lacks "parameter inlining" "settable attribute" "expression field"))

structure Self where
  this : LocalId
  object : ObjectId

def referToOwner (s : Specialization) (self : Self) (a : ObjectId) : Generation LocalId :=
  match ownerOf s.model a with
  | .error f => throw f
  | .ok owner => reference self.this self.object owner

/-- Tells the owners of variables that these have changed; `base` refers to the first of them. -/
def notifyAll (s : Specialization) (self : Self) (v : ObjectId) (base : LocalId) :
    List ObjectId → Generation Unit
  | [] => return
  | w :: ws => do
    match ownerOf s.model w with
    | .error f => throw f
    | .ok owner =>
      match (s.classOf? owner).bind fun c => s.program.method? c "attributeChanged" with
      | none => pure ()
      | some changed =>
        let target ← reference self.this self.object owner
        let l ← if w = v then pure base else reference self.this self.object w
        let arg ← Draft.cast "attribute" (.object attributeClass) l
        Draft.call target (s.program.methodRef changed) [.loc arg]
    notifyAll s self v base ws

def writeCode (s : Specialization) (self : Self) (base : LocalId) (value : Operand)
    (v : ObjectId) : Generation Unit := do
  match valueField s v with
  | .error f => throw f
  | .ok f =>
    let type := s.model.variableType v
    let value ← match value with
      | .loc l =>
        if type.isConcrete then do
          let l ← Draft.convert l type
          pure (Operand.loc l)
        else pure (.loc l)
      | .const c => pure (.const c)
    let owner ← referToOwner s self v
    Draft.storeField owner f value
    let affected := s.constancy.affectedBy v
    callComputes s self.this self.object affected
    notifyAll s self v base (v :: affected)

def insertBefore (b : Body) (stmt : StmtId) (actions : List Action) : Body :=
  match b.insertBefore? stmt actions with
  | some (_, b) => b
  | none => b

def replaceRead (s : Specialization) (self : Self) (b : Body) (stmt : StmtId) (result : LocalId)
    (a : ObjectId) (field : Except Fault FieldId) : Specialize (Except Fault Body × Body) := do
  match field with
  | .error f => return (.error f, b)
  | .ok f =>
    let (r, d) ← draft b (referToOwner s self a)
    match r with
    | .error e => return (.error e, d.body)
    | .ok owner =>
      let b := insertBefore d.body stmt d.actions
      let b := (b.replace stmt (.set result (.field owner f))).2
      return (.ok b, b)

def replace (s : Specialization) (self : Option Self) (b : Body) (a : Access) :
    Specialize (Except Fault Body × Body) :=
  let needSelf (k : Self → Specialize (Except Fault Body × Body)) :
      Specialize (Except Fault Body × Body) :=
    match self with
    | some self => k self
    | none =>
      return (.error (.inconsistent (.lacks "parameter inlining" "rewrite site" "receiver")), b)
  match a with
  | .drop stmt =>
    let b := (b.remove stmt).2
    return (.ok b, b)
  | .text stmt result text =>
    let b := (b.replace stmt (.set result (.use (.string text)))).2
    return (.ok b, b)
  | .read stmt result v => needSelf fun self => replaceRead s self b stmt result v (valueField s v)
  | .expression stmt result a =>
    needSelf fun self => replaceRead s self b stmt result a (expressionField s a)
  | .write stmt base value v =>
    needSelf fun self => do
      let (r, d) ← draft b (writeCode s self base value v)
      match r with
      | .error e => return (.error e, d.body)
      | .ok _ =>
        let b := ((insertBefore d.body stmt d.actions).remove stmt).2
        return (.ok b, b)

def replaceAll (s : Specialization) (self : Option Self) :
    Body → List Access → Specialize (Except Fault Unit × Body)
  | b, [] => return (.ok (), b)
  | b, a :: as => do
    let (r, b) ← replace s self b a
    match r with
    | .error f => return (.error f, b)
    | .ok _ => replaceAll s self b as

def accesses (found : List Finding) : List Access :=
  found.filterMap fun
    | .access a => some a
    | .ambiguous _ => none

def warnings (s : Specialization) (m : MethodId) (found : List Finding) : List Diagnostic :=
  found.filterMap fun
    | .access _ => none
    | .ambiguous call =>
      some (.warning .ambiguousReference (s.program.methodName m)
        (call ++ "() on an ambiguous attribute reference left dynamic"))

/-- Replaces the accesses in a method; answers how many. -/
def reduceMethod (m : MethodId) : Specialize Nat := do
  let s ← get
  let found ← check (findings s m)
  set ((warnings s m found).foldl Specialization.warn s)
  let as := accesses found
  if as.isEmpty then return 0
  let s ← get
  let b := s.program.body m
  let self := match b.receiver, s.objectOfMethod? m with
    | some this, some o => some (Self.mk this o)
    | _, _ => none
  let (r, b) ← replaceAll s self b as
  setBody m b
  check r
  return as.length

def reduceMethods : List MethodId → Specialize Nat
  | [] => return 0
  | m :: ms => do
    let n ← reduceMethod m
    let k ← reduceMethods ms
    return n + k

/-- Makes fields for parameters and replaces the accesses; answers how much was done. -/
def reduce : Specialize Nat := do
  let n ← addMissing
  let k ← reduceMethods (← get).program.allLiveMethods
  return n + k
end DataflowSpecializer.Parameters
