import DataflowSpecializer.Generate.Actor
import DataflowSpecializer.Model.Schedule

/-! # Classes of a model -/
namespace DataflowSpecializer
structure Certificate where
  obligations : List (String × Bool)
deriving DecidableEq, Repr

namespace Certificate
def holds (c : Certificate) : Bool := c.obligations.all (·.2)

def failed (c : Certificate) : List String :=
  c.obligations.filterMap fun (name, ok) => if ok then none else some name
end Certificate

namespace Classes
open Platform Draft Specialize

def owners (m : Model) : List ObjectId := m.entities.flatMap fun e => e :: (m.director? e).toList

/-! ### Constructors -/
structure Placed where
  locals : SortedMap ObjectId LocalId
  /-- The objects, the statements that define the references, and whether they create them. -/
  sites : List (ObjectId × Nat × Bool)

namespace Placed
def empty : Placed := ⟨.empty, []⟩

def note (p : Placed) (o : ObjectId) (l : LocalId) (back : Nat) (created : Bool) :
    Drafting Placed := do
  let d ← get
  return ⟨p.locals.insert o l, p.sites ++ [(o, d.pending.size - back, created)]⟩
end Placed

def create (m : Model) (this : LocalId) (p : Placed) (o : ObjectId) (className : String)
    (extra : List Operand) : Drafting (LocalId × Placed) := do
  let l ← newObject (m.name o) className ([.loc this, .string (m.name o)] ++ extra)
  let p ← p.note o l 1 true
  return (l, p)

def createAttribute (s : Specialization) (this : LocalId) (p : Placed) (o : ObjectId) :
    Drafting Placed :=
  match s.model.kind o with
  | .var v => do
    let className := if v.isPortParameter then portParameterClass else parameterClass
    let (l, p) ← create s.model this p o className []
    if v.expression ≠ "" then call l setExpression [.string v.expression]
    match v.port with
    | some port =>
      let q ← callValue l getParameterPort []
      p.note port q 1 true
    | none => return p
  | .settable expression => do
    let (l, p) ← create s.model this p o stringAttributeClass []
    call l setExpression [.string expression]
    return p
  | .director _ => do
    let (_, p) ← create s.model this p o (s.className o) []
    return p
  | _ => return p

/-- A port; the port of a port-parameter comes with the parameter. -/
def createPort (s : Specialization) (this : LocalId) (p : Placed) (o : ObjectId) :
    Drafting Placed :=
  match s.model.port? o with
  | none => return p
  | some info =>
    if info.parameter.isSome then return p
    else do
      let (l, p) ← create s.model this p o portClass
        [.const (.bool info.input), .const (.bool info.output)]
      if info.multiport then call l setMultiport [.const (.bool true)]
      return p

def createEntity (s : Specialization) (this : LocalId) (p : Placed) (o : ObjectId) :
    Drafting Placed := do
  let (_, p) ← create s.model this p o (s.className o) []
  return p

def createRelation (s : Specialization) (this : LocalId) (p : Placed) (o : ObjectId) :
    Drafting Placed := do
  let (_, p) ← create s.model this p o relationClass []
  return p

def createAll (step : Placed → ObjectId → Drafting Placed) :
    Placed → List ObjectId → Drafting Placed
  | p, [] => return p
  | p, o :: os => do
    let p ← step p o
    createAll step p os

def linkedPort (m : Model) (relation : ObjectId) (p : Placed) (port : ObjectId) :
    Generation (LocalId × Placed) :=
  match p.locals.get? port with
  | some l => return (l, p)
  | none =>
    match (m.container port).bind p.locals.get? with
    | none => throw (.inconsistent (.linkOutside (m.fullName relation)))
    | some owner => do
      let l ← lookup owner .port (m.name port) (.object portClass)
      -- The reference is there before the cast.
      let p ← p.note port l 2 false
      return (l, p)

def linkPorts (m : Model) (relation : ObjectId) (l : LocalId) :
    Placed → List ObjectId → Generation Placed
  | p, [] => return p
  | p, port :: ports => do
    let (q, p) ← linkedPort m relation p port
    call q link [.loc l]
    linkPorts m relation l p ports

def linkRelations (m : Model) : Placed → List ObjectId → Generation Placed
  | p, [] => return p
  | p, r :: rs => do
    let p ← linkPorts m r ((p.locals.get? r).getD 0) p (m.object r).links
    linkRelations m p rs

def constructor (s : Specialization) (o : ObjectId) (superclass : String) : Generation Placed := do
  let m := s.model
  let this ← Generation.receiver "materialize" "constructor"
  if o = Model.top then
    callSpecial this (initOf superclass []) []
    call this setName [.string (m.name o)]
  else
    let container ← Generation.param "materialize" "constructor" 0
    let name ← Generation.param "materialize" "constructor" 1
    callSpecial this (structuralInit superclass) [.loc container, .loc name]
  let contents := m.object o
  let p ← createAll (createAttribute s this) .empty contents.attributes
  let p ← createAll (createPort s this) p contents.ports
  let p ← createAll (createEntity s this) p contents.entities
  let p ← createAll (createRelation s this) p contents.relations
  let p ← linkRelations m p contents.relations
  ret none
  return p

def recordSites (o : ObjectId) (c : ClassId) : List (ObjectId × StmtId × Bool) → Specialize Unit
  | [] => return
  | (child, stmt, created) :: rest => do
    if created then recordCreation child o
    recordSite c child stmt created
    recordSites o c rest

def addConstructor (o : ObjectId) (c : ClassId) : Specialize Unit := do
  let params := if o = Model.top then [] else [.object namedObjectClass, .string]
  let m ← onProgram fun p => p.addMethod c "<init>" params .void false
  let s ← get
  let sites ← writeBody m (s.program.body m) (constructor s o (s.program.classDecl c).superclass)
    fun placed d =>
      (placed.sites.map fun (o, i, created) => (o, d.body.nextStmt + i, created), d.finish)
  recordSites o c sites

/-! ### Lifecycle -/
def lifecycleAnswer (t : CodeType) : Option Operand :=
  if t = .boolean then some (.const (.bool true)) else none

def addLifecycle (c : ClassId) : List (String × CodeType) → Specialize Unit
  | [] => return
  | (name, t) :: rest => do
    let m ← onProgram fun p => p.addMethod c name [] t false
    extend m (ret (lifecycleAnswer t))
    addLifecycle c rest

def fireChild (this : LocalId) (name className : String) : Drafting Unit := do
  let skip ← label
  let child ← lookup this .entity name (.object className)
  let ready ← callValue child (lifecycleMethod className "prefire") []
  branchFalse ready skip
  call child (lifecycleMethod className "fire") []
  call child (lifecycleMethod className "postfire") []
  place skip

def callChild (method : String) (this : LocalId) (name className : String) : Drafting Unit := do
  let child ← lookup this .entity name (.object className)
  call child (lifecycleMethod className method) []

def forChildren (step : String → String → Drafting Unit) : List (String × String) → Drafting Unit
  | [] => return
  | (name, className) :: rest => do
    step name className
    forChildren step rest

/-- A lifecycle method of a composite: it does its part on each inner entity. -/
def compositeMethod (children : List (String × String)) (method : String) (t : CodeType) :
    Drafting Unit := do
  match (← get).body.receiver with
  | none => pure ()
  | some this =>
    if method = "fire" then forChildren (fireChild this) children
    else if t ≠ .boolean then forChildren (callChild method this) children
  ret (lifecycleAnswer t)

def writeLifecycle (c : ClassId) (children : List (String × String)) :
    List (String × CodeType) → Specialize Unit
  | [] => return
  | (name, t) :: rest => do
    let m ← methodNamed c name
    writeAnew m (compositeMethod children name t)
    writeLifecycle c children rest

def scheduleComposite (o : ObjectId) (c : ClassId) : Specialize Unit := do
  let s ← get
  writeLifecycle c ((s.model.firingOrder o).map fun e => (s.model.name e, s.className e)) lifecycle

def execute (iterations : ObjectId) (className : String) : Generation Unit := do
  let this ← Generation.receiver "materialize" "execute"
  call this (lifecycleMethod className "preinitialize") []
  call this (lifecycleMethod className "initialize") []
  let param ← Generation.reference this Model.top iterations
  let v ← callValue param getToken []
  let scalar ← cast "count" (.object scalarToken) v
  let n ← callValue scalar (accessor scalarToken "intValue" .int) []
  let i ← constant "i" (.int 0)
  let head ← label
  let run ← label
  let done ← label
  place head
  branch .le (.loc n) (.int 0) run
  branch .ge (.loc i) (.loc n) done
  place run
  let ok ← callValue this (lifecycleMethod className "prefire") []
  branchFalse ok done
  call this (lifecycleMethod className "fire") []
  let more ← callValue this (lifecycleMethod className "postfire") []
  assign i (.binary .add (.loc i) (.int 1))
  branchFalse more done
  goto head
  place done
  call this (lifecycleMethod className "wrapup") []
  ret none

def addExecute : Specialize Unit := do
  let c ← classFor Model.top
  let s ← get
  match s.model.director? Model.top with
  | none => throw (.inconsistent (.lacks "materialize" "top-level composite" "director"))
  | some director =>
    match s.model.attribute? director Model.iterations with
    | none => throw (.inconsistent (.lacks "materialize" "director" "iterations"))
    | some iterations =>
      let m ← onProgram fun p => p.addMethod c "execute" [] .void false
      extend m (execute iterations (s.program.className c))

def classShape (k : Model.Kind) : String × ClassKind :=
  match k with
  | .director _ => (sdfDirectorClass, .attribute_)
  | .composite => (compositeActorClass, .actor)
  | _ => (atomicActorClass, .actor)

def addClasses : List ObjectId → Specialize Unit
  | [] => return
  | o :: os => do
    let s ← get
    let (superclass, kind) := classShape (s.model.kind o)
    let c ← onProgram fun p => p.addClass (s.className o) superclass kind
    register o c
    addClasses os

def addConstructors : List ObjectId → Specialize Unit
  | [] => return
  | o :: os => do
    let c ← classFor o
    addConstructor o c
    if (← get).model.isEntity o then addLifecycle c lifecycle
    addConstructors os

def addBehaviour : List ObjectId → Specialize Unit
  | [] => return
  | o :: os => do
    let c ← classFor o
    match (← get).model.kind o with
    | .composite => scheduleComposite o c
    | .atomic _ (some kind) => Template.installKind o c kind
    | _ => pure ()
    addBehaviour os

def isBijection (s : Specialization) : Bool :=
  let os := owners s.model
  (os.all fun o => (s.classOf? o).any fun c => s.objectOf? c = some o) && s.classOf.size = os.length

def creations (s : Specialization) (o : ObjectId) : Nat :=
  s.sites.entries.countP fun (key, site) => key.2 = o && site.created

def isUniqueCreation (s : Specialization) : Bool :=
  s.model.ids.all fun o =>
    if o = Model.top then !s.ledger.contains o && creations s o = 0
    else s.ledger.contains o && creations s o = 1

def certify (s : Specialization) : Certificate :=
  ⟨[("M1_bijection", isBijection s), ("M2_unique_creation", isUniqueCreation s)]⟩

def generate : Specialize Certificate := do
  let s ← get
  check s.model.checkSupported
  let constancy ← check (Constancy.ofModel s.model)
  set { s with constancy := constancy }
  let os := owners s.model
  addClasses os
  addConstructors os
  addBehaviour os
  addExecute
  return certify (← get)
end Classes
end DataflowSpecializer
