import DataflowSpecializer.Generate.Expression

/-! # Code of library actors -/
namespace DataflowSpecializer.Template
open Platform Draft

/-! ### Ports, parameters, values -/
def port (this : LocalId) (name : String) : Drafting LocalId :=
  lookup this .port name (.object portClass)

def parameter (this : LocalId) (name : String) : Drafting LocalId :=
  lookup this .attribute name (.object parameterClass)

def parameterValue (this : LocalId) (name : String) : Drafting LocalId := do
  callValue (← parameter this name) getToken []

def null : Operand := .const .null

def sendOutput (this v : LocalId) : Drafting Unit := do
  let out ← port this ActorKind.outputPort
  send out v

def takeInput (this : LocalId) (skip : Label) : Drafting LocalId := do
  let p ← port this ActorKind.inputPort
  readInput p skip

def readState (this : LocalId) (name : String) (f : FieldId) : Drafting LocalId :=
  readField name tokenType this f

/-! ### Lifecycle code

Each of these is the code of one method, given its receiver. -/

def constFire (this : LocalId) : Drafting Unit := do
  let v ← parameterValue this "value"
  sendOutput this v
  ret none

def rampInitialize (state : FieldId) (this : LocalId) : Drafting Unit := do
  let init ← parameterValue this "init"
  storeField this state (.loc init)
  ret none

def rampFire (state : FieldId) (this : LocalId) : Drafting Unit := do
  let s ← readState this "state" state
  sendOutput this s
  ret none

def rampPostfire (state : FieldId) (this : LocalId) : Drafting Unit := do
  let step ← parameterValue this "step"
  let s ← readState this "state" state
  let next ← binary "add" s step
  storeField this state (.loc next)
  ret (some (.const (.bool true)))

def rampAttributeChanged (state : FieldId) (changed this : LocalId) : Drafting Unit := do
  let done ← label
  let init ← parameter this "init"
  branch .ne (.loc changed) (.loc init) done
  let v ← callValue init getToken []
  storeField this state (.loc v)
  place done
  ret none

def scaleFire (this : LocalId) : Drafting Unit := do
  let done ← label
  let v ← takeInput this done
  let factor ← parameterValue this "factor"
  let r ← binary "multiply" factor v
  sendOutput this r
  place done
  ret none

def accumulate (this sum : LocalId) (portName op : String) : Drafting Unit := do
  let skip ← label
  let p ← port this portName
  let v ← readInput p skip
  let first ← label
  let joined ← label
  branch .eq (.loc sum) null first
  let acc ← binary op sum v
  assign sum (.use (.loc acc))
  goto joined
  place first
  if op = "subtract" then
    let negative ← callValue v (tokenUnary token "negate") []
    assign sum (.use (.loc negative))
  else assign sum (.use (.loc v))
  place joined
  place skip

def addSubtractFire (this : LocalId) : Drafting Unit := do
  let sum ← temp "sum" tokenType
  assign sum (.use null)
  accumulate this sum "plus" "add"
  accumulate this sum "minus" "subtract"
  let done ← label
  branch .eq (.loc sum) null done
  sendOutput this sum
  place done
  ret none

def absoluteValueFire (this : LocalId) : Drafting Unit := do
  let done ← label
  let v ← takeInput this done
  let result ← temp "result" tokenType
  let scalar ← label
  let out ← label
  let isComplex ← value "isComplex" .boolean (.instanceOf complexToken (.loc v))
  branchFalse isComplex scalar
  let c ← cast "complex" (.object complexToken) v
  let magnitude ← callValue c (tokenUnary complexToken "absolute") []
  assign result (.use (.loc magnitude))
  goto out
  place scalar
  let s ← cast "scalar" (.object scalarToken) v
  let absolute ← callValue s (tokenUnary scalarToken "absolute") []
  assign result (.use (.loc absolute))
  place out
  sendOutput this result
  place done
  ret none

def accumulatorInitialize (sum pending : FieldId) (this : LocalId) : Drafting Unit := do
  let init ← parameterValue this "init"
  storeField this sum (.loc init)
  storeField this pending null
  ret none

def accumulatorFire (sum pending : FieldId) (this : LocalId) : Drafting Unit := do
  let done ← label
  let ok ← label
  let v ← takeInput this done
  let s ← readState this "sum" sum
  let order ← callStatic typeLatticeCompare [.loc s, .loc v]
  branch .ne (.loc order) (.int ValueType.Comparison.incomparable.code) ok
  throwMessage "incomparable token types in accumulation"
  place ok
  let next ← binary "add" s v
  storeField this pending (.loc next)
  sendOutput this next
  place done
  ret none

def accumulatorPostfire (sum pending : FieldId) (this : LocalId) : Drafting Unit := do
  let done ← label
  let p ← readState this "pending" pending
  branch .eq (.loc p) null done
  storeField this sum (.loc p)
  storeField this pending null
  place done
  ret (some (.const (.bool true)))

def recorderFire (latest : FieldId) (this : LocalId) : Drafting Unit := do
  let done ← label
  let v ← takeInput this done
  storeField this latest (.loc v)
  place done
  ret none

def recorderLatest (latest : FieldId) (this : LocalId) : Drafting Unit := do
  let l ← readState this "latest" latest
  ret (some (.loc l))

def setVariableFire (actor scope : ObjectId) (this : LocalId) : Generation Unit := do
  let done ← label
  let v ← takeInput this done
  let owner ← Generation.reference this actor scope
  let named ← lookup this .attribute ActorKind.variableName (.object stringAttributeClass)
  let name ← callValue named getExpression []
  let found ← callValue owner getAttribute [.loc name]
  let target ← cast "variable" (.object variableClass) found
  call target setToken [.loc v]
  sendOutput this v
  place done
  ret none

def bindInputs (this : LocalId) (skip : Label) : ExprSite → FieldTypes → Drafting ExprSite
  | g, [] => return g
  | g, (name, t) :: inputs => do
    let p ← port this name
    let v ← readInput p skip
    bindInputs this skip (g.bind name v t) inputs

def expressionFire (g : ExprSite) (inputs : FieldTypes) (e : Expr)
    (this : LocalId) : Generation Unit := do
  let done ← label
  let g ← bindInputs this done g inputs
  let (v, _) ← g.generate e
  sendOutput this v
  place done
  ret none

def stateField (c : ClassId) (name : String) : Specialize FieldId :=
  Specialize.onProgram fun p => p.addField c name tokenType

/-- The method of a class to be written; the notification method is added if there is none. -/
def methodToWrite (c : ClassId) (name : String) : Specialize MethodId := do
  let s ← get
  match s.program.method? c name with
  | some m => return m
  | none =>
    if name = "attributeChanged" then
      Specialize.onProgram fun p => p.addMethod c name [.object attributeClass] .void false
    else Specialize.methodNamed c name

def install (c : ClassId) (name : String) (code : LocalId → Generation Unit) : Specialize Unit := do
  let m ← methodToWrite c name
  Specialize.writeAnew m do
    let this ← Generation.receiver "library template" "method"
    code this

def installPlain (c : ClassId) (name : String) (code : LocalId → Drafting Unit) : Specialize Unit :=
  install c name fun this => code this

def installRamp (c : ClassId) : Specialize Unit := do
  let state ← stateField c "_state"
  installPlain c "initialize" (rampInitialize state)
  installPlain c "fire" (rampFire state)
  installPlain c "postfire" (rampPostfire state)
  install c "attributeChanged" fun this => do
    let changed ← Generation.param "Ramp template" "attributeChanged" 0
    rampAttributeChanged state changed this

def installAccumulator (c : ClassId) : Specialize Unit := do
  let sum ← stateField c "_sum"
  let pending ← stateField c "_pending"
  installPlain c "initialize" (accumulatorInitialize sum pending)
  installPlain c "fire" (accumulatorFire sum pending)
  installPlain c "postfire" (accumulatorPostfire sum pending)

def inputsOf (m : Model) (actor : ObjectId) : FieldTypes :=
  ((m.object actor).ports.filter fun p => (m.port? p).any (·.input)).map fun p =>
    (m.name p, m.portType p)

def installExpression (actor : ObjectId) (c : ClassId) : Specialize Unit := do
  let m := (← get).model
  match m.attribute? actor ActorKind.expressionText with
  | none => throw (.inconsistent (.lacks "Expression template" "actor" "expression attribute"))
  | some a =>
    match ← Specialize.check (m.parse a) with
    | none => return
    | some e =>
      install c "fire"
        (expressionFire ⟨c, some actor, some actor, m.fullName a, .empty⟩ (inputsOf m actor) e)

def installSetVariable (actor : ObjectId) (c : ClassId) : Specialize Unit := do
  let m := (← get).model
  match m.container actor with
  | none => throw (.inconsistent (.lacks "SetVariable template" "actor" "container"))
  | some container =>
    let scope := ((m.writeTarget? actor).bind m.container).getD container
    install c "fire" (setVariableFire actor scope)

def installRecorder (c : ClassId) : Specialize Unit := do
  let latest ← stateField c "_latest"
  discard (Specialize.onProgram fun p => p.addMethod c "latest" [] tokenType false)
  installPlain c "fire" (recorderFire latest)
  installPlain c "latest" (recorderLatest latest)

def installKind (actor : ObjectId) (c : ClassId) : ActorKind → Specialize Unit
  | .const => installPlain c "fire" constFire
  | .ramp => installRamp c
  | .scale => installPlain c "fire" scaleFire
  | .addSubtract => installPlain c "fire" addSubtractFire
  | .absoluteValue => installPlain c "fire" absoluteValueFire
  | .accumulator => installAccumulator c
  | .expression => installExpression actor c
  | .setVariable => installSetVariable actor c
  | .recorder => installRecorder c
end DataflowSpecializer.Template
