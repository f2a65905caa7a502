import DataflowSpecializer.Code.Body
import DataflowSpecializer.Model.Graph
import DataflowSpecializer.Platform.Methods

/-! # Drafts -/
namespace DataflowSpecializer
structure Draft where
  body : Body
  pending : Array Action

abbrev Drafting (α : Type) : Type := StateM Draft α

namespace Draft
open Platform

def ofBody (b : Body) : Draft := ⟨b, #[]⟩
def actions (d : Draft) : List Action := d.pending.toList
def finish (d : Draft) : Body := d.body.append d.actions

def temp (name : String) (type : CodeType) : Drafting LocalId := do
  let d ← get
  let (l, b) := d.body.newLocal name type
  set { d with body := b }
  return l

def label : Drafting Label := do
  let d ← get
  let (l, b) := d.body.newLabel
  set { d with body := b }
  return l

def emit (a : Action) : Drafting Unit := modify fun d => { d with pending := d.pending.push a }

def assign (l : LocalId) (v : Rvalue) : Drafting Unit := emit (.set l v)

def value (name : String) (type : CodeType) (v : Rvalue) : Drafting LocalId := do
  let l ← temp name type
  assign l v
  return l

def constant (name : String) (c : Constant) : Drafting LocalId :=
  value name c.type (.use (.const c))

def newObject (name className : String) (args : List Operand) : Drafting LocalId :=
  value name (.object className) (.new className args)

def cast (name : String) (type : CodeType) (l : LocalId) : Drafting LocalId :=
  value name type (.cast type (.loc l))

def storeElements (array : LocalId) : Nat → List Operand → Drafting Unit
  | _, [] => return
  | i, v :: vs => do
    emit (.assign (.element array (.int (Int32.ofNat i))) (.use v))
    storeElements array (i + 1) vs

def newArray (name : String) (element : CodeType) (values : List Operand) : Drafting LocalId := do
  let a ← value name (.array element) (.newArray element (.int (Int32.ofNat values.length)))
  storeElements a 0 values
  return a

def readField (name : String) (type : CodeType) (base : LocalId) (field : FieldId) :
    Drafting LocalId :=
  value name type (.field base field)

def storeField (base : LocalId) (field : FieldId) (v : Operand) : Drafting Unit :=
  emit (.assign (.field base field) (.use v))

/-- A call; its result is in a new local named for the method. -/
def invoke? (i : Invocation) : Drafting (Option LocalId) :=
  if i.method.result = .void then do
    emit (.invoke i)
    return none
  else do
    let l ← value i.method.name i.method.result (.invoke i)
    return some l

/-- A call whose result is wanted; a method without one yields null. -/
def invokeValue (i : Invocation) : Drafting LocalId := do
  match ← invoke? i with
  | some l => return l
  | none => constant "void" .null

def call (base : LocalId) (m : MethodRef) (args : List Operand) : Drafting Unit :=
  discard (invoke? ⟨.virtual, some base, m, args⟩)

def callValue (base : LocalId) (m : MethodRef) (args : List Operand) : Drafting LocalId :=
  invokeValue ⟨.virtual, some base, m, args⟩

def callStatic (m : MethodRef) (args : List Operand) : Drafting LocalId :=
  invokeValue ⟨.static, none, m, args⟩

def callSpecial (base : LocalId) (m : MethodRef) (args : List Operand) : Drafting Unit :=
  emit (.invoke ⟨.special, some base, m, args⟩)

def place (l : Label) : Drafting Unit := emit (.label l)
def goto (l : Label) : Drafting Unit := emit (.goto l)

def branch (op : BinaryOp) (lhs rhs : Operand) (target : Label) : Drafting Unit :=
  emit (.branch op lhs rhs target)

def branchFalse (condition : LocalId) (target : Label) : Drafting Unit :=
  branch .eq (.loc condition) (.const (.bool false)) target

def ret (v : Option Operand) : Drafting Unit := emit (.ret v)

def throwMessage (message : String) : Drafting Unit := do
  let e ← newObject "exception" runtimeExceptionClass [.string message]
  emit (.throw (.loc e))

def lookupMethod : Model.Family → MethodRef
  | .attribute => getAttribute
  | .port => getPort
  | .entity => getEntity
  | .relation => getRelation

def lookup (base : LocalId) (family : Model.Family) (name : String) (type : CodeType) :
    Drafting LocalId := do
  let found ← callValue base (lookupMethod family) [.string name]
  cast name type found

def containerOf (base : LocalId) (type : CodeType) : Drafting LocalId := do
  let found ← callValue base getContainer []
  cast "container" type found

def readInput (port : LocalId) (skip : Label) : Drafting LocalId := do
  let has ← callValue port portHasToken [.int 0]
  branchFalse has skip
  callValue port portGet [.int 0]

def send (port v : LocalId) : Drafting Unit := call port portSend [.int 0, .loc v]
end Draft
end DataflowSpecializer
