import DataflowSpecializer.Code.Listing
import DataflowSpecializer.Digest.Sha256
import DataflowSpecializer.Model.Types
import DataflowSpecializer.Stage

/-! # Verification of the result, and runs -/
namespace DataflowSpecializer
namespace Specialization
open Platform

def keepsConstants (s : Specialization) : Bool :=
  s.program.allLiveMethods.all fun m =>
    (s.program.body m).stmts.all fun st =>
      match st.action with
      | .assign (.field _ f) _ => !(s.program.fieldDecl f).isFinal
      | _ => true

def keepsClasses (s : Specialization) : Bool := s.classOf.values.all s.program.isLiveClass

def keepsLabels (s : Specialization) : Bool :=
  s.program.allLiveMethods.all fun m =>
    let b := s.program.body m
    (b.stmts.filterMap (·.action.jump?)).all fun l => (b.labelPosition? l).isSome

def verify (s : Specialization) : Certificate :=
  ⟨[("P1_constant_write_freedom", s.keepsConstants),
    ("P2_bijection", Classes.isBijection s && s.keepsClasses),
    ("P3_labels_resolve", s.keepsLabels)]⟩

def lookupWarning? (method : String) (call : Invocation) : Option Diagnostic :=
  if ["getAttribute", "getPort", "getEntity", "getRelation"].contains call.method.name then
    some { Diagnostic.warning .ambiguousReference method
        ("dynamic " ++ call.method.name ++ " call left in place") with
      hint := some "the target could not be resolved to a single model object" }
  else none

def boxedWarning? (method : String) (call : Invocation) : Option Diagnostic :=
  if ["add", "subtract", "multiply", "divide", "modulo"].contains call.method.name &&
      isValueClass call.method.className then
    some { Diagnostic.warning .boxedArithmetic method
        ("token " ++ call.method.name ++ " left boxed") with
      hint := some "an operand type is unknown at this point" }
  else none

def warnLeftovers (s : Specialization) : Specialization :=
  let calls := s.program.allLiveMethods.flatMap fun m =>
    (s.program.body m).calls.map fun (_, call) => (s.program.methodName m, call)
  let lookups := calls.filterMap fun (method, call) => lookupWarning? method call
  let boxed := calls.filterMap fun (method, call) => boxedWarning? method call
  (lookups ++ if s.options.unboxing then boxed else []).foldl warn s
end Specialization

def version : String := "0.3.1"

structure Provenance where
  modelHash : String
  catalogueFingerprint : String
  compilerVersion : String
deriving DecidableEq, Repr

def Provenance.ofText (text : String) : Provenance :=
  ⟨Sha256.hex text, Sha256.hex (ActorKind.fingerprint ++ Builtin.fingerprint), version⟩

structure Snapshot where
  stage : String
  listing : String

structure Failure where
  stage : Stage
  fault : Option Fault

namespace Failure
def isOutOfTime (f : Failure) : Bool :=
  match f.fault with
  | some fault => fault.isOutOfTime
  | none => false

def message (f : Failure) : String :=
  f.stage.name ++ ": " ++
    match f.fault with
    | some fault => fault.message
    | none => "verification failed"
end Failure

structure Run where
  spec : Specialization
  /-- How many rounds came to their end. -/
  rounds : Nat := 0
  snapshots : List Snapshot := []
  hasError : Bool := false
  provenance : Option Provenance := none
  certificate : Option Certificate := none
  /-- The stages that came to their end, each with the diagnostics that there were by then. -/
  completed : List (Stage × List Diagnostic) := []

abbrev Running (m : Type → Type) (α : Type) : Type := ExceptT Failure (StateT Run m) α

namespace Run
def start (m : Model) (o : Options) : Run := { spec := .start m o }

def ofText (text : String) (o : Options) : Except Fault Run := do
  let m ← Model.ofJson text
  return { start m o with provenance := some (.ofText text) }

def report (r : Run) (d : Diagnostic) : Run :=
  { r with spec := { r.spec with diagnostics := r.spec.diagnostics ++ [d] }, hasError := true }

def complete (r : Run) (s : Stage) : Run :=
  { r with completed := r.completed ++ [(s, r.spec.diagnostics)] }

def keepSnapshot (r : Run) (stage : String) : Run :=
  if r.spec.options.snapshots then
    { r with snapshots := r.snapshots ++ [⟨stage, r.spec.program.render⟩] }
  else r
end Run

namespace Running
variable {m : Type → Type} [Monad m]

def step {α : Type} (stage : Stage) (x : Specialize α) : Running m α := do
  let r ← get
  match x r.spec with
  | .ok a spec =>
    set { r with spec := spec }
    return a
  | .error f spec =>
    set ({ r with spec := spec }.report (.error f.code? stage.name f.message))
    throw ⟨stage, some f⟩

/-- Ends a stage; the run stops if its time is up. -/
def finish (elapsedMs : m Nat) (stage : Stage) : Running m Unit := do
  modify (Run.complete · stage)
  let r ← get
  match r.spec.options.watchdogMs with
  | none => return
  | some limit =>
    let ms ← elapsedMs
    if ms ≥ limit then
      set { r with hasError := true }
      throw ⟨stage, some (.outOfTime stage.name ms)⟩

def demand (stage : Stage) (what : String) (c : Certificate) : Running m Unit := do
  if !c.holds then
    let r ← get
    let message := what ++ " verification failed: " ++ ", ".intercalate c.failed
    let top := r.spec.model.name Model.top
    set ((r.report (.error (some .failedObligation) top message)).complete stage)
    throw ⟨stage, none⟩

def materialize (elapsedMs : m Nat) : Running m Unit := do
  let c ← step .materialize Classes.generate
  demand .materialize "materialization" c
  finish elapsedMs .materialize
  modify (Run.keepSnapshot · "materialize")

/-- Goes through the reductions once; answers how much has changed. -/
def reduceOnce (elapsedMs : m Nat) : List (Stage × Specialize Nat) → Running m Nat
  | [] => return 0
  | (stage, reduction) :: rest => do
    let n ← step stage reduction
    finish elapsedMs stage
    let k ← reduceOnce elapsedMs rest
    return n + k

def reduceRounds (elapsedMs : m Nat) (reductions : List (Stage × Specialize Nat)) (done : Nat) :
    Nat → Running m Unit
  | 0 => return
  | rounds + 1 => do
    let n ← reduceOnce elapsedMs reductions
    modify fun r =>
      { r with rounds := done + 1 }.keepSnapshot ("round " ++ toString (done + 1))
    if n ≠ 0 then reduceRounds elapsedMs reductions (done + 1) rounds

def verify (elapsedMs : m Nat) : Running m Unit := do
  modify fun r =>
    let spec := r.spec.warnLeftovers
    { r with spec := spec, certificate := some spec.verify }
  let r ← get
  demand .verify "program" r.spec.verify
  finish elapsedMs .verify
  modify (Run.keepSnapshot · "final")

def upTo (elapsedMs : m Nat) (terminal : Stage) : Running m Unit := do
  let stages := terminal.required
  if stages.contains .materialize then materialize elapsedMs
  let reductions := (Stage.all.filter stages.contains).filterMap fun s =>
    s.reduction?.map fun x => (s, x)
  if !reductions.isEmpty then
    let r ← get
    reduceRounds elapsedMs reductions 0 (max r.spec.options.maxRounds 1)
  if stages.contains .verify then verify elapsedMs
end Running

namespace Run
/-- Goes through the stages that lead to a stage; answers why the run stopped, if it did. -/
def upTo {m : Type → Type} [Monad m] (elapsedMs : m Nat) (terminal : Stage) (r : Run) :
    m (Option Failure × Run) := do
  match ← (Running.upTo elapsedMs terminal).run.run r with
  | (.ok (), r) => return (none, r)
  | (.error f, r) => return (some f, r)

def specialize {m : Type → Type} [Monad m] (elapsedMs : m Nat) (text : String) (o : Options) :
    m (Except Failure Run) := do
  match ofText text o with
  | .error f => return .error ⟨.materialize, some f⟩
  | .ok r =>
    match ← upTo elapsedMs .verify r with
    | (some f, _) => return .error f
    | (none, r) => return .ok r
end Run
end DataflowSpecializer
