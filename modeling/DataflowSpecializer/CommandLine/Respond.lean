import DataflowSpecializer.CommandLine.Arguments
import DataflowSpecializer.CommandLine.FileSystem
import DataflowSpecializer.Run

/-! # The command line -/
namespace DataflowSpecializer.CommandLine
structure Host (m : Type → Type) where
  readFile : String → m (Except String String)
  /-- Makes a folder and the folders around it, if they are not there. -/
  makeFolder : String → m (Except String Unit)
  writeFile : String → String → m (Except String Unit)
  elapsedMs : m Nat
  print : String → m Unit
  /-- Prints a line about an error. -/
  complain : String → m Unit

structure Console where
  disk : FileSystem
  output : String := ""
  complaints : List String := []

namespace Console
def change (f : FileSystem → Except FileError FileSystem) :
    StateM Console (Except String Unit) := do
  let c ← get
  match f c.disk with
  | .ok d =>
    set { c with disk := d }
    return .ok ()
  | .error e => return .error e.message

def host : Host (StateM Console) where
  readFile path := do
    let c ← get
    return match c.disk.readFile path with
      | .ok text => .ok text
      | .error e => .error e.message
  makeFolder path := change fun d => d.makeFolder path
  writeFile path text := change fun d => d.writeFile path text
  elapsedMs := return 0
  print text := modify fun c => { c with output := c.output ++ text }
  complain line := modify fun c => { c with complaints := c.complaints ++ [line] }
end Console

def commandName : String := "dfsc"

inductive ExitCode where
  | success
  /-- The model was refused, or the result does not pass. -/
  | rejected
  /-- The arguments are wrong, or a file cannot be read, understood or written. -/
  | unusable
  | outOfTime
deriving DecidableEq, Repr

def ExitCode.number : ExitCode → UInt8
  | .success => 0
  | .rejected => 1
  | .unusable => 2
  | .outOfTime => 3

/-! ### Texts -/
def versionText : String := commandName ++ " " ++ version ++ "\n"

def helpText : String :=
  "Usage: " ++ commandName ++ " [OPTIONS] <MODEL>\n\n" ++
  "  --target-package <NAME>   package of the generated classes\n" ++
  "  --output-dir <FOLDER>     where the program and the snapshots go\n" ++
  "  --snapshots               keep the program after every stage\n" ++
  "  --no-unboxing             leave arithmetic on boxed values\n" ++
  "  --watchdog-ms <N>         give up after so many milliseconds\n" ++
  "  --max-rounds <N>          repeat the reductions so often at most\n" ++
  "  --emit <WHAT>             summary, ir or model\n" ++
  "  --verbose                 say more\n"

def classLines (s : Specialization) (heading : String) (cs : List ClassId) : String :=
  heading ++ ": " ++ toString cs.length ++ "\n" ++
    String.join (cs.map fun c => "  " ++ s.program.className c ++ "\n")

def provenanceLines (p : Provenance) : String :=
  "model sha256: " ++ p.modelHash ++ "\n" ++
  "catalogue sha256: " ++ p.catalogueFingerprint ++ "\n" ++
  commandName ++ " " ++ p.compilerVersion ++ "\n"

def summary (r : Run) : String :=
  let s := r.spec
  "model: " ++ s.model.name Model.top ++ "\n" ++
  "rounds: " ++ toString r.rounds ++ "\n" ++
  classLines s "actor classes" s.actorClasses ++
  classLines s "attribute classes" s.attributeClasses ++
  "warnings: " ++ toString s.diagnostics.length ++ "\n" ++
  (r.provenance.map provenanceLines).getD ""

def inFolder (folder name : String) : String :=
  if folder.endsWith "/" then folder ++ name else folder ++ "/" ++ name

/-- The name of the file of a snapshot: its number in two digits, and its stage. -/
def snapshotName (i : Nat) (stage : String) : String :=
  let number := toString i
  (if number.length < 2 then "0" ++ number else number) ++ "-" ++
    stage.map (fun c => if c = ' ' then '-' else c) ++ ".ir"

def outputs (r : Run) (folder : String) : List (String × String × String) :=
  let snapshots := inFolder folder "snapshots"
  (folder, inFolder folder "program.ir", r.spec.program.render) ::
    r.snapshots.zipIdx.map fun (s, i) =>
      (snapshots, inFolder snapshots (snapshotName i s.stage), s.listing)

variable {m : Type → Type} [Monad m]

def writeAll (h : Host m) : List (String × String × String) → m (Except String Unit)
  | [] => return .ok ()
  | (folder, path, text) :: rest => do
    match ← h.makeFolder folder with
    | .error e => return .error e
    | .ok () =>
      match ← h.writeFile path text with
      | .error e => return .error e
      | .ok () => writeAll h rest

def fail (h : Host m) (code : ExitCode) (message : String) : m ExitCode := do
  h.complain (commandName ++ ": error: " ++ message)
  return code

def complainAll (h : Host m) : List Diagnostic → m Unit
  | [] => return
  | d :: ds => do
    if d.level = .error then h.complain (commandName ++ ": " ++ d.render)
    complainAll h ds

def specialize (h : Host m) (c : Command) (r : Run) : m ExitCode := do
  let (failure, r) ← r.upTo h.elapsedMs .verify
  complainAll h (r.completed.flatMap fun (_, ds) => ds)
  match failure with
  | some f => fail h (if f.isOutOfTime then .outOfTime else .rejected) f.message
  | none =>
    match ← writeAll h (outputs r c.options.outputDir) with
    | .error e => fail h .unusable (c.options.outputDir ++ ": " ++ e)
    | .ok () =>
      h.print (if c.emit = .ir then r.spec.program.render else summary r)
      return .success

def perform (h : Host m) (c : Command) : m ExitCode := do
  match ← h.readFile c.model with
  | .error e => fail h .unusable (c.model ++ ": " ++ e)
  | .ok text =>
    match Run.ofText text c.options with
    | .error f => fail h .unusable f.message
    | .ok r =>
      if c.emit = .model then
        h.print r.spec.model.outline
        return .success
      else specialize h c r

def respond (h : Host m) (args : List String) : m ExitCode := do
  match Request.ofArguments args with
  | .run c => perform h c
  | .version =>
    h.print versionText
    return .success
  | .help =>
    h.print helpText
    return .success
  | .misuse => return .unusable
end DataflowSpecializer.CommandLine
