import DataflowSpecializer.Options

/-! # Arguments of the command line -/
namespace DataflowSpecializer.CommandLine
inductive Emit where
  | summary
  /-- The specialized program. -/
  | ir
  /-- The model that was loaded; nothing is specialized. -/
  | model
deriving DecidableEq, Repr

def Emit.ofName? : String → Option Emit
  | "summary" => some .summary
  | "ir" => some .ir
  | "model" => some .model
  | _ => none

structure Command where
  model : String
  options : Options
  emit : Emit
deriving DecidableEq, Repr

inductive Request where
  | run (c : Command)
  | version
  | help
  /-- The arguments are wrong. -/
  | misuse
deriving DecidableEq, Repr

structure Given where
  model : Option String := none
  /-- The options that were given, with their values. -/
  values : List (String × String) := []
  /-- The switches that were given. -/
  switches : List String := []

/-! ### Options -/
def knownSwitches : List String := ["--snapshots", "--no-unboxing", "--verbose"]

def count? (s : String) : Option Nat :=
  let digits := match s.toList with
    | '+' :: rest => rest
    | cs => cs
  if digits.isEmpty || !digits.all Char.isDigit then none
  else
    let n := digits.foldl (fun n c => 10 * n + (c.toNat - '0'.toNat)) 0
    if n < Nat.pow 2 64 then some n else none

/-- Whether an option can have a value; nothing is said of what is no option. -/
def accepts? (option value : String) : Option Bool :=
  match option with
  | "--target-package" => some true
  | "--output-dir" => some (value ≠ "")
  | "--watchdog-ms" | "--max-rounds" => some (count? value).isSome
  | "--emit" => some (Emit.ofName? value).isSome
  | _ => none

def takesValue (option : String) : Bool := (accepts? option "").isSome

def Given.addValue? (g : Given) (option value : String) : Option Given :=
  if (g.values.lookup option).isSome || accepts? option value ≠ some true then none
  else some { g with values := (option, value) :: g.values }

def Given.addSwitch? (g : Given) (switch : String) : Option Given :=
  if g.switches.contains switch || !knownSwitches.contains switch then none
  else some { g with switches := switch :: g.switches }

def Given.addModel? (g : Given) (path : String) : Option Given :=
  if g.model.isSome || path = "" then none else some { g with model := some path }

def Given.request (g : Given) : Request :=
  match g.model with
  | none => .misuse
  | some model =>
    let value (option : String) : Option String := g.values.lookup option
    let options : Options := {}
    .run {
      model := model
      emit := ((value "--emit").bind Emit.ofName?).getD .summary
      options := {
        targetPackage := (value "--target-package").getD options.targetPackage
        outputDir := (value "--output-dir").getD options.outputDir
        snapshots := g.switches.contains "--snapshots"
        unboxing := !g.switches.contains "--no-unboxing"
        watchdogMs := (value "--watchdog-ms").bind count?
        maxRounds := ((value "--max-rounds").bind count?).getD options.maxRounds } }

inductive Shape where
  /-- No option. -/
  | plain
  /-- Two dashes alone: no option follows. -/
  | dashes
  /-- One dash and some letters. -/
  | short (letters : List Char)
  /-- Two dashes and a name, perhaps with a value behind an equals sign. -/
  | long (name : String) (value : Option String)
deriving DecidableEq, Repr

def Shape.of (arg : String) : Shape :=
  match arg.toList with
  | ['-', '-'] => .dashes
  | '-' :: '-' :: _ =>
    match arg.toList.span (· ≠ '=') with
    | (name, '=' :: value) => .long (String.ofList name) (some (String.ofList value))
    | (name, _) => .long (String.ofList name) none
  | '-' :: c :: cs => .short (c :: cs)
  | _ => .plain

def readPlain (g : Given) : List String → Request
  | [] => g.request
  | arg :: args =>
    match g.addModel? arg with
    | some g => readPlain g args
    | none => .misuse

def readArguments (g : Given) : List String → Request
  | [] => g.request
  | arg :: args =>
    match Shape.of arg with
    | .dashes => readPlain g args
    | .plain =>
      match g.addModel? arg with
      | some g => readArguments g args
      | none => .misuse
    | .short letters =>
      match letters with
      | 'V' :: _ => .version
      | 'h' :: _ => .help
      | _ => .misuse
    | .long "--version" none => .version
    | .long "--help" none => .help
    | .long name (some value) =>
      match g.addValue? name value with
      | some g => readArguments g args
      | none => .misuse
    | .long name none =>
      if takesValue name then
        match args with
        | [] => .misuse
        | value :: rest =>
          match Shape.of value, g.addValue? name value with
          | .plain, some g => readArguments g rest
          | _, _ => .misuse
      else
        match g.addSwitch? name with
        | some g => readArguments g args
        | none => .misuse

def Request.ofArguments (args : List String) : Request := readArguments {} args
end DataflowSpecializer.CommandLine
