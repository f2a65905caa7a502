import DataflowSpecializer.CommandLine.Respond

/-! # The executable -/
namespace DataflowSpecializer.CommandLine
def code? : IO.Error → Option Nat
  | .noFileOrDirectory _ code _ => some code.toNat
  | .alreadyExists _ code _ => some code.toNat
  | .inappropriateType _ code _ => some code.toNat
  | .invalidArgument _ code _ => some code.toNat
  | _ => none

def reason (e : IO.Error) : String :=
  match (code? e).bind FileError.ofCode? with
  | some f => f.message
  | none => toString e

def attempt {α : Type} (x : IO α) : IO (Except String α) := do
  try
    return .ok (← x)
  catch e => return .error (reason e)

def process (startMs : Nat) : Host IO where
  readFile path := attempt (IO.FS.readFile path)
  makeFolder path := attempt (IO.FS.createDirAll path)
  writeFile path text := attempt (IO.FS.writeFile path text)
  elapsedMs := return (← IO.monoMsNow) - startMs
  print text := IO.print text
  complain line := IO.eprintln line
end DataflowSpecializer.CommandLine

open DataflowSpecializer in
def main (args : List String) : IO UInt32 := do
  let code ← CommandLine.respond (CommandLine.process (← IO.monoMsNow)) args
  return code.number.toUInt32
