import DataflowSpecializer.Json.Reader

/-! # Options of a run -/
namespace DataflowSpecializer
structure Options where
  /-- The package of all generated classes. -/
  targetPackage : String := "dfsc.generated"
  /-- The folder that the command line writes to. -/
  outputDir : String := "out"
  /-- Whether the program is kept after every stage. -/
  snapshots : Bool := false
  /-- Whether boxed arithmetic is turned into native arithmetic. -/
  unboxing : Bool := true
  /-- The time after which the run is given up, in milliseconds. -/
  watchdogMs : Option Nat := none
  /-- How often the reductions are repeated at most. -/
  maxRounds : Nat := 16
deriving DecidableEq, Repr, Inhabited

namespace Options
def keys : List String :=
  ["target_package", "output_dir", "snapshots", "unboxing", "watchdog_timeout_ms", "max_rounds"]

def member (key : String) (o : Options) : Json.Reader Options := fun cs =>
  match key with
  | "target_package" => (Json.string cs).map fun (s, rest) => ({ o with targetPackage := s }, rest)
  | "output_dir" => (Json.string cs).map fun (s, rest) => ({ o with outputDir := s }, rest)
  | "snapshots" => (Json.bool cs).map fun (b, rest) => ({ o with snapshots := b }, rest)
  | "unboxing" => (Json.bool cs).map fun (b, rest) => ({ o with unboxing := b }, rest)
  | "watchdog_timeout_ms" =>
    (Json.optional Json.natural cs).map fun (n, rest) => ({ o with watchdogMs := n }, rest)
  | _ => (Json.natural cs).map fun (n, rest) => ({ o with maxRounds := n }, rest)

/-- Reads options; those that are not given have their defaults. -/
def ofJson (text : String) : Except Json.Error Options :=
  Json.read (Json.object Json.maxDepth keys {} fun _ => member) text
end Options
end DataflowSpecializer
