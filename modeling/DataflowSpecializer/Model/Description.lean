import DataflowSpecializer.Actor.Catalogue
import DataflowSpecializer.Json.Reader

/-! # Model descriptions -/
namespace DataflowSpecializer.Description
structure Attribute where
  name : String
  expression : String := ""
  kind : AttributeKind := .parameter
  type : Option String := none
deriving DecidableEq, Repr, Inhabited

inductive Direction where
  | input
  | output
  | inout
deriving DecidableEq, Repr, Inhabited

structure Port where
  name : String
  direction : Direction := .input
  multiport : Bool := false
  type : Option String := none
deriving DecidableEq, Repr, Inhabited

/-- Ports that are connected, by their paths from the composite: a name for its own port, and two
names with a dot for the port of an inner entity. -/
structure Relation where
  name : String
  links : List String := []
deriving DecidableEq, Repr, Inhabited

structure Director where
  name : String := "director"
  kind : String := "SDF"
  parameters : List Attribute := []
deriving DecidableEq, Repr, Inhabited

def compositeKind : String := "Composite"

structure Entity where
  name : String
  kind : String := compositeKind
  parameters : List Attribute := []
  ports : List Port := []
  entities : List Entity := []
  relations : List Relation := []
  director : Option Director := none
deriving Inhabited

open Json

def store {α σ : Type} (p : Reader α) (f : α → σ) : Reader σ := fun cs =>
  (p cs).map fun (a, rest) => (f a, rest)

def named {σ : Type} (p : Reader (Option String × σ)) (f : String → σ → σ) : Reader σ := fun cs =>
  match p cs with
  | .error e => .error e
  | .ok ((some name, s), rest) => .ok (f name s, rest)
  | .ok ((none, _), _) => .error .mismatch

def attributeKinds : List (String × AttributeKind) :=
  [("parameter", .parameter), ("stringAttribute", .stringAttribute),
    ("portParameter", .portParameter)]

def parameter (depth : Nat) : Reader Attribute :=
  named (object depth ["name", "expression", "kind", "type"] (none, { name := "" })
      fun depth key (name, a) =>
        match key with
        | "name" => store string fun s => (some s, a)
        | "expression" => store string fun s => (name, { a with expression := s })
        | "kind" => store (choice depth attributeKinds) fun k => (name, { a with kind := k })
        | _ => store (optional string) fun t => (name, { a with type := t }))
    fun name a => { a with name := name }

def directions : List (String × Direction) :=
  [("input", .input), ("output", .output), ("inout", .inout)]

def port (depth : Nat) : Reader Port :=
  named (object depth ["name", "direction", "multiport", "type"] (none, { name := "" })
      fun depth key (name, p) =>
        match key with
        | "name" => store string fun s => (some s, p)
        | "direction" => store (choice depth directions) fun d => (name, { p with direction := d })
        | "multiport" => store bool fun b => (name, { p with multiport := b })
        | _ => store (optional string) fun t => (name, { p with type := t }))
    fun name p => { p with name := name }

def relation (depth : Nat) : Reader Relation :=
  named (object depth ["name", "links"] (none, { name := "" })
      fun depth key (name, r) =>
        match key with
        | "name" => store string fun s => (some s, r)
        | _ => store (list depth fun _ => string) fun ls => (name, { r with links := ls }))
    fun name r => { r with name := name }

def director (depth : Nat) : Reader Director :=
  object depth ["name", "kind", "parameters"] {}
    fun depth key d =>
      match key with
      | "name" => store string fun s => { d with name := s }
      | "kind" => store string fun s => { d with kind := s }
      | _ => store (list depth parameter) fun ps => { d with parameters := ps }

def entityKeys : List String :=
  ["name", "kind", "parameters", "ports", "entities", "relations", "director"]

def entityWith (inner : Reader Entity) (depth : Nat) : Reader Entity :=
  named (object depth entityKeys (none, { name := "" })
      fun depth key (name, e) =>
        match key with
        | "name" => store string fun s => (some s, e)
        | "kind" => store string fun s => (name, { e with kind := s })
        | "parameters" => store (list depth parameter) fun ps => (name, { e with parameters := ps })
        | "ports" => store (list depth port) fun ps => (name, { e with ports := ps })
        | "entities" =>
          store (list depth fun _ => inner) fun es => (name, { e with entities := es })
        | "relations" => store (list depth relation) fun rs => (name, { e with relations := rs })
        | _ => store (optional (director depth)) fun d => (name, { e with director := d }))
    fun name e => { e with name := name }

def entity : Nat → Reader Entity
  | 0 => entityWith (fun _ => .error .malformed) 0
  | 1 => entityWith (fun _ => .error .malformed) 1
  | n + 2 => entityWith (entity n) (n + 2)

def Entity.ofJson (text : String) : Except Json.Error Entity := read (entity maxDepth) text
end DataflowSpecializer.Description
