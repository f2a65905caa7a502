import DataflowSpecializer.Generate.Classes
import DataflowSpecializer.Reduce.Boxing
import DataflowSpecializer.Reduce.Equality
import DataflowSpecializer.Reduce.Notifications
import DataflowSpecializer.Reduce.Parameters
import DataflowSpecializer.Reduce.References
import DataflowSpecializer.Reduce.Unused

/-! # Stages -/
namespace DataflowSpecializer
inductive Stage where
  | materialize
  | fieldsForEntities
  | fieldsForPorts
  | fieldsForAttributes
  | inlineParameters
  | namedObjEquality
  | inlineTokens
  | cleanup
  | deadCode
  | verify
deriving DecidableEq, Repr

namespace Stage
inductive Artifact where
  | classes
  | ledger
  | constants
  | refFields
  | valueFields
  | narrowedBodies
  | pipelineCert
deriving DecidableEq, Repr

def all : List Stage :=
  [.materialize, .fieldsForEntities, .fieldsForPorts, .fieldsForAttributes, .inlineParameters,
    .namedObjEquality, .inlineTokens, .cleanup, .deadCode, .verify]

def name : Stage → String
  | .materialize => "materialize"
  | .fieldsForEntities => "fields_for_entities"
  | .fieldsForPorts => "fields_for_ports"
  | .fieldsForAttributes => "fields_for_attributes"
  | .inlineParameters => "inline_parameters"
  | .namedObjEquality => "named_obj_equality"
  | .inlineTokens => "inline_tokens"
  | .cleanup => "cleanup"
  | .deadCode => "dead_code"
  | .verify => "verify"

def ofName? (name : String) : Option Stage := all.find? fun s => s.name = name

theorem ofName?_name (s : Stage) : ofName? s.name = some s := by
  cases s <;> decide

def needs : Stage → List Stage
  | .materialize => []
  | .fieldsForEntities => [.materialize]
  | .fieldsForPorts => [.fieldsForEntities]
  | .fieldsForAttributes => [.fieldsForEntities]
  | .inlineParameters => [.fieldsForAttributes]
  | .namedObjEquality => [.inlineParameters]
  | .inlineTokens => [.inlineParameters]
  | .cleanup => [.namedObjEquality, .inlineTokens]
  | .deadCode => [.cleanup]
  | .verify => [.deadCode, .fieldsForPorts]

def artifacts : Stage → List Artifact
  | .materialize => [.classes, .ledger, .constants]
  | .fieldsForEntities | .fieldsForPorts | .fieldsForAttributes => [.refFields]
  | .inlineParameters => [.valueFields]
  | .namedObjEquality | .inlineTokens | .cleanup | .deadCode => [.narrowedBodies]
  | .verify => [.pipelineCert]

/-- What the artifacts of a stage are made from; they are stale when it changes. -/
def madeFrom : Stage → String
  | .materialize => "model + library catalogue"
  | .fieldsForEntities | .fieldsForPorts | .fieldsForAttributes => "program + ledger"
  | .inlineParameters => "program + constants + ref fields"
  | .namedObjEquality => "program + ref fields"
  | .inlineTokens => "program + field type tags + options.unboxing"
  | .cleanup | .deadCode => "program"
  | .verify => "program + tags + class maps"

def invariants : Stage → String
  | .materialize => "M1 bijection, M2 unique creation"
  | .fieldsForEntities => "resolved entity lookups and getContainer read fields"
  | .fieldsForPorts => "resolved port lookups read fields"
  | .fieldsForAttributes => "resolved attribute lookups read fields"
  | .inlineParameters => "no get/set on resolved variables, constant fields never written"
  | .namedObjEquality => "identity tests between resolved objects folded"
  | .inlineTokens => "only sites with fully known types narrowed"
  | .cleanup => "semantics preserved, every label resolves"
  | .deadCode => "no removed method is called, no removed field is read"
  | .verify => "P1 constant-field write-freedom, P2 bijection, P3 labels resolve"

/-- What a stage does in every round; it answers how much has changed. The first and the last
stage take no part in the rounds. -/
def reduction? : Stage → Option (Specialize Nat)
  | .fieldsForEntities => some (References.reduce References.toEntities)
  | .fieldsForPorts => some (References.reduce References.toPorts)
  | .fieldsForAttributes => some (References.reduce References.toAttributes)
  | .inlineParameters => some Parameters.reduce
  | .namedObjEquality => some Equality.reduce
  | .inlineTokens => some Boxing.reduce
  | .cleanup => some Notifications.reduce
  | .deadCode => some Unused.reduce
  | .materialize | .verify => none

def isReducing (s : Stage) : Bool := s.reduction?.isSome

def arrange : Nat → List Stage → Stage → List Stage
  | 0, order, _ => order
  | depth + 1, order, s =>
    if order.contains s then order else s.needs.foldl (arrange depth) order ++ [s]

def required (s : Stage) : List Stage := arrange all.length [] s
end Stage
end DataflowSpecializer
