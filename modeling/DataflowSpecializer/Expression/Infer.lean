import DataflowSpecializer.Expression.Evaluate

/-! # Type inference -/
namespace DataflowSpecializer
abbrev TypeScope : Type := String → Option ValueType

def TypeScope.bind (bindings : List (String × ValueType)) (outer : TypeScope) : TypeScope :=
  fun name => (bindings.reverse.lookup name).or (outer name)

namespace Expr
def inferBuiltin (name : String) (form : CallForm) (args : List ValueType) :
    Except EvalError ValueType :=
  if Builtin.needsInterpreter name then .error (.needsInterpreter name)
  else if args.contains .unknown && Builtin.isKnown name then .ok .unknown
  else
    match Builtin.lookup? name form args with
    | some b => .ok (b.resultType args)
    | none => .error (.noFunction name args)

def inferApply (target : ValueType) (args : Nat) : Except EvalError ValueType :=
  match target, args with
  | .array e, 1 => .ok e
  | .matrix e, 2 => .ok e
  | .function _, _ => .ok .general
  | .unknown, _ => .ok .unknown
  | target, args => .error (.cannotApply target args)

def inferMember (target : ValueType) (label : String) : Except EvalError ValueType :=
  match target with
  | .record fields =>
    match fields.lookup label with
    | some t => .ok t
    | none => .error (.noField label)
  | .unknown => .ok .unknown
  | t => .error (.memberOf label t)

mutual

def infer (scope : TypeScope) : Expr → Except EvalError ValueType
  | .literal l => .ok (Value.ofLiteral l).type
  | .ident name =>
    match (scope name).or ((Builtin.constant? name).map Value.type) with
    | some t => .ok t
    | none => .error (.undefinedIdentifier name)
  | .sum first rest => do
    let t ← infer scope first
    let ts ← inferSum scope rest
    return .lubAll (t :: ts)
  | .product first rest => do
    let t ← infer scope first
    let ts ← inferProduct scope rest
    return .lubAll (t :: ts)
  | .power base exponent => do
    let _ ← infer scope exponent
    infer scope base
  | .relation _ lhs rhs => do
    let _ ← infer scope lhs
    let _ ← infer scope rhs
    return .boolean
  | .logic _ operands => do
    let _ ← inferList scope operands
    return .boolean
  | .bitwise _ operands => do
    let ts ← inferList scope operands
    return .lubAll ts
  | .shift _ lhs rhs => do
    let _ ← infer scope rhs
    infer scope lhs
  | .unary op operand => do
    let t ← infer scope operand
    return if op = .not then .boolean else t
  | .cond test yes no => do
    let _ ← infer scope test
    let t ← infer scope yes
    let u ← infer scope no
    return t.lub u
  | .apply callee args => do
    let ts ← inferList scope args
    match callee with
    | .ident name =>
      match scope name with
      | some t => inferApply t ts.length
      | none => inferBuiltin name .function ts
    | callee => do
      let t ← infer scope callee
      inferApply t ts.length
  | .method base name args => do
    let t ← infer scope base
    let ts ← inferList scope args
    inferBuiltin name .method (t :: ts)
  | .member base name => do
    let t ← infer scope base
    inferMember t name
  | .array elements => do
    let ts ← inferList scope elements
    return .array (.lubAll ts)
  | .record fields => do
    let ts ← inferFields scope fields
    return .record (SortedMap.ofList ts).entries
  | .matrix rows => do
    let ts ← inferRows scope rows
    return .matrix (.lubAll ts)
  | .function params body => do
    let bindings := params.map fun (name, t) => (name, t.getD .unknown)
    let _ ← infer (TypeScope.bind bindings scope) body
    return .function params.length

def inferList (scope : TypeScope) : List Expr → Except EvalError (List ValueType)
  | [] => .ok []
  | e :: es => do
    let t ← infer scope e
    let ts ← inferList scope es
    return t :: ts

def inferSum (scope : TypeScope) : List (SumOp × Expr) → Except EvalError (List ValueType)
  | [] => .ok []
  | (_, e) :: es => do
    let t ← infer scope e
    let ts ← inferSum scope es
    return t :: ts

def inferProduct (scope : TypeScope) : List (ProductOp × Expr) → Except EvalError (List ValueType)
  | [] => .ok []
  | (_, e) :: es => do
    let t ← infer scope e
    let ts ← inferProduct scope es
    return t :: ts

def inferFields (scope : TypeScope) :
    List (String × Expr) → Except EvalError (List (String × ValueType))
  | [] => .ok []
  | (label, e) :: es => do
    let t ← infer scope e
    let ts ← inferFields scope es
    return (label, t) :: ts

def inferRows (scope : TypeScope) : List (List Expr) → Except EvalError (List ValueType)
  | [] => .ok []
  | row :: rows => do
    let ts ← inferList scope row
    let us ← inferRows scope rows
    return ts ++ us
end
end Expr
end DataflowSpecializer
