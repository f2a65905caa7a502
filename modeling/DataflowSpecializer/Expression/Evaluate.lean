import DataflowSpecializer.Builtin.Table

/-! # Evaluation -/
namespace DataflowSpecializer
abbrev Scope : Type := String → Option Value
def Scope.empty : Scope := fun _ => none

def Scope.bind (bindings : List (String × Value)) (outer : Scope) : Scope :=
  fun name => (bindings.reverse.lookup name).or (outer name)

def SumOp.toArith : SumOp → ArithOp
  | .add => .add
  | .subtract => .subtract

def ProductOp.toArith : ProductOp → ArithOp
  | .multiply => .multiply
  | .divide => .divide
  | .modulo => .modulo

/-- How the body of a function is evaluated. -/
abbrev Evaluator : Type := Scope → Expr → Outcome

namespace Expr
def applyValue (run : Evaluator) (target : Value) (args : List Value) : Outcome :=
  match target, args with
  | .array _ _, [i] =>
    match i.toInt? with
    | some i => target.element i
    | none => .error .arrayIndexNotInt
  | .matrix _ _ _ _, [r, c] =>
    match r.toInt?, c.toInt? with
    | none, _ => .error .matrixRowNotInt
    | some _, none => .error .matrixColumnNotInt
    | some r, some c => target.matrixElement r c
  | .function params body captured, args =>
    if params.length ≠ args.length then .error (.argumentCount params.length args.length)
    else do
      let bindings ← (params.zip args).mapM fun (param, arg) =>
        match param.2 with
        | some t => (arg.convert t).map fun v => (param.1, v)
        | none => .ok (param.1, arg)
      run (Scope.bind bindings fun name => captured.lookup name) body
  | target, args => .error (.cannotApply target.type args.length)

def callBuiltin (name : String) (form : CallForm) (args : List Value) : Outcome :=
  if Builtin.needsInterpreter name then .error (.needsInterpreter name)
  else
    match Builtin.lookup? name form (args.map Value.type) with
    | some b => b.evaluate args
    | none => .error (.noFunction name (args.map Value.type))

def compareValues (op : RelationOp) (a b : Value) : Outcome :=
  match op with
  | .eq => .ok (a.isEqualTo b)
  | .ne => (a.isEqualTo b).not
  | .lt => a.isLessThan b
  | .gt => b.isLessThan a
  | .le => do (← b.isLessThan a).not
  | .ge => do (← a.isLessThan b).not

def capture (scope : Scope) (e : Expr) : List (String × Value) :=
  e.freeIdentifiers.filterMap fun name => (scope name).map fun v => (name, v)

mutual

def evaluateWith (run : Evaluator) (scope : Scope) : Expr → Outcome
  | .literal l => .ok (.ofLiteral l)
  | .ident name =>
    match (scope name).or (Builtin.constant? name) with
    | some v => .ok v
    | none => .error (.undefinedIdentifier name)
  | .sum first rest => do
    let v ← evaluateWith run scope first
    evaluateSum run scope v rest
  | .product first rest => do
    let v ← evaluateWith run scope first
    evaluateProduct run scope v rest
  | .power base exponent => do
    let base ← evaluateWith run scope base
    let exponent ← evaluateWith run scope exponent
    match exponent.toInt? with
    | some n => base.pow n
    | none => throw (.exponentNotInt exponent.type)
  | .relation op lhs rhs => do
    let a ← evaluateWith run scope lhs
    let b ← evaluateWith run scope rhs
    compareValues op a b
  | .logic op operands => evaluateLogic run scope (op == .or) operands
  | .bitwise _ [] => .error .emptyChain
  | .bitwise op (first :: rest) => do
    let v ← evaluateWith run scope first
    evaluateBitwise run scope op v rest
  | .shift op lhs rhs => do
    let v ← evaluateWith run scope lhs
    let distance ← evaluateWith run scope rhs
    match distance.toInt? with
    | some n => v.shift op n
    | none => throw (.shiftNotInt distance.type)
  | .unary op operand => do
    let v ← evaluateWith run scope operand
    match op with
    | .negate => v.negate
    | .not => v.not
    | .bitwiseNot => v.bitwiseNot
  | .cond test yes no => do
    let c ← evaluateWith run scope test
    match c.toBool? with
    | some true => evaluateWith run scope yes
    | some false => evaluateWith run scope no
    | none => throw (.conditionNotBoolean c.type)
  | .apply callee args => do
    let args ← evaluateList run scope args
    match callee with
    | .ident name =>
      match scope name with
      | some target => applyValue run target args
      | none => callBuiltin name .function args
    | callee => do
      let target ← evaluateWith run scope callee
      applyValue run target args
  | .method base name args => do
    let receiver ← evaluateWith run scope base
    let args ← evaluateList run scope args
    callBuiltin name .method (receiver :: args)
  | .member base name => do
    let v ← evaluateWith run scope base
    v.field name
  | .array elements => do
    let values ← evaluateList run scope elements
    return .arrayOf values
  | .record fields => do
    let values ← evaluateFields run scope fields
    return .recordOf values
  | .matrix rows => do
    let values ← evaluateRows run scope rows
    return .matrixOf rows.length (rows.headD []).length values
  | .function params body => .ok (.function params body (capture scope (.function params body)))

def evaluateList (run : Evaluator) (scope : Scope) : List Expr → Except EvalError (List Value)
  | [] => .ok []
  | e :: es => do
    let v ← evaluateWith run scope e
    let vs ← evaluateList run scope es
    return v :: vs

def evaluateSum (run : Evaluator) (scope : Scope) (acc : Value) :
    List (SumOp × Expr) → Outcome
  | [] => .ok acc
  | (op, e) :: es => do
    let v ← evaluateWith run scope e
    let acc ← acc.arith op.toArith v
    evaluateSum run scope acc es

def evaluateProduct (run : Evaluator) (scope : Scope)
    (acc : Value) : List (ProductOp × Expr) → Outcome
  | [] => .ok acc
  | (op, e) :: es => do
    let v ← evaluateWith run scope e
    let acc ← acc.arith op.toArith v
    evaluateProduct run scope acc es

def evaluateBitwise (run : Evaluator) (scope : Scope) (op : BitOp)
    (acc : Value) : List Expr → Outcome
  | [] => .ok acc
  | e :: es => do
    let v ← evaluateWith run scope e
    let acc ← acc.bitwise op v
    evaluateBitwise run scope op acc es

def evaluateLogic (run : Evaluator) (scope : Scope)
    (decisive : Bool) : List Expr → Outcome
  | [] => .ok (.boolean !decisive)
  | e :: es => do
    let v ← evaluateWith run scope e
    match v.toBool? with
    | some b =>
      if b = decisive then return .boolean decisive
      else evaluateLogic run scope decisive es
    | none => throw (.operandNotBoolean v.type)

def evaluateFields (run : Evaluator) (scope : Scope) :
    List (String × Expr) → Except EvalError (List (String × Value))
  | [] => .ok []
  | (label, e) :: es => do
    let v ← evaluateWith run scope e
    let vs ← evaluateFields run scope es
    return (label, v) :: vs

def evaluateRows (run : Evaluator) (scope : Scope) :
    List (List Expr) → Except EvalError (List Value)
  | [] => .ok []
  | row :: rows => do
    let vs ← evaluateList run scope row
    let ws ← evaluateRows run scope rows
    return vs ++ ws
end

def evaluateUpTo : Nat → Scope → Expr → Outcome
  | 0 => fun _ _ => .error .tooDeep
  | depth + 1 => evaluateWith (evaluateUpTo depth)

def maxDepth : Nat := 1048576

def evaluate (scope : Scope) (e : Expr) : Outcome := evaluateUpTo maxDepth scope e
end Expr
end DataflowSpecializer
