import DataflowSpecializer.Analysis.ValueTypes
import DataflowSpecializer.Code.Draft

/-! # Values of known type -/
namespace DataflowSpecializer.Boxing
open Platform

inductive Reduction where
  /-- Something simpler is assigned. -/
  | fold (value : Rvalue)
  /-- Arithmetic on the native contents; the result has the given type. -/
  | unbox (op : BinaryOp) (lhs rhs : LocalId) (type : ValueType)

def literal? (className : String) : Constant → Option Value
  | .bool b => if className = booleanToken then some (.boolean b) else none
  | .int n =>
    if className = unsignedByteToken then
      if 0 ≤ n ∧ n < 256 then some (.ubyte n.toUInt32.toUInt8) else none
    else if className = intToken then some (.int n)
    else none
  | .long n => if className = longToken then some (.long n) else none
  | .double x => if className = doubleToken then some (.double x) else none
  | .string s => if className = stringToken then some (.string s) else none
  | .null => none

/-- The value of a local that is constructed from a constant, or read from a field that never
changes. Copies and casts are followed, so many at most. -/
def known? (p : Program) (b : Body) : Nat → LocalId → Option Value
  | 0, _ => none
  | steps + 1, l =>
    match (b.singleDef? l).bind (·.action.value?) with
    | some (.use (.loc r)) | some (.cast _ (.loc r)) => known? p b steps r
    | some (.new className [.const c]) => literal? className c
    | some (.field _ f) =>
      if (p.fieldDecl f).isFinal then (p.fieldDecl f).initial else none
    | _ => none

def content? (accessor : String) (v : Value) : Option Constant :=
  match accessor with
  | "booleanValue" => v.toBool?.map .bool
  | "intValue" => v.toInt?.map .int
  | "longValue" => v.toLong?.map .long
  | "doubleValue" => v.toDouble?.map .double
  | "stringValue" =>
    match v with
    | .string s => some (.string s)
    | _ => none
  | _ => none

/-! ### Reductions -/
def constant (c : Constant) : Reduction := .fold (.use (.const c))

def arithmetic? : String → Option BinaryOp
  | "add" => some .add
  | "subtract" => some .sub
  | "multiply" => some .mul
  | "divide" => some .div
  | "modulo" => some .rem
  | _ => none

def classTest? (x : TypeFact) (className : String) (l : LocalId) : Option Reduction :=
  let t := x.local_ l
  if t.isConcrete && isValueClass className then
    some (constant (.bool (isSubclass t.valueClass className)))
  else none

def static? (x : TypeFact) (call : Invocation) : Option Reduction :=
  match call.method.name, call.args with
  | "compare", [a, b] =>
    if call.method.className = typeLattice ∧ x.operand a ≠ .unknown ∧ x.operand b ≠ .unknown then
      some (constant (.int ((x.operand a).compare (x.operand b)).code))
    else none
  | "convert", [.loc l] =>
    if ValueType.ofValueClass? call.method.className = some (x.local_ l) then
      some (.fold (.cast (.object call.method.className) (.loc l)))
    else none
  | _, _ => none

def unbox? (x : TypeFact) (op : BinaryOp) (lhs rhs : LocalId) : Option Reduction :=
  let t := (x.local_ lhs).lub (x.local_ rhs)
  if (x.local_ lhs).isNativeNumeric && (x.local_ rhs).isNativeNumeric && t.isNativeNumeric then
    some (.unbox op lhs rhs t)
  else none

def virtual? (s : Specialization) (b : Body) (x : TypeFact) (call : Invocation) :
    Option Reduction :=
  match call.base, call.args with
  | some base, [] => do
    let v ← known? s.program b (b.stmts.length + 1) base
    let c ← content? call.method.name v
    return constant c
  | some base, [.loc arg] =>
    if s.options.unboxing then
      (arithmetic? call.method.name).bind fun op => unbox? x op base arg
    else none
  | _, _ => none

def reduction? (s : Specialization) (b : Body) (x : TypeFact) : Rvalue → Option Reduction
  | .instanceOf className (.loc l) => classTest? x className l
  | .invoke call =>
    match call.dispatch with
    | .static => static? x call
    | .virtual => virtual? s b x call
    | .special => none
  | _ => none

def reductions (s : Specialization) (m : MethodId) : List (StmtId × LocalId × Reduction) :=
  let facts := s.valueTypes m
  let b := s.program.body m
  b.stmts.zipIdx.filterMap fun (st, i) => do
    let x ← facts.before? i
    let l ← st.action.target?
    let v ← st.action.value?
    let r ← reduction? s b x v
    return (st.id, l, r)

def unboxed (op : BinaryOp) (lhs rhs : LocalId) (type : ValueType) (native : CodeType)
    (accessor : String) (l : LocalId) : Drafting Unit := do
  let read := Platform.accessor scalarToken accessor native
  let a ← Draft.cast "lhs" (.object scalarToken) lhs
  let a ← Draft.callValue a read []
  let b ← Draft.cast "rhs" (.object scalarToken) rhs
  let b ← Draft.callValue b read []
  let r ← Draft.value "native" native (.binary op (.loc a) (.loc b))
  let boxed ← Draft.newObject "boxed" type.valueClass [.loc r]
  Draft.assign l (.use (.loc boxed))

def perform (b : Body) : StmtId × LocalId × Reduction → Body
  | (id, l, .fold v) => (b.replace id (.set l v)).2
  | (id, l, .unbox op lhs rhs type) =>
    match type.native?, type.nativeAccessor? with
    | some native, some accessor =>
      let d := ((unboxed op lhs rhs type native accessor l).run (.ofBody b)).2
      match d.body.insertBefore? id d.actions with
      | some (_, b) => (b.remove id).2
      | none => (d.body.remove id).2
    | _, _ => b

def reduceMethod (m : MethodId) : Specialize Nat := do
  let s ← get
  let rs := reductions s m
  set { s with program := s.program.setBody m (rs.foldl perform (s.program.body m)) }
  return rs.length

def reduceAll : List MethodId → Specialize Nat
  | [] => return 0
  | m :: ms => do
    let n ← reduceMethod m
    let k ← reduceAll ms
    return n + k

/-- Reduces operations on values of known type; answers how many. -/
def reduce : Specialize Nat := do
  reduceAll (← get).program.allLiveMethods
end DataflowSpecializer.Boxing
