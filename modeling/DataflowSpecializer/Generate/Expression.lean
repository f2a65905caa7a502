import DataflowSpecializer.Expression.Evaluate
import DataflowSpecializer.Generate.Constant
import DataflowSpecializer.Generate.Workbench

/-! # Code for expressions -/
namespace DataflowSpecializer
open Platform Specialize Generation Draft

/-! ### Single operations -/
namespace Draft
def booleanValue (l : LocalId) : Drafting LocalId := do
  let b ← cast "condition" (.object booleanToken) l
  callValue b (accessor booleanToken "booleanValue" .boolean) []

def intValue (l : LocalId) : Drafting LocalId := do
  let s ← cast "index" (.object scalarToken) l
  callValue s (accessor scalarToken "intValue" .int) []

def negation (l : LocalId) : Drafting LocalId := do
  let b ← cast "condition" (.object booleanToken) l
  callValue b (tokenUnary booleanToken "not") []

def binary (name : String) (a b : LocalId) : Drafting LocalId :=
  callValue a (tokenBinary name) [.loc b]

def less (a b : LocalId) : Drafting LocalId := do
  let a ← cast "lhs" (.object scalarToken) a
  let b ← cast "rhs" (.object scalarToken) b
  callValue a isLessThan [.loc b]

def relation (op : RelationOp) (a b : LocalId) : Drafting LocalId :=
  match op with
  | .eq => callValue a isEqualTo [.loc b]
  | .ne => do negation (← callValue a isEqualTo [.loc b])
  | .lt => less a b
  | .gt => less b a
  | .le => do negation (← less b a)
  | .ge => do negation (← less a b)

def bitOpName : BitOp → String
  | .and => "bitwiseAnd"
  | .or => "bitwiseOr"
  | .xor => "bitwiseXor"

def shiftOpName : ShiftOp → String
  | .left => "leftShift"
  | .right => "rightShift"
  | .logicalRight => "logicalRightShift"

def shift (op : ShiftOp) (a distance : LocalId) : Drafting LocalId := do
  let bits ← intValue distance
  let s ← cast "scalar" (.object scalarToken) a
  callValue s (tokenIntArg scalarToken (shiftOpName op)) [.loc bits]

def power (base exponent : LocalId) : Drafting LocalId := do
  let times ← intValue exponent
  callValue base (tokenIntArg token "pow") [.loc times]

def unary (op : UnaryOp) (l : LocalId) : Drafting LocalId :=
  match op with
  | .negate => callValue l (tokenUnary token "negate") []
  | .not => negation l
  | .bitwiseNot => do
    let s ← cast "scalar" (.object scalarToken) l
    callValue s (tokenUnary scalarToken "bitwiseNot") []

def convert (l : LocalId) (t : ValueType) : Drafting LocalId :=
  callStatic (tokenConvert t.valueClass) [.loc l]

def unbox (k : Carrier) (l : LocalId) : Drafting LocalId :=
  match k.accessor? with
  | some name => do
    let c ← cast "argument" (.object k.boxedClass) l
    callValue c (accessor k.boxedClass name k.codeType) []
  | none => if k = .array then cast "argument" (.object k.boxedClass) l else return l

def unboxAll : List Carrier → List LocalId → Drafting (List LocalId)
  | k :: ks, l :: ls => do
    let v ← unbox k l
    let vs ← unboxAll ks ls
    return v :: vs
  | _, _ => return []

/-- A call of a builtin: arguments are unboxed, the result is boxed again. -/
def callBuiltin (b : Builtin) (args : List LocalId) : Drafting LocalId := do
  let vs ← unboxAll b.params args
  let types := b.params.map Carrier.codeType
  let operands := vs.map Operand.loc
  let result := b.result.codeType
  let raw ← match b.target with
    | .static className method => callStatic ⟨className, method, types, result⟩ operands
    | .virtual method =>
      callValue (vs.headD 0) ⟨(b.params.headD .token).boxedClass, method, types.drop 1, result⟩
        (operands.drop 1)
  match b.result.wrapper? with
  | some className => newObject "result" className [.loc raw]
  | none => return raw
end Draft

/-- A local with the type of the value in it. -/
abbrev TypedLocal : Type := LocalId × ValueType

/-- Where the code of an expression stands, and the names bound there. -/
structure ExprSite where
  /-- The class that the code belongs to. -/
  owner : ClassId
  /-- The object that the class stands for; a closure class stands for none. -/
  self : Option ObjectId
  /-- The object whose scopes give names their meaning. -/
  scope : Option ObjectId
  /-- What faults are reported about. -/
  subject : String
  /-- Values that are held in locals, with their types. -/
  bindings : SortedMap String TypedLocal := .empty

inductive NameMeaning where
  | value (l : LocalId) (type : ValueType)
  | var (v : ObjectId)

namespace ExprSite
def bind (g : ExprSite) (name : String) (l : LocalId) (t : ValueType) : ExprSite :=
  { g with bindings := g.bindings.insert name (l, t) }

def meaning? (g : ExprSite) (m : Model) (name : String) : Option NameMeaning :=
  match g.bindings.get? name with
  | some (l, t) => some (.value l t)
  | none => (g.scope.bind fun o => m.resolve? o name).map .var

def unsupported {α : Type} (g : ExprSite) (l : Limitation) : Generation α :=
  throw (.unsupported g.subject l)

def fault {α : Type} (g : ExprSite) (e : EvalError) : Generation α :=
  throw (.expression g.subject (.evaluation e))

def readVariable (g : ExprSite) (v : ObjectId) : Generation TypedLocal := do
  let w ← get
  match g.self, w.draft.body.receiver with
  | some o, some this =>
    let a ← reference this o v
    let l ← callValue a getToken []
    return (l, w.spec.model.variableType v)
  | _, _ => throw (.inconsistent (.readOutsideActor g.subject))

def builtinConstant (g : ExprSite) (name : String) : Generation TypedLocal :=
  match Builtin.constant? name with
  | none => g.fault (.undefinedIdentifier name)
  | some v => do
    match ← boxed v with
    | .ok l => return (l, v.type)
    | .error t => g.unsupported (.constant name t)

def readName (g : ExprSite) : NameMeaning → Generation TypedLocal
  | .value l t => return (l, t)
  | .var v => g.readVariable v

def callBuiltin (g : ExprSite) (name : String) (form : CallForm)
    (args : List TypedLocal) : Generation TypedLocal := do
  let types := args.map (·.2)
  let w ← get
  let (found, memo) := w.spec.memo.resolve name form types
  set { w with spec := { w.spec with memo := memo } }
  match found with
  | none => g.unsupported (.call name types)
  | some b =>
    let l ← Draft.callBuiltin b (args.map (·.1))
    return (l, b.resultType types)

def applyValue (g : ExprSite) (target : TypedLocal) (args : List TypedLocal) :
    Generation TypedLocal :=
  match target.2, args with
  | .array element, [(i, _)] => do
    let index ← Draft.intValue i
    let a ← cast "array" (.object arrayToken) target.1
    let l ← callValue a arrayGetElement [.loc index]
    return (l, element)
  | .matrix element, [(r, _), (c, _)] => do
    let row ← Draft.intValue r
    let col ← Draft.intValue c
    let m ← cast "matrix" (.object matrixToken) target.1
    let l ← callValue m matrixGetElement [.loc row, .loc col]
    return (l, element)
  | .function _, args => do
    let a ← newArray "arguments" tokenType (args.map fun arg => .loc arg.1)
    let f ← cast "function" (.object functionToken) target.1
    let l ← callValue f functionApply [.loc a]
    return (l, .general)
  | t, args => g.unsupported (.application t args.length)

def memberOf (g : ExprSite) (target : TypedLocal) (label : String) : Generation TypedLocal :=
  match target.2 with
  | .record fields =>
    match fields.lookup label with
    | none => g.fault (.noField label)
    | some t => do
      let r ← cast "record" (.object recordToken) target.1
      let l ← callValue r recordGet [.string label]
      return (l, t)
  | t => g.unsupported (.member label t)

def capture (g : ExprSite) : List String → Generation (List (String × TypedLocal))
  | [] => return []
  | name :: names => do
    let s ← spec
    match g.meaning? s.model name with
    | some n =>
      let v ← g.readName n
      let vs ← g.capture names
      return (name, v) :: vs
    | none =>
      if (Builtin.constant? name).isSome || Builtin.isKnown name then g.capture names
      else g.fault (.undefinedIdentifier name)

def captureFields (c : ClassId) : List (String × TypedLocal) → Specialize (List FieldId)
  | [] => return []
  | (name, _, t) :: rest => do
    let f ← onProgram fun p => p.addField c ("_CGcaptured_" ++ name) tokenType
    onFacts fun facts => facts.setType f t
    let fs ← captureFields c rest
    return f :: fs

def storeParams (this : LocalId) : List FieldId → List LocalId → Drafting Unit
  | f :: fs, l :: ls => do
    storeField this f (.loc l)
    storeParams this fs ls
  | _, _ => return

/-- The constructor of a closure class: it stores the captured values. -/
def closureInit (arity : Nat) (fields : List FieldId) : Generation Unit := do
  let this ← receiver "codegen" "closure constructor"
  callSpecial this (initOf functionToken [.int]) [.int (Int32.ofNat arity)]
  storeParams this fields (← get).draft.body.params
  ret none

def bindParams (g : ExprSite) (args : LocalId) : Nat → Params → Drafting ExprSite
  | _, [] => return g
  | i, (name, declared) :: params => do
    let raw ← value name tokenType (.element args (.int (Int32.ofNat i)))
    match declared with
    | some t =>
      let l ← Draft.convert raw t
      bindParams (g.bind name l t) args (i + 1) params
    | none => bindParams (g.bind name raw .unknown) args (i + 1) params

def bindCaptured (g : ExprSite) (this : LocalId) :
    List (String × TypedLocal) → List FieldId → Drafting ExprSite
  | (name, _, t) :: rest, f :: fs => do
    let l ← readField name tokenType this f
    bindCaptured (g.bind name l t) this rest fs
  | _, _ => return g

def closureApply (inner : ExprSite) (params : Params)
    (captured : List (String × TypedLocal)) (fields : List FieldId)
    (body : ExprSite → Generation TypedLocal) : Generation Unit := do
  let this ← receiver "codegen" "closure apply"
  let args ← param "codegen" "closure apply" 0
  let g ← bindParams inner args 0 params
  let g ← bindCaptured g this captured fields
  let (l, _) ← body g
  ret (some (.loc l))

def closure (g : ExprSite) (params : Params) (free : List String)
    (body : ExprSite → Generation TypedLocal) : Generation TypedLocal := do
  let captured ← g.capture free
  let name ← closureName g.owner
  let c ← onProgram fun p => p.addClass name functionToken .closure
  let fields ← captureFields c captured
  let init ← onProgram fun p => p.addMethod c "<init>" (captured.map fun _ => tokenType) .void false
  extend init (closureInit params.length fields)
  let apply ← onProgram fun p => p.addMethod c "apply" [.array tokenType] tokenType false
  extend apply (closureApply ⟨c, none, none, g.subject, .empty⟩ params captured fields body)
  let l ← newObject "function" name (captured.map fun (_, l, _) => .loc l)
  return (l, .function params.length)

mutual

/-- Code for an expression: the local that holds its value, and its type. -/
def generate (g : ExprSite) : Expr → Generation TypedLocal
  | .literal l => do
    let r ← literal l
    return (r, (Value.ofLiteral l).type)
  | .ident name => do
    let s ← spec
    match g.meaning? s.model name with
    | some n => g.readName n
    | none => g.builtinConstant name
  | .sum first rest => do
    let acc ← generate g first
    generateSum g acc rest
  | .product first rest => do
    let acc ← generate g first
    generateProduct g acc rest
  | .power base exponent => do
    let (b, t) ← generate g base
    let (e, _) ← generate g exponent
    let l ← Draft.power b e
    return (l, t)
  | .relation op lhs rhs => do
    let (a, _) ← generate g lhs
    let (b, _) ← generate g rhs
    let l ← Draft.relation op a b
    return (l, .boolean)
  | .logic op operands => do
    let result ← temp "logical" tokenType
    let decided ← label
    let done ← label
    -- A conjunction is decided by the first false operand, a disjunction by the first true one.
    let deciding := op = .or
    generateLogic g (.const (.bool deciding)) decided operands
    let all ← newObject "bool" booleanToken [.const (.bool !deciding)]
    assign result (.use (.loc all))
    goto done
    place decided
    let early ← newObject "bool" booleanToken [.const (.bool deciding)]
    assign result (.use (.loc early))
    place done
    return (result, .boolean)
  | .bitwise op operands =>
    match operands with
    | [] => g.fault .emptyChain
    | first :: rest => do
      let acc ← generate g first
      generateBitwise g (Draft.bitOpName op) acc rest
  | .shift op lhs rhs => do
    let (a, t) ← generate g lhs
    let (b, _) ← generate g rhs
    let l ← Draft.shift op a b
    return (l, t)
  | .unary op operand => do
    let (v, t) ← generate g operand
    let l ← Draft.unary op v
    return (l, if op = .not then .boolean else t)
  | .cond test yes no => do
    let (c, _) ← generate g test
    let flag ← Draft.booleanValue c
    let result ← temp "choice" tokenType
    let other ← label
    let done ← label
    branchFalse flag other
    let (a, t) ← generate g yes
    assign result (.use (.loc a))
    goto done
    place other
    let (b, u) ← generate g no
    assign result (.use (.loc b))
    place done
    return (result, t.lub u)
  | .apply callee args =>
    match callee with
    | .ident name => do
      let s ← spec
      match g.meaning? s.model name with
      | some n =>
        let target ← g.readName n
        let vs ← generateList g args
        g.applyValue target vs
      | none =>
        if Builtin.needsInterpreter name then g.unsupported (.interpreterCall name)
        else do
          let vs ← generateList g args
          g.callBuiltin name .function vs
    | callee => do
      let target ← generate g callee
      let vs ← generateList g args
      g.applyValue target vs
  | .method base name args => do
    let v ← generate g base
    let vs ← generateList g args
    g.callBuiltin name .method (v :: vs)
  | .member base name => do
    let v ← generate g base
    g.memberOf v name
  | .array elements => do
    let vs ← generateList g elements
    let element := ValueType.lubAll (vs.map (·.2))
    let a ← newArray "elements" tokenType (vs.map fun v => .loc v.1)
    let l ← newObject "array" arrayToken [.string element.render, .loc a]
    return (l, .array element)
  | .record fields => do
    let vs ← generateFields g fields
    let labels ← newArray "labels" .string (vs.map fun v => .string v.1)
    let values ← newArray "values" tokenType (vs.map fun v => .loc v.2.1)
    let l ← newObject "record" recordToken [.loc labels, .loc values]
    return (l, .record (SortedMap.ofList (vs.map fun v => (v.1, v.2.2))).entries)
  | .matrix rows => do
    let cols := (rows.headD []).length
    let vs ← generateRows g cols rows
    let t := ValueType.matrix (.lubAll (vs.map (·.2)))
    let a ← newArray "elements" tokenType (vs.map fun v => .loc v.1)
    let l ← callStatic (arrayToMatrix t.valueClass)
      [.loc a, .int (Int32.ofNat rows.length), .int (Int32.ofNat cols)]
    return (l, t)
  | .function params body =>
    g.closure params (Expr.function params body).freeIdentifiers fun g => generate g body

def generateSum (g : ExprSite) (acc : TypedLocal) : List (SumOp × Expr) → Generation TypedLocal
  | [] => return acc
  | (op, e) :: rest => do
    let (v, t) ← generate g e
    let l ← Draft.binary op.toArith.name acc.1 v
    generateSum g (l, acc.2.lub t) rest

def generateProduct (g : ExprSite) (acc : TypedLocal) :
    List (ProductOp × Expr) → Generation TypedLocal
  | [] => return acc
  | (op, e) :: rest => do
    let (v, t) ← generate g e
    let l ← Draft.binary op.toArith.name acc.1 v
    generateProduct g (l, acc.2.lub t) rest

def generateBitwise (g : ExprSite) (name : String) (acc : TypedLocal) :
    List Expr → Generation TypedLocal
  | [] => return acc
  | e :: rest => do
    let (v, t) ← generate g e
    let l ← Draft.binary name acc.1 v
    generateBitwise g name (l, acc.2.lub t) rest

def generateLogic (g : ExprSite) (deciding : Operand) (decided : Label) :
    List Expr → Generation Unit
  | [] => return
  | e :: rest => do
    let (v, _) ← generate g e
    let flag ← Draft.booleanValue v
    branch .eq (.loc flag) deciding decided
    generateLogic g deciding decided rest

def generateList (g : ExprSite) : List Expr → Generation (List TypedLocal)
  | [] => return []
  | e :: es => do
    let v ← generate g e
    let vs ← generateList g es
    return v :: vs

def generateFields (g : ExprSite) : List (String × Expr) → Generation (List (String × TypedLocal))
  | [] => return []
  | (label, e) :: es => do
    let v ← generate g e
    let vs ← generateFields g es
    return (label, v) :: vs

def generateRows (g : ExprSite) (cols : Nat) : List (List Expr) → Generation (List TypedLocal)
  | [] => return []
  | row :: rows => do
    if row.length ≠ cols then throw (.expression g.subject .unequalRows)
    let vs ← generateList g row
    let ws ← generateRows g cols rows
    return vs ++ ws
end
end ExprSite
end DataflowSpecializer
