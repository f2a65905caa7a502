import DataflowSpecializer.Expression.Evaluate
import DataflowSpecializer.Platform.Methods
import DataflowSpecializer.Proofs.Code.Arithmetic
import DataflowSpecializer.Proofs.Code.Machine

/-! # The platform at run time

The library of the platform, read as the operations on values: what is constructed is a value,
methods of values are the operations of that name, and a cast is checked against the class of a
value.
-/
namespace DataflowSpecializer
open Value
instance : Nonempty Value := ⟨.boolean true⟩

namespace Library
open Platform

/-- What a reference of the generated code points to. -/
inductive Ref where
  | value (v : Value)
  /-- A complex number, which is not yet a value of the language. -/
  | complex (re im : Float)
  | array (address : Nat)

abbrev Heap : Type := List (List (Datum Ref))
abbrev ofValue (v : Value) : Datum Ref := .ref (.value v)

def reply : Outcome → Reply Ref
  | .ok v => .value (ofValue v)
  | .error e => .traps e.message

def replyConst (c : Option Constant) : Reply Ref :=
  match c with
  | some c => .value (.const c)
  | none => .traps "no such number"

def unknown : Reply Ref := .traps "no such operation"

def values? : List (Datum Ref) → Option (List Value)
  | [] => some []
  | .ref (.value v) :: xs => (values? xs).map (v :: ·)
  | _ :: _ => none

def texts? : List (Datum Ref) → Option (List String)
  | [] => some []
  | .const (.string s) :: xs => (texts? xs).map (s :: ·)
  | _ :: _ => none

def store (heap : Heap) (address : Nat) (index : Int32) (x : Datum Ref) : Reply Ref × Heap :=
  match heap[address]? with
  | some xs =>
    if 0 ≤ index ∧ index.toInt.toNat < xs.length then
      (.value (.const .null), heap.set address (xs.set index.toInt.toNat x))
    else (.traps "index out of bounds", heap)
  | none => (unknown, heap)

def allocate (heap : Heap) (length : Int32) : Reply Ref × Heap :=
  if 0 ≤ length then
    (.value (.ref (.array heap.length)), heap ++ [List.replicate length.toInt.toNat (.const .null)])
  else (.traps "negative length", heap)

def ofConstant? (className : String) (c : Constant) : Option Value :=
  match c with
  | .bool b => if className = booleanToken then some (.boolean b) else none
  | .int n =>
    if className = intToken then some (.int n)
    else if className = unsignedByteToken then some (.ubyte (UInt8.ofNat n.toInt.toNat))
    else none
  | .long n => if className = longToken then some (.long n) else none
  | .double x => if className = doubleToken then some (.double x) else none
  | .string s => if className = stringToken then some (.string s) else none
  | .null => none

def elements? (heap : Heap) (address : Nat) : Option (List Value) := (heap[address]?).bind values?

def construct (heap : Heap) (className : String) : List (Datum Ref) → Reply Ref
  | [.const c] =>
    match ofConstant? className c with
    | some v => .value (ofValue v)
    | none => unknown
  | [.const (.double re), .const (.double im)] =>
    if className = Platform.complex then .value (.ref (.complex re im)) else unknown
  | [.ref (.complex re im)] =>
    if className = complexToken then .value (ofValue (.complex re im)) else unknown
  | [.const (.string _), .ref (.array a)] =>
    if className = arrayToken then
      match elements? heap a with
      | some vs => .value (ofValue (.arrayOf vs))
      | none => unknown
    else unknown
  | [.ref (.array a), .ref (.array b)] =>
    if className = recordToken then
      match (heap[a]?).bind texts?, elements? heap b with
      | some labels, some vs => .value (ofValue (.recordOf (labels.zip vs)))
      | _, _ => unknown
    else unknown
  | _ => unknown

def binaryMethods : List (String × (Value → Value → Outcome)) :=
  [("add", Value.arith .add), ("subtract", Value.arith .subtract),
    ("multiply", Value.arith .multiply), ("divide", Value.arith .divide),
    ("modulo", Value.arith .modulo), ("bitwiseAnd", bitwise .and),
    ("bitwiseOr", bitwise .or), ("bitwiseXor", bitwise .xor),
    ("isEqualTo", fun a b => .ok (a.isEqualTo b)), ("isLessThan", Value.isLessThan)]

def unaryMethods : List (String × (Value → Outcome)) :=
  [("negate", Value.negate), ("not", Value.not), ("bitwiseNot", bitwiseNot)]

def countedMethods : List (String × (Value → Int32 → Outcome)) :=
  [("pow", Value.pow), ("leftShift", fun v n => v.shift .left n),
    ("rightShift", fun v n => v.shift .right n),
    ("logicalRightShift", fun v n => v.shift .logicalRight n), ("getElement", element)]

def accessors : List (String × (Value → Option Constant)) :=
  [("intValue", fun v => v.toInt?.map .int), ("booleanValue", fun v => v.toBool?.map .bool)]

def call (run : Evaluator) (heap : Heap) (v : Value) (name : String) : List (Datum Ref) → Reply Ref
  | [] =>
    match unaryMethods.lookup name, accessors.lookup name with
    | some op, _ => reply (op v)
    | none, some get => replyConst (get v)
    | none, none => unknown
  | [.ref (.value b)] =>
    match binaryMethods.lookup name with
    | some op => reply (op v b)
    | none => unknown
  | [.const (.int n)] =>
    match countedMethods.lookup name with
    | some op => reply (op v n)
    | none => unknown
  | [.const (.int r), .const (.int c)] =>
    if name = "getElementAsToken" then reply (v.matrixElement r c) else unknown
  | [.const (.string label)] => if name = "get" then reply (v.field label) else unknown
  | [.ref (.array a)] =>
    if name = "apply" then
      match elements? heap a with
      | some args => reply (Expr.applyValue run v args)
      | none => unknown
    else unknown
  | _ => unknown

/-- A method that belongs to no value: a matrix is made from its elements row by row. -/
def callStatic (heap : Heap) (name : String) : List (Datum Ref) → Reply Ref
  | [.ref (.array a), .const (.int rows), .const (.int cols)] =>
    if name = "arrayToMatrix" then
      match elements? heap a with
      | some vs => .value (ofValue (.matrixOf rows.toInt.toNat cols.toInt.toNat vs))
      | none => unknown
    else unknown
  | _ => unknown

def perform (run : Evaluator) (e : Effect Ref) (heap : Heap) : Reply Ref × Heap :=
  match e with
  | .new className args => (construct heap className args, heap)
  | .newArray _ (.const (.int n)) => allocate heap n
  | .storeElement (.ref (.array a)) (.const (.int i)) x => store heap a i x
  | .call .virtual (some (.ref (.value v))) method args => (call run heap v method.name args, heap)
  | .call .static none method args => (callStatic heap method.name args, heap)
  | _ => (unknown, heap)

def isInstance (className : String) : Datum Ref → Bool
  | .ref (.value v) => isSubclass v.type.valueClass className
  | .ref (.complex _ _) => className == Platform.complex
  | _ => false

def cast (t : CodeType) (x : Datum Ref) : Option (Datum Ref) :=
  match t with
  | .object className => if isInstance className x then some x else none
  | _ => none

def onConstants (f : Constant → Constant → Option Constant) :
    Datum Ref → Datum Ref → Option (Datum Ref)
  | .const a, .const b => (f a b).map .const
  | _, _ => none

def onConstant (f : Constant → Option Constant) : Datum Ref → Option (Datum Ref)
  | .const a => (f a).map .const
  | _ => none
end Library

def runtime (run : Evaluator) : Interpretation Library.Ref Library.Heap where
  perform := Library.perform run
  cast := Library.cast
  instanceOf := Library.isInstance
  binary op := Library.onConstants op.compute?
  negate := Library.onConstant Constant.negated?
  not := Library.onConstant Constant.negation?
  text _ := none
end DataflowSpecializer
