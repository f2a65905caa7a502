import DataflowSpecializer.Data.SortedMap
import DataflowSpecializer.Value.Type

/-! # Expressions -/
namespace DataflowSpecializer
inductive Literal where
  | boolean (value : Bool)
  | ubyte (value : UInt8)
  | int (value : Int32)
  | long (value : Int64)
  | double (value : Float)
  | string (value : String)
deriving Repr

inductive SumOp where
  | add
  | subtract
deriving DecidableEq, Repr

inductive ProductOp where
  | multiply
  | divide
  | modulo
deriving DecidableEq, Repr

inductive RelationOp where
  | eq
  | ne
  | lt
  | le
  | gt
  | ge
deriving DecidableEq, Repr

inductive LogicOp where
  | and
  | or
deriving DecidableEq, Repr

inductive BitOp where
  | and
  | or
  | xor
deriving DecidableEq, Repr

inductive ShiftOp where
  | left
  | right
  | logicalRight
deriving DecidableEq, Repr

inductive UnaryOp where
  | negate
  | not
  | bitwiseNot
deriving DecidableEq, Repr

/-- Names of parameters, with their types where they are declared. -/
abbrev Params : Type := List (String × Option ValueType)

inductive Expr where
  | literal (value : Literal)
  | ident (name : String)
  | sum (first : Expr) (rest : List (SumOp × Expr))
  | product (first : Expr) (rest : List (ProductOp × Expr))
  | power (base exponent : Expr)
  | relation (op : RelationOp) (lhs rhs : Expr)
  /-- Operands are evaluated only until one decides. -/
  | logic (op : LogicOp) (operands : List Expr)
  | bitwise (op : BitOp) (operands : List Expr)
  | shift (op : ShiftOp) (lhs rhs : Expr)
  | unary (op : UnaryOp) (operand : Expr)
  | cond (test yes no : Expr)
  /-- The application of a function, or an index into an array or matrix. -/
  | apply (callee : Expr) (args : List Expr)
  | method (base : Expr) (name : String) (args : List Expr)
  | member (base : Expr) (name : String)
  | array (elements : List Expr)
  | record (fields : List (String × Expr))
  | matrix (rows : List (List Expr))
  | function (params : List (String × Option ValueType)) (body : Expr)
deriving Inhabited, Repr

namespace Expr
mutual

def freeNames (bound : List String) : Expr → List String
  | .literal _ => []
  | .ident name => if bound.contains name then [] else [name]
  | .sum first rest => freeNames bound first ++ freeNamesSum bound rest
  | .product first rest => freeNames bound first ++ freeNamesProduct bound rest
  | .power base exponent => freeNames bound base ++ freeNames bound exponent
  | .relation _ lhs rhs => freeNames bound lhs ++ freeNames bound rhs
  | .logic _ operands => freeNamesList bound operands
  | .bitwise _ operands => freeNamesList bound operands
  | .shift _ lhs rhs => freeNames bound lhs ++ freeNames bound rhs
  | .unary _ operand => freeNames bound operand
  | .cond test yes no => freeNames bound test ++ (freeNames bound yes ++ freeNames bound no)
  | .apply callee args => freeNames bound callee ++ freeNamesList bound args
  | .method base _ args => freeNames bound base ++ freeNamesList bound args
  | .member base _ => freeNames bound base
  | .array elements => freeNamesList bound elements
  | .record fields => freeNamesFields bound fields
  | .matrix rows => freeNamesRows bound rows
  | .function params body => freeNames (params.map (·.1) ++ bound) body

def freeNamesList (bound : List String) : List Expr → List String
  | [] => []
  | e :: es => freeNames bound e ++ freeNamesList bound es

def freeNamesSum (bound : List String) : List (SumOp × Expr) → List String
  | [] => []
  | (_, e) :: es => freeNames bound e ++ freeNamesSum bound es

def freeNamesProduct (bound : List String) : List (ProductOp × Expr) → List String
  | [] => []
  | (_, e) :: es => freeNames bound e ++ freeNamesProduct bound es

def freeNamesFields (bound : List String) : List (String × Expr) → List String
  | [] => []
  | (_, e) :: es => freeNames bound e ++ freeNamesFields bound es

def freeNamesRows (bound : List String) : List (List Expr) → List String
  | [] => []
  | row :: rows => freeNamesList bound row ++ freeNamesRows bound rows
end

def freeIdentifiers (e : Expr) : List String :=
  (SortedMap.ofList ((freeNames [] e).map fun name => (name, ()))).keys
end Expr

/-! ## Comparison -/
def Literal.beq : Literal → Literal → Bool
  | .boolean a, .boolean b => a == b
  | .ubyte a, .ubyte b => a == b
  | .int a, .int b => a == b
  | .long a, .long b => a == b
  | .double a, .double b => a == b
  | .string a, .string b => a == b
  | _, _ => false

instance : BEq Literal := ⟨Literal.beq⟩

namespace Expr
mutual

def beq : Expr → Expr → Bool
  | .literal a, .literal b => a == b
  | .ident a, .ident b => a == b
  | .sum a as, .sum b bs => beq a b && beqSum as bs
  | .product a as, .product b bs => beq a b && beqProduct as bs
  | .power a c, .power b d => beq a b && beq c d
  | .relation o a c, .relation p b d => o == p && beq a b && beq c d
  | .logic o as, .logic p bs => o == p && beqList as bs
  | .bitwise o as, .bitwise p bs => o == p && beqList as bs
  | .shift o a c, .shift p b d => o == p && beq a b && beq c d
  | .unary o a, .unary p b => o == p && beq a b
  | .cond a c e, .cond b d f => beq a b && beq c d && beq e f
  | .apply a as, .apply b bs => beq a b && beqList as bs
  | .method a m as, .method b n bs => beq a b && m == n && beqList as bs
  | .member a m, .member b n => beq a b && m == n
  | .array as, .array bs => beqList as bs
  | .record as, .record bs => beqFields as bs
  | .matrix as, .matrix bs => beqRows as bs
  | .function ps a, .function qs b => ps == qs && beq a b
  | _, _ => false

def beqList : List Expr → List Expr → Bool
  | [], [] => true
  | a :: as, b :: bs => beq a b && beqList as bs
  | _, _ => false

def beqSum : List (SumOp × Expr) → List (SumOp × Expr) → Bool
  | [], [] => true
  | (o, a) :: as, (p, b) :: bs => o == p && beq a b && beqSum as bs
  | _, _ => false

def beqProduct : List (ProductOp × Expr) → List (ProductOp × Expr) → Bool
  | [], [] => true
  | (o, a) :: as, (p, b) :: bs => o == p && beq a b && beqProduct as bs
  | _, _ => false

def beqFields : List (String × Expr) → List (String × Expr) → Bool
  | [], [] => true
  | (l, a) :: as, (m, b) :: bs => l == m && beq a b && beqFields as bs
  | _, _ => false

def beqRows : List (List Expr) → List (List Expr) → Bool
  | [], [] => true
  | a :: as, b :: bs => beqList a b && beqRows as bs
  | _, _ => false
end

instance : BEq Expr := ⟨beq⟩
end Expr
end DataflowSpecializer
