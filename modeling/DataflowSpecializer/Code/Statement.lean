import DataflowSpecializer.Number
import DataflowSpecializer.Text

/-! # Types and statements of generated code -/
namespace DataflowSpecializer
inductive CodeType where
  | void
  | boolean
  | int
  | long
  | double
  | string
  /-- Instances of the class of that name. -/
  | object (className : String)
  | array (element : CodeType)
deriving DecidableEq, Inhabited, Repr

namespace CodeType
def className? : CodeType → Option String
  | .object name => some name
  | _ => none

def isReference : CodeType → Bool
  | .object _ | .array _ | .string => true
  | _ => false

def render : CodeType → String
  | .void => "void"
  | .boolean => "boolean"
  | .int => "int"
  | .long => "long"
  | .double => "double"
  | .string => "String"
  | .object name => name
  | .array element => element.render ++ "[]"

/-- The type that a word names; a word that is no type names a class. -/
def ofWord : String → CodeType
  | "void" => .void
  | "boolean" => .boolean
  | "int" => .int
  | "long" => .long
  | "double" => .double
  | "String" => .string
  | name => .object name

/-- The type whose name is written backwards: a pair of brackets at the end makes an array. -/
def ofReversed : List Char → CodeType
  | ']' :: '[' :: cs => .array (ofReversed cs)
  | cs => ofWord (String.ofList cs.reverse)

def ofText (text : String) : CodeType := ofReversed text.toList.reverse
end CodeType

structure MethodRef where
  className : String
  name : String
  params : List CodeType
  result : CodeType
deriving DecidableEq, Inhabited, Repr

abbrev ClassId : Type := Nat
abbrev FieldId : Type := Nat
abbrev MethodId : Type := Nat
abbrev LocalId : Type := Nat
/-- Statements of one body; an id stays with its statement when others come and go. -/
abbrev StmtId : Type := Nat
abbrev Label : Type := Nat

inductive Constant where
  | null
  | bool (value : Bool)
  | int (value : Int32)
  | long (value : Int64)
  | double (value : Float)
  | string (value : String)
deriving DecidableEq, Inhabited, Repr

namespace Constant
def type : Constant → CodeType
  | .null => .object "java.lang.Object"
  | .bool _ => .boolean
  | .int _ => .int
  | .long _ => .long
  | .double _ => .double
  | .string _ => .string

def render : Constant → String
  | .null => "null"
  | .bool b => if b then "true" else "false"
  | .int n => toString n.toInt
  | .long n => toString n.toInt ++ "L"
  | .double x => Number.showFloat x
  | .string s => Text.quote s
end Constant

inductive Operand where
  | loc (l : LocalId)
  | const (c : Constant)
deriving DecidableEq, Inhabited, Repr

namespace Operand
def string (s : String) : Operand := .const (.string s)
def int (n : Int32) : Operand := .const (.int n)

def locals : Operand → List LocalId
  | .loc l => [l]
  | .const _ => []
end Operand

inductive Place where
  | loc (l : LocalId)
  | field (base : LocalId) (field : FieldId)
  | element (base : LocalId) (index : Operand)
deriving DecidableEq, Inhabited, Repr

/-! ### Operations -/
inductive BinaryOp where
  | add
  | sub
  | mul
  | div
  | rem
  | and
  | or
  | xor
  | shl
  | shr
  | ushr
  | eq
  | ne
  | lt
  | le
  | gt
  | ge
deriving DecidableEq, Inhabited, Repr

namespace BinaryOp
def symbol : BinaryOp → String
  | .add => "+"
  | .sub => "-"
  | .mul => "*"
  | .div => "/"
  | .rem => "%"
  | .and => "&"
  | .or => "|"
  | .xor => "^"
  | .shl => "<<"
  | .shr => ">>"
  | .ushr => ">>>"
  | .eq => "=="
  | .ne => "!="
  | .lt => "<"
  | .le => "<="
  | .gt => ">"
  | .ge => ">="

def all : List BinaryOp :=
  [.add, .sub, .mul, .div, .rem, .and, .or, .xor, .shl, .shr, .ushr, .eq, .ne, .lt, .le, .gt, .ge]

def ofSymbol? (symbol : String) : Option BinaryOp := all.find? fun op => op.symbol = symbol

theorem ofSymbol?_symbol (op : BinaryOp) : ofSymbol? op.symbol = some op := by
  cases op <;> decide

def isComparison : BinaryOp → Bool
  | .eq | .ne | .lt | .le | .gt | .ge => true
  | _ => false
end BinaryOp

inductive Dispatch where
  /-- By the class of the receiver. -/
  | virtual
  | static
  /-- Exactly the method that is named. -/
  | special
deriving DecidableEq, Inhabited, Repr

structure Invocation where
  dispatch : Dispatch
  base : Option LocalId
  method : MethodRef
  args : List Operand
deriving DecidableEq, Inhabited, Repr

namespace Invocation
def locals (i : Invocation) : List LocalId := i.base.toList ++ i.args.flatMap Operand.locals

def mapOperands (f : Operand → Operand) (i : Invocation) : Invocation :=
  { i with args := i.args.map f }

def mapBase (f : LocalId → LocalId) (i : Invocation) : Invocation :=
  { i with base := i.base.map f }
end Invocation

inductive Rvalue where
  | use (o : Operand)
  | cast (type : CodeType) (o : Operand)
  | instanceOf (className : String) (o : Operand)
  | field (base : LocalId) (field : FieldId)
  | element (base : LocalId) (index : Operand)
  | length (array : LocalId)
  /-- Allocation and construction. -/
  | new (className : String) (args : List Operand)
  | newArray (element : CodeType) (length : Operand)
  | binary (op : BinaryOp) (lhs rhs : Operand)
  | negate (o : Operand)
  | not (o : Operand)
  | invoke (call : Invocation)
deriving DecidableEq, Inhabited, Repr

namespace Rvalue
def locals : Rvalue → List LocalId
  | .use o | .cast _ o | .instanceOf _ o | .negate o | .not o => o.locals
  | .field base _ | .length base => [base]
  | .element base index => base :: index.locals
  | .new _ args => args.flatMap Operand.locals
  | .newArray _ n => n.locals
  | .binary _ lhs rhs => lhs.locals ++ rhs.locals
  | .invoke call => call.locals

def operands : Rvalue → List Operand
  | .use o | .cast _ o | .instanceOf _ o | .negate o | .not o => [o]
  | .field _ _ | .length _ => []
  | .element _ index => [index]
  | .new _ args => args
  | .newArray _ n => [n]
  | .binary _ lhs rhs => [lhs, rhs]
  | .invoke call => call.args

def mapOperands (f : Operand → Operand) : Rvalue → Rvalue
  | .use o => .use (f o)
  | .cast t o => .cast t (f o)
  | .instanceOf c o => .instanceOf c (f o)
  | .field base x => .field base x
  | .element base index => .element base (f index)
  | .length array => .length array
  | .new c args => .new c (args.map f)
  | .newArray t n => .newArray t (f n)
  | .binary op lhs rhs => .binary op (f lhs) (f rhs)
  | .negate o => .negate (f o)
  | .not o => .not (f o)
  | .invoke call => .invoke (call.mapOperands f)

def mapBase (f : LocalId → LocalId) : Rvalue → Rvalue
  | .field base x => .field (f base) x
  | .element base index => .element (f base) index
  | .length array => .length (f array)
  | .invoke call => .invoke (call.mapBase f)
  | v => v
end Rvalue

/-! ### Statements -/
inductive Action where
  | assign (place : Place) (value : Rvalue)
  | invoke (call : Invocation)
  | branch (op : BinaryOp) (lhs rhs : Operand) (target : Label)
  | goto (target : Label)
  | label (label : Label)
  | ret (value : Option Operand)
  | throw (value : Operand)
  | nop
deriving DecidableEq, Inhabited, Repr

namespace Action
def set (l : LocalId) (value : Rvalue) : Action := .assign (.loc l) value

def target? : Action → Option LocalId
  | .assign (.loc l) _ => some l
  | _ => none

def call? : Action → Option Invocation
  | .invoke call => some call
  | .assign _ (.invoke call) => some call
  | _ => none

def value? : Action → Option Rvalue
  | .assign _ value => some value
  | _ => none

def jump? : Action → Option Label
  | .branch _ _ _ target | .goto target => some target
  | _ => none

def fallsThrough : Action → Bool
  | .goto _ | .ret _ | .throw _ => false
  | _ => true

def uses : Action → List LocalId
  | .assign (.loc _) value => value.locals
  | .assign (.field base _) value => base :: value.locals
  | .assign (.element base index) value => base :: (index.locals ++ value.locals)
  | .invoke call => call.locals
  | .branch _ lhs rhs _ => lhs.locals ++ rhs.locals
  | .ret (some o) | .throw o => o.locals
  | .ret none | .goto _ | .label _ | .nop => []

def operands : Action → List Operand
  | .assign (.element _ index) value => index :: value.operands
  | .assign _ value => value.operands
  | .invoke call => call.args
  | .branch _ lhs rhs _ => [lhs, rhs]
  | .ret value => value.toList
  | .throw value => [value]
  | .goto _ | .label _ | .nop => []

def mapOperands (f : Operand → Operand) : Action → Action
  | .assign (.element base index) value => .assign (.element base (f index)) (value.mapOperands f)
  | .assign place value => .assign place (value.mapOperands f)
  | .invoke call => .invoke (call.mapOperands f)
  | .branch op lhs rhs target => .branch op (f lhs) (f rhs) target
  | .ret value => .ret (value.map f)
  | .throw value => .throw (f value)
  | a => a

def renameLocals (f : LocalId → LocalId) (a : Action) : Action :=
  let rename : Operand → Operand
    | .loc l => .loc (f l)
    | o => o
  match a.mapOperands rename with
  | .assign (.loc l) value => .assign (.loc (f l)) (value.mapBase f)
  | .assign (.field base field) value => .assign (.field (f base) field) (value.mapBase f)
  | .assign (.element base index) value => .assign (.element (f base) index) (value.mapBase f)
  | .invoke call => .invoke (call.mapBase f)
  | a => a

def renameLabels (f : Label → Label) : Action → Action
  | .branch op lhs rhs target => .branch op lhs rhs (f target)
  | .goto target => .goto (f target)
  | .label l => .label (f l)
  | a => a
end Action

structure Stmt where
  id : StmtId
  action : Action
deriving DecidableEq, Inhabited, Repr
end DataflowSpecializer
