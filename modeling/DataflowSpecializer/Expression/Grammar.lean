import DataflowSpecializer.Expression.Scan
import DataflowSpecializer.Expression.Syntax
import DataflowSpecializer.Value.TypeName

/-! # The grammar of expressions -/
namespace DataflowSpecializer
abbrev Parser (α : Type) : Type := List Lexeme → Option (α × List Lexeme)

namespace Parse
variable {α β : Type}

/-! ### Combinators -/
def symbol (s : Symbol) : Parser Unit
  | .symbol t :: rest => if s = t then some ((), rest) else none
  | _ => none

def name : Parser String
  | .name n :: rest => some (n, rest)
  | _ => none

def operator (table : Symbol → Option α) : Parser α
  | .symbol s :: rest => (table s).map fun op => (op, rest)
  | _ => none

def map (f : α → β) (p : Parser α) : Parser β := fun ts => (p ts).map fun r => (f r.1, r.2)

def andThen (p : Parser α) (q : α → Parser β) : Parser β := fun ts => (p ts).bind fun r => q r.1 r.2

def orElse (p q : Parser α) : Parser α :=
  fun ts =>
    match p ts with
    | some r => some r
    | none => q ts

def optional (p : Parser α) : Parser (Option α) :=
  fun ts =>
    match p ts with
    | some (a, rest) => some (some a, rest)
    | none => some (none, ts)

def upTo (p : Parser α) : List Lexeme → Parser (List α)
  | [] => fun ts => some ([], ts)
  | _ :: budget => fun ts =>
    match p ts with
    | none => some ([], ts)
    | some (a, rest) => (upTo p budget rest).map fun r => (a :: r.1, r.2)

def many (p : Parser α) : Parser (List α) := fun ts => upTo p ts ts

def behind (s : Symbol) (p : Parser α) : Parser α := andThen (symbol s) fun _ => p

def separated1 (s : Symbol) (p : Parser α) : Parser (List α) :=
  andThen p fun a => map (a :: ·) (many (behind s p))

def separated (s : Symbol) (p : Parser α) : Parser (List α) :=
  orElse (separated1 s p) fun ts => some ([], ts)

def trailing (s : Symbol) (p : Parser α) : Parser α :=
  andThen p fun a => map (fun _ => a) (optional (symbol s))

def enclosed (opening closing : Symbol) (p : Parser α) : Parser α :=
  andThen (symbol opening) fun _ => andThen p fun a => map (fun _ => a) (symbol closing)

def checked (f : α → Option β) (p : Parser α) : Parser β :=
  fun ts => (p ts).bind fun r => (f r.1).map fun b => (b, r.2)

def literal : Parser Literal
  | .int n :: rest => some (.int n, rest)
  | .long n :: rest => some (.long n, rest)
  | .ubyte n :: rest => some (.ubyte n, rest)
  | .double x :: rest => some (.double x, rest)
  | .string s :: rest => some (.string s, rest)
  | .boolean b :: rest => some (.boolean b, rest)
  | _ => none

section Levels
variable (expr : Parser Expr)

def arguments : Parser (List Expr) := enclosed .lParen .rParen (separated .comma expr)

def recordField : Parser (String × Expr) :=
  andThen name fun label => behind .assign (map (fun e => (label, e)) expr)

def record : Parser Expr :=
  map .record (enclosed .lBrace .rBrace (trailing .comma (separated1 .comma (recordField expr))))

def array : Parser Expr :=
  map .array (enclosed .lBrace .rBrace
    (orElse (trailing .comma (separated1 .comma expr)) fun ts => some ([], ts)))

def matrixOfRows? (rows : List (List Expr)) : Option Expr :=
  if rows.all fun row => row.length = (rows.headD []).length then some (.matrix rows) else none

def matrix : Parser Expr :=
  checked matrixOfRows? (enclosed .lBracket .rBracket
    (trailing .semi (separated1 .semi (separated1 .comma expr))))

def param : Parser (String × Option ValueType) :=
  andThen name fun n =>
    map (fun t => (n, t)) (optional (behind .colon (checked ValueType.ofName? name)))

def function : Parser Expr
  | .function :: ts =>
    andThen (enclosed .lParen .rParen (separated .comma param))
      (fun params => map (.function params) expr) ts
  | _ => none

def atom : Parser Expr :=
  orElse (map .literal literal) <| orElse (function expr) <| orElse (record expr) <|
    orElse (array expr) <| orElse (matrix expr) <| orElse (map .ident name) <|
      enclosed .lParen .rParen expr

inductive Suffix where
  | call (args : List Expr)
  | method (name : String) (args : List Expr)
  | member (name : String)

def Suffix.attach (base : Expr) : Suffix → Expr
  | .call args => .apply base args
  | .method name args => .method base name args
  | .member name => .member base name

def selection : Parser Suffix :=
  andThen name fun n => map (fun args => match args with
      | some args => .method n args
      | none => .member n)
    (optional (arguments expr))

def suffix : Parser Suffix := orElse (map .call (arguments expr)) (behind .dot (selection expr))

def suffixed : Parser Expr :=
  andThen (atom expr) fun base => map (fun s => s.foldl Suffix.attach base) (many (suffix expr))

def negate : Expr → Expr
  | .literal (.int n) => .literal (.int (-n))
  | .literal (.long n) => .literal (.long (-n))
  | .literal (.double x) => .literal (.double (-x))
  | e => .unary .negate e

def exponent : Parser Expr :=
  andThen (optional (symbol .minus)) fun sign =>
    map (fun e => if sign.isSome then negate e else e) (suffixed expr)

def power : Parser Expr :=
  andThen (suffixed expr) fun base =>
    map (fun es => es.foldl Expr.power base) (many (behind .caret (exponent expr)))

def unaryOp : Symbol → Option UnaryOp
  | .minus => some .negate
  | .bang => some .not
  | .tilde => some .bitwiseNot
  | _ => none

def applyUnary (op : UnaryOp) (operand : Expr) : Expr :=
  match op with
  | .negate => negate operand
  | op => .unary op operand

def unary : Parser Expr :=
  andThen (many (operator unaryOp)) fun ops => map (fun e => ops.foldr applyUnary e) (power expr)

/-! ### Chains -/
def chainOf (build : α → List β → α) (first : α) (rest : List β) : α :=
  if rest.isEmpty then first else build first rest

def operatorChain (table : Symbol → Option β) (build : Expr → List (β × Expr) → Expr)
    (operand : Parser Expr) : Parser Expr :=
  andThen operand fun first => map (chainOf build first)
    (many (andThen (operator table) fun op => map (fun e => (op, e)) operand))

def symbolChain (s : Symbol) (build : List Expr → Expr) (operand : Parser Expr) : Parser Expr :=
  andThen operand fun first =>
    map (chainOf (fun e es => build (e :: es)) first) (many (behind s operand))

def productOp : Symbol → Option ProductOp
  | .star => some .multiply
  | .slash => some .divide
  | .percent => some .modulo
  | _ => none

def product : Parser Expr := operatorChain productOp .product (unary expr)

def sumOp : Symbol → Option SumOp
  | .plus => some .add
  | .minus => some .subtract
  | _ => none

def sum : Parser Expr := operatorChain sumOp .sum (product expr)

def shiftOp : Symbol → Option ShiftOp
  | .shl => some .left
  | .shr => some .right
  | .ushr => some .logicalRight
  | _ => none

def shift : Parser Expr :=
  operatorChain shiftOp (fun first rest => rest.foldl (fun lhs r => .shift r.1 lhs r.2) first)
    (sum expr)

def relationOp : Symbol → Option RelationOp
  | .eqEq => some .eq
  | .notEq => some .ne
  | .lt => some .lt
  | .le => some .le
  | .gt => some .gt
  | .ge => some .ge
  | _ => none

/-- At most one comparison: they do not chain. -/
def relation : Parser Expr :=
  andThen (shift expr) fun lhs => map (fun r => match r with
      | some (op, rhs) => .relation op lhs rhs
      | none => lhs)
    (optional (andThen (operator relationOp) fun op => map (fun e => (op, e)) (shift expr)))

def bitAnd : Parser Expr := symbolChain .amp (.bitwise .and) (relation expr)

def bitXor : Parser Expr := symbolChain .hash (.bitwise .xor) (bitAnd expr)

def bitOr : Parser Expr := symbolChain .pipe (.bitwise .or) (bitXor expr)

def logicAnd : Parser Expr := symbolChain .andAnd (.logic .and) (bitOr expr)

def logicOr : Parser Expr := symbolChain .orOr (.logic .or) (logicAnd expr)

def branches : Parser (Expr × Expr) :=
  behind .question (andThen expr fun yes => behind .colon (map (fun no => (yes, no)) expr))

def conditional : Parser Expr :=
  andThen (logicOr expr) fun test => map (fun r => match r with
      | some (yes, no) => .cond test yes no
      | none => test)
    (optional (branches expr))
end Levels

def expression : Nat → Parser Expr
  | 0 => fun _ => none
  | n + 1 => conditional (expression n)

def ofLexemes? (ts : List Lexeme) : Option Expr :=
  match expression (ts.length + 1) ts with
  | some (e, []) => some e
  | _ => none
end Parse

def Expr.parse? (source : String) : Option Expr :=
  let scan := Scan.ofString source
  if scan.rejected.isEmpty then Parse.ofLexemes? (scan.lexemes.map (·.1)) else none
end DataflowSpecializer
