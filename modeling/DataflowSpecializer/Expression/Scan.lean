import DataflowSpecializer.Number
import DataflowSpecializer.Text

/-! # Scanning -/
namespace DataflowSpecializer
inductive Symbol where
  | plus
  | minus
  | star
  | slash
  | percent
  | caret
  | andAnd
  | orOr
  | amp
  | pipe
  | hash
  | tilde
  | bang
  | eqEq
  | notEq
  | lt
  | le
  | gt
  | ge
  | shl
  | shr
  | ushr
  | question
  | colon
  | comma
  | semi
  | dot
  | assign
  | lParen
  | rParen
  | lBrace
  | rBrace
  | lBracket
  | rBracket
deriving DecidableEq, Repr

def Symbol.spelling : Symbol → String
  | .plus => "+"
  | .minus => "-"
  | .star => "*"
  | .slash => "/"
  | .percent => "%"
  | .caret => "^"
  | .andAnd => "&&"
  | .orOr => "||"
  | .amp => "&"
  | .pipe => "|"
  | .hash => "#"
  | .tilde => "~"
  | .bang => "!"
  | .eqEq => "=="
  | .notEq => "!="
  | .lt => "<"
  | .le => "<="
  | .gt => ">"
  | .ge => ">="
  | .shl => "<<"
  | .shr => ">>"
  | .ushr => ">>>"
  | .question => "?"
  | .colon => ":"
  | .comma => ","
  | .semi => ";"
  | .dot => "."
  | .assign => "="
  | .lParen => "("
  | .rParen => ")"
  | .lBrace => "\x7b"
  | .rBrace => "\x7d"
  | .lBracket => "["
  | .rBracket => "]"

inductive Lexeme where
  | boolean (value : Bool)
  | function
  | symbol (s : Symbol)
  | ubyte (value : UInt8)
  | int (value : Int32)
  | long (value : Int64)
  | double (value : Float)
  | string (value : String)
  | name (value : String)
deriving Repr

def Lexeme.render : Lexeme → String
  | .boolean true => "true"
  | .boolean false => "false"
  | .function => "function"
  | .symbol s => s.spelling
  | .ubyte n => toString n.toNat ++ "ub"
  | .int n => toString n.toInt
  | .long n => toString n.toInt ++ "L"
  | .double x => Number.showFloat x
  | .string s => Text.quote s
  | .name s => s

structure Span where
  start : Nat
  stop : Nat
deriving DecidableEq, Repr

inductive Piece where
  | blank
  | lexeme (l : Lexeme)
  | rejected
deriving Repr

namespace Scan
def isNameStart (c : Char) : Bool := c.isAlpha || c = '_' || c = '$'

def isNameChar (c : Char) : Bool := isNameStart c || c.isDigit

def isSkipped (c : Char) : Bool := c = ' ' || c = '\t' || c = '\r' || c = '\n'

def word : String → Lexeme
  | "true" => .boolean true
  | "false" => .boolean false
  | "function" => .function
  | s => .name s

def symbol? : List Char → Option Symbol
  | '>' :: '>' :: '>' :: _ => some .ushr
  | '>' :: '>' :: _ => some .shr
  | '>' :: '=' :: _ => some .ge
  | '>' :: _ => some .gt
  | '<' :: '<' :: _ => some .shl
  | '<' :: '=' :: _ => some .le
  | '<' :: _ => some .lt
  | '&' :: '&' :: _ => some .andAnd
  | '&' :: _ => some .amp
  | '|' :: '|' :: _ => some .orOr
  | '|' :: _ => some .pipe
  | '=' :: '=' :: _ => some .eqEq
  | '=' :: _ => some .assign
  | '!' :: '=' :: _ => some .notEq
  | '!' :: _ => some .bang
  | '+' :: _ => some .plus
  | '-' :: _ => some .minus
  | '*' :: _ => some .star
  | '/' :: _ => some .slash
  | '%' :: _ => some .percent
  | '^' :: _ => some .caret
  | '#' :: _ => some .hash
  | '~' :: _ => some .tilde
  | '?' :: _ => some .question
  | ':' :: _ => some .colon
  | ',' :: _ => some .comma
  | ';' :: _ => some .semi
  | '.' :: _ => some .dot
  | '(' :: _ => some .lParen
  | ')' :: _ => some .rParen
  | '\x7b' :: _ => some .lBrace
  | '\x7d' :: _ => some .rBrace
  | '[' :: _ => some .lBracket
  | ']' :: _ => some .rBracket
  | _ => none

def exponentPart (cs : List Char) : List Char :=
  match cs with
  | mark :: rest =>
    if mark = 'e' ∨ mark = 'E' then
      match rest with
      | sign :: digits =>
        if sign = '+' ∨ sign = '-' then
          if (digits.takeWhile Char.isDigit).isEmpty then []
          else mark :: sign :: digits.takeWhile Char.isDigit
        else if (rest.takeWhile Char.isDigit).isEmpty then []
        else mark :: rest.takeWhile Char.isDigit
      | [] => []
    else []
  | [] => []

def ubyte? (n : Nat) : Option UInt8 :=
  if n < Nat.pow 2 8 then some (UInt8.ofNat n) else none

def int? (n : Nat) : Option Int32 :=
  if n < Nat.pow 2 31 then some (Int32.ofNat n) else none

def long? (n : Nat) : Option Int64 :=
  if n < Nat.pow 2 63 then some (Int64.ofNat n) else none

def literal (l : Option Lexeme) : Piece :=
  match l with
  | some l => .lexeme l
  | none => .rejected

def double (cs : List Char) : Piece := literal ((Number.readFloat? (String.ofList cs)).map .double)

def number (digits : List Char) (rest : List Char) : Piece × Nat :=
  match rest with
  | 'u' :: 'b' :: _ => (literal ((ubyte? (Number.ofDigits digits)).map .ubyte), 2)
  | 'l' :: _ => (literal ((long? (Number.ofDigits digits)).map .long), 1)
  | 'L' :: _ => (literal ((long? (Number.ofDigits digits)).map .long), 1)
  | '.' :: fraction =>
    let places := fraction.takeWhile Char.isDigit
    let exponent := exponentPart (fraction.dropWhile Char.isDigit)
    (double (digits ++ '.' :: places ++ exponent), 1 + places.length + exponent.length)
  | rest =>
    let exponent := exponentPart rest
    if exponent.isEmpty then (literal ((int? (Number.ofDigits digits)).map .int), 0)
    else (double (digits ++ exponent), exponent.length)

/-- The number of characters between the quotes of a text, and whether it is closed. A
backslash takes the next character with it, unless that ends the line. -/
def textExtent : List Char → Nat × Bool
  | [] => (0, false)
  | '"' :: _ => (0, true)
  | ['\\'] => (0, false)
  | '\\' :: c :: rest =>
    if c = '\n' then (0, false)
    else
      let (n, closed) := textExtent rest
      (n + 2, closed)
  | _ :: rest =>
    let (n, closed) := textExtent rest
    (n + 1, closed)

def unescape? : List Char → Option (List Char)
  | [] => some []
  | '\\' :: '"' :: rest => (unescape? rest).map ('"' :: ·)
  | '\\' :: '\\' :: rest => (unescape? rest).map ('\\' :: ·)
  | '\\' :: 'n' :: rest => (unescape? rest).map ('\n' :: ·)
  | '\\' :: 't' :: rest => (unescape? rest).map ('\t' :: ·)
  | '\\' :: _ => none
  | c :: rest => (unescape? rest).map (c :: ·)

def piece (c : Char) (cs : List Char) : Piece × Nat :=
  if isSkipped c then (.blank, 0)
  else if isNameStart c then
    let more := cs.takeWhile isNameChar
    (.lexeme (word (String.ofList (c :: more))), more.length)
  else if c.isDigit then
    let more := cs.takeWhile Char.isDigit
    let (p, n) := number (c :: more) (cs.dropWhile Char.isDigit)
    (p, more.length + n)
  else if c = '.' ∧ (cs.takeWhile Char.isDigit) ≠ [] then
    let places := cs.takeWhile Char.isDigit
    let exponent := exponentPart (cs.dropWhile Char.isDigit)
    (double ('.' :: places ++ exponent), places.length + exponent.length)
  else if c = '"' then
    let (n, closed) := textExtent cs
    if closed then
      (literal ((unescape? (cs.take n)).map fun t => .string (String.ofList t)), n + 1)
    else (.rejected, n)
  else
    match symbol? (c :: cs) with
    | some s => (.lexeme (.symbol s), s.spelling.length - 1)
    | none => (.rejected, 0)
end Scan

structure Scan where
  lexemes : List (Lexeme × Span)
  /-- What was rejected, and where. -/
  rejected : List (String × Span)
deriving Repr

namespace Scan
def addPiece (p : Piece) (chars : List Char) (span : Span) (s : Scan) : Scan :=
  match p with
  | .blank => s
  | .lexeme l => { s with lexemes := (l, span) :: s.lexemes }
  | .rejected => { s with rejected := (String.ofList chars, span) :: s.rejected }

def ofChars (start : Nat) : List Char → Scan
  | [] => ⟨[], []⟩
  | c :: cs =>
    let (p, n) := piece c cs
    let chars := c :: cs.take n
    let stop := start + Text.byteSize chars
    addPiece p chars ⟨start, stop⟩ (ofChars stop (cs.drop n))
termination_by cs => cs.length
decreasing_by simp only [List.length_drop, List.length_cons]; omega

def ofString (source : String) : Scan := ofChars 0 source.toList

def rejection (text : String) : String := "unexpected input: " ++ Text.quote text
end Scan
end DataflowSpecializer
