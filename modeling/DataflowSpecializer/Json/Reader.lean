import DataflowSpecializer.Number
import DataflowSpecializer.Text

/-! # Reading JSON -/
namespace DataflowSpecializer.Json
inductive Error where
  /-- No JSON. -/
  | malformed
  /-- The text ends within a value. -/
  | truncated
  /-- JSON, but of a form that was not expected. -/
  | mismatch
deriving DecidableEq, Repr

abbrev Reader (α : Type) : Type := List Char → Except Error (α × List Char)

def skipBlanks (cs : List Char) : List Char :=
  cs.dropWhile fun c => c = ' ' || c = '\n' || c = '\t' || c = '\r'

def word : List Char → List Char → Except Error (List Char)
  | [], cs => .ok cs
  | _ :: _, [] => .error .truncated
  | w :: ws, c :: cs => if w = c then word ws cs else .error .malformed

def hexDigit? (c : Char) : Option Nat :=
  if '0' ≤ c ∧ c ≤ '9' then some (c.toNat - '0'.toNat)
  else if 'a' ≤ c ∧ c ≤ 'f' then some (c.toNat - 'a'.toNat + 10)
  else if 'A' ≤ c ∧ c ≤ 'F' then some (c.toNat - 'A'.toNat + 10)
  else none

def hex4 : Reader Nat
  | a :: b :: c :: d :: rest =>
    match hexDigit? a, hexDigit? b, hexDigit? c, hexDigit? d with
    | some a, some b, some c, some d => .ok (((a * 16 + b) * 16 + c) * 16 + d, rest)
    | _, _, _, _ => .error .malformed
  | cs => .error (if Text.byteSize cs < 4 then .truncated else .malformed)

def surrogate (high : Nat) : Reader Char
  | [] => .error .truncated
  | '\\' :: [] => .error .truncated
  | '\\' :: 'u' :: rest => do
    let (low, rest) ← hex4 rest
    if 0xdc00 ≤ low ∧ low ≤ 0xdfff then
      return (Char.ofNat (0x10000 + (high - 0xd800) * 0x400 + (low - 0xdc00)), rest)
    else throw .malformed
  | _ => .error .malformed

def codeEscape : Reader Char := fun cs => do
  let (n, rest) ← hex4 cs
  if 0xdc00 ≤ n ∧ n ≤ 0xdfff then throw .malformed
  else if 0xd800 ≤ n ∧ n ≤ 0xdbff then surrogate n rest
  else return (Char.ofNat n, rest)

def escape : Reader Char
  | [] => .error .truncated
  | '"' :: rest => .ok ('"', rest)
  | '\\' :: rest => .ok ('\\', rest)
  | '/' :: rest => .ok ('/', rest)
  | 'b' :: rest => .ok ('\x08', rest)
  | 'f' :: rest => .ok ('\x0c', rest)
  | 'n' :: rest => .ok ('\n', rest)
  | 'r' :: rest => .ok ('\r', rest)
  | 't' :: rest => .ok ('\t', rest)
  | 'u' :: rest => codeEscape rest
  | _ => .error .malformed

def stringChars : Nat → List Char → Reader (List Char)
  | 0, _, _ => .error .truncated
  | _ + 1, _, [] => .error .truncated
  | n + 1, acc, c :: rest =>
    if c = '"' then .ok (acc, rest)
    else if c = '\\' then do
      let (c, rest) ← escape rest
      stringChars n (c :: acc) rest
    else if c.toNat < 0x20 then .error .malformed
    else stringChars n (c :: acc) rest

def stringBody : Reader String := fun cs => do
  let (acc, rest) ← stringChars (cs.length + 1) [] cs
  return (String.ofList acc.reverse, rest)

/-- An escape in a string that is not kept: surrogates need not pair. -/
def skipEscape : List Char → Except Error (List Char)
  | 'u' :: rest => (hex4 rest).map (·.2)
  | rest => (escape rest).map (·.2)

def skipString : Nat → List Char → Except Error (List Char)
  | 0, _ => .error .truncated
  | _ + 1, [] => .error .truncated
  | n + 1, c :: rest =>
    if c = '"' then .ok rest
    else if c = '\\' then do skipString n (← skipEscape rest)
    else if c.toNat < 0x20 then .error .malformed
    else skipString n rest

def digits1 (cs : List Char) : Except Error (List Char × List Char) :=
  match cs with
  | [] => .error .truncated
  | c :: _ =>
    if c.isDigit then .ok (cs.takeWhile Char.isDigit, cs.dropWhile Char.isDigit)
    else .error .malformed

structure Numeral where
  negative : Bool
  whole : List Char
  fraction : Option (List Char)
  exponent : Option Int

def exponentPart (cs : List Char) : Except Error (Option Int × List Char) :=
  match cs with
  | mark :: rest =>
    if mark = 'e' ∨ mark = 'E' then do
      let (negative, rest) : Bool × List Char := match rest with
        | '-' :: rest => (true, rest)
        | '+' :: rest => (false, rest)
        | rest => (false, rest)
      let (ds, rest) ← digits1 rest
      let n : Int := Number.ofDigits ds
      return (some (if negative then -n else n), rest)
    else .ok (none, cs)
  | [] => .ok (none, cs)

/-- A number; no zero leads another digit. -/
def numeral : Reader Numeral := fun cs => do
  let (negative, cs) : Bool × List Char := match cs with
    | '-' :: rest => (true, rest)
    | rest => (false, rest)
  let (whole, rest) ← digits1 cs
  if 1 < whole.length ∧ whole.head? = some '0' then throw .malformed
  let (fraction, rest) ← match rest with
    | '.' :: rest => (digits1 rest).map fun (ds, rest) => (some ds, rest)
    | rest => .ok (none, rest)
  let (exponent, rest) ← exponentPart rest
  return (⟨negative, whole, fraction, exponent⟩, rest)

def Numeral.natural? (n : Numeral) : Option Nat :=
  if n.negative ∨ n.fraction.isSome ∨ n.exponent.isSome then none
  else
    let value := Number.ofDigits n.whole
    if value < Nat.pow 2 64 then some value else none

/-- Appends digits to a number for as long as 64 bits hold it; answers the number and how many
digits it took. -/
def appendDigits (n : Nat) : List Char → Nat × Nat
  | [] => (n, 0)
  | c :: cs =>
    let m := 10 * n + (c.toNat - '0'.toNat)
    if m < Nat.pow 2 64 then
      let (r, taken) := appendDigits m cs
      (r, taken + 1)
    else (n, 0)

def Numeral.leading (n : Numeral) : Number.Decimal :=
  let (whole, takenWhole) := appendDigits 0 n.whole
  let (digits, takenFraction) := appendDigits whole (n.fraction.getD [])
  ⟨digits, n.exponent.getD 0 + (n.whole.length - takenWhole) - takenFraction⟩

/-- Whether a number is out of range: its leading digits and the power of ten that scales them
are taken as doubles, and they or their product are infinite. -/
def Numeral.overflows (n : Numeral) : Bool :=
  let d := n.leading
  d.digits ≠ 0 && 0 ≤ d.exponent &&
    (d.digits.toUInt64.toFloat * (⟨1, d.exponent⟩ : Number.Decimal).toFloat).isInf

def number : Reader Numeral := fun cs => do
  let (n, rest) ← numeral cs
  if n.overflows then throw .malformed
  return (n, rest)

def isNumberStart (c : Char) : Bool := c = '-' || c.isDigit

def skipNumber (cs : List Char) : Except Error (List Char) :=
  match numeral cs with
  | .ok (_, rest) => .ok rest
  | .error _ => .error .malformed

/-- Skips what stands between commas, up to the closing character. -/
def skipUntil (closing : Char) (skip : List Char → Except Error (List Char)) :
    Nat → Bool → List Char → Except Error (List Char)
  | 0, _, _ => .error .truncated
  | n + 1, first, cs =>
    match skipBlanks cs with
    | [] => .error .truncated
    | c :: rest =>
      if c = closing then .ok rest
      else if first then do skipUntil closing skip n false (← skip (c :: rest))
      else if c = ',' then do skipUntil closing skip n false (← skip rest)
      else .error .malformed

def colon (cs : List Char) : Except Error (List Char) :=
  match skipBlanks cs with
  | [] => .error .truncated
  | ':' :: rest => .ok rest
  | _ => .error .malformed

def skipMember (skip : List Char → Except Error (List Char)) (cs : List Char) :
    Except Error (List Char) :=
  match skipBlanks cs with
  | [] => .error .truncated
  | '"' :: rest => do skip (← colon (← skipString (rest.length + 1) rest))
  | _ => .error .malformed

def skipUpTo : Nat → List Char → Except Error (List Char)
  | 0, _ => .error .malformed
  | n + 1, cs =>
    match skipBlanks cs with
    | [] => .error .truncated
    | 'n' :: rest => word ['u', 'l', 'l'] rest
    | 't' :: rest => word ['r', 'u', 'e'] rest
    | 'f' :: rest => word ['a', 'l', 's', 'e'] rest
    | '"' :: rest => skipString (rest.length + 1) rest
    | '[' :: rest => skipUntil ']' (skipUpTo n) (rest.length + 1) true rest
    | '\x7b' :: rest => skipUntil '\x7d' (skipMember (skipUpTo n)) (rest.length + 1) true rest
    | c :: rest =>
      if isNumberStart c then skipNumber (c :: rest) else .error .malformed

def skip (cs : List Char) : Except Error (List Char) := skipUpTo (cs.length + 1) cs

/-! ### Expected values -/
def unexpected {α : Type} (cs : List Char) : Except Error α :=
  let found {β : Type} (r : Except Error β) : Except Error α := do
    let _ ← r
    throw .mismatch
  match cs with
  | [] => .error .truncated
  | 'n' :: rest => found (word ['u', 'l', 'l'] rest)
  | 't' :: rest => found (word ['r', 'u', 'e'] rest)
  | 'f' :: rest => found (word ['a', 'l', 's', 'e'] rest)
  | '"' :: rest => found (stringBody rest)
  | '[' :: _ => .error .mismatch
  | '\x7b' :: _ => .error .mismatch
  | c :: rest => if isNumberStart c then found (number (c :: rest)) else .error .malformed

def string : Reader String := fun cs =>
  match skipBlanks cs with
  | '"' :: rest => stringBody rest
  | cs => unexpected cs

def key : Reader String := fun cs =>
  match skipBlanks cs with
  | [] => .error .truncated
  | '"' :: rest => stringBody rest
  | _ => .error .malformed

def bool : Reader Bool := fun cs =>
  match skipBlanks cs with
  | 't' :: rest => (word ['r', 'u', 'e'] rest).map fun rest => (true, rest)
  | 'f' :: rest => (word ['a', 'l', 's', 'e'] rest).map fun rest => (false, rest)
  | cs => unexpected cs

def natural : Reader Nat := fun cs =>
  match skipBlanks cs with
  | c :: rest =>
    if isNumberStart c then do
      let (n, rest) ← number (c :: rest)
      match n.natural? with
      | some n => return (n, rest)
      | none => throw .mismatch
    else unexpected (c :: rest)
  | [] => .error .truncated

def null : Reader Unit := fun cs =>
  match skipBlanks cs with
  | 'n' :: rest => (word ['u', 'l', 'l'] rest).map fun rest => ((), rest)
  | cs => unexpected cs

def optional {α : Type} (p : Reader α) : Reader (Option α) := fun cs =>
  match skipBlanks cs with
  | 'n' :: rest => (word ['u', 'l', 'l'] rest).map fun rest => (none, rest)
  | cs => (p cs).map fun (a, rest) => (some a, rest)

def maxDepth : Nat := 127

def nested {α : Type} (depth : Nat) (p : Nat → Reader α) : Reader α :=
  match depth with
  | 0 => fun _ => .error .malformed
  | depth + 1 => p depth

def items {α : Type} (p : Reader α) : Nat → Bool → Reader (List α)
  | 0, _, _ => .error .truncated
  | n + 1, first, cs =>
    match skipBlanks cs with
    | [] => .error .truncated
    | ']' :: rest => .ok ([], rest)
    | c :: rest =>
      let item (cs : List Char) : Except Error (List α × List Char) := do
        let (a, rest) ← p cs
        let (as, rest) ← items p n false rest
        return (a :: as, rest)
      if first then item (c :: rest)
      else if c = ',' then
        match skipBlanks rest with
        | [] => .error .truncated
        | ']' :: _ => .error .malformed
        | rest => item rest
      else .error .malformed

def list {α : Type} (depth : Nat) (p : Nat → Reader α) : Reader (List α) := fun cs =>
  match skipBlanks cs with
  | '[' :: rest => nested depth (fun depth cs => items (p depth) (cs.length + 1) true cs) rest
  | cs => unexpected cs

def members {σ : Type} (known : List String) (member : String → σ → Reader σ) :
    Nat → Bool → List String → σ → Reader σ
  | 0, _, _, _, _ => .error .truncated
  | n + 1, first, seen, s, cs =>
    let entry (cs : List Char) : Except Error (σ × List Char) := do
      let (name, rest) ← key cs
      if known.contains name then
        if seen.contains name then throw .mismatch
        let rest ← colon rest
        let (s, rest) ← member name s rest
        members known member n false (name :: seen) s rest
      else do
        let rest ← colon rest
        let rest ← skip rest
        members known member n false seen s rest
    match skipBlanks cs with
    | [] => .error .truncated
    | '\x7d' :: rest => .ok (s, rest)
    | c :: rest =>
      if first then entry (c :: rest)
      else if c = ',' then entry rest
      else .error .malformed

def object {σ : Type} (depth : Nat) (known : List String) (init : σ)
    (member : Nat → String → σ → Reader σ) : Reader σ := fun cs =>
  match skipBlanks cs with
  | '\x7b' :: rest =>
    nested depth (fun depth cs => members known (member depth) (cs.length + 1) true [] init cs) rest
  | cs => unexpected cs

def choice {α : Type} (depth : Nat) (names : List (String × α)) : Reader α := fun cs =>
  let named (name : String) (rest : List Char) : Except Error (α × List Char) :=
    match names.lookup name with
    | some a => .ok (a, rest)
    | none => .error .mismatch
  match skipBlanks cs with
  | [] => .error .truncated
  | '"' :: rest => do
    let (name, rest) ← stringBody rest
    named name rest
  | '\x7b' :: rest =>
    nested depth (fun _ cs => do
        let (name, rest) ← key cs
        let (a, rest) ← named name rest
        let rest ← colon rest
        let (_, rest) ← null rest
        match skipBlanks rest with
        | '\x7d' :: rest => return (a, rest)
        | [] => throw .truncated
        | _ => throw .malformed)
      rest
  | _ => .error .malformed

def read {α : Type} (p : Reader α) (text : String) : Except Error α := do
  let (a, rest) ← p text.toList
  if (skipBlanks rest).isEmpty then return a else throw .malformed
end DataflowSpecializer.Json
