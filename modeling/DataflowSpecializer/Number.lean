/-! # Numbers -/
namespace DataflowSpecializer.Number
/-! ## Doubles as dyadic numbers -/
structure Dyadic where
  mantissa : Nat
  exponent : Int
deriving DecidableEq, Repr

def leastExponent : Int := -1074
def hiddenBit : Nat := Nat.pow 2 52

def isNegative (x : Float) : Bool := x.toBits.toNat / Nat.pow 2 63 = 1

def magnitude (x : Float) : Dyadic :=
  let bits : Nat := x.toBits.toNat
  let fraction : Nat := bits % hiddenBit
  let biased : Nat := bits / hiddenBit % Nat.pow 2 11
  if biased = 0 then ⟨fraction, leastExponent⟩
  else ⟨hiddenBit + fraction, (biased : Int) - 1075⟩

def Dyadic.toFloat (d : Dyadic) : Float := Float.scaleB d.mantissa.toUInt64.toFloat d.exponent

/-! ## Operations -/
def infinity : Float := 1.0 / 0.0
def notANumber : Float := 0.0 / 0.0

def remainder (x y : Float) : Float :=
  if x.isNaN || y.isNaN || x.isInf || y == 0.0 then notANumber
  else if y.isInf || x == 0.0 then x
  else
    let a := magnitude x
    let b := magnitude y
    let exponent := min a.exponent b.exponent
    let r := (a.mantissa * Nat.pow 2 (a.exponent - exponent).toNat) %
      (b.mantissa * Nat.pow 2 (b.exponent - exponent).toNat)
    let result := Dyadic.toFloat ⟨r, exponent⟩
    if isNegative x then -result else result

/-- The length of the hypotenuse over legs `0 ≤ b ≤ a` whose squares neither overflow nor
vanish: the root of the sum of squares, corrected by one step of Newton's method on the
residual. -/
def hypotenuseOfScaled (a b : Float) : Float :=
  let h := Float.sqrt (a * a + b * b)
  let (t1, t2) : Float × Float :=
    if h ≤ 2.0 * b then
      let delta := h - b
      (a * (2.0 * delta - a), (delta - 2.0 * (a - b)) * delta)
    else
      let delta := h - a
      (2.0 * delta * (a - 2.0 * b), (4.0 * delta - b) * b + delta * delta)
  h - (t1 + t2) / (2.0 * h)

/-- The length of the hypotenuse over two legs. Very long and very short legs are scaled by a
power of two first; a leg far below the last place of the other one does not count. -/
def hypotenuse (x y : Float) : Float :=
  if x.isInf || y.isInf then infinity
  else if x.isNaN || y.isNaN then notANumber
  else
    let x := x.abs
    let y := y.abs
    let a := if x < y then y else x
    let b := if x < y then x else y
    let scale := Float.scaleB 1.0 (-600)
    let negligible := Float.scaleB 1.0 (-54)
    if a > Float.scaleB 1.0 511 then
      if b ≤ a * negligible then a + b else hypotenuseOfScaled (a * scale) (b * scale) / scale
    else if b < Float.scaleB 1.0 (-459) then
      if a ≥ b / negligible then a + b else hypotenuseOfScaled (a / scale) (b / scale) * scale
    else if b ≤ a * negligible then a + b
    else hypotenuseOfScaled a b

def powerOnto (r x : Float) (n : Nat) : Float :=
  let r := if n % 2 = 1 then r * x else r
  if h : n / 2 = 0 then r else powerOnto r (x * x) (n / 2)
termination_by n
decreasing_by omega

/-- `x` to the power of an integer; a negative power is the reciprocal of the positive one. -/
def powerInt (x : Float) (n : Int) : Float :=
  let r := powerOnto 1.0 x n.natAbs
  if n < 0 then 1.0 / r else r

/-- The nearest 64-bit integer, halves upwards; what lies outside goes to the nearer end. -/
def roundHalfUp (x : Float) : Int64 := (Float.floor (x + 0.5)).toInt64

/-! ## Shortest decimals -/
structure Decimal where
  digits : Nat
  exponent : Int
deriving DecidableEq, Repr

def digitCount (n : Nat) : Nat := (Nat.toDigits 10 n).length

structure RoundingInterval where
  lower : Nat
  value : Nat
  upper : Nat
  exponent : Int
  closed : Bool

def Dyadic.roundingInterval (d : Dyadic) : RoundingInterval where
  lower := 4 * d.mantissa - (if d.mantissa = hiddenBit ∧ leastExponent < d.exponent then 1 else 2)
  value := 4 * d.mantissa
  upper := 4 * d.mantissa + 2
  exponent := d.exponent - 2
  closed := d.mantissa % 2 = 0

def Dyadic.leadingExponent (d : Dyadic) : Int :=
  if 0 ≤ d.exponent then digitCount (d.mantissa * Nat.pow 2 d.exponent.toNat) - 1
  else digitCount (d.mantissa * Nat.pow 10 400 / Nat.pow 2 (-d.exponent).toNat) - 401

def RoundingInterval.onGrid? (i : RoundingInterval) (exponent : Int) : Option Decimal :=
  let scale := Nat.pow 2 i.exponent.toNat * Nat.pow 10 (-exponent).toNat
  let step := Nat.pow 2 (-i.exponent).toNat * Nat.pow 10 exponent.toNat
  let below := i.value * scale / step
  let fits (n : Nat) : Bool :=
    if i.closed then i.lower * scale ≤ n * step && n * step ≤ i.upper * scale
    else i.lower * scale < n * step && n * step < i.upper * scale
  let above := below + 1
  if fits below && (!fits above || i.value * scale - below * step < above * step - i.value * scale)
  then some ⟨below, exponent⟩
  else if fits above then some ⟨above, exponent⟩
  else none

def Dyadic.shortest (d : Dyadic) : Decimal :=
  let interval := d.roundingInterval
  let leading := d.leadingExponent
  ((List.range 17).findSome? fun (k : Nat) => interval.onGrid? (leading - k)).getD ⟨0, 0⟩

/-! ## The text of a double -/
def positional (digits : List Char) (point : Int) : List Char :=
  if point ≤ 0 then ['0', '.'] ++ List.replicate (-point).toNat '0' ++ digits
  else
    let n := point.toNat
    let whole := digits.take n ++ List.replicate (n - digits.length) '0'
    let fraction := digits.drop n
    whole ++ '.' :: (if fraction.isEmpty then ['0'] else fraction)

def scientific (digits : List Char) (exponent : Int) : List Char :=
  let fraction := digits.drop 1
  digits.take 1 ++ (if fraction.isEmpty then [] else '.' :: fraction) ++
    'e' :: (toString exponent).toList

def showMagnitude (d : Dyadic) : List Char :=
  let decimal := d.shortest
  let all := Nat.toDigits 10 decimal.digits
  let point := decimal.exponent + all.length
  let digits := (all.reverse.dropWhile (· = '0')).reverse
  if -4 < point ∧ point ≤ 16 then positional digits point
  else scientific digits (point - 1)

def showFloat (x : Float) : String :=
  if x.isNaN then "NaN"
  else
    let sign := if isNegative x then ['-'] else []
    let body :=
      if x.isInf then ['i', 'n', 'f']
      else if x == 0.0 then ['0', '.', '0']
      else showMagnitude (magnitude x)
    String.ofList (sign ++ body)

/-! ## Reading decimals -/
def ofDigits (digits : List Char) : Nat :=
  digits.foldl (fun n c => 10 * n + (c.toNat - '0'.toNat)) 0

def Decimal.toFloat (d : Decimal) : Float :=
  let leading := d.exponent + digitCount d.digits
  if d.digits = 0 ∨ leading < -330 then 0.0
  else if 330 < leading then 1.0 / 0.0
  else Float.ofScientific d.digits (d.exponent < 0) d.exponent.natAbs

def Decimal.ofParts (whole fraction : List Char) (exponent : Int) : Decimal :=
  ⟨ofDigits (whole ++ fraction), exponent - fraction.length⟩

/-- An exponent: an optional sign and at least one digit. -/
def readExponent? (cs : List Char) : Option Int :=
  let (negative, digits) : Bool × List Char :=
    match cs with
    | '-' :: rest => (true, rest)
    | '+' :: rest => (false, rest)
    | rest => (false, rest)
  if digits.isEmpty || !digits.all Char.isDigit then none
  else some (if negative then -(ofDigits digits : Int) else ofDigits digits)

def readMagnitude? (cs : List Char) : Option Decimal := do
  let whole := cs.takeWhile Char.isDigit
  let rest := cs.dropWhile Char.isDigit
  let (fraction, rest) : List Char × List Char :=
    match rest with
    | '.' :: rest => (rest.takeWhile Char.isDigit, rest.dropWhile Char.isDigit)
    | rest => ([], rest)
  if whole.isEmpty && fraction.isEmpty then none
  else
    match rest with
    | [] => some (.ofParts whole fraction 0)
    | c :: rest =>
      if c = 'e' ∨ c = 'E' then (readExponent? rest).map (.ofParts whole fraction)
      else none

def readFloat? (s : String) : Option Float :=
  let (negative, cs) : Bool × List Char :=
    match s.toList with
    | '-' :: rest => (true, rest)
    | '+' :: rest => (false, rest)
    | rest => (false, rest)
  let word := String.ofList (cs.map Char.toLower)
  let magnitude :=
    if word = "inf" ∨ word = "infinity" then some (1.0 / 0.0)
    else if word = "nan" then some (0.0 / 0.0)
    else (readMagnitude? cs).map Decimal.toFloat
  magnitude.map fun x => if negative then -x else x
end DataflowSpecializer.Number
