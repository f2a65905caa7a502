/-! # Value types -/
namespace DataflowSpecializer
/-- The types of values; `leq` is their order. -/
inductive ValueType where
  | boolean
  | ubyte
  | int
  | long
  | double
  | complex
  | fix
  | string
  | array (element : ValueType)
  | matrix (element : ValueType)
  | record (fields : List (String × ValueType))
  | function (arity : Nat)
  /-- Some value, of no more specific type. -/
  | general
  /-- Nothing is known. -/
  | unknown
deriving Inhabited, Repr

/-- Labels with types. -/
abbrev FieldTypes : Type := List (String × ValueType)

namespace ValueType
mutual

def beq : ValueType → ValueType → Bool
  | .boolean, .boolean => true
  | .ubyte, .ubyte => true
  | .int, .int => true
  | .long, .long => true
  | .double, .double => true
  | .complex, .complex => true
  | .fix, .fix => true
  | .string, .string => true
  | .array a, .array b => beq a b
  | .matrix a, .matrix b => beq a b
  | .record fs, .record gs => beqFields fs gs
  | .function m, .function n => m == n
  | .general, .general => true
  | .unknown, .unknown => true
  | _, _ => false

def beqFields : FieldTypes → FieldTypes → Bool
  | [], [] => true
  | (l, s) :: fs, (m, t) :: gs => l == m && beq s t && beqFields fs gs
  | _, _ => false
end

mutual

theorem eq_of_beq : ∀ a b : ValueType, beq a b → a = b
  | .array a, b, h | .matrix a, b, h => by
    cases b <;> simp only [beq, Bool.false_eq_true] at h
    rw [eq_of_beq a _ h]
  | .record fs, b, h => by
    cases b <;> simp only [beq, Bool.false_eq_true] at h
    rw [eq_of_beqFields fs _ h]
  | .function _, b, h => by
    cases b <;> simp only [beq, Bool.false_eq_true, beq_iff_eq] at h
    rw [h]
  | .boolean, b, h | .ubyte, b, h | .int, b, h | .long, b, h | .double, b, h | .complex, b, h
  | .fix, b, h | .string, b, h | .general, b, h | .unknown, b, h => by
    cases b <;> first | rfl | simp [beq] at h

theorem eq_of_beqFields : ∀ fs gs : FieldTypes, beqFields fs gs → fs = gs
  | [], [], _ => rfl
  | [], _ :: _, h => by simp [beqFields] at h
  | _ :: _, [], h => by simp [beqFields] at h
  | (l, s) :: fs, (m, t) :: gs, h => by
    simp only [beqFields, Bool.and_eq_true, beq_iff_eq] at h
    rw [h.1.1, eq_of_beq s t h.1.2, eq_of_beqFields fs gs h.2]
end

mutual

theorem beq_self : ∀ a : ValueType, beq a a
  | .array a => by simp only [beq, beq_self a]
  | .matrix a => by simp only [beq, beq_self a]
  | .record fs => by simp only [beq, beqFields_self fs]
  | .function _ => by simp only [beq, BEq.rfl]
  | .boolean | .ubyte | .int | .long | .double | .complex | .fix | .string | .general
  | .unknown => by simp only [beq]

theorem beqFields_self : ∀ fs : FieldTypes, beqFields fs fs
  | [] => by simp only [beqFields]
  | (l, s) :: fs => by simp only [beqFields, BEq.rfl, beq_self s, beqFields_self fs, Bool.and_self]
end

instance : DecidableEq ValueType := fun a b =>
  if h : beq a b then isTrue (eq_of_beq a b h)
  else isFalse fun e => h (e ▸ beq_self a)

def isScalar : ValueType → Bool
  | .boolean | .ubyte | .int | .long | .double | .complex | .fix | .string => true
  | _ => false

def isNativeNumeric : ValueType → Bool
  | .int | .long | .double => true
  | _ => false

def isConcrete : ValueType → Bool
  | .unknown | .general => false
  | .array e | .matrix e => e.isConcrete || e = .general
  | _ => true

def element? : ValueType → Option ValueType
  | .array e | .matrix e => some e
  | _ => none

inductive IsCanonical : ValueType → Prop
  | boolean : IsCanonical .boolean
  | ubyte : IsCanonical .ubyte
  | int : IsCanonical .int
  | long : IsCanonical .long
  | double : IsCanonical .double
  | complex : IsCanonical .complex
  | fix : IsCanonical .fix
  | string : IsCanonical .string
  | array {e : ValueType} : IsCanonical e → IsCanonical (.array e)
  | matrix {e : ValueType} : IsCanonical e → IsCanonical (.matrix e)
  | record {fs : FieldTypes} :
      fs.Pairwise (fun a b => a.1 < b.1) → (∀ f ∈ fs, IsCanonical f.2) → IsCanonical (.record fs)
  | function {n : Nat} : IsCanonical (.function n)
  | general : IsCanonical .general
  | unknown : IsCanonical .unknown

/-- The order on scalars: widening of numbers, and strings above every scalar. -/
def scalarLeq : ValueType → ValueType → Bool
  | .ubyte, .int | .ubyte, .long | .ubyte, .double | .ubyte, .complex => true
  | .int, .long | .int, .double | .int, .complex => true
  | .double, .complex => true
  | a, .string => a.isScalar
  | a, b => a.isScalar && a = b

mutual

def leq (a : ValueType) : ValueType → Bool
  | .unknown => true
  | .general => a ≠ .unknown
  | .array e =>
    match a with
    | .array d => leq d e
    | _ => false
  | .matrix e =>
    match a with
    | .matrix d => leq d e
    | _ => false
  | .record gs =>
    match a with
    | .record fs => leqFields fs gs
    | _ => false
  | .function n => a = .function n
  | .boolean => scalarLeq a .boolean
  | .ubyte => scalarLeq a .ubyte
  | .int => scalarLeq a .int
  | .long => scalarLeq a .long
  | .double => scalarLeq a .double
  | .complex => scalarLeq a .complex
  | .fix => scalarLeq a .fix
  | .string => scalarLeq a .string

def leqFields (fs : FieldTypes) : FieldTypes → Bool
  | [] => true
  | (label, t) :: gs =>
    (match fs.lookup label with
      | some s => leq s t
      | none => false) && leqFields fs gs
end

def scalarLub (a b : ValueType) : ValueType :=
  if scalarLeq a b then b else if scalarLeq b a then a else .string

mutual

def lub : ValueType → ValueType → ValueType
  | .unknown, _ => .unknown
  | .general, b => if b = .unknown then .unknown else .general
  | .array d, b =>
    match b with
    | .array e => .array (lub d e)
    | .unknown => .unknown
    | _ => .general
  | .matrix d, b =>
    match b with
    | .matrix e => .matrix (lub d e)
    | .unknown => .unknown
    | _ => .general
  | .record fs, b =>
    match b with
    | .record gs => .record (lubFields fs gs)
    | .unknown => .unknown
    | _ => .general
  | .function m, b =>
    match b with
    | .function n => if m = n then .function m else .general
    | .unknown => .unknown
    | _ => .general
  | a, b =>
    if b = .unknown then .unknown
    else if b.isScalar then scalarLub a b
    else .general

def lubFields : FieldTypes → FieldTypes → FieldTypes
  | [], _ => []
  | (label, s) :: fs, gs =>
    match gs.lookup label with
    | some t => (label, lub s t) :: lubFields fs gs
    | none => lubFields fs gs
end

/-- The join of a list of types; `general` where there are none. -/
def lubAll : List ValueType → ValueType
  | [] => .general
  | t :: ts => ts.foldl lub t

inductive Comparison where
  | same
  | lower
  | higher
  | incomparable
deriving DecidableEq, Repr

def Comparison.code : Comparison → Int32
  | .same => 0
  | .lower => -1
  | .higher => 1
  | .incomparable => 2

def compare (a b : ValueType) : Comparison :=
  if a = b then .same
  else if leq a b then .lower
  else if leq b a then .higher
  else .incomparable

def merge : ValueType → ValueType → ValueType
  | .array d, .array e => .array (merge d e)
  | a, b => if a = b then a else .unknown
end ValueType
end DataflowSpecializer
