import DataflowSpecializer.Value.Type
import DataflowSpecializer.Text

/-! # Names of value types -/
namespace DataflowSpecializer.ValueType
mutual

def render : ValueType → String
  | .boolean => "boolean"
  | .ubyte => "unsignedByte"
  | .int => "int"
  | .long => "long"
  | .double => "double"
  | .complex => "complex"
  | .fix => "fixedpoint"
  | .string => "string"
  | .array e => "array<" ++ render e ++ ">"
  | .matrix e => "matrix<" ++ render e ++ ">"
  | .record fields => "\x7b" ++ ", ".intercalate (renderFields fields) ++ "\x7d"
  | .function arity => "function/" ++ toString arity
  | .general => "general"
  | .unknown => "unknown"

def renderFields : FieldTypes → List String
  | [] => []
  | (label, t) :: fields => (label ++ " = " ++ render t) :: renderFields fields
end

def ofWord? : String → Option ValueType
  | "boolean" => some .boolean
  | "unsignedByte" | "ubyte" => some .ubyte
  | "int" => some .int
  | "long" => some .long
  | "double" => some .double
  | "complex" => some .complex
  | "fixedpoint" | "fix" => some .fix
  | "string" => some .string
  | "general" => some .general
  | "unknown" => some .unknown
  | _ => none

def between? (opening : List Char) (cs : List Char) : Option (List Char) :=
  match opening.isPrefixOf? cs with
  | none => none
  | some rest => if rest.getLast? = some '>' then some rest.dropLast else none

theorem length_of_isPrefixOf? : ∀ {opening cs rest : List Char},
    opening.isPrefixOf? cs = some rest → rest.length ≤ cs.length
  | [], _, _, h => by cases h; exact Nat.le_refl _
  | _ :: _, [], _, h => by cases h
  | a :: opening, c :: cs, rest, h => by
    change (if a == c then opening.isPrefixOf? cs else none) = some rest at h
    split at h
    · have := length_of_isPrefixOf? h
      simp only [List.length_cons]
      omega
    · simp at h

theorem length_of_between? {opening cs inner : List Char}
    (h : between? opening cs = some inner) : inner.length < cs.length := by
  unfold between? at h
  split at h
  · simp at h
  · rename_i rest hrest
    have := length_of_isPrefixOf? hrest
    split at h
    · rename_i hlast
      have : rest ≠ [] := by rintro rfl; simp at hlast
      have := List.length_pos_iff.2 this
      rw [← Option.some.inj h, List.length_dropLast]
      omega
    · simp at h

theorem length_trimChars (cs : List Char) : (Text.trimChars cs).length ≤ cs.length := by
  have drop (l : List Char) : (l.dropWhile Text.isBlank).length ≤ l.length :=
    (List.dropWhile_sublist _).length_le
  unfold Text.trimChars
  rw [List.length_reverse]
  exact Nat.le_trans (drop _) (by rw [List.length_reverse]; exact drop _)

/-- The type with the given name; blanks around a name do not count. -/
def ofNameChars? (cs : List Char) : Option ValueType :=
  let name := Text.trimChars cs
  match h : between? "array<".toList name with
  | some inner =>
    have : inner.length < cs.length :=
      Nat.lt_of_lt_of_le (length_of_between? h) (length_trimChars cs)
    (ofNameChars? inner).map .array
  | none =>
    match h : between? "matrix<".toList name with
    | some inner =>
      have : inner.length < cs.length :=
        Nat.lt_of_lt_of_le (length_of_between? h) (length_trimChars cs)
      (ofNameChars? inner).map .matrix
    | none => ofWord? (String.ofList name)
termination_by cs.length

@[inherit_doc ofNameChars?]
def ofName? (name : String) : Option ValueType := ofNameChars? name.toList
end DataflowSpecializer.ValueType
