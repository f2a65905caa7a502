import Mathlib
import DataflowSpecializer.Expression.Grammar
import DataflowSpecializer.Proofs.Data

/-! # Writing an expression out

`print` writes an expression as lexemes with as few parentheses as its tree allows. Operators
are ordered by how tightly they bind (`Precedence`).
-/
namespace DataflowSpecializer
namespace Number
open Float.Model Float.Model.UnpackedFloat

lemma neg_unpack_packComponents (s : Sign) (e : BitVec 11) (m : BitVec 52)
    (h : e = -1#11 → m = 0#52) :
    (unpack .binary64 (packComponents .binary64 s e m)).neg =
      unpack .binary64 (packComponents .binary64 (-s) e m) := by
  unfold UnpackedFloat.unpack
  simp only [unpackMantissa_packComponents, unpackExponent_packComponents,
    unpackSign_packComponents, Sign.ofBitVec_toBitVec]
  by_cases hinf : e = -1#11
  · rw [if_pos hinf, if_pos hinf, if_pos (h hinf), if_pos (h hinf)]
    rfl
  rw [if_neg hinf, if_neg hinf]
  split
  · split <;> rfl
  · rfl

lemma valid_packComponents (s : Sign) (h : e = -1#11 → m = 0#52) :
    Format.binary64.Valid (packComponents .binary64 s e m) := by
  constructor
  intro he hm
  rw [unpackExponent_packComponents] at he
  rw [unpackMantissa_packComponents] at hm
  exact absurd (h he) hm

lemma neg_neg_sign (s : Sign) : - -s = s := by cases s <;> rfl

lemma neg_neg_float (x : Float) : - -x = x := by
  obtain ⟨⟨⟨b⟩, hvalid⟩⟩ := x
  have hbits : pack .binary64 (unpack .binary64
      (pack .binary64 (unpack .binary64 b).neg)).neg = b := by
    by_cases h : @unpackExponent .binary64 b = -1#11 ∧ @unpackMantissa .binary64 b ≠ 0#52
    · -- Not a number: there is one pattern of bits for that.
      have hnan : b = packedNaN .binary64 := hvalid.eq_packedNaN h.1 h.2
      rw [hnan, unpack_packedNaN]
      show pack .binary64 (unpack .binary64 (packedNaN .binary64)).neg = _
      rw [unpack_packedNaN]
      rfl
    · have hnumber : @unpackExponent .binary64 b = -1#11 → @unpackMantissa .binary64 b = 0#52 :=
        fun he => Classical.not_not.1 fun hm => h ⟨he, hm⟩
      rw [← @packComponents_unpackSign_unpackExponent_unpackMantissa .binary64 b,
        neg_unpack_packComponents _ _ _ hnumber, pack_unpack_of_valid (valid_packComponents _ hnumber),
        neg_unpack_packComponents _ _ _ hnumber, pack_unpack_of_valid (valid_packComponents _ hnumber),
        neg_neg_sign]
  change Float.ofModel (.mk ⟨_⟩ _) = _
  congr 3
end Number

open List Option DataflowSpecializer.Expr
inductive Precedence where
  /-- A conditional or a function literal. -/
  | conditional
  | logicOr
  | logicAnd
  | bitOr
  | bitXor
  | bitAnd
  | relation
  | shift
  | sum
  | product
  /-- A prefix operator, or the sign of a number. -/
  | unary
  | power
  /-- A call, a method or a member. -/
  | suffix
  | atom
deriving DecidableEq, Repr

namespace Precedence
instance : LE Precedence where
  le j k := j.ctorIdx ≤ k.ctorIdx

instance : DecidableLE Precedence := fun j k => inferInstanceAs (Decidable (j.ctorIdx ≤ k.ctorIdx))

variable {j k : Precedence}

lemma le_def : j ≤ k ↔ j.ctorIdx ≤ k.ctorIdx := Iff.rfl

lemma le_atom (k : Precedence) : k ≤ .atom := by cases k <;> decide

lemma conditional_le (k : Precedence) : .conditional ≤ k := by cases k <;> decide

def tighter : Precedence → Precedence
  | .conditional => .logicOr
  | .logicOr => .logicAnd
  | .logicAnd => .bitOr
  | .bitOr => .bitXor
  | .bitXor => .bitAnd
  | .bitAnd => .relation
  | .relation => .shift
  | .shift => .sum
  | .sum => .product
  | .product => .unary
  | .unary => .power
  | .power => .suffix
  | .suffix => .atom
  | .atom => .atom

lemma ctorIdx_tighter {k : Precedence} (h : k ≠ .atom) : k.tighter.ctorIdx = k.ctorIdx + 1 := by
  cases k <;> first | rfl | exact absurd rfl h

lemma le_tighter (k : Precedence) : k ≤ k.tighter := by cases k <;> decide

lemma not_tighter_le {k : Precedence} (h : k ≠ .atom) : ¬k.tighter ≤ k := by
  rw [le_def, ctorIdx_tighter h]
  omega

lemma eq_of_ctorIdx_eq (h : j.ctorIdx = k.ctorIdx) : j = k := by
  cases j <;> cases k <;> first | rfl | cases h

lemma descend {P : Precedence → Prop} (hstep : ∀ k, P k.tighter → P k)
    (hk : P k) (hle : j ≤ k) : P j := by
  -- By induction on how many steps the two are apart.
  obtain ⟨d, hd⟩ := Nat.exists_eq_add_of_le (le_def.1 hle)
  induction d generalizing j with
  | zero => exact eq_of_ctorIdx_eq hd ▸ hk
  | succ d ih =>
    have hj : j ≠ .atom := by
      rintro rfl
      have := le_def.1 (le_atom k)
      omega
    have hidx := ctorIdx_tighter hj
    exact hstep j (ih (le_def.2 (by omega)) (by omega))
end Precedence

/-! ## Symbols of operators -/
def SumOp.symbol : SumOp → Symbol
  | .add => .plus
  | .subtract => .minus

def ProductOp.symbol : ProductOp → Symbol
  | .multiply => .star
  | .divide => .slash
  | .modulo => .percent

def RelationOp.symbol : RelationOp → Symbol
  | .eq => .eqEq
  | .ne => .notEq
  | .lt => .lt
  | .le => .le
  | .gt => .gt
  | .ge => .ge

def ShiftOp.symbol : ShiftOp → Symbol
  | .left => .shl
  | .right => .shr
  | .logicalRight => .ushr

def UnaryOp.symbol : UnaryOp → Symbol
  | .negate => .minus
  | .not => .bang
  | .bitwiseNot => .tilde

def LogicOp.symbol : LogicOp → Symbol
  | .and => .andAnd
  | .or => .orOr

def LogicOp.precedence : LogicOp → Precedence
  | .and => .logicAnd
  | .or => .logicOr

def BitOp.symbol : BitOp → Symbol
  | .and => .amp
  | .or => .pipe
  | .xor => .hash

def BitOp.precedence : BitOp → Precedence
  | .and => .bitAnd
  | .or => .bitOr
  | .xor => .bitXor

namespace Literal
def lexeme : Literal → Lexeme
  | .boolean b => .boolean b
  | .ubyte n => .ubyte n
  | .int n => .int n
  | .long n => .long n
  | .double x => .double x
  | .string s => .string s

def absolute? : Literal → Option Literal
  | .int n => if n < 0 then some (.int (-n)) else none
  | .long n => if n < 0 then some (.long (-n)) else none
  | .double x => if x.toBits >>> 63 = 1 then some (.double (-x)) else none
  | _ => none

/-- The lexemes of an expression, with the brackets that it needs. -/
def print (v : Literal) : List Lexeme :=
  match v.absolute? with
  | some a => [.symbol .minus, a.lexeme]
  | none => [v.lexeme]

lemma negate_of_absolute? {v : Literal} (h : v.absolute? = some a) :
    Parse.negate (.literal a) = .literal v := by
  unfold absolute? at h
  split at h
  · cases (ite_none_right_eq_some.1 h).2
    rw [Parse.negate, Int32.neg_neg]
  · cases (ite_none_right_eq_some.1 h).2
    rw [Parse.negate, Int64.neg_neg]
  · cases (ite_none_right_eq_some.1 h).2
    rw [Parse.negate, Number.neg_neg_float]
  · cases h
end Literal

namespace ValueType
/-- No record or function type occurs in the type. -/
def isNamed : ValueType → Bool
  | .array e | .matrix e => e.isNamed
  | .record _ | .function _ => false
  | _ => true

lemma trimChars_eq_self {cs : List Char} (hhead : cs.head?.any Text.isBlank = false)
    (hlast : cs.getLast?.any Text.isBlank = false) : Text.trimChars cs = cs := by
  have hdrop : ∀ {l : List Char}, l.head?.any Text.isBlank = false → l.dropWhile Text.isBlank = l
    | [], _ => rfl
    | c :: l, h => dropWhile_cons_of_neg (Bool.not_eq_true _ ▸ h)
  rw [Text.trimChars, hdrop hhead, hdrop (by rwa [head?_reverse]), reverse_reverse]

lemma ofNameChars?_eq (cs : List Char) : ofNameChars? cs =
      match between? "array<".toList (Text.trimChars cs),
        between? "matrix<".toList (Text.trimChars cs) with
      | some inner, _ => (ofNameChars? inner).map .array
      | none, some inner => (ofNameChars? inner).map .matrix
      | none, none => ofWord? (String.ofList (Text.trimChars cs)) := by
  rw [ofNameChars?]
  split <;> rename_i harray
  · simp only [harray]
  · split <;> rename_i hmatrix <;> simp only [harray, hmatrix]

lemma isPrefixOf?_append (p cs : List Char) : p.isPrefixOf? (p ++ cs) = some cs := by
  induction p with
  | nil => rfl
  | cons c p ih => simp [isPrefixOf?, ih]

lemma between?_append (p cs : List Char) : between? p (p ++ (cs ++ ['>'])) = some cs := by
  simp [between?, isPrefixOf?_append]

lemma ofNameChars?_array (cs : List Char) :
    ofNameChars? ("array<".toList ++ (cs ++ ['>'])) = (ofNameChars? cs).map .array := by
  rw [ofNameChars?_eq, trimChars_eq_self rfl (by rw [← append_assoc, getLast?_concat]; rfl),
    between?_append]

lemma ofNameChars?_matrix (cs : List Char) :
    ofNameChars? ("matrix<".toList ++ (cs ++ ['>'])) = (ofNameChars? cs).map .matrix := by
  rw [ofNameChars?_eq, trimChars_eq_self rfl (by rw [← append_assoc, getLast?_concat]; rfl),
    between?_append]
  rfl

/-- What no word starts with is no name. -/
lemma ofNameChars?_eq_none {p cs : List Char} (hp : p = ['\x7b'] ∨ p = "function/".toList)
    (hlast : (p ++ cs).getLast?.any Text.isBlank = false) :
    ofNameChars? (p ++ cs) = none := by
  have hword : ofWord? (String.ofList (p ++ cs)) = none := by
    unfold ofWord?
    split
    all_goals first | rfl | skip
    all_goals
      rename_i h
      have := congrArg String.toList h
      rcases hp with rfl | rfl <;> simp at this
  rw [ofNameChars?_eq]
  rcases hp with rfl | rfl <;> rw [trimChars_eq_self rfl hlast, ← hword] <;> rfl

/-- The name of a type is read as that type and as no other. -/
lemma ofName?_render (t : ValueType) : ofName? t.render = if t.isNamed then some t else none := by
  cases t with
  | array e =>
    have : (ValueType.array e).render.toList = "array<".toList ++ (e.render.toList ++ ['>']) := by
      simp [render]
    rw [ofName?, this, ofNameChars?_array, ← ofName?, ofName?_render e, isNamed]
    split <;> rfl
  | matrix e =>
    have : (ValueType.matrix e).render.toList = "matrix<".toList ++ (e.render.toList ++ ['>']) := by
      simp [render]
    rw [ofName?, this, ofNameChars?_matrix, ← ofName?, ofName?_render e, isNamed]
    split <;> rfl
  | record fields =>
    rw [ofName?, render, String.toList_append, String.toList_append, append_assoc]
    exact ofNameChars?_eq_none (.inl rfl) (by rw [← append_assoc]; exact congrArg _ getLast?_concat)
  | function arity =>
    rw [ofName?, render, String.toList_append]
    refine ofNameChars?_eq_none (.inr rfl) ((Option.any_eq_false ..).2 fun c hc => ?_)
    replace hc := mem_append.1 (mem_of_getLast? hc)
    obtain hc | hc := hc
    · have hnone : "function/".toList.all (!Text.isBlank ·) := rfl
      simpa using all_eq_true.1 hnone c hc
    · have hdigit := isDigit_of_mem_toString hc
      simp only [Char.isDigit, ge_iff_le, Bool.and_eq_true, decide_eq_true_eq,
        UInt32.le_iff_toNat_le] at hdigit
      have : 48 ≤ c.toNat ∧ c.toNat ≤ 57 := hdigit
      simp [Text.isBlank]
      omega
  | _ => exact (ofNameChars?_eq _).trans (by decide +kernel)

lemma isNamed_of_ofWord? {t : ValueType} (h : ∃ word, ofWord? word = some t) :
    t.isNamed := by
  obtain ⟨word, h⟩ := h
  unfold ofWord? at h
  split at h <;> cases h <;> rfl
end ValueType

/-! ## Expressions -/
def joined (s : Symbol) : List (List Lexeme) → List Lexeme
  | [] => []
  | text :: texts => text ++ texts.flatMap (.symbol s :: ·)

def between (opening closing : Symbol) (text : List Lexeme) : List Lexeme :=
  .symbol opening :: (text ++ [.symbol closing])

namespace Expr
def precedence : Expr → Precedence
  | .literal v => if v.absolute?.isSome then .unary else .atom
  | .ident _ | .array _ | .record _ | .matrix _ => .atom
  | .sum _ _ => .sum
  | .product _ _ => .product
  | .power _ _ => .power
  | .relation _ _ _ => .relation
  | .logic op _ => op.precedence
  | .bitwise op _ => op.precedence
  | .shift _ _ _ => .shift
  | .unary _ _ => .unary
  | .cond _ _ _ | .function _ _ => .conditional
  | .apply _ _ | .method _ _ _ | .member _ _ => .suffix

def isMember : Expr → Bool
  | .member _ _ => true
  | _ => false

def operand (k : Precedence) (e : Expr) (text : List Lexeme) : List Lexeme :=
  if k ≤ e.precedence then text else between .lParen .rParen text

/-- The text of what is applied: a member would be taken for a method. -/
def callee (e : Expr) (text : List Lexeme) : List Lexeme :=
  if e.isMember then between .lParen .rParen text else operand .suffix e text

def printParam : String × Option ValueType → List Lexeme
  | (name, none) => [.name name]
  | (name, some t) => [.name name, .symbol .colon, .name t.render]

mutual

def print : Expr → List Lexeme
  | .literal v => v.print
  | .ident name => [.name name]
  | .sum first rest => operand .product first (print first) ++ printSum rest
  | .product first rest => operand .unary first (print first) ++ printProduct rest
  | .power base exponent =>
    operand .power base (print base) ++ .symbol .caret :: operand .suffix exponent (print exponent)
  | .relation op lhs rhs =>
    operand .shift lhs (print lhs) ++ .symbol op.symbol :: operand .shift rhs (print rhs)
  | .logic op operands => joined op.symbol (printEach op.precedence.tighter operands)
  | .bitwise op operands => joined op.symbol (printEach op.precedence.tighter operands)
  | .shift op lhs rhs =>
    operand .shift lhs (print lhs) ++ .symbol op.symbol :: operand .sum rhs (print rhs)
  | .unary op e => .symbol op.symbol :: operand .unary e (print e)
  | .cond test yes no =>
    operand .logicOr test (print test) ++
      .symbol .question :: (print yes ++ .symbol .colon :: print no)
  | .apply f args =>
    callee f (print f) ++ between .lParen .rParen (joined .comma (printEach .conditional args))
  | .method base name args =>
    operand .suffix base (print base) ++ .symbol .dot :: .name name ::
      between .lParen .rParen (joined .comma (printEach .conditional args))
  | .member base name => operand .suffix base (print base) ++ [.symbol .dot, .name name]
  | .array elements => between .lBrace .rBrace (joined .comma (printEach .conditional elements))
  | .record fields => between .lBrace .rBrace (joined .comma (printFields fields))
  | .matrix rows => between .lBracket .rBracket (joined .semi (printRows rows))
  | .function params body =>
    .function :: (between .lParen .rParen (joined .comma (params.map printParam)) ++ print body)

def printEach (k : Precedence) : List Expr → List (List Lexeme)
  | [] => []
  | e :: es => operand k e (print e) :: printEach k es

def printSum : List (SumOp × Expr) → List Lexeme
  | [] => []
  | (op, e) :: rest => .symbol op.symbol :: (operand .product e (print e) ++ printSum rest)

def printProduct : List (ProductOp × Expr) → List Lexeme
  | [] => []
  | (op, e) :: rest => .symbol op.symbol :: (operand .unary e (print e) ++ printProduct rest)

def printFields : List (String × Expr) → List (List Lexeme)
  | [] => []
  | (label, e) :: fields => (.name label :: .symbol .assign :: print e) :: printFields fields

def printRows : List (List Expr) → List (List Lexeme)
  | [] => []
  | row :: rows => joined .comma (printEach .conditional row) :: printRows rows
end

abbrev printAt (k : Precedence) (e : Expr) : List Lexeme := operand k e (print e)

lemma printEach_eq (k : Precedence) (es : List Expr) : printEach k es = es.map (printAt k) := by
  induction es with
  | nil => rfl
  | cons e es ih =>
    show e.printAt k :: printEach k es = _
    rw [ih, map_cons]

lemma printEach_conditional (es : List Expr) : printEach .conditional es = es.map print := by
  rw [printEach_eq]
  refine map_congr_left fun e _ => ?_
  rw [printAt, operand, if_pos e.precedence.conditional_le]

lemma printSum_eq (rest : List (SumOp × Expr)) :
    printSum rest = rest.flatMap fun r => .symbol r.1.symbol :: r.2.printAt .product := by
  induction rest with
  | nil => rfl
  | cons r rest ih =>
    show .symbol r.1.symbol :: (r.2.printAt .product ++ printSum rest) = _
    rw [ih, flatMap_cons, cons_append]

lemma printProduct_eq (rest : List (ProductOp × Expr)) :
    printProduct rest = rest.flatMap fun r => .symbol r.1.symbol :: r.2.printAt .unary := by
  induction rest with
  | nil => rfl
  | cons r rest ih =>
    show .symbol r.1.symbol :: (r.2.printAt .unary ++ printProduct rest) = _
    rw [ih, flatMap_cons, cons_append]

lemma printFields_eq (fields : List (String × Expr)) :
    printFields fields = fields.map fun f => .name f.1 :: .symbol .assign :: f.2.print := by
  induction fields with
  | nil => rfl
  | cons f fields ih =>
    show (.name f.1 :: .symbol .assign :: f.2.print) :: printFields fields = _
    rw [ih, map_cons]

lemma printRows_eq (rows : List (List Expr)) :
    printRows rows = rows.map fun row => joined .comma (row.map print) := by
  induction rows with
  | nil => rfl
  | cons row rows ih =>
    show joined .comma (printEach .conditional row) :: printRows rows = _
    rw [ih, printEach_conditional, map_cons]

lemma print_literal (v : Literal) : (literal v).print = v.print := rfl

lemma print_sum (first : Expr) (rest : List (SumOp × Expr)) :
    (sum first rest).print = first.printAt .product ++
      rest.flatMap fun r => .symbol r.1.symbol :: r.2.printAt .product := by
  rw [← printSum_eq]
  rfl

lemma print_product (first : Expr) (rest : List (ProductOp × Expr)) :
    (product first rest).print = first.printAt .unary ++
      rest.flatMap fun r => .symbol r.1.symbol :: r.2.printAt .unary := by
  rw [← printProduct_eq]
  rfl

lemma print_power (base exponent : Expr) : (power base exponent).print =
      base.printAt .power ++ .symbol .caret :: exponent.printAt .suffix := rfl

lemma print_relation (op : RelationOp) (lhs rhs : Expr) : (relation op lhs rhs).print =
      lhs.printAt .shift ++ .symbol op.symbol :: rhs.printAt .shift := rfl

lemma print_logic (op : LogicOp) (operands : List Expr) : (logic op operands).print =
      joined op.symbol (operands.map (printAt op.precedence.tighter)) := by
  rw [← printEach_eq]
  rfl

lemma print_bitwise (op : BitOp) (operands : List Expr) : (bitwise op operands).print =
      joined op.symbol (operands.map (printAt op.precedence.tighter)) := by
  rw [← printEach_eq]
  rfl

lemma print_shift (op : ShiftOp) (lhs rhs : Expr) : (shift op lhs rhs).print =
      lhs.printAt .shift ++ .symbol op.symbol :: rhs.printAt .sum := rfl

lemma print_unary (op : UnaryOp) (e : Expr) :
    (unary op e).print = .symbol op.symbol :: e.printAt .unary := rfl

lemma print_cond (test yes no : Expr) : (cond test yes no).print =
      test.printAt .logicOr ++ .symbol .question :: (yes.print ++ .symbol .colon :: no.print) := rfl

lemma print_apply (f : Expr) (args : List Expr) : (apply f args).print =
      callee f f.print ++ between .lParen .rParen (joined .comma (args.map print)) := by
  rw [← printEach_conditional]
  rfl

lemma print_method (base : Expr) (name : String) (args : List Expr) :
    (method base name args).print = base.printAt .suffix ++ .symbol .dot :: .name name ::
        between .lParen .rParen (joined .comma (args.map print)) := by
  rw [← printEach_conditional]
  rfl

lemma print_member (base : Expr) (name : String) :
    (member base name).print = base.printAt .suffix ++ [.symbol .dot, .name name] := rfl

lemma print_array (elements : List Expr) : (array elements).print =
      between .lBrace .rBrace (joined .comma (elements.map print)) := by
  rw [← printEach_conditional]
  rfl

lemma print_record (fields : List (String × Expr)) :
    (record fields).print = between .lBrace .rBrace (joined .comma
      (fields.map fun f => .name f.1 :: .symbol .assign :: f.2.print)) := by
  rw [← printFields_eq]
  rfl

lemma print_matrix (rows : List (List Expr)) :
    (matrix rows).print = between .lBracket .rBracket (joined .semi
      (rows.map fun row => joined .comma (row.map print))) := by
  rw [← printRows_eq]
  rfl

lemma print_function (params : Params) (body : Expr) : (function params body).print =
      .function :: (between .lParen .rParen (joined .comma (params.map printParam)) ++
        body.print) := rfl

section Lengths
variable {k : Precedence} {e : Expr} {text : List Lexeme} {texts : List (List Lexeme)}
  {es : List Expr}

lemma length_print_le (k : Precedence) (e : Expr) : e.print.length ≤ (e.printAt k).length := by
  unfold printAt operand
  split
  · exact le_refl _
  · rw [between, length_cons, length_append]
    omega

lemma length_print_le_callee (e : Expr) : e.print.length ≤ (callee e e.print).length := by
  unfold callee
  split
  · rw [between, length_cons, length_append]
    omega
  · exact length_print_le .suffix e

lemma length_lt_flatMap {α : Type} {items : List α} (sign : α → Symbol)
    (shown : α → List Lexeme) {a : α} (h : a ∈ items) :
    (shown a).length < (items.flatMap fun a => .symbol (sign a) :: shown a).length := by
  have hsub := sublist_flatten_of_mem
    (List.mem_map_of_mem (f := fun a => Lexeme.symbol (sign a) :: shown a) h)
  rw [← flatMap_def] at hsub
  exact hsub.length_le

lemma length_lt_chain {β : Type} {first : Expr} {items : List (β × Expr)} {sign : β → Symbol}
    (hne : items ≠ []) :
    let chain := first.printAt k ++ items.flatMap fun r => .symbol (sign r.1) :: r.2.printAt k
    first.print.length < chain.length ∧ ∀ r ∈ items, r.2.print.length < chain.length := by
  intro chain
  have hchain : chain.length = (first.printAt k).length +
      (items.flatMap fun r => .symbol (sign r.1) :: r.2.printAt k).length := length_append
  have hitem {r : β × Expr} (hr : r ∈ items) : (r.2.printAt k).length <
      (items.flatMap fun r => .symbol (sign r.1) :: r.2.printAt k).length :=
    length_lt_flatMap (fun r => sign r.1) (fun r => r.2.printAt k) hr
  constructor
  · obtain ⟨r, hr⟩ := exists_mem_of_ne_nil items hne
    have hle := length_print_le k first
    have hlt := hitem hr
    omega
  · intro r hr
    have hle := length_print_le k r.2
    have hlt := hitem hr
    omega

lemma length_le_joined (s : Symbol) (h : text ∈ texts) : text.length ≤ (joined s texts).length := by
  cases texts with
  | nil => cases h
  | cons first texts =>
    rw [joined, length_append]
    rcases mem_cons.1 h with rfl | h
    · omega
    · have hlt := length_lt_flatMap (fun _ => s) id h
      simp only [id_eq] at hlt
      omega

lemma length_lt_joined (s : Symbol) (h : text ∈ texts)
    (hlength : 2 ≤ texts.length) : text.length < (joined s texts).length := by
  cases texts with
  | nil => cases h
  | cons first texts =>
    rw [joined, length_append]
    rcases mem_cons.1 h with rfl | h
    · cases texts with
      | nil => exact absurd hlength (by simp)
      | cons second texts =>
        rw [flatMap_cons, length_append, length_cons]
        omega
    · have hlt := length_lt_flatMap (fun _ => s) id h
      simp only [id_eq] at hlt
      omega

lemma length_print_lt_joined (he : e ∈ es)
    (hlength : 2 ≤ es.length) : e.print.length < (joined s (es.map (printAt k))).length := by
  have hlt := length_lt_joined s (List.mem_map_of_mem (f := printAt k) he)
    (by rw [length_map]; exact hlength)
  exact lt_of_le_of_lt (length_print_le k e) hlt

lemma length_print_lt_between (opening closing : Symbol) (he : e ∈ es) : e.print.length <
      (between opening closing (joined .comma (es.map print))).length := by
  have hle := length_le_joined .comma (List.mem_map_of_mem (f := print) he)
  rw [between, length_cons, length_append]
  omega
end Lengths

def IsNumber : Expr → Prop
  | .literal (.int _) | .literal (.long _) | .literal (.double _) => True
  | _ => False

/-- What a parse can come to. -/
inductive IsGrammatical : Expr → Prop
  | literal (v : Literal) : IsGrammatical (.literal v)
  | ident (name : String) : IsGrammatical (.ident name)
  | sum {first : Expr} {rest : List (SumOp × Expr)} (hfirst : IsGrammatical first)
    (hrest : ∀ r ∈ rest, IsGrammatical r.2) (hne : rest ≠ []) : IsGrammatical (.sum first rest)
  | product {first : Expr} {rest : List (ProductOp × Expr)} (hfirst : IsGrammatical first)
    (hrest : ∀ r ∈ rest, IsGrammatical r.2) (hne : rest ≠ []) :
    IsGrammatical (.product first rest)
  | power {base exponent : Expr} (hbase : IsGrammatical base) (hexponent : IsGrammatical exponent) :
    IsGrammatical (.power base exponent)
  | relation {lhs rhs : Expr} (op : RelationOp) (hlhs : IsGrammatical lhs)
    (hrhs : IsGrammatical rhs) : IsGrammatical (.relation op lhs rhs)
  | logic {operands : List Expr} (op : LogicOp) (hoperands : ∀ e ∈ operands, IsGrammatical e)
    (hlength : 2 ≤ operands.length) : IsGrammatical (.logic op operands)
  | bitwise {operands : List Expr} (op : BitOp) (hoperands : ∀ e ∈ operands, IsGrammatical e)
    (hlength : 2 ≤ operands.length) : IsGrammatical (.bitwise op operands)
  | shift {lhs rhs : Expr} (op : ShiftOp) (hlhs : IsGrammatical lhs) (hrhs : IsGrammatical rhs) :
    IsGrammatical (.shift op lhs rhs)
  | unary {op : UnaryOp} {e : Expr} (he : IsGrammatical e) (hnumber : op = .negate → ¬e.IsNumber) :
    IsGrammatical (.unary op e)
  | cond {test yes no : Expr} (htest : IsGrammatical test) (hyes : IsGrammatical yes)
    (hno : IsGrammatical no) : IsGrammatical (.cond test yes no)
  | apply {f : Expr} {args : List Expr} (hf : IsGrammatical f)
    (hargs : ∀ e ∈ args, IsGrammatical e) : IsGrammatical (.apply f args)
  | method {base : Expr} {args : List Expr} (name : String) (hbase : IsGrammatical base)
    (hargs : ∀ e ∈ args, IsGrammatical e) : IsGrammatical (.method base name args)
  | member {base : Expr} (name : String) (hbase : IsGrammatical base) :
    IsGrammatical (.member base name)
  | array {elements : List Expr} (helements : ∀ e ∈ elements, IsGrammatical e) :
    IsGrammatical (.array elements)
  | record {fields : List (String × Expr)} (hfields : ∀ f ∈ fields, IsGrammatical f.2)
    (hne : fields ≠ []) : IsGrammatical (.record fields)
  | matrix {rows : List (List Expr)} {width : Nat}
    (hrows : ∀ row ∈ rows, ∀ e ∈ row, IsGrammatical e) (hne : rows ≠ []) (hpos : 0 < width)
    (hwidth : ∀ row ∈ rows, row.length = width) :
    IsGrammatical (.matrix rows)
  | function {params : Params} {body : Expr}
    (hparams : ∀ name t, (name, some t) ∈ params → ∃ word, ValueType.ofWord? word = some t)
    (hbody : IsGrammatical body) : IsGrammatical (.function params body)
end Expr
end DataflowSpecializer
