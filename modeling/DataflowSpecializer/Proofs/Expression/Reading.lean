import DataflowSpecializer.Proofs.Expression.Printing

/-! # Reading with one lexeme of foresight -/
namespace DataflowSpecializer.Parse
open List
variable {α β : Type} {p : Parser α} {ts ts' rest text : List Lexeme} {a : α} {s : Symbol}
  {q : α → Parser β} {as : List α} {shown : α → List Lexeme}

/-! ## Combinators -/
lemma map_of_some (f : α → β) (h : p ts = some (a, rest)) : map f p ts = some (f a, rest) := by
  rw [map, h]
  rfl

lemma map_of_none (f : α → β) (h : p ts = none) : map f p ts = none := by
  rw [map, h]
  rfl

lemma andThen_of_some (h : p ts = some (a, rest)) : andThen p q ts = q a rest := by
  rw [andThen, h]
  rfl

lemma andThen_of_none (h : p ts = none) : andThen p q ts = none := by
  rw [andThen, h]
  rfl

lemma exists_of_andThen (h : andThen p q ts = some r) : ∃ r', p ts = some r' := by
  obtain ⟨r', hr', -⟩ := Option.bind_eq_some_iff.1 h
  exact ⟨r', hr'⟩

lemma orElse_of_some {q : Parser α} {r : α × List Lexeme} (h : p ts = some r) :
    orElse p q ts = some r := by
  rw [orElse, h]

lemma orElse_of_none {q : Parser α} (h : p ts = none) : orElse p q ts = q ts := by rw [orElse, h]

lemma optional_of_some (h : p ts = some (a, rest)) : optional p ts = some (some a, rest) := by
  rw [optional, h]

lemma optional_of_none (h : p ts = none) : optional p ts = some (none, ts) := by rw [optional, h]

lemma symbol_cons (s : Symbol) (ts : List Lexeme) : symbol s (.symbol s :: ts) = some ((), ts) :=
  if_pos rfl

lemma behind_cons (s : Symbol) (p : Parser α) (ts : List Lexeme) :
    behind s p (.symbol s :: ts) = p ts :=
  andThen_of_some (symbol_cons s ts)

lemma behind_of_none (h : symbol s ts = none) : behind s p ts = none := andThen_of_none h

lemma operator_cons (h : table s = some a) (ts : List Lexeme) :
    operator table (.symbol s :: ts) = some (a, ts) := by
  rw [operator, h]
  rfl

lemma enclosed_between {opening closing : Symbol}
    (h : p (text ++ .symbol closing :: rest) = some (a, .symbol closing :: rest)) :
    enclosed opening closing p (between opening closing text ++ rest) = some (a, rest) := by
  rw [between, cons_append, append_assoc]
  calc enclosed opening closing p (.symbol opening :: (text ++ ([.symbol closing] ++ rest)))
      = andThen p (fun a => map (fun _ => a) (symbol closing)) (text ++ .symbol closing :: rest) :=
        andThen_of_some (symbol_cons opening _)
    _ = map (fun _ => a) (symbol closing) (.symbol closing :: rest) := andThen_of_some h
    _ = some (a, rest) := map_of_some _ (symbol_cons closing rest)

lemma trailing_of_none (h : p ts = some (a, rest)) (hs : symbol s rest = none) :
    trailing s p ts = some (a, rest) := by
  rw [trailing, andThen_of_some h]
  exact map_of_some _ (optional_of_none hs)

inductive Repeats (p : Parser α) : List α → List Lexeme → List Lexeme → Prop
  | done {ts : List Lexeme} (h : p ts = none) : Repeats p [] ts ts
  | next {a : α} {as : List α} {ts ts' rest : List Lexeme} (h : p ts = some (a, ts'))
    (hlt : ts'.length < ts.length) (htail : Repeats p as ts' rest) : Repeats p (a :: as) ts rest

lemma upTo_of_repeats (h : Repeats p as ts rest) (budget : List Lexeme)
    (hbudget : ts.length ≤ budget.length) : upTo p budget ts = some (as, rest) := by
  induction h generalizing budget with
  | done h =>
    cases budget with
    | nil => rfl
    | cons b budget => simp only [upTo, h]
  | next h hlt htail ih =>
    cases budget with
    | nil =>
      rw [length_nil] at hbudget
      omega
    | cons b budget =>
      rw [length_cons] at hbudget
      simp only [upTo, h, ih budget (by omega), Option.map_some]

lemma many_of_repeats (h : Repeats p as ts rest) : many p ts = some (as, rest) :=
  upTo_of_repeats h ts (le_refl _)

lemma many_of_none (h : p ts = none) : many p ts = some ([], ts) := many_of_repeats (.done h)

lemma repeats_flatMap (Follows : List Lexeme → Prop) {sign : α → Symbol}
    (hread : ∀ a ∈ as, ∀ ts, Follows ts → p (.symbol (sign a) :: (shown a ++ ts)) = some (a, ts))
    (hsign : ∀ a ts, Follows (.symbol (sign a) :: ts)) (hrest : Follows rest)
    (hstop : p rest = none) :
    Repeats p as (as.flatMap (fun a => .symbol (sign a) :: shown a) ++ rest) rest := by
  induction as with
  | nil => exact .done hstop
  | cons a as ih =>
    have htail := ih fun b hb => hread b (mem_cons_of_mem a hb)
    have hfollows : Follows (as.flatMap (fun a => .symbol (sign a) :: shown a) ++ rest) := by
      cases as with
      | nil => exact hrest
      | cons b as => exact hsign b _
    rw [flatMap_cons, append_assoc, cons_append]
    refine .next (hread a (.head _) _ hfollows) ?_ htail
    simp only [length_cons, length_append]
    omega

lemma separated1_joined (Follows : List Lexeme → Prop)
    (hne : as ≠ []) (hread : ∀ a ∈ as, ∀ ts, Follows ts → p (shown a ++ ts) = some (a, ts))
    (hsign : ∀ ts, Follows (.symbol s :: ts)) (hrest : Follows rest)
    (hstop : symbol s rest = none) :
    separated1 s p (joined s (as.map shown) ++ rest) = some (as, rest) := by
  cases as with
  | nil => exact absurd rfl hne
  | cons a as =>
    have htail : Repeats (behind s p) as (as.flatMap (fun a => .symbol s :: shown a) ++ rest)
        rest := by
      refine repeats_flatMap Follows ?_ (fun _ ts => hsign ts) hrest (behind_of_none hstop)
      intro b hb ts hts
      rw [behind_cons]
      exact hread b (mem_cons_of_mem a hb) ts hts
    have hfollows : Follows (as.flatMap (fun a => .symbol s :: shown a) ++ rest) := by
      cases as with
      | nil => exact hrest
      | cons b as => exact hsign _
    rw [map_cons, joined, flatMap_map, append_assoc, separated1,
      andThen_of_some (hread a (.head _) _ hfollows)]
    exact map_of_some _ (many_of_repeats htail)

end Parse

def Symbol.continues? : Symbol → Option Precedence
  | .question => some .conditional
  | .orOr => some .logicOr
  | .andAnd => some .logicAnd
  | .pipe => some .bitOr
  | .hash => some .bitXor
  | .amp => some .bitAnd
  | .eqEq | .notEq | .lt | .le | .gt | .ge => some .relation
  | .shl | .shr | .ushr => some .shift
  | .plus | .minus => some .sum
  | .star | .slash | .percent => some .product
  | .caret => some .power
  | .dot | .lParen => some .suffix
  | _ => none

namespace Parse
def Stops (k : Precedence) : List Lexeme → Prop
  | .symbol s :: _ => ∀ j, s.continues? = some j → ¬k ≤ j
  | _ => True

lemma Stops.mono (h : Stops j ts) (hle : j ≤ k) : Stops k ts := by
  unfold Stops at h ⊢
  split
  · rename_i s rest
    intro i hi hki
    exact h i hi (Nat.le_trans hle hki)
  · trivial

variable {k : Precedence}

lemma Stops.tighter (h : Stops k ts) : Stops k.tighter ts := h.mono k.le_tighter

lemma stops_cons (h : s.continues?.all (fun j => ¬k ≤ j))
    (ts : List Lexeme) : Stops k (.symbol s :: ts) := by
  intro j hj
  rw [hj] at h
  simpa using h

lemma stops_atom (ts : List Lexeme) : Stops .atom ts := by
  unfold Stops
  split
  · rename_i s rest
    cases s <;> intro j hj <;> cases hj <;> decide
  · trivial

lemma symbol_of_stops (hs : s.continues? = some k) (h : Stops k ts) : symbol s ts = none := by
  unfold symbol
  split
  · rename_i t rest
    refine if_neg ?_
    rintro rfl
    exact h k hs .refl
  · rfl

lemma operator_of_stops
    (htable : ∀ s a, table s = some a → s.continues? = some k) (h : Stops k ts) :
    operator table ts = none := by
  unfold operator
  split
  · rename_i s rest
    cases hs : table s with
    | none => rfl
    | some a => exact absurd .refl (h k (htable s a hs))
  · rfl

lemma continues?_sumOp (s : Symbol) (op : SumOp) (h : sumOp s = some op) :
    s.continues? = some .sum := by
  cases s <;> first | rfl | cases h

lemma continues?_productOp (s : Symbol) (op : ProductOp) (h : productOp s = some op) :
    s.continues? = some .product := by
  cases s <;> first | rfl | cases h

lemma continues?_shiftOp (s : Symbol) (op : ShiftOp) (h : shiftOp s = some op) :
    s.continues? = some .shift := by
  cases s <;> first | rfl | cases h

lemma continues?_relationOp (s : Symbol) (op : RelationOp) (h : relationOp s = some op) :
    s.continues? = some .relation := by
  cases s <;> first | rfl | cases h

/-! ## Levels -/
def level (expr : Parser Expr) : Precedence → Parser Expr
  | .conditional => conditional expr
  | .logicOr => logicOr expr
  | .logicAnd => logicAnd expr
  | .bitOr => bitOr expr
  | .bitXor => bitXor expr
  | .bitAnd => bitAnd expr
  | .relation => relation expr
  | .shift => shift expr
  | .sum => sum expr
  | .product => product expr
  | .unary => unary expr
  | .power => power expr
  | .suffix => suffixed expr
  | .atom => atom expr

variable {expr operand : Parser Expr} {e : Expr} {build : List Expr → Expr} {r : Expr × List Lexeme}

lemma symbolChain_single (h : operand ts = some (e, rest))
    (hs : symbol s rest = none) : symbolChain s build operand ts = some (e, rest) := by
  rw [symbolChain, andThen_of_some h]
  exact map_of_some _ (many_of_none (behind_of_none hs))

lemma operatorChain_single {table : Symbol → Option β} {build : Expr → List (β × Expr) → Expr}
    (h : operand ts = some (e, rest)) (hs : operator table rest = none) :
    operatorChain table build operand ts = some (e, rest) := by
  rw [operatorChain, andThen_of_some h]
  exact map_of_some _ (many_of_none (andThen_of_none hs))

lemma arguments_of_none (h : symbol .lParen ts = none) : arguments expr ts = none := by
  rw [arguments, enclosed, andThen_of_none h]

lemma suffix_of_stops (h : Stops .suffix ts) : suffix expr ts = none := by
  rw [suffix, orElse_of_none (map_of_none _ (arguments_of_none (symbol_of_stops rfl h)))]
  exact behind_of_none (symbol_of_stops rfl h)

lemma symbolChain_of_separated1 {es : List Expr}
    (h : separated1 s operand ts = some (es, rest)) (hlength : 2 ≤ es.length) :
    symbolChain s build operand ts = some (build es, rest) := by
  obtain ⟨⟨first, ts'⟩, hfirst, htail⟩ := Option.bind_eq_some_iff.1 h
  obtain ⟨⟨es', rest'⟩, hes', heq⟩ := Option.map_eq_some_iff.1 htail
  cases heq
  rw [symbolChain, andThen_of_some hfirst]
  refine (map_of_some _ hes').trans ?_
  cases es' with
  | nil => exact absurd hlength (by simp)
  | cons e es' => rfl

lemma unaryOp_of_atom (h : atom expr ts = some r) : operator unaryOp ts = none := by
  unfold operator
  split
  · rename_i s rest
    cases s with
    | minus | bang | tilde => cases h
    | _ => rfl
  · rfl

lemma minus_of_atom (h : atom expr ts = some r) : symbol .minus ts = none := by
  have hop := unaryOp_of_atom h
  unfold symbol
  split
  · refine if_neg ?_
    rintro rfl
    cases hop
  · rfl

lemma level_of_tighter (k : Precedence) (h : level expr k.tighter ts = some (e, rest))
    (hstops : Stops k rest) : level expr k ts = some (e, rest) := by
  cases k with
  | conditional =>
    rw [Precedence.tighter, level] at h
    have hnone : branches expr rest = none := behind_of_none (symbol_of_stops rfl hstops)
    rw [level, conditional, andThen_of_some h]
    exact map_of_some _ (optional_of_none hnone)
  | logicOr | logicAnd | bitOr | bitXor | bitAnd => exact symbolChain_single h (symbol_of_stops rfl hstops)
  | relation =>
    rw [Precedence.tighter, level] at h
    have hnone := operator_of_stops continues?_relationOp hstops
    rw [level, relation, andThen_of_some h]
    exact map_of_some _ (optional_of_none (andThen_of_none hnone))
  | shift => exact operatorChain_single h (operator_of_stops continues?_shiftOp hstops)
  | sum => exact operatorChain_single h (operator_of_stops continues?_sumOp hstops)
  | product => exact operatorChain_single h (operator_of_stops continues?_productOp hstops)
  | unary =>
    rw [Precedence.tighter, level] at h
    -- There is no prefix operator, since there is an operand.
    obtain ⟨_, hsuffixed⟩ := exists_of_andThen h
    obtain ⟨_, hatom⟩ := exists_of_andThen hsuffixed
    rw [level, unary, andThen_of_some (many_of_none (unaryOp_of_atom hatom))]
    exact map_of_some _ h
  | power =>
    rw [Precedence.tighter, level] at h
    have hnone : behind .caret (exponent expr) rest = none :=
      behind_of_none (symbol_of_stops rfl hstops)
    rw [level, power, andThen_of_some h]
    exact map_of_some _ (many_of_none hnone)
  | suffix =>
    rw [Precedence.tighter, level] at h
    rw [level, suffixed, andThen_of_some h]
    exact map_of_some _ (many_of_none (suffix_of_stops hstops))
  | atom => exact h

lemma level_of_le (hle : j ≤ k) (h : level expr k ts = some (e, rest))
    (hstops : Stops j rest) : level expr j ts = some (e, rest) := by
  -- What stops at `j` stops at every tighter precedence on the way.
  have hall : ∀ i, j ≤ i → i ≤ k → level expr i ts = some (e, rest) := by
    intro i hji hik
    refine Precedence.descend (P := fun i => j ≤ i → level expr i ts = some (e, rest)) ?_
      (fun _ => h) hik hji
    intro i hi hji
    refine level_of_tighter i (hi ?_) (hstops.mono hji)
    exact Nat.le_trans hji i.le_tighter
  exact hall j .refl hle

def shiftItem (expr : Parser Expr) : Parser (ShiftOp × Expr) :=
  andThen (operator shiftOp) fun op => map (fun e => (op, e)) (sum expr)

lemma shift_of_repeats {items : List (ShiftOp × Expr)} (h : sum expr ts = some (e, text))
    (hitems : Repeats (shiftItem expr) items text rest) :
    shift expr ts = some (items.foldl (fun lhs r => .shift r.1 lhs r.2) e, rest) := by
  rw [shift, operatorChain, andThen_of_some h]
  refine (map_of_some _ (many_of_repeats hitems)).trans ?_
  cases items <;> rfl

lemma repeats_unaryOp (ops : List UnaryOp) (h : operator unaryOp ts = none) :
    Repeats (operator unaryOp) ops (ops.map (fun op => .symbol op.symbol) ++ ts) ts := by
  induction ops with
  | nil => exact .done h
  | cons op ops ih =>
    have hop : unaryOp op.symbol = some op := by cases op <;> rfl
    exact .next (operator_cons hop _) (Nat.lt_succ_self _) ih

lemma suffixed_of_repeats {items : List Suffix} (h : atom expr ts = some (e, text))
    (hitems : Repeats (suffix expr) items text rest) :
    suffixed expr ts = some (items.foldl Suffix.attach e, rest) := by
  rw [suffixed, andThen_of_some h]
  exact map_of_some _ (many_of_repeats hitems)

lemma expression_rParen (n : Nat) (ts : List Lexeme) :
    expression n (.symbol .rParen :: ts) = none := by
  cases n <;> rfl

lemma expression_rBrace (n : Nat) (ts : List Lexeme) :
    expression n (.symbol .rBrace :: ts) = none := by
  cases n <;> rfl

lemma recordField_of_expression (h : expression n ts = some (e, rest))
    (hrest : symbol .assign rest = none) : recordField (expression n) ts = none := by
  cases n with
  | zero => cases h
  | succ n =>
    cases hname : name ts with
    | none => exact andThen_of_none hname
    | some r =>
      obtain ⟨label, ts'⟩ := r
      rw [recordField, andThen_of_some hname]
      refine behind_of_none ?_
      by_contra hassign
      obtain ⟨tail, rfl⟩ : ∃ tail, ts' = .symbol .assign :: tail := by
        unfold symbol at hassign
        split at hassign
        · rename_i s tail
          by_cases hs : Symbol.assign = s
          · exact ⟨tail, by rw [hs]⟩
          · exact absurd (if_neg hs) hassign
        · exact absurd rfl hassign
      have hident : atom (expression n) ts = some (.ident label, .symbol .assign :: tail) := by
        unfold name at hname
        split at hname
        · cases hname
          rfl
        · cases hname
      have hread : expression (n + 1) ts = some (.ident label, .symbol .assign :: tail) :=
        level_of_le (k := .atom) (j := .conditional) (Precedence.conditional_le _) hident
          (stops_cons rfl tail)
      rw [hread] at h
      cases h
      exact hassign hrest
end Parse
end DataflowSpecializer
