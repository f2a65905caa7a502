import DataflowSpecializer.Proofs.Expression.Reading

/-! # Reading what was written -/
namespace DataflowSpecializer
open List Option Precedence ValueType
namespace Parse
open DataflowSpecializer.Expr

variable {expr : Parser Expr} {k : Precedence} {e : Expr} {text ts rest : List Lexeme}
  {es : List Expr} {first : Expr} {lhs rhs : Expr} {op : UnaryOp}

/-- The parser of a precedence takes a text for `e`. Where it collects operands from left to right,
it goes on with further items as if `e` were what it has collected so far; where it collects prefix
operators, there may be some before the text. -/
def Takes (expr : Parser Expr) (k : Precedence) (e : Expr) (text : List Lexeme) : Prop :=
  match k with
  | .shift => ∀ items ts rest, Repeats (shiftItem expr) items ts rest → Stops .sum ts →
    shift expr (text ++ ts) = some (items.foldl (fun lhs r => .shift r.1 lhs r.2) e, rest)
  | .unary => ∀ (ops : List UnaryOp) rest, Stops .unary rest →
    unary expr (ops.map (fun op => .symbol op.symbol) ++ (text ++ rest)) =
      some (ops.foldr applyUnary e, rest)
  | .power => ∀ items ts rest, Repeats (behind .caret (exponent expr)) items ts rest →
    Stops .suffix ts → power expr (text ++ ts) = some (items.foldl Expr.power e, rest)
  | .suffix => ∀ items ts rest, Repeats (suffix expr) items ts rest →
    (e.isMember → symbol .lParen ts = none) →
    suffixed expr (text ++ ts) = some (items.foldl Suffix.attach e, rest)
  | k => ∀ rest, Stops k rest → level expr k (text ++ rest) = some (e, rest)

lemma Takes.level (h : Takes expr k e text) (hstops : Stops k rest) :
    level expr k (text ++ rest) = some (e, rest) := by
  cases k with
  | shift =>
    have hnone := operator_of_stops continues?_shiftOp hstops
    exact h [] rest rest (.done (andThen_of_none hnone)) hstops.tighter
  | unary => exact h [] rest hstops
  | power =>
    have hnone := symbol_of_stops (s := .caret) rfl hstops
    exact h [] rest rest (.done (behind_of_none hnone)) hstops.tighter
  | suffix =>
    exact h [] rest rest (.done (suffix_of_stops hstops)) fun _ => symbol_of_stops rfl hstops
  | _ => exact h rest hstops

lemma Takes.looser (h : Takes expr k.tighter e text) : Takes expr k e text := by
  cases k with
  | shift =>
    intro items ts rest hitems hstops
    exact shift_of_repeats (h ts hstops) hitems
  | unary =>
    intro ops rest hstops
    have hpower : power expr (text ++ rest) = some (e, rest) := h.level hstops.tighter
    obtain ⟨_, hsuffixed⟩ := exists_of_andThen hpower
    obtain ⟨_, hatom⟩ := exists_of_andThen hsuffixed
    rw [unary, andThen_of_some (many_of_repeats (repeats_unaryOp ops (unaryOp_of_atom hatom)))]
    exact map_of_some _ hpower
  | power =>
    intro items ts rest hitems hstops
    have hsuffixed : suffixed expr (text ++ ts) = some (e, ts) := h.level hstops
    rw [power, andThen_of_some hsuffixed]
    exact map_of_some _ (many_of_repeats hitems)
  | suffix =>
    intro items ts rest hitems _
    exact suffixed_of_repeats (h ts (stops_atom ts)) hitems
  | atom => exact h
  | _ =>
    intro rest hstops
    exact level_of_tighter _ (h.level hstops.tighter) hstops

lemma Takes.of_le (h : Takes expr k e text) (hle : j ≤ k) : Takes expr j e text :=
  descend (P := fun i => Takes expr i e text) (fun _ hi => hi.looser) h hle

lemma takes_between (h : ∀ rest, Stops .conditional rest → expr (text ++ rest) = some (e, rest)) :
    Takes expr .atom e (between .lParen .rParen text) := by
  intro rest _
  have hread : enclosed .lParen .rParen expr (between .lParen .rParen text ++ rest) =
      some (e, rest) := enclosed_between (h (.symbol .rParen :: rest) (stops_cons rfl rest))
  exact hread

structure Readable (expr : Parser Expr) (e : Expr) : Prop where
  own : Takes expr e.precedence e e.print
  nested : ∀ {rest}, Stops .conditional rest → expr (e.print ++ rest) = some (e, rest)

lemma Readable.takes (h : Readable expr e) (k : Precedence) : Takes expr k e (e.printAt k) := by
  unfold printAt operand
  split
  · exact h.own.of_le ‹_›
  · exact (takes_between fun rest => h.nested).of_le k.le_atom

lemma Readable.level (h : Readable expr e) (k : Precedence) (hstops : Stops k rest) :
    level expr k (e.printAt k ++ rest) = some (e, rest) :=
  (h.takes k).level hstops

lemma takes_lexeme (v : Literal) : Takes expr .atom (.literal v) [v.lexeme] := by
  intro rest _
  cases v <;> rfl

lemma takes_literal (v : Literal) :
    Takes expr (Expr.literal v).precedence (.literal v) (Expr.literal v).print := by
  rw [precedence, print_literal, Literal.print]
  cases h : v.absolute? with
  | none => exact takes_lexeme v
  | some a =>
    intro ops rest hstops
    have ha : Takes expr .unary (.literal a) [a.lexeme] := (takes_lexeme a).of_le (le_atom _)
    have hread := ha (ops ++ [.negate]) rest hstops
    rw [map_append, append_assoc, foldr_append] at hread
    rw [← Literal.negate_of_absolute? h]
    exact hread

lemma applyUnary_eq (h : op = .negate → ¬e.IsNumber) : applyUnary op e = .unary op e := by
  cases op with
  | negate =>
    have hnumber := h rfl
    change Parse.negate e = _
    unfold Parse.negate
    split
    iterate 3
      · exact absurd trivial hnumber
    · rfl
  | not | bitwiseNot => rfl

lemma takes_unary (he : Readable expr e) (hnumber : op = .negate → ¬e.IsNumber) :
    Takes expr .unary (.unary op e) (Expr.unary op e).print := by
  intro ops rest hstops
  have hread := he.takes .unary (ops ++ [op]) rest hstops
  rw [map_append, append_assoc, foldr_append, foldr_cons, foldr_nil, applyUnary_eq hnumber] at hread
  exact hread

/-! ## Operators -/
lemma operatorChain_flatMap {β : Type} {table : Symbol → Option β}
    {build : Expr → List (β × Expr) → Expr} {operand : Parser Expr} {sign : β → Symbol}
    {items : List (β × Expr)} (htable : ∀ op, table (sign op) = some op)
    (hsign : ∀ op ts, Stops k (.symbol (sign op) :: ts))
    (hfirst : ∀ ts, Stops k ts → operand (first.printAt k ++ ts) = some (first, ts))
    (hitems : ∀ r ∈ items, ∀ ts, Stops k ts → operand (r.2.printAt k ++ ts) = some (r.2, ts))
    (hne : items ≠ []) (hrest : Stops k rest) (hstop : operator table rest = none) :
    operatorChain table build operand (first.printAt k ++
        (items.flatMap (fun r => .symbol (sign r.1) :: r.2.printAt k) ++ rest)) =
      some (build first items, rest) := by
  have hrepeats : Repeats (andThen (operator table) fun op => map (fun e => (op, e)) operand) items
      (items.flatMap (fun r => .symbol (sign r.1) :: r.2.printAt k) ++ rest) rest := by
    refine repeats_flatMap (Stops k) ?_ (fun r => hsign r.1) hrest (andThen_of_none hstop)
    intro r hr ts hts
    rw [andThen_of_some (operator_cons (htable r.1) _)]
    exact map_of_some _ (hitems r hr ts hts)
  have hfollows : Stops k
      (items.flatMap (fun r => .symbol (sign r.1) :: r.2.printAt k) ++ rest) := by
    cases items with
    | nil => exact absurd rfl hne
    | cons r items => exact hsign r.1 _
  rw [operatorChain, andThen_of_some (hfirst _ hfollows)]
  refine (map_of_some _ (many_of_repeats hrepeats)).trans ?_
  rw [chainOf, if_neg (by simpa using hne)]

lemma takes_sum {items : List (SumOp × Expr)} (hfirst : Readable expr first)
    (hitems : ∀ r ∈ items, Readable expr r.2) (hne : items ≠ []) :
    Takes expr .sum (.sum first items) (Expr.sum first items).print := by
  intro rest hstops
  rw [print_sum, append_assoc]
  exact operatorChain_flatMap (fun op => by cases op <;> rfl)
    (fun op => stops_cons (by cases op <;> rfl)) (fun _ => hfirst.level .product)
    (fun r hr _ => (hitems r hr).level .product) hne hstops.tighter
    (operator_of_stops continues?_sumOp hstops)

lemma takes_product {items : List (ProductOp × Expr)}
    (hfirst : Readable expr first) (hitems : ∀ r ∈ items, Readable expr r.2) (hne : items ≠ []) :
    Takes expr .product (.product first items) (Expr.product first items).print := by
  intro rest hstops
  rw [print_product, append_assoc]
  exact operatorChain_flatMap (fun op => by cases op <;> rfl)
    (fun op => stops_cons (by cases op <;> rfl)) (fun _ => hfirst.level .unary)
    (fun r hr _ => (hitems r hr).level .unary) hne hstops.tighter
    (operator_of_stops continues?_productOp hstops)

lemma symbolChain_print {s : Symbol}
    (hs : s.continues? = some k) (hk : k ≠ .atom) (hes : ∀ e ∈ es, Readable expr e)
    (hlength : 2 ≤ es.length) (hstops : Stops k rest) :
    symbolChain s build (level expr k.tighter) (joined s (es.map (printAt k.tighter)) ++ rest) =
      some (build es, rest) := by
  refine symbolChain_of_separated1 (separated1_joined (Stops k.tighter) ?_ ?_ ?_ ?_ ?_) hlength
  · rintro rfl
    exact absurd hlength (Nat.not_succ_le_zero 1)
  · intro e he ts hts
    exact (hes e he).level _ hts
  · intro ts j hj
    cases hs.symm.trans hj
    exact not_tighter_le hk
  · exact hstops.tighter
  · exact symbol_of_stops hs hstops

lemma takes_logic {op : LogicOp} (hes : ∀ e ∈ es, Readable expr e) (hlength : 2 ≤ es.length) :
    Takes expr op.precedence (.logic op es) (Expr.logic op es).print := by
  rw [print_logic]
  cases op with
  | and | or => exact fun rest => symbolChain_print rfl nofun hes hlength

lemma takes_bitwise {op : BitOp} (hes : ∀ e ∈ es, Readable expr e) (hlength : 2 ≤ es.length) :
    Takes expr op.precedence (.bitwise op es) (bitwise op es).print := by
  rw [print_bitwise]
  cases op with
  | and | or | xor => exact fun rest => symbolChain_print rfl nofun hes hlength

lemma takes_relation {op : RelationOp} (hlhs : Readable expr lhs) (hrhs : Readable expr rhs) :
    Takes expr .relation (.relation op lhs rhs) (Expr.relation op lhs rhs).print := by
  intro rest hstops
  have hop : relationOp op.symbol = some op := by cases op <;> rfl
  have hleft {ts : List Lexeme} : shift expr (lhs.printAt .shift ++ .symbol op.symbol :: ts) =
      some (lhs, .symbol op.symbol :: ts) :=
    hlhs.level .shift (stops_cons (by cases op <;> rfl) ts)
  have hright : andThen (operator relationOp) (fun op => map (fun e => (op, e)) (shift expr))
      (.symbol op.symbol :: (rhs.printAt .shift ++ rest)) = some ((op, rhs), rest) := by
    rw [andThen_of_some (operator_cons hop _)]
    exact map_of_some _ (hrhs.level .shift hstops.tighter)
  rw [print_relation, append_assoc, cons_append, Parse.level, relation, andThen_of_some hleft]
  exact map_of_some _ (optional_of_some hright)

lemma takes_shift {op : ShiftOp} (hlhs : Readable expr lhs) (hrhs : Readable expr rhs) :
    Takes expr .shift (.shift op lhs rhs) (Expr.shift op lhs rhs).print := by
  -- The left operand is collected with this shift as the next item.
  intro items ts rest hitems hstops
  have hop : shiftOp op.symbol = some op := by cases op <;> rfl
  have hitem : shiftItem expr (.symbol op.symbol :: (rhs.printAt .sum ++ ts)) =
      some ((op, rhs), ts) := by
    rw [shiftItem, andThen_of_some (operator_cons hop _)]
    exact map_of_some _ (hrhs.level .sum hstops)
  rw [print_shift, append_assoc, cons_append]
  refine hlhs.takes .shift ((op, rhs) :: items) _ rest (.next hitem ?_ hitems) ?_
  · rw [length_cons, length_append]
    omega
  · exact stops_cons (by cases op <;> rfl) _

lemma takes_power {exponent : Expr} (hbase : Readable expr base)
    (hexponent : Readable expr exponent) :
    Takes expr .power (.power base exponent) (Expr.power base exponent).print := by
  intro items ts rest hitems hstops
  have hitem : behind .caret (Parse.exponent expr)
      (.symbol .caret :: (exponent.printAt .suffix ++ ts)) = some (exponent, ts) := by
    have hread : suffixed expr (exponent.printAt .suffix ++ ts) = some (exponent, ts) :=
      hexponent.level .suffix hstops
    -- An exponent may have a minus in front, but this one would be in parentheses.
    have hminus : symbol .minus (exponent.printAt .suffix ++ ts) = none := by
      obtain ⟨_, hatom⟩ := exists_of_andThen hread
      exact minus_of_atom hatom
    rw [behind_cons, Parse.exponent, andThen_of_some (optional_of_none hminus)]
    exact map_of_some _ hread
  rw [print_power, append_assoc, cons_append]
  refine hbase.takes .power (exponent :: items) _ rest (.next hitem ?_ hitems) ?_
  · rw [length_cons, length_append]
    omega
  · exact stops_cons rfl _

lemma takes_cond (htest : Readable expr test) (hyes : Readable expr yes) (hno : Readable expr no) :
    Takes expr .conditional (.cond test yes no) (Expr.cond test yes no).print := by
  intro rest hstops
  have hread {ts : List Lexeme} : logicOr expr (test.printAt .logicOr ++ .symbol .question :: ts) =
      some (test, .symbol .question :: ts) :=
    htest.level .logicOr (stops_cons rfl ts)
  have hbranches : branches expr
      (.symbol .question :: (yes.print ++ .symbol .colon :: (no.print ++ rest))) =
      some ((yes, no), rest) := by
    have hyeses := hyes.nested (stops_cons (s := .colon) rfl (no.print ++ rest))
    rw [branches, behind_cons, andThen_of_some hyeses, behind_cons]
    exact map_of_some _ (hno.nested hstops)
  rw [print_cond, append_assoc, cons_append, append_assoc, cons_append,
    Parse.level, conditional, andThen_of_some hread]
  exact map_of_some _ (optional_of_some hbranches)

section Nested
variable {n : Nat} {es : List Expr} {base : Expr} {rows : List (List Expr)} {name : String}

lemma separated1_print (hne : es ≠ []) (hes : ∀ e ∈ es, Readable expr e)
    (hstops : Stops .conditional rest) (hcomma : symbol .comma rest = none) :
    separated1 .comma expr (joined .comma (es.map print) ++ rest) = some (es, rest) := by
  refine separated1_joined (Stops .conditional) hne ?_ (stops_cons rfl) hstops hcomma
  intro e he ts hts
  exact (hes e he).nested hts

lemma arguments_print (hes : ∀ e ∈ es, Readable (expression n) e) : arguments (expression n)
        (between .lParen .rParen (joined .comma (es.map print)) ++ rest) =
      some (es, rest) := by
  refine enclosed_between ?_
  cases es with
  | nil => exact orElse_of_none (andThen_of_none (expression_rParen n rest))
  | cons e es =>
    exact orElse_of_some (separated1_print (cons_ne_nil e es) hes (stops_cons rfl rest) rfl)

lemma suffixed_callee {items : List Suffix} (hbase : Readable expr base)
    (hitems : Repeats (suffix expr) items ts rest) :
    suffixed expr (callee base base.print ++ ts) = some (items.foldl Suffix.attach base, rest) := by
  unfold callee
  split
  · -- In parentheses a member is an atom, and a call may follow.
    exact suffixed_of_repeats (takes_between (fun _ => hbase.nested) ts (stops_atom ts)) hitems
  · rename_i hmember
    exact hbase.takes .suffix items ts rest hitems fun h => absurd h hmember

lemma takes_apply (hbase : Readable (expression n) base)
    (hes : ∀ e ∈ es, Readable (expression n) e) :
    Takes (expression n) .suffix (.apply base es) (Expr.apply base es).print := by
  intro items ts rest hitems _
  have hitem : suffix (expression n)
      (between .lParen .rParen (joined .comma (es.map print)) ++ ts) =
      some (.call es, ts) := orElse_of_some (map_of_some _ (arguments_print hes))
  rw [print_apply, append_assoc]
  refine suffixed_callee hbase (.next hitem ?_ hitems)
  simp only [between, length_append, length_cons]
  omega

lemma suffix_dot (expr : Parser Expr) (ts : List Lexeme) :
    suffix expr (.symbol .dot :: ts) = selection expr ts := by
  rw [suffix, orElse_of_none (map_of_none _ (arguments_of_none rfl)), behind_cons]

lemma takes_method (hbase : Readable (expression n) base)
    (hes : ∀ e ∈ es, Readable (expression n) e) :
    Takes (expression n) .suffix (.method base name es) (Expr.method base name es).print := by
  intro items ts rest hitems _
  have hitem : suffix (expression n) (.symbol .dot :: .name name ::
      (between .lParen .rParen (joined .comma (es.map print)) ++ ts)) =
      some (.method name es, ts) := by
    rw [suffix_dot, selection, andThen_of_some rfl]
    exact map_of_some _ (optional_of_some (arguments_print hes))
  rw [print_method, append_assoc, cons_append, cons_append]
  refine hbase.takes .suffix (.method name es :: items) _ rest (.next hitem ?_ hitems)
    fun _ => rfl
  simp only [between, length_append, length_cons]
  omega

lemma takes_member (hbase : Readable expr base) :
    Takes expr .suffix (.member base name) (Expr.member base name).print := by
  intro items ts rest hitems hparen
  have hitem : suffix expr (.symbol .dot :: .name name :: ts) = some (.member name, ts) := by
    rw [suffix_dot, selection, andThen_of_some rfl]
    exact map_of_some _ (optional_of_none (arguments_of_none (hparen rfl)))
  rw [print_member, append_assoc]
  refine hbase.takes .suffix (.member name :: items) _ rest (.next hitem ?_ hitems) fun _ => rfl
  simp only [length_append, length_cons]
  omega

lemma record_print (hes : ∀ e ∈ es, Readable (expression n) e) : record (expression n)
      (between .lBrace .rBrace (joined .comma (es.map print)) ++ rest) = none := by
  have hfield : recordField (expression n)
      (joined .comma (es.map print) ++ .symbol .rBrace :: rest) = none := by
    cases es with
    | nil => rfl
    | cons e es =>
      rw [map_cons, joined, append_assoc]
      generalize htail : (es.map print).flatMap _ ++ _ = tail
      have hfollows : Stops .conditional tail ∧ symbol .assign tail = none := by
        subst htail
        cases es with
        | nil | cons e es => exact ⟨stops_cons rfl _, rfl⟩
      exact recordField_of_expression ((hes e (.head _)).nested hfollows.1) hfollows.2
  rw [between, cons_append, append_assoc, record]
  refine map_of_none _ ?_
  rw [enclosed, andThen_of_some (symbol_cons _ _)]
  exact andThen_of_none (andThen_of_none (andThen_of_none hfield))

lemma takes_array (hes : ∀ e ∈ es, Readable (expression n) e) :
    Takes (expression n) .atom (.array es) (Expr.array es).print := by
  intro rest _
  have harray : array (expression n)
      (between .lBrace .rBrace (joined .comma (es.map print)) ++ rest) =
      some (.array es, rest) := by
    refine map_of_some _ (enclosed_between ?_)
    cases es with
    | nil => exact orElse_of_none (andThen_of_none (andThen_of_none (expression_rBrace n rest)))
    | cons e es =>
      have helements := separated1_print (cons_ne_nil e es) hes
        (stops_cons (s := .rBrace) rfl rest) rfl
      exact orElse_of_some (trailing_of_none helements rfl)
  rw [print_array, Parse.level, atom, orElse_of_none rfl, orElse_of_none rfl,
    orElse_of_none (record_print hes)]
  exact orElse_of_some harray

lemma takes_record (hfields : ∀ f ∈ fields, Readable expr f.2)
    (hne : fields ≠ []) : Takes expr .atom (.record fields) (Expr.record fields).print := by
  intro rest _
  let shown (f : String × Expr) : List Lexeme := .name f.1 :: .symbol .assign :: f.2.print
  have hread : separated1 .comma (recordField expr)
      (joined .comma (fields.map shown) ++ .symbol .rBrace :: rest) =
      some (fields, .symbol .rBrace :: rest) := by
    refine separated1_joined (Stops .conditional) hne ?_ (stops_cons rfl) (stops_cons rfl rest) rfl
    intro f hf ts hts
    rw [recordField, andThen_of_some rfl]
    exact map_of_some _ ((hfields f hf).nested hts)
  have hrecord : record expr (between .lBrace .rBrace (joined .comma (fields.map shown)) ++ rest) =
      some (.record fields, rest) :=
    map_of_some _ (enclosed_between (trailing_of_none hread rfl))
  rw [print_record, Parse.level, atom, orElse_of_none rfl, orElse_of_none rfl]
  exact orElse_of_some hrecord

lemma matrixOfRows?_eq
    (h : ∀ row ∈ rows, row.length = width) : matrixOfRows? rows = some (.matrix rows) := by
  refine if_pos (List.all_eq_true.2 ?_)
  intro row hrow
  cases rows with
  | nil => cases hrow
  | cons first rows =>
    rw [headD_cons, h row hrow, h first (.head _)]
    exact decide_eq_true rfl

lemma takes_matrix
    (hrows : ∀ row ∈ rows, ∀ e ∈ row, Readable expr e) (hne : rows ≠ []) (hpos : 0 < width)
    (hwidth : ∀ row ∈ rows, row.length = width) :
    Takes expr .atom (.matrix rows) (Expr.matrix rows).print := by
  intro rest _
  let shown (row : List Expr) : List Lexeme := joined .comma (row.map print)
  have hread : separated1 .semi (separated1 .comma expr)
      (joined .semi (rows.map shown) ++ .symbol .rBracket :: rest) =
      some (rows, .symbol .rBracket :: rest) := by
    refine separated1_joined (fun ts => Stops .conditional ts ∧ symbol .comma ts = none) hne ?_
      (fun ts => ⟨stops_cons rfl ts, rfl⟩) ⟨stops_cons rfl rest, rfl⟩ rfl
    rintro row hrow ts ⟨hstops, hcomma⟩
    have hrow_ne : row ≠ [] := by
      rintro rfl
      have := hwidth [] hrow
      rw [length_nil] at this
      omega
    exact separated1_print hrow_ne (hrows row hrow) hstops hcomma
  have hmatrix : matrix expr (between .lBracket .rBracket (joined .semi (rows.map shown)) ++ rest) =
      some (.matrix rows, rest) := by
    have henclosed : enclosed .lBracket .rBracket
        (trailing .semi (separated1 .semi (separated1 .comma expr)))
        (between .lBracket .rBracket (joined .semi (rows.map shown)) ++ rest) = some (rows, rest) :=
      enclosed_between (trailing_of_none hread rfl)
    rw [matrix, checked, henclosed, bind_some, matrixOfRows?_eq hwidth, map_some]
  rw [print_matrix, Parse.level, atom, orElse_of_none rfl, orElse_of_none rfl, orElse_of_none rfl,
    orElse_of_none rfl]
  exact orElse_of_some hmatrix

lemma param_print {p : String × Option ValueType}
    (hword : ∀ t, p.2 = some t → ∃ word, ofWord? word = some t)
    (hcolon : symbol .colon ts = none) : param (printParam p ++ ts) = some (p, ts) := by
  obtain ⟨name, t⟩ := p
  cases t with
  | none =>
    rw [printParam, cons_append, param, andThen_of_some rfl]
    exact map_of_some _ (optional_of_none (behind_of_none hcolon))
  | some t =>
    have htype : behind .colon (checked ofName? Parse.name)
        (.symbol .colon :: .name t.render :: ts) = some (t, ts) := by
      rw [behind_cons, checked]
      simp only [Parse.name, bind_some, ofName?_render, if_pos (isNamed_of_ofWord? (hword t rfl)),
        map_some]
    rw [printParam, cons_append, param, andThen_of_some rfl]
    exact map_of_some _ (optional_of_some htype)

lemma takes_function {params : Params}
    (hparams : ∀ name t, (name, some t) ∈ params → ∃ word, ofWord? word = some t)
    (hbody : Readable expr body) :
    Takes expr .conditional (.function params body) (Expr.function params body).print := by
  intro rest hstops
  have hread : enclosed .lParen .rParen (separated .comma param)
      (between .lParen .rParen (joined .comma (params.map printParam)) ++ (body.print ++ rest)) =
      some (params, body.print ++ rest) := by
    refine enclosed_between ?_
    cases params with
    | nil => rfl
    | cons p params =>
      refine orElse_of_some (separated1_joined (fun ts => symbol .colon ts = none)
        (cons_ne_nil p params) ?_ (fun _ => rfl) rfl rfl)
      rintro ⟨name, t⟩ hp ts hcolon
      exact param_print (fun t ht => hparams name t (ht ▸ hp)) hcolon
  have hfunction : function expr (.function ::
      (between .lParen .rParen (joined .comma (params.map printParam)) ++ (body.print ++ rest))) =
      some (.function params body, rest) := by
    rw [function, andThen_of_some hread]
    exact map_of_some _ (hbody.nested hstops)
  rw [print_function, cons_append, append_assoc]
  -- The body has stopped where the whole expression does, so nothing goes on on the way down.
  refine level_of_le (k := .atom) (conditional_le _) ?_ hstops
  rw [Parse.level, atom, orElse_of_none rfl]
  exact orElse_of_some hfunction
end Nested

lemma readable_of_takes (h : ∀ n, e.print.length ≤ n → Takes (expression n) e.precedence e e.print)
    (hn : e.print.length < n) : Readable (expression n) e where
  own := h n hn.le
  nested := by
    intro rest hstops
    cases n with
    | zero => exact absurd hn (Nat.not_lt_zero _)
    | succ n => exact ((h n (by omega)).of_le (conditional_le _)).level hstops

lemma takes_print (h : e.IsGrammatical) (n : Nat) (hn : e.print.length ≤ n) :
    Takes (expression n) e.precedence e e.print := by
  induction h generalizing n with
  | literal v => exact takes_literal v
  | ident name => exact fun rest _ => rfl
  | sum _ _ hne ihfirst ihitems =>
    rw [print_sum] at hn
    obtain ⟨hfirst, hitems⟩ := length_lt_chain hne
    exact takes_sum (readable_of_takes ihfirst (hfirst.trans_le hn))
      (fun r hr => readable_of_takes (ihitems r hr) ((hitems r hr).trans_le hn)) hne
  | product _ _ hne ihfirst ihitems =>
    rw [print_product] at hn
    obtain ⟨hfirst, hitems⟩ := length_lt_chain hne
    exact takes_product (readable_of_takes ihfirst (hfirst.trans_le hn))
      (fun r hr => readable_of_takes (ihitems r hr) ((hitems r hr).trans_le hn)) hne
  | @power base exponent _ _ ihbase ihexponent =>
    have hbase := length_print_le .power base
    have hexponent := length_print_le .suffix exponent
    rw [print_power, length_append, length_cons] at hn
    exact takes_power (readable_of_takes ihbase (by omega))
      (readable_of_takes ihexponent (by omega))
  | @relation lhs rhs op _ _ ihlhs ihrhs =>
    have hlhs := length_print_le .shift lhs
    have hrhs := length_print_le .shift rhs
    rw [print_relation, length_append, length_cons] at hn
    exact takes_relation (readable_of_takes ihlhs (by omega)) (readable_of_takes ihrhs (by omega))
  | @shift lhs rhs op _ _ ihlhs ihrhs =>
    have hlhs := length_print_le .shift lhs
    have hrhs := length_print_le .sum rhs
    rw [print_shift, length_append, length_cons] at hn
    exact takes_shift (readable_of_takes ihlhs (by omega)) (readable_of_takes ihrhs (by omega))
  | logic op _ hlength ih =>
    refine takes_logic (fun e he => readable_of_takes (ih e he) ?_) hlength
    rw [print_logic] at hn
    exact (length_print_lt_joined he hlength).trans_le hn
  | bitwise op _ hlength ih =>
    refine takes_bitwise (fun e he => readable_of_takes (ih e he) ?_) hlength
    rw [print_bitwise] at hn
    exact (length_print_lt_joined he hlength).trans_le hn
  | @unary op e _ hnumber ih =>
    have he := length_print_le .unary e
    rw [print_unary, length_cons] at hn
    exact takes_unary (readable_of_takes ih (by omega)) hnumber
  | @cond test yes no _ _ _ ihtest ihyes ihno =>
    have htest := length_print_le .logicOr test
    simp only [print_cond, length_append, length_cons] at hn
    exact takes_cond (readable_of_takes ihtest (by omega)) (readable_of_takes ihyes (by omega))
      (readable_of_takes ihno (by omega))
  | @apply f args _ _ ihf ihargs =>
    have hf := length_print_le_callee f
    rw [print_apply, length_append] at hn
    refine takes_apply (readable_of_takes ihf ?_) fun e he => readable_of_takes (ihargs e he) ?_
    · rw [between, length_cons] at hn
      omega
    · have he := length_print_lt_between .lParen .rParen he
      omega
  | @method base args name _ _ ihbase ihargs =>
    have hbase := length_print_le .suffix base
    rw [print_method, length_append, length_cons, length_cons] at hn
    refine takes_method (readable_of_takes ihbase (by omega)) fun e he =>
      readable_of_takes (ihargs e he) ?_
    have he := length_print_lt_between .lParen .rParen he
    omega
  | @member base name _ ih =>
    have hbase := length_print_le .suffix base
    simp only [print_member, length_append, length_cons] at hn
    exact takes_member (readable_of_takes ih (by omega))
  | array _ ih =>
    rw [print_array] at hn
    exact takes_array fun e he =>
      readable_of_takes (ih e he) ((length_print_lt_between _ _ he).trans_le hn)
  | @record fields _ hne ih =>
    refine takes_record (fun f hf => readable_of_takes (ih f hf) ?_) hne
    have hle := length_le_joined .comma (List.mem_map_of_mem
      (f := fun f : String × Expr => .name f.1 :: .symbol .assign :: f.2.print) hf)
    simp only [print_record, between, length_append, length_cons] at hn hle
    omega
  | @matrix rows width _ hne hpos hwidth ih =>
    refine takes_matrix (fun row hrow e he => readable_of_takes (ih row hrow e he) ?_) hne hpos
      hwidth
    have hcell := length_le_joined .comma (List.mem_map_of_mem (f := print) he)
    have hrow := length_le_joined .semi (List.mem_map_of_mem
      (f := fun row => joined .comma (row.map print)) hrow)
    rw [print_matrix, between, length_cons, length_append] at hn
    omega
  | @function params body hparams _ ih =>
    simp only [print_function, length_append, length_cons] at hn
    exact takes_function hparams (readable_of_takes ih (by omega))
end Parse

/-- **Reading undoes writing.**  Every expression that is made of what the grammar has is read from
its text, although the text has parentheses only where an operator does not bind more tightly than
the one around it. -/
theorem Expr.ofLexemes?_print {e : Expr} (h : e.IsGrammatical) :
    Parse.ofLexemes? e.print = some e := by
  have htakes := Parse.takes_print h e.print.length (Nat.le_refl _)
  have hread : Parse.expression (e.print.length + 1) (e.print ++ []) = some (e, []) :=
    (htakes.of_le (conditional_le _)).level trivial
  rw [append_nil] at hread
  rw [Parse.ofLexemes?, hread]

/-- The tree of `-1 - (-2) ^ (-x) < y ? (r.f)({a}, {b = a}) : function(z : int) z << 1 << 2`. -/
def Expr.crowded : Expr :=
  .cond (.relation .lt (.sum (.literal (.int (-1)))
        [(.subtract, .power (.literal (.int (-2))) (.unary .negate (.ident "x")))])
      (.ident "y"))
    (.apply (.member (.ident "r") "f") [.array [.ident "a"], .record [("b", .ident "a")]])
    (.function [("z", some .int)]
      (.shift .left (.shift .left (.ident "z") (.literal (.int 1))) (.literal (.int 2))))

/-- The base and the exponent need their parentheses, and so does the member that is applied. -/
theorem Expr.ofLexemes?_print_of_crowded : crowded.IsGrammatical ∧ crowded.print =
        [.symbol .minus, .int 1, .symbol .minus, .symbol .lParen, .symbol .minus, .int 2,
          .symbol .rParen, .symbol .caret, .symbol .lParen, .symbol .minus, .name "x",
          .symbol .rParen, .symbol .lt, .name "y", .symbol .question,
          .symbol .lParen, .name "r", .symbol .dot, .name "f", .symbol .rParen, .symbol .lParen,
          .symbol .lBrace, .name "a", .symbol .rBrace, .symbol .comma,
          .symbol .lBrace, .name "b", .symbol .assign, .name "a", .symbol .rBrace, .symbol .rParen,
          .symbol .colon, .function, .symbol .lParen, .name "z", .symbol .colon, .name "int",
          .symbol .rParen, .name "z", .symbol .shl, .int 1, .symbol .shl, .int 2] ∧
      Parse.ofLexemes? crowded.print = some crowded := by
  have hsum : IsGrammatical (.sum (.literal (.int (-1)))
      [(.subtract, .power (.literal (.int (-2))) (.unary .negate (.ident "x")))]) := by
    refine .sum (.literal _) ?_ (cons_ne_nil _ _)
    simp only [mem_singleton, forall_eq]
    exact .power (.literal _) (.unary (.ident "x") fun _ => id)
  have hcall : IsGrammatical
      (.apply (.member (.ident "r") "f") [.array [.ident "a"], .record [("b", .ident "a")]]) := by
    refine .apply (.member "f" (.ident "r")) ?_
    simp only [forall_mem_cons]
    refine ⟨.array ?_, .record ?_ (cons_ne_nil _ _), nofun⟩
    · simpa using .ident "a"
    · simpa using .ident "a"
  have hfunction : IsGrammatical (.function [("z", some .int)]
      (.shift .left (.shift .left (.ident "z") (.literal (.int 1))) (.literal (.int 2)))) := by
    refine .function ?_ (.shift .left (.shift .left (.ident "z") (.literal _)) (.literal _))
    intro name t h
    cases mem_singleton.1 h
    exact ⟨"int", rfl⟩
  have h : crowded.IsGrammatical := .cond (.relation .lt hsum (.ident "y")) hcall hfunction
  exact ⟨h, rfl, ofLexemes?_print h⟩
end DataflowSpecializer
