import DataflowSpecializer.Expression.Grammar
import DataflowSpecializer.Proofs.Expression.Walks
import DataflowSpecializer.Proofs.Value.Order

/-! # What a text can spell -/
namespace DataflowSpecializer
open List Option ValueType DataflowSpecializer.Expr
lemma ValueType.isCanonical_of_ofName? {t : ValueType}
    (h : ofName? name = some t) : t.IsCanonical := by
  unfold ofName? at h
  generalize name.toList = cs at h
  fun_induction ofNameChars? cs generalizing t with
  | case1 =>
    rename_i ih
    obtain ⟨e, he, rfl⟩ := map_eq_some_iff.1 h
    exact .array (ih he)
  | case2 =>
    rename_i ih
    obtain ⟨e, he, rfl⟩ := map_eq_some_iff.1 h
    exact .matrix (ih he)
  | case3 =>
    unfold ofWord? at h
    split at h <;> cases h <;> constructor

namespace Expr
def IsRegular : Expr → Prop
  | .matrix rows => ∀ row ∈ rows, row.length = (rows.headD []).length
  | .function params _ => ∀ p ∈ params, ∀ t, p.2 = some t → t.IsCanonical
  | _ => True

inductive Spelled : Expr → Prop
  | intro {e : Expr} : e.IsRegular → (∀ d ∈ e.parts, Spelled d) →
      (∀ params body, e = .function params body → Spelled body) → Spelled e

lemma Spelled.regular {e : Expr} (h : e.Spelled) : e.IsRegular := by
  cases h with
  | intro h _ _ => exact h

lemma Spelled.part {e d : Expr} (h : e.Spelled) (hd : d ∈ e.parts) : d.Spelled := by
  cases h with
  | intro _ h _ => exact h d hd

lemma Spelled.body {params : Params} {body : Expr}
    (h : (function params body).Spelled) : body.Spelled := by
  cases h with
  | intro _ _ h => exact h params body rfl
end Expr

/-! ## Parsers -/
def Parser.Yields {α : Type} (p : Parser α) (P : α → Prop) : Prop :=
  ∀ ts a rest, p ts = some (a, rest) → P a

namespace Parse
open DataflowSpecializer.Expr (Spelled)

variable {α β : Type} {p q : Parser α} {P : α → Prop} {Q : β → Prop} {s : Symbol}

lemma yields_true (p : Parser α) : p.Yields fun _ => True := fun _ _ _ _ => trivial

section
variable (hp : p.Yields P)

include hp

lemma yields_map (h : ∀ a, P a → Q (f a)) : Parser.Yields (map f p) Q := by
  intro ts b rest hb
  obtain ⟨r, hr, heq⟩ := map_eq_some_iff.1 hb
  cases heq
  exact h _ (hp ts r.1 r.2 hr)

lemma yields_andThen {q : α → Parser β} (hq : ∀ a, P a → (q a).Yields Q) :
    Parser.Yields (andThen p q) Q := by
  intro ts b rest hb
  obtain ⟨r, hr, hb⟩ := bind_eq_some_iff.1 hb
  exact hq r.1 (hp ts r.1 r.2 hr) r.2 b rest hb

lemma yields_orElse (hq : q.Yields P) : Parser.Yields (orElse p q) P := by
  intro ts a rest h
  rw [orElse] at h
  split at h
  · rename_i r hr
    cases h
    exact hp ts a rest hr
  · exact hq ts a rest h

lemma yields_optional : Parser.Yields (optional p) fun o => ∀ a, o = some a → P a := by
  intro ts o rest h a ha
  rw [optional] at h
  split at h <;> cases h
  · rename_i hr
    cases ha
    exact hp _ _ _ hr
  · cases ha

lemma yields_many : Parser.Yields (many p) fun as => ∀ a ∈ as, P a := by
  intro ts
  -- The budget is the list itself only at the start.
  rw [many]
  generalize ts = budget at *
  suffices h : ∀ ts as rest, upTo p budget ts = some (as, rest) → ∀ a ∈ as, P a from h _
  induction budget with
  | nil =>
    intro ts as rest h
    cases h
    exact fun a ha => absurd ha not_mem_nil
  | cons _ budget ih =>
    intro ts as rest h
    simp only [upTo] at h
    split at h
    · cases h
      exact fun a ha => absurd ha not_mem_nil
    · rename_i a rest' ha
      obtain ⟨r, hr, heq⟩ := map_eq_some_iff.1 h
      cases heq
      exact forall_mem_cons.2 ⟨hp _ _ _ ha, ih _ _ _ hr⟩

lemma yields_behind : Parser.Yields (behind s p) P := yields_andThen (yields_true _) fun _ _ => hp

lemma yields_separated1 : Parser.Yields (separated1 s p) fun as => ∀ a ∈ as, P a :=
  yields_andThen hp fun _ ha =>
    yields_map (yields_many (yields_behind hp)) fun _ has => forall_mem_cons.2 ⟨ha, has⟩
end

lemma yields_nil : Parser.Yields (fun ts => some ([], ts)) fun as : List α => ∀ a ∈ as, P a := by
  intro ts as rest h
  cases h
  exact fun a ha => absurd ha not_mem_nil

section
variable (hp : p.Yields P)

include hp

lemma yields_separated : Parser.Yields (separated s p) fun as => ∀ a ∈ as, P a :=
  yields_orElse (yields_separated1 hp) yields_nil

lemma yields_trailing : Parser.Yields (trailing s p) P :=
  yields_andThen hp fun _ ha => yields_map (yields_true _) fun _ _ => ha

lemma yields_enclosed : Parser.Yields (enclosed s t p) P :=
  yields_andThen (yields_true _) fun _ _ =>
    yields_andThen hp fun _ ha => yields_map (yields_true _) fun _ _ => ha

lemma yields_checked (h : ∀ a b, P a → f a = some b → Q b) : Parser.Yields (checked f p) Q := by
  intro ts b rest hb
  obtain ⟨r, hr, hb⟩ := bind_eq_some_iff.1 hb
  obtain ⟨c, hc, heq⟩ := map_eq_some_iff.1 hb
  cases heq
  exact h r.1 b (hp ts r.1 r.2 hr) hc
end

/-! ## Levels of the grammar -/
lemma spelled_of_parts {e : Expr} (hregular : e.IsRegular)
    (hfunction : ∀ params body, e ≠ .function params body) (h : ∀ d ∈ e.parts, d.Spelled) :
    e.Spelled :=
  .intro hregular h fun params body he => absurd he (hfunction params body)

lemma spelled_negate {e : Expr} (h : e.Spelled) : (negate e).Spelled := by
  rw [negate.eq_def]
  split
  iterate 3 exact spelled_of_parts trivial (by simp) (by simp [parts])
  exact spelled_of_parts trivial (by simp) (by simpa [parts] using h)

section Levels
variable {expr : Parser Expr} (h : expr.Yields Spelled) {operand : Parser Expr}

include h

lemma yields_arguments : Parser.Yields (arguments expr) fun es => ∀ e ∈ es, e.Spelled :=
  yields_enclosed (yields_separated h)

lemma yields_matrix : Parser.Yields (matrix expr) Spelled := by
  refine yields_checked (yields_enclosed (yields_trailing (yields_separated1
    (yields_separated1 h)))) fun rows e hrows he => ?_
  rw [matrixOfRows?] at he
  split at he <;> cases he
  rename_i hlength
  refine spelled_of_parts ?_ (by simp) fun d hd => ?_
  · simpa [Expr.IsRegular] using hlength
  · obtain ⟨row, hrow, hd⟩ := mem_flatten.1 hd
    exact hrows row hrow d hd

omit h in
lemma yields_param : Parser.Yields param fun x => ∀ t, x.2 = some t → t.IsCanonical := by
  refine yields_andThen (yields_true _) fun n _ => yields_map (yields_optional (yields_behind
    (yields_checked (yields_true _) fun _ t _ ht => isCanonical_of_ofName? ht)))
    fun o ho => ho

lemma yields_function : Parser.Yields (function expr) Spelled := by
  intro ts e rest he
  rw [function.eq_def] at he
  split at he
  · refine yields_andThen (yields_enclosed (yields_separated yields_param)) (fun params hparams =>
      yields_map h fun body hbody => .intro hparams (by simp [parts]) ?_) _ _ _ he
    intro params body heq
    cases heq
    exact hbody
  · cases he

lemma yields_atom : Parser.Yields (atom expr) Spelled := by
  refine yields_orElse (yields_map (yields_true _) fun l _ => ?_) <|
    yields_orElse (yields_function h) <|
    yields_orElse (yields_map (yields_enclosed (yields_trailing (yields_separated1 (P := fun f =>
      f.2.Spelled) ?_))) fun fields hfields => ?_) <|
    yields_orElse (yields_map (yields_enclosed (yields_orElse (yields_trailing
      (yields_separated1 h)) yields_nil)) fun es hes => ?_) <|
    yields_orElse (yields_matrix h) <|
    yields_orElse (yields_map (yields_true _) fun name _ => ?_) (yields_enclosed h)
  · exact spelled_of_parts trivial (by simp) (by simp [parts])
  · exact yields_andThen (yields_true _) fun _ _ => yields_behind (yields_map h fun _ he => he)
  · exact spelled_of_parts trivial (by simp) (List.forall_mem_map.2 hfields)
  · exact spelled_of_parts trivial (by simp) hes
  · exact spelled_of_parts trivial (by simp) (by simp [parts])

lemma yields_suffix :
    Parser.Yields (suffix expr) fun s => ∀ base, base.Spelled → (s.attach base).Spelled := by
  refine yields_orElse (yields_map (yields_arguments h) fun args hargs base hbase => ?_)
    (yields_behind (yields_andThen (yields_true _) fun n _ =>
      yields_map (yields_optional (yields_arguments h)) fun o ho base hbase => ?_))
  · exact spelled_of_parts (e := .apply base args) trivial (by simp)
      (forall_mem_cons.2 ⟨hbase, hargs⟩)
  · cases o with
    | none => exact spelled_of_parts (e := .member base n) trivial (by simp) (by simpa [parts])
    | some args =>
      exact spelled_of_parts (e := .method base n args) trivial (by simp)
        (forall_mem_cons.2 ⟨hbase, ho args rfl⟩)

lemma yields_suffixed : Parser.Yields (suffixed expr) Spelled :=
  yields_andThen (yields_atom h) fun _ hbase => yields_map (yields_many (yields_suffix h))
    fun ss hss => foldlRecOn ss _ hbase fun e he s hs => hss s hs e he

lemma yields_power : Parser.Yields (power expr) Spelled := by
  have hexponent : Parser.Yields (exponent expr) Spelled := by
    refine yields_andThen (yields_true _) fun sign _ => yields_map (yields_suffixed h) fun e he => ?_
    split
    · exact spelled_negate he
    · exact he
  refine yields_andThen (yields_suffixed h) fun base hbase =>
    yields_map (yields_many (yields_behind hexponent)) fun es hes => ?_
  refine foldlRecOn es _ hbase fun e he d hd => ?_
  exact spelled_of_parts trivial (by simp) (by simpa [parts] using ⟨he, hes d hd⟩)

lemma yields_unary : Parser.Yields (unary expr) Spelled := by
  refine yields_andThen (yields_true _) fun ops _ => yields_map (yields_power h) fun e he => ?_
  refine foldrRecOn ops _ he fun d hd op _ => ?_
  rw [applyUnary.eq_def]
  split
  · exact spelled_negate hd
  · exact spelled_of_parts trivial (by simp) (by simpa [parts] using hd)

omit h in
lemma yields_operatorChain {table : Symbol → Option β} {build : Expr → List (β × Expr) → Expr}
    (hoperand : operand.Yields Spelled)
    (hbuild : ∀ first rest, first.Spelled → (∀ r ∈ rest, r.2.Spelled) →
      (build first rest).Spelled) : Parser.Yields (operatorChain table build operand) Spelled := by
  refine yields_andThen hoperand fun first hfirst => yields_map (yields_many (P := fun r =>
    r.2.Spelled) (yields_andThen (yields_true _) fun op _ => yields_map hoperand fun e he => he))
    fun rest hrest => ?_
  rw [chainOf]
  split
  · exact hfirst
  · exact hbuild first rest hfirst hrest

omit h in
lemma yields_symbolChain (hoperand : operand.Yields Spelled)
    (hbuild : ∀ es, (∀ e ∈ es, e.Spelled) → (build es).Spelled) :
    Parser.Yields (symbolChain s build operand) Spelled := by
  refine yields_andThen hoperand fun first hfirst =>
    yields_map (yields_many (yields_behind hoperand)) fun rest hrest => ?_
  rw [chainOf]
  split
  · exact hfirst
  · exact hbuild _ (forall_mem_cons.2 ⟨hfirst, hrest⟩)

lemma yields_shift : Parser.Yields (shift expr) Spelled := by
  refine yields_operatorChain (yields_operatorChain (yields_operatorChain (yields_unary h) ?_) ?_)
    fun first rest hfirst hrest => ?_
  iterate 2
    · exact fun first rest hfirst hrest => spelled_of_parts trivial (by simp)
        (forall_mem_cons.2 ⟨hfirst, List.forall_mem_map.2 hrest⟩)
  · refine foldlRecOn rest _ hfirst fun e he r hr => ?_
    exact spelled_of_parts trivial (by simp) (by simpa [parts] using ⟨he, hrest r hr⟩)

lemma yields_relation : Parser.Yields (relation expr) Spelled := by
  refine yields_andThen (yields_shift h) fun lhs hlhs => yields_map (yields_optional (P := fun r =>
    r.2.Spelled) (yields_andThen (yields_true _) fun op _ =>
      yields_map (yields_shift h) fun e he => he)) fun o ho => ?_
  cases o with
  | none => exact hlhs
  | some r => exact spelled_of_parts trivial (by simp) (by simpa [parts] using ⟨hlhs, ho r rfl⟩)

lemma yields_logicOr : Parser.Yields (logicOr expr) Spelled := by
  have hbitwise (op : BitOp) (es : List Expr) (hes : ∀ e ∈ es, e.Spelled) :
      (bitwise op es).Spelled := spelled_of_parts trivial (by simp) hes
  have hlogic (op : LogicOp) (es : List Expr) (hes : ∀ e ∈ es, e.Spelled) :
      (logic op es).Spelled := spelled_of_parts trivial (by simp) hes
  exact yields_symbolChain (yields_symbolChain (yields_symbolChain (yields_symbolChain
    (yields_symbolChain (yields_relation h) (hbitwise _)) (hbitwise _)) (hbitwise _)) (hlogic _))
    (hlogic _)

lemma yields_conditional : Parser.Yields (conditional expr) Spelled := by
  refine yields_andThen (yields_logicOr h) fun test htest => yields_map (yields_optional
    (P := fun r => r.1.Spelled ∧ r.2.Spelled) (yields_behind (yields_andThen h fun yes hyes =>
      yields_behind (yields_map h fun no hno => ⟨hyes, hno⟩)))) fun o ho => ?_
  cases o with
  | none => exact htest
  | some r => exact spelled_of_parts trivial (by simp) (by simpa [parts] using ⟨htest, ho r rfl⟩)
end Levels

lemma yields_expression (n : Nat) : Parser.Yields (expression n) Spelled := by
  induction n with
  | zero =>
    intro ts e rest he
    cases he
  | succ n ih => exact yields_conditional ih
end Parse

lemma Expr.spelled_of_parse? {e : Expr} (h : parse? source = some e) : e.Spelled := by
  simp only [parse?] at h
  split at h
  · rw [Parse.ofLexemes?] at h
    split at h
    · rename_i he
      cases h
      exact Parse.yields_expression _ _ _ _ he
    · cases h
  · cases h
end DataflowSpecializer
