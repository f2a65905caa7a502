import DataflowSpecializer.Proofs.Expression.Walks
import DataflowSpecializer.Proofs.Value.Typing

/-! # Soundness of type inference -/
namespace DataflowSpecializer
open List Option Builtin ValueType Value
def Scope.types (scope : Scope) : TypeScope := fun name => (scope name).map Value.type

namespace Expr
open Value (HasType)

lemma isScalar_constant {name : String} {v : Value} (h : constant? name = some v) :
    v.type.isScalar := by
  rw [constant?.eq_def] at h
  split at h <;> cases h <;> rfl

lemma isCanonical_carrier (k : Carrier) : k.valueType.IsCanonical := by
  cases k <;> repeat constructor

lemma isCanonical_element? {t e : ValueType} (ht : t.IsCanonical) (h : t.element? = some e) :
    e.IsCanonical := by
  cases ht <;> cases h <;> assumption

lemma isCanonical_resultType (b : Builtin) {args : List ValueType}
    (h : ∀ t ∈ args, t.IsCanonical) : (b.resultType args).IsCanonical := by
  rw [resultType.eq_def]
  split
  · exact isCanonical_carrier b.result
  · split
    · exact .unknown
    · exact isCanonical_lubAll h
  · cases args with
    | nil => exact .general
    | cons t ts =>
      cases he : t.element? with
      | none => simpa [he] using .general
      | some e => simpa [he] using isCanonical_element? (h t (.head _)) he
  · refine .array ?_
    cases hsecond : args[1]? with
    | none => exact .general
    | some t => exact h t (mem_of_getElem? hsecond)

lemma isCanonical_inferBuiltin {name : String} {form : CallForm} {args : List ValueType}
    {t : ValueType} (hargs : ∀ u ∈ args, u.IsCanonical)
    (h : inferBuiltin name form args = .ok t) : t.IsCanonical := by
  rw [inferBuiltin] at h
  split at h
  · cases h
  · split at h
    · cases h
      exact .unknown
    · split at h
      · cases h
        exact isCanonical_resultType _ hargs
      · cases h

lemma isCanonical_inferApply {target t : ValueType} (htarget : target.IsCanonical)
    (h : inferApply target n = .ok t) : t.IsCanonical := by
  rw [inferApply.eq_def] at h
  split at h <;> cases h
  · cases htarget; assumption
  · cases htarget; assumption
  · exact .general
  · exact .unknown

lemma isCanonical_inferMember {target t : ValueType}
    (htarget : target.IsCanonical) (h : inferMember target label = .ok t) : t.IsCanonical := by
  rw [inferMember.eq_def] at h
  split at h
  · split at h
    · rename_i hlookup
      cases h
      cases htarget with
      | record _ hfs => exact hfs _ (mem_of_lookup hlookup)
    · cases h
  · cases h
    exact .unknown
  · cases h

lemma isCanonical_recordType {gs : FieldTypes} (h : ∀ g ∈ gs, g.2.IsCanonical) :
    (ValueType.record (SortedMap.ofList gs).entries).IsCanonical :=
  .record (entries_increasing _) fun g hg => h g (mem_of_mem_ofList hg)

section Canonical
variable {scope : TypeScope}

def Canonical (scope : TypeScope) (e : Expr) : Prop := ∀ t, infer scope e = .ok t → t.IsCanonical

lemma inferList_isCanonical {ts : List ValueType}
    (h : ∀ d ∈ es, Canonical scope d) (hts : inferList scope es = .ok ts) :
    ∀ t ∈ ts, t.IsCanonical := by
  induction es generalizing ts with
  | nil =>
    cases hts
    exact fun _ ht => by cases ht
  | cons e es ih =>
    obtain ⟨he, hes⟩ := forall_mem_cons.1 h
    obtain ⟨u, hu, us, hus, hts⟩ := bind₂_eq_ok hts
    cases hts
    exact forall_mem_cons.2 ⟨he u hu, ih hes hus⟩

/-- **Where the types of identifiers are canonical, inferred types are.** -/
theorem infer_isCanonical (hscope : ∀ name t, scope name = some t → t.IsCanonical) (e : Expr) :
    Canonical scope e := by
  induction e using walk with (intro t h)
  | literal l =>
    cases h
    exact isCanonical_of_isScalar (type_ofLiteral_isScalar l)
  | ident name =>
    rw [infer] at h
    split at h
    · rename_i u hu
      cases h
      rcases or_eq_some_iff.1 hu with hu | ⟨-, hu⟩
      · exact hscope name t hu
      · obtain ⟨v, hv, rfl⟩ := map_eq_some_iff.1 hu
        exact isCanonical_of_isScalar (isScalar_constant hv)
    · cases h
  | chain e first rest hchain hfirst hrest =>
    rw [infer_of_chain? hchain] at h
    obtain ⟨u, hu, us, hus, h⟩ := bind₂_eq_ok h
    cases h
    exact isCanonical_lubAll
      (forall_mem_cons.2 ⟨hfirst u hu, inferList_isCanonical hrest hus⟩)
  | nothing op =>
    cases h
    exact .general
  | power base exponent hbase _ | shift op base exponent hbase _ =>
    obtain ⟨u, -, h⟩ := bind_eq_ok.1 h
    exact hbase t h
  | relation op lhs rhs _ _ =>
    obtain ⟨u, -, w, -, h⟩ := bind₂_eq_ok h
    cases h
    exact .boolean
  | logic op operands _ =>
    obtain ⟨us, -, h⟩ := bind_eq_ok.1 h
    cases h
    exact .boolean
  | unary op operand hoperand =>
    obtain ⟨u, hu, h⟩ := bind_eq_ok.1 h
    cases h
    split
    · exact .boolean
    · exact hoperand u hu
  | cond test yes no _ hyes hno =>
    obtain ⟨c, -, u, hu, h⟩ := bind₂_eq_ok h
    obtain ⟨w, hw, h⟩ := bind_eq_ok.1 h
    cases h
    exact isCanonical_lub (hyes u hu) (hno w hw)
  | call name args hargs =>
    obtain ⟨us, hus, h⟩ := bind_eq_ok.1 h
    split at h
    · rename_i u hu
      exact isCanonical_inferApply (hscope _ u hu) h
    · exact isCanonical_inferBuiltin (inferList_isCanonical hargs hus) h
  | apply callee args hne hcallee _ =>
    rw [infer_apply hne] at h
    obtain ⟨us, -, u, hu, h⟩ := bind₂_eq_ok h
    exact isCanonical_inferApply (hcallee u hu) h
  | method base name args hbase hargs =>
    obtain ⟨u, hu, us, hus, h⟩ := bind₂_eq_ok h
    exact isCanonical_inferBuiltin
      (forall_mem_cons.2 ⟨hbase u hu, inferList_isCanonical hargs hus⟩) h
  | member base label hbase =>
    obtain ⟨u, hu, h⟩ := bind_eq_ok.1 h
    exact isCanonical_inferMember (hbase u hu) h
  | array elements helements =>
    obtain ⟨us, hus, h⟩ := bind_eq_ok.1 h
    cases h
    exact .array (isCanonical_lubAll (inferList_isCanonical helements hus))
  | record fields hfields =>
    obtain ⟨gs, hgs, h⟩ := bind_eq_ok.1 h
    cases h
    rw [inferFields_eq_zip] at hgs
    obtain ⟨us, hus, rfl⟩ := map_eq_ok.1 hgs
    exact isCanonical_recordType fun g hg =>
      inferList_isCanonical hfields hus g.2 (of_mem_zip hg).2
  | matrix rows hrows =>
    obtain ⟨us, hus, h⟩ := bind_eq_ok.1 h
    cases h
    rw [inferRows_eq_flatten] at hus
    exact .matrix (isCanonical_lubAll (inferList_isCanonical hrows hus))
  | function params body _ =>
    obtain ⟨u, -, h⟩ := bind_eq_ok.1 h
    cases h
    exact .function
end Canonical

section Parts
variable {scope : Scope} {s t : ValueType} {ts : List ValueType} {target : Value} {es : List Expr}

def Sound (run : Evaluator) (scope : Scope) (e : Expr) : Prop :=
  ∀ v t, evaluateWith run scope e = .ok v → infer scope.types e = .ok t → HasType v t

lemma evaluateList_hasType (h : ∀ e ∈ es, Sound run scope e)
    (hvs : evaluateList run scope es = .ok vs)
    (hts : inferList scope.types es = .ok ts) : List.Forall₂ HasType vs ts := by
  induction es generalizing vs ts with
  | nil =>
    cases hvs; cases hts
    exact .nil
  | cons e es ih =>
    obtain ⟨he, hes⟩ := forall_mem_cons.1 h
    obtain ⟨v, hv, vs', hvs', hvs⟩ := bind₂_eq_ok hvs
    obtain ⟨t, ht, ts', hts', hts⟩ := bind₂_eq_ok hts
    cases hvs; cases hts
    exact .cons (he v t hv ht) (ih hes hvs' hts')

lemma chainOp_hasType {op : ChainOp} (ha : HasType a s)
    (hb : HasType b t) (h : op.apply a b = .ok c) : HasType c (s.lub t) := by
  cases op with
  | arith op => exact ha.arith hb h
  | bitwise op => exact ha.bitwise hb h

section Chain
variable {P : Value → ValueType → Prop} {types : TypeScope}
  (hop : ∀ {op : ChainOp} {a b c s t}, P a s → P b t → op.apply a b = .ok c → P c (s.lub t))

include hop

lemma evaluateChain_ensures {es : List (ChainOp × Expr)}
    (h : ∀ e ∈ es.map (·.2), ∀ v t, evaluateWith run scope e = .ok v → infer types e = .ok t → P v t)
    (hacc : P acc s) (hv : evaluateChain run scope acc es = .ok v)
    (hts : inferList types (es.map (·.2)) = .ok ts) : P v (ts.foldl ValueType.lub s) := by
  induction es generalizing acc s ts with
  | nil =>
    cases hv; cases hts
    exact hacc
  | cons e es ih =>
    obtain ⟨op, e⟩ := e
    obtain ⟨he, hes⟩ := forall_mem_cons.1 h
    obtain ⟨w, hw, acc', hacc', hv⟩ := bind₂_eq_ok hv
    obtain ⟨t, ht, ts', hts', hts⟩ := bind₂_eq_ok hts
    cases hts
    rw [foldl_cons]
    exact ih hes (hop hacc (he w t hw ht) hacc') hv hts'

/-- What the operators of a chain keep of their operands holds of the chain. -/
lemma chain_ensures {e : Expr} (hchain : e.chain? = some (first, rest))
    (h : ∀ d ∈ e.parts, ∀ v t, evaluateWith run scope d = .ok v → infer types d = .ok t → P v t)
    (hv : evaluateWith run scope e = .ok v) (ht : infer types e = .ok t) : P v t := by
  rw [parts_of_chain? hchain] at h
  obtain ⟨hfirst, hrest⟩ := forall_mem_cons.1 h
  rw [evaluateWith_of_chain? hchain] at hv
  rw [infer_of_chain? hchain] at ht
  obtain ⟨w, hw, hv⟩ := bind_eq_ok.1 hv
  obtain ⟨s, hs, ts, hts, ht⟩ := bind₂_eq_ok ht
  cases ht
  exact evaluateChain_ensures hop hrest (hfirst w s hw hs) hv hts
end Chain

lemma evaluateLogic_hasType {decisive : Bool}
    (hv : evaluateLogic run scope decisive es = .ok v) : HasType v .boolean := by
  induction es with
  | nil =>
    cases hv
    exact hasType_boolean _
  | cons e es ih =>
    rw [evaluateLogic] at hv
    obtain ⟨w, -, hv⟩ := bind_eq_ok.1 hv
    split at hv
    · split at hv
      · cases hv
        exact hasType_boolean _
      · exact ih hv
    · cases hv

lemma applyValue_hasType {args : List Value}
    (htarget : HasType target s) (hv : applyValue run target args = .ok v)
    (ht : inferApply s args.length = .ok t) : HasType v t := by
  rw [inferApply.eq_def] at ht
  split at ht
  · rename_i e hargs
    cases ht
    obtain ⟨i, rfl⟩ := length_eq_one_iff.1 hargs
    obtain ⟨d, vs, rfl, -⟩ := htarget.array_inv
    rw [applyValue] at hv
    split at hv
    · exact htarget.element hv
    · cases hv
  · rename_i e hargs
    cases ht
    obtain ⟨r, c, rfl⟩ := length_eq_two.1 hargs
    obtain ⟨d, rows, cols, vs, rfl, -⟩ := htarget.matrix_inv
    rw [applyValue] at hv
    split at hv
    · cases hv
    · cases hv
    · exact htarget.matrixElement hv
  · cases ht
    exact .general v
  · cases ht
    exact .unknown v
  · cases ht

lemma field_hasType (htarget : HasType target s) (hv : target.field label = .ok v)
    (ht : inferMember s label = .ok t) : HasType v t := by
  rw [inferMember.eq_def] at ht
  split at ht
  · split at ht
    · rename_i hlookup
      cases ht
      exact htarget.field hlookup hv
    · cases ht
  · cases ht
    exact .unknown v
  · cases ht

lemma compareValues_hasType (h : compareValues op a b = .ok c) : HasType c .boolean := by
  cases op with
  | eq =>
    cases h
    rw [isEqualTo]
    split <;> exact hasType_boolean _
  | ne => exact hasType_not h
  | lt | gt => exact hasType_isLessThan h
  | le | ge =>
    obtain ⟨d, -, h⟩ := bind_eq_ok.1 h
    exact hasType_not h
end Parts

variable {scope : Scope}

lemma types_isCanonical (h : ∀ name v, scope name = some v → v.WellFormed) :
    ∀ name t, scope.types name = some t → t.IsCanonical := by
  intro name t ht
  obtain ⟨v, hv, rfl⟩ := map_eq_some_iff.1 ht
  exact (h name v hv).type_isCanonical

lemma ident_sound (hscope : ∀ name v, scope name = some v → v.WellFormed) (name : String) :
    Sound run scope (.ident name) := by
  intro v t hv ht
  rw [evaluateWith] at hv
  rw [infer] at ht
  cases hs : scope name with
  | some w =>
    simp only [Scope.types, hs, map_some, some_or] at hv ht
    cases hv; cases ht
    exact (hscope name v hs).hasType
  | none =>
    simp only [Scope.types, hs, map_none, none_or] at hv ht
    cases hc : constant? name with
    | none => rw [hc] at hv; cases hv
    | some w =>
      rw [hc] at hv ht
      cases hv; cases ht
      exact hasType_self_of_isScalar (isScalar_constant hc)

/-- What soundness leaves out: powers, and calls of builtins. -/
def IsPlain (scope : Scope) (e : Expr) : Prop :=
  ¬ e.IsPower ∧ ¬ e.CallsBuiltin fun name => (scope name).isSome

section
variable (hscope : ∀ name v, scope name = some v → v.WellFormed)

include hscope

lemma apply_sound {callee : Expr}
    (hplain : IsPlain scope (.apply callee args)) (hcallee : Sound run scope callee)
    (hargs : ∀ e ∈ args, Sound run scope e) : Sound run scope (.apply callee args) := by
  intro v t hv ht
  by_cases hname : ∃ name, callee = .ident name
  · obtain ⟨name, rfl⟩ := hname
    rw [evaluateWith] at hv
    rw [infer] at ht
    obtain ⟨vs, hvs, hv⟩ := bind_eq_ok.1 hv
    obtain ⟨ts, hts, ht⟩ := bind_eq_ok.1 ht
    rw [← (evaluateList_hasType hargs hvs hts).length_eq] at ht
    cases hs : scope name with
    | none => exact absurd hs (by simpa [CallsBuiltin] using hplain.2)
    | some target =>
      simp only [Scope.types, hs, map_some] at hv ht
      exact applyValue_hasType (hscope name target hs).hasType hv ht
  · have hne : ∀ name, callee ≠ .ident name := fun name h => hname ⟨name, h⟩
    rw [evaluateWith_apply hne] at hv
    rw [infer_apply hne] at ht
    obtain ⟨vs, hvs, hv⟩ := bind_eq_ok.1 hv
    obtain ⟨ts, hts, ht⟩ := bind_eq_ok.1 ht
    rw [← (evaluateList_hasType hargs hvs hts).length_eq] at ht
    obtain ⟨target, htarget, hv⟩ := bind_eq_ok.1 hv
    obtain ⟨s, hs, ht⟩ := bind_eq_ok.1 ht
    exact applyValue_hasType (hcallee target s htarget hs) hv ht

/-- **Evaluation stays within the inferred types**, whatever evaluates the bodies of applied
functions. -/
theorem sound_of_everywhere
    {e : Expr}
    (he : e.Everywhere (IsPlain scope)) : Sound run scope e := by
  have hcanon := infer_isCanonical (types_isCanonical hscope)
  induction he with
  | @intro e hplain _ ih =>
    cases e with
    | literal l =>
      intro v t hv ht
      cases hv; cases ht
      exact hasType_self_of_isScalar (type_ofLiteral_isScalar l)
    | ident name => exact ident_sound hscope name
    | sum first rest | product first rest => exact fun _ _ => chain_ensures chainOp_hasType rfl ih
    | power base exponent => exact absurd trivial hplain.1
    | relation op lhs rhs =>
      intro v t hv ht
      obtain ⟨a, -, b, -, hv⟩ := bind₂_eq_ok hv
      obtain ⟨s, -, u, -, ht⟩ := bind₂_eq_ok ht
      cases ht
      exact compareValues_hasType hv
    | logic op operands =>
      intro v t hv ht
      obtain ⟨ts, -, ht⟩ := bind_eq_ok.1 ht
      cases ht
      exact evaluateLogic_hasType hv
    | bitwise op operands =>
      cases operands with
      | nil => exact fun v t hv _ => by cases hv
      | cons first rest => exact fun _ _ => chain_ensures chainOp_hasType rfl ih
    | shift op lhs rhs =>
      intro v t hv ht
      obtain ⟨w, hw, n, -, hv⟩ := bind₂_eq_ok hv
      obtain ⟨s, -, ht⟩ := bind_eq_ok.1 ht
      split at hv
      · exact (ih lhs (.head _) w t hw ht).shift hv
      · cases hv
    | unary op operand =>
      intro v t hv ht
      obtain ⟨w, hw, hv⟩ := bind_eq_ok.1 hv
      obtain ⟨s, hs, ht⟩ := bind_eq_ok.1 ht
      have hws := ih operand (.head _) w s hw hs
      cases op with
      | negate => cases ht; exact hws.negate hv
      | not => cases ht; exact hasType_not hv
      | bitwiseNot => cases ht; exact hws.bitwiseNot hv
    | cond test yes no =>
      intro v t hv ht
      obtain ⟨c, -, hv⟩ := bind_eq_ok.1 hv
      obtain ⟨s, -, ht⟩ := bind_eq_ok.1 ht
      obtain ⟨y, hy, n, hn, ht⟩ := bind₂_eq_ok ht
      cases ht
      split at hv
      · exact (ih yes (by simp [parts]) v y hv hy).mono
          (leq_lub_left (hcanon yes y hy) n)
      · exact (ih no (by simp [parts]) v n hv hn).mono (leq_lub_right y n)
      · cases hv
    | apply callee args =>
      obtain ⟨hcallee, hargs⟩ := forall_mem_cons.1 ih
      exact apply_sound hscope hplain hcallee hargs
    | method base name args => exact absurd trivial hplain.2
    | member base label =>
      intro v t hv ht
      obtain ⟨w, hw, hv⟩ := bind_eq_ok.1 hv
      obtain ⟨s, hs, ht⟩ := bind_eq_ok.1 ht
      exact field_hasType (ih base (.head _) w s hw hs) hv ht
    | array elements =>
      intro v t hv ht
      obtain ⟨vs, hvs, hv⟩ := bind_eq_ok.1 hv
      obtain ⟨ts, hts, ht⟩ := bind_eq_ok.1 ht
      cases hv; cases ht
      obtain ⟨helem, hnil⟩ := lubAll_of_forall₂ (fun h => h.mono)
        (evaluateList_hasType ih hvs hts) (inferList_isCanonical (fun d _ => hcanon d) hts)
      exact hasType_arrayOf helem hnil
    | record fields =>
      intro v t hv ht
      obtain ⟨fs, hfs, hv⟩ := bind_eq_ok.1 hv
      obtain ⟨gs, hgs, ht⟩ := bind_eq_ok.1 ht
      cases hv; cases ht
      rw [evaluateFields_eq_zip] at hfs
      rw [inferFields_eq_zip] at hgs
      obtain ⟨vs, hvs, rfl⟩ := map_eq_ok.1 hfs
      obtain ⟨ts, hts, rfl⟩ := map_eq_ok.1 hgs
      exact hasType_recordOf (forall₂_zip _ (evaluateList_hasType ih hvs hts))
    | matrix rows =>
      intro v t hv ht
      obtain ⟨vs, hvs, hv⟩ := bind_eq_ok.1 hv
      obtain ⟨ts, hts, ht⟩ := bind_eq_ok.1 ht
      cases hv; cases ht
      rw [evaluateRows_eq_flatten] at hvs
      rw [inferRows_eq_flatten] at hts
      obtain ⟨helem, hnil⟩ := lubAll_of_forall₂ (fun h => h.mono)
        (evaluateList_hasType ih hvs hts) (inferList_isCanonical (fun d _ => hcanon d) hts)
      exact hasType_matrixOf helem hnil _ _
    | function params body =>
      intro v t hv ht
      obtain ⟨u, -, ht⟩ := bind_eq_ok.1 ht
      cases hv; cases ht
      exact .function
end

/-- **Type soundness.**  Let identifiers be bound to well-formed values, and let neither a
power nor a call of a builtin stand in `e` outside the bodies of its function literals. If
`e` has a value, and has a type under the types of those values, then the type of the value
lies below it. -/
theorem evaluate_type_leq_infer {scope : Scope} {e : Expr} {v : Value} {t : ValueType}
    (hscope : ∀ name w, scope name = some w → w.WellFormed) (he : e.Everywhere (IsPlain scope))
    (hv : evaluate scope e = .ok v) (ht : infer scope.types e = .ok t) : v.type.leq t :=
  (sound_of_everywhere hscope he v t hv ht).type_leq

/-- An array of integers and one of longs, added, under a condition: the other branch makes the
inferred type wider than that of the value. -/
theorem evaluate_type_leq_infer_of_sum :
    let scope : Scope := fun name =>
      if name = "x" then some (.array .int [.int 1, .int 2]) else none
    let e : Expr := .cond (.literal (.boolean true))
      (.sum (.ident "x") [(.add, .array [.literal (.long 3), .literal (.long 4)])])
      (.array [.literal (.string "")])
    evaluate scope e = .ok (.array .long [.long 4, .long 6]) ∧
      infer scope.types e = .ok (.array .string) ∧
      (ValueType.array .long).leq (.array .string) := by
  intro scope e
  have hv : evaluate scope e = .ok (.array .long [.long 4, .long 6]) := rfl
  have ht : infer scope.types e = .ok (.array .string) := rfl
  have hscope : ∀ name w, scope name = some w → w.WellFormed := by
    intro name w hw
    obtain ⟨-, rfl⟩ : name = "x" ∧ Value.array .int [.int 1, .int 2] = w := by
      simpa [scope] using hw
    refine .array .int ?_ ?_ (by simp) <;> simp only [forall_mem_cons] <;> simp [Value.type]
    · exact ⟨.scalar rfl, .scalar rfl⟩
    · decide
  have hlit : ∀ l, (Expr.literal l).Everywhere (IsPlain scope) := fun l =>
    .intro ⟨id, id⟩ (by simp [parts])
  have hx : (Expr.ident "x").Everywhere (IsPlain scope) := .intro ⟨id, id⟩ (by simp [parts])
  have harray : ∀ ls : List Literal,
      (Expr.array (ls.map .literal)).Everywhere (IsPlain scope) := fun ls =>
    .intro ⟨id, id⟩ (by simp [parts, hlit])
  have hplain : e.Everywhere (IsPlain scope) := by
    refine .intro ⟨id, id⟩ ?_
    simp only [e, parts, forall_mem_cons]
    refine ⟨hlit _, .intro ⟨id, id⟩ ?_, harray [.string ""], by simp⟩
    simp only [parts, map_cons, map_nil, forall_mem_cons]
    exact ⟨hx, harray [.long 3, .long 4], by simp⟩
  exact ⟨hv, ht, evaluate_type_leq_infer hscope hplain hv ht⟩
end Expr
end DataflowSpecializer
