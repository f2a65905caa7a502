import DataflowSpecializer.Proofs.Expression.Soundness
import DataflowSpecializer.Proofs.Value.Lattice

/-! # The results of builtins -/
namespace DataflowSpecializer
open List ValueType Value
open Value (HasType)

variable {b : Builtin} {name : String}

namespace Carrier
lemma scalarLeq_of_accepts {k : Carrier} {t : ValueType} (hk : k.valueType.isNativeNumeric)
    (h : k.accepts t) : scalarLeq t k.valueType := by
  cases k <;> cases hk <;> cases t <;> cases h <;> rfl
end Carrier

namespace Builtin
variable {args : List Value} {v : Value} {form : CallForm} {k : Carrier} {count value : Value}
  {vs : List Value} {e : ValueType}

def KeepsRule (b : Builtin) : Prop :=
  ∀ {form : CallForm} {args : List Value} {v : Value}, (∀ a ∈ args, a.WellFormed) →
    b.accepts form (args.map Value.type) → b.evaluate args = .ok v →
      v.type.leq (b.resultType (args.map Value.type))

lemma params_accept (h : b.accepts form (args.map Value.type)) :
    List.Forall₂ (fun k a => k.accepts a.type) b.params args := by
  simp only [accepts, Bool.and_eq_true, beq_iff_eq, all_eq_true] at h
  obtain ⟨⟨-, hlength⟩, hall⟩ := h
  have hzip : List.Forall₂ (fun k t => Carrier.accepts k t) b.params (args.map Value.type) :=
    forall₂_iff_zip.2 ⟨hlength, fun hmem => hall _ hmem⟩
  exact forall₂_map_right_iff.1 hzip

lemma exists_arg (hparams : b.params = [k]) (h : b.accepts form (args.map Value.type)) :
    ∃ a, args = [a] ∧ k.accepts a.type := by
  have hargs := params_accept h
  rw [hparams] at hargs
  obtain ⟨a, _, ha, hnil, rfl⟩ := forall₂_cons_left_iff.1 hargs
  rw [forall₂_nil_left_iff.1 hnil]
  exact ⟨a, rfl, ha⟩

lemma exists_args {k l : Carrier} (hparams : b.params = [k, l])
    (h : b.accepts form (args.map Value.type)) :
    ∃ a c, args = [a, c] ∧ k.accepts a.type ∧ l.accepts c.type := by
  have hargs := params_accept h
  rw [hparams] at hargs
  obtain ⟨a, _, ha, hrest, rfl⟩ := forall₂_cons_left_iff.1 hargs
  obtain ⟨c, _, hc, hnil, rfl⟩ := forall₂_cons_left_iff.1 hrest
  rw [forall₂_nil_left_iff.1 hnil]
  exact ⟨a, c, rfl, ha, hc⟩

lemma keepsRule_of_type (hrule : b.rule = .fixed)
    (h : ∀ {args v}, b.evaluate args = .ok v → v.type = b.result.valueType) : b.KeepsRule := by
  intro form args v _ _ hv
  rw [h hv, resultType.eq_def, hrule]
  exact leq_refl (Expr.isCanonical_carrier b.result)

lemma evalReal_type (h : evalReal name f args = .ok v) : v.type = .double := by
  obtain ⟨x, -, h⟩ := bind_eq_ok.1 h
  cases h
  rfl

lemma evalReal2_type (h : evalReal2 name f args = .ok v) : v.type = .double := by
  obtain ⟨x, -, y, -, h⟩ := bind₂_eq_ok h
  cases h
  rfl

lemma evalRound_type (h : evalRound args = .ok v) : v.type = .long := by
  obtain ⟨x, -, h⟩ := bind_eq_ok.1 h
  cases h
  rfl

lemma evalConjugate_type (h : evalConjugate args = .ok v) : v.type = .complex := by
  rw [evalConjugate.eq_def] at h
  split at h
  · obtain ⟨w, -, h⟩ := bind_eq_ok.1 h
    split at h
    · cases h
      rfl
    · cases h
  · cases h

lemma evalZeroMatrix_type (h : evalZeroMatrix args = .ok v) : v.type = .matrix .double := by
  rw [evalZeroMatrix.eq_def] at h
  split at h
  · obtain ⟨rows, -, cols, -, h⟩ := bind₂_eq_ok h
    obtain ⟨n, -, h⟩ := bind_eq_ok.1 h
    cases h
    rfl
  · cases h

lemma evalLength_type (h : evalLength args = .ok v) : v.type = .int := by
  rw [evalLength.eq_def] at h
  split at h
  · rename_i x
    cases x <;> cases h <;> rfl
  · cases h

lemma evalToString_type (h : evalToString args = .ok v) : v.type = .string := by
  rw [evalToString.eq_def] at h
  split at h <;> cases h
  rfl

lemma none_keepsRule {className : String} {params : List Carrier} {result : Carrier} :
    (function name params result className (evalNone name)).KeepsRule := by
  intro form args v _ _ hv
  cases hv

lemma abs_keepsRule (hk : k.valueType.isNativeNumeric) :
    (function "abs" [k] k Platform.math evalAbs).KeepsRule := by
  intro form args v _ haccepts hv
  obtain ⟨x, rfl, hx⟩ := exists_arg rfl haccepts
  have hle := k.scalarLeq_of_accepts hk hx
  have hty : v.type = x.type := by
    cases x with
    | ubyte | int | long | double => cases hv; rfl
    | complex => cases k <;> cases hk <;> cases hx
    | _ => cases hv
  show v.type.leq k.valueType
  rw [hty, leq_eq_scalarLeq (scalarLeq_isScalar hle).2]
  exact hle

lemma choice_keepsRule
    {evaluate : List Value → Outcome} (hk : k.valueType.isNativeNumeric)
    (hchoice : ∀ {a b v}, evaluate [a, b] = .ok v →
      ∃ c, (c = a ∨ c = b) ∧ c.convert (a.type.lub b.type) = .ok v) :
    (function name [k, k] k Platform.math evaluate).KeepsRule := by
  intro form args v _ haccepts hv
  obtain ⟨a, b, rfl, ha, hb⟩ := exists_args rfl haccepts
  obtain ⟨c, hc, hconvert⟩ := hchoice hv
  have ha := k.scalarLeq_of_accepts hk ha
  have hb := k.scalarLeq_of_accepts hk hb
  have hct : HasType c k.valueType := by
    rcases hc with rfl | rfl
    · exact .scalar ha
    · exact .scalar hb
  have hlub : (a.type.lub b.type).leq k.valueType := by
    have hscalar := (scalarLeq_isScalar ha).2
    rw [← leq_eq_scalarLeq hscalar] at ha hb
    exact lub_least ha hb
  exact (hct.convert hconvert hlub).type_leq

lemma evalMin_choice {a b : Value} (h : evalMin [a, b] = .ok v) :
    ∃ c, (c = a ∨ c = b) ∧ c.convert (a.type.lub b.type) = .ok v := by
  obtain ⟨less, -, h⟩ := bind_eq_ok.1 h
  exact ⟨_, (ite_eq_or_eq _ b a).symm, h⟩

lemma evalMax_choice {a b : Value} (h : evalMax [a, b] = .ok v) :
    ∃ c, (c = a ∨ c = b) ∧ c.convert (a.type.lub b.type) = .ok v := by
  obtain ⟨less, -, h⟩ := bind_eq_ok.1 h
  exact ⟨_, (ite_eq_or_eq _ b a).symm, h⟩

lemma arithmetic_keepsRule (op : ArithOp) : (arithmetic op).KeepsRule := by
  intro form args v hargs haccepts hv
  obtain ⟨a, b, rfl, -, -⟩ := exists_args rfl haccepts
  have ha := (hargs a (.head _)).hasType
  have hb := (hargs b (.tail _ (.head _))).hasType
  exact (ha.arith hb hv).type_leq

lemma foldlM_add_hasType (he : e.IsCanonical) (hvs : ∀ w ∈ vs, HasType w e) :
    ∀ {acc : Value}, HasType acc e → vs.foldlM Value.add acc = .ok v → HasType v e := by
  induction vs with
  | nil =>
    intro acc hacc h
    cases h
    exact hacc
  | cons w vs ih =>
    intro acc hacc h
    rw [foldlM_cons] at h
    obtain ⟨acc', hadd, h⟩ := bind_eq_ok.1 h
    obtain ⟨hw, hvs⟩ := forall_mem_cons.1 hvs
    have hacc' := hacc.arith hw hadd
    rw [lub_self he] at hacc'
    exact ih hvs hacc' h

lemma evalSum_hasType (hvs : (Value.array e vs).WellFormed)
    (h : evalSum [.array e vs] = .ok v) : HasType v e := by
  cases hvs with
  | scalar hscalar => cases hscalar
  | array he hwf hle hnil =>
    cases vs with
    | nil => exact hasType_of_top (hnil rfl)
    | cons first rest =>
      have hall : ∀ w ∈ first :: rest, HasType w e := fun w hw => (hwf w hw).hasType.mono (hle w hw)
      obtain ⟨hfirst, hrest⟩ := forall_mem_cons.1 hall
      exact foldlM_add_hasType he hrest hfirst h

lemma sum_keepsRule :
    Builtin.KeepsRule { function "sum" [.tokenArray] .token Platform.utilityFunctions evalSum with
      rule := .elementOfFirst } := by
  intro form args v hargs haccepts hv
  obtain ⟨x, rfl, hx⟩ := exists_arg rfl haccepts
  cases x with
  | array e vs => exact (evalSum_hasType (hargs _ (.head _)) hv).type_leq
  | _ => cases hx

def repetition : Builtin :=
  { function "repeat" [.int, .token] .array Platform.utilityFunctions evalRepeat with
    rule := .arrayOfSecond }

/-- A call of `repeat` with count zero. -/
def RepeatsNothing (b : Builtin) (args : List Value) : Prop :=
  b.name = "repeat" ∧ args.head?.bind toInt? = some 0

lemma elementCount_eq_ok {rows cols : Int32}
    (h : elementCount what rows cols = .ok n) : n = rows.toInt.toNat * cols.toInt.toNat := by
  simp only [elementCount] at h
  split at h
  · cases h
  · split at h <;> cases h
    rfl

lemma evalRepeat_eq_ok (h : evalRepeat [count, value] = .ok v) :
    ∃ n, count.toInt? = some n ∧ ¬n < 0 ∧ v = .arrayOf (replicate n.toInt.toNat value) := by
  obtain ⟨n, hn, h⟩ := bind_eq_ok.1 h
  have hcount : count.toInt? = some n := by
    rw [intArg] at hn
    split at hn
    · rename_i k hk
      cases hn
      exact hk
    · cases hn
  split at h
  · cases h
  · rename_i hneg
    obtain ⟨k, hk, h⟩ := bind_eq_ok.1 h
    cases h
    refine ⟨n, hcount, hneg, ?_⟩
    rw [elementCount_eq_ok hk]
    simp

lemma array_general_leq (v : Value) : (ValueType.array .general).leq (.array v.type) = false := by
  cases v <;> rfl

lemma evalRepeat_type_leq_iff (hvalue : value.WellFormed) (h : evalRepeat [count, value] = .ok v) :
    v.type.leq (.array value.type) ↔ count.toInt? ≠ some 0 := by
  obtain ⟨n, hn, hneg, rfl⟩ := evalRepeat_eq_ok h
  rw [hn]
  by_cases hzero : n = 0
  · subst hzero
    exact iff_of_false (by rw [Bool.not_eq_true]; exact array_general_leq value) (by simp)
  · have hpos : n.toInt.toNat ≠ 0 := by
      rw [Int32.lt_iff_toInt_lt] at hneg
      rw [← Int32.toInt_inj] at hzero
      simp at hneg hzero
      omega
    refine iff_of_true (hasType_arrayOf (fun w hw => ?_) fun hnil => ?_).type_leq
      (by simpa using hzero)
    · rw [eq_of_mem_replicate hw]
      exact hvalue.hasType
    · exact absurd (replicate_eq_nil_iff value |>.mp hnil) hpos

lemma keepsRule_of_mem_table : ∀ b ∈ table, b.name ≠ "repeat" → b.KeepsRule := by
  have hreal (name : String) (f : Float → Float) :
      (real name f).name ≠ "repeat" → (real name f).KeepsRule :=
    fun _ => keepsRule_of_type rfl evalReal_type
  have hreal2 (name : String) (f : Float → Float → Float) :
      (real2 name f).name ≠ "repeat" → (real2 name f).KeepsRule :=
    fun _ => keepsRule_of_type rfl evalReal2_type
  have hmin {k : Carrier} (hk : k.valueType.isNativeNumeric) :
      "min" ≠ "repeat" → (function "min" [k, k] k Platform.math evalMin).KeepsRule :=
    fun _ => choice_keepsRule hk evalMin_choice
  have hmax {k : Carrier} (hk : k.valueType.isNativeNumeric) :
      "max" ≠ "repeat" → (function "max" [k, k] k Platform.math evalMax).KeepsRule :=
    fun _ => choice_keepsRule hk evalMax_choice
  have harith (op : ArithOp) : (arithmetic op).name ≠ "repeat" → (arithmetic op).KeepsRule :=
    fun _ => arithmetic_keepsRule op
  -- One family for each entry, in the order of the table.
  simp only [table, forall_mem_cons]
  refine ⟨hreal _ _, hreal _ _, hreal _ _, hreal _ _, hreal _ _, hreal _ _, hreal _ _, hreal _ _,
    hreal _ _, hreal _ _, hreal _ _, hreal _ _, hreal2 _ _, hreal2 _ _,
    fun _ => abs_keepsRule rfl, fun _ => abs_keepsRule rfl, fun _ => abs_keepsRule rfl,
    fun _ => keepsRule_of_type rfl evalRound_type,
    hmin rfl, hmin rfl, hmin rfl, hmax rfl, hmax rfl, hmax rfl,
    fun _ => keepsRule_of_type rfl evalConjugate_type,
    fun _ => none_keepsRule,
    fun _ => keepsRule_of_type rfl evalZeroMatrix_type,
    fun _ => none_keepsRule,
    fun _ => sum_keepsRule, fun h => absurd rfl h,
    fun _ => keepsRule_of_type rfl evalLength_type,
    fun _ => keepsRule_of_type rfl evalToString_type,
    harith _, harith _, harith _, harith _, ?_⟩
  exact fun b hb => absurd hb not_mem_nil

lemma eq_repetition_of_mem_table (hb : b ∈ table) (hname : b.name = "repeat") : b = repetition := by
  have hfilter : table.filter (·.name == "repeat") = [repetition] := rfl
  have hmem : b ∈ table.filter (·.name == "repeat") := mem_filter.2 ⟨hb, by simp [hname]⟩
  rw [hfilter] at hmem
  exact mem_singleton.1 hmem

/-- **A call has the type that its entry promises, unless it repeats a value no times.** -/
theorem evaluate_type_leq_result_iff {name : String} {form : CallForm} {args : List Value}
    {b : Builtin} {v : Value} (hargs : ∀ a ∈ args, a.WellFormed)
    (hlookup : lookup? name form (args.map Value.type) = some b) (hv : b.evaluate args = .ok v) :
    v.type.leq (b.resultType (args.map Value.type)) ↔ ¬b.RepeatsNothing args := by
  have hmem : b ∈ table := mem_of_find?_eq_some hlookup
  have haccepts : b.accepts form (args.map Value.type) := by
    have hfound := find?_some hlookup
    simp only [Bool.and_eq_true] at hfound
    exact hfound.2
  by_cases hname : b.name = "repeat"
  · obtain rfl := eq_repetition_of_mem_table hmem hname
    obtain ⟨count, value, rfl, -, -⟩ := exists_args rfl haccepts
    refine (evalRepeat_type_leq_iff (hargs value (by simp)) hv).trans (not_congr ?_)
    simp [RepeatsNothing, hname]
  · exact iff_of_true (keepsRule_of_mem_table b hmem hname hargs haccepts hv) fun h => hname h.1

theorem evaluate_type_leq_result_of_pair :
    lookup? "repeat" .function [.int, .int] = some repetition ∧
      repetition.evaluate [.int 2, .int 7] = .ok (.array .int [.int 7, .int 7]) ∧
      (ValueType.array .int).leq (repetition.resultType [.int, .int]) := by
  have hlookup : lookup? "repeat" .function [.int, .int] = some repetition := rfl
  have hv : repetition.evaluate [.int 2, .int 7] = .ok (.array .int [.int 7, .int 7]) := rfl
  have hargs : ∀ a ∈ [Value.int 2, .int 7], a.WellFormed := by
    intro a ha
    obtain rfl | rfl : a = .int 2 ∨ a = .int 7 := by simpa using ha
    all_goals exact .scalar rfl
  refine ⟨hlookup, hv, (evaluate_type_leq_result_iff hargs hlookup hv).2 fun h => ?_⟩
  exact absurd h.2 (by decide)

/-- Seven, no times. -/
theorem evaluate_type_above_result_of_empty :
    lookup? "repeat" .function [.int, .int] = some repetition ∧
      repetition.evaluate [.int 0, .int 7] = .ok (.array .general []) ∧
      (ValueType.array .general).leq (repetition.resultType [.int, .int]) = false :=
  ⟨rfl, rfl, rfl⟩
end Builtin
end DataflowSpecializer
