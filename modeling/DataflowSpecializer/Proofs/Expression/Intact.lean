import DataflowSpecializer.Proofs.Builtin.Results
import DataflowSpecializer.Proofs.Value.Intact

/-! # Evaluation gives intact values

A spelled expression over intact values evaluates to an intact value: literals, chains, calls of
builtins and applications of functions build nothing else.
-/
namespace DataflowSpecializer
open List Option Value

variable {args : List Value} {v : Value}

def Scope.Intact (scope : Scope) : Prop := ∀ name v, scope name = some v → v.Intact

namespace Builtin
def KeepsIntact (b : Builtin) : Prop :=
  ∀ args v, (∀ a ∈ args, a.Intact) → b.evaluate args = .ok v → v.Intact

lemma keepsIntact_of_type {b : Builtin} {t : ValueType} (ht : t.isScalar)
    (h : ∀ {args v}, b.evaluate args = .ok v → v.type = t) : b.KeepsIntact :=
  fun _ _ _ hv => .scalar (h hv ▸ ht)

lemma evalAbs_intact (h : evalAbs args = .ok v) : v.Intact := by
  rw [evalAbs.eq_def] at h
  split at h
  · rename_i x
    cases x <;> cases h <;> exact .scalar rfl
  · cases h

lemma choice_keepsIntact {b : Builtin} (hchoice : ∀ args v, b.evaluate args = .ok v →
      ∃ a d, args = [a, d] ∧ ∃ c, (c = a ∨ c = d) ∧ c.convert (a.type.lub d.type) = .ok v) :
    b.KeepsIntact := by
  intro args v hargs hv
  obtain ⟨a, d, rfl, c, hc, hconvert⟩ := hchoice args v hv
  obtain ⟨ha, hrest⟩ := forall_mem_cons.1 hargs
  have hd := hrest d (.head _)
  have hjoin := ValueType.isCanonical_lub ha.type_isCanonical hd.type_isCanonical
  rcases hc with rfl | rfl
  · exact (ha.convert hjoin hconvert).1
  · exact (hd.convert hjoin hconvert).1

lemma evalZeroMatrix_intact (h : evalZeroMatrix args = .ok v) : v.Intact := by
  rw [evalZeroMatrix.eq_def] at h
  split at h
  · obtain ⟨rows, -, cols, -, h⟩ := bind₂_eq_ok h
    obtain ⟨n, hn, h⟩ := bind_eq_ok.1 h
    cases h
    refine .matrix .double (by rw [length_replicate, elementCount_eq_ok hn])
      (fun w hw => ?_) fun w hw => ?_
    · rw [eq_of_mem_replicate hw]
      exact .scalar rfl
    · rw [eq_of_mem_replicate hw]
      rfl
  · cases h

section
variable (hargs : ∀ a ∈ args, a.Intact)

include hargs

lemma evalSum_intact (h : evalSum args = .ok v) : v.Intact := by
  rw [evalSum.eq_def] at h
  split at h
  · cases h
    exact .scalar rfl
  · rename_i e first rest
    have hparts : ∀ w ∈ first :: rest, w.Intact := by
      cases hargs _ (.head _) with
      | scalar hscalar => cases hscalar
      | array _ hvs _ => exact hvs
    obtain ⟨hfirst, hrest⟩ := forall_mem_cons.1 hparts
    clear hargs hparts
    induction rest generalizing first with
    | nil =>
      cases h
      exact hfirst
    | cons w rest ih =>
      rw [foldlM_cons] at h
      obtain ⟨acc, hacc, h⟩ := bind_eq_ok.1 h
      obtain ⟨hw, hrest⟩ := forall_mem_cons.1 hrest
      exact ih acc h (hfirst.arith hw hacc) hrest
  · cases h

lemma evalRepeat_intact (h : evalRepeat args = .ok v) : v.Intact := by
  rw [evalRepeat.eq_def] at h
  split at h
  · rename_i count value
    obtain ⟨n, -, -, rfl⟩ := evalRepeat_eq_ok h
    refine intact_arrayOf fun w hw => ?_
    rw [eq_of_mem_replicate hw]
    exact hargs value (by simp)
  · cases h

lemma evalArith_intact (h : evalArith op args = .ok v) : v.Intact := by
  rw [evalArith.eq_def] at h
  split at h
  · exact (hargs _ (by simp)).arith (hargs _ (by simp)) h
  · cases h
end

lemma keepsIntact_of_mem_table : ∀ b ∈ table, b.KeepsIntact := by
  have hreal (name : String) (f : Float → Float) : (real name f).KeepsIntact :=
    keepsIntact_of_type rfl evalReal_type
  have hreal2 (name : String) (f : Float → Float → Float) : (real2 name f).KeepsIntact :=
    keepsIntact_of_type rfl evalReal2_type
  have hnone (name : String) (params : List Carrier) (result : Carrier) (className : String) :
      (function name params result className (evalNone name)).KeepsIntact :=
    fun _ _ _ h => by cases h
  have hmin (params : List Carrier) (result : Carrier) :
      (function "min" params result Platform.math evalMin).KeepsIntact := by
    refine choice_keepsIntact fun args v h => ?_
    unfold function evalMin at h
    simp only at h
    split at h
    · exact ⟨_, _, rfl, evalMin_choice h⟩
    · cases h
  have hmax (params : List Carrier) (result : Carrier) :
      (function "max" params result Platform.math evalMax).KeepsIntact := by
    refine choice_keepsIntact fun args v h => ?_
    unfold function evalMax at h
    simp only at h
    split at h
    · exact ⟨_, _, rfl, evalMax_choice h⟩
    · cases h
  have harith (op : ArithOp) : (arithmetic op).KeepsIntact :=
    fun _ _ hargs h => evalArith_intact hargs h
  -- One family for each entry, in the order of the table.
  simp only [table, forall_mem_cons]
  refine ⟨hreal _ _, hreal _ _, hreal _ _, hreal _ _, hreal _ _, hreal _ _, hreal _ _, hreal _ _,
    hreal _ _, hreal _ _, hreal _ _, hreal _ _, hreal2 _ _, hreal2 _ _,
    fun _ _ _ h => evalAbs_intact h, fun _ _ _ h => evalAbs_intact h,
    fun _ _ _ h => evalAbs_intact h, keepsIntact_of_type rfl evalRound_type,
    hmin _ _, hmin _ _, hmin _ _, hmax _ _, hmax _ _, hmax _ _,
    keepsIntact_of_type rfl evalConjugate_type, hnone _ _ _ _,
    fun _ _ _ h => evalZeroMatrix_intact h, hnone _ _ _ _,
    fun _ _ hargs h => evalSum_intact hargs h, fun _ _ hargs h => evalRepeat_intact hargs h,
    keepsIntact_of_type rfl evalLength_type, keepsIntact_of_type rfl evalToString_type,
    harith _, harith _, harith _, harith _, ?_⟩
  exact fun b hb => absurd hb not_mem_nil
end Builtin

namespace Expr
lemma callBuiltin_intact
    (hargs : ∀ a ∈ args, a.Intact) (h : callBuiltin name form args = .ok v) : v.Intact := by
  rw [callBuiltin] at h
  split at h
  · cases h
  · split at h
    · rename_i b hb
      exact Builtin.keepsIntact_of_mem_table b (mem_of_find?_eq_some hb) args v hargs h
    · cases h

section Run
variable {run : Evaluator} {scope : Scope}
  (hrun : ∀ scope e v, scope.Intact → e.Spelled → run scope e = .ok v → v.Intact)

include hrun

lemma applyValue_intact {target : Value} (htarget : target.Intact)
    (hargs : ∀ a ∈ args, a.Intact) (h : applyValue run target args = .ok v) : v.Intact := by
  rw [applyValue.eq_def] at h
  split at h
  · split at h
    · exact htarget.element h
    · cases h
  · split at h
    · cases h
    · cases h
    · exact htarget.matrixElement h
  · split at h
    · cases h
    · obtain ⟨bindings, hbindings, h⟩ := bind_eq_ok.1 h
      cases htarget with
      | scalar hscalar => cases hscalar
      | function hspelled hcaptured =>
        refine hrun _ _ _ (fun name w hw => ?_) hspelled.body h
        rcases or_eq_some_iff.1 hw with hw | ⟨-, hw⟩
        · -- An argument, as it is or converted to the type of its parameter.
          obtain ⟨⟨param, arg⟩, hmem, hbound⟩ := exists_of_forall₂ (forall₂_of_mapM hbindings)
            (mem_reverse.1 (mem_of_lookup hw))
          have harg := hargs arg (of_mem_zip hmem).2
          simp only at hbound
          split at hbound
          · rename_i t ht
            obtain ⟨u, hu, heq⟩ := map_eq_ok.1 hbound
            cases heq
            exact (harg.convert (hspelled.regular param (of_mem_zip hmem).1 t ht) hu).1
          · cases hbound
            exact harg
        · exact hcaptured _ (mem_of_lookup hw)
  · cases h

variable (hscope : scope.Intact)

include hscope

omit hrun hscope in
lemma evaluateList_intact (h : ∀ e ∈ es, ∀ v, evaluateWith run scope e = .ok v → v.Intact)
    (hvs : evaluateList run scope es = .ok vs) : ∀ v ∈ vs, v.Intact := by
  rw [evaluateList_eq_mapM] at hvs
  intro v hv
  obtain ⟨e, he, hev⟩ := exists_of_forall₂ (forall₂_of_mapM hvs) hv
  exact h e he v hev

omit hrun hscope in
lemma evaluateChain_intact {es : List (ChainOp × Expr)} {acc : Value}
    (h : ∀ e ∈ es.map (·.2), ∀ v, evaluateWith run scope e = .ok v → v.Intact)
    (hacc : acc.Intact) (hv : evaluateChain run scope acc es = .ok v) : v.Intact := by
  induction es generalizing acc with
  | nil =>
    cases hv
    exact hacc
  | cons x es ih =>
    obtain ⟨op, e⟩ := x
    rw [evaluateChain] at hv
    obtain ⟨w, hw, acc', hacc', hv⟩ := bind₂_eq_ok hv
    obtain ⟨he, hes⟩ := forall_mem_cons.1 h
    refine ih hes ?_ hv
    cases op with
    | arith op => exact hacc.arith (he w hw) hacc'
    | bitwise op => exact intact_bitwise hacc'

lemma evaluateWith_intact (e : Expr) (he : e.Spelled) :
    ∀ v, evaluateWith run scope e = .ok v → v.Intact := by
  induction e using walk with (intro v hv)
  | literal l =>
    cases hv
    exact .scalar (type_ofLiteral_isScalar l)
  | ident name =>
    rw [evaluateWith] at hv
    split at hv <;> cases hv
    rename_i hname
    rcases or_eq_some_iff.1 hname with hname | ⟨-, hname⟩
    · exact hscope name v hname
    · exact .scalar (isScalar_constant hname)
  | chain e first rest hchain hfirst hrest =>
    rw [evaluateWith_of_chain? hchain] at hv
    obtain ⟨w, hw, hv⟩ := bind_eq_ok.1 hv
    have hparts := parts_of_chain? hchain
    refine evaluateChain_intact (fun d hd => hrest d hd (he.part ?_)) (hfirst (he.part ?_) w hw) hv
    · exact hparts ▸ mem_cons_of_mem first hd
    · exact hparts ▸ mem_cons_self
  | nothing op => cases hv
  | power base exponent _ _ =>
    rw [evaluateWith] at hv
    obtain ⟨b, -, n, -, hv⟩ := bind₂_eq_ok hv
    split at hv
    · exact .scalar (pow_isScalar hv).2
    · cases hv
  | relation op lhs rhs _ _ =>
    rw [evaluateWith] at hv
    obtain ⟨a, -, b, -, hv⟩ := bind₂_eq_ok hv
    exact intact_of_hasType_boolean (compareValues_hasType hv)
  | logic op operands _ => exact intact_of_hasType_boolean (evaluateLogic_hasType hv)
  | shift op lhs rhs _ _ =>
    rw [evaluateWith] at hv
    obtain ⟨a, -, b, -, hv⟩ := bind₂_eq_ok hv
    split at hv
    · cases a <;> cases hv <;> exact .scalar rfl
    · cases hv
  | unary op operand ih =>
    rw [evaluateWith] at hv
    obtain ⟨a, ha, hv⟩ := bind_eq_ok.1 hv
    cases op with
    | negate => exact (ih (he.part (by simp [parts])) a ha).negate hv
    | not => exact intact_of_hasType_boolean (hasType_not hv)
    | bitwiseNot => cases a <;> cases hv <;> exact .scalar rfl
  | cond test yes no _ hyes hno =>
    rw [evaluateWith] at hv
    obtain ⟨c, -, hv⟩ := bind_eq_ok.1 hv
    split at hv
    · exact hyes (he.part (by simp [parts])) v hv
    · exact hno (he.part (by simp [parts])) v hv
    · cases hv
  | call name args hargs =>
    rw [evaluateWith] at hv
    obtain ⟨vs, hvs, hv⟩ := bind_eq_ok.1 hv
    have hvs := evaluateList_intact (fun d hd => hargs d hd (he.part (.tail _ hd))) hvs
    simp only at hv
    split at hv
    · rename_i htarget
      exact applyValue_intact hrun (hscope name _ htarget) hvs hv
    · exact callBuiltin_intact hvs hv
  | apply callee args hcallee ih hargs =>
    rw [evaluateWith_apply hcallee] at hv
    obtain ⟨vs, hvs, target, htarget, hv⟩ := bind₂_eq_ok hv
    have hvs := evaluateList_intact (fun d hd => hargs d hd (he.part (.tail _ hd))) hvs
    exact applyValue_intact hrun (ih (he.part (.head _)) target htarget) hvs hv
  | method base name args ih hargs =>
    rw [evaluateWith] at hv
    obtain ⟨receiver, hreceiver, vs, hvs, hv⟩ := bind₂_eq_ok hv
    have hvs := evaluateList_intact (fun d hd => hargs d hd (he.part (.tail _ hd))) hvs
    have hreceiver := ih (he.part (.head _)) receiver hreceiver
    exact callBuiltin_intact (forall_mem_cons.2 ⟨hreceiver, hvs⟩) hv
  | member base name ih =>
    rw [evaluateWith] at hv
    obtain ⟨w, hw, hv⟩ := bind_eq_ok.1 hv
    exact (ih (he.part (.head _)) w hw).field hv
  | array elements ih =>
    rw [evaluateWith] at hv
    obtain ⟨vs, hvs, hv⟩ := bind_eq_ok.1 hv
    cases hv
    exact intact_arrayOf (evaluateList_intact (fun d hd => ih d hd (he.part hd)) hvs)
  | record fields ih =>
    rw [evaluateWith, evaluateFields_eq_zip] at hv
    obtain ⟨fs, hfs, hv⟩ := bind_eq_ok.1 hv
    obtain ⟨vs, hvs, rfl⟩ := map_eq_ok.1 hfs
    cases hv
    have hvs := evaluateList_intact (fun d hd => ih d hd (he.part hd)) hvs
    exact intact_recordOf fun f hf => hvs f.2 (of_mem_zip hf).2
  | matrix rows ih =>
    rw [evaluateWith, evaluateRows_eq_flatten] at hv
    obtain ⟨vs, hvs, hv⟩ := bind_eq_ok.1 hv
    cases hv
    refine intact_matrixOf ?_ (evaluateList_intact (fun d hd => ih d hd (he.part hd)) hvs)
    -- As many values as there are expressions, and rows of one length.
    rw [evaluateList_eq_mapM] at hvs
    rw [← (forall₂_of_mapM hvs).length_eq, length_flatten, map_congr_left he.regular]
    simp
  | function params body _ =>
    cases hv
    refine .function he fun f hf => ?_
    obtain ⟨name, -, hname⟩ := mem_filterMap.1 hf
    obtain ⟨w, hw, rfl⟩ := map_eq_some_iff.1 hname
    exact hscope name w hw
end Run

lemma evaluateUpTo_intact (depth : Nat) : ∀ scope e v, Scope.Intact scope → e.Spelled →
    evaluateUpTo depth scope e = .ok v → v.Intact := by
  induction depth with
  | zero =>
    intro scope e v _ _ hv
    cases hv
  | succ depth ih => exact fun scope e v hscope he hv => evaluateWith_intact ih hscope e he v hv

/-- **What an expression evaluates to is intact, so no matrix in it is indexed outside.** -/
theorem evaluate_intact (source : String) {e : Expr} (he : Expr.parse? source = some e)
    {scope : Scope} (hscope : ∀ name w, scope name = some w → w.Intact)
    (hv : evaluate scope e = .ok v) :
    v.Intact ∧ ∀ t rows cols vs, (Value.matrix t rows cols vs).Intact →
      (∀ row col : Int32, 0 ≤ row → 0 ≤ col → row.toInt.toNat < rows → col.toInt.toNat < cols →
        ∃ w ∈ vs, (Value.matrix t rows cols vs).matrixElement row col = .ok w) ∧
      ∀ r < rows, (((renderList vs).drop (r * cols)).take cols).length = cols := by
  refine ⟨evaluateUpTo_intact maxDepth scope e v hscope (spelled_of_parse? he) hv, ?_⟩
  intro t rows cols vs h
  exact ⟨fun row col hrow hcol hrows hcols => h.matrixElement_of_lt hrow hcol hrows hcols,
    fun r hr => h.length_row hr⟩

theorem evaluate_intact_of_sum :
    ∃ e v, Expr.parse? "[1, 2] + (function (y: int) [y, 2] + x)(3)" = some e ∧
      evaluate (Scope.bind [("x", .matrix .int 1 2 [.int 3, .int 4])] .empty) e = .ok v ∧
      v.type = .matrix .int ∧ v.Intact := by
  have hrow : (Value.matrix .int 1 2 [.int 3, .int 4]).Intact := by
    refine .matrix .int rfl (fun v hv => ?_) fun v hv => ?_
    all_goals obtain rfl | rfl : v = .int 3 ∨ v = .int 4 := by simpa using hv
    all_goals first | exact .scalar rfl | rfl
  have hrun : (Expr.parse? "[1, 2] + (function (y: int) [y, 2] + x)(3)").any (fun e =>
      (evaluate (Scope.bind [("x", .matrix .int 1 2 [.int 3, .int 4])] .empty) e).toOption.any
        fun v => v.type = .matrix .int) := by
    decide +kernel
  obtain ⟨e, he, hrun⟩ := (Option.any_eq_true _ _).1 hrun
  obtain ⟨v, hv, htype⟩ := (Option.any_eq_true _ _).1 hrun
  have hv := toOption_eq_some.1 hv
  refine ⟨e, v, he, hv, of_decide_eq_true htype, (evaluate_intact _ he (fun name w hw => ?_) hv).1⟩
  rcases or_eq_some_iff.1 hw with hw | ⟨-, hw⟩
  · cases mem_singleton.1 (mem_of_lookup hw)
    exact hrow
  · cases hw
end Expr
end DataflowSpecializer
