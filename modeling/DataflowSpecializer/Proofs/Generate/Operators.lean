import DataflowSpecializer.Proofs.Expression.Soundness
import DataflowSpecializer.Proofs.Generate.Operations
import DataflowSpecializer.Proofs.Generate.Walks
import DataflowSpecializer.Proofs.Value.Shape

/-! # Code for names and operators

`ExprSite.Correct` says of an expression that its code computes it, wherever the code is written.
Here it is proved of names and operators, for operands of which it holds.
-/
namespace DataflowSpecializer.ExprSite
open Platform Library Draft Option DataflowSpecializer.Expr Generation ValueType
open Value (HasShape hasShape_boolean)
/-! ## What the code of an expression starts from -/
structure Describes (g : ExprSite) (scope : Scope) : Prop where
  bound : ∀ {name l t}, g.bindings.get? name = some (l, t) →
    ∃ v, scope name = some v ∧ HasShape v t ∧ t.IsCanonical
  free : ∀ {name}, g.bindings.get? name = none → scope name = none

def Bound (g : ExprSite) (scope : Scope) : Assertion := fun env _ =>
  ∀ name l t, g.bindings.get? name = some (l, t) → ∀ v, scope name = some v →
    env l = some (ofValue v)

structure Ready (g : ExprSite) (s : Specialization) (w : Workbench) : Prop where
  spec : w.spec = s
  taken : ∀ {name l t}, g.bindings.get? name = some (l, t) → l < w.draft.size

def HoldsAt (r : TypedLocal) (v : Value) : Assertion := fun env heap =>
  Holds r.1 (ofValue v) env heap ∧ HasShape v r.2

structure Compiles (run : Evaluator) (s : Specialization)
    (w w' : Workbench) (P : Assertion) (x : Option Value) (r : TypedLocal) : Prop where
  spec : w'.spec = s
  canonical : r.2.IsCanonical
  emits : Emits (runtime run) w.draft w'.draft P x (HoldsAt r)

def Correct (g : ExprSite) (run : Evaluator) (scope : Scope)
    (s : Specialization) (e : Expr) : Prop :=
  ∀ ⦃w w' r P⦄, g.generate e w = .ok r w' → g.Ready s w → Stable w.draft.size P →
    (∀ {env heap}, P env heap → g.Bound scope env heap) →
    Compiles run s w w' P (e.evaluateWith run scope).toOption r

lemma stable_false (n : Nat) : Stable n fun _ _ => False := fun _ _ _ _ _ _ h => h

section Correct
variable {g : ExprSite} {run : Evaluator} {scope : Scope}
  {s : Specialization} {e : Expr} {w w' : Workbench} {r : TypedLocal} {P : Assertion}
  {name : String} {lhs rhs : Expr}

lemma Ready.of_writes (h : g.Ready s w)
    (hspec : s' = s) (hf : Writes w.draft d f) : g.Ready s ⟨s', d⟩ :=
  ⟨hspec, fun hl => (h.taken hl).trans_le hf.locals⟩

lemma Correct.static (h : g.Correct run scope s e) (hgen : g.generate e w = .ok r w')
    (hready : g.Ready s w) :
    g.Ready s w' ∧ r.2.IsCanonical ∧ ∀ v, Stable w'.draft.size (HoldsAt r v) := by
  have hc := h hgen hready (stable_false _) (fun h => h.elim)
  obtain ⟨f, hf⟩ := hc.emits.writes
  exact ⟨hready.of_writes hc.spec hf, hc.canonical, hc.emits.stable⟩

lemma bindings_of_meaning {t : ValueType}
    (h : g.meaning? m name = some (.value l t)) : g.bindings.get? name = some (l, t) := by
  rw [meaning?] at h
  split at h
  · rename_i heq
    cases h
    exact heq
  · obtain ⟨v, -, hv⟩ := map_eq_some_iff.1 h
    cases hv

lemma bindings_of_meaning_none (h : g.meaning? m name = none) : g.bindings.get? name = none := by
  rw [meaning?] at h
  split at h
  · cases h
  · assumption

lemma evaluateWith_ident (h : scope name = some v) :
    evaluateWith run scope (.ident name) = .ok v := by
  rw [evaluateWith, h]
  rfl

lemma builtinConstant_compiles (hgen : g.builtinConstant name w = .ok r w')
    (hready : g.Ready s w) (hP : Stable w.draft.size P) (hfree : scope name = none) :
    Compiles run s w w' P (evaluateWith run scope (.ident name)).toOption r := by
  cases hv : Builtin.constant? name with
  | none =>
    simp only [builtinConstant, hv] at hgen
    cases hgen
  | some v =>
    have hscalar := isScalar_constant hv
    obtain ⟨l, hl, hemits⟩ := boxed_emits run hscalar hP
    simp only [builtinConstant, hv, drafting_bind, hl] at hgen
    obtain ⟨rfl, rfl⟩ := pure_eq_ok.1 hgen
    have hvalue : evaluateWith run scope (.ident name) = .ok v := by
      rw [evaluateWith, hfree, hv]
      rfl
    rw [hvalue]
    have hcanon := isCanonical_of_isScalar hscalar
    refine ⟨hready.spec, hcanon, hemits.note fun _ u hu => ?_⟩
    cases hu
    exact .scalar hscalar hscalar

lemma ident_correct (hscope : g.Describes scope)
    (hname : ∀ v, g.meaning? s.model name ≠ some (.var v)) :
    g.Correct run scope s (.ident name) := by
  intro w w' r P hgen hready hP hbound
  rw [generate, spec_bind, hready.spec] at hgen
  cases hmeaning : g.meaning? s.model name with
  | none =>
    rw [hmeaning] at hgen
    exact builtinConstant_compiles hgen hready hP (hscope.free (bindings_of_meaning_none hmeaning))
  | some n =>
    cases n with
    | var v => exact absurd hmeaning (hname v)
    | value l t =>
      rw [hmeaning] at hgen
      obtain ⟨rfl, rfl⟩ := pure_eq_ok.1 hgen
      have hl := bindings_of_meaning hmeaning
      obtain ⟨v, hv, hshape, hcanon⟩ := hscope.bound hl
      rw [evaluateWith_ident hv]
      refine ⟨hready.spec, hcanon, .pure (fun u => ?_) fun hP => ⟨hbound hP name l t hl v hv, hshape⟩⟩
      exact (stable_holds (hready.taken hl) _).and fun _ _ _ _ _ _ h => h

lemma operands_compile (hlhs : g.Correct run scope s lhs)
    (hrhs : g.Correct run scope s rhs) {op : LocalId → LocalId → Drafting LocalId}
    {type : ValueType → ValueType} {value : Value → Value → Option Value}
    (hop : ∀ {d P a b u v}, Stable d.size P → (∀ {env heap}, P env heap → env a = some (ofValue u)) →
      (∀ {env heap}, P env heap → env b = some (ofValue v)) →
      Emits (runtime run) d (op a b d).2 P (value u v) fun c => Holds (op a b d).1 (ofValue c))
    (htype : ∀ {t}, t.IsCanonical → (type t).IsCanonical)
    (hshape : ∀ {u v c t}, HasShape u t → value u v = some c → HasShape c (type t))
    (hgen : (do
      let (a, t) ← g.generate lhs
      let (b, _) ← g.generate rhs
      let l ← op a b
      return (l, type t) : Generation TypedLocal) w = .ok r w')
    (hready : g.Ready s w) (hP : Stable w.draft.size P)
    (hbound : ∀ {env heap}, P env heap → g.Bound scope env heap) :
    Compiles run s w w' P ((lhs.evaluateWith run scope).toOption.bind fun u =>
      (rhs.evaluateWith run scope).toOption.bind (value u)) r := by
  simp only [Generation.bind_eq_ok, drafting_bind, pure_eq_ok] at hgen
  obtain ⟨ra, w1, ha, rb, w2, hb, rfl, rfl⟩ := hgen
  obtain ⟨hready1, hcanon, -⟩ := hlhs.static ha hready
  obtain ⟨hready2, -, -⟩ := hrhs.static hb hready1
  refine ⟨hready2.spec, htype hcanon, ?_⟩
  refine (hlhs ha hready hP hbound).emits.bind hP fun u P1 hP1 h1 => ?_
  refine (hrhs hb hready1 hP1 fun h => hbound (h1 h).2.2).emits.bind hP1 fun v P2 hP2 h2 => ?_
  refine (hop hP2 (fun h => (h1 (h2 h).2.2).2.1.1) fun h => (h2 h).2.1.1).note fun h c hc => ?_
  exact hshape (h1 (h2 h).2.2).2.1.2 hc

lemma power_correct {base exponent : Expr} (hbase : g.Correct run scope s base)
    (hexponent : g.Correct run scope s exponent) :
    g.Correct run scope s (.power base exponent) := by
  intro w w' r P hgen hready hP hbound
  have hvalue : (evaluateWith run scope (.power base exponent)).toOption =
      (base.evaluateWith run scope).toOption.bind fun u =>
        (exponent.evaluateWith run scope).toOption.bind fun v =>
          v.toInt?.bind fun n => (u.pow n).toOption := by
    simp only [evaluateWith, toOption_bind]
    congr; funext u; congr; funext v
    cases v.toInt? <;> rfl
  rw [hvalue]
  rw [generate] at hgen
  refine operands_compile hbase hexponent power_emits id (fun hu hc => ?_) hgen hready hP hbound
  obtain ⟨n, -, hc⟩ := bind_eq_some_iff.1 hc
  exact hu.pow (toOption_eq_some.1 hc)

lemma shift_correct {op : ShiftOp} (hlhs : g.Correct run scope s lhs)
    (hrhs : g.Correct run scope s rhs) : g.Correct run scope s (.shift op lhs rhs) := by
  intro w w' r P hgen hready hP hbound
  have hvalue : (evaluateWith run scope (.shift op lhs rhs)).toOption =
      (lhs.evaluateWith run scope).toOption.bind fun u =>
        (rhs.evaluateWith run scope).toOption.bind fun v =>
          v.toInt?.bind fun n => (u.shift op n).toOption := by
    simp only [evaluateWith, toOption_bind]
    congr; funext u; congr; funext v
    cases v.toInt? <;> rfl
  rw [hvalue]
  rw [generate] at hgen
  refine operands_compile hlhs hrhs (shift_emits op) id (fun hu hc => ?_) hgen hready hP hbound
  obtain ⟨n, -, hc⟩ := bind_eq_some_iff.1 hc
  exact hu.shift (toOption_eq_some.1 hc)

lemma relation_correct {op : RelationOp} (hlhs : g.Correct run scope s lhs)
    (hrhs : g.Correct run scope s rhs) : g.Correct run scope s (.relation op lhs rhs) := by
  intro w w' r P hgen hready hP hbound
  simp only [evaluateWith, toOption_bind]
  rw [generate] at hgen
  refine operands_compile hlhs hrhs (relation_emits op) (fun _ => .boolean) (fun _ hc => ?_) hgen
    hready hP hbound
  exact hasShape_boolean (compareValues_hasType (toOption_eq_some.1 hc))

lemma unary_correct {operand : Expr} (h : g.Correct run scope s operand) :
    g.Correct run scope s (.unary op operand) := by
  intro w w' r P hgen hready hP hbound
  simp only [evaluateWith, toOption_bind]
  simp only [generate, Generation.bind_eq_ok, drafting_bind, pure_eq_ok] at hgen
  obtain ⟨ra, w1, ha, rfl, rfl⟩ := hgen
  obtain ⟨hready1, hcanon, -⟩ := h.static ha hready
  refine ⟨hready1.spec, ?_, ?_⟩
  · cases op with
    | not => exact .boolean
    | negate | bitwiseNot => exact hcanon
  · refine (h ha hready hP hbound).emits.bind hP fun v P1 hP1 h1 => ?_
    refine (unary_emits op hP1 fun h => (h1 h).2.1.1).note fun hpre u hu => ?_
    have hv := (h1 hpre).2.1.2
    cases op with
    | negate => exact hv.negate (toOption_eq_some.1 hu)
    | not => exact hasShape_boolean (Value.hasType_not (toOption_eq_some.1 hu))
    | bitwiseNot => exact hv.bitwiseNot (toOption_eq_some.1 hu)

lemma binaryMethods_lookup (op : ChainOp) : binaryMethods.lookup op.name = some op.apply := by
  cases op with
  | arith op | bitwise op => cases op <;> rfl

lemma chainOp_hasShape {op : ChainOp} {t u : ValueType} (ha : HasShape a t)
    (hb : HasShape b u) (h : op.apply a b = .ok c) : HasShape c (t.lub u) := by
  cases op with
  | arith op => exact ha.arith hb h
  | bitwise op =>
    obtain ⟨hav, hbv, hc⟩ := Value.bitwise_type h
    exact ha.of_scalars hb hav hbv (Value.isScalar_lub hav hbv hc)

lemma generateChain_compiles {es : List (ChainOp × Expr)}
    (hes : ∀ e ∈ es.map (·.2), g.Correct run scope s e) :
    ∀ ⦃acc r : TypedLocal⦄ ⦃w w' P⦄ (a : Value), g.generateChain acc es w = .ok r w' →
      g.Ready s w → Stable w.draft.size P → acc.2.IsCanonical →
      (∀ v, Stable w.draft.size (HoldsAt acc v)) →
      (∀ {env heap}, P env heap → g.Bound scope env heap) →
      (∀ {env heap}, P env heap → HoldsAt acc a env heap) →
      Compiles run s w w' P (evaluateChain run scope a es).toOption r := by
  induction es with
  | nil =>
    intro acc r w w' P a hgen hready _ hcanon hacc _ ha
    obtain ⟨rfl, rfl⟩ := pure_eq_ok.1 hgen
    exact ⟨hready.spec, hcanon, .pure hacc ha⟩
  | cons e es ih =>
    obtain ⟨op, e⟩ := e
    obtain ⟨he, hes⟩ := List.forall_mem_cons.1 hes
    intro acc r w w' P a hgen hready hP hcanon hacc hbound ha
    simp only [generateChain, Generation.bind_eq_ok, drafting_bind] at hgen
    obtain ⟨⟨v, t⟩, w1, hv, hgen⟩ := hgen
    obtain ⟨hready1, hcanon1, -⟩ := he.static hv hready
    -- The operation, before anything is known of its operands.
    have hstepEmits (P' : Assertion) (b : Value) (hP' : ∀ {env heap}, P' env heap →
        HoldsAt acc a env heap ∧ HoldsAt (v, t) b env heap) :
        Emits (runtime run) w1.draft (binary op.name acc.1 v w1.draft).2 P' (op.apply a b).toOption
          (HoldsAt ((binary op.name acc.1 v w1.draft).1, acc.2.lub t)) :=
      (binary_emits (binaryMethods_lookup op) (fun h => (hP' h).1.1) fun h => (hP' h).2.1).note fun h c hc =>
        chainOp_hasShape (hP' h).1.2 (hP' h).2.2 (toOption_eq_some.1 hc)
    have hnothing := hstepEmits (fun _ _ => False) a fun h => h.elim
    obtain ⟨f, hf⟩ := hnothing.writes
    have hready2 : g.Ready s { w1 with draft := (binary op.name acc.1 v w1.draft).2 } :=
      hready1.of_writes hready1.spec hf
    have hlub := isCanonical_lub hcanon hcanon1
    have hstatic := ih hes a hgen hready2 (stable_false _) hlub hnothing.stable
      (fun h => h.elim) (fun h => h.elim)
    refine ⟨hstatic.spec, hstatic.canonical, ?_⟩
    simp only [evaluateChain, toOption_bind]
    refine (he hv hready hP hbound).emits.bind hP fun b P1 hP1 h1 => ?_
    refine (hstepEmits P1 b fun h => ⟨ha (h1 h).2.2, (h1 h).2.1⟩).bind hP1 fun c P2 hP2 h2 => ?_
    exact (ih hes c hgen hready2 hP2 hlub hnothing.stable (fun h => hbound (h1 (h2 h).2.2).2.2)
      fun h => (h2 h).2.1).emits

lemma chain_correct
    (hchain : e.chain? = some (first, rest)) (h : ∀ d ∈ e.parts, g.Correct run scope s d) :
    g.Correct run scope s e := by
  intro w w' r P hgen hready hP hbound
  rw [parts_of_chain? hchain] at h
  obtain ⟨hfirst, hes⟩ := List.forall_mem_cons.1 h
  rw [evaluateWith_of_chain? hchain, toOption_bind]
  rw [generate_of_chain? hchain] at hgen
  obtain ⟨acc, w1, hacc, hgen⟩ := Generation.bind_eq_ok.1 hgen
  obtain ⟨hready1, hcanon, hstable⟩ := hfirst.static hacc hready
  have hrest := generateChain_compiles hes
  have hstatic := hrest (.boolean true) hgen hready1 (stable_false _) hcanon hstable
    (fun h => h.elim) (fun h => h.elim)
  refine ⟨hstatic.spec, hstatic.canonical, ?_⟩
  refine (hfirst hacc hready hP hbound).emits.bind hP fun a P1 hP1 h1 => ?_
  exact (hrest a hgen hready1 hP1 hcanon hstable (fun h => hbound (h1 h).2.2)
    fun h => (h1 h).2.1).emits
end Correct
end DataflowSpecializer.ExprSite
