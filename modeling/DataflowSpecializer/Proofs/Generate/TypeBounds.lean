import DataflowSpecializer.Proofs.Builtin.Monotone
import DataflowSpecializer.Proofs.Expression.FreeNames
import DataflowSpecializer.Proofs.Fitness.Steps
import DataflowSpecializer.Proofs.Generate.Operators

/-! # The types of code and inference

The type that goes with the code of an expression is never wider than the type that inference gives
it, in a scope where names have the types at which the code has them (`Covered`), or wider ones.
-/
namespace DataflowSpecializer
open List SortedMap ValueType DataflowSpecializer.Expr Builtin Generation Specialize
open Platform
open ValueType (AllLeq)

/-! ## Remembered calls -/
def CallMemo.Faithful (memo : CallMemo) : Prop :=
  ∀ name form args found, memo.entries.lookup (name, form, args) = some found →
    found = lookup? name form args

lemma CallMemo.faithful_empty : CallMemo.empty.Faithful := fun _ _ _ _ h => by cases h

lemma CallMemo.Faithful.resolve {memo : CallMemo} (h : memo.Faithful) (name : String)
    (form : CallForm) (args : List ValueType) :
    (memo.resolve name form args).1 = lookup? name form args ∧
      (memo.resolve name form args).2.Faithful := by
  unfold CallMemo.resolve
  split
  · exact ⟨h _ _ _ _ ‹_›, h⟩
  · refine ⟨rfl, fun name' form' args' found hfound => ?_⟩
    rw [List.lookup_cons] at hfound
    split at hfound
    · rename_i heq
      cases beq_iff_eq.1 heq
      cases hfound
      rfl
    · exact h _ _ _ _ hfound

structure Specialization.Resolves (m : Model) (s : Specialization) : Prop where
  model : s.model = m
  memo : s.memo.Faithful

def Yields {α : Type} (m : Model) (x : Generation α) (Q : α → Prop) : Prop :=
  ∀ ⦃w : Workbench⦄, w.spec.Resolves m → Ensures x w fun a w' => w'.spec.Resolves m ∧ Q a

namespace Yields
variable {m : Model} {α β : Type} {x : Generation α} {Q R : α → Prop} {S : β → Prop}
  {k : α → Generation β} {y : Drafting α}

lemma bind (hx : Yields m x R) (hk : ∀ a, R a → Yields m (k a) S) : Yields m (x >>= k) S := by
  intro w hw
  refine (hx hw).bind ?_
  rintro a w' ⟨hw', ha⟩
  exact hk a ha hw'

lemma mono (hx : Yields m x R) (h : ∀ a, R a → Q a) : Yields m x Q := by
  intro w hw
  refine (hx hw).mono ?_
  rintro a w' ⟨hw', ha⟩
  exact ⟨hw', h a ha⟩

lemma pure (h : Q a) : Yields m (pure a) Q := fun _ hw => .pure ⟨hw, h⟩
lemma throw : Yields m (throw f) Q := fun _ _ => .throw

lemma draft_bind (hk : ∀ a, Yields m (k a) S) :
    Yields m (liftM y >>= k) S := fun w hw => hk (y w.draft).1 (w := ⟨w.spec, (y w.draft).2⟩) hw

lemma draft : Yields m (liftM y : Generation α) fun _ => True := by
  intro w hw a w' h
  cases h
  exact ⟨hw, trivial⟩

lemma spec_bind {k : Specialization → Generation β}
    (hk : ∀ s, s.Resolves m → Yields m (k s) S) : Yields m (Generation.spec >>= k) S :=
  fun w hw => hk w.spec hw hw

lemma get_bind {k : Workbench → Generation β}
    (hk : ∀ w, w.spec.Resolves m → Yields m (k w) S) : Yields m (get >>= k) S :=
  fun w hw => hk w hw hw

lemma lift_bind {y : Specialize α} {Q : α → Prop}
    (hy : ∀ s, s.Resolves m → Ensures y s fun a s' => s'.Resolves m ∧ Q a)
    (hk : ∀ a, Q a → Yields m (k a) S) : Yields m (liftM y >>= k) S := by
  intro w hw
  refine Ensures.bind (R := fun a w' => w'.spec.Resolves m ∧ Q a) ?_ fun a w' h => hk a h.2 h.1
  intro a w' h
  change ofSpecialize y w = _ at h
  unfold ofSpecialize at h
  split at h
  · rename_i s' hs'
    cases h
    exact hy w.spec hw a s' hs'
  · cases h
end Yields

namespace Specialize
variable {m : Model} {s : Specialization}

lemma onProgram_resolves {α : Type} (f : Program → α × Program) (hs : s.Resolves m) :
    Ensures (onProgram f) s fun _ s' => s'.Resolves m ∧ True :=
  onProgram_ensures ⟨⟨hs.model, hs.memo⟩, trivial⟩

lemma extend_resolves (hcode : Yields m code fun _ => P) (hs : s.Resolves m) :
    Ensures (extend k code) s fun _ s' => s'.Resolves m ∧ P := by
  refine .get_bind (.bind (R := fun _ s' => s'.Resolves m) (.modify ⟨hs.model, hs.memo⟩) ?_)
  intro _ s1 hs1
  let b := s.program.body k
  refine .bind (R := fun r s' => ∀ a, r.1 = .ok a → s'.Resolves m ∧ P) ?_ ?_
  · intro r s' h
    unfold draft at h
    split at h
    · rename_i a w hw
      cases h
      exact fun _ _ => hcode (w := ⟨s1, .ofBody b⟩) hs1 a w hw
    · cases h
      exact fun _ h => by cases h
  · rintro ⟨r, d⟩ s2 hs2
    cases r with
    | ok a =>
      obtain ⟨hs2, hP⟩ := hs2 a rfl
      exact .bind (R := fun _ s' => s'.Resolves m) (.modify ⟨hs2.model, hs2.memo⟩)
        fun _ _ hs3 => .pure ⟨hs3, hP⟩
    | error f => exact .bind (R := fun _ _ => True) (.modify trivial) fun _ _ _ => .throw
end Specialize

def NameMeaning.type (m : Model) : NameMeaning → ValueType
  | .value _ t => t
  | .var v => m.variableType v

namespace ExprSite
variable {m : Model} {g : ExprSite} {scope : TypeScope}
  {body : ExprSite → Generation TypedLocal} {name : String}
  {params : Params} {args : List TypedLocal}
  {target : TypedLocal} {fields : List FieldId} {n : NameMeaning} {es : List Expr}
  {w : Workbench}

/-- The type at which the code has a name. -/
def nameType? (g : ExprSite) (m : Model) (name : String) : Option ValueType :=
  (g.meaning? m name).map (NameMeaning.type m)

/-- The type of every name here is at most the one of the scope. -/
def Covered (g : ExprSite) (m : Model) (scope : TypeScope) : Prop :=
  ∀ name, Option.Rel (fun t u => t.leq u) (g.nameType? m name) (scope name)

lemma Covered.of_some (hg : g.Covered m scope)
    (h : g.meaning? m name = some n) : ∃ u, scope name = some u ∧ (n.type m).leq u := by
  have hname := hg name
  rw [nameType?, h] at hname
  generalize scope name = x at hname
  cases hname with
  | some hle => exact ⟨_, rfl, hle⟩

lemma Covered.of_none (hg : g.Covered m scope) (h : g.meaning? m name = none) :
    scope name = none := by
  have hname := hg name
  rw [nameType?, h] at hname
  generalize scope name = x at hname
  cases hname
  rfl

lemma reference_yields {l : LocalId} {source target : ObjectId} :
    Yields m (reference l source target) fun _ => True := by
  refine .spec_bind fun s _ => ?_
  split
  · exact .throw
  · exact .draft_bind fun _ => .draft

lemma readName_yields : Yields m (g.readName n) fun r => r.2 = n.type m := by
  cases n with
  | value l t => exact .pure rfl
  | var v =>
    refine .get_bind fun w hw => ?_
    split
    · exact reference_yields.bind fun _ _ => .draft_bind fun _ => .pure (hw.model ▸ rfl)
    · exact .throw

lemma builtinConstant_yields : Yields m (g.builtinConstant name) fun r =>
    ∃ v, constant? name = some v ∧ r.2 = v.type := by
  unfold builtinConstant
  split
  · exact .throw
  · rename_i v hv
    refine .draft_bind fun r => ?_
    cases r with
    | ok l => exact .pure ⟨v, hv, rfl⟩
    | error t => exact .throw

lemma callBuiltin_yields {form : CallForm} :
    Yields m (g.callBuiltin name form args) fun r => ∀ {us : List ValueType} {u : ValueType},
      AllLeq (args.map (·.2)) us → inferBuiltin name form us = .ok u → r.2.leq u := by
  intro w hw
  obtain ⟨hfound, hmemo⟩ := hw.memo.resolve name form (args.map (·.2))
  let w1 : Workbench :=
    { w with spec := { w.spec with memo := (w.spec.memo.resolve name form (args.map (·.2))).2 } }
  refine .get_bind (.bind (R := fun _ w' => w' = w1) (.set rfl) ?_)
  rintro _ _ rfl
  have hw1 : w1.spec.Resolves m := ⟨hw.model, hmemo⟩
  split
  · exact .throw
  · rename_i b hb
    have hlookup : lookup? name form (args.map (·.2)) = some b := hfound.symm.trans hb
    refine Yields.draft_bind (fun l => .pure ?_) hw1
    exact fun hargs hu => leq_inferBuiltin hargs hlookup hu

lemma applyValue_yields :
    Yields m (g.applyValue target args) fun r => ∀ {t u : ValueType}, target.2.leq t →
      inferApply t args.length = .ok u → r.2.leq u := by
  unfold applyValue
  split
  · rename_i element i _ htarget
    refine .draft_bind fun _ => .draft_bind fun _ => .draft_bind fun _ => .pure ?_
    intro t u ht hu
    rw [htarget] at ht
    rcases array_leq_iff.1 ht with rfl | rfl | ⟨e, rfl, he⟩ <;> cases hu
    · exact leq_unknown _
    · exact he
  · rename_i element r _ c _ htarget
    refine .draft_bind fun _ => .draft_bind fun _ => .draft_bind fun _ => .draft_bind fun _ =>
      .pure ?_
    intro t u ht hu
    rw [htarget] at ht
    rcases matrix_leq_iff.1 ht with rfl | rfl | ⟨e, rfl, he⟩ <;> cases hu
    · exact leq_unknown _
    · exact he
  · rename_i n htarget
    refine .draft_bind fun _ => .draft_bind fun _ => .draft_bind fun _ => .pure ?_
    intro t u ht hu
    rw [htarget] at ht
    rw [inferApply.eq_def] at hu
    rcases function_leq_iff.1 ht with rfl | rfl | rfl <;> cases hu
    · exact leq_unknown _
    · exact leq_refl .general
  · exact .throw

lemma memberOf_yields {label : String} :
    Yields m (g.memberOf target label) fun r => ∀ {t u : ValueType}, target.2.leq t →
      inferMember t label = .ok u → r.2.leq u := by
  unfold memberOf
  split
  · rename_i fields htarget
    split
    · exact .throw
    · rename_i s hs
      refine .draft_bind fun _ => .draft_bind fun _ => .pure ?_
      intro t u ht hu
      rw [htarget] at ht
      rcases record_leq_iff.1 ht with rfl | rfl | ⟨gs, rfl, hfields⟩
      · cases hu
      · cases hu
        exact leq_unknown _
      · rw [inferMember] at hu
        split at hu
        · rename_i u' hlookup
          cases hu
          obtain ⟨s', hs', hle⟩ := leqFields_iff.1 hfields _ (mem_of_lookup hlookup)
          rw [hs] at hs'
          cases hs'
          exact hle
        · cases hu
  · exact .throw

structure Captures (g : ExprSite) (m : Model) (names : List String)
    (captured : List (String × TypedLocal)) : Prop where
  types : ∀ x ∈ captured, x.1 ∈ names ∧ g.nameType? m x.1 = some x.2.2
  others : ∀ name ∈ names, name ∉ captured.map (·.1) → g.nameType? m name = none

lemma capture_yields (names : List String) : Yields m (g.capture names) (g.Captures m names) := by
  induction names with
  | nil => exact .pure ⟨fun x hx => (by cases hx), fun name hname => (by cases hname)⟩
  | cons name names ih =>
    refine .spec_bind fun s hs => ?_
    rw [hs.model]
    split
    · rename_i n hn
      refine readName_yields.bind fun r hr => ih.bind fun captured hcaptured => .pure ⟨?_, ?_⟩
      · intro x hx
        rcases mem_cons.1 hx with rfl | hx
        · exact ⟨(.head _), by rw [nameType?, hn, Option.map_some, ← hr]⟩
        · obtain ⟨hmem, htype⟩ := hcaptured.types x hx
          exact ⟨.tail _ hmem, htype⟩
      · intro name' hname' hother
        rw [map_cons, mem_cons, not_or] at hother
        exact hcaptured.others name' ((mem_cons.1 hname').resolve_left hother.1) hother.2
    · rename_i hn
      split
      · refine ih.mono fun captured hcaptured => ⟨fun x hx => ?_, fun name' hname' hother => ?_⟩
        · obtain ⟨hmem, htype⟩ := hcaptured.types x hx
          exact ⟨.tail _ hmem, htype⟩
        · rcases mem_cons.1 hname' with rfl | hname'
          · rw [nameType?, hn, Option.map_none]
          · exact hcaptured.others name' hname' hother
      · exact .throw

lemma captureFields_resolves {s : Specialization}
    (captured : List (String × TypedLocal)) (hs : s.Resolves m) :
    Ensures (captureFields c captured) s fun fs s' =>
      s'.Resolves m ∧ fs.length = captured.length := by
  induction captured generalizing s with
  | nil => exact .pure ⟨hs, rfl⟩
  | cons x captured ih =>
    obtain ⟨name, l, t⟩ := x
    refine (onProgram_resolves _ hs).bind fun f s1 hs1 => ?_
    refine (onFacts_ensures (Q := fun _ s' => s'.Resolves m)
      fun _ _ => ⟨hs1.1.model, hs1.1.memo⟩).bind fun _ s2 hs2 => ?_
    refine (ih hs2).bind fun fs s3 hs3 => .pure ⟨hs3.1, ?_⟩
    rw [length_cons, length_cons, hs3.2]

lemma closureInit_yields {arity : Nat} : Yields m (closureInit arity fields) fun _ => True := by
  refine .bind (R := fun _ => True) (.get_bind fun w _ => ?_) fun _ _ =>
    .draft_bind fun _ => .get_bind fun _ _ => .draft_bind fun _ => .draft
  split
  · exact .pure trivial
  · exact .throw

/-- Where the body of a function is written: in a class of its own, where the parameters are bound,
and after them what was captured. -/
def bodySite (g : ExprSite) (c : ClassId) (this args : LocalId)
    (params : Params) (captured : List (String × TypedLocal))
    (fields : List FieldId) (d : Draft) : ExprSite :=
  let (inner, d) := bindParams ⟨c, none, none, g.subject, .empty⟩ args 0 params d
  (bindCaptured inner this captured fields d).1

lemma closureApply_yields {c : ClassId} {captured : List (String × TypedLocal)}
    (hbody : ∀ g, Yields m (body g) fun _ => True) :
    Yields m (closureApply ⟨c, none, none, g.subject, .empty⟩ params captured fields body) fun _ =>
      ∃ this args d w b w', w.spec.Resolves m ∧
        body (g.bodySite c this args params captured fields d) w = .ok b w' := by
  refine .bind (R := fun _ => True) (.get_bind fun w _ => ?_) fun this _ =>
    .bind (R := fun _ => True) (.get_bind fun w _ => ?_) fun args _ => ?_
  iterate 2
    · split
      · exact .pure trivial
      · exact .throw
  intro w hw
  let inner := bindParams ⟨c, none, none, g.subject, .empty⟩ args 0 params w.draft
  let d := (bindCaptured inner.1 this captured fields inner.2).2
  have hran : Yields m (body (g.bodySite c this args params captured fields w.draft)) fun _ =>
      ∃ this args d w b w', w.spec.Resolves m ∧
        body (g.bodySite c this args params captured fields d) w = .ok b w' := by
    intro w1 hw1 b w2 hb
    exact ⟨(hbody _ hw1 b w2 hb).1, this, args, w.draft, w1, b, w2, hw1, hb⟩
  refine Yields.bind hran ?_ (w := ⟨w.spec, d⟩) hw
  rintro ⟨l, t⟩ h
  exact Yields.draft.mono fun _ _ => h

lemma closure_ensures {free : List String}
    (hbody : ∀ g, Yields m (body g) fun _ => True) (hw : w.spec.Resolves m) :
    Ensures (g.closure params free body) w fun r w' =>
      w'.spec.Resolves m ∧ r.2 = .function params.length ∧
      ∃ captured w1 c fields, g.capture free w = .ok captured w1 ∧ g.Captures m free captured ∧
        fields.length = captured.length ∧ ∃ this args d w2 b w3, w2.spec.Resolves m ∧
          body (g.bodySite c this args params captured fields d) w2 = .ok b w3 := by
  refine Ensures.bind (R := fun captured w1 => g.capture free w = .ok captured w1 ∧
    w1.spec.Resolves m ∧ g.Captures m free captured)
    (fun captured w1 h => ⟨h, capture_yields free hw captured w1 h⟩) ?_
  rintro captured w1 ⟨hcapture, hw1, hcaptures⟩
  refine Yields.lift_bind (Q := fun _ => True)
    (fun s hs => .modifyGet ⟨⟨hs.model, hs.memo⟩, trivial⟩) (fun name _ => ?_) hw1
  refine .lift_bind (fun s hs => onProgram_resolves _ hs) fun c _ => ?_
  refine .lift_bind (fun s hs => captureFields_resolves captured hs) fun fields hfields => ?_
  refine .lift_bind (fun s hs => onProgram_resolves _ hs) fun init _ => ?_
  refine .lift_bind (fun s hs => extend_resolves closureInit_yields hs) fun _ _ => ?_
  refine .lift_bind (fun s hs => onProgram_resolves _ hs) fun apply _ => ?_
  refine .lift_bind (fun s hs => extend_resolves (closureApply_yields hbody) hs)
    fun _ hran => ?_
  exact .draft_bind fun l =>
    .pure ⟨rfl, captured, w1, c, fields, hcapture, hcaptures, hfields, hran⟩

def Bounded (m : Model) (g : ExprSite) (scope : TypeScope) (e : Expr) : Prop :=
  Yields m (g.generate e) fun r => ∀ {u}, e.infer scope = .ok u → r.2.leq u

lemma ident_bounded (hg : g.Covered m scope) (name : String) : Bounded m g scope (.ident name) := by
  refine .spec_bind fun s hs => ?_
  rw [hs.model]
  split
  · rename_i n hn
    refine readName_yields.mono fun r hr u hu => ?_
    obtain ⟨u', hu', hle⟩ := hg.of_some hn
    rw [Expr.infer, hu', Option.some_or] at hu
    cases hu
    rwa [hr]
  · rename_i hn
    refine builtinConstant_yields.mono ?_
    rintro r ⟨v, hv, hr⟩ u hu
    rw [Expr.infer, hg.of_none hn, hv] at hu
    cases hu
    rw [hr]
    exact leq_refl (isCanonical_of_isScalar (isScalar_constant hv))

lemma recordType_mono {fs gs : FieldTypes}
    (h : List.Forall₂ (fun f g => f.1 = g.1 ∧ f.2.leq g.2) fs gs) :
    (ValueType.record (ofList fs).entries).leq (.record (ofList gs).entries) :=
  leqFields_iff.2 (lookup_ofList_forall₂ (r := fun s t : ValueType => s.leq t) h)

lemma generateList_yields (h : ∀ d ∈ es, Bounded m g scope d) :
    Yields m (g.generateList es) fun vs =>
      ∀ {us}, inferList scope es = .ok us → AllLeq (vs.map (·.2)) us := by
  induction es with
  | nil =>
    refine .pure fun hus => ?_
    cases hus
    exact .nil
  | cons e es ih =>
    obtain ⟨he, hes⟩ := forall_mem_cons.1 h
    refine he.bind fun v hv => (ih hes).bind fun vs hvs => .pure fun hus => ?_
    obtain ⟨u, hu, us', hus', hus⟩ := bind₂_eq_ok hus
    cases hus
    exact .cons (hv hu) (hvs hus')

lemma generateChain_yields {es : List (ChainOp × Expr)}
    (h : ∀ d ∈ es.map (·.2), Bounded m g scope d) {acc : TypedLocal} :
    Yields m (g.generateChain acc es) fun r => ∀ t us, acc.2.leq t →
      inferList scope (es.map (·.2)) = .ok us → r.2.leq (us.foldl ValueType.lub t) := by
  induction es generalizing acc with
  | nil =>
    refine .pure fun _ _ ht hus => ?_
    cases hus
    exact ht
  | cons x es ih =>
    obtain ⟨he, hes⟩ := forall_mem_cons.1 h
    refine he.bind fun v hv => .draft_bind fun l => (ih hes).mono fun r hr t us ht hus => ?_
    obtain ⟨u, hu, us', hus', hus⟩ := bind₂_eq_ok hus
    cases hus
    exact hr (t.lub u) us' (lub_mono ht (hv hu)) hus'

lemma generateLogic_yields (h : ∀ d ∈ es, Bounded m g scope d)
    {deciding : Operand} {decided : Label} :
    Yields m (g.generateLogic deciding decided es) fun _ => True := by
  induction es with
  | nil => exact .pure trivial
  | cons e es ih =>
    obtain ⟨he, hes⟩ := forall_mem_cons.1 h
    exact he.bind fun _ _ => .draft_bind fun _ => .draft_bind fun _ => ih hes

lemma covered_unknown (g : ExprSite) (m : Model) :
    g.Covered m fun name => (g.nameType? m name).map fun _ => .unknown := by
  intro name
  show Option.Rel _ _ ((g.nameType? m name).map fun _ => unknown)
  cases g.nameType? m name with
  | none => exact .none
  | some t => exact .some rfl

lemma generate_bounded (e : Expr) {g : ExprSite} {scope : TypeScope} (hg : g.Covered m scope) :
    Bounded m g scope e := by
  induction e using Expr.walk generalizing g scope with
  | literal l =>
    refine .draft_bind fun r => .pure fun hu => ?_
    cases hu
    exact leq_refl (isCanonical_of_isScalar (Value.type_ofLiteral_isScalar l))
  | ident name => exact ident_bounded hg name
  | chain e first rest hchain hfirst hrest =>
    rw [Bounded, generate_of_chain? hchain]
    refine (hfirst hg).bind fun acc hacc =>
      (generateChain_yields fun d hd => hrest d hd hg).mono fun r hr u hu => ?_
    rw [infer_of_chain? hchain] at hu
    obtain ⟨t, ht, ts, hts, hu⟩ := bind₂_eq_ok hu
    cases hu
    exact hr _ _ (hacc ht) hts
  | nothing op => exact .throw
  | power base exponent hbase hexponent =>
    refine (hbase hg).bind fun b hb => (hexponent hg).bind fun _ _ => .draft_bind fun l =>
      .pure fun hu => ?_
    obtain ⟨-, -, hu⟩ := bind_eq_ok.1 hu
    exact hb hu
  | relation op lhs rhs hlhs hrhs =>
    refine (hlhs hg).bind fun _ _ => (hrhs hg).bind fun _ _ => .draft_bind fun l =>
      .pure fun hu => ?_
    obtain ⟨-, -, -, -, hu⟩ := bind₂_eq_ok hu
    cases hu
    rfl
  | logic op operands hoperands =>
    refine .draft_bind fun _ => .draft_bind fun _ => .draft_bind fun _ =>
      (generateLogic_yields fun d hd => hoperands d hd hg).bind fun _ _ => .draft_bind fun _ =>
      .draft_bind fun _ => .draft_bind fun _ => .draft_bind fun _ => .draft_bind fun _ =>
      .draft_bind fun _ => .draft_bind fun _ => .pure fun hu => ?_
    obtain ⟨-, -, hu⟩ := bind_eq_ok.1 hu
    cases hu
    rfl
  | shift op lhs rhs hlhs hrhs =>
    refine (hlhs hg).bind fun a ha => (hrhs hg).bind fun _ _ => .draft_bind fun l =>
      .pure fun hu => ?_
    obtain ⟨-, -, hu⟩ := bind_eq_ok.1 hu
    exact ha hu
  | unary op operand hoperand =>
    refine (hoperand hg).bind fun v hv => .draft_bind fun l => .pure fun hu => ?_
    obtain ⟨t, ht, hu⟩ := bind_eq_ok.1 hu
    cases hu
    split
    · rfl
    · exact hv ht
  | cond test yes no htest hyes hno =>
    refine (htest hg).bind fun _ _ => .draft_bind fun _ => .draft_bind fun _ =>
      .draft_bind fun _ => .draft_bind fun _ => .draft_bind fun _ => (hyes hg).bind fun a ha =>
      .draft_bind fun _ => .draft_bind fun _ => .draft_bind fun _ => (hno hg).bind fun b hb =>
      .draft_bind fun _ => .draft_bind fun _ => .pure fun hu => ?_
    obtain ⟨-, -, t, ht, hu⟩ := bind₂_eq_ok hu
    obtain ⟨t', ht', hu⟩ := bind_eq_ok.1 hu
    cases hu
    exact lub_mono (ha ht) (hb ht')
  | call name args hargs =>
    have hargs := generateList_yields fun d hd => hargs d hd hg
    refine .spec_bind fun s hs => ?_
    rw [hs.model]
    split
    · rename_i n hn
      obtain ⟨t, ht, hle⟩ := hg.of_some hn
      refine readName_yields.bind fun target htarget => hargs.bind fun vs hvs =>
        applyValue_yields.mono fun r hr u hu => ?_
      obtain ⟨ts, hts, hu⟩ := bind_eq_ok.1 hu
      rw [ht, ← (hvs hts).length_eq, length_map] at hu
      exact hr (htarget ▸ hle) hu
    · rename_i hn
      split
      · exact .throw
      · refine hargs.bind fun vs hvs => callBuiltin_yields.mono fun r hr u hu => ?_
        obtain ⟨ts, hts, hu⟩ := bind_eq_ok.1 hu
        rw [hg.of_none hn] at hu
        exact hr (hvs hts) hu
  | apply callee args hne hcallee hargs =>
    rw [Bounded, generate_apply_of_ne hne]
    refine (hcallee hg).bind fun target htarget =>
      (generateList_yields fun d hd => hargs d hd hg).bind fun vs hvs =>
      applyValue_yields.mono fun r hr u hu => ?_
    rw [infer_apply hne] at hu
    obtain ⟨ts, hts, t, ht, hu⟩ := bind₂_eq_ok hu
    rw [← (hvs hts).length_eq, length_map] at hu
    exact hr (htarget ht) hu
  | method base name args hbase hargs =>
    refine (hbase hg).bind fun v hv => (generateList_yields fun d hd => hargs d hd hg).bind
      fun vs hvs => callBuiltin_yields.mono fun r hr u hu => ?_
    obtain ⟨t, ht, ts, hts, hu⟩ := bind₂_eq_ok hu
    exact hr (.cons (hv ht) (hvs hts)) hu
  | member base name hbase =>
    refine (hbase hg).bind fun v hv => memberOf_yields.mono fun r hr u hu => ?_
    obtain ⟨t, ht, hu⟩ := bind_eq_ok.1 hu
    exact hr (hv ht) hu
  | array elements helements =>
    refine (generateList_yields fun d hd => helements d hd hg).bind fun vs hvs =>
      .draft_bind fun _ => .draft_bind fun _ => .pure fun hu => ?_
    obtain ⟨ts, hts, hu⟩ := bind_eq_ok.1 hu
    cases hu
    exact lubAll_mono (hvs hts)
  | record fields hfields =>
    rw [Bounded, generate, generateFields_eq_zip, bind_assoc]
    refine (generateList_yields fun d hd => hfields d hd hg).bind fun vs hvs => ?_
    rw [pure_bind]
    refine .draft_bind fun _ => .draft_bind fun _ => .draft_bind fun _ => .pure fun hu => ?_
    obtain ⟨us, hus, hu⟩ := bind_eq_ok.1 hu
    cases hu
    rw [inferFields_eq_zip] at hus
    obtain ⟨ts, hts, rfl⟩ := map_eq_ok.1 hus
    have hzip := forall₂_zip (fields.map (·.1)) (hvs hts)
    rw [zip_map_right] at hzip
    exact recordType_mono hzip
  | matrix rows hrows =>
    have hvalues : Yields m (g.generateRows (rows.headD []).length rows) fun vs =>
        ∀ {us}, inferList scope rows.flatten = .ok us → AllLeq (vs.map (·.2)) us :=
      fun w hw vs w' h =>
        generateList_yields (fun d hd => hrows d hd hg) hw vs w' (generateRows_eq_flatten h)
    refine hvalues.bind fun vs hvs => .draft_bind fun _ => .draft_bind fun _ => .pure fun hu => ?_
    obtain ⟨ts, hts, hu⟩ := bind_eq_ok.1 hu
    cases hu
    rw [inferRows_eq_flatten] at hts
    exact lubAll_mono (hvs hts)
  | function params body hbody =>
    -- Whatever the body's type is, the function's is known by its parameters.
    intro w hw
    have hbody (g : ExprSite) : Yields m (g.generate body) fun _ => True :=
      (hbody (covered_unknown g m)).mono fun _ _ => trivial
    refine (closure_ensures hbody hw).mono ?_
    rintro r w' ⟨hw', hr, -⟩
    refine ⟨hw', fun hu => ?_⟩
    obtain ⟨-, -, hu⟩ := bind_eq_ok.1 hu
    cases hu
    rw [hr]
    exact leq_refl .function

lemma bounded_of_free {e : Expr} (h : ∀ name ∈ e.freeIdentifiers,
    Option.Rel (fun t u => t.leq u) (g.nameType? m name) (scope name)) :
    Bounded m g scope e := by
  let known : TypeScope := fun name =>
    if name ∈ e.freeIdentifiers then scope name else (g.nameType? m name).map fun _ => .unknown
  have hknown : g.Covered m known := by
    intro name
    by_cases hname : name ∈ e.freeIdentifiers
    · rw [show known name = scope name from if_pos hname]
      exact h name hname
    · rw [show known name = (g.nameType? m name).map fun _ => unknown from if_neg hname]
      exact covered_unknown g m name
  have heq : e.infer known = e.infer scope :=
    infer_congr e fun name hname => if_pos (mem_freeIdentifiers.2 hname)
  refine (generate_bounded e hknown).mono fun r hr u hu => hr ?_
  rwa [heq]

/-! ## Bodies of functions -/
section BodySite
variable {c : ClassId} {this args : LocalId} {params : Params}
  {captured : List (String × TypedLocal)} {fields : List FieldId} {d : Draft}
  {name : String}

lemma lookup_reverse_eq_none {bindings : FieldTypes}
    (h : name ∉ bindings.map (·.1)) : bindings.reverse.lookup name = none := by
  cases hlookup : bindings.reverse.lookup name with
  | none => rfl
  | some t => exact absurd (mem_map.2 ⟨_, mem_reverse.1 (mem_of_lookup hlookup), rfl⟩) h

def paramTypes (params : Params) : FieldTypes := params.map fun p => (p.1, p.2.getD .unknown)

lemma get?_bind {t : ValueType} : ((g.bind other l t).bindings.get? name).map (·.2) =
      ([(other, t)].lookup name).or ((g.bindings.get? name).map (·.2)) := by
  rw [ExprSite.bind]
  by_cases h : name = other
  · subst h
    rw [get?_insert_self, lookup_cons_self]
    rfl
  · rw [get?_insert_of_ne _ h, List.lookup_cons, beq_eq_false_iff_ne.2 h]
    rfl

lemma get?_bindParams (i : Nat) : ((bindParams g args i params d).1.bindings.get? name).map (·.2) =
      ((paramTypes params).reverse.lookup name).or ((g.bindings.get? name).map (·.2)) := by
  induction params generalizing g i d with
  | nil => rfl
  | cons param params ih =>
    obtain ⟨other, declared⟩ := param
    have hcons (t : ValueType) : ((paramTypes params).reverse ++ [(other, t)]).lookup name =
        ((paramTypes params).reverse.lookup name).or ([(other, t)].lookup name) :=
      lookup_append
    cases declared with
    | none | some t =>
      refine (ih (i + 1)).trans ?_
      rw [get?_bind, ← Option.or_assoc, ← hcons, paramTypes, paramTypes, map_cons, reverse_cons]
      rfl

lemma scope_bindParams (i : Nat) : (bindParams g args i params d).1.scope = g.scope := by
  induction params generalizing g i d with
  | nil => rfl
  | cons param params ih =>
    obtain ⟨other, declared⟩ := param
    cases declared with
    | none | some t => exact ih (i + 1)

lemma get?_bindCaptured (h : fields.length = captured.length) :
    ((bindCaptured g this captured fields d).1.bindings.get? name).map (·.2) =
      ((captured.map fun x => (x.1, x.2.2)).reverse.lookup name).or
        ((g.bindings.get? name).map (·.2)) := by
  induction captured generalizing g fields d with
  | nil => rw [bindCaptured.eq_def]; rfl
  | cons x captured ih =>
    obtain ⟨other, l, t⟩ := x
    obtain _ | ⟨f, fields⟩ := fields
    · cases h
    refine (ih (Nat.succ.inj h)).trans ?_
    rw [get?_bind, ← Option.or_assoc, ← lookup_append, map_cons, reverse_cons]

lemma scope_bindCaptured : (bindCaptured g this captured fields d).1.scope = g.scope := by
  induction captured generalizing g fields d with
  | nil => rw [bindCaptured.eq_def]; rfl
  | cons x captured ih =>
    obtain ⟨other, l, t⟩ := x
    cases fields with
    | nil => rw [bindCaptured.eq_def]; rfl
    | cons f fields => exact ih

lemma nameType?_of_scope_none (h : g.scope = none) :
    g.nameType? m name = (g.bindings.get? name).map (·.2) := by
  rw [nameType?, meaning?, h]
  cases g.bindings.get? name <;> rfl

lemma nameType?_bodySite (h : fields.length = captured.length) :
    (g.bodySite c this args params captured fields d).nameType? m name =
      ((captured.map fun x => (x.1, x.2.2)).reverse.lookup name).or
        ((paramTypes params).reverse.lookup name) := by
  let inner := bindParams ⟨c, none, none, g.subject, .empty⟩ args 0 params d
  have hinner : inner.1.scope = none := scope_bindParams 0
  have hsite : (g.bodySite c this args params captured fields d).scope = none :=
    scope_bindCaptured.trans hinner
  rw [nameType?_of_scope_none hsite]
  refine (get?_bindCaptured h).trans ?_
  rw [get?_bindParams, show (SortedMap.empty : SortedMap String TypedLocal).get? name =
    none from rfl, Option.map_none, Option.or_none]

lemma bodySite_covered {body : Expr}
    (hcaptures : g.Captures m (Expr.function params body).freeIdentifiers captured)
    (hfields : fields.length = captured.length)
    (hscope : ∀ name ∈ (Expr.function params body).freeIdentifiers,
      Option.Rel (fun t u => t.leq u) (g.nameType? m name) (scope name))
    (hparams : ∀ p ∈ params, ∀ t, p.2 = some t → t.IsCanonical)
    (hname : name ∈ body.freeIdentifiers) : Option.Rel (fun t u => t.leq u)
      ((g.bodySite c this args params captured fields d).nameType? m name)
      (TypeScope.bind (paramTypes params) scope name) := by
  rw [nameType?_bodySite hfields, TypeScope.bind]
  have hkeys : (paramTypes params).map (·.1) = params.map (·.1) := by
    rw [paramTypes, map_map]
    rfl
  by_cases hparam : name ∈ params.map (·.1)
  · -- A parameter is not free in the function, so that it is not captured.
    have hfree : name ∉ (captured.map fun x => (x.1, x.2.2)).map (·.1) := by
      rw [map_map]
      intro hmem
      obtain ⟨x, hx, rfl⟩ := mem_map.1 hmem
      have hx := mem_freeIdentifiers.1 (hcaptures.types x hx).1
      exact (mem_freeNames_function.1 hx).2 hparam
    obtain ⟨t, ht⟩ := Option.isSome_iff_exists.1 (lookup_reverse_isSome (hkeys ▸ hparam))
    rw [lookup_reverse_eq_none hfree, Option.none_or, ht, Option.some_or]
    refine .some (leq_refl ?_)
    obtain ⟨p, hp, hpt⟩ := mem_map.1 (mem_reverse.1 (mem_of_lookup ht))
    cases hpt
    cases hdeclared : p.2 with
    | none => exact .unknown
    | some t => exact hparams p hp t hdeclared
  · have hother : (paramTypes params).reverse.lookup name = none :=
      lookup_reverse_eq_none (hkeys ▸ hparam)
    rw [hother, Option.or_none, Option.none_or]
    have hmem : name ∈ (Expr.function params body).freeIdentifiers :=
      mem_freeIdentifiers.2 (mem_freeNames_function.2 ⟨mem_freeIdentifiers.1 hname, hparam⟩)
    have hrel := hscope name hmem
    cases hlookup : (captured.map fun x => (x.1, x.2.2)).reverse.lookup name with
    | some t =>
      obtain ⟨x, hx, hxt⟩ := mem_map.1 (mem_reverse.1 (mem_of_lookup hlookup))
      cases hxt
      rwa [(hcaptures.types x hx).2] at hrel
    | none =>
      have hother : name ∉ captured.map (·.1) := by
        intro hcaptured
        have hsome : ((captured.map fun x => (x.1, x.2.2)).reverse.lookup name).isSome :=
          lookup_reverse_isSome (by rw [map_map]; exact hcaptured)
        rw [hlookup] at hsome
        cases hsome
      rwa [hcaptures.others name hmem hother] at hrel
end BodySite

/-- **Code never claims a wider type than inference.**  In a scope that has the names that an
expression reads at the types at which the code has them, the type that goes with the code of the
expression is at most the inferred one, and calls are remembered faithfully still. Where the
expression is a function, its body is written for a class of its own, from what was captured; the
type that goes with the code of the body is at most the type inferred for it in the scope of the
function under its parameters. -/
theorem generate_type_leq_infer (g : ExprSite) (e : Expr) (scope : TypeScope) (w : Workbench)
    (hmemo : w.spec.memo.Faithful)
    (hscope : ∀ name ∈ e.freeIdentifiers, scope name = g.nameType? w.spec.model name)
    (hcanonical : ∀ name ∈ e.freeIdentifiers, ∀ t, scope name = some t → t.IsCanonical) :
    (∀ l t w', g.generate e w = .ok (l, t) w' → w'.spec.memo.Faithful ∧
      ∀ u, e.infer scope = .ok u → t.leq u) ∧ ∀ params body r w', e = .function params body →
      (∀ p ∈ params, ∀ t, p.2 = some t → t.IsCanonical) → g.generate e w = .ok r w' →
      ∃ captured w1 c this args fields d w2 l t w3,
        g.capture e.freeIdentifiers w = .ok captured w1 ∧ fields.length = captured.length ∧
        w2.spec.model = w.spec.model ∧ w2.spec.memo.Faithful ∧
        (g.bodySite c this args params captured fields d).generate body w2 = .ok (l, t) w3 ∧
        ∀ u, body.infer (TypeScope.bind (paramTypes params) scope) = .ok u → t.leq u := by
  have hw : w.spec.Resolves w.spec.model := ⟨rfl, hmemo⟩
  have hcovered : ∀ name ∈ e.freeIdentifiers,
      Option.Rel (fun t u => t.leq u) (g.nameType? w.spec.model name) (scope name) := by
    intro name hname
    have hcanon := hcanonical name hname
    rw [← hscope name hname]
    cases hs : scope name with
    | none => exact .none
    | some t => exact .some (leq_refl (hcanon t hs))
  refine ⟨fun l t w' hgen => ?_, ?_⟩
  · obtain ⟨hw', ht⟩ := bounded_of_free hcovered hw (l, t) w' hgen
    exact ⟨hw'.memo, fun u hu => ht hu⟩
  · rintro params body r w' rfl hparams hgen
    have hbody (g : ExprSite) : Yields w.spec.model (g.generate body) fun _ => True :=
      (generate_bounded body (covered_unknown g _)).mono fun _ _ => trivial
    obtain ⟨-, -, captured, w1, c, fields, hcapture, hcaptures, hfields, this, args, d, w2, ⟨l, t⟩,
      w3, hw2, hrun⟩ := closure_ensures hbody hw r w' hgen
    refine ⟨captured, w1, c, this, args, fields, d, w2, l, t, w3, hcapture, hfields, hw2.model,
      hw2.memo, hrun, fun u hu => ?_⟩
    have hbounded := bounded_of_free fun name hname =>
      @bodySite_covered _ g scope c this args params captured fields d name body hcaptures hfields
        hcovered hparams hname
    exact (hbounded hw2 (l, t) w3 hrun).2 hu

lemma exists_of_run' {α : Type} {x : Generation α} {a : α}
    (h : EStateM.run' x w = some a) : ∃ w', x w = .ok a w' := by
  unfold EStateM.run' EStateM.run at h
  cases hx : x w with
  | ok b w' =>
    rw [hx] at h
    cases h
    exact ⟨w', rfl⟩
  | error f w' =>
    rw [hx] at h
    cases h

/-- `function (y:int) x.toString() + y`, where nothing is known of `x`: inference gives up on the
body, and the code of the body has a string. -/
theorem generate_type_leq_infer_of_unknown :
    let g : ExprSite := ⟨0, none, none, "", SortedMap.empty.insert "x" (0, .unknown)⟩
    let scope : TypeScope := TypeScope.bind [("x", .unknown)] fun _ => none
    let w : Workbench :=
      ⟨.start .empty {}, .ofBody { Body.empty with locals := #[⟨"x", tokenType⟩] }⟩
    let body : Expr := .sum (.method (.ident "x") "toString" []) [(.add, .ident "y")]
    let e : Expr := .function [("y", some .int)] body
    ∃ l w', g.generate e w = .ok (l, .function 1) w' ∧ w'.spec.memo.Faithful ∧
      ∃ captured w1 c this args fields d w2 l t w3,
        g.capture e.freeIdentifiers w = .ok captured w1 ∧
        (g.bodySite c this args [("y", some .int)] captured fields d).generate body w2 =
          .ok (l, t) w3 ∧
        body.infer (TypeScope.bind [("y", .int)] scope) = .ok .unknown ∧
        t.leq .unknown := by
  intro g scope w body e
  have hrun : ∃ l, EStateM.run' (g.generate e) w = some (l, .function 1) := ⟨1, by decide +kernel⟩
  obtain ⟨l, hrun⟩ := hrun
  obtain ⟨w', hgen⟩ := exists_of_run' hrun
  have hfree : e.freeIdentifiers = ["x"] := by decide +kernel
  have hname : ∀ name ∈ e.freeIdentifiers, name = "x" := by
    rw [hfree]
    exact fun name hname => mem_singleton.1 hname
  obtain ⟨hfirst, hbody⟩ := generate_type_leq_infer g e scope w CallMemo.faithful_empty
    (fun name h => by rw [hname name h]; rfl)
    (fun name h t ht => by rw [hname name h] at ht; cases ht; exact .unknown)
  have hparams : ∀ p ∈ [("y", some ValueType.int)], ∀ t, p.2 = some t → t.IsCanonical := by
    intro p hp t ht
    cases mem_singleton.1 hp
    cases ht
    exact .int
  obtain ⟨captured, w1, c, this, args, fields, d, w2, l', t, w3, hcapture, -, -, -, hrun', hle⟩ :=
    hbody _ _ _ _ rfl hparams hgen
  exact ⟨l, w', hgen, (hfirst _ _ _ hgen).1, captured, w1, c, this, args, fields, d, w2, l', t, w3,
    hcapture, hrun', rfl, hle _ rfl⟩
end ExprSite
end DataflowSpecializer
