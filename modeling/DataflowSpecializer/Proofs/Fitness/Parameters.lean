import DataflowSpecializer.Proofs.Fitness.Expression
import DataflowSpecializer.Proofs.Fitness.References
import DataflowSpecializer.Proofs.Fitness.Sites
import DataflowSpecializer.Reduce.Parameters

/-! # Fields for parameters keep states fit -/
namespace DataflowSpecializer
open Platform DataflowSpecializer.Specialization Draft List Option SortedMap Specialize Generation
  DataflowSpecializer.Action FieldFacts

lemma mapM_ok_forall {ε α β : Type} {f : α → Except ε β} {P : β → Prop} {xs : List α}
    {ys : List β} (h : xs.mapM f = .ok ys) (hf : ∀ x ∈ xs, ∀ y, f x = .ok y → P y) :
    ∀ y ∈ ys, P y := by
  intro y hy
  obtain ⟨x, hx, hxy⟩ := exists_of_forall₂ (forall₂_of_mapM h) hy
  exact hf x hx y hxy

namespace Parameters
variable {s s0 : Specialization} {settled : Bool} {c : ClassId} {V W : List Label} {n : Nat}
  {v owner : ObjectId} {m : MethodId} {self : Self} {f : FieldId} {a : Access} {b : Body}
  {call : Invocation}

lemma compute_ne {name : String} (h : name.toList.head? ≠ some '_') :
    "_CGcompute_" ++ suffix ≠ name := by
  rintro rfl
  rw [String.toList_append] at h
  exact h rfl

lemma permits_compute {m : MethodRef} (h : m.name = "_CGcompute_" ++ suffix) :
    s.Permits settled c (.call m) := by
  refine ⟨?_, fun _ => ?_, fun hname => ?_⟩
  iterate 2
    · rw [h]
      exact compute_ne (by decide)
  · rw [h] at hname
    exact hname.elim (absurd · (compute_ne (by decide))) (absurd · (compute_ne (by decide)))

lemma computeCode_generates (hs : s.program.Layout) (hf : s.Permits settled c (.store f)) :
    GeneratesCode settled c none V W s n (computeCode v owner k f e) := by
  have hstore {this n : Nat} {x : Operand} (hthis : this < n) (hx : OperandsTaken n [x]) :
      GeneratesCode settled c none V W s n (do
        liftM (Draft.storeField this f x)
        liftM (Draft.ret none)) :=
    .draft_bind (fun _ h => storeField_tidy hthis hx (h.permits hs hf)) fun _ _ _ _ =>
      .ofDrafting fun _ _ => ret_tidy (by simp)
  refine .spec_bind fun s' _ _ => receiver_generates.bind fun this n1 h1 hthis => ?_
  cases e with
  | none => exact hstore hthis (by simp)
  | some e =>
    refine (ExprSite.generate_generates e (ExprSite.usable_empty fun h => by cases h)).bind fun r n2 h2 hr => ?_
    dsimp only
    split
    · exact .draft_bind (fun _ _ => convert_tidy _ hr) fun l n3 h3 hl => hstore (by omega) (by simpa)
    · exact hstore (by omega) (by simpa)

lemma callComputes_generates (hs0 : s0.Fit settled) {this : Nat} {self : ObjectId}
    (vs : List ObjectId) (hthis : this < n) :
    GeneratesCode settled c none V W s n (callComputes s0 this self vs) := by
  induction vs generalizing n with
  | nil => exact .pure fun _ _ => trivial
  | cons v vs ih =>
    unfold callComputes
    split
    · exact ih hthis
    · rename_i m hm
      split
      · exact .throw fun h => by cases h
      · obtain ⟨-, suffix, hname⟩ := hs0.computeMethods v m hm
        exact (reference_generates hthis fun h => by cases h).bind fun target n1 h1 htarget =>
          .draft_bind (fun _ _ => callPermitted_tidy htarget (by simp) (permits_compute hname))
            fun _ n2 h2 _ => ih (by omega)

lemma referToOwner_generates {a : ObjectId} (hself : self.this < n) :
    Generates settled c none V W s n (referToOwner s0 self a) (fun _ => W) fun n (l : Nat) => l < n := by
  unfold referToOwner
  split
  · exact .throw fun h => by cases h
  · exact reference_generates hself fun h => by cases h

lemma notifyAll_generates (hs0 : s0.Fit settled)
    (ws : List ObjectId) (hself : self.this < n) (hbase : base < n) :
    GeneratesCode settled c none V W s n (notifyAll s0 self v base ws) := by
  induction ws generalizing n with
  | nil => exact .pure fun _ _ => trivial
  | cons w ws ih =>
    unfold notifyAll
    split
    · exact .throw fun h => by cases h
    split
    · exact ih hself hbase
    · rename_i owner changed hchanged
      obtain ⟨k, hk, hchanged⟩ := bind_eq_some_iff.1 hchanged
      obtain ⟨-, -, -, hname⟩ := hs0.layout.method? (hs0.objectClass hk).lt hchanged
      have hreserved : isReserved (s0.program.methodRef changed).name = false := by
        show isReserved (s0.program.methodDecl changed).name = false
        rw [hname]
        decide
      refine (reference_generates hself fun h => by cases h).bind
        fun target n1 h1 htarget => ?_
      have hcall {l n : Nat} (hn : n1 ≤ n) (hl : l < n) : GeneratesCode settled c none V W s n (do
          let arg ← Draft.cast "attribute" (.object attributeClass) l
          Draft.call target (s0.program.methodRef changed) [.loc arg]
          notifyAll s0 self v base ws) :=
        .draft_bind (fun _ _ => cast_tidy hl) fun arg n2 h2 harg =>
          .draft_bind (fun _ _ => call_tidy (htarget.trans_le (hn.trans h2))
            (by simpa) hreserved) fun _ n3 h3 _ => ih (Nat.lt_of_lt_of_le hself (by omega)) (by omega)
      dsimp only
      split
      · exact hcall .refl (by omega)
      · exact (reference_generates (hself.trans_le h1)
          fun h => by cases h).bind fun l n2 h2 hl => hcall h2 hl

lemma permits_write (hs : s.Fit settled)
    (hf : s.valueFields.get? v = some f) (hv : s.constancy.isConstant v = false) :
    s.Permits settled c (.store f) := by
  obtain ⟨hlt, hkind, hfinal⟩ := hs.valueFields v f hf
  exact ⟨⟨hlt, .inr hkind⟩, hfinal hv, .inr ⟨v, hf, hv⟩⟩

lemma writeCode_generates (hs0 : s0.Fit settled) (h0 : s0.Extends s) {base : Nat}
    {value : Operand} {v : ObjectId} (hself : self.this < n) (hbase : base < n)
    (hvalue : OperandsTaken n [value]) (hv : s0.constancy.isConstant v = false) :
    GeneratesCode settled c none V W s n (writeCode s0 self base value v) := by
  unfold writeCode
  split
  · exact .throw fun h => by cases h
  rename_i f hf
  have hf : s0.valueFields.get? v = some f := by
    unfold valueField at hf
    split at hf
    · cases hf
      assumption
    · cases hf
  have hstore {x : Operand} {n' : Nat} (hn : n ≤ n') (hx : OperandsTaken n' [x]) :
      GeneratesCode settled c none V W s n' (do
        let owner ← referToOwner s0 self v
        Draft.storeField owner f x
        callComputes s0 self.this self.object (s0.constancy.affectedBy v)
        notifyAll s0 self v base (v :: s0.constancy.affectedBy v)) := by
    have hthis := hself.trans_le hn
    refine (referToOwner_generates hthis).bind fun owner n1 h1 howner => ?_
    refine .draft_bind (fun s' h => storeField_tidy howner (hx.mono h1)
      ((h0.trans h).permits hs0.layout (permits_write hs0 hf hv))) fun _ n2 h2 _ => ?_
    have hthis2 := hthis.trans_le (h1.trans h2)
    exact (callComputes_generates hs0 _ hthis2).bind fun _ n3 h3 _ =>
      notifyAll_generates hs0 _ (hthis2.trans_le h3) (by omega)
  split
  · dsimp only
    split
    · rename_i l _
      have hl : (l : Nat) < n := by simpa using hvalue
      exact .draft_bind (fun _ _ => convert_tidy _ hl) fun l n1 h1 hl => hstore h1 (by simpa)
    · exact hstore .refl hvalue
  · exact hstore .refl hvalue

/-! ## Fields and methods of variables -/
lemma addCompute_runs (hs : s.Fit settled)
    (hv : v ∈ s.model.variableIds) (hchanging : s.constancy.isConstant v = false)
    (howner : s.model.container v = some owner)
    (hc : s.classOf.get? owner = some c) (hfield : (s.valueFields.get? v).isSome)
    (hstore : s.Permits settled c (.store f))
    (hnew : s.DistinctNames → ∀ m ∈ (s.program.classDecl c).methods,
      (s.program.methodDecl m).name ≠ "_CGcompute_" ++ sanitize (s.model.name v)) :
    Runs false (addCompute v owner c f (sanitize (s.model.name v))) s fun _ s' =>
      s'.Fit settled ∧ s.Advances s' ∧ s'.valueFields = s.valueFields := by
  have hclass := hs.objectClass hc
  refine (addMethod_runs hs hclass.lt hclass.live ((isMethodName_object hclass.kind).2
    (.inr ⟨v, hv, hchanging, owner, howner, hc, hfield, rfl⟩)) _ _ hnew).bind fun m s1 h1 => ?_
  refine .get_bind ((check_runs fun h => by cases h).bind ?_)
  rintro e s1 ⟨rfl, -⟩
  refine (extend_runs h1.fit h1.lt h1.live (fun h => by cases h)
    (computeCode_generates h1.fit.layout (h1.owner.symm ▸ h1.permits hs.layout hstore))).bind
      fun _ s2 h2 => ?_
  obtain ⟨hs3, h3⟩ := h2.fit.insertCompute (v := v) (h1.lt.trans_le h2.program.methods)
    ⟨_, (h2.program.methodName h1.lt).trans h1.name⟩
  have hinit : "<init>" ∉ ["_CGcompute_" ++ sanitize (s.model.name v)] := fun h =>
    compute_ne (by decide) (mem_singleton.1 h).symm
  exact .modify ⟨hs3, (h1.advances hs.layout hinit).trans
    ((h2.toSpawns.trans h3).advances h1.fit.layout), h3.values.trans (h2.values.trans h1.values)⟩

lemma fixField_ensures {value : Option Value} : Ensures (fixField f value) s fun _ s' => ∃ facts,
      (∀ g o, s.facts.object? g = some o → facts.object? g = some o) ∧ s' = { s with
        program := s.program.modifyField f fun d => { d with isFinal := true, initial := value }
        facts := facts } := by
  refine .bind (R := fun _ s' => s' = { s with
    program := s.program.modifyField f fun d => { d with isFinal := true, initial := value } })
    (.modify rfl) ?_
  rintro _ _ rfl
  split
  · exact onFacts_ensures fun facts hfacts => ⟨facts, fun _ _ => object?_setValue hfacts, rfl⟩
  · exact .pure ⟨s.facts, fun _ _ h => h, rfl⟩

structure Missing (s : Specialization) (v owner : ObjectId) (c : ClassId) : Prop where
  mem : v ∈ s.model.variableIds
  container : s.model.container v = some owner
  class_ : s.classOf.get? owner = some c
  field : s.valueFields.get? v = none

lemma Missing.noCompute (hs : s.Fit settled) (h : Missing s v owner c)
    (hchanging : s.constancy.isConstant v = false) (hdistinct : s.DistinctNames)
    (hm : m ∈ (s.program.classDecl c).methods) :
    (s.program.methodDecl m).name ≠ "_CGcompute_" ++ sanitize (s.model.name v) := by
  have hclass := hs.objectClass h.class_
  obtain ⟨hlt, howner⟩ := hs.layout.methods c hclass.lt m hm
  have hname := hs.methodNames m hlt
  rw [howner, isMethodName_object hclass.kind] at hname
  intro heq
  rw [heq] at hname
  rcases hname with hname | ⟨v', hv', hchanging', o, ho, hc, hfield, hname⟩
  · have hcommon : ∀ name ∈ commonMethods, name.toList.head? ≠ some '_' := by decide
    exact compute_ne (hcommon _ hname) rfl
  · obtain rfl : owner = o := by
      by_contra hne
      exact hs.class_ne hc h.class_ hne rfl
    have hsame : sanitize (s.model.name v) = sanitize (s.model.name v') :=
      String.append_right_inj _ |>.1 hname
    obtain rfl := hdistinct.values v h.mem v' hv' hchanging hchanging' (h.container.trans ho.symm)
      hsame
    rw [h.field] at hfield
    cases hfield

lemma addVariable_ensures (hs : s.Fit settled) (h : Missing s v owner c) :
    Ensures (addVariable v owner c info) s fun _ s' => s'.Fit settled ∧ s.Advances s' ∧
      ∀ w ≠ v, s'.valueFields.get? w = s.valueFields.get? w := by
  have hclass := hs.objectClass h.class_
  have hp := Program.addField_newField hs.layout hclass.lt
    ("_CGvalue_" ++ sanitize (s.model.name v)) tokenType
  have hdecl := s.program.addField_fieldDecl_new c ("_CGvalue_" ++ sanitize (s.model.name v)) tokenType
  generalize hadd : s.program.addField c ("_CGvalue_" ++ sanitize (s.model.name v)) tokenType =
    added at hp hdecl
  -- The record of the new field comes on top of the old ones.
  have hkeep (w : ObjectId) (g : FieldId) (hw : s.valueFields.get? w = some g) :
      (s.valueFields.insert v s.program.fields.size).get? w = some g :=
    get?_insert_of_some h.field hw
  have hothers (w : ObjectId) (hw : w ≠ v) :
      (s.valueFields.insert v s.program.fields.size).get? w = s.valueFields.get? w :=
    get?_insert_of_ne _ hw _
  refine .get_bind ?_
  refine .bind (R := fun f s' => f = s.program.fields.size ∧ s' = { s with program := added.2 })
    (onProgram_ensures (by subst hadd; exact ⟨rfl, rfl⟩)) ?_
  rintro _ _ ⟨rfl, rfl⟩
  refine .bind (R := fun _ s' => ∃ facts,
    (∀ g o, s.facts.object? g = some o → facts.object? g = some o) ∧
      s' = { s with program := added.2, facts := facts })
    (onFacts_ensures fun facts h => ⟨facts, fun _ _ => object?_setType h, rfl⟩) ?_
  rintro _ _ ⟨facts, hfacts, rfl⟩
  refine .bind (R := fun _ s' => s' = { s with
    program := added.2, facts := facts
    valueFields := s.valueFields.insert v s.program.fields.size }) (.modify rfl) ?_
  rintro _ s1 rfl
  split
  · rename_i hconstant
    refine fixField_ensures.bind ?_
    rintro _ _ ⟨facts', hfacts', rfl⟩
    have hp' := hp.modifyField (g := fun d => { d with isFinal := true, initial := info.value })
      (fun _ => rfl) fun _ => rfl
    obtain ⟨hfit, hext⟩ := hs.newField hp' facts' (fun g o h => hfacts' g o (hfacts g o h))
      (s.valueFields.insert v s.program.fields.size) s.expressionFields s.refFields hkeep
      (fun w g hg => (get?_insert_eq_some hg).symm.imp_right fun ⟨hw, hg⟩ =>
        ⟨hg, hclass.kind, fun hchanging => by rw [hw, hconstant] at hchanging; cases hchanging⟩)
      (fun _ _ h => h) (fun _ _ => .inl) fun _ _ => .inl
    exact .pure ⟨hfit, hext.advances hs.layout hp' rfl, hothers⟩
  · rename_i hnot
    have hchanging := Bool.of_not_eq_true hnot
    obtain ⟨hfit, hext⟩ := hs.newField hp facts hfacts (s.valueFields.insert v s.program.fields.size)
      s.expressionFields s.refFields hkeep
      (fun w g hg => (get?_insert_eq_some hg).symm.imp_right fun ⟨_, hg⟩ =>
        ⟨hg, hclass.kind, fun _ => by rw [hg, hdecl]⟩)
      (fun _ _ h => h) (fun _ _ => .inl) fun _ _ => .inl
    let s1 : Specialization := { s with
      program := added.2, facts := facts
      valueFields := s.valueFields.insert v s.program.fields.size }
    have hstore : s1.Permits settled c (.store s.program.fields.size) :=
      (permits_newField settled hp rfl (by rw [hdecl])).2
    refine (addCompute_runs hfit h.mem hchanging h.container h.class_ ?_ hstore
      fun hdistinct m hm => ?_).1.bind fun _ s2 ⟨hs2, h2, hvalues⟩ =>
        .pure ⟨hs2, (hext.advances hs.layout hp rfl).trans h2, fun w hw => ?_⟩
    · simp [get?_insert_self]
    · have hm' : m ∈ (s.program.classDecl c).methods := hp.sameMembers c ▸ hm
      have hlt := (hs.layout.methods c hclass.lt m hm').1
      show (added.2.methodDecl m).name ≠ _
      rw [hp.methodName hlt]
      exact h.noCompute hs hchanging (hext.distinctNames hdistinct) hm'
    · rw [hvalues]
      exact hothers w hw

lemma addVariables_ensures (xs : List (ObjectId × ObjectId × ClassId × Model.Variable))
    (hs : s.Fit settled) (hnodup : (xs.map (·.1)).Nodup)
    (hxs : ∀ x ∈ xs, Missing s x.1 x.2.1 x.2.2.1) :
    Ensures (addVariables xs) s fun _ s' => s'.Fit settled ∧ s.Advances s' := by
  induction xs generalizing s with
  | nil => exact .pure ⟨hs, .refl s⟩
  | cons x xs ih =>
    obtain ⟨v, owner, c, info⟩ := x
    obtain ⟨hv, hnodup⟩ := nodup_cons.1 hnodup
    refine (addVariable_ensures hs (hxs _ (.head _))).bind fun _ s1 ⟨hs1, h1, hothers⟩ => ?_
    refine (ih hs1 hnodup fun x hx => ?_).bind fun _ s2 ⟨hs2, h2⟩ => .pure ⟨hs2, h1.trans h2⟩
    obtain ⟨hmem, hcontainer, hclass, hfield⟩ := hxs x (.tail _ hx)
    have hne : x.1 ≠ v := fun h => hv (List.mem_map.2 ⟨x, hx, h⟩)
    exact ⟨h1.model ▸ hmem, h1.model ▸ hcontainer, h1.classOf ▸ hclass,
      (hothers x.1 hne).trans hfield⟩

lemma nodup_map_filterMap {α : Type} {f : ObjectId → Option α} {g : α → ObjectId}
    (h : ∀ o x, f o = some x → g x = o) {os : List ObjectId} (hos : os.Nodup) :
    ((os.filterMap f).map g).Nodup := by
  rw [map_filterMap]
  refine hos.filterMap fun o o' b hb hb' => ?_
  obtain ⟨x, hx, rfl⟩ := map_eq_some_iff.1 hb
  obtain ⟨x', hx', heq⟩ := map_eq_some_iff.1 hb'
  rw [← h o x hx, ← h o' x' hx', heq]

lemma withoutField_missing (s : Specialization) :
    ((withoutField s).map (·.1)).Nodup ∧ ∀ x ∈ withoutField s, Missing s x.1 x.2.1 x.2.2.1 := by
  have hfound {v : ObjectId} {x : ObjectId × ObjectId × ClassId × Model.Variable}
      (h : (if s.valueFields.contains v then none else do
        let owner ← s.model.container v
        let c ← s.classOf? owner
        let info ← s.model.var? v
        return (v, owner, c, info)) = some x) :
      x.1 = v ∧ s.model.container v = some x.2.1 ∧ s.classOf.get? x.2.1 = some x.2.2.1 ∧
        s.valueFields.get? v = none := by
    split at h
    · cases h
    · rename_i hnone
      obtain ⟨owner, howner, h⟩ := bind_eq_some_iff.1 h
      obtain ⟨c, hc, h⟩ := bind_eq_some_iff.1 h
      obtain ⟨info, -, h⟩ := bind_eq_some_iff.1 h
      cases h
      exact ⟨rfl, howner, hc, by simpa [SortedMap.contains] using hnone⟩
  refine ⟨nodup_map_filterMap (fun v x h => (hfound h).1) (nodup_range.filter _),
    fun x hx => ?_⟩
  obtain ⟨v, hv, hx⟩ := mem_filterMap.1 hx
  obtain ⟨rfl, hcontainer, hclass, hfield⟩ := hfound hx
  exact ⟨hv, hcontainer, hclass, hfield⟩

structure MissingText (s : Specialization) (a : ObjectId) (c : ClassId) : Prop where
  class_ : ∃ owner, s.classOf.get? owner = some c
  field : s.expressionFields.get? a = none

lemma addExpressions_ensures (xs : List (ObjectId × ClassId × String)) (hs : s.Fit settled)
    (hnodup : (xs.map (·.1)).Nodup) (hxs : ∀ x ∈ xs, MissingText s x.1 x.2.1) :
    Ensures (addExpressions xs) s fun _ s' => s'.Fit settled ∧ s.Advances s' := by
  induction xs generalizing s with
  | nil => exact .pure ⟨hs, .refl s⟩
  | cons x xs ih =>
    obtain ⟨a, c, text⟩ := x
    obtain ⟨ha, hnodup⟩ := nodup_cons.1 hnodup
    obtain ⟨⟨owner, howner⟩, hfield⟩ := hxs _ (.head _)
    have hclass := hs.objectClass howner
    have hp := Program.addField_newField hs.layout hclass.lt
      ("_CGexpr_" ++ sanitize (s.model.name a)) .string
    generalize hadd : s.program.addField c ("_CGexpr_" ++ sanitize (s.model.name a)) .string =
      added at hp
    refine .get_bind ?_
    refine .bind (R := fun f s' => f = s.program.fields.size ∧ s' = { s with program := added.2 })
      (onProgram_ensures (by subst hadd; exact ⟨rfl, rfl⟩)) ?_
    rintro _ _ ⟨rfl, rfl⟩
    refine fixField_ensures.bind ?_
    rintro _ _ ⟨facts, hfacts, rfl⟩
    have hp' := hp.modifyField (g := fun d => { d with isFinal := true, initial := some (.string text) })
      (fun _ => rfl) fun _ => rfl
    obtain ⟨hfit, hext⟩ := hs.newField hp' facts hfacts s.valueFields (s.expressionFields.insert a s.program.fields.size) s.refFields
      (fun _ _ h => h) (fun _ _ => .inl) (fun _ _ => get?_insert_of_some hfield)
      (fun b g hg => (get?_insert_eq_some hg).symm.imp_right fun ⟨_, hg⟩ =>
        ⟨hg, hclass.kind⟩) fun _ _ => .inl
    refine .bind (.modify (Q := fun _ s' => s' = _) rfl) ?_
    rintro _ _ rfl
    refine (ih hfit hnodup fun x hx => ?_).mono fun _ s2 ⟨hs2, h2⟩ =>
      ⟨hs2, (hext.advances hs.layout hp' rfl).trans h2⟩
    obtain ⟨hclass, hfield⟩ := hxs x (.tail _ hx)
    have hne : x.1 ≠ a := fun h => ha (List.mem_map.2 ⟨x, hx, h⟩)
    exact ⟨hclass, (get?_insert_of_ne _ hne _).trans hfield⟩

lemma missingText_of_found {s : Specialization} {a : ObjectId} {x : ObjectId × ClassId × String}
    (h : (match s.model.kind a with
      | .settable text =>
        if s.expressionFields.contains a then none
        else ((s.model.container a).bind s.classOf?).map fun c => (a, c, text)
      | _ => none) = some x) : x.1 = a ∧ MissingText s a x.2.1 := by
  split at h
  · split at h
    · cases h
    · rename_i hnone
      obtain ⟨c, hc, rfl⟩ := map_eq_some_iff.1 h
      obtain ⟨owner, -, hc⟩ := bind_eq_some_iff.1 hc
      exact ⟨rfl, ⟨owner, hc⟩, by simpa [SortedMap.contains] using hnone⟩
  · cases h

lemma withoutExpression_missing (s : Specialization) : ((withoutExpression s).map (·.1)).Nodup ∧
      ∀ x ∈ withoutExpression s, MissingText s x.1 x.2.1 := by
  refine ⟨nodup_map_filterMap (fun a x h => (missingText_of_found h).1) nodup_range,
    fun x hx => ?_⟩
  obtain ⟨a, -, hx⟩ := mem_filterMap.1 hx
  obtain ⟨rfl, hmissing⟩ := missingText_of_found hx
  exact hmissing

lemma computeAtStart_runs (vs : List ObjectId) (hs : s.Fit settled) :
    Runs false (computeAtStart vs) s fun _ s' => s'.Fit settled ∧ s.Advances s' := by
  refine (classFor_runs fun h => by cases h).bind ?_
  rintro c s ⟨rfl, hc⟩
  refine methodNamed_ensures.lax.bind ?_
  rintro init s ⟨rfl, hinit⟩
  obtain ⟨hm, hlive, -, -⟩ := hs.layout.method? (hs.objectClass hc).lt hinit
  have hcode : GeneratesCode settled (s.program.methodDecl init).owner none [] [] s
      (s.program.body init).locals.size (do
        let this ← receiver "parameter inlining" "constructor"
        callComputes s this Model.top (s.constancy.changingOrder.filter vs.contains)) :=
    receiver_generates.bind fun this n1 h1 hthis => callComputes_generates hs _ hthis
  refine .get_bind ?_
  exact .mono (writeBody_runs (N := fun _ _ => True) hs hm (hs.bodies init hm hlive)
    (fun h => by cases h) hcode (fun _ _ _ _ => trivial) rfl
    fun _ _ hd => ⟨hd.insertAt _, Nat.le_add_right _ _, fun h => by cases h⟩)
    fun _ s' h' => ⟨h'.1.fit, h'.1.advances hs.layout⟩

lemma addMissing_ensures (hs : s.Fit settled) :
    Ensures addMissing s fun _ s' => s'.Fit settled ∧ s.Advances s' := by
  refine .get_bind ?_
  obtain ⟨hnodup, hfields⟩ := withoutField_missing s
  refine (addVariables_ensures _ hs hnodup hfields).bind fun changing s1 ⟨hs1, h1⟩ => .get_bind ?_
  obtain ⟨hnodup, htexts⟩ := withoutExpression_missing s1
  refine (addExpressions_ensures _ hs1 hnodup htexts).bind fun _ s2 ⟨hs2, h2⟩ => ?_
  split
  · exact (computeAtStart_runs changing hs2).1.bind fun _ s3 ⟨hs3, h3⟩ =>
      .pure ⟨hs3, (h1.trans h2).trans h3⟩
  · exact .pure ⟨hs2, h1.trans h2⟩

def Access.Valid (settled : Bool) (s : Specialization) (b : Body) : Access → Prop
  | .read stmt result v => b.Plain stmt ∧ result < b.locals.size ∧
      ∃ f, s.valueFields.get? v = some f ∧ s.program.isLiveField f
  | .text stmt result _ => b.Plain stmt ∧ result < b.locals.size
  | .expression stmt result _ => b.Plain stmt ∧ result < b.locals.size ∧ settled = false
  | .write stmt base value v => b.Plain stmt ∧ base < b.locals.size ∧
      OperandsTaken b.locals.size [value] ∧ s.constancy.isConstant v = false
  | .drop stmt => b.Plain stmt

lemma Access.Valid.retained {b : Body} (ha : a.Valid settled s b)
    (h : b.Retains b') : a.Valid settled s b' := by
  cases a with
  | read stmt result v | expression stmt result v =>
    exact ⟨h.plain _ ha.1, ha.2.1.trans_le h.size, ha.2.2⟩
  | text stmt result text => exact ⟨h.plain _ ha.1, ha.2.trans_le h.size⟩
  | write stmt base value v =>
    exact ⟨h.plain _ ha.1, ha.2.1.trans_le h.size, ha.2.2.1.mono h.size, ha.2.2.2⟩
  | drop stmt => exact h.plain _ ha

lemma examineKnown_valid {self : Bool} {stmt : Stmt}
    {base : LocalId} {o : ObjectId} (hplain : b.Plain stmt.id)
    (hlocals : ∀ l ∈ stmt.action.mentions, l < b.locals.size)
    (hcall : stmt.action.call? = some call) (hbase : call.base = some base)
    (hpermit : s.Permits settled c (.call call.method))
    (h : examineKnown s m self stmt call base o = .ok (some a)) : a.Valid settled s b := by
  have hcalled (l : LocalId) (hl : l ∈ call.locals) : l < b.locals.size :=
    hlocals l (call?_locals_subset hcall hl)
  unfold examineKnown at h
  split at h
  · rename_i hl
    split at h
    · rename_i hself
      obtain ⟨-, hlive⟩ := Bool.and_eq_true_iff.1 hself
      obtain ⟨f, hf, hlive⟩ := (Option.any_eq_true _ _).1 hlive
      cases h
      exact ⟨hplain, hlocals _ (target?_mem_mentions hl), f, hf, hlive⟩
    · cases h
  · rename_i hl
    cases h
    exact ⟨hplain, hlocals _ (target?_mem_mentions hl)⟩
  · rename_i hname _ hl
    split at h
    · cases h
      refine ⟨hplain, hlocals _ (target?_mem_mentions hl), ?_⟩
      cases settled with
      | false => rfl
      | true => exact absurd hname (hpermit.2.1 rfl)
    · cases h
  · split at h
    · cases h
    · rename_i hconstant
      split at h
      · cases h
        refine ⟨hplain, hcalled base (mem_append_left _ (mem_toList.2 hbase)), ?_,
          Bool.of_not_eq_true hconstant⟩
        cases hargs : call.args with
        | nil => exact operandsTaken_cons_const.2 operandsTaken_nil
        | cons x xs =>
          refine fun l hl => hcalled l (mem_append_right _ ?_)
          rw [hargs, flatMap_cons]
          exact mem_append_left _ (by simpa using hl)
      · cases h
  iterate 2
    · split at h
      · cases h
        exact hplain
      · cases h
  · cases h

lemma examine_valid {self : Bool} {map : ObjectMap} {stmt : Stmt} (hplain : b.Plain stmt.id)
    (hlocals : ∀ l ∈ stmt.action.mentions, l < b.locals.size)
    (hcall : stmt.action.call? = some call) (hpermit : s.Permits settled c (.call call.method))
    (h : examine s m self map stmt call = .ok (some (.access a))) : a.Valid settled s b := by
  unfold examine at h
  by_cases hdispatch : call.dispatch ≠ .virtual
  · rw [if_pos hdispatch] at h
    cases h
  rw [if_neg hdispatch] at h
  split at h
  · cases h
    exact hplain
  split at h
  · cases h
  split at h
  · cases h
  rename_i base hbase
  split at h
  · cases h
  · dsimp only at h
    split at h <;> cases h
  · obtain ⟨r, hr, h⟩ := map_eq_ok.1 h
    obtain ⟨a', ha, h⟩ := map_eq_some_iff.1 h
    cases h
    subst ha
    exact examineKnown_valid hplain hlocals hcall hbase hpermit hr

lemma findings_valid {found : List Finding} (hs : s.Fit settled)
    (hm : m < s.program.methods.size) (hlive : s.program.isLiveMethod m)
    (h : findings s m = .ok found) :
    ∀ a ∈ accesses found, a.Valid settled s (s.program.body m) := by
  have hb := hs.bodies m hm hlive
  obtain ⟨found', hfound, h⟩ := bind_eq_ok.1 h
  cases h
  intro a ha
  obtain ⟨x, hx, ha⟩ := mem_filterMap.1 ha
  obtain ⟨y, hy, rfl⟩ := mem_filterMap.1 hx
  cases x with
  | ambiguous call => cases ha
  | access a' =>
    cases ha
    refine mapM_ok_forall (P := fun y => ∀ a, y = some (Finding.access a) →
      a.Valid settled s (s.program.body m)) hfound ?_ _ hy a rfl
    rintro x hmem y hy a rfl
    obtain ⟨stmt, hstmt, hx⟩ := mem_filterMap.1 hmem
    obtain ⟨call, hcall, rfl⟩ := map_eq_some_iff.1 hx
    have hplain := Body.Plain.of_mem hb hstmt (label?_of_call? hcall)
    have hcode : stmt.action ∈ (s.program.body m).code := List.mem_map_of_mem hstmt
    exact examine_valid hplain (hb.locals _ hcode) hcall
      (hb.demands _ hcode _ (call?_mem_demands hcall)) hy

structure Replaced (settled : Bool) (c : ClassId) (s : Specialization) (b : Body)
    (s' : Specialization) (b' : Body) : Prop where
  fit : s'.Fit settled
  spawns : s.Spawns s'
  body : b'.Fits (s'.Permits settled c)
  retains : b.Retains b'

lemma insertBefore_fits {d : Draft} (hd : d.Tidy P [])
    (hgrows : (ofBody b).Grows d) (stmt : StmtId) : (insertBefore d.body stmt d.actions).Fits P ∧
      b.Retains (insertBefore d.body stmt d.actions) ∧
        (insertBefore d.body stmt d.actions).locals.size = d.size := by
  unfold insertBefore
  split
  · rename_i r hr
    obtain ⟨pos, hpos⟩ := Body.insertBefore?_eq hr
    obtain rfl : r = _ := congrArg Prod.snd hpos
    exact ⟨(hd.inserted hgrows pos).1, (hd.inserted hgrows pos).2, rfl⟩
  · exact ⟨hd.body, hgrows.retains, rfl⟩

variable {b : Body}

lemma replaceRead_ensures {stmt : StmtId} {result : LocalId} {a : ObjectId}
    {field : Except Fault FieldId} (hs : s.Fit settled) (hb : b.Fits (s.Permits settled c))
    (hself : self.this < b.locals.size) (hplain : b.Plain stmt) (hresult : result < b.locals.size)
    (hfield : ∀ f, field = .ok f → s.Permits settled c (.read f)) :
    Ensures (replaceRead s0 self b stmt result a field) s fun r s' =>
      r.1.isOk → Replaced settled c s b s' r.2 := by
  unfold replaceRead
  split
  · exact .pure nofun
  rename_i f
  refine (draft_fits (N := fun _ _ => True) hs hb (fun _ h => by cases h)
    (referToOwner_generates hself) fun _ _ _ => trivial).bind fun r s' h => ?_
  obtain ⟨r, d⟩ := r
  cases r with
  | error e => exact .pure nofun
  | ok owner =>
    obtain ⟨hwrites, hd, hgrows, howner, -⟩ := h.1 owner rfl
    obtain ⟨hfits, hretains, hsize⟩ := insertBefore_fits hd hgrows stmt
    refine .pure fun _ => ⟨hwrites.fit, hwrites.toSpawns, hfits.replace (hretains.plain _ hplain) (fun l hl => ?_) ?_,
      hretains.trans (.replace _ _ _ _)⟩
    · simp only [mentions, Action.set, Action.uses, target?, Rvalue.locals,
        toList_some, cons_append, nil_append, mem_cons, not_mem_nil,
        or_false] at hl
      rcases hl with rfl | rfl
      · exact hsize ▸ howner
      · exact hresult.trans_le hretains.size
    · simpa [Action.set, demands, Rvalue.demands] using
        hwrites.permits hs.layout (hfield f rfl)

lemma replace_ensures {self : Option Self} (hs0 : s0.Fit settled)
    (h0 : s0.Spawns s) (hs : s.Fit settled) (hb : b.Fits (s.Permits settled c))
    (hself : ∀ x ∈ self, x.this < b.locals.size) (ha : a.Valid settled s0 b) :
    Ensures (replace s0 self b a) s fun r s' =>
      r.1.isOk → Replaced settled c s b s' r.2 := by
  have hpure {b' : Body} (hb' : b'.Fits (s.Permits settled c)) (hretains : b.Retains b') :
      Ensures (pure (.ok b', b') : Specialize (Except Fault Body × Body)) s fun r s' =>
        r.1.isOk → Replaced settled c s b s' r.2 :=
    .pure fun _ => ⟨hs, .refl s, hb', hretains⟩
  cases a with
  | drop stmt => exact hpure (hb.remove ha) (.remove b stmt)
  | text stmt result text =>
    refine hpure (hb.replace ha.1 (fun l hl => ?_) fun _ h => by cases h) (.replace b stmt result _)
    obtain rfl : l = result := by
      simpa [mentions, Action.set, Action.uses, target?, Rvalue.locals,
        Operand.locals, Operand.string] using hl
    exact ha.2
  | read stmt result v =>
    cases self with
    | none => exact .pure fun h => by cases h
    | some self =>
      obtain ⟨hplain, hresult, f, hf, hlive⟩ := ha
      refine replaceRead_ensures hs hb (hself self rfl) hplain hresult fun g hg => ?_
      obtain ⟨hlt, hkind, -⟩ := hs0.valueFields v f hf
      rw [valueField, hf] at hg
      cases hg
      exact h0.permits hs0.layout (permits_read hlt hkind hlive c)
  | expression stmt result a =>
    cases self with
    | none => exact .pure fun h => by cases h
    | some self =>
      obtain ⟨hplain, hresult, rfl⟩ := ha
      refine replaceRead_ensures hs hb (hself self rfl) hplain hresult fun f hf => ?_
      have hf : s0.expressionFields.get? a = some f := by
        unfold expressionField at hf
        split at hf <;> cases hf
        assumption
      obtain ⟨hlt, hkind⟩ := hs0.expressionFields a f hf
      exact h0.permits hs0.layout ⟨⟨hlt, .inr hkind⟩, .inr ⟨rfl, a, hf⟩⟩
  | write stmt base value v =>
    cases self with
    | none => exact .pure fun h => by cases h
    | some self =>
      obtain ⟨hplain, hbase, hvalue, hv⟩ := ha
      refine (draft_fits (N := fun _ _ => True) hs hb (fun _ h => by cases h)
        (writeCode_generates hs0 h0.toExtends (hself self rfl) hbase hvalue hv)
        fun _ _ _ => trivial).bind fun r s' h => ?_
      obtain ⟨r, d⟩ := r
      cases r with
      | error e => exact .pure fun h => by cases h
      | ok u =>
        obtain ⟨hwrites, hd, hgrows, -⟩ := h.1 u rfl
        obtain ⟨hfits, hretains, -⟩ := insertBefore_fits hd hgrows stmt
        exact .pure fun _ => ⟨hwrites.fit, hwrites.toSpawns, hfits.remove (hretains.plain _ hplain),
          hretains.trans (.remove _ stmt)⟩

lemma replaceAll_ensures {self : Option Self} {as : List Access} (hs0 : s0.Fit settled)
    (h0 : s0.Spawns s) (hs : s.Fit settled) (hb : b.Fits (s.Permits settled c))
    (hself : ∀ x ∈ self, x.this < b.locals.size) (has : ∀ a ∈ as, a.Valid settled s0 b) :
    Ensures (replaceAll s0 self b as) s fun r s' => r.1 = .ok () → Replaced settled c s b s' r.2 := by
  induction as generalizing s b with
  | nil => exact .pure fun _ => ⟨hs, .refl s, hb, .refl b⟩
  | cons a as ih =>
    refine (replace_ensures hs0 h0 hs hb hself (has a (.head _))).bind fun r s1 h => ?_
    obtain ⟨r, b1⟩ := r
    cases r with
    | error f => exact .pure nofun
    | ok b' =>
      have h1 := h rfl
      refine (ih (h0.trans h1.spawns) h1.fit h1.body
        (fun x hx => (hself x hx).trans_le h1.retains.size)
        fun a ha => (has a (.tail _ ha)).retained h1.retains).mono fun r s2 h2 hr => ?_
      have h2 := h2 hr
      exact ⟨h2.fit, h1.spawns.trans h2.spawns, h2.body, h1.retains.trans h2.retains⟩

lemma reduceMethod_ensures (hs : s.Fit settled) (hm : m < s.program.methods.size)
    (hlive : s.program.isLiveMethod m) :
    Ensures (reduceMethod m) s fun _ s' => s'.Fit settled ∧ s.Spawns s' := by
  refine .get_bind (check_bind fun found hfound => ?_)
  have hvalid := findings_valid hs hm hlive hfound
  obtain ⟨all, hall⟩ := foldl_diagnostics (f := warn) (fun _ _ => ⟨_, rfl⟩) (warnings s m found) s
  obtain ⟨hs1, h1⟩ := hs.warned all
  refine .bind (.set (Q := fun _ s' => s' = { s with diagnostics := all }) hall) ?_
  rintro _ _ rfl
  dsimp only
  split
  · exact .pure ⟨hs1, h1⟩
  refine .get_bind ?_
  have hb := hs1.bodies m hm hlive
  refine (replaceAll_ensures hs1 (.refl _) hs1 hb (fun x hx => ?_) hvalid).bind fun r s2 h2 => ?_
  · split at hx
    · cases hx
      rename_i this o hthis _
      exact hb.entry this (mem_append_left _ (mem_toList.2 hthis))
    · cases hx
  obtain ⟨r, b⟩ := r
  cases r with
  | error f => exact .bind (R := fun _ _ => True) (.modify trivial) fun _ _ _ => .throw
  | ok u =>
    obtain ⟨hs2, h2, hb2, hretains⟩ := h2 rfl
    have howner : (s2.program.methodDecl m).owner = (s.program.methodDecl m).owner :=
      h2.program.methodOwner hm
    obtain ⟨hs3, -⟩ := hs2.setBody (m := m) (b := b) fun _ _ => howner ▸ hb2
    refine .bind (.modify (Q := fun _ s' => s' = _) rfl) ?_
    rintro _ _ rfl
    exact .pure ⟨hs3, (h1.trans h2).setBody hretains.nextStmt⟩

lemma reduce_ensures (hs : s.Fit settled) :
    Ensures reduce s fun _ s' => s'.Fit settled ∧ s.Advances s' :=
  (addMissing_ensures hs).bind fun _ _ ⟨hs1, h1⟩ => .get_bind <|
    (methods_ensures rfl (fun _ _ => rfl) reduceMethod_ensures _ hs1
      fun _ => hs1.mem_allLiveMethods).bind fun _ _ ⟨hs2, h2⟩ =>
        .pure ⟨hs2, h1.trans (h2.advances hs1.layout)⟩
end Parameters
end DataflowSpecializer
