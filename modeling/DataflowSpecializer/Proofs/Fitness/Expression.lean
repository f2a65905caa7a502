import DataflowSpecializer.Proofs.Fitness.Generation
import DataflowSpecializer.Proofs.Generate.Walks
import DataflowSpecializer.Proofs.Model.Equations

/-! # Code for expressions that fits -/
namespace DataflowSpecializer
open List SortedMap Generation Specialize
open Platform Draft DataflowSpecializer.Specialization

variable {name : String}

lemma Builtin.lookup?_callable {form : CallForm} {args : List ValueType}
    {f : Builtin} (h : lookup? name form args = some f) :
    f.isCallable ∧ args.length = f.params.length := by
  have haccepts := find?_some h
  simp only [accepts, Bool.and_eq_true, beq_iff_eq] at haccepts
  exact ⟨all_eq_true.1 isCallable_table f (mem_of_find?_eq_some h), haccepts.2.1.2.symm⟩

namespace ExprSite
variable {settled : Bool} {c : ClassId} {q : Option Nat} {V W : List Label} {s : Specialization}
  {n : Nat} {m : Model} {g : ExprSite} {fields : List FieldId}
  {body : ExprSite → Generation TypedLocal} {params : Params}
  {P : Demand → Prop} {args : List TypedLocal} {target : TypedLocal}
  {strict : Bool}

structure Usable (q : Option Nat) (m : Model) (n : Nat) (g : ExprSite) : Prop where
  below : ∀ name l t, g.bindings.get? name = some (l, t) → (l : Nat) < n
  sited : q.isSome → m.Shape ∧ ∀ o, g.scope = some o →
    ∃ self, g.self = some self ∧ self < m.objects.size

lemma Usable.mono {n' : Nat} (h : g.Usable q m n) (hn : n ≤ n') : g.Usable q m n' :=
  ⟨fun name l t hl => (h.below name l t hl).trans_le hn, h.sited⟩

lemma Usable.bind (h : g.Usable q m n) (hl : l < n) (name : String) (t : ValueType) :
    (g.bind name l t).Usable q m n := by
  refine ⟨fun name' l' t' h' => ?_, h.sited⟩
  rw [ExprSite.bind, get?_insert] at h'
  split at h'
  · cases h'
    exact hl
  · exact h.below name' l' t' h'

lemma usable_empty {owner : ClassId} {self scope : Option ObjectId} {subject : String}
    (h : q.isSome → m.Shape ∧ ∀ o, scope = some o →
      ∃ self', self = some self' ∧ self' < m.objects.size) :
    (ExprSite.mk owner self scope subject .empty).Usable q m n :=
  ⟨fun _ _ _ h => (by cases h), h⟩

lemma readVariable_generates {v : ObjectId}
    (hv : q.isSome → ∃ self, g.self = some self ∧ s.model.Joins self v) :
    GeneratesValue settled c q V W s n (g.readVariable v) := by
  refine .get_bind fun w _ hw hq _ => ?_
  split
  · rename_i o this ho hthis
    refine (reference_generates (hw.draft.receiver_lt hthis) fun hstrict => ?_).bind
      fun a n1 _ ha => .draft_bind (fun _ _ => callValue_tidy ha (by simp) (by decide))
        fun l n2 _ hl => .pure fun _ h => hl.trans_le h
    obtain ⟨self, hself, hjoins⟩ := hv hstrict
    obtain rfl := Option.some.inj (ho.symm.trans hself)
    exact hjoins
  · rename_i hnone
    refine .throw fun hstrict => ?_
    obtain ⟨k, hk⟩ := Option.isSome_iff_exists.1 hstrict
    obtain ⟨this, hthis⟩ := Option.isSome_iff_exists.1 (hq k hk).receiver
    obtain ⟨self, hself, -⟩ := hv hstrict
    exact absurd hthis (hnone self this hself)

lemma builtinConstant_generates : GeneratesValue settled c q V W s n (g.builtinConstant name) := by
  unfold builtinConstant
  split
  · exact .throw fun _ => rfl
  · refine .draft_bind (fun _ _ => boxed_tidy _) fun r n1 _ hr => ?_
    split
    · exact .pure fun _ h => (hr _ rfl).trans_le h
    · exact .throw fun _ => rfl

lemma readName_generates (hg : g.Usable q s.model n) {s' : Specialization} (hs' : s.Extends s')
    {meaning : NameMeaning} (h : g.meaning? s'.model name = some meaning) :
    GeneratesValue settled c q V W s n (g.readName meaning) := by
  rw [hs'.model] at h
  unfold meaning? at h
  split at h
  · rename_i l t hl
    cases h
    exact .pure fun _ hn => (hg.below name l t hl).trans_le hn
  · obtain ⟨v, hv, rfl⟩ := Option.map_eq_some_iff.1 h
    refine readVariable_generates fun hstrict => ?_
    obtain ⟨o, ho, hresolve⟩ := Option.bind_eq_some_iff.1 hv
    obtain ⟨hm, hsited⟩ := hg.sited hstrict
    obtain ⟨self, hself, hlt⟩ := hsited o ho
    have hv := Model.mem_variableIds.2 (Model.isVariable_of_resolve? hresolve)
    exact ⟨self, hself, hm, hlt, mem_range.1 (mem_filter.1 hv).1⟩

lemma callBuiltin_generates {form : CallForm} (hargs : ∀ a ∈ args, (a.1 : Nat) < n) :
    GeneratesValue settled c q V W s n (g.callBuiltin name form args) := by
  intro w hs hw hq hV hn
  obtain ⟨hfound, hfit, hspawns⟩ := hw.spec.remember name form (args.map (·.2))
  let w1 : Workbench :=
    { w with spec := { w.spec with memo := (w.spec.memo.resolve name form (args.map (·.2))).2 } }
  refine .get_bind (.bind (R := fun _ w' => w' = w1) (.set rfl) fun _ w' hw' => ?_)
  subst hw'
  split
  · exact .throw fun _ => rfl
  · rename_i f hf
    obtain ⟨hcallable, hlength⟩ := Builtin.lookup?_callable (hfound.symm.trans hf)
    have hcall : GeneratesValue settled c q V W s n (do
        let l ← Draft.callBuiltin f (args.map (·.1))
        return (l, f.resultType (args.map (·.2)))) := by
      refine .draft_bind (fun _ _ => callBuiltin_tidy hcallable (by simpa using hlength) ?_)
        fun l n1 _ hl => .pure fun _ h => hl.trans_le h
      intro l hl
      obtain ⟨a, ha, rfl⟩ := mem_map.1 hl
      exact hargs a ha
    have hw1 : w1.Fit settled c W := ⟨hfit, hw.draft.mono fun _ => hspawns.permits hw.spec.layout⟩
    have hgrows1 : w.Grows q.isSome w1 := ⟨hspawns, .refl _, fun _ => .of_methods rfl rfl .refl rfl⟩
    refine (hcall (hs.trans hspawns.toExtends) hw1 (hgrows1.enters hq) hV hn).mono ?_
    rintro r w' ⟨hw', hgrows, hr⟩
    exact ⟨hw', hgrows1.trans hgrows, hr⟩

lemma applyValue_generates (htarget : (target.1 : Nat) < n) (hargs : ∀ a ∈ args, (a.1 : Nat) < n) :
    GeneratesValue settled c q V W s n (g.applyValue target args) := by
  unfold applyValue
  split
  · have hi := hargs _ (mem_singleton_self _)
    exact .draft_bind (fun _ _ => intValue_tidy hi) fun index n1 h1 hindex =>
      .draft_bind (fun _ _ => cast_tidy (htarget.trans_le h1)) fun a n2 h2 ha =>
        .draft_bind (fun _ _ => callValue_tidy ha (by simp; omega) (by decide)) fun l n3 _ hl =>
          .pure fun _ h => hl.trans_le h
  · rename_i r _ col _
    have hr := hargs _ (.head _)
    have hcol := hargs _ (.tail _ (.head _))
    exact .draft_bind (fun _ _ => intValue_tidy hr) fun row n1 h1 hrow =>
      .draft_bind (fun _ _ => intValue_tidy (hcol.trans_le h1)) fun column n2 h2 hcolumn =>
        .draft_bind (fun _ _ => cast_tidy (htarget.trans_le (h1.trans h2)))
          fun a n3 h3 ha =>
            .draft_bind (fun _ _ => callValue_tidy ha (by simp; omega) (by decide))
              fun l n4 _ hl => .pure fun _ h => hl.trans_le h
  · exact .draft_bind (fun _ _ => newArray_tidy (operandsTaken_map hargs)) fun a n1 h1 ha =>
      .draft_bind (fun _ _ => cast_tidy (htarget.trans_le h1)) fun f n2 h2 hf =>
        .draft_bind (fun _ _ => callFunction_tidy hf (by simp; omega)) fun l n3 _ hl =>
          .pure fun _ h => hl.trans_le h
  · exact .throw fun _ => rfl

lemma memberOf_generates {label : String}
    (htarget : (target.1 : Nat) < n) : GeneratesValue settled c q V W s n
    (g.memberOf target label) := by
  unfold memberOf
  split
  · split
    · exact .throw fun _ => rfl
    · exact .draft_bind (fun _ _ => cast_tidy htarget) fun r n1 _ hr =>
        .draft_bind (fun _ _ => callValue_tidy hr (by simp) (by decide)) fun l n2 _ hl =>
          .pure fun _ h => hl.trans_le h
  · exact .throw fun _ => rfl

lemma capture_generates (names : List String) (hg : g.Usable q s.model n) :
    Generates settled c q V W s n (g.capture names) (fun _ => W)
      fun n vs => ∀ v ∈ vs, (v.2.1 : Nat) < n := by
  induction names generalizing n with
  | nil => exact .pure fun _ _ => nofun
  | cons name names ih =>
    refine .spec_bind fun s' hs' _ => ?_
    split
    · exact (readName_generates hg hs' ‹_›).bind fun v n1 h1 hv =>
        (ih (hg.mono h1)).bind fun vs n2 h2 hvs => .pure fun n3 h3 x hx => by
          rcases mem_cons.1 hx with rfl | hx
          · exact hv.trans_le (h2.trans h3)
          · exact (hvs x hx).trans_le h3
    · split
      · exact ih hg
      · exact .throw fun _ => rfl

lemma captureFields_runs (captured : List (String × TypedLocal))
    (hs : s.Fit settled) (hc : c < s.program.classes.size) (htyped : strict → s.Typed) :
    Runs strict (captureFields c captured) s fun fs s' => Writes settled strict s s' ∧
      ∀ f ∈ fs, s'.Permits settled c (.read f) ∧ s'.Permits settled c (.store f) := by
  induction captured generalizing s with
  | nil => exact .pure ⟨.refl hs, nofun⟩
  | cons x captured ih =>
    obtain ⟨name, l, t⟩ := x
    refine (addField_runs hs hc _ _).bind ?_
    rintro f s1 ⟨h1, hread, hstore, rfl, hlt, hfacts⟩
    -- a field that is added has no type yet
    have hnew (hstrict : strict) : s1.facts.type? s.program.fields.size = none := by
      rw [hfacts]
      by_contra hsome
      obtain ⟨u, hu⟩ := Option.ne_none_iff_exists'.1 hsome
      exact Nat.lt_irrefl _ (htyped hstrict _ u hu)
    refine (setType_runs h1.fit hlt hnew).bind fun _ s2 h2 => ?_
    have h12 := h1.trans h2
    refine (ih h2.fit (hc.trans_le h12.program.classes)
      fun hstrict => (h12.keeps hstrict).typed (htyped hstrict)).bind
        fun fs s3 ⟨h3, hfs⟩ => .pure ⟨h12.trans h3, ?_⟩
    intro f' hf'
    rcases mem_cons.1 hf' with rfl | hf'
    · have h13 := h2.toExtends.trans h3.toExtends
      exact ⟨h13.permits h1.fit.layout hread, h13.permits h1.fit.layout hstore⟩
    · exact hfs f' hf'

lemma storeParams_tidy {this : Nat}
    {params : List LocalId} (hthis : this < n) (hfields : ∀ f ∈ fields, P (.store f))
    (hparams : ∀ l ∈ params, (l : Nat) < n) : TidyCode P V W n
    (storeParams this fields params) := by
  induction fields generalizing params n with
  | nil =>
    rw [storeParams.eq_def]
    exact .pure fun _ _ => trivial
  | cons f fields ih =>
    cases params with
    | nil =>
      rw [storeParams.eq_def]
      exact .pure fun _ _ => trivial
    | cons l params =>
      rw [storeParams]
      have hl := hparams l (.head _)
      exact (storeField_tidy hthis (by simpa) (hfields f (.head _))).bind fun _ n1 h1 _ =>
        ih (hthis.trans_le h1) (fun f hf => hfields f (.tail _ hf))
          fun l hl => (hparams l (.tail _ hl)).trans_le h1

lemma closureInit_generates {arity : Nat} (hs : s.program.Layout)
    (hfields : ∀ f ∈ fields, s.Permits settled c (.store f)) :
    GeneratesCode settled c q V W s n (closureInit arity fields) := by
  refine receiver_generates.bind fun this n1 _ hthis =>
    .draft_bind (fun _ _ => callSpecial_tidy hthis (by simp) rfl (by decide)) fun _ n2 h2 _ =>
      .get_bind fun w hw hfit _ hn => ?_
  have hstore : GeneratesCode settled c q V W s w.draft.size
      (liftM (storeParams this fields w.draft.body.params)) :=
    .ofDrafting fun s' hs' => storeParams_tidy (by omega)
      (fun f hf => hs'.permits hs (hfields f hf)) fun l hl => hfit.draft.param_lt hl
  exact hstore.bind fun _ _ _ _ => .ofDrafting fun _ _ => ret_tidy (by simp)

lemma bindParams_tidy [Liberal P] {args : Nat} (i : Nat)
    (params : Params) (hg : g.Usable q m n) (hargs : args < n) :
    Tidies P V W n (bindParams g args i params) (fun _ => W) (Usable q m) := by
  induction params generalizing g i n with
  | nil => exact .pure fun _ hn => hg.mono hn
  | cons param params ih =>
    obtain ⟨name, declared⟩ := param
    refine (value_tidy (v := .element args (.int (Int32.ofNat i))) ?_ nofun).bind
      fun raw n1 h1 hraw => ?_
    · simpa [Rvalue.locals, Operand.locals, Operand.int]
    · have hargs1 := hargs.trans_le h1
      cases declared with
      | none => exact ih (i + 1) ((hg.mono h1).bind hraw name .unknown) hargs1
      | some t =>
        exact (convert_tidy t hraw).bind fun l n2 h2 hl =>
          ih (i + 1) ((hg.mono (h1.trans h2)).bind hl name t) (hargs1.trans_le h2)

lemma bindCaptured_tidy {this : Nat} (captured : List (String × TypedLocal))
    (hg : g.Usable q m n) (hthis : this < n) (hfields : ∀ f ∈ fields, P (.read f)) :
    Tidies P V W n (bindCaptured g this captured fields) (fun _ => W) (Usable q m) := by
  induction captured generalizing g fields n with
  | nil =>
    rw [bindCaptured.eq_def]
    exact .pure fun _ hn => hg.mono hn
  | cons x captured ih =>
    obtain ⟨name, _, t⟩ := x
    cases fields with
    | nil =>
      rw [bindCaptured.eq_def]
      exact .pure fun _ hn => hg.mono hn
    | cons f fields =>
      rw [bindCaptured]
      exact (readField_tidy hthis (hfields f (.head _))).bind fun l n1 h1 hl =>
        ih ((hg.mono h1).bind hl name t) (hthis.trans_le h1)
          fun f hf => hfields f (.tail _ hf)

def Generable (settled : Bool) (code : ExprSite → Generation TypedLocal) : Prop :=
  ∀ {c : ClassId} {q : Option Nat} {V W : List Label} {s : Specialization} {n : Nat}
    {g : ExprSite}, g.Usable q s.model n → GeneratesValue settled c q V W s n (code g)

lemma closureApply_generates {captured : List (String × TypedLocal)} (hg : g.Usable q s.model 0)
    (hs : s.program.Layout) (hfields : ∀ f ∈ fields, s.Permits settled c (.read f))
    (hbody : Generable settled body) (hq : ∀ k ∈ q, 0 < k) :
    GeneratesCode settled c q V W s n (closureApply g params captured fields body) :=
  receiver_generates.bind fun this n1 h1 hthis =>
    (param_generates hq).bind fun args n2 h2 hargs =>
      .draft_bind (fun _ _ => bindParams_tidy 0 params (hg.mono (Nat.zero_le _)) hargs)
        fun g1 n3 h3 hg1 =>
          .draft_bind (fun _ hs' => bindCaptured_tidy captured hg1 (by omega)
            fun f hf => hs'.permits hs (hfields f hf)) fun g2 n4 h4 hg2 =>
              (hbody hg2).bind fun r n5 h5 hr => .ofDrafting fun _ _ => ret_tidy (by simpa)

lemma closureMethod_runs {β : Type} {k : ClassId}
    {params : List CodeType} {result : CodeType} {code : Generation Unit} {next : Generation β}
    {w : Workbench} {Q : β → Workbench → Prop} (hs : w.spec.Fit settled)
    (hk : k < w.spec.program.classes.size) (hclosure : (w.spec.program.classDecl k).kind = .closure)
    (hlive : (w.spec.program.classDecl k).removed = false)
    (hname : name = "<init>" ∨ name = "apply")
    (hnew : ∀ m ∈ (w.spec.program.classDecl k).methods, (w.spec.program.methodDecl m).name ≠ name)
    (htyped : strict → w.spec.Typed)
    (hcode : GeneratesCode settled k (arityIf strict params.length) [] [] w.spec 0 code)
    (hnext : ∀ w' : Workbench, w'.draft = w.draft →
      Installs settled strict k [name] w.spec w'.spec → Runs strict next w' Q) :
    Runs strict (liftM (onProgram fun p => p.addMethod k name params result false) >>=
      fun m => liftM (Specialize.extend m code) >>= fun _ => next) w Q := by
  refine (lift_runs (addMethod_runs hs hk hlive
    ((isMethodName_closure hclosure).2 hname) _ _ fun _ => hnew)).bind ?_
  rintro m w1 ⟨hd1, h1⟩
  refine (lift_runs (extend_runs h1.fit h1.lt h1.live
    (fun hstrict => ⟨(h1.keeps hstrict).typed (htyped hstrict), h1.entry⟩)
    (by rw [h1.owner, h1.params]; exact hcode.later h1.toExtends))).bind ?_
  rintro - w2 ⟨hd2, h2⟩
  exact hnext w2 (hd2.trans hd1)
    (h1.toInstalls.trans (h2.installs (hk.trans_le h1.program.classes) _) hk)

lemma closure_generates (hg : g.Usable q s.model n) {free : List String}
    (hbody : Generable settled body) :
    GeneratesValue settled c q V W s n (g.closure params free body) := by
  refine (capture_generates free hg).bind fun captured n1 _ hcaptured => ?_
  intro w hs hw hq hV hn
  let name := w.spec.program.className g.owner ++ "_CGfunction_" ++ toString (w.spec.closures + 1)
  let w1 : Workbench := { w with spec := { w.spec with closures := w.spec.closures + 1 } }
  let w2 : Workbench := { w1 with
    spec := { w1.spec with program := (w.spec.program.addClass name functionToken .closure).2 } }
  obtain ⟨hs2, h2, hpermits⟩ : w2.spec.Fit settled ∧ w.spec.Spawns w2.spec ∧
      ∀ c, w.spec.Permits settled c (.new name) := hw.spec.addClosure _ functionToken
  have hgrows2 : w.Grows q.isSome w2 := ⟨h2, .refl _, fun _ => .of_methods rfl rfl .refl rfl⟩
  have htyped2 (hstrict : q.isSome) : w2.spec.Typed := by
    obtain ⟨k, hk⟩ := Option.isSome_iff_exists.1 hstrict
    exact (hgrows2.enters hq k hk).typed
  refine .bind (R := fun x w' => x = name ∧ w' = w1)
    (Ensures.runs (fun x w' h => by cases h; exact ⟨rfl, rfl⟩) fun _ _ h => by cases h) ?_
  rintro _ _ ⟨rfl, rfl⟩
  refine .bind (R := fun k w' => k = w.spec.program.classes.size ∧ w' = w2)
    (Ensures.runs (fun x w' h => by cases h; exact ⟨rfl, rfl⟩) fun _ _ h => by cases h) ?_
  rintro k _ ⟨hk, rfl⟩
  have hdecl : w2.spec.program.classDecl k = ⟨name, functionToken, .closure, [], [], false⟩ :=
    hk ▸ w.spec.program.addClass_classDecl_new name functionToken .closure
  have hk2 : k < w2.spec.program.classes.size := by
    rw [hk]
    exact (w.spec.program.addClass_classes_size name functionToken .closure).symm ▸ Nat.lt_succ_self _
  have hclosure {s' : Specialization} (h : w2.spec.Extends s') :
      (s'.program.classDecl k).kind = .closure ∧ (s'.program.classDecl k).removed = false := by
    rw [h.program.kind hk2, h.program.removed hk2, hdecl]
    exact ⟨rfl, rfl⟩
  refine (lift_runs (captureFields_runs captured hs2 hk2 htyped2)).bind ?_
  rintro fields w3 ⟨hd3, h3, hfields⟩
  have hmembers3 : (w3.spec.program.classDecl k).methods = [] := by rw [h3.members k hk2, hdecl]
  have htyped3 (hstrict : q.isSome) := (h3.keeps hstrict).typed (htyped2 hstrict)
  refine closureMethod_runs h3.fit (hk2.trans_le h3.program.classes)
    (hclosure h3.toExtends).1 (hclosure h3.toExtends).2 (.inl rfl) (by rw [hmembers3]; exact nofun)
    htyped3 (closureInit_generates h3.fit.layout fun f hf => (hfields f hf).2) fun w4 hd4 h4 => ?_
  have h24 := h3.toExtends.trans h4.toExtends
  refine closureMethod_runs h4.fit (hk2.trans_le h24.program.classes)
    (hclosure h24).1 (hclosure h24).2 (.inr rfl) (fun m hm => ?_)
    (fun hstrict => (h4.keeps hstrict).typed (htyped3 hstrict))
    (closureApply_generates (usable_empty fun hstrict => ?_) h4.fit.layout
      (fun f hf => h4.permits h3.fit.layout (hfields f hf).1) hbody fun i hi => ?_)
    fun w5 hd5 h5 => ?_
  · rcases h4.own m hm with hm | hm
    · rw [hmembers3] at hm
      cases hm
    · rw [mem_singleton.1 hm]
      decide
  · rw [isSome_arityIf] at hstrict
    rw [(hs.trans (h2.toExtends.trans h24)).model]
    exact ⟨(hg.sited hstrict).1, fun _ h => by cases h⟩
  · rw [(mem_arityIf hi).2]
    exact Nat.one_pos
  have h15 : w.spec.Spawns w5.spec :=
    ((h2.trans h3.toSpawns).adds h4.toAdds hk.symm.le).adds h5.toAdds hk.symm.le
  have hd : w5.draft = w.draft := hd5.trans (hd4.trans hd3)
  have hgrows5 : w.Grows q.isSome w5 := ⟨h15, hd ▸ .refl _, fun hstrict =>
    (((hgrows2.keeps hstrict).trans (h3.keeps hstrict)).trans (h4.keeps hstrict)).trans
      (h5.keeps hstrict)⟩
  have hobject : GeneratesValue settled c q V W w5.spec n1 (do
      let l ← newObject "function" name (captured.map fun x => .loc x.2.1)
      return (l, .function params.length)) :=
    .draft_bind (fun _ hs' => newObject_tidy (operandsTaken_map hcaptured)
      (hs'.permits h5.fit.layout (h15.permits hw.spec.layout (hpermits c)))) fun l n2 _ hl =>
        .pure fun _ h => hl.trans_le h
  have hw5 : w5.Fit settled c W := ⟨h5.fit, hd ▸ hw.draft.mono fun _ => h15.permits hw.spec.layout⟩
  refine (hobject (.refl _) hw5 (hgrows5.enters hq) (hd ▸ hV) (hd ▸ hn)).mono ?_
  rintro r w' ⟨hw', hgrows, hr⟩
  exact ⟨hw', hgrows5.trans hgrows, hr⟩

lemma draftValue_generates {x : Drafting LocalId} {t : ValueType}
    (hx : ∀ s', s.Extends s' → TidyValue (s'.Permits settled c) V W n x) :
    GeneratesValue settled c q V W s n (do return (← x, t)) :=
  .draft_bind hx fun _ _ _ hl => .pure fun _ h => hl.trans_le h

lemma chainOp_isReserved (op : ChainOp) : isReserved op.name = false := by
  cases op with
  | arith op => cases op <;> decide
  | bitwise op => exact bitOpName_isReserved op

section Lists
variable {es : List Expr} (h : ∀ d ∈ es, Generable settled fun g => generate g d)

include h

lemma generateList_generates (hg : g.Usable q s.model n) :
    Generates settled c q V W s n (generateList g es) (fun _ => W)
      fun n vs => ∀ v ∈ vs, (v.1 : Nat) < n := by
  induction es generalizing n with
  | nil =>
    simp only [generateList]
    exact .pure fun _ _ => forall_mem_nil _
  | cons e es ih =>
    obtain ⟨he, hes⟩ := forall_mem_cons.1 h
    simp only [generateList]
    exact (he hg).bind fun v n1 h1 hv => (ih hes (hg.mono h1)).bind fun vs n2 h2 hvs =>
      .pure fun n3 h3 => forall_mem_cons.2 ⟨hv.trans_le (h2.trans h3),
        fun x hx => (hvs x hx).trans_le h3⟩

lemma generateLogic_generates {deciding : Constant} {decided : Label}
    (hg : g.Usable q s.model n) (hdecided : decided ∈ W) :
    GeneratesCode settled c q V W s n (generateLogic g (.const deciding) decided es) := by
  induction es generalizing n with
  | nil =>
    simp only [generateLogic]
    exact .pure fun _ _ => trivial
  | cons e es ih =>
    obtain ⟨he, hes⟩ := forall_mem_cons.1 h
    simp only [generateLogic]
    exact (he hg).bind fun v n1 h1 hv =>
      .draft_bind (fun _ _ => booleanValue_tidy hv) fun flag n2 h2 hflag =>
        .draft_bind (fun _ _ => branch_tidy (by simpa) (.inr hdecided)) fun _ n3 h3 _ =>
          ih hes (hg.mono (h1.trans (h2.trans h3)))
end Lists

lemma generateChain_generates {es : List (ChainOp × Expr)} {acc : TypedLocal}
    (h : ∀ d ∈ es.map (·.2), Generable settled fun g => generate g d) (hg : g.Usable q s.model n)
    (hacc : (acc.1 : Nat) < n) : GeneratesValue settled c q V W s n (generateChain g acc es) := by
  induction es generalizing n acc with
  | nil =>
    simp only [generateChain]
    exact .pure fun _ h => hacc.trans_le h
  | cons x es ih =>
    obtain ⟨hx, hes⟩ := forall_mem_cons.1 h
    simp only [generateChain]
    exact (hx hg).bind fun v n1 h1 hv =>
      .draft_bind (fun _ _ => binary_tidy (hacc.trans_le h1) hv (chainOp_isReserved _))
        fun l n2 h2 hl => ih hes (hg.mono (h1.trans h2)) hl

lemma generateRows_generates {rows : List (List Expr)} {cols : Nat}
    (h : ∀ d ∈ rows.flatten, Generable settled fun g => generate g d) (hg : g.Usable q s.model n) :
    Generates settled c q V W s n (generateRows g cols rows) (fun _ => W)
      fun n vs => ∀ v ∈ vs, (v.1 : Nat) < n := by
  induction rows generalizing n with
  | nil =>
    simp only [generateRows]
    exact .pure fun _ _ => forall_mem_nil _
  | cons row rows ih =>
    obtain ⟨hrow, hrows⟩ := forall_mem_append.1 h
    simp only [generateRows]
    split
    · exact .throw fun _ => rfl
    · exact (generateList_generates hrow hg).bind fun vs n1 h1 hvs =>
        (ih hrows (hg.mono h1)).bind fun ws n2 h2 hws => .pure fun n3 h3 =>
          forall_mem_append.2 ⟨fun x hx => (hvs x hx).trans_le (h2.trans h3),
            fun x hx => (hws x hx).trans_le h3⟩

lemma generate_generates (e : Expr) : Generable settled fun g => generate g e := by
  induction e using Expr.walk <;> intro c q V W s n g hg
  case literal l =>
    simp only [generate]
    exact draftValue_generates fun _ _ => literal_tidy
  case ident name =>
    simp only [generate]
    refine .spec_bind fun s' hs' _ => ?_
    split
    · exact readName_generates hg hs' ‹_›
    · exact builtinConstant_generates
  case chain e first rest hchain hfirst hrest =>
    show GeneratesValue settled c q V W s n (generate g e)
    rw [generate_of_chain? hchain]
    exact (hfirst hg).bind fun acc n1 h1 hacc => generateChain_generates hrest (hg.mono h1) hacc
  case nothing op =>
    simp only [generate]
    exact .throw fun _ => rfl
  case power base exponent hbase hexponent =>
    simp only [generate]
    exact (hbase hg).bind fun b n1 h1 hb => (hexponent (hg.mono h1)).bind fun e n2 h2 he =>
      draftValue_generates fun _ _ => power_tidy (hb.trans_le h2) he
  case relation op lhs rhs hlhs hrhs =>
    simp only [generate]
    exact (hlhs hg).bind fun a n1 h1 ha => (hrhs (hg.mono h1)).bind fun b n2 h2 hb =>
      draftValue_generates fun _ _ => relation_tidy op (ha.trans_le h2) hb
  case logic op operands hoperands =>
    simp only [generate]
    refine .draft_bind (fun _ _ => temp_tidy) fun result n1 h1 hresult =>
      .draft_bind (fun _ _ => label_tidy) fun decided n2 h2 _ =>
        .draft_bind (fun _ _ => label_tidy) fun done n3 h3 _ =>
          (generateLogic_generates hoperands (hg.mono (by omega)) (by simp)).bind fun _ n4 h4 _ =>
            .draft_bind (fun _ _ => newObject_tidy (by simp) (Liberal.new (by decide)))
              fun all n5 h5 hall =>
                .draft_bind (fun _ _ => copy_tidy (by omega) hall) fun _ n6 h6 _ =>
                  .draft_bind (fun _ _ => goto_tidy (by simp)) fun _ n7 h7 _ => ?_
    exact .perm (.swap decided done W) (.draft_bind (fun _ _ => place_tidy) fun _ n8 h8 _ =>
      .draft_bind (fun _ _ => newObject_tidy (by simp) (Liberal.new (by decide)))
        fun early n9 h9 hearly =>
          .draft_bind (fun _ _ => copy_tidy (by omega) hearly) fun _ n10 h10 _ =>
            .draft_bind (fun _ _ => place_tidy) fun _ n11 h11 _ =>
              .pure fun _ h => hresult.trans_le (by omega))
  case shift op lhs rhs hlhs hrhs =>
    simp only [generate]
    exact (hlhs hg).bind fun a n1 h1 ha => (hrhs (hg.mono h1)).bind fun b n2 h2 hb =>
      draftValue_generates fun _ _ => shift_tidy op (ha.trans_le h2) hb
  case unary op operand hoperand =>
    simp only [generate]
    exact (hoperand hg).bind fun v n1 _ hv => draftValue_generates fun _ _ => unary_tidy op hv
  case cond test yes no htest hyes hno =>
    simp only [generate]
    refine (htest hg).bind fun c n1 h1 hc =>
      .draft_bind (fun _ _ => booleanValue_tidy hc) fun flag n2 h2 hflag =>
        .draft_bind (fun _ _ => temp_tidy) fun result n3 h3 hresult =>
          .draft_bind (fun _ _ => label_tidy) fun other n4 h4 _ =>
            .draft_bind (fun _ _ => label_tidy) fun done n5 h5 _ =>
              .draft_bind (fun _ _ => branchFalse_tidy (by omega) (by simp)) fun _ n6 h6 _ =>
                (hyes (hg.mono (by omega))).bind fun a n7 h7 ha =>
                  .draft_bind (fun _ _ => copy_tidy (by omega) ha) fun _ n8 h8 _ =>
                    .draft_bind (fun _ _ => goto_tidy (by simp)) fun _ n9 h9 _ => ?_
    exact .perm (.swap other done W) (.draft_bind (fun _ _ => place_tidy) fun _ n10 h10 _ =>
      (hno (hg.mono (by omega))).bind fun b n11 h11 hb =>
        .draft_bind (fun _ _ => copy_tidy (by omega) hb) fun _ n12 h12 _ =>
          .draft_bind (fun _ _ => place_tidy) fun _ n13 h13 _ =>
            .pure fun _ h => hresult.trans_le (by omega))
  case call name args hargs =>
    simp only [generate]
    refine .spec_bind fun s' hs' _ => ?_
    split
    · exact (readName_generates hg hs' ‹_›).bind fun f n1 h1 hf =>
        (generateList_generates hargs (hg.mono h1)).bind
          fun vs n2 h2 hvs => applyValue_generates (hf.trans_le h2) hvs
    · split
      · exact .throw fun _ => rfl
      · exact (generateList_generates hargs hg).bind fun vs n1 _ hvs => callBuiltin_generates hvs
  case apply callee args hne hcallee hargs =>
    show GeneratesValue settled c q V W s n (generate g (.apply callee args))
    rw [generate_apply_of_ne hne]
    exact (hcallee hg).bind fun f n1 h1 hf => (generateList_generates hargs (hg.mono h1)).bind
      fun vs n2 h2 hvs => applyValue_generates (hf.trans_le h2) hvs
  case method base name args hbase hargs =>
    simp only [generate]
    exact (hbase hg).bind fun v n1 h1 hv => (generateList_generates hargs (hg.mono h1)).bind
      fun vs n2 h2 hvs => callBuiltin_generates (forall_mem_cons.2 ⟨hv.trans_le h2, hvs⟩)
  case member base name hbase =>
    simp only [generate]
    exact (hbase hg).bind fun v n1 _ hv => memberOf_generates hv
  case array elements helements =>
    simp only [generate]
    exact (generateList_generates helements hg).bind fun vs n1 _ hvs =>
      .draft_bind (fun _ _ => newArray_tidy (operandsTaken_map hvs)) fun a n2 _ ha =>
        draftValue_generates fun _ _ => newObject_tidy (by simpa) (Liberal.new (by decide))
  case record fields hfields =>
    simp only [generate, generateFields_eq_zip, bind_assoc, pure_bind]
    refine (generateList_generates hfields hg).bind fun vs n1 _ hvs =>
      .draft_bind (fun _ _ => newArray_tidy ?_) fun labels n2 h2 hlabels =>
        .draft_bind (fun _ _ => newArray_tidy ((operandsTaken_map fun v hv => ?_).mono h2))
          fun values n3 h3 hvalues =>
            draftValue_generates fun _ _ => newObject_tidy (by simp; omega) (Liberal.new (by decide))
    · intro l hl
      obtain ⟨o, ho, hlo⟩ := mem_flatMap.1 hl
      obtain ⟨v, -, rfl⟩ := mem_map.1 ho
      cases hlo
    · exact hvs v.2 (of_mem_zip hv).2
  case matrix rows hrows =>
    simp only [generate]
    exact (generateRows_generates hrows hg).bind fun vs n1 _ hvs =>
      .draft_bind (fun _ _ => newArray_tidy (operandsTaken_map hvs)) fun a n2 _ ha =>
        draftValue_generates fun _ _ => callStatic_tidy (by simpa)
          (by simp only [arrayToMatrix]; decide)
  case function params body hbody =>
    simp only [generate]
    exact closure_generates hg hbody
end ExprSite
end DataflowSpecializer
