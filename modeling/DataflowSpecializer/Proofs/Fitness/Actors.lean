import DataflowSpecializer.Proofs.Fitness.Expression

/-! # Code of library actors that fits

Installing the code of an actor keeps the state fit. An actor gets fields of its own, and at most
a method that is told about changes and one that yields its latest value.
-/
namespace DataflowSpecializer.Template
open Platform Draft DataflowSpecializer.Specialization Generation Specialize ActorKind Model

variable {name : String}

def basicMethods : List String := "<init>" :: lifecycle.map (·.1)
def actorMethods : List String := ["attributeChanged", "latest"]

variable {settled strict : Bool} {c : ClassId} {q : Option Nat} {V W : List Label}
  {s s' : Specialization} {n : Nat} {this : Nat} {actor : ObjectId}
  {code : LocalId → Generation Unit} {m : Model} {g : ExprSite}

lemma setVariableFire_generates (h : this < n)
    (hscope : q.isSome → s.model.Joins actor scope) :
    GeneratesCode false c q V W s n (setVariableFire actor scope this) := by
  refine .draft_bind (fun _ _ => label_tidy) fun done n1 h1 _ =>
    .draft_bind (fun _ _ => takeInput_tidy (by omega) (.inr (.head _))) fun v n2 h2 hv =>
      (reference_generates (by omega) hscope).bind fun owner n3 h3 howner =>
        .draft_bind (fun _ _ => lookup_tidy (by omega)) fun named n4 h4 hnamed =>
          .draft_bind (fun s' _ => invokeValue_tidy (callLocals hnamed (by simp)) ?_)
            fun name n5 h5 hname => ?_
  · exact ⟨(by decide : getExpression.name ≠ "execute"), nofun, fun _ =>
      (by decide : isNumbered getExpression.className = false)⟩
  · exact .draft_bind (fun _ _ => callValue_tidy (by omega) (by simpa) (by decide))
      fun found n6 h6 hfound => .draft_bind (fun _ _ => cast_tidy hfound) fun target n7 h7 htarget =>
        .draft_bind (fun _ _ => call_tidy htarget (by simp; omega) (by decide)) fun _ n8 h8 _ =>
          .draft_bind (fun _ _ => sendOutput_tidy (by omega) (by omega)) fun _ n9 h9 _ =>
            .draft_bind (fun _ _ => place_tidy) fun _ _ _ _ =>
              .ofDrafting fun _ _ => ret_tidy (by simp)

lemma bindInputs_tidy [Liberal P] (inputs : FieldTypes) (hg : g.Usable q m n) (h : this < n)
    (hskip : skip ∈ V ∨ skip ∈ W) :
    Tidies P V W n (bindInputs this skip g inputs) (fun _ => W) (ExprSite.Usable q m) := by
  induction inputs generalizing g n with
  | nil => exact .pure fun _ hn => hg.mono hn
  | cons input inputs ih =>
    obtain ⟨name, t⟩ := input
    exact (port_tidy h).bind fun p n1 h1 hp =>
      (readInput_tidy hp hskip).bind fun v n2 h2 hv =>
        ih ((hg.mono (h1.trans h2)).bind hv name t) (by omega)

lemma expressionFire_generates (hg : g.Usable q s.model 0) {inputs : FieldTypes} (h : this < n) :
    GeneratesCode settled c q V W s n (expressionFire g inputs e this) :=
  .draft_bind (fun _ _ => label_tidy) fun done n1 h1 _ =>
    .draft_bind (fun _ _ => bindInputs_tidy inputs (hg.mono (Nat.zero_le _)) (by omega)
      (.inr (.head _))) fun g' n2 h2 hg' =>
        (ExprSite.generate_generates e hg').bind fun r n3 h3 hr =>
          .draft_bind (fun _ _ => sendOutput_tidy (by omega) hr) fun _ n4 h4 _ =>
            .draft_bind (fun _ _ => place_tidy) fun _ _ _ _ =>
              .ofDrafting fun _ _ => ret_tidy (by simp)

/-! ## Installation -/
structure Prepared (settled strict : Bool) (c : ClassId) (s : Specialization) : Prop where
  fit : s.Fit settled
  class_ : s.ObjectClass c
  staffed : strict → s.Staffed ∧ ∀ name ∈ lifecycle.map (·.1), s.program.HasMethod c name

lemma Prepared.later (hs : Prepared settled strict c s) (h : s.Extends s') (hfit : s'.Fit settled)
    (hkeeps : strict → s.Keeps s') : Prepared settled strict c s' where
  fit := hfit
  class_ := h.objectClass hs.class_
  staffed hstrict := ⟨(hkeeps hstrict).staffed (hs.staffed hstrict).1, fun name hname =>
    h.program.hasMethod ((hs.staffed hstrict).2 name hname)⟩

lemma Prepared.writes (hs : Prepared settled strict c s) (h : Writes settled strict s s') :
    Prepared settled strict c s' := hs.later h.toExtends h.fit h.keeps

structure Writable (strict : Bool) (s : Specialization) (c : ClassId) (m : MethodId) : Prop where
  lt : m < s.program.methods.size
  live : s.program.isLiveMethod m
  owner : (s.program.methodDecl m).owner = c
  entry : strict → Specialize.Entered s m

section
variable (hs : Prepared settled strict c s)

include hs

lemma Prepared.writable {m : MethodId}
    (hm : s.program.method? c name = some m) : Writable strict s c m := by
  obtain ⟨hlt, hlive, howner, -⟩ := hs.fit.layout.method? hs.class_.lt hm
  exact ⟨hlt, hlive, howner, fun hstrict =>
    ⟨(hs.staffed hstrict).1.typed, (hs.staffed hstrict).1.manned m hlt⟩⟩

lemma methodNamed_runs (hmethod : strict → s.program.HasMethod c name) :
    Runs strict (methodNamed c name) s fun m s' => s' = s ∧ Writable strict s c m := by
  refine .get_bind ?_
  split
  · exact .pure ⟨rfl, hs.writable ‹_›⟩
  · rename_i hnone
    refine .throw fun hstrict => ?_
    have hsome := (hs.fit.layout.isSome_method?_iff hs.class_.lt).2 (hmethod hstrict)
    rw [hnone] at hsome
    cases hsome

lemma methodToWrite_runs
    (hname : name ≠ "attributeChanged") (hmethod : strict → s.program.HasMethod c name) :
    Runs strict (methodToWrite c name) s fun m s' => s' = s ∧ Writable strict s c m := by
  refine .get_bind ?_
  split
  · exact .pure ⟨rfl, hs.writable ‹_›⟩
  · rw [if_neg hname]
    exact methodNamed_runs hs hmethod

lemma methodToWrite_changed_runs (hnames : s.Populated basicMethods c) :
    Runs strict (methodToWrite c "attributeChanged") s fun m s' =>
      Installs settled strict c actorMethods s s' ∧ Writable strict s' c m ∧
        (s'.program.methodDecl m).params.length = 1 := by
  have hnew {m : MethodId} (hm : m ∈ (s.program.classDecl c).methods) :
      (s.program.methodDecl m).name ≠ "attributeChanged" := fun heq =>
    absurd (heq ▸ hnames m hm) (by decide)
  refine .get_bind ?_
  split
  · rename_i m hm
    obtain ⟨hlt, -, howner, hname⟩ := hs.fit.layout.method? hs.class_.lt hm
    exact absurd hname (hnew (howner ▸ (hs.fit.layout.methodOwner m hlt).2))
  · rw [if_pos rfl]
    refine (addMethod_runs hs.fit hs.class_.lt hs.class_.live
      ((isMethodName_object hs.class_.kind).2 (.inl (by decide))) _ _ fun _ _ => hnew).mono ?_
    intro m s' h
    exact ⟨h.toInstalls.mono (by decide), ⟨h.lt, h.live, h.owner, fun hstrict =>
      ⟨(h.keeps hstrict).typed (hs.staffed hstrict).1.typed, h.entry⟩⟩, congrArg List.length h.params⟩
end

lemma writeAnew_runs {m : MethodId} (hs : s.Fit settled) (hm : Writable strict s c m)
    (hcode : ∀ {n this : Nat}, this < n → GeneratesCode settled c
      (arityIf strict (s.program.methodDecl m).params.length) [] [] s n (code this)) :
    Runs strict (writeAnew m do
      let this ← receiver "library template" "method"
      code this) s fun _ s' => Writes settled strict s s' :=
  Specialize.writeAnew_runs hs hm.lt hm.live hm.entry
    (receiver_generates.bind fun _ _ _ hthis => hm.owner.symm ▸ hcode hthis)

section
variable (hs : Prepared settled strict c s)

include hs

lemma install_runs
    (hname : name ≠ "attributeChanged") (hmethod : strict → s.program.HasMethod c name)
    (hcode : ∀ {q : Option Nat} {n this : Nat}, q.isSome = strict → this < n →
      GeneratesCode settled c q [] [] s n (code this)) :
    Runs strict (install c name code) s fun _ s' => Writes settled strict s s' :=
  (methodToWrite_runs hs hname hmethod).bind fun m s' ⟨hs', hm⟩ => by
    subst hs'
    exact writeAnew_runs hs.fit hm (hcode (isSome_arityIf _ _))

lemma installPlain_runs
    (hname : name ≠ "attributeChanged") (hmethod : strict → s.program.HasMethod c name)
    {code : LocalId → Drafting Unit}
    (hcode : ∀ {s' : Specialization} {n this : Nat}, s.Extends s' → this < n →
      TidyCode (s'.Permits settled c) [] [] n (code this)) :
    Runs strict (installPlain c name code) s fun _ s' => Writes settled strict s s' :=
  install_runs hs hname hmethod fun _ h => .ofDrafting fun _ hs' => hcode hs' h

lemma installOwn_runs (hname : name ∈ lifecycle.map (·.1)) {code : LocalId → Drafting Unit}
    (hcode : ∀ {s' : Specialization} {n this : Nat}, s.Extends s' → this < n →
      TidyCode (s'.Permits settled c) [] [] n (code this)) :
    Runs strict (installPlain c name code) s fun _ s' => Writes settled strict s s' :=
  installPlain_runs hs (fun heq => absurd (heq ▸ hname) (by decide))
    (fun hstrict => (hs.staffed hstrict).2 name hname) hcode

lemma stateField_runs : Runs strict (stateField c name) s fun f s' => Writes settled strict s s' ∧
      s'.Permits settled c (.read f) ∧ s'.Permits settled c (.store f) :=
  (addField_runs hs.fit hs.class_.lt name tokenType).mono
    fun _ _ ⟨h, hread, hstore, _⟩ => ⟨h, hread, hstore⟩

lemma installRamp_runs (hnames : s.Populated basicMethods c) :
    Runs strict (installRamp c) s fun _ s' => Installs settled strict c actorMethods s s' := by
  refine (stateField_runs hs).bind fun state s1 ⟨h1, hread, hstore⟩ => ?_
  have hs1 := hs.writes h1
  refine (installOwn_runs hs1 (by decide) fun h hthis =>
    rampInitialize_tidy (h.permits hs1.fit.layout hstore) hthis).bind fun _ s2 h2 => ?_
  refine (installOwn_runs (hs1.writes h2) (by decide) fun h hthis =>
    rampFire_tidy ((h2.toExtends.trans h).permits hs1.fit.layout hread) hthis).bind
      fun _ s3 h3 => ?_
  have h13 := h2.trans h3
  refine (installOwn_runs (hs1.writes h13) (by decide) fun h hthis =>
    rampPostfire_tidy ((h13.toExtends.trans h).permits hs1.fit.layout hread)
      ((h13.toExtends.trans h).permits hs1.fit.layout hstore) hthis).bind fun _ s4 h4 => ?_
  have h14 := h13.trans h4
  have h04 := h1.trans h14
  refine (methodToWrite_changed_runs (hs1.writes h14)
    (h04.populated hs.fit.layout hs.class_.lt hnames)).bind fun m s5 ⟨h5, hm, hparams⟩ => ?_
  have h15 := h14.toExtends.trans h5.toExtends
  refine (writeAnew_runs h5.fit hm fun hthis => (param_generates fun k hk => ?_).bind
    fun changed n' hn hchanged => .ofDrafting fun _ h => rampAttributeChanged_tidy
      ((h15.trans h).permits hs1.fit.layout hstore) hchanged (hthis.trans_le hn)).mono ?_
  · rw [(mem_arityIf hk).2, hparams]
    exact Nat.one_pos
  · rintro - s6 h6
    exact ((h04.installs hs.class_.lt _).trans h5 hs.class_.lt).trans
      (h6.installs (h15.objectClass hs1.class_).lt _) hs.class_.lt

lemma installAccumulator_runs :
    Runs strict (installAccumulator c) s fun _ s' => Writes settled strict s s' := by
  refine (stateField_runs hs).bind fun sum s1 ⟨h1, hsumRead, hsumStore⟩ => ?_
  have hs1 := hs.writes h1
  refine (stateField_runs hs1).bind fun pending s2 ⟨h2, hread, hstore⟩ => ?_
  have hs2 := hs1.writes h2
  refine (installOwn_runs hs2 (by decide) fun h hthis => accumulatorInitialize_tidy
    ((h2.toExtends.trans h).permits hs1.fit.layout hsumStore) (h.permits hs2.fit.layout hstore)
    hthis).bind fun _ s3 h3 => ?_
  refine (installOwn_runs (hs2.writes h3) (by decide) fun h hthis =>
    accumulatorFire_tidy (((h2.trans h3).toExtends.trans h).permits hs1.fit.layout hsumRead)
      ((h3.toExtends.trans h).permits hs2.fit.layout hstore) hthis).bind fun _ s4 h4 => ?_
  have h24 := h3.trans h4
  refine (installOwn_runs (hs2.writes h24) (by decide) fun h hthis =>
    accumulatorPostfire_tidy ((h24.toExtends.trans h).permits hs2.fit.layout hread)
      (((h2.trans h24).toExtends.trans h).permits hs1.fit.layout hsumStore)
      ((h24.toExtends.trans h).permits hs2.fit.layout hstore) hthis).mono ?_
  exact fun _ s5 h5 => ((h1.trans h2).trans h24).trans h5
end

/-- What the code of an actor relies on: it has its attributes, and it is in a composite. -/
structure Hosted (m : Model) (actor : ObjectId) (kind : ActorKind) : Prop where
  shape : m.Shape
  top : m.actorKind? Model.top = none
  equipped : m.Equipped actor
  kind : m.actorKind? actor = some kind

lemma Hosted.lt {kind : ActorKind} (h : Hosted m actor kind) : actor < m.objects.size := by
  by_contra hge
  have hkind := h.kind
  rw [actorKind?, Model.kind, object_of_le (Nat.not_lt.1 hge)] at hkind
  cases hkind

lemma parse_isContradiction {f : Fault} (h : m.parse a = .error f) : f.isContradiction = false := by
  unfold Model.parse at h
  repeat' split at h
  all_goals cases h
  rfl

lemma installExpression_runs (hs : Prepared settled strict c s)
    (hactor : strict → Hosted s.model actor .expression) :
    Runs strict (installExpression actor c) s fun _ s' => Writes settled strict s s' := by
  refine .get_bind ?_
  dsimp only
  split
  · rename_i hnone
    refine .throw fun hstrict => ?_
    obtain ⟨hm, -, hequipped, hkind⟩ := hactor hstrict
    obtain ⟨d, hd, hname⟩ : ∃ d ∈ expression.params, d.name = expressionText := by decide
    obtain ⟨a, ha⟩ : s.model.HasAttribute actor expressionText :=
      hname ▸ hequipped.params _ hkind d hd
    rw [attribute?, hm.lookup?_eq_some.2 ha] at hnone
    cases hnone
  · refine (check_runs fun _ _ => parse_isContradiction).bind ?_
    rintro e s ⟨rfl, -⟩
    split
    · exact .pure (.refl hs.fit)
    · refine install_runs hs (by decide) (fun hstrict => (hs.staffed hstrict).2 _ (by decide))
        fun hq hthis => expressionFire_generates (ExprSite.usable_empty fun hstrict => ?_) hthis
      have hactor := hactor (hq ▸ hstrict)
      exact ⟨hactor.shape, fun _ _ => ⟨actor, rfl, hactor.lt⟩⟩

lemma installSetVariable_runs (hs : Prepared false strict c s)
    (hactor : strict → Hosted s.model actor .setVariable) :
    Runs strict (installSetVariable actor c) s fun _ s' => Writes false strict s s' := by
  refine .get_bind ?_
  dsimp only
  split
  · rename_i hnone
    refine .throw fun hstrict => ?_
    have hactor := hactor hstrict
    have hne : actor ≠ Model.top := fun heq => by
      have htop := hactor.top
      rw [← heq, hactor.kind] at htop
      cases htop
    obtain ⟨container, -, hcontainer⟩ := hactor.shape.contained actor hactor.lt hne
    rw [hcontainer] at hnone
    cases hnone
  · rename_i container hcontainer
    refine install_runs hs (by decide) (fun hstrict => (hs.staffed hstrict).2 _ (by decide))
      fun hq hthis => setVariableFire_generates hthis fun hstrict => ?_
    have hactor := hactor (hq ▸ hstrict)
    refine ⟨hactor.shape, hactor.lt, ?_⟩
    cases hscope : (s.model.writeTarget? actor).bind s.model.container with
    | none => exact hactor.shape.container_lt_size hcontainer
    | some scope =>
      obtain ⟨v, -, hv⟩ := Option.bind_eq_some_iff.1 hscope
      exact hactor.shape.container_lt_size hv

lemma installRecorder_runs (hs : Prepared settled strict c s)
    (hnames : s.Populated basicMethods c) :
    Runs strict (installRecorder c) s fun _ s' => Installs settled strict c actorMethods s s' := by
  refine (stateField_runs hs).bind fun latest s1 ⟨h1, hread, hstore⟩ => ?_
  have hs1 := hs.writes h1
  have hnames1 := h1.populated hs.fit.layout hs.class_.lt hnames
  have hadd : Runs strict (discard (onProgram fun p =>
      p.addMethod c "latest" [] tokenType false)) s1 fun _ s2 =>
        Installs settled strict c actorMethods s1 s2 ∧ s2.program.HasMethod c "latest" :=
    (addMethod_runs hs1.fit hs1.class_.lt hs1.class_.live
      ((isMethodName_object hs1.class_.kind).2 (.inl (by decide : "latest" ∈ commonMethods))) []
      tokenType fun _ m hm heq => absurd (heq ▸ hnames1 m hm) (by decide)).bind fun m _ h => .pure
        ⟨h.toInstalls.mono (by decide), m, h.lt, h.live, h.owner, h.name⟩
  refine hadd.bind fun _ s2 ⟨h2, hlatest⟩ => ?_
  have hs2 := hs1.later h2.toExtends h2.fit h2.keeps
  refine (installOwn_runs hs2 (by decide) fun h hthis =>
    recorderFire_tidy ((h2.toExtends.trans h).permits hs1.fit.layout hstore) hthis).bind
      fun _ s3 h3 => ?_
  refine (installPlain_runs (hs2.writes h3) (by decide) (fun _ => h3.program.hasMethod hlatest)
    fun h hthis => recorderLatest_tidy
      (((h2.toExtends.trans h3.toExtends).trans h).permits hs1.fit.layout hread) hthis).mono ?_
  rintro - s4 h4
  exact ((h1.installs hs.class_.lt _).trans h2 hs.class_.lt).trans
    ((h3.trans h4).installs hs2.class_.lt _) hs.class_.lt

lemma installKind_runs (kind : ActorKind) (hs : Prepared settled strict c s)
    (hkind : settled → kind ≠ .setVariable) (hnames : s.Populated basicMethods c)
    (hactor : strict → Hosted s.model actor kind) : Runs strict (installKind actor c kind) s
      fun _ s' => Installs settled strict c actorMethods s s' := by
  have hplain {x : Specialize Unit} (hx : Runs strict x s fun _ s' => Writes settled strict s s') :
      Runs strict x s fun _ s' => Installs settled strict c actorMethods s s' :=
    hx.mono fun _ _ h => h.installs hs.class_.lt _
  cases kind with
  | const => exact hplain (installOwn_runs hs (by decide) fun _ h => constFire_tidy h)
  | ramp => exact installRamp_runs hs hnames
  | scale => exact hplain (installOwn_runs hs (by decide) fun _ h => scaleFire_tidy h)
  | addSubtract => exact hplain (installOwn_runs hs (by decide) fun _ h => addSubtractFire_tidy h)
  | absoluteValue =>
    exact hplain (installOwn_runs hs (by decide) fun _ h => absoluteValueFire_tidy h)
  | accumulator => exact hplain (installAccumulator_runs hs)
  | expression => exact hplain (installExpression_runs hs hactor)
  | setVariable =>
    cases settled with
    | true => exact absurd rfl (hkind rfl)
    | false => exact hplain (installSetVariable_runs hs hactor)
  | recorder => exact installRecorder_runs hs hnames
end DataflowSpecializer.Template
