import DataflowSpecializer.Proofs.Fitness.Steps

/-! # Steps without contradictions -/
namespace DataflowSpecializer
open List Program FieldFacts
def Fault.isContradiction : Fault → Bool
  | .inconsistent _ => true
  | _ => false

def Runs {σ α : Type} (strict : Bool) (x : EStateM Fault σ α) (s : σ) (Q : α → σ → Prop) : Prop :=
  Ensures x s Q ∧ (strict → ∀ f s', x s = .error f s' → f.isContradiction = false)

variable {σ α : Type} {Q : α → σ → Prop}

lemma Ensures.runs (hx : Ensures x s Q) (hok : ∀ f s', x s ≠ .error f s') : Runs strict x s Q :=
  ⟨hx, fun _ f s' h => absurd h (hok f s')⟩

lemma Ensures.lax (hx : Ensures x s Q) : Runs false x s Q := ⟨hx, fun h => by cases h⟩

lemma Ensures.runs_if (hx : Ensures x s Q) (hstrict : strict = true → Runs true x s R) :
    Runs strict x s fun a s' => Q a s' ∧ (strict → R a s') :=
  ⟨fun a s' h => ⟨hx a s' h, fun hs => (hstrict hs).1 a s' h⟩, fun hs => (hstrict hs).2 rfl⟩

namespace Runs
variable {σ α β : Type} {strict : Bool} {x : EStateM Fault σ α} {s : σ} {Q R : α → σ → Prop}
  {S : β → σ → Prop}

lemma bind (hx : Runs strict x s R)
    (hk : ∀ a s', R a s' → Runs strict (k a) s' S) : Runs strict (x >>= k) s S := by
  refine ⟨hx.1.bind fun a s' h => (hk a s' h).1, fun hstrict f s'' h => ?_⟩
  change EStateM.bind x k s = _ at h
  unfold EStateM.bind at h
  split at h
  · rename_i a s' hxs
    exact (hk a s' (hx.1 a s' hxs)).2 hstrict f s'' h
  · rename_i f' s' hxs
    cases h
    exact hx.2 hstrict _ _ hxs

lemma mono (hx : Runs strict x s R) (h : ∀ a s', R a s' → Q a s') : Runs strict x s Q :=
  ⟨hx.1.mono h, hx.2⟩

lemma and_ensures (hx : Runs strict x s Q) (hR : Ensures x s R) :
    Runs strict x s fun a s' => Q a s' ∧ R a s' := ⟨hx.1.and hR, hx.2⟩

lemma pure (h : Q a s) : Runs strict (pure a) s Q := (Ensures.pure h).runs fun _ _ h => by cases h

lemma throw {f : Fault} (h : strict → f.isContradiction = false) :
    Runs strict (throw f : EStateM Fault σ α) s Q :=
  ⟨.throw, fun hstrict _ _ hf => by cases hf; exact h hstrict⟩

lemma get_bind (h : Runs strict (k s) s S) : Runs strict (get >>= k) s S := h

lemma set {s' : σ} {Q : PUnit → σ → Prop} (h : Q ⟨⟩ s') : Runs strict (set s') s Q :=
  (Ensures.set h).runs fun _ _ h => by cases h

lemma modify {f : σ → σ} {Q : PUnit → σ → Prop} (h : Q ⟨⟩ (f s)) : Runs strict (modify f) s Q :=
  (Ensures.modify h).runs fun _ _ h => by cases h

lemma modifyGet (h : Q (f s).1 (f s).2) : Runs strict (modifyGet f) s Q :=
  (Ensures.modifyGet h).runs fun _ _ h => by cases h
end Runs

structure MethodDecl.Enterable (d : MethodDecl) : Prop where
  receiver : d.body.receiver.isSome
  params : d.body.params.length = d.params.length

lemma Program.enterable_entryBody (className : String) (params : List CodeType) :
    (entryBody className params false).receiver.isSome ∧
      (entryBody className params false).params.length = params.length := by
  have hfold : ∀ (types : List (CodeType × Nat)) (b : Body),
      let b' := types.foldl (fun b x =>
        { (b.newLocal ("p" ++ toString x.2) x.1).2 with
          params := b.params ++ [(b.newLocal ("p" ++ toString x.2) x.1).1] }) b
      b'.receiver = b.receiver ∧ b'.params.length = b.params.length + types.length := by
    intro types
    induction types with
    | nil => exact fun b => ⟨rfl, rfl⟩
    | cons x types ih =>
      intro b
      obtain ⟨hreceiver, hparams⟩ := ih { (b.newLocal ("p" ++ toString x.2) x.1).2 with
          params := b.params ++ [(b.newLocal ("p" ++ toString x.2) x.1).1] }
      refine ⟨hreceiver, hparams.trans ?_⟩
      simp only [length_append, length_cons, length_nil]
      omega
  obtain ⟨hreceiver, hparams⟩ := hfold params.zipIdx
    { (Body.empty.newLocal "this" (.object className)).2 with
      receiver := some (Body.empty.newLocal "this" (.object className)).1 }
  refine ⟨congrArg Option.isSome hreceiver, hparams.trans ?_⟩
  rw [length_zipIdx]
  exact Nat.zero_add _

/-! ## What strict steps rely on -/
namespace Specialization
variable {s s' s'' : Specialization} {settled strict : Bool} {c : ClassId} {names : List String}

def Typed (s : Specialization) : Prop := ∀ f t, s.facts.type? f = some t → f < s.program.fields.size

/-- From `s` to `s'` creators stayed on record, types are known of fields that there are if they
were, and a method can be entered if it could be or is new. -/
structure Keeps (s s' : Specialization) : Prop where
  ledger : s'.ledger = s.ledger
  typed : s.Typed → s'.Typed
  entries : ∀ m < s'.program.methods.size,
    (m < s.program.methods.size → (s.program.methodDecl m).Enterable) →
      (s'.program.methodDecl m).Enterable

lemma Keeps.refl (s : Specialization) : s.Keeps s := ⟨rfl, fun h => h, fun _ hm h => h hm⟩

lemma Keeps.trans (h : s.Keeps s') (h' : s'.Keeps s'') : s.Keeps s'' where
  ledger := h'.ledger.trans h.ledger
  typed hs := h'.typed (h.typed hs)
  entries m hm hold := h'.entries m hm fun hlt => h.entries m hlt hold

lemma Keeps.of_methods (hledger : s'.ledger = s.ledger) (hfacts : s'.facts = s.facts)
    (hfields : s.program.fields.size ≤ s'.program.fields.size)
    (hmethods : s'.program.methods = s.program.methods) : s.Keeps s' where
  ledger := hledger
  typed hs f t hf := (hs f t (hfacts ▸ hf)).trans_le hfields
  entries m hm h := by
    rw [hmethods] at hm
    rw [methodDecl, hmethods]
    exact h hm

structure Staffed (s : Specialization) : Prop where
  typed : s.Typed
  manned : ∀ m < s.program.methods.size, (s.program.methodDecl m).Enterable

lemma Keeps.staffed (h : s.Keeps s') (hs : s.Staffed) : s'.Staffed :=
  ⟨h.typed hs.typed, fun m hm => h.entries m hm (hs.manned m)⟩

structure Writes (settled strict : Bool) (s s' : Specialization) : Prop extends s.Spawns s' where
  fit : s'.Fit settled
  keeps : strict → s.Keeps s'

lemma Writes.refl (hs : s.Fit settled) : Writes settled strict s s :=
  ⟨.refl s, hs, fun _ => .refl s⟩

lemma Writes.trans (h : Writes settled strict s s') (h' : Writes settled strict s' s'') :
    Writes settled strict s s'' :=
  ⟨h.toSpawns.trans h'.toSpawns, h'.fit, fun hstrict => (h.keeps hstrict).trans (h'.keeps hstrict)⟩

structure Installs (settled strict : Bool) (c : ClassId) (names : List String)
    (s s' : Specialization) : Prop extends Adds c names s s' where
  fit : s'.Fit settled
  keeps : strict → s.Keeps s'

lemma Writes.installs (h : Writes settled strict s s') (hc : c < s.program.classes.size)
    (names : List String) : Installs settled strict c names s s' :=
  ⟨h.toSpawns.toAdds hc names, h.fit, h.keeps⟩

lemma Installs.trans (h : Installs settled strict c names s s')
    (h' : Installs settled strict c names s' s'') (hc : c < s.program.classes.size) :
    Installs settled strict c names s s'' :=
  ⟨h.toAdds.trans h'.toAdds h.fit.layout hc, h'.fit,
    fun hstrict => (h.keeps hstrict).trans (h'.keeps hstrict)⟩

lemma Installs.mono (h : Installs settled strict c names s s')
    (hnames : names ⊆ names') : Installs settled strict c names' s s' :=
  ⟨h.toAdds.mono hnames, h.fit, h.keeps⟩

structure Added (settled strict : Bool) (c : ClassId) (name : String) (params : List CodeType)
    (s : Specialization) (m : MethodId) (s' : Specialization) : Prop
    extends Installs settled strict c [name] s s' where
  members : (s'.program.classDecl c).methods = (s.program.classDecl c).methods ++ [m]
  lt : m < s'.program.methods.size
  live : s'.program.isLiveMethod m
  owner : (s'.program.methodDecl m).owner = c
  name : (s'.program.methodDecl m).name = name
  entry : (s'.program.methodDecl m).Enterable
  params : (s'.program.methodDecl m).params = params
end Specialization

namespace Specialize
open DataflowSpecializer.Specialization

variable {s : Specialization} {settled strict : Bool} {c : ClassId}

lemma check_runs {α : Type} {r : Except Fault α}
    (h : strict → ∀ f, r = .error f → f.isContradiction = false) :
    Runs strict (check r) s fun a s' => s' = s ∧ r = .ok a := by
  cases r with
  | ok a => exact .pure ⟨rfl, rfl⟩
  | error f => exact .throw fun hstrict => h hstrict f rfl

lemma classFor_runs (h : strict → (s.classOf.get? o).isSome) :
    Runs strict (classFor o) s fun c s' => s' = s ∧ s.classOf.get? o = some c := by
  refine .get_bind ?_
  split
  · exact .pure ⟨rfl, ‹_›⟩
  · rename_i hnone
    exact .throw fun hstrict => by
      have hsome := h hstrict
      rw [show s.classOf.get? o = none from hnone] at hsome
      cases hsome

variable (hs : s.Fit settled)

include hs

lemma addMethod_runs (hc : c < s.program.classes.size)
    (hlive : (s.program.classDecl c).removed = false)
    (hname : s.IsMethodName c name) (params : List CodeType) (result : CodeType)
    (hnew : s.DistinctNames → ∀ m ∈ (s.program.classDecl c).methods,
      (s.program.methodDecl m).name ≠ name) :
    Runs strict (onProgram fun p => p.addMethod c name params result false) s
      (Added settled strict c name params s) := by
  have hdecl := s.program.addMethod_methodDecl_new c name params result false
  have hentry : ((s.program.addMethod c name params result false).2.methodDecl
      s.program.methods.size).Enterable := by
    obtain ⟨hreceiver, hparams⟩ := enterable_entryBody (s.program.className c) params
    rw [hdecl]
    exact ⟨hreceiver, hparams⟩
  have hkeeps : s.Keeps { s with program := (s.program.addMethod c name params result false).2 } := by
    refine ⟨rfl, fun h => h, fun m hm hold => ?_⟩
    rcases Nat.lt_succ_iff_lt_or_eq.1 (s.program.addMethod_methods_size c name params result false ▸ hm)
      with hlt | rfl
    · show ((s.program.addMethod c name params result false).2.methodDecl m).Enterable
      rw [s.program.addMethod_methodDecl c name params result false hlt]
      exact hold hlt
    · exact hentry
  obtain ⟨hfit, hadds, hmembers⟩ := hs.addMethod hc hlive hname params result hnew
  exact .modifyGet ⟨⟨hadds, hfit, fun _ => hkeeps⟩, hmembers,
    s.program.addMethod_methods_size c name params result false ▸ Nat.lt_succ_self _,
    by rw [addMethod_fst, isLiveMethod, hdecl]; rfl, congrArg (·.owner) hdecl,
    congrArg (·.name) hdecl, hentry, congrArg (·.params) hdecl⟩

lemma addField_runs (hc : c < s.program.classes.size) (name : String)
    (type : CodeType) : Runs strict (onProgram fun p => p.addField c name type) s fun f s' =>
      Writes settled strict s s' ∧ s'.Permits settled c (.read f) ∧ s'.Permits settled c (.store f) ∧
        f = s.program.fields.size ∧ f < s'.program.fields.size ∧ s'.facts = s.facts := by
  have hp := addField_newField hs.layout hc name type
  obtain ⟨hfit, hext⟩ := hs.newField hp s.facts (fun _ _ h => h) s.valueFields s.expressionFields
    s.refFields (fun _ _ h => h) (fun _ _ => .inl) (fun _ _ h => h) (fun _ _ => .inl) fun _ _ => .inl
  obtain ⟨hread, hstore⟩ := permits_newField (t := { s with program := _ }) settled hp rfl
    (by rw [addField_fieldDecl_new])
  exact .modifyGet ⟨⟨⟨hext, fun k _ => hp.sameMembers k, rfl, hp.continues, rfl⟩, hfit,
    fun _ => .of_methods rfl rfl hp.fields hp.sameMethods⟩, hread, hstore, rfl,
    hp.size ▸ Nat.lt_succ_self _, rfl⟩

lemma setType_runs {f : FieldId} {t : ValueType}
    (hf : f < s.program.fields.size) (hnew : strict → s.facts.type? f = none) :
    Runs strict (onFacts fun facts => facts.setType f t) s fun _ s' =>
      Writes settled strict s s' := by
  refine .get_bind ((check_runs fun hstrict f' hf' => ?_).bind ?_)
  · dsimp only at hf'
    rw [setType, hnew hstrict] at hf'
    cases hf'
  rintro facts s ⟨rfl, hfacts⟩
  obtain ⟨hfit, -, hspawns⟩ := hs.annotate facts s.diagnostics s.ledger s.sites
    fun _ _ => object?_setType hfacts
  refine .set ⟨hspawns rfl, hfit, fun hstrict => ⟨rfl, fun htyped g u hg => ?_, fun _ hm h => h hm⟩⟩
  dsimp only at hfacts
  rw [setType, hnew hstrict] at hfacts
  cases hfacts
  rcases SortedMap.get?_insert_eq_some hg with ⟨rfl, -⟩ | hg
  · exact hf
  · exact htyped g u hg
end Specialize
end DataflowSpecializer
