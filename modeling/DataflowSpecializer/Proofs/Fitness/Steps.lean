import DataflowSpecializer.Proofs.Fitness.State

/-! # Steps of a specialization

What the single steps of a specialization do to a state that fits. `Ensures` says what holds if a
step succeeds, and takes steps apart at their binds.
-/
namespace DataflowSpecializer
open List Option SortedMap Builtin Program

variable {names : List String} {m : MethodId}
/-! ## Steps that succeed -/
def Ensures {ε σ α : Type} (x : EStateM ε σ α) (s : σ) (Q : α → σ → Prop) : Prop :=
  ∀ a s', x s = .ok a s' → Q a s'

namespace Ensures
variable {ε σ α β : Type} {x : EStateM ε σ α} {s : σ} {Q R : α → σ → Prop} {S : β → σ → Prop}

lemma bind (hx : Ensures x s R)
    (hk : ∀ a s', R a s' → Ensures (k a) s' S) : Ensures (x >>= k) s S := by
  intro b s'' h
  change EStateM.bind x k s = _ at h
  unfold EStateM.bind at h
  split at h
  · rename_i a s' hxs
    exact hk a s' (hx a s' hxs) b s'' h
  · cases h

lemma mono (hx : Ensures x s R) (h : ∀ a s', R a s' → Q a s') : Ensures x s Q :=
  fun a s' hxs => h a s' (hx a s' hxs)

lemma and (hx : Ensures x s Q) (hR : Ensures x s R) :
    Ensures x s fun a s' => Q a s' ∧ R a s' := fun a s' h => ⟨hx a s' h, hR a s' h⟩

lemma pure (h : Q a s) : Ensures (pure a : EStateM ε σ α) s Q := by
  intro b s' hb
  cases hb
  exact h

lemma throw : Ensures (throw e : EStateM ε σ α) s Q := fun _ _ h => by cases h

lemma get_bind (h : Ensures (k s) s S) : Ensures ((get : EStateM ε σ σ) >>= k) s S := h

lemma set {s' : σ} {Q : PUnit → σ → Prop} (h : Q ⟨⟩ s') :
    Ensures (set s' : EStateM ε σ PUnit) s Q := by
  intro b s'' hb
  cases hb
  exact h

lemma modify {f : σ → σ} {Q : PUnit → σ → Prop} (h : Q ⟨⟩ (f s)) :
    Ensures (modify f : EStateM ε σ PUnit) s Q := by
  intro b s'' hb
  cases hb
  exact h

lemma modifyGet (h : Q (f s).1 (f s).2) : Ensures (modifyGet f : EStateM ε σ α) s Q := by
  intro b s'' hb
  cases hb
  exact h
end Ensures

namespace Specialize
variable {s : Specialization} {α : Type} {Q : α → Specialization → Prop} {r : Except Fault α}

lemma check_ensures (h : ∀ a, r = .ok a → Q a s) : Ensures (check r) s Q := by
  cases r with
  | ok a => exact .pure (h a rfl)
  | error f => exact .throw

lemma check_bind {β : Type} {k : α → Specialize β} {S : β → Specialization → Prop}
    (h : ∀ a, r = .ok a → Ensures (k a) s S) :
    Ensures (check r >>= k) s S :=
  (check_ensures (Q := fun a s' => s' = s ∧ r = .ok a) fun _ ha => ⟨rfl, ha⟩).bind
    fun a _ hs => hs.1 ▸ h a hs.2

lemma onProgram_ensures
    (h : Q (f s.program).1 { s with program := (f s.program).2 }) : Ensures (onProgram f) s Q :=
  .modifyGet h

lemma onFacts_ensures {f : FieldFacts → Except Fault FieldFacts} {Q : Unit → Specialization → Prop}
    (h : ∀ facts, f s.facts = .ok facts → Q () { s with facts := facts }) :
    Ensures (onFacts f) s Q :=
  .get_bind (.bind (check_ensures fun _ hfacts => ⟨rfl, hfacts⟩)
    fun facts s' (hs' : s' = s ∧ f s.facts = .ok facts) => .set (hs'.1 ▸ h _ hs'.2))

lemma classFor_ensures : Ensures (classFor o) s fun c s' => s' = s ∧ s.classOf.get? o = some c := by
  refine .get_bind ?_
  split
  · exact .pure ⟨rfl, ‹_›⟩
  · exact .throw

lemma methodNamed_ensures {c : ClassId} {name : String} :
    Ensures (methodNamed c name) s fun m s' => s' = s ∧ s.program.method? c name = some m := by
  refine .get_bind ?_
  split
  · exact .pure ⟨rfl, ‹_›⟩
  · exact .throw
end Specialize

namespace FieldFacts
variable {t t' : FieldFacts} {f g : FieldId} {o : ObjectId}

lemma object?_setType {type : ValueType} (h : t.setType f type = .ok t')
    (hg : t.object? g = some o) : t'.object? g = some o := by
  unfold setType at h
  split at h
  · split at h <;> cases h
    exact hg
  · cases h
    exact hg

lemma object?_setValue (h : t.setValue f v = .ok t') (hg : t.object? g = some o) :
    t'.object? g = some o := by
  unfold setValue at h
  split at h
  · split at h <;> cases h
    exact hg
  · cases h
    exact hg

lemma object?_setObject (h : t.setObject f o = .ok t') (g : FieldId) :
    t'.object? g = if g = f then some o else t.object? g := by
  unfold setObject at h
  split at h
  · rename_i old hold
    split at h
    · rename_i hsame
      cases h
      split
      · subst g
        rw [hold, hsame]
      · rfl
    · cases h
  · cases h
    split
    · subst g
      exact get?_insert_self ..
    · exact get?_insert_of_ne _ ‹_› _

lemma object?_keep (h : t.setObject f o = .ok t') (hg : t.object? g = some p) :
    t'.object? g = some p := by
  rw [object?_setObject h]
  split
  · rename_i hgf
    rw [setObject, ← hgf, hg] at h
    dsimp only at h
    split at h
    · rename_i hsame
      rw [hsame]
    · cases h
  · exact hg
end FieldFacts

namespace Specialization
variable {s s' s'' : Specialization} {settled : Bool} {c : ClassId} {names' : List String}
  {b : Body} {p : Program}

/-! ## What steps leave alone -/
structure Spawns (s s' : Specialization) : Prop extends s.Extends s' where
  members : ∀ k < s.program.classes.size,
    (s'.program.classDecl k).methods = (s.program.classDecl k).methods
  values : s'.valueFields = s.valueFields
  nextStmt : s.program.Continues s'.program
  sites : s'.sites = s.sites

structure Populates (c : ClassId) (names : List String) (s s' : Specialization) : Prop
    extends s.Extends s' where
  others : ∀ k < s.program.classes.size, k ≠ c →
    (s'.program.classDecl k).methods = (s.program.classDecl k).methods
  own : ∀ m ∈ (s'.program.classDecl c).methods, m ∈ (s.program.classDecl c).methods ∨
    (s'.program.methodDecl m).name ∈ names
  values : s'.valueFields = s.valueFields
  nextStmt : s.program.Continues s'.program

structure Adds (c : ClassId) (names : List String) (s s' : Specialization) : Prop
    extends Populates c names s s' where
  sites : s'.sites = s.sites

lemma Spawns.refl (s : Specialization) : s.Spawns s := ⟨.refl s, fun _ _ => rfl, rfl, .refl _, rfl⟩

lemma Spawns.trans (h : s.Spawns s') (h' : s'.Spawns s'') : s.Spawns s''  where
  toExtends := h.toExtends.trans h'.toExtends
  members k hk := (h'.members k (hk.trans_le h.program.classes)).trans (h.members k hk)
  values := h'.values.trans h.values
  nextStmt := h.nextStmt.trans h.program.methods h'.nextStmt
  sites := h'.sites.trans h.sites

lemma Spawns.adds (h : s.Spawns s') (h' : Adds c names s' s'')
    (hc : s.program.classes.size ≤ c) : s.Spawns s'' where
  toExtends := h.toExtends.trans h'.toExtends
  members k hk :=
    (h'.others k (hk.trans_le h.program.classes)
      (Nat.ne_of_lt (hk.trans_le hc))).trans (h.members k hk)
  values := h'.values.trans h.values
  nextStmt := h.nextStmt.trans h.program.methods h'.nextStmt
  sites := h'.sites.trans h.sites

lemma Spawns.toAdds (h : s.Spawns s') (hc : c < s.program.classes.size) (names : List String) :
    Adds c names s s' where
  toExtends := h.toExtends
  others k hk _ := h.members k hk
  own _ hm := .inl (h.members c hc ▸ hm)
  values := h.values
  nextStmt := h.nextStmt
  sites := h.sites

lemma Populates.trans (h : Populates c names s s')
    (h' : Populates c names s' s'') (hs' : s'.program.Layout) (hc : c < s.program.classes.size) :
    Populates c names s s'' where
  toExtends := h.toExtends.trans h'.toExtends
  others k hk hne := (h'.others k (hk.trans_le h.program.classes) hne).trans (h.others k hk hne)
  own m hm := by
    rcases h'.own m hm with hm | hm
    · have hlt := (hs'.methods c (hc.trans_le h.program.classes) m hm).1
      rw [h'.program.methodName hlt]
      exact h.own m hm
    · exact .inr hm
  values := h'.values.trans h.values
  nextStmt := h.nextStmt.trans h.program.methods h'.nextStmt

lemma Adds.trans (h : Adds c names s s')
    (h' : Adds c names s' s'') (hs' : s'.program.Layout) (hc : c < s.program.classes.size) :
    Adds c names s s'' :=
  ⟨h.toPopulates.trans h'.toPopulates hs' hc, h'.sites.trans h.sites⟩

lemma Populates.mono (h : Populates c names s s')
    (hnames : names ⊆ names') : Populates c names' s s' :=
  { h with own := fun m hm => (h.own m hm).imp_right fun h => hnames h }

lemma Adds.mono (h : Adds c names s s') (hnames : names ⊆ names') :
    Adds c names' s s' := ⟨h.toPopulates.mono hnames, h.sites⟩

def Populated (s : Specialization) (names : List String) (c : ClassId) : Prop :=
  ∀ m ∈ (s.program.classDecl c).methods, (s.program.methodDecl m).name ∈ names

lemma Spawns.populated (h : s.Spawns s') (layout : s.program.Layout)
    (hc : c < s.program.classes.size) (hnames : s.Populated names c) : s'.Populated names c := by
  intro m hm
  rw [h.members c hc] at hm
  rw [h.program.methodName (layout.methods c hc m hm).1]
  exact hnames m hm

lemma Populates.populated (h : Populates c names' s s')
    (layout : s.program.Layout) (hc : c < s.program.classes.size) (hnames : s.Populated names c) :
    s'.Populated (names ++ names') c := by
  intro m hm
  rcases h.own m hm with hm | hm
  · rw [h.program.methodName (layout.methods c hc m hm).1]
    exact mem_append_left _ (hnames m hm)
  · exact mem_append_right _ hm

lemma Populates.populated_of_ne (h : Populates c names' s s')
    (layout : s.program.Layout) (hk : k < s.program.classes.size) (hne : k ≠ c)
    (hnames : s.Populated names k) : s'.Populated names k := by
  intro m hm
  rw [h.others k hk hne] at hm
  rw [h.program.methodName (layout.methods k hk m hm).1]
  exact hnames m hm

lemma Additions.ofProgram {closures : Nat}
    (hs' : s' = { s with program := p, closures := closures }) (layout : p.Layout)
    (bodies : ∀ m < p.methods.size, p.isLiveMethod m →
      m < s.program.methods.size ∧ p.body m = s.program.body m ∨
        (p.body m).Fits (s'.Permits settled (p.methodDecl m).owner))
    (classNames : ∀ k < p.classes.size, s.program.classes.size ≤ k →
      s'.IsClassName k (p.className k))
    (methodNames : ∀ m < p.methods.size, s.program.methods.size ≤ m →
      s'.IsMethodName (p.methodDecl m).owner (p.methodDecl m).name)
    (names : s'.DistinctNames → s.Named → s'.Named) : s.Additions settled s' := by
  subst hs'
  exact ⟨layout, bodies, classNames, methodNames, fun _ _ => .inl, fun _ _ => .inl,
    fun _ _ => .inl, fun _ _ => .inl, fun _ _ _ _ => .inl, names⟩

lemma Named.congr (hs : s.Named) (h : s.Extends s') (layout : s.program.Layout)
    (hclasses : s'.program.classes.size = s.program.classes.size)
    (hindex : s'.program.index = s.program.index) (hmembers : ∀ k < s.program.classes.size,
      (s'.program.classDecl k).methods = (s.program.classDecl k).methods) : s'.Named where
  classes k hk k' hk' hname := by
    rw [hclasses] at hk hk'
    rw [h.program.className hk, h.program.className hk'] at hname
    exact hs.classes k hk k' hk' hname
  index k hk := by
    rw [hclasses] at hk
    rw [h.program.className hk, hindex]
    exact hs.index k hk
  methods k hk := by
    rw [hclasses] at hk
    rw [hmembers k hk]
    refine (map_congr_left fun m hm => ?_) ▸ hs.methods k hk
    exact (h.program.methodName (layout.methods k hk m hm).1).symm

section
variable (hs : s.Fit settled)

include hs

lemma Fit.annotate (facts : FieldFacts) (diagnostics : List Diagnostic)
    (ledger : SortedMap ObjectId ObjectId) (sites : SortedMap (ClassId × ObjectId) Site)
    (hfacts : ∀ f o, s.facts.object? f = some o → facts.object? f = some o) :
    let s' := { s with facts := facts, diagnostics := diagnostics, ledger := ledger, sites := sites }
    s'.Fit settled ∧ s.Extends s' ∧ (sites = s.sites → s.Spawns s') := by
  intro s'
  have hext : s.Extends s' :=
    ⟨rfl, rfl, rfl, rfl, rfl, .refl, .refl _, fun _ _ h => h, fun _ _ h => h, hfacts⟩
  refine ⟨hs.extend hext ⟨hs.layout, fun m hm _ => .inl ⟨hm, rfl⟩, fun k hk hge => ?_,
    fun m hm hge => ?_, fun _ _ => .inl, fun _ _ => .inl, fun _ _ => .inl, fun _ _ => .inl,
    fun _ _ _ _ => .inl, fun _ h => ⟨h.classes, h.index, h.methods⟩⟩, hext,
    fun h => ⟨hext, fun _ _ => rfl, rfl, .refl _, h⟩⟩
  · exact absurd hk hge.not_gt
  · exact absurd hm hge.not_gt

lemma Fit.warned (diagnostics : List Diagnostic) :
    let s' := { s with diagnostics := diagnostics }
    s'.Fit settled ∧ s.Spawns s' :=
  have h := hs.annotate s.facts diagnostics s.ledger s.sites fun _ _ h => h
  ⟨h.1, h.2.2 rfl⟩

lemma Fit.remember (name : String) (form : CallForm) (args : List ValueType) :
    let s' := { s with memo := (s.memo.resolve name form args).2 }
    (s.memo.resolve name form args).1 = lookup? name form args ∧ s'.Fit settled ∧ s.Spawns s' := by
  intro s'
  have hext : s.Extends s' :=
    ⟨rfl, rfl, rfl, rfl, rfl, .refl, .refl _, fun _ _ h => h, fun _ _ h => h, fun _ _ h => h⟩
  have hmemo : (s.memo.resolve name form args).1 = lookup? name form args ∧
      ∀ name' form' args' found, s'.memo.entries.lookup (name', form', args') = some found →
        s.memo.entries.lookup (name', form', args') = some found ∨
          found = lookup? name' form' args' := by
    simp only [s', CallMemo.resolve]
    split
    · rename_i found hfound
      exact ⟨hs.memo _ _ _ _ hfound, fun _ _ _ _ => .inl⟩
    · refine ⟨rfl, fun name' form' args' found h => ?_⟩
      rw [List.lookup_cons] at h
      split at h
      · rename_i heq
        obtain ⟨rfl, rfl, rfl⟩ : name' = name ∧ form' = form ∧ args' = args := by simpa using heq
        exact .inr (some.inj h).symm
      · exact .inl h
  refine ⟨hmemo.1, hs.extend hext ⟨hs.layout, fun m hm _ => .inl ⟨hm, rfl⟩, fun k hk hge => ?_,
    fun m hm hge => ?_, fun _ _ => .inl, fun _ _ => .inl, fun _ _ => .inl, fun _ _ => .inl,
    hmemo.2, fun _ h => ⟨h.classes, h.index, h.methods⟩⟩, hext, fun _ _ => rfl, rfl, .refl _, rfl⟩
  · exact absurd hk hge.not_gt
  · exact absurd hm hge.not_gt

lemma Fit.insertCompute {v : ObjectId} (hm : m < s.program.methods.size)
    (hname : ∃ suffix, (s.program.methodDecl m).name = "_CGcompute_" ++ suffix) :
    let s' := { s with computeMethods := s.computeMethods.insert v m }
    s'.Fit settled ∧ s.Spawns s' := by
  intro s'
  have hext : s.Extends s' :=
    ⟨rfl, rfl, rfl, rfl, rfl, .refl, .refl _, fun _ _ h => h, fun _ _ h => h, fun _ _ h => h⟩
  refine ⟨hs.extend hext ⟨hs.layout, fun m hm _ => .inl ⟨hm, rfl⟩, fun k hk hge => ?_,
    fun m hm hge => ?_, fun _ _ => .inl, fun _ _ => .inl, fun _ _ => .inl, fun w k hk => ?_,
    fun _ _ _ _ => .inl, fun _ h => ⟨h.classes, h.index, h.methods⟩⟩, hext, fun _ _ => rfl, rfl,
    .refl _, rfl⟩
  · exact absurd hk hge.not_gt
  · exact absurd hm hge.not_gt
  · rw [get?_insert] at hk
    split at hk
    · obtain rfl := some.inj hk
      exact .inr ⟨hm, hname⟩
    · exact .inl hk

lemma Fit.setBody (hb : m < s.program.methods.size → s.program.isLiveMethod m →
      b.Fits (s.Permits settled (s.program.methodDecl m).owner)) :
    let s' := { s with program := s.program.setBody m b }
    s'.Fit settled ∧ s.Extends s' := by
  intro s'
  have hext : s.Extends s' := ⟨rfl, rfl, rfl, rfl, rfl, .refl, s.program.setBody_extends m b,
    fun _ _ h => h, fun _ _ h => h, fun _ _ h => h⟩
  refine ⟨hs.extend hext (.ofProgram rfl (hs.layout.setBody m b) (fun k hk hlive => ?_)
    (fun k hk hge => ?_) (fun k hk hge => ?_)
    fun _ h => h.congr hext hs.layout rfl rfl fun _ _ => rfl), hext⟩
  · rw [setBody_methods_size] at hk
    rw [hext.program.isLiveMethod hk] at hlive
    by_cases hmk : k = m
    · subst hmk
      rw [setBody_body _ _ hk, hext.program.methodOwner hk]
      exact .inr ((hb hk hlive).mono fun _ => hext.permits hs.layout)
    · exact .inl ⟨hk, setBody_body_of_ne _ _ hmk⟩
  · exact absurd hk hge.not_gt
  · rw [setBody_methods_size] at hk
    exact absurd hk hge.not_gt
end

lemma Spawns.written (h : s.Extends s') (hmembers : ∀ k < s.program.classes.size,
      (s'.program.classDecl k).methods = (s.program.classDecl k).methods)
    (hvalues : s'.valueFields = s.valueFields) (hsites : s'.sites = s.sites)
    (hothers : ∀ k < s.program.methods.size, k ≠ m →
      (s.program.body k).nextStmt ≤ (s'.program.body k).nextStmt)
    (hnext : (s.program.body m).nextStmt ≤ b.nextStmt) :
    s.Spawns { s' with program := s'.program.setBody m b } where
  toExtends := h.trans ⟨rfl, rfl, rfl, rfl, rfl, .refl, s'.program.setBody_extends m b,
    fun _ _ h => h, fun _ _ h => h, fun _ _ h => h⟩
  members := hmembers
  values := hvalues
  nextStmt k hk := by
    show _ ≤ ((s'.program.setBody m b).body k).nextStmt
    by_cases hkm : k = m
    · subst hkm
      rwa [setBody_body _ _ (hk.trans_le h.program.methods)]
    · rw [setBody_body_of_ne _ _ hkm]
      exact hothers k hk hkm
  sites := hsites

lemma Spawns.setBody (h : s.Spawns s') (hnext : (s.program.body m).nextStmt ≤ b.nextStmt) :
    s.Spawns { s' with program := s'.program.setBody m b } :=
  .written h.toExtends h.members h.values h.sites (fun k hk _ => h.nextStmt k hk) hnext

lemma Fit.changeBody (hs : s.Fit settled)
    (hb : m < s.program.methods.size → s.program.isLiveMethod m →
      b.Fits (s.Permits settled (s.program.methodDecl m).owner))
    (hnext : (s.program.body m).nextStmt ≤ b.nextStmt) :
    let s' := { s with program := s.program.setBody m b }
    s'.Fit settled ∧ s.Spawns s' :=
  ⟨(hs.setBody hb).1, (Spawns.refl s).setBody hnext⟩

lemma Fit.newField (hs : s.Fit settled) (hp : Program.NewField s.program p c)
    (facts : FieldFacts) (hfacts : ∀ f o, s.facts.object? f = some o → facts.object? f = some o)
    (values texts : SortedMap ObjectId FieldId) (refs : SortedMap (ObjectId × ObjectId) FieldId)
    (hkeep : ∀ v f, s.valueFields.get? v = some f → values.get? v = some f)
    (hvalues : ∀ v f, values.get? v = some f → s.valueFields.get? v = some f ∨
      f = s.program.fields.size ∧ (s.program.classDecl c).kind ≠ .closure ∧
        (s.constancy.isConstant v = false → (p.fieldDecl f).isFinal = false))
    (htexts : ∀ a f, s.expressionFields.get? a = some f → texts.get? a = some f)
    (hnew : ∀ a f, texts.get? a = some f → s.expressionFields.get? a = some f ∨
      f = s.program.fields.size ∧ (s.program.classDecl c).kind ≠ .closure)
    (hrefs : ∀ key f, refs.get? key = some f → s.refFields.get? key = some f ∨
      f = s.program.fields.size ∧ s.classOf.get? key.1 = some c ∧ facts.object? f = some key.2) :
    let s' := { s with
      program := p, facts := facts, valueFields := values, expressionFields := texts,
      refFields := refs }
    s'.Fit settled ∧ s.Extends s' := by
  intro s'
  have hext : s.Extends s' := ⟨rfl, rfl, rfl, rfl, rfl, .refl, hp.toExtends, hkeep, htexts, hfacts⟩
  have hfield (hkind : (s.program.classDecl c).kind ≠ .closure) :
      s.program.fields.size < s'.program.fields.size ∧ s'.ownerKind s.program.fields.size ≠ .closure := by
    refine ⟨hp.size ▸ Nat.lt_succ_self _, ?_⟩
    show (p.classDecl (p.fieldDecl s.program.fields.size).owner).kind ≠ .closure
    by_cases hc : c < s.program.classes.size
    · rwa [hp.owner, hp.kind hc]
    · have hlt := hp.layout.fieldOwner s.program.fields.size (hp.size ▸ Nat.lt_succ_self _)
      rw [hp.owner, hp.sameClasses] at hlt
      exact absurd hlt hc
  refine ⟨hs.extend hext ⟨hp.layout, fun m hm _ => .inl ?_, fun k hk hge => ?_,
    fun m hm hge => ?_, fun v f hf => ?_, fun a f hf => ?_, fun key f hf => ?_, fun _ _ => .inl,
    fun _ _ _ _ => .inl, fun _ h => h.congr hext hs.layout hp.sameClasses hp.sameIndex
      fun k _ => hp.sameMembers k⟩, hext⟩
  · rw [hp.sameMethods] at hm
    exact ⟨hm, hp.body m⟩
  · rw [hp.sameClasses] at hk
    exact absurd hk hge.not_gt
  · rw [hp.sameMethods] at hm
    exact absurd hm hge.not_gt
  · refine (hvalues v f hf).imp_right ?_
    rintro ⟨rfl, hkind, hfinal⟩
    exact ⟨(hfield hkind).1, (hfield hkind).2, hfinal⟩
  · refine (hnew a f hf).imp_right ?_
    rintro ⟨rfl, hkind⟩
    exact hfield hkind
  · refine (hrefs key f hf).imp_right ?_
    rintro ⟨rfl, hclass, hobject⟩
    exact ⟨(hfield (hs.registry _ c hclass).2.1).1, by rw [IsReference, hp.owner]; exact ⟨hclass, hobject⟩⟩

lemma permits_newField (settled : Bool) {t : Specialization} (hp : Program.NewField s.program p c)
    (ht : t.program = p) (hfinal : (p.fieldDecl s.program.fields.size).isFinal = false) :
    t.Permits settled c (.read s.program.fields.size) ∧
      t.Permits settled c (.store s.program.fields.size) := by
  subst ht
  have hmention : t.Mentionable c s.program.fields.size := ⟨hp.size ▸ Nat.lt_succ_self _, .inl hp.owner⟩
  have hlive : t.program.isLiveField s.program.fields.size := by
    rw [isLiveField, hp.live]
    rfl
  exact ⟨⟨hmention, .inl hlive⟩, hmention, hfinal, .inl hlive⟩

variable (hs : s.Fit settled)

include hs

lemma Fit.addMethod (hc : c < s.program.classes.size)
    (hlive : (s.program.classDecl c).removed = false) {name : String}
    (hname : s.IsMethodName c name) (params : List CodeType) (result : CodeType)
    (hnew : s.DistinctNames → ∀ m ∈ (s.program.classDecl c).methods,
      (s.program.methodDecl m).name ≠ name) :
    let s' := { s with program := (s.program.addMethod c name params result false).2 }
    s'.Fit settled ∧ Adds c [name] s s' ∧ (s'.program.classDecl c).methods =
        (s.program.classDecl c).methods ++ [s.program.methods.size] := by
  intro s'
  have hp := s.program.addMethod_extends c name params result false
  have hdecl := s.program.addMethod_classDecl c name params result false
  have hext : s.Extends s' :=
    ⟨rfl, rfl, rfl, rfl, rfl, .refl, hp, fun _ _ h => h, fun _ _ h => h, fun _ _ h => h⟩
  have hothers (k : ClassId) (hk : k ≠ c) :
      (s'.program.classDecl k).methods = (s.program.classDecl k).methods := by
    show ((s.program.addMethod c name params result false).2.classDecl k).methods = _
    rw [hdecl, if_neg fun h => hk h.1.symm]
  have hown : (s'.program.classDecl c).methods =
      (s.program.classDecl c).methods ++ [s.program.methods.size] := by
    show ((s.program.addMethod c name params result false).2.classDecl c).methods = _
    rw [hdecl, if_pos ⟨rfl, hc⟩]
  have hnewDecl := s.program.addMethod_methodDecl_new c name params result false
  have hlast {m : MethodId} (hm : m < s.program.methods.size + 1) (hge : s.program.methods.size ≤ m) :
      m = s.program.methods.size := Nat.le_antisymm (Nat.lt_succ_iff.1 hm) hge
  refine ⟨hs.extend hext (.ofProgram rfl (hs.layout.addMethod hc hlive name params result false)
    (fun m hm _ => ?_) (fun k hk hge => ?_) (fun m hm hge => ?_) fun hdistinct h => ?_),
    ⟨⟨hext, fun k _ => hothers k, fun m hm => ?_, rfl, fun k hk => ?_⟩, rfl⟩, hown⟩
  · rw [addMethod_methods_size] at hm
    by_cases hlt : m < s.program.methods.size
    · refine .inl ⟨hlt, ?_⟩
      rw [Program.body, addMethod_methodDecl _ _ _ _ _ _ hlt, Program.body]
    · obtain rfl := hlast hm (Nat.not_lt.1 hlt)
      rw [Program.body, hnewDecl]
      exact .inr (fits_entryBody _ _ _)
  · rw [addMethod_classes_size] at hk
    exact absurd hk hge.not_gt
  · rw [addMethod_methods_size] at hm
    obtain rfl := hlast hm hge
    rw [hnewDecl]
    exact hext.isMethodName hc hname
  · have hclasses : s'.program.classes.size = s.program.classes.size :=
      s.program.addMethod_classes_size c name params result false
    refine ⟨fun k hk k' hk' heq => ?_, fun k hk => ?_, fun k hk => ?_⟩
    · rw [hclasses] at hk hk'
      rw [hp.className hk, hp.className hk'] at heq
      exact h.classes k hk k' hk' heq
    · rw [hclasses] at hk
      rw [hp.className hk]
      exact h.index k hk
    · rw [hclasses] at hk
      have hold (k : ClassId) (hk : k < s.program.classes.size) :
          (s.program.classDecl k).methods.map (fun m => (s'.program.methodDecl m).name) =
            (s.program.classDecl k).methods.map fun m => (s.program.methodDecl m).name :=
        map_congr_left fun m hm => hp.methodName (hs.layout.methods k hk m hm).1
      by_cases hkc : k = c
      · subst hkc
        rw [hown, map_append, hold k hk]
        refine nodup_append.2 ⟨h.methods k hk, nodup_singleton _, ?_⟩
        intro n hn n' hn'
        obtain ⟨m, hm, rfl⟩ := List.mem_map.1 hn
        obtain rfl := mem_singleton.1 hn'
        show _ ≠ ((s.program.addMethod k name params result false).2.methodDecl _).name
        rw [hnewDecl]
        exact hnew (hext.distinctNames hdistinct) m hm
      · rw [hothers k hkc, hold k hk]
        exact h.methods k hk
  · rw [hown] at hm
    refine (mem_append.1 hm).imp_right fun hm => ?_
    obtain rfl := mem_singleton.1 hm
    show ((s.program.addMethod c name params result false).2.methodDecl _).name ∈ _
    rw [hnewDecl]
    exact mem_singleton_self _
  · show _ ≤ ((s.program.addMethod c name params result false).2.methodDecl k).body.nextStmt
    rw [addMethod_methodDecl _ _ _ _ _ _ hk]
    exact .refl

lemma Fit.addClosure (base superclass : String) :
    let name := base ++ "_CGfunction_" ++ toString (s.closures + 1)
    let s' := { s with
      closures := s.closures + 1, program := (s.program.addClass name superclass .closure).2 }
    s'.Fit settled ∧ s.Spawns s' ∧ ∀ c, s.Permits settled c (.new name) := by
  intro name s'
  have hp := s.program.addClass_extends name superclass
  have hext : s.Extends s' :=
    ⟨rfl, rfl, rfl, rfl, rfl, Nat.le_succ _, hp, fun _ _ h => h, fun _ _ h => h, fun _ _ h => h⟩
  have hname : IsClosureName (s.closures + 1) name := ⟨base, rfl⟩
  have hlast {k : ClassId} (hk : k < s'.program.classes.size) (hge : s.program.classes.size ≤ k) :
      k = s.program.classes.size := by
    rw [s.program.addClass_classes_size name superclass .closure] at hk
    exact Nat.le_antisymm (Nat.lt_succ_iff.1 hk) hge
  have hnewDecl : s'.program.classDecl s.program.classes.size =
      ⟨name, superclass, .closure, [], [], false⟩ := s.program.addClass_classDecl_new _ _ _
  -- Names of closures come with smaller numbers, and others are not names of closures.
  have hfresh {k : ClassId} (hk : k < s.program.classes.size)
      (hclosure : (s.program.classDecl k).kind = .closure) : s.program.className k ≠ name := by
    intro heq
    have hold := hs.classNames k hk
    rw [IsClassName, if_pos hclosure] at hold
    obtain ⟨n, hn, hold⟩ := hold
    rw [heq] at hold
    exact Nat.not_succ_le_self _ (hname.unique hold ▸ hn)
  refine ⟨hs.extend hext (.ofProgram rfl (hs.layout.addClass name superclass .closure)
    (fun m hm _ => .inl ⟨hm, rfl⟩) (fun k hk hge => ?_) (fun m hm hge => ?_) fun hdistinct h => ?_),
    ⟨hext, fun k hk => ?_, rfl, .refl _, rfl⟩, fun _ => .inr fun k hk hremoved =>
      hfresh hk (hs.removedClasses k hk hremoved)⟩
  · obtain rfl := hlast hk hge
    rw [IsClassName, hnewDecl, if_pos rfl]
    exact ⟨_, .refl, by rw [Program.className, s.program.addClass_classDecl_new]; exact hname⟩
  · exact absurd hm hge.not_gt
  · have hother {k : ClassId} (hk : k < s.program.classes.size) : s.program.className k ≠ name := by
      by_cases hclosure : (s.program.classDecl k).kind = .closure
      · exact hfresh hk hclosure
      · have hold := hs.classNames k hk
        rw [IsClassName, if_neg hclosure] at hold
        obtain ⟨o, ho, -, hold⟩ := hold
        rw [hold]
        intro heq
        exact hdistinct.closures o ho _ .refl (heq ▸ hname)
    have hnewName : s'.program.className s.program.classes.size = name := by
      rw [Program.className, hnewDecl]
    have hcases {k : ClassId} (hk : k < s'.program.classes.size) :
        k < s.program.classes.size ∨ k = s.program.classes.size :=
      (Nat.lt_or_ge k s.program.classes.size).imp_right (hlast hk)
    refine ⟨fun k hk k' hk' heq => ?_, fun k hk => ?_, fun k hk => ?_⟩
    · rcases hcases hk with hlt | rfl <;> rcases hcases hk' with hlt' | rfl
      · rw [hp.className hlt, hp.className hlt'] at heq
        exact h.classes k hlt k' hlt' heq
      · rw [hp.className hlt, hnewName] at heq
        exact absurd heq (hother hlt)
      · rw [hp.className hlt', hnewName] at heq
        exact absurd heq.symm (hother hlt')
      · rfl
    · show (s.program.index.insert name s.program.classes.size).get? _ = _
      rcases hcases hk with hlt | rfl
      · rw [hp.className hlt, get?_insert_of_ne _ (hother hlt)]
        exact h.index k hlt
      · rw [hnewName, get?_insert_self]
    · rcases hcases hk with hlt | rfl
      · have hdecl := s.program.addClass_classDecl name superclass .closure hlt
        show ((((s.program.addClass name superclass .closure).2.classDecl k).methods).map _).Nodup
        rw [hdecl]
        exact h.methods k hlt
      · rw [hnewDecl]
        exact nodup_nil
  · show ((s.program.addClass name superclass .closure).2.classDecl k).methods = _
    rw [s.program.addClass_classDecl name superclass .closure hk]

lemma Fit.mem_allLiveMethods (hm : m ∈ s.program.allLiveMethods) :
    m < s.program.methods.size ∧ s.program.isLiveMethod m := by
  obtain ⟨c, hc, -, hm, hlive⟩ := Program.mem_allLiveMethods_iff.1 hm
  exact ⟨(hs.layout.methods c hc m hm).1, hlive⟩
end Specialization

namespace Specialize
variable {s : Specialization} {settled : Bool}

lemma methods_ensures {step : MethodId → Specialize Nat} {loop : List MethodId → Specialize Nat}
    (hnil : loop [] = pure 0)
    (hcons : ∀ m ms, loop (m :: ms) = do
      let n ← step m
      let k ← loop ms
      return n + k)
    (hstep : ∀ {s : Specialization} {m : MethodId}, s.Fit settled → m < s.program.methods.size →
      s.program.isLiveMethod m → Ensures (step m) s fun _ s' => s'.Fit settled ∧ s.Spawns s')
    (ms : List MethodId) (hs : s.Fit settled)
    (hms : ∀ m ∈ ms, m < s.program.methods.size ∧ s.program.isLiveMethod m) :
    Ensures (loop ms) s fun _ s' => s'.Fit settled ∧ s.Spawns s' := by
  induction ms generalizing s with
  | nil =>
    rw [hnil]
    exact .pure ⟨hs, .refl s⟩
  | cons m ms ih =>
    rw [hcons]
    obtain ⟨hm, hlive⟩ := hms m (.head _)
    refine (hstep hs hm hlive).bind fun _ s1 ⟨hs1, h1⟩ => ?_
    refine (ih hs1 fun k hk => ?_).bind fun _ s2 ⟨hs2, h2⟩ => .pure ⟨hs2, h1.trans h2⟩
    exact h1.program.liveMethod (hms k (.tail _ hk))
end Specialize
end DataflowSpecializer
