import DataflowSpecializer.Proofs.Fitness.Unused

/-! # What a sweep leaves behind

Statements, methods, fields and closures are swept once each. Nothing dangles after it: the methods that
are called are closed under calls, fields go with the stores to them, and closures that nobody makes.
-/
namespace DataflowSpecializer.Unused
open List

/-- Live methods use fields that are there, and others refer to a closure only where they make it. -/
structure Tidy (s : Specialization) : Prop where
  listed : s.program.Listed
  accesses : ∀ m f, Accesses s.program m f → f < s.program.fields.size ∧ s.program.isLiveField f
  fields : ∀ c, IsClosure s.program c → ∀ f ∈ (s.program.classDecl c).fields, ∀ m,
    Accesses s.program m f → (s.program.methodDecl m).owner = c
  methods : ∀ c, IsClosure s.program c → ∀ k ∈ (s.program.classDecl c).methods, ∀ m r,
    Demands s.program m (.call r) → s.program.resolve? r = some k → (s.program.methodDecl m).owner = c
  references : ∀ c, IsClosure s.program c → ∀ f ∈ (s.program.classDecl c).fields, ∀ key,
    s.refFields.get? key ≠ some f

/-- What the methods that are left refer to is left as well. -/
structure LeavesReferences (s s' : Specialization) : Prop where
  fields : ∀ m f, Accesses s'.program m f → s'.program.isLiveField f
  /-- A call means the method that it meant before, and that method is live. -/
  calls : ∀ m r k, Demands s'.program m (.call r) → s.program.resolve? r = some k →
    s'.program.resolve? r = some k ∧ k ∈ s'.program.allLiveMethods
  /-- A class that is made and not there was not there before. -/
  classes : ∀ m, ∀ c < s.program.classes.size, Demands s'.program m (.new (s.program.className c)) →
    s'.program.isLiveClass c = false → s.program.isLiveClass c = false
  references : ∀ key f, s'.refFields.get? key = some f → s.refFields.get? key = some f ∧
    (f < s.program.fields.size → s.program.isLiveField f → s'.program.isLiveField f)

/-- **A sweep takes away nothing that is referred to.** -/
theorem sweep_leaves_references (s : Specialization) (hs : Tidy s) :
    ∃ n s', reduce s = .ok n s' ∧ LeavesReferences s s' := by
  obtain ⟨n, s', unused, unread, gone, hrun, h⟩ := reduce_swept hs.listed
  have hd := h.discards
  have howner {m : MethodId} (hm : m ∈ s'.program.allLiveMethods) :
      (s.program.methodDecl m).owner ∉ gone := ((hd.mem_allLiveMethods_iff hs.listed).1 hm).2.2
  have hfield {f : FieldId} (hunread : f ∉ unread) (hlt : f < s.program.fields.size)
      (hlive : s.program.isLiveField f)
      (hapart : ∀ c ∈ gone, f ∉ (s.program.classDecl c).fields) : s'.program.isLiveField f := by
    refine (hd.liveField f hlt).2 ⟨hlive, fun hf => ?_⟩
    obtain ⟨c, hc, hfc⟩ := mem_flatMap.1 ((mem_append.1 hf).resolve_left hunread)
    exact hapart c hc hfc
  refine ⟨n, s', hrun, fun m f hf => ?_, fun m r k hr hk => ?_, fun m c hc hnew hgone => ?_,
    fun key f hf => ?_⟩
  · have hbefore : Accesses s.program m f := hf.imp (·.before hd hs.listed) (·.before hd hs.listed)
    obtain ⟨hlt, hlive⟩ := hs.accesses m f hbefore
    refine hfield (h.unaccessed m f hf) hlt hlive fun c hc hfc => howner (hf.elim And.left And.left) ?_
    exact hs.fields c (h.isClosure c hc) f hfc m hbefore ▸ hc
  · have hapart (c : ClassId) (hc : c ∈ gone) : k ∉ (s.program.classDecl c).methods := fun hkc =>
      howner hr.1 (hs.methods c (h.isClosure c hc) k hkc m r (hr.before hd hs.listed) hk ▸ hc)
    obtain ⟨c, hlt, -, hmem, -⟩ := Program.mem_allLiveMethods_iff.1
      (Program.mem_allLiveMethods_of_resolve? hk).1
    have hk' := hd.resolve?_eq_some hs.listed hk (fun hgone => ?_) fun hgone => ?_
    · exact ⟨hk', (Program.mem_allLiveMethods_of_resolve? hk').1⟩
    · obtain ⟨c, hc, hkc⟩ := mem_flatMap.1
        ((mem_append.1 hgone).resolve_left (h.uncalled m r k hr hk))
      exact hapart c hc hkc
    · exact hapart c ((hs.listed c hlt k hmem).2 ▸ hgone) hmem
  · by_contra hlive
    refine Bool.false_ne_true (hgone.symm.trans ((hd.liveClass c hc).2 ⟨?_, fun hg => ?_⟩))
    · exact Bool.of_not_eq_false hlive
    · exact h.unmade m c hg hnew
  · obtain ⟨hget, hunread⟩ := h.references key f hf
    refine ⟨hget, fun hlt hlive => hfield hunread hlt hlive fun c hc hfc => ?_⟩
    exact hs.references c (h.isClosure c hc) f hfc key hget

/-- An actor that makes a closure, which may have been removed, beside one that nobody makes. -/
def closureMaker (removed : Bool) : Specialization :=
  let p := (Program.empty.addClass "Closure" "rt.data.expr.FunctionToken" .closure).2
  let p := ((if removed then p.removeClass 0 else p).addClass "Idle" "rt.data.expr.FunctionToken" .closure).2
  let p := (p.addClass "Actor" "rt.kernel.Actor" .actor).2
  let p := (p.addMethod 2 "fire" [] .void false).2
  let (x, b) := (p.body 0).newLocal "x" (.object "Closure")
  let b := b.append [.assign (.loc x) (.new "Closure" [])]
  { Specialization.start .empty {} with program := p.setBody 0 b }

lemma closureMaker_tidy (removed : Bool) : Tidy (closureMaker removed) := by
  have hnew : ∀ m ∈ (closureMaker removed).program.allLiveMethods,
      ∀ a ∈ ((closureMaker removed).program.body m).code, a.demands = [.new "Closure"] := by
    cases removed <;> decide
  have hdemands {m : MethodId} {x : Demand} (h : Demands (closureMaker removed).program m x) :
      x = .new "Closure" := by
    obtain ⟨hm, a, ha, hx⟩ := h
    exact mem_singleton.1 (hnew m hm a ha ▸ hx)
  have haccess (m : MethodId) (f : FieldId) : ¬ Accesses (closureMaker removed).program m f := by
    rintro (h | h) <;> cases hdemands h
  refine ⟨?_, fun m f h => absurd h (haccess m f), fun _ _ f _ m h => absurd h (haccess m f),
    fun _ _ _ _ m r h => (by cases hdemands h), fun _ _ _ _ _ h => by cases h⟩
  unfold Program.Listed
  cases removed <;> decide

theorem sweep_leaves_references_of_closureMaker : Tidy (closureMaker false) ∧
    ∃ n s', reduce (closureMaker false) = .ok n s' ∧ LeavesReferences (closureMaker false) s' :=
  ⟨closureMaker_tidy _, sweep_leaves_references _ (closureMaker_tidy _)⟩

/-- What was removed before the sweep is not put back, and not looked for. -/
theorem sweep_leaves_removed_closure_made : Tidy (closureMaker true) ∧
    ∃ n s', reduce (closureMaker true) = .ok n s' ∧ ∃ m, ∃ c < s'.program.classes.size,
      Demands s'.program m (.new (s'.program.className c)) ∧ s'.program.isLiveClass c = false := by
  refine ⟨closureMaker_tidy _, _, _, rfl, 0, 0, ?_, ⟨?_, .assign (.loc 1) (.new "Closure" []), ?_⟩, ?_⟩
  all_goals decide
end DataflowSpecializer.Unused
