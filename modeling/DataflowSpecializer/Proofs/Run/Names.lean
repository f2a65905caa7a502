import DataflowSpecializer.Proofs.Run.Reached

/-! # References by name

Calls refer to methods by the name of a class and the name of a method. Both come from names of the
model, in which characters that names in a program cannot have are replaced.
-/
namespace DataflowSpecializer
open List Option Model
namespace Program
variable {p : Program} {c : ClassId} {k : MethodId}

lemma Layout.resolve?_methodRef (hp : p.Layout) (hk : k < p.methods.size)
    (hlive : p.isLiveMethod k) (hclass : p.isLiveClass (p.methodDecl k).owner)
    (hindex : p.index.get? (p.className (p.methodDecl k).owner) = some (p.methodDecl k).owner)
    (hnames : ((p.classDecl (p.methodDecl k).owner).methods.map
      fun m => (p.methodDecl m).name).Nodup) :
    p.resolve? (p.methodRef k) = some k := by
  have hclass? : p.class? (p.methodRef k).className = some (p.methodDecl k).owner := by
    show (p.index.get? (p.className (p.methodDecl k).owner)).filter _ = _
    rw [hindex, filter_some, if_pos hclass]
  have hmem := (hp.methodOwner k hk).2
  rw [resolve?, hclass?, bind_some]
  have hfound : ((p.liveMethods (p.methodDecl k).owner).find? fun m =>
      (p.methodDecl m).name == (p.methodRef k).name &&
        (p.methodDecl m).params.length == (p.methodRef k).params.length).isSome :=
    find?_isSome.2 ⟨k, mem_filter.2 ⟨hmem, hlive⟩, by simp [methodRef]⟩
  obtain ⟨k', hk'⟩ := isSome_iff_exists.1 hfound
  have hmem' := (mem_filter.1 (mem_of_find?_eq_some hk')).1
  have hname : (p.methodDecl k').name = (p.methodDecl k).name := by
    have h := find?_some hk'
    simp only [Bool.and_eq_true, beq_iff_eq] at h
    exact h.1
  rw [hk', inj_on_of_nodup_map hnames hmem' hmem hname]

lemma Layout.class?_of_resolve? (hp : p.Layout) (h : p.resolve? (p.methodRef k) = some k) :
    p.class? (p.className (p.methodDecl k).owner) = some (p.methodDecl k).owner := by
  obtain ⟨c, hc, hfound⟩ := bind_eq_some_iff.1 h
  have hmem := (mem_filter.1 (mem_of_find?_eq_some hfound)).1
  have hlt : c < p.classes.size := by
    by_contra hge
    rw [classDecl, Array.getD_eq_getD_getElem?, Array.getElem?_eq_none (Nat.not_lt.1 hge)] at hmem
    cases hmem
  rw [(hp.methods c hlt k hmem).2]
  rwa [methodRef, (hp.methods c hlt k hmem).2] at hc
end Program

namespace Specialization
variable {s : Specialization} {settled : Bool}

lemma Fit.class_of_mem_owners (hs : s.Fit settled)
    (hx : x ∈ Classes.owners s.model) : ∃ c, s.classOf.get? x = some c := by
  obtain ⟨c, hc, -⟩ := hs.certified.classes x hx
  exact ⟨c, hc⟩

lemma Reached.constructors (h : Reached m o stages s)
    (hx : x ∈ Classes.owners s.model) (hc : s.classOf.get? x = some c) :
    s.program.HasMethod c "<init>" := by
  induction h with
  | generated h => exact (Classes.generated_of_eq_ok h).constructors x hx c hc
  | @reduced _ stage _ _ s s' hs hx' h ih =>
    obtain ⟨hfit, hextends, hshrinks⟩ := reduction_ensures hs.fit hx' _ _ h
    by_cases hstage : stage = .deadCode
    · have hshrinks := (hshrinks hstage).1
      obtain ⟨k, hk, hlive, howner, hname⟩ := ih (hshrinks.model ▸ hx) (hshrinks.classOf ▸ hc)
      have hlt : k < s'.program.methods.size := hshrinks.program.methods ▸ hk
      have howner' := (hshrinks.program.methodOwner k).trans howner
      have hname' := (hshrinks.program.methodName k).trans hname
      refine ⟨k, hlt, ?_, howner', hname'⟩
      by_contra hremoved
      have hremoved : (s'.program.methodDecl k).removed := by
        simpa [Program.isLiveMethod] using hremoved
      rcases hfit.removedMethods k hlt hremoved with hclass | hentry
      · rw [howner', (hfit.objectClass hc).live] at hclass
        cases hclass
      · rw [hname'] at hentry
        revert hentry
        decide
    · have hextends := hextends hstage
      exact hextends.program.hasMethod (ih (hextends.model ▸ hx) (hextends.classOf ▸ hc))

lemma Fit.className_eq (hs : s.Fit settled)
    (hc : s.classOf.get? x = some c) : s.program.className c = s.className x := by
  obtain ⟨hlt, hkind, hobject⟩ := hs.registry x c hc
  have hname := hs.classNames c hlt
  rw [IsClassName, if_neg hkind] at hname
  obtain ⟨y, -, hy, hname⟩ := hname
  obtain rfl := some.inj (hobject.symm.trans (hs.registry y c hy).2.2)
  exact hname

lemma Reached.constructor_lost (h : Reached m o stages s)
    (hx : x ∈ Classes.owners s.model) (hy : y ∈ Classes.owners s.model) (hne : x ≠ y)
    (hname : s.className x = s.className y) :
    ∃ k < s.program.methods.size, s.program.isLiveMethod k ∧
      s.program.isLiveClass (s.program.methodDecl k).owner ∧
        s.program.resolve? (s.program.methodRef k) ≠ some k := by
  have hs := h.fit
  obtain ⟨c, hc⟩ := hs.class_of_mem_owners hx
  obtain ⟨c', hc'⟩ := hs.class_of_mem_owners hy
  have hclasses : s.program.className c = s.program.className c' := by
    rw [hs.className_eq hc, hs.className_eq hc', hname]
  obtain ⟨k, hk, hlive, howner, -⟩ := h.constructors hx hc
  obtain ⟨k', hk', hlive', howner', -⟩ := h.constructors hy hc'
  have hclass {x : ObjectId} {c : ClassId} (hc : s.classOf.get? x = some c) :
      s.program.isLiveClass c := by simp [Program.isLiveClass, (hs.objectClass hc).live]
  by_cases hresolves : s.program.resolve? (s.program.methodRef k) = some k
  · refine ⟨k', hk', hlive', howner'.symm ▸ hclass hc', fun hresolves' => ?_⟩
    have hfound := hs.layout.class?_of_resolve? hresolves
    have hfound' := hs.layout.class?_of_resolve? hresolves'
    rw [howner, hclasses] at hfound
    rw [howner', hfound] at hfound'
    exact hs.class_ne hc' hc hne (some.inj hfound')
  · exact ⟨k, hk, hlive, howner.symm ▸ hclass hc, hresolves⟩
end Specialization

namespace Run
open DataflowSpecializer.Specialization (Reached after? exists_reached sanitize relativeName)

/-- In every state of a specialization in which the names of objects stay different, classes have
different names, and the reference to a live method resolves to it. Where the classes of two objects
get one name, it does not: there is a live method whose reference resolves to nothing or to another
one. -/
theorem references_resolve_where_names_differ (m : Model) (o : Options) (stages : List Stage)
    (s : Specialization) (h : Reached m o stages s) : (s.DistinctNames →
      (∀ c < s.program.classes.size, ∀ c' < s.program.classes.size,
        s.program.className c = s.program.className c' → c = c') ∧
      ∀ k < s.program.methods.size, s.program.isLiveMethod k →
        s.program.isLiveClass (s.program.methodDecl k).owner →
          s.program.resolve? (s.program.methodRef k) = some k) ∧
    ∀ x ∈ Classes.owners s.model, ∀ y ∈ Classes.owners s.model, x ≠ y →
      s.className x = s.className y →
        ∃ k < s.program.methods.size, s.program.isLiveMethod k ∧
          s.program.isLiveClass (s.program.methodDecl k).owner ∧
            s.program.resolve? (s.program.methodRef k) ≠ some k := by
  have hs := h.fit
  refine ⟨fun hdistinct => ?_, fun x hx y hy => h.constructor_lost hx hy⟩
  obtain ⟨hclasses, hindex, hmethods⟩ := hs.names hdistinct
  refine ⟨hclasses, fun k hk hlive hclass => ?_⟩
  have howner := (hs.layout.methodOwner k hk).1
  exact hs.layout.resolve?_methodRef hk hlive hclass (hindex _ howner) (hmethods _ howner)

lemma distinctNames_of_not_isNumbered {s : Specialization}
    (hclasses : ∀ x ∈ Classes.owners s.model, ∀ y ∈ Classes.owners s.model,
      x = y ∨ s.className x ≠ s.className y)
    (hnumbers : ∀ x ∈ Classes.owners s.model, isNumbered (s.className x) = false)
    (hconstant : ∀ v ∈ s.model.variableIds, s.constancy.isConstant v) : s.DistinctNames where
  classes x hx y hy hname := (hclasses x hx y hy).resolve_right (absurd hname)
  closures x hx n _ hn := by cases hn.isNumbered.symm.trans (hnumbers x hx)
  values v hv v' hv' hchanging := by
    rw [hconstant v hv] at hchanging
    cases hchanging

def nestedRecorder (outer : String) : Description.Entity where
  name := "M"
  entities :=
    [{ name := "a", entities := [{ name := "b", kind := "Recorder" }] },
      { name := outer, kind := "Const" }]

/-- The method that tells the latest token of a recorder resolves if the other actor is called `c`.
If it is called `a_b`, its class has the name of the recorder's, and a method is lost. -/
theorem references_of_nestedRecorder : (∃ m s k, ofDescription (nestedRecorder "c") = .ok m ∧
      Reached m { targetPackage := "g" } [] s ∧
      s.DistinctNames ∧ (s.program.methodDecl k).name = "latest" ∧
        s.program.resolve? (s.program.methodRef k) = some k) ∧
    ∃ m s k, ofDescription (nestedRecorder "a_b") = .ok m ∧ Reached m {} [] s ∧
      s.className 2 = s.className 4 ∧ s.program.isLiveMethod k ∧
        s.program.resolve? (s.program.methodRef k) ≠ some k := by
  have h : ((ofDescription (nestedRecorder "c")).toOption.any fun m =>
      (after? m { targetPackage := "g" } []).any fun s : Specialization => decide <|
        (∀ x ∈ Classes.owners s.model, ∀ y ∈ Classes.owners s.model,
          x = y ∨ s.className x ≠ s.className y) ∧
        (∀ x ∈ Classes.owners s.model, isNumbered (s.className x) = false) ∧
        (∀ v ∈ s.model.variableIds, s.constancy.isConstant v) ∧
        29 < s.program.methods.size ∧ s.program.isLiveMethod 29 ∧
        s.program.isLiveClass (s.program.methodDecl 29).owner ∧
        (s.program.methodDecl 29).name = "latest") := by
    decide +kernel
  have h' : ((ofDescription (nestedRecorder "a_b")).toOption.any fun m =>
      (after? m {} []).any fun s => 2 ∈ Classes.owners s.model ∧ 4 ∈ Classes.owners s.model ∧
        sanitize (relativeName (s.model.fullName 2)) = "a_b" ∧
        sanitize (relativeName (s.model.fullName 4)) = "a_b") := by
    decide +kernel
  constructor
  · obtain ⟨m, s, hm, hreached, h⟩ := exists_reached h
    obtain ⟨hclasses, hnumbers, hconstant, hk, hlive, hclass, hname⟩ := of_decide_eq_true h
    have hdistinct := distinctNames_of_not_isNumbered hclasses hnumbers hconstant
    obtain ⟨-, hresolve⟩ := (references_resolve_where_names_differ m _ [] s hreached).1 hdistinct
    exact ⟨m, s, 29, hm, hreached, hdistinct, hname, hresolve 29 hk hlive hclass⟩
  · obtain ⟨m, s, hm, hreached, h⟩ := exists_reached h'
    obtain ⟨hx, hy, hnested, houter⟩ := of_decide_eq_true h
    have hname : s.className 2 = s.className 4 :=
      congrArg (_ ++ "_" ++ ·) (hnested.trans houter.symm)
    obtain ⟨k, -, hlive, -, hlost⟩ :=
      (references_resolve_where_names_differ m {} [] s hreached).2 2 hx 4 hy (by decide) hname
    exact ⟨m, s, k, hm, hreached, hname, hlive, hlost⟩

/-- The classes of `a.b` and `a_b` get one name, and the recorder's method for the latest token
cannot be found. -/
theorem reference_lost_of_equal_names :
    ∃ m s k, ofDescription (nestedRecorder "a_b") = .ok m ∧ Reached m {} [] s ∧
      s.program.isLiveClass 3 ∧ s.program.method? 3 "latest" = some k ∧
        s.program.resolve? (s.program.methodRef k) = none := by
  have h : ((ofDescription (nestedRecorder "a_b")).toOption.any fun m =>
      (after? m {} []).any fun s => s.program.isLiveClass 3 ∧
        s.program.method? 3 "latest" = some 29 ∧
        s.program.resolve? (s.program.methodRef 29) = none) := by
    decide +kernel
  obtain ⟨m, s, hm, hs, h⟩ := exists_reached h
  obtain ⟨hlive, hlatest, hlost⟩ := of_decide_eq_true h
  exact ⟨m, s, 29, hm, hs, hlive, hlatest, hlost⟩
end Run
end DataflowSpecializer
