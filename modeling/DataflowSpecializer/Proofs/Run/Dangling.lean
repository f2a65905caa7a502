import DataflowSpecializer.Proofs.Run.Reached

/-! # References to what was removed -/
namespace DataflowSpecializer
open List Unused Classes
namespace Program
structure Answers (p : Program) (r : MethodRef) (k : MethodId) : Prop where
  lt : k < p.methods.size
  className : p.className (p.methodDecl k).owner = r.className
  name : (p.methodDecl k).name = r.name
  params : (p.methodDecl k).params.length = r.params.length

/-- A reference that leads to something that was removed: a field, a class, or a method if no other
one answers to it. -/
def Dangles (p : Program) : Demand → Prop
  | .read f | .store f => p.isLiveField f = false
  | .call r => (∃ k, p.Answers r k) ∧ ∀ k, p.Answers r k → p.isLiveMethod k = false
  | .new className => ∃ c < p.classes.size, p.className c = className ∧ p.isLiveClass c = false
end Program

namespace Specialization
variable {m : Model} {s : Specialization} {settled : Bool}

lemma Fit.isNumbered_of_removed (hs : s.Fit settled) (hc : c < s.program.classes.size)
    (hremoved : (s.program.classDecl c).removed) :
    isNumbered (s.program.className c) := by
  have hname := hs.classNames c hc
  rw [IsClassName, if_pos (hs.removedClasses c hc hremoved)] at hname
  obtain ⟨n, -, hname⟩ := hname
  exact hname.isNumbered

lemma isEntryPoint_of_mem_commonMethods (h : name ∈ commonMethods)
    (hname : name ≠ "execute") : isEntryPoint name := by
  revert name
  decide

lemma Fit.isComputeName_of_removed (hs : s.Fit settled) {r : MethodRef}
    (hk : s.program.Answers r k) (hremoved : (s.program.methodDecl k).removed)
    (hr : s.Permits settled c (.call r)) : ∃ c, s.IsComputeName c r.name := by
  obtain ⟨hexecute, -, hconstruct⟩ := hr
  have howner := (hs.layout.methodOwner k hk.lt).1
  have hname := hs.methodNames k hk.lt
  rw [hk.name] at hname
  by_cases hkind : (s.program.classDecl (s.program.methodDecl k).owner).kind = .closure
  · rw [isMethodName_closure hkind] at hname
    rcases hs.removedMethods k hk.lt hremoved with hclass | hentry
    · have hnumbered := hs.isNumbered_of_removed howner hclass
      rw [hk.className, hconstruct hname] at hnumbered
      cases hnumbered
    · have hstays : isEntryPoint r.name := by
        rcases hname with hname | hname <;> rw [hname] <;> decide
      rw [hk.name, hstays] at hentry
      cases hentry
  · rw [isMethodName_object hkind] at hname
    rcases hname with hname | hname
    · rcases hs.removedMethods k hk.lt hremoved with hclass | hentry
      · exact absurd (hs.removedClasses _ howner hclass) hkind
      · rw [hk.name, isEntryPoint_of_mem_commonMethods hname hexecute] at hentry
        cases hentry
    · exact ⟨_, hname⟩

variable (s settled) in

def Excused : Demand → Prop
  | .read f => settled = false ∧ s.IsText f
  | .store f => s.IsChanging f
  | .call r => ∃ c, s.IsComputeName c r.name
  | .new _ => False

lemma Fit.excused_of_dangles (hs : s.Fit settled) (hx : s.Permits settled c x)
    (h : s.program.Dangles x) : s.Excused settled x := by
  cases x with
  | read f => exact hx.2.resolve_left (by rw [show s.program.isLiveField f = false from h]; nofun)
  | store f => exact hx.2.2.resolve_left (by rw [show s.program.isLiveField f = false from h]; nofun)
  | call r =>
    obtain ⟨⟨k, hk⟩, hall⟩ := h
    exact hs.isComputeName_of_removed hk (by simpa [Program.isLiveMethod] using hall k hk) hx
  | new className =>
    obtain ⟨k, hk, rfl, hremoved⟩ := h
    have hremoved : (s.program.classDecl k).removed := by
      simpa [Program.isLiveClass] using hremoved
    rcases hx with hplain | hlive
    · rw [hs.isNumbered_of_removed hk hremoved] at hplain
      cases hplain
    · exact hlive k hk hremoved rfl

lemma Reached.constancy (h : Reached m o stages s) : Constancy.ofModel m = .ok s.constancy := by
  induction h with
  | generated h => exact (generated_of_eq_ok h).constancy
  | @reduced _ stage _ _ s s' hs hx h ih =>
    obtain ⟨-, hextends, hshrinks⟩ := reduction_ensures hs.fit hx _ _ h
    by_cases hstage : stage = .deadCode
    · rwa [(hshrinks hstage).1.constancy]
    · rwa [(hextends hstage).constancy]

lemma Reached.fit_of_writers (h : Reached m o stages s)
    (hm : ∀ x, m.actorKind? x ≠ some .setVariable) : s.Fit true := by
  induction h with
  | generated h =>
    have hgenerate : Ensures generate (start m o) fun _ s => Classes.Generated true m s :=
      generate_ensures m o fun _ => hm
    exact (hgenerate _ _ h).fit
  | reduced hs hx h ih => exact (reduction_ensures ih hx _ _ h).1
end Specialization

lemma Constancy.isConstant_of_writers {m : Model} {c : Constancy} (h : ofModel m = .ok c)
    (hm : m.writers = []) (v : ObjectId) : c.isConstant v := by
  obtain ⟨entries, -, h⟩ := bind_eq_ok.1 h
  have hnone (deps : Dependencies) (order : List ObjectId) :
      reached ⟨[], deps, order⟩ [].contains = [] := foldl_fixed' (fun w => by simp) order
  have hchanging : c.changing = [] := by
    dsimp only at h
    split at h
    · cases h
    · cases h
      simp [hm, hnone]
  simp [isConstant, hchanging]

namespace Run
open DataflowSpecializer.Specialization (Reached)

lemma mem_demands_of_stored? {a : Action} (h : stored? a = some f) : .store f ∈ a.demands := by
  unfold stored? at h
  split at h
  · cases h
    exact .head _
  · cases h

lemma verified?_writtenParameter : ∃ r, verified? writtenParameter { maxRounds := 2 } = some r ∧
      12 ∈ r.spec.program.allLiveMethods ∧ r.spec.program.isLiveField 7 = false ∧
        ∃ a ∈ (r.spec.program.body 12).code, .store 7 ∈ a.demands := by
  have h : ((verified? writtenParameter { maxRounds := 2 }).any fun r =>
      r.spec.program.allLiveMethods.contains 12 && !r.spec.program.isLiveField 7 &&
        (r.spec.program.body 12).code.any fun a => decide (stored? a = some 7)) := by
    decide +kernel
  obtain ⟨r, hr, h⟩ := (Option.any_eq_true _ _).1 h
  simp only [Bool.and_eq_true, Bool.not_eq_true', contains_iff_mem, any_eq_true,
    decide_eq_true_eq] at h
  obtain ⟨⟨hk, hf⟩, a, ha, hstored⟩ := h
  exact ⟨r, hr, hk, hf, a, ha, mem_demands_of_stored? hstored⟩

/-- What a live method refers to at the end of a run has not been removed, with these exceptions:
the field of a variable that can change may be stored to, the text of an attribute read and the
method that computes a variable called. There are none where no actor writes a variable. -/
theorem dangling_references_of_writes (m : Model) (o : Options) {σ : Type} (clock : StateM σ Nat)
    (w : σ) (p : Option Provenance) (r : Run)
    (h : (upTo clock .verify { start m o with provenance := p } w).1 = (none, r)) :
    ∀ k ∈ r.spec.program.allLiveMethods, ∀ a ∈ (r.spec.program.body k).code, ∀ x ∈ a.demands,
      r.spec.program.Dangles x →
        r.spec.Excused false x ∧ ∃ y, m.actorKind? y = some .setVariable := by
  have hreaches := upTo_reaches clock w .verify (r := { start m o with provenance := p }) rfl
  rw [h] at hreaches
  obtain ⟨n, s, hs, all, hspec⟩ := hreaches
  rw [hspec]
  intro k hk a ha x hx hdangles
  obtain ⟨hlt, hlive⟩ := hs.fit.mem_allLiveMethods_iff.1 hk
  refine ⟨hs.fit.excused_of_dangles ((hs.fit.bodies k hlt hlive).demands a ha x hx) hdangles, ?_⟩
  by_contra hnone
  have hkinds (y : ObjectId) : m.actorKind? y ≠ some .setVariable := fun hy => hnone ⟨y, hy⟩
  have hfit := hs.fit_of_writers hkinds
  have hconstant : ∀ v, s.constancy.isConstant v :=
    Constancy.isConstant_of_writers hs.constancy
      (filterMap_eq_nil_iff.2 fun y _ => if_neg (hkinds y))
  have hexcused := hfit.excused_of_dangles ((hfit.bodies k hlt hlive).demands a ha x hx) hdangles
  cases x with
  | read f => cases hexcused.1
  | store f =>
    obtain ⟨v, -, hv⟩ := hexcused
    rw [hconstant v] at hv
    cases hv
  | call r =>
    obtain ⟨c, v, -, hv, -⟩ := hexcused
    rw [hconstant v] at hv
    cases hv
  | new className => exact hexcused

/-- The store to the field of a written parameter is excused. -/
theorem store_excused_of_writtenParameter : ∃ m r f, Model.ofDescription writtenParameter = .ok m ∧
      verified? writtenParameter { maxRounds := 2 } = some r ∧
        r.spec.program.isLiveField f = false ∧ r.spec.IsChanging f ∧
          ∃ y, m.actorKind? y = some .setVariable := by
  obtain ⟨r, hr, hk, hf, a, ha, hstore⟩ := verified?_writtenParameter
  obtain ⟨m, hm, hrun⟩ := verified?_eq_some hr
  obtain ⟨hchanging, hwriter⟩ :=
    dangling_references_of_writes m _ _ () none r hrun 12 hk a ha (.store 7) hstore hf
  exact ⟨m, r, 7, hm, hr, hf, hchanging, hwriter⟩

/-- A run in two rounds leaves a store to a removed field. -/
theorem store_dangles_of_writtenParameter :
    ∃ r, verified? writtenParameter { maxRounds := 2 } = some r ∧
      ∃ k ∈ r.spec.program.allLiveMethods, ∃ a ∈ (r.spec.program.body k).code,
        ∃ f, .store f ∈ a.demands ∧ r.spec.program.isLiveField f = false := by
  obtain ⟨r, hr, hk, hf, a, ha, hstore⟩ := verified?_writtenParameter
  exact ⟨r, hr, 12, hk, a, ha, 7, hstore, hf⟩
end Run
end DataflowSpecializer
