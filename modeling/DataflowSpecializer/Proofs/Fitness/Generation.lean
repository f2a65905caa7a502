import DataflowSpecializer.Proofs.Fitness.Consistency
import DataflowSpecializer.Proofs.Fitness.Operations
import DataflowSpecializer.Proofs.Model.Structure

/-! # Code that fits

Writing code for a method keeps the specialization fit and the draft tidy. `Generates` says so of a
step, as `Draft.Tidies` does of steps that only write statements.
-/
namespace DataflowSpecializer
open Platform DataflowSpecializer.Specialization List Option Draft Generation Program Model

/-! ## Workbenches -/
structure Workbench.Fit (settled : Bool) (c : ClassId) (W : List Label) (w : Workbench) : Prop where
  spec : w.spec.Fit settled
  draft : w.draft.Tidy (w.spec.Permits settled c) W

structure Workbench.Grows (strict : Bool) (w w' : Workbench) : Prop where
  spec : w.spec.Spawns w'.spec
  draft : w.draft.Grows w'.draft
  keeps : strict → w.spec.Keeps w'.spec

structure Workbench.Enters (k : Nat) (w : Workbench) : Prop where
  typed : w.spec.Typed
  receiver : w.draft.body.receiver.isSome
  params : w.draft.body.params.length = k

section Workbenches
variable {w w' w'' : Workbench} {strict : Bool} {q : Option Nat}

lemma Workbench.Grows.refl (w : Workbench) : w.Grows strict w :=
  ⟨.refl _, .refl _, fun _ => .refl _⟩

lemma Workbench.Grows.trans (h : w.Grows strict w') (h' : w'.Grows strict w'') :
    w.Grows strict w'' :=
  ⟨h.spec.trans h'.spec, h.draft.trans h'.draft,
    fun hstrict => (h.keeps hstrict).trans (h'.keeps hstrict)⟩

lemma Workbench.Grows.enters (h : w.Grows q.isSome w') (hw : ∀ k ∈ q, w.Enters k) :
    ∀ k ∈ q, w'.Enters k := by
  intro k hk
  obtain ⟨htyped, hreceiver, hparams⟩ := hw k hk
  exact ⟨(h.keeps (isSome_of_mem hk)).typed htyped, h.draft.receiver ▸ hreceiver,
    h.draft.params ▸ hparams⟩
end Workbenches

/-- The step of writing code for the class `c` leaves a workbench fit, and `Q` holds of the number
of locals and the result. Before it the state extends `s`, the labels `V` are placed and `W` are
open, and there are at least `n` locals; afterwards the labels `W'` are open. If `q` is a number,
the code is strictly for a method with as many arguments. -/
def Generates {α : Type} (settled : Bool) (c : ClassId) (q : Option Nat) (V W : List Label)
    (s : Specialization) (n : Nat) (x : Generation α) (W' : α → List Label) (Q : Nat → α → Prop) :
    Prop :=
  ∀ ⦃w : Workbench⦄, s.Extends w.spec → w.Fit settled c W → (∀ k ∈ q, w.Enters k) →
    (∀ l ∈ V, .label l ∈ w.draft.actions) → n ≤ w.draft.size → Runs q.isSome x w fun a w' =>
        w'.Fit settled c (W' a) ∧ w.Grows q.isSome w' ∧ Q w'.draft.size a

abbrev GeneratesValue (settled : Bool) (c : ClassId) (q : Option Nat) (V W : List Label)
    (s : Specialization) (n : Nat) (x : Generation TypedLocal) : Prop :=
  Generates settled c q V W s n x (fun _ => W) fun n r => (r.1 : Nat) < n

abbrev GeneratesCode (settled : Bool) (c : ClassId) (q : Option Nat) (V W : List Label)
    (s : Specialization) (n : Nat) (x : Generation Unit) : Prop :=
  Generates settled c q V W s n x (fun _ => W) fun _ _ => True

namespace Generates
variable {settled : Bool} {c : ClassId} {q : Option Nat} {V W : List Label} {s : Specialization}
  {n : Nat} {α β : Type} {x : Generation α} {k : α → Generation β} {W1 : α → List Label}
  {W2 : β → List Label} {R : Nat → α → Prop} {S : Nat → β → Prop}

lemma bind (hx : Generates settled c q V W s n x W1 R)
    (hk : ∀ a n', n ≤ n' → R n' a → Generates settled c q V (W1 a) s n' (k a) W2 S) :
    Generates settled c q V W s n (x >>= k) W2 S := by
  intro w hs hw hq hV hn
  refine (hx hs hw hq hV hn).bind fun a w' ⟨hw', hgrows, hR⟩ => ?_
  have hV' : ∀ l ∈ V, .label l ∈ w'.draft.actions := fun l hl =>
    hgrows.draft.actions.subset (hV l hl)
  refine (hk a w'.draft.size (hn.trans hgrows.draft.size) hR
    (hs.trans hgrows.spec.toExtends) hw' (hgrows.enters hq) hV' .refl).mono
      fun b w'' ⟨hw'', hgrows', hS⟩ => ?_
  exact ⟨hw'', hgrows.trans hgrows', hS⟩

lemma pure (h : ∀ n', n ≤ n' → R n' a) : Generates settled c q V W s n (pure a) (fun _ => W) R :=
  fun w _ hw _ _ hn => .pure ⟨hw, .refl w, h _ hn⟩

lemma throw {e : Fault} (h : q.isSome → e.isContradiction = false) :
    Generates settled c q V W s n (throw e : Generation α) W1 R := fun _ _ _ _ _ _ => .throw h

section
variable (hx : Generates settled c q V W s n x W1 R)

include hx

lemma post (h : ∀ n' a, n ≤ n' → R n' a → R' n' a) : Generates settled c q V W s n x W1 R' :=
  fun _ hs hw hq hV hn => (hx hs hw hq hV hn).mono fun a _ ⟨hw', hgrows, hR⟩ =>
    ⟨hw', hgrows, h _ a (hn.trans hgrows.draft.size) hR⟩

lemma more (h : n ≤ n') : Generates settled c q V W s n' x W1 R :=
  fun _ hs hw hq hV hn => hx hs hw hq hV (h.trans hn)

lemma later
    (h : s.Extends s') : Generates settled c q V W s' n x W1 R := fun _ hs => hx (h.trans hs)
end

lemma perm (hW : W.Perm W') (hx : Generates settled c q V W' s n x W1 R) :
    Generates settled c q V W s n x W1 R :=
  fun _ hs hw => hx hs ⟨hw.spec, hw.draft.perm hW⟩

lemma ofDrafting {x : Drafting α}
    (hx : ∀ s', s.Extends s' → Draft.Tidies (s'.Permits settled c) V W n x W1 R) :
    Generates settled c q V W s n (liftM x) W1 R := by
  intro w hs hw _ hV hn
  obtain ⟨htidy, hgrows, hR⟩ := hx w.spec hs hw.draft hV hn
  refine Ensures.runs (fun a w' h => ?_) fun _ _ h => by cases h
  cases h
  exact ⟨⟨hw.spec, htidy⟩, ⟨.refl _, hgrows, fun _ => .refl _⟩, hR⟩

lemma draft_bind {x : Drafting α}
    (hx : ∀ s', s.Extends s' → Draft.Tidies (s'.Permits settled c) V W n x W1 R)
    (hk : ∀ a n', n ≤ n' → R n' a → Generates settled c q V (W1 a) s n' (k a) W2 S) :
    Generates settled c q V W s n (liftM x >>= k) W2 S := (ofDrafting hx).bind hk

lemma place_bind (hx : Generates settled c q (l :: V) W s n x W1 R) :
    Generates settled c q V (l :: W) s n (liftM (Draft.place l) >>= fun _ => x) W1 R := by
  intro w hs hw hq hV hn
  have hplace : ∀ k ∈ l :: V, .label k ∈ (Draft.place l w.draft).2.actions := by
    intro k hk
    rw [Draft.place, emit_actions]
    rcases mem_cons.1 hk with rfl | hk
    · exact mem_append_right _ (mem_singleton_self _)
    · exact mem_append_left _ (hV k hk)
  obtain ⟨htidy, hgrows, -⟩ := place_tidy hw.draft hV hn
  have hgrows : w.Grows q.isSome ⟨w.spec, (Draft.place l w.draft).2⟩ :=
    ⟨.refl _, hgrows, fun _ => .refl _⟩
  refine (hx (w := ⟨w.spec, (Draft.place l w.draft).2⟩) hs ⟨hw.spec, htidy⟩ (hgrows.enters hq)
    hplace (hn.trans hgrows.draft.size)).mono ?_
  rintro a w' ⟨hw', hgrows', hR⟩
  exact ⟨hw', hgrows.trans hgrows', hR⟩

lemma spec_bind {k : Specialization → Generation β}
    (hk : ∀ s', s.Extends s' → s'.Fit settled → Generates settled c q V W s n (k s') W2 S) :
    Generates settled c q V W s n (Generation.spec >>= k) W2 S :=
  fun w hs hw hq hV hn => hk w.spec hs hw.spec hs hw hq hV hn

lemma get_bind {k : Workbench → Generation β}
    (hk : ∀ w, s.Extends w.spec → w.Fit settled c W → (∀ k ∈ q, w.Enters k) → n ≤ w.draft.size →
      Generates settled c q V W s w.draft.size (k w) W2 S) :
    Generates settled c q V W s n (get >>= k) W2 S :=
  fun w hs hw hq hV hn => hk w hs hw hq hn hs hw hq hV .refl
end Generates

lemma Generation.lift_runs {α : Type} {strict : Bool} {x : Specialize α} {w : Workbench}
    {Q : α → Specialization → Prop} (hx : Runs strict x w.spec Q) :
    Runs strict (liftM x : Generation α) w fun a w' => w'.draft = w.draft ∧ Q a w'.spec := by
  refine ⟨fun a w' h => ?_, fun hstrict f w' h => ?_⟩
  all_goals
    change ofSpecialize x w = _ at h
    unfold ofSpecialize at h
    split at h
  · rename_i hxs
    cases h
    exact ⟨rfl, hx.1 _ _ hxs⟩
  · cases h
  · cases h
  · rename_i hxs
    cases h
    exact hx.2 hstrict _ _ hxs

lemma path_eq_ok {m : Model} (hm : m.Shape)
    (hsource : source < m.objects.size) (htarget : target < m.objects.size) :
    ∃ r, Specialization.path m source target = .ok r := by
  unfold Specialization.path
  dsimp only
  split
  · rename_i hnone
    refine absurd ?_ (find?_eq_none.1 hnone Model.top (top_mem_ancestors hm hsource))
    rw [Bool.or_eq_true, decide_eq_true_eq, isAncestor, contains_iff_mem, ← mem_cons]
    exact top_mem_ancestors hm htarget
  · exact ⟨_, rfl⟩

section Frame
variable {settled : Bool} {c : ClassId} {q : Option Nat} {V W : List Label} {s : Specialization}
  {n l : Nat} {place code : String}

lemma Generation.receiver_generates :
    Generates settled c q V W s n (receiver place code) (fun _ => W)
      fun n (l : Nat) => l < n := by
  refine .get_bind fun w _ hw hq _ => ?_
  split
  · exact .pure fun _ hn => (hw.draft.receiver_lt ‹_›).trans_le hn
  · rename_i hnone
    refine .throw fun hstrict => ?_
    obtain ⟨k, hk⟩ := isSome_iff_exists.1 hstrict
    have hreceiver := (hq k hk).receiver
    rw [hnone] at hreceiver
    cases hreceiver

lemma Generation.param_generates (hi : ∀ k ∈ q, i < k) :
    Generates settled c q V W s n (Generation.param place code i) (fun _ => W)
      fun n (l : Nat) => l < n := by
  refine .get_bind fun w _ hw hq _ => ?_
  split
  · rename_i l hl
    exact .pure fun _ hn => (hw.draft.param_lt (mem_of_getElem? hl)).trans_le hn
  · rename_i hnone
    refine .throw fun hstrict => ?_
    obtain ⟨k, hk⟩ := isSome_iff_exists.1 hstrict
    have hlt := hi k hk
    rw [← (hq k hk).params] at hlt
    exact absurd hlt (List.getElem?_eq_none_iff.1 hnone).not_gt

def Model.Joins (m : Model) (source target : ObjectId) : Prop :=
  m.Shape ∧ source < m.objects.size ∧ target < m.objects.size

lemma Generation.reference_generates (hl : l < n)
    (hjoins : q.isSome → s.model.Joins source target) :
    Generates settled c q V W s n (reference l source target) (fun _ => W)
      fun n (l : Nat) => l < n := by
  refine .spec_bind fun s' hs' _ => ?_
  rw [hs'.model]
  split
  · rename_i f hf
    refine .throw fun hstrict => ?_
    obtain ⟨hm, hsource, htarget⟩ := hjoins hstrict
    obtain ⟨r, hr⟩ := path_eq_ok hm hsource htarget
    rw [hr] at hf
    cases hf
  · exact .draft_bind (fun _ _ => climb_tidy hl) fun turn _ _ hturn =>
      .ofDrafting fun _ _ => descend_tidy hturn
end Frame

def arityIf (strict : Bool) (k : Nat) : Option Nat := if strict then some k else none

@[simp] lemma isSome_arityIf (strict : Bool) (k : Nat) : (arityIf strict k).isSome = strict := by
  cases strict <;> rfl

lemma mem_arityIf (h : i ∈ arityIf strict k) : strict ∧ i = k := by
  cases strict with
  | false => cases h
  | true => exact ⟨rfl, (some.inj h).symm⟩

namespace Specialize
variable {settled strict : Bool} {q : Option Nat} {s : Specialization} {m : MethodId} {b : Body}

lemma draft_runs {α : Type} {x : Generation α} {Q : α → Draft → Specialization → Prop}
    (hx : Runs strict x ⟨s, .ofBody b⟩ fun a w => Q a w.draft w.spec) :
    Ensures (draft b x) s fun r s' => (∀ a, r.1 = .ok a → Q a r.2 s') ∧
      (strict → ∀ f, r.1 = .error f → f.isContradiction = false) := by
  intro r s' h
  unfold draft at h
  split at h
  · rename_i hw
    cases h
    refine ⟨fun a ha => ?_, fun _ f hf => by cases hf⟩
    cases ha
    exact hx.1 _ _ hw
  · rename_i hw
    cases h
    refine ⟨fun a ha => (by cases ha), fun hstrict f hf => ?_⟩
    cases hf
    exact hx.2 hstrict _ _ hw

lemma draft_fits {α : Type} {c : ClassId} {x : Generation α} {R : Nat → α → Prop}
    {N : α → Draft → Prop} (hs : s.Fit settled) (hb : b.Fits (s.Permits settled c))
    (hq : ∀ k ∈ q, s.Typed ∧ b.receiver.isSome ∧ b.params.length = k)
    (hx : Generates settled c q [] [] s b.locals.size x (fun _ => []) R)
    (hN : Ensures x ⟨s, .ofBody b⟩ fun a w => N a w.draft) :
    Ensures (draft b x) s fun r s' => (∀ a, r.1 = .ok a →
      Writes settled q.isSome s s' ∧ r.2.Tidy (s'.Permits settled c) [] ∧
        (ofBody b).Grows r.2 ∧ R r.2.size a ∧ N a r.2) ∧
      (q.isSome → ∀ f, r.1 = .error f → f.isContradiction = false) := by
  refine draft_runs (Q := fun a d s' => Writes settled q.isSome s s' ∧
    d.Tidy (s'.Permits settled c) [] ∧ (ofBody b).Grows d ∧ R d.size a ∧ N a d) ?_
  refine ((hx (.refl s) ⟨hs, tidy_ofBody hb⟩ (fun k hk => ?_) (fun _ h => by cases h)
    .refl).and_ensures hN).mono ?_
  · obtain ⟨htyped, hreceiver, hparams⟩ := hq k hk
    exact ⟨htyped, hreceiver, hparams⟩
  · intro a w ⟨⟨hw, hgrows, hR⟩, hN⟩
    exact ⟨⟨hgrows.spec, hw.spec, hgrows.keeps⟩, hw.draft, hgrows.draft, hR, hN⟩

lemma keeps_of_written {d : Body} (hm : m < s.program.methods.size)
    (hextends : s.Extends s2) (hkeeps : Keeps { s with program := s.program.setBody m .empty } s2)
    (hreceiver : d.receiver.isSome)
    (hparams : d.params.length = (s.program.methodDecl m).params.length) :
    s.Keeps { s2 with program := s2.program.setBody m d } := by
  refine ⟨hkeeps.ledger, hkeeps.typed, fun k hk hold => ?_⟩
  have hk : k < s2.program.methods.size := s2.program.setBody_methods_size m d ▸ hk
  show ((s2.program.setBody m d).methodDecl k).Enterable
  by_cases hmk : m = k
  · subst hmk
    have hheading := hextends.program.oldMethod m hm
    rw [setBody_methodDecl, if_pos ⟨rfl, hk⟩]
    exact ⟨hreceiver, hparams.trans (congrArg List.length (congrArg (·.2.2.1) hheading).symm)⟩
  · have hother {p : Program} {b : Body} : (p.setBody m b).methodDecl k = p.methodDecl k := by
      rw [setBody_methodDecl, if_neg fun h => hmk h.1]
    rw [hother]
    refine hkeeps.entries k hk fun hlt => ?_
    show ((s.program.setBody m .empty).methodDecl k).Enterable
    rw [hother]
    exact hold (s.program.setBody_methods_size m .empty ▸ hlt)

def Entered (s : Specialization) (m : MethodId) : Prop :=
  s.Typed ∧ (s.program.methodDecl m).Enterable

variable (hs : s.Fit settled)

include hs

lemma writeBody_runs {α β : Type} {x : Generation α} {finish : α → Draft → β × Body}
    {R : Nat → α → Prop} {N : α → Draft → Prop}
    (hm : m < s.program.methods.size)
    (hb : b.Fits (s.Permits settled (s.program.methodDecl m).owner))
    (hentry : strict → Entered s m ∧ b.receiver = (s.program.body m).receiver ∧
      b.params = (s.program.body m).params) (hx : Generates settled (s.program.methodDecl m).owner
      (arityIf strict (s.program.methodDecl m).params.length) [] [] s b.locals.size x
      (fun _ => []) R) (hN : ∀ s', Ensures x ⟨s', .ofBody b⟩ fun a w => N a w.draft)
    (hnext : b.nextStmt = (s.program.body m).nextStmt)
    (hfinish : ∀ {P : Demand → Prop} a {d : Draft}, d.Tidy P [] → (finish a d).2.Fits P ∧
      d.body.nextStmt ≤ (finish a d).2.nextStmt ∧ (strict → (finish a d).2 = d.finish)) :
    Runs strict (writeBody m b x finish) s fun r s' => Writes settled strict s s' ∧
      ∃ a d, R d.size a ∧ N a d ∧ r = (finish a d).1 ∧ s'.program.body m = (finish a d).2 := by
  obtain ⟨hs1, h1⟩ := hs.setBody (m := m) (b := .empty) fun _ _ => Body.fits_empty
  refine .bind (.modify (Q := fun _ s' => s' = _) rfl) ?_
  rintro _ _ rfl
  refine .bind ((draft_fits hs1 (hb.mono fun _ => h1.permits hs.layout) (fun k hk => ?_)
    (hx.later h1) (hN _)).runs fun _ _ h => ?_) fun r s2 h2 => ?_
  · obtain ⟨hstrict, rfl⟩ := mem_arityIf hk
    obtain ⟨⟨htyped, hentry⟩, hreceiver, hparams⟩ := hentry hstrict
    exact ⟨htyped, hreceiver ▸ hentry.receiver, hparams ▸ hentry.params⟩
  · unfold draft at h
    split at h <;> cases h
  obtain ⟨r, d⟩ := r
  simp only [isSome_arityIf] at h2
  cases r with
  | error f =>
    exact .bind (R := fun _ _ => True) (.modify trivial) fun _ _ _ =>
      .throw fun hstrict => h2.2 hstrict f rfl
  | ok a =>
    obtain ⟨h2, hd, hgrows, hR, hN⟩ := h2.1 a rfl
    obtain ⟨hfits, hcount, hbody⟩ := hfinish a hd
    have h := h1.trans h2.toExtends
    have howner : (s2.program.methodDecl m).owner = (s.program.methodDecl m).owner :=
      h.program.methodOwner hm
    have hs3 := (h2.fit.setBody (m := m) (b := (finish a d).2) fun _ _ => howner ▸ hfits).1
    refine .bind (.modify (Q := fun _ s' => s' = _) rfl) ?_
    rintro _ _ rfl
    refine .pure ⟨⟨.written h h2.members h2.values h2.sites (fun k hk hkm => ?_) ?_, hs3,
      fun hstrict => ?_⟩, a, d, hR, hN, rfl, setBody_body _ _ ?_⟩
    · rw [← setBody_body_of_ne s.program .empty hkm]
      exact h2.nextStmt k (by rwa [setBody_methods_size])
    · exact (hnext.symm.trans hgrows.nextStmt.symm).le.trans hcount
    · obtain ⟨⟨-, hentry⟩, hreceiver, hparams⟩ := hentry hstrict
      rw [hbody hstrict]
      exact keeps_of_written hm h (h2.keeps hstrict)
        (hgrows.receiver.trans hreceiver ▸ hentry.receiver)
        (hgrows.params.trans hparams ▸ hentry.params)
    · exact hm.trans_le h.program.methods

variable {x : Generation Unit} (hm : m < s.program.methods.size)
  (hlive : s.program.isLiveMethod m) (hentry : strict → Entered s m)
  (hx : GeneratesCode settled (s.program.methodDecl m).owner
    (arityIf strict (s.program.methodDecl m).params.length) [] [] s 0 x)

include hm hlive hentry hx

lemma extend_runs : Runs strict (extend m x) s fun _ s' => Writes settled strict s s' :=
  .get_bind (.mono (writeBody_runs (N := fun _ _ => True) hs hm (hs.bodies m hm hlive)
    (fun hstrict => ⟨hentry hstrict, rfl, rfl⟩) (hx.more (Nat.zero_le _))
    (fun _ _ _ _ => trivial) rfl
    fun _ _ hd => ⟨hd.finish, Nat.le_add_right _ _, fun _ => rfl⟩) fun _ _ h => h.1)

lemma writeAnew_runs : Runs strict (writeAnew m x) s fun _ s' => Writes settled strict s s' :=
  .get_bind (.mono (writeBody_runs (N := fun _ _ => True) hs hm
    (Body.fits_of_stmts_nil rfl (hs.bodies m hm hlive).entry)
    (fun hstrict => ⟨hentry hstrict, rfl, rfl⟩) (hx.more (Nat.zero_le _))
    (fun _ _ _ _ => trivial) rfl
    fun _ _ hd => ⟨hd.finish, Nat.le_add_right _ _, fun _ => rfl⟩) fun _ _ h => h.1)
end Specialize
end DataflowSpecializer
