import DataflowSpecializer.Proofs.Fitness.Classes
import DataflowSpecializer.Proofs.Fitness.Methods
import DataflowSpecializer.Proofs.Fitness.Parameters
import DataflowSpecializer.Proofs.Fitness.Unused
import DataflowSpecializer.Run

/-! # States that a run passes through

`Specialization.Reached` gives the states that follow from a model by making its classes and then
reducing, in any order. All of them fit (`Reached.fit`), and so the last certificate never fails.
-/
namespace DataflowSpecializer
open List Option Classes Run
namespace Specialization
/-- The states after generating and these stages. -/
inductive Reached (m : Model) (o : Options) : List Stage → Specialization → Prop
  | generated {c : Certificate} {s : Specialization}
      (h : generate (start m o) = .ok c s) : Reached m o [] s
  | reduced {stages : List Stage} {stage : Stage} {x : Specialize Nat} {n : Nat}
      {s s' : Specialization} (hs : Reached m o stages s) (hx : stage.reduction? = some x)
      (h : x s = .ok n s') : Reached m o (stages ++ [stage]) s'

variable {m : Model} {o : Options} {stages : List Stage} {s : Specialization} {settled : Bool}

lemma reduction_ensures (hs : s.Fit settled) {stage : Stage} (hx : stage.reduction? = some x) :
    Ensures x s fun _ s' => s'.Fit settled ∧ (stage ≠ .deadCode → s.Advances s') ∧
      (stage = .deadCode → s.Shrinks s' ∧ ∀ c, ¬ s'.program.HasMethod c "execute") := by
  have spawns {stage : Stage} {x : Specialize Nat} (hstage : stage ≠ .deadCode)
      (hx : Ensures x s fun _ s' => s'.Fit settled ∧ s.Spawns s') :
      Ensures x s fun _ s' => s'.Fit settled ∧ (stage ≠ .deadCode → s.Advances s') ∧
        (stage = .deadCode → s.Shrinks s' ∧ ∀ c, ¬ s'.program.HasMethod c "execute") :=
    hx.mono fun _ _ ⟨hs', h⟩ => ⟨hs', fun _ => h.advances hs.layout, fun h => absurd h hstage⟩
  cases stage with
  | materialize | verify => cases hx
  | fieldsForEntities | fieldsForPorts | fieldsForAttributes =>
    obtain rfl := some.inj hx
    exact spawns nofun (References.reduce_ensures hs _)
  | inlineParameters =>
    obtain rfl := some.inj hx
    exact (Parameters.reduce_ensures hs).mono fun _ _ ⟨hs', h⟩ => ⟨hs', fun _ => h, nofun⟩
  | namedObjEquality =>
    obtain rfl := some.inj hx
    exact spawns nofun (Equality.reduce_ensures hs)
  | inlineTokens =>
    obtain rfl := some.inj hx
    exact spawns nofun (Boxing.reduce_ensures hs)
  | cleanup =>
    obtain rfl := some.inj hx
    exact spawns nofun (Notifications.reduce_ensures hs)
  | deadCode =>
    obtain rfl := some.inj hx
    exact (Unused.reduce_ensures hs).mono fun _ _ ⟨hs', h⟩ =>
      ⟨hs', fun h => absurd rfl h, fun _ => h⟩

def reduced? (s : Specialization) (stage : Stage) : Option Specialization :=
  stage.reduction?.bind fun x =>
    match x s with
    | .ok _ s' => some s'
    | .error _ _ => none

/-- The state after these stages, if none of them fails. -/
def after? (m : Model) (o : Options) (stages : List Stage) : Option Specialization :=
  match generate (start m o) with
  | .ok _ s => stages.foldlM reduced? s
  | .error _ _ => none

lemma Reached.foldlM (hs : Reached m o done s)
    (h : stages.foldlM reduced? s = some s') : Reached m o (done ++ stages) s' := by
  induction stages generalizing s done with
  | nil =>
    cases h
    rwa [append_nil]
  | cons stage stages ih =>
    rw [foldlM_cons] at h
    obtain ⟨s1, hs1, h⟩ := bind_eq_some_iff.1 h
    obtain ⟨x, hx, hs1⟩ := bind_eq_some_iff.1 hs1
    rw [append_cons]
    refine ih ?_ h
    split at hs1
    · cases hs1
      exact .reduced hs hx ‹_›
    · cases hs1

lemma reached_of_after? (h : after? m o stages = some s) : Reached m o stages s := by
  unfold after? at h
  split at h
  · exact (Reached.generated ‹_›).foldlM h
  · cases h

lemma exists_reached {d : Description.Entity} {p : Specialization → Bool}
    (h : (Model.ofDescription d).toOption.any fun m => (after? m o stages).any p) :
    ∃ m s, Model.ofDescription d = .ok m ∧ Reached m o stages s ∧ p s := by
  obtain ⟨m, hm, h⟩ := exists_ok_of_any h
  obtain ⟨s, hs, h⟩ := (Option.any_eq_true _ _).1 h
  exact ⟨m, s, hm, reached_of_after? hs, h⟩

lemma Reached.fit (h : Reached m o stages s) : s.Fit false := by
  induction h with
  | generated h => exact (generated_of_eq_ok h).fit
  | reduced hs hx h ih => exact (reduction_ensures ih hx _ _ h).1

lemma Reached.sited (h : Reached m o stages s) : s.model = m ∧ s.Sited := by
  induction h with
  | generated h =>
    have hs := generated_of_eq_ok h
    exact ⟨hs.model, hs.sited⟩
  | @reduced _ stage _ _ _ _ hs hx h ih =>
    obtain ⟨-, hadvances, hshrinks⟩ := reduction_ensures hs.fit hx _ _ h
    by_cases hstage : stage = .deadCode
    · have hshrinks := (hshrinks hstage).1
      exact ⟨hshrinks.model.trans ih.1, hshrinks.sited ih.2⟩
    · have hadvances := hadvances hstage
      exact ⟨hadvances.model.trans ih.1, hadvances.sited ih.2⟩

/-- What the obligations of the last certificate stand for: no live method stores to a final field,
every object that owns code has a live class, which no other object has, and every jump of a live
method has its label. -/
structure Certified (s : Specialization) : Prop where
  constants : ∀ k ∈ s.program.allLiveMethods, ∀ base f v,
    .assign (.field base f) v ∈ (s.program.body k).code → (s.program.fieldDecl f).isFinal = false
  classes : ∀ o ∈ Classes.owners s.model, ∃ c, s.classOf? o = some c ∧ s.objectOf? c = some o ∧
    s.program.isLiveClass c
  labels : ∀ k ∈ s.program.allLiveMethods, ∀ a ∈ (s.program.body k).code, ∀ l, a.jump? = some l →
    .label l ∈ (s.program.body k).code

section
variable (hs : s.Fit settled)

include hs

lemma Fit.certified : s.Certified where
  constants k hk base f v hstore := by
    obtain ⟨hlt, hlive⟩ := hs.mem_allLiveMethods_iff.1 hk
    exact ((hs.bodies k hlt hlive).demands _ hstore (.store f) (.head _)).2.1
  classes o ho := by
    have hall := (Bool.and_eq_true_iff.1 hs.bijection).1
    obtain ⟨c, hc, hback⟩ := (Option.any_eq_true _ _).1 (List.all_eq_true.1 hall o ho)
    exact ⟨c, hc, of_decide_eq_true hback, by simp [Program.isLiveClass, (hs.objectClass hc).live]⟩
  labels k hk := by
    obtain ⟨hlt, hlive⟩ := hs.mem_allLiveMethods_iff.1 hk
    exact (hs.bodies k hlt hlive).targets

lemma Fit.keepsConstants : s.keepsConstants := by
  refine List.all_eq_true.2 fun k hk => List.all_eq_true.2 fun stmt hstmt => ?_
  split
  · rename_i hstore
    have hin : stmt.action ∈ (s.program.body k).code := List.mem_map_of_mem hstmt
    rw [hstore] at hin
    rw [hs.certified.constants k hk _ _ _ hin]
    rfl
  · rfl

lemma Fit.keepsClasses : s.keepsClasses := by
  refine List.all_eq_true.2 fun c hc => ?_
  obtain ⟨⟨o, c⟩, hentry, rfl⟩ := List.mem_map.1 hc
  have hclass := hs.objectClass ((s.classOf.mem_entries_iff o c).1 hentry)
  simp [Program.isLiveClass, hclass.live]

lemma Fit.keepsLabels : s.keepsLabels := by
  refine List.all_eq_true.2 fun k hk => List.all_eq_true.2 fun l hl => ?_
  obtain ⟨stmt, hstmt, hjump⟩ := mem_filterMap.1 hl
  have hplaced := hs.certified.labels k hk _ (List.mem_map_of_mem hstmt) l hjump
  obtain ⟨label, hlabel, haction⟩ := List.mem_map.1 hplaced
  rw [Body.labelPosition?, findIdx?_isSome, List.any_eq_true]
  exact ⟨label, hlabel, beq_iff_eq.2 haction⟩

lemma Fit.verify_holds : s.verify.holds := by
  simp [verify, Certificate.holds, hs.keepsConstants, hs.bijection, hs.keepsClasses, hs.keepsLabels]
end

lemma warnLeftovers_eq (s : Specialization) :
    ∃ all, s.warnLeftovers = { s with diagnostics := all } :=
  foldl_diagnostics (fun _ _ => ⟨_, rfl⟩) _ s
end Specialization

namespace Stage
def round (terminal : Stage) : List Stage :=
  (all.filter terminal.required.contains).filter isReducing

lemma materialize_mem_required (s : Stage) : s.required.contains .materialize := by
  cases s <;> decide

lemma round_verify : round .verify = [.fieldsForEntities, .fieldsForPorts, .fieldsForAttributes,
    .inlineParameters, .namedObjEquality, .inlineTokens, .cleanup, .deadCode] := by decide

lemma map_reductions (stages : List Stage) :
    (stages.filterMap fun s => s.reduction?.map fun x => (s, x)).map Prod.fst =
      stages.filter isReducing := by
  induction stages with
  | nil => rfl
  | cons s rest ih =>
    cases hs : s.reduction? with
    | none | some x => simp [isReducing, hs, ← ih]
end Stage

/-! ## Runs -/

@[simp]
lemma Run.keepSnapshot_spec (r : Run) (stage : String) : (r.keepSnapshot stage).spec = r.spec := by
  unfold keepSnapshot
  split <;> rfl

namespace Running
open DataflowSpecializer.Specialization (Reached)

variable {σ α β : Type}

/-- Whatever the clock says: if the steps come to an end, `Q` holds of the answer and of the run
after them, and if they stop, it is not for want of the last certificate. -/
structure Ensures (x : Running (StateM σ) α) (r : Run) (Q : α → Run → Prop) : Prop where
  out : ∀ w, match (x.run.run r w).1 with
    | (.ok a, r') => Q a r'
    | (.error f, _) => f ≠ ⟨.verify, none⟩

lemma clock_bind_apply (x : StateM σ α) (f : α → StateM σ β) (w : σ) :
    (x >>= f) w = f (x w).1 (x w).2 := rfl

namespace Ensures
variable {x : Running (StateM σ) α} {k : α → Running (StateM σ) β} {r : Run} {Q R : α → Run → Prop}
  {S : β → Run → Prop} {f : Run → Run}

lemma bind (hx : Ensures x r R) (hk : ∀ a r', R a r' → Ensures (k a) r' S) :
    Ensures (x >>= k) r S := by
  refine ⟨fun w => ?_⟩
  have h := hx.out w
  rw [ExceptT.run_bind, StateT.run_bind, clock_bind_apply]
  rcases hxr : x.run.run r w with ⟨⟨_ | a, r'⟩, w'⟩
  · rw [hxr] at h
    exact h
  · rw [hxr] at h
    exact (hk a r' h).out w'

lemma pure (h : Q a r) : Ensures (pure a : Running (StateM σ) α) r Q := ⟨fun _ => h⟩

lemma mono (hx : Ensures x r R) (h : ∀ a r', R a r' → Q a r') : Ensures x r Q := by
  refine ⟨fun w => ?_⟩
  have hx := hx.out w
  rcases hxr : x.run.run r w with ⟨⟨_ | a, r'⟩, w'⟩
  · rwa [hxr] at hx
  · rw [hxr] at hx
    exact h a r' hx

lemma throw {f : Failure} (h : f ≠ ⟨.verify, none⟩) :
    Ensures (throw f : Running (StateM σ) α) r Q := ⟨fun _ => h⟩

lemma get_bind {k : Run → Running (StateM σ) β} (h : Ensures (k r) r S) :
    Ensures ((get : Running (StateM σ) Run) >>= k) r S := ⟨h.out⟩

lemma set_bind {r' : Run} {k : PUnit → Running (StateM σ) β} (h : Ensures (k ⟨⟩) r' S) :
    Ensures ((set r' : Running (StateM σ) PUnit) >>= k) r S := ⟨h.out⟩

lemma modify_bind {k : PUnit → Running (StateM σ) β} (h : Ensures (k ⟨⟩) (f r) S) :
    Ensures ((modify f : Running (StateM σ) PUnit) >>= k) r S := ⟨h.out⟩

lemma modify {Q : PUnit → Run → Prop} (h : Q ⟨⟩ (f r)) :
    Ensures (modify f : Running (StateM σ) PUnit) r Q := ⟨fun _ => h⟩

lemma clock_bind {clock : StateM σ Nat} {k : Nat → Running (StateM σ) β}
    (h : ∀ ms, Ensures (k ms) r S) : Ensures ((liftM clock : Running (StateM σ) Nat) >>= k) r S :=
  ⟨fun w => (h (clock w).1).out (clock w).2⟩
end Ensures

variable {clock : StateM σ Nat} {r : Run} {m : Model} {o : Options} {stage : Stage}
  {Q : Unit → Run → Prop}

lemma step_ensures {x : Specialize α} {Q : α → Run → Prop}
    (h : DataflowSpecializer.Ensures x r.spec fun a s => Q a { r with spec := s }) :
    Ensures (step stage x : Running (StateM σ) α) r Q := by
  refine .get_bind ?_
  split
  · rename_i a s hx
    exact .set_bind (.pure (h a s hx))
  · exact .set_bind (.throw (by simp))

lemma finish_ensures (h : Q () (r.complete stage)) : Ensures (finish clock stage) r Q := by
  refine .modify_bind (.get_bind ?_)
  split
  · exact .pure h
  · refine .clock_bind fun ms => ?_
    split
    · exact .set_bind (.throw (by simp))
    · exact .pure h

lemma demand_ensures {c : Certificate} (h : Q () r) (hc : stage = .verify → c.holds) :
    Ensures (demand stage what c : Running (StateM σ) Unit) r Q := by
  unfold demand
  split
  · rename_i hfails
    refine .get_bind (.set_bind (.throw ?_))
    rintro ⟨⟩
    rw [hc rfl] at hfails
    cases hfails
  · exact .pure h

variable {stages : List Stage}

lemma materialize_ensures (hr : r.spec = .start m o) :
    Ensures (materialize clock) r fun _ r' => Reached m o [] r'.spec := by
  refine .bind (R := fun _ r' => Reached m o [] r'.spec) (step_ensures fun c s hs => ?_) ?_
  · exact .generated (hr ▸ hs)
  · intro c r1 h1
    have hstage : Stage.materialize = .verify → c.holds := nofun
    refine .bind (R := fun _ r' => Reached m o [] r'.spec) (demand_ensures h1 hstage) ?_
    intro _ r2 h2
    refine .bind (R := fun _ r' => Reached m o [] r'.spec) (finish_ensures h2) fun _ r3 h3 => ?_
    exact .modify (by rwa [keepSnapshot_spec])

lemma reduceOnce_ensures (reductions : List (Stage × Specialize Nat))
    (hreductions : ∀ x ∈ reductions, x.1.reduction? = some x.2) (hr : Reached m o stages r.spec) :
    Ensures (reduceOnce clock reductions) r
      fun _ r' => Reached m o (stages ++ reductions.map Prod.fst) r'.spec := by
  induction reductions generalizing r stages with
  | nil => exact .pure (by rwa [map_nil, append_nil])
  | cons x rest ih =>
    obtain ⟨stage, x⟩ := x
    have hx := hreductions _ (.head _)
    refine .bind (R := fun _ r' => Reached m o (stages ++ [stage]) r'.spec)
      (step_ensures fun n s hs => .reduced hr hx hs) fun n r1 h1 => ?_
    refine .bind (R := fun _ r' => Reached m o (stages ++ [stage]) r'.spec) (finish_ensures h1)
      fun _ r2 h2 => ?_
    refine .bind (ih (fun y hy => hreductions y (.tail _ hy)) h2)
      fun _ r3 h3 => .pure ?_
    rwa [map_cons, append_cons]

lemma reduceRounds_ensures (reductions : List (Stage × Specialize Nat)) (rounds done : Nat)
    (hreductions : ∀ x ∈ reductions, x.1.reduction? = some x.2) (hr : Reached m o stages r.spec) :
    Ensures (reduceRounds clock reductions done (rounds + 1)) r fun _ r' => ∃ k,
      Reached m o (stages ++ (replicate (k + 1) (reductions.map Prod.fst)).flatten) r'.spec := by
  induction rounds generalizing r stages done with
  | zero =>
    refine (reduceOnce_ensures reductions hreductions hr).bind fun n r1 h1 => .modify_bind ?_
    have h : Reached m o (stages ++ (replicate (0 + 1) (reductions.map Prod.fst)).flatten)
        r1.spec := by
      simpa using h1
    split <;> exact .pure ⟨0, by rwa [keepSnapshot_spec]⟩
  | succ rounds ih =>
    refine (reduceOnce_ensures reductions hreductions hr).bind fun n r1 h1 => .modify_bind ?_
    split
    · have h : Reached m o (stages ++ reductions.map Prod.fst)
          ({ r1 with rounds := done + 1 }.keepSnapshot ("round " ++ toString (done + 1))).spec := by
        rwa [keepSnapshot_spec]
      refine (ih (done + 1) h).mono ?_
      rintro _ r2 ⟨k, h2⟩
      exact ⟨k + 1, by rwa [replicate_succ, flatten_cons, ← append_assoc]⟩
    · exact .pure ⟨0, by simpa using h1⟩

lemma verify_ensures (hverify : r.spec.verify.holds) :
    Ensures (verify clock) r fun _ r' => r'.spec = r.spec.warnLeftovers := by
  have hholds : r.spec.warnLeftovers.verify.holds := by
    obtain ⟨all, hall⟩ := r.spec.warnLeftovers_eq
    rw [hall]
    exact hverify
  refine .bind (R := fun _ r' => r'.spec = r.spec.warnLeftovers) (.modify rfl) fun _ r1 h1 => ?_
  have hholds1 : Stage.verify = .verify → r1.spec.verify.holds := fun _ => by rw [h1, hholds]
  refine .get_bind ?_
  refine .bind (R := fun _ r' => r'.spec = r.spec.warnLeftovers) (demand_ensures h1 hholds1)
    fun _ r2 h2 => ?_
  refine .bind (R := fun _ r' => r'.spec = r.spec.warnLeftovers) (finish_ensures h2)
    fun _ r3 h3 => .modify ?_
  rwa [keepSnapshot_spec]

variable (clock) in

lemma upTo_ensures (terminal : Stage) (hr : r.spec = .start m o) :
    Ensures (upTo clock terminal) r fun _ r' => ∃ k s,
      Reached m o (replicate (k + 1) terminal.round).flatten s ∧
        (r'.spec = s ∨ r'.spec = s.warnLeftovers) := by
  unfold upTo
  simp only [Stage.materialize_mem_required, if_true]
  refine (materialize_ensures hr).bind fun _ r1 h1 => ?_
  -- the end of the run is the same whether there were rounds or not
  have ending {r : Run} (h : ∃ k, Reached m o (replicate (k + 1) terminal.round).flatten r.spec) :
      Ensures (if terminal.required.contains .verify then verify clock else Pure.pure ()) r
        fun _ r' => ∃ k s, Reached m o (replicate (k + 1) terminal.round).flatten s ∧
          (r'.spec = s ∨ r'.spec = s.warnLeftovers) := by
    obtain ⟨k, hk⟩ := h
    split
    · exact (verify_ensures hk.fit.verify_holds).mono fun _ _ h => ⟨k, r.spec, hk, .inr h⟩
    · exact .pure ⟨k, r.spec, hk, .inl rfl⟩
  generalize hreductions : filterMap (fun s => Option.map (fun x => (s, x)) s.reduction?)
    (List.filter terminal.required.contains Stage.all) = reductions
  have hround : reductions.map Prod.fst = terminal.round := by
    rw [← hreductions, Stage.map_reductions, Stage.round]
  split
  · refine .get_bind ?_
    obtain ⟨rounds, hrounds⟩ : ∃ rounds, max r1.spec.options.maxRounds 1 = rounds + 1 :=
      ⟨max r1.spec.options.maxRounds 1 - 1, by omega⟩
    rw [hrounds]
    refine (reduceRounds_ensures reductions rounds 0 ?_ h1).bind fun _ r2 ⟨k, h2⟩ =>
      ending ⟨k, by rwa [nil_append, hround] at h2⟩
    intro x hx
    rw [← hreductions] at hx
    obtain ⟨stage, -, hstage⟩ := mem_filterMap.1 hx
    obtain ⟨y, hy, rfl⟩ := map_eq_some_iff.1 hstage
    exact hy
  · rename_i hnone
    have hnil : terminal.round = [] := by
      rw [← hround]
      simpa using hnone
    exact ending ⟨0, by simpa [hnil] using h1⟩
end Running

lemma Run.upTo_reaches {σ : Type} (clock : StateM σ Nat) (w : σ) (terminal : Stage) {r : Run}
    (hr : r.spec = .start m o) :
    match (Run.upTo clock terminal r w).1 with
    | (none, r') => ∃ k s,
      Specialization.Reached m o (replicate (k + 1) terminal.round).flatten s ∧
        ∃ all, r'.spec = { s with diagnostics := all }
    | (some f, _) => f ≠ ⟨.verify, none⟩ := by
  have h := (Running.upTo_ensures clock terminal hr).out w
  have heq : (Run.upTo clock terminal r w).1 =
      match ((Running.upTo clock terminal).run.run r w).1 with
      | (.ok _, r') => (none, r')
      | (.error f, r') => (some f, r') := by
    rw [Run.upTo, Running.clock_bind_apply]
    rcases (Running.upTo clock terminal).run.run r w with ⟨⟨_ | _, _⟩, _⟩ <;> rfl
  rw [heq]
  rcases hrun : (Running.upTo clock terminal).run.run r w with ⟨⟨f | a, r'⟩, w'⟩
  · rw [hrun] at h
    exact h
  · rw [hrun] at h
    obtain ⟨k, s, hs, hspec | hspec⟩ := h
    · exact ⟨k, s, hs, s.diagnostics, hspec⟩
    · obtain ⟨all, hall⟩ := s.warnLeftovers_eq
      exact ⟨k, s, hs, all, hspec.trans hall⟩

def Run.verified? (d : Description.Entity) (o : Options) : Option Run :=
  match Model.ofDescription d with
  | .ok m =>
    match (Run.upTo (pure 0 : StateM Unit Nat) .verify (.start m o) ()).1 with
    | (none, r) => some r
    | (some _, _) => none
  | .error _ => none

lemma Run.verified?_eq_some (h : verified? d o = some r) : ∃ m, Model.ofDescription d = .ok m ∧
      (Run.upTo (pure 0 : StateM Unit Nat) .verify (.start m o) ()).1 = (none, r) := by
  unfold verified? at h
  split at h
  · split at h
    · cases h
      exact ⟨_, ‹_›, ‹_›⟩
    · cases h
  · cases h

/-! ## The last certificate -/
namespace Specialization
lemma Reached.obligations {s : Specialization} (h : Reached m o stages s) : s.verify.obligations =
      [("P1_constant_write_freedom", true), ("P2_bijection", true), ("P3_labels_resolve", true)] := by
  have hs := h.fit
  rw [verify, hs.keepsConstants, hs.bijection, hs.keepsClasses, hs.keepsLabels]
  rfl
end Specialization

namespace Run
open DataflowSpecializer.Specialization (Reached after? exists_reached)

/-- Every obligation of the last certificate holds in every state that reductions lead to, and so
does what it stands for; and no run to any stage ends because one does not. -/
theorem certificate_never_fails (m : Model) (o : Options) :
    (∀ stages s, Reached m o stages s → s.verify.obligations =
      [("P1_constant_write_freedom", true), ("P2_bijection", true), ("P3_labels_resolve", true)] ∧
      s.Certified) ∧
    ∀ {σ : Type} (clock : StateM σ Nat) (w : σ) (terminal : Stage) (p : Option Provenance),
      (upTo clock terminal { start m o with provenance := p } w).1.1 ≠ some ⟨.verify, none⟩ := by
  refine ⟨fun stages s h => ⟨h.obligations, h.fit.certified⟩, fun clock w terminal p hstops => ?_⟩
  have h := upTo_reaches clock w terminal (r := { start m o with provenance := p }) rfl
  split at h
  · rename_i hrun
    rw [hrun] at hstops
    cases hstops
  · rename_i hrun
    rw [hrun] at hstops
    exact h (some.inj hstops)

def writtenParameter : Description.Entity where
  name := "M"
  parameters := [{ name := "p", expression := "1" }]
  entities := [{ name := "s", kind := "SetVariable"
                 parameters := [{ name := "variableName", expression := "p" }] }]

/-- The field of a written parameter is not final, and that of the number of iterations is. -/
theorem certificate_of_writtenParameter : ∃ m s, Model.ofDescription writtenParameter = .ok m ∧
      Reached m {} [.inlineParameters, .deadCode] s ∧ s.verify.obligations =
        [("P1_constant_write_freedom", true), ("P2_bijection", true),
          ("P3_labels_resolve", true)] ∧ s.Certified := by
  have h : ((Model.ofDescription writtenParameter).toOption.any fun m =>
      (after? m {} [.inlineParameters, .deadCode]).any fun _ => true) := by
    decide +kernel
  obtain ⟨m, s, hm, hs, -⟩ := exists_reached h
  exact ⟨m, s, hm, hs, (certificate_never_fails m {}).1 _ s hs⟩
end Run
end DataflowSpecializer
