import DataflowSpecializer.Proofs.Run.Reached
import DataflowSpecializer.Proofs.Simplify.Checked

/-! # The programs of a run are well formed -/
namespace DataflowSpecializer
open List Option Notifications Unused
namespace Checked
variable {s : Specialization} {settled : Bool}

def copyAction (locals : Array LocalId) (labels : SortedMap Label Label) (done : Label)
    (a : Action) : Option Action :=
  let a : Action := match a with
    | .ret _ => .goto done
    | a => a
  (action (locals[·]?) a).map fun a => a.renameLabels fun l => (labels.get? l).getD l

lemma copyAction_eq {locals : Array LocalId} (labels : SortedMap Label Label) (done : Label)
    {a : Action} (h : ∀ l ∈ a.mentions, l < locals.size) :
    copyAction locals labels done a = some (Notifications.copyAction locals labels done a) := by
  have hrename {a : Action} (h : ∀ l ∈ a.mentions, l < locals.size) :
      action (locals[·]?) a = some (a.renameLocals fun l => locals.getD l l) :=
    action_eq fun l hl => getElem?_eq_getD (h l hl) l
  cases a with
  | ret v => exact congrArg (Option.map _) (hrename (a := .goto done) nofun)
  | _ => exact congrArg (Option.map _) (hrename h)

def splice (callee caller : Body) (site : Notifications.Site) : Option Body := do
  let (locals, caller) := takeLocals callee site.receiver caller
  let (labels, caller) := takeLabels callee caller
  let (done, caller) := caller.newLabel
  let argument ← callee.params.head?.toList.mapM fun l =>
    (locals[l]?).map fun l => Action.set l (.use site.argument)
  let copy ← callee.stmts.mapM fun s => copyAction locals labels done s.action
  return match caller.insertBefore? site.stmt (argument ++ copy ++ [.label done]) with
    | some (_, caller) => (caller.remove site.stmt).2
    | none => caller

lemma splice_eq {callee caller : Body} {site : Notifications.Site} (hcallee : callee.WellFormed)
    (hreceiver : site.receiver < caller.locals.size) :
    splice callee caller site = some (Notifications.splice callee caller site) := by
  have hsize := (takeLocals_spec callee hreceiver).1
  rw [splice, Notifications.splice]
  generalize takeLocals callee site.receiver caller = r at hsize ⊢
  obtain ⟨locals, caller⟩ := r
  dsimp only at hsize ⊢
  generalize takeLabels callee caller = r
  obtain ⟨labels, caller⟩ := r
  dsimp only
  have hargument : callee.params.head?.toList.mapM (fun l =>
      (locals[l]?).map fun l => Action.set l (.use site.argument)) =
      some (callee.params.head?.toList.map fun l =>
        Action.set (locals.getD l l) (.use site.argument)) := by
    refine mapM_eq_pure fun l hl => ?_
    have hl : l ∈ callee.params := mem_of_mem_head? (mem_toList.1 hl)
    rw [getElem?_eq_getD (hsize ▸ hcallee.entry l (mem_append_right _ hl)) l]
    rfl
  have hcopy : callee.stmts.mapM (fun s => copyAction locals labels caller.newLabel.1 s.action) =
      some (callee.stmts.map fun s =>
        Notifications.copyAction locals labels caller.newLabel.1 s.action) :=
    mapM_eq_pure fun s hs => copyAction_eq labels _ fun l hl =>
      hsize ▸ hcallee.locals s.action (List.mem_map_of_mem hs) l hl
  rw [hargument, bind_eq_bind, bind_some, hcopy, bind_some]
  rfl

lemma foldlM_splice_eq (hs : s.Fit settled) {sites : List Notifications.Site}
    {b : Body} (hb : b.Fits (s.Permits settled c))
    (hsites : ∀ x ∈ sites, x.Valid b ∧ x.callee < s.program.methods.size ∧
      s.program.isLiveMethod x.callee ∧
        (s.program.classDecl (s.program.methodDecl x.callee).owner).kind ≠ .closure) :
    sites.foldlM (fun b x => splice (s.program.body x.callee) b x) b =
      some (sites.foldl (fun b x => Notifications.splice (s.program.body x.callee) b x) b) := by
  -- The invariant keeps all sites valid, also those that are done: a loop has no list of the rest.
  refine (foldlM_eq_some (I := fun b => b.Fits (s.Permits settled c) ∧ ∀ x ∈ sites, x.Valid b)
    (fun b hI x hx => ?_) ⟨hb, fun x hx => (hsites x hx).1⟩).1
  obtain ⟨hb, hvalid⟩ := hI
  obtain ⟨-, hlt, hlive, hkind⟩ := hsites x hx
  have hcallee := hs.bodies x.callee hlt hlive
  obtain ⟨hfits, hretains⟩ := splice_fits hcallee.toWellFormed
    (fun a ha x hx => (hcallee.demands a ha x hx).everywhere hkind _) hb (hvalid x hx)
  exact ⟨splice_eq hcallee.toWellFormed (hvalid x hx).receiver, hfits,
    fun y hy => (hvalid y hy).retained hretains⟩

def inlineMethod (p : Program) (m : MethodId) : Option (Nat × Program) := do
  let sites := (p.body m).stmts.filterMap (site? p m)
  let b ← sites.foldlM (fun b site => splice (p.body site.callee) b site) (p.body m)
  return (sites.length, p.setBody m b)

lemma inlineMethod_eq (hs : s.Fit settled) (hm : m < s.program.methods.size)
    (hlive : s.program.isLiveMethod m) :
    inlineMethod s.program m = some (Notifications.inlineMethod s.program m) := by
  have hb := hs.bodies m hm hlive
  rw [inlineMethod, foldlM_splice_eq hs hb fun x hx => ?_]
  · rfl
  · obtain ⟨stmt, hstmt, hx⟩ := mem_filterMap.1 hx
    exact site?_valid hs hb hstmt hx

def method (p : Program) (m : MethodId) : Option (Nat × Program) := do
  let (n, b) ← body p (p.body m)
  return (n, p.setBody m b)

lemma method_eq (hs : s.Fit settled) (hm : m < s.program.methods.size)
    (hlive : s.program.isLiveMethod m) :
    method s.program m = some (Simplify.method s.program m) := by
  rw [method, body_eq (fun _ h => h.1.lt) (hs.bodies m hm hlive), bind_eq_bind,
    bind_some, Simplify.method]
  generalize Simplify.body s.program (s.program.body m) = r
  rfl

/-- Changes methods one after the other; answers how much has changed. -/
def changeAll (f : Program → MethodId → Option (Nat × Program)) :
    List MethodId → Program → Option (Nat × Program)
  | [], p => some (0, p)
  | m :: ms, p => do
    let (n, p) ← f p m
    let (k, p) ← changeAll f ms p
    return (n + k, p)

lemma changeAll_eq
    (hf : ∀ {s : Specialization} {m : MethodId}, s.Fit settled → m < s.program.methods.size →
      s.program.isLiveMethod m → f s.program m = some (g s.program m))
    (hg : ∀ {s : Specialization} {m : MethodId}, s.Fit settled → m < s.program.methods.size →
      s.program.isLiveMethod m →
        let s' := { s with program := (g s.program m).2 }
        s'.Fit settled ∧ s.Spawns s')
    (ms : List MethodId) (hs : s.Fit settled)
    (hms : ∀ m ∈ ms, m < s.program.methods.size ∧ s.program.isLiveMethod m) :
    changeAll f ms s.program = some (Notifications.changeAll g ms s.program) := by
  induction ms generalizing s with
  | nil => rfl
  | cons m ms ih =>
    obtain ⟨hm, hlive⟩ := hms m (.head _)
    obtain ⟨hs1, h1⟩ := hg hs hm hlive
    have hrest := ih hs1 fun k hk => h1.program.liveMethod (hms k (.tail _ hk))
    rw [changeAll, hf hs hm hlive, bind_eq_bind, bind_some]
    dsimp only at hrest ⊢
    rw [hrest]
    rfl

/-- Replaces notifications, then simplifies every method; answers how much has changed. -/
def cleanup (p : Program) : Option (Nat × Program) := do
  let (n, p) ← changeAll inlineMethod p.allLiveMethods p
  let (k, p) ← changeAll method p.allLiveMethods p
  return (n + k, p)

/-- **No look-up of the simplification of a program fails.** -/
theorem cleanup_ensures (hs : s.Fit settled) :
    Ensures Notifications.reduce s fun n s' => cleanup s.program = some (n, s'.program) := by
  refine Specialize.onProgram_ensures ?_
  obtain ⟨hs1, -⟩ := changeAll_fit inlineMethod_fit _ hs
    fun _ => hs.mem_allLiveMethods
  -- Simplification starts from the copies, which fit as the bodies did.
  have hsimplify := changeAll_eq method_eq simplify_fit _ hs1
    fun _ => hs1.mem_allLiveMethods
  rw [cleanup, changeAll_eq inlineMethod_eq inlineMethod_fit _ hs
    fun _ => hs.mem_allLiveMethods, bind_eq_bind, bind_some]
  dsimp only at hsimplify ⊢
  rw [hsimplify]
  rfl

/-- Removes the idle statements of methods; answers how many. -/
def sweepMethods : List MethodId → Program → Option (Nat × Program)
  | [], p => some (0, p)
  | m :: ms, p => do
    let (n, b) ← sweep (p.body m)
    let (k, p) ← sweepMethods ms (p.setBody m b)
    return (n + k, p)

/-- **No look-up of the removal of idle statements fails.** -/
theorem sweepMethods_eq (ms : List MethodId) (hs : s.Fit settled)
    (hms : ∀ m ∈ ms, m < s.program.methods.size ∧ s.program.isLiveMethod m) :
    sweepMethods ms s.program = some (Unused.sweepMethods ms s.program) := by
  induction ms generalizing s with
  | nil => rfl
  | cons m ms ih =>
    obtain ⟨hm, hlive⟩ := hms m (.head _)
    have hb := hs.bodies m hm hlive
    obtain ⟨hs1, h1⟩ := hs.setBody (m := m) fun _ _ =>
      (sweepRounds_thins ((s.program.body m).stmts.length + 1) _).fits hb
    have hrest := ih hs1 fun k hk =>
      h1.program.liveMethod (hms k (.tail _ hk))
    rw [sweepMethods, sweep_eq hb.toWellFormed, bind_eq_bind, bind_some]
    dsimp only at hrest ⊢
    rw [Unused.sweep, hrest]
    rfl
end Checked

namespace Specialization
variable {s : Specialization} {settled : Bool}

inductive NamesField (s : Specialization) (f : FieldId) : Prop
  | read {k : MethodId} {a : Action} (hk : k ∈ s.program.allLiveMethods)
      (ha : a ∈ (s.program.body k).code) (hf : read? a = some f)
  | store {k : MethodId} {a : Action} (hk : k ∈ s.program.allLiveMethods)
      (ha : a ∈ (s.program.body k).code) (hf : stored? a = some f)
  | member {c : ClassId} (hc : c < s.program.classes.size)
      (hf : f ∈ (s.program.classDecl c).fields)
  | value {v : ObjectId} (hf : s.valueFields.get? v = some f)
  | text {a : ObjectId} (hf : s.expressionFields.get? a = some f)
  | reference {key : ClassId × ObjectId} (hf : s.refFields.get? key = some f)

/-- Bodies are well formed, and no look-up of a stage is out of range. -/
structure WellFormed (s : Specialization) : Prop where
  bodies : ∀ k ∈ s.program.allLiveMethods, (s.program.body k).WellFormed
  fields : ∀ f, s.NamesField f → s.program.fields[f]? = some (s.program.fieldDecl f)
  counts : ∀ k ∈ s.program.allLiveMethods,
    Checked.useCounts (s.program.body k) = some (s.program.body k).useCounts
  compact : ∀ k ∈ s.program.allLiveMethods,
    Checked.compactLocals (s.program.body k) = some (s.program.body k).compactLocals?
  casts : ∀ k ∈ s.program.allLiveMethods, ∀ a ∈ (s.program.body k).code,
    Checked.foldCast (s.program.body k) a = some (Simplify.foldCast (s.program.body k) a)
  texts : ∀ k ∈ s.program.allLiveMethods, ∀ a ∈ (s.program.body k).code,
    Checked.foldTextField s.program a = some (Simplify.foldTextField s.program a)
  cleanup : ∀ n s', Notifications.reduce s = .ok n s' →
    Checked.cleanup s.program = some (n, s'.program)
  sweep : Checked.sweepMethods s.program.allLiveMethods s.program =
    some (Unused.sweepMethods s.program.allLiveMethods s.program)

lemma Fit.namesField_lt (hs : s.Fit settled) (h : s.NamesField f) : f < s.program.fields.size := by
  cases h with
  | @read k a hk ha hf =>
    obtain ⟨hlt, hlive⟩ := hs.mem_allLiveMethods hk
    exact ((hs.bodies k hlt hlive).demands a ha _ (((mem_demands_iff a).1 f).2 hf)).1.lt
  | @store k a hk ha hf =>
    obtain ⟨hlt, hlive⟩ := hs.mem_allLiveMethods hk
    exact ((hs.bodies k hlt hlive).demands a ha _ (((mem_demands_iff a).2.1 f).2 hf)).1.lt
  | member hc hf => exact (hs.layout.fields _ hc f hf).1
  | value hf => exact (hs.valueFields _ f hf).1
  | text hf => exact (hs.expressionFields _ f hf).1
  | reference hf => exact (hs.refFields _ f hf).1

lemma Fit.wellFormed (hs : s.Fit settled) : s.WellFormed := by
  have hfits (k : MethodId) (hk : k ∈ s.program.allLiveMethods) :
      (s.program.body k).Fits (s.Permits settled (s.program.methodDecl k).owner) := by
    obtain ⟨hlt, hlive⟩ := hs.mem_allLiveMethods hk
    exact hs.bodies k hlt hlive
  exact {
    bodies := fun k hk => (hfits k hk).toWellFormed
    fields := fun f hf => Checked.getElem?_eq_getD (hs.namesField_lt hf) default
    counts := fun k hk => (Checked.useCounts_eq (hfits k hk).toWellFormed).1
    compact := fun k hk => Checked.compactLocals_eq (hfits k hk).toWellFormed
    casts := fun k hk a ha => Checked.foldCast_eq ((hfits k hk).locals a ha)
    texts := fun k hk a ha => Checked.foldTextField_eq fun f hf =>
      ((hfits k hk).demands a ha _ hf).1.lt
    cleanup := fun _ _ h => Checked.cleanup_ensures hs _ _ h
    sweep := Checked.sweepMethods_eq _ hs fun _ => hs.mem_allLiveMethods }
end Specialization

namespace Run
open DataflowSpecializer.Specialization (Reached after? exists_reached)

/-- **Every state that a run passes through is well formed.**  This holds after the classes are made
and after every reduction, in whatever order they are done, and at the end of every run. -/
theorem states_wellFormed (m : Model) (o : Options) :
    (∀ stages s, Reached m o stages s → s.WellFormed) ∧
      ∀ {σ : Type} (clock : StateM σ Nat) (w : σ) (terminal : Stage) (p : Option Provenance)
        (r : Run), (upTo clock terminal { start m o with provenance := p } w).1 = (none, r) →
          r.spec.WellFormed := by
  refine ⟨fun stages s hs => hs.fit.wellFormed, fun clock w terminal p r hrun => ?_⟩
  have hreaches := upTo_reaches clock w terminal (r := { start m o with provenance := p }) rfl
  rw [hrun] at hreaches
  obtain ⟨k, s, hs, all, hspec⟩ := hreaches
  rw [hspec]
  exact (hs.fit.warned all).1.wellFormed

/-- Parameters are read from fields, and then the methods are simplified. -/
theorem states_wellFormed_of_writtenParameter :
    ∃ m s, Model.ofDescription writtenParameter = .ok m ∧
      Reached m {} [.inlineParameters, .cleanup] s ∧ s.WellFormed := by
  have h : ((Model.ofDescription writtenParameter).toOption.any fun m =>
      (after? m {} [.inlineParameters, .cleanup]).any fun _ => true) := by
    decide +kernel
  obtain ⟨m, s, hm, hs, -⟩ := exists_reached h
  exact ⟨m, s, hm, hs, (states_wellFormed m {}).1 _ s hs⟩
end Run
end DataflowSpecializer
