import DataflowSpecializer.Proofs.Analysis.Paths
import DataflowSpecializer.Proofs.Run.Reached

/-! # What locals refer to when look-ups become reads

Turning look-ups into reads of fields does not change what the locals of a method are known to refer
to. A body is changed in two ways, and neither changes the least map of its objects:

* Code is inserted that sets a new field. The map can be completed on the locals of that code, so
  that none of its statements adds anything (`Stores.completes`).
* A look-up gives way to a read. Both find the same object for the same local, as long as the
  receiver is known to be one object (`Finds`).

Sites of constructors keep their locals all along, since their ids are never handed out again.
-/
namespace DataflowSpecializer
open List Option DataflowSpecializer.Action Program Draft Route Model ObjectMap
/-! ## Maps that no statement changes -/
namespace ObjectMap
open Identity (Below)

section Steps
variable {model : Model} {facts facts' : FieldFacts} {a : Action} {m m' : ObjectMap}

lemma step_eq_iff : m.step model facts a = m ↔ ∀ φ ∈ flows model facts a, φ.Done m := by
  rw [step_eq_follow, follow_eq_iff]

section
variable (hlocals : ∀ l ∈ a.mentions, m'.identity? l = m.identity? l)

include hlocals

lemma flows_congr
    (hfields : ∀ f, m'.holder? (.field f) = m.holder? (.field f)) : ∀ φ ∈ flows model facts a,
      φ.source m' = φ.source m ∧ m'.holder? φ.target = m.holder? φ.target := by
  intro φ hφ
  unfold flows at hφ
  split at hφ
  · rename_i l r
    have hl := hlocals l (by simp [mentions, target?])
    have hr := hlocals r (by simp [mentions, Action.uses, Rvalue.locals, Operand.locals])
    rcases mem_pair.1 hφ with rfl | rfl
    · exact ⟨hr, hl⟩
    · exact ⟨hl, hr⟩
  · rename_i l type r
    have hl := hlocals l (by simp [mentions, target?])
    have hr := hlocals r (by simp [mentions, Action.uses, Rvalue.locals, Operand.locals])
    rcases mem_pair.1 hφ with rfl | rfl
    · exact ⟨hr, hl⟩
    · exact ⟨hl, hr⟩
  · rename_i l base f
    obtain rfl := mem_singleton.1 hφ
    refine ⟨?_, hlocals l (by simp [mentions, target?])⟩
    show fieldIdentity? facts m' f = fieldIdentity? facts m f
    unfold fieldIdentity?
    split
    · rfl
    · exact hfields f
  · rename_i l call
    obtain rfl := mem_singleton.1 hφ
    refine ⟨?_, hlocals l (by simp [mentions, target?])⟩
    cases hbase : call.base with
    | none => simp [callIdentity?, hbase]
    | some base =>
      exact callIdentity?_congr hbase (hlocals base (by
        simp [mentions, Action.uses, Rvalue.locals, Invocation.locals, hbase]))
  · rename_i base f r
    have hr := hlocals r (by simp [mentions, Action.uses, Rvalue.locals, Operand.locals])
    split at hφ
    · obtain rfl := mem_singleton.1 hφ
      exact ⟨rfl, hr⟩
    · obtain rfl := mem_singleton.1 hφ
      exact ⟨hr, hfields f⟩
  · cases hφ

lemma step_eq_of_agree (hfields : ∀ f, m'.holder? (.field f) = m.holder? (.field f))
    (h : m.step model facts a = m) : m'.step model facts a = m' := by
  rw [step_eq_iff] at h ⊢
  intro φ hφ
  obtain ⟨hsource, htarget⟩ := flows_congr hlocals hfields φ hφ
  rw [Flow.Done, hsource, htarget]
  exact h φ hφ
end

lemma step_facts (h : ∀ f, .read f ∈ a.demands ∨ .store f ∈ a.demands →
      facts'.object? f = facts.object? f) (m : ObjectMap) :
    m.step model facts' a = m.step model facts a := by
  unfold step
  split
  · rfl
  · rfl
  · rename_i l base f
    rw [fieldIdentity?, h f (.inl (by simp [demands, Rvalue.demands])), fieldIdentity?]
  · rfl
  · rename_i base f r
    rw [h f (.inr (by simp [demands]))]
  · rfl
end Steps

section Analysis
variable {b b' : Body} {model : Model} {facts facts' : FieldFacts} {receiver : Option ObjectId}
  {seeds : List (LocalId × ObjectId)}

def Settled (b : Body) (model : Model) (facts : FieldFacts) (receiver : Option ObjectId)
    (seeds : List (LocalId × ObjectId)) (m : ObjectMap) : Prop :=
  HasSeeds b receiver seeds m ∧ ∀ a ∈ b.code, m.step model facts a = m

variable (b model facts receiver seeds) in

lemma settled_analyze :
    Settled b model facts receiver seeds (analyze b model facts receiver seeds) :=
  have h := (analyze_isLeast b model facts receiver seeds).1
  ⟨h.1, List.forall_mem_map.2 h.2⟩

lemma analyze_le (h : Settled b model facts receiver seeds m) :
    analyze b model facts receiver seeds ≤ m :=
  (analyze_isLeast b model facts receiver seeds).2 ⟨h.1, List.forall_mem_map.1 h.2⟩

lemma analyze_facts (h : ∀ a ∈ b.code, ∀ f, .read f ∈ a.demands ∨ .store f ∈ a.demands →
      facts'.object? f = facts.object? f) :
    analyze b model facts' receiver seeds = analyze b model facts receiver seeds := by
  have hnew := settled_analyze b model facts' receiver seeds
  have hold := settled_analyze b model facts receiver seeds
  refine le_antisymm (analyze_le ⟨hold.1, fun a ha => ?_⟩) (analyze_le ⟨hnew.1, fun a ha => ?_⟩)
  · exact (step_facts (h a ha) _).trans (hold.2 a ha)
  · exact (step_facts (h a ha) _).symm.trans (hnew.2 a ha)

lemma identity?_analyze_insert {new : List Action} {n' : Nat} {m : ObjectMap} (hb : b.WellFormed)
    (hreceiver : b'.receiver = b.receiver) (hcode : ∀ a, a ∈ b'.code ↔ a ∈ b.code ∨ a ∈ new)
    (hseeds : ∀ l o, (l, o) ∈ seeds → (l : Nat) < b.locals.size)
    (hsame : SameOff b.locals.size n' (analyze b model facts receiver seeds) m)
    (hnew : ∀ a ∈ new, m.step model facts a = m) {l : LocalId} (hl : (l : Nat) < b.locals.size) :
    (analyze b' model facts receiver seeds).identity? l =
      (analyze b model facts receiver seeds).identity? l := by
  obtain ⟨hseeded, hsettled⟩ := settled_analyze b model facts receiver seeds
  obtain ⟨hseeded', hsettled'⟩ := settled_analyze b' model facts receiver seeds
  have hagree {k : LocalId} (hk : (k : Nat) < b.locals.size) :
      m.identity? k = (analyze b model facts receiver seeds).identity? k :=
    hsame (.loc k) fun k' hk' => .inl (Holder.loc.inj hk' ▸ hk)
  have hm : Settled b' model facts receiver seeds m := by
    refine ⟨⟨fun this o hthis ho => ?_, fun k o hk => ?_⟩, fun a ha => ?_⟩
    · rw [hreceiver] at hthis
      rw [hagree (hb.entry this (mem_append_left _ (mem_toList.2 hthis)))]
      exact hseeded.1 this o hthis ho
    · rw [hagree (hseeds k o hk)]
      exact hseeded.2 k o hk
    · rcases (hcode a).1 ha with ha | ha
      · exact step_eq_of_agree (fun k hk => hagree (hb.locals a ha k hk))
          (fun f => hsame (.field f) fun _ h => by cases h) (hsettled a ha)
      · exact hnew a ha
  have hm' : Settled b model facts receiver seeds (analyze b' model facts receiver seeds) :=
    ⟨⟨fun this o hthis ho => hseeded'.1 this o (hreceiver.trans hthis) ho, hseeded'.2⟩,
      fun a ha => hsettled' a ((hcode a).2 (.inl ha))⟩
  have hle := analyze_le hm (.loc l)
  have hge := analyze_le hm' (.loc l)
  have hl : Below ((analyze b' model facts receiver seeds).identity? l)
      ((analyze b model facts receiver seeds).identity? l) := hagree hl ▸ hle
  exact hl.antisymm hge

/-- The statement assigns the object that is found from another one: it looks it up, or it reads a
field that refers to it. -/
inductive Finds (model : Model) (facts : FieldFacts) (result base : LocalId)
    (owner target : ObjectId) : Action → Prop
  | lookup {call : Invocation} (hbase : call.base = some base)
      (hname : isNavigation call.method.name)
      (hnavigate : navigate? model owner call = some target) :
      Finds model facts result base owner target (.set result (.invoke call))
  | read {f : FieldId} (hf : facts.object? f = some target) :
      Finds model facts result base owner target (.set result (.field base f))

namespace Finds
variable {result base : LocalId} {owner target : ObjectId} {a a' : Action} {m : ObjectMap}

section
variable (h : Finds model facts result base owner target a)

include h

lemma mono (hfacts : ∀ f o, facts.object? f = some o → facts'.object? f = some o) :
    Finds model facts' result base owner target a := by
  cases h with
  | lookup hbase hname hnavigate => exact .lookup hbase hname hnavigate
  | read hf => exact .read (hfacts _ _ hf)

lemma target?_eq : a.target? = some result := by cases h <;> rfl
end

lemma arrives_read (hf : facts.object? f = some target)
    (hdone : m.step model facts (.set result (.field base f)) = m) :
    Below (some (.object target)) (m.identity? result) := by
  have hflow : Below (fieldIdentity? facts m f) (m.identity? result) :=
    step_eq_iff.1 hdone _ (mem_singleton_self _)
  rwa [fieldIdentity?, hf] at hflow

lemma callIdentity?_eq {call : Invocation} (hbase : m.identity? base = some (.object owner))
    (hcall : call.base = some base) (hname : isNavigation call.method.name)
    (hnavigate : navigate? model owner call = some target) :
    callIdentity? model m call = some (.object target) := by
  obtain ⟨x, hx, -, hexact⟩ := callIdentity?_navigates hcall hname hnavigate
    (.inr (.inl hbase.symm))
  rw [hx, hexact hbase]

variable (h : Finds model facts result base owner target a)

include h

lemma arrives (hbase : m.identity? base = some (.object owner)) (hdone : m.step model facts a = m) :
    Below (some (.object target)) (m.identity? result) := by
  cases h with
  | @lookup call hcall hname hnavigate =>
    have hflow : Below (callIdentity? model m call) (m.identity? result) :=
      step_eq_iff.1 hdone _ (mem_singleton_self _)
    rwa [callIdentity?_eq hbase hcall hname hnavigate] at hflow
  | read hf => exact arrives_read hf hdone

lemma step_eq (hbase : Below (m.identity? base) (some (.object owner)))
    (hresult : Below (some (.object target)) (m.identity? result)) : m.step model facts a = m := by
  refine step_eq_iff.2 fun φ hφ => ?_
  cases h with
  | @lookup call hcall hname hnavigate =>
    obtain rfl := mem_singleton.1 hφ
    show Below (callIdentity? model m call) (m.identity? result)
    rcases hbase with hbase | hbase | hbase
    · rw [callIdentity?, if_pos hname, hcall, bind_some, hbase]
      exact .inl rfl
    · rwa [callIdentity?_eq hbase hcall hname hnavigate]
    · cases hbase
  | @read f hf =>
    obtain rfl := mem_singleton.1 hφ
    show Below (fieldIdentity? facts m f) (m.identity? result)
    rw [fieldIdentity?, hf]
    exact hresult
end Finds

lemma analyze_replace {id : StmtId} {result base : LocalId} {owner target : ObjectId}
    {f : FieldId} (hb : b.WellFormed)
    (hold : ∀ s ∈ b.stmts, s.id = id → Finds model facts result base owner target s.action)
    (hf : facts.object? f = some target)
    (hbase : (analyze b model facts receiver seeds).identity? base = some (.object owner)) :
    analyze (b.replace id (.set result (.field base f))).2 model facts receiver seeds =
      analyze b model facts receiver seeds := by
  generalize ha : Action.set result (.field base f) = a
  have hnew : Finds model facts result base owner target a := ha ▸ .read hf
  obtain ⟨hseeded, hsettled⟩ := settled_analyze b model facts receiver seeds
  obtain ⟨hseeded', hsettled'⟩ := settled_analyze (b.replace id a).2 model facts receiver seeds
  have hle : analyze (b.replace id a).2 model facts receiver seeds ≤
      analyze b model facts receiver seeds := by
    refine analyze_le ⟨hseeded, List.forall_mem_map.2 fun s hs => ?_⟩
    rcases (Body.mem_replace hb.ids).1 hs with ⟨hs, -⟩ | ⟨rfl, t, ht, hid⟩
    · exact hsettled _ (List.mem_map_of_mem hs)
    · exact hnew.step_eq (.inr (.inl hbase))
        ((hold t ht hid).arrives hbase (hsettled _ (List.mem_map_of_mem ht)))
  refine le_antisymm hle (analyze_le ⟨hseeded', List.forall_mem_map.2 fun s hs => ?_⟩)
  by_cases hid : s.id = id
  · -- What the new statement adds is all that the old one can add.
    have ha' : a ∈ (b.replace id a).2.code :=
      List.mem_map.2 ⟨⟨id, a⟩, (Body.mem_replace hb.ids).2 (.inr ⟨rfl, s, hs, hid⟩), rfl⟩
    have hbelow : Below ((analyze (b.replace id a).2 model facts receiver seeds).identity? base)
        (some (.object owner)) := hbase ▸ hle (.loc base)
    subst ha
    exact (hold s hs hid).step_eq hbelow (Finds.arrives_read hf (hsettled' _ ha'))
  · exact hsettled' _ (List.mem_map_of_mem ((Body.mem_replace hb.ids).2 (.inl ⟨hs, hid⟩)))
end Analysis
end ObjectMap

/-! ## Bodies that keep what they assign -/
namespace Body
variable {b b' b'' : Body} {id : StmtId}

structure Keeps (b b' : Body) : Prop where
  receiver : b'.receiver = b.receiver
  params : b'.params = b.params
  target : ∀ id < b.nextStmt,
    (b'.stmt? id).bind (·.action.target?) = (b.stmt? id).bind (·.action.target?)

lemma Keeps.refl (b : Body) : b.Keeps b := ⟨rfl, rfl, fun _ _ => rfl⟩

lemma stmt?_insertAt (hid : id < b.nextStmt) (pos : Nat) (as : List Action) :
    (b.insertAt pos as).2.stmt? id = b.stmt? id := by
  have hnew : (b.number as).find? (·.id == id) = none := by
    refine find?_eq_none.2 fun s hs h => ?_
    have hmem : s.id ∈ (b.number as).map Stmt.id := List.mem_map_of_mem hs
    rw [number_id] at hmem
    exact absurd hid (beq_iff_eq.1 h ▸ (mem_range'_1.1 hmem).1).not_gt
  show (b.stmts.take pos ++ b.number as ++ b.stmts.drop pos).find? _ = b.stmts.find? _
  rw [find?_append, find?_append, hnew, or_none, ← find?_append, take_append_drop]

lemma Keeps.replace {a : Action} (h : ∀ s ∈ b.stmts, s.id = id → s.action.target? = a.target?) :
    b.Keeps (b.replace id a).2 := by
  refine ⟨rfl, rfl, fun k _ => ?_⟩
  show ((updateFirst _ _ b.stmts).find? _).bind _ = (b.stmts.find? _).bind _
  generalize b.stmts = stmts at h ⊢
  induction stmts with
  | nil => rfl
  | cons s stmts ih =>
    rw [updateFirst]
    by_cases hs : s.id = id
    · rw [if_pos (beq_iff_eq.2 hs), find?_cons, find?_cons]
      cases hk : s.id == k with
      | true => exact (h s (.head _) hs).symm
      | false => rfl
    · rw [if_neg (by simpa using hs), find?_cons, find?_cons]
      cases hk : s.id == k with
      | true => rfl
      | false => exact ih fun t ht => h t (.tail _ ht)
end Body

namespace References
variable {P : Demand → Prop} {b b' : Body} {code : Drafting Unit}

lemma Inserted.keeps (h : Inserted P b b' code) : b.Keeps b' := by
  obtain ⟨pos, rfl⟩ := h.body
  have hgrows := h.grows
  refine ⟨hgrows.receiver, hgrows.params, fun id hid => ?_⟩
  rw [Body.stmt?_insertAt (hgrows.nextStmt.symm ▸ hid), Body.stmt?, hgrows.stmts, Body.stmt?]
  rfl

lemma Inserted.mem_stmts (h : Inserted P b b' code) {s : Stmt} (hs : s ∈ b'.stmts)
    (hid : s.id < b.nextStmt) : s ∈ b.stmts := by
  obtain ⟨pos, rfl⟩ := h.body
  have hmem := (Body.take_append_drop_perm _ _ pos).mem_iff.1 hs
  rcases mem_append.1 hmem with hmem | hmem
  · exact h.grows.stmts ▸ hmem
  · have hnew := List.mem_map_of_mem (f := Stmt.id) hmem
    rw [Body.number_id, h.grows.nextStmt] at hnew
    exact absurd hid (not_lt.2 (mem_range'_1.1 hnew).1)
end References

namespace Specialization
variable {s s' : Specialization} {k : MethodId} {c : ClassId}

lemma siteLocal?_eq (s : Specialization) (c : ClassId) (o : ObjectId) :
    s.siteLocal? c o = (s.sites.get? (c, o)).bind fun site =>
      (s.program.method? c "<init>").bind fun init =>
        (((s.program.body init).stmt? site.stmt).bind (·.action.target?)).bind fun l =>
          some (site.stmt, l) := by
  simp only [siteLocal?, bind_eq_bind, bind_assoc, Option.pure_def]

structure Keeping (s s' : Specialization) : Prop extends s.Spawns s' where
  bodies : ∀ m < s.program.methods.size, (s.program.body m).Keeps (s'.program.body m)

namespace Keeping
variable (h : s.Keeping s')

include h

lemma method? (layout : s.program.Layout) (hc : c < s.program.classes.size)
    (name : String) : s'.program.method? c name = s.program.method? c name := by
  unfold Program.method? liveMethods
  rw [h.members c hc, find?_filter, find?_filter, ← head?_filter, ← head?_filter]
  refine congrArg head? (filter_congr fun m hm => ?_)
  have hlt := (layout.methods c hc m hm).1
  rw [h.program.isLiveMethod hlt, h.program.methodName hlt]

lemma siteLocal? (hs : s.program.Layout) (hsited : s.Sited)
    (hc : c < s.program.classes.size) (o : ObjectId) : s'.siteLocal? c o = s.siteLocal? c o := by
  rw [siteLocal?_eq, siteLocal?_eq, h.sites, h.method? hs hc]
  cases hsite : s.sites.get? (c, o) with
  | none => rfl
  | some site =>
    cases hinit : s.program.method? c "<init>" with
    | none => rfl
    | some init =>
      obtain ⟨hlt, -, howner, hname⟩ := hs.method? hc hinit
      have hid : site.stmt < (s.program.body init).nextStmt :=
        (hsited (c, o) site hsite).below init (howner ▸ (hs.methodOwner init hlt).2) hname
      rw [bind_some, bind_some, bind_some, bind_some, (h.bodies init hlt).target _ hid]

lemma seeds (hs : s.program.Layout) (hsited : s.Sited)
    (hk : k < s.program.methods.size) : s'.seeds k = s.seeds k := by
  have howner := h.program.methodOwner hk
  unfold Specialization.seeds objectOfMethod? objectOf?
  dsimp only
  rw [h.program.methodName hk, howner, h.objectOf, h.model, h.sites,
    show (s'.program.methodDecl k).body.params = (s.program.methodDecl k).body.params from
      (h.bodies k hk).params]
  split
  · congr 1
    refine filterMap_congr fun key _ => ?_
    split
    · rename_i heq
      rw [heq, h.siteLocal? hs hsited (hs.methodOwner k hk).1]
    · rfl
  · rfl
end Keeping
end Specialization

namespace ObjectMap
open Identity (Below)

variable {facts : FieldFacts} {m : ObjectMap}

lemma step_store (hf : facts.object? f = some o) (hr : Below (some (.object o)) (m.identity? r)) :
    m.step model facts (.assign (.field this f) (.use (.loc r))) = m := by
  refine step_eq_iff.2 fun φ hφ => ?_
  rw [flows, hf] at hφ
  obtain rfl := mem_singleton.1 hφ
  exact hr

lemma step_cast {type : CodeType} (hl : l < n) (hx : m.identity? l = some x) :
    (m.put n x).step model facts (.set n (.cast type (.loc l))) = m.put n x := by
  have hold : (m.put n x).identity? l = some x := (identity?_put_of_ne m (ne_of_lt hl) x).trans hx
  have hnew : (m.put n x).identity? n = some x := identity?_put_self m n x
  refine step_eq_iff.2 fun φ hφ => ?_
  rcases mem_pair.1 hφ with rfl | rfl
  · show Below ((m.put n x).identity? l) ((m.put n x).identity? n)
    exact .inr (.inl (hold.trans hnew.symm))
  · show Below ((m.put n x).identity? n) ((m.put n x).identity? l)
    exact .inr (.inl (hnew.trans hold.symm))
end ObjectMap

namespace References
open Identity (Below)

variable {s : Specialization} {b : Body} {owner target : ObjectId} {f : FieldId} {route : Route}
  {site : Option (StmtId × LocalId)} {code : Drafting Unit}

lemma containerCode_actions (b : Body) (this param : LocalId) (type : CodeType) (f : FieldId) :
    ((containerCode this param type f).run (.ofBody b)).2.actions =
      [.set b.locals.size (.cast type (.loc param)),
        .assign (.field this f) (.use (.loc b.locals.size))] := by
  have hcast := (value_writes (.ofBody b) "container" type (.cast type (.loc param))).actions
  exact (emit_actions _ _).trans (congrArg (· ++ _) hcast)

lemma pathCode_actions (hm : s.model.Shape)
    (hpath : Specialization.path s.model owner target = .ok (up, down))
    (hthis : (this : Nat) < b.locals.size) : ∃ trail r n',
      ((pathCode s this up down f).run (.ofBody b)).2.actions =
        trail ++ [.assign (.field this f) (.use (.loc r))] ∧
      ObjectMap.Trail s.model this owner b.locals.size trail r target n' := by
  obtain ⟨turn, hclimbs, hdescends⟩ := path_climbs_descends hm hpath
  obtain ⟨ups, hups, hclimb⟩ := climb_trail (d := .ofBody b) hclimbs hthis
  obtain ⟨downs, hdowns, hdescend⟩ := descend_trail hm hdescends (hclimb.end_lt hthis)
  refine ⟨ups ++ downs, _, _, (emit_actions _ _).trans ?_, hclimb.append hdescend⟩
  exact congrArg (· ++ _) (hdowns.trans (congrArg (· ++ downs) hups))

lemma Stores.completes (h : Stores s b owner target f route site code) (hm : s.model.Shape)
    (hf : s.facts.object? f = some target) (hb : b.WellFormed) {m : ObjectMap}
    (hreceiver : ∀ this, b.receiver = some this → Below (some (.object owner)) (m.identity? this))
    (hparam : route = .container → ∀ param params, b.params = param :: params →
      Below (some (.object target)) (m.identity? param))
    (hsite : ∀ at_ l, site = some (at_, l) → Below (some (.object target)) (m.identity? l)) :
    ∃ m' n', ObjectMap.SameOff b.locals.size n' m m' ∧
      ∀ a ∈ (code.run (.ofBody b)).2.actions, m'.step s.model s.facts a = m' := by
  have hentry {this : LocalId} (hthis : b.receiver = some this) : (this : Nat) < b.locals.size :=
    hb.entry this (mem_append_left _ (mem_toList.2 hthis))
  cases h with
  | nothing => exact ⟨m, b.locals.size, fun _ _ => rfl, fun a ha => by cases ha⟩
  | @container this param params hthis hroute hparams =>
    have hlt : (param : Nat) < b.locals.size :=
      hb.entry _ (mem_append_right _ (hparams ▸ mem_cons_self))
    have hknown := hparam hroute param params hparams
    obtain ⟨x, hx⟩ : ∃ x, m.identity? param = some x := by
      rcases hknown with h | h | h
      · cases h
      · exact ⟨_, h.symm⟩
      · exact ⟨_, h⟩
    refine ⟨m.put b.locals.size x, b.locals.size + 1, fun p hp => ?_, fun a ha => ?_⟩
    · exact holder?_put_of_ne m (fun h => by have := hp _ h; omega) x
    · rw [containerCode_actions] at ha
      rcases mem_pair.1 ha with rfl | rfl
      · exact step_cast hlt hx
      · refine step_store hf ?_
        rw [identity?_put_self, ← hx]
        exact hknown
  | @site this l at_ hthis hl =>
    refine ⟨m, b.locals.size, fun _ _ => rfl, fun a ha => ?_⟩
    obtain rfl := mem_singleton.1 (emit_actions _ (.ofBody b) ▸ ha)
    exact step_store hf (hsite at_ l hl)
  | @path this up down hthis hpath =>
    obtain ⟨trail, r, n', hactions, htrail⟩ := pathCode_actions hm (f := f) hpath (hentry hthis)
    obtain ⟨m', hsame, hdone, hend, -⟩ := htrail.complete s.facts (hreceiver this hthis)
    refine ⟨m', n', hsame, fun a ha => ?_⟩
    rw [hactions] at ha
    rcases mem_append.1 ha with ha | ha
    · exact hdone a ha
    · obtain rfl := mem_singleton.1 ha
      exact step_store hf hend
end References

namespace Specialization
open Identity (Below)

variable {s s' s'' : Specialization} {settled : Bool} {k : MethodId} {m : MethodId}

def SameObjects (s s' : Specialization) : Prop :=
  ∀ k < s.program.methods.size, s.program.isLiveMethod k →
    ∀ l : LocalId, (l : Nat) < (s.program.body k).locals.size →
      (s'.objectMap k).identity? l = (s.objectMap k).identity? l

lemma SameObjects.trans (h : s.SameObjects s') (hext : s.Extends s') (hretains : s.Retains s')
    (h' : s'.SameObjects s'') : s.SameObjects s'' := fun k hk hlive l hl =>
  (h' k (lt_of_lt_of_le hk hext.program.methods) ((hext.program.isLiveMethod hk).trans hlive) l
    (lt_of_lt_of_le hl (hretains k hk hlive).size)).trans (h k hk hlive l hl)

lemma mem_seeds_iff (hname : (s.program.methodDecl k).name = "<init>") : (l, o) ∈ s.seeds k ↔
      (s.objectOfMethod? k).bind s.model.container = some o ∧ (s.program.body k).params.head? = some l ∨
        ∃ at_, s.siteLocal? (s.program.methodDecl k).owner o = some (at_, l) := by
  unfold seeds
  rw [if_pos hname, mem_append]
  refine or_congr ?_ ⟨fun h => ?_, ?_⟩
  · cases (s.objectOfMethod? k).bind s.model.container with
    | none => simp
    | some o' =>
      rw [Program.body]
      cases (s.program.methodDecl k).body.params with
      | nil => simp
      | cons l' ls => simp [eq_comm, and_comm]
  · obtain ⟨⟨c, o'⟩, -, hkey⟩ := mem_filterMap.1 h
    dsimp only at hkey
    split at hkey
    · rename_i howner
      obtain ⟨⟨at_, l'⟩, hlocal, heq⟩ := map_eq_some_iff.1 hkey
      cases heq
      exact ⟨at_, howner ▸ hlocal⟩
    · cases hkey
  · rintro ⟨at_, hlocal⟩
    refine mem_filterMap.2 ⟨((s.program.methodDecl k).owner, o), ?_, ?_⟩
    · obtain ⟨site, hsite, -⟩ := bind_eq_some_iff.1 (siteLocal?_eq s _ o ▸ hlocal)
      rw [SortedMap.mem_keys_iff, SortedMap.contains, hsite]
      rfl
    · dsimp only
      rw [if_pos rfl, hlocal]
      rfl

lemma objectMap_eq (h : s.Keeping s') (hs : s.program.Layout) (hsited : s.Sited)
    (hk : k < s.program.methods.size) : s'.objectMap k =
      .analyze (s'.program.body k) s.model s'.facts (s.objectOfMethod? k) (s.seeds k) := by
  rw [objectMap, h.model, h.seeds hs hsited hk, objectOfMethod?, h.program.methodOwner hk, objectOf?,
    h.objectOf]
  rfl

lemma Keeping.setBody {b : Body} (hb : (s.program.body m).Keeps b)
    (hnext : (s.program.body m).nextStmt ≤ b.nextStmt) :
    s.Keeping { s with program := s.program.setBody m b } := by
  refine ⟨(Spawns.refl s).setBody hnext, fun k hk => ?_⟩
  show (s.program.body k).Keeps ((s.program.setBody m b).body k)
  by_cases hkm : k = m
  · subst hkm
    rwa [setBody_body _ _ hk]
  · rw [setBody_body_of_ne _ _ hkm]
    exact .refl _

lemma SameObjects.setBody {b : Body} (hs : s.Fit settled) (hsited : s.Sited)
    (hb : (s.program.body m).Keeps b) (hnext : (s.program.body m).nextStmt ≤ b.nextStmt)
    (hmap : ∀ l : LocalId, (l : Nat) < (s.program.body m).locals.size →
      (analyze b s.model s.facts (s.objectOfMethod? m) (s.seeds m)).identity? l =
        (s.objectMap m).identity? l) :
    s.SameObjects { s with program := s.program.setBody m b } := by
  intro k hk _ l hl
  rw [objectMap_eq (.setBody hb hnext) hs.layout hsited hk]
  show (analyze ((s.program.setBody m b).body k) _ _ _ _).identity? l = _
  by_cases hkm : k = m
  · subst hkm
    rw [setBody_body _ _ hk]
    exact hmap l hl
  · rw [setBody_body_of_ne _ _ hkm]
    rfl
end Specialization

namespace References
open Identity (Below)

variable {s s' : Specialization} {settled : Bool} {owner target : ObjectId} {route : Route}
  {c : ClassId} {p : Program} {facts : FieldFacts}

section
variable (hs : s.Fit settled)

include hs

lemma withField_objects (hsited : s.Sited)
    (hclass : s.classOf.get? owner = some c) (hp : Program.NewField s.program p c)
    (hfinal : (p.fieldDecl s.program.fields.size).isFinal = false)
    (hfacts : s.facts.setObject s.program.fields.size target = .ok facts) :
    s.SameObjects (withField s owner target p facts) := by
  have hkeeping : s.Keeping (withField s owner target p facts) :=
    ⟨(withField_fit hs hclass hp hfinal hfacts).2.1, fun m _ => (hp.body m).symm ▸ .refl _⟩
  intro k hk hlive l _
  rw [Specialization.objectMap_eq hkeeping hs.layout hsited hk]
  show (analyze (p.body k) _ _ _ _).identity? l = _
  rw [hp.body]
  refine congrArg (·.identity? l) (analyze_facts fun a ha f hf => ?_)
  have hlt : f < s.program.fields.size := by
    have hdemands := (hs.bodies k hk hlive).demands a ha
    rcases hf with hf | hf
    · exact (hdemands _ hf).1.lt
    · exact (hdemands _ hf).1.lt
  exact (FieldFacts.object?_setObject hfacts f).trans (if_neg (ne_of_lt hlt))

lemma store_objects {f : FieldId} {init : MethodId} {b : Body}
    (hsited : s.Sited) (hm : s.model.Shape)
    (hroute : route = .container → s.model.container owner = some target)
    (hclass : s.classOf.get? owner = some c) (hfact : s.facts.object? f = some target)
    (hstore : s.Permits settled c (.store f)) (hinit : s.program.method? c "<init>" = some init)
    (hb : storeReference s (s.program.body init) owner target f route (s.siteLocal? c target) =
      .ok b) :
    s.SameObjects { s with program := s.program.setBody init b } ∧
      ∀ stmt ∈ b.stmts, stmt.id < (s.program.body init).nextStmt →
        stmt ∈ (s.program.body init).stmts := by
  have hc := (hs.objectClass hclass).lt
  obtain ⟨hlt, hlive, howner, hname⟩ := hs.layout.method? hc hinit
  have hfits := hs.bodies init hlt hlive
  obtain ⟨code, hcode, hinserted⟩ := storeReference_inserted hfits (siteLocal?_lt hs hc hinit target)
    (howner.symm ▸ hstore) hb
  refine ⟨.setBody hs hsited hinserted.keeps hinserted.fits.2.nextStmt fun l hl => ?_,
    fun stmt => hinserted.mem_stmts⟩
  have hobject : s.objectOfMethod? init = some owner := by
    rw [Specialization.objectOfMethod?, howner]
    exact (hs.registry owner c hclass).2.2
  have hseeds := (settled_analyze (s.program.body init) s.model s.facts
    (s.objectOfMethod? init) (s.seeds init)).1
  have hsite (o : ObjectId) (at_ : StmtId) (l : LocalId) (h : s.siteLocal? c o = some (at_, l)) :
      (l, o) ∈ s.seeds init := (Specialization.mem_seeds_iff hname).2 (.inr ⟨at_, howner ▸ h⟩)
  obtain ⟨m, n', hsame, hnew⟩ := hcode.completes hm hfact hfits.toWellFormed
    (fun this hthis => hseeds.1 this owner hthis hobject)
    (fun hr param params hparams => hseeds.2 param target <|
      (Specialization.mem_seeds_iff hname).2 (.inl ⟨by rw [hobject]; exact hroute hr, by rw [hparams]; rfl⟩))
    fun at_ l h => hseeds.2 l target (hsite target at_ l h)
  have hreceiver := hinserted.keeps.receiver
  have hgrows := hinserted.grows
  obtain ⟨pos, rfl⟩ := hinserted.body
  refine identity?_analyze_insert hfits.toWellFormed hreceiver (fun a => ?_)
    (fun l o hl => ?_) hsame hnew hl
  · rw [Body.mem_insertAt_code, Body.code, hgrows.stmts, Body.code]
    rfl
  · rcases (Specialization.mem_seeds_iff hname).1 hl with ⟨-, hl⟩ | ⟨at_, hl⟩
    · exact hfits.entry l (mem_append_right _ (mem_of_head? hl))
    · exact siteLocal?_lt hs hc hinit o (at_, l) (howner ▸ hl)

lemma Placed.objects (hsited : s.Sited) (hm : s.model.Shape)
    (hroute : route = .container → s.model.container owner = some target)
    (h : Placed s s' owner target route) :
    s.SameObjects s' ∧ s'.facts.object? s.program.fields.size = some target ∧
      ∀ k < s.program.methods.size, ∀ stmt ∈ (s'.program.body k).stmts,
        stmt.id < (s.program.body k).nextStmt → stmt ∈ (s.program.body k).stmts := by
  obtain ⟨c, p, facts, init, b, hclass, hp, hfinal, hfacts, hinit, hb, rfl⟩ := h
  obtain ⟨hfit, hspawns, hretains, -, hstore⟩ := withField_fit hs hclass hp hfinal hfacts
  have hsame := withField_objects hs hsited hclass hp hfinal hfacts
  have hfact := (FieldFacts.object?_setObject hfacts s.program.fields.size).trans (if_pos rfl)
  obtain ⟨hsame', hstmts⟩ := store_objects hfit ((hspawns.advances hs.layout).sited hsited) hm hroute
    hclass hfact hstore hinit hb
  refine ⟨hsame.trans hspawns.toExtends hretains hsame', hfact, fun k hk stmt hstmt hid => ?_⟩
  have hstmt : stmt ∈ ((p.setBody init b).body k).stmts := hstmt
  have hk : k < p.methods.size := hp.sameMethods ▸ hk
  rw [← hp.body] at hid ⊢
  by_cases hki : k = init
  · subst hki
    rw [setBody_body _ _ hk] at hstmt
    exact hstmts stmt hstmt hid
  · rwa [setBody_body_of_ne _ _ hki] at hstmt

lemma field_placed (owner target : ObjectId) (route : Route) :
    Ensures (field owner target route) s fun f s' => s' = s ∧ s.facts.object? f = some target ∨
        f = s.program.fields.size ∧ Placed s s' owner target route := by
  refine .get_bind ?_
  split
  · rename_i f hf
    exact .pure (.inl ⟨rfl, (hs.refFields _ f (filter_eq_some_iff.1 hf).1).2.2⟩)
  · exact (addField_placed hs owner target route).mono fun _ _ => .inr
end

structure Known.Leads (s : Specialization) (k : Known) : Prop where
  valid : k.Valid s
  finds : ∀ stmt ∈ (s.program.body k.method).stmts, stmt.id = k.stmt →
    ObjectMap.Finds s.model s.facts k.result k.base k.owner k.target stmt.action
  base : (s.objectMap k.method).identity? k.base = some (.object k.owner)
  container : k.route = .container → s.model.container k.owner = some k.target

lemma Known.Leads.later {k : Known} (h : k.Leads s) (hext : s.Extends s')
    (hretains : s.Retains s') (hsame : s.SameObjects s')
    (hstmts : ∀ stmt ∈ (s'.program.body k.method).stmts, stmt.id = k.stmt →
      stmt ∈ (s.program.body k.method).stmts ∨
        ∃ f, stmt.action = .set k.result (.field k.base f) ∧ s'.facts.object? f = some k.target) :
    k.Leads s' where
  valid := h.valid.later hext hretains
  finds stmt hstmt hid := by
    rcases hstmts stmt hstmt hid with hold | ⟨f, ha, hf⟩
    · exact hext.model ▸ (h.finds stmt hold hid).mono hext.objects
    · exact ha ▸ .read hf
  base := (hsame _ h.valid.lt h.valid.live _ h.valid.base).trans h.base
  container hroute := hext.model ▸ h.container hroute

lemma navigate?_of_follow? {call : Invocation} (hcall : ofCall? call = some route)
    (h : route.follow? m owner call = some target) :
    isNavigation call.method.name ∧ navigate? m owner call = some target := by
  unfold ofCall? at hcall
  split at hcall
  · cases hcall
  · split at hcall
    all_goals cases hcall
    all_goals
      rename_i hname hargs
      rw [navigate?, hname]
      refine ⟨by decide, ?_⟩
    · simpa [follow?, length_eq_zero_iff.1 hargs] using h
    · exact h
    · simpa [follow?, show call.args ≠ [] from fun heq => by simp [heq] at hargs] using h
    · exact h
    · exact h

lemma findings_lead (hs : s.Fit settled) (routes : List Route) :
    (∀ k, .known k ∈ findings s routes → k.Leads s) ∧
      ∀ k k', .known k ∈ findings s routes → .known k' ∈ findings s routes →
        k.method = k'.method → k.stmt = k'.stmt → k = k' := by
  have hsame {k : Known} (hk : .known k ∈ findings s routes) {stmt stmt' : Stmt}
      (h : stmt ∈ (s.program.body k.method).stmts) (h' : stmt' ∈ (s.program.body k.method).stmts)
      (hid : stmt.id = stmt'.id) : stmt = stmt' := by
    have hvalid : k.Valid s := findings_valid hs routes (.known k) hk
    exact inj_on_of_nodup_map (hs.bodies _ hvalid.lt hvalid.live).ids h h' hid
  refine ⟨fun k hk => ?_, fun k k' hk hk' hmethod hid => ?_⟩
  · obtain ⟨-, stmt, hstmt, hx⟩ := mem_findings hk
    obtain ⟨-, call, hcall⟩ := examine?_eq_known hx
    obtain ⟨hname, hnavigate⟩ := navigate?_of_follow? hcall.route hcall.target
    refine ⟨findings_valid hs routes (.known k) hk, fun stmt' hstmt' hid => ?_, hcall.owner,
      fun hroute => ?_⟩
    · obtain rfl := hsame hk hstmt' hstmt (hid.trans hcall.id.symm)
      exact hcall.action ▸ .lookup hcall.base hname hnavigate
    · have htarget := hcall.target
      rwa [hroute] at htarget
  · obtain ⟨-, stmt, hstmt, hx⟩ := mem_findings hk
    obtain ⟨-, stmt', hstmt', hx'⟩ := mem_findings hk'
    obtain ⟨-, call, hcall⟩ := examine?_eq_known hx
    obtain ⟨-, call', hcall'⟩ := examine?_eq_known hx'
    rw [← hmethod] at hstmt' hx'
    obtain rfl := hsame hk hstmt hstmt' (hcall.id.trans (hid.trans hcall'.id.symm))
    exact Finding.known.inj (some.inj (hx.symm.trans hx'))

lemma field_objects (hs : s.Fit settled) (hsited : s.Sited) (hm : s.model.Shape)
    (hroute : route = .container → s.model.container owner = some target) :
    Ensures (field owner target route) s fun f s' =>
      s.SameObjects s' ∧ s'.facts.object? f = some target ∧
        ∀ k < s.program.methods.size, ∀ stmt ∈ (s'.program.body k).stmts,
          stmt.id < (s.program.body k).nextStmt → stmt ∈ (s.program.body k).stmts := by
  refine (field_placed hs owner target route).mono ?_
  rintro f s' (⟨rfl, hf⟩ | ⟨rfl, hplaced⟩)
  · exact ⟨fun _ _ _ _ _ => rfl, hf, fun _ _ _ h _ => h⟩
  · exact hplaced.objects hs hsited hm hroute

lemma Known.Leads.turned {k : Known} (hk : k.Leads s) (hs : s.Fit settled)
    (hsited : s.Sited) (hf : s.facts.object? f = some k.target) :
    s.SameObjects (turned s k f) := by
  have hwf := (hs.bodies k.method hk.valid.lt hk.valid.live).toWellFormed
  refine .setBody hs hsited (.replace fun stmt hstmt hid => ?_) (le_refl _) fun l _ => ?_
  · exact (hk.finds stmt hstmt hid).target?_eq
  · exact congrArg (·.identity? l) (analyze_replace hwf hk.finds hf hk.base)

lemma applyAll_objects (hs : s.Fit settled) (hsited : s.Sited)
    (hm : s.model.Shape) (hleads : ∀ k, .known k ∈ found → k.Leads s)
    (honce : ∀ k k', .known k ∈ found → .known k' ∈ found → k.method = k'.method →
      k.stmt = k'.stmt → k = k') :
    Ensures (applyAll found) s fun _ s' => s.SameObjects s' := by
  induction found generalizing s with
  | nil => exact .pure fun _ _ _ _ _ => rfl
  | cons x found ih =>
    have honce' := fun k k' hk hk' => honce k k' (.tail _ hk) (.tail _ hk')
    cases x with
    | ambiguous m call => exact ih hs hsited hm (fun k hk => hleads k (.tail _ hk)) honce'
    | known k =>
      have hk := hleads k (.head _)
      refine ((field_ensures hs k.owner k.target k.route).and
        (field_objects hs hsited hm hk.container)).bind ?_
      rintro f s1 ⟨⟨hs1, h1, hkeeps1, hread⟩, hsame1, hfact, hstmts⟩
      have hsited1 := (h1.advances hs.layout).sited hsited
      have hleads1 (k' : Known) (hk' : .known k' ∈ Finding.known k :: found) : k'.Leads s1 :=
        have hold := hleads k' hk'
        hold.later h1.toExtends hkeeps1 hsame1 fun stmt hstmt hid =>
          .inl (hstmts _ hold.valid.lt stmt hstmt (hid ▸ hold.valid.plain.below))
      have hk1 := hleads1 k (.head _)
      obtain ⟨hs2, h2, hkeeps2⟩ := hk1.valid.turned hs1 hread
      have hsame2 := hk1.turned hs1 hsited1 hfact
      refine .bind (R := fun _ s' => s' = turned s1 k f) (.modify rfl) ?_
      rintro _ _ rfl
      refine (ih hs2 ((h2.advances hs1.layout).sited hsited1) (h1.model ▸ hm) (fun k' hk' => ?_)
        honce').mono fun _ s' hsame => hsame1.trans h1.toExtends hkeeps1
          (hsame2.trans h2.toExtends hkeeps2 hsame)
      have hold := hleads1 k' (.tail _ hk')
      refine hold.later h2.toExtends hkeeps2 hsame2 fun stmt hstmt hid => ?_
      have hstmt : stmt ∈ ((s1.program.setBody k.method _).body k'.method).stmts := hstmt
      by_cases hmethod : k'.method = k.method
      · rw [hmethod, setBody_body _ _ hk1.valid.lt] at hstmt
        rcases (Body.mem_replace (hs1.bodies _ hk1.valid.lt hk1.valid.live).ids).1 hstmt with
          ⟨hstmt, -⟩ | ⟨rfl, -⟩
        · exact .inl (hmethod ▸ hstmt)
        · -- The statement was found once, and what was found is what is read.
          obtain rfl := honce k' k (.tail _ hk') (.head _) hmethod hid.symm
          exact .inr ⟨f, rfl, hfact⟩
      · rw [setBody_body_of_ne _ _ hmethod] at hstmt
        exact .inl hstmt

lemma reduce_objects (hs : s.Fit settled) (hsited : s.Sited) (hm : s.model.Shape)
    (routes : List Route) : Ensures (reduce routes) s fun _ s' => s.SameObjects s' := by
  refine .get_bind ?_
  obtain ⟨all, hall⟩ := foldl_warn (s := s) (findings s routes) s
  obtain ⟨hs1, h1⟩ := hs.warned all
  refine .bind (.set (Q := fun _ s' => s' = { s with diagnostics := all }) hall) ?_
  rintro _ _ rfl
  obtain ⟨hleads, honce⟩ := findings_lead hs routes
  have hwarned (k : Known) (hk : .known k ∈ findings s routes) :
      k.Leads { s with diagnostics := all } :=
    (hleads k hk).later h1.toExtends (.refl s) (fun _ _ _ _ _ => rfl) fun stmt hstmt _ => .inl hstmt
  exact (applyAll_objects hs1 ((h1.advances hs.layout).sited hsited) hm hwarned honce).bind
    fun _ _ h => .pure h

open DataflowSpecializer.Specialization (Reached after? reached_of_after?)

/-- **Turning look-ups into reads does not change what locals refer to.**  This holds in every state
of a specialization and for look-ups of every kind. Afterwards every field on record for two objects
is one of the class of the first, and is known to refer to the second. -/
theorem reduce_keeps_identities (description : Description.Entity) (m : Model)
    (hm : ofDescription description = .ok m) (o : Options) (stages : List Stage)
    (s : Specialization) (hs : Reached m o stages s) (routes : List Route) (n : Nat)
    (s' : Specialization) (h : reduce routes s = .ok n s') :
    (∀ k < s.program.methods.size, s.program.isLiveMethod k →
      ∀ l : LocalId, (l : Nat) < (s.program.body k).locals.size →
        (s'.objectMap k).identity? l = (s.objectMap k).identity? l) ∧
      ∀ owner target f, s'.refFields.get? (owner, target) = some f →
        f < s'.program.fields.size ∧ s'.classOf? owner = some (s'.program.fieldDecl f).owner ∧
          s'.facts.object? f = some target := by
  have hshape : s.model.Shape := hs.sited.1 ▸ (wellBuilt_of_ofDescription hm).1.shape
  refine ⟨reduce_objects hs.fit hs.sited.2 hshape routes n s' h, fun owner target f hf => ?_⟩
  exact (reduce_ensures hs.fit routes n s' h).1.refFields (owner, target) f hf

/-- Once ports are read from fields, entities and containers are: constructors keep the container
that they are passed. -/
theorem reduce_keeps_identities_of_writtenParameter :
    ∃ m s n s', ofDescription Run.writtenParameter = .ok m ∧
      Reached m {} [.fieldsForPorts] s ∧ reduce toEntities s = .ok n s' ∧ 0 < n ∧
      s.program.fields.size < s'.program.fields.size ∧
      ∀ k < s.program.methods.size, s.program.isLiveMethod k →
        ∀ l : LocalId, (l : Nat) < (s.program.body k).locals.size →
          (s'.objectMap k).identity? l = (s.objectMap k).identity? l := by
  have h : ((ofDescription Run.writtenParameter).toOption.bind fun m =>
      (after? m {} [.fieldsForPorts]).bind fun s => EStateM.run' (reduce toEntities >>= fun n =>
        (fun s' => decide (0 < n ∧ s.program.fields.size < s'.program.fields.size)) <$> get) s) =
      some true := by
    decide +kernel
  obtain ⟨m, hm, h⟩ := bind_eq_some_iff.1 h
  obtain ⟨s, hs, h⟩ := bind_eq_some_iff.1 h
  have hm := toOption_eq_some.1 hm
  have hreached := reached_of_after? hs
  unfold EStateM.run' EStateM.run bind at h
  dsimp only [Monad.toBind, EStateM.instMonad, EStateM.bind] at h
  cases hreduce : reduce toEntities s with
  | error => simp [hreduce] at h
  | ok n s' =>
    rw [hreduce] at h
    obtain ⟨hn, hfields⟩ := of_decide_eq_true (some.inj h)
    exact ⟨m, s, n, s', hm, hreached, hreduce, hn, hfields,
      (reduce_keeps_identities _ m hm {} _ s hreached toEntities n s' hreduce).1⟩
end References
end DataflowSpecializer
