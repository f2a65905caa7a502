import DataflowSpecializer.Proofs.Fitness.Generation
import DataflowSpecializer.Reduce.References

/-! # Fields for references keep states fit -/
namespace DataflowSpecializer
open Platform DataflowSpecializer.Specialization List Option Body Program Draft Specialize
  DataflowSpecializer.Action FieldFacts

variable {r : List StmtId × Body}

lemma Body.insertAfter?_eq {b : Body} {id : StmtId} {as : List Action}
    (h : b.insertAfter? id as = some r) : ∃ pos, r = b.insertAt pos as := by
  obtain ⟨pos, -, rfl⟩ := map_eq_some_iff.1 h
  exact ⟨_, rfl⟩

lemma Body.insertBefore?_eq {b : Body} {id : StmtId} {as : List Action}
    (h : b.insertBefore? id as = some r) :
    ∃ pos, r = b.insertAt pos as := by
  obtain ⟨pos, -, rfl⟩ := map_eq_some_iff.1 h
  exact ⟨_, rfl⟩

lemma Draft.Tidy.inserted {d : Draft} {b : Body} (hd : d.Tidy P [])
    (hgrows : (ofBody b).Grows d) (pos : Nat) :
    (d.body.insertAt pos d.actions).2.Fits P ∧ b.Retains (d.body.insertAt pos d.actions).2 :=
  ⟨hd.insertAt pos, hgrows.retains.trans (.insertAt _ _ _)⟩

namespace Specialization
def Retains (s s' : Specialization) : Prop :=
  ∀ m < s.program.methods.size, s.program.isLiveMethod m →
    (s.program.body m).Retains (s'.program.body m)

variable {s s' s'' : Specialization} {settled : Bool}

lemma Retains.refl (s : Specialization) : s.Retains s := fun _ _ _ => .refl _

lemma Retains.trans (h : s.Retains s') (hs : s.Extends s') (h' : s'.Retains s'') :
    s.Retains s'' := fun m hm hlive =>
  (h m hm hlive).trans (h' m (hm.trans_le hs.program.methods)
    ((hs.program.isLiveMethod hm).trans hlive))

lemma Retains.setBody (h : (s.program.body m).Retains b) :
    s.Retains { s with program := s.program.setBody m b } := by
  intro k hk _
  by_cases hkm : k = m
  · subst hkm
    show (s.program.body k).Retains ((s.program.setBody k b).body k)
    rw [setBody_body _ _ hk]
    exact h
  · show (s.program.body k).Retains ((s.program.setBody m b).body k)
    rw [setBody_body_of_ne _ _ hkm]
    exact .refl _

lemma permits_read (hlt : f < s.program.fields.size)
    (hkind : s.ownerKind f ≠ .closure) (hlive : s.program.isLiveField f) (k : ClassId) :
    s.Permits settled k (.read f) := ⟨⟨hlt, .inr hkind⟩, .inl hlive⟩

lemma foldl_diagnostics {α : Type} {f : Specialization → α → Specialization}
    (hf : ∀ s x, ∃ all, f s x = { s with diagnostics := all }) (xs : List α) (s : Specialization) :
    ∃ all, xs.foldl f s = { s with diagnostics := all } := by
  induction xs generalizing s with
  | nil => exact ⟨s.diagnostics, rfl⟩
  | cons x xs ih =>
    obtain ⟨first, hfirst⟩ := hf s x
    obtain ⟨all, hall⟩ := ih (f s x)
    exact ⟨all, by rw [foldl_cons, hall, hfirst]⟩
end Specialization

namespace References
variable {s : Specialization} {settled : Bool} {c : ClassId} {s' : Specialization} {k : Known}
  {owner target : ObjectId} {routes : List Route}

/-! ## Setting a field -/
section Bodies
def Code (b b' : Body) (code : Drafting Unit) : Prop :=
  ∃ pos, b' = ((code.run (.ofBody b)).2.body.insertAt pos (code.run (.ofBody b)).2.actions).2

structure Inserted (P : Demand → Prop) (b b' : Body) (code : Drafting Unit) : Prop where
  tidy : (code.run (.ofBody b)).2.Tidy P []
  grows : (ofBody b).Grows (code.run (.ofBody b)).2
  body : Code b b' code

def containerCode (this param : LocalId) (type : CodeType) (f : FieldId) : Drafting Unit := do
  let c ← Draft.cast "container" type param
  storeField this f (.loc c)

def pathCode (s : Specialization) (this : LocalId) (up down : List ObjectId) (f : FieldId) :
    Drafting Unit := do
  let turn ← Draft.climb s this up
  let l ← descend s turn down
  storeField this f (.loc l)

/-- The code that sets the field of a reference: from the argument of the constructor, from the
local that has the reference, or from the end of the path to it. -/
inductive Stores (s : Specialization) (b : Body) (owner target : ObjectId) (f : FieldId)
    (route : Route) (site : Option (StmtId × LocalId)) : Drafting Unit → Prop
  | nothing : Stores s b owner target f route site (pure ())
  | container {this param : LocalId} {params : List LocalId} (hthis : b.receiver = some this)
      (hroute : route = .container) (hparams : b.params = param :: params) :
      Stores s b owner target f route site (containerCode this param (s.objectType target) f)
  | site {this l : LocalId} {at_ : StmtId} (hthis : b.receiver = some this)
      (hsite : site = some (at_, l)) :
      Stores s b owner target f route site (storeField this f (.loc l))
  | path {this : LocalId} {up down : List ObjectId} (hthis : b.receiver = some this)
      (hpath : path s.model owner target = .ok (up, down)) :
      Stores s b owner target f route site (pathCode s this up down f)

variable {P : Demand → Prop} [Liberal P] {b b' : Body} {f : FieldId} {owner target : ObjectId}
  {route : Route} {site : Option (StmtId × LocalId)} {code : Drafting Unit}

omit [Liberal P] in
lemma Inserted.fits (h : Inserted P b b' code) : b'.Fits P ∧ b.Retains b' := by
  obtain ⟨pos, rfl⟩ := h.body
  exact h.tidy.inserted h.grows pos

lemma Stores.tidy (h : Stores s b owner target f route site code) (hb : b.Fits P)
    (hsite : ∀ x ∈ site, (x.2 : Nat) < b.locals.size) (hP : P (.store f)) :
    Draft.TidyCode P [] [] b.locals.size code := by
  have hentry {this : LocalId} (hthis : b.receiver = some this) : (this : Nat) < b.locals.size :=
    hb.entry this (mem_append_left _ (mem_toList.2 hthis))
  cases h with
  | nothing => exact .pure fun _ _ => trivial
  | container hthis hroute hparams =>
    have hparam := hb.entry _ (mem_append_right _ (hparams ▸ mem_cons_self))
    exact (cast_tidy hparam).bind fun c _ h hc =>
      storeField_tidy ((hentry hthis).trans_le h) (by simpa) hP
  | site hthis hl => exact storeField_tidy (hentry hthis) (by simpa using hsite _ hl) hP
  | path hthis hpath =>
    have hthis := hentry hthis
    exact (climb_tidy hthis).bind fun turn n1 h1 hturn =>
      (descend_tidy hturn).bind fun l n2 h2 hl =>
        storeField_tidy (hthis.trans_le (h1.trans h2)) (by simpa) hP

lemma storeContainer_code (b : Body) (this param : LocalId) (type : CodeType) (f : FieldId) :
    Code b (storeContainer b this param type f) (containerCode this param type f) := by
  unfold storeContainer Code containerCode
  dsimp only
  split
  rename_i d hd
  rw [hd]
  split
  · rename_i r hr
    obtain ⟨at_, -, hr⟩ := bind_eq_some_iff.1 hr
    obtain ⟨pos, hpos⟩ := insertAfter?_eq hr
    exact ⟨pos, congrArg Prod.snd hpos⟩
  · exact ⟨0, rfl⟩

lemma storeAtSite_code (b : Body) (this : LocalId) (f : FieldId) (at_ : StmtId) (l : LocalId) :
    storeAtSite b this f at_ l = b ∨
      Code b (storeAtSite b this f at_ l) (storeField this f (.loc l)) := by
  unfold storeAtSite
  split
  · rename_i r hr
    obtain ⟨pos, hpos⟩ := insertAfter?_eq hr
    exact .inr ⟨pos, congrArg Prod.snd hpos⟩
  · exact .inl rfl

lemma storeReference_inserted (hb : b.Fits P)
    (hsite : ∀ x ∈ site, (x.2 : Nat) < b.locals.size) (hP : P (.store f))
    (h : storeReference s b owner target f route site = .ok b') :
    ∃ code, Stores s b owner target f route site code ∧ Inserted P b b' code := by
  have hinserted {code : Drafting Unit} (hcode : Stores s b owner target f route site code)
      (hbody : Code b b' code) :
      ∃ code, Stores s b owner target f route site code ∧ Inserted P b b' code :=
    have hrun := (hcode.tidy hb hsite hP).run hb
    ⟨code, hcode, hrun.1, hrun.2, hbody⟩
  have hsame (h : b' = b) : ∃ code, Stores s b owner target f route site code ∧
      Inserted P b b' code :=
    hinserted .nothing ⟨0, h.trans (b.insertAt_nil 0).symm⟩
  unfold storeReference at h
  split at h
  · cases h
    exact hsame rfl
  · rename_i this hthis
    split at h
    · rename_i param params hparams
      cases h
      exact hinserted (.container hthis rfl hparams) (storeContainer_code b this param _ f)
    · rename_i at_ l _
      cases h
      rcases storeAtSite_code b this f at_ l with h | h
      · exact hsame h
      · exact hinserted (.site hthis rfl) h
    · obtain ⟨⟨up, down⟩, hpath, h⟩ := bind_eq_ok.1 h
      cases h
      exact hinserted (.path hthis hpath) ⟨_, rfl⟩
end Bodies

lemma siteLocal?_lt (hs : s.Fit settled) (hc : c < s.program.classes.size)
    (hinit : s.program.method? c "<init>" = some init) (target : ObjectId) :
    ∀ x ∈ s.siteLocal? c target, (x.2 : Nat) < (s.program.body init).locals.size := by
  intro x hx
  obtain ⟨hm, hlive, -, -⟩ := hs.layout.method? hc hinit
  obtain ⟨site, -, hx⟩ := bind_eq_some_iff.1 hx
  obtain ⟨init', hinit', hx⟩ := bind_eq_some_iff.1 hx
  obtain ⟨stmt, hstmt, hx⟩ := bind_eq_some_iff.1 hx
  obtain ⟨l, hl, hx⟩ := bind_eq_some_iff.1 hx
  cases hx
  cases hinit.symm.trans hinit'
  exact (hs.bodies init hm hlive).locals stmt.action
    (List.mem_map_of_mem (mem_of_find?_eq_some hstmt)) l
    (mem_append_right _ (mem_toList.2 hl))

def withField (s : Specialization) (owner target : ObjectId) (p : Program) (facts : FieldFacts) :
    Specialization :=
  { s with
    program := p, facts := facts,
    refFields := s.refFields.insert (owner, target) s.program.fields.size }

def Placed (s s' : Specialization) (owner target : ObjectId) (route : Route) : Prop :=
  ∃ c p facts init b, s.classOf.get? owner = some c ∧ Program.NewField s.program p c ∧
    (p.fieldDecl s.program.fields.size).isFinal = false ∧
    s.facts.setObject s.program.fields.size target = .ok facts ∧
    p.method? c "<init>" = some init ∧
    storeReference (withField s owner target p facts) (p.body init) owner target
      s.program.fields.size route ((withField s owner target p facts).siteLocal? c target) = .ok b ∧
    s' = { withField s owner target p facts with program := p.setBody init b }

section
variable (hs : s.Fit settled)

include hs

lemma addField_placed (owner target : ObjectId) (route : Route) :
    Ensures (addField owner target route) s fun f s' =>
      f = s.program.fields.size ∧ Placed s s' owner target route := by
  refine classFor_ensures.bind ?_
  rintro c s ⟨rfl, hclass⟩
  have hp := addField_newField hs.layout (hs.objectClass hclass).lt
    (route.fieldName (s.model.name target)) (s.objectType target)
  have hfinal : (((s.program.addField c (route.fieldName (s.model.name target))
      (s.objectType target)).2).fieldDecl s.program.fields.size).isFinal = false := by
    rw [addField_fieldDecl_new]
  refine .get_bind ?_
  refine .bind (R := fun f s' => f = s.program.fields.size ∧ s' = { s with
      program := (s.program.addField c (route.fieldName (s.model.name target))
        (s.objectType target)).2 }) (onProgram_ensures ⟨rfl, rfl⟩) ?_
  generalize (s.program.addField c (route.fieldName (s.model.name target))
    (s.objectType target)).2 = p at hp hfinal
  rintro _ _ ⟨rfl, rfl⟩
  refine .bind (R := fun _ s' => ∃ facts, s.facts.setObject s.program.fields.size target = .ok facts ∧
    s' = { s with program := p, facts := facts })
    (onFacts_ensures fun facts hfacts => ⟨facts, hfacts, rfl⟩) ?_
  rintro _ _ ⟨facts, hfacts, rfl⟩
  refine .bind (R := fun _ s' => s' = withField s owner target p facts) (.modify rfl) ?_
  rintro _ _ rfl
  refine .get_bind (methodNamed_ensures.bind ?_)
  rintro init _ ⟨rfl, hinit⟩
  refine check_bind fun b hb => ?_
  refine .bind (.modify (Q := fun _ s' => s' = { withField s owner target p facts with
    program := p.setBody init b }) rfl) ?_
  rintro _ _ rfl
  exact .pure ⟨rfl, c, p, facts, init, b, hclass, hp, hfinal, hfacts, hinit, hb, rfl⟩

lemma withField_fit {p : Program} {facts : FieldFacts} (hclass : s.classOf.get? owner = some c)
    (hp : Program.NewField s.program p c)
    (hfinal : (p.fieldDecl s.program.fields.size).isFinal = false)
    (hfacts : s.facts.setObject s.program.fields.size target = .ok facts) :
    let s1 := withField s owner target p facts
    s1.Fit settled ∧ s.Spawns s1 ∧ s.Retains s1 ∧
      (∀ k, s1.Permits settled k (.read s.program.fields.size)) ∧
      s1.Permits settled c (.store s.program.fields.size) := by
  intro s1
  have hc := hs.objectClass hclass
  have hrefs (key : ObjectId × ObjectId) (f : FieldId)
      (hf : (s.refFields.insert (owner, target) s.program.fields.size).get? key = some f) :
      s.refFields.get? key = some f ∨ f = s.program.fields.size ∧ s.classOf.get? key.1 = some c ∧
        facts.object? f = some key.2 := by
    rcases SortedMap.get?_insert_eq_some hf with ⟨rfl, rfl⟩ | hf
    · exact .inr ⟨rfl, hclass, (object?_setObject hfacts _).trans (if_pos rfl)⟩
    · exact .inl hf
  obtain ⟨hfit, hext⟩ := hs.newField hp facts (fun _ _ => object?_keep hfacts)
    s.valueFields s.expressionFields _ (fun _ _ h => h) (fun _ _ => .inl) (fun _ _ h => h)
    (fun _ _ => .inl) hrefs
  have hstore := (Specialization.permits_newField settled hp (t := s1) rfl hfinal).2
  refine ⟨hfit, ⟨hext, fun k _ => hp.sameMembers k, rfl, hp.continues, rfl⟩, fun m _ _ => ?_,
    permits_read hstore.1.lt ?_ ?_, hstore⟩
  · show (s.program.body m).Retains (p.body m)
    rw [hp.body]
    exact .refl _
  · show (p.classDecl (p.fieldDecl s.program.fields.size).owner).kind ≠ .closure
    rw [hp.owner]
    exact (hext.objectClass hc).kind
  · show p.isLiveField _
    rw [isLiveField, hp.live]
    rfl

lemma Placed.fit (h : Placed s s' owner target route) :
    s'.Fit settled ∧ s.Spawns s' ∧ s.Retains s' ∧
      ∀ k, s'.Permits settled k (.read s.program.fields.size) := by
  obtain ⟨c, p, facts, init, b, hclass, hp, hfinal, hfacts, hinit, hb, rfl⟩ := h
  obtain ⟨hfit, hspawns, hretains, hread, hstore⟩ := withField_fit hs hclass hp hfinal hfacts
  have hc := hspawns.toExtends.objectClass (hs.objectClass hclass)
  obtain ⟨hm, hlive, howner, -⟩ := hfit.layout.method? hc.lt hinit
  obtain ⟨code, -, hinserted⟩ := storeReference_inserted (hfit.bodies init hm hlive)
    (siteLocal?_lt hfit hc.lt hinit target) (howner.symm ▸ hstore) hb
  obtain ⟨hb, hkeeps⟩ := hinserted.fits
  obtain ⟨hfit', hspawns'⟩ := hfit.changeBody (fun _ _ => hb) hkeeps.nextStmt
  exact ⟨hfit', hspawns.trans hspawns', hretains.trans hspawns.toExtends (.setBody hkeeps),
    fun k => hspawns'.permits hfit.layout (hread k)⟩

lemma field_ensures (owner target : ObjectId) (route : Route) :
    Ensures (field owner target route) s fun f s' =>
      s'.Fit settled ∧ s.Spawns s' ∧ s.Retains s' ∧ ∀ k, s'.Permits settled k (.read f) := by
  refine .get_bind ?_
  split
  · rename_i f hf
    obtain ⟨hf, hlive⟩ := filter_eq_some_iff.1 hf
    obtain ⟨hlt, hclass, -⟩ := hs.refFields _ f hf
    exact .pure ⟨hs, .refl s, .refl s, permits_read hlt (hs.registry _ _ hclass).2.1 hlive⟩
  · refine (addField_placed hs owner target route).mono ?_
    rintro _ _ ⟨rfl, h⟩
    exact h.fit hs
end

/-! ## Reduction -/
structure Known.Valid (s : Specialization) (k : Known) : Prop where
  lt : k.method < s.program.methods.size
  live : s.program.isLiveMethod k.method
  plain : (s.program.body k.method).Plain k.stmt
  result : k.result < (s.program.body k.method).locals.size
  base : k.base < (s.program.body k.method).locals.size

def Finding.Valid (s : Specialization) : Finding → Prop
  | .known k => k.Valid s
  | .ambiguous _ _ => True

lemma Known.Valid.later (hk : k.Valid s) (h : s.Extends s')
    (hretains : s.Retains s') : k.Valid s' where
  lt := hk.lt.trans_le h.program.methods
  live := (h.program.isLiveMethod hk.lt).trans hk.live
  plain := (hretains _ hk.lt hk.live).plain _ hk.plain
  result := hk.result.trans_le (hretains _ hk.lt hk.live).size
  base := hk.base.trans_le (hretains _ hk.lt hk.live).size

lemma Finding.Valid.later {x : Finding} (hx : x.Valid s)
    (h : s.Extends s') (hretains : s.Retains s') : x.Valid s' := by
  cases x with
  | known k => exact Known.Valid.later hx h hretains
  | ambiguous m call => trivial

structure Known.From (s : Specialization) (map : ObjectMap) (k : Known) (stmt : Stmt)
    (call : Invocation) : Prop where
  id : stmt.id = k.stmt
  action : stmt.action = .set k.result (.invoke call)
  route : Route.ofCall? call = some k.route
  base : call.base = some k.base
  owner : map.identity? k.base = some (.object k.owner)
  target : k.route.follow? s.model k.owner call = some k.target

lemma examine?_eq_known {m : MethodId} {map : ObjectMap} {stmt : Stmt}
    (h : examine? s routes m map stmt = some (.known k)) :
    m = k.method ∧ ∃ call, k.From s map stmt call := by
  obtain ⟨result, hresult, h⟩ := bind_eq_some_iff.1 h
  obtain ⟨call, hcall, h⟩ := bind_eq_some_iff.1 h
  obtain ⟨route, hroute, h⟩ := bind_eq_some_iff.1 h
  obtain ⟨base, hbase, h⟩ := bind_eq_some_iff.1 h
  obtain ⟨identity, hidentity, h⟩ := bind_eq_some_iff.1 h
  cases identity with
  | ambiguous => cases h
  | object owner =>
    obtain ⟨-, -, h⟩ := bind_eq_some_iff.1 h
    obtain ⟨target, htarget, h⟩ := bind_eq_some_iff.1 h
    obtain rfl := Finding.known.inj (some.inj h)
    exact ⟨rfl, call, rfl, eq_set_invoke hresult hcall, (filter_eq_some_iff.1 hroute).1,
      hbase, hidentity, htarget⟩

lemma mem_findings (h : .known k ∈ findings s routes) :
    k.method ∈ s.program.allLiveMethods ∧ ∃ stmt ∈ (s.program.body k.method).stmts,
      examine? s routes k.method (s.objectMap k.method) stmt = some (.known k) := by
  obtain ⟨m, hm, h⟩ := mem_flatMap.1 h
  obtain ⟨stmt, hstmt, h⟩ := mem_filterMap.1 h
  obtain ⟨rfl, -⟩ := examine?_eq_known h
  exact ⟨hm, stmt, hstmt, h⟩

lemma findings_valid (hs : s.Fit settled) (routes : List Route) :
    ∀ x ∈ findings s routes, x.Valid s := by
  intro x hx
  cases x with
  | ambiguous m call => trivial
  | known k =>
    obtain ⟨hm, stmt, hstmt, hx⟩ := mem_findings hx
    obtain ⟨-, call, hk⟩ := examine?_eq_known hx
    obtain ⟨hlt, hlive⟩ := hs.mem_allLiveMethods hm
    have hb := hs.bodies k.method hlt hlive
    have hlocals := hb.locals stmt.action (List.mem_map_of_mem hstmt)
    have hplain := Body.Plain.of_mem hb hstmt (by rw [hk.action]; rfl)
    rw [hk.action] at hlocals
    refine ⟨hlt, hlive, hk.id ▸ hplain, hlocals _ (target?_mem_mentions rfl),
      hlocals _ (mem_append_left _ (mem_append_left _ ?_))⟩
    exact mem_toList.2 hk.base

def turned (s : Specialization) (k : Known) (f : FieldId) : Specialization :=
  let b := ((s.program.body k.method).replace k.stmt (.set k.result (.field k.base f))).2
  { s with program := s.program.setBody k.method b }

lemma Known.Valid.turned (hs : s.Fit settled) (hk : k.Valid s)
    (hread : ∀ c, s.Permits settled c (.read f)) :
    (turned s k f).Fit settled ∧ s.Spawns (turned s k f) ∧ s.Retains (turned s k f) := by
  have hb := (hs.bodies k.method hk.lt hk.live).replace hk.plain (l := k.result)
    (v := .field k.base f)
    (by simp [mentions, Action.set, Action.uses, target?, Rvalue.locals, hk.result, hk.base])
    (by simpa [Action.set, demands, Rvalue.demands] using hread _)
  obtain ⟨hs', h'⟩ := hs.changeBody (fun _ _ => hb) .refl
  exact ⟨hs', h', .setBody (.replace (s.program.body k.method) k.stmt k.result (.field k.base f))⟩

lemma applyAll_ensures (hs : s.Fit settled) (hfound : ∀ x ∈ found, x.Valid s) :
    Ensures (applyAll found) s fun _ s' => s'.Fit settled ∧ s.Spawns s' := by
  induction found generalizing s with
  | nil => exact .pure ⟨hs, .refl s⟩
  | cons x found ih =>
    have hrest := fun y hy => hfound y (.tail _ hy)
    cases x with
    | ambiguous m call => exact ih hs hrest
    | known k =>
      refine (field_ensures hs k.owner k.target k.route).bind ?_
      rintro f s1 ⟨hs1, h1, hkeeps, hread⟩
      have hk : k.Valid s1 := Known.Valid.later (hfound _ (.head _)) h1.toExtends hkeeps
      obtain ⟨hs2, h2, hkeeps2⟩ := hk.turned hs1 hread
      refine .bind (R := fun _ s' => s' = turned s1 k f) (.modify rfl) ?_
      rintro _ s2 rfl
      refine (ih hs2 fun y hy => (hrest y hy).later (h1.trans h2).toExtends
        (hkeeps.trans h1.toExtends hkeeps2)).mono ?_
      exact fun _ s' h' => ⟨h'.1, (h1.trans h2).trans h'.2⟩

lemma foldl_warn (found : List Finding) (t : Specialization) : ∃ all, found.foldl
      (fun t finding => match finding with
        | .ambiguous m call => t.warn (warning s m call)
        | .known _ => t) t = { t with diagnostics := all } := by
  refine foldl_diagnostics (fun t x => ?_) found t
  cases x with
  | ambiguous m call | known k => exact ⟨_, rfl⟩

lemma reduce_ensures (hs : s.Fit settled) (routes : List Route) :
    Ensures (reduce routes) s fun _ s' => s'.Fit settled ∧ s.Spawns s' := by
  refine .get_bind ?_
  obtain ⟨all, hall⟩ := foldl_warn (s := s) (findings s routes) s
  obtain ⟨hs1, h1⟩ := hs.warned all
  refine .bind (.set (Q := fun _ s' => s' = { s with diagnostics := all }) hall) ?_
  rintro _ _ rfl
  have hvalid : ∀ x ∈ findings s routes, x.Valid { s with diagnostics := all } := fun x hx =>
    (findings_valid hs routes x hx).later h1.toExtends (.refl s)
  exact (applyAll_ensures hs1 hvalid).bind fun _ s' h' => .pure ⟨h'.1, h1.trans h'.2⟩
end References
end DataflowSpecializer
