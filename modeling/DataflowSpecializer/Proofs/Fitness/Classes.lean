import DataflowSpecializer.Proofs.Fitness.Actors
import DataflowSpecializer.Proofs.Fitness.Creation
import DataflowSpecializer.Proofs.Fitness.Sites

/-! # Classes that fit -/
namespace DataflowSpecializer.Classes
open Platform Draft DataflowSpecializer.Specialization List Option SortedMap Specialize Template
  Model Generation Program

variable {m : Model} {className : String}

variable {settled strict : Bool} {c : ClassId} {q : Option Nat} {V W : List Label}
  {s : Specialization} {n : Nat} {this : Nat} {o : ObjectId} {done : List ObjectId}
  {os : List ObjectId} {p : Placed} {superclass : String} {s' : Specialization} {P : Demand → Prop}

/-! ## Constructors -/
def Placed.Taken (p : Placed) (n : Nat) : Prop := ∀ o l, p.locals.get? o = some l → (l : Nat) < n

lemma Placed.Taken.mono {n' : Nat} (h : p.Taken n) (hn : n ≤ n') : p.Taken n' :=
  fun o l hl => (h o l hl).trans_le hn

lemma Placed.taken_empty : Placed.empty.Taken n := fun _ _ h => by cases h

section Drafts
variable {P : Demand → Prop} {p : Placed} {o : ObjectId}

lemma note_tidy {l back : Nat} {created : Bool} (hp : p.Taken n) (hl : l < n) :
    Tidies P V W n (p.note o l back created) (fun _ => W) fun n p => p.Taken n := by
  refine .get_bind fun d _ hn => .pure fun n' hn' o' l' h => ?_
  rw [get?_insert] at h
  split at h
  · cases h
    exact hl.trans_le (hn.trans hn')
  · exact (hp o' l' h).trans_le (hn.trans hn')

lemma create_tidy {extra : List Operand} (hthis : this < n)
    (hp : p.Taken n) (hextra : OperandsTaken n extra) (hP : P (.new className)) :
    Tidies P V W n (create m this p o className extra) (fun _ => W)
      fun n r => (r.1 : Nat) < n ∧ r.2.Taken n := by
  refine (newObject_tidy (operandsTaken_append (by simpa) hextra) hP).bind fun l n1 h1 hl =>
    (note_tidy (hp.mono h1) hl).bind fun p n2 h2 hp => .pure fun n3 h3 => ?_
  exact ⟨hl.trans_le (h2.trans h3), hp.mono h3⟩

lemma createEntity_tidy (hP : ∀ o, P (.new (s.className o))) (hthis : this < n) (hp : p.Taken n) :
    Tidies P V W n (createEntity s this p o) (fun _ => W) fun n p => p.Taken n :=
  (create_tidy hthis hp (by simp) (hP o)).bind fun _ _ _ ⟨_, hp1⟩ => .pure fun _ h => hp1.mono h

lemma createAll_tidy {step : Placed → ObjectId → Drafting Placed}
    (hstep : ∀ {n : Nat} {p : Placed} {o : ObjectId}, this < n → p.Taken n →
      Tidies P V W n (step p o) (fun _ => W) fun n p => p.Taken n) (os : List ObjectId)
    (hthis : this < n) (hp : p.Taken n) :
    Tidies P V W n (createAll step p os) (fun _ => W) fun n p => p.Taken n := by
  induction os generalizing p n with
  | nil => exact .pure fun _ h => hp.mono h
  | cons o os ih => exact (hstep hthis hp).bind fun p1 n1 h1 hp1 => ih (hthis.trans_le h1) hp1

variable [Liberal P]

lemma notePort_tidy (port : Option ObjectId) (hl : l < n) (hp : p.Taken n) :
    Tidies P V W n (match port with
      | some port => do
        let q ← Draft.callValue l getParameterPort []
        p.note port q 1 true
      | none => pure p) (fun _ => W) fun n p => p.Taken n := by
  split
  · exact (callValue_tidy hl (by simp) (by decide)).bind
      fun q n1 h1 hq => note_tidy (hp.mono h1) hq
  · exact .pure fun _ h => hp.mono h

lemma createAttribute_tidy (hP : ∀ o, P (.new (s.className o))) (hthis : this < n)
    (hp : p.Taken n) :
    Tidies P V W n (createAttribute s this p o) (fun _ => W) fun n p => p.Taken n := by
  unfold createAttribute
  split
  · rename_i v _
    have hclass : P (.new (if v.isPortParameter then portParameterClass else parameterClass)) := by
      split <;> exact Liberal.new (by decide)
    refine (create_tidy hthis hp (by simp) hclass).bind ?_
    rintro ⟨l, p1⟩ n1 h1 ⟨hl, hp1⟩
    dsimp only
    split
    · exact (call_tidy hl (by simp) (by decide)).bind fun _ _ h2 _ =>
        notePort_tidy v.port (hl.trans_le h2) (hp1.mono h2)
    · exact notePort_tidy v.port hl hp1
  · refine (create_tidy hthis hp (by simp) (Liberal.new (by decide))).bind ?_
    rintro r n1 h1 ⟨hl, hp1⟩
    exact (call_tidy hl (by simp) (by decide)).bind fun _ _ h2 _ => .pure fun _ h =>
      hp1.mono (h2.trans h)
  · exact (create_tidy hthis hp (by simp) (hP o)).bind fun r n1 h1 hr =>
      .pure fun _ h => hr.2.mono h
  · exact .pure fun _ h => hp.mono h

lemma createPort_tidy (hthis : this < n) (hp : p.Taken n) :
    Tidies P V W n (createPort s this p o) (fun _ => W) fun n p => p.Taken n := by
  unfold createPort
  split
  · exact .pure fun _ h => hp.mono h
  · split
    · exact .pure fun _ h => hp.mono h
    · refine (create_tidy hthis hp (by simp) (Liberal.new (by decide))).bind ?_
      rintro ⟨l, p1⟩ n1 h1 ⟨hl, hp1⟩
      dsimp only
      split
      · exact (call_tidy hl (by simp) (by decide)).bind fun _ _ h2 _ => .pure fun _ h =>
          hp1.mono (h2.trans h)
      · exact .pure fun _ h => hp1.mono h

lemma createRelation_tidy (hthis : this < n) (hp : p.Taken n) :
    Tidies P V W n (createRelation s this p o) (fun _ => W) fun n p => p.Taken n :=
  (create_tidy hthis hp (by simp) (Liberal.new (by decide))).bind fun _ _ _ ⟨_, hp1⟩ =>
    .pure fun _ h => hp1.mono h
end Drafts

lemma tidies_and_gives {α : Type} {x : Drafting α} {W' : α → List Label}
    {Q : Nat → α → Prop} {R : α → Prop} {b : Prop} (hx : Tidies P V W n x W' Q)
    (h : b → Gives x R) : Tidies P V W n x W' fun n a => Q n a ∧ (b → R a) := by
  intro d hd hV hn
  obtain ⟨htidy, hgrows, hQ⟩ := hx hd hV hn
  exact ⟨htidy, hgrows, hQ, fun hb => h hb d⟩

lemma linkedPort_generates {relation port : ObjectId} (hp : p.Taken n)
    (hport : q.isSome → p.Reaches m port) :
    Generates settled c q V W s n (linkedPort m relation p port) (fun _ => W)
      fun n r => (r.1 : Nat) < n ∧ r.2.Taken n ∧ p.Finds r.2 := by
  unfold linkedPort
  split
  · rename_i l hl
    exact .pure fun _ h => ⟨(hp port l hl).trans_le h, hp.mono h, .refl p⟩
  · rename_i hnone
    split
    · rename_i hout
      refine .throw fun hstrict => ?_
      rcases hport hstrict with h | ⟨e, he, h⟩
      · rw [hnone] at h
        cases h
      · rw [he, bind_some] at hout
        rw [hout] at h
        cases h
    · rename_i owner howner
      obtain ⟨container, -, hl⟩ := bind_eq_some_iff.1 howner
      refine .draft_bind (fun _ _ => lookup_tidy (hp container owner hl)) fun l n1 h1 hl =>
        .draft_bind (fun _ _ => tidies_and_gives (note_tidy (hp.mono h1) hl)
          fun _ : True => p.note_adds port l 2 false) fun p n2 h2 ⟨hp2, hadds⟩ => .pure fun _ h => ?_
      exact ⟨hl.trans_le (h2.trans h), hp2.mono h, [port], hadds trivial⟩

lemma linkPorts_generates {relation : ObjectId} {l : Nat}
    (ports : List ObjectId) (hl : l < n) (hp : p.Taken n)
    (hports : q.isSome → ∀ port ∈ ports, p.Reaches m port) :
    Generates settled c q V W s n (linkPorts m relation l p ports) (fun _ => W)
      fun n p' => p'.Taken n ∧ p.Finds p' := by
  induction ports generalizing p n with
  | nil => exact .pure fun _ h => ⟨hp.mono h, .refl p⟩
  | cons port ports ih =>
    refine (linkedPort_generates hp fun h => hports h port (.head _)).bind
      fun r n1 h1 ⟨hq, hp1, hfinds⟩ =>
        .draft_bind (fun _ _ => call_tidy hq (by simp; omega) (by decide)) fun _ n2 h2 _ => ?_
    exact (ih (by omega) (hp1.mono h2) fun h port hport =>
      hfinds.reaches (hports h port (.tail _ hport))).post
        fun _ _ _ ⟨hp2, hfinds2⟩ => ⟨hp2, hfinds.trans hfinds2⟩

lemma linkRelations_generates (relations : List ObjectId) (hn : 0 < n) (hp : p.Taken n)
    (hports : q.isSome → ∀ r ∈ relations, ∀ port ∈ (m.object r).links, p.Reaches m port) :
    Generates settled c q V W s n (linkRelations m p relations) (fun _ => W)
      fun n p' => p'.Taken n ∧ p.Finds p' := by
  induction relations generalizing p n with
  | nil => exact .pure fun _ h => ⟨hp.mono h, .refl p⟩
  | cons r relations ih =>
    have hl : ((p.locals.get? r).getD 0 : Nat) < n := by
      cases h : p.locals.get? r with
      | none => exact hn
      | some l => exact hp r l h
    refine (linkPorts_generates _ hl hp fun h => hports h r (.head _)).bind
      fun p1 n1 h1 ⟨hp1, hfinds⟩ => ?_
    exact (ih (hn.trans_le h1) hp1 fun h r hr port hport =>
      hfinds.reaches (hports h r (.tail _ hr) port hport)).post
        fun _ _ _ ⟨hp2, hfinds2⟩ => ⟨hp2, hfinds.trans hfinds2⟩

structure Intact (s : Specialization) : Prop where
  live : ∀ k < s.program.classes.size, (s.program.classDecl k).removed = false
  platform : ∀ k < s.program.classes.size, (s.program.classDecl k).kind ≠ .closure →
    isNumbered (s.program.classDecl k).superclass = false

lemma Intact.extends (h : Intact s) (hs : s.Extends s') : Intact s' := by
  refine ⟨fun k hk => ?_, fun k hk hkind => ?_⟩
  · by_cases hlt : k < s.program.classes.size
    · rw [hs.program.removed hlt]
      exact h.live k hlt
    · exact (hs.program.newClass k hk (Nat.not_lt.1 hlt)).1
  · by_cases hlt : k < s.program.classes.size
    · rw [hs.program.kind hlt] at hkind
      rw [hs.program.superclass hlt]
      exact h.platform k hlt hkind
    · exact absurd (hs.program.newClass k hk (Nat.not_lt.1 hlt)).2 hkind

lemma Intact.permits (h : Intact s) (className : String) : s.Permits settled c (.new className) :=
  .inr fun k hk hremoved => absurd (h.live k hk) (by simp [hremoved])

lemma constructor_generates {s0 : Specialization}
    (hs : Intact s) (hsuper : isNumbered superclass = false)
    (hmodel : q.isSome → s0.model.Shape ∧ s0.model.Paired)
    (hparams : ∀ k ∈ q, o ≠ Model.top → 2 ≤ k) :
    Generates settled c q V W s n (constructor s0 o superclass) (fun _ => W) fun _ p =>
      q.isSome → ∃ found : List ObjectId,
        p.marks = (creates s0.model o).map (·, true) ++ found.map (·, false) := by
  have hnew {s' : Specialization} (h : s.Extends s') (className : String) :
      s'.Permits settled c (.new className) := (hs.extends h).permits className
  have hfamily (h : q.isSome) (f : Model.Family) {x : ObjectId}
      (hx : x ∈ (s0.model.object o).contents f) : s0.model.family x = f :=
    (((hmodel h).1.mem_contents o f x).1 hx).2
  have hcontents {this n : Nat} (hthis : this < n) : Generates settled c q V W s n (do
        let p ← createAll (createAttribute s0 this) .empty (s0.model.object o).attributes
        let p ← createAll (createPort s0 this) p (s0.model.object o).ports
        let p ← createAll (createEntity s0 this) p (s0.model.object o).entities
        let p ← createAll (createRelation s0 this) p (s0.model.object o).relations
        let p ← linkRelations s0.model p (s0.model.object o).relations
        Draft.ret none
        return p) (fun _ => W) fun _ p => q.isSome → ∃ found : List ObjectId,
          p.marks = (creates s0.model o).map (·, true) ++ found.map (·, false) := by
    refine .draft_bind (fun _ h => tidies_and_gives (createAll_tidy (createAttribute_tidy
      fun _ => hnew h _) _ hthis Placed.taken_empty) fun h => createAll_adds _ fun _ _ ha =>
        createAttribute_adds (hfamily h .attribute ha)) fun p1 n1 h1 ⟨hp1, hadds1⟩ => ?_
    refine .draft_bind (fun _ _ => tidies_and_gives (createAll_tidy createPort_tidy _ (by omega) hp1)
      fun h => createAll_adds _ fun _ _ ha => createPort_adds (hfamily h .port ha))
        fun p2 n2 h2 ⟨hp2, hadds2⟩ => ?_
    refine .draft_bind (fun _ h => tidies_and_gives (createAll_tidy (createEntity_tidy
      fun _ => hnew h _) _ (by omega) hp2) fun _ : q.isSome = true =>
        createAll_adds _ fun _ _ _ => createEntity_adds)
        fun p3 n3 h3 ⟨hp3, hadds3⟩ => ?_
    refine .draft_bind (fun _ _ => tidies_and_gives (createAll_tidy createRelation_tidy _ (by omega)
      hp3) fun _ : q.isSome = true => createAll_adds _ fun _ _ _ => createRelation_adds)
        fun p4 n4 h4 ⟨hp4, hadds4⟩ => ?_
    have hcreates (h : q.isSome) : Placed.empty.Adds ((creates s0.model o).map (·, true)) p4 :=
      adds_creates (hadds1 h) (hadds2 h) (hadds3 h) (hadds4 h)
    have hreaches (h : q.isSome) : ∀ r ∈ (s0.model.object o).relations,
        ∀ port ∈ (s0.model.object r).links, p4.Reaches s0.model port := by
      obtain ⟨hm, hpaired⟩ := hmodel h
      refine fun r hr port => reaches_of_linked hm (fun x hx => ?_) hr
      refine ((hcreates h).known x).2 (.inr ?_)
      simpa using (mem_creates_iff hm hpaired).2 hx
    refine (linkRelations_generates _ (by omega) hp4 hreaches).bind fun p5 n5 h5 ⟨_, found, hfound⟩ =>
      .draft_bind (fun _ _ => ret_tidy (by simp)) fun _ _ _ _ => .pure fun _ _ h => ⟨found, ?_⟩
    rw [hfound.marks, (hcreates h).marks]
    rfl
  refine receiver_generates.bind fun this n1 h1 hthis => ?_
  split
  · exact .draft_bind (fun _ _ => callSpecial_tidy hthis (by simp) rfl hsuper) fun _ n2 h2 _ =>
      .draft_bind (fun _ _ => call_tidy (by omega) (by simp) (by decide)) fun _ n3 h3 _ =>
        hcontents (by omega)
  · rename_i hne
    have hparam (k : Nat) (hk : k ∈ q) : 2 ≤ k := hparams k hk hne
    exact (param_generates fun k hk => by have := hparam k hk; omega).bind
      fun container n2 h2 hcontainer => (param_generates hparam).bind fun name n3 h3 hname =>
        .draft_bind (fun _ _ => callSpecial_tidy (by omega) (by simp; omega) rfl hsuper)
          fun _ n4 h4 _ => hcontents (by omega)

lemma recordSites_ensures (sites : List (ObjectId × StmtId × Bool)) :
    Ensures (recordSites o k sites) s fun _ s' => ∃ ledger all,
      s' = { s with ledger := ledger, sites := all } ∧
        ∀ key site, all.get? key = some site → s.sites.get? key = some site ∨
          key.1 = k ∧ ∃ x ∈ sites, site.stmt = x.2.1 := by
  induction sites generalizing s with
  | nil => exact .pure ⟨s.ledger, s.sites, rfl, fun _ _ => .inl⟩
  | cons x sites ih =>
    obtain ⟨child, stmt, created⟩ := x
    have hsite {s1 : Specialization} (hs1 : ∃ ledger, s1 = { s with ledger := ledger }) :
        Ensures (do
          recordSite k child stmt created
          recordSites o k sites) s1 fun _ s' => ∃ ledger all,
            s' = { s with ledger := ledger, sites := all } ∧
              ∀ key site, all.get? key = some site → s.sites.get? key = some site ∨
                key.1 = k ∧ ∃ x ∈ (child, stmt, created) :: sites, site.stmt = x.2.1 := by
      obtain ⟨ledger, rfl⟩ := hs1
      refine .bind (R := fun _ s' => ∃ all, s' = { s with ledger := ledger, sites := all } ∧
        ∀ key site, all.get? key = some site → s.sites.get? key = some site ∨
          key.1 = k ∧ site.stmt = stmt) (.modify ?_) ?_
      · split
        · exact ⟨s.sites, rfl, fun _ _ => .inl⟩
        · refine ⟨_, rfl, fun key site h => ?_⟩
          rcases get?_insert_eq_some h with ⟨rfl, rfl⟩ | h
          · exact .inr ⟨rfl, rfl⟩
          · exact .inl h
      · rintro _ _ ⟨all, rfl, hall⟩
        refine ih.mono ?_
        rintro _ _ ⟨ledger', all', rfl, hall'⟩
        refine ⟨ledger', all', rfl, fun key site h => ?_⟩
        rcases hall' key site h with h | ⟨hkey, x, hx, hstmt⟩
        · exact (hall key site h).imp_right fun h => ⟨h.1, _, (.head _), h.2⟩
        · exact .inr ⟨hkey, x, .tail _ hx, hstmt⟩
    unfold recordSites
    split
    · refine .bind (R := fun _ s' => ∃ ledger, s' = { s with ledger := ledger }) ?_
        fun _ _ => hsite
      refine .get_bind (.bind (.set (Q := fun _ s' => s' = _) rfl) ?_)
      rintro _ _ rfl
      split
      · exact .throw
      · exact .pure ⟨_, rfl⟩
    · exact hsite ⟨s.ledger, rfl⟩

def Located (s : Specialization) : Prop :=
  s.Sited ∧ ∀ key site, s.sites.get? key = some site → s.program.HasMethod key.1 "<init>"

structure Ready (m : Model) : Prop where
  shape : m.Shape
  paired : m.Paired
  equipped : ∀ o, m.Equipped o
  director : (m.director? Model.top).isSome
  top : m.actorKind? Model.top = none

lemma addConstructor_runs {made : List ObjectId} (hs : s.Fit settled)
    (hintact : Intact s) (hsites : Located s) (ho : s.classOf.get? o = some c)
    (hnames : s.Populated [] c)
    (hrecords : strict → Ready s.model ∧ s.Staffed ∧ Tallied s.model made s ∧
      (made ++ creates s.model o).Nodup) :
    Runs strict (addConstructor o c) s fun _ s' => s'.Fit settled ∧ Populates c ["<init>"] s s' ∧
      s'.program.HasMethod c "<init>" ∧ Located s' ∧
        (strict → s'.Staffed ∧ Tallied s.model (made ++ creates s.model o) s') := by
  have hc := hs.objectClass ho
  have hempty : (s.program.classDecl c).methods = [] :=
    eq_nil_iff_forall_not_mem.2 fun m hm => absurd (hnames m hm) not_mem_nil
  refine (addMethod_runs hs hc.lt hc.live
    ((isMethodName_object hc.kind).2 (.inl (by decide))) _ _ fun _ m hm => ?_).bind
      fun m s1 h1 => .get_bind ?_
  · exact absurd (hnames m hm) not_mem_nil
  have hc1 := (h1.objectClass hc).lt
  have hintact1 := hintact.extends h1.toExtends
  have hplatform := hintact1.platform c hc1 (h1.objectClass hc).kind
  refine .bind (writeBody_runs (N := fun p d => ∀ x ∈ p.sites, x.2.1 < d.pending.size)
    h1.fit h1.lt (h1.fit.bodies m h1.lt h1.live) (fun hstrict => ⟨⟨(h1.keeps hstrict).typed (hrecords hstrict).2.1.typed, h1.entry⟩, rfl, rfl⟩)
    (constructor_generates hintact1 hplatform (fun hstrict => ?_) fun k hk hne => ?_)
    (fun _ => NotesCode.constructor _) rfl fun _ _ hd =>
    ⟨hd.finish, Nat.le_add_right _ _, fun _ => rfl⟩) ?_
  · obtain ⟨hm, -⟩ := hrecords (by simpa using hstrict)
    rw [h1.model]
    exact ⟨hm.shape, hm.paired⟩
  · rw [(mem_arityIf hk).2, h1.params, if_neg hne]
    exact Nat.le_refl 2
  rintro _ s2 ⟨h2, p, d, hmarks, hp, rfl, hbody⟩
  have hinit := h2.program.hasMethod ⟨m, h1.lt, h1.live, h1.owner, h1.name⟩
  have hinstalls := h1.toInstalls.trans (h2.installs hc1 _) hc.lt
  have hadds := hinstalls.toAdds.toPopulates
  refine ((recordSites_ensures _).runs_if
    (R := fun _ s' => Tallied s.model (made ++ creates s.model o) s') fun hstrict => ?_).mono ?_
  · obtain ⟨hm, -, htallied, hnodup⟩ := hrecords hstrict
    obtain ⟨found, hmarks⟩ := hmarks (by simpa using hstrict)
    rw [h1.model] at hmarks
    refine recordSites_runs _ (List.map_map.trans hmarks) (htallied.congr (hinstalls.keeps hstrict).ledger hinstalls.sites
      hinstalls.classOf) hnodup (fun x hx => (mem_creates_iff hm.shape hm.paired).1 hx)
      (fun x hx => mem_append_right _ ((mem_creates_iff hm.shape hm.paired).2 hx)) fun o' => ?_
    rw [hinstalls.classOf]
    refine ⟨fun ho' => ?_, fun h => h ▸ ho⟩
    by_contra hne
    exact hs.class_ne ho ho' hne rfl
  rintro _ _ ⟨⟨ledger, all, rfl, hall⟩, htallied⟩
  obtain ⟨hs3, h3, -⟩ := h2.fit.annotate s2.facts s2.diagnostics ledger all fun _ _ h => h
  have hadds3 := { hadds with toExtends := hadds.toExtends.trans h3 }
  refine ⟨hs3, hadds3, hinit, ⟨fun key site hsite => ?_, fun key site hsite => ?_⟩, fun hstrict => ?_⟩
  case' refine_3 =>
    have hstaffed := (hinstalls.keeps hstrict).staffed (hrecords hstrict).2.1
    exact ⟨⟨hstaffed.typed, hstaffed.manned⟩, htallied hstrict⟩
  all_goals rcases hall key site hsite with hold | ⟨hkey, x, hx, hstmt⟩
  · rw [h2.sites, h1.sites] at hold
    obtain ⟨k, hk, -, hkc, -⟩ := hsites.2 key site hold
    refine Populates.past hadds3 hs.layout (.inl fun h => ?_) (hsites.1 key site hold)
    have hmem := (hs.layout.methodOwner k hk).2
    rw [hkc, h, hempty] at hmem
    cases hmem
  · obtain ⟨y, hy, rfl⟩ := List.mem_map.1 hx
    rw [hkey, hstmt]
    refine ⟨hc.lt.trans_le hadds.program.classes, fun k hk _ => ?_⟩
    have hk : k ∈ (s2.program.classDecl c).methods := hk
    rw [h2.members c hc1, h1.members, hempty] at hk
    obtain rfl := mem_singleton.1 hk
    show _ < (s2.program.body k).nextStmt
    rw [hbody]
    exact Nat.add_lt_add_left (hp y hy) _
  · rw [h2.sites, h1.sites] at hold
    exact hadds.program.hasMethod (hsites.2 key site hold)
  · rw [hkey]
    exact hinit

lemma lifecycleAnswer_taken (t : CodeType) : OperandsTaken n (lifecycleAnswer t).toList := by
  unfold lifecycleAnswer
  split <;> simp

lemma addLifecycle_runs (methods : List (String × CodeType))
    (hs : s.Fit settled) (hc : s.ObjectClass c) (hstaffed : strict → s.Staffed)
    (hnames : s.Populated names c) (hnew : (names ++ methods.map (·.1)).Nodup)
    (hcommon : methods.map (·.1) ⊆ commonMethods) :
    Runs strict (addLifecycle c methods) s fun _ s' =>
      Installs settled strict c (methods.map (·.1)) s s' ∧
        ∀ name ∈ methods.map (·.1), s'.program.HasMethod c name := by
  induction methods generalizing s names with
  | nil => exact .pure ⟨(Writes.refl hs).installs hc.lt _, fun _ h => by cases h⟩
  | cons x methods ih =>
    obtain ⟨name, t⟩ := x
    rw [map_cons, append_cons] at hnew
    have hname : name ∉ names := fun h =>
      (nodup_append.1 (nodup_append.1 hnew).1).2.2 name h name (mem_singleton_self _) rfl
    have hmethod : name ∈ commonMethods := hcommon (.head _)
    refine (addMethod_runs hs hc.lt hc.live
      ((isMethodName_object hc.kind).2 (.inl hmethod)) _ _ fun _ m hm heq =>
        hname (heq ▸ hnames m hm)).bind fun m s1 h1 => ?_
    have hc1 := h1.objectClass hc
    refine (extend_runs h1.fit h1.lt h1.live (fun hstrict =>
      ⟨(h1.keeps hstrict).typed (hstaffed hstrict).typed, h1.entry⟩)
      (.ofDrafting fun _ _ => ret_tidy (lifecycleAnswer_taken t))).bind fun _ s2 h2 => ?_
    have hadds := h1.toInstalls.trans (h2.installs hc1.lt _) hc.lt
    refine (ih h2.fit (h2.objectClass hc1) (fun hstrict => (hadds.keeps hstrict).staffed
      (hstaffed hstrict)) (hadds.populated hs.layout hc.lt hnames) hnew
      fun x hx => hcommon (.tail _ hx)).mono fun _ s3 ⟨h3, hmethods⟩ => ⟨?_, ?_⟩
    · exact (hadds.mono (by simp)).trans (h3.mono (subset_cons_self _ _)) hc.lt
    · rw [map_cons, forall_mem_cons]
      exact ⟨h3.program.hasMethod (h2.program.hasMethod ⟨m, h1.lt, h1.live, h1.owner, h1.name⟩),
        hmethods⟩

section Drafts
variable {P : Demand → Prop} [Liberal P] {name : String}

lemma lifecycleMethod_isReserved (h : isReserved name = false) :
    isReserved (lifecycleMethod className name).name = false := h

lemma fireChild_tidy (hthis : this < n) : TidyCode P V W n (fireChild this name className) :=
  label_tidy.bind fun skip n1 h1 _ => (lookup_tidy (by omega)).bind fun child n2 h2 hchild =>
    (callValue_tidy hchild (by simp) (lifecycleMethod_isReserved (by decide))).bind
      fun ready n3 h3 hready =>
        (branchFalse_tidy hready (.inr (.head _))).bind fun _ n4 h4 _ =>
          (call_tidy (by omega) (by simp) (lifecycleMethod_isReserved (by decide))).bind
            fun _ n5 h5 _ =>
              (call_tidy (by omega) (by simp) (lifecycleMethod_isReserved (by decide))).bind
                fun _ _ _ _ => place_tidy

lemma callChild_tidy {method name : String} (hmethod : isReserved method = false)
    (hthis : this < n) : TidyCode P V W n (callChild method this name className) :=
  (lookup_tidy hthis).bind fun _ _ _ hchild =>
    call_tidy hchild (by simp) (lifecycleMethod_isReserved hmethod)

omit [Liberal P] in
lemma forChildren_tidy {step : String → String → Drafting Unit} {l : Nat}
    (hstep : ∀ {n : Nat} {name className : String}, l < n → TidyCode P V W n (step name className))
    (children : List (String × String)) (hl : l < n) :
    TidyCode P V W n (forChildren step children) := by
  induction children generalizing n with
  | nil => exact .pure fun _ _ => trivial
  | cons child children ih => exact (hstep hl).bind fun _ _ h _ => ih (hl.trans_le h)

lemma compositeMethod_tidy {children : List (String × String)} {method : String} {t : CodeType}
    (hmethod : isReserved method = false) :
    TidyCode P V W n (compositeMethod children method t) := by
  have hret {n : Nat} : TidyCode P V W n (Draft.ret (lifecycleAnswer t)) :=
    ret_tidy (lifecycleAnswer_taken t)
  refine .get_bind fun d hd _ => ?_
  split
  · exact hret
  · rename_i l hl
    have hl := hd.receiver_lt hl
    split
    · exact (forChildren_tidy fireChild_tidy children hl).bind fun _ _ _ _ => hret
    · split
      · exact (forChildren_tidy (callChild_tidy hmethod) children hl).bind fun _ _ _ _ => hret
      · exact hret
end Drafts

lemma writeLifecycle_runs {children : List (String × String)}
    (methods : List (String × CodeType)) (hs : Template.Prepared settled strict c s)
    (hmethods : ∀ x ∈ methods, isReserved x.1 = false ∧ x.1 ∈ lifecycle.map (·.1)) :
    Runs strict (writeLifecycle c children methods) s fun _ s' => Writes settled strict s s' := by
  induction methods generalizing s with
  | nil => exact .pure (.refl hs.fit)
  | cons x methods ih =>
    obtain ⟨hreserved, hown⟩ := hmethods x (.head _)
    refine (methodNamed_runs hs fun hstrict => (hs.staffed hstrict).2 _ hown).bind ?_
    rintro m s ⟨rfl, hm⟩
    refine (writeAnew_runs hs.fit hm.lt hm.live hm.entry (.ofDrafting fun _ _ =>
      compositeMethod_tidy hreserved)).bind fun _ s1 h1 => ?_
    exact (ih (hs.writes h1) fun y hy => hmethods y (.tail _ hy)).mono
      fun _ _ h2 => h1.trans h2

lemma increment_tidy (hl : l < n) :
    TidyCode P V W n (Draft.assign l (.binary .add (.loc l) (.int 1))) :=
  assign_tidy hl (by simpa [Rvalue.locals, Operand.locals, Operand.int]) nofun

lemma execute_generates {iterations : ObjectId}
    (hjoins : q.isSome → s.model.Joins Model.top iterations) :
    GeneratesCode settled c q V W s n (execute iterations className) := by
  refine receiver_generates.bind fun this n1 h1 hthis =>
    .draft_bind (fun _ _ => call_tidy hthis (by simp) (lifecycleMethod_isReserved (by decide)))
      fun _ n2 h2 _ =>
    .draft_bind (fun _ _ => call_tidy (by omega) (by simp) (lifecycleMethod_isReserved (by decide)))
      fun _ n3 h3 _ =>
    (reference_generates (by omega) hjoins).bind fun param n4 h4 hparam =>
    .draft_bind (fun _ _ => callValue_tidy hparam (by simp) (by decide)) fun v n5 h5 hv =>
    .draft_bind (fun _ _ => cast_tidy hv) fun scalar n6 h6 hscalar =>
    .draft_bind (fun _ _ => callValue_tidy hscalar (by simp) (by decide)) fun count n7 h7 hcount =>
    .draft_bind (fun _ _ => constant_tidy) fun i n8 h8 hi =>
    .draft_bind (fun _ _ => label_tidy) fun head n9 h9 _ =>
    .draft_bind (fun _ _ => label_tidy) fun run n10 h10 _ =>
    .draft_bind (fun _ _ => label_tidy) fun done n11 h11 _ => ?_
  -- The label of the head is placed first; the jump back to it comes when it is.
  have hopen : ([done, run, head] ++ W).Perm ([head, run, done] ++ W) :=
    (reverse_perm [head, run, done]).append_right W
  refine .perm hopen
    (.place_bind (.draft_bind (fun _ _ => branch_tidy (by simp; omega) (.inr (.head _)))
      fun _ n12 h12 _ => ?_))
  exact .draft_bind (fun _ _ => branch_tidy (by simp; omega) (by simp)) fun _ n13 h13 _ =>
    .draft_bind (fun _ _ => place_tidy) fun _ n14 h14 _ =>
    .draft_bind (fun _ _ =>
      callValue_tidy (by omega) (by simp) (lifecycleMethod_isReserved (by decide)))
        fun ok n15 h15 hok =>
    .draft_bind (fun _ _ => branchFalse_tidy hok (by simp)) fun _ n16 h16 _ =>
    .draft_bind (fun _ _ => call_tidy (by omega) (by simp) (lifecycleMethod_isReserved (by decide)))
      fun _ n17 h17 _ =>
    .draft_bind (fun _ _ =>
      callValue_tidy (by omega) (by simp) (lifecycleMethod_isReserved (by decide)))
        fun more n18 h18 hmore =>
    .draft_bind (fun _ _ => increment_tidy (by omega)) fun _ n19 h19 _ =>
    .draft_bind (fun _ _ => branchFalse_tidy (by omega) (by simp)) fun _ n20 h20 _ =>
    .draft_bind (fun _ _ => goto_tidy (by simp)) fun _ n21 h21 _ =>
    .draft_bind (fun _ _ => place_tidy) fun _ n22 h22 _ =>
    .draft_bind (fun _ _ => call_tidy (by omega) (by simp) (lifecycleMethod_isReserved (by decide)))
      fun _ _ _ _ => .ofDrafting fun _ _ => ret_tidy (by simp)

lemma isSome_classOf (hs : s.Fit settled) (ho : o ∈ owners s.model) :
    (s.classOf.get? o).isSome := by
  have hall := (Bool.and_eq_true_iff.1 hs.bijection).1
  obtain ⟨c, hc, -⟩ := (Option.any_eq_true _ _).1 (List.all_eq_true.1 hall o ho)
  exact isSome_iff_exists.2 ⟨c, hc⟩

structure Recorded (done : List ObjectId) (s : Specialization) : Prop where
  ready : Ready s.model
  staffed : s.Staffed
  tallied : Tallied s.model (done.flatMap (creates s.model)) s
  equipped : ∀ o ∈ done, s.model.isEntity o → ∀ c, s.classOf.get? o = some c →
    ∀ name ∈ lifecycle.map (·.1), s.program.HasMethod c name

lemma Recorded.later (hs : Recorded done s)
    (h : s.Extends s') (hkeeps : s.Keeps s') (hsites : s'.sites = s.sites) : Recorded done s' where
  ready := h.model ▸ hs.ready
  staffed := hkeeps.staffed hs.staffed
  tallied := h.model ▸ hs.tallied.congr hkeeps.ledger hsites h.classOf
  equipped o ho hentity c hc name hname := h.program.hasMethod
    (hs.equipped o ho (h.model ▸ hentity) c (h.classOf ▸ hc) name hname)

lemma loop_runs {loop : List ObjectId → Specialize Unit} (before added always : List String)
    {I : List ObjectId → Specialization → Prop} (hnil : loop [] = pure ())
    (hcons : ∀ {o : ObjectId} {os : List ObjectId} {s : Specialization}
      {Q : Unit → Specialization → Prop}, s.model = m → s.Fit settled → Intact s → I (o :: os) s →
      (∀ c, s.classOf.get? o = some c → s.Populated before c) →
      (∀ c s', s.classOf.get? o = some c → s'.Fit settled → Populates c added s s' → I os s' →
        (∀ name ∈ always, s'.program.HasMethod c name) → Runs strict (loop os) s' Q) →
      Runs strict (loop (o :: os)) s Q)
    (os : List ObjectId) (hmodel : s.model = m) (hs : s.Fit settled) (hintact : Intact s)
    (hI : I os s) (hnodup : os.Nodup)
    (hbefore : ∀ o ∈ os, ∀ c, s.classOf.get? o = some c → s.Populated before c)
    (hall : ∀ o c, s.classOf.get? o = some c → s.Populated (before ++ added) c) :
    Runs strict (loop os) s fun _ s' => s'.Fit settled ∧ s.Extends s' ∧ I [] s' ∧
      (∀ o c, s'.classOf.get? o = some c → s'.Populated (before ++ added) c) ∧
      ∀ o ∈ os, ∀ c, s'.classOf.get? o = some c → ∀ name ∈ always, s'.program.HasMethod c name := by
  induction os generalizing s with
  | nil =>
    rw [hnil]
    exact .pure ⟨hs, .refl s, hI, hall, nofun⟩
  | cons o os ih =>
    obtain ⟨ho, hos⟩ := nodup_cons.1 hnodup
    refine hcons hmodel hs hintact hI (hbefore o (.head _)) fun c s1 hc hs1 h1 hI1 halways => ?_
    have hlt := (hs.objectClass hc).lt
    have hother {o' : ObjectId} {k : ClassId} {names : List String}
        (hk : s.classOf.get? o' = some k) (hne : o' ≠ o) (hnames : s.Populated names k) :
        s1.Populated names k :=
      h1.populated_of_ne hs.layout (hs.objectClass hk).lt (hs.class_ne hc hk hne) hnames
    refine (ih (h1.model.trans hmodel) hs1 (hintact.extends h1.toExtends) hI1 hos
      (fun o' ho' k hk => ?_) fun o' k hk => ?_).mono
        fun _ s2 ⟨hs2, h2, hI2, hall2, halways2⟩ => ⟨hs2, h1.toExtends.trans h2, hI2, hall2, ?_⟩
    · rw [h1.classOf] at hk
      exact hother hk (fun h => ho (h ▸ ho')) (hbefore o' (.tail _ ho') k hk)
    · rw [h1.classOf] at hk
      by_cases hne : o' = o
      · subst hne
        obtain rfl := some.inj (hc.symm.trans hk)
        exact h1.populated hs.layout hlt (hbefore o' (.head _) c hc)
      · exact hother hk hne (hall o' k hk)
    · intro o' ho' k hk name hname
      rcases mem_cons.1 ho' with rfl | ho'
      · rw [h2.classOf, h1.classOf] at hk
        obtain rfl := some.inj (hc.symm.trans hk)
        exact h2.program.hasMethod (halways name hname)
      · exact halways2 o' ho' k hk name hname

def Recording (strict : Bool) (os : List ObjectId) (s : Specialization) : Prop :=
  ∃ done, strict → done ++ os = owners s.model ∧ Recorded done s

lemma addConstructors_runs (os : List ObjectId) (hs : s.Fit settled) (hintact : Intact s)
    (hsites : Located s) (hrecords : Recording strict os s) (hnodup : os.Nodup)
    (hempty : ∀ o c, s.classOf.get? o = some c → s.Populated [] c) :
    Runs strict (addConstructors os) s fun _ s' => s'.Fit settled ∧ s.Extends s' ∧
      (Located s' ∧ Recording strict [] s') ∧
      (∀ o c, s'.classOf.get? o = some c → s'.Populated basicMethods c) ∧
      ∀ o ∈ os, ∀ c, s'.classOf.get? o = some c → ∀ name ∈ ["<init>"],
        s'.program.HasMethod c name := by
  refine loop_runs [] basicMethods ["<init>"]
    (I := fun os s => Located s ∧ Recording strict os s) rfl
    (fun {o os s Q} _ hs hintact hI hbefore hnext => ?_) os rfl hs hintact ⟨hsites, hrecords⟩ hnodup
    (fun o _ c hc => hempty o c hc) fun o c hc m hm => absurd (hempty o c hc m hm) not_mem_nil
  obtain ⟨hsites, done, hdone⟩ := hI
  refine (classFor_runs fun hstrict => ?_).bind ?_
  · exact isSome_classOf hs ((hdone hstrict).1 ▸ by simp)
  rintro c s ⟨rfl, hc⟩
  have hclass := hs.objectClass hc
  have hnew (hstrict : strict) :
      (done.flatMap (creates s.model) ++ creates s.model o).Nodup := by
    obtain ⟨happend, hrecorded⟩ := hdone hstrict
    have h := nodup_flatMap_creates hrecorded.ready.shape hrecorded.ready.paired
      (nodup_owners hrecorded.ready.shape)
    rw [← happend, flatMap_append, flatMap_cons, ← append_assoc] at h
    exact (nodup_append.1 h).1
  refine (addConstructor_runs hs hintact hsites hc (hbefore c hc) fun hstrict =>
    ⟨(hdone hstrict).2.ready, (hdone hstrict).2.staffed, (hdone hstrict).2.tallied,
      hnew hstrict⟩).bind fun _ s1 ⟨hs1, h1, hmethod, hsites1, hrecords1⟩ => ?_
  have hclass1 := h1.objectClass hclass
  have hrest {s2 : Specialization} (h2 : Installs settled strict c (lifecycle.map (·.1)) s1 s2)
      (hlifecycle : s.model.isEntity o →
        ∀ name ∈ lifecycle.map (·.1), s2.program.HasMethod c name) :
      Runs strict (addConstructors os) s2 Q := by
    have h := h1.toExtends.trans h2.toExtends
    refine hnext c s2 hc h2.fit ((h1.mono (by decide)).trans (h2.toPopulates.mono (by decide))
      hs1.layout hclass.lt) ⟨⟨(h2.advances hs1.layout (by decide)).sited hsites1.1,
        fun key site hsite => h2.program.hasMethod (hsites1.2 key site (h2.sites ▸ hsite))⟩,
        done ++ [o], fun hstrict => ⟨?_, ?_⟩⟩ (by simpa using h2.program.hasMethod hmethod)
    · rw [h.model, ← (hdone hstrict).1, append_assoc, singleton_append]
    · obtain ⟨-, hrecorded⟩ := hdone hstrict
      obtain ⟨hstaffed1, htallied1⟩ := hrecords1 hstrict
      refine ⟨h.model ▸ hrecorded.ready, (h2.keeps hstrict).staffed hstaffed1, ?_, ?_⟩
      · rw [h.model, flatMap_append, flatMap_singleton]
        exact htallied1.congr (h2.keeps hstrict).ledger h2.sites h2.classOf
      · intro x hx hentity k hk name hname
        rw [h.model] at hentity
        rw [h.classOf] at hk
        rcases mem_append.1 hx with hx | hx
        · exact h.program.hasMethod (hrecorded.equipped x hx hentity k hk name hname)
        · obtain rfl := mem_singleton.1 hx
          obtain rfl := some.inj (hc.symm.trans hk)
          exact hlifecycle hentity name hname
  refine .get_bind ?_
  rw [h1.model]
  split
  · exact (addLifecycle_runs lifecycle hs1 hclass1 (fun hstrict => (hrecords1 hstrict).1)
      (h1.populated hs.layout hclass.lt (hbefore c hc)) (by decide) (by decide)).bind
        fun _ s2 ⟨h2, hmethods⟩ => hrest h2 fun _ => hmethods
  · rename_i hentity
    exact hrest ((Writes.refl hs1).installs hclass1.lt _) fun h => absurd h hentity

lemma scheduleComposite_runs (hs : Template.Prepared settled strict c s) :
    Runs strict (scheduleComposite o c) s fun _ s' => Writes settled strict s s' :=
  .get_bind (writeLifecycle_runs lifecycle hs (by decide))

lemma addBehaviour_runs (os : List ObjectId) (hs : s.Fit settled)
    (hkinds : settled → ∀ o, s.model.actorKind? o ≠ some .setVariable) (hintact : Intact s)
    (hsites : s.Sited)
    (hrecords : strict → os ⊆ owners s.model ∧ Recorded (owners s.model) s)
    (hnodup : os.Nodup)
    (hbasic : ∀ o c, s.classOf.get? o = some c → s.Populated basicMethods c) :
    Runs strict (addBehaviour os) s fun _ s' => s'.Fit settled ∧ s.Extends s' ∧ s'.Sited ∧
      (strict → Recorded (owners s'.model) s') ∧ ∀ o c, s'.classOf.get? o = some c →
        s'.Populated (basicMethods ++ actorMethods) c := by
  refine (loop_runs basicMethods actorMethods [] (I := fun os s => s.Sited ∧
      (strict → os ⊆ owners s.model ∧ Recorded (owners s.model) s)) rfl
    (fun {o os s Q} hmodel hs hintact hI hbefore hnext => ?_) os rfl hs hintact ⟨hsites, hrecords⟩
    hnodup (fun o _ c hc => hbasic o c hc)
    fun o c hc m hm => mem_append_left _ (hbasic o c hc m hm)).mono
      fun _ _ h => ⟨h.1, h.2.1, h.2.2.1.1, fun hstrict => (h.2.2.1.2 hstrict).2, h.2.2.2.1⟩
  obtain ⟨hsites, hrecords⟩ := hI
  have howner (hstrict : strict) : o ∈ owners s.model := (hrecords hstrict).1 (.head _)
  refine (classFor_runs fun hstrict => isSome_classOf hs (howner hstrict)).bind ?_
  rintro c s ⟨rfl, hc⟩
  have hclass := hs.objectClass hc
  have hprepared (hentity : s.model.isEntity o) : Template.Prepared settled strict c s :=
    ⟨hs, hclass, fun hstrict => ⟨(hrecords hstrict).2.staffed,
      (hrecords hstrict).2.equipped o (howner hstrict) hentity c hc⟩⟩
  have hrest {s' : Specialization} (h : Installs settled strict c actorMethods s s') :
      Runs strict (addBehaviour os) s' Q := by
    refine hnext c s' hc h.fit h.toPopulates
      ⟨(h.advances hs.layout (by decide)).sited hsites, fun hstrict => ?_⟩
      fun _ h => absurd h not_mem_nil
    obtain ⟨hos, hrecorded⟩ := hrecords hstrict
    rw [h.model]
    exact ⟨fun x hx => hos (.tail _ hx), hrecorded.later h.toExtends (h.keeps hstrict) h.sites⟩
  refine .get_bind ?_
  split
  · rename_i hkind
    exact (scheduleComposite_runs (hprepared (by rw [isEntity, hkind]))).bind fun _ s1 h1 =>
      hrest (h1.installs hclass.lt _)
  · rename_i name kind hkind
    have hactor : s.model.actorKind? o = some kind := by rw [actorKind?, hkind]
    have hwrites (h : settled) : kind ≠ .setVariable := by
      rintro rfl
      exact hkinds h o (by rw [← hmodel, hactor])
    refine (installKind_runs kind (hprepared (by rw [isEntity, hkind])) hwrites
      (hbefore c hc) fun hstrict => ?_).bind fun _ _ => hrest
    have hready := (hrecords hstrict).2.ready
    exact ⟨hready.shape, hready.top, hready.equipped o, hactor⟩
  · exact hrest ((Writes.refl hs).installs hclass.lt _)

lemma addExecute_runs (hs : s.Fit settled) (hrecords : strict → Recorded (owners s.model) s)
    (hnames : ∀ o c, s.classOf.get? o = some c → s.Populated (basicMethods ++ actorMethods) c) :
    Runs strict addExecute s fun _ s' => s'.Fit settled ∧ s.Advances s' ∧
      (strict → Recorded (owners s'.model) s') ∧
        ∃ c, s'.classOf.get? Model.top = some c ∧ s'.program.HasMethod c "execute" := by
  refine (classFor_runs fun hstrict => isSome_classOf hs ?_).bind ?_
  · have hm := (hrecords hstrict).ready.shape
    exact (mem_owners_iff hm).2 (.inl (isEntity_iff.2 hm.top))
  rintro c s ⟨rfl, hc⟩
  have hclass := hs.objectClass hc
  refine .get_bind ?_
  split
  · rename_i hnone
    refine .throw fun hstrict => ?_
    have hsome := (hrecords hstrict).ready.director
    rw [hnone] at hsome
    cases hsome
  rename_i d hd
  -- The director of the top-level entity says how often to iterate.
  have hiterations (hstrict : strict) : ∃ i, s.model.container i = some d ∧
      s.model.attribute? d iterations = some i := by
    obtain ⟨hm, -, hequipped, -⟩ := (hrecords hstrict).ready
    obtain ⟨i, hi⟩ := (hequipped d).iterations ((director?_eq_some_iff hm).1 hd).2
    exact ⟨i, hi.1, hm.lookup?_eq_some.2 hi⟩
  split
  · rename_i hnone
    refine .throw fun hstrict => ?_
    obtain ⟨i, -, hi⟩ := hiterations hstrict
    rw [hnone] at hi
    cases hi
  rename_i iterations hfound
  refine (addMethod_runs hs hclass.lt hclass.live
    ((isMethodName_object hclass.kind).2 (.inl (by decide))) _ _ fun _ m hm heq => ?_).bind
      fun m s1 h1 => ?_
  · exact absurd (heq ▸ hnames Model.top c hc m hm) (by decide)
  refine (extend_runs h1.fit h1.lt h1.live (fun hstrict =>
    ⟨(h1.keeps hstrict).typed (hrecords hstrict).staffed.typed, h1.entry⟩)
    (execute_generates fun hstrict => ?_)).mono fun _ s2 h2 => ⟨h2.fit,
      (h1.advances hs.layout (by decide)).trans (h2.advances h1.fit.layout), fun hstrict => ?_, c,
      by rw [h2.classOf, h1.classOf, hc],
      h2.program.hasMethod ⟨m, h1.lt, h1.live, h1.owner, h1.name⟩⟩
  · have hstrict : strict := by simpa using hstrict
    obtain ⟨i, hi, hfound'⟩ := hiterations hstrict
    obtain rfl := some.inj (hfound.symm.trans hfound')
    have hm := (hrecords hstrict).ready.shape
    rw [h1.model]
    exact ⟨hm, hm.top_lt_size, lt_size_of_container hi⟩
  · have h := h1.toExtends.trans h2.toExtends
    rw [h.model]
    exact (hrecords hstrict).later h ((h1.keeps hstrict).trans (h2.keeps hstrict))
      (h2.sites.trans h1.sites)

/-! ## Registration -/
structure Registered (done : List ObjectId) (s : Specialization) : Prop where
  layout : s.program.Layout
  methods : s.program.methods.size = 0
  classes : ∀ c < s.program.classes.size, (s.program.classDecl c).kind ≠ .closure ∧
    (s.program.classDecl c).removed = false ∧ (s.program.classDecl c).methods = [] ∧
      isNumbered (s.program.classDecl c).superclass = false ∧
      ∃ o ∈ done, s.classOf.get? o = some c ∧ s.program.className c = s.className o
  registry : ∀ o c, s.classOf.get? o = some c → o ∈ done ∧ c < s.program.classes.size ∧
    s.objectOf.get? c = some o
  objects : ∀ o c, s.objectOf.get? c = some o → s.classOf.get? o = some c
  all : ∀ o ∈ done, ∃ c, s.classOf.get? o = some c
  size : s.classOf.size = done.length
  owners : done ⊆ owners s.model
  index : s.DistinctNames → ∀ c < s.program.classes.size,
    s.program.index.get? (s.program.className c) = some c
  valueFields : s.valueFields = .empty
  expressionFields : s.expressionFields = .empty
  refFields : s.refFields = .empty
  computeMethods : s.computeMethods = .empty
  memo : s.memo = .empty

lemma register_runs (hnew : strict → s.classOf.get? o = none ∧ s.objectOf.get? k = none) :
    Runs strict (register o k) s fun _ s' => s.classOf.get? o = none ∧
      ∃ actors attributes, s' = { s with
        classOf := s.classOf.insert o k, objectOf := s.objectOf.insert k o
        actorClasses := actors, attributeClasses := attributes } := by
  refine .get_bind ?_
  split
  · rename_i hold
    refine .throw fun hstrict => ?_
    rw [SortedMap.contains, SortedMap.contains, (hnew hstrict).1, (hnew hstrict).2] at hold
    cases hold
  · rename_i hnew
    have hnone : s.classOf.get? o = none := by
      simp only [SortedMap.contains, Bool.or_eq_true, not_or, isSome_iff_ne_none, ne_eq,
        not_not] at hnew
      exact hnew.1
    dsimp only
    split <;> exact .set ⟨hnone, _, _, rfl⟩

lemma classShape_kind (k : Model.Kind) : (classShape k).2 ≠ .closure := by
  unfold classShape
  split <;> exact nofun

lemma classShape_isNumbered (k : Model.Kind) : isNumbered (classShape k).1 = false := by
  unfold classShape
  split <;> decide

lemma Registered.add (hs : Registered done s)
    (ho : o ∈ Classes.owners s.model) (hnew : s.classOf.get? o = none)
    (hsuper : isNumbered superclass = false) {kind : ClassKind} (hkind : kind ≠ .closure)
    (actors attributes : List ClassId) :
    Registered (done ++ [o]) { s with
      program := (s.program.addClass (s.className o) superclass kind).2
      classOf := s.classOf.insert o s.program.classes.size
      objectOf := s.objectOf.insert s.program.classes.size o
      actorClasses := actors, attributeClasses := attributes } := by
  have hdecl {k : ClassId} (hk : k < s.program.classes.size) :=
    s.program.addClass_classDecl (s.className o) superclass kind hk
  have hnewDecl := s.program.addClass_classDecl_new (s.className o) superclass kind
  have hcases {k : ClassId}
      (hk : k < (s.program.addClass (s.className o) superclass kind).2.classes.size) :
      k < s.program.classes.size ∨ k = s.program.classes.size := by
    rw [addClass_classes_size] at hk
    exact Nat.lt_succ_iff_lt_or_eq.1 hk
  have hkeep {o' : ObjectId} {k : ClassId} (h : s.classOf.get? o' = some k) :
      (s.classOf.insert o s.program.classes.size).get? o' = some k :=
    get?_insert_of_some hnew h
  refine ⟨hs.layout.addClass _ _ _, hs.methods, fun k hk => ?_, fun o' k hk => ?_,
    fun o' k hk => ?_, fun o' ho' => ?_, ?_, ?_, fun hdistinct k hk => ?_, hs.valueFields,
    hs.expressionFields, hs.refFields, hs.computeMethods, hs.memo⟩
  · rw [Program.className]
    rcases hcases hk with hlt | rfl
    · rw [hdecl hlt]
      obtain ⟨hkind, hremoved, hmethods, hsuper, o', ho', hclass, hname⟩ := hs.classes k hlt
      exact ⟨hkind, hremoved, hmethods, hsuper, o', mem_append_left _ ho', hkeep hclass, hname⟩
    · rw [hnewDecl]
      exact ⟨hkind, rfl, rfl, hsuper, o, by simp, get?_insert_self _ _ _, rfl⟩
  · rw [addClass_classes_size]
    rcases get?_insert_eq_some hk with ⟨rfl, rfl⟩ | hk
    · exact ⟨by simp, Nat.lt_succ_self _, get?_insert_self _ _ _⟩
    · obtain ⟨hdone, hlt, hobject⟩ := hs.registry o' k hk
      refine ⟨mem_append_left _ hdone, Nat.lt_succ_of_lt hlt, ?_⟩
      rw [get?_insert_of_ne _ hlt.ne]
      exact hobject
  · rcases get?_insert_eq_some hk with ⟨rfl, rfl⟩ | hk
    · exact get?_insert_self _ _ _
    · exact hkeep (hs.objects o' k hk)
  · rcases mem_append.1 ho' with ho' | ho'
    · obtain ⟨k, hk⟩ := hs.all o' ho'
      exact ⟨k, hkeep hk⟩
    · obtain rfl := mem_singleton.1 ho'
      exact ⟨_, get?_insert_self _ _ _⟩
  · rw [size_insert _ hnew, hs.size, length_append, length_singleton]
  · exact append_subset.2 ⟨hs.owners, by simpa using ho⟩
  · have hdistinct : s.DistinctNames := ⟨hdistinct.1, hdistinct.2, hdistinct.3⟩
    show (s.program.index.insert (s.className o) s.program.classes.size).get? _ = _
    rw [Program.className]
    rcases hcases hk with hlt | rfl
    · rw [hdecl hlt]
      obtain ⟨-, -, -, -, o', ho', hclass, hname⟩ := hs.classes k hlt
      have hne : (s.program.classDecl k).name ≠ s.className o := by
        intro heq
        rw [← Program.className, hname] at heq
        obtain rfl := hdistinct.classes o' (hs.owners ho') o ho heq
        rw [hnew] at hclass
        cases hclass
      rw [get?_insert_of_ne _ hne]
      exact hs.index hdistinct k hlt
    · rw [hnewDecl, get?_insert_self]

lemma addClasses_runs (os : List ObjectId) (hs : Registered done s)
    (hos : os ⊆ Classes.owners s.model) (hnodup : done.Nodup)
    (hnew : strict → (done ++ os).Nodup) :
    Runs strict (addClasses os) s fun _ s' => Registered (done ++ os) s' ∧ (done ++ os).Nodup ∧
      s'.model = s.model ∧ s'.constancy = s.constancy ∧ s'.sites = s.sites ∧
        s'.ledger = s.ledger ∧ s'.facts = s.facts := by
  induction os generalizing s done with
  | nil => exact .pure (by simpa using ⟨hs, hnodup⟩)
  | cons o os ih =>
    refine .get_bind ?_
    let p := s.program.addClass (s.className o) (classShape (s.model.kind o)).1
      (classShape (s.model.kind o)).2
    refine .bind (R := fun c s' => c = s.program.classes.size ∧ s' = { s with program := p.2 })
      (.modifyGet ⟨rfl, rfl⟩) ?_
    rintro c _ ⟨rfl, rfl⟩
    rw [append_cons] at hnew ⊢
    refine (register_runs fun hstrict => ⟨?_, ?_⟩).bind ?_
    · refine eq_none_iff_forall_ne_some.2 fun k hk => ?_
      exact (nodup_append'.1 (nodup_append'.1 (hnew hstrict)).1).2.2 (hs.registry o k hk).1
        (mem_singleton_self o)
    · refine eq_none_iff_forall_ne_some.2 fun x hx => ?_
      exact Nat.lt_irrefl _ (hs.registry x _ (hs.objects x _ hx)).2.1
    rintro - _ ⟨hnone, actors, attributes, rfl⟩
    have ho : o ∉ done := fun ho => by
      obtain ⟨k, hk⟩ := hs.all o ho
      rw [hnone] at hk
      cases hk
    have hadd := hs.add (hos (.head _)) hnone (classShape_isNumbered (s.model.kind o))
      (classShape_kind (s.model.kind o)) actors attributes
    have hnodup' : (done ++ [o]).Nodup :=
      nodup_append.2 ⟨hnodup, nodup_singleton _, fun a ha b hb hab =>
        ho (mem_singleton.1 hb ▸ hab ▸ ha)⟩
    exact ih hadd (fun x hx => hos (.tail _ hx)) hnodup' hnew

lemma Registered.isBijection (hs : Registered os s)
    (hos : os = Classes.owners s.model) : Classes.isBijection s := by
  subst hos
  rw [Classes.isBijection, Bool.and_eq_true]
  refine ⟨List.all_eq_true.2 fun o ho => ?_, decide_eq_true hs.size⟩
  obtain ⟨c, hc⟩ := hs.all o ho
  rw [Specialization.classOf?, hc]
  exact decide_eq_true (hs.registry o c hc).2.2

lemma Registered.fit (hs : Registered os s)
    (hos : os = Classes.owners s.model) : s.Fit settled where
  layout := hs.layout
  bodies m hm := absurd hm (by simp [hs.methods])
  classNames c hc := by
    obtain ⟨hkind, -, -, -, o, ho, hclass, hname⟩ := hs.classes c hc
    rw [IsClassName, if_neg hkind]
    exact ⟨o, hs.owners ho, hclass, hname⟩
  methodNames m hm := absurd hm (by simp [hs.methods])
  removedClasses c hc hremoved := by
    rw [(hs.classes c hc).2.1] at hremoved
    cases hremoved
  removedMethods m hm := absurd hm (by simp [hs.methods])
  bijection := hs.isBijection hos
  registry o c hc := by
    obtain ⟨-, hlt, hobject⟩ := hs.registry o c hc
    exact ⟨hlt, (hs.classes c hlt).1, hobject⟩
  valueFields v f hf := by
    rw [hs.valueFields] at hf
    cases hf
  expressionFields a f hf := by
    rw [hs.expressionFields] at hf
    cases hf
  refFields key f hf := by
    rw [hs.refFields] at hf
    cases hf
  computeMethods v m hm := by
    rw [hs.computeMethods] at hm
    cases hm
  memo name form args found hfound := by
    rw [hs.memo] at hfound
    cases hfound
  names hdistinct := by
    refine ⟨fun c hc c' hc' heq => ?_, hs.index hdistinct, fun c hc => ?_⟩
    · obtain ⟨-, -, -, -, o, ho, hclass, hname⟩ := hs.classes c hc
      obtain ⟨-, -, -, -, o', ho', hclass', hname'⟩ := hs.classes c' hc'
      rw [hname, hname'] at heq
      obtain rfl := hdistinct.classes o (hs.owners ho) o' (hs.owners ho') heq
      exact some.inj (hclass.symm.trans hclass')
    · rw [(hs.classes c hc).2.2.1]
      exact nodup_nil

lemma registered_start (m : Model) (o : Options) (constancy : Constancy) :
    Registered [] { start m o with constancy := constancy } where
  layout := layout_empty
  methods := rfl
  classes _ hc := absurd hc (Nat.not_lt_zero _)
  registry _ _ hc := by cases hc
  objects _ _ hc := by cases hc
  all := nofun
  size := rfl
  owners := nofun
  index _ _ hc := absurd hc (Nat.not_lt_zero _)
  valueFields := rfl
  expressionFields := rfl
  refFields := rfl
  computeMethods := rfl
  memo := rfl

lemma Registered.recorded (hs : Registered os s) (hready : Ready s.model)
    (hfacts : s.facts = .empty) (hledger : s.ledger = .empty) (hsites : s.sites = .empty) :
    Recorded [] s where
  ready := hready
  staffed := by
    refine ⟨fun f t hf => ?_, fun k hk => absurd hk (by simp [hs.methods])⟩
    rw [hfacts] at hf
    cases hf
  tallied := by
    refine ⟨fun x o => ?_, fun k x => ?_, fun k x i hi => ?_⟩
    · rw [hledger]
      exact ⟨nofun, nofun⟩
    · rw [hsites]
      exact ⟨nofun, nofun⟩
    · rw [hsites] at hi
      cases hi
  equipped := nofun

structure Generated (settled : Bool) (m : Model) (s : Specialization) : Prop where
  fit : s.Fit settled
  model : s.model = m
  constancy : Constancy.ofModel m = .ok s.constancy
  constructors : ∀ o ∈ owners s.model, ∀ c, s.classOf.get? o = some c →
    s.program.HasMethod c "<init>"
  loop : ∃ c, s.classOf.get? Model.top = some c ∧ s.program.HasMethod c "execute"
  sited : s.Sited
  inverse : ∀ o c, s.classOf.get? o = some c ↔ s.objectOf.get? c = some o
  domain : ∀ o, (s.classOf.get? o).isSome ↔ o ∈ owners m

section Check
variable {α β : Type}

lemma bind_isContradiction {x : Except Fault α} {k : α → Except Fault β}
    (hx : ∀ f, x = .error f → f.isContradiction = false)
    (hk : ∀ a f, k a = .error f → f.isContradiction = false) :
    ∀ f, (x >>= k) = .error f → f.isContradiction = false := by
  cases x with
  | ok a => exact hk a
  | error e => exact fun f h => hx f (congrArg Except.error (Except.error.inj h))

lemma forM_isContradiction {k : α → Except Fault Unit}
    (hk : ∀ a f, k a = .error f → f.isContradiction = false) (l : List α) :
    ∀ f, l.forM k = .error f → f.isContradiction = false := by
  induction l with
  | nil => nofun
  | cons a l ih => exact bind_isContradiction (hk a) fun _ => ih

lemma checkSupported_isContradiction {f : Fault} (h : m.checkSupported = .error f) :
    f.isContradiction = false := by
  have hkind (e : ObjectId) : ∀ f, m.checkKind e = .error f → f.isContradiction = false := by
    intro f h
    unfold checkKind at h
    split at h
    all_goals cases h <;> rfl
  have hdirector (e : ObjectId) : ∀ f, m.checkDirector e = .error f → f.isContradiction = false := by
    intro f h
    unfold checkDirector at h
    repeat' split at h
    all_goals cases h <;> rfl
  have hport (p : ObjectId) : ∀ f, m.checkPort p = .error f → f.isContradiction = false := by
    intro f h
    unfold checkPort at h
    dsimp only at h
    repeat' split at h
    all_goals cases h <;> rfl
  exact forM_isContradiction (fun e => bind_isContradiction (hkind e) fun _ =>
    bind_isContradiction (hdirector e) fun _ => forM_isContradiction hport _) _ f h
end Check

lemma generate_runs (m : Model) (o : Options)
    (hkinds : settled → ∀ x, m.actorKind? x ≠ some .setVariable)
    (hready : strict → Ready m ∧ ∃ constancy, Constancy.ofModel m = .ok constancy) :
    Runs strict generate (start m o) fun certificate s => Generated settled m s ∧
      certificate = certify s ∧ (strict → Recorded (owners m) s) := by
  refine .get_bind (.bind (check_runs fun _ _ => checkSupported_isContradiction) ?_)
  rintro - _ ⟨rfl, -⟩
  refine .bind (check_runs (r := Constancy.ofModel m) fun hstrict f hf => ?_) ?_
  · obtain ⟨constancy, hconstancy⟩ := (hready hstrict).2
    rw [hconstancy] at hf
    cases hf
  rintro constancy _ ⟨rfl, hconstancy⟩
  refine .bind (R := fun _ s => s = { start m o with constancy := constancy }) (.set rfl) ?_
  rintro - _ rfl
  refine (addClasses_runs _ (registered_start m o constancy) (List.Subset.refl _)
    nodup_nil fun hstrict => nodup_owners (hready hstrict).1.shape).bind ?_
  rintro - s1 ⟨hs1, hnodup, hmodel, hsame, hsites, hledger, hfacts⟩
  have hnone (key : ClassId × ObjectId) (site : Site) : s1.sites.get? key ≠ some site := by
    rw [hsites]
    exact fun h => by cases h
  have hfit1 : s1.Fit settled := hs1.fit (by rw [hmodel, nil_append])
  have hintact1 : Intact s1 :=
    ⟨fun k hk => (hs1.classes k hk).2.1, fun k hk _ => (hs1.classes k hk).2.2.2.1⟩
  refine (addConstructors_runs _ hfit1 hintact1 ⟨fun key site h => absurd h (hnone key site),
    fun key site h => absurd h (hnone key site)⟩ ⟨[], fun hstrict => ⟨by rw [hmodel]; rfl, ?_⟩⟩ hnodup
    fun o c hc m hm => ?_).bind fun _ s2 ⟨hs2, h2, ⟨hsites2, done, hdone⟩, hbasic, hinit⟩ => ?_
  · exact hs1.recorded (hmodel ▸ (hready hstrict).1) hfacts hledger hsites
  · rw [(hs1.classes c (hs1.registry o c hc).2.1).2.2.1] at hm
    cases hm
  have hmodel2 : s2.model = m := h2.model.trans hmodel
  refine (addBehaviour_runs _ hs2 (hmodel2 ▸ hkinds) (hintact1.extends h2) hsites2.1
    (fun hstrict => ?_) hnodup hbasic).bind fun _ s3 ⟨hs3, h3, hsites3, hrecords3, hnames⟩ => ?_
  · obtain ⟨happend, hrecorded⟩ := hdone hstrict
    rw [append_nil] at happend
    exact ⟨hmodel2 ▸ List.Subset.refl _, happend ▸ hrecorded⟩
  refine (addExecute_runs hs3 hrecords3 hnames).bind fun _ s4 ⟨hs4, h4, hrecords4, hloop⟩ => ?_
  have h := (h2.trans h3).trans h4.toExtends
  have hmodel4 : s4.model = m := h.model.trans hmodel
  refine .get_bind (.pure ⟨⟨hs4, hmodel4, ?_, fun o ho c hc => ?_, hloop, h4.sited hsites3,
    fun o c => ?_, fun o => ?_⟩, rfl, hmodel4 ▸ hrecords4⟩)
  · rw [h.constancy, hsame]
    exact hconstancy
  · refine (h3.trans h4.toExtends).program.hasMethod
      (hinit o (hmodel4 ▸ ho) c ?_ _ (.head _))
    rwa [← (h3.trans h4.toExtends).classOf]
  · rw [h.classOf, h.objectOf]
    exact ⟨fun hc => (hs1.registry o c hc).2.2, hs1.objects o c⟩
  · rw [h.classOf, isSome_iff_exists]
    exact ⟨fun hc => hc.elim fun c hc => (hs1.registry o c hc).1, hs1.all o⟩

lemma generate_ensures (m : Model) (o : Options)
    (hkinds : settled → ∀ x, m.actorKind? x ≠ some .setVariable) :
    Ensures generate (start m o) fun _ s => Generated settled m s := by
  have hruns : Runs false generate (start m o) _ := generate_runs m o hkinds fun h => by cases h
  exact (hruns.mono fun _ _ h => h.1).1

lemma generated_of_eq_ok {o : Options} {certificate : Certificate}
    (h : generate (start m o) = .ok certificate s) : Generated false m s := by
  have hgenerate : Ensures generate (start m o) fun _ s => Generated false m s :=
    generate_ensures m o nofun
  exact hgenerate _ _ h
end DataflowSpecializer.Classes
