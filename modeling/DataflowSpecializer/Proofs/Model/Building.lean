import DataflowSpecializer.Proofs.Model.Shape

/-! # Models that descriptions lead to -/
namespace DataflowSpecializer.Model
open List Option
def Build.Leads {α : Type} (x : Build α) (m : Model) (Q : α → Model → Prop) : Prop :=
  ∀ a m', x m = .ok (a, m') → Q a m'

namespace Build.Leads
variable {α β : Type} {x : Build α} {m : Model} {Q R : α → Model → Prop} {S : β → Model → Prop}
  {k : α → Build β}

lemma bind (hx : Leads x m R) (hk : ∀ a m', R a m' → Leads (k a) m' S) : Leads (x >>= k) m S := by
  intro b m'' h
  obtain ⟨⟨a, m'⟩, hxm, h⟩ := bind_eq_ok.1 h
  exact hk a m' (hx a m' hxm) b m'' h

lemma mono (hx : Leads x m R) (h : ∀ a m', R a m' → Q a m') : Leads x m Q :=
  fun a m' hxm => h a m' (hx a m' hxm)

lemma pure (h : Q a m) : Leads (pure a) m Q := by
  intro b m' hb
  cases hb
  exact h

lemma throw : Leads (throw f) m Q := fun _ _ h => by cases h

lemma throw_bind : Leads (MonadExcept.throw f >>= k) m S := fun _ _ h => by cases h

lemma get_bind {k : Model → Build β} (h : Leads (k m) m S) : Leads (get >>= k) m S := h

lemma modify {f : Model → Model} {Q : PUnit → Model → Prop} (h : Q ⟨⟩ (f m)) :
    Leads (modify f) m Q := by
  intro b m' hb
  cases hb
  exact h

lemma discard {Q : Unit → Model → Prop} (hx : Leads x m R) (h : ∀ a m', R a m' → Q () m') :
    Leads (discard x) m Q := by
  intro b m' hb
  obtain ⟨⟨a, m''⟩, hxm, hb⟩ := bind_eq_ok.1 hb
  cases hb
  exact h _ _ (hx _ _ hxm)
end Build.Leads

/-! ## Models between steps -/
structure WellBuilt (m : Model) : Prop where
  shape : m.Shape
  paired : m.Paired

def HasAttribute (m : Model) (o : ObjectId) (name : String) : Prop :=
  ∃ a, m.container a = some o ∧ m.family a = .attribute ∧ m.name a = name

structure Equipped (m : Model) (o : ObjectId) : Prop where
  params : ∀ k, m.actorKind? o = some k → ∀ d ∈ k.params, m.HasAttribute o d.name
  iterations : m.isDirector o → m.HasAttribute o iterations

structure Furnishes (m m' : Model) : Prop where
  wellBuilt : m'.WellBuilt
  grows : m.Grows m'
  plain : ∀ o, m.objects.size ≤ o → m'.family o ≠ .entity ∧ m'.isDirector o = false

structure Extends (m m' : Model) : Prop where
  wellBuilt : m'.WellBuilt
  grows : m.Grows m'
  equipped : ∀ o, m.objects.size ≤ o → m'.Equipped o

section Between
variable {m m' m'' : Model} {o : ObjectId} {name : String}

lemma HasAttribute.grow (h : m.HasAttribute o name) (hg : m.Grows m') : m'.HasAttribute o name := by
  obtain ⟨a, ho, hf, hname⟩ := h
  have ha := lt_size_of_container ho
  exact ⟨a, (hg.container a ha).trans ho, (hg.family ha).trans hf, (hg.name a ha).trans hname⟩

lemma Equipped.grow (h : m.Equipped o) (hg : m.Grows m') (ho : o < m.objects.size) :
    m'.Equipped o where
  params k hk d hd := by
    rw [actorKind?, hg.kind o ho] at hk
    exact (h.params k hk d hd).grow hg
  iterations hdirector := (h.iterations ((hg.isDirector ho).symm.trans hdirector)).grow hg

lemma equipped_of_plain (hentity : m.family o ≠ .entity) (hdirector : m.isDirector o = false) :
    m.Equipped o where
  params k hk := by
    unfold actorKind? at hk
    split at hk
    · rename_i heq
      rw [family, heq] at hentity
      exact absurd rfl hentity
    · cases hk
  iterations h := by
    rw [hdirector] at h
    cases h

lemma Furnishes.refl (h : m.WellBuilt) : m.Furnishes m where
  wellBuilt := h
  grows := .refl m
  plain o ho := by
    rw [family, isDirector, kind, object_of_le ho]
    exact ⟨Family.noConfusion, rfl⟩

lemma Furnishes.trans (h : m.Furnishes m') (h' : m'.Furnishes m'') : m.Furnishes m'' where
  wellBuilt := h'.wellBuilt
  grows := h.grows.trans h'.grows
  plain o ho := by
    by_cases hlt : o < m'.objects.size
    · rw [h'.grows.family hlt, h'.grows.isDirector hlt]
      exact h.plain o ho
    · exact h'.plain o (Nat.not_lt.1 hlt)

lemma Furnishes.extends (h : m.Furnishes m') : m.Extends m' :=
  ⟨h.wellBuilt, h.grows, fun o ho => equipped_of_plain (h.plain o ho).1 (h.plain o ho).2⟩

lemma Furnishes.noDirector (h : m.Furnishes m') (hc : m.NoDirector c) : m'.NoDirector c := by
  intro d hd
  by_cases hlt : d < m.objects.size
  · rw [h.grows.isDirector hlt]
    exact hc d ((h.grows.container d hlt).symm.trans hd)
  · exact (h.plain d (Nat.not_lt.1 hlt)).2

lemma Extends.trans (h : m.Extends m') (h' : m'.Extends m'') : m.Extends m'' where
  wellBuilt := h'.wellBuilt
  grows := h.grows.trans h'.grows
  equipped o ho := by
    by_cases hlt : o < m'.objects.size
    · exact (h.equipped o ho).grow h'.grows hlt
    · exact h'.equipped o (Nat.not_lt.1 hlt)

lemma Extends.of_fresh (hg : m.Grows m') (hsize : m'.objects.size = m.objects.size + 1)
    (h : m'.Extends m'') (ho : m''.Equipped m.objects.size) : m.Extends m'' where
  wellBuilt := h.wellBuilt
  grows := hg.trans h.grows
  equipped o hle := by
    obtain rfl | hlt := Nat.eq_or_lt_of_le hle
    · exact ho
    · exact h.equipped o (hsize ▸ hlt)
end Between

/-! ## Single objects -/
namespace Build
open Description (compositeKind)

variable {m : Model} {c : ObjectId} {r p : ObjectId}

lemma readType_leads (t : Option String) : Leads (readType t) m fun _ m' => m' = m := by
  unfold readType
  split
  · exact .pure rfl
  · split
    · exact .pure rfl
    · exact .throw

lemma entered_of_push (hc : c < m.objects.size) (name : String) (kind : Kind) :
    m.Entered c name kind { m with
      objects := (m.objects.push
        ⟨name, m.fullName c ++ "." ++ name, some c, kind, [], [], [], [], []⟩).modify c
          (·.withContent kind.family m.objects.size) } where
  size := by simp
  fresh := by
    rw [object_modify (m := { m with objects := _ }), if_neg (fun h => Nat.ne_of_gt hc h.1),
      object_push, if_pos rfl]
  old o ho := by
    rw [object_modify (m := { m with objects := _ }), object_push, if_neg ho.ne]
    simp [Nat.lt_succ_of_lt ho]

lemma add_leads (hc : c < m.objects.size) (name : String) (kind : Kind) :
    Leads (add (some c) name kind) m fun o m' =>
      o = m.objects.size ∧ m.lookup? c kind.family name = none ∧ m.Entered c name kind m' := by
  unfold add
  refine .get_bind ?_
  dsimp only
  split
  · exact .throw_bind
  · split
    · exact .throw_bind
    · rename_i hnew
      intro o m' h
      cases h
      exact ⟨rfl, not_isSome_iff_eq_none.1 hnew, entered_of_push hc name kind⟩

def Owner (m : Model) (c : ObjectId) : Prop := m.family c = .entity ∨ m.isDirector c

lemma Owner.lt_size {m : Model} (h : Owner m c) : c < m.objects.size := by
  obtain h | h := h
  · exact lt_size_of_family (by simp [h])
  · exact lt_size_of_family (by simp [family_of_isDirector h])

lemma Owner.grow {m : Model} (h : Owner m c) (hg : m.Grows m') : Owner m' c := by
  rwa [Owner, hg.family h.lt_size, hg.isDirector h.lt_size]

section Enter
variable {m m' : Model} {c : ObjectId} {name : String} {kind : Kind}

lemma isDirector_fresh (he : m.Entered c name kind m') (hkind : ∀ d, kind ≠ .director d) :
    m'.isDirector m.objects.size = false := by
  unfold isDirector
  rw [he.kind_fresh]
  split
  · exact absurd rfl (hkind _)
  · rfl

lemma shape_of_part (h : m.Shape) (he : m.Entered c name kind m')
    (hnew : m.lookup? c kind.family name = none) (hc : Owner m c)
    (hpart : kind.family = .attribute ∨ kind.family = .port) (hkind : ∀ d, kind ≠ .director d) :
    m'.Shape := by
  have hdirector := isDirector_fresh he hkind
  refine h.enter hc.lt_size he hnew ?_ fun h => by rw [hdirector] at h; cases h
  refine (hc.grow he.grows).imp_right fun hdir => ⟨hdir, hdirector, ?_⟩
  rwa [he.family_fresh]

def Plain : Kind → Prop
  | .port y => y.parameter = none
  | .var x => x.port = none ∧ x.isPortParameter = false
  | .settable _ | .relation => True
  | .composite | .atomic _ _ | .director _ => False

lemma furnishes_of_entered (h : m.WellBuilt) (he : m.Entered c name kind m') (hshape : m'.Shape)
    (hkind : Plain kind) : m.Furnishes m' where
  wellBuilt := by
    refine ⟨hshape, h.paired.enter he ?_ ?_⟩
    · rintro x rfl
      exact hkind
    · rintro y rfl
      exact hkind
  grows := he.grows
  plain o ho := by
    rw [family, isDirector, he.kind_eq]
    split
    · cases kind with
      | composite | atomic | director => exact hkind.elim
      | _ => exact ⟨Family.noConfusion, rfl⟩
    · rw [Model.kind, object_of_le ho]
      exact ⟨Family.noConfusion, rfl⟩
end Enter

lemma addPart_leads (name : String) (kind : Kind) (h : m.WellBuilt) (hc : Owner m c)
    (hpart : kind.family = .attribute ∨ kind.family = .port) (hkind : Plain kind) :
    Leads (add (some c) name kind) m fun _ m' =>
      m.Furnishes m' ∧ (kind.family = .attribute → m'.HasAttribute c name) := by
  refine (add_leads hc.lt_size name kind).mono ?_
  rintro _ m' ⟨-, hnew, he⟩
  have hshape := shape_of_part h.shape he hnew hc hpart (by rintro d rfl; exact hkind)
  refine ⟨furnishes_of_entered h he hshape hkind, fun hf => ?_⟩
  exact ⟨m.objects.size, he.container_fresh, he.family_fresh.trans hf, he.name_fresh⟩

lemma sameFrame_of_pairing {m m' : Model} {x' : Variable}
    (hv : m.kind v = .var x) (hsize : m'.objects.size = m.objects.size)
    (hobject : ∀ o, m'.object o =
      if o = v then { m.object o with kind := .var x' } else m.object o) : m.SameFrame m' where
  size := hsize
  name o := by
    rw [name, hobject]
    split <;> rfl
  container o := by
    rw [container, hobject]
    split <;> rfl
  contents o f := by
    rw [hobject]
    split
    · cases f <;> rfl
    · rfl
  family o := by
    rw [family, kind, hobject, family]
    split
    · rename_i ho
      rw [ho, hv]
      rfl
    · rfl
  isDirector o := by
    by_cases ho : o = v
    · simp only [isDirector, kind, hobject, if_pos ho]
      rw [← kind, ho, hv]
    · rw [isDirector, kind, hobject, if_neg ho, isDirector, kind]

lemma addPortParameter_leads (h : m.WellBuilt) (hc : Owner m c) (name expression : String)
    (declared : Option ValueType) :
    Leads (do
      let v : Variable := ⟨expression, declared, none, .unknown, true, none⟩
      let o ← add (some c) name (.var v)
      let p ← addPort c name true false false declared (some o)
      modifyObject o fun obj => { obj with kind := .var { v with port := some p } }) m fun _ m' =>
      m.Furnishes m' ∧ m'.HasAttribute c name := by
  refine .bind (add_leads hc.lt_size name _) ?_
  rintro o m1 ⟨rfl, hnew1, hv⟩
  have hshape1 := shape_of_part h.shape hv hnew1 hc (.inl rfl) (by simp)
  have hc1 := hc.grow hv.grows
  refine .bind (add_leads hc1.lt_size name _) ?_
  rintro p m2 ⟨rfl, hnew2, hp⟩
  have hshape2 := shape_of_part hshape1 hp hnew2 hc1 (.inr rfl) (by simp)
  have hlt1 : m.objects.size < m1.objects.size := hv.size ▸ Nat.lt_succ_self _
  have hlt2 : m.objects.size < m2.objects.size := hlt1.trans_le hp.grows.size
  refine .modify ?_
  generalize hm' : ({ m2 with objects := _ } : Model) = m'
  have hobject : ∀ o, m'.object o = if o = m.objects.size then
      { m2.object o with kind := .var ⟨expression, declared, none, .unknown, true,
        some m1.objects.size⟩ } else m2.object o := by
    intro o
    rw [← hm', object_modify]
    by_cases ho : o = m.objects.size
    · rw [if_pos ⟨ho, ho ▸ hlt2⟩, if_pos ho]
    · rw [if_neg (fun h => ho h.1), if_neg ho]
  have hkind : m2.kind m.objects.size = .var ⟨expression, declared, none, .unknown, true, none⟩ := by
    rw [hp.kind_old hlt1, hv.kind_fresh]
  have hframe := sameFrame_of_pairing hkind (by simp [← hm']) hobject
  have hgrows : m.Grows m' :=
    ⟨hframe.size ▸ hlt2.le,
      fun o ho => (hframe.name o).trans ((hv.grows.trans hp.grows).name o ho),
      fun o ho => (hframe.container o).trans ((hv.grows.trans hp.grows).container o ho),
      fun o ho => by rw [kind, hobject, if_neg ho.ne, ← kind, (hv.grows.trans hp.grows).kind o ho]⟩
  refine ⟨⟨⟨?_, ?_⟩, hgrows, fun o ho => ?_⟩, m.objects.size, ?_, ?_, ?_⟩
  · exact hshape2.of_sameFrame_of_links hframe fun o => by rw [hobject]; split <;> rfl
  · exact h.paired.enterPair hv hp rfl rfl hobject
  · rw [hframe.family, hframe.isDirector, family, isDirector, hp.kind_eq, hv.kind_eq]
    split
    · exact ⟨Family.noConfusion, rfl⟩
    · split
      · exact ⟨Family.noConfusion, rfl⟩
      · rw [kind, object_of_le ho]
        exact ⟨Family.noConfusion, rfl⟩
  · rw [hframe.container, hp.container_old hlt1, hv.container_fresh]
  · rw [hframe.family, family, hkind, Kind.family]
  · rw [hframe.name, hp.name_old hlt1, hv.name_fresh]

/-! ## Attributes, ports and directors -/
lemma addAttribute_leads (h : m.WellBuilt) (hc : Owner m c) (a : Description.Attribute) :
    Leads (addAttribute c a) m fun _ m' => m.Furnishes m' ∧ m'.HasAttribute c a.name := by
  unfold addAttribute
  refine .bind (readType_leads a.type) ?_
  rintro declared _ rfl
  cases a.kind with
  | stringAttribute =>
    refine .discard (addPart_leads a.name _ h hc (.inl rfl) trivial) fun _ m' h' => ?_
    exact ⟨h'.1, h'.2 rfl⟩
  | parameter =>
    refine .discard (addPart_leads a.name _ h hc (.inl rfl) ⟨rfl, rfl⟩) fun _ m' h' => ?_
    exact ⟨h'.1, h'.2 rfl⟩
  | portParameter => exact addPortParameter_leads h hc a.name a.expression declared

lemma addAttributes_leads (as : List Description.Attribute) (h : m.WellBuilt) (hc : Owner m c) :
    Leads (addAttributes c as) m fun _ m' =>
      m.Furnishes m' ∧ ∀ a ∈ as, m'.HasAttribute c a.name := by
  induction as generalizing m with
  | nil => exact .pure ⟨.refl h, fun _ ha => by cases ha⟩
  | cons a as ih =>
    refine .bind (addAttribute_leads h hc a) ?_
    rintro _ m' ⟨hm', ha⟩
    refine (ih hm'.wellBuilt (hc.grow hm'.grows)).mono ?_
    rintro _ m'' ⟨hm'', has⟩
    exact ⟨hm'.trans hm'', forall_mem_cons.2 ⟨ha.grow hm''.grows, has⟩⟩

lemma addDirector_leads (h : m.WellBuilt) (hc : m.family c = .entity) (hnone : m.NoDirector c)
    (d : Description.Director) : Leads (addDirector c d) m fun _ m' => m.Extends m' ∧
      ∃ o, m'.container o = some c ∧ m'.isDirector o := by
  have hlt : c < m.objects.size := lt_size_of_family (by simp [hc])
  unfold addDirector
  refine .bind (add_leads hlt d.name _) ?_
  rintro o m1 ⟨rfl, hnew, he⟩
  have hshape := h.shape.enter hlt he hnew (.inl ((he.grows.family hlt).trans hc)) fun _ => hnone
  have hm1 : m1.WellBuilt := ⟨hshape, h.paired.enter he (by simp) (by simp)⟩
  have hdirector : m1.isDirector m.objects.size := by rw [isDirector, he.kind_fresh]
  have howner : Owner m1 m.objects.size := .inr hdirector
  refine .bind (addAttribute_leads hm1 howner _) ?_
  rintro _ m2 ⟨hm2, hiterations⟩
  refine (addAttributes_leads _ hm2.wellBuilt (howner.grow hm2.grows)).mono ?_
  rintro _ m3 ⟨hm3, -⟩
  have hm13 := hm2.trans hm3
  have hlt1 : m.objects.size < m1.objects.size := he.size ▸ Nat.lt_succ_self _
  refine ⟨Extends.of_fresh he.grows he.size hm13.extends ⟨fun k hk => ?_, fun _ => ?_⟩,
    m.objects.size, ?_, ?_⟩
  · rw [actorKind?, hm13.grows.kind _ hlt1, he.kind_fresh] at hk
    cases hk
  · exact hiterations.grow hm3.grows
  · rw [hm13.grows.container _ hlt1, he.container_fresh]
  · rw [hm13.grows.isDirector hlt1, hdirector]

lemma addPort_leads (h : m.WellBuilt) (hc : Owner m c) (name : String)
    (input output multiport : Bool) (declared : Option ValueType) :
    Leads (discard (addPort c name input output multiport declared none)) m fun _ m' =>
      m.Furnishes m' :=
  Leads.discard (addPart_leads name _ h hc (.inr rfl) rfl) fun _ _ h => h.1

lemma addLibraryPorts_leads (given : List Description.Port) (ds : List PortDecl)
    (h : m.WellBuilt) (hc : Owner m c) :
    Leads (addLibraryPorts c given ds) m fun _ m' => m.Furnishes m' := by
  induction ds generalizing m with
  | nil => exact .pure (.refl h)
  | cons d ds ih =>
    refine .bind (readType_leads _) ?_
    rintro declared _ rfl
    refine .bind (addPort_leads h hc d.name _ _ _ declared) fun _ m' hm' => ?_
    exact (ih hm'.wellBuilt (hc.grow hm'.grows)).mono fun _ m'' hm'' => hm'.trans hm''

lemma furnishes_of_note (h : m.WellBuilt) (ds : List Diagnostic) :
    m.Furnishes { m with diagnostics := ds } where
  wellBuilt :=
    ⟨h.shape.of_sameFrame_of_links ⟨rfl, fun _ => rfl, fun _ => rfl, fun _ _ => rfl, fun _ => rfl,
      fun _ => rfl⟩ fun _ => rfl,
      ⟨h.paired.port_iff, h.paired.isPortParameter, h.paired.beside⟩⟩
  grows := ⟨.refl, fun _ _ => rfl, fun _ _ => rfl, fun _ _ => rfl⟩
  plain := (Furnishes.refl h).plain

lemma addOwnParameters_leads (as : List Description.Attribute) (h : m.WellBuilt)
    (hc : Owner m c) : Leads (addOwnParameters c as) m fun _ m' => m.Furnishes m' := by
  induction as generalizing m with
  | nil => exact .pure (.refl h)
  | cons a as ih =>
    unfold addOwnParameters
    split
    · refine .bind (R := fun _ m' => m.Furnishes m') (Leads.modify (furnishes_of_note h _)) fun _ m' hm' => ?_
      exact (ih hm'.wellBuilt (hc.grow hm'.grows)).mono fun _ m'' hm'' => hm'.trans hm''
    · refine .bind (addAttribute_leads h hc a) fun _ m' hm' => ?_
      exact (ih hm'.1.wellBuilt (hc.grow hm'.1.grows)).mono fun _ m'' hm'' => hm'.1.trans hm''

lemma addOwnPorts_leads (kindName : String) (kind : Option ActorKind)
    (ps : List Description.Port) (h : m.WellBuilt) (hc : Owner m c) :
    Leads (addOwnPorts c kindName kind ps) m fun _ m' => m.Furnishes m' := by
  induction ps generalizing m with
  | nil => exact .pure (.refl h)
  | cons p ps ih =>
    unfold addOwnPorts
    refine .get_bind ?_
    dsimp only
    split
    · exact .throw_bind
    · refine .bind (readType_leads _) ?_
      rintro declared _ rfl
      refine .bind (addPort_leads h hc p.name _ _ _ declared) fun _ m' hm' => ?_
      exact (ih hm'.wellBuilt (hc.grow hm'.grows)).mono fun _ m'' hm'' => hm'.trans hm''

lemma portAt?_eq_some (h : m.Shape)
    (hp : portAt? m c path = some p) : m.family p = .port ∧ (m.container p = some c ∨
        ∃ e, m.container p = some e ∧ m.container e = some c ∧ m.family e = .entity) := by
  unfold portAt? at hp
  dsimp only at hp
  split at hp
  · obtain ⟨e, he, hp⟩ := bind_eq_some_iff.1 hp
    obtain ⟨hec, hentity, -⟩ := h.lookup?_eq_some.1 he
    obtain ⟨hpe, hport, -⟩ := h.lookup?_eq_some.1 hp
    exact ⟨hport, .inr ⟨e, hpe, hec, hentity⟩⟩
  · obtain ⟨hpc, hport, -⟩ := h.lookup?_eq_some.1 hp
    exact ⟨hport, .inl hpc⟩

lemma linked_of_modify (hr : r < m.objects.size) (hp : p < m.objects.size)
    (hne : r ≠ p) : m.Linked r p { m with
      objects := (m.objects.modify r fun b => { b with links := b.links ++ [p] }).modify p
        fun b => { b with links := b.links ++ [r] } } where
  size := by simp
  object o := by
    rw [object_modify (m := { m with objects := _ }), object_modify]
    by_cases hor : o = r
    · simp [hor, hr, hne]
    · by_cases hop : o = p
      · simp [hop, hp, hne.symm]
      · simp [hor, hop]

lemma furnishes_of_linked {m' : Model} (h : m.WellBuilt)
    (hl : m.Linked r p m') (hshape : m'.Shape) : m.Furnishes m' where
  wellBuilt := by
    have hkind : m'.kind = m.kind := funext fun o => by rw [kind, hl.object, kind]
    have hvar : m'.var? = m.var? := funext fun o => by rw [var?, hkind, var?]
    have hport : m'.port? = m.port? := funext fun o => by rw [port?, hkind, port?]
    refine ⟨hshape, fun v p => ?_, fun v x => ?_, fun v p => ?_⟩
    · rw [portOf?, parameterOf?, hvar, hport]
      exact h.paired.port_iff v p
    · rw [hvar]
      exact h.paired.isPortParameter v x
    · rw [portOf?, hvar, hl.sameFrame.container, hl.sameFrame.container, hl.sameFrame.name,
        hl.sameFrame.name]
      exact h.paired.beside v p
  grows :=
    ⟨Nat.le_of_eq hl.size.symm, fun o _ => hl.sameFrame.name o,
      fun o _ => hl.sameFrame.container o, fun o _ => by rw [kind, hl.object, kind]⟩
  plain o ho := by
    rw [hl.sameFrame.family, hl.sameFrame.isDirector]
    exact (Furnishes.refl h).plain o ho

lemma addLinks_leads (paths : List String) (h : m.WellBuilt)
    (hr : m.family r = .relation) (hc : m.container r = some c) :
    Leads (addLinks c r paths) m fun _ m' => m.Furnishes m' := by
  induction paths generalizing m with
  | nil => exact .pure (.refl h)
  | cons path paths ih =>
    unfold addLinks
    refine .get_bind ?_
    split
    · exact .throw
    · rename_i p hp
      obtain ⟨hport, hpc⟩ := portAt?_eq_some h.shape hp
      have hne : r ≠ p := by
        rintro rfl
        rw [hr] at hport
        cases hport
      refine .bind (R := fun _ m1 => m1 = { m with objects := _ }) (Leads.modify rfl) ?_
      rintro _ _ rfl
      refine .bind (R := fun _ m' => m.Linked r p m') (Leads.modify (linked_of_modify
        (lt_size_of_container hc) (lt_size_of_family (by simp [hport])) hne)) fun _ m' hl => ?_
      have hm' := furnishes_of_linked h hl (h.shape.link hl hr hport hc hpc)
      refine (ih hm'.wellBuilt ?_ ?_).mono fun _ m'' hm'' => hm'.trans hm''
      · rw [hl.sameFrame.family, hr]
      · rw [hl.sameFrame.container, hc]

lemma addRelations_leads (rs : List Description.Relation) (h : m.WellBuilt)
    (hc : m.family c = .entity) : Leads (addRelations c rs) m fun _ m' => m.Furnishes m' := by
  have hlt : c < m.objects.size := lt_size_of_family (by simp [hc])
  induction rs generalizing m with
  | nil => exact .pure (.refl h)
  | cons r rs ih =>
    refine .bind (add_leads hlt r.name .relation) ?_
    rintro o m1 ⟨rfl, hnew, he⟩
    have hdirector := isDirector_fresh he (by simp)
    have hshape := h.shape.enter hlt he hnew (.inl ((he.grows.family hlt).trans hc))
      fun h => by rw [hdirector] at h; cases h
    have hm1 := furnishes_of_entered h he hshape trivial
    refine .bind (addLinks_leads r.links hm1.wellBuilt he.family_fresh he.container_fresh)
      fun _ m2 hm2 => ?_
    have hm2 := hm1.trans hm2
    refine (ih hm2.wellBuilt ?_ ?_).mono fun _ m3 hm3 => hm2.trans hm3
    · rw [hm2.grows.family hlt, hc]
    · exact hlt.trans_le hm2.grows.size

lemma name_libraryParameter (given : List Description.Attribute) (d : ParamDecl) :
    (libraryParameter given d).name = d.name := by
  unfold libraryParameter
  split <;> rfl

lemma addParts_leads (kindName : String) (kind : Option ActorKind)
    (parameters : List Description.Attribute) (ports : List Description.Port)
    (director : Option Description.Director) (h : m.WellBuilt) (hc : m.family c = .entity)
    (hnone : m.NoDirector c) :
    Leads (addParts c kindName kind parameters ports director) m fun _ m' => m.Extends m' ∧
      ∀ k, kind = some k → ∀ d ∈ k.params, m'.HasAttribute c d.name := by
  have howner : Owner m c := .inl hc
  refine .bind (addAttributes_leads _ h howner) ?_
  rintro _ m1 ⟨h1, hparams⟩
  have howner1 := howner.grow h1.grows
  refine .bind (addOwnParameters_leads _ h1.wellBuilt howner1) fun _ m2 h2 => ?_
  refine .bind (addLibraryPorts_leads _ _ h2.wellBuilt (howner1.grow h2.grows))
    fun _ m3 h3 => ?_
  have h3 := h2.trans h3
  refine .bind (addOwnPorts_leads _ _ _ h3.wellBuilt (howner1.grow h3.grows))
    fun _ m4 h4 => ?_
  have h4 := h3.trans h4
  have hattribute : ∀ m', m1.Grows m' → ∀ k, kind = some k → ∀ d ∈ k.params,
      m'.HasAttribute c d.name := by
    rintro m' hg k rfl d hd
    rw [← name_libraryParameter parameters d]
    exact (hparams _ (List.mem_map_of_mem hd)).grow hg
  cases director with
  | none => exact .pure ⟨(h1.trans h4).extends, hattribute m4 h4.grows⟩
  | some d =>
    have hentity : m4.family c = .entity := by rw [(h1.trans h4).grows.family howner.lt_size, hc]
    refine (addDirector_leads h4.wellBuilt hentity ((h1.trans h4).noDirector hnone) d).mono
      fun _ m5 h5 => ?_
    exact ⟨(h1.trans h4).extends.trans h5.1, hattribute m5 (h4.grows.trans h5.1.grows)⟩

def Ready (m : Model) : Option ObjectId → Prop
  | none => m = empty
  | some c => m.WellBuilt ∧ m.family c = .entity

lemma wellBuilt_single (b : Object) (hentity : b.kind.family = .entity)
    (hcontainer : b.container = none) (hcontents : ∀ f, b.contents f = []) (hlinks : b.links = []) :
    WellBuilt ⟨#[b], []⟩ := by
  have hobject : ∀ o, object ⟨#[b], []⟩ o = if o = 0 then b else default := by
    rintro (_ | o) <;> rfl
  have hno : ∀ {o c}, container ⟨#[b], []⟩ o ≠ some c := by
    intro o c h
    rw [container, hobject] at h
    split at h
    · rw [hcontainer] at h
      cases h
    · cases h
  have hnil : ∀ o f, (object ⟨#[b], []⟩ o).contents f = [] := by
    intro o f
    rw [hobject]
    split
    · exact hcontents f
    · cases f <;> rfl
  have hunlinked : ∀ o, (object ⟨#[b], []⟩ o).links = [] := by
    intro o
    rw [hobject]
    split
    · exact hlinks
    · rfl
  have hfamily : ∀ o, family ⟨#[b], []⟩ o = .entity ∨ family ⟨#[b], []⟩ o = .relation := by
    intro o
    rw [family, kind, hobject]
    split
    · exact .inl hentity
    · exact .inr rfl
  have hvar : ∀ o, var? ⟨#[b], []⟩ o = none := by
    intro o
    unfold var?
    split
    · rename_i hk
      have := hfamily o
      simp [family, hk, Kind.family] at this
    · rfl
  have hport : ∀ o, port? ⟨#[b], []⟩ o = none := by
    intro o
    unfold port?
    split
    · rename_i hk
      have := hfamily o
      simp [family, hk, Kind.family] at this
    · rfl
  refine ⟨⟨hentity, hcontainer, fun o ho htop => ?_, fun _ _ h => absurd h hno, fun c f o => ?_,
    fun c f => ?_, fun _ _ _ h => absurd h hno, fun _ _ _ h => absurd h hno, fun a b => ?_,
    fun r p _ hp => ?_⟩, fun v p => ?_, fun v x hx => ?_, fun v p hp => ?_⟩
  · exact absurd (Nat.lt_one_iff.1 ho) htop
  · rw [hnil]
    exact ⟨fun h => absurd h not_mem_nil, fun h => absurd h.1 hno⟩
  · rw [hnil]
    exact nodup_nil
  · rw [hunlinked, hunlinked]
    rfl
  · rw [hunlinked] at hp
    cases hp
  · rw [portOf?, parameterOf?, hvar, hport]
    exact iff_of_false (by simp) (by simp)
  · rw [hvar] at hx
    cases hx
  · rw [portOf?, hvar] at hp
    cases hp

lemma addHead_leads {container : Option ObjectId} (h : Ready m container) (name : String)
    (kind : Kind) (hkind : kind.family = .entity) :
    Leads (add container name kind) m fun o m' => o = m.objects.size ∧ m.Grows m' ∧
      m'.objects.size = m.objects.size + 1 ∧ m'.kind o = kind ∧ m'.WellBuilt ∧
      m'.NoDirector o := by
  cases container with
  | none =>
    obtain rfl := h
    unfold add
    refine .get_bind ?_
    dsimp only
    split
    · exact .throw_bind
    · intro o m' h
      cases h
      refine ⟨rfl, ⟨Nat.zero_le _, fun _ h => absurd h (Nat.not_lt_zero _),
        fun _ h => absurd h (Nat.not_lt_zero _), fun _ h => absurd h (Nat.not_lt_zero _)⟩, rfl, rfl,
        wellBuilt_single _ hkind rfl (fun f => by cases f <;> rfl) rfl, fun d hd => ?_⟩
      obtain rfl : d = 0 := Nat.lt_one_iff.1 (lt_size_of_container hd)
      cases hd
  | some c =>
    obtain ⟨hm, hc⟩ := h
    have hlt : c < m.objects.size := lt_size_of_family (by simp [hc])
    refine (add_leads hlt name kind).mono ?_
    rintro _ m' ⟨rfl, hnew, he⟩
    have hdirector : m'.isDirector m.objects.size = false :=
      isDirector_fresh he (by rintro d rfl; cases hkind)
    have hshape := hm.shape.enter hlt he hnew (.inl ((he.grows.family hlt).trans hc))
      fun h => by rw [hdirector] at h; cases h
    refine ⟨rfl, he.grows, he.size, he.kind_fresh, ⟨hshape, hm.paired.enter he ?_ ?_⟩, fun d hd => ?_⟩
    · rintro x rfl
      cases hkind
    · rintro y rfl
      cases hkind
    · -- what is in the new entity would come after it
      have hlt := hshape.container_lt hd
      have hle := Nat.le_of_lt_succ (he.size ▸ lt_size_of_container hd)
      exact absurd hlt hle.not_gt

lemma family_entityKind (kindName : String) : (if kindName = compositeKind then Kind.composite
      else .atomic kindName (ActorKind.ofName? kindName)).family = .entity := by
  split <;> rfl

mutual

lemma addEntity_leads (e : Description.Entity) (container : Option ObjectId) (m : Model)
    (h : Ready m container) : Leads (addEntity container e) m fun _ m' => m.Extends m' ∧
      (e.kind = compositeKind → m'.kind m.objects.size = .composite) := by
  match e with
  | ⟨name, kindName, parameters, ports, entities, relations, director⟩ =>
    unfold addEntity
    refine .bind (addHead_leads h name _ (family_entityKind kindName)) ?_
    rintro _ m1 ⟨rfl, hg, hsize, hkind, h1, hnone⟩
    have hlt : m.objects.size < m1.objects.size := hsize ▸ Nat.lt_succ_self _
    have hentity : m1.family m.objects.size = .entity := by rw [family, hkind, family_entityKind]
    refine .bind (addParts_leads kindName _ parameters ports director h1 hentity hnone) ?_
    rintro _ m2 ⟨h2, hparams⟩
    have hentity2 : m2.family m.objects.size = .entity := by rw [h2.grows.family hlt, hentity]
    refine .bind (addEntities_leads entities _ m2 h2.wellBuilt hentity2) fun _ m3 h3 => ?_
    have hlt2 := hlt.trans_le h2.grows.size
    have hentity3 : m3.family m.objects.size = .entity := by rw [h3.grows.family hlt2, hentity2]
    refine (addRelations_leads relations h3.wellBuilt hentity3).mono fun _ m4 h4 => ?_
    have h24 := h3.trans h4.extends
    have h14 := h2.trans h24
    refine ⟨Extends.of_fresh hg hsize h14 ⟨fun k hk d hd => ?_, fun hdirector => ?_⟩, ?_⟩
    · refine (hparams k ?_ d hd).grow h24.grows
      rw [actorKind?, h14.grows.kind _ hlt, hkind] at hk
      split at hk
      · rename_i heq
        split at heq
        · cases heq
        · cases heq
          exact hk
      · cases hk
    · rw [← isEntity_iff, isEntity] at hentity
      rw [h14.grows.isDirector hlt, isDirector] at hdirector
      split at hdirector
      · rename_i heq
        rw [heq] at hentity
        cases hentity
      · cases hdirector
    · rintro (rfl : kindName = compositeKind)
      rw [h14.grows.kind _ hlt, hkind, if_pos rfl]

lemma addEntities_leads (es : List Description.Entity) (c : ObjectId) (m : Model)
    (h : m.WellBuilt) (hc : m.family c = .entity) :
    Leads (addEntities c es) m fun _ m' => m.Extends m' := by
  match es with
  | [] => exact .pure (Furnishes.refl h).extends
  | e :: es =>
    unfold addEntities
    refine .bind (addEntity_leads e (some c) m ⟨h, hc⟩) fun _ m' ⟨h', _⟩ => ?_
    have hc' : m'.family c = .entity := by
      rw [h'.grows.family (lt_size_of_family (by simp [hc])), hc]
    exact (addEntities_leads es c m' h'.wellBuilt hc').mono fun _ m'' h'' => h'.trans h''
end

lemma isSome_director?_iff (h : m.Shape) :
    (m.director? c).isSome ↔ ∃ d, m.container d = some c ∧ m.isDirector d := by
  rw [director?, find?_isSome]
  refine exists_congr fun d => ⟨fun hd => ?_, fun hd => ⟨?_, hd.2⟩⟩
  · exact ⟨((h.mem_contents c .attribute d).1 hd.1).1, hd.2⟩
  · exact (h.mem_contents c .attribute d).2 ⟨hd.1, family_of_isDirector hd.2⟩

lemma addModel_leads (e : Description.Entity) :
    Leads (addModel e) empty fun _ m => m.WellBuilt ∧ (∀ o, m.Equipped o) ∧
      (m.director? top).isSome ∧ m.kind top = .composite := by
  unfold addModel
  split
  · exact .throw_bind
  · rename_i hkind
    refine .bind (addEntity_leads e none empty rfl) fun _ m1 ⟨h1, htop⟩ => ?_
    have htop := htop (not_not.1 hkind)
    refine .get_bind ?_
    have hequipped : ∀ o, m1.Equipped o := fun o => h1.equipped o (Nat.zero_le _)
    have hshape := h1.wellBuilt.shape
    split
    · rename_i hnone
      have hnone : m1.NoDirector top := by
        intro d hd
        by_contra hdirector
        have hsome := (isSome_director?_iff hshape).2 ⟨d, hd, Bool.not_eq_false _ ▸ hdirector⟩
        rw [isNone_iff_eq_none.1 hnone] at hsome
        cases hsome
      refine (addDirector_leads h1.wellBuilt hshape.top hnone {}).mono ?_
      rintro _ m2 ⟨h2, hdirector⟩
      have h2' := h1.trans h2
      exact ⟨h2'.wellBuilt, fun o => h2'.equipped o (Nat.zero_le _),
        (isSome_director?_iff h2'.wellBuilt.shape).2 hdirector,
        (h2.grows.kind top hshape.top_lt_size).trans htop⟩
    · rename_i hsome
      exact .pure ⟨h1.wellBuilt, hequipped, by simpa [isSome_iff_ne_none] using hsome, htop⟩
end Build
end DataflowSpecializer.Model
