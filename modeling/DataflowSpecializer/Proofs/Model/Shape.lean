import Mathlib.Data.List.Nodup
import DataflowSpecializer.Model.Build
import DataflowSpecializer.Proofs.Data

/-! # The shape of a model

A model grows object by object. Each new object goes into the contents of one container
(`Model.Entered`), where its name is new in its family.
-/
namespace DataflowSpecializer.Model
open List Option
/-! ## Objects -/
def Object.withContent (c : Object) (f : Family) (o : ObjectId) : Object :=
  match f with
  | .attribute => { c with attributes := c.attributes ++ [o] }
  | .port => { c with ports := c.ports ++ [o] }
  | .entity => { c with entities := c.entities ++ [o] }
  | .relation => { c with relations := c.relations ++ [o] }

section Objects
variable {m : Model} {o c : ObjectId}

lemma object_of_le (h : m.objects.size ≤ o) : m.object o = default := by
  rw [object, Array.getD_eq_getD_getElem?, Array.getElem?_eq_none h, getD_none]

lemma lt_size_of_container (h : m.container o = some c) : o < m.objects.size := by
  by_contra hge
  rw [container, object_of_le (Nat.not_lt.1 hge)] at h
  cases h

lemma lt_size_of_family (h : m.family o ≠ .relation) : o < m.objects.size := by
  by_contra hge
  rw [family, kind, object_of_le (Nat.not_lt.1 hge)] at h
  exact h rfl

lemma isEntity_iff : m.isEntity o ↔ m.family o = .entity := by
  unfold isEntity family Kind.family
  split <;> split <;> simp_all

lemma family_of_isDirector (h : m.isDirector o) : m.family o = .attribute := by
  unfold isDirector at h
  split at h
  · rename_i hk
    rw [family, hk, Kind.family]
  · cases h

lemma Object.contents_withContent (b : Object) (f g : Family) :
    (b.withContent f o).contents g = if g = f then b.contents g ++ [o] else b.contents g := by
  cases f <;> cases g <;> rfl

variable (b : Object) (f : Family)

@[simp] lemma Object.name_withContent : (b.withContent f o).name = b.name := by cases f <;> rfl

@[simp] lemma Object.container_withContent : (b.withContent f o).container = b.container := by
  cases f <;> rfl

@[simp] lemma Object.kind_withContent : (b.withContent f o).kind = b.kind := by cases f <;> rfl
@[simp] lemma Object.links_withContent : (b.withContent f o).links = b.links := by cases f <;> rfl

lemma object_modify (g : Object → Object) (x : ObjectId) :
    object { m with objects := m.objects.modify o g } x =
      if x = o ∧ x < m.objects.size then g (m.object x) else m.object x := by
  simp only [object, Array.getD_eq_getD_getElem?, Array.getElem?_modify]
  by_cases hx : x < m.objects.size
  · by_cases ho : o = x
    · simp [ho, hx]
    · simp [ho, hx, Ne.symm ho]
  · simp [hx]

lemma object_push (b : Object) (x : ObjectId) : object { m with objects := m.objects.push b } x =
      if x = m.objects.size then b else m.object x := by
  simp only [object, Array.getD_eq_getD_getElem?, Array.getElem?_push]
  split <;> rfl
end Objects

/-! ## What stays when objects are added -/
structure Grows (m m' : Model) : Prop where
  size : m.objects.size ≤ m'.objects.size
  name : ∀ o < m.objects.size, m'.name o = m.name o
  container : ∀ o < m.objects.size, m'.container o = m.container o
  kind : ∀ o < m.objects.size, m'.kind o = m.kind o

lemma Grows.refl (m : Model) : m.Grows m := ⟨.refl, fun _ _ => rfl, fun _ _ => rfl, fun _ _ => rfl⟩

lemma Grows.trans {m m' : Model} (h : m.Grows m') (h' : m'.Grows m'') : m.Grows m'' where
  size := h.size.trans h'.size
  name o ho := (h'.name o (ho.trans_le h.size)).trans (h.name o ho)
  container o ho := (h'.container o (ho.trans_le h.size)).trans (h.container o ho)
  kind o ho := (h'.kind o (ho.trans_le h.size)).trans (h.kind o ho)

variable {m m' : Model}

lemma Grows.family (h : m.Grows m') (ho : o < m.objects.size) : m'.family o = m.family o := by
  rw [Model.family, h.kind o ho, Model.family]

lemma Grows.isDirector (h : m.Grows m') (ho : o < m.objects.size) :
    m'.isDirector o = m.isDirector o := by
  rw [Model.isDirector, h.kind o ho, Model.isDirector]

structure Entered (m : Model) (c : ObjectId) (name : String) (kind : Kind) (m' : Model) : Prop where
  size : m'.objects.size = m.objects.size + 1
  fresh : m'.object m.objects.size =
    ⟨name, m.fullName c ++ "." ++ name, some c, kind, [], [], [], [], []⟩
  old : ∀ o < m.objects.size, m'.object o =
    if o = c then (m.object o).withContent kind.family m.objects.size else m.object o

namespace Entered
variable {m m' : Model} {c : ObjectId} {name : String} {kind : Kind} {o : ObjectId}

variable (h : m.Entered c name kind m')

include h

lemma name_old (ho : o < m.objects.size) : m'.name o = m.name o := by
  rw [Model.name, h.old o ho, Model.name]
  split
  · exact Object.name_withContent ..
  · rfl

lemma container_old (ho : o < m.objects.size) : m'.container o = m.container o := by
  rw [Model.container, h.old o ho, Model.container]
  split
  · exact Object.container_withContent ..
  · rfl

lemma kind_old (ho : o < m.objects.size) : m'.kind o = m.kind o := by
  rw [Model.kind, h.old o ho, Model.kind]
  split
  · exact Object.kind_withContent ..
  · rfl

lemma grows : m.Grows m' where
  size := h.size ▸ Nat.le_succ _
  name _ := h.name_old
  container _ := h.container_old
  kind _ := h.kind_old

lemma name_fresh : m'.name m.objects.size = name := by rw [Model.name, h.fresh]

lemma container_fresh : m'.container m.objects.size = some c := by rw [Model.container, h.fresh]

lemma kind_fresh : m'.kind m.objects.size = kind := by rw [Model.kind, h.fresh]

lemma family_fresh : m'.family m.objects.size = kind.family := by rw [Model.family, h.kind_fresh]

lemma cases (o : ObjectId) : o < m.objects.size ∨ o = m.objects.size ∨ m'.objects.size ≤ o := by
  rw [h.size]
  exact Nat.lt_trichotomy o m.objects.size

lemma links (o : ObjectId) : (m'.object o).links = (m.object o).links := by
  obtain ho | rfl | ho := h.cases o
  · rw [h.old o ho]
    split
    · exact Object.links_withContent ..
    · rfl
  · rw [h.fresh, object_of_le .refl]
    rfl
  · rw [object_of_le ho, object_of_le (h.grows.size.trans ho)]

lemma contents (hc : c < m.objects.size) (o : ObjectId) (f : Family) : (m'.object o).contents f =
      if o = c ∧ f = kind.family then (m.object o).contents f ++ [m.objects.size]
      else (m.object o).contents f := by
  obtain ho | rfl | ho := h.cases o
  · rw [h.old o ho]
    by_cases hoc : o = c
    · simp only [hoc, if_true, true_and, Object.contents_withContent]
    · simp only [hoc, if_false, false_and]
  · rw [h.fresh, object_of_le .refl, if_neg (fun h => Nat.ne_of_gt hc h.1)]
    cases f <;> rfl
  · have hoc : o ≠ c := Nat.ne_of_gt (hc.trans_le (h.grows.size.trans ho))
    rw [object_of_le ho, object_of_le (h.grows.size.trans ho), if_neg (fun h => hoc h.1)]
end Entered

/-- Entities hold anything; directors hold parameters and ports. -/
def MayHold (m : Model) (c o : ObjectId) : Prop :=
  m.family c = .entity ∨ m.isDirector c ∧ m.isDirector o = false ∧
      (m.family o = .attribute ∨ m.family o = .port)

def NoDirector (m : Model) (c : ObjectId) : Prop :=
  ∀ d, m.container d = some c → m.isDirector d = false

structure Shape (m : Model) : Prop where
  top : m.family top = .entity
  top_container : m.container Model.top = none
  contained : ∀ o < m.objects.size, o ≠ Model.top → ∃ c < o, m.container o = some c
  mayHold : ∀ o c, m.container o = some c → m.MayHold c o
  /-- The contents of a container are the objects that have it as theirs. -/
  mem_contents : ∀ c f o, o ∈ (m.object c).contents f ↔ m.container o = some c ∧ m.family o = f
  nodup : ∀ c f, ((m.object c).contents f).Nodup
  /-- Names are unique within a family of contents. -/
  names : ∀ o o' c, m.container o = some c → m.container o' = some c → m.family o = m.family o' →
    m.name o = m.name o' → o = o'
  directors : ∀ d d' c, m.container d = some c → m.container d' = some c →
    m.isDirector d → m.isDirector d' → d = d'
  links : ∀ a b, (m.object a).links.count b = (m.object b).links.count a
  /-- A relation connects ports of its composite and of the entities in it. -/
  linked : ∀ r p, m.family r = .relation → p ∈ (m.object r).links →
    m.family p = .port ∧ ∃ c, m.container r = some c ∧ (m.container p = some c ∨
        ∃ e, m.container p = some e ∧ m.container e = some c ∧ m.family e = .entity)

structure SameFrame (m m' : Model) : Prop where
  size : m'.objects.size = m.objects.size
  name : ∀ o, m'.name o = m.name o
  container : ∀ o, m'.container o = m.container o
  contents : ∀ o f, (m'.object o).contents f = (m.object o).contents f
  family : ∀ o, m'.family o = m.family o
  isDirector : ∀ o, m'.isDirector o = m.isDirector o

structure Linked (m : Model) (r p : ObjectId) (m' : Model) : Prop where
  size : m'.objects.size = m.objects.size
  object : ∀ o, m'.object o = { m.object o with
    links := (m.object o).links ++ if o = r then [p] else if o = p then [r] else [] }

namespace Linked
variable {m m' : Model} {r p : ObjectId}

lemma sameFrame (h : m.Linked r p m') : m.SameFrame m' where
  size := h.size
  name o := by rw [Model.name, h.object, Model.name]
  container o := by rw [Model.container, h.object, Model.container]
  contents o f := by rw [h.object]; cases f <;> rfl
  family o := by rw [Model.family, kind, h.object, Model.family, kind]
  isDirector o := by rw [Model.isDirector, kind, h.object, Model.isDirector, kind]

lemma links (h : m.Linked r p m') (o : ObjectId) : (m'.object o).links =
    (m.object o).links ++ if o = r then [p] else if o = p then [r] else [] := by
  rw [h.object]
end Linked

namespace Shape
variable {m m' : Model} {o c : ObjectId}

lemma container_lt (h : m.Shape) (hc : m.container o = some c) : c < o := by
  have ho : o ≠ Model.top := by
    rintro rfl
    rw [h.top_container] at hc
    cases hc
  obtain ⟨c', hlt, hc'⟩ := h.contained o (lt_size_of_container hc) ho
  rwa [some.inj (hc.symm.trans hc')]

lemma container_lt_size (h : m.Shape) (hc : m.container o = some c) : c < m.objects.size :=
  (h.container_lt hc).trans (lt_size_of_container hc)

lemma top_lt_size (h : m.Shape) : Model.top < m.objects.size := lt_size_of_family (by simp [h.top])

lemma lookup?_eq_some (h : m.Shape) {f : Family} {name : String} :
    m.lookup? c f name = some o ↔ m.container o = some c ∧ m.family o = f ∧ m.name o = name := by
  constructor
  · intro hfound
    obtain ⟨hc, hf⟩ := (h.mem_contents c f o).1 (mem_of_find?_eq_some hfound)
    exact ⟨hc, hf, by simpa using find?_some hfound⟩
  · rintro ⟨hc, rfl, rfl⟩
    have hmem := (h.mem_contents c _ o).2 ⟨hc, rfl⟩
    cases hfound : m.lookup? c (m.family o) (m.name o) with
    | none => simpa using find?_eq_none.1 hfound o hmem
    | some o' =>
      obtain ⟨hc', hf'⟩ := (h.mem_contents _ _ o').1 (mem_of_find?_eq_some hfound)
      have hname : m.name o' = m.name o := by simpa using find?_some hfound
      rw [h.names o' o c hc' hc hf' hname]

section Enter
variable {name : String} {kind : Kind}

variable (h : m.Shape)

include h

lemma mem_contents_enter (hc : c < m.objects.size) (he : m.Entered c name kind m')
    (b : ObjectId) (f : Family) (o : ObjectId) :
    o ∈ (m'.object b).contents f ↔ m'.container o = some b ∧ m'.family o = f := by
  have hold : ∀ {o}, o ∈ (m.object b).contents f → o < m.objects.size := fun ho =>
    lt_size_of_container ((h.mem_contents b f _).1 ho).1
  rw [he.contents hc]
  obtain ho | rfl | ho := he.cases o
  · rw [he.container_old ho, he.grows.family ho, ← h.mem_contents]
    split
    · simp [Nat.ne_of_lt ho]
    · rfl
  · rw [he.container_fresh, he.family_fresh]
    split
    · rename_i hb
      simp [hb]
    · rename_i hb
      refine ⟨fun hmem => absurd (hold hmem) (Nat.lt_irrefl _), fun hb' => absurd ?_ hb⟩
      exact ⟨(some.inj hb'.1).symm, hb'.2.symm⟩
  · have hnone : m'.container o = none := by rw [Model.container, object_of_le ho]; rfl
    have hlt : m.objects.size < o := Nat.lt_of_lt_of_le (he.size ▸ Nat.lt_succ_self _) ho
    rw [hnone]
    split
    · simp only [mem_append, mem_singleton, Nat.ne_of_gt hlt, or_false, reduceCtorEq,
        false_and, iff_false]
      exact fun hmem => Nat.lt_asymm hlt (hold hmem)
    · simp only [reduceCtorEq, false_and, iff_false]
      exact fun hmem => Nat.lt_asymm hlt (hold hmem)

lemma nodup_enter (hc : c < m.objects.size) (he : m.Entered c name kind m')
    (b : ObjectId) (f : Family) : ((m'.object b).contents f).Nodup := by
  rw [he.contents hc]
  split
  · rw [← concat_eq_append]
    refine (h.nodup b f).concat fun hmem => ?_
    exact Nat.lt_irrefl _ (lt_size_of_container ((h.mem_contents b f _).1 hmem).1)
  · exact h.nodup b f

lemma names_enter (hnew : m.lookup? c kind.family name = none)
    (he : m.Entered c name kind m') (hb : m'.container o = some b)
    (hb' : m'.container o' = some b) (hf : m'.family o = m'.family o')
    (hname : m'.name o = m'.name o') : o = o' := by
  -- a name that was looked up in vain is none of the old ones
  have hnone : ∀ o < m.objects.size, m'.container o = some c → m'.family o = kind.family →
      m'.name o ≠ name := by
    intro o ho hc hf hname
    rw [he.container_old ho] at hc
    rw [he.grows.family ho] at hf
    rw [he.name_old ho] at hname
    have hfound := h.lookup?_eq_some.2 ⟨hc, hf, hname⟩
    rw [hnew] at hfound
    cases hfound
  obtain ho | rfl | ho := he.cases o
  · obtain ho' | rfl | ho' := he.cases o'
    · rw [he.container_old ho] at hb
      rw [he.container_old ho'] at hb'
      rw [he.grows.family ho, he.grows.family ho'] at hf
      rw [he.name_old ho, he.name_old ho'] at hname
      exact h.names o o' b hb hb' hf hname
    · rw [he.container_fresh] at hb'
      obtain rfl := some.inj hb'
      exact absurd (hname.trans he.name_fresh) (hnone o ho hb (hf.trans he.family_fresh))
    · exact absurd (lt_size_of_container hb') ho'.not_gt
  · obtain ho' | rfl | ho' := he.cases o'
    · rw [he.container_fresh] at hb
      obtain rfl := some.inj hb
      exact absurd (hname.symm.trans he.name_fresh) (hnone o' ho' hb' (hf.symm.trans he.family_fresh))
    · rfl
    · exact absurd (lt_size_of_container hb') ho'.not_gt
  · exact absurd (lt_size_of_container hb) ho.not_gt

lemma directors_enter (he : m.Entered c name kind m')
    (hdirector : m'.isDirector m.objects.size → m.NoDirector c)
    (hb : m'.container d = some b) (hb' : m'.container d' = some b)
    (hd : m'.isDirector d) (hd' : m'.isDirector d') : d = d' := by
  have hold : ∀ d < m.objects.size, m'.container d = some c → m'.isDirector m.objects.size →
      m'.isDirector d = false := by
    intro d hlt hc hfresh
    rw [he.container_old hlt] at hc
    rw [he.grows.isDirector hlt]
    exact hdirector hfresh d hc
  obtain hlt | rfl | hge := he.cases d
  · obtain hlt' | rfl | hge' := he.cases d'
    · rw [he.container_old hlt] at hb
      rw [he.container_old hlt'] at hb'
      rw [he.grows.isDirector hlt] at hd
      rw [he.grows.isDirector hlt'] at hd'
      exact h.directors d d' b hb hb' hd hd'
    · obtain rfl := some.inj (he.container_fresh.symm.trans hb')
      rw [hold d hlt hb hd'] at hd
      cases hd
    · exact absurd (lt_size_of_container hb') hge'.not_gt
  · obtain hlt' | rfl | hge' := he.cases d'
    · obtain rfl := some.inj (he.container_fresh.symm.trans hb)
      rw [hold d' hlt' hb' hd] at hd'
      cases hd'
    · rfl
    · exact absurd (lt_size_of_container hb') hge'.not_gt
  · exact absurd (lt_size_of_container hb) hge.not_gt

lemma linked_enter (he : m.Entered c name kind m')
    (hr : m'.family r = .relation) (hp : p ∈ (m'.object r).links) :
    m'.family p = .port ∧ ∃ b, m'.container r = some b ∧ (m'.container p = some b ∨
        ∃ e, m'.container p = some e ∧ m'.container e = some b ∧ m'.family e = .entity) := by
  rw [he.links] at hp
  have hlt : r < m.objects.size := by
    by_contra hge
    rw [object_of_le (Nat.not_lt.1 hge)] at hp
    cases hp
  rw [he.grows.family hlt] at hr
  obtain ⟨hport, b, hb, hcontainer⟩ := h.linked r p hr hp
  have hp : p < m.objects.size := lt_size_of_family (by simp [hport])
  rw [he.grows.family hp, he.container_old hlt, he.container_old hp]
  refine ⟨hport, b, hb, ?_⟩
  obtain hpb | ⟨e, hpe, heb, hentity⟩ := hcontainer
  · exact .inl hpb
  · have he' := lt_size_of_container heb
    exact .inr ⟨e, hpe, (he.container_old he').trans heb, (he.grows.family he').trans hentity⟩

lemma enter (hc : c < m.objects.size) (he : m.Entered c name kind m')
    (hnew : m.lookup? c kind.family name = none) (hhold : m'.MayHold c m.objects.size)
    (hdirector : m'.isDirector m.objects.size → m.NoDirector c) : m'.Shape where
  top := (he.grows.family h.top_lt_size).trans h.top
  top_container := (he.container_old h.top_lt_size).trans h.top_container
  contained o ho htop := by
    obtain hlt | rfl | hge := he.cases o
    · obtain ⟨b, hb, hcontainer⟩ := h.contained o hlt htop
      exact ⟨b, hb, (he.container_old hlt).trans hcontainer⟩
    · exact ⟨c, hc, he.container_fresh⟩
    · exact absurd ho hge.not_gt
  mayHold o b hb := by
    obtain hlt | rfl | hge := he.cases o
    · rw [he.container_old hlt] at hb
      have hold := h.mayHold o b hb
      have hlt' := h.container_lt_size hb
      rwa [MayHold, he.grows.family hlt', he.grows.isDirector hlt', he.grows.isDirector hlt,
        he.grows.family hlt]
    · rwa [← some.inj (he.container_fresh.symm.trans hb)]
    · exact absurd (lt_size_of_container hb) hge.not_gt
  mem_contents := h.mem_contents_enter hc he
  nodup := h.nodup_enter hc he
  names _ _ _ := h.names_enter hnew he
  directors _ _ _ := h.directors_enter he hdirector
  links a b := by rw [he.links, he.links, h.links]
  linked _ _ := h.linked_enter he
end Enter

lemma of_sameFrame (h : m.Shape) (hf : m.SameFrame m')
    (links : ∀ a b, (m'.object a).links.count b = (m'.object b).links.count a)
    (linked : ∀ r p, m.family r = .relation → p ∈ (m'.object r).links →
      m.family p = .port ∧ ∃ c, m.container r = some c ∧ (m.container p = some c ∨
          ∃ e, m.container p = some e ∧ m.container e = some c ∧ m.family e = .entity)) :
    m'.Shape where
  top := (hf.family _).trans h.top
  top_container := (hf.container _).trans h.top_container
  contained := by simpa only [hf.size, hf.container] using h.contained
  mayHold := by simpa only [MayHold, hf.container, hf.family, hf.isDirector] using h.mayHold
  mem_contents := by simpa only [hf.contents, hf.container, hf.family] using h.mem_contents
  nodup := by simpa only [hf.contents] using h.nodup
  names := by simpa only [hf.container, hf.family, hf.name] using h.names
  directors := by simpa only [hf.container, hf.isDirector] using h.directors
  links := links
  linked := by simpa only [hf.container, hf.family] using linked

lemma of_sameFrame_of_links (h : m.Shape) (hf : m.SameFrame m')
    (hlinks : ∀ o, (m'.object o).links = (m.object o).links) : m'.Shape :=
  h.of_sameFrame hf (by simpa only [hlinks] using h.links) (by simpa only [hlinks] using h.linked)

lemma link (h : m.Shape) (hl : m.Linked r p m') (hr : m.family r = .relation)
    (hp : m.family p = .port) (hc : m.container r = some c) (hpc : m.container p = some c ∨
      ∃ e, m.container p = some e ∧ m.container e = some c ∧ m.family e = .entity) : m'.Shape := by
  have hne : r ≠ p := by
    rintro rfl
    rw [hr] at hp
    cases hp
  refine h.of_sameFrame hl.sameFrame (fun a b => ?_) fun r' p' hr' hp' => ?_
  · rw [hl.links, hl.links, count_append, count_append, h.links a b]
    congr 1
    by_cases har : a = r <;> by_cases hap : a = p <;> by_cases hbr : b = r <;> by_cases hbp : b = p <;>
      simp_all [eq_comm]
  · rw [hl.links, mem_append] at hp'
    obtain hold | hnew := hp'
    · exact h.linked r' p' hr' hold
    · split at hnew
      · rename_i heq
        obtain rfl := mem_singleton.1 hnew
        subst heq
        exact ⟨hp, c, hc, hpc⟩
      · split at hnew
        · rename_i heq
          rw [heq, hp] at hr'
          cases hr'
        · cases hnew
end Shape

def portOf? (m : Model) (v : ObjectId) : Option ObjectId := (m.var? v).bind (·.port)
def parameterOf? (m : Model) (p : ObjectId) : Option ObjectId := (m.port? p).bind (·.parameter)

structure Paired (m : Model) : Prop where
  port_iff : ∀ v p, m.portOf? v = some p ↔ m.parameterOf? p = some v
  isPortParameter : ∀ v x, m.var? v = some x → x.isPortParameter = x.port.isSome
  beside : ∀ v p, m.portOf? v = some p → m.container p = m.container v ∧ m.name p = m.name v

lemma Entered.kind_eq {c : ObjectId} {name : String} {kind : Kind}
    (he : m.Entered c name kind m') (o : ObjectId) :
    m'.kind o = if o = m.objects.size then kind else m.kind o := by
  obtain ho | rfl | ho := he.cases o
  · rw [he.kind_old ho, if_neg ho.ne]
  · rw [he.kind_fresh, if_pos rfl]
  · have hlt : m.objects.size < o := Nat.lt_of_lt_of_le (he.size ▸ Nat.lt_succ_self _) ho
    rw [if_neg hlt.ne', Model.kind, object_of_le ho, Model.kind, object_of_le hlt.le]

lemma lt_size_of_portOf? {m : Model} (h : m.portOf? v = some p) : v < m.objects.size := by
  by_contra hge
  rw [portOf?, var?, kind, object_of_le (Nat.not_lt.1 hge)] at h
  cases h

lemma lt_size_of_parameterOf? {m : Model} (h : m.parameterOf? p = some v) : p < m.objects.size := by
  by_contra hge
  rw [parameterOf?, port?, kind, object_of_le (Nat.not_lt.1 hge)] at h
  cases h

namespace Paired
variable {m m' : Model} {c : ObjectId} {name : String} {kind : Kind}

lemma enter (h : m.Paired) (he : m.Entered c name kind m')
    (hvar : ∀ x, kind = .var x → x.port = none ∧ x.isPortParameter = false)
    (hport : ∀ y, kind = .port y → y.parameter = none) : m'.Paired := by
  have hportOf : ∀ v, m'.portOf? v = m.portOf? v := by
    intro v
    simp only [portOf?, var?, he.kind_eq]
    by_cases hv : v = m.objects.size
    · rw [if_pos hv, hv, Model.kind, object_of_le .refl]
      cases kind with
      | var x => exact (hvar x rfl).1
      | _ => rfl
    · rw [if_neg hv]
  have hparameterOf : ∀ p, m'.parameterOf? p = m.parameterOf? p := by
    intro p
    simp only [parameterOf?, port?, he.kind_eq]
    by_cases hp : p = m.objects.size
    · rw [if_pos hp, hp, Model.kind, object_of_le .refl]
      cases kind with
      | port y => exact hport y rfl
      | _ => rfl
    · rw [if_neg hp]
  refine ⟨fun v p => ?_, fun v x hx => ?_, fun v p hp => ?_⟩
  · rw [hportOf, hparameterOf, h.port_iff]
  · simp only [var?, he.kind_eq] at hx
    by_cases hv : v = m.objects.size
    · rw [if_pos hv] at hx
      cases kind with
      | var x' =>
        obtain rfl := some.inj hx
        rw [(hvar x' rfl).1, (hvar x' rfl).2, isSome_none]
      | _ => cases hx
    · rw [if_neg hv] at hx
      exact h.isPortParameter v x hx
  · rw [hportOf] at hp
    have hv := lt_size_of_portOf? hp
    have hp' := lt_size_of_parameterOf? ((h.port_iff v p).1 hp)
    rw [he.container_old hv, he.container_old hp', he.name_old hv, he.name_old hp']
    exact h.beside v p hp

lemma enterPair {m1 m2 : Model} {x : Variable} {y : Port} (h : m.Paired)
    (hv : m.Entered c name (.var x) m1) (hp : m1.Entered c name (.port y) m2)
    (hx : x.isPortParameter) (hy : y.parameter = some m.objects.size)
    (hobject : ∀ o, m'.object o = if o = m.objects.size then
      { m2.object o with kind := .var { x with port := some m1.objects.size } }
      else m2.object o) : m'.Paired := by
  have hlt : m.objects.size < m1.objects.size := hv.size ▸ Nat.lt_succ_self _
  have hkind : ∀ o, o ≠ m.objects.size → m'.kind o =
      if o = m1.objects.size then .port y else m.kind o := by
    intro o ho
    rw [Model.kind, hobject, if_neg ho, ← Model.kind, hp.kind_eq, hv.kind_eq, if_neg ho]
  have hkind_var : m'.kind m.objects.size = .var { x with port := some m1.objects.size } := by
    rw [Model.kind, hobject, if_pos rfl]
  have hbeside : ∀ o, m'.container o = m2.container o ∧ m'.name o = m2.name o := by
    intro o
    rw [Model.container, Model.name, hobject]
    split <;> exact ⟨rfl, rfl⟩
  -- both links of the new pair are added to those of the old ones
  have hportOf : ∀ v, m'.portOf? v =
      if v = m.objects.size then some m1.objects.size else m.portOf? v := by
    intro v
    by_cases hv' : v = m.objects.size
    · rw [if_pos hv', hv', portOf?, var?, hkind_var]
      rfl
    · rw [if_neg hv', portOf?, var?, hkind v hv', portOf?, var?]
      by_cases hv'' : v = m1.objects.size
      · rw [if_pos hv'', Model.kind, object_of_le (hv''.symm ▸ hlt.le)]
        rfl
      · rw [if_neg hv'']
  have hparameterOf : ∀ p, m'.parameterOf? p =
      if p = m1.objects.size then some m.objects.size else m.parameterOf? p := by
    intro p
    by_cases hp' : p = m.objects.size
    · rw [hp', if_neg hlt.ne, parameterOf?, port?, hkind_var, parameterOf?, port?,
        Model.kind, object_of_le .refl]
      rfl
    · rw [parameterOf?, port?, hkind p hp', parameterOf?, port?]
      by_cases hp'' : p = m1.objects.size
      · rw [if_pos hp'', if_pos hp'']
        exact hy
      · rw [if_neg hp'', if_neg hp'']
  have hold : ∀ {v p}, m.portOf? v = some p → v < m.objects.size ∧ p < m.objects.size :=
    fun hvp => ⟨lt_size_of_portOf? hvp, lt_size_of_parameterOf? ((h.port_iff _ _).1 hvp)⟩
  refine ⟨fun v p => ?_, fun v z hz => ?_, fun v p hvp => ?_⟩
  · rw [hportOf, hparameterOf]
    split <;> split
    · rename_i hv' hp'
      simp [hv', hp']
    · rename_i hv' hp'
      refine ⟨fun heq => absurd (some.inj heq).symm hp', fun heq => ?_⟩
      exact absurd (hold ((h.port_iff v p).2 heq)).1 (by simp [hv'])
    · rename_i hv' hp'
      refine ⟨fun heq => ?_, fun heq => absurd (some.inj heq).symm hv'⟩
      exact absurd (hold heq).2 (by simp [hp', hv.size])
    · exact h.port_iff v p
  · by_cases hv' : v = m.objects.size
    · rw [var?, hv', hkind_var] at hz
      rw [← some.inj hz]
      exact hx
    · rw [var?, hkind v hv'] at hz
      split at hz
      · rename_i hk
        split at hk
        · cases hk
        · exact h.isPortParameter v z (by rw [var?, hk]; exact hz)
      · cases hz
  · rw [(hbeside v).1, (hbeside v).2, (hbeside p).1, (hbeside p).2]
    rw [hportOf] at hvp
    split at hvp
    · rename_i hv'
      rw [hv', ← some.inj hvp, hp.container_fresh, hp.name_fresh, hp.container_old hlt,
        hp.name_old hlt, hv.container_fresh, hv.name_fresh]
      exact ⟨rfl, rfl⟩
    · obtain ⟨hv', hp'⟩ := hold hvp
      have hgrows := hv.grows.trans hp.grows
      rw [hgrows.container v hv', hgrows.container p hp', hgrows.name v hv', hgrows.name p hp']
      exact h.beside v p hvp
end Paired
end DataflowSpecializer.Model
