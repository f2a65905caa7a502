import Mathlib.Data.List.Basic
import DataflowSpecializer.Proofs.Model.Loading

/-! # The structure of a loaded model -/
namespace DataflowSpecializer.Model
open List Option
section Containers
variable {m : Model} {o c e : ObjectId}

lemma ancestors_of_container (h : m.Shape) (hc : m.container o = some c) :
    m.ancestors o = c :: m.ancestors c := by
  rw [ancestors]
  simp [hc, h.container_lt hc]

lemma ancestors_of_none (hc : m.container o = none) : m.ancestors o = [] := by
  rw [ancestors]
  simp [hc]

variable (h : m.Shape)

include h

lemma Shape.entity_of_container (ho : m.family o = .entity)
    (hc : m.container o = some c) : m.family c = .entity := by
  obtain hc | ⟨-, -, hf | hf⟩ := h.mayHold o c hc
  · exact hc
  · rw [ho] at hf
    cases hf
  · rw [ho] at hf
    cases hf

lemma le_of_mem_ancestors (he : e ∈ o :: m.ancestors o) : e ≤ o := by
  induction o using Nat.strongRecOn with
  | ind o ih =>
    obtain rfl | he := mem_cons.1 he
    · exact .refl
    · cases hc : m.container o with
      | none =>
        rw [ancestors_of_none hc] at he
        cases he
      | some c =>
        rw [ancestors_of_container h hc] at he
        have hlt := h.container_lt hc
        exact (ih c hlt he).trans hlt.le

lemma mem_ancestors_trans (hc : c ∈ o :: m.ancestors o)
    (he : e ∈ c :: m.ancestors c) : e ∈ o :: m.ancestors o := by
  induction o using Nat.strongRecOn with
  | ind o ih =>
    obtain rfl | hc := mem_cons.1 hc
    · exact he
    · cases ho : m.container o with
      | none =>
        rw [ancestors_of_none ho] at hc
        cases hc
      | some b =>
        rw [ancestors_of_container h ho] at hc ⊢
        exact .tail _ (ih b (h.container_lt ho) hc)

lemma eq_of_mem_ancestors (hx : x ∈ o :: m.ancestors o)
    (hy : y ∈ o :: m.ancestors o) (hxe : m.container x = some e) (hye : m.container y = some e) :
    x = y := by
  -- what lies above the container of an object is not that object
  have habove : ∀ {x}, m.container x = some e → x ∉ e :: m.ancestors e := fun hxe hmem =>
    Nat.not_lt.2 (le_of_mem_ancestors h hmem) (h.container_lt hxe)
  induction o using Nat.strongRecOn with
  | ind o ih =>
    cases ho : m.container o with
    | none =>
      rw [ancestors_of_none ho, mem_singleton] at hx hy
      rw [hx, hy]
    | some c =>
      rw [ancestors_of_container h ho] at hx hy
      obtain rfl | hx' := mem_cons.1 hx
      · obtain rfl | hy' := mem_cons.1 hy
        · rfl
        · obtain rfl := some.inj (ho.symm.trans hxe)
          exact absurd hy' (habove hye)
      · obtain rfl | hy' := mem_cons.1 hy
        · obtain rfl := some.inj (ho.symm.trans hye)
          exact absurd hx' (habove hxe)
        · exact ih c (h.container_lt ho) hx' hy'

lemma top_mem_ancestors (ho : o < m.objects.size) : top ∈ o :: m.ancestors o := by
  induction o using Nat.strongRecOn with
  | ind o ih =>
    by_cases htop : o = top
    · rw [htop]
      exact .head _
    · obtain ⟨c, hlt, hc⟩ := h.contained o ho htop
      rw [ancestors_of_container h hc]
      exact .tail _ (ih c hlt (h.container_lt_size hc))
end Containers

section Entities
variable {m : Model} {e o : ObjectId} {c : ObjectId}

lemma mem_entities_iff (h : m.Shape) :
    o ∈ (m.object c).entities ↔ m.container o = some c ∧ m.family o = .entity :=
  h.mem_contents c .entity o

lemma of_mem_entitiesFrom (h : m.Shape) (he : m.family e = .entity)
    (ho : o ∈ m.entitiesFrom n e) : m.family o = .entity ∧ e ∈ o :: m.ancestors o := by
  induction n generalizing e with
  | zero => cases ho
  | succ n ih =>
    obtain rfl | ho := mem_cons.1 ho
    · exact ⟨he, (.head _)⟩
    · obtain ⟨c, hc, ho⟩ := mem_flatMap.1 ho
      obtain ⟨hce, hc⟩ := (mem_entities_iff h).1 hc
      obtain ⟨hentity, hmem⟩ := ih hc ho
      refine ⟨hentity, mem_ancestors_trans h hmem ?_⟩
      rw [ancestors_of_container h hce]
      exact .tail _ (.head _)

lemma entitiesFrom_subset_succ (n : Nat) (e : ObjectId) :
    m.entitiesFrom n e ⊆ m.entitiesFrom (n + 1) e := by
  induction n generalizing e with
  | zero => exact nil_subset _
  | succ n ih =>
    refine cons_subset_cons _ fun o ho => ?_
    obtain ⟨c, hc, ho⟩ := mem_flatMap.1 ho
    exact mem_flatMap.2 ⟨c, hc, ih c ho⟩

lemma entitiesFrom_subset (h : n ≤ n') (e : ObjectId) :
    m.entitiesFrom n e ⊆ m.entitiesFrom n' e := by
  induction h with
  | refl => exact List.Subset.refl _
  | step _ ih => exact List.Subset.trans ih (entitiesFrom_subset_succ _ e)

lemma mem_entitiesFrom_of_content (hc : c ∈ m.entitiesFrom n e)
    (ho : o ∈ (m.object c).entities) : o ∈ m.entitiesFrom (n + 1) e := by
  induction n generalizing e with
  | zero => cases hc
  | succ n ih =>
    refine .tail _ (mem_flatMap.2 ?_)
    obtain rfl | hc := mem_cons.1 hc
    · exact ⟨o, ho, (.head _)⟩
    · obtain ⟨b, hb, hc⟩ := mem_flatMap.1 hc
      exact ⟨b, hb, ih hc⟩

variable (h : m.Shape)

include h

lemma mem_entities_of_family (ho : m.family o = .entity) : o ∈ m.entities := by
  have hlisted : o ∈ m.entitiesFrom (o + 1) top := by
    induction o using Nat.strongRecOn with
    | ind o ih =>
      by_cases htop : o = top
      · rw [htop]
        exact .head _
      · have hlt := lt_size_of_family (m := m) (o := o) (by simp [ho])
        obtain ⟨c, hlt, hc⟩ := h.contained o hlt htop
        have hcontent := (mem_entities_iff h).2 ⟨hc, ho⟩
        have hlisted := ih c hlt (h.entity_of_container ho hc)
        exact entitiesFrom_subset (Nat.succ_le_succ hlt) top
          (mem_entitiesFrom_of_content hlisted hcontent)
  exact entitiesFrom_subset (lt_size_of_family (by simp [ho])) top hlisted

lemma pairwise_entitiesFrom (n : Nat) (he : m.family e = .entity) :
    (m.entitiesFrom n e).Pairwise fun x y => y ∉ x :: m.ancestors x := by
  induction n generalizing e with
  | zero => exact List.Pairwise.nil
  | succ n ih =>
    refine List.Pairwise.cons (fun y hy hmem => ?_) (pairwise_flatMap.2 ⟨fun c hc => ?_, ?_⟩)
    · -- the contents of an entity come after it
      obtain ⟨c, hc, hy⟩ := mem_flatMap.1 hy
      obtain ⟨hce, hc⟩ := (mem_entities_iff h).1 hc
      have hcy := le_of_mem_ancestors h (of_mem_entitiesFrom h hc hy).2
      have hye := le_of_mem_ancestors h hmem
      exact Nat.not_le.2 (h.container_lt hce) (hcy.trans hye)
    · exact ih ((mem_entities_iff h).1 hc).2
    · refine (h.nodup e .entity).imp_of_mem fun {c c'} hc hc' hne x hx y hy hmem => ?_
      obtain ⟨hce, hc⟩ := (mem_entities_iff h).1 hc
      obtain ⟨hce', hc'⟩ := (mem_entities_iff h).1 hc'
      have hcx := (of_mem_entitiesFrom h hc hx).2
      have hcy := (of_mem_entitiesFrom h hc' hy).2
      exact hne (eq_of_mem_ancestors h hcx (mem_ancestors_trans h hmem hcy) hce hce')

lemma nodup_entities : m.entities.Nodup := by
  refine List.Pairwise.imp ?_ (pairwise_entitiesFrom h m.objects.size h.top)
  rintro x _ hmem rfl
  exact hmem (.head _)

lemma count_entities (o : ObjectId) : m.entities.count o = if m.isEntity o then 1 else 0 := by
  split
  · rename_i ho
    exact count_eq_one_of_mem (nodup_entities h) (mem_entities_of_family h (isEntity_iff.1 ho))
  · rename_i ho
    refine count_eq_zero.2 fun hmem => ho (isEntity_iff.2 ?_)
    exact (of_mem_entitiesFrom h h.top hmem).1

lemma idxOf_container_lt (ho : m.isEntity o)
    (hc : m.container o = some c) : m.entities.idxOf c < m.entities.idxOf o := by
  have hentity := isEntity_iff.1 ho
  have hmem := mem_entities_of_family h hentity
  have hmemc := mem_entities_of_family h (h.entity_of_container hentity hc)
  by_contra hle
  have hne : m.entities.idxOf o ≠ m.entities.idxOf c := fun heq =>
    Nat.ne_of_gt (h.container_lt hc) ((idxOf_inj hmem).1 heq)
  have hlt := Nat.lt_of_le_of_ne (Nat.not_lt.1 hle) hne
  have hpair : c ∉ o :: m.ancestors o := by
    simpa only [getElem_idxOf] using
      pairwise_iff_getElem.1 (pairwise_entitiesFrom h m.objects.size h.top) _ _
        (idxOf_lt_length_of_mem hmem) (idxOf_lt_length_of_mem hmemc) hlt
  rw [ancestors_of_container h hc] at hpair
  exact hpair (.tail _ (.head _))
end Entities

/-- What holds of the objects of a model: the containers, the contents and their names, the
connections, the port-parameters and the list of entities. -/
structure WellFormed (m : Model) : Prop where
  /-- Every object but the top-level entity is in a container that comes before it. -/
  container : ∀ o < m.objects.size, if o = top then m.container o = none
    else ∃ c < o, m.container o = some c
  /-- An object is once among the contents of its container, in its own family, and nowhere
  else. -/
  contents : ∀ o c, m.container o = some c → ∀ b f,
    ((m.object b).contents f).count o = if b = c ∧ f = m.family o then 1 else 0
  /-- Contents of one family have different names. -/
  names : ∀ c f, (((m.object c).contents f).map m.name).Nodup
  /-- An object is found by its name. -/
  lookup : ∀ o c, m.container o = some c → m.lookup? c (m.family o) (m.name o) = some o
  /-- A relation lists a port as often as the port lists the relation. -/
  links : ∀ r p, m.family r = .relation → m.family p = .port →
    (m.object r).links.count p = (m.object p).links.count r
  /-- A port-parameter has a port. -/
  portParameter : ∀ v x, m.var? v = some x → x.isPortParameter = x.port.isSome
  /-- A port-parameter and its port point at each other. -/
  pairs : ∀ v p, (∃ x, m.var? v = some x ∧ x.port = some p) ↔
    ∃ y, m.port? p = some y ∧ y.parameter = some v
  /-- The entities are listed once each. -/
  entities : ∀ o, m.entities.count o = if m.isEntity o then 1 else 0
  /-- An entity is listed after its container. -/
  order : ∀ o c, m.isEntity o → m.container o = some c →
    m.entities.idxOf c < m.entities.idxOf o

lemma Shape.count_contents {m : Model} (h : m.Shape)
    (hc : m.container o = some c) (b : ObjectId) (f : Family) :
    ((m.object b).contents f).count o = if b = c ∧ f = m.family o then 1 else 0 := by
  split
  · rename_i heq
    exact count_eq_one_of_mem (h.nodup b f) ((h.mem_contents b f o).2 ⟨heq.1 ▸ hc, heq.2.symm⟩)
  · rename_i hne
    refine count_eq_zero.2 fun hmem => hne ?_
    obtain ⟨hb, hf⟩ := (h.mem_contents b f o).1 hmem
    exact ⟨some.inj (hb.symm.trans hc), hf.symm⟩

lemma Shape.nodup_names {m : Model} (h : m.Shape) (c : ObjectId) (f : Family) :
    (((m.object c).contents f).map m.name).Nodup := by
  refine (nodup_map_iff_inj_on (h.nodup c f)).2 fun o ho o' ho' hname => ?_
  obtain ⟨hc, hf⟩ := (h.mem_contents c f o).1 ho
  obtain ⟨hc', hf'⟩ := (h.mem_contents c f o').1 ho'
  exact h.names o o' c hc hc' (hf.trans hf'.symm) hname

/-- Every model that loads is well-formed. -/
theorem wellFormed_of_ofDescription (d : Description.Entity) (m : Model)
    (h : ofDescription d = .ok m) : m.WellFormed := by
  obtain ⟨⟨hshape, hpaired⟩, -, -⟩ := wellBuilt_of_ofDescription h
  exact {
    container := fun o ho => by
      split
      · rename_i htop
        rw [htop, hshape.top_container]
      · rename_i htop
        exact hshape.contained o ho htop
    contents := fun o c hc => hshape.count_contents hc
    names := hshape.nodup_names
    lookup := fun o c hc => hshape.lookup?_eq_some.2 ⟨hc, rfl, rfl⟩
    links := fun r p _ _ => hshape.links r p
    portParameter := hpaired.isPortParameter
    pairs := fun v p => by
      simpa only [portOf?, parameterOf?, bind_eq_some_iff] using hpaired.port_iff v p
    entities := count_entities hshape
    order := fun o c => idxOf_container_lt hshape }

def nestedComposite : Description.Entity where
  name := "M"
  entities :=
    [{ name := "c", kind := "Const" },
      { name := "a"
        parameters := [{ name := "gain", expression := "2", kind := .portParameter }]
        entities := [{ name := "s", kind := "Scale" }] }]
  relations := [{ name := "r", links := ["c.output", "a.gain", "a.gain"] }]

/-- A port that is connected twice, two containers deep. -/
theorem wellFormed_nestedComposite :
    ∃ m, ofDescription nestedComposite = .ok m ∧ m.entities.length = 4 ∧ m.WellFormed := by
  have h : ((ofDescription nestedComposite).toOption.any fun m => m.entities.length = 4) := by
    decide +kernel
  obtain ⟨m, hm, hlength⟩ := exists_ok_of_any h
  exact ⟨m, hm, of_decide_eq_true hlength, wellFormed_of_ofDescription _ m hm⟩
end DataflowSpecializer.Model
