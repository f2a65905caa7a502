import DataflowSpecializer.Proofs.Fitness.Consistency
import DataflowSpecializer.Proofs.Model.Structure

/-! # What constructors create

The constructor of an object's class creates everything that the object contains, each thing once
(`Classes.creates`), and finds the ports of inner entities that relations link.
-/
namespace DataflowSpecializer.Classes
open List SortedMap Model Specialize
open Platform Draft DataflowSpecializer.Specialization

variable {m : Model} {o x : ObjectId} {v p : ObjectId} {e d : ObjectId} {α β : Type}

lemma director?_eq_some_iff (hm : m.Shape) :
    m.director? e = some d ↔ m.container d = some e ∧ m.isDirector d := by
  have hof {d : ObjectId} (hd : m.director? e = some d) :
      m.container d = some e ∧ m.isDirector d :=
    ⟨((hm.mem_contents e .attribute d).1 (mem_of_find?_eq_some hd)).1, find?_some hd⟩
  refine ⟨hof, fun hd => ?_⟩
  obtain ⟨d', hd'⟩ := Option.isSome_iff_exists.1 ((Model.Build.isSome_director?_iff hm).2 ⟨d, hd⟩)
  obtain ⟨hcontainer, hdirector⟩ := hof hd'
  rw [hd', hm.directors d' d e hcontainer hd.1 hdirector hd.2]

lemma entity_of_director (hm : m.Shape) (hcontainer : m.container d = some e)
    (hd : m.isDirector d) : m.family e = .entity := by
  rcases hm.mayHold d e hcontainer with he | ⟨-, hd', -⟩
  · exact he
  · rw [hd] at hd'
    cases hd'

lemma isDirector_eq_false (ho : m.family o = .entity) : m.isDirector o = false := by
  by_contra h
  rw [family_of_isDirector (Bool.not_eq_false _ ▸ h)] at ho
  cases ho

lemma mem_owners_iff (hm : m.Shape) :
    o ∈ owners m ↔ m.isEntity o ∨ m.isDirector o := by
  have hentity {e : ObjectId} : e ∈ m.entities ↔ m.family e = .entity :=
    ⟨fun he => (of_mem_entitiesFrom hm hm.top he).1, mem_entities_of_family hm⟩
  simp only [owners, mem_flatMap, mem_cons, Option.mem_toList, hentity,
    director?_eq_some_iff hm, isEntity_iff]
  constructor
  · rintro ⟨e, he, rfl | ⟨-, ho⟩⟩
    · exact .inl he
    · exact .inr ho
  · rintro (ho | ho)
    · exact ⟨o, ho, .inl rfl⟩
    · have hlt : o < m.objects.size := lt_size_of_family (by simp [family_of_isDirector ho])
      have hne : o ≠ Model.top := by
        rintro rfl
        rw [isDirector_eq_false hm.top] at ho
        cases ho
      obtain ⟨e, -, he⟩ := hm.contained o hlt hne
      exact ⟨e, entity_of_director hm he ho, .inr ⟨he, ho⟩⟩

lemma nodup_owners (hm : m.Shape) : (owners m).Nodup := by
  have hentity {e : ObjectId} (he : e ∈ m.entities) : m.isDirector e = false :=
    isDirector_eq_false (of_mem_entitiesFrom hm hm.top he).1
  have hne {e b d : ObjectId} (he : e ∈ m.entities) (hd : d ∈ (m.director? b).toList) : e ≠ d := by
    rintro rfl
    have hd := ((director?_eq_some_iff hm).1 (Option.mem_toList.1 hd)).2
    rw [hentity he] at hd
    cases hd
  refine nodup_flatMap.2 ⟨fun e he => nodup_cons.2 ⟨fun hd => hne he hd rfl, ?_⟩, ?_⟩
  · cases m.director? e <;> simp
  · refine (nodup_entities hm).imp_of_mem fun {e e'} he he' hee' d hd hd' => ?_
    rcases mem_cons.1 hd with rfl | hd <;> rcases mem_cons.1 hd' with rfl | hd'
    · exact hee' rfl
    · exact hne he hd' rfl
    · exact hne he' hd rfl
    · have h := ((director?_eq_some_iff hm).1 (Option.mem_toList.1 hd)).1
      have h' := ((director?_eq_some_iff hm).1 (Option.mem_toList.1 hd')).1
      exact hee' (Option.some.inj (h.symm.trans h'))

/-! ## Contents -/
def creates (m : Model) (o : ObjectId) : List ObjectId :=
  (m.object o).attributes.flatMap (fun a => a :: (m.portOf? a).toList) ++
    (m.object o).ports.filter (fun p => (m.parameterOf? p).isNone) ++
      (m.object o).entities ++ (m.object o).relations

lemma family_of_portOf? (h : m.portOf? v = some p) : m.family v = .attribute := by
  rw [portOf?, var?] at h
  split at h
  · rename_i hk
    rw [Model.family, hk, Model.Kind.family]
  · cases h

lemma family_of_parameterOf? (h : m.parameterOf? p = some v) : m.family p = .port := by
  rw [parameterOf?, port?] at h
  split at h
  · rename_i hk
    rw [Model.family, hk, Model.Kind.family]
  · cases h

section
variable (hm : m.Shape)

include hm

lemma family_of_mem_attributes (hpaired : m.Paired)
    (hx : x ∈ (m.object o).attributes.flatMap fun a => a :: (m.portOf? a).toList) :
    m.container x = some o ∧
      (m.family x = .attribute ∨ m.family x = .port ∧ (m.parameterOf? x).isSome) := by
  obtain ⟨a, ha, hx⟩ := mem_flatMap.1 hx
  obtain ⟨hcontainer, hfamily⟩ := (hm.mem_contents o .attribute a).1 ha
  rcases mem_cons.1 hx with rfl | hx
  · exact ⟨hcontainer, .inl hfamily⟩
  · have hport := Option.mem_toList.1 hx
    have hparameter := (hpaired.port_iff a x).1 hport
    exact ⟨(hpaired.beside a x hport).1.trans hcontainer,
      .inr ⟨family_of_parameterOf? hparameter, by rw [hparameter]; rfl⟩⟩

lemma mem_creates_iff (hpaired : m.Paired) : x ∈ creates m o ↔ m.container x = some o := by
  have hcontents := hm.mem_contents o
  simp only [creates, mem_append, mem_filter, Option.isNone_iff_eq_none]
  constructor
  · rintro (((hx | ⟨hx, -⟩) | hx) | hx)
    · exact (family_of_mem_attributes hm hpaired hx).1
    · exact ((hcontents .port x).1 hx).1
    · exact ((hcontents .entity x).1 hx).1
    · exact ((hcontents .relation x).1 hx).1
  · intro hx
    have hmem := (hcontents _ x).2 ⟨hx, rfl⟩
    match hf : m.family x with
    | .attribute =>
      rw [hf] at hmem
      exact .inl (.inl (.inl (mem_flatMap.2 ⟨x, hmem, (.head _)⟩)))
    | .port =>
      rw [hf] at hmem
      cases hv : m.parameterOf? x with
      | none => exact .inl (.inl (.inr ⟨hmem, rfl⟩))
      | some v =>
        have hport := (hpaired.port_iff v x).2 hv
        have hv := (hcontents .attribute v).2
          ⟨(hpaired.beside v x hport).1.symm.trans hx, family_of_portOf? hport⟩
        exact .inl (.inl (.inl (mem_flatMap.2 ⟨v, hv, .tail _ (Option.mem_toList.2 hport)⟩)))
    | .entity =>
      rw [hf] at hmem
      exact .inl (.inr hmem)
    | .relation =>
      rw [hf] at hmem
      exact .inr hmem

lemma nodup_attributes (hpaired : m.Paired) (o : ObjectId) :
    ((m.object o).attributes.flatMap fun a => a :: (m.portOf? a).toList).Nodup := by
  have hfamily {a : ObjectId} (ha : a ∈ (m.object o).attributes) : m.family a = .attribute :=
    ((hm.mem_contents o .attribute a).1 ha).2
  have hport {a b p : ObjectId} (ha : m.family a = .attribute) (hp : m.portOf? b = some p) :
      a ≠ p := by
    rintro rfl
    rw [family_of_parameterOf? ((hpaired.port_iff b a).1 hp)] at ha
    cases ha
  rw [nodup_flatMap]
  refine ⟨fun a ha => nodup_cons.2 ⟨fun hp => ?_, ?_⟩, ?_⟩
  · exact hport (hfamily ha) (Option.mem_toList.1 hp) rfl
  · cases m.portOf? a <;> simp
  · refine (hm.nodup o .attribute).imp_of_mem fun {a b} ha hb hab x hxa hxb => ?_
    rcases mem_cons.1 hxa with rfl | hxa <;> rcases mem_cons.1 hxb with rfl | hxb
    · exact hab rfl
    · exact hport (hfamily ha) (Option.mem_toList.1 hxb) rfl
    · exact hport (hfamily hb) (Option.mem_toList.1 hxa) rfl
    · have ha' := (hpaired.port_iff a x).1 (Option.mem_toList.1 hxa)
      have hb' := (hpaired.port_iff b x).1 (Option.mem_toList.1 hxb)
      exact hab (Option.some.inj (ha'.symm.trans hb'))

lemma nodup_creates (hpaired : m.Paired) (o : ObjectId) : (creates m o).Nodup := by
  have hfamily (f : Model.Family) {x : ObjectId} (hx : x ∈ (m.object o).contents f) :
      m.family x = f := ((hm.mem_contents o f x).1 hx).2
  have hclash {x : ObjectId} {f g : Model.Family} (hf : m.family x = f) (hg : m.family x = g)
      (hne : f ≠ g) : False := hne (hf.symm.trans hg)
  refine nodup_append'.2 ⟨nodup_append'.2 ⟨nodup_append'.2
    ⟨nodup_attributes hm hpaired o, (hm.nodup o .port).filter _, fun x hx hport => ?_⟩,
      hm.nodup o .entity, fun x hx hentity => ?_⟩, hm.nodup o .relation, fun x hx hrelation => ?_⟩
  · obtain ⟨hport, hnone⟩ := mem_filter.1 hport
    rcases (family_of_mem_attributes hm hpaired hx).2 with hf | ⟨-, hsome⟩
    · exact hclash hf (hfamily .port hport) nofun
    · rw [Option.isNone_iff_eq_none.1 hnone] at hsome
      cases hsome
  · rcases mem_append.1 hx with hx | hx
    · rcases (family_of_mem_attributes hm hpaired hx).2 with hf | ⟨hf, -⟩ <;>
        exact hclash hf (hfamily .entity hentity) nofun
    · exact hclash (hfamily .port (mem_filter.1 hx).1) (hfamily .entity hentity) nofun
  · rcases mem_append.1 hx with hx | hx
    · rcases mem_append.1 hx with hx | hx
      · rcases (family_of_mem_attributes hm hpaired hx).2 with hf | ⟨hf, -⟩ <;>
          exact hclash hf (hfamily .relation hrelation) nofun
      · exact hclash (hfamily .port (mem_filter.1 hx).1) (hfamily .relation hrelation) nofun
    · exact hclash (hfamily .entity hx) (hfamily .relation hrelation) nofun

lemma nodup_flatMap_creates (hpaired : m.Paired) {os : List ObjectId}
    (hos : os.Nodup) : (os.flatMap (creates m)).Nodup := by
  refine nodup_flatMap.2 ⟨fun o _ => nodup_creates hm hpaired o, hos.imp ?_⟩
  intro o o' hne x hx hx'
  have ho := (mem_creates_iff hm hpaired).1 hx
  have ho' := (mem_creates_iff hm hpaired).1 hx'
  exact hne (Option.some.inj (ho.symm.trans ho'))
end

namespace Placed
def marks (p : Placed) : List (ObjectId × Bool) := p.sites.map fun x => (x.1, x.2.2)

structure Adds (p : Placed) (os : List (ObjectId × Bool)) (p' : Placed) : Prop where
  marks : p'.marks = p.marks ++ os
  known : ∀ x, (p'.locals.get? x).isSome ↔ (p.locals.get? x).isSome ∨ x ∈ os.map Prod.fst

variable {p p' p'' : Placed} {os os' : List (ObjectId × Bool)}

lemma Adds.refl (p : Placed) : p.Adds [] p := ⟨by simp, by simp⟩

lemma Adds.trans (h : p.Adds os p') (h' : p'.Adds os' p'') : p.Adds (os ++ os') p'' where
  marks := by rw [h'.marks, h.marks, append_assoc]
  known x := by rw [h'.known, h.known, map_append, mem_append, or_assoc]

lemma note_adds (p : Placed) (o : ObjectId) (l : LocalId) (back : Nat) (created : Bool)
    (d : Draft) : p.Adds [(o, created)] (p.note o l back created d).1 := by
  refine ⟨map_append, fun x => ?_⟩
  show ((p.locals.insert o l).get? x).isSome ↔ _
  rw [← SortedMap.contains, SortedMap.contains_insert, or_comm]
  simp [SortedMap.contains]
end Placed

def Gives {α : Type} (x : Drafting α) (Q : α → Prop) : Prop := ∀ d, Q (x d).1

lemma Gives.bind {x : Drafting α} {k : α → Drafting β} {R : α → Prop} {Q : β → Prop}
    (hx : Gives x R) (hk : ∀ a, R a → Gives (k a) Q) : Gives (x >>= k) Q :=
  fun d => hk (x d).1 (hx d) _

lemma Gives.then {x : Drafting α} {k : α → Drafting β} {Q : β → Prop}
    (hk : ∀ a, Gives (k a) Q) : Gives (x >>= k) Q := fun _ => hk _ _

lemma Gives.pure {α : Type} {a : α} {Q : α → Prop} (h : Q a) : Gives (pure a) Q := fun _ => h

section Adding
variable {s : Specialization} {this : LocalId} {p : Placed}

lemma create_adds {className : String} {extra : List Operand} :
    Gives (create m this p o className extra) fun r => p.Adds [(o, true)] r.2 :=
  fun _ => p.note_adds o _ 1 true _

lemma notePort_adds {l : LocalId} {p1 : Placed} (port : Option ObjectId)
    (h : p.Adds [(o, true)] p1) :
    Gives (match port with
      | some port => do
        let q ← callValue l getParameterPort []
        p1.note port q 1 true
      | none => Pure.pure p1) (p.Adds ((o :: port.toList).map (·, true))) := by
  cases port with
  | none => exact .pure h
  | some port => exact .then fun q d => h.trans (p1.note_adds port q 1 true d)

lemma createAttribute_adds (ho : s.model.family o = .attribute) : Gives (createAttribute s this p o)
      (p.Adds ((o :: (s.model.portOf? o).toList).map (·, true))) := by
  have hplain (h : s.model.var? o = none) : s.model.portOf? o = none := by
    rw [portOf?, h, Option.bind_none]
  unfold createAttribute
  split
  · rename_i v hk
    have hport : s.model.portOf? o = v.port := by rw [portOf?, var?, hk, Option.bind_some]
    rw [hport]
    refine create_adds.bind ?_
    rintro ⟨l, p1⟩ h1
    dsimp only
    split
    · exact .then fun _ => notePort_adds v.port h1
    · exact notePort_adds v.port h1
  · rename_i hk
    rw [hplain (by rw [var?, hk])]
    exact create_adds.bind fun _ h => .then fun _ => .pure h
  · rename_i hk
    rw [hplain (by rw [var?, hk])]
    exact create_adds.bind fun _ h => .pure h
  · rename_i hvar hsettable hdirector
    rw [Model.family] at ho
    unfold Model.Kind.family at ho
    split at ho <;> simp_all

lemma createPort_adds (ho : s.model.family o = .port) : Gives (createPort s this p o)
      (p.Adds (([o].filter fun x => (s.model.parameterOf? x).isNone).map (·, true))) := by
  unfold createPort
  split
  · rename_i hport
    rw [port?] at hport
    rw [Model.family] at ho
    unfold Model.Kind.family at ho
    split at ho <;> simp_all
  · rename_i info hport
    have hparameter : s.model.parameterOf? o = info.parameter := by
      rw [parameterOf?, hport, Option.bind_some]
    rw [filter_singleton, hparameter]
    cases info.parameter with
    | some v => exact .pure (.refl p)
    | none =>
      refine create_adds.bind ?_
      rintro ⟨l, p1⟩ h1
      dsimp only
      split
      · exact .then fun _ => .pure h1
      · exact .pure h1

lemma createEntity_adds : Gives (createEntity s this p o) (p.Adds ([o].map (·, true))) :=
  create_adds.bind fun _ h => .pure h

lemma createRelation_adds : Gives (createRelation s this p o) (p.Adds ([o].map (·, true))) :=
  create_adds.bind fun _ h => .pure h

lemma createAll_adds {step : Placed → ObjectId → Drafting Placed} {f : ObjectId → List ObjectId}
    (os : List ObjectId) (hstep : ∀ p, ∀ o ∈ os, Gives (step p o) (p.Adds ((f o).map (·, true)))) :
    Gives (createAll step p os) (p.Adds ((os.flatMap f).map (·, true))) := by
  induction os generalizing p with
  | nil => exact .pure (.refl p)
  | cons o os ih =>
    refine (hstep p o (.head _)).bind fun p1 h1 => ?_
    have hrest : Gives (createAll step p1 os) (p1.Adds ((os.flatMap f).map (·, true))) :=
      ih fun p o ho => hstep p o (.tail _ ho)
    intro d
    rw [flatMap_cons, map_append]
    exact h1.trans (hrest d)
end Adding

/-- A port that can be linked: there is a reference to it or to its owner. -/
def Placed.Reaches (m : Model) (p : Placed) (port : ObjectId) : Prop :=
  (p.locals.get? port).isSome ∨ ∃ e, m.container port = some e ∧ (p.locals.get? e).isSome

def Placed.Finds (p p' : Placed) : Prop := ∃ found : List ObjectId, p.Adds (found.map (·, false)) p'

section Linking
variable {p p' : Placed} {relation : ObjectId}

lemma Placed.Finds.refl (p : Placed) : p.Finds p := ⟨[], .refl p⟩

lemma Placed.Finds.trans (h : p.Finds p') (h' : p'.Finds p'') : p.Finds p'' := by
  obtain ⟨found, h⟩ := h
  obtain ⟨found', h'⟩ := h'
  exact ⟨found ++ found', by simpa using h.trans h'⟩

lemma Placed.Finds.reaches (h : p.Finds p') (hp : p.Reaches m port) : p'.Reaches m port := by
  obtain ⟨found, h⟩ := h
  rcases hp with hp | ⟨e, he, hp⟩
  · exact .inl ((h.known _).2 (.inl hp))
  · exact .inr ⟨e, he, (h.known _).2 (.inl hp)⟩

lemma reaches_of_linked (hm : m.Shape) (hp : ∀ x, m.container x = some o → (p.locals.get? x).isSome)
    (hr : r ∈ (m.object o).relations) (hport : port ∈ (m.object r).links) : p.Reaches m port := by
  obtain ⟨hcontainer, hfamily⟩ := (hm.mem_contents o .relation r).1 hr
  obtain ⟨-, c, hc, hinside⟩ := hm.linked r port hfamily hport
  obtain rfl := Option.some.inj (hcontainer.symm.trans hc)
  rcases hinside with hinside | ⟨e, he, hinside, -⟩
  · exact .inl (hp port hinside)
  · exact .inr ⟨e, he, hp e hinside⟩
end Linking

lemma adds_creates {p1 p2 p3 : Placed} (h1 : Placed.empty.Adds
      (((m.object o).attributes.flatMap fun a => a :: (m.portOf? a).toList).map (·, true)) p1)
    (h2 : p1.Adds (((m.object o).ports.flatMap fun p =>
      [p].filter fun p => (m.parameterOf? p).isNone).map (·, true)) p2)
    (h3 : p2.Adds (((m.object o).entities.flatMap fun e => [e]).map (·, true)) p3)
    (h4 : p3.Adds (((m.object o).relations.flatMap fun r => [r]).map (·, true)) p4) :
    Placed.empty.Adds ((creates m o).map (·, true)) p4 := by
  have h := ((h1.trans h2).trans h3).trans h4
  rw [← filter_flatMap] at h
  simp only [flatMap_singleton', ← map_append] at h
  exact h

/-- The records after some objects have been created: each has its container for its creator and a
creating site in the class of its container. What is only found in a class is not created there. -/
structure Tallied (m : Model) (made : List ObjectId) (s : Specialization) : Prop where
  ledger : ∀ x o, s.ledger.get? x = some o ↔ x ∈ made ∧ m.container x = some o
  created : ∀ c x, (∃ i, s.sites.get? (c, x) = some ⟨i, true⟩) ↔
    x ∈ made ∧ ∃ o, m.container x = some o ∧ s.classOf.get? o = some c
  found : ∀ c x i, s.sites.get? (c, x) = some ⟨i, false⟩ → ∀ o, m.container x = some o →
    s.classOf.get? o ≠ some c

section Records
variable {s s' : Specialization}

lemma Tallied.congr (h : Tallied m made s) (hledger : s'.ledger = s.ledger)
    (hsites : s'.sites = s.sites) (hclass : s'.classOf = s.classOf) : Tallied m made s' where
  ledger := hledger ▸ h.ledger
  created := hsites ▸ hclass ▸ h.created
  found := hsites ▸ hclass ▸ h.found

lemma recordCreation_runs (hs : Tallied m made s) (hx : x ∉ made)
    (ho : m.container x = some o) (hc : s.classOf.get? o = some c) (i : StmtId) :
    Runs true (do
      recordCreation x o
      recordSite c x i true) s fun _ s' =>
        Tallied m (made ++ [x]) s' ∧ s'.classOf = s.classOf := by
  have hledger : s.ledger.get? x = none := by
    cases h : s.ledger.get? x with
    | none => rfl
    | some o' => exact absurd ((hs.ledger x o').1 h).1 hx
  have hsite : s.sites.get? (c, x) = none := by
    cases h : s.sites.get? (c, x) with
    | none => rfl
    | some site =>
      obtain ⟨j, created⟩ := site
      cases created with
      | true => exact absurd ((hs.created c x).1 ⟨j, h⟩).1 hx
      | false => exact absurd hc (hs.found c x j h o ho)
  refine .bind (R := fun _ s1 => s1 = { s with ledger := s.ledger.insert x o }) ?_ ?_
  · refine .get_bind (.bind (R := fun _ s1 => s1 = { s with ledger := s.ledger.insert x o })
      (.set rfl) ?_)
    rintro _ _ rfl
    rw [hledger]
    exact .pure rfl
  · rintro _ _ rfl
    have hfree : s.sites.contains (c, x) = false := by rw [SortedMap.contains, hsite]; rfl
    refine Runs.modify ?_
    rw [if_neg (by simp [hfree])]
    refine ⟨⟨fun y o' => ?_, fun c' y => ?_, fun c' y j hy => ?_⟩, rfl⟩
    · show (s.ledger.insert x o).get? y = some o' ↔ _
      by_cases hyx : y = x
      · subst hyx
        simp [get?_insert_self, ho]
      · rw [get?_insert_of_ne _ hyx, hs.ledger]
        simp [hyx]
    · show (∃ j, (s.sites.insert (c, x) ⟨i, true⟩).get? (c', y) = some ⟨j, true⟩) ↔
        _ ∧ ∃ o', _ ∧ s.classOf.get? o' = some c'
      by_cases hkey : (c', y) = (c, x)
      · obtain ⟨rfl, rfl⟩ := Prod.mk.inj hkey
        rw [get?_insert_self]
        exact ⟨fun _ => ⟨by simp, o, ho, hc⟩, fun _ => ⟨i, rfl⟩⟩
      · rw [get?_insert_of_ne _ hkey, hs.created]
        refine and_congr_left fun h => ?_
        obtain ⟨o', ho', hc'⟩ := h
        have hyx : y ≠ x := by
          rintro rfl
          obtain rfl := Option.some.inj (ho.symm.trans ho')
          obtain rfl := Option.some.inj (hc.symm.trans hc')
          exact hkey rfl
        simp [hyx]
    · rcases get?_insert_eq_some hy with ⟨-, hy⟩ | hy
      · cases hy
      · exact hs.found c' y j hy

lemma recordFound_runs (hs : Tallied m made s) (hmade : ∀ x, m.container x = some o → x ∈ made)
    (hc : ∀ o', s.classOf.get? o' = some c → o' = o) (x : ObjectId) (i : StmtId) :
    Runs true (recordSite c x i false) s fun _ s' =>
      Tallied m made s' ∧ s'.classOf = s.classOf := by
  refine Runs.modify ?_
  split
  · exact ⟨hs, rfl⟩
  · rename_i hnew
    have hnone (site : Site) : s.sites.get? (c, x) ≠ some site := fun h => by
      rw [SortedMap.contains, h] at hnew
      exact hnew rfl
    refine ⟨⟨hs.ledger, fun c' y => ?_, fun c' y j hy => ?_⟩, rfl⟩
    · rw [← hs.created]
      show (∃ j, (s.sites.insert (c, x) ⟨i, false⟩).get? (c', y) = some ⟨j, true⟩) ↔ _
      by_cases hkey : (c', y) = (c, x)
      · obtain ⟨rfl, rfl⟩ := Prod.mk.inj hkey
        rw [get?_insert_self]
        constructor
        · rintro ⟨_, h⟩
          cases h
        · rintro ⟨_, h⟩
          exact absurd h (hnone _)
      · rw [get?_insert_of_ne _ hkey]
    · intro o' ho' hc'
      rcases get?_insert_eq_some hy with ⟨hkey, -⟩ | hy
      · obtain ⟨rfl, rfl⟩ := Prod.mk.inj hkey
        obtain ⟨k, hk⟩ := (hs.created c' y).2 ⟨hmade y (hc o' hc' ▸ ho'), o', ho', hc'⟩
        exact hnone _ hk
      · exact hs.found c' y j hy o' ho' hc'

lemma recordSites_runs {xs found : List ObjectId} (sites : List (ObjectId × StmtId × Bool))
    (hsites : sites.map (fun x => (x.1, x.2.2)) = xs.map (·, true) ++ found.map (·, false))
    (hs : Tallied m made s) (hnodup : (made ++ xs).Nodup)
    (hxs : ∀ x ∈ xs, m.container x = some o) (hmade : ∀ x, m.container x = some o → x ∈ made ++ xs)
    (hc : ∀ o', s.classOf.get? o' = some c ↔ o' = o) :
    Runs true (recordSites o c sites) s fun _ s' => Tallied m (made ++ xs) s' := by
  induction sites generalizing s made xs found with
  | nil =>
    obtain ⟨rfl, -⟩ : xs = [] ∧ found = [] := by simpa using hsites.symm
    exact .pure (by simpa using hs)
  | cons site sites ih =>
    obtain ⟨x, i, created⟩ := site
    have hrest (xs' : List ObjectId) {made' found' : List ObjectId} {s' : Specialization}
        (hsites' : sites.map (fun x => (x.1, x.2.2)) = xs'.map (·, true) ++ found'.map (·, false))
        (happend : made' ++ xs' = made ++ xs) (hxs' : xs' ⊆ xs)
        (h' : Tallied m made' s' ∧ s'.classOf = s.classOf) :
        Runs true (recordSites o c sites) s' fun _ s'' => Tallied m (made ++ xs) s'' :=
      happend ▸ ih hsites' h'.1 (happend ▸ hnodup) (fun y hy => hxs y (hxs' hy)) (happend ▸ hmade)
        (h'.2 ▸ hc)
    unfold recordSites
    cases xs with
    | nil =>
      cases found with
      | nil => cases hsites
      | cons y found =>
        simp only [map_cons, map_nil, nil_append, List.cons.injEq, Prod.mk.injEq] at hsites
        obtain ⟨⟨rfl, rfl⟩, hsites⟩ := hsites
        refine (recordFound_runs hs (by simpa using hmade) (fun o' => (hc o').1) x i).bind
          fun _ s' h' => ?_
        exact hrest [] hsites rfl (List.Subset.refl _) h'
    | cons y xs =>
      simp only [map_cons, cons_append, List.cons.injEq, Prod.mk.injEq] at hsites
      obtain ⟨⟨rfl, rfl⟩, hsites⟩ := hsites
      have hx : x ∉ made := fun hx => (nodup_append'.1 hnodup).2.2 hx (.head _)
      rw [if_pos rfl, ← bind_assoc]
      refine (recordCreation_runs hs hx (hxs x (.head _)) ((hc o).2 rfl) i).bind
        fun _ s' h' => ?_
      exact hrest xs hsites (append_cons made x xs).symm (subset_cons_self _ _) h'
end Records
end DataflowSpecializer.Classes
