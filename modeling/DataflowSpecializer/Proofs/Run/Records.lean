import DataflowSpecializer.Proofs.Fitness.Classes
import DataflowSpecializer.Proofs.Model.Order

/-! # The records of a generated program -/
namespace DataflowSpecializer.Classes
open DataflowSpecializer.Specialization List Option SortedMap Model Bool

variable {m : Model} {s : Specialization}

lemma Tallied.mem_entries (hs : Tallied m made s) {site : (ClassId × ObjectId) × Site}
    (hsite : site ∈ s.sites.entries) (hx : site.1.2 = x) (hcreated : site.2.created) :
    x ∈ made ∧ ∃ o, m.container x = some o ∧ s.classOf.get? o = some site.1.1 := by
  obtain ⟨⟨c, y⟩, i, created⟩ := site
  obtain rfl : y = x := hx
  obtain rfl : created := hcreated
  exact (hs.created c y).1 ⟨i, (mem_entries_iff _ _ _).1 hsite⟩

lemma Tallied.creations_eq_zero (hs : Tallied m made s) (hx : x ∉ made) : creations s x = 0 := by
  refine countP_eq_zero.2 fun site hsite h => hx ?_
  simp only [and_eq_true, decide_eq_true_eq] at h
  exact (hs.mem_entries hsite h.1 h.2).1

lemma Tallied.creations_eq_one (hs : Tallied m made s) (hx : x ∈ made)
    (ho : m.container x = some o) (hc : s.classOf.get? o = some c) : creations s x = 1 := by
  obtain ⟨i, hi⟩ := (hs.created c x).2 ⟨hx, o, ho, hc⟩
  have hcount : creations s x = s.sites.entries.count ((c, x), ⟨i, true⟩) := by
    refine countP_congr fun site hsite => ?_
    simp only [and_eq_true, decide_eq_true_eq, beq_iff_eq]
    constructor
    · rintro ⟨hkey, hcreated⟩
      obtain ⟨-, o', ho', hc'⟩ := hs.mem_entries hsite hkey hcreated
      obtain rfl := some.inj (ho.symm.trans ho')
      have hkey : site.1 = (c, x) := Prod.ext (some.inj (hc'.symm.trans hc)) hkey
      have hget := (mem_entries_iff s.sites site.1 site.2).1 hsite
      rw [hkey, hi] at hget
      exact Prod.ext hkey (some.inj hget).symm
    · rintro rfl
      exact ⟨rfl, rfl⟩
  rw [hcount]
  exact count_eq_one_of_mem s.sites.nodup_keys.of_map ((mem_entries_iff _ _ _).2 hi)

lemma mem_flatMap_creates (hm : m.Shape) (hpaired : m.Paired) :
    x ∈ (owners m).flatMap (creates m) ↔ (m.container x).isSome := by
  simp only [mem_flatMap, mem_creates_iff hm hpaired]
  constructor
  · rintro ⟨o, -, ho⟩
    rw [ho]
    rfl
  · intro hx
    obtain ⟨o, ho⟩ := isSome_iff_exists.1 hx
    refine ⟨o, (mem_owners_iff hm).2 ?_, ho⟩
    rcases hm.mayHold x o ho with h | ⟨h, -⟩
    · exact .inl (isEntity_iff.2 h)
    · exact .inr h

lemma Tallied.unique (hm : m.WellBuilt) (hs : Tallied m ((owners m).flatMap (creates m)) s)
    (hclass : ∀ o, (s.classOf.get? o).isSome ↔ o ∈ owners m) :
    (∀ x < m.objects.size, x ≠ Model.top → ∃ o, m.container x = some o ∧
      s.ledger.get? x = some o ∧ creations s x = 1) ∧
    s.ledger.get? Model.top = none ∧ creations s Model.top = 0 := by
  have hmade {x : ObjectId} := mem_flatMap_creates (x := x) hm.shape hm.paired
  refine ⟨fun x hx hne => ?_, ?_, hs.creations_eq_zero ?_⟩
  · obtain ⟨o, -, ho⟩ := hm.shape.contained x hx hne
    have hx := hmade.2 (isSome_iff_exists.2 ⟨o, ho⟩)
    obtain ⟨b, hb, hxb⟩ := mem_flatMap.1 hx
    obtain rfl := some.inj (ho.symm.trans ((mem_creates_iff hm.shape hm.paired).1 hxb))
    obtain ⟨c, hc⟩ := isSome_iff_exists.1 ((hclass o).2 hb)
    exact ⟨o, ho, (hs.ledger x o).2 ⟨hx, ho⟩, hs.creations_eq_one hx ho hc⟩
  · cases h : s.ledger.get? Model.top with
    | none => rfl
    | some o =>
      have ho := ((hs.ledger _ o).1 h).2
      rw [hm.shape.top_container] at ho
      cases ho
  · rw [hmade, hm.shape.top_container]
    nofun

lemma Tallied.isUniqueCreation (hm : m.WellBuilt)
    (hs : Tallied m ((owners m).flatMap (creates m)) s)
    (hclass : ∀ o, (s.classOf.get? o).isSome ↔ o ∈ owners m) (hmodel : s.model = m) :
    Classes.isUniqueCreation s := by
  obtain ⟨hcreated, hledger, hsites⟩ := hs.unique hm hclass
  refine List.all_eq_true.2 fun x hx => ?_
  rw [hmodel, Model.ids, mem_range] at hx
  split
  · rename_i htop
    rw [htop, SortedMap.contains, hledger, hsites]
    rfl
  · rename_i hne
    obtain ⟨o, -, ho, hsites⟩ := hcreated x hx hne
    rw [SortedMap.contains, ho, hsites]
    rfl

end DataflowSpecializer.Classes
