import Mathlib.Data.List.Forall2
import Mathlib.Order.Nat
import Mathlib.Tactic.Common
import DataflowSpecializer.Data.SortedMap

/-! # Failing computations, association lists and numerals -/
namespace DataflowSpecializer
open List Option SortedMap LawfulKey
variable {ε α β : Type} {f : α → Except ε β}

lemma bind_eq_ok {x : Except ε α} {b : β} : (x >>= f) = .ok b ↔ ∃ a, x = .ok a ∧ f a = .ok b := by
  cases x with
  | error e => exact ⟨fun h => (by cases h), fun ⟨_, h, _⟩ => (by cases h)⟩
  | ok a => exact ⟨fun h => ⟨a, rfl, h⟩, fun ⟨_, h, hb⟩ => (by cases h; exact hb)⟩

lemma bind₂_eq_ok {γ : Type} {x : Except ε α} {g : α → β → Except ε γ} {c : γ}
    (h : (x >>= fun a => f a >>= g a) = .ok c) :
    ∃ a, x = .ok a ∧ ∃ b, f a = .ok b ∧ g a b = .ok c := by
  obtain ⟨a, ha, h⟩ := bind_eq_ok.1 h
  exact ⟨a, ha, bind_eq_ok.1 h⟩

lemma map_eq_ok {x : Except ε α} {f : α → β} {b : β} :
    x.map f = .ok b ↔ ∃ a, x = .ok a ∧ f a = b := by
  cases x <;> simp [Except.map]

lemma toOption_eq_some {ε α : Type} {x : Except ε α} {a : α} : x.toOption = some a ↔ x = .ok a := by
  cases x <;> simp [Except.toOption]

lemma exists_ok_of_any {ε α : Type} {x : Except ε α} {p : α → Bool} (h : x.toOption.any p) :
    ∃ a, x = .ok a ∧ p a := by
  obtain ⟨a, ha, hp⟩ := (Option.any_eq_true _ _).1 h
  exact ⟨a, toOption_eq_some.1 ha, hp⟩

lemma toOption_bind (x : Except ε α) (f : α → Except ε β) :
    (x >>= f).toOption = x.toOption.bind fun a => (f a).toOption := by
  cases x <;> rfl

lemma toOption_map (x : Except ε α) (f : α → β) : (x.map f).toOption = x.toOption.map f := by
  cases x <;> rfl

lemma mapM_eq_pure {m : Type → Type} [Monad m] [LawfulMonad m] {α β : Type} {f : α → m β}
    {g : α → β} {l : List α} (h : ∀ a ∈ l, f a = pure (g a)) : l.mapM f = pure (l.map g) := by
  induction l with
  | nil => rw [mapM_nil, map_nil]
  | cons a l ih =>
    obtain ⟨ha, hl⟩ := forall_mem_cons.1 h
    rw [mapM_cons, ha, ih hl, pure_bind, pure_bind, map_cons]

lemma forall₂_of_mapM {as : List α} {bs : List β}
    (h : as.mapM f = .ok bs) : List.Forall₂ (fun a b => f a = .ok b) as bs := by
  induction as generalizing bs with
  | nil =>
    cases h
    exact .nil
  | cons a as ih =>
    rw [mapM_cons] at h
    obtain ⟨b, hb, bs', hbs, h⟩ := bind₂_eq_ok h
    cases h
    exact .cons hb (ih hbs)

section Lookup
variable {α β : Type} {fs : List (String × α)} {r : α → β → Prop} {gs : List (String × β)}
  {f : String × α} {label : String} {bs : List β} {as : List α}

lemma mem_of_lookup {t : α} (h : fs.lookup label = some t) : (label, t) ∈ fs := by
  induction fs with
  | nil => simp at h
  | cons f fs ih =>
    obtain ⟨l, s⟩ := f
    rw [List.lookup_cons] at h
    split at h
    · rename_i heq
      obtain rfl := beq_iff_eq.1 heq
      obtain rfl := some.inj h
      exact .head _
    · exact .tail _ (ih h)

lemma lookup_of_mem (h : fs.Pairwise fun a b => a.1 < b.1)
    (hf : f ∈ fs) : fs.lookup f.1 = some f.2 := by
  induction fs with
  | nil => cases hf
  | cons g fs ih =>
    obtain ⟨l, s⟩ := g
    rw [List.lookup_cons]
    rcases mem_cons.1 hf with rfl | hf
    · simp
    · have hlt : l < f.1 := rel_of_pairwise_cons h hf
      have hne : (f.1 == l) = false :=
        beq_eq_false_iff_ne.2 fun heq => String.lt_irrefl _ (heq ▸ hlt)
      rw [hne]
      exact ih h.of_cons hf

lemma lookup_forall₂ (h : List.Forall₂ (fun f g => f.1 = g.1 ∧ r f.2 g.2) fs gs) {t : β}
    (ht : gs.lookup label = some t) : ∃ s, fs.lookup label = some s ∧ r s t := by
  induction h with
  | nil => simp at ht
  | @cons f g fs gs hfg _ ih =>
    obtain ⟨l, s⟩ := f
    obtain ⟨m, u⟩ := g
    obtain ⟨rfl, hr⟩ : l = m ∧ r s u := hfg
    rw [List.lookup_cons] at ht ⊢
    cases hl : label == l with
    | true =>
      rw [hl] at ht
      obtain rfl := some.inj ht
      exact ⟨s, rfl, hr⟩
    | false =>
      rw [hl] at ht
      exact ih ht

lemma forall₂_zip (labels : List String) (h : List.Forall₂ r as bs) :
    List.Forall₂ (fun f g => f.1 = g.1 ∧ r f.2 g.2) (labels.zip as) (labels.zip bs) := by
  induction h generalizing labels with
  | nil => rw [zip_nil_right, zip_nil_right]; exact .nil
  | cons hr _ ih =>
    cases labels with
    | nil => exact .nil
    | cons label labels => exact .cons ⟨rfl, hr⟩ (ih labels)

lemma exists_of_forall₂ (h : List.Forall₂ r as bs) {b : β} (hb : b ∈ bs) : ∃ a ∈ as, r a b := by
  induction h with
  | nil => cases hb
  | cons hr _ ih =>
    rcases mem_cons.1 hb with rfl | hb
    · exact ⟨_, (.head _), hr⟩
    · obtain ⟨a, ha, hab⟩ := ih hb
      exact ⟨a, .tail _ ha, hab⟩

lemma lookup_entries (m : SortedMap String α) (label : String) :
    m.entries.lookup label = m.get? label := by
  show m.entries.lookup label = SortedMap.Entries.lookup label m.entries
  generalize m.entries = l
  induction l with
  | nil => rfl
  | cons e l ih =>
    obtain ⟨k, v⟩ := e
    rw [List.lookup_cons, SortedMap.Entries.lookup, ih]
    by_cases h : label = k
    · simp [h]
    · have hne : (label == k) = false := beq_eq_false_iff_ne.2 h
      simp [hne, h]

lemma entries_increasing (m : SortedMap String α) : m.entries.Pairwise fun a b => a.1 < b.1 :=
  m.sorted.imp compareOfLessAndEq_eq_lt.1

lemma get?_foldl_insert (fs : List (String × α)) (m : SortedMap String α) (label : String) :
    (fs.foldl (fun m e => m.insert e.1 e.2) m).get? label =
      (fs.reverse.lookup label).or (m.get? label) := by
  induction fs generalizing m with
  | nil => rfl
  | cons f fs ih =>
    obtain ⟨l, v⟩ := f
    rw [foldl_cons, ih, get?_insert, reverse_cons, lookup_append]
    by_cases h : label = l
    · subst label
      simp
    · have hne : (label == l) = false := beq_eq_false_iff_ne.2 h
      simp [h, List.lookup_cons, hne]

lemma get?_ofList (fs : List (String × α)) (label : String) :
    (ofList fs).get? label = fs.reverse.lookup label := by
  rw [ofList, get?_foldl_insert]
  simp

lemma lookup_ofList_forall₂ (h : List.Forall₂ (fun f g => f.1 = g.1 ∧ r f.2 g.2) fs gs) :
    ∀ g ∈ (ofList gs).entries, ∃ s, (ofList fs).entries.lookup g.1 = some s ∧ r s g.2 := by
  intro g hg
  have hlast := (mem_entries_iff _ g.1 g.2).1 hg
  rw [get?_ofList] at hlast
  rw [lookup_entries, get?_ofList]
  exact lookup_forall₂ (forall₂_reverse_iff.2 h) hlast

lemma mem_of_mem_ofList (h : f ∈ (ofList fs).entries) : f ∈ fs := by
  have hget := (mem_entries_iff _ f.1 f.2).1 h
  rw [get?_ofList] at hget
  exact mem_reverse.1 (mem_of_lookup hget)
end Lookup

namespace SortedMap
variable {κ α : Type} [LawfulKey κ] {m : SortedMap κ α} {k : κ} {l : List (κ × α)}

lemma Entries.length_insert (v : α) (h : lookup k l = none) :
    (insert k v l).length = l.length + 1 := by
  induction l with
  | nil => rfl
  | cons head rest ih =>
    obtain ⟨k', v'⟩ := head
    rw [lookup] at h
    split at h
    · cases h
    · rename_i hne
      rw [insert]
      split
      · rfl
      · exact absurd ‹_› hne
      · rw [length_cons, ih h, length_cons]

lemma size_insert (v : α) (h : m.get? k = none) :
    (m.insert k v).size = m.size + 1 := Entries.length_insert v h

lemma get?_insert_eq_some {k k' : κ} {v v' : α}
    (h : (m.insert k v).get? k' = some v') : k' = k ∧ v' = v ∨ m.get? k' = some v' := by
  rw [get?_insert] at h
  split at h
  · exact .inl ⟨eq_of_compare _ _ ‹_›, (some.inj h).symm⟩
  · exact .inr h

lemma get?_insert_of_some {k k' : κ} {v v' : α} (hk : m.get? k = none)
    (h : m.get? k' = some v') : (m.insert k v).get? k' = some v' := by
  rw [get?_insert_of_ne _ fun e => by rw [e, hk] at h; cases h]
  exact h

lemma mem_keys_iff : k ∈ m.keys ↔ m.contains k := by
  rw [contains, isSome_iff_exists, keys, List.mem_map]
  constructor
  · rintro ⟨e, he, rfl⟩
    exact ⟨e.2, (mem_entries_iff m e.1 e.2).1 he⟩
  · rintro ⟨v, hv⟩
    exact ⟨(k, v), (mem_entries_iff m k v).2 hv, rfl⟩

lemma nodup_keys (m : SortedMap κ α) : m.keys.Nodup :=
  pairwise_map.2 (m.sorted.imp Entries.ne_of_lt)

lemma map_entries {β : Type} (m : SortedMap κ α) (g : κ → α → β) (d : α) :
    m.entries.map (fun e => g e.1 e.2) = m.keys.map fun k => g k ((m.get? k).getD d) := by
  rw [keys, List.map_map]
  refine map_congr_left fun e he => ?_
  rw [Function.comp_apply, (mem_entries_iff m e.1 e.2).1 he, getD_some]

lemma contains_insert {k k' : κ} {v : α} :
    (m.insert k v).contains k' ↔ k' = k ∨ m.contains k' := by
  rw [contains, get?_insert]
  split
  · rename_i heq
    simp [eq_of_compare _ _ heq]
  · rename_i hne
    have hne' : k' ≠ k := fun heq => hne (heq ▸ compare_self k')
    simp [contains, hne']

lemma contains_foldl_insert (l : List (κ × α)) (m : SortedMap κ α) (k : κ) :
    (l.foldl (fun m e => m.insert e.1 e.2) m).contains k ↔
      k ∈ l.map Prod.fst ∨ m.contains k := by
  induction l generalizing m with
  | nil => simp
  | cons e l ih =>
    rw [foldl_cons, ih, contains_insert, map_cons, mem_cons]
    tauto

lemma mem_keys_ofList : k ∈ (ofList l).keys ↔ k ∈ l.map Prod.fst := by
  rw [mem_keys_iff, ofList, contains_foldl_insert]
  simp [contains]

lemma get?_foldl_insert_map [DecidableEq κ] (f : κ → α) (l : List κ) (m : SortedMap κ α) (k : κ) :
    ((l.map fun k => (k, f k)).foldl (fun m e => m.insert e.1 e.2) m).get? k =
      if k ∈ l then some (f k) else m.get? k := by
  induction l generalizing m with
  | nil => rfl
  | cons k' l ih =>
    rw [map_cons, foldl_cons, ih]
    by_cases heq : k = k'
    · simp [heq]
    · simp [heq, get?_insert_of_ne m heq]

lemma get?_ofList_map [DecidableEq κ] (f : κ → α) (l : List κ) (k : κ) :
    (ofList (l.map fun k => (k, f k))).get? k = if k ∈ l then some (f k) else none := by
  rw [ofList, get?_foldl_insert_map, get?_empty]
end SortedMap

lemma toList_toString (n : Nat) : (toString n).toList = Nat.toDigits 10 n := by
  rw [Nat.toString_eq_ofList_toDigits, String.toList_ofList]

lemma isDigit_of_mem_toString {n : Nat} {c : Char} (h : c ∈ (toString n).toList) :
    c.isDigit := by
  rw [toList_toString] at h
  exact Nat.isDigit_of_mem_toDigits (by decide) (by decide) h
end DataflowSpecializer
