/-! # Finite maps with one form per content -/
namespace DataflowSpecializer
/-- The comparison of keys is a strict linear order. -/
class LawfulKey (κ : Type) extends Ord κ where
  eq_of_compare : ∀ a b : κ, compare a b = .eq → a = b
  compare_self : ∀ a : κ, compare a a = .eq
  lt_of_gt : ∀ a b : κ, compare a b = .gt → compare b a = .lt
  lt_trans : ∀ a b c : κ, compare a b = .lt → compare b c = .lt → compare a c = .lt

instance instLawfulKeyNat : LawfulKey Nat where
  eq_of_compare _ _ h := Nat.compare_eq_eq.1 h
  compare_self _ := Nat.compare_eq_eq.2 rfl
  lt_of_gt _ _ h := Nat.compare_eq_lt.2 (Nat.compare_eq_gt.1 h)
  lt_trans _ _ _ h g :=
    Nat.compare_eq_lt.2 (Nat.lt_trans (Nat.compare_eq_lt.1 h) (Nat.compare_eq_lt.1 g))

instance instLawfulKeyString : LawfulKey String where
  eq_of_compare _ _ h := Std.LawfulEqOrd.eq_of_compare h
  compare_self _ := Std.ReflOrd.compare_self
  lt_of_gt _ _ h := Std.OrientedCmp.lt_of_gt h
  lt_trans _ _ _ h g := Std.TransCmp.lt_trans h g

theorem compare_pair (a b : Nat × Nat) :
    lexOrd.compare a b = (compare a.1 b.1).then (compare a.2 b.2) := rfl

instance instLawfulKeyNatPair : LawfulKey (Nat × Nat) where
  toOrd := lexOrd
  eq_of_compare a b h := by
    rw [compare_pair, Ordering.then_eq_eq, Nat.compare_eq_eq, Nat.compare_eq_eq] at h
    exact Prod.ext h.1 h.2
  compare_self a := by
    rw [compare_pair, Ordering.then_eq_eq, Nat.compare_eq_eq, Nat.compare_eq_eq]
    exact ⟨rfl, rfl⟩
  lt_of_gt a b h := by
    rw [compare_pair, Ordering.then_eq_gt, Nat.compare_eq_gt, Nat.compare_eq_eq,
      Nat.compare_eq_gt] at h
    rw [compare_pair, Ordering.then_eq_lt, Nat.compare_eq_lt, Nat.compare_eq_eq, Nat.compare_eq_lt]
    omega
  lt_trans a b c h g := by
    rw [compare_pair, Ordering.then_eq_lt, Nat.compare_eq_lt, Nat.compare_eq_eq,
      Nat.compare_eq_lt] at h g ⊢
    omega

/-! ### Entry lists -/
namespace SortedMap.Entries
variable {κ α : Type} [LawfulKey κ]

def Sorted (l : List (κ × α)) : Prop := l.Pairwise fun a b => compare a.1 b.1 = .lt

def lookup (k : κ) : List (κ × α) → Option α
  | [] => none
  | (k', v) :: rest => if compare k k' = .eq then some v else lookup k rest

def insert (k : κ) (v : α) : List (κ × α) → List (κ × α)
  | [] => [(k, v)]
  | (k', v') :: rest =>
    match compare k k' with
    | .lt => (k, v) :: (k', v') :: rest
    | .eq => (k, v) :: rest
    | .gt => (k', v') :: insert k v rest

theorem lookup_cons (k k' : κ) (v : α) (rest : List (κ × α)) :
    lookup k ((k', v) :: rest) = if compare k k' = .eq then some v else lookup k rest := rfl

theorem insert_cons (k k' : κ) (v v' : α) (rest : List (κ × α)) : insert k v ((k', v') :: rest) =
      match compare k k' with
      | .lt => (k, v) :: (k', v') :: rest
      | .eq => (k, v) :: rest
      | .gt => (k', v') :: insert k v rest := rfl

theorem ne_of_lt {a b : κ} (h : compare a b = .lt) : a ≠ b := by
  rintro rfl
  rw [LawfulKey.compare_self] at h
  exact Ordering.noConfusion h

theorem mem_insert {k : κ} {v : α} {e : κ × α} {l : List (κ × α)} (h : e ∈ insert k v l) :
    e = (k, v) ∨ e ∈ l := by
  induction l with
  | nil => exact .inl (List.mem_singleton.1 h)
  | cons head rest ih =>
    obtain ⟨k', v'⟩ := head
    rw [insert_cons] at h
    split at h
    · exact List.mem_cons.1 h
    · rcases List.mem_cons.1 h with h | h
      · exact .inl h
      · exact .inr (List.mem_cons_of_mem _ h)
    · rcases List.mem_cons.1 h with h | h
      · exact .inr (h ▸ List.mem_cons_self)
      · exact (ih h).imp id (List.mem_cons_of_mem _)

theorem sorted_insert (k : κ) (v : α) {l : List (κ × α)} (h : Sorted l) :
    Sorted (insert k v l) := by
  induction l with
  | nil => exact List.pairwise_singleton _ _
  | cons head rest ih =>
    obtain ⟨k', v'⟩ := head
    have hrest : Sorted rest := h.of_cons
    have hhead : ∀ e ∈ rest, compare k' e.1 = .lt := fun e he => List.rel_of_pairwise_cons h he
    rw [insert_cons]
    split
    · rename_i hlt
      refine List.Pairwise.cons (fun e he => ?_) h
      rcases List.mem_cons.1 he with rfl | he
      · exact hlt
      · exact LawfulKey.lt_trans _ _ _ hlt (hhead e he)
    · rename_i heq
      obtain rfl := LawfulKey.eq_of_compare _ _ heq
      exact List.Pairwise.cons hhead hrest
    · rename_i hgt
      refine List.Pairwise.cons (fun e he => ?_) (ih hrest)
      rcases mem_insert he with rfl | he
      · exact LawfulKey.lt_of_gt _ _ hgt
      · exact hhead e he

theorem lookup_insert (k k' : κ) (v : α) (l : List (κ × α)) :
    lookup k' (insert k v l) = if compare k' k = .eq then some v else lookup k' l := by
  induction l with
  | nil => rfl
  | cons head rest ih =>
    obtain ⟨k'', v''⟩ := head
    rw [insert_cons]
    split
    · rfl
    · rename_i heq
      obtain rfl := LawfulKey.eq_of_compare _ _ heq
      rw [lookup_cons, lookup_cons]
      split <;> rfl
    · rename_i hgt
      rw [lookup_cons, lookup_cons, ih]
      split
      · rename_i heq
        obtain rfl := LawfulKey.eq_of_compare _ _ heq
        split
        · rename_i heq'
          obtain rfl := LawfulKey.eq_of_compare _ _ heq'
          rw [LawfulKey.compare_self] at hgt
          exact Ordering.noConfusion hgt
        · rfl
      · rfl

theorem lookup_eq_none_of_lt {k : κ} {l : List (κ × α)} (h : ∀ e ∈ l, compare k e.1 = .lt) :
    lookup k l = none := by
  induction l with
  | nil => rfl
  | cons head rest ih =>
    obtain ⟨k', v'⟩ := head
    rw [lookup_cons, if_neg, ih fun e he => h e (List.mem_cons_of_mem _ he)]
    rw [h (k', v') List.mem_cons_self]
    exact Ordering.noConfusion

theorem lookup_of_mem {l : List (κ × α)} (h : Sorted l) {e : κ × α} (he : e ∈ l) :
    lookup e.1 l = some e.2 := by
  induction l with
  | nil => cases he
  | cons head rest ih =>
    obtain ⟨k', v'⟩ := head
    rcases List.mem_cons.1 he with rfl | he
    · rw [lookup_cons, if_pos (LawfulKey.compare_self _)]
    · rw [lookup_cons, if_neg, ih h.of_cons he]
      intro heq
      exact ne_of_lt (List.rel_of_pairwise_cons h he) (LawfulKey.eq_of_compare _ _ heq).symm

theorem mem_of_lookup {l : List (κ × α)} {k : κ} {v : α} (h : lookup k l = some v) :
    (k, v) ∈ l := by
  induction l with
  | nil => cases h
  | cons head rest ih =>
    obtain ⟨k', v'⟩ := head
    rw [lookup_cons] at h
    split at h
    · rename_i heq
      obtain rfl := LawfulKey.eq_of_compare _ _ heq
      cases h
      exact List.mem_cons_self
    · exact List.mem_cons_of_mem _ (ih h)

/-- Sorted entry lists with the same lookups are equal. -/
theorem eq_of_lookup_eq {l m : List (κ × α)} (hl : Sorted l) (hm : Sorted m)
    (h : ∀ k, lookup k l = lookup k m) : l = m := by
  induction l generalizing m with
  | nil =>
    cases m with
    | nil => rfl
    | cons e rest =>
      have := h e.1
      rw [lookup_of_mem hm List.mem_cons_self] at this
      cases this
  | cons a as ih =>
    cases m with
    | nil =>
      have := h a.1
      rw [lookup_of_mem hl List.mem_cons_self] at this
      cases this
    | cons b bs =>
      have ha : (a.1, a.2) ∈ b :: bs := mem_of_lookup <| by
        rw [← h]; exact lookup_of_mem hl List.mem_cons_self
      have hb : (b.1, b.2) ∈ a :: as := mem_of_lookup <| by
        rw [h]; exact lookup_of_mem hm List.mem_cons_self
      have hab : a = b := by
        rcases List.mem_cons.1 ha with ha | ha
        · exact ha
        · rcases List.mem_cons.1 hb with hb | hb
          · exact hb.symm
          · have h1 := List.rel_of_pairwise_cons hm ha
            have h2 := List.rel_of_pairwise_cons hl hb
            exact absurd rfl (ne_of_lt (LawfulKey.lt_trans _ _ _ h1 h2))
      subst hab
      congr 1
      refine ih hl.of_cons hm.of_cons fun k => ?_
      have hk := h k
      rw [lookup_cons, lookup_cons] at hk
      split at hk
      · rename_i heq
        obtain rfl := LawfulKey.eq_of_compare _ _ heq
        rw [lookup_eq_none_of_lt fun e he => List.rel_of_pairwise_cons hl he,
          lookup_eq_none_of_lt fun e he => List.rel_of_pairwise_cons hm he]
      · exact hk
end SortedMap.Entries

/-! ### Maps -/
/-- A finite map: its entries in increasing key order. -/
structure SortedMap (κ α : Type) [LawfulKey κ] where
  entries : List (κ × α)
  sorted : SortedMap.Entries.Sorted entries

namespace SortedMap
variable {κ α : Type} [LawfulKey κ]

def empty : SortedMap κ α := ⟨[], List.Pairwise.nil⟩

instance : EmptyCollection (SortedMap κ α) := ⟨empty⟩

instance : Inhabited (SortedMap κ α) := ⟨empty⟩

def get? (m : SortedMap κ α) (k : κ) : Option α := Entries.lookup k m.entries
def contains (m : SortedMap κ α) (k : κ) : Bool := (m.get? k).isSome

def insert (m : SortedMap κ α) (k : κ) (v : α) : SortedMap κ α :=
  ⟨Entries.insert k v m.entries, Entries.sorted_insert k v m.sorted⟩

def filter (m : SortedMap κ α) (p : κ → α → Bool) : SortedMap κ α :=
  ⟨m.entries.filter fun e => p e.1 e.2, m.sorted.sublist List.filter_sublist⟩

def erase (m : SortedMap κ α) (k : κ) : SortedMap κ α := m.filter fun k' _ => compare k k' != .eq

def keys (m : SortedMap κ α) : List κ := m.entries.map Prod.fst
def values (m : SortedMap κ α) : List α := m.entries.map Prod.snd
def size (m : SortedMap κ α) : Nat := m.entries.length

def ofList (l : List (κ × α)) : SortedMap κ α := l.foldl (fun m e => m.insert e.1 e.2) empty

/-- Every entry of `b` added to `a`; `f` combines what stands under a common key. -/
def mergeWith (f : α → α → α) (a b : SortedMap κ α) : SortedMap κ α :=
  b.entries.foldl
    (fun m e => m.insert e.1 (match a.get? e.1 with | some v => f v e.2 | none => e.2)) a

instance [DecidableEq κ] [DecidableEq α] : DecidableEq (SortedMap κ α) := fun a b =>
  match decEq a.entries b.entries with
  | isTrue h => isTrue (by cases a; cases b; cases h; rfl)
  | isFalse h => isFalse fun e => h (e ▸ rfl)

@[simp]
theorem get?_empty (k : κ) : (empty : SortedMap κ α).get? k = none := rfl

theorem get?_insert (m : SortedMap κ α) (k k' : κ) (v : α) :
    (m.insert k v).get? k' = if compare k' k = .eq then some v else m.get? k' :=
  Entries.lookup_insert k k' v m.entries

@[simp]
theorem get?_insert_self (m : SortedMap κ α) (k : κ) (v : α) : (m.insert k v).get? k = some v := by
  rw [get?_insert, if_pos (LawfulKey.compare_self k)]

theorem get?_insert_of_ne (m : SortedMap κ α) {k k' : κ} (h : k' ≠ k) (v : α) :
    (m.insert k v).get? k' = m.get? k' := by
  rw [get?_insert, if_neg fun e => h (LawfulKey.eq_of_compare _ _ e)]

theorem mem_entries_iff (m : SortedMap κ α) (k : κ) (v : α) :
    (k, v) ∈ m.entries ↔ m.get? k = some v :=
  ⟨fun h => Entries.lookup_of_mem m.sorted h, Entries.mem_of_lookup⟩

theorem get?_filter (m : SortedMap κ α) (p : κ → α → Bool) (k : κ) :
    (m.filter p).get? k = (m.get? k).filter (p k) := by
  apply Option.ext
  intro v
  rw [← mem_entries_iff, Option.filter_eq_some_iff, ← mem_entries_iff]
  exact List.mem_filter

/-- Maps with the same lookups are equal. -/
theorem ext_get? {m n : SortedMap κ α} (h : ∀ k, m.get? k = n.get? k) : m = n := by
  have := Entries.eq_of_lookup_eq m.sorted n.sorted h
  cases m; cases n; cases this; rfl
end SortedMap
end DataflowSpecializer
