import Mathlib.Algebra.Order.BigOperators.Group.List
import Mathlib.Algebra.Order.Ring.Nat
import Mathlib.Tactic.Common
import DataflowSpecializer.Analysis.Flow

/-! # Facts that flow settle

The worklist of `FlowFacts.iterate` is studied for any analysis whose facts merge by a join and can
rise only so often (`FlowAnalysis.Bounded`).
-/
namespace DataflowSpecializer
open List Option
namespace Body
inductive Reaches (b : Body) : Nat → Prop
  | entry : 0 < b.stmts.length → Reaches b 0
  | next {i j : Nat} : Reaches b i → j ∈ b.successors i → Reaches b j

/-- What happens at a position; nothing does behind the end. -/
def actionAt (b : Body) (i : Nat) : Action := ((b.stmts[i]?).map Stmt.action).getD .nop

variable {b : Body}

lemma actionAt_of_getElem? {s : Stmt} (h : b.stmts[i]? = some s) : b.actionAt i = s.action := by
  rw [actionAt, h]
  rfl

lemma lt_of_mem_successors (h : j ∈ b.successors i) : j < b.stmts.length := by
  unfold successors at h
  cases hs : b.stmts[i]? with
  | none => rw [hs] at h; cases h
  | some s =>
    rw [hs] at h
    -- The next position is inside by the check, a jump goes to where a label stands.
    have hnext : ∀ k ∈ (if (s.action.fallsThrough && decide (i + 1 < b.stmts.length))
        then [i + 1] else []), k < b.stmts.length := by
      intro k hk
      split at hk
      · rename_i hif
        obtain rfl := mem_singleton.1 hk
        exact of_decide_eq_true (Bool.and_eq_true_iff.1 hif).2
      · cases hk
    dsimp only at h
    generalize (if (s.action.fallsThrough && decide (i + 1 < b.stmts.length))
      then [i + 1] else []) = next at h hnext
    split at h
    · rename_i k hk
      obtain ⟨label, -, hpos⟩ := bind_eq_some_iff.1 hk
      have hlt : k < b.stmts.length := (findIdx?_eq_some_iff_getElem.1 hpos).1
      split at h
      · exact hnext j h
      · rcases mem_append.1 h with h | h
        · exact hnext j h
        · obtain rfl := mem_singleton.1 h
          exact hlt
    · exact hnext j h

lemma Reaches.lt (h : b.Reaches i) : i < b.stmts.length := by
  cases h with
  | entry h => exact h
  | next _ h => exact lt_of_mem_successors h

lemma successors_eq_nil (h : b.stmts.length ≤ i) : b.successors i = [] := by
  rw [successors, getElem?_eq_none h]
end Body

structure FlowAnalysis.Bounded {α : Type} (a : FlowAnalysis α) (b : Body) (Fact : α → Prop)
    (rank : α → Nat) (height : Nat) : Prop where
  start : Fact a.start
  transfer : ∀ s ∈ b.stmts, ∀ x, Fact x → Fact (a.transfer s.action x)
  merge : ∀ x y, Fact x → Fact y → Fact (a.merge x y)
  merge_self : ∀ x, Fact x → a.merge x x = x
  merge_comm : ∀ x y, Fact x → Fact y → a.merge x y = a.merge y x
  merge_assoc : ∀ x y z, Fact x → Fact y → Fact z →
    a.merge (a.merge x y) z = a.merge x (a.merge y z)
  rank_le : ∀ x, Fact x → rank x ≤ height
  rank_lt : ∀ x y, Fact x → Fact y → a.merge x y ≠ x → rank x < rank (a.merge x y)

namespace FlowFacts
variable {α : Type} {row : Array (Option α)}

def factAt (row : Array (Option α)) (i : Nat) : Option α := (row[i]?).join

def Holds (a : FlowAnalysis α) (row : Array (Option α)) (i : Nat) (y : α) : Prop :=
  ∃ x, factAt row i = some x ∧ a.merge x y = x

lemma factAt_setIfInBounds (hj : j < row.size) (v : α) (i : Nat) : factAt
    (row.setIfInBounds j (some v)) i = if i = j then some v else factAt row i := by
  unfold factAt
  rw [Array.getElem?_setIfInBounds]
  by_cases hij : i = j
  · subst i
    simp [hj]
  · simp [hij, Ne.symm hij]

lemma lt_of_factAt (h : factAt row i = some x) : i < row.size := by
  unfold factAt at h
  by_contra hge
  rw [Array.getElem?_eq_none (by omega)] at h
  cases h

section Room
variable (rank : α → Nat) (height : Nat)

def roomAt : Option α → Nat
  | none => height + 1
  | some x => height - rank x

def room (row : Array (Option α)) : Nat :=
  ((range row.size).map fun i => roomAt rank height (factAt row i)).sum

variable {rank height}

lemma room_setIfInBounds_lt {row : Array (Option α)} (hj : j < row.size)
    (h : roomAt rank height (some v) < roomAt rank height (factAt row j)) :
    room rank height (row.setIfInBounds j (some v)) < room rank height row := by
  unfold room
  rw [Array.size_setIfInBounds]
  refine sum_lt_sum _ _ (fun i _ => ?_) ⟨j, mem_range.2 hj, ?_⟩
  · rw [factAt_setIfInBounds hj]
    split
    · subst i; exact h.le
    · exact le_rfl
  · rw [factAt_setIfInBounds hj, if_pos rfl]
    exact h

lemma room_le (row : Array (Option α)) : room rank height row ≤ row.size * (height + 1) := by
  unfold room
  have h := sum_le_card_nsmul
    ((range row.size).map fun i => roomAt rank height (factAt row i)) (height + 1)
    (fun r hr => by
      obtain ⟨i, -, rfl⟩ := List.mem_map.1 hr
      cases factAt row i with
      | none => exact le_rfl
      | some x => exact Nat.le_succ_of_le (Nat.sub_le _ _))
  simpa using h
end Room

section Deliveries
variable {a : FlowAnalysis α} {b : Body} {Fact : α → Prop} {rank : α → Nat} {height : Nat}

structure Delivered (a : FlowAnalysis α) (Fact : α → Prop) (rank : α → Nat) (height : Nat) (out : α)
    (js : List Nat) (old new : Array (Option α) × List Nat) : Prop where
  size : new.1.size = old.1.size
  facts : ∀ i x, factAt new.1 i = some x → Fact x
  /-- Where something has changed, a visit is due. -/
  waits : ∀ i, factAt new.1 i = factAt old.1 i ∨ i ∈ new.2
  queue : ∀ i ∈ old.2, i ∈ new.2
  reached : ∀ i x, factAt new.1 i = some x → (∃ y, factAt old.1 i = some y) ∨ i ∈ js
  arrived : ∀ j ∈ js, Holds a new.1 j out
  keeps : ∀ i y, Fact y → Holds a old.1 i y → Holds a new.1 i y
  room : room rank height new.1 + new.2.length ≤ room rank height old.1 + old.2.length

variable {out : α} {st : Array (Option α) × List Nat}

lemma Delivered.nil (hfacts : ∀ i x, factAt st.1 i = some x → Fact x) :
    Delivered a Fact rank height out [] st st where
  size := rfl
  facts := hfacts
  waits _ := .inl rfl
  queue _ h := h
  reached _ x h := .inl ⟨x, h⟩
  arrived _ h := by cases h
  keeps _ _ _ h := h
  room := le_rfl

lemma Delivered.append (hout : Fact out) (h : Delivered a Fact rank height out js st st')
    (h' : Delivered a Fact rank height out ks st' st'') :
    Delivered a Fact rank height out (js ++ ks) st st'' where
  size := h'.size.trans h.size
  facts := h'.facts
  waits i := by
    rcases h'.waits i with hi | hi
    · rcases h.waits i with hi' | hi'
      · exact .inl (hi.trans hi')
      · exact .inr (h'.queue i hi')
    · exact .inr hi
  queue i hi := h'.queue i (h.queue i hi)
  reached i x hx := by
    rcases h'.reached i x hx with ⟨y, hy⟩ | hi
    · exact (h.reached i y hy).imp_right (mem_append_left _)
    · exact .inr (mem_append_right _ hi)
  arrived j hj := by
    rcases mem_append.1 hj with hj | hj
    · exact h'.keeps j out hout (h.arrived j hj)
    · exact h'.arrived j hj
  keeps i y hy hi := h'.keeps i y hy (h.keeps i y hy hi)
  room := h'.room.trans h.room

lemma Delivered.news (hj : j < st.1.size)
    (hfacts : ∀ i x, factAt st.1 i = some x → Fact x) (hv : Fact v)
    (hroom : roomAt rank height (some v) < roomAt rank height (factAt st.1 j))
    (harrived : a.merge v out = v)
    (hkeeps : ∀ y, Fact y → ∀ x, factAt st.1 j = some x → a.merge x y = x → a.merge v y = v) :
    Delivered a Fact rank height out [j] st
      (st.1.setIfInBounds j (some v), if st.2.contains j then st.2 else st.2 ++ [j]) where
  size := Array.size_setIfInBounds
  facts i x hx := by
    rw [factAt_setIfInBounds hj] at hx
    split at hx
    · cases hx; exact hv
    · exact hfacts i x hx
  waits i := by
    rw [factAt_setIfInBounds hj]
    by_cases hij : i = j
    · subst i
      right
      split
      · exact contains_iff_mem.1 ‹_›
      · exact mem_append_right _ (.head _)
    · rw [if_neg hij]
      exact .inl rfl
  queue i hi := by
    dsimp only
    split
    · exact hi
    · exact mem_append_left _ hi
  reached i x hx := by
    rw [factAt_setIfInBounds hj] at hx
    split at hx
    · exact .inr (mem_singleton.2 ‹_›)
    · exact .inl ⟨x, hx⟩
  arrived k hk := by
    obtain rfl := mem_singleton.1 hk
    exact ⟨v, by rw [factAt_setIfInBounds hj, if_pos rfl], harrived⟩
  keeps i y hy := by
    rintro ⟨x, hx, hxy⟩
    by_cases hij : i = j
    · subst i
      exact ⟨v, by rw [factAt_setIfInBounds hj, if_pos rfl], hkeeps y hy x hx hxy⟩
    · exact ⟨x, by rw [factAt_setIfInBounds hj, if_neg hij, hx], hxy⟩
  room := by
    have hlt := room_setIfInBounds_lt hj hroom
    dsimp only
    split
    · omega
    · rw [length_append, length_singleton]
      omega

variable [DecidableEq α]

variable (h : a.Bounded b Fact rank height)

include h

lemma deliver_delivered (hj : j < st.1.size)
    (hfacts : ∀ i x, factAt st.1 i = some x → Fact x) (hout : Fact out) :
    Delivered a Fact rank height out [j] st (deliver a out st j) := by
  obtain ⟨row, queue⟩ := st
  unfold deliver
  cases hknown : factAt row j with
  | none =>
    have hnone : (row[j]?).join = none := hknown
    simp only [hnone, reduceCtorEq, if_false]
    refine .news hj hfacts hout ?_ (h.merge_self out hout)
      fun y _ x hx => by rw [hknown] at hx; cases hx
    rw [hknown]
    exact Nat.lt_succ_of_le (Nat.sub_le _ _)
  | some x =>
    have hsome : (row[j]?).join = some x := hknown
    have hx := hfacts j x hknown
    simp only [hsome, some.injEq]
    by_cases heq : x = a.merge x out
    · rw [if_pos heq]
      have hnil : Delivered a Fact rank height out [] (row, queue) (row, queue) := .nil hfacts
      exact { hnil with
        reached := fun _ y hy => .inl ⟨y, hy⟩
        arrived := fun k hk => by
          obtain rfl := mem_singleton.1 hk
          exact ⟨x, hknown, heq.symm⟩ }
    · rw [if_neg heq]
      have hmerged := h.merge x out hx hout
      refine .news hj hfacts hmerged ?_ ?_ ?_
      · -- The merged fact ranks higher, and no fact ranks above the height.
        have hlt := h.rank_lt x out hx hout (Ne.symm heq)
        have hle := h.rank_le _ hmerged
        rw [hknown]
        show height - rank (a.merge x out) < height - rank x
        omega
      · rw [h.merge_assoc x out out hx hout hout, h.merge_self out hout]
      · intro y hy x' hx' hxy
        obtain rfl : x = x' := some.inj (hknown.symm.trans hx')
        rw [h.merge_assoc x out y hx hout hy, h.merge_comm out y hout hy,
          ← h.merge_assoc x y out hx hy hout, hxy]

lemma foldl_deliver_delivered (hout : Fact out) (js : List Nat) (hjs : ∀ j ∈ js, j < st.1.size)
    (hfacts : ∀ i x, factAt st.1 i = some x → Fact x) :
    Delivered a Fact rank height out js st (js.foldl (deliver a out) st) := by
  induction js generalizing st with
  | nil => exact .nil hfacts
  | cons j js ih =>
    have hfirst := deliver_delivered h (hjs j (.head _)) hfacts hout
    refine hfirst.append hout (ih (fun k hk => ?_) hfirst.facts)
    rw [hfirst.size]
    exact hjs k (.tail _ hk)
end Deliveries

section Solutions
variable {a : FlowAnalysis α} {b : Body} {Fact : α → Prop}

structure Consistent (a : FlowAnalysis α) (b : Body) (Fact : α → Prop) (s : FlowFacts α)
    (queue : List Nat) : Prop where
  sizeBefore : s.before.size = b.stmts.length
  sizeAfter : s.after.size = b.stmts.length
  entry : 0 < b.stmts.length → ∃ x, s.before? 0 = some x
  facts : ∀ i x, s.before? i = some x → Fact x
  reached : ∀ i x, s.before? i = some x → b.Reaches i
  waits : ∀ i x, s.before? i = some x → i ∈ queue ∨ s.after? i = some (a.transfer (b.actionAt i) x)
  behind : ∀ i y, s.after? i = some y → Fact y ∧ ∃ x, s.before? i = some x
  delivered : ∀ i y, s.after? i = some y → ∀ j ∈ b.successors i, Holds a s.before j y

/-- Facts that are in harmony with each other: there are some exactly where control comes, a
statement accounts for what is behind it, and that is known before every position that follows. -/
structure IsSolution (a : FlowAnalysis α) (b : Body) (s : FlowFacts α) : Prop where
  reached : ∀ i, (s.before? i).isSome ↔ b.Reaches i
  after : ∀ i, s.after? i = (s.before? i).map (a.transfer (b.actionAt i))
  merged : ∀ i y, s.after? i = some y → ∀ j ∈ b.successors i,
    ∃ x, s.before? j = some x ∧ a.merge x y = x

lemma Consistent.isSolution (hs : Consistent a b Fact s []) : IsSolution a b s := by
  have hafter : ∀ i x, s.before? i = some x → s.after? i = some (a.transfer (b.actionAt i) x) :=
    fun i x hx => (hs.waits i x hx).resolve_left (not_mem_nil)
  refine ⟨fun i => ⟨fun hi => ?_, fun hi => ?_⟩, fun i => ?_, hs.delivered⟩
  · obtain ⟨x, hx⟩ := isSome_iff_exists.1 hi
    exact hs.reached i x hx
  · induction hi with
    | entry hlt => exact isSome_iff_exists.2 (hs.entry hlt)
    | @next i j _ hj ih =>
      obtain ⟨x, hx⟩ := isSome_iff_exists.1 ih
      obtain ⟨y, hy, -⟩ := hs.delivered i _ (hafter i x hx) j hj
      exact isSome_iff_exists.2 ⟨y, hy⟩
  · cases hx : s.before? i with
    | some x => exact hafter i x hx
    | none =>
      cases hy : s.after? i with
      | none => rfl
      | some y =>
        obtain ⟨-, x, hx'⟩ := hs.behind i y hy
        rw [hx] at hx'
        cases hx'

/-- The facts at the start: only those before the first statement. -/
def initial (a : FlowAnalysis α) (b : Body) : FlowFacts α :=
  ⟨(Array.replicate b.stmts.length none).setIfInBounds 0 (some a.start),
    Array.replicate b.stmts.length none⟩

lemma consistent_initial (hstart : Fact a.start) :
    Consistent a b Fact (initial a b) (range (min b.stmts.length 1)) := by
  have hnothing (i : Nat) : factAt (Array.replicate b.stmts.length (none : Option α)) i = none := by
    unfold factAt
    rw [Array.getElem?_replicate]
    split <;> rfl
  have hbefore {i : Nat} {x : α} (hx : (initial a b).before? i = some x) :
      0 < b.stmts.length ∧ i = 0 ∧ x = a.start := by
    have hlt := lt_of_factAt hx
    have hpos : 0 < b.stmts.length := by
      simp only [initial, Array.size_setIfInBounds, Array.size_replicate] at hlt
      omega
    have hx' : factAt (initial a b).before i = some x := hx
    rw [initial, factAt_setIfInBounds (by simpa using hpos), hnothing] at hx'
    split at hx'
    · exact ⟨hpos, ‹_›, (some.inj hx').symm⟩
    · cases hx'
  have hafter (i : Nat) : (initial a b).after? i = none := hnothing i
  refine ⟨by simp [initial], by simp [initial], fun hpos => ⟨a.start, ?_⟩, fun i x hx => ?_,
    fun i x hx => ?_, fun i x hx => ?_, fun i y hy => ?_, fun i y hy => ?_⟩
  · show factAt _ 0 = _
    rw [initial, factAt_setIfInBounds (by simpa using hpos), if_pos rfl]
  · rw [(hbefore hx).2.2]
    exact hstart
  · obtain ⟨hpos, rfl, -⟩ := hbefore hx
    exact .entry hpos
  · obtain ⟨hpos, rfl, -⟩ := hbefore hx
    exact .inl (mem_range.2 (by omega))
  · rw [hafter] at hy; cases hy
  · rw [hafter] at hy; cases hy
end Solutions

section Visits
variable [DecidableEq α] (a : FlowAnalysis α) (b : Body)

/-- One visit: the fact behind a position goes to the positions after it, unless it is known. -/
def visitOnce (s : FlowFacts α) (i : Nat) (queue : List Nat) : FlowFacts α × List Nat :=
  match s.before? i with
  | none => (s, queue)
  | some x =>
    let out := a.transfer (b.actionAt i) x
    if s.after? i = some out then (s, queue)
    else
      let state := (b.successors i).foldl (deliver a out) (s.before, queue)
      (⟨state.1, s.after.setIfInBounds i (some out)⟩, state.2)

/-- The worklist empties, and these are the facts then. -/
inductive Settles : FlowFacts α → List Nat → FlowFacts α → Prop
  | done (s : FlowFacts α) : Settles s [] s
  | visit {s t : FlowFacts α} {i : Nat} {queue : List Nat} :
      Settles (visitOnce a b s i queue).1 (visitOnce a b s i queue).2 t →
      Settles s (i :: queue) t

variable {a b}

lemma iterate_nil (n : Nat) (s : FlowFacts α) : iterate a b n s [] = s := by cases n <;> rfl

lemma iterate_cons (n : Nat) (s : FlowFacts α) (i : Nat) (queue : List Nat) :
    iterate a b (n + 1) s (i :: queue) =
      iterate a b n (visitOnce a b s i queue).1 (visitOnce a b s i queue).2 := by
  have haction : ((b.stmts.map Stmt.action).toArray).getD i .nop = b.actionAt i := by
    rw [Array.getD_eq_getD_getElem?, getElem?_toArray, getElem?_map]
    rfl
  have hsuccessors : ((Array.range b.stmts.length).map b.successors).getD i [] = b.successors i := by
    rw [Array.getD_eq_getD_getElem?, Array.getElem?_map, Array.getElem?_range]
    split
    · rfl
    · rw [Body.successors_eq_nil (by omega)]
      rfl
  unfold iterate visitOnce
  rw [visit]
  cases s.before? i with
  | none => rfl
  | some x =>
    simp only [haction, hsuccessors]
    split <;> rfl

variable {Fact : α → Prop} {rank : α → Nat} {height : Nat} {s : FlowFacts α} {visits : Nat}

lemma Consistent.visitOnce (h : a.Bounded b Fact rank height)
    (hs : Consistent a b Fact s (i :: queue)) :
    Consistent a b Fact (visitOnce a b s i queue).1 (visitOnce a b s i queue).2 ∧
      room rank height (FlowFacts.visitOnce a b s i queue).1.before +
          (FlowFacts.visitOnce a b s i queue).2.length <
        room rank height s.before + (i :: queue).length := by
  unfold FlowFacts.visitOnce
  cases hbefore : s.before? i with
  | none =>
    refine ⟨{ hs with waits := fun k x hx => ?_ }, by simp⟩
    refine (hs.waits k x hx).imp_left fun hk => ?_
    rcases mem_cons.1 hk with rfl | hk
    · rw [hbefore] at hx; cases hx
    · exact hk
  | some x =>
    have hi : i < b.stmts.length := (hs.reached i x hbefore).lt
    have hout : Fact (a.transfer (b.actionAt i) x) := by
      rw [Body.actionAt_of_getElem? (getElem?_eq_getElem hi)]
      exact h.transfer _ (getElem_mem hi) x (hs.facts i x hbefore)
    dsimp only
    by_cases hafter : s.after? i = some (a.transfer (b.actionAt i) x)
    · rw [if_pos hafter]
      refine ⟨{ hs with waits := fun k y hy => ?_ }, by simp⟩
      rcases hs.waits k y hy with hk | hk
      · rcases mem_cons.1 hk with rfl | hk
        · obtain rfl := some.inj (hbefore.symm.trans hy)
          exact .inr hafter
        · exact .inl hk
      · exact .inr hk
    · rw [if_neg hafter]
      have hbounds : ∀ j ∈ b.successors i, j < (s.before, queue).1.size := by
        intro j hj
        rw [hs.sizeBefore]
        exact Body.lt_of_mem_successors hj
      have hd := foldl_deliver_delivered h hout (b.successors i) hbounds hs.facts
      generalize (b.successors i).foldl (deliver a (a.transfer (b.actionAt i) x))
        (s.before, queue) = state at hd
      have hset (k : Nat) : FlowFacts.after? (⟨state.1, s.after.setIfInBounds i
          (some (a.transfer (b.actionAt i) x))⟩ : FlowFacts α) k =
          if k = i then some (a.transfer (b.actionAt i) x) else s.after? k :=
        factAt_setIfInBounds (by rw [hs.sizeAfter]; exact hi) _ k
      have hkept (k : Nat) (z : α) (hz : s.before? k = some z) :
          ∃ z', factAt state.1 k = some z' := by
        obtain ⟨z', hz', -⟩ := hd.keeps k z (hs.facts k z hz)
          ⟨z, hz, h.merge_self z (hs.facts k z hz)⟩
        exact ⟨z', hz'⟩
      refine ⟨⟨hd.size.trans hs.sizeBefore, ?_, ?_, hd.facts, ?_, ?_, ?_, ?_⟩, ?_⟩
      · rw [Array.size_setIfInBounds]
        exact hs.sizeAfter
      · intro hlt
        obtain ⟨z, hz⟩ := hs.entry hlt
        exact hkept 0 z hz
      · intro k y hy
        rcases hd.reached k y hy with ⟨z, hz⟩ | hk
        · exact hs.reached k z hz
        · exact .next (hs.reached i x hbefore) hk
      · -- The fact before the position itself may have changed: then it waits again.
        intro k y hy
        rcases hd.waits k with hk | hk
        · have hy' : s.before? k = some y := hk.symm.trans hy
          rw [hset]
          by_cases hki : k = i
          · subst k
            obtain rfl := some.inj (hbefore.symm.trans hy')
            exact .inr (if_pos rfl)
          · rw [if_neg hki]
            refine (hs.waits k y hy').imp_left fun hk' => ?_
            rcases mem_cons.1 hk' with rfl | hk'
            · exact absurd rfl hki
            · exact hd.queue k hk'
        · exact .inl hk
      · intro k y hy
        rw [hset] at hy
        split at hy
        · subst k
          cases hy
          exact ⟨hout, hkept i x hbefore⟩
        · obtain ⟨hfact, z, hz⟩ := hs.behind k y hy
          exact ⟨hfact, hkept k z hz⟩
      · intro k y hy j hj
        rw [hset] at hy
        split at hy
        · subst k
          cases hy
          exact hd.arrived j hj
        · exact hd.keeps j y (hs.behind k y hy).1 (hs.delivered k y hy j hj)
      · have hroom := hd.room
        simp only [length_cons] at hroom ⊢
        omega

lemma iterate_settles (h : a.Bounded b Fact rank height) :
    ∀ (n : Nat) {s : FlowFacts α} {queue : List Nat}, Consistent a b Fact s queue →
      room rank height s.before + queue.length ≤ n →
      Settles a b s queue (iterate a b n s queue) ∧ Consistent a b Fact (iterate a b n s queue) []
  | n, s, [], hs, _ => by
    rw [iterate_nil]
    exact ⟨.done s, hs⟩
  | 0, _, _ :: _, _, hn => by simp at hn
  | n + 1, s, i :: queue, hs, hn => by
    obtain ⟨hs', hlt⟩ := hs.visitOnce h
    obtain ⟨hruns, hend⟩ := iterate_settles h n hs' (by omega)
    rw [iterate_cons]
    exact ⟨.visit hruns, hend⟩

lemma IsSolution.visitOnce (h : IsSolution a b s) (i : Nat)
    (queue : List Nat) : visitOnce a b s i queue = (s, queue) := by
  unfold FlowFacts.visitOnce
  cases hx : s.before? i with
  | none => rfl
  | some x =>
    dsimp only
    rw [if_pos (by rw [h.after, hx]; rfl)]

lemma IsSolution.settles (h : IsSolution a b s) : ∀ queue : List Nat, Settles a b s queue s
  | [] => .done s
  | i :: queue => .visit (by rw [h.visitOnce]; exact h.settles queue)

lemma IsSolution.iterate (h : IsSolution a b s) :
    ∀ (n : Nat) (queue : List Nat), iterate a b n s queue = s
  | 0, _ => rfl
  | _ + 1, [] => rfl
  | n + 1, i :: queue => by
    rw [iterate_cons, h.visitOnce]
    exact h.iterate n queue

variable (h : a.Bounded b Fact rank height)

include h

lemma solve_consistent (hvisits : b.stmts.length * (height + 1) + 1 ≤ visits) :
    Settles a b (initial a b) (range (min b.stmts.length 1)) (solve a b visits) ∧
      Consistent a b Fact (solve a b visits) [] := by
  refine iterate_settles h visits (consistent_initial h.start) ?_
  have hle : room rank height (initial a b).before ≤ _ := room_le _
  rw [(consistent_initial h.start).sizeBefore] at hle
  rw [length_range]
  omega

/-- **The worklist settles on a solution** within as many visits as the positions can rise
together. -/
theorem solve_settles
    (hvisits : b.stmts.length * (height + 1) + 1 ≤ visits) :
    Settles a b (initial a b) (range (min b.stmts.length 1)) (solve a b visits) ∧
      IsSolution a b (solve a b visits) :=
  (solve_consistent h hvisits).imp_right Consistent.isSolution
end Visits
end FlowFacts
end DataflowSpecializer
