import Mathlib.Data.Set.Finite.List
import Mathlib.Logic.Relation
import Mathlib.Order.WellFounded
import DataflowSpecializer.Model.Schedule
import DataflowSpecializer.Proofs.Model.Structure

/-! # Firing orders are schedules

The order of the entities in a composite is a greedy one. It gets stuck only when every entity that
is left waits for a cycle, which is why all entities that no cycle leads to come after what feeds
them.
-/
namespace DataflowSpecializer.Model
open List Relation

variable {m : Model} {composite a b c : ObjectId} {placed rest : List ObjectId}

/-- An entity of the composite has an output, and another one an input, at one of its relations. -/
structure Precedes (m : Model) (composite a b : ObjectId) : Prop where
  ne : a ≠ b
  source : a ∈ (m.object composite).entities
  target : b ∈ (m.object composite).entities
  connected : ∃ r ∈ (m.object composite).relations,
    (∃ p ∈ (m.object r).links, m.container p = some a ∧ (m.port? p).any (·.output)) ∧
      ∃ p ∈ (m.object r).links, m.container p = some b ∧ (m.port? p).any (·.input)

lemma Shape.precedes_iff (h : m.Shape) :
    m.Precedes composite a b ↔ m.feeds composite a b := by
  have hchild {r p e : ObjectId} (hr : r ∈ (m.object composite).relations)
      (hp : p ∈ (m.object r).links) (he : m.container p = some e) (hne : e ≠ composite) :
      e ∈ (m.object composite).entities := by
    obtain ⟨hcontainer, hfamily⟩ := (h.mem_contents composite .relation r).1 hr
    obtain ⟨-, c, hc, hown | ⟨e', he', hin, hentity⟩⟩ := h.linked r p hfamily hp
    all_goals obtain rfl := Option.some.inj (hcontainer.symm.trans hc)
    · exact absurd (Option.some.inj (he.symm.trans hown)) hne
    · obtain rfl := Option.some.inj (he.symm.trans he')
      exact (mem_entities_iff h).2 ⟨hin, hentity⟩
  have hne {e : ObjectId} (he : e ∈ (m.object composite).entities) : e ≠ composite :=
    ne_of_gt (h.container_lt ((mem_entities_iff h).1 he).1)
  simp only [feeds, Bool.and_eq_true, decide_eq_true_eq, any_eq_true, and_assoc]
  constructor
  · rintro ⟨hab, ha, hb, hconnected⟩
    exact ⟨hab, hne ha, hne hb, hconnected⟩
  · rintro ⟨hab, ha, hb, r, hr, ⟨p, hp, hpa, hout⟩, q, hq, hqb, hin⟩
    exact ⟨hab, hchild hr hp hpa ha, hchild hr hq hqb hb, r, hr, ⟨p, hp, hpa, hout⟩, q, hq, hqb, hin⟩

def Ready (m : Model) (composite : ObjectId) (placed : List ObjectId) (c : ObjectId) : Prop :=
  c ∉ placed ∧ ∀ a, m.Precedes composite a c → a ∈ placed

/-- The first declared entity that is ready. -/
def IsFirstReady (m : Model) (composite : ObjectId) (placed : List ObjectId) (c : ObjectId) :
    Prop :=
  m.Ready composite placed c ∧ ∃ before after, (m.object composite).entities = before ++ c :: after ∧
    ∀ b ∈ before, ¬ m.Ready composite placed b

/-- Each entity is the first that is ready after those before it. -/
inductive TakesFirst (m : Model) (composite : ObjectId) : List ObjectId → List ObjectId → Prop
  | nil (placed : List ObjectId) : TakesFirst m composite placed []
  | cons {placed rest : List ObjectId} {c : ObjectId} : m.IsFirstReady composite placed c →
      TakesFirst m composite (placed ++ [c]) rest → TakesFirst m composite placed (c :: rest)

/-- On no cycle, and not behind one. -/
def IsFree (m : Model) (composite b : ObjectId) : Prop :=
  ∀ a, TransGen (m.Precedes composite) a a → ¬ ReflTransGen (m.Precedes composite) a b

/-- What precedes an entity stands before it. -/
def FollowsSources (m : Model) (composite : ObjectId) (order : List ObjectId) (b : ObjectId) : Prop :=
  ∀ before after, order = before ++ b :: after → ∀ a, m.Precedes composite a b → a ∈ before

/-! ## One step -/

lemma IsFirstReady.unique (hb : m.IsFirstReady composite placed b)
    (hc : m.IsFirstReady composite placed c) : b = c := by
  classical
  obtain ⟨hb, before, after, hsplit, hnone⟩ := hb
  obtain ⟨hc, before', after', hsplit', hnone'⟩ := hc
  let ready (x : ObjectId) : Bool := decide (m.Ready composite placed x)
  have hfindb : (m.object composite).entities.find? ready = some b :=
    find?_eq_some_iff_append.2 ⟨decide_eq_true hb, before, after, hsplit, by simpa [ready] using hnone⟩
  have hfindc : (m.object composite).entities.find? ready = some c :=
    find?_eq_some_iff_append.2 ⟨decide_eq_true hc, before', after', hsplit', by simpa [ready] using hnone'⟩
  exact Option.some.inj (hfindb.symm.trans hfindc)

/-- Where no entity is ready, all those that no cycle leads to are placed. -/
lemma IsFree.mem_placed (hfree : m.IsFree composite b) (hb : b ∈ (m.object composite).entities)
    (hnone : ∀ x ∈ (m.object composite).entities, ¬ m.Ready composite placed x) : b ∈ placed := by
  let Above : Type := { x // x ∈ (m.object composite).entities ∧
    ReflTransGen (m.Precedes composite) x b }
  have : Finite Above := ((m.object composite).entities.finite_toSet.subset fun _ hx => hx.1).to_subtype
  let earlier (x y : Above) : Prop := TransGen (m.Precedes composite) x.1 y.1
  have : IsTrans Above earlier := ⟨fun _ _ _ hxy hyz => hxy.trans hyz⟩
  have : Std.Irrefl earlier := ⟨fun x hx => hfree x.1 hx x.2.2⟩
  have hplaced (x : Above) : x.1 ∈ placed := by
    induction x using (Finite.wellFounded_of_trans_of_irrefl earlier).induction with
    | _ x ih =>
      by_contra hx
      refine hnone x.1 x.2.1 ⟨hx, fun a ha => ?_⟩
      exact ih ⟨a, ha.source, .head ha x.2.2⟩ (.single ha)
  exact hplaced ⟨b, hb, .refl⟩

/-- **The next entity is the first one that is ready; if none is, it is one that a cycle leads to.** -/
lemma Shape.nextToFire_eq_some (h : m.Shape)
    (hc : m.nextToFire composite (m.object composite).entities placed = some c) :
    c ∈ (m.object composite).entities ∧ c ∉ placed ∧
      (m.IsFirstReady composite placed c ∨ ¬ m.IsFree composite c) := by
  have hready {x : ObjectId} : (!placed.contains x) ∧
      ((m.object composite).entities.filter fun p => m.feeds composite p x).all placed.contains =
        true ↔ m.Ready composite placed x := by
    simp only [Ready, Bool.not_eq_true', contains_eq_mem, decide_eq_false_iff_not, all_eq_true,
      mem_filter, decide_eq_true_eq, ← h.precedes_iff]
    exact and_congr_right fun _ => forall_congr' fun a =>
      ⟨fun hx ha => hx ⟨ha.source, ha⟩, fun hx ha => hx ha.2⟩
  unfold nextToFire at hc
  dsimp only at hc
  rw [find?_filter] at hc
  obtain hfind | ⟨hnone, hhead⟩ := Option.or_eq_some_iff.1 hc
  · obtain ⟨hx, before, after, hsplit, hbefore⟩ := find?_eq_some_iff_append.1 hfind
    have hx := hready.1 (of_decide_eq_true hx)
    refine ⟨by rw [hsplit]; simp, hx.1, .inl ⟨hx, before, after, hsplit, fun b hb hb' => ?_⟩⟩
    exact of_decide_eq_false (Bool.not_eq_true' _ ▸ hbefore b hb) (hready.2 hb')
  · obtain ⟨hmem, hplaced⟩ := mem_filter.1 (mem_of_head? hhead)
    have hplaced : c ∉ placed := by simpa using hplaced
    exact ⟨hmem, hplaced, .inr fun hfree => hplaced <| hfree.mem_placed hmem fun x hx hx' =>
      find?_eq_none.1 hnone x hx (decide_eq_true (hready.2 hx'))⟩

lemma subset_of_nextToFire_eq_none {children : List ObjectId}
    (h : m.nextToFire composite children placed = none) : children ⊆ placed := by
  have hwaiting := head?_eq_none_iff.1 (Option.or_eq_none_iff.1 h).2
  exact fun c hc => by simpa using filter_eq_nil_iff.1 hwaiting c hc

/-! ## Whole orders -/

lemma Shape.fireAfter_perm (h : m.Shape) (n : Nat) (hnodup : placed.Nodup)
    (hsubset : placed ⊆ (m.object composite).entities)
    (hlength : (m.object composite).entities.length ≤ placed.length + n) :
    (m.fireAfter composite (m.object composite).entities n placed).Perm
      (m.object composite).entities := by
  induction n generalizing placed with
  | zero => exact (hnodup.subperm hsubset).perm_of_length_le hlength
  | succ n ih =>
    rw [fireAfter]
    split
    · rename_i c hc
      obtain ⟨hmem, hnew, -⟩ := h.nextToFire_eq_some hc
      refine ih ?_ (append_subset.2 ⟨hsubset, by simpa using hmem⟩) ?_
      · exact hnodup.append (nodup_singleton c) (by simpa using hnew)
      · rw [length_append, length_singleton]
        omega
    · rename_i hnone
      exact (hnodup.subperm hsubset).antisymm
        ((h.nodup composite .entity).subperm (subset_of_nextToFire_eq_none hnone))

/-- What a run places: each entity is the first one that is ready, or a cycle leads to it. -/
inductive Fires (m : Model) (composite : ObjectId) : List ObjectId → List ObjectId → Prop
  | nil (placed : List ObjectId) : Fires m composite placed []
  | cons {placed rest : List ObjectId} {c : ObjectId} : c ∈ (m.object composite).entities →
      m.IsFirstReady composite placed c ∨ ¬ m.IsFree composite c →
      Fires m composite (placed ++ [c]) rest → Fires m composite placed (c :: rest)

lemma Shape.fireAfter_fires (h : m.Shape) (n : Nat) (placed : List ObjectId) :
    ∃ rest, m.fireAfter composite (m.object composite).entities n placed = placed ++ rest ∧
      m.Fires composite placed rest := by
  induction n generalizing placed with
  | zero => exact ⟨[], (append_nil _).symm, .nil placed⟩
  | succ n ih =>
    rw [fireAfter]
    split
    · rename_i c hc
      obtain ⟨hmem, -, hfirst⟩ := h.nextToFire_eq_some hc
      obtain ⟨rest, hrest, hfires⟩ := ih (placed ++ [c])
      exact ⟨c :: rest, by rw [hrest, append_assoc]; rfl, .cons hmem hfirst hfires⟩
    · exact ⟨[], (append_nil _).symm, .nil placed⟩

lemma Fires.takesFirst (h : m.Fires composite placed rest)
    (hfree : ∀ b, m.IsFree composite b) : m.TakesFirst composite placed rest := by
  induction h with
  | nil placed => exact .nil placed
  | cons _ hfirst _ ih => exact .cons (hfirst.resolve_right fun h => h (hfree _)) ih

lemma Fires.followsSources (h : m.Fires composite placed rest) (hfree : m.IsFree composite b)
    {before after : List ObjectId} (hrest : rest = before ++ b :: after)
    (hb : m.Precedes composite a b) : a ∈ placed ++ before := by
  induction h generalizing before with
  | nil => simp at hrest
  | @cons placed rest c _ hfirst _ ih =>
    cases before with
    | nil =>
      cases hrest
      rw [append_nil]
      exact (hfirst.resolve_right fun h => h hfree).1.2 a hb
    | cons c' before =>
      cases hrest
      simpa using ih rfl

lemma TakesFirst.unique {rest' : List ObjectId} (h : m.TakesFirst composite placed rest)
    (h' : m.TakesFirst composite placed rest') (hlength : rest'.length = rest.length) :
    rest' = rest := by
  induction h generalizing rest' with
  | nil => exact length_eq_zero_iff.1 hlength
  | cons hc _ ih =>
    cases h' with
    | nil => cases hlength
    | cons hc' h' =>
      obtain rfl := hc.unique hc'
      rw [ih h' (Nat.succ.inj hlength)]

/-- **A firing order is a stable schedule.**  It lists every entity of the composite once; where
there are no cycles, it is the only order that always takes the first declared entity that is ready;
and an entity that no cycle leads to comes after what feeds it in any case. -/
theorem firingOrder_schedules (d : Description.Entity) (m : Model) (h : ofDescription d = .ok m)
    (composite : ObjectId) :
    (∀ o, (m.firingOrder composite).count o =
      if m.container o = some composite ∧ m.isEntity o then 1 else 0) ∧
    ((∀ a, ¬ TransGen (m.Precedes composite) a a) →
      (∀ b, m.FollowsSources composite (m.firingOrder composite) b) ∧
        m.TakesFirst composite [] (m.firingOrder composite) ∧
          ∀ order, order.Perm (m.object composite).entities → m.TakesFirst composite [] order →
            order = m.firingOrder composite) ∧
    ∀ b, m.IsFree composite b → m.FollowsSources composite (m.firingOrder composite) b := by
  obtain ⟨⟨hshape, -⟩, -, -⟩ := wellBuilt_of_ofDescription h
  have hperm : (m.firingOrder composite).Perm (m.object composite).entities :=
    hshape.fireAfter_perm _ nodup_nil (nil_subset _) (Nat.le_add_left _ _)
  obtain ⟨rest, hrest, hfires⟩ : ∃ rest, m.firingOrder composite = rest ∧
      m.Fires composite [] rest := hshape.fireAfter_fires _ []
  have hfollows (b : ObjectId) (hfree : m.IsFree composite b) :
      m.FollowsSources composite (m.firingOrder composite) b :=
    fun before after hsplit a ha => hfires.followsSources hfree (hrest.symm.trans hsplit) ha
  refine ⟨fun o => ?_, fun hacyclic => ?_, hfollows⟩
  · simp only [hperm.count_eq, isEntity_iff, ← mem_entities_iff hshape]
    exact (hshape.nodup composite .entity).count
  · have hfree (b : ObjectId) : m.IsFree composite b := fun a ha => absurd ha (hacyclic a)
    have htakes := hfires.takesFirst hfree
    rw [← hrest] at htakes
    exact ⟨fun b => hfollows b (hfree b), htakes, fun order horder ho =>
      htakes.unique ho (horder.trans hperm.symm).length_eq⟩

/-- What feeds an entity is declared after it. -/
def reversedPair : Description.Entity where
  name := "M"
  entities := [{ name := "r", kind := "Recorder" }, { name := "c", kind := "Const" }]
  relations := [{ name := "l", links := ["c.output", "r.input"] }]

/-- The source of a pair fires first although it is declared last. -/
theorem firingOrder_schedules_of_reversedPair :
    ∃ m a b, ofDescription reversedPair = .ok m ∧ (m.object top).entities = [b, a] ∧
      m.firingOrder top = [a, b] ∧ m.Precedes top a b ∧ m.TakesFirst top [] [a, b] := by
  have h : ((ofDescription reversedPair).toOption.any fun m =>
      (m.object top).entities == [1, 3] && m.firingOrder top == [3, 1] && m.feeds top 3 1 &&
        !m.feeds top 1 3) := by
    decide +kernel
  obtain ⟨m, hm, h⟩ := exists_ok_of_any h
  simp only [Bool.and_eq_true, beq_iff_eq, Bool.not_eq_true'] at h
  obtain ⟨⟨⟨hentities, horder⟩, hfeeds⟩, hnot⟩ := h
  obtain ⟨⟨hshape, -⟩, -, -⟩ := wellBuilt_of_ofDescription hm
  have hlt {x y : ObjectId} (hxy : m.Precedes top x y) : y < x := by
    have hx := hxy.source
    have hy := hxy.target
    rw [hentities, mem_pair] at hx hy
    rcases hx with rfl | rfl <;> rcases hy with rfl | rfl
    · exact absurd rfl hxy.ne
    · rw [hshape.precedes_iff, hnot] at hxy
      cases hxy
    · decide
    · exact absurd rfl hxy.ne
  have hacyclic (x : ObjectId) (hx : TransGen (m.Precedes top) x x) : False := by
    have hdown {y z : ObjectId} (hyz : TransGen (m.Precedes top) y z) : z < y := by
      induction hyz with
      | single h => exact hlt h
      | tail _ h ih => exact Nat.lt_trans (hlt h) ih
    exact Nat.lt_irrefl x (hdown hx)
  have htakes := ((firingOrder_schedules _ m hm top).2.1 hacyclic).2.1
  rw [horder] at htakes
  exact ⟨m, 3, 1, hm, hentities, horder, hshape.precedes_iff.2 hfeeds, htakes⟩
end DataflowSpecializer.Model
