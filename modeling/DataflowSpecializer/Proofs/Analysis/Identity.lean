import Mathlib.Algebra.Order.BigOperators.Group.List
import Mathlib.Algebra.Order.Ring.Nat
import Mathlib.Logic.Function.Iterate
import Mathlib.Order.Bounds.Basic
import Mathlib.Tactic.Common
import DataflowSpecializer.Analysis.Identity

/-! # The least map of objects

What a local or a field refers to is ordered by how much has reached it: nothing is below every
single object, and every object is below `ambiguous`. Maps are ordered holder by holder.
-/
namespace DataflowSpecializer
open List Option SortedMap

variable {y : Option Identity} {m n : ObjectMap}
namespace Identity
def Below (x y : Option Identity) : Prop := x = none ∨ x = y ∨ y = some .ambiguous
lemma Below.refl (x : Option Identity) : Below x x := .inr (.inl rfl)

lemma Below.trans (hxy : Below x y) (hyz : Below y z) : Below x z := by
  rcases hxy with rfl | rfl | rfl
  · exact .inl rfl
  · exact hyz
  · rcases hyz with h | rfl | rfl
    · cases h
    · exact .inr (.inr rfl)
    · exact .inr (.inr rfl)

variable {x : Option Identity}

lemma Below.antisymm (hxy : Below x y) (hyx : Below y x) : x = y := by
  rcases hxy with rfl | rfl | rfl
  · rcases hyx with rfl | rfl | h
    · rfl
    · rfl
    · cases h
  · rfl
  · rcases hyx with h | h | rfl
    · cases h
    · exact h.symm
    · rfl

def rank : Option Identity → Nat
  | none => 0
  | some (.object _) => 1
  | some .ambiguous => 2

lemma rank_le (x : Option Identity) : rank x ≤ 2 := by
  unfold rank
  split <;> omega

lemma Below.rank_le (h : Below x y) : rank x ≤ rank y := by
  rcases h with rfl | rfl | rfl
  · exact Nat.zero_le _
  · exact le_rfl
  · exact Identity.rank_le x

lemma Below.rank_lt (h : Below x y) (hne : x ≠ y) : rank x < rank y := by
  rcases h with rfl | rfl | rfl
  · cases y with
    | none => exact absurd rfl hne
    | some i => cases i <;> simp [rank]
  · exact absurd rfl hne
  · rcases x with _ | _ | _
    · simp [rank]
    · simp [rank]
    · exact absurd rfl hne

lemma below_join (known : Option Identity) (i : Identity) : Below known (some (join known i)) := by
  cases known with
  | none => exact .inl rfl
  | some j =>
    by_cases h : j = i
    · exact .inr (.inl (by simp [join, h]))
    · exact .inr (.inr (by simp [join, h]))

lemma join_below_iff : Below (some (join known i)) y ↔ Below known y ∧ Below (some i) y := by
  constructor
  · intro h
    refine ⟨(below_join known i).trans h, Below.trans ?_ h⟩
    cases known with
    | none => exact .refl _
    | some j =>
      by_cases hji : j = i
      · exact .inr (.inl (by simp [join, hji]))
      · exact .inr (.inr (by simp [join, hji]))
  · rintro ⟨hknown, hi⟩
    cases known with
    | none => exact hi
    | some j =>
      by_cases hji : j = i
      · subst j
        simpa [join] using hi
      · -- Only what is ambiguous is above two objects.
        have hy : y = some .ambiguous := by
          rcases hknown with h | rfl | h
          · cases h
          · rcases hi with h | h | h
            · cases h
            · exact absurd (some.inj h).symm hji
            · exact h
          · exact h
        exact .inr (.inr hy)
end Identity

namespace ObjectMap
open Identity (Below)

inductive Holder where
  | loc (l : LocalId)
  | field (f : FieldId)
deriving DecidableEq

def holder? (m : ObjectMap) : Holder → Option Identity
  | .loc l => m.identity? l
  | .field f => m.fields.get? f

lemma ext_holder? (h : ∀ p, m.holder? p = n.holder? p) : m = n := by
  have hlocals : m.locals = n.locals := ext_get? fun l => h (.loc l)
  have hfields : m.fields = n.fields := ext_get? fun f => h (.field f)
  calc m = ⟨m.locals, m.fields⟩ := rfl
    _ = ⟨n.locals, n.fields⟩ := by rw [hlocals, hfields]

/-- Maps are ordered holder by holder. -/
instance : PartialOrder ObjectMap where
  le m n := ∀ p, Below (m.holder? p) (n.holder? p)
  le_refl _ _ := .refl _
  le_trans _ _ _ hmn hnp p := (hmn p).trans (hnp p)
  le_antisymm _ _ hmn hnm := ext_holder? fun p => (hmn p).antisymm (hnm p)

def add (m : ObjectMap) (p : Holder) (i : Option Identity) : ObjectMap :=
  match p, i with
  | _, none => m
  | .loc l, some i => m.addLocal l i
  | .field f, some i => m.addField f i

lemma addLocal?_eq (m : ObjectMap) (l : LocalId) (i : Option Identity) :
    m.addLocal? l i = m.add (.loc l) i := by
  cases i <;> rfl

lemma holder?_add (m : ObjectMap) (p : Holder) (i : Identity) (q : Holder) :
    (m.add p (some i)).holder? q =
      if q = p then some (Identity.join (m.holder? q) i) else m.holder? q := by
  rcases p with l | f <;> rcases q with k | g
  · show (m.locals.insert l _).get? k = _
    by_cases h : k = l
    · subst k
      simp [holder?, identity?]
    · simp [get?_insert_of_ne _ h, h, holder?, identity?]
  · simp [holder?, add, addLocal]
  · simp [holder?, add, addField, identity?]
  · show (m.fields.insert f _).get? g = _
    by_cases h : g = f
    · subst g
      simp [holder?]
    · simp [get?_insert_of_ne _ h, h, holder?]

lemma holder?_add_of_ne (m : ObjectMap) (h : q ≠ p) (i : Option Identity) :
    (m.add p i).holder? q = m.holder? q := by
  cases i with
  | none => cases p <;> rfl
  | some i => rw [holder?_add, if_neg h]

lemma add_le_iff : m.add p i ≤ n ↔ m ≤ n ∧ Below i (n.holder? p) := by
  cases i with
  | none =>
    have hadd : m.add p none = m := by cases p <;> rfl
    rw [hadd]
    exact ⟨fun h => ⟨h, .inl rfl⟩, fun h => h.1⟩
  | some i =>
    constructor
    · intro h
      have hp := h p
      rw [holder?_add, if_pos rfl, Identity.join_below_iff] at hp
      refine ⟨fun q => ?_, hp.2⟩
      by_cases hqp : q = p
      · subst q
        exact hp.1
      · have hq := h q
        rwa [holder?_add, if_neg hqp] at hq
    · rintro ⟨hmn, hi⟩ q
      rw [holder?_add]
      split
      · subst q
        exact Identity.join_below_iff.2 ⟨hmn _, hi⟩
      · exact hmn q

lemma le_add (m : ObjectMap) (p : Holder) (i : Option Identity) : m ≤ m.add p i :=
  (add_le_iff.1 le_rfl).1

structure Flow where
  target : Holder
  source : ObjectMap → Option Identity

def Flow.IsMono (φ : Flow) : Prop := ∀ ⦃m n : ObjectMap⦄, m ≤ n → Below (φ.source m) (φ.source n)
def Flow.Done (φ : Flow) (m : ObjectMap) : Prop := Below (φ.source m) (m.holder? φ.target)

def follow (φs : List Flow) (m : ObjectMap) : ObjectMap :=
  φs.foldl (fun m φ => m.add φ.target (φ.source m)) m

lemma le_follow (φs : List Flow) (m : ObjectMap) : m ≤ follow φs m := by
  induction φs generalizing m with
  | nil => exact le_rfl
  | cons φ φs ih => exact (le_add m φ.target (φ.source m)).trans (ih _)

variable {φs : List Flow}

lemma follow_mono (hφs : ∀ φ ∈ φs, φ.IsMono) (h : m ≤ n) : follow φs m ≤ follow φs n := by
  induction φs generalizing m n with
  | nil => exact h
  | cons φ φs ih =>
    refine ih (fun ψ hψ => hφs ψ (.tail _ hψ)) (add_le_iff.2 ⟨?_, ?_⟩)
    · exact h.trans (le_add n φ.target (φ.source n))
    · -- What flows where less is known is below what flows where more is known.
      exact (hφs φ (.head _) h).trans (add_le_iff.1 le_rfl).2

lemma follow_eq_iff : follow φs m = m ↔ ∀ φ ∈ φs, φ.Done m := by
  induction φs generalizing m with
  | nil => simp [follow]
  | cons φ φs ih =>
    have hstep : follow (φ :: φs) m = follow φs (m.add φ.target (φ.source m)) := rfl
    rw [hstep, forall_mem_cons]
    constructor
    · intro h
      -- Nothing ever goes down, so that nothing can have gone up on the way.
      have hadd : m.add φ.target (φ.source m) = m :=
        le_antisymm ((le_follow φs _).trans h.le) (le_add m _ _)
      rw [hadd] at h
      exact ⟨(add_le_iff.1 hadd.le).2, ih.1 h⟩
    · rintro ⟨hφ, hφs⟩
      have hadd : m.add φ.target (φ.source m) = m :=
        le_antisymm (add_le_iff.2 ⟨le_rfl, hφ⟩) (le_add m _ _)
      rw [hadd]
      exact ih.2 hφs

lemma holder?_follow_of_ne (h : ∀ φ ∈ φs, p ≠ φ.target)
    (m : ObjectMap) : (follow φs m).holder? p = m.holder? p := by
  induction φs generalizing m with
  | nil => rfl
  | cons φ φs ih =>
    obtain ⟨hφ, hφs⟩ := forall_mem_cons.1 h
    exact (ih hφs _).trans (holder?_add_of_ne m hφ _)

def rank (φs : List Flow) (m : ObjectMap) : Nat :=
  (φs.map fun φ => Identity.rank (m.holder? φ.target)).sum

lemma rank_le (φs : List Flow) (m : ObjectMap) : rank φs m ≤ 2 * φs.length := by
  have h := sum_le_card_nsmul (φs.map fun φ => Identity.rank (m.holder? φ.target)) 2 (fun r hr => by
      obtain ⟨φ, -, rfl⟩ := List.mem_map.1 hr
      exact Identity.rank_le _)
  simpa [rank, Nat.mul_comm] using h

lemma rank_lt_of_follow_ne (hne : follow φs m ≠ m) : rank φs m < rank φs (follow φs m) := by
  obtain ⟨p, hp⟩ : ∃ p, (follow φs m).holder? p ≠ m.holder? p := by
    by_contra hall
    exact hne (ext_holder? fun p => by_contra fun hp => hall ⟨p, hp⟩)
  obtain ⟨φ, hφ, rfl⟩ : ∃ φ ∈ φs, p = φ.target := by
    by_contra hnone
    exact hp (holder?_follow_of_ne (fun φ hφ h => hnone ⟨φ, hφ, h⟩) m)
  refine sum_lt_sum _ _ (fun ψ _ => (le_follow φs m ψ.target).rank_le) ⟨φ, hφ, ?_⟩
  exact (le_follow φs m φ.target).rank_lt (Ne.symm hp)

section Statements
variable (model : Model) (facts : FieldFacts)

/-- The flows of a statement: both ways through a copy, from fields and calls to locals, from
locals to fields. What is stored to a field with a fact is the object of the fact. -/
def flows : Action → List Flow
  | .assign (.loc l) (.use (.loc r)) | .assign (.loc l) (.cast _ (.loc r)) =>
    [⟨.loc l, fun m => m.identity? r⟩, ⟨.loc r, fun m => m.identity? l⟩]
  | .assign (.loc l) (.field _ f) => [⟨.loc l, fun m => fieldIdentity? facts m f⟩]
  | .assign (.loc l) (.invoke call) => [⟨.loc l, fun m => callIdentity? model m call⟩]
  | .assign (.field _ f) (.use (.loc r)) =>
    match facts.object? f with
    | some o => [⟨.loc r, fun _ => some (.object o)⟩]
    | none => [⟨.field f, fun m => m.identity? r⟩]
  | _ => []

lemma step_eq_follow (m : ObjectMap) (a : Action) :
    m.step model facts a = follow (flows model facts a) m := by
  unfold step
  split
  iterate 4
    · simp only [unify, addLocal?_eq]
      rfl
  · rename_i base f r
    rw [flows]
    cases facts.object? f with
    | some o => rfl
    | none => cases h : m.identity? r <;> simp [follow, h, add]
  · rw [flows]
    · rfl
    all_goals assumption

lemma length_flows (a : Action) : (flows model facts a).length ≤ 2 := by
  unfold flows
  split
  · exact le_rfl
  · exact le_rfl
  · exact Nat.le_succ 1
  · exact Nat.le_succ 1
  · split <;> exact Nat.le_succ 1
  · exact Nat.zero_le 2

lemma fieldIdentity?_mono (f : FieldId) (h : m ≤ n) :
    Below (fieldIdentity? facts m f) (fieldIdentity? facts n f) := by
  unfold fieldIdentity?
  split
  · exact .refl _
  · exact h (.field f)

lemma callIdentity?_mono (call : Invocation) (h : m ≤ n) :
    Below (callIdentity? model m call) (callIdentity? model n call) := by
  unfold callIdentity?
  split
  · cases call.base with
    | none => exact .refl _
    | some base =>
      rw [bind_some, bind_some]
      have hbase : Below (m.identity? base) (n.identity? base) := h (.loc base)
      rcases hbase with hm | hmn | hn
      · rw [hm]
        exact .inl rfl
      · rw [hmn]
        exact .refl _
      · rw [hn]
        exact .inr (.inr rfl)
  · exact .refl _

lemma flows_isMono (a : Action) : ∀ φ ∈ flows model facts a, φ.IsMono := by
  intro φ hφ m n h
  unfold flows at hφ
  split at hφ
  iterate 2
    · rcases mem_pair.1 hφ with rfl | rfl
      · exact h (.loc _)
      · exact h (.loc _)
  · obtain rfl := mem_singleton.1 hφ
    exact fieldIdentity?_mono facts _ h
  · obtain rfl := mem_singleton.1 hφ
    exact callIdentity?_mono model _ h
  · split at hφ
    · obtain rfl := mem_singleton.1 hφ
      exact .refl _
    · obtain rfl := mem_singleton.1 hφ
      exact h (.loc _)
  · cases hφ
end Statements

section Rounds
variable (b : Body) (model : Model) (facts : FieldFacts)

def allFlows : List Flow := b.stmts.flatMap fun s => flows model facts s.action

lemma round_eq_follow (m : ObjectMap) :
    m.round b model facts = follow (allFlows b model facts) m := by
  unfold round allFlows
  induction b.stmts generalizing m with
  | nil => rfl
  | cons s ss ih =>
    rw [foldl_cons, ih, step_eq_follow, flatMap_cons]
    exact foldl_append.symm

lemma length_allFlows : (allFlows b model facts).length ≤ 2 * b.stmts.length := by
  unfold allFlows
  induction b.stmts with
  | nil => exact le_rfl
  | cons s ss ih =>
    rw [flatMap_cons, length_append, length_cons]
    have := length_flows model facts s.action
    omega

lemma round_eq_iff :
    m.round b model facts = m ↔ ∀ s ∈ b.stmts, m.step model facts s.action = m := by
  rw [round_eq_follow, follow_eq_iff]
  simp only [allFlows, mem_flatMap, step_eq_follow, follow_eq_iff]
  constructor
  · intro h s hs φ hφ
    exact h φ ⟨s, hs, hφ⟩
  · rintro h φ ⟨s, hs, hφ⟩
    exact h s hs φ hφ

lemma round_mono (h : m ≤ n) : m.round b model facts ≤ n.round b model facts := by
  rw [round_eq_follow, round_eq_follow]
  refine follow_mono (fun φ hφ => ?_) h
  obtain ⟨s, -, hs⟩ := mem_flatMap.1 hφ
  exact flows_isMono model facts s.action φ hs

lemma iterate_round_le (h : m ≤ n) (hn : n.round b model facts = n) (k : Nat) :
    (round b model facts)^[k] m ≤ n := by
  induction k with
  | zero => exact h
  | succ k ih =>
    rw [Function.iterate_succ_apply']
    exact (round_mono b model facts ih).trans hn.le

lemma le_iterate_round (m : ObjectMap) (k : Nat) : m ≤ (round b model facts)^[k] m := by
  induction k with
  | zero => exact le_rfl
  | succ k ih =>
    rw [Function.iterate_succ_apply', round_eq_follow]
    exact ih.trans (le_follow _ _)

lemma close_settles (n : Nat) (m : ObjectMap)
    (hn : 4 * b.stmts.length < n + rank (allFlows b model facts) m) :
    (∃ k, close b model facts n m = (round b model facts)^[k] m) ∧
      (close b model facts n m).round b model facts = close b model facts n m := by
  induction n generalizing m with
  | zero =>
    -- No room is left, but the targets cannot stand higher than at their top.
    have hle := rank_le (allFlows b model facts) m
    have hlength := length_allFlows b model facts
    omega
  | succ n ih =>
    rw [close]
    by_cases h : m.round b model facts = m
    · rw [if_pos h]
      exact ⟨⟨0, rfl⟩, h⟩
    · rw [if_neg h]
      -- The round has lifted a target, so that one round less is enough from here.
      have hlt : rank (allFlows b model facts) m <
          rank (allFlows b model facts) (m.round b model facts) := by
        rw [round_eq_follow] at h ⊢
        exact rank_lt_of_follow_ne h
      obtain ⟨⟨k, hk⟩, hfixed⟩ := ih (m.round b model facts) (by omega)
      refine ⟨⟨k + 1, ?_⟩, hfixed⟩
      rw [hk, Function.iterate_succ_apply]

lemma close_of_fixed (h : m.round b model facts = m) (n : Nat) : close b model facts n m = m := by
  cases n with
  | zero => rfl
  | succ n =>
    rw [close]
    exact if_pos h
end Rounds

/-- The map knows the receiver and the seeds. -/
def HasSeeds (b : Body) (receiver : Option ObjectId) (seeds : List (LocalId × ObjectId))
    (m : ObjectMap) : Prop :=
  (∀ this o, b.receiver = some this → receiver = some o →
    Below (some (.object o)) (m.identity? this)) ∧
  ∀ l o, (l, o) ∈ seeds → Below (some (.object o)) (m.identity? l)

/-- The map that knows them and nothing else. -/
def seeded (b : Body) (receiver : Option ObjectId) (seeds : List (LocalId × ObjectId)) :
    ObjectMap :=
  let start := match b.receiver, receiver with
    | some this, some o => empty.addLocal this (.object o)
    | _, _ => empty
  seeds.foldl (fun m (l, o) => m.addLocal l (.object o)) start

lemma empty_le (m : ObjectMap) : empty ≤ m := by
  intro p
  cases p <;> exact .inl rfl

lemma seeded_le_iff {receiver : Option ObjectId} :
    seeded b receiver seeds ≤ m ↔ HasSeeds b receiver seeds m := by
  have hfold (start : ObjectMap) :
      seeds.foldl (fun m (l, o) => m.addLocal l (.object o)) start ≤ m ↔
        start ≤ m ∧ ∀ l o, (l, o) ∈ seeds → Below (some (.object o)) (m.identity? l) := by
    induction seeds generalizing start with
    | nil => simp
    | cons e seeds ih =>
      obtain ⟨l, o⟩ := e
      rw [foldl_cons, ih]
      have hadd : start.addLocal l (.object o) ≤ m ↔
          start ≤ m ∧ Below (some (.object o)) (m.identity? l) :=
        add_le_iff (p := .loc l) (i := some (.object o))
      rw [hadd, and_assoc]
      refine and_congr_right fun _ => ⟨?_, ?_⟩
      · rintro ⟨hl, hrest⟩ k o' hk
        rcases mem_cons.1 hk with heq | hk
        · cases heq
          exact hl
        · exact hrest k o' hk
      · intro h
        exact ⟨h l o (.head _), fun k o' hk => h k o' (.tail _ hk)⟩
  unfold seeded HasSeeds
  rw [hfold]
  refine and_congr_left fun _ => ?_
  cases b.receiver with
  | none => simp [empty_le]
  | some this =>
    cases receiver with
    | none => simp [empty_le]
    | some o =>
      have hadd : empty.addLocal this (.object o) ≤ m ↔
          empty ≤ m ∧ Below (some (.object o)) (m.identity? this) :=
        add_le_iff (p := .loc this) (i := some (.object o))
      simp [hadd, empty_le]

variable (b : Body) (model : Model) (facts : FieldFacts) (receiver : Option ObjectId)
  (seeds : List (LocalId × ObjectId))

lemma analyze_settles : (∃ k, analyze b model facts receiver seeds =
      (round b model facts)^[k] (seeded b receiver seeds)) ∧
      (analyze b model facts receiver seeds).round b model facts =
        analyze b model facts receiver seeds :=
  close_settles b model facts _ _ (by omega)

lemma analyze_isLeast :
    IsLeast {m | HasSeeds b receiver seeds m ∧ ∀ s ∈ b.stmts, m.step model facts s.action = m}
      (analyze b model facts receiver seeds) := by
  obtain ⟨⟨k, hk⟩, hfixed⟩ := analyze_settles b model facts receiver seeds
  refine ⟨⟨?_, (round_eq_iff b model facts).1 hfixed⟩, ?_⟩
  · rw [hk]
    exact seeded_le_iff.1 (le_iterate_round b model facts _ k)
  · rintro m ⟨hseeds, hm⟩
    rw [hk]
    exact iterate_round_le b model facts (seeded_le_iff.2 hseeds)
      ((round_eq_iff b model facts).2 hm) k

/-- **The analysis of a body yields the least map of objects.**  The rounds come to an end. They
end with the least map that has the seeds and that no statement changes, so that going on from
there changes nothing, and the same statements in another order yield the same map. -/
theorem analyze_least_fixed_point : (∃ k, analyze b model facts receiver seeds =
        (round b model facts)^[k] (seeded b receiver seeds) ∧
      (round b model facts)^[k + 1] (seeded b receiver seeds) =
        (round b model facts)^[k] (seeded b receiver seeds)) ∧
      IsLeast {m | HasSeeds b receiver seeds m ∧ ∀ s ∈ b.stmts, m.step model facts s.action = m}
        (analyze b model facts receiver seeds) ∧
      resume b model facts (analyze b model facts receiver seeds) =
        analyze b model facts receiver seeds ∧
      ∀ b' : Body, b'.receiver = b.receiver → b'.stmts.Perm b.stmts →
        analyze b' model facts receiver seeds = analyze b model facts receiver seeds := by
  obtain ⟨⟨k, hk⟩, hfixed⟩ := analyze_settles b model facts receiver seeds
  refine ⟨⟨k, hk, ?_⟩, analyze_isLeast b model facts receiver seeds,
    close_of_fixed b model facts hfixed _, fun b' hreceiver hperm => ?_⟩
  · rw [Function.iterate_succ_apply', ← hk]
    exact hfixed
  · -- Which maps have the seeds and stay does not depend on the order of the statements.
    refine (analyze_isLeast b' model facts receiver seeds).unique ?_
    have hsame : {m | HasSeeds b' receiver seeds m ∧
          ∀ s ∈ b'.stmts, m.step model facts s.action = m} =
        {m | HasSeeds b receiver seeds m ∧ ∀ s ∈ b.stmts, m.step model facts s.action = m} := by
      ext m
      simp only [HasSeeds, hreceiver, hperm.mem_iff, Set.mem_ofPred_eq]
    rw [hsame]
    exact analyze_isLeast b model facts receiver seeds

def copies : Body where
  locals := #[]
  stmts := [
    ⟨0, .set 1 (.use (.loc 2))⟩,
    ⟨1, .set 2 (.use (.loc 0))⟩,
    ⟨2, .set 3 (.use (.loc 4))⟩]
  receiver := some 0
  params := []
  nextStmt := 3
  nextLabel := 0

/-- The receiver arrives whichever copy comes first, and so does the ambiguity. -/
theorem analyze_least_fixed_point_of_copies :
    let backwards : Body := { copies with stmts := copies.stmts.reverse }
    let m := analyze copies .empty .empty (some 7) [(3, 8), (4, 9)]
    m.identity? 1 = some (.object 7) ∧ m.isAmbiguous 4 ∧
      backwards.stmts.Perm copies.stmts ∧
      analyze backwards .empty .empty (some 7) [(3, 8), (4, 9)] = m := by
  intro backwards m
  have hperm : backwards.stmts.Perm copies.stmts := copies.stmts.reverse_perm
  obtain ⟨-, -, -, horder⟩ :=
    analyze_least_fixed_point copies .empty .empty (some 7) [(3, 8), (4, 9)]
  exact ⟨by decide +kernel, by decide +kernel, hperm, horder backwards rfl hperm⟩
end ObjectMap
end DataflowSpecializer
