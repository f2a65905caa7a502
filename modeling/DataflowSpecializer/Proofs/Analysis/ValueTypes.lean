import DataflowSpecializer.Proofs.Analysis.Flow
import DataflowSpecializer.Proofs.Expression.Spelled
import DataflowSpecializer.Proofs.Value.Height

/-! # The types in a method settle

The analysis of the types of values is bounded (`TypeContext.bounded`), although its transfer
function is not monotone: a local that nothing has reached reads as `unknown`, the greatest type,
and gets a smaller one later.
-/
namespace DataflowSpecializer
open List Option SortedMap ValueType Model
namespace SortedMap
variable {κ α : Type} [LawfulKey κ]

lemma get?_foldl_insert_entries (g : κ → α → α) (k : κ) :
    ∀ {l : List (κ × α)}, Entries.Sorted l → ∀ m : SortedMap κ α,
      (l.foldl (fun m e => m.insert e.1 (g e.1 e.2)) m).get? k =
        ((Entries.lookup k l).map (g k)).or (m.get? k)
  | [], _, m => rfl
  | (k', v) :: l, hl, m => by
    rw [foldl_cons, get?_foldl_insert_entries g k hl.of_cons, Entries.lookup, get?_insert]
    by_cases hk : compare k k' = .eq
    · obtain rfl := LawfulKey.eq_of_compare _ _ hk
      -- Keys increase, so that no later entry has this key.
      rw [Entries.lookup_eq_none_of_lt fun e he => rel_of_pairwise_cons hl he]
      simp [hk]
    · rw [if_neg hk, if_neg hk]

lemma get?_mergeWith (f : α → α → α) (m n : SortedMap κ α) (k : κ) :
    (mergeWith f m n).get? k = Option.merge f (m.get? k) (n.get? k) := by
  have hmerge : mergeWith f m n =
      n.entries.foldl (fun l e => l.insert e.1 ((m.get? e.1).elim e.2 (f · e.2))) m := by
    unfold mergeWith
    congr 1
    funext l e
    cases m.get? e.1 <;> rfl
  rw [hmerge, get?_foldl_insert_entries (fun k w => (m.get? k).elim w (f · w)) k n.sorted]
  show ((n.get? k).map _).or _ = _
  cases n.get? k <;> cases m.get? k <;> rfl
end SortedMap

def ValueType.Within (height : Nat) (t : ValueType) : Prop := t.IsCanonical ∧ t.climb ≤ height

def TypesWithin (height : Nat) (Key : Nat → Prop) (m : SortedMap Nat ValueType) : Prop :=
  ∀ k t, m.get? k = some t → Key k ∧ t.Within height

def levelAt (height : Nat) (m : SortedMap Nat ValueType) (k : Nat) : Nat :=
  match m.get? k with
  | none => 0
  | some t => height + 1 - t.climb

section Maps
variable {height : Nat} {Key : Nat → Prop} {f : ValueType → ValueType → ValueType}
  {m n p : SortedMap Nat ValueType}

lemma TypesWithin.insert (hm : TypesWithin height Key m) {t : ValueType} (hk : Key k)
    (ht : t.Within height) : TypesWithin height Key (m.insert k t) := by
  intro k' t' h
  rcases get?_insert_eq_some h with ⟨rfl, rfl⟩ | h
  · exact ⟨hk, ht⟩
  · exact hm k' t' h

section
variable (hf : ValueType.IsJoin f)

include hf

lemma TypesWithin.mergeWith (hm : TypesWithin height Key m)
    (hn : TypesWithin height Key n) : TypesWithin height Key (m.mergeWith f n) := by
  intro k t h
  rw [get?_mergeWith] at h
  cases hmk : m.get? k with
  | none =>
    cases hnk : n.get? k with
    | none => rw [hmk, hnk] at h; cases h
    | some w =>
      rw [hmk, hnk] at h
      obtain rfl : w = t := some.inj h
      exact hn k w hnk
  | some v =>
    obtain ⟨hk, hv, hclimb⟩ := hm k v hmk
    cases hnk : n.get? k with
    | none =>
      rw [hmk, hnk] at h
      cases h
      exact ⟨hk, hv, hclimb⟩
    | some w =>
      rw [hmk, hnk] at h
      cases h
      have hcanon := hf.canonical hv (hn k w hnk).2.1
      exact ⟨hk, hcanon, (climb_leq hv hcanon (hf.above hv w)).1.trans hclimb⟩

lemma mergeWith_self (hm : TypesWithin height Key m) : m.mergeWith f m = m := by
  refine ext_get? fun k => ?_
  rw [get?_mergeWith]
  cases hk : m.get? k with
  | none => rfl
  | some v => exact congrArg some (hf.self (hm k v hk).2.1)

lemma mergeWith_comm (hm : TypesWithin height Key m)
    (hn : TypesWithin height Key n) : m.mergeWith f n = n.mergeWith f m := by
  refine ext_get? fun k => ?_
  rw [get?_mergeWith, get?_mergeWith]
  cases hmk : m.get? k with
  | none => cases n.get? k <;> rfl
  | some v =>
    cases hnk : n.get? k with
    | none => rfl
    | some w => exact congrArg some (hf.comm (hm k v hmk).2.1 (hn k w hnk).2.1)

lemma mergeWith_assoc (hm : TypesWithin height Key m)
    (hn : TypesWithin height Key n) (hp : TypesWithin height Key p) :
    (m.mergeWith f n).mergeWith f p = m.mergeWith f (n.mergeWith f p) := by
  refine ext_get? fun k => ?_
  simp only [get?_mergeWith]
  cases hmk : m.get? k with
  | none => cases n.get? k <;> cases p.get? k <;> rfl
  | some v =>
    cases hnk : n.get? k with
    | none => cases p.get? k <;> rfl
    | some w =>
      cases hpk : p.get? k with
      | none => rfl
      | some u => exact congrArg some (hf.assoc (hm k v hmk).2.1 (hn k w hnk).2.1 (hp k u hpk).2.1)
end

lemma levelAt_le (height : Nat) (m : SortedMap Nat ValueType) (k : Nat) :
    levelAt height m k ≤ height + 1 := by
  unfold levelAt
  split
  · exact Nat.zero_le _
  · exact Nat.sub_le _ _

variable (hf : ValueType.IsJoin f)

include hf

lemma levelAt_mergeWith (hm : TypesWithin height Key m)
    (hn : TypesWithin height Key n) (k : Nat) : (m.mergeWith f n).get? k = m.get? k ∨
      levelAt height m k < levelAt height (m.mergeWith f n) k := by
  unfold levelAt
  rw [get?_mergeWith]
  cases hmk : m.get? k with
  | none =>
    cases hnk : n.get? k with
    | none => exact .inl rfl
    | some w =>
      have hclimb := (hn k w hnk).2.2
      right
      show 0 < height + 1 - w.climb
      omega
  | some v =>
    obtain ⟨-, hv, hclimb⟩ := hm k v hmk
    cases hnk : n.get? k with
    | none => exact .inl rfl
    | some w =>
      have hcanon := hf.canonical hv (hn k w hnk).2.1
      obtain ⟨hle, heq⟩ := climb_leq hv hcanon (hf.above hv w)
      by_cases hsame : f v w = v
      · exact .inl (congrArg some hsame)
      · right
        have hlt : (f v w).climb < v.climb := lt_of_le_of_ne hle fun h => hsame (heq h).symm
        show height + 1 - v.climb < height + 1 - (f v w).climb
        omega

lemma levelAt_mergeWith_le (hm : TypesWithin height Key m)
    (hn : TypesWithin height Key n) (k : Nat) :
    levelAt height m k ≤ levelAt height (m.mergeWith f n) k := by
  rcases levelAt_mergeWith hf hm hn k with h | h
  · unfold levelAt
    rw [h]
  · exact h.le

lemma exists_levelAt_lt (hm : TypesWithin height Key m)
    (hn : TypesWithin height Key n) (hne : m.mergeWith f n ≠ m) :
    ∃ k, Key k ∧ levelAt height m k < levelAt height (m.mergeWith f n) k := by
  obtain ⟨k, hk⟩ : ∃ k, (m.mergeWith f n).get? k ≠ m.get? k := by
    by_contra hall
    exact hne (ext_get? fun k => by_contra fun hk => hall ⟨k, hk⟩)
  have hlt := (levelAt_mergeWith hf hm hn k).resolve_left hk
  cases hget : (m.mergeWith f n).get? k with
  | none =>
    rw [levelAt, levelAt, hget] at hlt
    cases hlt
  | some t => exact ⟨k, ((hm.mergeWith hf hn) k t hget).1, hlt⟩
end Maps

namespace Body
def AssignsLocal (b : Body) (l : LocalId) : Prop :=
  ∃ s ∈ b.stmts, ∃ v, s.action = .assign (.loc l) v

def AssignsField (b : Body) (f : FieldId) : Prop :=
  ∃ s ∈ b.stmts, ∃ base v, s.action = .assign (.field base f) v
end Body

namespace TypeFact
def Within (b : Body) (height : Nat) (x : TypeFact) : Prop :=
  TypesWithin height b.AssignsLocal x.locals ∧ TypesWithin height b.AssignsField x.fields

def placeLevel (height : Nat) (x : TypeFact) : Action → Nat
  | .assign (.loc l) _ => levelAt height x.locals l
  | .assign (.field _ f) _ => levelAt height x.fields f
  | _ => 0

def rank (b : Body) (height : Nat) (x : TypeFact) : Nat :=
  (b.stmts.map fun s => placeLevel height x s.action).sum

variable {b : Body} {height : Nat} {x y z : TypeFact}

section
variable (hx : Within b height x)

include hx

lemma Within.merge (hy : Within b height y) : Within b height (x.merge y) :=
  ⟨hx.1.mergeWith isJoin_merge hy.1, hx.2.mergeWith isJoin_lub hy.2⟩

lemma Within.merge_self : x.merge x = x := by
  rw [TypeFact.merge, mergeWith_self isJoin_merge hx.1, mergeWith_self isJoin_lub hx.2]

lemma Within.merge_comm (hy : Within b height y) : x.merge y = y.merge x := by
  rw [TypeFact.merge, TypeFact.merge, mergeWith_comm isJoin_merge hx.1 hy.1,
    mergeWith_comm isJoin_lub hx.2 hy.2]

lemma Within.merge_assoc (hy : Within b height y)
    (hz : Within b height z) : (x.merge y).merge z = x.merge (y.merge z) := by
  simp only [TypeFact.merge]
  rw [mergeWith_assoc isJoin_merge hx.1 hy.1 hz.1, mergeWith_assoc isJoin_lub hx.2 hy.2 hz.2]
end

lemma placeLevel_le (height : Nat) (x : TypeFact) (a : Action) :
    placeLevel height x a ≤ height + 1 := by
  unfold placeLevel
  split
  · exact levelAt_le _ _ _
  · exact levelAt_le _ _ _
  · exact Nat.zero_le _

lemma rank_le (b : Body) (height : Nat) (x : TypeFact) :
    rank b height x ≤ b.stmts.length * (height + 1) := by
  have h := sum_le_card_nsmul (b.stmts.map fun s => placeLevel height x s.action) (height + 1)
    (fun r hr => by
      obtain ⟨s, -, rfl⟩ := List.mem_map.1 hr
      exact placeLevel_le height x s.action)
  simpa [rank] using h

lemma Within.rank_lt (hx : Within b height x) (hy : Within b height y) (hne : x.merge y ≠ x) :
    rank b height x < rank b height (x.merge y) := by
  refine sum_lt_sum _ _ (fun s _ => ?_) ?_
  · unfold placeLevel
    split
    · exact levelAt_mergeWith_le isJoin_merge hx.1 hy.1 _
    · exact levelAt_mergeWith_le isJoin_lub hx.2 hy.2 _
    · exact le_rfl
  · by_cases hlocals : x.locals.mergeWith ValueType.merge y.locals = x.locals
    · have hfields : x.fields.mergeWith ValueType.lub y.fields ≠ x.fields := by
        intro hfields
        apply hne
        rw [TypeFact.merge, hlocals, hfields]
      obtain ⟨f, ⟨s, hs, base, v, hv⟩, hlt⟩ := exists_levelAt_lt isJoin_lub hx.2 hy.2 hfields
      refine ⟨s, hs, ?_⟩
      rw [hv]
      exact hlt
    · obtain ⟨l, ⟨s, hs, v, hv⟩, hlt⟩ := exists_levelAt_lt isJoin_merge hx.1 hy.1 hlocals
      refine ⟨s, hs, ?_⟩
      rw [hv]
      exact hlt
end TypeFact

/-! ## What statements do to the types -/
namespace TypeContext
open Platform

structure IsCanonical (c : TypeContext) : Prop where
  port : ∀ o, (c.model.portType o).IsCanonical
  variableType : ∀ o, (c.model.variableType o).IsCanonical
  field : ∀ f t, c.facts.type? f = some t → t.IsCanonical

lemma le_foldl_max (l : List Nat) (n : Nat) : n ≤ l.foldl max n ∧ ∀ k ∈ l, k ≤ l.foldl max n := by
  induction l generalizing n with
  | nil => simp
  | cons k l ih =>
    obtain ⟨hstart, hall⟩ := ih (max n k)
    refine ⟨(le_max_left n k).trans hstart, fun j hj => ?_⟩
    rcases mem_cons.1 hj with rfl | hj
    · exact (le_max_right n _).trans hstart
    · exact hall j hj

section Within
variable {c : TypeContext} {b : Body} {x : TypeFact} {t : ValueType} {s : Stmt} {className : String}

lemma within_of_climb_le (ht : t.IsCanonical) (h : t.climb ≤ 32) : t.Within (c.heightBound b) := by
  refine ⟨ht, h.trans ?_⟩
  unfold heightBound
  exact Nat.add_le_add_right (le_foldl_max _ 24).1 8

lemma within_unknown : unknown.Within (c.heightBound b) := within_of_climb_le .unknown (by decide)

lemma height_le_heightBound
    (h : (∃ o ∈ c.model.ids, t = c.model.portType o ∨ t = c.model.variableType o) ∨
      t ∈ c.facts.types.values ∨ ∃ s ∈ b.stmts, ∃ place className element rest,
        s.action = .assign place (.new className (.const (.string element) :: rest)) ∧
          ofName? element = some t) :
    height t + 8 ≤ c.heightBound b := by
  refine Nat.add_le_add_right ((le_foldl_max _ 24).2 _ (List.mem_map.2 ⟨t, ?_, rfl⟩)) 8
  rw [mem_append, mem_append]
  rcases h with ⟨o, ho, h⟩ | h | ⟨s, hs, place, className, element, rest, haction, hname⟩
  · exact .inl (.inl (mem_flatMap.2 ⟨o, ho, by simpa using h⟩))
  · exact .inl (.inr h)
  · refine .inr (mem_flatMap.2 ⟨s, hs, ?_⟩)
    rw [haction]
    exact mem_toList.2 hname

lemma modelTypes_of_not_mem {m : Model} (h : o ∉ m.ids) :
    m.portType o = .unknown ∧ m.variableType o = .unknown := by
  have hkind : m.kind o = .relation := by
    rw [Model.kind, Model.object, Array.getD_eq_getD_getElem?,
      Array.getElem?_eq_none (by simpa [Model.ids] using h)]
    rfl
  simp [portType, port?, variableType, var?, hkind]

lemma within_modelTypes (hc : c.IsCanonical) (o : ObjectId) :
    (c.model.portType o).Within (c.heightBound b) ∧
      (c.model.variableType o).Within (c.heightBound b) := by
  by_cases ho : o ∈ c.model.ids
  · refine ⟨⟨hc.port o, (climb_le_height _).trans ?_⟩,
      ⟨hc.variableType o, (climb_le_height _).trans ?_⟩⟩
    · exact le_of_add_le_left (height_le_heightBound (.inl ⟨o, ho, .inl rfl⟩))
    · exact le_of_add_le_left (height_le_heightBound (.inl ⟨o, ho, .inr rfl⟩))
  · obtain ⟨hport, hvar⟩ := modelTypes_of_not_mem ho
    rw [hport, hvar]
    exact ⟨within_unknown, within_unknown⟩

lemma within_classType (h : ofValueClass? className = some t) : t.Within (c.heightBound b) := by
  have hall : ∀ e ∈ classTypes, e.2.climb ≤ 32 := by decide
  refine within_of_climb_le ?_ (hall _ (mem_of_lookup h))
  have hmem := mem_of_lookup h
  simp only [classTypes, mem_cons, Prod.mk.injEq, not_mem_nil, or_false] at hmem
  rcases hmem with ⟨-, rfl⟩ | ⟨-, rfl⟩ | ⟨-, rfl⟩ | ⟨-, rfl⟩ | ⟨-, rfl⟩ | ⟨-, rfl⟩ | ⟨-, rfl⟩ |
    ⟨-, rfl⟩ | ⟨-, rfl⟩ | ⟨-, rfl⟩ | ⟨-, rfl⟩ | ⟨-, rfl⟩ | ⟨-, rfl⟩ | ⟨-, rfl⟩ <;>
    repeat constructor

lemma within_constructed (hs : s ∈ b.stmts)
    (haction : s.action = .assign place (.new className args))
    (h : constructed? className args = some t) : t.Within (c.heightBound b) := by
  unfold constructed? at h
  split at h
  · split at h
    · obtain ⟨e, he, rfl⟩ := map_eq_some_iff.1 h
      refine ⟨.array (isCanonical_of_ofName? he), ?_⟩
      have hbound := height_le_heightBound (c := c)
        (.inr (.inr ⟨s, hs, place, className, _, _, haction, he⟩))
      have hclimb := climb_le_height e
      rw [ValueType.climb]
      omega
    · cases h
  · exact within_classType h

lemma within_local (hx : x.Within b (c.heightBound b)) (l : LocalId) :
    (x.local_ l).Within (c.heightBound b) := by
  unfold TypeFact.local_
  cases h : x.locals.get? l with
  | none => exact within_unknown
  | some t => exact (hx.1 l t h).2

lemma within_operand (hx : x.Within b (c.heightBound b)) (o : Operand) :
    (x.operand o).Within (c.heightBound b) := by
  cases o with
  | loc l => exact within_local hx l
  | const _ => exact within_unknown

lemma within_element {s : ValueType} {height : Nat} (hs : s.Within height)
    (h : s.element? = some t) : t.Within height := by
  obtain ⟨hcanon, hclimb⟩ := hs
  cases hcanon <;> simp only [element?, reduceCtorEq, some.injEq] at h
  all_goals
    subst t
    rw [ValueType.climb] at hclimb
    exact ⟨‹_›, by omega⟩

lemma within_field {fs : FieldTypes} {height : Nat} {label : String}
    (hs : (ValueType.record fs).Within height) (h : fs.lookup label = some t) :
    t.Within height := by
  obtain ⟨hcanon, hclimb⟩ := hs
  have hmem := mem_of_lookup h
  have hle : t.climb ≤ _ := climb_le_climbFields hmem
  rw [ValueType.climb] at hclimb
  cases hcanon with
  | record _ hfields => exact ⟨hfields _ hmem, by omega⟩

lemma within_lub {s u : ValueType} {height : Nat} (hs : s.Within height) (hu : u.Within height) :
    (s.lub u).Within height := by
  have hcanon := isCanonical_lub hs.1 hu.1
  exact ⟨hcanon, (climb_leq hs.1 hcanon (leq_lub_left hs.1 u)).1.trans hs.2⟩

variable (hc : c.IsCanonical)

include hc

lemma within_methodResult (hx : x.Within b (c.heightBound b))
    (h : c.methodResult? x call base = some t) :
    t.Within (c.heightBound b) := by
  have hbase := within_local hx base
  have hargument : ((call.args.head?.map x.operand).getD .unknown).Within (c.heightBound b) := by
    cases call.args with
    | nil => exact within_unknown
    | cons o _ => exact within_operand hx o
  unfold methodResult? at h
  dsimp only at h
  generalize (call.args.head?.map x.operand).getD .unknown = argument at h hargument
  generalize x.local_ base = s at h hbase
  split at h
  · obtain ⟨o, -, ho⟩ := bind_eq_some_iff.1 h
    obtain ⟨_, -, rfl⟩ := map_eq_some_iff.1 ho
    exact (within_modelTypes hc o).1
  split at h
  · obtain ⟨o, -, ho⟩ := bind_eq_some_iff.1 h
    obtain ⟨_, -, rfl⟩ := map_eq_some_iff.1 ho
    exact (within_modelTypes hc o).2
  split at h
  · obtain rfl := some.inj h
    split
    · exact within_unknown
    · exact within_lub hbase hargument
  split at h
  · obtain rfl := some.inj h
    exact hbase
  split at h
  · obtain rfl := some.inj h
    split
    · exact within_of_climb_le .double (by decide)
    · exact hbase
  split at h
  · obtain rfl := some.inj h
    exact within_of_climb_le .boolean (by decide)
  split at h
  · exact within_element hbase h
  split at h
  · split at h
    · exact within_field hbase h
    · cases h
  · cases h

lemma within_callResult (hx : x.Within b (c.heightBound b))
    (h : c.callResult? x call = some t) : t.Within (c.heightBound b) := by
  unfold callResult? at h
  split at h
  · split at h
    · exact within_classType h
    · cases h
  · obtain ⟨base, -, hbase⟩ := bind_eq_some_iff.1 h
    exact within_methodResult hc hx hbase

lemma within_fieldType (hx : x.Within b (c.heightBound b))
    (h : c.fieldType? x f = some t) : t.Within (c.heightBound b) := by
  unfold fieldType? at h
  split at h
  · rename_i s hs
    obtain rfl := some.inj h
    refine ⟨hc.field f s hs, (climb_le_height s).trans (le_of_add_le_left
      (height_le_heightBound (.inr (.inl ?_))))⟩
    exact List.mem_map.2 ⟨(f, s), (mem_entries_iff _ f s).2 hs, rfl⟩
  · split at h
    · rename_i s hs
      obtain rfl := some.inj h
      obtain ⟨className, -, hclass⟩ := bind_eq_some_iff.1 hs
      exact within_classType hclass
    · exact (hx.2 f t h).2

lemma within_valueType (hx : x.Within b (c.heightBound b))
    (hs : s ∈ b.stmts) (haction : s.action = .assign place v) :
    ((c.valueType? x v).getD .unknown).Within (c.heightBound b) := by
  cases h : c.valueType? x v with
  | none => exact within_unknown
  | some t =>
    show t.Within _
    unfold valueType? at h
    split at h
    · exact (hx.1 _ t h).2
    · exact (hx.1 _ t h).2
    · exact within_constructed hs haction h
    · exact within_fieldType hc hx h
    · exact within_callResult hc hx h
    · cases h

lemma within_transfer (hx : x.Within b (c.heightBound b))
    (hs : s ∈ b.stmts) : (c.transfer s.action x).Within b (c.heightBound b) := by
  unfold transfer
  split
  · rename_i l v haction
    exact ⟨hx.1.insert ⟨s, hs, v, haction⟩ (within_valueType hc hx hs haction), hx.2⟩
  · rename_i base f v haction
    split
    · exact hx
    · refine ⟨hx.1, hx.2.insert ⟨s, hs, base, v, haction⟩ ?_⟩
      split
      · exact within_operand hx _
      · exact within_unknown
  · exact hx
end Within

lemma bounded {c : TypeContext} (hc : c.IsCanonical) (b : Body) :
    c.analysis.Bounded b (TypeFact.Within b (c.heightBound b))
      (TypeFact.rank b (c.heightBound b)) (b.stmts.length * (c.heightBound b + 1)) where
  start := ⟨fun _ _ h => (by cases h), fun _ _ h => (by cases h)⟩
  transfer _ hs _ hx := within_transfer hc hx hs
  merge _ _ hx hy := hx.merge hy
  merge_self _ hx := hx.merge_self
  merge_comm _ _ hx hy := hx.merge_comm hy
  merge_assoc _ _ _ hx hy hz := hx.merge_assoc hy hz
  rank_le x _ := TypeFact.rank_le b _ x
  rank_lt _ _ hx hy := hx.rank_lt hy

lemma rises_le_visits (c : TypeContext) (b : Body) :
    b.stmts.length * (b.stmts.length * (c.heightBound b + 1) + 1) + 1 ≤ c.visits b := by
  unfold visits
  generalize b.stmts.length = n
  generalize c.heightBound b = h
  have hle : n * (h + 1) ≤ n * (h + 2) := Nat.mul_le_mul_left n (by omega)
  calc n * (n * (h + 1) + 1) + 1
      ≤ n * (n * (h + 2) + 2) + 1 * (n * (h + 2) + 2) :=
        Nat.add_le_add (Nat.mul_le_mul_left n (by omega)) (by omega)
    _ = (n + 1) * (n * (h + 2) + 2) := (Nat.add_mul _ _ _).symm

/-- **The types in a method settle.**  The worklist comes to an end. Then there are types exactly
where control can come, behind every statement stand those that it makes of the ones before it, and
these bring nothing new to any position that follows. Going on from there ends where it began. -/
theorem solve_reaches_fixed_point (c : TypeContext) (hc : c.IsCanonical) (b : Body) :
    FlowFacts.Settles c.analysis b (.initial c.analysis b) (range (min b.stmts.length 1))
        (c.solve b) ∧ (∀ i, ((c.solve b).before? i).isSome ↔ b.Reaches i) ∧
      (∀ i s, b.stmts[i]? = some s →
        (c.solve b).after? i = ((c.solve b).before? i).map (c.transfer s.action)) ∧
      (∀ i y, (c.solve b).after? i = some y → ∀ j ∈ b.successors i,
        ∃ x, (c.solve b).before? j = some x ∧ x.merge y = x) ∧
      (∀ queue, FlowFacts.Settles c.analysis b (c.solve b) queue (c.solve b)) ∧
      c.resume b (c.solve b) = c.solve b := by
  obtain ⟨hsettles, hsolution⟩ := FlowFacts.solve_settles (bounded hc b) (c.rises_le_visits b)
  refine ⟨hsettles, hsolution.reached, fun i s hs => ?_, hsolution.merged, hsolution.settles,
    hsolution.iterate _ _⟩
  rw [← Body.actionAt_of_getElem? hs]
  exact hsolution.after i

def retypingLoop : Body where
  locals := #[]
  stmts := [
    ⟨0, .set 0 (.new intToken [])⟩,
    ⟨1, .label 0⟩,
    ⟨2, .branch .eq (.loc 2) (.int 0) 1⟩,
    ⟨3, .set 1 (.use (.loc 0))⟩,
    ⟨4, .set 0 (.new doubleToken [])⟩,
    ⟨5, .goto 0⟩,
    ⟨6, .label 1⟩,
    ⟨7, .ret none⟩]
  receiver := none
  params := []
  nextStmt := 8
  nextLabel := 2

/-- Both locals of the loop end as unknown, and the solution stays. -/
theorem solve_reaches_fixed_point_of_loop :
    let c : TypeContext := ⟨.empty, .empty, .empty, .empty⟩
    c.IsCanonical ∧
      ((c.solve retypingLoop).before? 7).map (fun x => (x.locals.get? 0, x.locals.get? 1)) =
        some (some .unknown, some .unknown) ∧
      retypingLoop.Reaches 7 ∧
      c.resume retypingLoop (c.solve retypingLoop) = c.solve retypingLoop := by
  intro c
  have hc : c.IsCanonical := ⟨fun _ => .unknown, fun _ => .unknown, fun _ _ h => by cases h⟩
  obtain ⟨-, hreached, -, -, -, hresume⟩ := solve_reaches_fixed_point c hc retypingLoop
  have hend : ((c.solve retypingLoop).before? 7).map
      (fun x => (x.locals.get? 0, x.locals.get? 1)) = some (some .unknown, some .unknown) := by
    decide +kernel
  refine ⟨hc, hend, (hreached 7).1 ?_, hresume⟩
  rw [← isSome_map, hend]
  rfl
end TypeContext
end DataflowSpecializer
