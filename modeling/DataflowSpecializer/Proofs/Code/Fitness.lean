import Mathlib.Data.List.Nodup
import Mathlib.Order.Nat
import DataflowSpecializer.Reduce.Simplify

/-! # Bodies that fit -/
namespace DataflowSpecializer
open List Option
open Simplify (label?)

variable {a : Action} {call : Invocation}

/-! ## What statements mention -/
def Action.mentions (a : Action) : List LocalId := a.uses ++ a.target?.toList

inductive Demand where
  | read (f : FieldId)
  | store (f : FieldId)
  | call (method : MethodRef)
  | new (className : String)
deriving DecidableEq

def Rvalue.demands : Rvalue → List Demand
  | .field _ f => [.read f]
  | .new className _ => [.new className]
  | .invoke call => [.call call.method]
  | _ => []

def Action.demands : Action → List Demand
  | .assign (.field _ f) v => .store f :: v.demands
  | .assign _ v => v.demands
  | .invoke call => [.call call.method]
  | _ => []

lemma Action.target?_mem_mentions (h : a.target? = some l) :
    l ∈ a.mentions := mem_append_right _ (mem_toList.2 h)

lemma Action.call?_locals_subset (h : a.call? = some call) : call.locals ⊆ a.mentions := by
  refine fun l hl => mem_append_left _ ?_
  cases a with
  | invoke i =>
    cases h
    exact hl
  | assign place v =>
    cases v <;> cases h
    cases place <;> simp [uses, Rvalue.locals, hl]
  | _ => cases h

lemma Action.call?_mem_demands (h : a.call? = some call) : .call call.method ∈ a.demands := by
  cases a with
  | invoke i =>
    cases h
    exact mem_singleton_self _
  | assign place v =>
    cases v <;> cases h
    cases place <;> simp [demands, Rvalue.demands]
  | _ => cases h

lemma Action.eq_set_invoke
    (hl : a.target? = some l) (hcall : a.call? = some call) : a = .set l (.invoke call) := by
  unfold target? at hl
  split at hl
  · rename_i v
    obtain rfl := some.inj hl
    cases v <;> cases hcall
    rfl
  · cases hl

lemma label?_of_call? (h : a.call? = some call) : label? a = none := by
  cases a <;> first | rfl | cases h

def labelsOf (code : List Action) : List Label := code.filterMap label?

lemma label?_eq_some : label? a = some l ↔ a = .label l := by cases a <;> simp [label?]

lemma mem_labelsOf : l ∈ labelsOf code ↔ .label l ∈ code := by simp [labelsOf, label?_eq_some]

@[simp] lemma labelsOf_append (code code' : List Action) :
    labelsOf (code ++ code') = labelsOf code ++ labelsOf code' := filterMap_append

lemma labelsOf_singleton_of_none (h : label? a = none) : labelsOf [a] = [] := filterMap_cons_none h

namespace Body
def code (b : Body) : List Action := b.stmts.map Stmt.action
def entry (b : Body) : List LocalId := b.receiver.toList ++ b.params

/-- Ids and labels are distinct, and jumps and locals are declared. -/
structure WellFormed (b : Body) : Prop where
  ids : (b.stmts.map Stmt.id).Nodup
  labels : (labelsOf b.code).Nodup
  targets : ∀ a ∈ b.code, ∀ l, a.jump? = some l → .label l ∈ b.code
  locals : ∀ a ∈ b.code, ∀ l ∈ a.mentions, l < b.locals.size
  entry : ∀ l ∈ b.entry, l < b.locals.size

/-- Moreover new ids are new, and `P` holds of what statements demand. -/
structure Fits (P : Demand → Prop) (b : Body) : Prop extends WellFormed b where
  idsBelow : ∀ s ∈ b.stmts, s.id < b.nextStmt
  labelsBelow : ∀ l ∈ labelsOf b.code, l < b.nextLabel
  demands : ∀ a ∈ b.code, ∀ x ∈ a.demands, P x

variable {P Q : Demand → Prop} {b : Body} {s : Stmt} {as : List Action}

lemma Fits.mono (hb : b.Fits P) (h : ∀ x, P x → Q x) : b.Fits Q :=
  { hb with demands := fun a ha x hx => h x (hb.demands a ha x hx) }

lemma fits_of_stmts_nil (h : b.stmts = []) (hentry : ∀ l ∈ b.entry, l < b.locals.size) :
    b.Fits P := by
  have hcode (a : Action) : a ∉ b.code := by simp [code, h]
  have hlabels : labelsOf b.code = [] := by simp [code, h, labelsOf]
  exact {
    ids := by simp [h]
    labels := by simp [hlabels]
    targets := fun a ha => absurd ha (hcode a)
    locals := fun a ha => absurd ha (hcode a)
    entry := hentry
    idsBelow := by simp [h]
    labelsBelow := by simp [hlabels]
    demands := fun a ha => absurd ha (hcode a) }

lemma fits_empty : empty.Fits P := fits_of_stmts_nil rfl (by simp [Body.entry, empty])

lemma size_newLocal (b : Body) (name : String) (type : CodeType) :
    (b.newLocal name type).2.locals.size = b.locals.size + 1 := Array.size_push _

lemma Fits.newLocal (hb : b.Fits P) (name : String) (type : CodeType) :
    (b.newLocal name type).2.Fits P := by
  have hsize {l : LocalId} (h : l < b.locals.size) : l < (b.newLocal name type).2.locals.size := by
    rw [size_newLocal]
    exact Nat.lt_succ_of_lt h
  exact { hb with
    locals := fun a ha l hl => hsize (hb.locals a ha l hl)
    entry := fun l hl => hsize (hb.entry l hl) }

lemma Fits.newLabel (hb : b.Fits P) : b.newLabel.2.Fits P :=
  { hb with labelsBelow := fun l hl => Nat.lt_succ_of_lt (hb.labelsBelow l hl) }

lemma number_action (b : Body) (as : List Action) : (b.number as).map Stmt.action = as := by
  apply ext_getElem <;> simp [number]

lemma number_id (b : Body) (as : List Action) :
    (b.number as).map Stmt.id = range' b.nextStmt as.length := by
  apply ext_getElem <;> simp [number]

lemma insertAt_code (b : Body) (pos : Nat) (as : List Action) :
    (b.insertAt pos as).2.code = b.code.take pos ++ as ++ b.code.drop pos := by
  simp [insertAt, code, number_action]

lemma insertAt_nil (b : Body) (pos : Nat) : (b.insertAt pos []).2 = b := by simp [insertAt, number]

lemma insertAt_ids (b : Body) (pos : Nat) (as : List Action) :
    (b.insertAt pos as).2.stmts.map Stmt.id =
      (b.stmts.map Stmt.id).take pos ++ range' b.nextStmt as.length ++
        (b.stmts.map Stmt.id).drop pos := by
  simp [insertAt, number_id]

lemma take_append_drop_perm {α : Type} (xs ys : List α) (n : Nat) :
    (xs.take n ++ ys ++ xs.drop n).Perm (xs ++ ys) := by
  calc xs.take n ++ ys ++ xs.drop n
      _ = xs.take n ++ (ys ++ xs.drop n) := append_assoc ..
      List.Perm _ (xs.take n ++ (xs.drop n ++ ys)) := perm_append_comm.append_left _
      _ = xs ++ ys := by rw [← append_assoc, take_append_drop]

lemma mem_insertAt_code : a ∈ (b.insertAt pos as).2.code ↔ a ∈ b.code ∨ a ∈ as := by
  rw [insertAt_code, (take_append_drop_perm b.code as pos).mem_iff, mem_append]

/-- Statements that may be added to a body: they bring the labels they jump to. -/
structure Insertable (P : Demand → Prop) (b : Body) (as : List Action) : Prop where
  labels : (labelsOf b.code ++ labelsOf as).Nodup
  labelsBelow : ∀ l ∈ labelsOf as, l < b.nextLabel
  targets : ∀ a ∈ as, ∀ l, a.jump? = some l → .label l ∈ as
  locals : ∀ a ∈ as, ∀ l ∈ a.mentions, l < b.locals.size
  demands : ∀ a ∈ as, ∀ x ∈ a.demands, P x

lemma Fits.insertAt (hb : b.Fits P) (has : b.Insertable P as) (pos : Nat) :
    (b.insertAt pos as).2.Fits P := by
  have hlabels : (labelsOf (b.insertAt pos as).2.code).Perm (labelsOf b.code ++ labelsOf as) := by
    rw [insertAt_code, ← labelsOf_append]
    exact (take_append_drop_perm b.code as pos).filterMap _
  have hids := take_append_drop_perm (b.stmts.map Stmt.id) (range' b.nextStmt as.length) pos
  rw [← insertAt_ids] at hids
  -- Old ids are below the counter, and new ones are not.
  have hidsBelow : ∀ i ∈ b.stmts.map Stmt.id, i < b.nextStmt := by
    intro i hi
    obtain ⟨s, hs, rfl⟩ := List.mem_map.1 hi
    exact hb.idsBelow s hs
  refine ⟨⟨?_, hlabels.nodup_iff.2 has.labels, ?_, ?_, hb.entry⟩, ?_, ?_, ?_⟩
  · refine hids.nodup_iff.2 (nodup_append.2 ⟨hb.ids, nodup_range', ?_⟩)
    intro i hi j hj
    exact Nat.ne_of_lt ((hidsBelow i hi).trans_le (mem_range'_1.1 hj).1)
  · intro a ha l hl
    rcases mem_insertAt_code.1 ha with ha | ha
    · exact mem_insertAt_code.2 (.inl (hb.targets a ha l hl))
    · exact mem_insertAt_code.2 (.inr (has.targets a ha l hl))
  · intro a ha l hl
    rcases mem_insertAt_code.1 ha with ha | ha
    · exact hb.locals a ha l hl
    · exact has.locals a ha l hl
  · intro s hs
    have hmem := hids.subset (List.mem_map_of_mem hs)
    show s.id < b.nextStmt + as.length
    rcases mem_append.1 hmem with hmem | hmem
    · exact Nat.lt_add_right _ (hidsBelow _ hmem)
    · exact (mem_range'_1.1 hmem).2
  · intro l hl
    rcases mem_append.1 (hlabels.subset hl) with hl | hl
    · exact hb.labelsBelow l hl
    · exact has.labelsBelow l hl
  · intro a ha x hx
    rcases mem_insertAt_code.1 ha with ha | ha
    · exact hb.demands a ha x hx
    · exact has.demands a ha x hx

/-! ## Changes of single statements -/
structure Plain (b : Body) (id : StmtId) : Prop where
  below : id < b.nextStmt
  action : ∀ s ∈ b.stmts, s.id = id → label? s.action = none

lemma Plain.of_mem (hb : b.Fits P) (hs : s ∈ b.stmts) (h : label? s.action = none) :
    b.Plain s.id where
  below := hb.idsBelow s hs
  action s' hs' hid := by
    rw [inj_on_of_nodup_map hb.ids hs' hs hid]
    exact h

lemma Plain.insertAt {id : StmtId} (h : b.Plain id) (pos : Nat) (as : List Action) :
    (b.insertAt pos as).2.Plain id where
  below := Nat.lt_add_right _ h.below
  action s hs hid := by
    have hmem : s ∈ b.stmts ∨ s ∈ b.number as := by
      have := (take_append_drop_perm b.stmts (b.number as) pos).mem_iff.1 hs
      exact mem_append.1 this
    rcases hmem with hs | hs
    · exact h.action s hs hid
    · have hnew : s.id ∈ range' b.nextStmt as.length := by
        rw [← number_id]
        exact List.mem_map_of_mem hs
      have hle : b.nextStmt ≤ id := hid ▸ (mem_range'_1.1 hnew).1
      exact absurd h.below hle.not_gt

lemma Fits.edit (hb : b.Fits P) {pre post : List Stmt} {o : Option Action}
    (hstmts : b.stmts = pre ++ s :: post) (hs : label? s.action = none)
    (ho : ∀ a ∈ o, label? a = none ∧ a.jump? = none ∧ (∀ l ∈ a.mentions, l < b.locals.size) ∧
      ∀ x ∈ a.demands, P x) :
    ({ b with stmts := pre ++ (o.map (Stmt.mk s.id)).toList ++ post } : Body).Fits P := by
  have hcode : b.code = pre.map Stmt.action ++ s.action :: post.map Stmt.action := by
    simp [code, hstmts]
  have hcode' : ({ b with stmts := pre ++ (o.map (Stmt.mk s.id)).toList ++ post } : Body).code =
      pre.map Stmt.action ++ o.toList ++ post.map Stmt.action := by
    cases o <;> simp [code]
  have hlabels : labelsOf (pre.map Stmt.action ++ o.toList ++ post.map Stmt.action) =
      labelsOf b.code := by
    have hnew : labelsOf o.toList = [] := by
      cases o with
      | none => rfl
      | some a => exact labelsOf_singleton_of_none (ho a rfl).1
    rw [hcode, ← singleton_append, ← append_assoc, labelsOf_append, labelsOf_append,
      labelsOf_append, labelsOf_append, hnew, labelsOf_singleton_of_none hs]
  -- Every action is an old one or the new one.
  have hmem {a : Action} (ha : a ∈ pre.map Stmt.action ++ o.toList ++ post.map Stmt.action) :
      a ∈ b.code ∨ a ∈ o := by
    rw [hcode]
    simp only [mem_append, mem_cons, mem_toList] at ha ⊢
    tauto
  have hids : List.Sublist ((pre ++ (o.map (Stmt.mk s.id)).toList ++ post).map Stmt.id)
      (b.stmts.map Stmt.id) := by
    rw [hstmts]
    cases o <;> simp
  refine ⟨⟨hids.nodup hb.ids, ?_, ?_, ?_, hb.entry⟩, ?_, ?_, ?_⟩
  · rw [hcode', hlabels]
    exact hb.labels
  · intro a ha l hl
    rw [← mem_labelsOf, hcode', hlabels, mem_labelsOf]
    rw [hcode'] at ha
    rcases hmem ha with ha | ha
    · exact hb.targets a ha l hl
    · rw [(ho a ha).2.1] at hl
      cases hl
  · intro a ha l hl
    rw [hcode'] at ha
    rcases hmem ha with ha | ha
    · exact hb.locals a ha l hl
    · exact (ho a ha).2.2.1 l hl
  · intro s' hs'
    obtain ⟨t, ht, htid⟩ := List.mem_map.1 (hids.subset (List.mem_map_of_mem hs'))
    rw [← htid]
    exact hb.idsBelow t ht
  · rw [hcode', hlabels]
    exact hb.labelsBelow
  · intro a ha x hx
    rw [hcode'] at ha
    rcases hmem ha with ha | ha
    · exact hb.demands a ha x hx
    · exact (ho a ha).2.2.2 x hx

lemma updateFirst_eq (stmts : List Stmt) :
    updateFirst p f stmts = stmts ∨ ∃ pre s post, stmts = pre ++ s :: post ∧ p s ∧
        updateFirst p f stmts = pre ++ f s :: post := by
  induction stmts with
  | nil => exact .inl rfl
  | cons s stmts ih =>
    rw [updateFirst]
    by_cases hs : p s
    · rw [if_pos hs]
      exact .inr ⟨[], s, stmts, rfl, hs, rfl⟩
    · rw [if_neg hs]
      rcases ih with ih | ⟨pre, t, post, hstmts, ht, hupdate⟩
      · exact .inl (by rw [ih])
      · exact .inr ⟨s :: pre, t, post, by simp [hstmts], ht, by simp [hupdate]⟩

variable {id : StmtId}

lemma mem_replace (hids : (b.stmts.map Stmt.id).Nodup) : s ∈ (b.replace id a).2.stmts ↔
      s ∈ b.stmts ∧ s.id ≠ id ∨ s = ⟨id, a⟩ ∧ ∃ t ∈ b.stmts, t.id = id := by
  unfold Body.replace
  generalize b.stmts = stmts at hids ⊢
  induction stmts with
  | nil => simp [updateFirst]
  | cons t stmts ih =>
    rw [map_cons, nodup_cons] at hids
    rw [updateFirst]
    by_cases ht : t.id = id
    · subst ht
      have hother {s : Stmt} (hs : s ∈ stmts) : s.id ≠ t.id := fun h =>
        hids.1 (h ▸ List.mem_map_of_mem hs)
      rw [if_pos (beq_self_eq_true _)]
      constructor
      · intro hs
        rcases mem_cons.1 hs with rfl | hs
        · exact .inr ⟨rfl, t, (.head _), rfl⟩
        · exact .inl ⟨.tail _ hs, hother hs⟩
      · rintro (⟨hs, hid⟩ | ⟨rfl, -⟩)
        · rcases mem_cons.1 hs with rfl | hs
          · exact absurd rfl hid
          · exact .tail _ hs
        · exact .head _
    · rw [if_neg (by simpa using ht), mem_cons, ih hids.2]
      simp only [mem_cons, exists_eq_or_imp]
      constructor
      · rintro (rfl | h)
        · exact .inl ⟨.inl rfl, ht⟩
        · exact h.imp (And.imp_left .inr) (And.imp_right .inr)
      · rintro (⟨rfl | hs, hid⟩ | ⟨hs, h | h⟩)
        · exact .inl rfl
        · exact .inr (.inl ⟨hs, hid⟩)
        · exact absurd h ht
        · exact .inr (.inr ⟨hs, h⟩)

lemma Fits.replace (hb : b.Fits P) (hid : b.Plain id) {l : LocalId} {v : Rvalue}
    (hlocals : ∀ k ∈ (Action.set l v).mentions, k < b.locals.size)
    (hdemands : ∀ x ∈ (Action.set l v).demands, P x) : (b.replace id (.set l v)).2.Fits P := by
  rw [Body.replace]
  rcases updateFirst_eq (p := (·.id == id)) (f := fun s => { s with action := .set l v }) b.stmts
    with h | ⟨pre, s, post, hstmts, hs, h⟩
  · rw [h]
    exact hb
  · rw [h]
    have hplain := hid.action s (by simp [hstmts]) (beq_iff_eq.1 hs)
    have hedit := hb.edit (o := some (.set l v)) hstmts hplain fun a ha => by
      cases ha
      exact ⟨rfl, rfl, hlocals, hdemands⟩
    simpa using hedit

lemma Fits.remove (hb : b.Fits P) (hid : b.Plain id) : (b.remove id).2.Fits P := by
  rw [Body.remove]
  by_cases hex : ∃ s ∈ b.stmts, (s.id == id)
  · obtain ⟨s, hs, hsid⟩ := hex
    obtain ⟨t, pre, post, -, ht, hstmts, herase⟩ := exists_of_eraseP (p := (·.id == id)) hs hsid
    have hplain := hid.action t (by simp [hstmts]) (beq_iff_eq.1 ht)
    have hedit := hb.edit (o := none) hstmts hplain (fun a ha => by cases ha)
    rw [herase]
    simpa using hedit
  · rw [eraseP_of_forall_not fun s hs h => hex ⟨s, hs, h⟩]
    exact hb

lemma Plain.of_stmts {b' : Body} (h : b.Plain id) (hnext : b'.nextStmt = b.nextStmt)
    (hstmts : ∀ s ∈ b'.stmts, s ∈ b.stmts ∨ label? s.action = none) : b'.Plain id where
  below := hnext ▸ h.below
  action s hs hid := (hstmts s hs).elim (fun hs => h.action s hs hid) fun hs => hs

lemma Plain.replace (h : b.Plain id) (at_ : StmtId) (l : LocalId) (v : Rvalue) :
    (b.replace at_ (.set l v)).2.Plain id := by
  refine h.of_stmts rfl fun s hs => ?_
  rw [Body.replace] at hs
  rcases updateFirst_eq (p := (·.id == at_)) (f := fun s => { s with action := .set l v }) b.stmts
    with heq | ⟨pre, t, post, hstmts, -, heq⟩
  · rw [heq] at hs
    exact .inl hs
  · rw [heq] at hs
    rw [hstmts]
    simp only [mem_append, mem_cons] at hs ⊢
    rcases hs with hs | rfl | hs
    · exact .inl (.inl hs)
    · exact .inr rfl
    · exact .inl (.inr (.inr hs))

lemma Plain.remove (h : b.Plain id) (at_ : StmtId) : (b.remove at_).2.Plain id :=
  h.of_stmts rfl fun _ hs => .inl (eraseP_subset hs)

structure Retains (b b' : Body) : Prop where
  plain : ∀ id, b.Plain id → b'.Plain id
  size : b.locals.size ≤ b'.locals.size
  nextStmt : b.nextStmt ≤ b'.nextStmt

namespace Retains
lemma refl (b : Body) : b.Retains b := ⟨fun _ h => h, .refl, .refl⟩

lemma trans {b' : Body} (h : b.Retains b') (h' : b'.Retains b'') : b.Retains b'' :=
  ⟨fun id hid => h'.plain id (h.plain id hid), h.size.trans h'.size, h.nextStmt.trans h'.nextStmt⟩

lemma insertAt (b : Body) (pos : Nat) (as : List Action) : b.Retains (b.insertAt pos as).2 :=
  ⟨fun _ h => h.insertAt pos as, .refl, Nat.le_add_right _ _⟩

lemma replace (b : Body) (id : StmtId) (l : LocalId) (v : Rvalue) :
    b.Retains (b.replace id (.set l v)).2 :=
  ⟨fun _ h => h.replace id l v, .refl, .refl⟩

lemma remove (b : Body) (id : StmtId) : b.Retains (b.remove id).2 :=
  ⟨fun _ h => h.remove id, .refl, .refl⟩
end Retains
end Body
end DataflowSpecializer
