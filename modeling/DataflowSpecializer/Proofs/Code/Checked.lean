import DataflowSpecializer.Proofs.Data
import DataflowSpecializer.Proofs.Simplify.Renumbering

/-! # Look-ups in bodies

The functions on bodies are total: a number that is out of range is counted nowhere, keeps its name,
or has the default declaration.
-/
namespace DataflowSpecializer
open List Option Body Array
section Loops
variable {α β : Type} {l : List α} {xs : Array α} {f : α → α}

lemma foldlM_eq_some {f : β → α → Option β} {g : β → α → β} {I : β → Prop}
    (h : ∀ b, I b → ∀ a ∈ l, f b a = some (g b a) ∧ I (g b a)) {b : β} (hb : I b) :
    l.foldlM f b = some (l.foldl g b) ∧ I (l.foldl g b) := by
  induction l generalizing b with
  | nil => exact ⟨rfl, hb⟩
  | cons a l ih =>
    obtain ⟨ha, hI⟩ := h b hb a (.head _)
    rw [foldlM_cons, ha, foldl_cons]
    exact ih (fun b hb a ha => h b hb a (.tail _ ha)) hI

def modify? (xs : Array α) (i : Nat) (f : α → α) : Option (Array α) :=
  if i < xs.size then some (xs.modify i f) else none

lemma foldlM_modify? {is : List Nat} (h : ∀ i ∈ is, i < xs.size) :
    is.foldlM (fun xs i => modify? xs i f) xs = some (is.foldl (fun xs i => xs.modify i f) xs) ∧
      (is.foldl (fun xs i => xs.modify i f) xs).size = xs.size := by
  refine foldlM_eq_some (I := fun ys : Array α => ys.size = xs.size) (fun ys hys i hi => ?_) rfl
  exact ⟨if_pos (hys ▸ h i hi), size_modify.trans hys⟩

lemma foldlM_stmts_modify? {g : Action → List Nat} {stmts : List Stmt}
    (h : ∀ s ∈ stmts, ∀ i ∈ g s.action, i < xs.size) :
    stmts.foldlM (fun xs s => (g s.action).foldlM (fun xs i => modify? xs i f) xs) xs =
      some (stmts.foldl (fun xs s => (g s.action).foldl (fun xs i => xs.modify i f) xs) xs) ∧
    (stmts.foldl (fun xs s => (g s.action).foldl (fun xs i => xs.modify i f) xs) xs).size =
      xs.size := by
  refine foldlM_eq_some (I := fun ys : Array α => ys.size = xs.size) (fun ys hys s hs => ?_) rfl
  obtain ⟨hsome, hsize⟩ := foldlM_modify? (f := f) fun i hi => hys ▸ h s hs i hi
  exact ⟨hsome, hsize.trans hys⟩
end Loops

namespace Checked
variable {b : Body}

def useCounts (b : Body) : Option (Array Nat) :=
  b.stmts.foldlM
    (fun counts s => s.action.uses.foldlM (fun counts l => modify? counts l (· + 1)) counts)
    (Array.replicate b.locals.size 0)

lemma useCounts_eq (hb : b.WellFormed) :
    useCounts b = some b.useCounts ∧ b.useCounts.size = b.locals.size := by
  rw [← size_replicate (n := b.locals.size) (v := 0)]
  refine foldlM_stmts_modify? fun s hs l hl => ?_
  rw [size_replicate]
  exact hb.locals s.action (List.mem_map_of_mem hs) l (mem_append_left _ hl)

def mentioned (b : Body) : Option (Array Bool) := do
  let mark (used : Array Bool) (l : LocalId) : Option (Array Bool) := modify? used l fun _ => true
  let entry ← (b.receiver.toList ++ b.params).foldlM mark (Array.replicate b.locals.size false)
  b.stmts.foldlM (fun used s => (s.action.uses ++ s.action.target?.toList).foldlM mark used) entry

lemma mentioned_eq (hb : b.WellFormed) : mentioned b = some b.mentioned := by
  have hlt : ∀ l ∈ b.receiver.toList ++ b.params, l < (Array.replicate b.locals.size false).size := by
    rw [size_replicate]
    exact hb.entry
  obtain ⟨hentry, hsize⟩ := foldlM_modify? (f := fun _ => true) hlt
  rw [mentioned, hentry]
  refine (foldlM_stmts_modify? (g := Action.mentions) fun s hs l hl => ?_).1
  rw [hsize, size_replicate]
  exact hb.locals s.action (List.mem_map_of_mem hs) l hl

/-! ## Renaming -/
section Rename
variable (f : LocalId → Option LocalId)

def operand : Operand → Option Operand
  | .loc l => (f l).map .loc
  | .const c => some (.const c)

def invocation (i : Invocation) : Option Invocation := do
  let base ← i.base.mapM f
  let args ← i.args.mapM (operand f)
  return { i with base, args }

def rvalue : Rvalue → Option Rvalue
  | .use o => return .use (← operand f o)
  | .cast t o => return .cast t (← operand f o)
  | .instanceOf c o => return .instanceOf c (← operand f o)
  | .field base x => return .field (← f base) x
  | .element base index => return .element (← f base) (← operand f index)
  | .length array => return .length (← f array)
  | .new c args => return .new c (← args.mapM (operand f))
  | .newArray t n => return .newArray t (← operand f n)
  | .binary op lhs rhs => return .binary op (← operand f lhs) (← operand f rhs)
  | .negate o => return .negate (← operand f o)
  | .not o => return .not (← operand f o)
  | .invoke call => return .invoke (← invocation f call)

def action : Action → Option Action
  | .assign (.loc l) value => return .assign (.loc (← f l)) (← rvalue f value)
  | .assign (.field base x) value => return .assign (.field (← f base) x) (← rvalue f value)
  | .assign (.element base index) value =>
    return .assign (.element (← f base) (← operand f index)) (← rvalue f value)
  | .invoke call => return .invoke (← invocation f call)
  | .branch op lhs rhs target => return .branch op (← operand f lhs) (← operand f rhs) target
  | .ret value => return .ret (← value.mapM (operand f))
  | .throw value => return .throw (← operand f value)
  | .goto target => return .goto target
  | .label l => return .label l
  | .nop => return .nop
end Rename

section Renamed
lemma operand_eq {o : Operand} (h : ∀ l ∈ o.locals, f l = some (g l)) :
    operand f o = some ((Exchange.newNames g).operand o) := by
  cases o with
  | loc l => rw [operand, h l (mem_singleton_self l)]; rfl
  | const c => rfl

lemma operands_eq {os : List Operand} (h : ∀ l ∈ os.flatMap Operand.locals, f l = some (g l)) :
    os.mapM (operand f) = some (os.map (Exchange.newNames g).operand) :=
  mapM_eq_pure fun o ho => operand_eq fun l hl => h l (mem_flatMap.2 ⟨o, ho, hl⟩)

lemma base_eq {base : Option LocalId} (h : ∀ l ∈ base.toList, f l = some (g l)) :
    base.mapM f = some (base.map g) := by
  cases base with
  | none => rfl
  | some l => rw [mapM_some, h l (mem_singleton_self l)]; rfl

lemma invocation_eq {i : Invocation} (h : ∀ l ∈ i.locals, f l = some (g l)) :
    invocation f i = some (i.exchange (.newNames g)) := by
  obtain ⟨hbase, hargs⟩ := forall_mem_append.1 h
  rw [invocation, base_eq hbase, operands_eq hargs]; rfl

lemma rvalue_eq {v : Rvalue} (h : ∀ l ∈ v.locals, f l = some (g l)) :
    rvalue f v = some (v.exchange (.newNames g)) := by
  cases v with
  | use o | cast t o | instanceOf c o | negate o | not o | newArray t o =>
    rw [rvalue, operand_eq h]; rfl
  | field base x | length base => rw [rvalue, h base (mem_singleton_self base)]; rfl
  | element base index =>
    obtain ⟨hbase, hindex⟩ := forall_mem_cons.1 h
    rw [rvalue, hbase, operand_eq hindex]; rfl
  | new c args => rw [rvalue, operands_eq h]; rfl
  | binary op lhs rhs =>
    obtain ⟨hlhs, hrhs⟩ := forall_mem_append.1 h
    rw [rvalue, operand_eq hlhs, operand_eq hrhs]; rfl
  | invoke call => rw [rvalue, invocation_eq h]; rfl

lemma action_eq {a : Action} (h : ∀ l ∈ a.mentions, f l = some (g l)) :
    action f a = some (a.renameLocals g) := by
  rw [Action.renameLocals_eq_exchange]
  obtain ⟨huses, htarget⟩ := forall_mem_append.1 h
  cases a with
  | assign place v =>
    cases place with
    | loc l => rw [action, htarget l (mem_singleton_self l), rvalue_eq huses]; rfl
    | field base x =>
      obtain ⟨hbase, hv⟩ := forall_mem_cons.1 huses
      rw [action, hbase, rvalue_eq hv]; rfl
    | element base index =>
      obtain ⟨hbase, hrest⟩ := forall_mem_cons.1 huses
      obtain ⟨hindex, hv⟩ := forall_mem_append.1 hrest
      rw [action, hbase, operand_eq hindex, rvalue_eq hv]; rfl
  | invoke call => rw [action, invocation_eq huses]; rfl
  | branch op lhs rhs target =>
    obtain ⟨hlhs, hrhs⟩ := forall_mem_append.1 huses
    rw [action, operand_eq hlhs, operand_eq hrhs]; rfl
  | ret value =>
    cases value with
    | none => rfl
    | some o => rw [action, mapM_some, operand_eq huses]; rfl
  | throw value => rw [action, operand_eq huses]; rfl
  | goto | label | nop => rfl
end Renamed

/-- Drops locals that nothing mentions and numbers the others from zero; nothing if all are
mentioned. -/
def compactLocals (b : Body) : Option (Option Body) := do
  let used ← mentioned b
  if used.all id then return none
  else
    let table := renumbering used
    let stmts ← b.stmts.mapM fun s => (action (table[·]?) s.action).map (Stmt.mk s.id)
    let receiver ← b.receiver.mapM (table[·]?)
    let params ← b.params.mapM (table[·]?)
    return some {
      b with
      locals := ((b.locals.zip used).filter (·.2)).map (·.1)
      stmts, receiver, params }

lemma getElem?_eq_getD {α : Type} {xs : Array α} (h : i < xs.size) (d : α) :
    xs[i]? = some (xs.getD i d) := by
  rw [Array.getElem?_eq_getElem h, Array.getD, dif_pos h]
  rfl

lemma compactLocals_eq (hb : b.WellFormed) : compactLocals b = some b.compactLocals? := by
  have hname {l : LocalId} (hl : l < b.locals.size) : (renumbering b.mentioned)[l]? =
      some ((renumbering b.mentioned).getD l l) := by
    refine getElem?_eq_getD ?_ l
    rwa [Simplify.size_renumbering, Simplify.size_mentioned]
  have hstmt (s : Stmt) (hs : s ∈ b.stmts) :
      (action ((renumbering b.mentioned)[·]?) s.action).map (Stmt.mk s.id) = some { s with
        action := s.action.renameLocals fun l => (renumbering b.mentioned).getD l l } := by
    have haction : s.action ∈ b.code := List.mem_map_of_mem hs
    rw [action_eq fun l hl => hname (hb.locals s.action haction l hl)]
    rfl
  obtain ⟨hreceiver, hparams⟩ := forall_mem_append.1 hb.entry
  rw [compactLocals, mentioned_eq hb, compactLocals?, bind_eq_bind, bind_some]
  split
  · rfl
  · dsimp only
    rw [mapM_eq_pure hstmt, base_eq fun l hl => hname (hreceiver l hl),
      mapM_eq_pure fun l hl => hname (hparams l hl)]
    rfl
end Checked
end DataflowSpecializer
