import DataflowSpecializer.Generate.Constant
import DataflowSpecializer.Generate.Workbench
import DataflowSpecializer.Proofs.Code.Fitness
import DataflowSpecializer.Proofs.Generate.Emission

/-! # Drafts that fit

A draft is tidy if its statements can become part of its body, but for labels that they jump to and
that are still to be placed (`Draft.Tidy`).
-/
namespace DataflowSpecializer
open List Option DataflowSpecializer.Action Operand
open Simplify (label?)
open Platform

def isNumbered (name : String) : Bool := name.toList.getLast?.any Char.isDigit

/-- Methods that are called in few places: the loop over the iterations, the text of an attribute,
constructors, functions, and the methods that compute variables. -/
def isReserved (name : String) : Bool :=
  ["execute", "getExpression", "<init>", "apply"].contains name ||
    "_CGcompute_".toList.isPrefixOf name.toList

/-- What code may do without looking: call methods that are not reserved, and constructors,
functions and objects of classes without a number. -/
class Liberal (P : Demand → Prop) : Prop where
  call : ∀ {m : MethodRef}, isReserved m.name = false → P (.call m)
  construct : ∀ {m : MethodRef}, m.name = "<init>" ∨ m.name = "apply" →
    isNumbered m.className = false → P (.call m)
  new : ∀ {className : String}, isNumbered className = false → P (.new className)

namespace Draft
structure Tidy (P : Demand → Prop) (W : List Label) (d : Draft) : Prop where
  body : d.body.Fits P
  labels : (labelsOf d.body.code ++ labelsOf d.actions ++ W).Nodup
  labelsBelow : ∀ l ∈ labelsOf d.actions ++ W, l < d.nextLabel
  targets : ∀ a ∈ d.actions, ∀ l, a.jump? = some l → .label l ∈ d.actions ∨ l ∈ W
  locals : ∀ a ∈ d.actions, ∀ l ∈ a.mentions, l < d.size
  demands : ∀ a ∈ d.actions, ∀ x ∈ a.demands, P x

structure Grows (d d' : Draft) : Prop where
  stmts : d'.body.stmts = d.body.stmts
  receiver : d'.body.receiver = d.body.receiver
  params : d'.body.params = d.body.params
  nextStmt : d'.body.nextStmt = d.body.nextStmt
  size : d.size ≤ d'.size
  actions : d.actions <+: d'.actions

variable {P Q : Demand → Prop} {V W : List Label} {d d' d'' : Draft} {b : Body}

lemma Grows.refl (d : Draft) : d.Grows d := ⟨rfl, rfl, rfl, rfl, .refl, prefix_refl _⟩

lemma Grows.trans (h : d.Grows d') (h' : d'.Grows d'') : d.Grows d'' where
  stmts := h'.stmts.trans h.stmts
  receiver := h'.receiver.trans h.receiver
  params := h'.params.trans h.params
  nextStmt := h'.nextStmt.trans h.nextStmt
  size := h.size.trans h'.size
  actions := h.actions.trans h'.actions

lemma Grows.retains (h : (ofBody b).Grows d) : b.Retains d.body where
  plain _ hid := hid.of_stmts h.nextStmt fun _ hs => .inl (h.stmts ▸ hs)
  size := h.size
  nextStmt := Nat.le_of_eq h.nextStmt.symm

lemma tidy_ofBody (hb : b.Fits P) : (ofBody b).Tidy P [] where
  body := hb
  labels := by simpa [ofBody, actions, labelsOf] using hb.labels
  labelsBelow := by simp [ofBody, actions, labelsOf]
  targets := by simp [ofBody, actions]
  locals := by simp [ofBody, actions]
  demands := by simp [ofBody, actions]

namespace Tidy
lemma mono (h : d.Tidy P W) (hPQ : ∀ x, P x → Q x) : d.Tidy Q W :=
  { h with
    body := h.body.mono hPQ
    demands := fun a ha x hx => hPQ x (h.demands a ha x hx) }

lemma perm (h : d.Tidy P W) (hW : W.Perm W') : d.Tidy P W' :=
  { h with
    labels := (hW.append_left _).nodup_iff.1 h.labels
    labelsBelow := fun l hl => h.labelsBelow l ((hW.append_left _).mem_iff.2 hl)
    targets := fun a ha l hl => (h.targets a ha l hl).imp_right hW.mem_iff.1 }

variable (h : d.Tidy P [])

include h

lemma insertable : d.body.Insertable P d.actions where
  labels := by simpa using h.labels
  labelsBelow l hl := h.labelsBelow l (by simpa using hl)
  targets a ha l hl := (h.targets a ha l hl).elim (fun h => h) fun h => by cases h
  locals := h.locals
  demands := h.demands

lemma insertAt (pos : Nat) : (d.body.insertAt pos d.actions).2.Fits P :=
  h.body.insertAt h.insertable pos

lemma finish : d.finish.Fits P := h.insertAt _
end Tidy

/-- The step leaves a draft tidy, and `Q` holds of the number of locals and the result. Before it
the labels `V` are placed and `W` are open, and there are at least `n` locals; afterwards the
labels `W'` are open. -/
def Tidies {α : Type} (P : Demand → Prop) (V W : List Label) (n : Nat) (x : Drafting α)
    (W' : α → List Label) (Q : Nat → α → Prop) : Prop :=
  ∀ ⦃d⦄, d.Tidy P W → (∀ l ∈ V, .label l ∈ d.actions) → n ≤ d.size →
    (x d).2.Tidy P (W' (x d).1) ∧ d.Grows (x d).2 ∧ Q (x d).2.size (x d).1

abbrev TidyValue (P : Demand → Prop) (V W : List Label) (n : Nat) (x : Drafting LocalId) : Prop :=
  Tidies P V W n x (fun _ => W) fun n (l : Nat) => l < n

abbrev TidyCode (P : Demand → Prop) (V W : List Label) (n : Nat) (x : Drafting Unit) : Prop :=
  Tidies P V W n x (fun _ => W) fun _ _ => True

section Rules
variable {α β : Type} {n : Nat} {x : Drafting α} {k : α → Drafting β} {W1 : α → List Label}
  {W2 : β → List Label} {R : Nat → α → Prop} {S : Nat → β → Prop}

lemma Tidies.bind (hx : Tidies P V W n x W1 R)
    (hk : ∀ a n', n ≤ n' → R n' a → Tidies P V (W1 a) n' (k a) W2 S) :
    Tidies P V W n (x >>= k) W2 S := by
  intro d hd hV hn
  obtain ⟨htidy, hgrows, hR⟩ := hx hd hV hn
  have hV' : ∀ l ∈ V, .label l ∈ (x d).2.actions := fun l hl => hgrows.actions.subset (hV l hl)
  obtain ⟨htidy', hgrows', hS⟩ := hk (x d).1 (x d).2.size (hn.trans hgrows.size) hR htidy hV' .refl
  exact ⟨htidy', hgrows.trans hgrows', hS⟩

lemma Tidies.pure {a : α} (h : ∀ n', n ≤ n' → R n' a) : Tidies P V W n (pure a) (fun _ => W) R :=
  fun d hd _ hn => ⟨hd, .refl d, h d.size hn⟩

lemma Tidies.perm (hW : W.Perm W') (hx : Tidies P V W' n x W1 R) :
    Tidies P V W n x W1 R := fun _ hd => hx (hd.perm hW)

lemma Tidies.get_bind {k : Draft → Drafting β}
    (hk : ∀ d, d.Tidy P W → n ≤ d.size → Tidies P V W d.size (k d) W2 S) :
    Tidies P V W n (get >>= k) W2 S :=
  fun d hd hV hn => hk d hd hn hd hV .refl
end Rules

lemma TidyCode.run {x : Drafting Unit} (hx : TidyCode P [] [] b.locals.size x)
    (hb : b.Fits P) : (x.run (.ofBody b)).2.Tidy P [] ∧ (ofBody b).Grows (x.run (.ofBody b)).2 := by
  obtain ⟨htidy, hgrows, -⟩ := hx (tidy_ofBody hb) nofun .refl
  exact ⟨htidy, hgrows⟩

lemma Tidy.receiver_lt (h : d.Tidy P W) (hl : d.body.receiver = some l) : l < d.size :=
  h.body.entry l (mem_append_left _ (mem_toList.2 hl))

lemma Tidy.param_lt (h : d.Tidy P W) (hl : l ∈ d.body.params) : l < d.size :=
  h.body.entry l (mem_append_right _ hl)

section Primitives
variable {n : Nat} {name : String} {type : CodeType}

lemma temp_tidy : TidyValue P V W n (temp name type) := by
  intro d hd _ _
  have hsize : (temp name type d).2.size = d.size + 1 := d.body.size_newLocal name type
  refine ⟨{ hd with
    body := hd.body.newLocal name type
    locals := fun a ha l hl => ?_ }, ⟨rfl, rfl, rfl, rfl, ?_, prefix_refl _⟩, ?_⟩
  · rw [hsize]
    exact Nat.lt_succ_of_lt (hd.locals a ha l hl)
  · rw [hsize]
    exact Nat.le_succ _
  · rw [hsize]
    exact Nat.lt_succ_self d.size

lemma label_tidy : Tidies P V W n label (fun l => l :: W) fun _ _ => True := by
  intro d hd _ _
  have hnew : (label d).1 ∉ labelsOf d.body.code ++ labelsOf d.actions ++ W := by
    intro hmem
    rw [append_assoc] at hmem
    rcases mem_append.1 hmem with hmem | hmem
    · exact Nat.lt_irrefl _ (hd.body.labelsBelow _ hmem)
    · exact Nat.lt_irrefl _ (hd.labelsBelow _ hmem)
  refine ⟨{ hd with
    body := hd.body.newLabel
    labels := perm_middle.nodup_iff.2 (nodup_cons.2 ⟨hnew, hd.labels⟩)
    labelsBelow := fun l hl => ?_
    targets := fun a ha l hl => (hd.targets a ha l hl).imp_right (mem_cons_of_mem _) },
    ⟨rfl, rfl, rfl, rfl, .refl, prefix_refl _⟩, trivial⟩
  rcases mem_cons.1 (perm_middle.mem_iff.1 hl) with rfl | hl
  · exact Nat.lt_succ_self _
  · exact Nat.lt_succ_of_lt (hd.labelsBelow l hl)

lemma emit_actions (a : Action) (d : Draft) : (emit a d).2.actions = d.actions ++ [a] :=
  Array.toList_push

lemma emit_grows (a : Action) (d : Draft) : d.Grows (emit a d).2 :=
  ⟨rfl, rfl, rfl, rfl, .refl, emit_actions a d ▸ prefix_append _ _⟩

lemma emit_tidy {a : Action} (hlabel : label? a = none)
    (hjump : ∀ l, a.jump? = some l → l ∈ V ∨ l ∈ W) (hlocals : ∀ l ∈ a.mentions, (l : Nat) < n)
    (hdemands : ∀ x ∈ a.demands, P x) : TidyCode P V W n (emit a) := by
  intro d hd hV hn
  have hlabels : labelsOf (d.actions ++ [a]) = labelsOf d.actions := by
    rw [labelsOf_append, labelsOf_singleton_of_none hlabel, append_nil]
  refine ⟨⟨hd.body, ?_, ?_, ?_, ?_, ?_⟩, emit_grows a d, trivial⟩
  all_goals rw [emit_actions]
  · rw [hlabels]
    exact hd.labels
  · rw [hlabels]
    exact hd.labelsBelow
  · intro b hb l hl
    rcases mem_append.1 hb with hb | hb
    · exact (hd.targets b hb l hl).imp_left (mem_append_left _)
    · obtain rfl := mem_singleton.1 hb
      exact (hjump l hl).imp_left fun h => mem_append_left _ (hV l h)
  · intro b hb l hl
    rcases mem_append.1 hb with hb | hb
    · exact hd.locals b hb l hl
    · obtain rfl := mem_singleton.1 hb
      exact (hlocals l hl).trans_le hn
  · intro b hb
    rcases mem_append.1 hb with hb | hb
    · exact hd.demands b hb
    · obtain rfl := mem_singleton.1 hb
      exact hdemands

lemma Tidies.place_bind {α : Type} {l : Label} {x : Drafting α} {W' : α → List Label}
    {R : Nat → α → Prop} (hx : Tidies P (l :: V) W n x W' R) :
    Tidies P V (l :: W) n (place l >>= fun _ => x) W' R := by
  intro d hd hV hn
  have hlabels : labelsOf (d.actions ++ [.label l]) = labelsOf d.actions ++ [l] :=
    labelsOf_append _ _
  have hopen (xs : List Label) : xs ++ l :: W = xs ++ [l] ++ W := by simp
  have htidy : (place l d).2.Tidy P W := by
    refine ⟨hd.body, ?_, ?_, ?_, ?_, ?_⟩
    all_goals rw [place, emit_actions]
    · rw [hlabels, ← append_assoc, ← hopen]
      exact hd.labels
    · rw [hlabels, ← hopen]
      exact hd.labelsBelow
    · intro b hb k hk
      rcases mem_append.1 hb with hb | hb
      · rcases hd.targets b hb k hk with h | h
        · exact .inl (mem_append_left _ h)
        · rcases mem_cons.1 h with rfl | h
          · exact .inl (mem_append_right _ (mem_singleton_self _))
          · exact .inr h
      · obtain rfl := mem_singleton.1 hb
        cases hk
    · intro b hb
      rcases mem_append.1 hb with hb | hb
      · exact hd.locals b hb
      · obtain rfl := mem_singleton.1 hb
        exact nofun
    · intro b hb
      rcases mem_append.1 hb with hb | hb
      · exact hd.demands b hb
      · obtain rfl := mem_singleton.1 hb
        exact nofun
  have hV' : ∀ k ∈ l :: V, .label k ∈ (place l d).2.actions := by
    intro k hk
    rw [place, emit_actions]
    rcases mem_cons.1 hk with rfl | hk
    · exact mem_append_right _ (mem_singleton_self _)
    · exact mem_append_left _ (hV k hk)
  obtain ⟨h, hgrows, hR⟩ := hx htidy hV' hn
  exact ⟨h, (emit_grows _ d).trans hgrows, hR⟩

lemma place_tidy {l : Label} : Tidies P V (l :: W) n (place l) (fun _ => W) fun _ _ => True :=
  Tidies.place_bind (x := pure ()) (.pure fun _ _ => trivial)
end Primitives

/-! ## Values -/
section Values
variable {n : Nat} {name : String} {type : CodeType} {a b l : Nat} {os : List Operand}
  {target : Label} {args : List Operand} {className : String} {vs : List Operand} {i : Invocation}
  {op : BinaryOp} {c : Constant}

lemma assign_tidy {v : Rvalue} (hl : l < n) (hv : ∀ k ∈ v.locals, (k : Nat) < n)
    (hP : ∀ x ∈ v.demands, P x) : TidyCode P V W n (assign l v) := by
  refine emit_tidy rfl (fun _ h => by cases h) (fun k hk => ?_) hP
  rcases mem_append.1 hk with hk | hk
  · exact hv k hk
  · obtain rfl := some.inj (mem_toList.1 hk)
    exact hl

lemma value_tidy {v : Rvalue} (hv : ∀ k ∈ v.locals, (k : Nat) < n) (hP : ∀ x ∈ v.demands, P x) :
    TidyValue P V W n (value name type v) :=
  temp_tidy.bind fun l n' hn hl =>
    (assign_tidy hl (fun k hk => (hv k hk).trans_le hn) hP).bind fun _ n'' hn' _ =>
      .pure fun _ hn'' => by omega

lemma copy_tidy (hl : l < n) (ha : a < n) : TidyCode P V W n (assign l (.use (.loc a))) :=
  assign_tidy hl (by simpa [Rvalue.locals, locals]) nofun

lemma constant_tidy : TidyValue P V W n (constant name c) := value_tidy nofun nofun

lemma cast_tidy (hl : l < n) : TidyValue P V W n (cast name type l) :=
  value_tidy (by simpa [Rvalue.locals, locals]) nofun

lemma instanceOf_tidy (hl : l < n) :
    TidyValue P V W n (value name type (.instanceOf className (.loc l))) :=
  value_tidy (by simpa [Rvalue.locals, locals]) nofun

lemma operation_tidy (ha : a < n) (hb : b < n) :
    TidyValue P V W n (value name type (.binary op (.loc a) (.loc b))) :=
  value_tidy (by simpa [Rvalue.locals, locals] using ⟨ha, hb⟩) nofun

def OperandsTaken (n : Nat) (args : List Operand) : Prop := ∀ l ∈ args.flatMap locals, (l : Nat) < n

lemma OperandsTaken.mono {n' : Nat} (h : OperandsTaken n args)
    (hn : n ≤ n') : OperandsTaken n' args := fun l hl => (h l hl).trans_le hn

@[simp] lemma operandsTaken_nil : OperandsTaken n [] := nofun

@[simp] lemma operandsTaken_cons_loc :
    OperandsTaken n (.loc l :: os) ↔ l < n ∧ OperandsTaken n os := by
  simp [OperandsTaken, locals, or_imp, forall_and]

@[simp] lemma operandsTaken_cons_const : OperandsTaken n (.const c :: os) ↔ OperandsTaken n os := by
  simp [OperandsTaken, locals]

@[simp] lemma operandsTaken_cons_string :
    OperandsTaken n (.string s :: os) ↔ OperandsTaken n os := operandsTaken_cons_const

@[simp] lemma operandsTaken_cons_int {i : Int32} :
    OperandsTaken n (.int i :: os) ↔ OperandsTaken n os := operandsTaken_cons_const

lemma operandsTaken_append (h : OperandsTaken n os)
    (h' : OperandsTaken n os') : OperandsTaken n (os ++ os') := by
  intro l hl
  rw [flatMap_append] at hl
  exact (mem_append.1 hl).elim (h l) (h' l)

lemma operandsTaken_map {α : Type} {f : α → LocalId} {xs : List α}
    (h : ∀ x ∈ xs, (f x : Nat) < n) : OperandsTaken n (xs.map fun x => .loc (f x)) := by
  intro l hl
  obtain ⟨o, ho, hlo⟩ := mem_flatMap.1 hl
  obtain ⟨x, hx, rfl⟩ := List.mem_map.1 ho
  obtain rfl := mem_singleton.1 hlo
  exact h x hx

lemma newObject_tidy (hargs : OperandsTaken n args)
    (hP : P (.new className)) : TidyValue P V W n (newObject name className args) :=
  value_tidy hargs (by simpa [Rvalue.demands])

lemma storeElements_tidy (i : Nat) (ha : a < n) (hvs : OperandsTaken n vs) :
    TidyCode P V W n (storeElements a i vs) := by
  induction vs generalizing i n with
  | nil => exact .pure fun _ _ => trivial
  | cons v vs ih =>
    have hmentions : ∀ l ∈ (Action.assign (.element a (.int (Int32.ofNat i))) (.use v)).mentions,
        (l : Nat) < n := by
      intro l hl
      simp only [mentions, Action.uses, target?, int, locals,
        Rvalue.locals, toList_none, nil_append, append_nil, mem_cons] at hl
      rcases hl with rfl | hl
      · exact ha
      · exact hvs l (mem_flatMap.2 ⟨v, (.head _), hl⟩)
    refine (emit_tidy rfl (fun _ h => by cases h) hmentions (fun _ h => by cases h)).bind
      fun _ n' hn _ => ?_
    refine ih (i + 1) (ha.trans_le hn) fun l hl => ?_
    obtain ⟨o, ho, hlo⟩ := mem_flatMap.1 hl
    exact (hvs l (mem_flatMap.2 ⟨o, .tail _ ho, hlo⟩)).trans_le hn

lemma newArray_tidy (hvs : OperandsTaken n vs) : TidyValue P V W n (newArray name type vs) :=
  (value_tidy (v := .newArray type (.int (Int32.ofNat vs.length))) nofun nofun).bind
    fun a n' hn ha => (storeElements_tidy 0 ha (hvs.mono hn)).bind fun _ n'' hn' _ => .pure fun _ hn'' => by omega

lemma readField_tidy (hl : l < n) (hP : P (.read f)) :
    TidyValue P V W n (readField name type l f) :=
  value_tidy (by simpa [Rvalue.locals]) (by simpa [Rvalue.demands])

lemma storeField_tidy (hl : l < n) (hv : OperandsTaken n [v])
    (hP : P (.store f)) : TidyCode P V W n (storeField l f v) := by
  refine emit_tidy rfl (fun _ h => by cases h) (fun k hk => ?_) (by simpa [Action.demands, Rvalue.demands])
  simp only [mentions, Action.uses, target?, Rvalue.locals, toList_none, append_nil, mem_cons] at hk
  rcases hk with rfl | hk
  · exact hl
  · exact hv k (by simpa using hk)

lemma invoke?_tidy (hi : ∀ l ∈ i.locals, (l : Nat) < n) (hP : P (.call i.method)) :
    Tidies P V W n (invoke? i) (fun _ => W) fun n r => ∀ l ∈ r, (l : Nat) < n := by
  unfold invoke?
  split
  · refine (emit_tidy (a := .invoke i) rfl (fun _ h => by cases h) (fun l hl => hi l ?_) ?_).bind
      fun _ n' _ _ => .pure fun _ _ _ h => by cases h
    · simpa [mentions, Action.uses, target?] using hl
    · simpa [Action.demands]
  · refine (value_tidy (v := .invoke i) hi (by simpa [Rvalue.demands])).bind
      fun l n' _ hl => .pure fun n'' hn' k hk => ?_
    cases hk
    exact hl.trans_le hn'

lemma invokeValue_tidy (hi : ∀ l ∈ i.locals, (l : Nat) < n)
    (hP : P (.call i.method)) : TidyValue P V W n (invokeValue i) :=
  (invoke?_tidy hi hP).bind fun r n' _ hr => by
    cases r with
    | none => exact constant_tidy
    | some l => exact .pure fun n'' hn' => (hr l rfl).trans_le hn'

lemma goto_tidy (h : target ∈ V ∨ target ∈ W) : TidyCode P V W n (goto target) :=
  emit_tidy rfl (fun _ hl => some.inj hl ▸ h) nofun nofun

lemma branch_tidy (hargs : OperandsTaken n [lhs, rhs]) (h : target ∈ V ∨ target ∈ W) :
    TidyCode P V W n (branch op lhs rhs target) := by
  refine emit_tidy rfl (fun _ hl => some.inj hl ▸ h) (fun l hl => hargs l ?_) nofun
  simpa [mentions, Action.uses, target?] using hl

lemma branchFalse_tidy (hl : l < n) (h : target ∈ V ∨ target ∈ W) :
    TidyCode P V W n (branchFalse l target) := branch_tidy (by simpa) h

lemma ret_tidy {v : Option Operand} (hv : OperandsTaken n v.toList) : TidyCode P V W n (ret v) := by
  refine emit_tidy rfl (fun _ hl => by cases hl) (fun l hl => hv l ?_) nofun
  cases v with
  | none => cases hl
  | some o => simpa [mentions, Action.uses, target?] using hl

section Liberal
variable [Liberal P] {m : MethodRef} {args : List Operand} {s : Specialization}

lemma callLocals (hbase : base < n) (hargs : OperandsTaken n args)
    {dispatch : Dispatch} : ∀ l ∈ (Invocation.mk dispatch (some base) m args).locals,
    (l : Nat) < n := by
  intro l hl
  rcases mem_append.1 hl with hl | hl
  · obtain rfl := some.inj (mem_toList.1 hl)
    exact hbase
  · exact hargs l hl

omit [Liberal P] in
lemma callPermitted_tidy (hl : l < n) (hargs : OperandsTaken n args) (hm : P (.call m)) :
    TidyCode P V W n (call l m args) := by
  intro d hd hV hn
  obtain ⟨htidy, hgrows, -⟩ := invoke?_tidy (callLocals hl hargs) hm hd hV hn
  exact ⟨htidy, hgrows, trivial⟩

lemma call_tidy (hl : l < n) (hargs : OperandsTaken n args) (hm : isReserved m.name = false) :
    TidyCode P V W n (call l m args) := callPermitted_tidy hl hargs (Liberal.call hm)

lemma callValue_tidy (hl : l < n) (hargs : OperandsTaken n args) (hm : isReserved m.name = false) :
    TidyValue P V W n (callValue l m args) :=
  invokeValue_tidy (callLocals hl hargs) (Liberal.call hm)

lemma callFunction_tidy (hl : l < n) (hargs : OperandsTaken n args) :
    TidyValue P V W n (callValue l functionApply args) :=
  invokeValue_tidy (callLocals hl hargs) (Liberal.construct (m := functionApply) (.inr rfl) (by decide))

lemma callStatic_tidy (hargs : OperandsTaken n args) (hm : isReserved m.name = false) :
    TidyValue P V W n (callStatic m args) :=
  invokeValue_tidy hargs (Liberal.call hm)

lemma callSpecial_tidy (hl : l < n) (hargs : OperandsTaken n args) (hm : m.name = "<init>")
    (hclass : isNumbered m.className = false) : TidyCode P V W n (callSpecial l m args) :=
  emit_tidy rfl (fun _ h => by cases h)
    (by simpa [mentions, Action.uses, target?] using callLocals hl hargs)
    (by simpa [Action.demands] using Liberal.construct (.inl hm) hclass)

lemma throwMessage_tidy {message : String} : TidyCode P V W n (throwMessage message) :=
  (newObject_tidy (by simp) (Liberal.new (by decide))).bind fun e n' _ he =>
    emit_tidy (a := .throw (.loc e)) rfl (fun _ h => by cases h)
      (by simpa [mentions, Action.uses, target?, locals]) nofun

section
variable (hl : l < n)

include hl

lemma lookup_tidy {family : Model.Family} {key : String} :
    TidyValue P V W n (lookup l family key type) :=
  (callValue_tidy hl (by simp) (by cases family <;> decide)).bind fun _ _ _ hf => cast_tidy hf

lemma containerOf_tidy : TidyValue P V W n (containerOf l type) :=
  (callValue_tidy hl (by simp) (by decide)).bind fun _ _ _ hf => cast_tidy hf

lemma readInput_tidy {skip : Label} (h : skip ∈ V ∨ skip ∈ W) :
    TidyValue P V W n (readInput l skip) :=
  (callValue_tidy hl (by simp) (by decide)).bind fun has n1 h1 hhas =>
    (branchFalse_tidy hhas h).bind fun _ n2 h2 _ => callValue_tidy (by omega) (by simp) (by decide)

lemma send_tidy (ha : a < n) : TidyCode P V W n (send l a) := call_tidy hl (by simpa) (by decide)

lemma climb_tidy {os : List ObjectId} : TidyValue P V W n (climb s l os) := by
  induction os generalizing l n with
  | nil => exact .pure fun _ hn => hl.trans_le hn
  | cons o os ih => exact (containerOf_tidy hl).bind fun _ _ _ hf => ih hf

lemma descend_tidy {os : List ObjectId} : TidyValue P V W n (descend s l os) := by
  induction os generalizing l n with
  | nil => exact .pure fun _ hn => hl.trans_le hn
  | cons o os ih => exact (lookup_tidy hl).bind fun _ _ _ hf => ih hf
end

lemma literalForm_isNumbered (l : Literal) : isNumbered (literalForm l).1 = false := by
  cases l <;> simp only [literalForm] <;> decide

lemma literal_tidy : TidyValue P V W n (literal x) :=
  newObject_tidy (by simp) (Liberal.new (literalForm_isNumbered x))

lemma scalar_tidy : TidyValue P V W n (boxed.scalar x) :=
  newObject_tidy (by simp) (Liberal.new (literalForm_isNumbered x))

mutual

lemma boxed_tidy (v : Value) {n : Nat} :
    Tidies P V W n (boxed v) (fun _ => W) fun n r => ∀ l, r = .ok l → (l : Nat) < n := by
  have hscalar (x : Literal) : Tidies P V W n (do return .ok (← boxed.scalar x)) (fun _ => W)
      fun n (r : Except ValueType LocalId) => ∀ l, r = .ok l → (l : Nat) < n :=
    scalar_tidy.bind fun l n' _ hl => .pure fun n'' hn k hk => by
      cases hk
      exact hl.trans_le hn
  have hnone (t : ValueType) : Tidies P V W n (pure (.error t)) (fun _ => W)
      fun n (r : Except ValueType LocalId) => ∀ l, r = .ok l → (l : Nat) < n :=
    .pure fun _ _ _ h => by cases h
  cases v with (rw [boxed])
  | boolean | ubyte | int | long | double | string => exact hscalar _
  | complex re im =>
    exact (newObject_tidy (by simp) (Liberal.new (by decide))).bind fun c n1 _ hc =>
      (newObject_tidy (by simpa) (Liberal.new (by decide))).bind fun l n2 _ hl =>
        .pure fun n3 hn k hk => by
          cases hk
          exact hl.trans_le hn
  | array element values =>
    refine (boxedList_tidy values).bind fun r n1 _ hr => ?_
    cases r with
    | error t => exact .pure fun _ _ _ h => by cases h
    | ok items =>
      exact (newArray_tidy (operandsTaken_map (f := id) (hr items rfl))).bind fun a n2 _ ha =>
        (newObject_tidy (by simpa) (Liberal.new (by decide))).bind fun l n3 _ hl =>
          .pure fun n4 hn k hk => by
            cases hk
            exact hl.trans_le hn
  | matrix | record | function => exact hnone _

lemma boxedList_tidy (vs : List Value) {n : Nat} : Tidies P V W n (boxedList vs) (fun _ => W)
      fun n r => ∀ ls, r = .ok ls → ∀ l ∈ ls, (l : Nat) < n := by
  cases vs with
  | nil =>
    rw [boxedList]
    exact .pure fun _ _ ls h => by
      cases h
      exact nofun
  | cons v vs =>
    rw [boxedList]
    refine (boxed_tidy v).bind fun r n1 _ hr => ?_
    cases r with
    | error t => exact .pure fun _ _ _ h => by cases h
    | ok l =>
      refine (boxedList_tidy vs).bind fun r n2 hn hrs => ?_
      cases r with
      | error t => exact .pure fun _ _ _ h => by cases h
      | ok ls =>
        refine .pure fun n3 hn' ks h k hk => ?_
        cases h
        rcases mem_cons.1 hk with rfl | hk
        · exact (hr k rfl).trans_le (hn.trans hn')
        · exact (hrs ls rfl k hk).trans_le hn'
end
end Liberal
end Values
end Draft
end DataflowSpecializer
