import Mathlib.Tactic.Common
import DataflowSpecializer.Proofs.Code.Fitness

/-! # Members of programs

What each change of a program does to its classes, fields and methods: the lists of members agree
with the owners of the members (`Program.Layout`), and most changes only add to what is there
(`Program.Extends`).
-/
namespace DataflowSpecializer
open List Body
def ClassDecl.heading (d : ClassDecl) : String × String × ClassKind × Bool :=
  (d.name, d.superclass, d.kind, d.removed)

def MethodDecl.heading (d : MethodDecl) :
    ClassId × String × List CodeType × CodeType × Bool × Bool :=
  (d.owner, d.name, d.params, d.result, d.isStatic, d.removed)

lemma getD_push_lt {α : Type} {xs : Array α} (h : i < xs.size) (x d : α) :
    (xs.push x).getD i d = xs.getD i d := by
  simp [Array.getD, h, Nat.lt_succ_of_lt h, Array.getElem_push_lt]

lemma getD_push_size {α : Type} (xs : Array α) (x d : α) : (xs.push x).getD xs.size d = x := by
  simp [Array.getD]

lemma getD_modify {α : Type} (xs : Array α) (i j : Nat) (f : α → α) (d : α) :
    (xs.modify i f).getD j d = if i = j ∧ j < xs.size then f (xs.getD j d) else xs.getD j d := by
  by_cases hj : j < xs.size
  · by_cases hij : i = j <;> simp [Array.getD, hj, hij, Array.getElem_modify]
  · simp [Array.getD, hj]

namespace Program
variable {p : Program} {c : ClassId} {q : Program} {name : String} {m : MethodId}

/-! ## What changes do -/
section AddClass
variable (p) (name superclass : String) (kind : ClassKind)

@[simp] lemma addClass_fst : (p.addClass name superclass kind).1 = p.classes.size := rfl

@[simp] lemma addClass_classes_size :
    (p.addClass name superclass kind).2.classes.size = p.classes.size + 1 := Array.size_push _

@[simp] lemma addClass_fields : (p.addClass name superclass kind).2.fields = p.fields := rfl
@[simp] lemma addClass_methods : (p.addClass name superclass kind).2.methods = p.methods := rfl

lemma addClass_classDecl (h : c < p.classes.size) :
    (p.addClass name superclass kind).2.classDecl c = p.classDecl c := getD_push_lt h _ _

lemma addClass_classDecl_new : (p.addClass name superclass kind).2.classDecl p.classes.size =
    ⟨name, superclass, kind, [], [], false⟩ := getD_push_size _ _ _
end AddClass

section AddField
variable (p) (c : ClassId) (name : String) (type : CodeType)

@[simp] lemma addField_fst : (p.addField c name type).1 = p.fields.size := rfl

@[simp] lemma addField_classes_size :
    (p.addField c name type).2.classes.size = p.classes.size := Array.size_modify

@[simp] lemma addField_fields_size :
    (p.addField c name type).2.fields.size = p.fields.size + 1 := Array.size_push _

@[simp] lemma addField_methods : (p.addField c name type).2.methods = p.methods := rfl

lemma addField_fieldDecl (h : f < p.fields.size) :
    (p.addField c name type).2.fieldDecl f = p.fieldDecl f := getD_push_lt h _ _

lemma addField_fieldDecl_new : (p.addField c name type).2.fieldDecl p.fields.size =
    ⟨c, name, type, false, none, false⟩ := getD_push_size _ _ _

lemma addField_classDecl (k : ClassId) : (p.addField c name type).2.classDecl k =
    if c = k ∧ k < p.classes.size then
      { p.classDecl k with fields := (p.classDecl k).fields ++ [p.fields.size] }
    else p.classDecl k := getD_modify _ _ _ _ _
end AddField

section AddMethod
variable (p) (c : ClassId) (name : String) (params : List CodeType) (result : CodeType)
  (isStatic : Bool)

@[simp] lemma addMethod_fst : (p.addMethod c name params result isStatic).1 = p.methods.size := rfl

@[simp] lemma addMethod_classes_size :
    (p.addMethod c name params result isStatic).2.classes.size = p.classes.size := Array.size_modify

@[simp] lemma addMethod_fields :
    (p.addMethod c name params result isStatic).2.fields = p.fields := rfl

@[simp] lemma addMethod_methods_size :
    (p.addMethod c name params result isStatic).2.methods.size = p.methods.size + 1 :=
  Array.size_push _

lemma addMethod_methodDecl (h : m < p.methods.size) :
    (p.addMethod c name params result isStatic).2.methodDecl m = p.methodDecl m :=
  getD_push_lt h _ _

lemma addMethod_methodDecl_new :
    (p.addMethod c name params result isStatic).2.methodDecl p.methods.size =
      ⟨c, name, params, result, isStatic, entryBody (p.className c) params isStatic, false⟩ :=
  getD_push_size _ _ _

lemma addMethod_classDecl (k : ClassId) :
    (p.addMethod c name params result isStatic).2.classDecl k =
      if c = k ∧ k < p.classes.size then
        { p.classDecl k with methods := (p.classDecl k).methods ++ [p.methods.size] }
      else p.classDecl k := getD_modify _ _ _ _ _
end AddMethod

section SetBody
variable (p) (m : MethodId) (b : Body)

@[simp] lemma setBody_classes : (p.setBody m b).classes = p.classes := rfl
@[simp] lemma setBody_fields : (p.setBody m b).fields = p.fields := rfl

@[simp] lemma setBody_methods_size : (p.setBody m b).methods.size = p.methods.size :=
  Array.size_modify

lemma setBody_methodDecl (k : MethodId) : (p.setBody m b).methodDecl k =
    if m = k ∧ k < p.methods.size then { p.methodDecl k with body := b } else p.methodDecl k :=
  getD_modify _ _ _ _ _

lemma setBody_body {m} (h : m < p.methods.size) : (p.setBody m b).body m = b := by
  rw [body, setBody_methodDecl, if_pos ⟨rfl, h⟩]

lemma setBody_body_of_ne {m k : MethodId} (h : k ≠ m) : (p.setBody m b).body k = p.body k := by
  rw [body, setBody_methodDecl, if_neg fun hk => h hk.1.symm, body]
end SetBody

structure Layout (p : Program) : Prop where
  methods : ∀ c < p.classes.size, ∀ m ∈ (p.classDecl c).methods,
    m < p.methods.size ∧ (p.methodDecl m).owner = c
  fields : ∀ c < p.classes.size, ∀ f ∈ (p.classDecl c).fields,
    f < p.fields.size ∧ (p.fieldDecl f).owner = c
  methodOwner : ∀ m < p.methods.size, (p.methodDecl m).owner < p.classes.size ∧
    m ∈ (p.classDecl (p.methodDecl m).owner).methods
  fieldOwner : ∀ f < p.fields.size, (p.fieldDecl f).owner < p.classes.size
  removed : ∀ m < p.methods.size, (p.classDecl (p.methodDecl m).owner).removed →
    (p.methodDecl m).removed

def HasMethod (p : Program) (c : ClassId) (name : String) : Prop :=
  ∃ m < p.methods.size, p.isLiveMethod m ∧ (p.methodDecl m).owner = c ∧
    (p.methodDecl m).name = name

lemma Layout.isSome_method?_iff (hp : p.Layout) (hc : c < p.classes.size)
    : (p.method? c name).isSome ↔ p.HasMethod c name := by
  rw [method?, find?_isSome]
  constructor
  · rintro ⟨m, hm, hname⟩
    obtain ⟨hmem, hlive⟩ := mem_filter.1 hm
    obtain ⟨hlt, howner⟩ := hp.methods c hc m hmem
    exact ⟨m, hlt, hlive, howner, beq_iff_eq.1 hname⟩
  · rintro ⟨m, hlt, hlive, rfl, hname⟩
    exact ⟨m, mem_filter.2 ⟨(hp.methodOwner m hlt).2, hlive⟩, beq_iff_eq.2 hname⟩

lemma layout_empty : empty.Layout :=
  ⟨fun _ h => absurd h (Nat.not_lt_zero _), fun _ h => absurd h (Nat.not_lt_zero _),
    fun _ h => absurd h (Nat.not_lt_zero _), fun _ h => absurd h (Nat.not_lt_zero _),
    fun _ h => absurd h (Nat.not_lt_zero _)⟩

namespace Layout
variable (h : p.Layout)

include h

lemma addClass (name superclass : String) (kind : ClassKind) :
    (p.addClass name superclass kind).2.Layout := by
  have hold {c : ClassId} (hc : c < p.classes.size) := addClass_classDecl p name superclass kind hc
  have hnew := addClass_classDecl_new p name superclass kind
  refine ⟨fun c hc m hm => ?_, fun c hc f hf => ?_, fun m hm => ?_, fun f hf => ?_, fun m hm hr => ?_⟩
  · rw [addClass_classes_size] at hc
    rcases Nat.lt_succ_iff_lt_or_eq.1 hc with hc | rfl
    · rw [hold hc] at hm
      exact h.methods c hc m hm
    · rw [hnew] at hm
      cases hm
  · rw [addClass_classes_size] at hc
    rcases Nat.lt_succ_iff_lt_or_eq.1 hc with hc | rfl
    · rw [hold hc] at hf
      exact h.fields c hc f hf
    · rw [hnew] at hf
      cases hf
  · obtain ⟨howner, hmem⟩ := h.methodOwner m hm
    refine ⟨?_, ?_⟩
    · rw [addClass_classes_size]
      exact Nat.lt_succ_of_lt howner
    · exact (hold howner).symm ▸ hmem
  · rw [addClass_classes_size]
    exact Nat.lt_succ_of_lt (h.fieldOwner f hf)
  · have howner := (h.methodOwner m hm).1
    exact h.removed m hm ((hold howner) ▸ hr)

lemma addField (hc : c < p.classes.size) (name : String)
    (type : CodeType) : (p.addField c name type).2.Layout := by
  have hdecl := addField_classDecl p c name type
  have hold {f : FieldId} (hf : f < p.fields.size) := addField_fieldDecl p c name type hf
  have hmethods (k : ClassId) :
      ((p.addField c name type).2.classDecl k).methods = (p.classDecl k).methods := by
    rw [hdecl]
    split <;> rfl
  have hremoved (k : ClassId) :
      ((p.addField c name type).2.classDecl k).removed = (p.classDecl k).removed := by
    rw [hdecl]
    split <;> rfl
  refine ⟨fun k hk m hm => ?_, fun k hk f hf => ?_, fun m hm => ?_, fun f hf => ?_, fun m hm hr => ?_⟩
  · rw [addField_classes_size] at hk
    rw [hmethods] at hm
    exact h.methods k hk m hm
  · rw [addField_classes_size] at hk
    have hmem : f ∈ (p.classDecl k).fields ∨ c = k ∧ f = p.fields.size := by
      rw [hdecl] at hf
      split at hf
      · rename_i hck
        rcases mem_append.1 hf with hf | hf
        · exact .inl hf
        · exact .inr ⟨hck.1, mem_singleton.1 hf⟩
      · exact .inl hf
    rw [addField_fields_size]
    rcases hmem with hf | ⟨rfl, rfl⟩
    · obtain ⟨hlt, howner⟩ := h.fields k hk f hf
      rw [hold hlt]
      exact ⟨Nat.lt_succ_of_lt hlt, howner⟩
    · rw [addField_fieldDecl_new]
      exact ⟨Nat.lt_succ_self _, rfl⟩
  · rw [addField_classes_size]
    rw [hmethods]
    exact h.methodOwner m hm
  · rw [addField_classes_size]
    rw [addField_fields_size] at hf
    rcases Nat.lt_succ_iff_lt_or_eq.1 hf with hf | rfl
    · rw [hold hf]
      exact h.fieldOwner f hf
    · rw [addField_fieldDecl_new]
      exact hc
  · rw [hremoved] at hr
    exact h.removed m hm hr

lemma addMethod (hc : c < p.classes.size)
    (hlive : (p.classDecl c).removed = false) (name : String) (params : List CodeType)
    (result : CodeType) (isStatic : Bool) :
    (p.addMethod c name params result isStatic).2.Layout := by
  have hdecl := addMethod_classDecl p c name params result isStatic
  have hold {m : MethodId} (hm : m < p.methods.size) :=
    addMethod_methodDecl p c name params result isStatic hm
  have hnew := addMethod_methodDecl_new p c name params result isStatic
  have hfields (k : ClassId) : ((p.addMethod c name params result isStatic).2.classDecl k).fields =
      (p.classDecl k).fields := by
    rw [hdecl]
    split <;> rfl
  have hremoved (k : ClassId) :
      ((p.addMethod c name params result isStatic).2.classDecl k).removed =
        (p.classDecl k).removed := by
    rw [hdecl]
    split <;> rfl
  have hmem {k : ClassId} {m : MethodId} :
      m ∈ ((p.addMethod c name params result isStatic).2.classDecl k).methods ↔
        m ∈ (p.classDecl k).methods ∨ c = k ∧ k < p.classes.size ∧ m = p.methods.size := by
    rw [hdecl]
    by_cases hck : c = k ∧ k < p.classes.size
    · rw [if_pos hck]
      simp [hck]
    · rw [if_neg hck]
      exact ⟨.inl, fun h => h.elim (fun h => h) fun h => absurd ⟨h.1, h.2.1⟩ hck⟩
  refine ⟨fun k hk m hm => ?_, fun k hk f hf => ?_, fun m hm => ?_, fun f hf => ?_, fun m hm hr => ?_⟩
  · rw [addMethod_classes_size] at hk
    rw [addMethod_methods_size]
    rcases hmem.1 hm with hm | ⟨rfl, -, rfl⟩
    · obtain ⟨hlt, howner⟩ := h.methods k hk m hm
      rw [hold hlt]
      exact ⟨Nat.lt_succ_of_lt hlt, howner⟩
    · rw [hnew]
      exact ⟨Nat.lt_succ_self _, rfl⟩
  · rw [addMethod_classes_size] at hk
    rw [hfields] at hf
    exact h.fields k hk f hf
  · rw [addMethod_classes_size, hmem]
    rw [addMethod_methods_size] at hm
    rcases Nat.lt_succ_iff_lt_or_eq.1 hm with hm | rfl
    · rw [hold hm]
      exact (h.methodOwner m hm).imp_right .inl
    · rw [hnew]
      exact ⟨hc, .inr ⟨rfl, hc, rfl⟩⟩
  · rw [addMethod_classes_size]
    exact h.fieldOwner f hf
  · rw [addMethod_methods_size] at hm
    rw [hremoved] at hr
    rcases Nat.lt_succ_iff_lt_or_eq.1 hm with hm | rfl
    · rw [hold hm] at hr ⊢
      exact h.removed m hm hr
    · rw [hnew] at hr
      rw [hlive] at hr
      cases hr

lemma congr {q : Program} (hclasses : q.classes = p.classes)
    (hfields : q.fields.size = p.fields.size) (hmethods : q.methods.size = p.methods.size)
    (hfield : ∀ f, (q.fieldDecl f).owner = (p.fieldDecl f).owner)
    (hmethod : ∀ m, (q.methodDecl m).owner = (p.methodDecl m).owner ∧
      (q.methodDecl m).removed = (p.methodDecl m).removed) : q.Layout := by
  have hdecl (c : ClassId) : q.classDecl c = p.classDecl c := by rw [classDecl, hclasses, classDecl]
  refine ⟨fun c hc m hm => ?_, fun c hc f hf => ?_, fun m hm => ?_, fun f hf => ?_, fun m hm hr => ?_⟩
  · rw [hclasses] at hc
    rw [hdecl] at hm
    rw [hmethods, (hmethod m).1]
    exact h.methods c hc m hm
  · rw [hclasses] at hc
    rw [hdecl] at hf
    rw [hfields, hfield]
    exact h.fields c hc f hf
  · rw [hmethods] at hm
    rw [(hmethod m).1, hclasses, hdecl]
    exact h.methodOwner m hm
  · rw [hfields] at hf
    rw [hfield, hclasses]
    exact h.fieldOwner f hf
  · rw [hmethods] at hm
    rw [(hmethod m).1, hdecl] at hr
    rw [(hmethod m).2]
    exact h.removed m hm hr

lemma setBody (m : MethodId) (b : Body) : (p.setBody m b).Layout := by
  refine h.congr rfl rfl (setBody_methods_size p m b) (fun _ => rfl) fun k => ?_
  rw [setBody_methodDecl]
  split <;> exact ⟨rfl, rfl⟩
end Layout

lemma Layout.method? (h : p.Layout) (hc : c < p.classes.size) (hm : p.method? c name = some m) :
    m < p.methods.size ∧ p.isLiveMethod m ∧ (p.methodDecl m).owner = c ∧
      (p.methodDecl m).name = name := by
  obtain ⟨hmem, hlive⟩ := mem_filter.1 (mem_of_find?_eq_some hm)
  obtain ⟨hlt, howner⟩ := h.methods c hc m hmem
  exact ⟨hlt, hlive, howner, beq_iff_eq.1 (find?_some (p := fun m => (p.methodDecl m).name == name) hm)⟩

lemma mem_allLiveMethods_iff : m ∈ p.allLiveMethods ↔ ∃ c < p.classes.size,
    p.isLiveClass c ∧ m ∈ (p.classDecl c).methods ∧ p.isLiveMethod m := by
  simp only [allLiveMethods, liveClasses, liveMethods, mem_flatMap, mem_filter, mem_range, and_assoc]

lemma lt_of_mem_methods (h : m ∈ (p.classDecl c).methods) : c < p.classes.size := by
  by_contra hc
  rw [classDecl, Array.getD, dif_neg hc] at h
  cases h

lemma mem_allLiveMethods_of_resolve? {ref : MethodRef} (h : p.resolve? ref = some m) :
    m ∈ p.allLiveMethods ∧ (p.methodDecl m).name = ref.name := by
  obtain ⟨c, hc, hk⟩ := Option.bind_eq_some_iff.1 h
  obtain ⟨hmem, hlive⟩ := mem_filter.1 (mem_of_find?_eq_some hk)
  have hname := find?_some hk
  rw [Bool.and_eq_true, beq_iff_eq] at hname
  exact ⟨mem_allLiveMethods_iff.2 ⟨c, lt_of_mem_methods hmem, (Option.filter_eq_some_iff.1 hc).2, hmem, hlive⟩,
    hname.1⟩

/-! ## Programs that grow -/
structure Extends (p q : Program) : Prop where
  classes : p.classes.size ≤ q.classes.size
  fields : p.fields.size ≤ q.fields.size
  methods : p.methods.size ≤ q.methods.size
  oldClass : ∀ c < p.classes.size, (q.classDecl c).heading = (p.classDecl c).heading
  newClass : ∀ c < q.classes.size, p.classes.size ≤ c →
    (q.classDecl c).removed = false ∧ (q.classDecl c).kind = .closure
  oldField : ∀ f < p.fields.size, q.fieldDecl f = p.fieldDecl f
  oldMethod : ∀ m < p.methods.size, (q.methodDecl m).heading = (p.methodDecl m).heading
  newMethod : ∀ m < q.methods.size, p.methods.size ≤ m → (q.methodDecl m).removed = false

namespace Extends
variable {q r : Program}

lemma refl (p : Program) : p.Extends p :=
  ⟨.refl, .refl, .refl, fun _ _ => rfl,
    fun _ h h' => absurd h h'.not_gt, fun _ _ => rfl, fun _ _ => rfl,
    fun _ h h' => absurd h h'.not_gt⟩

lemma trans (h : p.Extends q) (h' : q.Extends r) : p.Extends r where
  classes := h.classes.trans h'.classes
  fields := h.fields.trans h'.fields
  methods := h.methods.trans h'.methods
  oldClass c hc := (h'.oldClass c (hc.trans_le h.classes)).trans (h.oldClass c hc)
  newClass c hc hge := by
    by_cases hlt : c < q.classes.size
    · rw [← (h.newClass c hlt hge).1, ← (h.newClass c hlt hge).2]
      exact ⟨congrArg (·.2.2.2) (h'.oldClass c hlt), congrArg (·.2.2.1) (h'.oldClass c hlt)⟩
    · exact h'.newClass c hc (Nat.not_lt.1 hlt)
  oldField f hf := (h'.oldField f (hf.trans_le h.fields)).trans (h.oldField f hf)
  oldMethod m hm := (h'.oldMethod m (hm.trans_le h.methods)).trans (h.oldMethod m hm)
  newMethod m hm hge := by
    by_cases hlt : m < q.methods.size
    · rw [← h.newMethod m hlt hge]
      exact congrArg (·.2.2.2.2.2) (h'.oldMethod m hlt)
    · exact h'.newMethod m hm (Nat.not_lt.1 hlt)

variable (h : p.Extends q) {m : MethodId}

include h

lemma className (hc : c < p.classes.size) : q.className c = p.className c :=
  congrArg (·.1) (h.oldClass c hc)

lemma superclass (hc : c < p.classes.size) :
    (q.classDecl c).superclass = (p.classDecl c).superclass := congrArg (·.2.1) (h.oldClass c hc)

lemma kind (hc : c < p.classes.size) : (q.classDecl c).kind = (p.classDecl c).kind :=
  congrArg (·.2.2.1) (h.oldClass c hc)

lemma removed (hc : c < p.classes.size) :
    (q.classDecl c).removed = (p.classDecl c).removed := congrArg (·.2.2.2) (h.oldClass c hc)

section
variable (hm : m < p.methods.size)

include hm

lemma methodOwner :
    (q.methodDecl m).owner = (p.methodDecl m).owner := congrArg (·.1) (h.oldMethod m hm)

lemma methodName :
    (q.methodDecl m).name = (p.methodDecl m).name := congrArg (·.2.1) (h.oldMethod m hm)

lemma methodRemoved : (q.methodDecl m).removed = (p.methodDecl m).removed :=
  congrArg (·.2.2.2.2.2) (h.oldMethod m hm)

lemma isLiveMethod : q.isLiveMethod m = p.isLiveMethod m := by
  rw [Program.isLiveMethod, h.methodRemoved hm, Program.isLiveMethod]
end

lemma liveMethod (hm : m < p.methods.size ∧ p.isLiveMethod m) :
    m < q.methods.size ∧ q.isLiveMethod m :=
  ⟨hm.1.trans_le h.methods, (h.isLiveMethod hm.1).trans hm.2⟩

lemma isLiveField (hf : f < p.fields.size) : q.isLiveField f = p.isLiveField f := by
  rw [Program.isLiveField, h.oldField f hf, Program.isLiveField]

lemma hasMethod : p.HasMethod c name → q.HasMethod c name := by
  rintro ⟨m, hm, hlive, howner, hname⟩
  refine ⟨m, hm.trans_le h.methods, ?_, ?_, ?_⟩
  · rwa [h.isLiveMethod hm]
  · rwa [h.methodOwner hm]
  · rwa [h.methodName hm]
end Extends

def Continues (p q : Program) : Prop :=
  ∀ m < p.methods.size, (p.body m).nextStmt ≤ (q.body m).nextStmt

lemma Continues.refl (p : Program) : p.Continues p := fun _ _ => .refl

lemma Continues.trans {q : Program} (h : p.Continues q) (hle : p.methods.size ≤ q.methods.size)
    (h' : q.Continues r) : p.Continues r :=
  fun m hm => (h m hm).trans (h' m (hm.trans_le hle))

lemma addClass_extends (p : Program) (name superclass : String) :
    p.Extends (p.addClass name superclass .closure).2 where
  classes := by
    rw [addClass_classes_size]
    exact Nat.le_succ _
  fields := .refl
  methods := .refl
  oldClass c hc := by rw [addClass_classDecl p name superclass .closure hc]
  newClass c hc hge := by
    rw [addClass_classes_size] at hc
    obtain rfl := Nat.le_antisymm (Nat.lt_succ_iff.1 hc) hge
    rw [addClass_classDecl_new]
    exact ⟨rfl, rfl⟩
  oldField _ _ := rfl
  oldMethod _ _ := rfl
  newMethod _ hm hge := absurd hm hge.not_gt

lemma addMethod_extends (p : Program) (c : ClassId) (name : String) (params : List CodeType)
    (result : CodeType) (isStatic : Bool) :
    p.Extends (p.addMethod c name params result isStatic).2 where
  classes := (addMethod_classes_size p c name params result isStatic).ge
  fields := .refl
  methods := by
    rw [addMethod_methods_size]
    exact Nat.le_succ _
  oldClass k _ := by
    rw [addMethod_classDecl]
    split <;> rfl
  newClass k hk hge := by
    rw [addMethod_classes_size] at hk
    exact absurd hk hge.not_gt
  oldField _ _ := rfl
  oldMethod m hm := by rw [addMethod_methodDecl p c name params result isStatic hm]
  newMethod m hm hge := by
    rw [addMethod_methods_size] at hm
    obtain rfl := Nat.le_antisymm (Nat.lt_succ_iff.1 hm) hge
    rw [addMethod_methodDecl_new]

lemma setBody_extends (p : Program) (m : MethodId) (b : Body) : p.Extends (p.setBody m b) where
  classes := .refl
  fields := .refl
  methods := (setBody_methods_size p m b).ge
  oldClass _ _ := rfl
  newClass _ hk hge := absurd hk hge.not_gt
  oldField _ _ := rfl
  oldMethod k _ := by
    rw [setBody_methodDecl]
    split <;> rfl
  newMethod k hk hge := by
    rw [setBody_methods_size] at hk
    exact absurd hk hge.not_gt

structure NewField (p q : Program) (c : ClassId) : Prop extends p.Extends q where
  layout : q.Layout
  size : q.fields.size = p.fields.size + 1
  owner : (q.fieldDecl p.fields.size).owner = c
  live : (q.fieldDecl p.fields.size).removed = false
  sameMethods : q.methods = p.methods
  sameClasses : q.classes.size = p.classes.size
  sameMembers : ∀ k, (q.classDecl k).methods = (p.classDecl k).methods
  sameIndex : q.index = p.index

lemma addField_newField (hp : p.Layout) (hc : c < p.classes.size) (name : String)
    (type : CodeType) : NewField p (p.addField c name type).2 c where
  classes := (addField_classes_size p c name type).ge
  fields := by
    rw [addField_fields_size]
    exact Nat.le_succ _
  methods := .refl
  oldClass k _ := by
    rw [addField_classDecl]
    split <;> rfl
  newClass k hk hge := by
    rw [addField_classes_size] at hk
    exact absurd hk hge.not_gt
  oldField f hf := addField_fieldDecl p c name type hf
  oldMethod _ _ := rfl
  newMethod _ hm hge := absurd hm hge.not_gt
  layout := hp.addField hc name type
  size := addField_fields_size p c name type
  owner := by rw [addField_fieldDecl_new]
  live := by rw [addField_fieldDecl_new]
  sameMethods := rfl
  sameClasses := addField_classes_size p c name type
  sameMembers k := by
    rw [addField_classDecl]
    split <;> rfl
  sameIndex := rfl

lemma NewField.body (h : NewField p q c) (m : MethodId) : q.body m = p.body m := by
  rw [Program.body, Program.methodDecl, h.sameMethods, Program.body, Program.methodDecl]

lemma NewField.continues (h : NewField p q c) : p.Continues q :=
  fun m _ => Nat.le_of_eq (by rw [h.body])

lemma NewField.modifyField (h : NewField p q c) (howner : ∀ d, (g d).owner = d.owner)
    (hremoved : ∀ d, (g d).removed = d.removed) :
    NewField p (q.modifyField p.fields.size g) c := by
  have hdecl (f : FieldId) : (q.modifyField p.fields.size g).fieldDecl f =
      if p.fields.size = f ∧ f < q.fields.size then g (q.fieldDecl f) else q.fieldDecl f :=
    getD_modify _ _ _ _ _
  have hsize : (q.modifyField p.fields.size g).fields.size = q.fields.size := Array.size_modify
  exact { h with
    fields := hsize.symm ▸ h.fields
    oldField := fun f hf => by
      rw [hdecl, if_neg fun hlt => Nat.ne_of_gt hf hlt.1]
      exact h.oldField f hf
    layout := by
      refine h.layout.congr rfl hsize rfl (fun f => ?_) fun _ => ⟨rfl, rfl⟩
      rw [hdecl]
      split
      · exact howner _
      · rfl
    size := hsize.trans h.size
    owner := by
      rw [hdecl, if_pos ⟨rfl, h.size.symm ▸ Nat.lt_succ_self _⟩, howner]
      exact h.owner
    live := by
      rw [hdecl, if_pos ⟨rfl, h.size.symm ▸ Nat.lt_succ_self _⟩, hremoved]
      exact h.live }

lemma fits_entryBody (className : String) (params : List CodeType)
    (isStatic : Bool) : (entryBody className params isStatic).Fits P := by
  have hbind (params : List (CodeType × Nat)) (b : Body) (hb : b.stmts = [])
      (hentry : ∀ l ∈ b.entry, l < b.locals.size) :
      let b' := params.foldl (fun b x =>
        { (b.newLocal ("p" ++ toString x.2) x.1).2 with
          params := b.params ++ [(b.newLocal ("p" ++ toString x.2) x.1).1] }) b
      b'.stmts = [] ∧ ∀ l ∈ b'.entry, l < b'.locals.size := by
    induction params generalizing b with
    | nil => exact ⟨hb, hentry⟩
    | cons param params ih =>
      refine ih _ hb fun l hl => ?_
      show l < (b.newLocal _ _).2.locals.size
      rw [size_newLocal]
      simp only [Body.entry, newLocal, ← append_assoc] at hl
      rcases mem_append.1 hl with hl | hl
      · exact Nat.lt_succ_of_lt (hentry l hl)
      · obtain rfl := mem_singleton.1 hl
        exact Nat.lt_succ_self _
  have hstart : let b : Body := if isStatic then .empty else
        { (Body.empty.newLocal "this" (.object className)).2 with
          receiver := some (Body.empty.newLocal "this" (.object className)).1 }
      b.stmts = [] ∧ ∀ l ∈ b.entry, l < b.locals.size := by
    cases isStatic <;> simp [Body.empty, newLocal, Body.entry]
  obtain ⟨hstmts, hentry⟩ := hbind params.zipIdx _ hstart.1 hstart.2
  exact fits_of_stmts_nil hstmts hentry
end Program
end DataflowSpecializer
