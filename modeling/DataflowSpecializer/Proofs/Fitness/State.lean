import DataflowSpecializer.Generate.Classes
import DataflowSpecializer.Proofs.Data
import DataflowSpecializer.Proofs.Fitness.Drafting
import DataflowSpecializer.Proofs.Fitness.Program
import DataflowSpecializer.Reduce.Unused

/-! # States that fit

What holds of every state that a specialization passes through once it has its classes
(`Specialization.Fit`): members and records are in place, and every live method has a body that fits
what the program permits (`Specialization.Permits`). Names of closure classes end with a number of
their own (`IsClosureName`). All other names come from the model, and may come to be the same when
they are sanitized.
-/
namespace DataflowSpecializer
open List
def IsClosureName (n : Nat) (name : String) : Prop :=
  ∃ base, name = base ++ "_CGfunction_" ++ toString n

lemma toString_inj {n k : Nat} (h : (toString n).toList = (toString k).toList) : n = k := by
  rw [toList_toString, toList_toString] at h
  rw [← Nat.ofDigitChars_ten_toDigits (n := n), h, Nat.ofDigitChars_ten_toDigits]

namespace IsClosureName
variable {n k : Nat} {name : String}

lemma takeWhile_reverse (h : IsClosureName n name) :
    name.toList.reverse.takeWhile Char.isDigit = (toString n).toList.reverse := by
  obtain ⟨base, rfl⟩ := h
  have hdigits : ∀ c ∈ (toString n).toList.reverse, c.isDigit := fun c hc =>
    isDigit_of_mem_toString (mem_reverse.1 hc)
  rw [String.toList_append, String.toList_append, reverse_append, reverse_append,
    takeWhile_append_of_pos hdigits]
  have hend : "_CGfunction_".toList.reverse = '_' :: "_CGfunction".toList.reverse := by decide
  rw [hend, cons_append, takeWhile_cons_of_neg (by decide), append_nil]

lemma unique (hn : IsClosureName n name) (hk : IsClosureName k name) : n = k := by
  have h := hn.takeWhile_reverse.symm.trans hk.takeWhile_reverse
  exact toString_inj (reverse_injective h)

lemma isNumbered (h : IsClosureName n name) : isNumbered name := by
  have hne : (toString n).toList ≠ [] := by
    rw [toList_toString]
    exact Nat.toDigits_ne_nil
  obtain ⟨base, rfl⟩ := h
  rw [DataflowSpecializer.isNumbered, String.toList_append, getLast?_append_of_ne_nil _ hne,
    getLast?_eq_some_getLast hne]
  exact isDigit_of_mem_toString (getLast_mem hne)
end IsClosureName

def commonMethods : List String :=
  ["<init>", "attributeChanged", "latest", "execute"] ++ Platform.lifecycle.map (·.1)

namespace Specialization
variable (s : Specialization)

/-- Names of model objects that stay different in the program: no two classes, no class and a
closure made so far, and no two changing variables of one object get the same name. -/
structure DistinctNames : Prop where
  classes : ∀ o ∈ Classes.owners s.model, ∀ o' ∈ Classes.owners s.model,
    s.className o = s.className o' → o = o'
  closures : ∀ o ∈ Classes.owners s.model, ∀ n ≤ s.closures, ¬ IsClosureName n (s.className o)
  values : ∀ v ∈ s.model.variableIds, ∀ v' ∈ s.model.variableIds,
    s.constancy.isConstant v = false → s.constancy.isConstant v' = false →
    s.model.container v = s.model.container v' →
      sanitize (s.model.name v) = sanitize (s.model.name v') → v = v'

structure Named : Prop where
  classes : ∀ c < s.program.classes.size, ∀ c' < s.program.classes.size,
    s.program.className c = s.program.className c' → c = c'
  index : ∀ c < s.program.classes.size, s.program.index.get? (s.program.className c) = some c
  methods : ∀ c < s.program.classes.size,
    ((s.program.classDecl c).methods.map fun m => (s.program.methodDecl m).name).Nodup

def IsComputeName (c : ClassId) (name : String) : Prop :=
  ∃ v ∈ s.model.variableIds, s.constancy.isConstant v = false ∧
    ∃ o, s.model.container v = some o ∧ s.classOf.get? o = some c ∧
    (s.valueFields.get? v).isSome ∧ name = "_CGcompute_" ++ sanitize (s.model.name v)

def IsMethodName (c : ClassId) (name : String) : Prop :=
  if (s.program.classDecl c).kind = .closure then name = "<init>" ∨ name = "apply"
  else name ∈ commonMethods ∨ s.IsComputeName c name

variable {s}

lemma isMethodName_closure (h : (s.program.classDecl c).kind = .closure) :
    s.IsMethodName c name ↔ name = "<init>" ∨ name = "apply" := by rw [IsMethodName, if_pos h]

lemma isMethodName_object (h : (s.program.classDecl c).kind ≠ .closure) :
    s.IsMethodName c name ↔ name ∈ commonMethods ∨ s.IsComputeName c name := by
  rw [IsMethodName, if_neg h]

variable (s) in

def IsClassName (c : ClassId) (name : String) : Prop :=
  if (s.program.classDecl c).kind = .closure then ∃ n ≤ s.closures, IsClosureName n name
  else ∃ o ∈ Classes.owners s.model, s.classOf.get? o = some c ∧ name = s.className o

open Option
section Permits
variable (s : Specialization)

def ownerKind (f : FieldId) : ClassKind := (s.program.classDecl (s.program.fieldDecl f).owner).kind

/-- A field that code of a class may mention: fields of closures are their own. -/
structure Mentionable (c : ClassId) (f : FieldId) : Prop where
  lt : f < s.program.fields.size
  visible : (s.program.fieldDecl f).owner = c ∨ s.ownerKind f ≠ .closure

def IsText (f : FieldId) : Prop := ∃ a, s.expressionFields.get? a = some f

def IsChanging (f : FieldId) : Prop :=
  ∃ v, s.valueFields.get? v = some f ∧ s.constancy.isConstant v = false

/-- What the code of a class may demand. -/
def Permits (settled : Bool) (c : ClassId) : Demand → Prop
  | .read f => s.Mentionable c f ∧ (s.program.isLiveField f ∨ settled = false ∧ s.IsText f)
  | .store f => s.Mentionable c f ∧ (s.program.fieldDecl f).isFinal = false ∧
      (s.program.isLiveField f ∨ s.IsChanging f)
  | .call m => m.name ≠ "execute" ∧ (settled → m.name ≠ "getExpression") ∧
      (m.name = "<init>" ∨ m.name = "apply" → isNumbered m.className = false)
  | .new className => isNumbered className = false ∨
      ∀ k < s.program.classes.size, (s.program.classDecl k).removed →
        s.program.className k ≠ className

instance (settled : Bool) (c : ClassId) : Liberal (s.Permits settled c) where
  call h := by
    simp only [isReserved, contains_eq_mem, mem_cons, not_mem_nil, or_false,
      Bool.or_eq_false_iff, decide_eq_false_iff_not, not_or] at h
    obtain ⟨⟨hexecute, htext, hinit, happly⟩, -⟩ := h
    exact ⟨hexecute, fun _ => htext, fun h => h.elim (absurd · hinit) (absurd · happly)⟩
  construct hname hclass := by
    refine ⟨?_, fun _ => ?_, fun _ => hclass⟩
    all_goals rcases hname with hname | hname <;> rw [hname] <;> decide
  new := .inl

def IsReference (key : ObjectId × ObjectId) (f : FieldId) : Prop :=
  s.classOf.get? key.1 = some (s.program.fieldDecl f).owner ∧ s.facts.object? f = some key.2
end Permits

/-! ## States that grow -/
structure Extends (s s' : Specialization) : Prop where
  model : s'.model = s.model
  options : s'.options = s.options
  constancy : s'.constancy = s.constancy
  classOf : s'.classOf = s.classOf
  objectOf : s'.objectOf = s.objectOf
  closures : s.closures ≤ s'.closures
  program : s.program.Extends s'.program
  valueFields : ∀ v f, s.valueFields.get? v = some f → s'.valueFields.get? v = some f
  expressionFields : ∀ a f, s.expressionFields.get? a = some f → s'.expressionFields.get? a = some f
  objects : ∀ f o, s.facts.object? f = some o → s'.facts.object? f = some o

variable {s s' s'' : Specialization} {settled : Bool} {c : ClassId}

namespace Extends
lemma refl (s : Specialization) : s.Extends s :=
  ⟨rfl, rfl, rfl, rfl, rfl, .refl, .refl _, fun _ _ h => h, fun _ _ h => h, fun _ _ h => h⟩

lemma trans (h : s.Extends s') (h' : s'.Extends s'') : s.Extends s'' where
  model := h'.model.trans h.model
  options := h'.options.trans h.options
  constancy := h'.constancy.trans h.constancy
  classOf := h'.classOf.trans h.classOf
  objectOf := h'.objectOf.trans h.objectOf
  closures := h.closures.trans h'.closures
  program := h.program.trans h'.program
  valueFields v f hv := h'.valueFields v f (h.valueFields v f hv)
  expressionFields a f ha := h'.expressionFields a f (h.expressionFields a f ha)
  objects f o hf := h'.objects f o (h.objects f o hf)

variable {f : FieldId}

section
variable (h : s.Extends s')

include h

lemma ownerKind (hs : s.program.Layout)
    (hf : f < s.program.fields.size) : s'.ownerKind f = s.ownerKind f := by
  rw [Specialization.ownerKind, h.program.oldField f hf, h.program.kind (hs.fieldOwner f hf),
    Specialization.ownerKind]

lemma mentionable (hs : s.program.Layout) (hf : s.Mentionable c f) : s'.Mentionable c f where
  lt := hf.lt.trans_le h.program.fields
  visible := by
    rw [h.program.oldField f hf.lt, h.ownerKind hs hf.lt]
    exact hf.visible

lemma permits (hs : s.program.Layout) (hx : s.Permits settled c x) : s'.Permits settled c x := by
  cases x with
  | read f =>
    obtain ⟨hf, hlive⟩ := hx
    refine ⟨h.mentionable hs hf, hlive.imp (fun hlive => ?_) ?_⟩
    · rwa [h.program.isLiveField hf.lt]
    · rintro ⟨hsettled, a, ha⟩
      exact ⟨hsettled, a, h.expressionFields a f ha⟩
  | store f =>
    obtain ⟨hf, hfinal, hlive⟩ := hx
    refine ⟨h.mentionable hs hf, ?_, hlive.imp (fun hlive => ?_) ?_⟩
    · rwa [h.program.oldField f hf.lt]
    · rwa [h.program.isLiveField hf.lt]
    · rintro ⟨v, hv, hchanging⟩
      exact ⟨v, h.valueFields v f hv, by rwa [h.constancy]⟩
  | call m => exact hx
  | new className =>
    refine hx.imp_right fun hx k hk hremoved => ?_
    by_cases hlt : k < s.program.classes.size
    · rw [h.program.removed hlt] at hremoved
      rw [h.program.className hlt]
      exact hx k hlt hremoved
    · rw [(h.program.newClass k hk (Nat.not_lt.1 hlt)).1] at hremoved
      cases hremoved

lemma objectClassName (o : ObjectId) : s'.className o = s.className o := by
  rw [Specialization.className, h.model, h.options, Specialization.className]

lemma distinctNames (hs : s'.DistinctNames) : s.DistinctNames where
  classes o ho o' ho' heq := by
    rw [← h.objectClassName, ← h.objectClassName o'] at heq
    exact hs.classes o (h.model ▸ ho) o' (h.model ▸ ho') heq
  closures o ho n hn := by
    rw [← h.objectClassName]
    exact hs.closures o (h.model ▸ ho) n (hn.trans h.closures)
  values := by
    rw [← h.model, ← h.constancy]
    exact hs.values
end

variable {name : String}

variable (h : s.Extends s')

include h

lemma isComputeName (hname : s.IsComputeName c name) : s'.IsComputeName c name := by
  obtain ⟨v, hv, hchanging, o, ho, hc, hfield, rfl⟩ := hname
  obtain ⟨f, hf⟩ := isSome_iff_exists.1 hfield
  refine ⟨v, h.model ▸ hv, h.constancy ▸ hchanging, o, h.model ▸ ho, h.classOf ▸ hc, ?_,
    by rw [h.model]⟩
  exact isSome_iff_exists.2 ⟨f, h.valueFields v f hf⟩

lemma isMethodName (hc : c < s.program.classes.size)
    (hname : s.IsMethodName c name) : s'.IsMethodName c name := by
  unfold IsMethodName at hname ⊢
  rw [h.program.kind hc]
  split
  · rwa [if_pos ‹_›] at hname
  · rw [if_neg ‹_›] at hname
    exact hname.imp_right h.isComputeName

lemma isClassName (hc : c < s.program.classes.size)
    (hname : s.IsClassName c name) : s'.IsClassName c name := by
  unfold IsClassName at hname ⊢
  rw [h.program.kind hc]
  split
  · rw [if_pos ‹_›] at hname
    obtain ⟨n, hn, hname⟩ := hname
    exact ⟨n, hn.trans h.closures, hname⟩
  · rw [if_neg ‹_›] at hname
    obtain ⟨o, ho, hclass, rfl⟩ := hname
    exact ⟨o, h.model ▸ ho, h.classOf ▸ hclass, (h.objectClassName o).symm⟩

lemma isReference
    (hf : f < s.program.fields.size) (hkey : s.IsReference key f) : s'.IsReference key f := by
  rw [IsReference, h.classOf, h.program.oldField f hf]
  exact ⟨hkey.1, h.objects f _ hkey.2⟩

lemma isBijection : Classes.isBijection s' = Classes.isBijection s := by
  unfold Classes.isBijection Specialization.classOf? Specialization.objectOf?
  rw [h.model, h.classOf, h.objectOf]
end Extends

/-- Members, records and bodies are in order. -/
structure Fit (settled : Bool) (s : Specialization) : Prop where
  layout : s.program.Layout
  bodies : ∀ m < s.program.methods.size, s.program.isLiveMethod m →
    (s.program.body m).Fits (s.Permits settled (s.program.methodDecl m).owner)
  classNames : ∀ c < s.program.classes.size, s.IsClassName c (s.program.className c)
  methodNames : ∀ m < s.program.methods.size,
    s.IsMethodName (s.program.methodDecl m).owner (s.program.methodDecl m).name
  removedClasses : ∀ c < s.program.classes.size, (s.program.classDecl c).removed →
    (s.program.classDecl c).kind = .closure
  removedMethods : ∀ m < s.program.methods.size, (s.program.methodDecl m).removed →
    (s.program.classDecl (s.program.methodDecl m).owner).removed ∨
      Unused.isEntryPoint (s.program.methodDecl m).name = false
  bijection : Classes.isBijection s
  registry : ∀ o c, s.classOf.get? o = some c → c < s.program.classes.size ∧
    (s.program.classDecl c).kind ≠ .closure ∧ s.objectOf.get? c = some o
  valueFields : ∀ v f, s.valueFields.get? v = some f → f < s.program.fields.size ∧
    s.ownerKind f ≠ .closure ∧
      (s.constancy.isConstant v = false → (s.program.fieldDecl f).isFinal = false)
  expressionFields : ∀ a f, s.expressionFields.get? a = some f → f < s.program.fields.size ∧
    s.ownerKind f ≠ .closure
  refFields : ∀ key f, s.refFields.get? key = some f → f < s.program.fields.size ∧
    s.IsReference key f
  computeMethods : ∀ v m, s.computeMethods.get? v = some m → m < s.program.methods.size ∧
    ∃ suffix, (s.program.methodDecl m).name = "_CGcompute_" ++ suffix
  memo : ∀ name form args found, s.memo.entries.lookup (name, form, args) = some found →
    found = Builtin.lookup? name form args
  names : s.DistinctNames → s.Named

structure ObjectClass (s : Specialization) (c : ClassId) : Prop where
  lt : c < s.program.classes.size
  kind : (s.program.classDecl c).kind ≠ .closure
  live : (s.program.classDecl c).removed = false

lemma Fit.objectClass (hs : s.Fit settled) (h : s.classOf.get? o = some c) : s.ObjectClass c := by
  obtain ⟨hlt, hkind, -⟩ := hs.registry o c h
  refine ⟨hlt, hkind, ?_⟩
  by_contra hremoved
  exact hkind (hs.removedClasses c hlt (Bool.of_not_eq_false hremoved))

lemma Fit.class_ne (hs : s.Fit settled)
    (ho : s.classOf.get? o = some c) (ho' : s.classOf.get? o' = some k) (hne : o' ≠ o) : k ≠ c := by
  rintro rfl
  have h := (hs.registry o k ho).2.2
  rw [(hs.registry o' k ho').2.2] at h
  exact hne (some.inj h)

lemma Extends.objectClass (h : s.Extends s') (hc : s.ObjectClass c) : s'.ObjectClass c where
  lt := hc.lt.trans_le h.program.classes
  kind := by rw [h.program.kind hc.lt]; exact hc.kind
  live := by rw [h.program.removed hc.lt]; exact hc.live

/-- What has to be shown of a state that was extended: that what is new in it fits. -/
structure Additions (settled : Bool) (s s' : Specialization) : Prop where
  layout : s'.program.Layout
  bodies : ∀ m < s'.program.methods.size, s'.program.isLiveMethod m →
    m < s.program.methods.size ∧ s'.program.body m = s.program.body m ∨
      (s'.program.body m).Fits (s'.Permits settled (s'.program.methodDecl m).owner)
  classNames : ∀ c < s'.program.classes.size, s.program.classes.size ≤ c →
    s'.IsClassName c (s'.program.className c)
  methodNames : ∀ m < s'.program.methods.size, s.program.methods.size ≤ m →
    s'.IsMethodName (s'.program.methodDecl m).owner (s'.program.methodDecl m).name
  valueFields : ∀ v f, s'.valueFields.get? v = some f → s.valueFields.get? v = some f ∨
    f < s'.program.fields.size ∧ s'.ownerKind f ≠ .closure ∧
      (s'.constancy.isConstant v = false → (s'.program.fieldDecl f).isFinal = false)
  expressionFields : ∀ a f, s'.expressionFields.get? a = some f →
    s.expressionFields.get? a = some f ∨ f < s'.program.fields.size ∧ s'.ownerKind f ≠ .closure
  refFields : ∀ key f, s'.refFields.get? key = some f → s.refFields.get? key = some f ∨
    f < s'.program.fields.size ∧ s'.IsReference key f
  computeMethods : ∀ v m, s'.computeMethods.get? v = some m → s.computeMethods.get? v = some m ∨
    m < s'.program.methods.size ∧ ∃ suffix, (s'.program.methodDecl m).name = "_CGcompute_" ++ suffix
  memo : ∀ name form args found, s'.memo.entries.lookup (name, form, args) = some found →
    s.memo.entries.lookup (name, form, args) = some found ∨ found = Builtin.lookup? name form args
  names : s'.DistinctNames → s.Named → s'.Named

lemma Fit.extend (hs : s.Fit settled) (h : s.Extends s') (hnew : s.Additions settled s') :
    s'.Fit settled where
  layout := hnew.layout
  bodies m hm hlive := by
    rcases hnew.bodies m hm hlive with ⟨hlt, hbody⟩ | hfits
    · rw [hbody, h.program.methodOwner hlt]
      rw [h.program.isLiveMethod hlt] at hlive
      exact (hs.bodies m hlt hlive).mono fun _ => h.permits hs.layout
    · exact hfits
  classNames c hc := by
    by_cases hlt : c < s.program.classes.size
    · rw [h.program.className hlt]
      exact h.isClassName hlt (hs.classNames c hlt)
    · exact hnew.classNames c hc (Nat.not_lt.1 hlt)
  methodNames m hm := by
    by_cases hlt : m < s.program.methods.size
    · rw [h.program.methodOwner hlt, h.program.methodName hlt]
      exact h.isMethodName (hs.layout.methodOwner m hlt).1 (hs.methodNames m hlt)
    · exact hnew.methodNames m hm (Nat.not_lt.1 hlt)
  removedClasses c hc hremoved := by
    by_cases hlt : c < s.program.classes.size
    · rw [h.program.removed hlt] at hremoved
      rw [h.program.kind hlt]
      exact hs.removedClasses c hlt hremoved
    · rw [(h.program.newClass c hc (Nat.not_lt.1 hlt)).1] at hremoved
      cases hremoved
  removedMethods m hm hremoved := by
    by_cases hlt : m < s.program.methods.size
    · rw [h.program.methodRemoved hlt] at hremoved
      rw [h.program.methodOwner hlt, h.program.methodName hlt,
        h.program.removed (hs.layout.methodOwner m hlt).1]
      exact hs.removedMethods m hlt hremoved
    · rw [h.program.newMethod m hm (Nat.not_lt.1 hlt)] at hremoved
      cases hremoved
  bijection := h.isBijection.trans hs.bijection
  registry o c hc := by
    rw [h.classOf] at hc
    obtain ⟨hlt, hkind, hobject⟩ := hs.registry o c hc
    exact ⟨hlt.trans_le h.program.classes, by rwa [h.program.kind hlt], by rwa [h.objectOf]⟩
  valueFields v f hf := by
    rcases hnew.valueFields v f hf with hf | hf
    · obtain ⟨hlt, hkind, hfinal⟩ := hs.valueFields v f hf
      rw [h.ownerKind hs.layout hlt, h.program.oldField f hlt, h.constancy]
      exact ⟨hlt.trans_le h.program.fields, hkind, hfinal⟩
    · exact hf
  expressionFields a f hf := by
    rcases hnew.expressionFields a f hf with hf | hf
    · obtain ⟨hlt, hkind⟩ := hs.expressionFields a f hf
      rw [h.ownerKind hs.layout hlt]
      exact ⟨hlt.trans_le h.program.fields, hkind⟩
    · exact hf
  refFields key f hf := by
    rcases hnew.refFields key f hf with hf | hf
    · obtain ⟨hlt, hkey⟩ := hs.refFields key f hf
      exact ⟨hlt.trans_le h.program.fields, h.isReference hlt hkey⟩
    · exact hf
  computeMethods v m hm := by
    rcases hnew.computeMethods v m hm with hm | hm
    · obtain ⟨hlt, hname⟩ := hs.computeMethods v m hm
      rw [h.program.methodName hlt]
      exact ⟨hlt.trans_le h.program.methods, hname⟩
    · exact hm
  memo name form args found hfound :=
    (hnew.memo name form args found hfound).elim (hs.memo name form args found) fun h => h
  names hdistinct := hnew.names hdistinct (hs.names (h.distinctNames hdistinct))
end Specialization
end DataflowSpecializer
