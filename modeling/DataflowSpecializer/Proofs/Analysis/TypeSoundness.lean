import DataflowSpecializer.Proofs.Analysis.ValueTypes
import DataflowSpecializer.Proofs.Generate.Runtime
import DataflowSpecializer.Proofs.Value.Shape

/-! # The types in a method hold of its runs

A run keeps the values in its locals and in the fields. Where control comes, the facts about types
describe what it keeps, unless a place had its value before the method began and only some of the
ways to a statement assign it: merging takes a place that is not mentioned for one that has no value
yet, so that the other ways alone decide.
-/
namespace DataflowSpecializer
open List SortedMap ValueType Library
/-- What the locals and the fields hold. -/
structure Tokens where
  locals : LocalId → Option Value
  fields : FieldId → Option Value

namespace TypeContext
open Platform Value

/-- The type of what a field holds whenever it is read: its tag, or the class it is declared with. -/
def promised? (c : TypeContext) (f : FieldId) : Option ValueType :=
  (c.facts.type? f).or ((c.program.fieldDecl f).type.className?.bind ofValueClass?)

/-- What the method of a value answers: what the operation of its name gives. -/
inductive Operates (s : Tokens) (call : Invocation) (u : Value) : Value → Prop
  | unary {op : Value → Outcome} {w : Value} :
      unaryMethods.lookup call.method.name = some op → op u = .ok w → Operates s call u w
  | absolute {w : Value} : call.method.name = "absolute" → u.absolute = .ok w → Operates s call u w
  | binary {op : Value → Value → Outcome} {r : LocalId} {v w : Value} :
      binaryMethods.lookup call.method.name = some op → call.args.head? = some (.loc r) →
      s.locals r = some v → op u v = .ok w → Operates s call u w
  | counted {op : Value → Int32 → Outcome} {n : Int32} {w : Value} :
      countedMethods.lookup call.method.name = some op →
      (call.method.name = "pow" → ¬n < 0) → op u n = .ok w → Operates s call u w
  | matrixElement {i j : Int32} {w : Value} : call.method.name = "getElementAsToken" →
      u.matrixElement i j = .ok w → Operates s call u w
  | field {label : String} {w : Value} : call.method.name = "get" →
      call.args.head? = some (.const (.string label)) → u.field label = .ok w → Operates s call u w

def isOperation (name : String) : Bool :=
  isArithmetic name || keepsType name || isTest name ||
    ["absolute", "getElement", "getElementAsToken", "get"].contains name

def Replies (c : TypeContext) (s : Tokens) (call : Invocation) (base : LocalId) (w : Value) : Prop :=
  if call.method.name = "get" ∧ call.method.className = portClass then
    ∀ o, c.objects.object? base = some o → (c.model.port? o).isSome → HasType w (c.model.portType o)
  else if call.method.name = "getToken" then
    ∀ o, c.objects.object? base = some o → (c.model.var? o).isSome →
      HasType w (c.model.variableType o)
  else isOperation call.method.name → ∃ u, s.locals base = some u ∧ Operates s call u w

def Answers (c : TypeContext) (s : Tokens) (call : Invocation) (w : Value) : Prop :=
  if call.dispatch = .static then
    (call.method.name = "convert" ∨ call.method.name = "arrayToMatrix") →
      ∀ t, ofValueClass? call.method.className = some t → HasType w t
  else ∀ base, call.base = some base → c.Replies s call base w

/-- What an expression can give; nothing stands for what is not a value of the language. -/
def Gives (c : TypeContext) (s : Tokens) : Rvalue → Option Value → Prop
  | .use (.loc r), w | .cast _ (.loc r), w => w = s.locals r
  | .new className args, w => ∀ t, constructed? className args = some t → ∀ v ∈ w, HasType v t
  | .field _ f, w => ∀ v ∈ w, (∀ t, c.promised? f = some t → HasType v t) ∧
      (c.promised? f = none → s.fields f = some v)
  | .invoke call, w => ∀ v ∈ w, c.Answers s call v
  | _, _ => True

def Acts (c : TypeContext) : Action → Tokens → Tokens → Prop
  | .assign (.loc l) v, s, s' =>
    ∃ w, c.Gives s v w ∧ s' = { s with locals := Function.update s.locals l w }
  | .assign (.field _ f) v, s, s' =>
    ∃ w, c.Gives s v w ∧ s' = { s with fields := Function.update s.fields f w }
  | _, s, s' => s' = s

inductive Run (c : TypeContext) (b : Body) (entry : Tokens) : Nat → Tokens → Prop
  | start : 0 < b.stmts.length → Run c b entry 0 entry
  | step {i j : Nat} {s s' : Tokens} : Run c b entry i s → c.Acts (b.actionAt i) s s' →
      j ∈ b.successors i → Run c b entry j s'

section Operations
variable {u : Value} {s t e : ValueType}

lemma HasType.absolute (h : HasType u t) (hw : u.absolute = .ok w) :
    HasType w (if t = .complex then .double else t) := by
  have hle := h.type_leq
  have hcase : u.type.isScalar ∧ (w.type = u.type ∧ u.type ≠ .complex ∨
      w.type = .double ∧ u.type = .complex) := by
    cases u <;> cases hw <;> simp [type, isScalar]
  obtain ⟨hu, ⟨hsame, hne⟩ | ⟨hdouble, hcomplex⟩⟩ := hcase
  · split_ifs with ht
    · subst ht
      have hbelow : w.type.leq .double := by
        rw [hsame]
        cases u <;> cases hw <;> first | rfl | exact absurd rfl hne | cases hle
      exact (hasType_self_of_isScalar (hsame ▸ hu)).mono hbelow
    · exact h.of_type_eq hu hsame
  · have hself : HasType w .double := hdouble ▸ hasType_self_of_isScalar (by rw [hdouble]; rfl)
    split_ifs with ht
    · exact hself
    · refine hself.mono ?_
      rw [hcomplex] at hle
      rcases (scalar_leq_iff rfl).1 hle with rfl | rfl | hscalar
      · rfl
      · rfl
      · cases t <;> first | rfl | exact absurd rfl ht | cases hscalar

lemma HasType.part (h : HasType u t) (he : t.element? = some e)
    (hw : (∃ i, u.element i = .ok w) ∨ ∃ i j, u.matrixElement i j = .ok w) : HasType w e := by
  cases t with
  | array d =>
    obtain rfl : d = e := Option.some.inj he
    rcases hw with ⟨i, hw⟩ | ⟨i, j, hw⟩
    · exact h.element hw
    · obtain ⟨_, _, rfl, -⟩ := h.array_inv
      cases hw
  | matrix d =>
    obtain rfl : d = e := Option.some.inj he
    rcases hw with ⟨i, hw⟩ | ⟨i, j, hw⟩
    · obtain ⟨_, _, _, _, rfl, -⟩ := h.matrix_inv
      cases hw
    · exact h.matrixElement hw
  | _ => cases he

lemma hasType_joined (h : HasType w (s.lub t)) :
    HasType w (if s = .unknown ∨ t = .unknown then .unknown else s.lub t) := by
  split_ifs
  · exact .unknown w
  · exact h
end Operations

/-- What is known of a place fits the value that it holds. A place that is not mentioned holds
nothing, or has been holding something from the start. -/
def Fits (m : SortedMap Nat ValueType) (entry held : Option Value) (k : Nat) : Prop :=
  ∀ v, held = some v → (∃ t, m.get? k = some t ∧ HasType v t) ∨ m.get? k = none ∧ entry.isSome

section Fits
variable {m n : SortedMap Nat ValueType} {entry : Option Value} {held : Nat → Option Value}
  {k : Nat}

lemma Fits.hasType (h : Fits m w v k) (hv : v = some u) : HasType u ((m.get? k).getD .unknown) := by
  rcases h u hv with ⟨t, ht, hu⟩ | ⟨hnone, -⟩
  · rw [ht]
    exact hu
  · rw [hnone]
    exact .unknown u

lemma Fits.insert {t : ValueType}
    (h : Fits m entry (held k) k) (hw : ∀ v, w = some v → HasType v t) :
    Fits (m.insert k' t) entry (Function.update held k' w k) k := by
  intro v hv
  by_cases hk : k = k'
  · subst hk
    rw [Function.update_self] at hv
    exact .inl ⟨t, get?_insert_self .., hw v hv⟩
  · rw [Function.update_of_ne hk] at hv
    rw [get?_insert_of_ne _ hk]
    exact h v hv

/-- What fits stays so when other ways come in, if they mention only what this one does or what
had no value at the start. -/
lemma Fits.merge {f : ValueType → ValueType → ValueType} {height : Nat} {Key : Nat → Prop}
    {v : Option Value} (h : Fits m entry v k) (hf : ValueType.IsJoin f)
    (hm : TypesWithin height Key m) (hn : TypesWithin height Key n) (hmerge : n.mergeWith f m = n)
    (hentry : entry.isSome → (n.get? k).isSome → (m.get? k).isSome) : Fits n entry v k := by
  intro u hu
  have hget := congrArg (·.get? k) hmerge
  simp only [get?_mergeWith] at hget
  rcases h u hu with ⟨t, ht, htu⟩ | ⟨hnone, hsome⟩
  · rw [ht] at hget
    cases hnk : n.get? k with
    | none => rw [hnk] at hget; cases hget
    | some t' =>
      rw [hnk] at hget
      have hjoin : f t' t = t' := Option.some.inj hget
      refine .inl ⟨t', rfl, htu.mono ?_⟩
      have hcanon := (hm k t ht).2.1
      rw [← hjoin, hf.comm (hn k t' hnk).2.1 hcanon]
      exact hf.above hcanon t'
  · cases hnk : n.get? k with
    | none => exact .inr ⟨rfl, hsome⟩
    | some t' => simp [hnone, hnk] at hentry hsome; exact absurd hsome (by simp [hentry])
end Fits

structure Describes (c : TypeContext) (entry : Tokens) (x : TypeFact) (s : Tokens) : Prop where
  locals : ∀ l, Fits x.locals (entry.locals l) (s.locals l) l
  fields : ∀ f, c.promised? f = none → Fits x.fields (entry.fields f) (s.fields f) f

section Transfer
variable {c : TypeContext} {s : Tokens} {x : TypeFact} {call : Invocation} {t : ValueType}

lemma fieldType?_eq (c : TypeContext) (x : TypeFact) (f : FieldId) :
    c.fieldType? x f = (c.promised? f).or (x.fields.get? f) := by
  unfold fieldType? promised?
  cases c.facts.type? f with
  | some t => rfl
  | none =>
    simp only [Option.none_or]
    cases (c.program.fieldDecl f).type.className?.bind ofValueClass? <;> rfl

variable (h : c.Describes entry x s)

include h

lemma hasType_local (hv : s.locals l = some v) : HasType v (x.local_ l) := (h.locals l).hasType hv

lemma hasType_of_operates (hu : s.locals base = some u) (hw : Operates s call u w)
    (hport : ¬(call.method.name = "get" ∧ call.method.className = portClass))
    (ht : c.methodResult? x call base = some t) : HasType w t := by
  have hbase := hasType_local h hu
  cases hw with
  | unary hop hw =>
    have hmem := mem_of_lookup hop
    simp only [unaryMethods, mem_cons, Prod.mk.injEq, not_mem_nil, or_false] at hmem
    rcases hmem with ⟨hname, rfl⟩ | ⟨hname, rfl⟩ | ⟨hname, rfl⟩ <;>
      rw [methodResult?, hname] at ht <;> cases ht
    · exact hbase.negate hw
    · exact hasType_not hw
    · exact hbase.bitwiseNot hw
  | absolute hname hw =>
    rw [methodResult?, hname] at ht
    cases ht
    exact HasType.absolute hbase hw
  | binary hop hargs hv hw =>
    have hargument := hasType_local h hv
    have hmem := mem_of_lookup hop
    simp only [binaryMethods, mem_cons, Prod.mk.injEq, not_mem_nil, or_false] at hmem
    rcases hmem with ⟨hname, rfl⟩ | ⟨hname, rfl⟩ | ⟨hname, rfl⟩ | ⟨hname, rfl⟩ | ⟨hname, rfl⟩ |
      ⟨hname, rfl⟩ | ⟨hname, rfl⟩ | ⟨hname, rfl⟩ | ⟨hname, rfl⟩ | ⟨hname, rfl⟩ <;>
      rw [methodResult?, hname, hargs] at ht <;> cases ht
    iterate 5 exact hasType_joined (hbase.arith hargument hw)
    iterate 3 exact hasType_joined (hbase.bitwise hargument hw)
    · cases hw
      unfold Value.isEqualTo
      split <;> exact hasType_boolean _
    · exact hasType_isLessThan hw
  | counted hop hn hw =>
    have hmem := mem_of_lookup hop
    simp only [countedMethods, mem_cons, Prod.mk.injEq, not_mem_nil, or_false] at hmem
    rcases hmem with ⟨hname, rfl⟩ | ⟨hname, rfl⟩ | ⟨hname, rfl⟩ | ⟨hname, rfl⟩ | ⟨hname, rfl⟩
    · rw [methodResult?, hname] at ht
      cases ht
      obtain ⟨hscalar, hsame⟩ := pow_type_of_nonneg (hn hname) hw
      exact hbase.of_type_eq hscalar hsame
    iterate 3
      · rw [methodResult?, hname] at ht
        cases ht
        exact hbase.shift hw
    · rw [methodResult?, hname] at ht
      exact HasType.part hbase ht (.inl ⟨_, hw⟩)
  | matrixElement hname hw =>
    rw [methodResult?, hname] at ht
    exact HasType.part hbase ht (.inr ⟨_, _, hw⟩)
  | field hname hargs hw =>
    have hclass : ¬call.method.className = portClass := fun hclass => hport ⟨hname, hclass⟩
    rw [methodResult?, hname] at ht
    simp only [hclass, isArithmetic, keepsType, isTest, contains_cons, contains_nil,
      String.reduceBEq, String.reduceEq, Bool.or_self, Bool.false_eq_true, or_self, and_false,
      true_and, if_false] at ht
    split at ht
    · split at ht
      · rename_i fs label' rest hrecord hargs'
        rw [hargs'] at hargs
        cases hargs
        rw [hrecord] at hbase
        exact hbase.field ht hw
      · cases ht
    · cases ht

lemma hasType_methodResult (hw : c.Replies s call base w)
    (ht : c.methodResult? x call base = some t) : HasType w t := by
  unfold Replies at hw
  split_ifs at hw with hport hvariable
  · rw [methodResult?, if_pos hport] at ht
    obtain ⟨o, ho, ht⟩ := Option.bind_eq_some_iff.1 ht
    obtain ⟨p, hp, rfl⟩ := Option.map_eq_some_iff.1 ht
    exact hw o ho (hp ▸ rfl)
  · rw [methodResult?, if_neg hport, if_pos hvariable] at ht
    obtain ⟨o, ho, ht⟩ := Option.bind_eq_some_iff.1 ht
    obtain ⟨p, hp, rfl⟩ := Option.map_eq_some_iff.1 ht
    exact hw o ho (hp ▸ rfl)
  · have hoperation : isOperation call.method.name := by
      unfold methodResult? at ht
      simp only [if_neg hport, if_neg hvariable] at ht
      split_ifs at ht <;> simp_all [isOperation]
      tauto
    obtain ⟨u, hu, hop⟩ := hw hoperation
    exact hasType_of_operates h hu hop hport ht

lemma hasType_value (hw : c.Gives s v w) (hu : w = some u) :
    HasType u ((c.valueType? x v).getD .unknown) := by
  subst hu
  cases ht : c.valueType? x v with
  | none => exact .unknown u
  | some t =>
    show HasType u t
    unfold valueType? at ht
    split at ht
    iterate 2
      · have hlocal := (h.locals _).hasType hw.symm
        rw [ht] at hlocal
        exact hlocal
    · exact hw t ht u rfl
    · obtain ⟨hsome, hnone⟩ := hw u rfl
      rw [fieldType?_eq] at ht
      cases hp : c.promised? _ with
      | some t' =>
        rw [hp] at ht
        cases ht
        exact hsome t hp
      | none =>
        rw [hp] at ht
        have hfield := (h.fields _ hp).hasType (hnone hp)
        rw [show x.fields.get? _ = some t from ht] at hfield
        exact hfield
    · have hanswer := hw u rfl
      unfold Answers at hanswer
      unfold callResult? at ht
      split_ifs at ht hanswer with hstatic hname
      · exact hanswer hname t ht
      · obtain ⟨base, hbase, ht⟩ := Option.bind_eq_some_iff.1 ht
        exact hasType_methodResult h (hanswer base hbase) ht
    · cases ht

/-- **A statement turns facts that describe the values into facts that describe what it leaves.** -/
theorem Describes.transfer (hacts : c.Acts a s s') :
    c.Describes entry (c.transfer a x) s' := by
  unfold Acts at hacts
  split at hacts
  · obtain ⟨w, hw, rfl⟩ := hacts
    exact ⟨fun l => (h.locals l).insert fun v hv => hasType_value h hw hv, h.fields⟩
  · rename_i base f v
    obtain ⟨w, hw, rfl⟩ := hacts
    by_cases htag : (c.facts.type? f).isSome
    · simp only [TypeContext.transfer, if_pos htag]
      refine ⟨h.locals, fun f' hf' => ?_⟩
      have hne : f' ≠ f := by
        rintro rfl
        rw [promised?, Option.or_eq_none_iff] at hf'
        rw [hf'.1] at htag
        cases htag
      show Fits _ _ (Function.update s.fields f w f') f'
      rw [Function.update_of_ne hne]
      exact h.fields f' hf'
    · simp only [TypeContext.transfer, if_neg htag]
      refine ⟨h.locals, fun f' hf' => (h.fields f' hf').insert fun u hu => ?_⟩
      split
      · rename_i o
        cases o with
        | loc r => exact hasType_value h hw hu
        | const _ => exact .unknown u
      · exact .unknown u
  · rename_i hlocal hfield
    subst hacts
    unfold TypeContext.transfer
    split
    · exact absurd rfl (hlocal _ _)
    · exact absurd rfl (hfield _ _ _)
    · exact h
end Transfer

/-- No way into a statement drops the type of `k`, and the start has none. -/
def AssignedThroughout (facts : FlowFacts TypeFact) (b : Body)
    (types : TypeFact → SortedMap Nat ValueType) (k : Nat) : Prop :=
  (∀ x ∈ facts.before? 0, (types x).get? k = none) ∧
    ∀ i < b.stmts.length, ∀ j ∈ b.successors i, ∀ x ∈ facts.after? i, ∀ y ∈ facts.before? j,
      ((types y).get? k).isSome → ((types x).get? k).isSome

/-- What a body may find at its start: an entry with no promised type is assigned on every way. -/
structure Admits (c : TypeContext) (b : Body) (entry : Tokens) : Prop where
  locals : ∀ l, (entry.locals l).isSome → AssignedThroughout (c.solve b) b TypeFact.locals l
  fields : ∀ f, c.promised? f = none → (entry.fields f).isSome →
    AssignedThroughout (c.solve b) b TypeFact.fields f

lemma Run.describes {c : TypeContext} (hc : c.IsCanonical)
    (hentry : c.Admits b entry) (h : c.Run b entry i s) :
    ∃ x, (c.solve b).before? i = some x ∧ c.Describes entry x s := by
  have hfacts := (FlowFacts.solve_consistent (bounded hc b) (c.rises_le_visits b)).2
  induction h with
  | start hlt =>
    obtain ⟨x, hx⟩ := hfacts.entry hlt
    have hnone {types : TypeFact → SortedMap Nat ValueType} {k : Nat} {v : Option Value}
        (hk : v.isSome → AssignedThroughout (c.solve b) b types k) : Fits (types x) v v k := by
      intro w hw
      have hv : v.isSome := hw ▸ rfl
      exact .inr ⟨(hk hv).1 x hx, hv⟩
    exact ⟨x, hx, fun l => hnone (hentry.locals l), fun f hf => hnone (hentry.fields f hf)⟩
  | @step i j s s' _ hacts hj ih =>
    obtain ⟨x, hx, hdescribes⟩ := ih
    have hafter : (c.solve b).after? i = some (c.transfer (b.actionAt i) x) :=
      (hfacts.isSolution.after i).trans (congrArg _ hx)
    obtain ⟨y, hy, hmerge⟩ := hfacts.isSolution.merged i _ hafter j hj
    obtain ⟨hlocals, hfields⟩ := hdescribes.transfer hacts
    have hi := (hfacts.reached i x hx).lt
    have hm := (hfacts.behind i _ hafter).1
    have hn := hfacts.facts j y hy
    refine ⟨y, hy, fun l => ?_, fun f hf => ?_⟩
    · exact (hlocals l).merge isJoin_merge hm.1 hn.1 (congrArg TypeFact.locals hmerge)
        fun hl => (hentry.locals l hl).2 i hi j hj _ hafter y hy
    · exact (hfields f hf).merge isJoin_lub hm.2 hn.2 (congrArg TypeFact.fields hmerge)
        fun hl => (hentry.fields f hf hl).2 i hi j hj _ hafter y hy

/-- **The types that are found hold of every run.**  Wherever a run comes there are facts, and a
local that holds a value has a type there that is above the value's own. What fields and operations
promise is read as `HasType`: an empty collection with an element type of its own is not covered,
and a sum of two of these indeed has a type that is not below. -/
theorem type_leq_local_of_run (c : TypeContext) (hc : c.IsCanonical) (b : Body) {entry s : Tokens}
    {i : Nat} (hentry : c.Admits b entry) (h : c.Run b entry i s) :
    ∃ x, (c.solve b).before? i = some x ∧
      ∀ l v, s.locals l = some v → v.type.leq (x.local_ l) := by
  obtain ⟨x, hx, hdescribes⟩ := h.describes hc hentry
  exact ⟨x, hx, fun l v hv => (hasType_local hdescribes hv).type_leq⟩

def storeAndRead (first : Action) : Body where
  locals := #[]
  stmts := [
    ⟨0, .set 1 (.new intToken [])⟩,
    ⟨1, first⟩,
    ⟨2, .assign (.field 0 0) (.use (.loc 1))⟩,
    ⟨3, .label 0⟩,
    ⟨4, .set 2 (.field 0 0)⟩,
    ⟨5, .ret none⟩]
  receiver := some 0
  params := []
  nextStmt := 6
  nextLabel := 1

def textField : Tokens := ⟨fun _ => none, fun f => if f = 0 then some (.string "a") else none⟩
def bare : TypeContext := ⟨.empty, .empty, .empty, .empty⟩

lemma isCanonical_bare : bare.IsCanonical :=
  ⟨fun _ => .unknown, fun _ => .unknown, fun _ _ h => by cases h⟩

lemma run_first (first : Action) : bare.Run (storeAndRead first) textField 1
      ⟨Function.update textField.locals 1 (some (.int 7)), textField.fields⟩ := by
  refine .step (.start (Nat.zero_lt_succ 5)) ⟨some (.int 7), ?_, rfl⟩ (mem_singleton.2 rfl)
  rintro t ht v ⟨⟩
  cases ht
  exact hasType_self_of_isScalar rfl

lemma run_read {s : Tokens}
    (h : bare.Run (storeAndRead first) textField 3 s) (hv : s.fields 0 = some v) :
    ∃ s', bare.Run (storeAndRead first) textField 5 s' ∧ s'.locals 2 = some v := by
  have hlabel : bare.Run (storeAndRead first) textField 4 s := h.step rfl (mem_singleton.2 rfl)
  refine ⟨_, hlabel.step ⟨some v, ?_, rfl⟩ (mem_singleton.2 rfl), rfl⟩
  rintro u ⟨⟩
  exact ⟨fun t ht => (by cases ht), fun _ => hv⟩

/-- Without a branch the field has been assigned where it is read. -/
theorem type_leq_local_of_storeAndRead : ∃ s x, bare.Run (storeAndRead .nop) textField 5 s ∧
      (bare.solve (storeAndRead .nop)).before? 5 = some x ∧
      s.locals 2 = some (.int 7) ∧ (Value.int 7).type.leq (x.local_ 2) := by
  have hadmits : bare.Admits (storeAndRead .nop) textField := by
    refine ⟨fun l hl => (by cases hl), fun f _ hf => ?_⟩
    obtain rfl : f = 0 := by
      by_contra hne
      simp [textField, hne] at hf
    unfold AssignedThroughout
    decide +kernel
  obtain ⟨s, hrun, hs⟩ := run_read (.step (.step (run_first .nop) rfl (mem_singleton.2 rfl))
    ⟨some (.int 7), rfl, rfl⟩ (mem_singleton.2 rfl)) rfl
  obtain ⟨x, hx, hle⟩ := type_leq_local_of_run bare isCanonical_bare _ hadmits hrun
  exact ⟨s, x, hrun, hx, hs, hle 2 _ hs⟩

/-- With a branch around the store the local holds the text, and its type is said to be that of
the number. -/
theorem type_not_leq_local_of_branch :
    ∃ s x, bare.Run (storeAndRead (.branch .eq (.int 0) (.int 0) 0)) textField 5 s ∧
      (bare.solve (storeAndRead (.branch .eq (.int 0) (.int 0) 0))).before? 5 = some x ∧
      s.locals 2 = some (.string "a") ∧ x.local_ 2 = .int ∧
      (Value.string "a").type.leq (x.local_ 2) = false := by
  obtain ⟨s, hrun, hs⟩ := run_read (.step (run_first (.branch .eq (.int 0) (.int 0) 0)) rfl
    (by decide +kernel)) rfl
  have hfact : ((bare.solve (storeAndRead (.branch .eq (.int 0) (.int 0) 0))).before? 5).map
      (·.local_ 2) = some .int := by
    decide +kernel
  obtain ⟨x, hx, hint⟩ := Option.map_eq_some_iff.1 hfact
  exact ⟨s, x, hrun, hx, hs, hint, by rw [hint]; rfl⟩
end TypeContext
end DataflowSpecializer
