import DataflowSpecializer.Proofs.Fitness.Sites
import DataflowSpecializer.Proofs.Simplify.Rewriting

/-! # Removal keeps states fit

What is removed from a program is described once, by the lists of what it loses; each sweep and a whole
pass are of this form.
-/
namespace DataflowSpecializer
open DataflowSpecializer.Specialization List Option Classes DataflowSpecializer.Action Rvalue
  Specialize

variable {m k : MethodId} {c : ClassId} {f : FieldId} {a : Action}

/-! ## Bodies that lose statements -/
structure Body.Thins (b b' : Body) : Prop where
  nextStmt : b'.nextStmt = b.nextStmt
  code : b'.code ⊆ b.code
  fits : ∀ {P}, b.Fits P → b'.Fits P

namespace Body.Thins
variable {b b' b'' : Body}

lemma refl (b : Body) : b.Thins b := ⟨rfl, Subset.refl _, fun h => h⟩

lemma trans (h : b.Thins b') (h' : b'.Thins b'') : b.Thins b'' :=
  ⟨h'.nextStmt.trans h.nextStmt, Subset.trans h'.code h.code, fun hb => h'.fits (h.fits hb)⟩

lemma filter (b : Body) {p : Action → Bool} (hlabel : ∀ l, p (.label l)) :
    b.Thins { b with stmts := b.stmts.filter fun s => p s.action } where
  nextStmt := rfl
  code := map_subset _ filter_sublist.subset
  fits hb := (Rewrites.filter (p := p) hb.toWellFormed fun _ _ l _ => hlabel l).fits hb
end Body.Thins

/-! ## Programs that shrink -/
namespace Program
variable {p q r : Program} {cs cs' : List ClassId} {ms ms' : List MethodId} {fs fs' : List FieldId}
  {ref : MethodRef}

structure Shrinks (p q : Program) : Prop where
  classes : q.classes.size = p.classes.size
  fields : q.fields.size = p.fields.size
  methods : q.methods.size = p.methods.size
  index : q.index = p.index
  class_ : ∀ c, q.classDecl c = { p.classDecl c with removed := (q.classDecl c).removed }
  field : ∀ f, q.fieldDecl f = { p.fieldDecl f with removed := (q.fieldDecl f).removed }
  method : ∀ m, q.methodDecl m =
    { p.methodDecl m with removed := (q.methodDecl m).removed, body := (q.methodDecl m).body }
  thins : ∀ m, (p.body m).Thins (q.body m)

namespace Shrinks
variable (h : p.Shrinks q) (c f m)

include h

lemma className : q.className c = p.className c := by
  rw [Program.className, h.class_ c, Program.className]

lemma kind : (q.classDecl c).kind = (p.classDecl c).kind := by rw [h.class_ c]

lemma members : (q.classDecl c).methods = (p.classDecl c).methods := by rw [h.class_ c]

lemma memberFields : (q.classDecl c).fields = (p.classDecl c).fields := by rw [h.class_ c]

lemma fieldOwner : (q.fieldDecl f).owner = (p.fieldDecl f).owner := by rw [h.field f]

lemma isFinal : (q.fieldDecl f).isFinal = (p.fieldDecl f).isFinal := by rw [h.field f]

lemma methodOwner : (q.methodDecl m).owner = (p.methodDecl m).owner := by rw [h.method m]

lemma methodName : (q.methodDecl m).name = (p.methodDecl m).name := by rw [h.method m]
end Shrinks

/-- The classes list methods of their own. -/
def Listed (p : Program) : Prop :=
  ∀ c < p.classes.size, ∀ m ∈ (p.classDecl c).methods,
    m < p.methods.size ∧ (p.methodDecl m).owner = c

lemma Listed.shrinks (hp : p.Listed) (h : p.Shrinks q) : q.Listed := fun c hc m hm => by
  rw [h.methods, h.methodOwner]
  exact hp c (h.classes ▸ hc) m (h.members c ▸ hm)

lemma Listed.lt (hp : p.Listed) (hm : m ∈ p.allLiveMethods) : m < p.methods.size := by
  obtain ⟨c, hc, -, hmem, -⟩ := mem_allLiveMethods_iff.1 hm
  exact (hp c hc m hmem).1

/-- These classes, methods and fields are lost, and statements. -/
structure Discards (cs : List ClassId) (ms : List MethodId) (fs : List FieldId) (p q : Program) : Prop
    extends p.Shrinks q where
  liveClass : ∀ c < p.classes.size, (q.isLiveClass c ↔ p.isLiveClass c ∧ c ∉ cs)
  liveMethod : ∀ m < p.methods.size, (q.isLiveMethod m ↔ p.isLiveMethod m ∧ m ∉ ms)
  liveField : ∀ f < p.fields.size, (q.isLiveField f ↔ p.isLiveField f ∧ f ∉ fs)

namespace Discards
lemma refl (p : Program) : Discards [] [] [] p p :=
  ⟨⟨rfl, rfl, rfl, rfl, fun _ => rfl, fun _ => rfl, fun _ => rfl, fun _ => .refl _⟩, by simp, by simp,
    by simp⟩

lemma trans (h : Discards cs ms fs p q) (h' : Discards cs' ms' fs' q r) :
    Discards (cs ++ cs') (ms ++ ms') (fs ++ fs') p r where
  classes := h'.classes.trans h.classes
  fields := h'.fields.trans h.fields
  methods := h'.methods.trans h.methods
  index := h'.index.trans h.index
  class_ c := by rw [h'.class_ c, h.class_ c]
  field f := by rw [h'.field f, h.field f]
  method m := by rw [h'.method m, h.method m]
  thins m := (h.thins m).trans (h'.thins m)
  liveClass c hc := by
    rw [h'.liveClass c (h.classes ▸ hc), h.liveClass c hc, mem_append, not_or, and_assoc]
  liveMethod m hm := by
    rw [h'.liveMethod m (h.methods ▸ hm), h.liveMethod m hm, mem_append, not_or, and_assoc]
  liveField f hf := by
    rw [h'.liveField f (h.fields ▸ hf), h.liveField f hf, mem_append, not_or, and_assoc]

variable (h : Discards cs ms fs p q) (hp : p.Listed)

include h hp

lemma mem_allLiveMethods_iff : m ∈ q.allLiveMethods ↔
    m ∈ p.allLiveMethods ∧ m ∉ ms ∧ (p.methodDecl m).owner ∉ cs := by
  simp only [Program.mem_allLiveMethods_iff, h.classes, h.members]
  constructor
  · rintro ⟨c, hc, hlive, hmem, hm⟩
    obtain ⟨hlt, rfl⟩ := hp c hc m hmem
    obtain ⟨hlive, hcs⟩ := (h.liveClass _ hc).1 hlive
    obtain ⟨hm, hms⟩ := (h.liveMethod m hlt).1 hm
    exact ⟨⟨_, hc, hlive, hmem, hm⟩, hms, hcs⟩
  · rintro ⟨⟨c, hc, hlive, hmem, hm⟩, hms, hcs⟩
    obtain ⟨hlt, rfl⟩ := hp c hc m hmem
    exact ⟨_, hc, (h.liveClass _ hc).2 ⟨hlive, hcs⟩, hmem, (h.liveMethod m hlt).2 ⟨hm, hms⟩⟩

/-- What is found is the first of several methods, and still is when others go. -/
lemma resolve?_eq_some (hk : p.resolve? ref = some k) (hms : k ∉ ms)
    (hcs : (p.methodDecl k).owner ∉ cs) : q.resolve? ref = some k := by
  obtain ⟨c, hc, hfind⟩ := bind_eq_some_iff.1 hk
  obtain ⟨hget, hlive⟩ := filter_eq_some_iff.1 hc
  rw [liveMethods, find?_filter] at hfind
  have hmem := mem_of_find?_eq_some hfind
  have hlt := lt_of_mem_methods hmem
  obtain rfl := (hp c hlt k hmem).2
  refine bind_eq_some_iff.2 ⟨(p.methodDecl k).owner, ?_, ?_⟩
  · rw [class?, h.index]
    exact filter_eq_some_iff.2 ⟨hget, (h.liveClass _ hlt).2 ⟨hlive, hcs⟩⟩
  · have hsame (x : MethodId) : (q.methodDecl x).name = (p.methodDecl x).name ∧
        (q.methodDecl x).params = (p.methodDecl x).params := by
      rw [h.method x]
      exact ⟨rfl, rfl⟩
    obtain ⟨hk, before, after, hsplit, hbefore⟩ := find?_eq_some_iff_append.1 hfind
    rw [liveMethods, find?_filter, h.members]
    refine find?_eq_some_iff_append.2 ⟨?_, before, after, hsplit, fun x hx => ?_⟩
    · rw [decide_eq_true_eq] at hk ⊢
      rw [(hsame k).1, (hsame k).2]
      exact ⟨(h.liveMethod k (hp _ hlt k hmem).1).2 ⟨hk.1, hms⟩, hk.2⟩
    · have hx' := hbefore x hx
      have hxlt := (hp _ hlt x (hsplit ▸ mem_append_left _ hx)).1
      rw [Bool.not_eq_true', decide_eq_false_iff_not] at hx' ⊢
      rw [(hsame x).1, (hsame x).2]
      exact fun hx => hx' ⟨((h.liveMethod x hxlt).1 hx.1).1, hx.2⟩
end Discards

lemma setBody_discards {b : Body} (hb : (p.body m).Thins b) : Discards [] [] [] p (p.setBody m b) :=
  { Discards.refl p with
    methods := setBody_methods_size p m b
    method := fun k => by
      rw [setBody_methodDecl]
      split <;> rfl
    thins := fun k => by
      unfold body
      rw [setBody_methodDecl]
      split
      · rename_i h
        exact h.1 ▸ hb
      · exact .refl _
    liveMethod := fun k _ => by
      rw [isLiveMethod, setBody_methodDecl, isLiveMethod]
      split <;> simp }

lemma removeMethod_discards (p : Program) (m : MethodId) : Discards [] [m] [] p (p.removeMethod m) :=
  have hdecl (k : MethodId) : (p.removeMethod m).methodDecl k = if m = k ∧ k < p.methods.size then
      { p.methodDecl k with removed := true } else p.methodDecl k := getD_modify _ _ _ _ _
  { Discards.refl p with
    methods := Array.size_modify
    method := fun k => by
      rw [hdecl]
      split <;> rfl
    thins := fun k => by
      unfold body
      rw [hdecl]
      split <;> exact .refl _
    liveMethod := fun k hk => by
      have := hdecl k
      grind [isLiveMethod] }

lemma removeField_discards (p : Program) (f : FieldId) : Discards [] [] [f] p (p.removeField f) :=
  have hdecl (g : FieldId) : (p.removeField f).fieldDecl g = if f = g ∧ g < p.fields.size then
      { p.fieldDecl g with removed := true } else p.fieldDecl g := getD_modify _ _ _ _ _
  { Discards.refl p with
    fields := Array.size_modify
    field := fun g => by
      rw [hdecl]
      split <;> rfl
    liveField := fun g hg => by
      have := hdecl g
      grind [isLiveField] }

lemma foldl_removeMethod (ms : List MethodId) (p : Program) :
    Discards [] ms [] p (ms.foldl removeMethod p) := by
  induction ms generalizing p with
  | nil => exact .refl p
  | cons m ms ih => exact (removeMethod_discards p m).trans (ih _)

lemma foldl_removeField (fs : List FieldId) (p : Program) :
    Discards [] [] fs p (fs.foldl removeField p) := by
  induction fs generalizing p with
  | nil => exact .refl p
  | cons f fs ih => exact (removeField_discards p f).trans (ih _)

lemma removeClass_discards (p : Program) (c : ClassId) :
    Discards [c] (p.classDecl c).methods (p.classDecl c).fields p (p.removeClass c) := by
  let p1 : Program := { p with classes := p.classes.modify c fun d => { d with removed := true } }
  have hdecl (k : ClassId) : p1.classDecl k = if c = k ∧ k < p.classes.size then
      { p.classDecl k with removed := true } else p.classDecl k := getD_modify _ _ _ _ _
  have h : Discards [c] [] [] p p1 := { Discards.refl p with
    classes := Array.size_modify
    class_ := fun k => by
      rw [hdecl]
      split <;> rfl
    liveClass := fun k hk => by
      have := hdecl k
      grind [isLiveClass] }
  have hall := (h.trans (foldl_removeMethod (p.classDecl c).methods p1)).trans
    (foldl_removeField (p.classDecl c).fields _)
  simp only [nil_append, append_nil] at hall
  exact hall
end Program

/-! ## States that shrink -/
namespace Specialization
variable {s s' : Specialization} {settled : Bool}

/-- Only the program shrinks, and references to fields may be lost. -/
structure Shrinks (s s' : Specialization) : Prop where
  rest : s' = { s with program := s'.program, refFields := s'.refFields }
  program : s.program.Shrinks s'.program

namespace Shrinks
variable (h : s.Shrinks s')

include h

lemma model : s'.model = s.model := by rw [h.rest]

lemma constancy : s'.constancy = s.constancy := by rw [h.rest]

lemma classOf : s'.classOf = s.classOf := by rw [h.rest]

lemma isClassName (hname : s.IsClassName c name) : s'.IsClassName c name := by
  rw [h.rest]
  unfold IsClassName
  rw [h.program.kind]
  exact hname

lemma isMethodName (hname : s.IsMethodName c name) : s'.IsMethodName c name := by
  rw [h.rest]
  unfold IsMethodName
  rw [h.program.kind]
  exact hname

lemma named (hs : s.Named) : s'.Named  where
  classes k hk k' hk' heq := by
    rw [h.program.classes] at hk hk'
    rw [h.program.className, h.program.className] at heq
    exact hs.classes k hk k' hk' heq
  index k hk := by
    rw [h.program.classes] at hk
    rw [h.program.className, h.program.index]
    exact hs.index k hk
  methods k hk := by
    rw [h.program.classes] at hk
    rw [h.program.members]
    refine (map_congr_left fun m _ => ?_) ▸ hs.methods k hk
    exact (h.program.methodName m).symm

lemma ownerKind (f : FieldId) : s'.ownerKind f = s.ownerKind f := by
  rw [Specialization.ownerKind, h.program.fieldOwner, h.program.kind, Specialization.ownerKind]

lemma permits (hx : s.Permits settled c x)
    (hfield : ∀ f, x = .read f ∨ x = .store f → s.Mentionable c f →
      s.program.isLiveField f → s'.program.isLiveField f)
    (hclass : ∀ k < s.program.classes.size, x = .new (s.program.className k) →
      s.program.isLiveClass k → s'.program.isLiveClass k) :
    s'.Permits settled c x := by
  have hmention {f : FieldId} (hf : s.Mentionable c f) : s'.Mentionable c f :=
    ⟨h.program.fields.symm ▸ hf.lt, by rw [h.program.fieldOwner, h.ownerKind]; exact hf.visible⟩
  cases x with
  | read f =>
    refine ⟨hmention hx.1, hx.2.imp (hfield f (.inl rfl) hx.1) ?_⟩
    rintro ⟨hsettled, a, ha⟩
    exact ⟨hsettled, a, h.rest ▸ ha⟩
  | store f =>
    refine ⟨hmention hx.1, h.program.isFinal f ▸ hx.2.1, hx.2.2.imp (hfield f (.inr rfl) hx.1) ?_⟩
    rintro ⟨v, hv, hchanging⟩
    exact ⟨v, h.rest ▸ hv, h.constancy.symm ▸ hchanging⟩
  | call m => exact hx
  | new className =>
    refine hx.imp_right fun hx k hk hremoved => ?_
    rw [h.program.classes] at hk
    rw [h.program.className]
    rintro rfl
    have hlive := hclass k hk rfl <| by
      rw [Program.isLiveClass, Bool.not_eq_true']
      exact Bool.of_not_eq_true fun hold => hx k hk hold rfl
    rw [Program.isLiveClass, hremoved] at hlive
    cases hlive

lemma sited (hs : s.Sited) : s'.Sited := fun key site hsite => by
  rw [h.rest] at hsite
  obtain ⟨hlt, hbelow⟩ := hs key site hsite
  refine ⟨h.program.classes.symm ▸ hlt, fun m hm hname => ?_⟩
  rw [h.program.members] at hm
  rw [h.program.methodName] at hname
  exact (h.program.thins m).nextStmt ▸ hbelow m hm hname
end Shrinks

lemma Fit.mem_allLiveMethods_iff (hs : s.Fit settled) : m ∈ s.program.allLiveMethods ↔
      m < s.program.methods.size ∧ s.program.isLiveMethod m := by
  refine ⟨hs.mem_allLiveMethods, fun ⟨hm, hlive⟩ => ?_⟩
  obtain ⟨howner, hmem⟩ := hs.layout.methodOwner m hm
  have hclass : s.program.isLiveClass (s.program.methodDecl m).owner := by
    rw [Program.isLiveClass, Bool.not_eq_true']
    by_contra hremoved
    rw [Program.isLiveMethod, hs.layout.removed m hm (Bool.of_not_eq_false hremoved)] at hlive
    cases hlive
  exact Program.mem_allLiveMethods_iff.2 ⟨_, howner, hclass, hmem, hlive⟩
end Specialization

namespace Unused
variable {s s' : Specialization} {settled : Bool} {p : Program} {className : String}
  {seen : Array Bool} {waiting : List MethodId}

/-! ## What is called -/
def Seen (seen : Array Bool) (m : MethodId) : Prop := seen.getD m false

def unseen (seen : Array Bool) : Nat := seen.toList.count false

/-- These methods are noted, and those that were not seen before wait. -/
structure Noted (ms : List MethodId) (state state' : List MethodId × Array Bool) : Prop where
  size : state'.2.size = state.2.size
  seen : ∀ k, Seen state'.2 k ↔ Seen state.2 k ∨ k ∈ ms ∧ k < state.2.size
  waiting : ∀ k, k ∈ state'.1 ↔ k ∈ state.1 ∨ Seen state'.2 k ∧ ¬ Seen state.2 k
  total : state'.1.length + unseen state'.2 = state.1.length + unseen state.2

lemma note_noted (state : List MethodId × Array Bool) (m : MethodId) :
    Noted [m] state (note state m) := by
  obtain ⟨waiting, seen⟩ := state
  unfold note
  dsimp only
  by_cases hlt : m < seen.size
  swap
  · have hnone (k : MethodId) : ¬ (k = m ∧ k < seen.size) := fun h => hlt (h.1 ▸ h.2)
    rw [if_pos (by simp [Array.getD, hlt])]
    exact ⟨rfl, by simp [hnone], by simp, rfl⟩
  have hget : seen.getD m true = seen[m] := by simp [Array.getD, hlt]
  have hseen : Seen seen m ↔ seen[m] := by simp [Seen, Array.getD, hlt]
  rw [hget]
  split
  · rename_i hm
    refine ⟨rfl, fun k => ⟨.inl, fun h => h.elim (fun h => h) ?_⟩, by simp, rfl⟩
    rintro ⟨hk, -⟩
    exact mem_singleton.1 hk ▸ hseen.2 hm
  · rename_i hm
    have hset (k : MethodId) : Seen (seen.setIfInBounds m true) k ↔ Seen seen k ∨ k = m := by
      obtain rfl | hne := eq_or_ne m k
      · simp [Seen, Array.getD, hlt]
      · by_cases hk : k < seen.size <;> simp [Seen, Array.getD, hk, hne, hne.symm]
    refine ⟨Array.size_setIfInBounds, fun k => ?_, fun k => ?_, ?_⟩
    · rw [hset, mem_singleton]
      exact or_congr_right ⟨fun h => ⟨h, h ▸ hlt⟩, And.left⟩
    · rw [hset, mem_cons]
      have : k = m → ¬ Seen seen k := fun h => h ▸ mt hseen.1 hm
      tauto
    · have hpos : 0 < seen.toList.count false :=
        count_pos_iff.2 (Bool.of_not_eq_true hm ▸ Array.getElem_mem_toList hlt)
      simp only [unseen, Array.toList_setIfInBounds, length_cons, count_set hlt,
        Array.getElem_toList, Bool.of_not_eq_true hm]
      simp only [beq_self_eq_true, if_true, Bool.true_beq, Bool.false_eq_true, if_false]
      omega

lemma foldl_noted (ms : List MethodId) (state : List MethodId × Array Bool) :
    Noted ms state (ms.foldl note state) := by
  induction ms generalizing state with
  | nil => exact ⟨rfl, by simp, by simp, rfl⟩
  | cons m ms ih =>
    have h := note_noted state m
    have h' := ih (note state m)
    refine ⟨h'.size.trans h.size, fun k => ?_, fun k => ?_, h'.total.trans h.total⟩
    · rw [foldl_cons, h'.seen, h.seen, h.size, mem_singleton, mem_cons]
      tauto
    · have hk := h'.seen k
      rw [foldl_cons, h'.waiting, h.waiting]
      have := (h.seen k).2
      tauto

/-- The search does not run out of steps: each one takes a method that waits, and each method waits
once. -/
lemma trace_spec {P : MethodId → Prop} (hP : ∀ m, P m → ∀ k ∈ callees p m, P k) (n : Nat)
    (hn : waiting.length + unseen seen ≤ n) (hwaiting : ∀ m ∈ waiting, P m)
    (hseen : ∀ m, Seen seen m → P m)
    (hdone : ∀ m, Seen seen m → m ∈ waiting ∨ ∀ k ∈ callees p m, k < seen.size → Seen seen k) :
    ∀ m, (Seen seen m → Seen (trace p n waiting seen) m) ∧ (Seen (trace p n waiting seen) m →
      P m ∧ ∀ k ∈ callees p m, k < seen.size → Seen (trace p n waiting seen) k) := by
  induction n generalizing waiting seen with
  | zero =>
    have hnil : waiting = [] := length_eq_zero_iff.1 (by omega)
    exact fun m => ⟨fun h => h, fun hm => ⟨hseen m hm, (hdone m hm).resolve_left (hnil ▸ not_mem_nil)⟩⟩
  | succ n ih =>
    cases waiting with
    | nil => exact fun m => ⟨fun h => h, fun hm => ⟨hseen m hm, (hdone m hm).resolve_left not_mem_nil⟩⟩
    | cons x waiting =>
      have h := foldl_noted (callees p x) (waiting, seen)
      have hcallees := hP x (hwaiting x (.head _))
      have hold (m : MethodId) (hm : Seen seen m) := (h.seen m).2 (.inl hm)
      have hnew (m : MethodId) (hm : Seen ((callees p x).foldl note (waiting, seen)).2 m) : P m :=
        ((h.seen m).1 hm).elim (hseen m) fun hm => hcallees m hm.1
      rw [length_cons] at hn
      have hrest := ih (Nat.le_trans (Nat.le_of_eq h.total) (by dsimp only; omega)) (fun m hm => ?_) hnew
        fun m hm => ?_
      · rw [trace]
        exact fun m => ⟨fun hm => (hrest m).1 (hold m hm), h.size ▸ (hrest m).2⟩
      · exact ((h.waiting m).1 hm).elim (fun h => hwaiting m (.tail _ h)) fun hm => hnew m hm.1
      · by_cases hm' : Seen seen m
        · rcases hdone m hm' with hmem | hmem
          · rcases mem_cons.1 hmem with rfl | hmem
            · exact .inr fun k hk hlt => (h.seen k).2 (.inr ⟨hk, h.size ▸ hlt⟩)
            · exact .inl ((h.waiting m).2 (.inl hmem))
          · exact .inr fun k hk hlt => hold k (hmem k hk (h.size ▸ hlt))
        · exact .inl ((h.waiting m).2 (.inr ⟨hm, hm'⟩))

/-- What is called is an entry point or called by what is called, and nothing else. -/
lemma called_spec {P : MethodId → Prop} (hp : p.Listed)
    (hentry : ∀ m ∈ p.allLiveMethods, isEntryPoint (p.methodDecl m).name → P m)
    (hP : ∀ m, P m → ∀ k ∈ callees p m, P k) :
    (∀ m ∈ p.allLiveMethods, isEntryPoint (p.methodDecl m).name → Seen (called p) m) ∧
      ∀ m, Seen (called p) m → P m ∧ ∀ k ∈ callees p m, Seen (called p) k := by
  have h := foldl_noted (p.allLiveMethods.filter fun m => isEntryPoint (p.methodDecl m).name)
    ([], Array.replicate p.methods.size false)
  have hnone (m : MethodId) : ¬ Seen (Array.replicate p.methods.size false) m := by
    by_cases hlt : m < p.methods.size <;> simp [Seen, Array.getD, hlt]
  have hseen (m : MethodId) : Seen _ m ↔ _ := (h.seen m).trans (or_iff_right (hnone m))
  have hstart := fun m hm => hentry m (mem_filter.1 ((hseen m).1 hm).1).1 (mem_filter.1 ((hseen m).1 hm).1).2
  have hsize := h.size.trans Array.size_replicate
  have htrace := trace_spec hP p.methods.size (Nat.le_of_eq (h.total.trans (by simp [unseen])))
    (fun m hm => hstart m (((h.waiting m).1 hm).resolve_left not_mem_nil).1) hstart
    fun m hm => .inl ((h.waiting m).2 (.inr ⟨hm, hnone m⟩))
  refine ⟨fun m hm hname => (htrace m).1 ((hseen m).2 ⟨mem_filter.2 ⟨hm, hname⟩, ?_⟩), fun m hm => ?_⟩
  · rw [Array.size_replicate]
    exact hp.lt hm
  · refine ((htrace m).2 hm).imp_right fun hcallees k hk => hcallees k hk ?_
    obtain ⟨_, -, hcall⟩ := mem_filterMap.1 hk
    rw [hsize]
    exact hp.lt (Program.mem_allLiveMethods_of_resolve? hcall).1

/-! ## What live methods ask for -/
def Demands (p : Program) (m : MethodId) (x : Demand) : Prop :=
  m ∈ p.allLiveMethods ∧ ∃ a ∈ (p.body m).code, x ∈ a.demands

def Accesses (p : Program) (m : MethodId) (f : FieldId) : Prop :=
  Demands p m (.read f) ∨ Demands p m (.store f)

def IsClosure (p : Program) (c : ClassId) : Prop :=
  p.isLiveClass c ∧ (p.classDecl c).kind = .closure

lemma Demands.before {q : Program} {cs ms fs} (h : Program.Discards cs ms fs p q) (hp : p.Listed)
    (hx : Demands q m x) : Demands p m x :=
  ⟨((h.mem_allLiveMethods_iff hp).1 hx.1).1, hx.2.imp fun _ => And.imp_left ((h.thins m).code ·)⟩

def IsUsed (p : Program) (m : MethodId) : Prop :=
  isEntryPoint (p.methodDecl m).name ∨
    ∃ k r, Demands p k (.call r) ∧ (p.methodDecl m).name = r.name

/-- What an action asks for, read off its parts. -/
lemma mem_demands_iff (a : Action) : (∀ f, .read f ∈ a.demands ↔ read? a = some f) ∧
    (∀ f, .store f ∈ a.demands ↔ stored? a = some f) ∧
    (∀ n, .new n ∈ a.demands ↔ ∃ args, a.value? = some (.new n args)) ∧
    ∀ r, .call r ∈ a.demands ↔ ∃ x ∈ a.call?, x.method = r := by
  cases a with
  | assign place v =>
    cases place <;> cases v <;>
      simp [Action.demands, Rvalue.demands, read?, stored?, value?, Action.call?, eq_comm]
  | _ => simp [Action.demands, read?, stored?, value?, Action.call?, eq_comm]

lemma mem_callees_iff : k ∈ callees p m ↔
    ∃ a ∈ (p.body m).code, ∃ r, .call r ∈ a.demands ∧ p.resolve? r = some k := by
  simp [callees, Body.calls, Body.code, (mem_demands_iff _).2.2.2, and_assoc]

lemma isMade_iff : isMade p c ↔
    ∃ m, Demands p m (.new (p.className c)) ∧ (p.methodDecl m).owner ≠ c := by
  simp only [isMade, List.any_eq_true, Bool.and_eq_true, decide_eq_true_eq]
  constructor
  · rintro ⟨m, hm, howner, stmt, hstmt, hmade⟩
    split at hmade
    · rename_i hvalue
      rw [beq_iff_eq.1 hmade] at hvalue
      exact ⟨m, ⟨hm, _, List.mem_map_of_mem hstmt, ((mem_demands_iff _).2.2.1 _).2 ⟨_, hvalue⟩⟩, howner⟩
    · cases hmade
  · rintro ⟨m, ⟨hm, a, ha, hnew⟩, howner⟩
    obtain ⟨stmt, hstmt, rfl⟩ := List.mem_map.1 ha
    obtain ⟨args, hargs⟩ := ((mem_demands_iff _).2.2.1 _).1 hnew
    exact ⟨m, hm, howner, stmt, hstmt, by simp [hargs]⟩

/-! ## The four sweeps -/
lemma sweepRounds_thins (rounds : Nat) (b : Body) : b.Thins (sweepRounds rounds b).2 := by
  induction rounds generalizing b with
  | zero => exact .refl b
  | succ rounds ih =>
    rw [sweepRounds]
    dsimp only
    split
    · exact .refl b
    · exact (Body.Thins.filter b (p := fun a => !isIdle b b.useCounts a) fun _ => rfl).trans (ih _)

lemma sweepMethods_discards (ms : List MethodId) (p : Program) :
    Program.Discards [] [] [] p (sweepMethods ms p).2 := by
  induction ms generalizing p with
  | nil => exact .refl p
  | cons m ms ih =>
    exact (Program.setBody_discards (m := m)
      (sweepRounds_thins ((p.body m).stmts.length + 1) (p.body m))).trans (ih _)

lemma not_mem_unreadFields (h : Demands p m (.read f)) : f ∉ unreadFields p := by
  intro hf
  obtain ⟨hm, a, ha, hread⟩ := h
  obtain ⟨stmt, hstmt, rfl⟩ := List.mem_map.1 ha
  obtain ⟨-, hunread⟩ := mem_filter.1 hf
  rw [contains_iff_mem.2 (mem_flatMap.2 ⟨m, hm, mem_filterMap.2 ⟨stmt, hstmt,
    ((mem_demands_iff _).1 f).1 hread⟩⟩)] at hunread
  cases hunread

def storesTo (fields : List FieldId) (a : Action) : Bool :=
  match stored? a with
  | some f => fields.contains f
  | none => false

lemma foldl_dropStores (fields : List FieldId) (ms : List MethodId) (p : Program)
    (hms : ∀ m ∈ ms, m < p.methods.size) :
    Program.Discards [] [] [] p (ms.foldl (dropStores fields) p) ∧ ∀ m ∈ ms,
      ∀ a ∈ ((ms.foldl (dropStores fields) p).body m).code, ∀ f ∈ fields, .store f ∉ a.demands := by
  induction ms generalizing p with
  | nil => exact ⟨.refl p, fun _ h => absurd h not_mem_nil⟩
  | cons m ms ih =>
    have h1 : Program.Discards [] [] [] p (dropStores fields p m) := Program.setBody_discards
      (.filter (p.body m) (p := fun a => !storesTo fields a) fun _ => rfl)
    obtain ⟨h2, hrest⟩ := ih (dropStores fields p m) fun k hk => h1.methods.symm ▸ hms k (.tail _ hk)
    refine ⟨h1.trans h2, fun k hk a ha f hf hstore => ?_⟩
    rcases mem_cons.1 hk with rfl | hk
    · have ha := (h2.thins k).code ha
      rw [show (dropStores fields p k).body k = { p.body k with
        stmts := (p.body k).stmts.filter fun s => !storesTo fields s.action } from
          Program.setBody_body _ _ (hms k (.head _))] at ha
      obtain ⟨stmt, hstmt, rfl⟩ := List.mem_map.1 ha
      have hkept := (mem_filter.1 hstmt).2
      simp [storesTo, ((mem_demands_iff _).2.1 f).1 hstore, hf] at hkept
    · exact hrest k hk a ha f hf hstore

lemma removeClosures_discards (cs : List ClassId) {p : Program} (hp : p.Listed) :
    ∃ gone ⊆ cs, Program.Discards gone (gone.flatMap fun c => (p.classDecl c).methods)
      (gone.flatMap fun c => (p.classDecl c).fields) p (removeClosures cs p).2 ∧
        ∀ c ∈ gone, isMade (removeClosures cs p).2 c = false := by
  induction cs generalizing p with
  | nil => exact ⟨[], Subset.refl _, .refl p, fun _ h => absurd h not_mem_nil⟩
  | cons c cs ih =>
    rw [removeClosures]
    split
    · obtain ⟨gone, hgone, h⟩ := ih hp
      exact ⟨gone, Subset.trans hgone (subset_cons_self _ _), h⟩
    · rename_i hmade
      have h1 := p.removeClass_discards c
      obtain ⟨gone, hgone, h2, hrest⟩ := ih (hp.shrinks h1.toShrinks)
      simp only [h1.members, h1.memberFields] at h2
      have h := h1.trans h2
      refine ⟨c :: gone, cons_subset_cons _ hgone, h, fun k hk => ?_⟩
      rcases mem_cons.1 hk with rfl | hk
      · refine Bool.of_not_eq_true fun hmade' => hmade ?_
        obtain ⟨m, hm, howner⟩ := isMade_iff.1 hmade'
        exact isMade_iff.2 ⟨m, h.className k ▸ hm.before h hp, h.methodOwner m ▸ howner⟩
      · exact hrest k hk

/-! ## A whole sweep -/
/-- These methods, fields and closures are removed, and what is left has no use for them. -/
structure Swept (unused : List MethodId) (unread : List FieldId) (gone : List ClassId)
    (s s' : Specialization) : Prop extends s.Shrinks s' where
  discards : Program.Discards gone (unused ++ gone.flatMap fun c => (s.program.classDecl c).methods)
    (unread ++ gone.flatMap fun c => (s.program.classDecl c).fields) s.program s'.program
  isClosure : ∀ c ∈ gone, IsClosure s.program c
  uncalled : ∀ m r k, Demands s'.program m (.call r) → s.program.resolve? r = some k → k ∉ unused
  notEntry : ∀ m ∈ unused, isEntryPoint (s.program.methodDecl m).name = false
  isUsed : ∀ m ∈ s'.program.allLiveMethods, IsUsed s.program m
  unaccessed : ∀ m f, Accesses s'.program m f → f ∉ unread
  unmade : ∀ m, ∀ c ∈ gone, ¬ Demands s'.program m (.new (s.program.className c))
  references : ∀ key f, s'.refFields.get? key = some f → s.refFields.get? key = some f ∧ f ∉ unread

lemma removeMethods_discards (hp : p.Listed) : ∃ unused,
    Program.Discards [] unused [] p (removeMethods p).2 ∧
      (∀ m ∈ unused, isEntryPoint (p.methodDecl m).name = false) ∧
      ∀ m ∈ p.allLiveMethods, m ∉ unused → (∀ k ∈ callees p m, k ∉ unused) ∧ IsUsed p m := by
  obtain ⟨hentry, hseen⟩ := called_spec (P := fun m => m ∈ p.allLiveMethods ∧ IsUsed p m) hp
    (fun m hm hname => ⟨hm, .inl hname⟩) fun m hm k hk => by
      obtain ⟨a, ha, r, hr, hk⟩ := mem_callees_iff.1 hk
      obtain ⟨hlive, hname⟩ := Program.mem_allLiveMethods_of_resolve? hk
      exact ⟨hlive, .inr ⟨m, r, ⟨hm.1, a, ha, hr⟩, hname⟩⟩
  let unused := p.allLiveMethods.filter fun m => !(called p).getD m false
  have hunused {m : MethodId} (hm : m ∈ p.allLiveMethods) : m ∉ unused ↔ Seen (called p) m := by
    simp [unused, Seen, hm]
  refine ⟨unused, Program.foldl_removeMethod unused p, fun m hm => ?_, fun m hm hnot => ?_⟩
  · have hlive := (mem_filter.1 hm).1
    exact Bool.of_not_eq_true fun hname => (hunused hlive).2 (hentry m hlive hname) hm
  · obtain ⟨⟨-, hm⟩, hcallees⟩ := hseen m ((hunused hm).1 hnot)
    exact ⟨fun k hk => (hunused (hseen k (hcallees k hk)).1.1).2 (hcallees k hk), hm⟩

lemma onProgram_eq (f : Program → Nat × Program) (s : Specialization) :
    onProgram f s = .ok (f s.program).1 { s with program := (f s.program).2 } := rfl

lemma removeFields_eq (s : Specialization) : removeFields s = .ok (unreadFields s.program).length { s with
    program := (unreadFields s.program).foldl Program.removeField
      (s.program.allLiveMethods.foldl (dropStores (unreadFields s.program)) s.program)
    refFields := s.refFields.filter fun _ f => !(unreadFields s.program).contains f } := rfl

lemma reduce_swept (hp : s.program.Listed) :
    ∃ n s' unused unread gone, reduce s = .ok n s' ∧ Swept unused unread gone s s' := by
  obtain ⟨p1, hp1⟩ : ∃ p1, (sweepMethods s.program.allLiveMethods s.program).2 = p1 := ⟨_, rfl⟩
  obtain ⟨p2, hp2⟩ : ∃ p2, (removeMethods p1).2 = p2 := ⟨_, rfl⟩
  obtain ⟨p3, hp3⟩ : ∃ p3, p2.allLiveMethods.foldl (dropStores (unreadFields p2)) p2 = p3 := ⟨_, rfl⟩
  obtain ⟨p4, hp4⟩ : ∃ p4, (unreadFields p2).foldl Program.removeField p3 = p4 := ⟨_, rfl⟩
  have h1 := hp1 ▸ sweepMethods_discards s.program.allLiveMethods s.program
  have hl1 := hp.shrinks h1.toShrinks
  obtain ⟨unused, h2, hentry, hcalled⟩ := removeMethods_discards hl1
  rw [hp2] at h2
  have hl2 := hl1.shrinks h2.toShrinks
  obtain ⟨h3, hstores⟩ := foldl_dropStores (unreadFields p2) p2.allLiveMethods p2 fun _ => hl2.lt
  rw [hp3] at h3 hstores
  have hl3 := hl2.shrinks h3.toShrinks
  have h4 := hp4 ▸ Program.foldl_removeField (unreadFields p2) p3
  have hl4 := hl3.shrinks h4.toShrinks
  obtain ⟨gone, hgone, h5, hmade⟩ := removeClosures_discards
    (p4.liveClasses.filter fun c => (p4.classDecl c).kind = .closure) hl4
  have h14 := h1.trans (h2.trans (h3.trans h4))
  simp only [h14.members, h14.memberFields] at h5
  have h25 := h2.trans (h3.trans (h4.trans h5))
  have h35 := h3.trans (h4.trans h5)
  obtain ⟨n, hrun⟩ : ∃ n, reduce s = .ok n { s with
      program := (removeClosures (p4.liveClasses.filter fun c => (p4.classDecl c).kind = .closure) p4).2
      refFields := s.refFields.filter fun _ f => !(unreadFields p2).contains f } := by
    simp only [reduce, bind, EStateM.bind, onProgram_eq, removeFields_eq, hp1, hp2, hp3, hp4]
    exact ⟨_, rfl⟩
  refine ⟨n, _, unused, unreadFields p2, gone, hrun, ?_⟩
  have h := h1.trans h25
  exact {
    rest := rfl, program := h.toShrinks, discards := h
    isClosure := fun c hc => by
      obtain ⟨hclass, hkind⟩ := mem_filter.1 (hgone hc)
      obtain ⟨hlt, hlive⟩ := mem_filter.1 hclass
      rw [mem_range, h14.classes] at hlt
      exact ⟨((h14.liveClass c hlt).1 hlive).1, h14.kind c ▸ of_decide_eq_true hkind⟩
    uncalled := fun m r k hm hk => by
      obtain ⟨hlive, a, ha, hr⟩ := hm
      obtain ⟨hm1, hnot, -⟩ := (h25.mem_allLiveMethods_iff hl1).1 hlive
      refine (hcalled m hm1 fun hm => hnot (mem_append_left _ hm)).1 k (mem_callees_iff.2
        ⟨a, (h25.thins m).code ha, r, hr, h1.resolve?_eq_some hp hk not_mem_nil not_mem_nil⟩)
    notEntry := fun m hm => h1.methodName m ▸ hentry m hm
    isUsed := fun m hm => by
      obtain ⟨hm1, hnot, -⟩ := (h25.mem_allLiveMethods_iff hl1).1 hm
      have hused := (hcalled m hm1 fun hm => hnot (mem_append_left _ hm)).2
      rw [IsUsed, h1.methodName] at hused
      exact hused.imp_right fun ⟨k, r, hk, hname⟩ => ⟨k, r, hk.before h1 hp, hname⟩
    unaccessed := fun m f hf => by
      rcases hf with hf | ⟨hlive, a, ha, hstore⟩
      · exact not_mem_unreadFields (hf.before h35 hl2)
      · have hm2 := ((h35.mem_allLiveMethods_iff hl2).1 hlive).1
        exact fun hf => hstores m hm2 a (((h4.trans h5).thins m).code ha) f hf hstore
    unmade := fun m c hc hnew => by
      refine Bool.eq_false_iff.1 (hmade c hc) (isMade_iff.2 ⟨m, h.className c ▸ hnew, fun howner => ?_⟩)
      refine ((h5.mem_allLiveMethods_iff hl4).1 hnew.1).2.2 ?_
      rwa [← h5.methodOwner, howner]
    references := fun key f hf => by
      rw [SortedMap.get?_filter] at hf
      obtain ⟨hget, hread⟩ := filter_eq_some_iff.1 hf
      exact ⟨hget, by simpa using hread⟩ }

lemma Swept.fit (h : Swept unused unread gone s s') (hs : s.Fit settled) : s'.Fit settled := by
  have hd := h.discards
  have hgone {m : MethodId} (hm : m < s.program.methods.size) (hc : (s.program.methodDecl m).owner ∈ gone) :
      m ∈ unused ++ gone.flatMap fun c => (s.program.classDecl c).methods :=
    mem_append_right _ (mem_flatMap.2 ⟨_, hc, (hs.layout.methodOwner m hm).2⟩)
  have hclass {c : ClassId} (hc : c < s.program.classes.size) :
      (s'.program.classDecl c).removed ↔ (s.program.classDecl c).removed ∨ c ∈ gone := by
    have := hd.liveClass c hc
    grind [Program.isLiveClass]
  have hmethod {m : MethodId} (hm : m < s.program.methods.size) : (s'.program.methodDecl m).removed ↔
      (s.program.methodDecl m).removed ∨ m ∈ unused ++ gone.flatMap fun c => (s.program.classDecl c).methods := by
    have := hd.liveMethod m hm
    grind [Program.isLiveMethod]
  exact {
    layout := by
      refine ⟨fun c hc m hm => ?_, fun c hc f hf => ?_, fun m hm => ?_, fun f hf => ?_, fun m hm hr => ?_⟩
      · exact Program.Listed.shrinks hs.layout.methods h.program c hc m hm
      · rw [hd.classes] at hc
        rw [hd.memberFields] at hf
        rw [hd.fields, hd.fieldOwner]
        exact hs.layout.fields c hc f hf
      · rw [hd.methods] at hm
        rw [hd.methodOwner, hd.classes, hd.members]
        exact hs.layout.methodOwner m hm
      · rw [hd.fields] at hf
        rw [hd.fieldOwner, hd.classes]
        exact hs.layout.fieldOwner f hf
      · rw [hd.methods] at hm
        rw [hd.methodOwner, hclass (hs.layout.methodOwner m hm).1] at hr
        exact (hmethod hm).2 (hr.imp (hs.layout.removed m hm) (hgone hm))
    bodies := fun m hm hlive => by
      rw [hd.methods] at hm
      rw [hd.methodOwner]
      obtain ⟨hlive, hkept⟩ := (hd.liveMethod m hm).1 hlive
      have hmem := (hd.mem_allLiveMethods_iff hs.layout.methods).2
        ⟨hs.mem_allLiveMethods_iff.2 ⟨hm, hlive⟩, hkept, fun hc => hkept (hgone hm hc)⟩
      have hb := (hd.thins m).fits (hs.bodies m hm hlive)
      refine { hb with demands := fun a ha x hx => h.permits (hb.demands a ha x hx) ?_ ?_ }
      · intro f hf hmention hlive
        have hunread : f ∉ unread := h.unaccessed m f <| by
          rcases hf with rfl | rfl
          · exact .inl ⟨hmem, a, ha, hx⟩
          · exact .inr ⟨hmem, a, ha, hx⟩
        refine (hd.liveField f hmention.lt).2 ⟨hlive, fun hf => ?_⟩
        obtain ⟨c, hc, hf⟩ := mem_flatMap.1 ((mem_append.1 hf).resolve_left hunread)
        by_cases hlt : c < s.program.classes.size
        · have howner := (hs.layout.fields c hlt f hf).2
          rcases hmention.visible with hvisible | hvisible
          · exact hkept (hgone hm (hvisible ▸ howner ▸ hc))
          · rw [ownerKind, howner] at hvisible
            exact hvisible (h.isClosure c hc).2
        · rw [Program.classDecl, Array.getD, dif_neg hlt] at hf
          cases hf
      · rintro c hc rfl hlive
        exact (hd.liveClass c hc).2 ⟨hlive, fun hgone => h.unmade m c hgone ⟨hmem, a, ha, hx⟩⟩
    classNames := fun c hc => by
      rw [hd.classes] at hc
      rw [hd.className]
      exact h.isClassName (hs.classNames c hc)
    methodNames := fun m hm => by
      rw [hd.methods] at hm
      rw [hd.methodOwner, hd.methodName]
      exact h.isMethodName (hs.methodNames m hm)
    removedClasses := fun c hc hr => by
      rw [hd.classes] at hc
      rw [hd.kind]
      exact ((hclass hc).1 hr).elim (hs.removedClasses c hc) fun hc => (h.isClosure c hc).2
    removedMethods := fun m hm hr => by
      rw [hd.methods] at hm
      obtain ⟨howner, hmem⟩ := hs.layout.methodOwner m hm
      rw [hd.methodOwner, hd.methodName, hclass howner]
      rcases (hmethod hm).1 hr with hr | hr
      · exact (hs.removedMethods m hm hr).imp_left .inl
      · refine (mem_append.1 hr).symm.imp (fun hr => .inr ?_) (h.notEntry m)
        obtain ⟨c, hc, hmem⟩ := mem_flatMap.1 hr
        rwa [(hs.layout.methods c (Program.lt_of_mem_methods hmem) m hmem).2]
    bijection := by
      rw [h.rest]
      exact hs.bijection
    registry := fun o k hk => by
      rw [hd.classes, hd.kind, h.rest]
      exact hs.registry o k (h.classOf ▸ hk)
    valueFields := fun v f hf => by
      rw [h.rest] at hf
      rw [hd.fields, h.ownerKind, h.constancy, hd.isFinal]
      exact hs.valueFields v f hf
    expressionFields := fun a f hf => by
      rw [h.rest] at hf
      rw [hd.fields, h.ownerKind]
      exact hs.expressionFields a f hf
    refFields := fun key f hf => by
      rw [hd.fields, IsReference, h.classOf, hd.fieldOwner, h.rest]
      exact hs.refFields key f (h.references key f hf).1
    computeMethods := fun v m hm => by
      rw [h.rest] at hm
      rw [hd.methods, hd.methodName]
      exact hs.computeMethods v m hm
    memo := by
      rw [h.rest]
      exact hs.memo
    names := fun hdistinct => by
      rw [h.rest] at hdistinct
      exact h.named (hs.names ⟨hdistinct.classes, hdistinct.closures, hdistinct.values⟩) }

lemma reduce_ensures (hs : s.Fit settled) : Ensures reduce s fun _ s' =>
    s'.Fit settled ∧ s.Shrinks s' ∧ ∀ c, ¬ s'.program.HasMethod c "execute" := by
  obtain ⟨n, s1, unused, unread, gone, hrun, h⟩ := reduce_swept hs.layout.methods
  intro n' s' hrun'
  cases hrun.symm.trans hrun'
  have hs1 := h.fit hs
  refine ⟨hs1, h.toShrinks, ?_⟩
  rintro c ⟨m, hm, hlive, -, hname⟩
  rw [h.program.methodName] at hname
  rcases h.isUsed m (hs1.mem_allLiveMethods_iff.2 ⟨hm, hlive⟩) with hentry | ⟨k, r, hk, hname'⟩
  · rw [hname] at hentry
    exact absurd hentry (by decide)
  · obtain ⟨hk, a, ha, hr⟩ := hk
    obtain ⟨hlt, hlive⟩ := hs.mem_allLiveMethods hk
    exact ((hs.bodies k hlt hlive).demands a ha _ hr).1 (hname'.symm.trans hname)
end Unused
end DataflowSpecializer
