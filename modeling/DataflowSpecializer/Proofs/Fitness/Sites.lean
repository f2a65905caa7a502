import DataflowSpecializer.Proofs.Fitness.Generation

/-! # Sites stay behind the ids to come -/
namespace DataflowSpecializer
open Platform Draft DataflowSpecializer.Specialization

namespace Specialization
variable {s s' s'' : Specialization} {c k : ClassId} {names : List String} {id : StmtId}

structure Past (s : Specialization) (c : ClassId) (id : StmtId) : Prop where
  lt : c < s.program.classes.size
  below : ∀ m ∈ (s.program.classDecl c).methods, (s.program.methodDecl m).name = "<init>" →
    id < (s.program.body m).nextStmt

def Sited (s : Specialization) : Prop :=
  ∀ key site, s.sites.get? key = some site → s.Past key.1 site.stmt

lemma Past.later (hid : s.Past k id) (h : s.Extends s') (layout : s.program.Layout)
    (hnext : s.program.Continues s'.program)
    (hold : ∀ m ∈ (s'.program.classDecl k).methods, (s'.program.methodDecl m).name = "<init>" →
      m ∈ (s.program.classDecl k).methods) : s'.Past k id where
  lt := hid.lt.trans_le h.program.classes
  below m hm hname := by
    have hm := hold m hm hname
    have hlt := (layout.methods k hid.lt m hm).1
    rw [h.program.methodName hlt] at hname
    exact (hid.below m hm hname).trans_le (hnext m hlt)

lemma Populates.past (h : Populates c names s s') (layout : s.program.Layout)
    (hk : k ≠ c ∨ "<init>" ∉ names) (hid : s.Past k id) : s'.Past k id := by
  refine hid.later h.toExtends layout h.nextStmt fun m hm hname => ?_
  by_cases hkc : k = c
  · subst hkc
    rcases h.own m hm with hm | hm
    · exact hm
    · exact absurd (hname ▸ hm) (hk.resolve_left fun h => h rfl)
  · exact h.others k hid.lt hkc ▸ hm

structure Advances (s s' : Specialization) : Prop extends s.Extends s' where
  sited : s.Sited → s'.Sited

lemma Advances.refl (s : Specialization) : s.Advances s := ⟨.refl s, fun h => h⟩

lemma Advances.trans (h : s.Advances s') (h' : s'.Advances s'') : s.Advances s'' :=
  ⟨h.toExtends.trans h'.toExtends, fun hs => h'.sited (h.sited hs)⟩

lemma Adds.advances (h : Adds c names s s') (layout : s.program.Layout)
    (hnames : "<init>" ∉ names) : s.Advances s' :=
  ⟨h.toExtends, fun hs key site hsite =>
    h.past layout (.inr hnames) (hs key site (h.sites ▸ hsite))⟩

lemma Spawns.advances (h : s.Spawns s') (layout : s.program.Layout) : s.Advances s' :=
  ⟨h.toExtends, fun hs key site hsite =>
    have hid := hs key site (h.sites ▸ hsite)
    hid.later h.toExtends layout h.nextStmt fun _ hm _ => h.members _ hid.lt ▸ hm⟩

lemma Extends.advances (h : s.Extends s') (layout : s.program.Layout)
    (hp : Program.NewField s.program s'.program c) (hsites : s'.sites = s.sites) : s.Advances s' :=
  ⟨h, fun hs key site hsite => (hs key site (hsites ▸ hsite)).later h layout hp.continues
    fun _ hm _ => hp.sameMembers key.1 ▸ hm⟩
end Specialization

/-! ## Statements that are noted -/
def Draft.Continues {α : Type} (x : Drafting α) : Prop := ∀ d, d.pending.size ≤ (x d).2.pending.size

namespace Draft.Continues
variable {α β : Type} {x : Drafting α} {k : α → Drafting β}

lemma bind (hx : Continues x) (hk : ∀ a, Continues (k a)) : Continues (x >>= k) :=
  fun d => (hx d).trans (hk _ _)

lemma pure : Continues (Pure.pure a : Drafting α) := fun _ => .refl

lemma emit (a : Action) : Continues (Draft.emit a) := fun d => by
  show _ ≤ (d.pending.push a).size
  rw [Array.size_push]
  exact Nat.le_succ _

lemma value (name : String) (type : CodeType) (v : Rvalue) : Continues (Draft.value name type v) :=
  bind (fun _ => .refl) fun _ => bind (emit _) fun _ => pure

lemma invoke? (i : Invocation) : Continues (Draft.invoke? i) := by
  unfold Draft.invoke?
  split
  · exact bind (emit _) fun _ => pure
  · exact bind (value _ _ _) fun _ => pure

lemma callValue (base : LocalId) (m : MethodRef) (args : List Operand) :
    Continues (Draft.callValue base m args) := by
  refine bind (invoke? _) fun r => ?_
  cases r with
  | none => exact value _ _ _
  | some l => exact pure

lemma call (base : LocalId) (m : MethodRef) (args : List Operand) :
    Continues (Draft.call base m args) := invoke? _
end Draft.Continues

namespace Classes
variable {s : Specialization} {this : LocalId} {p : Placed} {o : ObjectId} {d : Draft}

def Placed.Within (p : Placed) (d : Draft) : Prop := ∀ x ∈ p.sites, x.2.1 ≤ d.pending.size

def Notes {α : Type} (x : Drafting α) (p : Placed) (f : α → Placed) : Prop :=
  ∀ d, p.Within d → (f (x d).1).Within (x d).2

namespace Notes
variable {α β : Type} {x : Drafting α} {k : α → Drafting β} {f : α → Placed} {g : β → Placed}

lemma bind (hx : Notes x p f) (hk : ∀ a, Notes (k a) (f a) g) : Notes (x >>= k) p g :=
  fun d hp => hk _ _ (hx d hp)

lemma then_ (hx : Continues x) (hk : ∀ a, Notes (k a) p g) : Notes (x >>= k) p g :=
  fun d hp => hk _ _ fun y hy => (hp y hy).trans (hx d)

lemma pure (h : f a = p) : Notes (Pure.pure a) p f := fun _ hp => h ▸ hp

lemma note (l : LocalId) (back : Nat) (created : Bool) : Notes (p.note o l back created) p id := by
  intro d hp y hy
  rcases List.mem_append.1 hy with hy | hy
  · exact hp y hy
  · obtain rfl := List.mem_singleton.1 hy
    exact Nat.sub_le _ _

lemma create {className : String} : Notes (Classes.create m this p o className extra) p Prod.snd :=
  then_ (.value _ _ _) fun l => (note l 1 true).bind fun _ => pure rfl

lemma createAttribute : Notes (Classes.createAttribute s this p o) p id := by
  unfold Classes.createAttribute
  split
  · refine create.bind fun r => ?_
    dsimp only
    split
    · refine then_ (.call _ _ _) fun _ => ?_
      split
      · exact then_ (.callValue _ _ _) fun q => note q 1 true
      · exact pure rfl
    · split
      · exact then_ (.callValue _ _ _) fun q => note q 1 true
      · exact pure rfl
  · exact create.bind fun _ => then_ (.call _ _ _) fun _ => pure rfl
  · exact create.bind fun _ => pure rfl
  · exact pure rfl

lemma createPort : Notes (Classes.createPort s this p o) p id := by
  unfold Classes.createPort
  split
  · exact pure rfl
  · split
    · exact pure rfl
    · refine create.bind fun r => ?_
      dsimp only
      split
      · exact then_ (.call _ _ _) fun _ => pure rfl
      · exact pure rfl

lemma createEntity : Notes (Classes.createEntity s this p o) p id := create.bind fun _ => pure rfl

lemma createRelation : Notes (Classes.createRelation s this p o) p id :=
  create.bind fun _ => pure rfl

lemma createAll
    (hstep : ∀ {p : Placed} {o : ObjectId}, Notes (step p o) p id) (os : List ObjectId) :
    Notes (Classes.createAll step p os) p id := by
  induction os generalizing p with
  | nil => exact pure rfl
  | cons o os ih => exact hstep.bind fun p1 => ih
end Notes

def NotesCode {α : Type} (x : Generation α) (Q : α → Draft → Prop) (d : Draft) : Prop :=
  ∀ s, Ensures x ⟨s, d⟩ fun a w => Q a w.draft

namespace NotesCode
variable {α β : Type} {x : Generation α} {k : α → Generation β} {Q : α → Draft → Prop}
  {R : β → Draft → Prop}

lemma bind (hx : NotesCode x Q d) (hk : ∀ a d', Q a d' → NotesCode (k a) R d') :
    NotesCode (x >>= k) R d :=
  fun s => (hx s).bind fun a w h => hk a w.draft h w.spec

lemma pure (h : Q a d) : NotesCode (Pure.pure a) Q d := fun _ => .pure h
lemma throw : NotesCode (throw f : Generation α) Q d := fun _ => .throw

lemma draft {x : Drafting α} (h : Q (x d).1 (x d).2) : NotesCode (liftM x) Q d := by
  intro s a w hw
  cases hw
  exact h

lemma linkPorts {relation : ObjectId} (ports : List ObjectId)
    (hp : p.Within d) : NotesCode (Classes.linkPorts m relation l p ports) Placed.Within d := by
  induction ports generalizing p d with
  | nil => exact pure hp
  | cons port ports ih =>
    have hlinked : NotesCode (linkedPort m relation p port) (fun r => r.2.Within) d := by
      unfold linkedPort
      split
      · exact pure hp
      · split
        · exact throw
        · refine bind (draft (Q := fun _ => p.Within) ?_) fun l d1 hp1 =>
            bind (draft (Notes.note l 2 false d1 hp1)) fun _ _ hp2 => pure hp2
          exact fun y hy => Nat.le_trans (hp y hy)
            ((Continues.callValue _ _ _).bind (fun _ => .value _ _ _) d)
    exact hlinked.bind fun r d1 hp1 => bind (draft (Q := fun _ => r.2.Within)
      fun y hy => (hp1 y hy).trans (Continues.call _ _ _ d1)) fun _ _ hp2 => ih hp2

lemma linkRelations (relations : List ObjectId) (hp : p.Within d) :
    NotesCode (Classes.linkRelations m p relations) Placed.Within d := by
  induction relations generalizing p d with
  | nil => exact pure hp
  | cons r relations ih => exact (linkPorts _ hp).bind fun _ _ hp1 => ih hp1

lemma constructor {o : ObjectId} {superclass : String} :
    NotesCode (Classes.constructor s o superclass)
      (fun p d => ∀ x ∈ p.sites, x.2.1 < d.pending.size) d := by
  have hcontents {this : LocalId} {d : Draft} : NotesCode (do
      let p ← createAll (createAttribute s this) .empty (s.model.object o).attributes
      let p ← createAll (createPort s this) p (s.model.object o).ports
      let p ← createAll (createEntity s this) p (s.model.object o).entities
      let p ← createAll (createRelation s this) p (s.model.object o).relations
      let p ← Classes.linkRelations s.model p (s.model.object o).relations
      Draft.ret none
      return p) (fun p d => ∀ x ∈ p.sites, x.2.1 < d.pending.size) d :=
    bind (draft (Notes.createAll Notes.createAttribute _ d fun _ h => (by cases h))) fun _ d1 h1 =>
      bind (draft (Notes.createAll Notes.createPort _ d1 h1)) fun _ d2 h2 =>
        bind (draft (Notes.createAll Notes.createEntity _ d2 h2)) fun _ d3 h3 =>
          bind (draft (Notes.createAll Notes.createRelation _ d3 h3)) fun _ d4 h4 =>
            (linkRelations _ h4).bind fun p d5 h5 =>
              bind (draft (Q := fun _ d => ∀ x ∈ p.sites, x.2.1 < d.pending.size) fun x hx => by
                show _ < (d5.pending.push _).size
                rw [Array.size_push]
                exact Nat.lt_succ_of_le (h5 x hx)) fun _ _ h6 => pure h6
  have hany {α : Type} {x : Generation α} {d : Draft} : NotesCode x (fun _ _ => True) d :=
    fun _ _ _ _ => trivial
  refine bind hany fun this _ _ => ?_
  split
  · exact bind hany fun _ _ _ => bind hany fun _ _ _ => hcontents
  · exact bind hany fun _ _ _ => bind hany fun _ _ _ => bind hany fun _ _ _ => hcontents
end NotesCode
end Classes
end DataflowSpecializer
