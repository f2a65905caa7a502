import DataflowSpecializer.Proofs.Expression.Intact
import DataflowSpecializer.Proofs.Model.Equations

/-! # Declared types and loaded values

A description declares types by their names, so the labels in declared types are in order, and the
port of a port-parameter only takes values in. Building keeps both (`Model.Regular`).
-/
namespace DataflowSpecializer.Model
open Option

variable {m : Model}

def Kind.Regular : Kind → Prop
  | .port p => (∀ t, p.declared = some t → t.IsCanonical) ∧ (p.output → p.parameter = none)
  | .var v => ∀ t, v.declared = some t → t.IsCanonical
  | _ => True

/-- Declared types and the directions of ports are in order. -/
def Regular (m : Model) : Prop := ∀ o, (m.kind o).Regular

namespace Build
def Keeps {α : Type} (x : Build α) (P : α → Prop) : Prop :=
  ∀ m, m.Regular → Leads x m fun a m' => P a ∧ m'.Regular

namespace Keeps
variable {α β : Type}

lemma bind (hx : Keeps x P) (hk : ∀ a, P a → Keeps (k a) Q) : Keeps (x >>= k) Q :=
  fun m hm => Leads.bind (hx m hm) fun a m' ha => hk a ha.1 m' ha.2

lemma pure (h : P a) : Keeps (pure a) P := fun _ hm => Leads.pure ⟨h, hm⟩

lemma throw : Keeps (throw f) P := fun _ _ => Leads.throw

lemma get : Keeps get fun _ => True := by
  intro m hm a m' h
  cases h
  exact ⟨trivial, hm⟩

lemma discard (hx : Keeps x P) (hR : R ()) : Keeps (discard x) R :=
  fun m hm => Leads.discard (hx m hm) fun _ _ h => ⟨hR, h.2⟩
end Keeps

/-! ## Single steps -/
lemma modifyObject_keeps (hf : ∀ obj : Object, obj.kind.Regular → (f obj).kind.Regular) :
    Keeps (modifyObject o f) fun _ => True := by
  refine fun m hm => Leads.modify ⟨trivial, fun x => ?_⟩
  rw [kind, object_modify]
  split
  · exact hf _ (hm x)
  · exact hm x

lemma regular_push (hm : m.Regular) {b : Object} (hb : b.kind.Regular) :
    Regular { m with objects := m.objects.push b } := by
  intro x
  rw [kind, object_push]
  split
  · exact hb
  · exact hm x

lemma add_keeps {container : Option ObjectId} {name : String} {kind : Kind}
    (hkind : kind.Regular) : Keeps (add container name kind) fun _ => True := by
  intro m hm
  unfold add
  refine .get_bind ?_
  dsimp only
  split
  · exact .throw_bind
  · split
    · intro o m' h
      cases h
      exact ⟨trivial, regular_push hm hkind⟩
    · split
      · exact .throw_bind
      · rename_i c _
        have hpush := regular_push hm (b := ⟨name, m.fullName c ++ "." ++ name, some c, kind,
          [], [], [], [], []⟩) hkind
        refine .bind (R := fun _ m' => m'.Regular) ?_ fun _ m' hm' => ?_
        · intro u m' h
          cases h
          exact hpush
        · refine (modifyObject_keeps (fun obj hobj => ?_)).bind (fun _ _ => .pure trivial) m' hm'
          split <;> exact hobj

lemma readType_keeps (name : Option String) :
    Keeps (readType name) fun d => ∀ t, d = some t → t.IsCanonical := by
  unfold readType
  split
  · exact .pure fun t ht => by cases ht
  · split
    · rename_i t ht
      refine .pure fun u hu => ?_
      cases hu
      exact ValueType.isCanonical_of_ofName? ht
    · exact .throw

lemma addPort_keeps {entity : ObjectId} {name : String} {input output multiport : Bool}
    {declared : Option ValueType} {parameter : Option ObjectId}
    (hdeclared : ∀ t, declared = some t → t.IsCanonical)
    (hparameter : output → parameter = none) :
    Keeps (addPort entity name input output multiport declared parameter) fun _ => True :=
  add_keeps ⟨hdeclared, hparameter⟩

section
variable (c : ObjectId)

include c

lemma addAttribute_keeps (a : Description.Attribute) : Keeps (addAttribute c a) fun _ => True := by
  refine (readType_keeps a.type).bind fun declared hdeclared => ?_
  split
  · exact .discard (add_keeps trivial) trivial
  · exact .discard (add_keeps hdeclared) trivial
  · refine Keeps.bind (add_keeps (by exact hdeclared)) fun o _ => ?_
    refine (addPort_keeps hdeclared (by simp)).bind fun p _ => ?_
    exact modifyObject_keeps fun obj _ => hdeclared

lemma addAttributes_keeps (as : List Description.Attribute) :
    Keeps (addAttributes c as) fun _ => True := by
  induction as with
  | nil => exact .pure trivial
  | cons a as ih => exact (addAttribute_keeps c a).bind fun _ _ => ih

lemma addDirector_keeps (d : Description.Director) : Keeps (addDirector c d) fun _ => True :=
  Keeps.bind (add_keeps (by exact trivial)) fun o _ =>
    (addAttribute_keeps o _).bind fun _ _ => addAttributes_keeps o _

lemma addLibraryPorts_keeps (given : List Description.Port)
    (ds : List PortDecl) : Keeps (addLibraryPorts c given ds) fun _ => True := by
  induction ds with
  | nil => exact .pure trivial
  | cons d ds ih =>
    refine (readType_keeps _).bind fun declared hdeclared => ?_
    exact (Keeps.discard (addPort_keeps hdeclared fun _ => rfl) trivial).bind
      (P := fun _ => True) fun _ _ => ih

lemma addOwnParameters_keeps (as : List Description.Attribute) :
    Keeps (addOwnParameters c as) fun _ => True := by
  induction as with
  | nil => exact .pure trivial
  | cons a as ih =>
    unfold addOwnParameters
    split
    · refine Keeps.bind (P := fun _ => True) (fun m hm => ?_) fun _ _ => ih
      exact .modify ⟨trivial, hm⟩
    · exact (addAttribute_keeps c a).bind fun _ _ => ih

lemma addOwnPorts_keeps (kindName : String) (kind : Option ActorKind)
    (ps : List Description.Port) : Keeps (addOwnPorts c kindName kind ps) fun _ => True := by
  induction ps with
  | nil => exact .pure trivial
  | cons p ps ih =>
    unfold addOwnPorts
    refine Keeps.get.bind fun m _ => ?_
    split
    · exact fun _ _ => Leads.throw_bind
    · refine (readType_keeps _).bind fun declared hdeclared => ?_
      exact (Keeps.discard (addPort_keeps hdeclared fun _ => rfl) trivial).bind
        (P := fun _ => True) fun _ _ => ih
end

lemma addLinks_keeps (c r : ObjectId) (paths : List String) :
    Keeps (addLinks c r paths) fun _ => True := by
  induction paths with
  | nil => exact .pure trivial
  | cons path paths ih =>
    refine Keeps.get.bind fun m _ => ?_
    split
    · exact .throw
    · refine Keeps.bind (modifyObject_keeps ?_) fun _ _ =>
        Keeps.bind (modifyObject_keeps ?_) fun _ _ => ih
      · exact fun _ h => h
      · exact fun _ h => h

lemma addRelations_keeps (c : ObjectId) (rs : List Description.Relation) :
    Keeps (addRelations c rs) fun _ => True := by
  induction rs with
  | nil => exact .pure trivial
  | cons r rs ih =>
    exact Keeps.bind (add_keeps (by exact trivial)) fun o _ => (addLinks_keeps c o _).bind fun _ _ => ih

lemma addParts_keeps (c : ObjectId) (kindName : String) (kind : Option ActorKind)
    (parameters : List Description.Attribute) (ports : List Description.Port)
    (director : Option Description.Director) :
    Keeps (addParts c kindName kind parameters ports director) fun _ => True := by
  refine (addAttributes_keeps c _).bind fun _ _ => (addOwnParameters_keeps c _).bind fun _ _ =>
    (addLibraryPorts_keeps c _ _).bind fun _ _ => (addOwnPorts_keeps c _ _ _).bind fun _ _ => ?_
  split
  · exact addDirector_keeps c _
  · exact .pure trivial

mutual

lemma addEntity_keeps (e : Description.Entity) (container : Option ObjectId) :
    Keeps (addEntity container e) fun _ => True := by
  match e with
  | ⟨name, kindName, parameters, ports, entities, relations, director⟩ =>
    unfold addEntity
    refine (add_keeps ?_).bind fun o _ => (addParts_keeps o _ _ _ _ _).bind fun _ _ =>
      (addEntities_keeps entities o).bind fun _ _ => addRelations_keeps o relations
    split <;> trivial

lemma addEntities_keeps (es : List Description.Entity) (c : ObjectId) :
    Keeps (addEntities c es) fun _ => True := by
  match es with
  | [] => exact .pure trivial
  | e :: es =>
    unfold addEntities
    exact (addEntity_keeps e (some c)).bind fun _ _ => addEntities_keeps es c
end

lemma addModel_keeps (e : Description.Entity) : Keeps (addModel e) fun _ => True := by
  unfold addModel
  split
  · exact fun _ _ => Leads.throw_bind
  · refine (addEntity_keeps e none).bind fun _ _ => Keeps.get.bind fun m _ => ?_
    split
    · exact addDirector_keeps top _
    · exact .pure trivial
end Build

lemma regular_of_build (h : build d = .ok m) : m.Regular := by
  unfold build at h
  split at h
  · rename_i u m' hadd
    cases h
    exact (Build.addModel_keeps d empty (fun _ => trivial) u m hadd).2
  · cases h

lemma SameObjects.regular {m' : Model} (h : m.SameObjects m') (hm : m.Regular) : m'.Regular := by
  intro o
  have hk := h.kind o
  have ho := hm o
  generalize m.kind o = k, m'.kind o = k' at hk ho
  cases hk <;> exact ho

lemma regular_of_ofDescription (h : ofDescription d = .ok m) : m.Regular := by
  obtain ⟨m0, values, k, hm0, -, -, rfl⟩ := ofDescription_eq_ok h
  exact (sameObjects_loaded m0 values k).regular (regular_of_build hm0)

lemma Regular.port (hm : m.Regular) (hq : m.port? p = some q) : (Kind.port q).Regular := by
  have hp := hm p
  unfold port? at hq
  split at hq <;> cases hq
  rename_i hk
  rwa [hk] at hp

lemma Regular.var (hm : m.Regular) (hx : m.var? v = some x) : (Kind.var x).Regular := by
  have hv := hm v
  unfold var? at hx
  split at hx <;> cases hx
  rename_i hk
  rwa [hk] at hv

lemma parse_eq_some {e : Expr} (h : m.parse v = .ok (some e)) : e.Spelled := by
  unfold parse at h
  split at h
  · cases h
  · split at h
    · cases h
    · split at h <;> cases h
      rename_i he
      exact Expr.spelled_of_parse? he

lemma Evaluated.intact (hm : m.Regular) {values : Values}
    (h : m.Evaluated vs values) : ∀ v y, values.get? v = some (some y) → y.Intact := by
  induction h with
  | start =>
    intro v y hy
    cases hy
  | @step vs values v y _ _ _ _ hyields ih =>
    intro w z hz
    rcases SortedMap.get?_insert_eq_some hz with ⟨rfl, rfl⟩ | hz
    · obtain ⟨e, he, hz⟩ := hyields
      have hscope : Scope.Intact (m.valueScope values w) := by
        intro name u hu
        obtain ⟨o, -, hu⟩ := bind_eq_some_iff.1 hu
        obtain ⟨u', hu', rfl⟩ := bind_eq_some_iff.1 hu
        exact ih o u hu'
      unfold evaluateExpr at hz
      split at hz
      · cases hz
      · rename_i u hu
        have hu := Expr.evaluateUpTo_intact _ _ _ _ hscope (parse_eq_some he) hu
        split at hz
        · cases hz
          exact hu
        · rename_i t ht
          obtain ⟨x, hx, ht⟩ := bind_eq_some_iff.1 ht
          split at hz <;> cases hz
          rename_i hconvert
          exact (hu.convert (hm.var hx t ht) hconvert).1
    · exact ih w z hz
end DataflowSpecializer.Model
