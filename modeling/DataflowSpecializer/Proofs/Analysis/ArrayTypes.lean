import DataflowSpecializer.Analysis.ValueTypes
import DataflowSpecializer.Proofs.Expression.Printing
import DataflowSpecializer.Proofs.Generate.Walks

/-! # Types of arrays in generated code -/
namespace DataflowSpecializer.Draft
open List Option Platform ValueType
/-- The last action makes an array whose elements have the given type. -/
def EndsInArray (d : Draft) (l : LocalId) (element : ValueType) : Prop :=
  ∃ a, d.actions.getLast? = some (.set l (.new arrayToken [.string element.render, .loc a]))

lemma newObject_endsInArray (name : String) (element : ValueType) (a : LocalId) (d : Draft) :
    let r := newObject name arrayToken [.string element.render, .loc a] d
    r.2.EndsInArray r.1 element :=
  ⟨a, by
    show (d.pending.push _).toList.getLast? = _
    rw [Array.toList_push, getLast?_concat]
    rfl⟩

/-- Whoever writes an array, in the code of an expression or of a constant, the analysis of types
finds the type that it was written with, or none. -/
theorem arrays_keep_types :
    (∀ t : ValueType, ofName? t.render = if t.isNamed then some t else none) ∧
    (∀ (g : ExprSite) elements w l t w',
      g.generate (.array elements) w = .ok (l, t) w' →
        ∃ element, t = .array element ∧ w'.draft.EndsInArray l element) ∧
    (∀ element values d l d', boxed (.array element values) d = (.ok l, d') →
      d'.EndsInArray l element) ∧
    ∀ (d : Draft) l element, d.EndsInArray l element → ∃ a ∈ d.actions.getLast?,
      ∀ (c : TypeContext) x, (c.transfer a x).local_ l =
        if element.isNamed then .array element else .unknown := by
  refine ⟨ofName?_render, fun g elements w l t w' h => ?_, fun element values d l d' h => ?_,
    fun d l element h => ?_⟩
  · simp only [ExprSite.generate, Generation.bind_eq_ok, Generation.drafting_bind,
      Generation.pure_eq_ok, Prod.mk.injEq] at h
    obtain ⟨rs, w1, -, ⟨rfl, rfl⟩, rfl⟩ := h
    exact ⟨_, rfl, newObject_endsInArray ..⟩
  · simp only [boxed, bind, StateT.bind] at h
    generalize boxedList values d = r at h
    obtain ⟨_ | items, d1⟩ := r
    · cases h
    · cases h
      exact newObject_endsInArray ..
  · obtain ⟨a, h⟩ := h
    refine ⟨_, h, fun c x => ?_⟩
    rw [TypeFact.local_, Action.set, TypeContext.transfer, SortedMap.get?_insert_self]
    show ((ofName? element.render).map ValueType.array).getD .unknown = _
    rw [ofName?_render]
    split <;> rfl

theorem arrays_keep_types_nested :
    let t := ValueType.array (.record [("array<int>", .int)])
    let d := (boxed (.array t []) (.ofBody .empty)).2
    t.isNamed = false ∧ d.EndsInArray 1 t ∧
      ∃ a ∈ d.actions.getLast?, ∀ (c : TypeContext) x, (c.transfer a x).local_ 1 = .unknown :=
  have h := arrays_keep_types.2.2.1 (.array (.record [("array<int>", .int)])) [] (.ofBody .empty) 1 _ rfl
  ⟨rfl, h, arrays_keep_types.2.2.2 _ 1 _ h⟩
end DataflowSpecializer.Draft
