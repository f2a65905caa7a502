import DataflowSpecializer.Proofs.Model.Equations

/-! # Failures of evaluation

A failure is sorted by the text of its message. So it is taken for the call of an interpreter not
only where such a call failed, but also where the message quotes a text with that word in it.
-/
namespace DataflowSpecializer.Model
open List
variable {m : Model} {v : ObjectId} {f : Fault}

lemma bind_eq_error {α β : Type} {x : Except Fault α} {k : α → Except Fault β}
    (h : (x >>= k) = .error f) : x = .error f ∨ ∃ a, x = .ok a ∧ k a = .error f := by
  cases x with
  | error => exact .inl (by cases h; rfl)
  | ok a => exact .inr ⟨a, rfl, h⟩

end DataflowSpecializer.Model
