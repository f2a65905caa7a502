import DataflowSpecializer.Generate.Expression
import DataflowSpecializer.Proofs.Expression.Walks

/-! # Generation, going through expressions

Code is taken apart at its binds. The code of a chain of operands is the same whatever kind of
chain it is, and the code of rows and of fields is that of lists of expressions.
-/
namespace DataflowSpecializer
open List
namespace Generation
variable {α β : Type} {w w' : Workbench}

lemma bind_eq_ok {x : Generation α} {k : α → Generation β} {b : β} :
    (x >>= k) w = .ok b w' ↔ ∃ a w1, x w = .ok a w1 ∧ k a w1 = .ok b w' := by
  show EStateM.bind x k w = _ ↔ _
  unfold EStateM.bind
  cases x w with
  | ok a w1 =>
    constructor
    · exact fun h => ⟨a, w1, rfl, h⟩
    · rintro ⟨a, w1, h, hk⟩
      cases h
      exact hk
  | error e w1 =>
    constructor
    · intro h; cases h
    · rintro ⟨a, w1, h, -⟩; cases h

lemma pure_eq_ok : (pure a : Generation α) w = .ok b w' ↔ a = b ∧ w = w' := by
  show EStateM.Result.ok a w = _ ↔ _
  simp

lemma drafting_bind (x : Drafting α) (k : α → Generation β) (w : Workbench) :
    ((liftM x : Generation α) >>= k) w = k (x w.draft).1 { w with draft := (x w.draft).2 } := rfl

lemma spec_bind (k : Specialization → Generation β) (w : Workbench) :
    (Generation.spec >>= k) w = k w.spec w := rfl
end Generation

def ChainOp.name : ChainOp → String
  | .arith op => op.name
  | .bitwise op => Draft.bitOpName op

namespace ExprSite
variable {g : ExprSite} {w w' : Workbench}

def generateChain (g : ExprSite) (acc : TypedLocal) : List (ChainOp × Expr) → Generation TypedLocal
  | [] => return acc
  | (op, e) :: rest => do
    let (v, t) ← generate g e
    let l ← Draft.binary op.name acc.1 v
    generateChain g (l, acc.2.lub t) rest

lemma generateSum_eq_chain (acc : TypedLocal) (es : List (SumOp × Expr)) :
    g.generateSum acc es = g.generateChain acc (es.map fun x => (.arith x.1.toArith, x.2)) := by
  induction es generalizing acc with
  | nil => rfl
  | cons e es ih => simp only [generateSum, map_cons, generateChain, ih, ChainOp.name]

lemma generateProduct_eq_chain (acc : TypedLocal) (es : List (ProductOp × Expr)) :
    g.generateProduct acc es = g.generateChain acc (es.map fun x => (.arith x.1.toArith, x.2)) := by
  induction es generalizing acc with
  | nil => rfl
  | cons e es ih => simp only [generateProduct, map_cons, generateChain, ih, ChainOp.name]

lemma generateBitwise_eq_chain (op : BitOp) (acc : TypedLocal) (es : List Expr) :
    g.generateBitwise (Draft.bitOpName op) acc es =
      g.generateChain acc (es.map fun e => (.bitwise op, e)) := by
  induction es generalizing acc with
  | nil => rfl
  | cons e es ih => simp only [generateBitwise, map_cons, generateChain, ih, ChainOp.name]

lemma generate_of_chain? {e : Expr} (h : e.chain? = some (first, rest)) :
    g.generate e = (g.generate first >>= fun acc => g.generateChain acc rest) := by
  unfold Expr.chain? at h
  split at h <;> cases h
  · simp only [generate, generateSum_eq_chain]
  · simp only [generate, generateProduct_eq_chain]
  · simp only [generate, generateBitwise_eq_chain]

lemma generate_apply_of_ne (h : ∀ name, callee ≠ .ident name)
    (args : List Expr) : g.generate (.apply callee args) = (do
      let target ← g.generate callee
      let vs ← g.generateList args
      g.applyValue target vs) := by
  cases callee <;> first | rfl | exact absurd rfl (h _)

lemma generateList_append {es fs : List Expr} {rs us : List TypedLocal}
    {w1 : Workbench} (hrs : g.generateList es w = .ok rs w1)
    (hus : g.generateList fs w1 = .ok us w') :
    g.generateList (es ++ fs) w = .ok (rs ++ us) w' := by
  induction es generalizing w rs with
  | nil =>
    obtain ⟨rfl, rfl⟩ := Generation.pure_eq_ok.1 hrs
    exact hus
  | cons e es ih =>
    simp only [cons_append, generateList, Generation.bind_eq_ok, Generation.pure_eq_ok] at hrs ⊢
    obtain ⟨r, w2, hr, rs', w3, hrs', rfl, rfl⟩ := hrs
    exact ⟨r, w2, hr, rs' ++ us, w', ih hrs', rfl, rfl⟩

lemma generateRows_eq_flatten {cols : Nat} {rows : List (List Expr)}
    {rs : List TypedLocal} (h : g.generateRows cols rows w = .ok rs w') :
    g.generateList rows.flatten w = .ok rs w' := by
  induction rows generalizing w rs with
  | nil => exact h
  | cons row rows ih =>
    rw [generateRows] at h
    split at h
    · cases h
    · simp only [Generation.bind_eq_ok, Generation.pure_eq_ok] at h
      obtain ⟨us, w1, hus, vs, w2, hvs, rfl, rfl⟩ := h
      exact generateList_append hus (ih hvs)

lemma generateFields_eq_zip (es : List (String × Expr)) : g.generateFields es = (do
      let vs ← g.generateList (es.map (·.2))
      return (es.map (·.1)).zip vs) := by
  induction es with
  | nil => rfl
  | cons e es ih =>
    simp only [generateFields, map_cons, generateList, ih, bind_assoc, pure_bind, zip_cons_cons]
end ExprSite
end DataflowSpecializer
