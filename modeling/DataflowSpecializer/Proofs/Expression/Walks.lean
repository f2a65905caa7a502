import Mathlib.Algebra.Group.Nat.Defs
import DataflowSpecializer.Expression.Infer
import DataflowSpecializer.Proofs.Data

/-! # Going through expressions -/
namespace DataflowSpecializer
namespace Expr
def parts : Expr → List Expr
  | .literal _ | .ident _ | .function _ _ => []
  | .sum first rest => first :: rest.map (·.2)
  | .product first rest => first :: rest.map (·.2)
  | .power a b | .relation _ a b | .shift _ a b => [a, b]
  | .logic _ operands | .bitwise _ operands => operands
  | .unary _ operand => [operand]
  | .cond test yes no => [test, yes, no]
  | .apply callee args => callee :: args
  | .method base _ args => base :: args
  | .member base _ => [base]
  | .array elements => elements
  | .record fields => fields.map (·.2)
  | .matrix rows => rows.flatten

/-- `Q` holds of every subexpression. -/
inductive Everywhere (Q : Expr → Prop) : Expr → Prop
  | intro {e : Expr} : Q e → (∀ d ∈ e.parts, Everywhere Q d) → Everywhere Q e

lemma Everywhere.imp (h : ∀ e, Q e → R e) {e : Expr} (he : e.Everywhere Q) : e.Everywhere R := by
  induction he with
  | intro hq _ ih => exact .intro (h _ hq) ih

/-- A call by name of what no identifier is bound to, or the call of a method: both are looked
up in the table of builtins. -/
def CallsBuiltin (bound : String → Bool) : Expr → Prop
  | .apply (.ident name) _ => bound name = false
  | .method _ _ _ => True
  | _ => False

def IsPower : Expr → Prop
  | .power _ _ => True
  | _ => False

def IsFunction : Expr → Prop
  | .function _ _ => True
  | _ => False

def IsAddressable : Expr → Prop
  | .apply _ args => args.length < 2 ^ 31
  | .array elements => elements.length < 2 ^ 31
  | .record fields => fields.length < 2 ^ 31
  | .matrix rows =>
    rows.length < 2 ^ 31 ∧ (rows.headD []).length < 2 ^ 31 ∧ rows.flatten.length < 2 ^ 31
  | _ => True
end Expr

open List
inductive ChainOp where
  | arith (op : ArithOp)
  | bitwise (op : BitOp)

def ChainOp.apply : ChainOp → Value → Value → Outcome
  | .arith op => Value.arith op
  | .bitwise op => Value.bitwise op

namespace Expr
def chain? : Expr → Option (Expr × List (ChainOp × Expr))
  | .sum first rest => some (first, rest.map fun x => (.arith x.1.toArith, x.2))
  | .product first rest => some (first, rest.map fun x => (.arith x.1.toArith, x.2))
  | .bitwise op (first :: rest) => some (first, rest.map fun e => (.bitwise op, e))
  | _ => none

lemma sizeOf_lt_of_mem_map_snd {α : Type} [SizeOf α] {es : List (α × Expr)} {d : Expr}
    (h : d ∈ es.map (·.2)) : sizeOf d < sizeOf es := by
  obtain ⟨⟨a, e⟩, hmem, rfl⟩ := mem_map.1 h
  have hlt := sizeOf_lt_of_mem hmem
  rw [Prod.mk.sizeOf_spec] at hlt
  show sizeOf e < _
  omega

@[elab_as_elim]
lemma walk {motive : Expr → Prop} (literal : ∀ l, motive (.literal l))
    (ident : ∀ name, motive (.ident name))
    (chain : ∀ e first rest, e.chain? = some (first, rest) → motive first →
      (∀ d ∈ rest.map (·.2), motive d) → motive e) (nothing : ∀ op, motive (.bitwise op []))
    (power : ∀ base exponent, motive base → motive exponent → motive (.power base exponent))
    (relation : ∀ op lhs rhs, motive lhs → motive rhs → motive (.relation op lhs rhs))
    (logic : ∀ op operands, (∀ d ∈ operands, motive d) → motive (.logic op operands))
    (shift : ∀ op lhs rhs, motive lhs → motive rhs → motive (.shift op lhs rhs))
    (unary : ∀ op operand, motive operand → motive (.unary op operand))
    (cond : ∀ test yes no, motive test → motive yes → motive no → motive (.cond test yes no))
    (call : ∀ name args, (∀ d ∈ args, motive d) → motive (.apply (.ident name) args))
    (apply : ∀ callee args, (∀ name, callee ≠ .ident name) → motive callee →
      (∀ d ∈ args, motive d) → motive (.apply callee args))
    (method : ∀ base name args, motive base → (∀ d ∈ args, motive d) →
      motive (.method base name args))
    (member : ∀ base name, motive base → motive (.member base name))
    (array : ∀ elements, (∀ d ∈ elements, motive d) → motive (.array elements))
    (record : ∀ fields, (∀ d ∈ fields.map (·.2), motive d) → motive (.record fields))
    (matrix : ∀ rows, (∀ d ∈ rows.flatten, motive d) → motive (.matrix rows))
    (function : ∀ params body, motive body → motive (.function params body)) (e : Expr) :
    motive e := by
  induction hn : sizeOf e using Nat.strongRecOn generalizing e with
  | ind n ih =>
    subst hn
    have hpart {d : Expr} (h : sizeOf d < sizeOf e) : motive d := ih _ h d rfl
    have hlist {es : List Expr} (h : sizeOf es < sizeOf e) (d : Expr) (hd : d ∈ es) : motive d :=
      hpart ((sizeOf_lt_of_mem hd).trans h)
    have hpairs {α : Type} [SizeOf α] {es : List (α × Expr)} (h : sizeOf es < sizeOf e) (d : Expr)
        (hd : d ∈ es.map (·.2)) : motive d :=
      hpart ((sizeOf_lt_of_mem_map_snd hd).trans h)
    cases e with
    | literal l => exact literal l
    | ident name => exact ident name
    | sum first rest | product first rest =>
      refine chain _ first _ rfl (hpart (by simp +arith)) ?_
      rw [map_map]
      exact hpairs (by simp +arith)
    | power base exponent => exact power base exponent (hpart (by simp +arith)) (hpart (by simp +arith))
    | relation op lhs rhs =>
      exact relation op lhs rhs (hpart (by simp +arith)) (hpart (by simp +arith))
    | logic op operands => exact logic op operands (hlist (by simp +arith))
    | bitwise op operands =>
      cases operands with
      | nil => exact nothing op
      | cons first rest =>
        refine chain _ first _ rfl (hpart (by simp +arith)) ?_
        rw [map_map]
        exact fun d hd => hlist (by simp +arith) d (by simpa using hd)
    | shift op lhs rhs => exact shift op lhs rhs (hpart (by simp +arith)) (hpart (by simp +arith))
    | unary op operand => exact unary op operand (hpart (by simp +arith))
    | cond test yes no =>
      exact cond test yes no (hpart (by simp +arith)) (hpart (by simp +arith)) (hpart (by simp +arith))
    | apply callee args =>
      by_cases hname : ∃ name, callee = .ident name
      · obtain ⟨name, rfl⟩ := hname
        exact call name args (hlist (by simp +arith))
      · exact apply callee args (fun name h => hname ⟨name, h⟩) (hpart (by simp +arith))
          (hlist (by simp +arith))
    | method base name args =>
      exact method base name args (hpart (by simp +arith)) (hlist (by simp +arith))
    | member base name => exact member base name (hpart (by simp +arith))
    | array elements => exact array elements (hlist (by simp +arith))
    | record fields => exact record fields (hpairs (by simp +arith))
    | matrix rows =>
      refine matrix rows fun d hd => ?_
      obtain ⟨row, hrow, hd⟩ := mem_flatten.1 hd
      exact hlist ((sizeOf_lt_of_mem hrow).trans (by simp +arith)) d hd
    | function params body => exact function params body (hpart (by simp +arith))

section Views
variable {run : Evaluator} {scope : Scope} {types : TypeScope}
  {e first : Expr} {rest : List (ChainOp × Expr)} {callee : Expr}

-- The equations of the functions that go through expressions, which all that follows uses.
attribute [local simp] evaluateWith evaluateSum evaluateProduct evaluateBitwise evaluateList
  evaluateRows evaluateFields infer inferSum inferProduct inferList inferRows inferFields freeNames
  freeNamesList freeNamesSum freeNamesProduct freeNamesFields freeNamesRows

lemma parts_of_chain? (h : e.chain? = some (first, rest)) : e.parts = first :: rest.map (·.2) := by
  unfold chain? at h
  split at h <;> cases h <;> simp [parts, Function.comp_def]

@[elab_as_elim]
lemma partsInduction {motive : Expr → Prop} (step : ∀ e, (∀ d ∈ e.parts, motive d) →
      (∀ params body, e = .function params body → motive body) → motive e) (e : Expr) :
    motive e := by
  induction e using walk with
  | chain e first rest hchain hfirst hrest =>
    refine step e ?_ fun params body h => ?_
    · rw [parts_of_chain? hchain]
      exact forall_mem_cons.2 ⟨hfirst, hrest⟩
    · subst h
      cases hchain
  | call name args h =>
    exact step _ (forall_mem_cons.2 ⟨step _ (by simp [parts]) (by simp), h⟩) (by simp)
  | record fields h | matrix rows h => exact step _ h (by simp)
  | _ => exact step _ (by clear step; simp_all [parts]) (by clear step; simp_all)

def evaluateChain (run : Evaluator) (scope : Scope) (acc : Value) :
    List (ChainOp × Expr) → Outcome
  | [] => .ok acc
  | (op, e) :: es => do
    let v ← evaluateWith run scope e
    let acc ← op.apply acc v
    evaluateChain run scope acc es

lemma evaluateSum_eq_chain (acc : Value) (es : List (SumOp × Expr)) : evaluateSum run scope acc es =
      evaluateChain run scope acc (es.map fun x => (.arith x.1.toArith, x.2)) := by
  induction es generalizing acc with
  | nil => rfl
  | cons e es ih => simp [evaluateChain, ih, ChainOp.apply]

lemma evaluateProduct_eq_chain (acc : Value) (es : List (ProductOp × Expr)) :
    evaluateProduct run scope acc es =
      evaluateChain run scope acc (es.map fun x => (.arith x.1.toArith, x.2)) := by
  induction es generalizing acc with
  | nil => rfl
  | cons e es ih => simp [evaluateChain, ih, ChainOp.apply]

lemma evaluateBitwise_eq_chain (op : BitOp) (acc : Value) (es : List Expr) :
    evaluateBitwise run scope op acc es =
      evaluateChain run scope acc (es.map fun e => (.bitwise op, e)) := by
  induction es generalizing acc with
  | nil => rfl
  | cons e es ih => simp [evaluateChain, ih, ChainOp.apply]

lemma evaluateWith_of_chain? (h : e.chain? = some (first, rest)) : evaluateWith run scope e =
      (evaluateWith run scope first >>= fun v => evaluateChain run scope v rest) := by
  unfold chain? at h
  split at h <;> cases h
  · simp only [evaluateWith, evaluateSum_eq_chain]
  · simp only [evaluateWith, evaluateProduct_eq_chain]
  · simp only [evaluateWith, evaluateBitwise_eq_chain]

lemma inferSum_eq_inferList (es : List (SumOp × Expr)) :
    inferSum types es = inferList types (es.map (·.2)) := by
  induction es with
  | nil => rfl
  | cons e es ih => simp [ih]

lemma inferProduct_eq_inferList (es : List (ProductOp × Expr)) :
    inferProduct types es = inferList types (es.map (·.2)) := by
  induction es with
  | nil => rfl
  | cons e es ih => simp [ih]

lemma infer_of_chain? (h : e.chain? = some (first, rest)) : infer types e = (do
      let t ← infer types first
      let ts ← inferList types (rest.map (·.2))
      return .lubAll (t :: ts)) := by
  unfold chain? at h
  split at h <;> cases h
  · simp only [infer, inferSum_eq_inferList, map_map, Function.comp_def]
  · simp only [infer, inferProduct_eq_inferList, map_map, Function.comp_def]
  · simp only [infer, inferList, map_map, Function.comp_def, map_id', bind_assoc, pure_bind]

lemma evaluateWith_apply (h : ∀ name, callee ≠ .ident name) (args : List Expr) :
    evaluateWith run scope (.apply callee args) = (do
      let args ← evaluateList run scope args
      let target ← evaluateWith run scope callee
      applyValue run target args) := by
  cases callee <;> first | rfl | exact absurd rfl (h _)

lemma infer_apply (h : ∀ name, callee ≠ .ident name) (args : List Expr) :
    infer types (.apply callee args) = (do
      let ts ← inferList types args
      let t ← infer types callee
      inferApply t ts.length) := by
  cases callee <;> first | rfl | exact absurd rfl (h _)

lemma evaluateList_eq_mapM (es : List Expr) :
    evaluateList run scope es = es.mapM (evaluateWith run scope) := by
  induction es with
  | nil => rfl
  | cons e es ih => rw [evaluateList, mapM_cons, ih]

lemma evaluateRows_eq_flatten (rows : List (List Expr)) :
    evaluateRows run scope rows = evaluateList run scope rows.flatten := by
  induction rows with
  | nil => rfl
  | cons row rows ih =>
    simp only [evaluateRows, ih, evaluateList_eq_mapM, flatten_cons, mapM_append]

lemma evaluateFields_eq_zip (es : List (String × Expr)) : evaluateFields run scope es =
      (evaluateList run scope (es.map (·.2))).map ((es.map (·.1)).zip ·) := by
  induction es with
  | nil => rfl
  | cons e es ih =>
    simp only [evaluateFields, map_cons, evaluateList, ih]
    cases evaluateWith run scope e.2 <;>
      cases evaluateList run scope (es.map (·.2)) <;> rfl

lemma inferList_eq_mapM (es : List Expr) : inferList types es = es.mapM (infer types) := by
  induction es with
  | nil => rfl
  | cons e es ih => rw [inferList, mapM_cons, ih]

lemma inferRows_eq_flatten (rows : List (List Expr)) :
    inferRows types rows = inferList types rows.flatten := by
  induction rows with
  | nil => rfl
  | cons row rows ih => simp only [inferRows, ih, inferList_eq_mapM, flatten_cons, mapM_append]

lemma inferFields_eq_zip (es : List (String × Expr)) :
    inferFields types es = (inferList types (es.map (·.2))).map ((es.map (·.1)).zip ·) := by
  induction es with
  | nil => rfl
  | cons e es ih =>
    simp only [inferFields, map_cons, inferList, ih]
    cases infer types e.2 <;> cases inferList types (es.map (·.2)) <;> rfl

variable {bound : List String}

lemma freeNamesList_eq_flatMap (es : List Expr) :
    freeNamesList bound es = es.flatMap (freeNames bound) := by
  induction es with
  | nil => rfl
  | cons e es ih => simp [ih]

lemma freeNamesSum_eq_flatMap (es : List (SumOp × Expr)) :
    freeNamesSum bound es = (es.map (·.2)).flatMap (freeNames bound) := by
  induction es with
  | nil => rfl
  | cons e es ih => simp [ih]

lemma freeNamesProduct_eq_flatMap (es : List (ProductOp × Expr)) :
    freeNamesProduct bound es = (es.map (·.2)).flatMap (freeNames bound) := by
  induction es with
  | nil => rfl
  | cons e es ih => simp [ih]

lemma freeNamesFields_eq_flatMap (es : List (String × Expr)) :
    freeNamesFields bound es = (es.map (·.2)).flatMap (freeNames bound) := by
  induction es with
  | nil => rfl
  | cons e es ih => simp [ih]

lemma freeNamesRows_eq_flatMap (rows : List (List Expr)) :
    freeNamesRows bound rows = rows.flatten.flatMap (freeNames bound) := by
  induction rows with
  | nil => rfl
  | cons row rows ih =>
    simp [freeNamesList_eq_flatMap, ih]

lemma freeNames_eq_flatMap (hname : ∀ name, e ≠ .ident name)
    (hfunction : ∀ params body, e ≠ .function params body) :
    freeNames bound e = e.parts.flatMap (freeNames bound) := by
  cases e with
  | ident name => exact absurd rfl (hname name)
  | function params body => exact absurd rfl (hfunction params body)
  | _ => simp [freeNames, parts, freeNamesList_eq_flatMap, freeNamesSum_eq_flatMap,
      freeNamesProduct_eq_flatMap, freeNamesFields_eq_flatMap, freeNamesRows_eq_flatMap]

lemma freeNames_subset_of_mem_parts {d : Expr} (hd : d ∈ e.parts) :
    freeNames bound d ⊆ freeNames bound e := by
  rw [freeNames_eq_flatMap (e := e) (by rintro _ rfl; cases hd) (by rintro _ _ rfl; cases hd)]
  exact fun name h => mem_flatMap.2 ⟨d, hd, h⟩
end Views
end Expr
end DataflowSpecializer
