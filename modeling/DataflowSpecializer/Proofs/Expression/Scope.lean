import DataflowSpecializer.Proofs.Expression.Walks

/-! # What an expression reads

The value of an expression depends on its scope through its free identifiers only: scopes that
agree on them give the same value, or the same error.
-/
namespace DataflowSpecializer.Expr
open List
lemma mem_freeIdentifiers {e : Expr} : name ∈ e.freeIdentifiers ↔ name ∈ freeNames [] e := by
  rw [freeIdentifiers, SortedMap.mem_keys_ofList, map_map]
  simp

section Agree
variable {β : Type}

def Agree (s s' : String → Option β) (names : List String) : Prop := ∀ name ∈ names, s name = s' name

lemma agree_append : Agree s s' (names ++ names') ↔ Agree s s' names ∧ Agree s s' names' :=
  forall_mem_append

lemma Agree.parts {e : Expr} (h : Agree s s' (freeNames [] e)) :
    ∀ d ∈ e.parts, Agree s s' (freeNames [] d) :=
  fun _ hd name hname => h name (freeNames_subset_of_mem_parts hd hname)

lemma Agree.chain {e : Expr} {rest : List (ChainOp × Expr)}
    (h : Agree s s' (freeNames [] e)) (hchain : e.chain? = some (first, rest)) :
    Agree s s' (freeNames [] first) ∧ ∀ d ∈ rest.map (·.2), Agree s s' (freeNames [] d) := by
  have hparts := h.parts
  rw [parts_of_chain? hchain] at hparts
  exact forall_mem_cons.1 hparts
end Agree

variable {es : List Expr}

lemma capture_congr (h : Agree s s' (freeNames [] e)) : capture s e = capture s' e := by
  refine filterMap_congr fun name hname => ?_
  rw [h name (mem_freeIdentifiers.1 hname)]

lemma evaluateList_congr (h : ∀ d ∈ es, evaluateWith run s d = evaluateWith run s' d) :
    evaluateList run s es = evaluateList run s' es := by
  induction es with
  | nil => rw [evaluateList, evaluateList]
  | cons e es ih =>
    obtain ⟨he, hes⟩ := forall_mem_cons.1 h
    rw [evaluateList, evaluateList, he, ih hes]

lemma evaluateChain_congr {es : List (ChainOp × Expr)}
    (h : ∀ d ∈ es.map (·.2), evaluateWith run s d = evaluateWith run s' d) (acc : Value) :
    evaluateChain run s acc es = evaluateChain run s' acc es := by
  induction es generalizing acc with
  | nil => rw [evaluateChain, evaluateChain]
  | cons x es ih =>
    obtain ⟨hx, hes⟩ := forall_mem_cons.1 h
    rw [evaluateChain, evaluateChain, hx]
    exact bind_congr fun v => bind_congr fun acc => ih hes acc

lemma evaluateLogic_congr
    (h : ∀ d ∈ es, evaluateWith run s d = evaluateWith run s' d) (decisive : Bool) :
    evaluateLogic run s decisive es = evaluateLogic run s' decisive es := by
  induction es with
  | nil => rw [evaluateLogic, evaluateLogic]
  | cons e es ih =>
    obtain ⟨he, hes⟩ := forall_mem_cons.1 h
    rw [evaluateLogic, evaluateLogic, he, ih hes]

lemma evaluateWith_congr (e : Expr) (h : Agree s s' (freeNames [] e)) :
    evaluateWith run s e = evaluateWith run s' e := by
  induction e using walk with
  | literal _ | nothing _ => rw [evaluateWith, evaluateWith]
  | ident name => rw [evaluateWith, evaluateWith, h name (by simp [freeNames])]
  | chain e first rest hchain ihfirst ihrest =>
    obtain ⟨hfirst, hrest⟩ := h.chain hchain
    rw [evaluateWith_of_chain? hchain, evaluateWith_of_chain? hchain, ihfirst hfirst]
    exact bind_congr fun v => evaluateChain_congr (fun d hd => ihrest d hd (hrest d hd)) v
  | power lhs rhs ihlhs ihrhs | relation op lhs rhs ihlhs ihrhs | shift op lhs rhs ihlhs ihrhs =>
    obtain ⟨hlhs, hrhs⟩ := agree_append.1 h
    rw [evaluateWith, evaluateWith, ihlhs hlhs, ihrhs hrhs]
  | logic op operands ih =>
    rw [evaluateWith, evaluateWith, evaluateLogic_congr fun d hd => ih d hd (h.parts d hd)]
  | unary _ _ ih | member _ _ ih => rw [evaluateWith, evaluateWith, ih h]
  | cond test yes no ihtest ihyes ihno =>
    obtain ⟨htest, h⟩ := agree_append.1 h
    obtain ⟨hyes, hno⟩ := agree_append.1 h
    rw [evaluateWith, evaluateWith, ihtest htest, ihyes hyes, ihno hno]
  | call name args ih =>
    obtain ⟨hname, hargs⟩ := forall_mem_cons.1 h.parts
    simp only [evaluateWith, hname name (by simp [freeNames]),
      evaluateList_congr fun d hd => ih d hd (hargs d hd)]
  | apply callee args hne ihcallee ih =>
    obtain ⟨hcallee, hargs⟩ := forall_mem_cons.1 h.parts
    rw [evaluateWith_apply hne, evaluateWith_apply hne, ihcallee hcallee,
      evaluateList_congr fun d hd => ih d hd (hargs d hd)]
  | method base name args ihbase ih =>
    obtain ⟨hbase, hargs⟩ := forall_mem_cons.1 h.parts
    rw [evaluateWith, evaluateWith, ihbase hbase,
      evaluateList_congr fun d hd => ih d hd (hargs d hd)]
  | array elements ih =>
    rw [evaluateWith, evaluateWith, evaluateList_congr fun d hd => ih d hd (h.parts d hd)]
  | record fields ih =>
    rw [evaluateWith, evaluateWith, evaluateFields_eq_zip, evaluateFields_eq_zip,
      evaluateList_congr fun d hd => ih d hd (h.parts d hd)]
  | matrix rows ih =>
    rw [evaluateWith, evaluateWith, evaluateRows_eq_flatten, evaluateRows_eq_flatten,
      evaluateList_congr fun d hd => ih d hd (h.parts d hd)]
  | function params body _ => rw [evaluateWith, evaluateWith, capture_congr h]

lemma evaluate_congr {e : Expr} (h : ∀ name ∈ e.freeIdentifiers, s name = s' name) :
    e.evaluate s = e.evaluate s' :=
  evaluateWith_congr e fun name hname => h name (mem_freeIdentifiers.2 hname)
end DataflowSpecializer.Expr
