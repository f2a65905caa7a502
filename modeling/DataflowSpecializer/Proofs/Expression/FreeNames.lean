import DataflowSpecializer.Proofs.Expression.Scope

/-! # What an expression depends on

Names that a function literal binds are not free in it: what is free under binders is what is free
without them, less what they bind (`freeNames_eq_filter`).
-/
namespace DataflowSpecializer.Expr
open List Option

variable {params : Params} {name : String} {body : Expr} {args : List Value} {t t' : TypeScope}

lemma freeNames_eq_filter (bound : List String) (e : Expr) :
    freeNames bound e = (freeNames [] e).filter (!bound.contains ·) := by
  induction e using partsInduction generalizing bound with
  | step e hparts hbody =>
    by_cases hname : ∃ name, e = .ident name
    · obtain ⟨name, rfl⟩ := hname
      rw [freeNames, freeNames, contains_nil, if_neg Bool.false_ne_true, filter_singleton]
      by_cases h : bound.contains name
      · rw [if_pos h, h, Bool.not_true, cond_false]
      · rw [if_neg h, eq_false_of_ne_true h, Bool.not_false, cond_true]
    by_cases hfunction : ∃ params body, e = .function params body
    · -- The parameters hide names from the body whatever is bound outside.
      obtain ⟨params, body, rfl⟩ := hfunction
      have hbody := hbody params body rfl
      rw [freeNames, freeNames, hbody (params.map (·.1) ++ bound), hbody (params.map (·.1) ++ []),
        List.filter_filter]
      refine filter_congr fun name _ => ?_
      rw [contains_append, append_nil, Bool.not_or, Bool.and_comm]
    · have heq (bound : List String) :=
        @freeNames_eq_flatMap e bound (fun name h => hname ⟨name, h⟩)
          fun params body h => hfunction ⟨params, body, h⟩
      rw [heq bound, heq [], filter_flatMap]
      exact flatMap_congr fun d hd => hparts d hd bound

lemma mem_freeNames_function : name ∈ freeNames [] (.function params body) ↔
      name ∈ freeNames [] body ∧ name ∉ params.map (·.1) := by
  rw [freeNames, freeNames_eq_filter]
  simp

lemma lookup_reverse_isSome {β : Type} {bindings : List (String × β)}
    (h : name ∈ bindings.map (·.1)) : (bindings.reverse.lookup name).isSome := by
  obtain ⟨binding, hmem, rfl⟩ := List.mem_map.1 h
  rw [lookup_isSome_iff]
  exact ⟨binding, mem_reverse.2 hmem, beq_self_eq_true _⟩

lemma bind_congr_of_agree {β : Type} {bindings : List (String × β)} {s s' : String → Option β}
    (hparams : bindings.map (·.1) = params.map (·.1))
    (h : ∀ name ∈ freeNames [] (.function params body), s name = s' name)
    (hname : name ∈ freeNames [] body) :
    (bindings.reverse.lookup name).or (s name) = (bindings.reverse.lookup name).or (s' name) := by
  by_cases hbound : name ∈ bindings.map (·.1)
  · obtain ⟨x, hx⟩ := isSome_iff_exists.1 (lookup_reverse_isSome hbound)
    rw [hx, some_or, some_or]
  · rw [h name (mem_freeNames_function.2 ⟨hname, hparams ▸ hbound⟩)]

lemma inferList_congr
    (h : ∀ d ∈ es, infer t d = infer t' d) : inferList t es = inferList t' es := by
  induction es with
  | nil => rw [inferList, inferList]
  | cons e es ih =>
    obtain ⟨he, hes⟩ := forall_mem_cons.1 h
    rw [inferList, inferList, he, ih hes]

lemma infer_congr (e : Expr) (h : Agree t t' (freeNames [] e)) : infer t e = infer t' e := by
  induction e using walk generalizing t t' with
  | literal l => rw [infer, infer]
  | ident name => rw [infer, infer, h name (by simp [freeNames])]
  | chain e first rest hchain ihfirst ihrest =>
    obtain ⟨hfirst, hrest⟩ := h.chain hchain
    rw [infer_of_chain? hchain, infer_of_chain? hchain, ihfirst hfirst,
      inferList_congr fun d hd => ihrest d hd (hrest d hd)]
  | nothing op => rw [infer, infer, inferList, inferList]
  | power lhs rhs ihlhs ihrhs | relation op lhs rhs ihlhs ihrhs | shift op lhs rhs ihlhs ihrhs =>
    obtain ⟨hlhs, hrhs⟩ := agree_append.1 h
    rw [infer, infer, ihlhs hlhs, ihrhs hrhs]
  | logic op operands ih => rw [infer, infer, inferList_congr fun d hd => ih d hd (h.parts d hd)]
  | unary _ _ ih | member _ _ ih => rw [infer, infer, ih h]
  | cond test yes no ihtest ihyes ihno =>
    obtain ⟨htest, h⟩ := agree_append.1 h
    obtain ⟨hyes, hno⟩ := agree_append.1 h
    rw [infer, infer, ihtest htest, ihyes hyes, ihno hno]
  | call name args ih =>
    -- Whether the name is a builtin's or the scope's is the same in both scopes.
    obtain ⟨hname, hargs⟩ := forall_mem_cons.1 h.parts
    simp only [infer, hname name (by simp [freeNames]),
      inferList_congr fun d hd => ih d hd (hargs d hd)]
  | apply callee args hne ihcallee ih =>
    obtain ⟨hcallee, hargs⟩ := forall_mem_cons.1 h.parts
    rw [infer_apply hne, infer_apply hne, ihcallee hcallee,
      inferList_congr fun d hd => ih d hd (hargs d hd)]
  | method base name args ihbase ih =>
    obtain ⟨hbase, hargs⟩ := forall_mem_cons.1 h.parts
    rw [infer, infer, ihbase hbase, inferList_congr fun d hd => ih d hd (hargs d hd)]
  | array elements ih => rw [infer, infer, inferList_congr fun d hd => ih d hd (h.parts d hd)]
  | record fields ih =>
    rw [infer, infer, inferFields_eq_zip, inferFields_eq_zip,
      inferList_congr fun d hd => ih d hd (h.parts d hd)]
  | matrix rows ih =>
    rw [infer, infer, inferRows_eq_flatten, inferRows_eq_flatten,
      inferList_congr fun d hd => ih d hd (h.parts d hd)]
  | function params body ih =>
    have hparams : (params.map fun p => (p.1, p.2.getD ValueType.unknown)).map (·.1) =
        params.map (·.1) := by
      rw [List.map_map]
      rfl
    have hbody := ih fun name hname => bind_congr_of_agree hparams h hname
    exact congrArg (· >>= fun _ => pure (ValueType.function params.length)) hbody

/-- What the parameters of a function stand for: its arguments, converted to the declared types. -/
def bindArguments (params : Params) (args : List Value) :
    Except EvalError (List (String × Value)) :=
  (params.zip args).mapM fun p =>
    match p.1.2 with
    | some t => (p.2.convert t).map fun v => (p.1.1, v)
    | none => .ok (p.1.1, p.2)

lemma applyValue_function {captured : List (String × Value)}
    : applyValue run (.function params body captured) args =
      if params.length ≠ args.length then .error (.argumentCount params.length args.length)
      else bindArguments params args >>= fun bindings =>
        run (Scope.bind bindings fun name => captured.lookup name) body := by
  unfold applyValue
  rfl

lemma map_fst_of_bindArguments
    {bindings : List (String × Value)} (h : bindArguments params args = .ok bindings)
    (hlength : params.length = args.length) : bindings.map (·.1) = params.map (·.1) := by
  induction params generalizing args bindings with
  | nil =>
    cases h
    rfl
  | cons param params ih =>
    obtain _ | ⟨arg, args⟩ := args
    · cases hlength
    rw [bindArguments, zip_cons_cons, mapM_cons] at h
    obtain ⟨binding, hbinding, rest, hrest, h⟩ := bind₂_eq_ok h
    cases h
    have hfst : binding.1 = param.1 := by
      split at hbinding
      · obtain ⟨v, _, hv⟩ := map_eq_ok.1 hbinding
        rw [← hv]
      · cases hbinding
        rfl
    rw [map_cons, map_cons, hfst, ih hrest (Nat.succ.inj hlength)]

lemma lookup_filterMap {s : Scope} {names : List String} :
    (names.filterMap fun n => (s n).map fun v => (n, v)).lookup name =
      if name ∈ names then s name else none := by
  induction names with
  | nil => rfl
  | cons first names ih =>
    by_cases hfirst : name = first
    · subst hfirst
      rw [if_pos (.head _)]
      cases hs : s name with
      | none => rw [filterMap_cons_none (by rw [hs]; rfl), ih, hs, ite_self]
      | some v => rw [filterMap_cons_some (b := (name, v)) (by rw [hs]; rfl), lookup_cons_self]
    · have hmem : name ∈ first :: names ↔ name ∈ names := by simp [hfirst]
      simp only [hmem]
      cases hs : s first with
      | none => rw [filterMap_cons_none (by rw [hs]; rfl), ih]
      | some v =>
        rw [filterMap_cons_some (b := (first, v)) (by rw [hs]; rfl), List.lookup_cons,
          beq_eq_false_iff_ne.2 hfirst, ih]

lemma evaluateUpTo_congr (h : Agree s s' (freeNames [] e)) :
    ∀ depth, evaluateUpTo depth s e = evaluateUpTo depth s' e
  | 0 => rfl
  | _ + 1 => evaluateWith_congr e h

lemma applyValue_capture {depth : Nat} {s : Scope} : applyValue (evaluateUpTo depth)
        (.function params body (capture s (.function params body))) args =
      if params.length ≠ args.length then .error (.argumentCount params.length args.length)
      else bindArguments params args >>= fun bindings =>
        evaluateUpTo depth (Scope.bind bindings s) body := by
  rw [applyValue_function]
  by_cases hlength : params.length = args.length
  · rw [if_neg (not_not.2 hlength), if_neg (not_not.2 hlength)]
    cases hbindings : bindArguments params args with
    | error e => rfl
    | ok bindings =>
      refine evaluateUpTo_congr (fun name hname => ?_) depth
      have hcapture : ∀ name ∈ freeNames [] (.function params body),
          (capture s (.function params body)).lookup name = s name := fun name hname => by
        rw [capture, lookup_filterMap, if_pos (mem_freeIdentifiers.2 hname)]
      exact bind_congr_of_agree (map_fst_of_bindArguments hbindings hlength) hcapture hname
  · rw [if_pos hlength, if_pos hlength]

/-- **The meaning of an expression depends on its free identifiers only.**  Scopes that agree on
them give it the same value, with the same values taken along, or the same error, at any depth of
applied functions; type scopes that agree on them give it the same type or error. So a function
literal's value, which knows its parameters and what it took along, does to its arguments what the
body does in the scope of the literal under the parameters. -/
theorem meaning_of_freeIdentifiers :
    (∀ (e : Expr) (s s' : Scope), (∀ name ∈ e.freeIdentifiers, s name = s' name) →
      e.evaluate s = e.evaluate s' ∧ ∀ depth, evaluateUpTo depth s e = evaluateUpTo depth s' e) ∧
    (∀ (e : Expr) (t t' : TypeScope), (∀ name ∈ e.freeIdentifiers, t name = t' name) →
      e.infer t = e.infer t') ∧
    ∀ (params : List (String × Option ValueType)) (body : Expr) (s : Scope),
      ∃ f, (Expr.function params body).evaluate s = .ok f ∧
        ∀ (depth : Nat) (args : List Value), applyValue (evaluateUpTo depth) f args =
          if params.length ≠ args.length then .error (.argumentCount params.length args.length)
          else bindArguments params args >>= fun bindings =>
            evaluateUpTo depth (Scope.bind bindings s) body := by
  refine ⟨fun e s s' h => ⟨evaluate_congr h, evaluateUpTo_congr fun name hname => ?_⟩,
    fun e t t' h => infer_congr e fun name hname => ?_, fun params body s => ?_⟩
  · exact h name (mem_freeIdentifiers.2 hname)
  · exact h name (mem_freeIdentifiers.2 hname)
  · refine ⟨.function params body (capture s (.function params body)), ?_, fun depth args => ?_⟩
    · rw [evaluate, maxDepth, evaluateUpTo, evaluateWith]
    · exact applyValue_capture

/-- The parameter `x` hides the `x` of the scopes, which differ there, and `y` is taken along. -/
theorem meaning_of_freeIdentifiers_shadowed :
    (Expr.function [("x", some .int)] (.sum (.ident "x") [(.add, .ident "y")])).evaluate
        (Scope.bind [("x", .boolean true), ("y", .int 2)] .empty) =
      (Expr.function [("x", some .int)] (.sum (.ident "x") [(.add, .ident "y")])).evaluate
        (Scope.bind [("x", .string "text"), ("y", .int 2)] .empty) ∧
    (Expr.function [("x", some .int)] (.sum (.ident "x") [(.add, .ident "y")])).infer
        (TypeScope.bind [("x", .boolean), ("y", .int)] fun _ => none) =
      (Expr.function [("x", some .int)] (.sum (.ident "x") [(.add, .ident "y")])).infer
        (TypeScope.bind [("x", .string), ("y", .int)] fun _ => none) := by
  have hfree : (Expr.function [("x", some .int)]
      (.sum (.ident "x") [(.add, .ident "y")])).freeIdentifiers = ["y"] := by decide +kernel
  refine ⟨(meaning_of_freeIdentifiers.1 _ _ _ fun name hname => ?_).1,
    meaning_of_freeIdentifiers.2.1 _ _ _ fun name hname => ?_⟩
  · rw [hfree, mem_singleton] at hname
    rw [hname]
    rfl
  · rw [hfree, mem_singleton] at hname
    rw [hname]
    rfl
end DataflowSpecializer.Expr
