import DataflowSpecializer.Proofs.Generate.Collections
import DataflowSpecializer.Proofs.Value.Intact

/-! # Code for expressions is right -/
namespace DataflowSpecializer.ExprSite
open Platform Library Draft List Option SortedMap DataflowSpecializer.Expr ValueType Generation
  Value
open Value (HasShape)
section Correct
variable {g : ExprSite} {run : Evaluator} {scope : Scope}
  {s : Specialization} {e : Expr} {w w' : Workbench} {r : TypedLocal} {P : Assertion}

lemma branch_evaluate (run : Evaluator) (target : Label) (h : env l = some (.const (.bool p))) :
    (Action.branch .eq (.loc l) (.const (.bool q)) target).evaluate (runtime run) env =
      some (if p = q then .goto target else .skip) := by
  simp only [Action.evaluate, Operand.read, h]
  cases p <;> cases q <;> rfl

lemma Ready.mono {d : Draft} (h : g.Ready s w) (hd : w.draft.size ≤ d.size) :
    g.Ready s { w with draft := d } :=
  ⟨h.spec, fun hl => (h.taken hl).trans_le hd⟩

lemma evaluateWith_cond (test yes no : Expr) :
    (evaluateWith run scope (.cond test yes no)).toOption =
      (test.evaluateWith run scope).toOption.bind fun c => c.toBool?.bind fun b =>
        if b then (yes.evaluateWith run scope).toOption
        else (no.evaluateWith run scope).toOption := by
  simp only [evaluateWith, toOption_bind]
  congr; funext c
  cases c.toBool? with
  | none => rfl
  | some b => cases b <;> rfl

lemma choice_compiles (hyes : g.Correct run scope s yes)
    (hno : g.Correct run scope s no) {flag : LocalId} {w1 w2 : Workbench}
    {a b : TypedLocal} (hready : g.Ready s w)
    (ha : g.generate yes { w with
      draft := (branchFalse flag w.draft.nextLabel (opening "choice" tokenType w.draft)).2 } =
        .ok a w1)
    (hb : g.generate no { w1 with
      draft := turning w.draft.size a.1 w.draft.nextLabel (w.draft.nextLabel + 1) w1.draft } =
        .ok b w2)
    (p : Bool) (hP : Stable w.draft.size P)
    (hbound : ∀ {env heap}, P env heap → g.Bound scope env heap)
    (hflag : ∀ {env heap}, P env heap → env flag = some (.const (.bool p))) :
    Compiles run s w
      { w2 with draft := closing w.draft.size b.1 (w.draft.nextLabel + 1) w2.draft } P
      (if p then (yes.evaluateWith run scope).toOption else (no.evaluateWith run scope).toOption)
      (w.draft.size, a.2.lub b.2) := by
  have htest := emit_writes (opening "choice" tokenType w.draft)
    (a := .branch .eq (.loc flag) (.const (.bool false)) w.draft.nextLabel) (by simp)
  have hopening : w.draft.size ≤ (opening "choice" tokenType w.draft).size := by
    rw [opening_size]
    exact Nat.le_succ _
  have hready0 := hready.mono (hopening.trans htest.locals)
  obtain ⟨hready1, hcanon1, -⟩ := hyes.static ha hready0
  have hready1' : g.Ready s { w1 with
      draft := turning w.draft.size a.1 w.draft.nextLabel (w.draft.nextLabel + 1) w1.draft } :=
    hready1.mono .refl
  obtain ⟨hready2, hcanon2, -⟩ := hno.static hb hready1'
  refine ⟨hready2.spec, isCanonical_lub hcanon1 hcanon2, ?_⟩
  have hP0 := hP.mono (hopening.trans htest.locals)
  have hyes' := (hyes ha hready0 hP0 hbound).emits
  obtain ⟨f, hf⟩ := hyes'.writes
  have hno' := (hno hb hready1' (hP0.mono hf.locals) hbound).emits
  refine twoWays_emits (F := fun v => HasShape v (a.2.lub b.2)) hP htest (fun {env heap} hp => ?_)
    hyes' (fun h => ⟨h.1, h.2.mono (leq_lub_left hcanon1 _)⟩)
    hno' (fun h => ⟨h.1, h.2.mono (leq_lub_right _ _)⟩)
  have hbranch := branch_evaluate run (q := false) w.draft.nextLabel (hflag hp)
  refine .inr ⟨env, heap, .refl _ _, prefix_refl heap, ?_⟩
  cases p with
  | true => exact .inl ⟨rfl, .skip hbranch⟩
  | false => exact .inr ⟨rfl, .goto hbranch⟩

lemma cond_correct (htest : g.Correct run scope s test)
    (hyes : g.Correct run scope s yes) (hno : g.Correct run scope s no) :
    g.Correct run scope s (.cond test yes no) := by
  have : Nonempty Bool := ⟨true⟩
  intro w w' r P hgen hready hP hbound
  rw [evaluateWith_cond]
  simp only [generate, Generation.bind_eq_ok, drafting_bind, pure_eq_ok] at hgen
  obtain ⟨c, w1, hc, a, w2, ha, b, w3, hb, rfl, rfl⟩ := hgen
  obtain ⟨hready1, -, hstable⟩ := htest.static hc hready
  have hflag : Emits (runtime run) w1.draft _ _ _ _ := booleanValue_emits (l := c.1)
    (v := .boolean true) (stable_false w1.draft.size) fun h => h.elim
  obtain ⟨f, hf⟩ := hflag.writes
  have hready2 := hready1.mono hf.locals
  have hstatic := choice_compiles hyes hno hready2 ha hb true (stable_false _) (fun h => h.elim)
    fun h => h.elim
  refine ⟨hstatic.spec, hstatic.canonical, ?_⟩
  refine (htest hc hready hP hbound).emits.bind hP fun v P1 hP1 h1 => ?_
  refine (booleanValue_emits hP1 fun hp => (h1 hp).2.1.1).bind hP1 fun p P2 hP2 h2 => ?_
  exact (choice_compiles hyes hno hready2 ha hb p hP2 (fun hp => hbound (h1 (h2 hp).2.2).2.2)
    fun hp => (h2 hp).2.1).emits

def decision (run : Evaluator) (scope : Scope) (decisive : Bool) : List Expr → Option Bool
  | [] => some !decisive
  | e :: es => ((e.evaluateWith run scope).toOption.bind toBool?).bind fun b =>
    if b = decisive then some decisive else decision run scope decisive es

lemma evaluateLogic_eq_decision (decisive : Bool) (es : List Expr) :
    (evaluateLogic run scope decisive es).toOption =
      (decision run scope decisive es).map .boolean := by
  induction es with
  | nil => rfl
  | cons e es ih =>
    rw [evaluateLogic, toOption_bind, decision]
    cases (e.evaluateWith run scope).toOption with
    | none => rfl
    | some v =>
      simp only [bind_some]
      cases v.toBool? with
      | none => rfl
      | some b =>
        by_cases hb : b = decisive
        · simp only [bind_some, if_pos hb]
          rfl
        · simp only [bind_some, if_neg hb, ih]

structure Decides (run : Evaluator) (s : Specialization)
    (w w' : Workbench) (P : Assertion) (decisive : Bool) (decided : Label) (x : Option Bool) :
    Prop where
  spec : w'.spec = s
  writes : ∃ f, Writes w.draft w'.draft f
  executes : ∀ {f}, Writes w.draft w'.draft f → ∀ {env heap}, P env heap →
    (x = none ∧ Executes (runtime run) f env heap .fails) ∨
      ∃ env1 heap1, env.AgreeBelow w.draft.size env1 ∧ heap <+: heap1 ∧
        (x = some (!decisive) ∧ Executes (runtime run) f env heap (.falls env1 heap1) ∨
          x = some decisive ∧ Executes (runtime run) f env heap (.jumps decided env1 heap1))

lemma operand_emits (he : g.Correct run scope s e) (hgen : g.generate e w = .ok r w')
    (hready : g.Ready s w) (hP : Stable w.draft.size P)
    (hbound : ∀ {env heap}, P env heap → g.Bound scope env heap) :
    Emits (runtime run) w.draft (booleanValue r.1 w'.draft).2 P
      ((e.evaluateWith run scope).toOption.bind toBool?)
      fun b => Holds (booleanValue r.1 w'.draft).1 (.const (.bool b)) := by
  refine (he hgen hready hP hbound).emits.bind hP fun v P1 hP1 h1 => ?_
  exact booleanValue_emits hP1 fun hp => (h1 hp).2.1.1

lemma generateLogic_decides {decisive : Bool} {decided : Label}
    (hes : ∀ e ∈ es, g.Correct run scope s e) : ∀ {w : Workbench} {P : Assertion},
      g.generateLogic (.const (.bool decisive)) decided es w = .ok () w' → g.Ready s w →
      Stable w.draft.size P → (∀ {env heap}, P env heap → g.Bound scope env heap) →
      Decides run s w w' P decisive decided (decision run scope decisive es) := by
  induction es with
  | nil =>
    intro w P hgen hready _ _
    obtain ⟨-, rfl⟩ := pure_eq_ok.1 hgen
    refine ⟨hready.spec, ⟨_, .refl _⟩, fun hf env heap _ => ?_⟩
    rw [hf.unique (.refl _)]
    exact .inr ⟨env, heap, .refl _ _, prefix_refl heap, .inl ⟨rfl, .nil env heap⟩⟩
  | cons e es ih =>
    intro w P hgen hready hP hbound
    have he : g.Correct run scope s e := hes e (.head _)
    have hes' : ∀ e ∈ es, g.Correct run scope s e := fun e he => hes e (.tail _ he)
    simp only [generateLogic, Generation.bind_eq_ok, drafting_bind] at hgen
    obtain ⟨r, w1, hr, hgen⟩ := hgen
    have hoperand := operand_emits he hr hready hP hbound
    obtain ⟨f, hf⟩ := hoperand.writes
    have hbranch := emit_writes (booleanValue r.1 w1.draft).2 (a := .branch .eq
      (.loc (booleanValue r.1 w1.draft).1) (.const (.bool decisive)) decided) (by simp)
    have hspec := (he.static hr hready).1.spec
    have hready2 := hready.of_writes hspec (hf.trans hbranch)
    have hrest := ih hes' hgen hready2 (hP.mono (hf.trans hbranch).locals) hbound
    obtain ⟨f', hf'⟩ := hrest.writes
    have hwhole := (hf.trans hbranch).trans hf'
    refine ⟨hrest.spec, ⟨_, hwhole⟩, fun hall env heap hp => ?_⟩
    rw [hall.unique hwhole]
    have hfirst := hoperand.computes hf hp
    rw [decision]
    cases hb : (e.evaluateWith run scope).toOption.bind toBool? with
    | none =>
      rw [hb] at hfirst
      exact .inl ⟨rfl, (Executes.fails_append hfirst).fails_append⟩
    | some b =>
      rw [hb] at hfirst
      obtain ⟨env1, heap1, hexec, hflag, henv, hheap⟩ := hfirst
      have hinstr := branch_evaluate run (q := decisive) decided hflag
      rw [bind_some]
      by_cases hdecisive : b = decisive
      · rw [if_pos hdecisive] at hinstr ⊢
        have hjump := (hexec.seq (.goto hinstr) (hf.fresh hbranch)).jumps_append (g := f')
        exact .inr ⟨env1, heap1, henv, hheap, .inr ⟨rfl, hjump⟩⟩
      · rw [if_neg hdecisive] at hinstr ⊢
        have hskip := hexec.seq (.skip hinstr) (hf.fresh hbranch)
        have hfresh := (hf.trans hbranch).fresh hf'
        rcases hrest.executes hf' (hP henv hheap hp) with
          ⟨hnone, hfails⟩ | ⟨env2, heap2, henv2, hheap2, ⟨hx, hfalls⟩ | ⟨hx, hjumps⟩⟩
        · exact .inl ⟨hnone, hskip.seq hfails hfresh⟩
        · exact .inr ⟨env2, heap2, henv.trans (hf.trans hbranch).locals henv2, hheap.trans hheap2,
            .inl ⟨hx, hskip.seq hfalls hfresh⟩⟩
        · exact .inr ⟨env2, heap2, henv.trans (hf.trans hbranch).locals henv2, hheap.trans hheap2,
            .inr ⟨hx, hskip.seq hjumps hfresh⟩⟩

lemma logic_correct {operands : List Expr} (h : ∀ e ∈ operands, g.Correct run scope s e) :
    g.Correct run scope s (.logic op operands) := by
  intro w w' r P hgen hready hP hbound
  have hop : (op == .or) = decide (op = .or) := by cases op <;> rfl
  rw [evaluateWith, evaluateLogic_eq_decision, hop]
  simp only [generate, Generation.bind_eq_ok, drafting_bind, pure_eq_ok] at hgen
  obtain ⟨⟨⟩, w1, hgen, rfl, rfl⟩ := hgen
  have hopening : w.draft.size ≤ (opening "logical" tokenType w.draft).size := by
    rw [opening_size]
    exact Nat.le_succ _
  have hdecides := generateLogic_decides h hgen (hready.mono hopening) (hP.mono hopening) hbound
  obtain ⟨test, htest⟩ := hdecides.writes
  refine ⟨hdecides.spec, .boolean, ?_⟩
  refine twoWays_emits (F := fun v => HasShape v .boolean) hP htest (fun {env heap} hp => ?_)
    ((literal_emits "bool" (.boolean _)).note ?_) id
    ((literal_emits "bool" (.boolean _)).note ?_) id
  · rcases hdecides.executes htest hp with
      ⟨hnone, hfails⟩ | ⟨env1, heap1, henv, hheap, ⟨hx, hfalls⟩ | ⟨hx, hjumps⟩⟩
    · exact .inl ⟨by rw [hnone]; rfl, hfails⟩
    · exact .inr ⟨env1, heap1, fun l hl => henv l (hl.trans_le hopening), hheap,
        .inl ⟨by rw [hx]; rfl, hfalls⟩⟩
    · exact .inr ⟨env1, heap1, fun l hl => henv l (hl.trans_le hopening), hheap,
        .inr ⟨by rw [hx]; rfl, hjumps⟩⟩
  all_goals
    intro _ _ _ v hv
    cases hv
    exact .scalar rfl rfl

lemma literal_correct (x : Literal) : g.Correct run scope s (.literal x) := by
  intro w w' r P hgen hready _ _
  simp only [generate, drafting_bind, pure_eq_ok] at hgen
  obtain ⟨rfl, rfl⟩ := hgen
  have hscalar := type_ofLiteral_isScalar x
  have hcanon := isCanonical_of_isScalar hscalar
  refine ⟨hready.spec, hcanon, (literal_emits "literal" x).note fun _ v hv => ?_⟩
  cases hv
  exact .scalar hscalar hscalar

def ReadsVariable (g : ExprSite) (m : Model) : Expr → Prop
  | .ident name => ∃ v, g.meaning? m name = some (.var v)
  | _ => False

/-- What evaluation gives a value to without the model, without the table of builtins and without
making functions; and small enough for the arrays of the platform. -/
structure Closed (g : ExprSite) (m : Model) (e : Expr) : Prop where
  not_function : ¬ e.IsFunction
  not_builtin : ¬ e.CallsBuiltin fun name => (g.bindings.get? name).isSome
  not_variable : ¬ g.ReadsVariable m e
  addressable : e.IsAddressable

/-- **The code of an expression computes it.** -/
theorem correct_of_everywhere (hscope : g.Describes scope)
    (he : e.Everywhere (g.Closed s.model)) : g.Correct run scope s e := by
  induction he with
  | @intro e he _ ih =>
    cases e with
    | literal x => exact literal_correct x
    | ident name => exact ident_correct hscope fun v hv => he.not_variable ⟨v, hv⟩
    | sum first rest | product first rest => exact chain_correct rfl ih
    | power base exponent =>
      exact power_correct (ih base (by simp [Expr.parts])) (ih exponent (by simp [Expr.parts]))
    | relation op lhs rhs =>
      exact relation_correct (ih lhs (by simp [Expr.parts])) (ih rhs (by simp [Expr.parts]))
    | logic op operands => exact logic_correct ih
    | bitwise op operands =>
      cases operands with
      | nil => exact fun w w' r P hgen => by cases hgen
      | cons first rest => exact chain_correct rfl ih
    | shift op lhs rhs =>
      exact shift_correct (ih lhs (by simp [Expr.parts])) (ih rhs (by simp [Expr.parts]))
    | unary op operand => exact unary_correct (ih operand (.head _))
    | cond test yes no =>
      exact cond_correct (ih test (by simp [Expr.parts])) (ih yes (by simp [Expr.parts]))
        (ih no (by simp [Expr.parts]))
    | apply callee args =>
      refine apply_correct hscope (ih callee (.head _))
        (fun e h => ih e (.tail _ h)) he.addressable fun name hname => ?_
      subst hname
      simpa [Expr.CallsBuiltin, isSome_iff_ne_none] using he.not_builtin
    | method base name args => exact absurd trivial he.not_builtin
    | member base label => exact member_correct (ih base (.head _))
    | array elements => exact array_correct ih he.addressable
    | record fields => exact record_correct ih he.addressable
    | matrix rows =>
      exact matrix_correct ih he.addressable.1 he.addressable.2.1 he.addressable.2.2
    | function params body => exact absurd trivial he.not_function
end Correct

def platform : Interpretation Ref Heap := runtime (evaluateUpTo (maxDepth - 1))

/-- The names bound at a site are those of the scope. Their values are intact, as all values are
that evaluation gives, their types lie below the types that the site knows, and the locals of the
site hold them. -/
structure Binds (g : ExprSite) (scope : Scope) (d : Draft) (env : Env Ref) : Prop where
  bound : ∀ {name l t}, g.bindings.get? name = some (l, t) →
    ∃ v, scope name = some v ∧ v.Intact ∧ v.type.leq t ∧ t.IsCanonical ∧
      l < d.size ∧ env l = some (ofValue v)
  free : ∀ {name}, g.bindings.get? name = none → scope name = none

lemma Binds.describes {g : ExprSite} {scope : Scope} {d : Draft} {env : Env Ref}
    (h : g.Binds scope d env) : g.Describes scope where
  bound hl := by
    obtain ⟨v, hv, hintact, hle, ht, -, -⟩ := h.bound hl
    exact ⟨v, hv, hintact.hasShape.mono hle, ht⟩
  free := h.free

section Alone
lemma Executes.alone (h : Executes m f env heap x) : Leaves m f [] ⟨f, env, heap⟩ x := by
  have halone := h [] [] (fun _ _ hmem => by cases hmem)
  simpa using halone

lemma Reaches.end_unique (h1 : Reaches (Config.step m f) ⟨f, env, heap⟩ events ⟨[], env1, heap1⟩)
    {events' : List (Effect Ref)}
    (h2 : Reaches (Config.step m f) ⟨f, env, heap⟩ events' ⟨[], env2, heap2⟩) : env1 = env2 := by
  have hlast := h1.last_unique h2 rfl rfl
  cases hlast
  rfl

lemma Reaches.not_trapped (h : Reaches (Config.step m f) ⟨f, env, heap⟩ events ⟨[], env1, heap1⟩) :
    ¬ ∃ events' t, Ends (Config.step m f) ⟨f, env, heap⟩ events' (.trapped t) := by
  rintro ⟨events', t, ht⟩
  have hends : Ends (Config.step m f) ⟨f, env, heap⟩ _ .finished := h.ends (.done rfl)
  cases (hends.unique ht).2

lemma Computes.alone_iff {x : Outcome}
    (hQ : ∀ {v env heap}, Q v env heap → env r = some (ofValue v))
    (h : Computes m f env heap x.toOption Q) : (∀ v, x = .ok v ↔ ∃ events env' heap',
        Reaches (Config.step m f) ⟨f, env, heap⟩ events ⟨[], env', heap'⟩ ∧
          env' r = some (ofValue v)) ∧ ((∃ err, x = .error err) ↔ ∃ events trap,
        Ends (Config.step m f) ⟨f, env, heap⟩ events (.trapped trap)) := by
  cases x with
  | ok v =>
    obtain ⟨env1, heap1, hexec, hv⟩ := h
    obtain ⟨events, hreaches⟩ := Executes.alone hexec
    refine ⟨fun u => ⟨?_, ?_⟩, ⟨?_, ?_⟩⟩
    · rintro ⟨⟩
      exact ⟨events, env1, heap1, hreaches, hQ hv⟩
    · rintro ⟨events', env2, heap2, hreaches', hu⟩
      rw [← Reaches.end_unique hreaches hreaches', hQ hv] at hu
      cases hu
      rfl
    · rintro ⟨err, ⟨⟩⟩
    · exact fun h => absurd h (Reaches.not_trapped hreaches)
  | error err =>
    have htraps := Executes.alone h
    refine ⟨fun u => ⟨?_, ?_⟩, ⟨fun _ => htraps, fun _ => ⟨err, rfl⟩⟩⟩
    · rintro ⟨⟩
    · rintro ⟨events', env2, heap2, hreaches', -⟩
      exact absurd htraps (Reaches.not_trapped hreaches')
end Alone

/-- **The code of an expression agrees with evaluation.**  Let `e` have neither function literals
nor calls of builtins, and let its names be those bound at the site or the builtin constants. If
code is written for `e`, the statements that were written, executed from the first one on, run to
their end with `v` in the local that was answered just if `v` is the value of `e`, and trap just if
`e` has no value. -/
theorem generate_runs_iff_evaluate {g : ExprSite} {scope : Scope} {e : Expr} {w w' : Workbench}
    {r : LocalId} {t : ValueType} {env : Env Ref} (heap : Heap)
    (he : e.Everywhere (g.Closed w.spec.model)) (hbinds : g.Binds scope w.draft env)
    (hgen : g.generate e w = .ok (r, t) w') : ∃ code, w'.draft.actions = w.draft.actions ++ code ∧
      (∀ v, e.evaluate scope = .ok v ↔ ∃ events env' heap',
        Reaches (Config.step platform code) ⟨code, env, heap⟩ events ⟨[], env', heap'⟩ ∧
          env' r = some (ofValue v)) ∧ ((∃ err, e.evaluate scope = .error err) ↔ ∃ events trap,
        Ends (Config.step platform code) ⟨code, env, heap⟩ events (.trapped trap)) := by
  have hready : g.Ready w.spec w := ⟨rfl, fun hl => by
    obtain ⟨v, -, -, -, -, htaken, -⟩ := hbinds.bound hl
    exact htaken⟩
  have hstable : Stable w.draft.size (g.Bound scope) := fun env0 env1 _ _ henv _ h name l t hl v hv =>
    (henv l (hready.taken hl)).trans (h name l t hl v hv)
  have hstart : g.Bound scope env heap := fun name l t hl v hv => by
    obtain ⟨u, hu, -, -, -, -, henv⟩ := hbinds.bound hl
    rw [henv, some.inj (hv.symm.trans hu)]
  have hcorrect : g.Correct (evaluateUpTo (maxDepth - 1)) scope w.spec e :=
    correct_of_everywhere hbinds.describes he
  have hemits := (hcorrect hgen hready hstable id).emits
  obtain ⟨code, hcode⟩ := hemits.writes
  exact ⟨code, hcode.actions, Computes.alone_iff (fun h => h.1.1) (hemits.computes hcode hstart)⟩

/-- A condition on a bound name, with an element of an array on the way that is taken. -/
theorem generate_runs_iff_evaluate_of_condition :
    let g : ExprSite := ⟨0, none, none, "", SortedMap.empty.insert "x" (0, .int)⟩
    let scope : Scope := fun name => if name = "x" then some (.int 3) else none
    let e : Expr := .cond (.relation .gt (.ident "x") (.literal (.int 1)))
      (.apply (.array [.ident "x", .literal (.int 2)]) [.literal (.int 0)]) (.literal (.int 0))
    let w : Workbench :=
      ⟨.start .empty {}, .ofBody { Body.empty with locals := #[⟨"x", tokenType⟩] }⟩
    let env : Env Ref := fun l => if l = 0 then some (ofValue (.int 3)) else none
    e.evaluate scope = .ok (.int 3) ∧ ∃ r t w' code, g.generate e w = .ok (r, t) w' ∧
      w'.draft.actions = w.draft.actions ++ code ∧ ∃ events env' heap',
        Reaches (Config.step platform code) ⟨code, env, []⟩ events ⟨[], env', heap'⟩ ∧
          env' r = some (ofValue (.int 3)) := by
  intro g scope e w env
  have hgen : ∃ r t w', g.generate e w = .ok (r, t) w' := by
    have hok : (match g.generate e w with
        | .ok _ _ => true
        | .error _ _ => false) = true := by decide +kernel
    generalize g.generate e w = result at hok ⊢
    cases result with
    | ok r w' => exact ⟨r.1, r.2, w', rfl⟩
    | error => cases hok
  have hbinds : g.Binds scope w.draft env := by
    refine ⟨fun {name l t} h => ?_, fun {name} h => if_neg ?_⟩
    · by_cases hname : name = "x"
      · subst hname
        rw [get?_insert_self] at h
        cases h
        exact ⟨.int 3, rfl, .scalar rfl, rfl, .int, Nat.zero_lt_one, rfl⟩
      · rw [get?_insert_of_ne _ hname] at h
        cases h
    · rintro rfl
      rw [get?_insert_self] at h
      cases h
  have hlit (n : Int32) : (Expr.literal (.int n)).Everywhere (g.Closed w.spec.model) :=
    .intro ⟨id, id, id, trivial⟩ (by simp [Expr.parts])
  have hx : (Expr.ident "x").Everywhere (g.Closed w.spec.model) := by
    refine .intro ⟨id, id, ?_, trivial⟩ (by simp [Expr.parts])
    rintro ⟨v, hv⟩
    have hmeaning : g.meaning? w.spec.model "x" = some (.value 0 .int) := rfl
    rw [hmeaning] at hv
    cases hv
  have he : e.Everywhere (g.Closed w.spec.model) := by
    refine .intro ⟨id, id, id, trivial⟩ ?_
    simp only [e, Expr.parts, forall_mem_cons]
    refine ⟨.intro ⟨id, id, id, trivial⟩ ?_,
      .intro ⟨id, id, id, by simp [Expr.IsAddressable]⟩ ?_, hlit 0, by simp⟩
    · simp [Expr.parts, hx, hlit]
    · simp only [Expr.parts, forall_mem_cons]
      refine ⟨.intro ⟨id, id, id, by simp [Expr.IsAddressable]⟩ ?_, hlit 0, by simp⟩
      simp [Expr.parts, hx, hlit]
  have hvalue : e.evaluate scope = .ok (.int 3) := rfl
  obtain ⟨r, t, w', hgen⟩ := hgen
  obtain ⟨code, hcode, hruns, -⟩ := generate_runs_iff_evaluate [] he hbinds hgen
  exact ⟨hvalue, r, t, w', code, hgen, hcode, (hruns (.int 3)).1 hvalue⟩
end DataflowSpecializer.ExprSite
