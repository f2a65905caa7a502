import DataflowSpecializer.Proofs.Generate.Operators

/-! # Code for collections -/
namespace DataflowSpecializer.ExprSite
open Platform Library Draft List Option Generation ValueType DataflowSpecializer.Expr Value
  Value.HasShape
open Value (HasShape)
section Correct
variable {g : ExprSite} {run : Evaluator} {scope : Scope}
  {s : Specialization} {e : Expr} {w w' : Workbench} {r : TypedLocal} {P : Assertion}
  {rs : List TypedLocal} {args : List TypedLocal} {vs : List Value}
  {env : Env Ref} {heap : Heap} {callee : Expr} {l : LocalId} {label : String} {es : List Expr}
  {t : ValueType}

def HoldsAll (rs : List TypedLocal) (vs : List Value) : Assertion := fun env heap =>
  List.Forall₂ (fun r v => HoldsAt r v env heap) rs vs

lemma stable_holdsAll_cons
    (hr : ∀ v, Stable n (HoldsAt r v)) (hrs : ∀ vs, Stable n (HoldsAll rs vs)) (vs : List Value) :
    Stable n (HoldsAll (r :: rs) vs) := by
  intro env env' heap heap' henv hheap h
  cases h with
  | cons hv hvs => exact .cons (hr _ henv hheap hv) (hrs _ henv hheap hvs)

lemma HoldsAll.readAll (h : HoldsAll rs vs env heap) :
    Operand.readAll env (rs.map fun r => .loc r.1) = some (vs.map ofValue) := by
  induction h with
  | nil => rfl
  | cons hv _ ih =>
    have hread := hv.1
    rw [Holds] at hread
    simp only [map_cons, Operand.readAll, Operand.read, hread, ih]

lemma HoldsAll.types (h : HoldsAll rs vs env heap) : List.Forall₂ HasShape vs (rs.map (·.2)) := by
  induction h with
  | nil => exact .nil
  | cons hv _ ih => exact .cons hv.2 ih

structure CompilesAll (run : Evaluator) (s : Specialization)
    (w w' : Workbench) (P : Assertion) (x : Option (List Value))
    (rs : List TypedLocal) : Prop where
  spec : w'.spec = s
  canonical : ∀ t ∈ rs.map (·.2), t.IsCanonical
  emits : Emits (runtime run) w.draft w'.draft P x (HoldsAll rs)

lemma generateList_length : ∀ {w : Workbench} {rs : List TypedLocal},
    g.generateList es w = .ok rs w' → rs.length = es.length := by
  induction es with
  | nil =>
    intro w rs hgen
    obtain ⟨rfl, -⟩ := pure_eq_ok.1 hgen
    rfl
  | cons e es ih =>
    intro w rs hgen
    simp only [generateList, Generation.bind_eq_ok, pure_eq_ok] at hgen
    obtain ⟨r, w1, -, rs', w2, hrs, rfl, rfl⟩ := hgen
    rw [length_cons, length_cons, ih hrs]

lemma generateList_compiles (hes : ∀ e ∈ es, g.Correct run scope s e) :
    ∀ {w : Workbench} {rs : List TypedLocal} {P : Assertion},
      g.generateList es w = .ok rs w' → g.Ready s w → Stable w.draft.size P →
      (∀ {env heap}, P env heap → g.Bound scope env heap) →
      CompilesAll run s w w' P (evaluateList run scope es).toOption rs := by
  induction es with
  | nil =>
    intro w rs P hgen hready _ _
    obtain ⟨rfl, rfl⟩ := pure_eq_ok.1 hgen
    refine ⟨hready.spec, by simp, .pure (fun vs => ?_) fun _ => .nil⟩
    intro _ _ _ _ _ _ h
    cases h
    exact .nil
  | cons e es ih =>
    intro w rs P hgen hready hP hbound
    have he : g.Correct run scope s e := hes e (.head _)
    have hes' : ∀ e ∈ es, g.Correct run scope s e := fun e he => hes e (.tail _ he)
    simp only [generateList, Generation.bind_eq_ok, pure_eq_ok] at hgen
    obtain ⟨r, w1, hr, rs', w2, hrs, rfl, rfl⟩ := hgen
    obtain ⟨hready1, hcanon, hstable⟩ := he.static hr hready
    have hstatic := ih hes' hrs hready1 (stable_false _) (fun h => h.elim)
    refine ⟨hstatic.spec, forall_mem_cons.2 ⟨hcanon, hstatic.canonical⟩, ?_⟩
    simp only [evaluateList, toOption_bind]
    refine (he hr hready hP hbound).emits.bind hP fun v P1 hP1 h1 => ?_
    refine (ih hes' hrs hready1 hP1 fun h => hbound (h1 h).2.2).emits.bind hP1 fun vs P2 _ h2 => ?_
    obtain ⟨f, hf⟩ := hstatic.emits.writes
    exact .pure (stable_holdsAll_cons (fun u => (hstable u).mono hf.locals) hstatic.emits.stable)
      fun h => .cons (h1 (h2 h).2.2).2.1 (h2 h).2.1

lemma applyValue_cases (h : g.applyValue (l, t) args w = .ok r w') :
    (∃ e i, t = .array e ∧ args = [i]) ∨ (∃ e i j, t = .matrix e ∧ args = [i, j]) ∨
      ∃ n, t = .function n := by
  cases t with
  | array e =>
    rcases args with _ | ⟨i, _ | ⟨j, rest⟩⟩
    · cases h
    · exact .inl ⟨e, i, rfl, rfl⟩
    · cases h
  | matrix e =>
    rcases args with _ | ⟨i, _ | ⟨j, _ | ⟨k, rest⟩⟩⟩
    · cases h
    · cases h
    · exact .inr (.inl ⟨e, i, j, rfl, rfl⟩)
    · cases h
  | function n => exact .inr (.inr ⟨n, rfl⟩)
  | _ => cases h

lemma index_compiles {e u : ValueType}
    (hgen : g.applyValue (l, .array e) [(i, u)] w = .ok r w') (hready : g.Ready s w)
    (he : e.IsCanonical) (v x : Value) (hP : Stable w.draft.size P) (h : ∀ {env heap}, P env heap →
      HoldsAt (l, .array e) v env heap ∧ HoldsAt (i, u) x env heap) :
    Compiles run s w w' P (x.toInt?.bind fun n => (v.element n).toOption) r := by
  have : Nonempty Int32 := ⟨0⟩
  simp only [applyValue, drafting_bind, pure_eq_ok] at hgen
  obtain ⟨rfl, rfl⟩ := hgen
  refine ⟨hready.spec, he, ?_⟩
  refine (intValue_emits hP fun hp => (h hp).2.1).bind hP fun n P1 hP1 h1 => ?_
  refine castValue_seq "array" arrayToken hP1 (fun hp => (h (h1 hp).2.2).1.1) (fun hp hclass => ?_)
    fun P2 hP2 h2 => ?_
  · obtain ⟨d, vs, rfl, -⟩ := array_inv (h (h1 hp).2.2).1.2
    rw [Value.type, valueClass, isSubclass_self] at hclass
    cases hclass
  · refine (element_emits (fun hp => (h2 hp).1) fun hp => (h1 (h2 hp).2).2.1).note
      fun hp c hc => ?_
    exact element (h (h1 (h2 hp).2).2.2).1.2 (toOption_eq_some.1 hc)

lemma matrixIndex_compiles {e t u : ValueType}
    (hgen : g.applyValue (l, .matrix e) [(i, t), (j, u)] w = .ok r w') (hready : g.Ready s w)
    (he : e.IsCanonical) (v x y : Value) (hP : Stable w.draft.size P)
    (h : ∀ {env heap}, P env heap → HoldsAt (l, .matrix e) v env heap ∧
      HoldsAt (i, t) x env heap ∧ HoldsAt (j, u) y env heap) :
    Compiles run s w w' P (x.toInt?.bind fun m => y.toInt?.bind fun n =>
      (v.matrixElement m n).toOption) r := by
  have : Nonempty Int32 := ⟨0⟩
  simp only [applyValue, drafting_bind, pure_eq_ok] at hgen
  obtain ⟨rfl, rfl⟩ := hgen
  refine ⟨hready.spec, he, ?_⟩
  refine (intValue_emits hP fun hp => (h hp).2.1.1).bind hP fun m P1 hP1 h1 => ?_
  refine (intValue_emits hP1 fun hp => (h (h1 hp).2.2).2.2.1).bind hP1 fun n P2 hP2 h2 => ?_
  have hall {env heap} (hp : P2 env heap) := h (h1 (h2 hp).2.2).2.2
  refine castValue_seq "matrix" matrixToken hP2 (fun hp => (hall hp).1.1) (fun hp hclass => ?_)
    fun P3 hP3 h3 => ?_
  · obtain ⟨d, rows, cols, vs, rfl, -⟩ := matrix_inv (hall hp).1.2
    rw [Value.type, isMatrixToken] at hclass
    cases hclass
  · refine (matrixElement_emits (fun hp => (h3 hp).1) (fun hp => (h1 (h2 (h3 hp).2).2.2).2.1)
      fun hp => (h2 (h3 hp).2).2.1).note fun hp c hc => ?_
    exact matrixElement (hall (h3 hp).2).1.2 (toOption_eq_some.1 hc)

lemma call_compiles (hgen : g.applyValue (l, .function n) args w = .ok r w') (hready : g.Ready s w)
    (hlen : args.length < 2 ^ 31) (v : Value) (vs : List Value) (hP : Stable w.draft.size P)
    (h : ∀ {env heap}, P env heap →
      HoldsAt (l, .function n) v env heap ∧ HoldsAll args vs env heap) :
    Compiles run s w w' P (Expr.applyValue run v vs).toOption r := by
  simp only [applyValue, drafting_bind, pure_eq_ok] at hgen
  obtain ⟨rfl, rfl⟩ := hgen
  refine ⟨hready.spec, .general, ?_⟩
  refine (newArray_emits "arguments" tokenType _ _ (by simpa using hlen) hP
    fun hp => (h hp).2.readAll).seq hP (fun _ hnone => by cases hnone) fun _ P1 hP1 h1 => ?_
  refine castValue_seq "function" functionToken hP1 (fun hp => (h (h1 hp).2.2).1.1)
    (fun hp hclass => ?_) fun P2 hP2 h2 => ?_
  · obtain ⟨params, body, captured, rfl⟩ := function_inv (h (h1 hp).2.2).1.2
    rw [Value.type, valueClass, isSubclass_self] at hclass
    cases hclass
  · refine (applyFunction_emits (fun hp => (h2 hp).1) fun hp => (h1 (h2 hp).2).2.1).note
      fun _ c _ => ?_
    exact .general c

lemma applyValue_array {v x : Value} {e : ValueType} (h : HasShape v (.array e)) :
    (Expr.applyValue run v [x]).toOption = x.toInt?.bind fun n => (v.element n).toOption := by
  obtain ⟨d, vs, rfl, -⟩ := array_inv h
  rw [Expr.applyValue]
  cases x.toInt? <;> rfl

lemma applyValue_matrix {v x y : Value} {e : ValueType} (h : HasShape v (.matrix e)) :
    (Expr.applyValue run v [x, y]).toOption =
      x.toInt?.bind fun m => y.toInt?.bind fun n => (v.matrixElement m n).toOption := by
  obtain ⟨d, rows, cols, vs, rfl, -⟩ := matrix_inv h
  rw [Expr.applyValue]
  cases x.toInt? <;> cases y.toInt? <;> rfl

lemma applyValue_compiles {target : TypedLocal}
    (hgen : g.applyValue target args w = .ok r w') (hready : g.Ready s w)
    (hlen : args.length < 2 ^ 31) (hcanon : target.2.IsCanonical) (v : Value) (vs : List Value)
    (hP : Stable w.draft.size P)
    (h : ∀ {env heap}, P env heap → HoldsAt target v env heap ∧ HoldsAll args vs env heap) :
    Compiles run s w w' P (Expr.applyValue run v vs).toOption r := by
  obtain ⟨l, t⟩ := target
  -- That as many values come as there are arguments is known only of a state with `P`.
  rcases applyValue_cases hgen with ⟨e, ⟨i, ti⟩, rfl, rfl⟩ | ⟨e, ⟨i, ti⟩, ⟨j, tj⟩, rfl, rfl⟩ | ⟨n, rfl⟩
  · have hvs {env heap} (hp : P env heap) : vs = [vs.headD v] ∧
        HoldsAt (i, ti) (vs.headD v) env heap := by
      obtain _ | ⟨hx, hnil⟩ := (h hp).2
      cases hnil
      exact ⟨rfl, hx⟩
    obtain ⟨hspec, hcanon, hemits⟩ := index_compiles hgen hready (by cases hcanon; assumption) v
      (vs.headD v) hP fun hp => ⟨(h hp).1, (hvs hp).2⟩
    refine ⟨hspec, hcanon, hemits.congr fun hp => ?_⟩
    rw [← applyValue_array (h hp).1.2, ← (hvs hp).1]
  · have hvs {env heap} (hp : P env heap) : vs = [vs.headD v, vs.tail.headD v] ∧
        HoldsAt (i, ti) (vs.headD v) env heap ∧ HoldsAt (j, tj) (vs.tail.headD v) env heap := by
      obtain _ | ⟨hx, _ | ⟨hy, hnil⟩⟩ := (h hp).2
      cases hnil
      exact ⟨rfl, hx, hy⟩
    obtain ⟨hspec, hcanon, hemits⟩ := matrixIndex_compiles hgen hready
      (by cases hcanon; assumption) v (vs.headD v) (vs.tail.headD v) hP
      fun hp => ⟨(h hp).1, (hvs hp).2⟩
    refine ⟨hspec, hcanon, hemits.congr fun hp => ?_⟩
    rw [← applyValue_matrix (h hp).1.2, ← (hvs hp).1]
  · exact call_compiles hgen hready hlen v vs hP h

lemma generate_apply {args : List Expr}
    (h : ∀ name, callee = .ident name → (g.bindings.get? name).isSome) (w : Workbench) :
    g.generate (.apply callee args) w = (g.generate callee >>= fun target =>
      g.generateList args >>= fun vs => g.applyValue target vs) w := by
  by_cases hname : ∃ name, callee = .ident name
  · obtain ⟨name, rfl⟩ := hname
    obtain ⟨⟨l, t⟩, hl⟩ := isSome_iff_exists.1 (h name rfl)
    have hmeaning : g.meaning? w.spec.model name = some (.value l t) := by rw [meaning?, hl]
    have hcallee : g.generate (.ident name) w = .ok (l, t) w := by
      rw [generate, spec_bind, hmeaning]
      rfl
    have hwhole : g.generate (.apply (.ident name) args) w =
        (g.generateList args >>= fun vs => g.applyValue (l, t) vs) w := by
      rw [generate, spec_bind, hmeaning]
      rfl
    rw [hwhole]
    show _ = EStateM.bind (g.generate (.ident name)) _ w
    rw [EStateM.bind, hcallee]
  · cases callee <;> first | rfl | exact absurd ⟨_, rfl⟩ hname

lemma evaluateWith_apply_toOption (hscope : g.Describes scope)
    {args : List Expr} (h : ∀ name, callee = .ident name → (g.bindings.get? name).isSome) :
    (evaluateWith run scope (.apply callee args)).toOption =
      (callee.evaluateWith run scope).toOption.bind fun v =>
        (evaluateList run scope args).toOption.bind fun vs =>
          (Expr.applyValue run v vs).toOption := by
  have hargs : (evaluateWith run scope (.apply callee args)).toOption =
      (evaluateList run scope args).toOption.bind fun vs =>
        (callee.evaluateWith run scope).toOption.bind fun v =>
          (Expr.applyValue run v vs).toOption := by
    by_cases hname : ∃ name, callee = .ident name
    · obtain ⟨name, rfl⟩ := hname
      obtain ⟨⟨l, t⟩, hl⟩ := isSome_iff_exists.1 (h name rfl)
      obtain ⟨v, hv, -⟩ := hscope.bound hl
      rw [evaluateWith_ident hv, evaluateWith]
      simp only [hv, toOption_bind]
      rfl
    · rw [evaluateWith_apply (fun name hc => hname ⟨name, hc⟩)]
      simp only [toOption_bind]
  rw [hargs]
  cases (evaluateList run scope args).toOption <;>
    cases (callee.evaluateWith run scope).toOption <;> rfl

lemma apply_correct (hscope : g.Describes scope) {args : List Expr}
    (hcallee : g.Correct run scope s callee) (hargs : ∀ e ∈ args, g.Correct run scope s e)
    (hlen : args.length < 2 ^ 31)
    (h : ∀ name, callee = .ident name → (g.bindings.get? name).isSome) :
    g.Correct run scope s (.apply callee args) := by
  intro w w' r P hgen hready hP hbound
  rw [evaluateWith_apply_toOption hscope h]
  rw [generate_apply h] at hgen
  simp only [Generation.bind_eq_ok] at hgen
  obtain ⟨target, w1, htarget, rs, w2, hrs, hgen⟩ := hgen
  obtain ⟨hready1, hcanon, hstable⟩ := hcallee.static htarget hready
  have hlist := generateList_compiles hargs hrs hready1 (stable_false _) (fun h => h.elim)
  obtain ⟨f, hf⟩ := hlist.emits.writes
  have hready2 := hready1.of_writes hlist.spec hf
  rw [← generateList_length hrs] at hlen
  have hstatic : Compiles run s _ _ _ _ r := applyValue_compiles hgen hready2 hlen hcanon
    (.boolean true) [] (stable_false _) (fun h => h.elim)
  refine ⟨hstatic.spec, hstatic.canonical, ?_⟩
  refine (hcallee htarget hready hP hbound).emits.bind hP fun v P1 hP1 h1 => ?_
  refine (generateList_compiles hargs hrs hready1 hP1 fun hp => hbound (h1 hp).2.2).emits.bind hP1
    fun vs P2 hP2 h2 => ?_
  exact (applyValue_compiles hgen hready2 hlen hcanon v vs hP2 fun hp =>
    ⟨(h1 (h2 hp).2.2).2.1, (h2 hp).2.1⟩).emits

lemma memberOf_cases (h : g.memberOf (l, t) label w = .ok r w') :
    ∃ fields u, t = .record fields ∧ fields.lookup label = some u := by
  cases t with
  | record fields =>
    cases hu : fields.lookup label with
    | none => simp only [memberOf, hu] at h; cases h
    | some u => exact ⟨fields, u, rfl, hu⟩
  | _ => cases h

lemma member_correct (hbase : g.Correct run scope s base) :
    g.Correct run scope s (.member base label) := by
  intro w w' r P hgen hready hP hbound
  simp only [evaluateWith, toOption_bind]
  simp only [generate, Generation.bind_eq_ok] at hgen
  obtain ⟨⟨l, t⟩, w1, hl, hgen⟩ := hgen
  obtain ⟨fields, u, rfl, hu⟩ := memberOf_cases hgen
  simp only [memberOf, hu, drafting_bind, pure_eq_ok] at hgen
  obtain ⟨rfl, rfl⟩ := hgen
  obtain ⟨hready1, hcanon, -⟩ := hbase.static hl hready
  refine ⟨hready1.spec, ?_, ?_⟩
  · cases hcanon with
    | record _ hfields => exact hfields _ (mem_of_lookup hu)
  · refine (hbase hl hready hP hbound).emits.bind hP fun v P1 hP1 h1 => ?_
    refine castValue_seq "record" recordToken hP1 (fun hp => (h1 hp).2.1.1) (fun hp hclass => ?_)
      fun P2 hP2 h2 => ?_
    · obtain ⟨fs, rfl, -⟩ := record_inv (h1 hp).2.1.2
      rw [Value.type, valueClass, isSubclass_self] at hclass
      cases hclass
    · refine (field_emits label fun hp => (h2 hp).1).note fun hp c hc => ?_
      exact field (h1 (h2 hp).2).2.1.2 hu (toOption_eq_some.1 hc)

lemma generateFields_eq_ok {es : List (String × Expr)}
    {rs : List (String × TypedLocal)} (h : g.generateFields es w = .ok rs w') :
    g.generateList (es.map (·.2)) w = .ok (rs.map (·.2)) w' ∧ rs.map (·.1) = es.map (·.1) := by
  rw [generateFields_eq_zip] at h
  obtain ⟨us, w1, hus, h⟩ := Generation.bind_eq_ok.1 h
  obtain ⟨rfl, rfl⟩ := pure_eq_ok.1 h
  have hlength : (es.map (·.1)).length = us.length := by simp [generateList_length hus]
  rw [map_snd_zip hlength.symm.le, map_fst_zip hlength.le]
  exact ⟨hus, rfl⟩

lemma HoldsAll.lubAll (h : HoldsAll rs vs env heap) (hcanon : ∀ t ∈ rs.map (·.2), t.IsCanonical) :
    ∀ v ∈ vs, HasShape v (.lubAll (rs.map (·.2))) :=
  (lubAll_of_forall₂ (fun h => h.mono) h.types hcanon).1

lemma HoldsAll.fields {rs : List (String × TypedLocal)} (h : HoldsAll (rs.map (·.2)) vs env heap) :
    List.Forall₂ (fun f g => f.1 = g.1 ∧ HasShape f.2 g.2) ((rs.map (·.1)).zip vs)
      (rs.map fun r => (r.1, r.2.2)) := by
  induction rs generalizing vs with
  | nil => exact .nil
  | cons r rs ih =>
    cases h with
    | cons hv hvs => exact .cons ⟨rfl, hv.2⟩ (ih hvs)

lemma readAll_strings (env : Env Ref) (labels : List String) :
    Operand.readAll env (labels.map .string) =
      some (labels.map fun label => .const (.string label)) := by
  induction labels with
  | nil => rfl
  | cons label labels ih =>
    simp only [map_cons, Operand.readAll, ih]
    rfl

lemma array_correct {elements : List Expr} (h : ∀ e ∈ elements, g.Correct run scope s e)
    (hlen : elements.length < 2 ^ 31) : g.Correct run scope s (.array elements) := by
  intro w w' r P hgen hready hP hbound
  simp only [evaluateWith, toOption_bind]
  simp only [generate, Generation.bind_eq_ok, drafting_bind, pure_eq_ok] at hgen
  obtain ⟨rs, w1, hrs, rfl, rfl⟩ := hgen
  have hstatic := generateList_compiles h hrs hready (stable_false _) (fun h => h.elim)
  rw [← generateList_length hrs] at hlen
  refine ⟨hstatic.spec, .array (isCanonical_lubAll hstatic.canonical), ?_⟩
  refine (generateList_compiles h hrs hready hP hbound).emits.bind hP fun vs P1 hP1 h1 => ?_
  refine (newArray_emits "elements" tokenType _ _ (by simpa using hlen) hP1
    fun hp => (h1 hp).2.1.readAll).seq hP1 (fun _ hnone => by cases hnone) fun _ P2 hP2 h2 => ?_
  refine (arrayObject_emits "array" _ fun hp => (h2 hp).2.1).note fun hp v hv => ?_
  cases hv
  exact hasShape_arrayOf ((h1 (h2 hp).2.2).2.1.lubAll hstatic.canonical)

lemma matrix_correct {rows : List (List Expr)}
    (h : ∀ e ∈ rows.flatten, g.Correct run scope s e) (hrows : rows.length < 2 ^ 31)
    (hcols : (rows.headD []).length < 2 ^ 31) (hlen : rows.flatten.length < 2 ^ 31) :
    g.Correct run scope s (.matrix rows) := by
  intro w w' r P hgen hready hP hbound
  simp only [evaluateWith, evaluateRows_eq_flatten, toOption_bind]
  simp only [generate, Generation.bind_eq_ok, drafting_bind, pure_eq_ok] at hgen
  obtain ⟨rs, w1, hrs, rfl, rfl⟩ := hgen
  have hrs := generateRows_eq_flatten hrs
  have hstatic := generateList_compiles h hrs hready (stable_false _) (fun h => h.elim)
  rw [← generateList_length hrs] at hlen
  refine ⟨hstatic.spec, .matrix (isCanonical_lubAll hstatic.canonical), ?_⟩
  refine (generateList_compiles h hrs hready hP hbound).emits.bind hP fun vs P1 hP1 h1 => ?_
  refine (newArray_emits "elements" tokenType _ _ (by simpa using hlen) hP1
    fun hp => (h1 hp).2.1.readAll).seq hP1 (fun _ hnone => by cases hnone) fun _ P2 hP2 h2 => ?_
  refine (matrixObject_emits _ hrows hcols fun hp => (h2 hp).2.1).note fun hp v hv => ?_
  cases hv
  exact hasShape_matrixOf ((h1 (h2 hp).2.2).2.1.lubAll hstatic.canonical) _ _

lemma record_correct {fields : List (String × Expr)}
    (h : ∀ e ∈ fields.map (·.2), g.Correct run scope s e) (hlen : fields.length < 2 ^ 31) :
    g.Correct run scope s (.record fields) := by
  intro w w' r P hgen hready hP hbound
  simp only [evaluateWith, evaluateFields_eq_zip, toOption_bind, toOption_map]
  simp only [generate, Generation.bind_eq_ok, drafting_bind, pure_eq_ok] at hgen
  obtain ⟨rs, w1, hrs, rfl, rfl⟩ := hgen
  obtain ⟨hrs, hlabels⟩ := generateFields_eq_ok hrs
  have hstatic := generateList_compiles h hrs hready (stable_false _) (fun h => h.elim)
  have hcount : rs.length = fields.length := by simpa using congrArg List.length hlabels
  rw [← hcount] at hlen
  refine ⟨hstatic.spec, isCanonical_recordType fun f hf => ?_, ?_⟩
  · obtain ⟨r, hr, rfl⟩ := List.mem_map.1 hf
    exact hstatic.canonical _ (List.mem_map.2 ⟨r.2, List.mem_map.2 ⟨r, hr, rfl⟩, rfl⟩)
  rw [bind_map]
  refine (generateList_compiles h hrs hready hP hbound).emits.bind hP fun vs P1 hP1 h1 => ?_
  refine (newArray_emits "labels" .string (rs.map fun r => .string r.1)
    ((rs.map (·.1)).map fun label => .const (.string label)) (by simpa using hlen) hP1
    fun {env _} _ => ?_).seq hP1 (fun _ hnone => by cases hnone) fun _ P2 hP2 h2 => ?_
  · rw [← readAll_strings env, List.map_map]
    rfl
  refine (newArray_emits "values" tokenType (rs.map fun r => .loc r.2.1) (vs.map ofValue)
    (by simpa using hlen) hP2 fun hp => ?_).seq hP2 (fun _ hnone => by cases hnone)
    fun _ P3 hP3 h3 => ?_
  · rw [← (h1 (h2 hp).2.2).2.1.readAll, List.map_map]
    rfl
  rw [← hlabels]
  refine (recordObject_emits "record" (fun hp => (h2 (h3 hp).2.2).2.1) fun hp => (h3 hp).2.1).note
    fun hp v hv => ?_
  cases hv
  exact hasShape_recordOf (h1 (h2 (h3 hp).2.2).2.2).2.1.fields
end Correct
end DataflowSpecializer.ExprSite
