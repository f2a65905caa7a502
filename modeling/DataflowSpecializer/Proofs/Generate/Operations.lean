import DataflowSpecializer.Generate.Expression
import DataflowSpecializer.Proofs.Generate.Emission
import DataflowSpecializer.Proofs.Value.Typing

/-! # Code for single operations -/
namespace DataflowSpecializer.Draft
open Rvalue Value
open Platform Library List Option Operand Int32
lemma isSubclass_self (c : String) : isSubclass c c := by
  show reaches c 36 c
  simp [reaches]

lemma isSubclass_of_superclass (h : superclass? c = some parent) : isSubclass c parent := by
  show reaches parent 36 c
  simp [reaches, h]

lemma isScalarToken_of_type {t : ValueType} (h : t = .ubyte ∨ t = .int ∨ t = .long ∨ t = .double) :
    isSubclass t.valueClass scalarToken := by
  rcases h with rfl | rfl | rfl | rfl <;> exact isSubclass_of_superclass rfl

lemma isMatrixToken (e : ValueType) :
    isSubclass (ValueType.matrix e).valueClass matrixToken := by
  have hclass : (ValueType.matrix e).valueClass ∈ [booleanMatrixToken, intMatrixToken,
      longMatrixToken, doubleMatrixToken, complexMatrixToken, fixMatrixToken] := by
    cases e <;> simp [ValueType.valueClass]
  generalize (ValueType.matrix e).valueClass = c at hclass
  simp only [mem_cons, not_mem_nil, or_false] at hclass
  rcases hclass with rfl | rfl | rfl | rfl | rfl | rfl <;> exact isSubclass_of_superclass rfl

lemma isScalarToken_of_lub {s t : ValueType} (hs : s.isScalar) (ht : t.isScalar)
    (h : s.lub t = .ubyte ∨ s.lub t = .int ∨ s.lub t = .long ∨ s.lub t = .double) :
    isSubclass s.valueClass scalarToken ∧ isSubclass t.valueClass scalarToken := by
  rw [ValueType.lub_scalars hs ht] at h
  refine ⟨isScalarToken_of_type ?_, isScalarToken_of_type ?_⟩
  all_goals cases s <;> cases hs <;> cases t <;> cases ht <;> revert h <;> decide

lemma isScalarToken_of_isLessThan {u v c : Value} (h : u.isLessThan v = .ok c) :
    isSubclass u.type.valueClass scalarToken ∧
      isSubclass v.type.valueClass scalarToken := by
  obtain ⟨⟨u', v'⟩, hunify, h⟩ := bind_eq_ok.1 h
  have hout : u'.type = v'.type ∧
      (u'.type = .ubyte ∨ u'.type = .int ∨ u'.type = .long ∨ u'.type = .double) := by
    split at h
    all_goals first
      | cases h; done
      | rename_i heq
        cases heq
        exact ⟨rfl, by simp [Value.type]⟩
  have hscalar : u'.type.isScalar := by rcases hout.2 with h | h | h | h <;> rw [h] <;> rfl
  obtain ⟨hu, hv, hjoin⟩ := unify_scalars hunify hout.1 hscalar
  exact isScalarToken_of_lub hu hv (hjoin ▸ hout.2)

section Calls
variable {run : Evaluator} {d : Draft} {P : Assertion} {y : Option (Datum Ref)}

lemma outcome_reply (x : Outcome) : outcome (reply x) = x.toOption.map ofValue := by
  cases x <;> rfl

lemma reply_ne_throws (x : Outcome) (u : Datum Ref) : reply x ≠ .throws u := by
  cases x <;> simp [reply]

lemma replyConst_ne_throws (c : Option Constant) (u : Datum Ref) : replyConst c ≠ .throws u := by
  cases c <;> simp [replyConst]

lemma call_ne_throws (heap : Heap) (v : Value) (name : String) (args : List (Datum Ref))
    (u : Datum Ref) : Library.call run heap v name args ≠ .throws u := by
  rw [Library.call.eq_def]
  repeat' split
  all_goals first
    | exact reply_ne_throws _ u
    | exact replyConst_ne_throws _ u
    | simp [unknown]

lemma callStatic_ne_throws (heap : Heap) (name : String) (args : List (Datum Ref))
    (u : Datum Ref) : Library.callStatic heap name args ≠ .throws u := by
  rw [Library.callStatic.eq_def]
  repeat' split
  all_goals simp [unknown]

lemma construct_ne_throws (heap : Heap) (name : String) (args : List (Datum Ref))
    (u : Datum Ref) : Library.construct heap name args ≠ .throws u := by
  rw [Library.construct.eq_def]
  repeat' split
  all_goals simp [unknown]

lemma invokeValue_eq {i : Invocation} (h : i.method.result ≠ .void) :
    invokeValue i = Draft.value i.method.name i.method.result (.invoke i) := by
  simp only [invokeValue, invoke?, if_neg h]
  rfl

lemma newObject_emits (name className : String) (args : List Operand)
    (h : ∀ {env w}, P env w → ∃ xs, readAll env args = some xs ∧
      outcome (construct w className xs) = y) :
    Emits (runtime run) d (newObject name className args d).2 P y
      (Holds (newObject name className args d).1) := by
  refine value_emits name (.object className) fun {env w} hP => ?_
  obtain ⟨xs, hxs, hy⟩ := h hP
  refine ⟨.new className xs, _, w, ?_, rfl, construct_ne_throws w className xs, hy, prefix_refl w⟩
  simp only [evaluate, hxs, map_some]

lemma callValue_emits (base : LocalId) (method : MethodRef) (args : List Operand) (v : Value)
    (hresult : method.result ≠ .void)
    (h : ∀ {env w}, P env w → ∃ xs, env base = some (ofValue v) ∧
      readAll env args = some xs ∧ outcome (Library.call run w v method.name xs) = y) :
    Emits (runtime run) d (callValue base method args d).2 P y
      (Holds (callValue base method args d).1) := by
  rw [callValue, invokeValue_eq hresult]
  refine value_emits _ _ fun {env w} hP => ?_
  obtain ⟨xs, hv, hxs, hy⟩ := h hP
  refine ⟨.call .virtual (some (ofValue v)) method xs, _, w, ?_, rfl, call_ne_throws w v _ xs, hy,
    prefix_refl w⟩
  simp only [evaluate, Invocation.evaluate, readBase, hv, hxs, map_some]

/-- What is drafted leaves the value in the local that it returns. -/
abbrev Computes (run : Evaluator) (d : Draft) (x : Drafting LocalId)
    (P : Assertion) (y : Option Value) : Prop :=
  Emits (runtime run) d (x d).2 P y fun v => Holds (x d).1 (ofValue v)

lemma operation_emits (base : LocalId) (method : MethodRef) (args : List Operand) (v : Value)
    {x : Outcome} (hresult : method.result ≠ .void)
    (h : ∀ {env w}, P env w → ∃ xs, env base = some (ofValue v) ∧
      readAll env args = some xs ∧ Library.call run w v method.name xs = reply x) :
    Computes run d (callValue base method args) P x.toOption := by
  refine (callValue_emits base method args v hresult fun hP => ?_).of_map
  obtain ⟨xs, hv, hxs, hcall⟩ := h hP
  exact ⟨xs, hv, hxs, by rw [hcall, outcome_reply]⟩

lemma callStatic_emits {method : MethodRef} (hresult : method.result ≠ .void)
    (h : ∀ {env w}, P env w → ∃ xs, readAll env args = some xs ∧
      outcome (Library.callStatic w method.name xs) = y) :
    Emits (runtime run) d (callStatic method args d).2 P y
      (Holds (callStatic method args d).1) := by
  rw [callStatic, invokeValue_eq hresult]
  refine value_emits _ _ fun {env w} hP => ?_
  obtain ⟨xs, hxs, hy⟩ := h hP
  refine ⟨.call .static none method xs, _, w, ?_, rfl, callStatic_ne_throws w _ xs, hy,
    prefix_refl w⟩
  simp only [evaluate, Invocation.evaluate, readBase, hxs, map_some]

lemma castValue_seq {α : Type} {y : Option α} {R : α → Assertion} {d2 : Draft} (name : String)
    (className : String) {l : LocalId} {v : Value} (hP : Stable d.size P)
    (hl : ∀ {env w}, P env w → env l = some (ofValue v))
    (hnone : ∀ {env w}, P env w → isSubclass v.type.valueClass className = false → y = none)
    (h : ∀ P', Stable (cast name (.object className) l d).2.size P' →
      (∀ {env w}, P' env w → env (cast name (.object className) l d).1 = some (ofValue v) ∧
        P env w) → Emits (runtime run) (cast name (.object className) l d).2 d2 P' y R) :
    Emits (runtime run) d d2 P y R := by
  have : Nonempty (Datum Ref) := ⟨ofValue v⟩
  refine (cast_emits name (.object className) hl).seq hP (fun hP hcast => hnone hP ?_) ?_
  · cases hclass : isSubclass v.type.valueClass className with
    | false => rfl
    | true =>
      simp only [runtime, Library.cast, isInstance, hclass, if_true] at hcast
      cases hcast
  · intro x P' hP' hpre
    refine h P' hP' fun {env w} hP'' => ?_
    obtain ⟨hcast, hx, hP⟩ := hpre hP''
    refine ⟨?_, hP⟩
    simp only [runtime, Library.cast] at hcast
    split at hcast
    · cases hcast
      exact hx
    · cases hcast
end Calls

section Operations
variable {run : Evaluator} {d : Draft} {P : Assertion}
  {a b l : LocalId} {u v : Value} {env : Env Ref}

lemma readAll_loc {x : Datum Ref} (h : env l = some x) : readAll env [.loc l] = some [x] := by
  simp only [readAll, Operand.read, h]

lemma readAll_loc_pair (ha : env a = some x)
    (hb : env b = some y) : readAll env [.loc a, .loc b] = some [x, y] := by
  simp only [readAll, Operand.read, ha, hb]

lemma intValue_emits (hP : Stable d.size P) (hl : ∀ {env w}, P env w → env l = some (ofValue v)) :
    Emits (runtime run) d (intValue l d).2 P v.toInt?
      fun n => Holds (intValue l d).1 (.const (.int n)) := by
  simp only [intValue, bind_run]
  refine castValue_seq "index" scalarToken hP hl (fun _ hclass => ?_) fun P' _ hpre => ?_
  · cases v with
    | ubyte | int => rw [isScalarToken_of_type (by simp [Value.type])] at hclass; cases hclass
    | _ => rfl
  · refine (callValue_emits _ (accessor scalarToken "intValue" .int) [] v (by decide)
      fun hP' => ?_).of_map
    refine ⟨[], (hpre hP').1, rfl, ?_⟩
    cases v <;> rfl

lemma booleanValue_emits (hP : Stable d.size P)
    (hl : ∀ {env w}, P env w → env l = some (ofValue v)) :
    Emits (runtime run) d (booleanValue l d).2 P v.toBool?
      fun b => Holds (booleanValue l d).1 (.const (.bool b)) := by
  simp only [booleanValue, bind_run]
  refine castValue_seq "condition" booleanToken hP hl (fun _ hclass => ?_) fun P' _ hpre => ?_
  · cases v with
    | boolean => rw [Value.type, ValueType.valueClass, isSubclass_self] at hclass; cases hclass
    | _ => rfl
  · refine (callValue_emits _ (accessor booleanToken "booleanValue" .boolean) [] v (by decide)
      fun hP' => ?_).of_map
    refine ⟨[], (hpre hP').1, rfl, ?_⟩
    cases v <;> rfl

lemma negation_emits (hP : Stable d.size P) (hl : ∀ {env w}, P env w → env l = some (ofValue v)) :
    Computes run d (negation l) P v.not.toOption := by
  simp only [Computes, negation, bind_run]
  refine castValue_seq "condition" booleanToken hP hl (fun _ hclass => ?_) fun P' _ hpre => ?_
  · cases v with
    | boolean => rw [Value.type, ValueType.valueClass, isSubclass_self] at hclass; cases hclass
    | _ => rfl
  · exact operation_emits _ (tokenUnary booleanToken "not") [] v (by decide)
      fun hP' => ⟨[], (hpre hP').1, rfl, rfl⟩

lemma binary_emits
    (hop : binaryMethods.lookup name = some op) (ha : ∀ {env w}, P env w → env a = some (ofValue u))
    (hb : ∀ {env w}, P env w → env b = some (ofValue v)) :
    Computes run d (binary name a b) P (op u v).toOption :=
  operation_emits a (tokenBinary name) [.loc b] u (by simp [tokenBinary, tokenType]) fun hP =>
    ⟨_, ha hP, readAll_loc (hb hP), by simp only [Library.call, tokenBinary, hop]⟩

lemma less_emits (hP : Stable d.size P) (ha : ∀ {env w}, P env w → env a = some (ofValue u))
    (hb : ∀ {env w}, P env w → env b = some (ofValue v)) :
    Computes run d (less a b) P (u.isLessThan v).toOption := by
  simp only [Computes, less, bind_run]
  have hnone (h : isSubclass u.type.valueClass scalarToken = false ∨
      isSubclass v.type.valueClass scalarToken = false) : (u.isLessThan v).toOption = none := by
    cases hc : u.isLessThan v with
    | error e => rfl
    | ok c =>
      obtain ⟨hu, hv⟩ := isScalarToken_of_isLessThan hc
      rw [hu, hv] at h
      simp at h
  refine castValue_seq "lhs" scalarToken hP ha (fun _ h => hnone (.inl h)) fun P1 hP1 h1 => ?_
  refine castValue_seq "rhs" scalarToken hP1 (fun h => hb (h1 h).2) (fun _ h => hnone (.inr h))
    fun P2 hP2 h2 => ?_
  refine operation_emits _ isLessThan [.loc _] u (by decide) fun hP => ?_
  exact ⟨[ofValue v], (h1 (h2 hP).2).1, readAll_loc (h2 hP).1, rfl⟩

lemma isEqualTo_emits (ha : ∀ {env w}, P env w → env a = some (ofValue u))
    (hb : ∀ {env w}, P env w → env b = some (ofValue v)) :
    Computes run d (callValue a isEqualTo [.loc b]) P (some (u.isEqualTo v)) :=
  operation_emits (x := .ok (u.isEqualTo v)) a isEqualTo [.loc b] u (by decide) fun hP =>
    ⟨[ofValue v], ha hP, readAll_loc (hb hP), rfl⟩

lemma relation_emits (op : RelationOp) (hP : Stable d.size P)
    (ha : ∀ {env w}, P env w → env a = some (ofValue u))
    (hb : ∀ {env w}, P env w → env b = some (ofValue v)) :
    Computes run d (relation op a b) P (Expr.compareValues op u v).toOption := by
  have : Nonempty Value := ⟨u⟩
  cases op with
  | eq => exact isEqualTo_emits ha hb
  | ne =>
    simp only [Computes, relation, bind_run]
    refine (isEqualTo_emits ha hb).bind (k := fun c => c.not.toOption) hP fun c P' hP' h => ?_
    exact negation_emits hP' fun h' => (h h').2.1
  | lt => exact less_emits hP ha hb
  | gt => exact less_emits hP hb ha
  | le =>
    simp only [Computes, relation, bind_run, Expr.compareValues, toOption_bind]
    refine (less_emits hP hb ha).bind hP fun c P' hP' h => ?_
    exact negation_emits hP' fun h' => (h h').2.1
  | ge =>
    simp only [Computes, relation, bind_run, Expr.compareValues, toOption_bind]
    refine (less_emits hP ha hb).bind hP fun c P' hP' h => ?_
    exact negation_emits hP' fun h' => (h h').2.1

lemma shift_emits (op : ShiftOp) (hP : Stable d.size P)
    (ha : ∀ {env w}, P env w → env a = some (ofValue u))
    (hb : ∀ {env w}, P env w → env b = some (ofValue v)) :
    Computes run d (shift op a b) P (v.toInt?.bind fun n => (u.shift op n).toOption) := by
  simp only [Computes, shift, bind_run]
  refine (intValue_emits hP hb).bind hP fun n P1 hP1 h1 => ?_
  refine castValue_seq "scalar" scalarToken hP1 (fun h => ha (h1 h).2.2) (fun _ hclass => ?_)
    fun P2 hP2 h2 => ?_
  · cases u with
    | ubyte | int | long =>
      rw [isScalarToken_of_type (by simp [Value.type])] at hclass
      cases hclass
    | _ => rfl
  · refine operation_emits _ (tokenIntArg scalarToken (shiftOpName op)) [.loc _] u
      (by simp [tokenIntArg, tokenType]) fun hP => ?_
    refine ⟨[.const (.int n)], (h2 hP).1, readAll_loc (h1 (h2 hP).2).2.1, ?_⟩
    cases op <;> rfl

lemma power_emits (hP : Stable d.size P) (ha : ∀ {env w}, P env w → env a = some (ofValue u))
    (hb : ∀ {env w}, P env w → env b = some (ofValue v)) :
    Computes run d (power a b) P (v.toInt?.bind fun n => (u.pow n).toOption) := by
  simp only [Computes, power, bind_run]
  refine (intValue_emits hP hb).bind hP fun n P1 hP1 h1 => ?_
  refine operation_emits _ (tokenIntArg token "pow") [.loc _] u (by decide) fun hP => ?_
  exact ⟨[.const (.int n)], ha (h1 hP).2.2, readAll_loc (h1 hP).2.1, rfl⟩

lemma unary_emits (op : UnaryOp) (hP : Stable d.size P)
    (hl : ∀ {env w}, P env w → env l = some (ofValue v)) : Computes run d (unary op l) P
      (match op with
        | .negate => v.negate
        | .not => v.not
        | .bitwiseNot => v.bitwiseNot : Outcome).toOption := by
  cases op with
  | negate =>
    exact operation_emits l (tokenUnary token "negate") [] v (by decide) fun hP =>
      ⟨[], hl hP, rfl, rfl⟩
  | not => exact negation_emits hP hl
  | bitwiseNot =>
    simp only [Computes, unary, bind_run]
    refine castValue_seq "scalar" scalarToken hP hl (fun _ hclass => ?_) fun P' _ h => ?_
    · cases v with
      | ubyte | int | long =>
        rw [isScalarToken_of_type (by simp [Value.type])] at hclass
        cases hclass
      | _ => rfl
    · exact operation_emits _ (tokenUnary scalarToken "bitwiseNot") [] v (by decide) fun hP =>
        ⟨[], (h hP).1, rfl, rfl⟩
end Operations

section Arrays
variable {run : Evaluator} {d : Draft} {P : Assertion}

def HoldsArray (l : LocalId) (xs : List (Datum Ref)) : Assertion := fun env w =>
  ∃ a, env l = some (.ref (.array a)) ∧ w[a]? = some xs

lemma stable_holdsArray (h : l < n) (xs : List (Datum Ref)) : Stable n (HoldsArray l xs) := by
  rintro env env' w w' henv ⟨w'', rfl⟩ ⟨a, ha, hxs⟩
  refine ⟨a, (henv l h).trans ha, ?_⟩
  obtain ⟨hlt, -⟩ := List.getElem?_eq_some_iff.1 hxs
  rw [getElem?_append_left hlt, hxs]

def stores (array : LocalId) : Nat → List Operand → List Action
  | _, [] => []
  | i, v :: vs => .assign (.element array (.int (Int32.ofNat i))) (.use v) :: stores array (i + 1) vs

lemma label_not_mem_stores (array : LocalId) (vs : List Operand) (l : Label) :
    ∀ i, Action.label l ∉ stores array i vs := by
  induction vs with
  | nil => intro i h; cases h
  | cons v vs ih =>
    intro i h
    rcases mem_cons.1 h with h | h
    · cases h
    · exact ih (i + 1) h

lemma storeElements_writes (array : LocalId) (vs : List Operand) :
    ∀ (i : Nat) (d : Draft), Writes d (storeElements array i vs d).2 (stores array i vs) := by
  induction vs with
  | nil => exact fun _ d => .refl d
  | cons v vs ih =>
    intro i d
    exact (emit_writes d fun _ => by simp).trans (ih (i + 1) _)

lemma storeElements_size (array : LocalId) (vs : List Operand) :
    ∀ (i : Nat) (d : Draft), (storeElements array i vs d).2.size = d.size := by
  induction vs with
  | nil => exact fun _ _ => rfl
  | cons v vs ih => exact fun i d => ih (i + 1) _

lemma stores_executes (run : Evaluator) {env : Env Ref} {heap : Heap}
    {array : LocalId} {vs : List Operand}
    (harray : env array = some (.ref (.array heap.length))) :
    ∀ filled blank xs : List (Datum Ref), blank.length = vs.length →
      readAll env vs = some xs → filled.length + vs.length < 2 ^ 31 →
      Executes (runtime run) (stores array filled.length vs) env (heap ++ [filled ++ blank])
        (.falls env (heap ++ [filled ++ xs])) := by
  induction vs with
  | nil =>
    intro filled blank xs hblank hxs _
    cases hxs
    rw [length_eq_zero_iff.1 hblank]
    exact .nil env _
  | cons v vs ih =>
    intro filled blank xs hblank hxs hlen
    obtain ⟨b, blank, rfl⟩ := exists_cons_of_length_eq_add_one hblank
    rw [readAll] at hxs
    split at hxs
    · rename_i x xs' hx hxs'
      cases hxs
      rw [length_cons] at hlen
      have hindex : (Int32.ofNat filled.length).toInt = filled.length :=
        toInt_ofNat_of_lt (by omega)
      have heval : Action.evaluate (runtime run) env
          (.assign (.element array (.int (Int32.ofNat filled.length))) (.use v)) =
          some (.store (.value x) fun u =>
            .storeElement (.ref (.array heap.length)) (.const (.int (.ofNat filled.length))) u) := by
        simp only [Action.evaluate, evaluate, harray, hx, map_some]
        rfl
      have hstore : Library.store (heap ++ [filled ++ b :: blank]) heap.length
          (.ofNat filled.length) x =
          (.value (.const .null), heap ++ [filled ++ x :: blank]) := by
        have hin : 0 ≤ Int32.ofNat filled.length ∧
            (Int32.ofNat filled.length).toInt.toNat < (filled ++ b :: blank).length := by
          rw [le_iff_toInt_le, hindex]
          simp
        simp only [Library.store, getElem?_concat_length]
        rw [if_pos hin, hindex]
        simp
      have hrest := ih (filled ++ [x]) blank xs' (by simpa using hblank) hxs' (by simp; omega)
      simp only [length_append, length_singleton, append_assoc, singleton_append] at hrest
      exact (Executes.store heval hstore).seq hrest (fresh_of_no_label fun l => label_not_mem_stores array vs l _)
    · cases hxs

lemma newArray_emits (name : String) (element : CodeType) (vs : List Operand)
    (xs : List (Datum Ref)) (hlen : vs.length < 2 ^ 31) (hP : Stable d.size P)
    (h : ∀ {env w}, P env w → readAll env vs = some xs) :
    Emits (runtime run) d (newArray name element vs d).2 P (some ())
      fun _ => HoldsArray (newArray name element vs d).1 xs := by
  have hwrites := (value_writes d name (.array element)
    (.newArray element (.int (Int32.ofNat vs.length)))).trans (storeElements_writes d.size vs 0 _)
  refine ⟨⟨_, hwrites⟩, fun _ => stable_holdsArray ?_ xs, fun hf env w hpre => ?_⟩
  · have hsize : (newArray name element vs d).2.size = d.size + 1 :=
      (storeElements_size d.size vs 0 _).trans (value_size d name _ _)
    rw [hsize]
    exact Nat.lt_succ_self d.size
  · rw [hf.unique hwrites]
    have hzero : 0 ≤ Int32.ofNat vs.length := by
      rw [le_iff_toInt_le, toInt_ofNat_of_lt hlen]
      simp
    have hallocate : Library.allocate w (.ofNat vs.length) = (.value (.ref (.array w.length)),
        w ++ [replicate vs.length (.const .null)]) := by
      rw [Library.allocate, if_pos hzero, toInt_ofNat_of_lt hlen, Int.toNat_natCast]
    -- The operands do not speak of the local that holds the array.
    have hread := h (hP (.set env (Nat.le_refl d.size) (.ref (.array w.length)))
      (prefix_refl w) hpre)
    have hstores := stores_executes run (Env.set_self env d.size _) []
      (replicate vs.length (.const .null)) xs length_replicate hread (by simpa using hlen)
    refine ⟨_, _, (Executes.set_effect rfl hallocate).seq hstores
      (fresh_of_no_label fun l => label_not_mem_stores _ vs l _), ⟨w.length, Env.set_self .., ?_⟩,
      .set env .refl _, prefix_append ..⟩
    simp
end Arrays

/-! ## Collections -/
section Collections
variable {run : Evaluator} {d : Draft} {P : Assertion} {l : LocalId} {v : Value} {vs : List Value}

@[simp] lemma values?_map_ofValue (vs : List Value) : values? (vs.map ofValue) = some vs := by
  induction vs with
  | nil => rfl
  | cons v vs ih => rw [map_cons, values?, ih, map_some]

@[simp] lemma texts?_map_const (labels : List String) :
    texts? (labels.map fun label => .const (.string label)) = some labels := by
  induction labels with
  | nil => rfl
  | cons label labels ih => rw [map_cons, texts?, ih, map_some]

lemma elements?_of_values {address : Nat}
    (h : heap[address]? = some (vs.map ofValue)) : elements? heap address = some vs := by
  rw [elements?, h, bind_some, values?_map_ofValue]

lemma arrayObject_emits (name text : String)
    (h : ∀ {env w}, P env w → HoldsArray l (vs.map ofValue) env w) :
    Computes run d (newObject name arrayToken [.string text, .loc l]) P (some (arrayOf vs)) := by
  refine (newObject_emits name arrayToken _ fun {env w} hP => ?_).of_map
  obtain ⟨a, ha, hvs⟩ := h hP
  refine ⟨[.const (.string text), .ref (.array a)], ?_, ?_⟩
  · simp only [readAll, Operand.read, Operand.string, ha]
  · simp only [construct, if_true, elements?_of_values hvs, outcome, map_some]

lemma recordObject_emits (name : String) {labels : List String} (hnames : ∀ {env w}, P env w →
      HoldsArray names (labels.map fun label => .const (.string label)) env w)
    (h : ∀ {env w}, P env w → HoldsArray l (vs.map ofValue) env w) :
    Computes run d (newObject name recordToken [.loc names, .loc l]) P
      (some (recordOf (labels.zip vs))) := by
  refine (newObject_emits name recordToken _ fun {env w} hP => ?_).of_map
  obtain ⟨a, ha, hlabels⟩ := hnames hP
  obtain ⟨b, hb, hvs⟩ := h hP
  refine ⟨[.ref (.array a), .ref (.array b)], readAll_loc_pair ha hb, ?_⟩
  simp only [construct, if_true, hlabels, bind_some, texts?_map_const,
    elements?_of_values hvs, outcome, map_some]

lemma matrixObject_emits (className : String) (hrows : rows < 2 ^ 31)
    (hcols : cols < 2 ^ 31) (h : ∀ {env w}, P env w → HoldsArray l (vs.map ofValue) env w) :
    Computes run d (callStatic (arrayToMatrix className)
      [.loc l, .int (Int32.ofNat rows), .int (Int32.ofNat cols)]) P (some (matrixOf rows cols vs)) := by
  refine (callStatic_emits (by simp [arrayToMatrix]) fun {env w} hP => ?_).of_map
  obtain ⟨a, ha, hvs⟩ := h hP
  refine ⟨[.ref (.array a), .const (.int (Int32.ofNat rows)), .const (.int (Int32.ofNat cols))],
    ?_, ?_⟩
  · simp only [readAll, Operand.read, Operand.int, ha]
  · simp only [Library.callStatic, arrayToMatrix, if_true, elements?_of_values hvs, outcome,
      toInt_ofNat_of_lt hrows, toInt_ofNat_of_lt hcols, Int.toNat_natCast,
      map_some]

section
variable (hl : ∀ {env w}, P env w → env l = some (ofValue v))

include hl

lemma applyFunction_emits {arguments : LocalId}
    (h : ∀ {env w}, P env w → HoldsArray arguments (vs.map ofValue) env w) :
    Computes run d (callValue l functionApply [.loc arguments]) P
      (Expr.applyValue run v vs).toOption := by
  refine operation_emits l functionApply [.loc arguments] v (by decide) fun hP => ?_
  obtain ⟨a, ha, hvs⟩ := h hP
  refine ⟨[.ref (.array a)], hl hP, readAll_loc ha, ?_⟩
  simp only [Library.call, functionApply, if_true, elements?_of_values hvs]

lemma element_emits {index : LocalId} {i : Int32}
    (hi : ∀ {env w}, P env w → env index = some (.const (.int i))) :
    Computes run d (callValue l arrayGetElement [.loc index]) P (v.element i).toOption :=
  operation_emits l arrayGetElement [.loc index] v (by decide) fun hP =>
    ⟨[.const (.int i)], hl hP, readAll_loc (hi hP), rfl⟩

lemma matrixElement_emits {row col : LocalId} {r c : Int32}
    (hr : ∀ {env w}, P env w → env row = some (.const (.int r)))
    (hc : ∀ {env w}, P env w → env col = some (.const (.int c))) :
    Computes run d (callValue l matrixGetElement [.loc row, .loc col]) P
      (v.matrixElement r c).toOption :=
  operation_emits l matrixGetElement [.loc row, .loc col] v (by decide) fun hP =>
    ⟨[.const (.int r), .const (.int c)], hl hP, readAll_loc_pair (hr hP) (hc hP), rfl⟩
end

lemma field_emits (label : String) (hl : ∀ {env w}, P env w → env l = some (ofValue v)) :
    Computes run d (callValue l recordGet [.string label]) P (v.field label).toOption :=
  operation_emits l recordGet [.string label] v (by decide) fun hP =>
    ⟨[.const (.string label)], hl hP, rfl, rfl⟩

lemma ofConstant?_literalForm (x : Literal) :
    ofConstant? (literalForm x).1 (literalForm x).2 = some (.ofLiteral x) := by
  cases x with
  | ubyte n =>
    have hlt : n.toNat < 2 ^ 31 := n.toNat_lt.trans (by decide)
    show some (Value.ubyte (UInt8.ofNat (Int32.ofNat n.toNat).toInt.toNat)) = _
    rw [toInt_ofNat_of_lt hlt, Int.toNat_natCast, UInt8.ofNat_toNat]
    rfl
  | _ => rfl

lemma literal_emits (name : String) (x : Literal) :
    Emits (runtime run) d (newObject name (literalForm x).1 [.const (literalForm x).2] d).2 P
      (some (.ofLiteral x))
      fun v => Holds (newObject name (literalForm x).1 [.const (literalForm x).2] d).1
        (ofValue v) := by
  refine (newObject_emits name _ _ fun {env w} hP => ⟨[.const (literalForm x).2], rfl, ?_⟩).of_map
  simp only [construct, ofConstant?_literalForm, outcome, map_some]

lemma boxed_emits (run : Evaluator) (hv : v.type.isScalar) (hP : Stable d.size P) :
    ∃ l, (boxed v d).1 = .ok l ∧
      Emits (runtime run) d (boxed v d).2 P (some v) fun u => Holds l (ofValue u) := by
  cases v with
  | boolean b => exact ⟨_, rfl, literal_emits "constant" (.boolean b)⟩
  | ubyte n => exact ⟨_, rfl, literal_emits "constant" (.ubyte n)⟩
  | int n => exact ⟨_, rfl, literal_emits "constant" (.int n)⟩
  | long n => exact ⟨_, rfl, literal_emits "constant" (.long n)⟩
  | double x => exact ⟨_, rfl, literal_emits "constant" (.double x)⟩
  | string s => exact ⟨_, rfl, literal_emits "constant" (.string s)⟩
  | complex re im =>
    have : Nonempty (Datum Ref) := ⟨.const .null⟩
    refine ⟨_, rfl, ?_⟩
    refine (newObject_emits (y := some (.ref (.complex re im))) "complex" Platform.complex
      [.const (.double re), .const (.double im)] fun _ => ⟨[.const (.double re), .const (.double im)], rfl, rfl⟩).seq hP
      (fun _ h => by cases h) fun x P' _ h => ?_
    refine (newObject_emits "constant" complexToken [.loc _] fun hP' => ?_).of_map
    obtain ⟨hx, hl, -⟩ := h hP'
    cases hx
    exact ⟨[.ref (.complex re im)], readAll_loc hl, rfl⟩
  | array | matrix | record | function => cases hv
end Collections
end DataflowSpecializer.Draft
