import DataflowSpecializer.Code.Statement
import DataflowSpecializer.Proofs.Code.Behaviour

/-! # A machine for generated code

Statements run one after the other over locals that hold data, in a world of which only the
effectful operations know: reads and stores of fields and elements, lengths, allocation and calls.
-/
namespace DataflowSpecializer
open List Option DataflowSpecializer.Action
variable {ρ W : Type}

/-- What a local holds: a constant, or a reference to something in the world. -/
inductive Datum (ρ : Type) where
  | const (c : Constant)
  | ref (r : ρ)

inductive Effect (ρ : Type) where
  | readField (base : Datum ρ) (field : FieldId)
  | readElement (base index : Datum ρ)
  | length (array : Datum ρ)
  | new (className : String) (args : List (Datum ρ))
  | newArray (element : CodeType) (length : Datum ρ)
  | call (dispatch : Dispatch) (base : Option (Datum ρ)) (method : MethodRef)
      (args : List (Datum ρ))
  | storeField (base : Datum ρ) (field : FieldId) (value : Datum ρ)
  | storeElement (base index value : Datum ρ)

inductive Reply (ρ : Type) where
  | value (v : Datum ρ)
  | throws (v : Datum ρ)
  | traps (cause : String)

inductive Trap (ρ : Type) where
  | effect (cause : String)
  | cast (type : CodeType) (x : Datum ρ)
  | binary (op : BinaryOp) (x y : Datum ρ)
  | negate (x : Datum ρ)
  | not (x : Datum ρ)
  /-- The condition of a branch is no boolean. -/
  | branch (op : BinaryOp) (x y : Datum ρ)

inductive Ending (ρ : Type) where
  /-- Control comes to the end of the statements. -/
  | finished
  | returned (value : Option (Datum ρ))
  | threw (value : Datum ρ)
  | trapped (trap : Trap ρ)
  /-- A local is read that holds nothing. -/
  | unassigned
  /-- A jump goes to a label that is not placed. -/
  | lost (target : Label)

/-- What operations on references and the world do. -/
structure Interpretation (ρ W : Type) where
  perform : Effect ρ → W → Reply ρ × W
  cast : CodeType → Datum ρ → Option (Datum ρ)
  instanceOf : String → Datum ρ → Bool
  binary : BinaryOp → Datum ρ → Datum ρ → Option (Datum ρ)
  negate : Datum ρ → Option (Datum ρ)
  not : Datum ρ → Option (Datum ρ)
  /-- The fields that hold one text forever. To read one is no effect. -/
  text : FieldId → Option String

/-- What the locals hold. -/
abbrev Env (ρ : Type) : Type := LocalId → Option (Datum ρ)

def Env.set (env : Env ρ) (l : LocalId) (v : Datum ρ) : Env ρ :=
  fun x => if x = l then some v else env x

@[simp] lemma Env.set_self (env : Env ρ) (l : LocalId) (v : Datum ρ) :
    env.set l v l = some v := if_pos rfl

@[simp] lemma Env.set_of_ne (env : Env ρ) (h : x ≠ l) (v : Datum ρ) :
    env.set l v x = env x := if_neg h

inductive Request (ρ : Type) where
  | value (v : Datum ρ)
  | effect (e : Effect ρ)
  | trap (t : Trap ρ)

inductive Instruction (ρ : Type) where
  | set (l : LocalId) (request : Request ρ)
  | store (request : Request ρ) (effect : Datum ρ → Effect ρ)
  | perform (e : Effect ρ)
  | goto (target : Label)
  | skip
  | ret (value : Option (Datum ρ))
  | throw (value : Datum ρ)
  | trap (t : Trap ρ)

def Request.ofOption (t : Trap ρ) : Option (Datum ρ) → Request ρ
  | some v => .value v
  | none => .trap t

def Operand.read (env : Env ρ) : Operand → Option (Datum ρ)
  | .loc l => env l
  | .const c => some (.const c)

def Operand.readAll (env : Env ρ) : List Operand → Option (List (Datum ρ))
  | [] => some []
  | o :: os =>
    match o.read env, readAll env os with
    | some x, some xs => some (x :: xs)
    | _, _ => none

def readBase (env : Env ρ) : Option LocalId → Option (Option (Datum ρ))
  | none => some none
  | some l => (env l).map some

def Invocation.evaluate (env : Env ρ) (i : Invocation) : Option (Effect ρ) :=
  match readBase env i.base, Operand.readAll env i.args with
  | some base, some args => some (.call i.dispatch base i.method args)
  | _, _ => none

def Rvalue.evaluate (m : Interpretation ρ W) (env : Env ρ) : Rvalue → Option (Request ρ)
  | .use o => (o.read env).map .value
  | .cast t o => (o.read env).map fun x => .ofOption (.cast t x) (m.cast t x)
  | .instanceOf c o => (o.read env).map fun x => .value (.const (.bool (m.instanceOf c x)))
  | .field base f => (env base).map fun x =>
    match m.text f with
    | some s => .value (.const (.string s))
    | none => .effect (.readField x f)
  | .element base index =>
    match env base, index.read env with
    | some x, some i => some (.effect (.readElement x i))
    | _, _ => none
  | .length array => (env array).map fun x => .effect (.length x)
  | .new c args => (Operand.readAll env args).map fun xs => .effect (.new c xs)
  | .newArray t n => (n.read env).map fun x => .effect (.newArray t x)
  | .binary op lhs rhs =>
    match lhs.read env, rhs.read env with
    | some x, some y => some (.ofOption (.binary op x y) (m.binary op x y))
    | _, _ => none
  | .negate o => (o.read env).map fun x => .ofOption (.negate x) (m.negate x)
  | .not o => (o.read env).map fun x => .ofOption (.not x) (m.not x)
  | .invoke call => (call.evaluate env).map .effect

def Instruction.ofCondition (t : Trap ρ) (target : Label) : Option (Datum ρ) → Instruction ρ
  | some (.const (.bool true)) => .goto target
  | some (.const (.bool false)) => .skip
  | _ => .trap t

/-- What is left of a statement when its locals are read; nothing if one of them holds
nothing. -/
def Action.evaluate (m : Interpretation ρ W) (env : Env ρ) : Action → Option (Instruction ρ)
  | .assign (.loc l) value => (value.evaluate m env).map (.set l)
  | .assign (.field base f) value =>
    match env base, value.evaluate m env with
    | some x, some r => some (.store r fun v => .storeField x f v)
    | _, _ => none
  | .assign (.element base index) value =>
    match env base, index.read env, value.evaluate m env with
    | some x, some i, some r => some (.store r fun v => .storeElement x i v)
    | _, _, _ => none
  | .invoke call => (call.evaluate env).map .perform
  | .branch op lhs rhs target =>
    match lhs.read env, rhs.read env with
    | some x, some y => some (.ofCondition (.branch op x y) target (m.binary op x y))
    | _, _ => none
  | .goto target => some (.goto target)
  | .label _ | .nop => some .skip
  | .ret none => some (.ret none)
  | .ret (some o) => (o.read env).map fun x => .ret (some x)
  | .throw o => (o.read env).map .throw

/-- A machine in the middle of a run: the statements ahead, the locals and the world. -/
structure Config (ρ W : Type) where
  rest : List Action
  env : Env ρ
  world : W

def afterLabel (l : Label) : List Action → Option (List Action)
  | [] => none
  | a :: rest => if a = .label l then some rest else afterLabel l rest

def Effect.run (m : Interpretation ρ W) (e : Effect ρ) (w : W)
    (k : Datum ρ → W → Step (Effect ρ) (Ending ρ) (Config ρ W)) :
    Step (Effect ρ) (Ending ρ) (Config ρ W) :=
  match m.perform e w with
  | (.value v, w') =>
    match k v w' with
    | .next es s => .next (e :: es) s
    | .done es ending => .done (e :: es) ending
  | (.throws v, _) => .done [e] (.threw v)
  | (.traps cause, _) => .done [e] (.trapped (.effect cause))

def Request.run (m : Interpretation ρ W) (r : Request ρ) (w : W)
    (k : Datum ρ → W → Step (Effect ρ) (Ending ρ) (Config ρ W)) :
    Step (Effect ρ) (Ending ρ) (Config ρ W) :=
  match r with
  | .value v => k v w
  | .effect e => e.run m w k
  | .trap t => .done [] (.trapped t)

/-- Carries out an instruction of the statements `code`; `rest` are those that follow. -/
def Instruction.execute (m : Interpretation ρ W) (code rest : List Action) (env : Env ρ) (w : W) :
    Instruction ρ → Step (Effect ρ) (Ending ρ) (Config ρ W)
  | .set l request => request.run m w fun v w => .next [] ⟨rest, env.set l v, w⟩
  | .store request effect =>
    request.run m w fun v w => (effect v).run m w fun _ w => .next [] ⟨rest, env, w⟩
  | .perform e => e.run m w fun _ w => .next [] ⟨rest, env, w⟩
  | .goto target =>
    match afterLabel target code with
    | some rest => .next [] ⟨rest, env, w⟩
    | none => .done [] (.lost target)
  | .skip => .next [] ⟨rest, env, w⟩
  | .ret value => .done [] (.returned value)
  | .throw value => .done [] (.threw value)
  | .trap t => .done [] (.trapped t)

def Config.step (m : Interpretation ρ W) (code : List Action) (c : Config ρ W) :
    Step (Effect ρ) (Ending ρ) (Config ρ W) :=
  match c.rest with
  | [] => .done [] .finished
  | a :: rest =>
    match a.evaluate m c.env with
    | some i => i.execute m code rest c.env c.world
    | none => .done [] .unassigned

/-! ## Steps -/
section Steps
variable {m : Interpretation ρ W} {code rest : List Action} {a : Action} {env : Env ρ} {w : W}
  {es : List (Effect ρ)} {s t : Config ρ W}
  {k : Datum ρ → W → Step (Effect ρ) (Ending ρ) (Config ρ W)} {r : Request ρ} {l : Label}
  {e : Effect ρ}

lemma Config.step_cons {i : Instruction ρ} (h : a.evaluate m env = some i) :
    Config.step m code ⟨a :: rest, env, w⟩ = i.execute m code rest env w := by
  simp only [Config.step, h]

lemma Config.step_unassigned (h : a.evaluate m env = none) :
    Config.step m code ⟨a :: rest, env, w⟩ = .done [] .unassigned := by
  simp only [Config.step, h]

/-- Only what an action declares as its target is set, and only its jump is taken. -/
lemma Action.declared_of_evaluate {i : Instruction ρ} (h : a.evaluate m env = some i) :
    (∀ l, i = .goto l → a.jump? = some l) ∧ ∀ l r, i = .set l r → a.target? = some l := by
  cases a with
  | assign place value =>
    cases place with
    | loc k =>
      obtain ⟨r, -, rfl⟩ := map_eq_some_iff.1 h
      simp [target?]
    | field base f | element base index =>
      simp only [evaluate] at h
      split at h <;> cases h
      simp
  | branch op lhs rhs target =>
    simp only [evaluate] at h
    split at h <;> cases h
    unfold Instruction.ofCondition
    split <;> simp [jump?]
  | goto target =>
    cases h
    simp [jump?]
  | label k | nop =>
    cases h
    simp
  | ret value =>
    cases value with
    | none =>
      cases h
      simp
    | some o =>
      obtain ⟨x, -, rfl⟩ := map_eq_some_iff.1 h
      simp
  | invoke call | throw o =>
    obtain ⟨x, -, rfl⟩ := map_eq_some_iff.1 h
    simp

section Alike
lemma Effect.run_alike (e : Effect ρ) (w : W) (h : ∀ v w, (k v w).Alike R (k' v w)) :
    (e.run m w k).Alike R (e.run m w k') := by
  unfold Effect.run
  split
  · rename_i v w' _
    cases hk : k v w' <;> cases hk' : k' v w'
    all_goals
      have hkk := h v w'
      rw [hk, hk'] at hkk
      cases hkk
    · exact .next ‹_›
    · exact .done _ _
  · exact .done _ _
  · exact .done _ _

lemma Request.run_alike (r : Request ρ) (w : W) (h : ∀ v w, (k v w).Alike R (k' v w)) :
    (r.run m w k).Alike R (r.run m w k') := by
  cases r with
  | value v => exact h v w
  | effect e => exact e.run_alike w h
  | trap t => exact .done _ _
end Alike

lemma Effect.run_next (h : e.run m w k = .next es t) : ∃ v w' fs, k v w' = .next fs t := by
  unfold Effect.run at h
  split at h
  · split at h
    · rename_i hk
      cases h
      exact ⟨_, _, _, hk⟩
    · cases h
  · cases h
  · cases h

lemma Request.run_next (h : r.run m w k = .next es t) :
    ∃ v w' fs, k v w' = .next fs t ∧ ∀ u, r = .value u → v = u := by
  cases r with
  | value v => exact ⟨v, w, es, h, fun u hu => by cases hu; rfl⟩
  | effect e =>
    obtain ⟨v, w', fs, hk⟩ := Effect.run_next h
    exact ⟨v, w', fs, hk, nofun⟩
  | trap => cases h

inductive Config.Moves (m : Interpretation ρ W) (code : List Action) (s t : Config ρ W) : Prop
  | assigned {l : LocalId} {value : Rvalue} {rest : List Action} {v : Datum ρ} :
      s.rest = .assign (.loc l) value :: rest → t.rest = rest → t.env = s.env.set l v →
      (∀ u, value.evaluate m s.env = some (.value u) → v = u) → Moves m code s t
  | jumped {a : Action} {rest : List Action} {l : Label} :
      s.rest = a :: rest → a.jump? = some l → afterLabel l code = some t.rest →
      t.env = s.env → Moves m code s t
  | passed {a : Action} {rest : List Action} :
      s.rest = a :: rest → a.target? = none → a.fallsThrough → t.rest = rest →
      t.env = s.env → Moves m code s t

lemma Config.moves_of_set {value : Rvalue} (hrest : s.rest = .assign (.loc l) value :: rest)
    (hvalue : value.evaluate m s.env = some r)
    (h : Instruction.execute m code rest s.env s.world (.set l r) = .next es t) :
    Config.Moves m code s t := by
  rw [Instruction.execute] at h
  obtain ⟨v, w', fs, hk, hv⟩ := Request.run_next h
  cases hk
  refine .assigned hrest rfl rfl fun u hu => hv u ?_
  rw [hvalue] at hu
  exact some.inj hu

section
variable (hrest : s.rest = a :: rest)

include hrest

lemma Config.moves_of_store (htarget : a.target? = none) (hfalls : a.fallsThrough)
    (h : Instruction.execute m code rest s.env s.world (.store r effect) = .next es t) :
    Config.Moves m code s t := by
  rw [Instruction.execute] at h
  obtain ⟨v, w', fs, hk, -⟩ := Request.run_next h
  obtain ⟨u, w'', gs, hk'⟩ := Effect.run_next hk
  cases hk'
  exact .passed hrest htarget hfalls rfl rfl

lemma Config.moves_of_goto (hjump : a.jump? = some l)
    (h : Instruction.execute m code rest s.env s.world (.goto l) = .next es t) :
    Config.Moves m code s t := by
  cases hl : afterLabel l code with
  | none => simp only [Instruction.execute, hl, reduceCtorEq] at h
  | some rest' =>
    simp only [Instruction.execute, hl] at h
    cases h
    exact .jumped hrest hjump hl rfl

lemma Config.moves_of_perform (htarget : a.target? = none) (hfalls : a.fallsThrough)
    (h : Instruction.execute m code rest s.env s.world (.perform e) = .next es t) :
    Config.Moves m code s t := by
  rw [Instruction.execute] at h
  obtain ⟨v, w', fs, hk⟩ := Effect.run_next h
  cases hk
  exact .passed hrest htarget hfalls rfl rfl

lemma Config.moves_of_condition
    (hjump : a.jump? = some l) (htarget : a.target? = none) (hfalls : a.fallsThrough)
    (h : (Instruction.ofCondition trap l c).execute m code rest s.env s.world = .next es t) :
    Config.Moves m code s t := by
  unfold Instruction.ofCondition at h
  split at h
  · exact Config.moves_of_goto hrest hjump h
  · cases h
    exact .passed hrest htarget hfalls rfl rfl
  · cases h
end

/-- **Every step that leads on assigns a local, jumps, or passes to the next statement.** -/
theorem Config.moves
    (h : Config.step m code s = .next es t) : Config.Moves m code s t := by
  obtain ⟨rest, env, w⟩ := s
  cases rest with
  | nil => cases h
  | cons a rest =>
    cases ha : a.evaluate m env with
    | none =>
      rw [Config.step_unassigned ha] at h
      cases h
    | some i =>
      rw [Config.step_cons ha] at h
      cases a with
      | assign place value =>
        cases place with
        | loc l =>
          obtain ⟨r, hr, rfl⟩ := map_eq_some_iff.1 ha
          exact Config.moves_of_set rfl hr h
        | field base f | element base index =>
          simp only [evaluate] at ha
          split at ha <;> cases ha
          exact Config.moves_of_store rfl rfl rfl h
      | invoke call =>
        obtain ⟨e, -, rfl⟩ := map_eq_some_iff.1 ha
        exact Config.moves_of_perform rfl rfl rfl h
      | branch op lhs rhs target =>
        simp only [evaluate] at ha
        split at ha <;> cases ha
        exact Config.moves_of_condition rfl rfl rfl rfl h
      | goto target =>
        cases ha
        exact Config.moves_of_goto rfl rfl h
      | label l | nop =>
        cases ha
        cases h
        exact .passed rfl rfl rfl rfl rfl
      | ret value =>
        cases value with
        | none => cases ha; cases h
        | some o =>
          obtain ⟨x, -, rfl⟩ := map_eq_some_iff.1 ha
          cases h
      | throw o =>
        obtain ⟨x, -, rfl⟩ := map_eq_some_iff.1 ha
        cases h
end Steps

section Labels
lemma afterLabel_append (h : Action.label l ∉ pre) :
    afterLabel l (pre ++ rest) = afterLabel l rest := by
  induction pre with
  | nil => rfl
  | cons a pre ih =>
    rw [mem_cons, not_or] at h
    rw [cons_append, afterLabel, if_neg (Ne.symm h.1), ih h.2]

lemma afterLabel_of_first (h : Action.label l ∉ pre) :
    afterLabel l (pre ++ .label l :: rest) = some rest := by
  rw [afterLabel_append h, afterLabel, if_pos rfl]

lemma eq_append_of_afterLabel (h : afterLabel l code = some rest) :
    ∃ pre, code = pre ++ .label l :: rest ∧ Action.label l ∉ pre := by
  induction code with
  | nil => cases h
  | cons a code ih =>
    rw [afterLabel] at h
    split at h
    · rename_i ha
      cases h
      exact ⟨[], by rw [ha, nil_append], by simp⟩
    · rename_i ha
      obtain ⟨pre, rfl, hpre⟩ := ih h
      refine ⟨a :: pre, rfl, ?_⟩
      rw [mem_cons, not_or]
      exact ⟨Ne.symm ha, hpre⟩

lemma afterLabel_suffix (h : afterLabel l code = some rest) : rest <:+ code := by
  obtain ⟨pre, rfl, -⟩ := eq_append_of_afterLabel h
  exact (suffix_cons _ rest).trans (suffix_append pre _)

lemma Config.rest_suffix {s t : Config ρ W}
    (h : Reaches (Config.step m code) s es t) (hs : s.rest <:+ code) :
    t.rest <:+ code := by
  refine h.invariant (P := fun u => u.rest <:+ code) hs fun {fs gs u v} _ hu huv => ?_
  cases Config.moves huv with
  | assigned hrest hv _ _ | passed hrest _ _ hv _ =>
    rw [hv]
    exact (suffix_cons _ _).trans (hrest ▸ hu)
  | jumped _ _ hl _ => exact afterLabel_suffix hl
end Labels
end DataflowSpecializer
