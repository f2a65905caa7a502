import DataflowSpecializer.Proofs.Code.Machine

/-! # Exchange of locals

Statements in which locals are exchanged for others, or operands for constants, evaluate as before,
provided that what they read now holds what they read before (`Action.evaluate_exchange`).
-/
namespace DataflowSpecializer
open List Option DataflowSpecializer.Action Invocation Rvalue Instruction Operand
structure Exchange where
  operand : Operand → Operand
  base : LocalId → LocalId
  target : LocalId → LocalId
  const : ∀ c, operand (.const c) = .const c

namespace Exchange
def substitution (f : Operand → Operand) (h : ∀ c, f (.const c) = .const c) : Exchange :=
  ⟨f, id, id, h⟩

def newNames (f : LocalId → LocalId) : Exchange where
  operand
    | .loc l => .loc (f l)
    | o => o
  base := f
  target := f
  const _ := rfl
end Exchange

def Invocation.exchange (x : Exchange) (i : Invocation) : Invocation :=
  (i.mapOperands x.operand).mapBase x.base

def Rvalue.exchange (x : Exchange) (v : Rvalue) : Rvalue := (v.mapOperands x.operand).mapBase x.base

def Action.exchange (x : Exchange) : Action → Action
  | .assign (.loc l) value => .assign (.loc (x.target l)) (value.exchange x)
  | .assign (.field base f) value => .assign (.field (x.base base) f) (value.exchange x)
  | .assign (.element base index) value =>
    .assign (.element (x.base base) (x.operand index)) (value.exchange x)
  | .invoke call => .invoke (call.exchange x)
  | .branch op lhs rhs target => .branch op (x.operand lhs) (x.operand rhs) target
  | .ret value => .ret (value.map x.operand)
  | .throw value => .throw (x.operand value)
  | .goto target => .goto target
  | .label l => .label l
  | .nop => .nop

def Instruction.retarget {ρ : Type} (f : LocalId → LocalId) : Instruction ρ → Instruction ρ
  | .set l r => .set (f l) r
  | i => i

@[simp] lemma Instruction.retarget_ofCondition {ρ : Type} (f : LocalId → LocalId) (t : Trap ρ)
    (target : Label) (c : Option (Datum ρ)) :
    (ofCondition t target c).retarget f = ofCondition t target c := by
  unfold ofCondition
  split <;> rfl

lemma Invocation.mapBase_id (i : Invocation) : i.mapBase id = i := by simp [Invocation.mapBase]

lemma Rvalue.mapBase_id (v : Rvalue) : v.mapBase id = v := by
  cases v with
  | invoke call => simp only [Rvalue.mapBase, Invocation.mapBase_id]
  | _ => rfl

lemma Action.mapOperands_eq_exchange (f : Operand → Operand) (h : ∀ c, f (.const c) = .const c)
    (a : Action) : a.mapOperands f = a.exchange (.substitution f h) := by
  have hvalue (v : Rvalue) : v.exchange (.substitution f h) = v.mapOperands f := Rvalue.mapBase_id _
  have hcall (i : Invocation) : i.exchange (.substitution f h) = i.mapOperands f :=
    Invocation.mapBase_id _
  cases a with
  | assign place value => cases place <;> simp only [exchange, hvalue] <;> rfl
  | invoke call => simp only [exchange, hcall, mapOperands]
  | _ => rfl

lemma Action.renameLocals_eq_exchange (f : LocalId → LocalId) (a : Action) :
    a.renameLocals f = a.exchange (.newNames f) := by
  cases a with
  | assign place value => cases place <;> rfl
  | _ => rfl

lemma Rvalue.mapOperands_id (v : Rvalue) : v.mapOperands id = v := by
  cases v <;> simp [Rvalue.mapOperands, Invocation.mapOperands]

lemma Action.mapOperands_id (a : Action) : a.mapOperands id = a := by
  cases a with
  | assign place value => cases place <;> simp [mapOperands, Rvalue.mapOperands_id]
  | _ => simp [mapOperands, Invocation.mapOperands]

@[simp] lemma Action.jump?_exchange (x : Exchange) (a : Action) :
    (a.exchange x).jump? = a.jump? := by
  cases a with
  | assign place value => cases place <;> rfl
  | _ => rfl

lemma Action.exchange_eq_label {a : Action} : a.exchange x = .label l ↔ a = .label l := by
  cases a with
  | assign place value => cases place <;> simp [exchange]
  | _ => simp [exchange]

@[simp] lemma Action.target?_exchange (x : Exchange) (a : Action) :
    (a.exchange x).target? = a.target?.map x.target := by
  cases a with
  | assign place value => cases place <;> rfl
  | _ => rfl

section Locals
variable {x : Exchange} {l : LocalId}

def Exchange.Covers (x : Exchange) (ls ls' : List LocalId) : Prop :=
  ∀ l ∈ ls', ∃ k ∈ ls, l = x.base k ∨ l ∈ (x.operand (.loc k)).locals

lemma Exchange.Covers.append (hl : x.Covers ls ls')
    (hm : x.Covers ms ms') : x.Covers (ls ++ ms) (ls' ++ ms') := by
  intro l h
  rcases mem_append.1 h with h | h
  · obtain ⟨k, hk, hkl⟩ := hl l h
    exact ⟨k, mem_append_left _ hk, hkl⟩
  · obtain ⟨k, hk, hkl⟩ := hm l h
    exact ⟨k, mem_append_right _ hk, hkl⟩

lemma Exchange.covers_base (l : LocalId) : x.Covers [l] [x.base l] := by simp [Exchange.Covers]

lemma Operand.covers_exchange (o : Operand) : x.Covers o.locals (x.operand o).locals := by
  intro l h
  cases o with
  | loc k => exact ⟨k, mem_singleton_self k, .inr h⟩
  | const c =>
    rw [x.const] at h
    cases h

lemma Operand.covers_exchange_all (os : List Operand) :
    x.Covers (os.flatMap Operand.locals) ((os.map x.operand).flatMap Operand.locals) := by
  induction os with
  | nil => exact nofun
  | cons o os ih =>
    rw [map_cons, flatMap_cons, flatMap_cons]
    exact (Operand.covers_exchange o).append ih

lemma Invocation.covers_exchange (i : Invocation) : x.Covers i.locals (i.exchange x).locals := by
  refine Exchange.Covers.append ?_ (covers_exchange_all i.args)
  cases hbase : i.base with
  | none =>
    simp only [exchange, mapOperands, mapBase, hbase]
    exact nofun
  | some l =>
    simp only [exchange, mapOperands, mapBase, hbase]
    exact Exchange.covers_base l

lemma Rvalue.covers_exchange (v : Rvalue) : x.Covers v.locals (v.exchange x).locals := by
  cases v with
  | use o | cast t o | instanceOf c o | newArray t o | negate o | not o =>
    exact Operand.covers_exchange o
  | field base f | length base => exact Exchange.covers_base base
  | element base index => exact (Exchange.covers_base base).append (Operand.covers_exchange index)
  | new c args => exact covers_exchange_all args
  | binary op lhs rhs => exact (Operand.covers_exchange lhs).append (Operand.covers_exchange rhs)
  | invoke call => exact Invocation.covers_exchange call

lemma Action.covers_exchange (a : Action) : x.Covers a.uses (a.exchange x).uses := by
  cases a with
  | assign place value =>
    cases place with
    | loc l => exact value.covers_exchange
    | field base f => exact (Exchange.covers_base base).append value.covers_exchange
    | element base index =>
      exact (Exchange.covers_base base).append
        ((Operand.covers_exchange index).append value.covers_exchange)
  | invoke x | throw x => exact x.covers_exchange
  | branch op lhs rhs target =>
    exact (Operand.covers_exchange lhs).append (Operand.covers_exchange rhs)
  | ret value =>
    cases value with
    | none => exact nofun
    | some o => exact o.covers_exchange
  | goto target | label l | nop => exact nofun
end Locals

section Evaluation
variable {ρ W : Type} {m : Interpretation ρ W} {x : Exchange} {env env' : Env ρ} {i : Instruction ρ}

def Exchange.Carries (x : Exchange) (env env' : Env ρ) (l : LocalId) : Prop :=
  ∀ v, env l = some v → (x.operand (.loc l)).read env' = some v ∧ env' (x.base l) = some v

lemma Operand.read_exchange {o : Operand} (h : ∀ l ∈ o.locals, x.Carries env env' l)
    (hv : o.read env = some v) : (x.operand o).read env' = some v := by
  cases o with
  | loc l => exact (h l (mem_singleton_self l) v hv).1
  | const c =>
    rw [x.const]
    exact hv

lemma Operand.readAll_exchange {os : List Operand}
    (h : ∀ l ∈ os.flatMap Operand.locals, x.Carries env env' l)
    (hvs : readAll env os = some vs) :
    readAll env' (os.map x.operand) = some vs := by
  induction os generalizing vs with
  | nil => exact hvs
  | cons o os ih =>
    simp only [flatMap_cons, mem_append] at h
    simp only [readAll] at hvs
    split at hvs
    · rename_i v vs' hv hvs'
      cases hvs
      have hhead := read_exchange (fun l hl => h l (.inl hl)) hv
      have htail := ih (fun l hl => h l (.inr hl)) hvs'
      simp only [map_cons, readAll, hhead, htail]
    · cases hvs

lemma readBase_exchange {base : Option LocalId} (h : ∀ l ∈ base.toList, x.Carries env env' l)
    (hv : readBase env base = some v) : readBase env' (base.map x.base) = some v := by
  cases base with
  | none => exact hv
  | some l =>
    obtain ⟨u, hu, rfl⟩ := map_eq_some_iff.1 hv
    have := (h l (mem_singleton_self l) u hu).2
    simp only [map_some, readBase, this]

lemma Invocation.evaluate_exchange {i : Invocation}
    (h : ∀ l ∈ i.locals, x.Carries env env' l) (he : i.evaluate env = some e) :
    (i.exchange x).evaluate env' = some e := by
  simp only [Invocation.locals, mem_append] at h
  simp only [Invocation.evaluate] at he
  split at he
  · rename_i base args hbase hargs
    cases he
    have hbase' := readBase_exchange (fun l hl => h l (.inl hl)) hbase
    have hargs' := readAll_exchange (fun l hl => h l (.inr hl)) hargs
    simp only [Invocation.exchange, Invocation.mapOperands, Invocation.mapBase,
      Invocation.evaluate, hbase', hargs']
  · cases he

lemma Rvalue.evaluate_exchange {value : Rvalue} (h : ∀ l ∈ value.locals, x.Carries env env' l)
    (hr : value.evaluate m env = some r) : (value.exchange x).evaluate m env' = some r := by
  -- Most right-hand sides do something with the value of their only operand.
  have hone {o : Operand} (ho : ∀ l ∈ o.locals, x.Carries env env' l) {f : Datum ρ → Request ρ}
      (hf : (o.read env).map f = some r) : ((x.operand o).read env').map f = some r := by
    obtain ⟨v, hv, rfl⟩ := map_eq_some_iff.1 hf
    rw [read_exchange ho hv, map_some]
  have hbase {l : LocalId} (hl : x.Carries env env' l) {f : Datum ρ → Request ρ}
      (hf : (env l).map f = some r) : (env' (x.base l)).map f = some r := by
    obtain ⟨v, hv, rfl⟩ := map_eq_some_iff.1 hf
    rw [(hl v hv).2, map_some]
  cases value with
  | use o | cast t o | instanceOf c o | newArray t n | negate o | not o => exact hone h hr
  | field base f => exact hbase (h base (mem_singleton_self base)) hr
  | length array => exact hbase (h array (mem_singleton_self array)) hr
  | element base index =>
    simp only [Rvalue.locals, mem_cons] at h
    simp only [Rvalue.evaluate] at hr
    split at hr
    · rename_i b i hb hi
      cases hr
      have hb' := (h base (.inl rfl) b hb).2
      have hi' := read_exchange (fun l hl => h l (.inr hl)) hi
      simp only [Rvalue.exchange, Rvalue.mapOperands, Rvalue.mapBase, Rvalue.evaluate, hb', hi']
    · cases hr
  | new c args =>
    obtain ⟨vs, hvs, rfl⟩ := map_eq_some_iff.1 hr
    have hvs' := readAll_exchange h hvs
    simp only [Rvalue.exchange, Rvalue.mapOperands, Rvalue.mapBase, Rvalue.evaluate, hvs', map_some]
  | binary op lhs rhs =>
    simp only [Rvalue.locals, mem_append] at h
    simp only [Rvalue.evaluate] at hr
    split at hr
    · rename_i a b ha hb
      cases hr
      have ha' := read_exchange (fun l hl => h l (.inl hl)) ha
      have hb' := read_exchange (fun l hl => h l (.inr hl)) hb
      simp only [Rvalue.exchange, Rvalue.mapOperands, Rvalue.mapBase, Rvalue.evaluate, ha', hb']
    · cases hr
  | invoke call =>
    obtain ⟨e, he, rfl⟩ := map_eq_some_iff.1 hr
    have he' : ((call.mapOperands x.operand).mapBase x.base).evaluate env' = some e :=
      Invocation.evaluate_exchange h he
    simp only [Rvalue.exchange, Rvalue.mapOperands, Rvalue.mapBase, Rvalue.evaluate, he', map_some]

/-- **Statements with other locals evaluate as before**, where these hold what was held. -/
theorem Action.evaluate_exchange {a : Action} (h : ∀ l ∈ a.uses, x.Carries env env' l)
    (hi : a.evaluate m env = some i) :
    (a.exchange x).evaluate m env' = some (i.retarget x.target) := by
  cases a with
  | assign place value =>
    cases place with
    | loc l =>
      obtain ⟨r, hr, rfl⟩ := map_eq_some_iff.1 hi
      have hr' := Rvalue.evaluate_exchange h hr
      simp only [exchange, evaluate, hr', map_some, retarget]
    | field base f =>
      simp only [uses, mem_cons] at h
      simp only [evaluate] at hi
      split at hi
      · rename_i b r hb hr
        cases hi
        have hb' := (h base (.inl rfl) b hb).2
        have hr' := Rvalue.evaluate_exchange (fun l hl => h l (.inr hl)) hr
        simp only [exchange, evaluate, hb', hr', retarget]
      · cases hi
    | element base index =>
      simp only [uses, mem_cons, mem_append] at h
      simp only [evaluate] at hi
      split at hi
      · rename_i b k r hb hk hr
        cases hi
        have hb' := (h base (.inl rfl) b hb).2
        have hk' := read_exchange (fun l hl => h l (.inr (.inl hl))) hk
        have hr' := Rvalue.evaluate_exchange (fun l hl => h l (.inr (.inr hl))) hr
        simp only [exchange, evaluate, hb', hk', hr', retarget]
      · cases hi
  | invoke call =>
    obtain ⟨e, he, rfl⟩ := map_eq_some_iff.1 hi
    have he' := Invocation.evaluate_exchange h he
    simp only [exchange, evaluate, he', map_some, retarget]
  | branch op lhs rhs target =>
    simp only [uses, mem_append] at h
    simp only [evaluate] at hi
    split at hi
    · rename_i a b ha hb
      cases hi
      have ha' := read_exchange (fun l hl => h l (.inl hl)) ha
      have hb' := read_exchange (fun l hl => h l (.inr hl)) hb
      simp only [exchange, evaluate, ha', hb', retarget_ofCondition]
    · cases hi
  | ret value =>
    cases value with
    | none =>
      cases hi
      rfl
    | some o =>
      obtain ⟨v, hv, rfl⟩ := map_eq_some_iff.1 hi
      have hv' := read_exchange h hv
      simp only [exchange, map_some, evaluate, hv', retarget]
  | throw o =>
    obtain ⟨v, hv, rfl⟩ := map_eq_some_iff.1 hi
    have hv' := read_exchange h hv
    simp only [exchange, evaluate, hv', map_some, retarget]
  | goto target | label l | nop =>
    cases hi
    rfl

@[simp] lemma Instruction.retarget_id (i : Instruction ρ) : i.retarget id = i := by cases i <;> rfl

lemma Action.evaluate_congr {a : Action} (h : ∀ l ∈ a.uses, env' l = env l)
    (hi : a.evaluate m env = some i) : a.evaluate m env' = some i := by
  have hcarries : ∀ l ∈ a.uses, (Exchange.substitution id fun _ => rfl).Carries env env' l := by
    intro l hl v hv
    rw [← h l hl] at hv
    exact ⟨hv, hv⟩
  have := Action.evaluate_exchange hcarries hi
  rwa [← mapOperands_eq_exchange, Action.mapOperands_id, Exchange.substitution, retarget_id] at this
end Evaluation
end DataflowSpecializer
