import DataflowSpecializer.Proofs.Model.Declared
import DataflowSpecializer.Proofs.Model.Writes

/-! # Types of variables

A variable without a declaration gets the type of the value that it is loaded with, joined with the
types of what actors write to it.
-/
namespace DataflowSpecializer
open List Option SortedMap ActorKind ValueType Value Bool

variable {v : ObjectId} {x : Variable}
/-! ## Rounds of typing -/
namespace Model.KnownTypes
variable {m : Model} {lenient : Bool} {k k' : KnownTypes} {b b' : Bool} {p : ObjectId}

section
variable (h : updatePort m lenient (k, b) p = .ok (k', b'))

include h

lemma updatePort_cases : (k' = k ∧ b' = b ∧ ((m.port? p).any (·.declared.isSome) = false →
      inferPort m k lenient p = .ok none ∨ inferPort m k lenient p = .ok (k.ports.get? p))) ∨
    (b' ∧ (m.port? p).any (·.declared.isSome) = false ∧ ∃ t,
      inferPort m k lenient p = .ok (some t) ∧ k' = { k with ports := k.ports.insert p t }) := by
  unfold updatePort at h
  dsimp only at h
  split at h
  · rename_i hdeclared
    cases h
    exact .inl ⟨rfl, rfl, fun hnone => by rw [hdeclared] at hnone; cases hnone⟩
  · rename_i hdeclared
    obtain ⟨r, hr, h⟩ := bind_eq_ok.1 h
    cases r with
    | none =>
      cases h
      exact .inl ⟨rfl, rfl, fun _ => .inl hr⟩
    | some t =>
      dsimp only at h
      split at h
      · rename_i hsame
        cases h
        exact .inl ⟨rfl, rfl, fun _ => .inr (hr.trans (congrArg _ hsame.symm))⟩
      · cases h
        exact .inr ⟨rfl, by simpa using hdeclared, t, hr, rfl⟩

lemma updatePort_eq_ok : k'.vars = k.vars := by
  rcases updatePort_cases h with ⟨rfl, -⟩ | ⟨-, -, t, -, rfl⟩ <;> rfl
end

lemma updateWritten_cases (m : Model) (k : KnownTypes) (b : Bool) (a v : ObjectId) :
    updateWritten m (k, b) (a, v) = (k, b) ∧ ((m.var? v).any (·.declared.isSome) = false → ∀ p t,
        m.portNamed? a inputPort = some p → k.ports.get? p = some t →
          k.vars.get? v = some (joinKnown (k.vars.get? v) t)) ∨ ∃ t, updateWritten m (k, b) (a, v) =
      ({ k with vars := k.vars.insert v (joinKnown (k.vars.get? v) t) }, true) := by
  unfold updateWritten
  dsimp only
  split
  · rename_i hdeclared
    exact .inl ⟨rfl, fun h => by rw [hdeclared] at h; cases h⟩
  · split
    · rename_i hnone
      refine .inl ⟨rfl, fun _ p t hp ht => ?_⟩
      rw [hp, bind_some, ht] at hnone
      cases hnone
    · rename_i t ht
      split
      · rename_i hsame
        refine .inl ⟨rfl, fun _ p u hp hu => ?_⟩
        rw [hp, bind_some, hu] at ht
        cases ht
        exact hsame
      · exact .inr ⟨t, rfl⟩

lemma foldl_updateWritten_stable {ws : List (ObjectId × ObjectId)}
    (h : ws.foldl (updateWritten m) (k, b) = (k', false)) :
    b = false ∧ k' = k ∧ ∀ w ∈ ws, updateWritten m (k, b) w = (k, b) := by
  induction ws generalizing k b with
  | nil =>
    cases h
    exact ⟨rfl, rfl, nofun⟩
  | cons w ws ih =>
    obtain ⟨a, v⟩ := w
    rw [foldl_cons] at h
    rcases updateWritten_cases m k b a v with ⟨hsame, -⟩ | ⟨t, hnew⟩
    · rw [hsame] at h
      obtain ⟨hb, hk, hall⟩ := ih h
      exact ⟨hb, hk, forall_mem_cons.2 ⟨hsame, hall⟩⟩
    · rw [hnew] at h
      cases (ih h).1

def Covers (m : Model) (k : KnownTypes) : Prop :=
  ∀ a v, (a, v) ∈ m.writers → (m.var? v).any (·.declared.isSome) = false → ∀ p t,
    m.portNamed? a inputPort = some p → k.ports.get? p = some t →
      ∃ s, k.vars.get? v = some s ∧ t.leq s

lemma covers_of_round (h : round m lenient k = .ok (k', false)) : Covers m k' := by
  obtain ⟨⟨k1, b1⟩, -, h⟩ := bind_eq_ok.1 h
  obtain ⟨hb, hk, hall⟩ := foldl_updateWritten_stable (Except.ok.inj h)
  subst hk hb
  intro a v hwriter hdeclared p t hp ht
  rcases updateWritten_cases m k' false a v with ⟨-, hsame⟩ | ⟨u, hnew⟩
  · have hjoin := hsame hdeclared p t hp ht
    refine ⟨_, hjoin, ?_⟩
    rw [hjoin]
    exact leq_lub_right _ t
  · rw [hall _ hwriter] at hnew
    exact absurd (congrArg Prod.snd hnew) nofun

section Rounds
variable {P : KnownTypes → Prop}
  (hports : ∀ {k k' b b' port}, P k → updatePort m lenient (k, b) port = .ok (k', b') → P k')
  (hwritten : ∀ {k b a v}, (a, v) ∈ m.writers → P k → P (updateWritten m (k, b) (a, v)).1)

include hports in
lemma foldlM_updatePort_ensures {ports : List ObjectId} (hk : P k)
    (h : ports.foldlM (updatePort m lenient) (k, b) = .ok (k', b')) : P k' := by
  induction ports generalizing k b with
  | nil =>
    cases h
    exact hk
  | cons port ports ih =>
    rw [foldlM_cons] at h
    obtain ⟨⟨k1, b1⟩, hport, h⟩ := bind_eq_ok.1 h
    exact ih (hports hk hport) h

include hwritten in
lemma foldl_updateWritten_ensures {ws : List (ObjectId × ObjectId)} (hws : ws ⊆ m.writers)
    (state : KnownTypes × Bool) (hk : P state.1) : P (ws.foldl (updateWritten m) state).1 := by
  induction ws generalizing state with
  | nil => exact hk
  | cons w ws ih =>
    obtain ⟨hw, hws⟩ := cons_subset.1 hws
    exact ih hws _ (hwritten hw hk)

include hports hwritten

lemma round_ensures (hk : P k) (h : round m lenient k = .ok (k', b')) : P k' := by
  obtain ⟨⟨k1, b1⟩, hfold, h⟩ := bind_eq_ok.1 h
  have hlast := foldl_updateWritten_ensures hwritten (List.Subset.refl _) (k1, b1)
    (foldlM_updatePort_ensures hports hk hfold)
  rw [Except.ok.inj h] at hlast
  exact hlast

lemma settle_ensures (hk : P k) (h : settle m lenient n k = .ok (n', k')) :
    P k' ∧ ∃ k0, round m lenient k0 = .ok (k', false) := by
  induction n generalizing k with
  | zero =>
    rw [settle] at h
    obtain ⟨⟨k1, changed⟩, hround, h⟩ := bind_eq_ok.1 h
    cases changed with
    | false =>
      cases h
      exact ⟨round_ensures hports hwritten hk hround, k, hround⟩
    | true => cases h
  | succ n ih =>
    rw [settle] at h
    obtain ⟨⟨k1, changed⟩, hround, h⟩ := bind_eq_ok.1 h
    cases changed with
    | false =>
      cases h
      exact ⟨round_ensures hports hwritten hk hround, k, hround⟩
    | true => exact ih (round_ensures hports hwritten hk hround) h
end Rounds

/-- Variables without a declaration are accounted for by the types of their values: these are below
theirs, and the same where nobody writes. -/
def Accounts (m : Model) (k : KnownTypes) : Prop :=
  ∀ v x y, m.var? v = some x → x.declared = none → x.value = some y →
    ∃ s, k.vars.get? v = some s ∧ (v ∉ m.targets → s = y.type) ∧
      (y.type.IsCanonical → y.type.leq s)

lemma Accounts.updateWritten (hk : Accounts m k) (hv : (a, v) ∈ m.writers) :
    Accounts m (updateWritten m (k, b) (a, v)).1 := by
  rcases updateWritten_cases m k b a v with ⟨hsame, -⟩ | ⟨t, hnew⟩
  · rwa [hsame]
  · rw [hnew]
    intro u x y hx hdeclared hy
    obtain ⟨s, hs, hunwritten, hbelow⟩ := hk u x y hx hdeclared hy
    by_cases huv : u = v
    · subst huv
      refine ⟨_, get?_insert_self _ _ _, fun hu => ?_, fun hcanonical => ?_⟩
      · exact absurd (List.mem_map_of_mem (f := (·.2)) hv) hu
      · rw [hs]
        exact leq_lub_of_leq t (hbelow hcanonical)
    · exact ⟨s, (get?_insert_of_ne _ huv _).trans hs, hunwritten, hbelow⟩

lemma get?_initial (hx : m.var? v = some x)
    (htyped : (x.declared.isSome || x.value.isSome)) :
    (initial m).vars.get? v = some x.resolved := by
  have hvars : (initial m).vars = ofList ((m.variableIds.filter fun o =>
      (m.var? o).any fun v => v.declared.isSome || v.value.isSome).map
        fun o => (o, m.variableType o)) := by
    rw [← filterMap_eq_map, filterMap_filter]
    refine congrArg ofList (filterMap_congr fun o _ => ?_)
    cases ho : m.var? o with
    | none => rfl
    | some v => simp [variableType, ho]
  have hmem : v ∈ m.variableIds := mem_variableIds.2 (by rw [isVariable, hx]; rfl)
  rw [hvars, get?_ofList_map, if_pos]
  · rw [variableType, hx]
  · exact mem_filter.2 ⟨hmem, by simpa [hx] using htyped⟩

variable (hm : ∀ v x y, m.var? v = some x → x.declared = none → x.value = some y → x.resolved = y.type)

include hm

lemma accounts_initial : Accounts m (initial m) := by
  intro v x y hx hdeclared hy
  refine ⟨_, get?_initial hx (by simp [hy]), fun _ => hm v x y hx hdeclared hy, fun hy' => ?_⟩
  rw [hm v x y hx hdeclared hy]
  exact leq_refl hy'

lemma ofModel_ensures (h : ofModel m = .ok k) : Accounts m k ∧ Covers m k := by
  have hports {lenient : Bool} {k k' : KnownTypes} {b b' : Bool} {port : ObjectId}
      (hk : Accounts m k) (h : updatePort m lenient (k, b) port = .ok (k', b')) : Accounts m k' := by
    unfold Accounts
    rw [updatePort_eq_ok h]
    exact hk
  obtain ⟨⟨n, k1⟩, hfirst, h⟩ := bind_eq_ok.1 h
  obtain ⟨⟨n', k2⟩, hsecond, h⟩ := bind_eq_ok.1 h
  cases h
  have hk1 := (settle_ensures hports (fun hv hk => hk.updateWritten hv) (accounts_initial hm) hfirst).1
  obtain ⟨hk2, k0, hlast⟩ := settle_ensures hports (fun hv hk => hk.updateWritten hv) hk1 hsecond
  exact ⟨hk2, covers_of_round hlast⟩
end Model.KnownTypes

namespace Expr
variable {types : TypeScope}

/-- The node gives a scalar of exactly the inferred type, if its parts do. -/
def IsExact (scope : Scope) (types : TypeScope) : Expr → Prop
  | .ident name => types name = scope.types name ∧ ∀ v, scope name = some v → v.type.isScalar
  | .literal _ | .sum _ _ | .product _ _ | .relation _ _ _ | .logic _ _ | .bitwise _ _
  | .shift _ _ _ | .unary _ _ => True
  | _ => False

def Exact (run : Evaluator) (scope : Scope) (types : TypeScope) (e : Expr) : Prop :=
  ∀ v t, evaluateWith run scope e = .ok v → infer types e = .ok t → v.type = t ∧ t.isScalar

lemma type_eq_boolean {v : Value} (h : v.HasType .boolean) : v.type = .boolean := by
  have hle := h.type_leq
  cases htype : v.type <;> rw [htype] at hle <;> first | rfl | cases hle

lemma chainOp_type {op : ChainOp} {a b c : Value} (ha : a.type.isScalar)
    (hb : b.type.isScalar) (h : op.apply a b = .ok c) : c.type = a.type.lub b.type := by
  cases op with
  | arith op =>
    rw [ChainOp.apply, arith_of_isScalar ha hb] at h
    exact (scalarArith_type h).2.2
  | bitwise op => exact (bitwise_type h).2.2

lemma chainOp_exact {op : ChainOp} {a b c : Value} {s t : ValueType}
    (ha : a.type = s ∧ s.isScalar) (hb : b.type = t ∧ t.isScalar)
    (h : op.apply a b = .ok c) : c.type = s.lub t ∧ (s.lub t).isScalar := by
  obtain ⟨rfl, ha⟩ := ha
  obtain ⟨rfl, hb⟩ := hb
  refine ⟨chainOp_type ha hb h, ?_⟩
  rw [lub_scalars ha hb]
  exact scalarLub_isScalar ha hb

lemma exact_of_everywhere {e : Expr} (he : e.Everywhere (IsExact scope types)) :
    Exact run scope types e := by
  induction he with
  | @intro e hexact _ ih =>
    intro v t hv ht
    cases e with
    | literal l =>
      cases hv; cases ht
      exact ⟨rfl, type_ofLiteral_isScalar l⟩
    | ident name =>
      obtain ⟨htypes, hscalar⟩ := hexact
      rw [evaluateWith] at hv
      rw [infer, htypes, Scope.types] at ht
      cases hs : scope name with
      | some w =>
        simp only [hs, map_some, some_or] at hv ht
        cases hv; cases ht
        exact ⟨rfl, hscalar v hs⟩
      | none =>
        simp only [hs, map_none, none_or] at hv ht
        cases hc : Builtin.constant? name with
        | none => rw [hc] at hv; cases hv
        | some w =>
          rw [hc] at hv ht
          cases hv; cases ht
          exact ⟨rfl, isScalar_constant hc⟩
    | sum first rest | product first rest => exact chain_ensures chainOp_exact rfl ih hv ht
    | relation op lhs rhs =>
      obtain ⟨a, -, b, -, hv⟩ := bind₂_eq_ok hv
      obtain ⟨s, -, u, -, ht⟩ := bind₂_eq_ok ht
      cases ht
      exact ⟨type_eq_boolean (compareValues_hasType hv), rfl⟩
    | logic op operands =>
      obtain ⟨ts, -, ht⟩ := bind_eq_ok.1 ht
      cases ht
      exact ⟨type_eq_boolean (evaluateLogic_hasType hv), rfl⟩
    | bitwise op operands =>
      cases operands with
      | nil => cases hv
      | cons first rest => exact chain_ensures chainOp_exact rfl ih hv ht
    | shift op lhs rhs =>
      obtain ⟨a, ha, b, -, hv⟩ := bind₂_eq_ok hv
      obtain ⟨-, -, ht⟩ := bind_eq_ok.1 ht
      obtain ⟨rfl, hscalar⟩ := ih lhs (.head _) a t ha ht
      split at hv
      · cases a <;> cases hv <;> exact ⟨rfl, rfl⟩
      · cases hv
    | unary op operand =>
      obtain ⟨a, ha, hv⟩ := bind_eq_ok.1 hv
      obtain ⟨s, hs, ht⟩ := bind_eq_ok.1 ht
      obtain ⟨rfl, hscalar⟩ := ih operand (.head _) a s ha hs
      cases ht
      cases op <;> cases a <;> first | cases hv <;> exact ⟨rfl, rfl⟩ | cases hscalar
    | _ => exact hexact.elim
end Expr

/-! ## Loaded types -/
namespace Model
section Loaded
variable {m : Model} {values : Values} {k : KnownTypes} {g : ObjectId → Object → Object}
  {p : ObjectId}

lemma var?_mapIdx (hx : var? { m with objects := m.objects.mapIdx g } v = some x) :
    (g v (m.object v)).kind = .var x := by
  unfold var? kind at hx
  rw [object_mapIdx] at hx
  split at hx
  · rename_i hk
    cases hx
    split at hk
    · exact hk
    · cases hk
  · cases hx

lemma port?_mapIdx {q : Port} (hq : port? { m with objects := m.objects.mapIdx g } p = some q) :
    (g p (m.object p)).kind = .port q := by
  unfold port? kind at hq
  rw [object_mapIdx] at hq
  split at hq
  · rename_i hk
    cases hq
    split at hk
    · exact hk
    · cases hk
  · cases hq

lemma resolved_setValues (v : ObjectId) (x : Variable) (y : Value)
    (hx : (m.setValues values).var? v = some x) (hdeclared : x.declared = none)
    (hy : x.value = some y) : x.resolved = y.type := by
  have hkind := var?_mapIdx hx
  split at hkind
  · cases hkind
    simp_all [Variable.withValue]
  · rename_i hnone
    exact absurd hkind (hnone x)

lemma var?_setTypes (hx : (m.setTypes k).var? v = some x) :
    ∃ x0, m.var? v = some x0 ∧ x = { x0 with resolved := (k.vars.get? v).getD x0.resolved } := by
  have hkind := var?_mapIdx hx
  split at hkind
  · cases hkind
  · rename_i x0 hx0
    cases hkind
    exact ⟨x0, by rw [var?, kind, hx0], rfl⟩
  · rename_i hnone
    exact absurd hkind (hnone x)

lemma get?_of_portType_setTypes (h : (m.setTypes k).portType p ≠ .unknown) :
    k.ports.get? p = some ((m.setTypes k).portType p) := by
  cases hq : (m.setTypes k).port? p with
  | none =>
    rw [portType, hq] at h
    exact absurd rfl h
  | some q =>
    have htype : (m.setTypes k).portType p = q.resolved := by rw [portType, hq]
    rw [htype] at h ⊢
    have hkind := port?_mapIdx hq
    split at hkind
    · cases hkind
      cases hget : k.ports.get? p with
      | none =>
        rw [hget] at h
        exact absurd rfl h
      | some t => rfl
    · cases hkind
    · rename_i hnone _
      exact absurd hkind (hnone q)
end Loaded

/-- Names at the types of the variables that they resolve to. -/
def typeScope (m : Model) (owner : ObjectId) : TypeScope := fun name =>
  (m.resolve? owner name).map m.variableType

/-- Every name holds a scalar of its resolved type, and every operator keeps types. -/
def IsUnwidened (m : Model) (owner : ObjectId) : Expr → Prop
  | .ident name => ∀ v, m.resolve? owner name = some v →
      ∃ x y, m.var? v = some x ∧ x.value = some y ∧ y.type.isScalar ∧ x.resolved = y.type
  | .literal _ | .sum _ _ | .product _ _ | .relation _ _ _ | .logic _ _ | .bitwise _ _
  | .shift _ _ _ | .unary _ _ => True
  | _ => False

variable {m : Model}

lemma isExact_of_isUnwidened {e : Expr} (h : m.IsUnwidened owner e) :
    e.IsExact (m.valueScope m.values owner) (m.typeScope owner) := by
  cases e with
  | ident name =>
    show m.typeScope owner name = (m.valueScope m.values owner name).map Value.type ∧
      ∀ v, m.valueScope m.values owner name = some v → v.type.isScalar
    unfold typeScope valueScope
    cases hv : m.resolve? owner name with
    | none => exact ⟨rfl, nofun⟩
    | some v =>
      obtain ⟨x, y, hx, hy, hscalar, htype⟩ := h v hv
      have hvalue : m.values.get? v = some (some y) := by
        rw [get?_values, isVariable, hx]
        simp [hy]
      simp [hvalue, variableType, hx, htype, hscalar]
  | literal | sum | product | relation | logic | bitwise | shift | unary => trivial
  | _ => exact h.elim

lemma evaluate_of_evaluateExpr {values : Values}
    {e : Expr} {y : Value} (hx : m.var? v = some x) (hdeclared : x.declared = none)
    (h : m.evaluateExpr values v e = .ok y) : e.evaluate (m.valueScope values v) = .ok y := by
  unfold evaluateExpr at h
  split at h
  · cases h
  · rename_i z hz
    rw [hx, bind_some, hdeclared] at h
    cases h
    exact hz

lemma resolved_loaded (h : ofDescription d = .ok m) {y : Value}
    (hx : m.var? v = some x) (hdeclared : x.declared = none)
    (hy : x.value = some y) : (v ∉ m.targets → x.resolved = y.type) ∧
      (y.type.IsCanonical → y.type.leq x.resolved) ∧
      ∀ a p, (a, v) ∈ m.writers → m.portNamed? a inputPort = some p →
        m.portType p = .unknown ∨ (m.portType p).leq x.resolved := by
  obtain ⟨m0, values, k, -, -, hk, rfl⟩ := ofDescription_eq_ok h
  obtain ⟨haccounts, hcovers⟩ := KnownTypes.ofModel_ensures resolved_setValues hk
  obtain ⟨x0, hx0, rfl⟩ := var?_setTypes hx
  have hsame := sameObjects_setTypes (m0.setValues values) k
  obtain ⟨s, hs, hunwritten, hbelow⟩ := haccounts v x0 y hx0 hdeclared hy
  rw [targets, hsame.writers, hs, getD_some]
  refine ⟨hunwritten, hbelow, fun a p ha hp => ?_⟩
  by_cases hunknown : ((m0.setValues values).setTypes k).portType p = .unknown
  · exact .inl hunknown
  · have hundeclared : ((m0.setValues values).var? v).any (·.declared.isSome) = false := by
      rw [hx0]
      exact congrArg isSome hdeclared
    rw [portNamed?, hsame.lookup?] at hp
    obtain ⟨s', hs', hle⟩ := hcovers a v ha hundeclared p _ hp (get?_of_portType_setTypes hunknown)
    obtain rfl := some.inj (hs.symm.trans hs')
    exact .inr hle

/-- The type of a variable without a declaration is that of its loaded value where nobody writes it.
In any case it is above that of the value, and above the types of what actors write to the variable.
It is above the type of the expression as long as the types of the variables in this have not been
widened. -/
theorem variableType_covers_writes (d : Description.Entity) (m : Model)
    (h : ofDescription d = .ok m) (w : ObjectId) (x : Variable) (hx : m.var? w = some x)
    (hdeclared : x.declared = none) (hblank : Text.isAllBlank x.expression = false) :
    ∃ e y, Expr.parse? x.expression = some e ∧ x.value = some y ∧
      (w ∉ m.targets → m.variableType w = y.type) ∧
      y.type.leq (m.variableType w) ∧
      (∀ a p, (a, w) ∈ m.writers → m.portNamed? a inputPort = some p →
        m.portType p = .unknown ∨ (m.portType p).leq (m.variableType w)) ∧
      (e.Everywhere (m.IsUnwidened w) → ∀ t, e.infer (m.typeScope w) = .ok t →
        t.leq (m.variableType w)) := by
  obtain ⟨vs, hvs, hmem⟩ := evaluated_of_ofDescription h
  have hvar : m.isVariable w := by rw [isVariable, hx]; rfl
  obtain ⟨e, y, he, hy, hevaluate⟩ :=
    (hvs.satisfied ((hmem w).2 (mem_variableIds.2 hvar))).value hx hblank
  have hloaded : m.values.get? w = some (some y) := by rw [get?_values, if_pos hvar, hx, bind_some, hy]
  have hcanonical := (hvs.intact (regular_of_ofDescription h) w y hloaded).type_isCanonical
  obtain ⟨hunwritten, hbelow, hwritten⟩ := resolved_loaded h hx hdeclared hy
  have htype : m.variableType w = x.resolved := by rw [variableType, hx]
  rw [htype]
  refine ⟨e, y, he, hy, hunwritten, hbelow hcanonical, hwritten, fun hexact t ht => ?_⟩
  have hvalue := evaluate_of_evaluateExpr hx hdeclared hevaluate
  obtain ⟨rfl, -⟩ :=
    Expr.exact_of_everywhere (hexact.imp fun _ => isExact_of_isUnwidened) y t hvalue ht
  exact hbelow hcanonical

def writtenFactor (value : String) : Description.Entity where
  name := "M"
  parameters := [{ name := "p", expression := "1" }, { name := "w", expression := "p * 2" }]
  entities :=
    [{ name := "c", kind := "Const", parameters := [{ name := "value", expression := value }] },
     { name := "s", kind := "SetVariable"
       parameters := [{ name := "variableName", expression := "p" }] }]
  relations := [{ name := "r", links := ["c.output", "s.input"] }]

def factorOf? : Expr → Option String
  | .product (.ident name) [(_, .literal _)] => some name
  | _ => none

lemma everywhere_of_factorOf? {owner : ObjectId} {e : Expr} {name : String} {y : Value}
    (he : factorOf? e = some name) (hv : m.resolve? owner name = some v)
    (hx : m.var? v = some x) (hy : x.value = some y) (hscalar : y.type.isScalar)
    (htype : x.resolved = y.type) : e.Everywhere (m.IsUnwidened owner) := by
  unfold factorOf? at he
  split at he
  · cases he
    refine .intro trivial (forall_mem_cons.2 ⟨.intro ?_ nofun, ?_⟩)
    · intro u hu
      rw [hv] at hu
      cases hu
      exact ⟨x, y, hx, hy, hscalar, htype⟩
    · exact forall_mem_cons.2 ⟨.intro trivial nofun, nofun⟩
  · cases he

/-- As long as integers are written to it, the factor is not widened. -/
theorem variableType_covers_factor :
    ∃ m x e t, ofDescription (writtenFactor "3") = .ok m ∧ m.var? 2 = some x ∧ x.declared = none ∧
      Expr.parse? x.expression = some e ∧ e.Everywhere (m.IsUnwidened 2) ∧
      e.infer (m.typeScope 2) = .ok t ∧ t.leq (m.variableType 2) := by
  have h : ((ofDescription (writtenFactor "3")).toOption.any fun m => (m.var? 2).any fun x =>
      decide (x.declared = none) && !Text.isAllBlank x.expression &&
      ((m.var? 1).any fun z => z.value.any fun y =>
        y.type.isScalar && decide (z.resolved = y.type)) &&
      (Expr.parse? x.expression).any fun e => decide (factorOf? e = some "p") &&
        decide (m.resolve? 2 "p" = some 1) && (e.infer (m.typeScope 2)).toOption.isSome) := by
    decide +kernel
  obtain ⟨m, hm, h⟩ := exists_ok_of_any h
  obtain ⟨x, hx, h⟩ := (Option.any_eq_true _ _).1 h
  simp only [and_eq_true, decide_eq_true_eq, not_eq_true', Option.any_eq_true] at h
  obtain ⟨⟨⟨hdeclared, hblank⟩, z, hz, y, hy, hscalar, htype⟩, e, he, ⟨hfactor, hp⟩, ht⟩ := h
  obtain ⟨t, ht⟩ := isSome_iff_exists.1 ht
  have ht := toOption_eq_some.1 ht
  have heverywhere := everywhere_of_factorOf? hfactor hp hz hy hscalar htype
  obtain ⟨e', _, he', -, -, -, -, hcovers⟩ :=
    variableType_covers_writes _ m hm 2 x hx hdeclared hblank
  obtain rfl := some.inj (he.symm.trans he')
  exact ⟨m, x, e, t, hm, hx, hdeclared, he, heverywhere, ht, hcovers heverywhere t ht⟩

/-- If a double is written to the factor, the type of the product is not wide enough for it. -/
theorem variableType_below_product :
    ∃ m x e c, ofDescription (writtenFactor "2.5") = .ok m ∧ m.var? 2 = some x ∧
      x.declared = none ∧ Text.isAllBlank x.expression = false ∧ Constancy.ofModel m = .ok c ∧
      c.isConstant 2 = false ∧ Expr.parse? x.expression = some e ∧
      e.infer (m.typeScope 2) = .ok .double ∧ ValueType.leq .double (m.variableType 2) = false := by
  have h : ((ofDescription (writtenFactor "2.5")).toOption.any fun m => (m.var? 2).any fun x =>
      decide (x.declared = none) && !Text.isAllBlank x.expression &&
      ((Constancy.ofModel m).toOption.any fun c => !c.isConstant 2) &&
      ((Expr.parse? x.expression).any fun e =>
        decide ((e.infer (m.typeScope 2)).toOption = some .double)) &&
      !ValueType.leq .double (m.variableType 2)) := by
    decide +kernel
  obtain ⟨m, hm, h⟩ := exists_ok_of_any h
  obtain ⟨x, hx, h⟩ := (Option.any_eq_true _ _).1 h
  simp only [and_eq_true, decide_eq_true_eq, not_eq_true', Option.any_eq_true] at h
  obtain ⟨⟨⟨⟨hdeclared, hblank⟩, c, hc, hchanging⟩, e, he, ht⟩, hleq⟩ := h
  exact ⟨m, x, e, c, hm, hx, hdeclared, hblank, toOption_eq_some.1 hc,
    hchanging, he, toOption_eq_some.1 ht, hleq⟩
end Model
end DataflowSpecializer
