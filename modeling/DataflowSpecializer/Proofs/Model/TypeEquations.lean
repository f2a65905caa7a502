import DataflowSpecializer.Proofs.Expression.FreeNames
import DataflowSpecializer.Proofs.Model.Types

/-! # The type equations of a model -/
namespace DataflowSpecializer
open List Option SortedMap ValueType ActorKind

variable {actor : ObjectId}

lemma ValueType.lubAll_of_mem_unknown {ts : List ValueType} (h : unknown ∈ ts) :
    lubAll ts = .unknown := by
  have hfold (ts : List ValueType) : ts.foldl lub .unknown = .unknown := by
    induction ts with
    | nil => rfl
    | cons t ts ih => exact ih
  cases ts with
  | nil => cases h
  | cons t ts =>
    rw [lubAll]
    induction ts generalizing t with
    | nil => exact (mem_singleton.1 h).symm
    | cons u ts ih =>
      rw [foldl_cons]
      by_cases htop : t = .unknown ∨ u = .unknown
      · have hjoin : t.lub u = .unknown := by
          rcases htop with rfl | rfl
          · rfl
          · exact lub_unknown_right t
        rw [hjoin]
        exact hfold ts
      · rw [not_or] at htop
        refine ih _ (mem_cons_of_mem _ ?_)
        simpa [Ne.symm htop.1, Ne.symm htop.2] using h

namespace Model
lemma joinAll_cons (t : ValueType) (ts : List ValueType) :
    joinAll (t :: ts) = some (.lubAll (t :: ts)) := by
  rw [joinAll, foldl_cons, lubAll]
  change ts.foldl _ (some t) = _
  induction ts generalizing t with
  | nil => rfl
  | cons u ts ih => exact ih (t.lub u)

lemma filter_map_getD {f : ObjectId → Option ValueType} {os : List ObjectId}
    (h : unknown ∉ os.filterMap f) :
    (os.map fun o => (f o).getD .unknown).filter (fun t => decide (t ≠ .unknown)) =
      os.filterMap f := by
  induction os with
  | nil => rfl
  | cons o os ih =>
    cases ho : f o with
    | none =>
      rw [filterMap_cons_none ho] at h ⊢
      simp [ho, ← ih h]
    | some t =>
      rw [filterMap_cons_some ho] at h ⊢
      rw [mem_cons, not_or] at h
      simp [ho, ← ih h.2, Ne.symm h.1]

namespace KnownTypes
variable {m : Model} {lenient : Bool} {k k' : KnownTypes} {b b' : Bool} {p : ObjectId}
  {t : ValueType} {a v : ObjectId}

lemma outputType_eq_none {kind : ActorKind}
    {known known' : String → Option ValueType} (h : ∀ name, known' name = none → known name = none)
    (hnone : kind.outputType port known' = none) : kind.outputType port known = none := by
  have hpair {a b : String} (hjoin : ∀ s t, known' a = some s → known' b = some t → False) :
      known a = none ∨ known b = none := by
    cases ha : known' a with
    | none => exact .inl (h a ha)
    | some s =>
      cases hb : known' b with
      | none => exact .inr (h b hb)
      | some t => exact (hjoin s t ha hb).elim
  unfold outputType at hnone ⊢
  cases kind <;> grind

lemma expressionOutput_eq_none (h : expressionOutput m k true actor = .ok none) :
    expressionOutput m k' lenient actor = .ok none := by
  unfold expressionOutput at h ⊢
  split at h
  · rfl
  · obtain ⟨e, he, h⟩ := bind_eq_ok.1 h
    rw [he]
    cases e with
    | none => rfl
    | some e =>
      dsimp only at h
      split at h <;> cases h

lemma inferPort_eq_none (hports : ∀ q, k'.ports.get? q = none → k.ports.get? q = none)
    (hvars : ∀ v, k'.vars.get? v = none → k.vars.get? v = none)
    (h : inferPort m k' true p = .ok none) : inferPort m k lenient p = .ok none := by
  unfold inferPort at h ⊢
  cases hc : m.container p with
  | none => rfl
  | some c =>
    cases hq : m.port? p with
    | none => rfl
    | some q =>
      simp only [hc, hq] at h ⊢
      cases hs : m.sources p with
      | cons s ss =>
        simp only [hs] at h ⊢
        have hnil : (s :: ss).filterMap k'.ports.get? = [] := by
          cases hts : (s :: ss).filterMap k'.ports.get? with
          | nil => rfl
          | cons t ts =>
            rw [hts, joinAll_cons] at h
            cases h
        rw [filterMap_eq_nil_iff] at hnil
        rw [filterMap_eq_nil_iff.2 fun q hq => hports q (hnil q hq)]
        rfl
      | nil =>
        simp only [hs] at h ⊢
        split at h
        · rename_i v _
          rw [hvars v (Except.ok.inj h)]
        · split at h
          · rfl
          · split at h
            · rename_i hout
              rw [if_pos hout]
            · rename_i hout
              rw [if_neg hout]
              split at h
              · rename_i hkind
                rw [if_pos hkind]
                exact expressionOutput_eq_none h
              · rename_i hkind
                rw [if_neg hkind, outputType_eq_none (fun name hname => ?_) (Except.ok.inj h)]
                unfold actorTypes at hname ⊢
                split
                · rename_i hport
                  simp only [hport] at hname
                  exact hports _ hname
                · rename_i hport
                  simp only [hport] at hname
                  cases ha : m.attribute? c name with
                  | none => rfl
                  | some a =>
                    rw [ha] at hname
                    exact hvars a hname

lemma foldlM_updatePort_stable {ports : List ObjectId}
    (h : ports.foldlM (updatePort m lenient) (k, b) = .ok (k', false)) :
    b = false ∧ k' = k ∧ ∀ p ∈ ports, updatePort m lenient (k, b) p = .ok (k, b) := by
  induction ports generalizing k b with
  | nil =>
    cases h
    exact ⟨rfl, rfl, fun p hp => absurd hp not_mem_nil⟩
  | cons p ports ih =>
    rw [foldlM_cons] at h
    obtain ⟨⟨k1, b1⟩, hp, h⟩ := bind_eq_ok.1 h
    obtain ⟨rfl, rfl, hall⟩ := ih h
    rcases updatePort_cases hp with ⟨rfl, rfl, -⟩ | ⟨hb, -⟩
    · exact ⟨rfl, rfl, forall_mem_cons.2 ⟨hp, hall⟩⟩
    · cases hb

lemma round_stable (h : round m lenient k = .ok (k', false)) :
    k' = k ∧ ∀ p ∈ portIds m, updatePort m lenient (k, false) p = .ok (k, false) := by
  obtain ⟨⟨k1, b1⟩, hfold, h⟩ := bind_eq_ok.1 h
  obtain ⟨rfl, rfl, -⟩ := foldl_updateWritten_stable (Except.ok.inj h)
  obtain ⟨-, rfl, hall⟩ := foldlM_updatePort_stable hfold
  exact ⟨rfl, hall⟩

/-! ## What is known -/
structure Grounded (m : Model) (k : KnownTypes) : Prop where
  port : ∀ p t, k.ports.get? p = some t → (m.port? p).isSome
  var : ∀ v t, k.vars.get? v = some t → m.isVariable v
  declared : ∀ p t, (m.port? p).bind (·.declared) = some t → k.ports.get? p = some t
  typed : ∀ v x, m.var? v = some x → (x.declared.isSome || x.value.isSome) →
    k.vars.get? v ≠ none
  inferred : ∀ p, (m.port? p).any (·.declared.isSome) = false → k.ports.get? p ≠ none →
    inferPort m k true p ≠ .ok none

lemma get?_insert_ne_none {α : Type} {s : SortedMap ObjectId α} {o q : ObjectId} {a : α}
    (h : (s.insert o a).get? q = none) : s.get? q = none := by
  by_cases hq : q = o
  · rw [hq, get?_insert_self] at h
    cases h
  · rwa [get?_insert_of_ne _ hq] at h

lemma Grounded.insertPort (hk : Grounded m k)
    (hundeclared : (m.port? p).any (·.declared.isSome) = false)
    (ht : inferPort m k lenient p = .ok (some t)) :
    Grounded m { k with ports := k.ports.insert p t } := by
  have hp : (m.port? p).isSome := by
    cases hq : m.port? p with
    | some q => rfl
    | none => cases hc : m.container p <;> simp [inferPort, hc, hq] at ht
  refine ⟨fun q s hs => ?_, hk.var, fun q s hs => ?_, hk.typed, fun q hq hsome hnone => ?_⟩
  · rcases get?_insert_eq_some hs with ⟨rfl, -⟩ | hs
    · exact hp
    · exact hk.port q s hs
  · have hne : q ≠ p := by
      rintro rfl
      obtain ⟨x, hx, hs⟩ := bind_eq_some_iff.1 hs
      simp [hx, hs] at hundeclared
    rw [get?_insert_of_ne _ hne]
    exact hk.declared q s hs
  · -- A rule that gives nothing now gave nothing before.
    have hbefore {l : Bool} : inferPort m k l q = .ok none := by
      refine inferPort_eq_none (fun _ => ?_) (fun _ => ?_) hnone
      · exact get?_insert_ne_none
      · exact id
    by_cases hqp : q = p
    · subst hqp
      rw [hbefore] at ht
      cases ht
    · refine hk.inferred q hq (fun h => hsome ?_) hbefore
      rw [get?_insert_of_ne _ hqp]
      exact h

lemma Grounded.updatePort (hk : Grounded m k)
    (h : updatePort m lenient (k, b) p = .ok (k', b')) : Grounded m k' := by
  rcases updatePort_cases h with ⟨rfl, -⟩ | ⟨-, hundeclared, t, ht, rfl⟩
  · exact hk
  · exact hk.insertPort hundeclared ht

lemma isVariable_of_mem_writers (h : (a, v) ∈ m.writers) : m.isVariable v := by
  obtain ⟨o, -, h⟩ := mem_filterMap.1 h
  split at h
  · obtain ⟨w, hw, heq⟩ := map_eq_some_iff.1 h
    cases heq
    obtain ⟨named, -, hw⟩ := bind_eq_some_iff.1 hw
    obtain ⟨text, -, hw⟩ := bind_eq_some_iff.1 hw
    obtain ⟨c, -, hw⟩ := bind_eq_some_iff.1 hw
    exact isVariable_of_resolve? hw
  · cases h

lemma Grounded.updateWritten (hk : Grounded m k) (hv : (a, v) ∈ m.writers) :
    Grounded m (updateWritten m (k, b) (a, v)).1 := by
  rcases updateWritten_cases m k b a v with ⟨hsame, -⟩ | ⟨t, hnew⟩
  · rwa [hsame]
  · rw [hnew]
    refine ⟨hk.port, fun w s hs => ?_, hk.declared, fun w x hx htyped hnone => ?_,
      fun q hq hsome hnone => ?_⟩
    · rcases get?_insert_eq_some hs with ⟨rfl, -⟩ | hs
      · exact isVariable_of_mem_writers hv
      · exact hk.var w s hs
    · exact hk.typed w x hx htyped (get?_insert_ne_none hnone)
    · refine hk.inferred q hq hsome (inferPort_eq_none (fun _ => ?_) (fun _ => ?_) hnone)
      · exact id
      · exact get?_insert_ne_none

lemma mem_portIds : p ∈ portIds m ↔ (m.port? p).isSome := by
  rw [portIds, mem_filter, ids, mem_range, and_iff_right_iff_imp]
  intro hp
  refine lt_size_of_family fun hf => ?_
  unfold port? at hp
  split at hp
  · rename_i hk
    rw [family, hk] at hf
    cases hf
  · cases hp

lemma get?_initial_ports (p : ObjectId) :
    (initial m).ports.get? p = (m.port? p).bind (·.declared) := by
  have hports : (initial m).ports = ofList (((portIds m).filter fun p =>
      ((m.port? p).bind (·.declared)).isSome).map fun p =>
        (p, ((m.port? p).bind (·.declared)).getD .unknown)) := by
    rw [← filterMap_eq_map, filterMap_filter]
    refine congrArg ofList (filterMap_congr fun p _ => ?_)
    cases ht : (m.port? p).bind (·.declared) <;> simp [ht]
  rw [hports, get?_ofList_map]
  split
  · rename_i hmem
    obtain ⟨t, ht⟩ := isSome_iff_exists.1 (mem_filter.1 hmem).2
    rw [ht, getD_some]
  · rename_i hmem
    cases ht : (m.port? p).bind (·.declared) with
    | none => rfl
    | some t =>
      obtain ⟨q, hq, -⟩ := bind_eq_some_iff.1 ht
      exact absurd (mem_filter.2 ⟨mem_portIds.2 (by rw [hq]; rfl), by rw [ht]; rfl⟩) hmem

lemma grounded_initial : Grounded m (initial m) := by
  refine ⟨fun p t ht => ?_, fun v t ht => ?_, fun p t ht => ?_, fun v x hx htyped hnone => ?_,
    fun p hp hsome => ?_⟩
  · rw [get?_initial_ports] at ht
    obtain ⟨q, hq, -⟩ := bind_eq_some_iff.1 ht
    rw [hq]
    rfl
  · have hmem : v ∈ (initial m).vars.keys := mem_keys_iff.2 (by simp [SortedMap.contains, ht])
    obtain ⟨x, hx, rfl⟩ := List.mem_map.1 (mem_keys_ofList.1 hmem)
    obtain ⟨o, ho, hx⟩ := mem_filterMap.1 hx
    have hvar := mem_variableIds.1 ho
    split at hx
    · split at hx <;> cases hx
      exact hvar
    · cases hx
  · rw [get?_initial_ports, ht]
  · rw [get?_initial hx htyped] at hnone
    cases hnone
  · rw [get?_initial_ports] at hsome
    cases hq : m.port? p with
    | none =>
      rw [hq] at hsome
      exact absurd rfl hsome
    | some q =>
      rw [hq] at hp hsome
      cases hd : q.declared with
      | none => exact absurd hd hsome
      | some t => simp [hd] at hp

lemma ofModel_grounded (h : ofModel m = .ok k) :
    Grounded m k ∧ round m true k = .ok (k, false) := by
  obtain ⟨⟨n, k1⟩, hfirst, h⟩ := bind_eq_ok.1 h
  obtain ⟨⟨n', k2⟩, hsecond, h⟩ := bind_eq_ok.1 h
  cases h
  have hk1 := (settle_ensures (fun hk h => hk.updatePort h) (fun hv hk => hk.updateWritten hv)
    grounded_initial hfirst).1
  obtain ⟨hk2, k0, hlast⟩ := settle_ensures (fun hk h => hk.updatePort h)
    (fun hv hk => hk.updateWritten hv) hk1 hsecond
  obtain rfl := (round_stable hlast).1
  exact ⟨hk2, hlast⟩

/-- **In the end every port without a declaration has just the type that its rule gives.** -/
theorem inferPort_settled (h : ofModel m = .ok k) {q : Port} (hq : m.port? p = some q)
    (hdeclared : q.declared = none) : inferPort m k true p = .ok (k.ports.get? p) := by
  obtain ⟨hk, hround⟩ := ofModel_grounded h
  have hp := (round_stable hround).2 p (mem_portIds.2 (by rw [hq]; rfl))
  have hundeclared : (m.port? p).any (·.declared.isSome) = false := by simp [hq, hdeclared]
  rcases updatePort_cases hp with ⟨-, -, hrule⟩ | ⟨hb, -⟩
  · rcases hrule hundeclared with hnone | hsame
    · rw [hnone]
      cases hget : k.ports.get? p with
      | none => rfl
      | some t => exact absurd hnone (hk.inferred p hundeclared (by simp [hget]))
    · exact hsame
  · cases hb

lemma get?_withUnknown (h : k.ports.get? q = some t) :
    (withUnknown m k actor).ports.get? q = some t := by
  unfold withUnknown
  dsimp only
  generalize k.ports = s at h ⊢
  induction (m.object actor).ports generalizing s with
  | nil => exact h
  | cons p ps ih =>
    rw [foldl_cons]
    refine ih _ ?_
    split
    · exact h
    · rename_i hp
      rw [SortedMap.contains, not_isSome_iff_eq_none] at hp
      exact get?_insert_of_some hp h
end KnownTypes
open KnownTypes

/-- The type of a port of an actor, or else of a parameter; texts such as the name of the variable
that a `SetVariable` writes have no type. -/
def actorType? (m : Model) (actor : ObjectId) (name : String) : Option ValueType :=
  match m.portNamed? actor name with
  | some p => some (m.portType p)
  | none => ((m.attribute? actor name).filter m.isVariable).map m.variableType

/-- The types of the identifiers of an actor's expression: its inputs, then variables. -/
def inputScope (m : Model) (actor : ObjectId) : TypeScope := fun name =>
  let asVariable := (m.resolve? actor name).map m.variableType
  match m.portNamed? actor name with
  | some p => if (m.port? p).any (·.input) then some (m.portType p) else asVariable
  | none => asVariable

/-- The types of ports and variables solve the equations of the model: a port has its declared type,
or the join of what feeds it, or what its parameter or its actor gives; a variable that is written
at run time covers its value and what is written. -/
structure TypesSolved (m : Model) : Prop where
  declared : ∀ p q t, m.port? p = some q → q.declared = some t → m.portType p = t
  connected : ∀ p q, m.port? p = some q → q.declared = none → m.sources p ≠ [] →
    (m.portType p = .unknown ∧ ∃ s ∈ m.sources p, m.portType s = .unknown) ∨
    ∃ ts, ts = ((m.sources p).map m.portType).filter (fun t => decide (t ≠ .unknown)) ∧ ts ≠ [] ∧
      m.portType p = .lubAll ts
  parameter : ∀ p q v, m.port? p = some q → q.declared = none → m.sources p = [] →
    q.parameter = some v → m.portType p = m.variableType v
  library : ∀ p q actor kind, m.port? p = some q → q.declared = none → m.sources p = [] →
    q.output → m.container p = some actor → m.actorKind? actor = some kind →
    kind ≠ .expression →
    (∀ name, (∃ d ∈ kind.ports, d.input ∧ d.name = name) ∨ (∃ d ∈ kind.params, d.name = name) →
      m.actorType? actor name ≠ some .unknown) →
    m.portType p = (kind.outputType (m.name p) (m.actorType? actor)).getD .unknown
  expression : ∀ p q actor a e, m.port? p = some q → q.declared = none → m.sources p = [] →
    q.output → m.container p = some actor → m.actorKind? actor = some .expression →
    m.attribute? actor expressionText = some a → m.parse a = .ok (some e) →
    (∀ name ∈ e.freeIdentifiers, m.inputScope actor name ≠ some .unknown) →
    e.infer (m.inputScope actor) = .ok (m.portType p)
  written : ∀ a v x, (a, v) ∈ m.writers → m.var? v = some x → x.declared = none →
    (∀ y, x.value = some y → y.type.leq (m.variableType v)) ∧
    ∀ p, m.portNamed? a inputPort = some p → m.portType p ≠ .unknown →
      (m.portType p).leq (m.variableType v)

/-! ## Loaded models -/
variable {m m' : Model}

lemma SameObjects.sources (h : m.SameObjects m') (p : ObjectId) : m'.sources p = m.sources p := by
  have hdrives (q r : ObjectId) : m'.drives q r = m.drives q r := by
    have hk := h.kind q
    unfold drives port?
    rw [h.container, h.container]
    generalize m.kind q = k, m'.kind q = k' at hk ⊢
    cases hk <;> cases m.container q <;> rfl
  have hreceives (r : ObjectId) : m'.receives p r = m.receives p r := by
    have hk := h.kind p
    unfold receives port?
    rw [h.container, h.container]
    generalize m.kind p = k, m'.kind p = k' at hk ⊢
    cases hk <;> cases m.container p <;> rfl
  simp only [Model.sources, h.links, hreceives, hdrives]

lemma SameObjects.port?_eq_some (h : m.SameObjects m') (hq : m'.port? p = some q') :
    ∃ q, m.port? p = some q ∧ q' = { q with resolved := q'.resolved } := by
  have hk := h.kind p
  unfold port? at hq ⊢
  generalize m.kind p = k, m'.kind p = k' at hk hq ⊢
  cases hk with
  | var => cases hq
  | port q t =>
    cases hq
    exact ⟨q, rfl, rfl⟩
  | same => exact ⟨q', hq, rfl⟩

lemma SameObjects.isInput (h : m.SameObjects m') (p : ObjectId) :
    (m'.port? p).any (·.input) = (m.port? p).any (·.input) := by
  have hk := h.kind p
  unfold port?
  generalize m.kind p = k, m'.kind p = k' at hk ⊢
  cases hk <;> rfl

lemma exists_container_of_port? {m : Model} (hm : m.WellBuilt)
    (hq : m.port? p = some q) : ∃ c, m.container p = some c := by
  have hfamily : m.family p = .port := by
    unfold port? at hq
    split at hq
    · rename_i hk
      rw [family, hk]
      rfl
    · cases hq
  have hne : p ≠ top := by
    rintro rfl
    rw [hm.shape.top] at hfamily
    cases hfamily
  obtain ⟨c, -, hc⟩ := hm.shape.contained p (lt_size_of_family (by simp [hfamily])) hne
  exact ⟨c, hc⟩

section Typed
variable {m : Model} {k : KnownTypes} {kind : ActorKind} {values : Values} {v : ObjectId}

lemma portType_setTypes (hk : Grounded m k) (p : ObjectId) :
    (m.setTypes k).portType p = (k.ports.get? p).getD .unknown := by
  cases hq : (m.setTypes k).port? p with
  | none =>
    rw [portType, hq]
    cases hget : k.ports.get? p with
    | none => rfl
    | some t =>
      -- Only ports have types.
      have hport := hk.port p t hget
      have hsame := (sameObjects_setTypes m k).kind p
      unfold port? at hq hport
      generalize m.kind p = a, (m.setTypes k).kind p = b at hsame hq hport
      cases hsame with
      | var => cases hport
      | port => cases hq
      | same =>
        rw [hq] at hport
        cases hport
  | some q =>
    rw [portType, hq]
    have hkind := port?_mapIdx hq
    split at hkind
    · cases hkind
      rfl
    · cases hkind
    · rename_i hnone _
      exact absurd hkind (hnone q)

lemma variableType_setTypes (hk : Grounded m k)
    (hm : ∀ v x, m.var? v = some x → x.declared = none → x.value = none → x.resolved = .unknown)
    (v : ObjectId) : (m.setTypes k).variableType v = (k.vars.get? v).getD .unknown := by
  have hsame := sameObjects_setTypes m k
  cases hx : (m.setTypes k).var? v with
  | none =>
    rw [variableType, hx]
    cases hget : k.vars.get? v with
    | none => rfl
    | some t =>
      have hvar := hk.var v t hget
      rw [← hsame.isVariable, isVariable, hx] at hvar
      cases hvar
  | some x =>
    rw [variableType, hx]
    obtain ⟨x0, hx0, rfl⟩ := var?_setTypes hx
    cases hget : k.vars.get? v with
    | some t => rfl
    | none =>
      have htyped := mt (hk.typed v x0 hx0) (not_not.2 hget)
      simp only [Bool.or_eq_true, not_or, Bool.not_eq_true, isSome_eq_false_iff,
        isNone_iff_eq_none] at htyped
      exact hm v x0 hx0 htyped.1 htyped.2

lemma resolved_of_setValues (v : ObjectId) (x : Variable)
    (hx : (m.setValues values).var? v = some x) (hdeclared : x.declared = none)
    (hvalue : x.value = none) : x.resolved = .unknown := by
  have hkind := var?_mapIdx hx
  split at hkind
  · cases hkind
    simp_all [Variable.withValue]
  · rename_i hnone
    exact absurd hkind (hnone x)

lemma value_of_setValues {x : Variable}
    (hx : (m.setValues values).var? v = some x) : x.value = (values.get? v).join := by
  have hkind := var?_mapIdx hx
  split at hkind
  · cases hkind
    rfl
  · rename_i hnone
    exact absurd hkind (hnone x)

lemma outputType_congr {known known' : String → Option ValueType}
    (h : ∀ name, (∃ d ∈ kind.ports, d.input ∧ d.name = name) ∨
      (∃ d ∈ kind.params, d.name = name) → known name = known' name) :
    kind.outputType port known = kind.outputType port known' := by
  unfold outputType
  cases kind <;>
    simp [ActorKind.ports, ActorKind.params, receiving, sending] at h <;>
    simp_all

lemma eq_some_of_ne_unknown {o : Option ValueType} (h : some (o.getD .unknown) ≠ some .unknown) :
    o = some (o.getD .unknown) := by
  cases o with
  | none => exact absurd rfl h
  | some t => rfl

variable (h : ofModel m = .ok k) (hbuilt : (m.setTypes k).WellBuilt)
  {p : ObjectId} {q : Port} (hq : (m.setTypes k).port? p = some q) (hdeclared : q.declared = none)

include h hbuilt hq hdeclared

lemma inferPort_loaded :
    ∃ q0 c, m.port? p = some q0 ∧ q0.parameter = q.parameter ∧ q0.output = q.output ∧
      m.container p = some c ∧ inferPort m k true p = .ok (k.ports.get? p) := by
  have hsame := sameObjects_setTypes m k
  obtain ⟨q0, hq0, heq⟩ := hsame.port?_eq_some hq
  obtain ⟨c, hc⟩ := exists_container_of_port? hbuilt hq
  rw [hsame.container] at hc
  refine ⟨q0, c, hq0, by rw [heq], by rw [heq], hc, inferPort_settled h hq0 ?_⟩
  rw [← hdeclared, heq]

lemma portType_of_sources (hsources : (m.setTypes k).sources p ≠ []) :
    ((m.setTypes k).portType p = .unknown ∧
      ∃ s ∈ (m.setTypes k).sources p, (m.setTypes k).portType s = .unknown) ∨
    ∃ ts, ts = (((m.setTypes k).sources p).map (m.setTypes k).portType).filter
        (fun t => decide (t ≠ .unknown)) ∧ ts ≠ [] ∧ (m.setTypes k).portType p = .lubAll ts := by
  have hport := portType_setTypes (ofModel_grounded h).1
  obtain ⟨q0, c, hq0, -, -, hc, hrule⟩ := inferPort_loaded h hbuilt hq hdeclared
  rw [(sameObjects_setTypes m k).sources] at hsources ⊢
  simp only [inferPort, hc, hq0] at hrule
  simp only [hport, funext hport]
  cases hs : m.sources p with
  | nil => exact absurd hs hsources
  | cons s ss =>
    simp only [hs] at hrule
    rw [← Except.ok.inj hrule]
    by_cases hunknown : unknown ∈ (s :: ss).filterMap k.ports.get?
    · obtain ⟨o, ho, hget⟩ := mem_filterMap.1 hunknown
      refine .inl ⟨?_, o, ho, by rw [hget]; rfl⟩
      cases hts : (s :: ss).filterMap k.ports.get? with
      | nil => rfl
      | cons t ts =>
        rw [joinAll_cons, ← hts, getD_some]
        exact lubAll_of_mem_unknown hunknown
    · rw [filter_map_getD hunknown]
      cases hts : (s :: ss).filterMap k.ports.get? with
      | nil =>
        have hnone := filterMap_eq_nil_iff.1 hts s (.head _)
        exact .inl ⟨rfl, s, (.head _), by rw [hnone]; rfl⟩
      | cons t ts => exact .inr ⟨t :: ts, rfl, by simp, by rw [joinAll_cons]; rfl⟩

variable (hsources : (m.setTypes k).sources p = []) {name : String}

include hsources

lemma get?_of_parameter (hv : q.parameter = some v) : k.ports.get? p = k.vars.get? v := by
  obtain ⟨q0, c, hq0, hparameter, -, hc, hrule⟩ := inferPort_loaded h hbuilt hq hdeclared
  rw [hv] at hparameter
  rw [(sameObjects_setTypes m k).sources] at hsources
  simp only [inferPort, hc, hq0, hsources, hparameter] at hrule
  exact (Except.ok.inj hrule).symm

lemma output_settled (hm : (m.setTypes k).Regular)
    (hout : q.output) (hc : (m.setTypes k).container p = some actor)
    (hkind : (m.setTypes k).actorKind? actor = some kind) :
    (if kind = .expression then expressionOutput m k true actor
      else .ok (kind.outputType (m.name p) (actorTypes m k actor))) =
      .ok (k.ports.get? p) := by
  have hsame := sameObjects_setTypes m k
  obtain ⟨q0, c, hq0, hparameter, hout0, hc0, hrule⟩ := inferPort_loaded h hbuilt hq hdeclared
  rw [(hm.port hq).2 hout] at hparameter
  rw [hout] at hout0
  rw [hsame.container, hc0] at hc
  cases hc
  rw [hsame.sources] at hsources
  rw [hsame.actorKind?] at hkind
  simp only [inferPort, hc0, hq0, hsources, hparameter, hkind, hout0] at hrule
  exact hrule

omit h hbuilt hq hdeclared hsources in
lemma actorTypes_eq (hk : Grounded m k)
    (hport : ∀ p, (m.setTypes k).portType p = (k.ports.get? p).getD .unknown)
    (hvar : ∀ v, (m.setTypes k).variableType v = (k.vars.get? v).getD .unknown)
    (hknown : (m.setTypes k).actorType? actor name ≠ some .unknown) :
    actorTypes m k actor name = (m.setTypes k).actorType? actor name := by
  unfold actorType? portNamed? attribute? at hknown ⊢
  unfold actorTypes portNamed? attribute?
  simp only [(sameObjects_setTypes m k).lookup?] at hknown ⊢
  cases hname : m.lookup? actor .port name with
  | some p =>
    simp only [hname, hport] at hknown ⊢
    exact eq_some_of_ne_unknown hknown
  | none =>
    simp only [hname] at hknown ⊢
    cases ha : m.lookup? actor .attribute name with
    | none => rfl
    | some v =>
      cases hv : m.isVariable v with
      | false =>
        -- Only variables have types.
        cases hget : k.vars.get? v with
        | none => simp [hget, Option.filter, (sameObjects_setTypes m k).isVariable, hv]
        | some t => cases hv.symm.trans (hk.var v t hget)
      | true =>
        simp only [ha, Option.filter, (sameObjects_setTypes m k).isVariable, hv, if_true, map_some,
          hvar] at hknown ⊢
        exact eq_some_of_ne_unknown hknown

omit h hbuilt hq hdeclared hsources in
lemma actorScope_eq (hport : ∀ p, (m.setTypes k).portType p = (k.ports.get? p).getD .unknown)
    (hvar : ∀ v, (m.setTypes k).variableType v = (k.vars.get? v).getD .unknown)
    (hknown : (m.setTypes k).inputScope actor name ≠ some .unknown) :
    actorScope m (withUnknown m k actor) actor name = (m.setTypes k).inputScope actor name := by
  have hsame := sameObjects_setTypes m k
  unfold inputScope portNamed? at hknown ⊢
  unfold actorScope portNamed?
  simp only [hsame.lookup?, hsame.isInput, hsame.resolve?] at hknown ⊢
  have hvariable (hne : (m.resolve? actor name).map (m.setTypes k).variableType ≠ some .unknown) :
      (m.resolve? actor name).bind k.vars.get? =
        (m.resolve? actor name).map (m.setTypes k).variableType := by
    cases hv : m.resolve? actor name with
    | none => rfl
    | some v =>
      simp only [hv, map_some, hvar] at hne ⊢
      exact eq_some_of_ne_unknown hne
  cases hname : m.lookup? actor .port name with
  | none =>
    simp only [hname] at hknown ⊢
    exact hvariable hknown
  | some p =>
    simp only [hname] at hknown ⊢
    split at hknown
    · rename_i hinput
      rw [if_pos hinput, if_pos hinput, hport]
      rw [hport] at hknown
      exact get?_withUnknown (eq_some_of_ne_unknown hknown)
    · rename_i hinput
      rw [if_neg hinput, if_neg hinput]
      exact hvariable hknown
end Typed

/-- **The types of a loaded model solve its type equations.** -/
theorem typesSolved_of_ofDescription (d : Description.Entity) (m : Model)
    (h : ofDescription d = .ok m) : m.TypesSolved := by
  have hbuilt := (wellBuilt_of_ofDescription h).1
  have hregular := regular_of_ofDescription h
  obtain ⟨m0, values, k, hm0, hvalues, hk, rfl⟩ := ofDescription_eq_ok h
  obtain ⟨hgrounded, -⟩ := KnownTypes.ofModel_grounded hk
  have hsame := sameObjects_setTypes (m0.setValues values) k
  have hport := portType_setTypes hgrounded
  have hvar := variableType_setTypes hgrounded resolved_of_setValues
  refine ⟨fun p q t hq ht => ?_, fun p q hq hdeclared hsources => ?_,
    fun p q v hq hdeclared hsources hv => ?_,
    fun p q actor kind hq hdeclared hsources hout hc hkind hne hknown => ?_,
    fun p q actor a e hq hdeclared hsources hout hc hkind ha he hknown => ?_,
    fun a v x ha hx hdeclared => ?_⟩
  · obtain ⟨q0, hq0, heq⟩ := hsame.port?_eq_some hq
    rw [hport, hgrounded.declared p t (by rw [hq0, bind_some, ← ht, heq]), getD_some]
  · exact portType_of_sources hk hbuilt hq hdeclared hsources
  · rw [hport, hvar, get?_of_parameter hk hbuilt hq hdeclared hsources hv]
  · have houtput := output_settled hk hbuilt hq hdeclared hsources hregular hout hc hkind
    rw [if_neg hne] at houtput
    rw [hport, ← Except.ok.inj houtput, hsame.name]
    exact congrArg (Option.getD · _)
      (outputType_congr fun name hname => actorTypes_eq hgrounded hport hvar (hknown name hname))
  · have houtput := output_settled hk hbuilt hq hdeclared hsources hregular hout hc hkind
    rw [if_pos rfl, KnownTypes.expressionOutput] at houtput
    rw [attribute?, hsame.lookup?] at ha
    rw [hsame.parse] at he
    simp only [attribute?, ha, he] at houtput
    obtain ⟨_, hok, houtput⟩ := bind_eq_ok.1 houtput
    cases hok
    have hcongr := Expr.infer_congr e fun name hname =>
      actorScope_eq hport hvar (hknown name (Expr.mem_freeIdentifiers.2 hname))
    simp only [if_true, hcongr] at houtput
    split at houtput
    · rename_i t ht
      rw [hport, ← Except.ok.inj houtput]
      exact ht
    · cases houtput
  · obtain ⟨haccounts, hcovers⟩ := KnownTypes.ofModel_ensures resolved_setValues hk
    obtain ⟨x0, hx0, rfl⟩ := var?_setTypes hx
    rw [hvar]
    refine ⟨fun y hy => ?_, fun p hp hne => ?_⟩
    · obtain ⟨s, hs, -, hbelow⟩ := haccounts v x0 y hx0 hdeclared hy
      obtain ⟨vs, hvs, -⟩ := variableValues_evaluates hvalues
      have hvalue := join_eq_some_iff.1 ((value_of_setValues hx0).symm.trans hy)
      rw [hs]
      exact hbelow (hvs.intact (regular_of_build hm0) v y hvalue).type_isCanonical
    · rw [hsame.writers] at ha
      rw [portNamed?, hsame.lookup?] at hp
      have hundeclared : ((m0.setValues values).var? v).any (·.declared.isSome) = false := by
        rw [hx0]
        exact congrArg isSome hdeclared
      obtain ⟨s, hs, hle⟩ := hcovers a v ha hundeclared p _ hp (get?_of_portType_setTypes hne)
      rw [hs]
      exact hle

theorem typesSolved_of_writtenFactor :
    ∃ m, ofDescription (writtenFactor "3") = .ok m ∧ m.variableType 1 = .int ∧ m.TypesSolved := by
  have h : ((ofDescription (writtenFactor "3")).toOption.any fun m =>
      decide (m.variableType 1 = .int)) := by
    decide +kernel
  obtain ⟨m, hm, h⟩ := exists_ok_of_any h
  exact ⟨m, hm, of_decide_eq_true h, typesSolved_of_ofDescription _ m hm⟩
end Model
end DataflowSpecializer
