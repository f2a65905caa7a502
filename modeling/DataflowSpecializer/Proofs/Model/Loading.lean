import DataflowSpecializer.Model.Types
import DataflowSpecializer.Proofs.Model.Building

/-! # Loaded models

Loading gives variables their values, and ports and variables their types; the objects stay as they
were built (`Model.SameObjects`).
-/
namespace DataflowSpecializer.Model
inductive Kind.Revalued : Kind → Kind → Prop
  | var (v : Variable) (x : Option Value) (t : ValueType) :
    Revalued (.var v) (.var { v with value := x, resolved := t })
  | port (p : Port) (t : ValueType) : Revalued (.port p) (.port { p with resolved := t })
  | same (k : Kind) : Revalued k k

lemma Kind.Revalued.trans {k k' : Kind} (h : k.Revalued k') (h' : k'.Revalued k'') :
    k.Revalued k'' := by
  cases h with
  | var v x t =>
    cases h' with
    | var _ x' t' => exact .var v x' t'
    | same => exact .var v x t
  | port p t =>
    cases h' with
    | port _ t' => exact .port p t'
    | same => exact .port p t
  | same => exact h'

structure SameObjects (m m' : Model) : Prop where
  size : m'.objects.size = m.objects.size
  object : ∀ o, ∃ k, (m.kind o).Revalued k ∧ m'.object o = { m.object o with kind := k }

namespace SameObjects
variable {m m' m'' : Model} {o : ObjectId}

lemma kind (h : m.SameObjects m') (o : ObjectId) : (m.kind o).Revalued (m'.kind o) := by
  obtain ⟨k, hk, ho⟩ := h.object o
  change (m.kind o).Revalued (m'.object o).kind
  rwa [ho]

lemma trans (h : m.SameObjects m') (h' : m'.SameObjects m'') : m.SameObjects m'' := by
  refine ⟨h'.size.trans h.size, fun o => ?_⟩
  obtain ⟨k, hk, ho⟩ := h'.object o
  obtain ⟨_, _, ho'⟩ := h.object o
  exact ⟨k, (h.kind o).trans hk, by rw [ho, ho']⟩

/-! ### Single objects -/
variable (h : m.SameObjects m')

include h

lemma name (o : ObjectId) : m'.name o = m.name o := by
  obtain ⟨k, -, ho⟩ := h.object o
  rw [Model.name, ho, Model.name]

lemma fullName (o : ObjectId) : m'.fullName o = m.fullName o := by
  obtain ⟨k, -, ho⟩ := h.object o
  rw [Model.fullName, ho, Model.fullName]

lemma container (o : ObjectId) : m'.container o = m.container o := by
  obtain ⟨k, -, ho⟩ := h.object o
  rw [Model.container, ho, Model.container]

lemma contents (o : ObjectId) (f : Family) :
    (m'.object o).contents f = (m.object o).contents f := by
  obtain ⟨k, -, ho⟩ := h.object o
  rw [ho]
  cases f <;> rfl

lemma links (o : ObjectId) : (m'.object o).links = (m.object o).links := by
  obtain ⟨k, -, ho⟩ := h.object o
  rw [ho]

lemma family (o : ObjectId) : m'.family o = m.family o := by
  have hk := h.kind o
  unfold Model.family
  generalize m.kind o = k, m'.kind o = k' at hk ⊢
  cases hk <;> rfl

lemma isEntity (o : ObjectId) : m'.isEntity o = m.isEntity o := by
  have hk := h.kind o
  unfold Model.isEntity
  generalize m.kind o = k, m'.kind o = k' at hk ⊢
  cases hk <;> rfl

lemma isDirector (o : ObjectId) : m'.isDirector o = m.isDirector o := by
  have hk := h.kind o
  unfold Model.isDirector
  generalize m.kind o = k, m'.kind o = k' at hk ⊢
  cases hk <;> rfl

lemma actorKind? (o : ObjectId) : m'.actorKind? o = m.actorKind? o := by
  have hk := h.kind o
  unfold Model.actorKind?
  generalize m.kind o = k, m'.kind o = k' at hk ⊢
  cases hk <;> rfl

lemma expression? (o : ObjectId) : m'.expression? o = m.expression? o := by
  have hk := h.kind o
  unfold Model.expression?
  generalize m.kind o = k, m'.kind o = k' at hk ⊢
  cases hk <;> rfl

lemma isVariable (o : ObjectId) : m'.isVariable o = m.isVariable o := by
  have hk := h.kind o
  unfold Model.isVariable var?
  generalize m.kind o = k, m'.kind o = k' at hk ⊢
  cases hk <;> rfl

lemma declared (o : ObjectId) : (m'.var? o).bind (·.declared) = (m.var? o).bind (·.declared) := by
  have hk := h.kind o
  unfold var?
  generalize m.kind o = k, m'.kind o = k' at hk ⊢
  cases hk <;> rfl

lemma portOf? (o : ObjectId) : m'.portOf? o = m.portOf? o := by
  have hk := h.kind o
  unfold Model.portOf? var?
  generalize m.kind o = k, m'.kind o = k' at hk ⊢
  cases hk <;> rfl

lemma parameterOf? (o : ObjectId) : m'.parameterOf? o = m.parameterOf? o := by
  have hk := h.kind o
  unfold Model.parameterOf? port?
  generalize m.kind o = k, m'.kind o = k' at hk ⊢
  cases hk <;> rfl

lemma var?_eq_some (hv : m'.var? o = some v') :
    ∃ v, m.var? o = some v ∧ v' = { v with value := v'.value, resolved := v'.resolved } := by
  have hk := h.kind o
  unfold var? at hv ⊢
  generalize m.kind o = k, m'.kind o = k' at hk hv ⊢
  cases hk with
  | var v x t =>
    cases hv
    exact ⟨v, rfl, rfl⟩
  | port => cases hv
  | same => exact ⟨v', hv, rfl⟩

lemma ids : m'.ids = m.ids := by rw [Model.ids, h.size, Model.ids]

lemma variableIds : m'.variableIds = m.variableIds := by
  rw [Model.variableIds, h.ids, funext h.isVariable, Model.variableIds]

lemma lookup? (c : ObjectId) (f : Family) (name : String) :
    m'.lookup? c f name = m.lookup? c f name := by
  rw [Model.lookup?, h.contents, funext h.name, Model.lookup?]

lemma ancestors (o : ObjectId) : m'.ancestors o = m.ancestors o := by
  induction o using Nat.strongRecOn with
  | ind o ih =>
    unfold Model.ancestors
    rw [h.container]
    split
    · split
      · rename_i c _ hlt
        rw [ih c hlt]
      · rfl
    · rfl

lemma scopes (o : ObjectId) : m'.scopes o = m.scopes o := by
  rw [Model.scopes, h.isEntity, h.ancestors, Model.scopes]

lemma resolve? (o : ObjectId) (name : String) : m'.resolve? o name = m.resolve? o name := by
  simp only [Model.resolve?, attribute?, h.scopes, h.lookup?, h.isVariable]

lemma parse (o : ObjectId) : m'.parse o = m.parse o := by
  rw [Model.parse, h.expression?, h.fullName, Model.parse]

lemma writers : m'.writers = m.writers := by
  simp only [Model.writers, writeTarget?, attribute?, h.ids, h.actorKind?, h.lookup?,
    h.expression?, h.container, h.resolve?]

lemma named (v : ObjectId) (e : Expr) : m'.named v e = m.named v e := by
  rw [Model.named, funext (h.resolve? v), Model.named]

lemma sameFrame : m.SameFrame m' :=
  ⟨h.size, h.name, h.container, h.contents, h.family, h.isDirector⟩

lemma wellBuilt (hm : m.WellBuilt) : m'.WellBuilt where
  shape := hm.shape.of_sameFrame_of_links h.sameFrame h.links
  paired := by
    refine ⟨fun v p => ?_, fun v x' hx' => ?_, fun v p => ?_⟩
    · rw [h.portOf?, h.parameterOf?]
      exact hm.paired.port_iff v p
    · obtain ⟨x, hx, heq⟩ := h.var?_eq_some hx'
      rw [heq]
      exact hm.paired.isPortParameter v x hx
    · rw [h.portOf?, h.container, h.container, h.name, h.name]
      exact hm.paired.beside v p

lemma equipped (ho : m.Equipped o) : m'.Equipped o := by
  have hattribute : ∀ {name}, m.HasAttribute o name → m'.HasAttribute o name := by
    rintro name ⟨a, ha⟩
    exact ⟨a, by rwa [h.container, h.family, h.name]⟩
  refine ⟨fun k hk d hd => hattribute (ho.params k ?_ d hd), fun hd => hattribute (ho.iterations ?_)⟩
  · rwa [← h.actorKind?]
  · rwa [← h.isDirector]
end SameObjects

lemma object_mapIdx (m : Model) (g : ObjectId → Object → Object) (o : ObjectId) :
    object { m with objects := m.objects.mapIdx g } o =
      if o < m.objects.size then g o (m.object o) else default := by
  simp only [object, Array.getD_eq_getD_getElem?, Array.getElem?_mapIdx]
  split <;> rename_i ho <;> simp [ho]

lemma sameObjects_mapIdx (m : Model) (g : ObjectId → Object → Object)
    (hg : ∀ o b, ∃ k, b.kind.Revalued k ∧ g o b = { b with kind := k }) :
    m.SameObjects { m with objects := m.objects.mapIdx g } where
  size := by simp
  object o := by
    rw [object_mapIdx]
    split
    · exact hg o (m.object o)
    · rename_i ho
      rw [kind, object_of_le (Nat.not_lt.1 ho)]
      exact ⟨_, .same _, rfl⟩

lemma sameObjects_setValues (m : Model) (values : Values) : m.SameObjects (m.setValues values) := by
  refine sameObjects_mapIdx m _ fun o b => ?_
  split
  · rename_i v hv
    rw [hv]
    exact ⟨_, .var v _ _, rfl⟩
  · exact ⟨_, .same _, rfl⟩

lemma sameObjects_setTypes (m : Model) (k : KnownTypes) : m.SameObjects (m.setTypes k) := by
  refine sameObjects_mapIdx m _ fun o b => ?_
  split
  · rename_i p hp
    rw [hp]
    exact ⟨_, .port p _, rfl⟩
  · rename_i v hv
    rw [hv]
    exact ⟨_, .var v v.value _, rfl⟩
  · exact ⟨_, .same _, rfl⟩

lemma ofDescription_eq_ok (h : ofDescription d = .ok m) :
    ∃ m0 values k, build d = .ok m0 ∧ m0.variableValues = .ok values ∧
      KnownTypes.ofModel (m0.setValues values) = .ok k ∧ m = (m0.setValues values).setTypes k := by
  obtain ⟨m0, hm0, values, hvalues, h⟩ := bind₂_eq_ok h
  obtain ⟨k, hk, h⟩ := bind_eq_ok.1 h
  cases h
  exact ⟨m0, values, k, hm0, hvalues, hk, rfl⟩

lemma sameObjects_loaded (m : Model) (values : Values) (k : KnownTypes) :
    m.SameObjects ((m.setValues values).setTypes k) :=
  (sameObjects_setValues m values).trans (sameObjects_setTypes _ k)

lemma wellBuilt_of_ofDescription {m : Model} (h : ofDescription d = .ok m) :
    m.WellBuilt ∧ (∀ o, m.Equipped o) ∧ (m.director? top).isSome ∧ m.actorKind? top = none := by
  obtain ⟨m0, values, k, hm0, -, -, rfl⟩ := ofDescription_eq_ok h
  have hsame := sameObjects_loaded m0 values k
  unfold build at hm0
  split at hm0
  · rename_i u m1 hadd
    cases hm0
    obtain ⟨hbuilt, hequipped, hdirector, htop⟩ := Build.addModel_leads d u m0 hadd
    obtain ⟨o, ho, hdirector⟩ := (Build.isSome_director?_iff hbuilt.shape).1 hdirector
    have hbuilt' := hsame.wellBuilt hbuilt
    have hdirector' := (Build.isSome_director?_iff hbuilt'.shape).2
      ⟨o, (hsame.container o).trans ho, (hsame.isDirector o).trans hdirector⟩
    exact ⟨hbuilt', fun o => hsame.equipped (hequipped o), hdirector',
      by rw [hsame.actorKind?, Model.actorKind?, htop]⟩
  · cases hm0
end DataflowSpecializer.Model
