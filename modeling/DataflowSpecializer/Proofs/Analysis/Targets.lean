import DataflowSpecializer.Proofs.Analysis.Paths
import DataflowSpecializer.Proofs.Run.Reached

/-! # The targets of writes

The analyses take the variable that an actor writes from its text without the blanks around it. The
code of the actor looks the text up as it stands, in the container of that variable.
-/
namespace DataflowSpecializer
open Platform Template ActorKind Model Generation Draft

variable {m : Model} {a c v : ObjectId}

lemma Model.Shape.of_resolve? (h : m.Shape) {name : String} (hv : m.resolve? a name = some v) :
    ∃ c, m.container v = some c ∧ m.family v = .attribute ∧ m.name v = name := by
  obtain ⟨s, -, hs⟩ := List.exists_of_findSome?_eq_some hv
  split at hs
  · rename_i w hw
    split at hs
    · obtain rfl := Option.some.inj hs
      exact ⟨s, h.lookup?_eq_some.1 hw⟩
    · cases hs
  · cases hs

lemma Model.Shape.of_writeTarget? (h : m.Shape) (hv : m.writeTarget? a = some v) :
    ∃ named text c, m.attribute? a variableName = some named ∧
      m.expression? named = some text ∧ m.container v = some c ∧ m.family v = .attribute ∧
        m.name v = Text.trim text ∧ (m.container a).isSome := by
  obtain ⟨named, hnamed, hv⟩ := Option.bind_eq_some_iff.1 hv
  obtain ⟨text, htext, hv⟩ := Option.bind_eq_some_iff.1 hv
  obtain ⟨container, hcontainer, hv⟩ := Option.bind_eq_some_iff.1 hv
  obtain ⟨c, hc, hfamily, hname⟩ := h.of_resolve? hv
  exact ⟨named, text, c, hnamed, htext, hc, hfamily, hname, Option.isSome_of_eq_some hcontainer⟩

/-- Code that goes from an actor to an object, and looks up there what the text of the actor says. -/
def LooksUp (m : Model) (actor scope : ObjectId) (this : LocalId) (code : List Action) : Prop :=
  ∃ before way after n n' k owner named name found type,
    ObjectMap.Trail m this actor n way owner scope n' ∧ code = before ++ way ++
        [.set k (.invoke ⟨.virtual, some this, getAttribute, [.string variableName]⟩),
          .set named (.cast type (.loc k)),
          .set name (.invoke ⟨.virtual, some named, getExpression, []⟩),
          .set found (.invoke ⟨.virtual, some owner, getAttribute, [.loc name]⟩)] ++ after

lemma setVariableFire_looksUp {s : Specialization} (hm : s.model.Shape)
    (ha : a < s.model.objects.size) (hc : c < s.model.objects.size) {d : Draft}
    (hthis : this < d.size) :
    ∃ d', setVariableFire a c this ⟨s, d⟩ = .ok () ⟨s, d'⟩ ∧
      LooksUp s.model a c this d'.actions := by
  let d1 := (takeInput this (label d).1 (label d).2).2
  have hsize : d.size ≤ d1.size := by
    show d.body.locals.size ≤ ((((d.body.locals.push _).push _).push _).push _).size
    simp only [Array.size_push]
    omega
  obtain ⟨owner, d2, way, hrun, hway, htrail⟩ :=
    reference_trail hm ha hc (lt_of_lt_of_le hthis hsize)
  let last : Drafting Unit := do
    let named ← lookup this .attribute variableName (.object stringAttributeClass)
    let name ← callValue named getExpression []
    let found ← callValue owner getAttribute [.loc name]
    let target ← cast "variable" (.object variableClass) found
    call target setToken [.loc (takeInput this (label d).1 (label d).2).1]
    sendOutput this (takeInput this (label d).1 (label d).2).1
    place (label d).1
    ret none
  refine ⟨(last d2).2, ?_, d1.actions, way, ?_, d1.size, d2.size, ?_, owner, ?_, ?_, ?_, ?_, htrail,
    ?code⟩
  case code =>
    rw [← hway]
    show (((((((((((d2.pending.push _).push _).push _).push _).push _).push _).push _).push _).push
      _).push _).push _).toList = _
    simp only [Array.toList_push, List.append_assoc]
    rfl
  · show EStateM.bind (reference this a c) _ ⟨s, d1⟩ = _
    rw [EStateM.bind, hrun]
    rfl

/-- **A write reaches its target exactly if the name of the target has no blanks around it.**  The
analyses know the target of every actor that writes, and the code of the actor goes to the container
of the target. What it finds there by the text of the actor is the target if the text is trimmed, and
else another attribute or none. -/
theorem write_reaches_target_iff (description : Description.Entity) (m : Model)
    (hm : ofDescription description = .ok m) (a v : ObjectId)
    (ha : m.actorKind? a = some .setVariable) (hv : m.writeTarget? a = some v) :
    (a, v) ∈ m.writers ∧ ∃ named text c, m.attribute? a variableName = some named ∧
      m.expression? named = some text ∧ m.container v = some c ∧
      (∀ s : Specialization, s.model = m →
        (∀ k, installSetVariable a k s = install k "fire" (setVariableFire a c) s) ∧
        ∀ (d : Draft) (this : LocalId), this < d.size →
          ∃ d', setVariableFire a c this ⟨s, d⟩ = .ok () ⟨s, d'⟩ ∧ LooksUp m a c this d'.actions) ∧
      (m.lookup? c .attribute text = some v ↔ Text.trim text = text) := by
  have hshape := (wellBuilt_of_ofDescription hm).1.shape
  obtain ⟨named, text, c, hnamed, htext, hc, hfamily, hname, hcontainer⟩ := hshape.of_writeTarget? hv
  have hlt : a < m.objects.size := by
    refine lt_size_of_family fun hfamily => ?_
    unfold actorKind? at ha
    split at ha
    · rename_i hkind
      rw [Model.family, hkind] at hfamily
      cases hfamily
    · cases ha
  refine ⟨List.mem_filterMap.2 ⟨a, List.mem_range.2 hlt, by rw [if_pos ha, hv]; rfl⟩, named, text, c,
    hnamed, htext, hc, ?_, ?_⟩
  · rintro s rfl
    refine ⟨fun k => ?_, fun d this hthis =>
      setVariableFire_looksUp hshape hlt (hshape.container_lt_size hc) hthis⟩
    obtain ⟨container, hcontainer⟩ := Option.isSome_iff_exists.1 hcontainer
    have hget : (EStateM.get : Specialize Specialization) s = .ok s s := rfl
    show (installSetVariable a k) s = _
    unfold installSetVariable
    simp only [bind, EStateM.bind, get, getThe, MonadStateOf.get, hget, hcontainer, hv,
      Option.bind_some, hc, Option.getD_some]
  · rw [hshape.lookup?_eq_some, hname]
    exact ⟨fun h => h.2.2, fun h => ⟨hc, hfamily, h⟩⟩

/-- The name of the written parameter stands alone. -/
theorem write_reaches_target_of_writtenParameter :
    ∃ m a v c, ofDescription Run.writtenParameter = .ok m ∧
      m.actorKind? a = some .setVariable ∧ m.writeTarget? a = some v ∧ m.container v = some c ∧
        m.lookup? c .attribute "p" = some v := by
  have h : ((ofDescription Run.writtenParameter).toOption.any fun m =>
      m.actorKind? 2 = some .setVariable ∧ m.writeTarget? 2 = some 1 ∧
        (m.attribute? 2 variableName).bind m.expression? = some "p") := by
    decide +kernel
  obtain ⟨m, hm, h⟩ := exists_ok_of_any h
  obtain ⟨ha, hv, hp⟩ := of_decide_eq_true h
  obtain ⟨-, named, text, c, hnamed, htext, hc, -, hfound⟩ := write_reaches_target_iff _ m hm 2 1 ha hv
  rw [hnamed, Option.bind_some, htext] at hp
  obtain rfl := Option.some.inj hp
  exact ⟨m, 2, 1, c, hm, ha, hv, hc, hfound.2 (by decide)⟩

def paddedName : Description.Entity :=
  { Run.writtenParameter with entities := [{
      name := "s", kind := "SetVariable"
      parameters := [{ name := "variableName", expression := " p " }] }] }

/-- With blanks around the name nothing is found where the target is. -/
theorem write_misses_target_of_paddedName :
    ∃ m a v c text, ofDescription paddedName = .ok m ∧ m.actorKind? a = some .setVariable ∧
      m.writeTarget? a = some v ∧ m.container v = some c ∧
        (m.attribute? a variableName).bind m.expression? = some text ∧
          m.lookup? c .attribute text = none := by
  have h : ((ofDescription paddedName).toOption.any fun m =>
      m.actorKind? 2 = some .setVariable ∧ m.writeTarget? 2 = some 1 ∧ m.container 1 = some 0 ∧
        (m.attribute? 2 variableName).bind m.expression? = some " p " ∧
          m.lookup? 0 .attribute " p " = none) := by
    decide +kernel
  obtain ⟨m, hm, h⟩ := exists_ok_of_any h
  exact ⟨m, 2, 1, 0, " p ", hm, of_decide_eq_true h⟩
end DataflowSpecializer
