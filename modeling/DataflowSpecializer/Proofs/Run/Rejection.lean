import DataflowSpecializer.Proofs.Run.Records

/-! # What a rejected model leaves behind -/
namespace DataflowSpecializer.Classes
open DataflowSpecializer.Specialization Model List

variable {m : Model} {o : Options} {s s' : Specialization} {f : Fault}

/-- There are no classes, and nothing is on record. -/
def IsBlank (s : Specialization) : Prop :=
  s.program.classes = #[] ∧ s.classOf = .empty ∧ s.objectOf = .empty ∧ s.ledger = .empty ∧
    s.sites = .empty

lemma bind_eq_error {σ α β : Type} {x : EStateM Fault σ α} {k : α → EStateM Fault σ β} {s s' : σ}
    (h : (x >>= k) s = .error f s') :
    x s = .error f s' ∨ ∃ a s1, x s = .ok a s1 ∧ k a s1 = .error f s' := by
  change EStateM.bind x k s = _ at h
  unfold EStateM.bind at h
  split at h
  · exact .inr ⟨_, _, ‹_›, h⟩
  · cases h
    exact .inl ‹_›

lemma register_isContradiction (h : Specialize.register x c s = .error f s') :
    f.isContradiction := by
  obtain h | ⟨_, s1, h1, h⟩ := bind_eq_error h
  · cases h
  · split at h
    · cases h
      rfl
    · dsimp only at h
      split at h <;> cases h

lemma addClasses_isContradiction {os : List ObjectId} (h : addClasses os s = .error f s') :
    f.isContradiction := by
  induction os generalizing s with
  | nil => cases h
  | cons x os ih =>
    obtain h | ⟨_, s1, -, h⟩ := bind_eq_error h
    · cases h
    obtain h | ⟨c, s2, -, h⟩ := bind_eq_error h
    · cases h
    obtain h | ⟨-, s3, -, h⟩ := bind_eq_error h
    · exact register_isContradiction h
    · exact ih h

/-- Only a model that is refused at once leaves nothing behind. Any later failure finds all classes
registered. -/
theorem generate_fails_blank_or_registered (d : Description.Entity) (m : Model) (o : Options)
    (f : Fault) (s : Specialization) (h : ofDescription d = .ok m)
    (hs : generate (start m o) = .error f s) :
    m.checkSupported = .error f ∧ IsBlank s ∨ m.checkSupported = .ok () ∧ ∃ s1,
      addClasses (owners m) { start m o with constancy := .analysis m } = .ok () s1 ∧
      (∀ x ∈ owners m, (s1.classOf? x).isSome) ∧
        (do
          addConstructors (owners m)
          addBehaviour (owners m)
          addExecute
          return certify (← get)) s1 = .error f s := by
  obtain ⟨hm, -⟩ := wellBuilt_of_ofDescription h
  obtain ⟨vs, hvs, hmem⟩ := evaluated_of_ofDescription h
  have hparse := parse_of_satisfied fun v hv =>
    hvs.satisfied ((hmem v).2 (mem_variableIds.2 hv))
  have hconstancy := Constancy.ofModel_eq hparse (Constancy.complete_of_evaluated hvs hmem)
  change (Specialize.check m.checkSupported >>= _) (start m o) = _ at hs
  cases hcheck : m.checkSupported with
  | error g =>
    rw [hcheck] at hs
    cases hs
    exact .inl ⟨rfl, rfl, rfl, rfl, rfl, rfl⟩
  | ok =>
    rw [hcheck] at hs
    change (Specialize.check (Constancy.ofModel m) >>= _) (start m o) = _ at hs
    rw [hconstancy] at hs
    change (addClasses (owners m) >>= _) { start m o with constancy := .analysis m } = _ at hs
    refine .inr ⟨rfl, ?_⟩
    have hclasses : Runs true (addClasses (owners m)) _ _ :=
      addClasses_runs _ (registered_start m o (Constancy.analysis m)) (Subset.refl _) nodup_nil
        fun _ => nodup_owners hm.shape
    obtain hs | ⟨_, s1, h1, hs⟩ := bind_eq_error hs
    · have := addClasses_isContradiction hs
      rw [hclasses.2 rfl _ _ hs] at this
      cases this
    · obtain ⟨hregistered, -⟩ := hclasses.1 _ _ h1
      exact ⟨s1, h1, fun x hx => Option.isSome_iff_exists.2 (hregistered.all x hx), hs⟩

def memberOfUnknown : Description.Entity where
  name := "M"
  entities := [{ name := "e", kind := "Expression", ports := [{ name := "a" }]
                 parameters := [{ name := "expression", expression := "a.x" }] }]

/-- A member of a value whose type is not known is refused, but only where its code is made. -/
theorem generate_leaves_classes_of_memberOfUnknown :
    ((ofDescription memberOfUnknown).toOption.any fun m => m.checkSupported.toOption.isSome &&
      match generate (start m {}) with
      | .ok _ _ => false
      | .error _ s => s.program.classes.size = 3 && s.classOf.size = 3 && s.ledger.size = 6) =
        true := by
  decide +kernel

theorem generate_fails_registered_of_memberOfUnknown :
    ∃ m f s, ofDescription memberOfUnknown = .ok m ∧ generate (start m {}) = .error f s ∧
      m.checkSupported = .ok () ∧ ∃ s1, addClasses (owners m)
        { start m {} with constancy := .analysis m } = .ok () s1 ∧ (s1.classOf? top).isSome := by
  have h : ((ofDescription memberOfUnknown).toOption.any fun m => m.checkSupported.toOption.isSome &&
      top ∈ owners m && match generate (start m {}) with
        | .ok _ _ => false
        | .error _ _ => true) = true := by
    decide +kernel
  obtain ⟨m, hm, h⟩ := exists_ok_of_any h
  rw [Bool.and_eq_true, Bool.and_eq_true, decide_eq_true_eq] at h
  obtain ⟨⟨hok, htop⟩, hrun⟩ := h
  split at hrun
  · cases hrun
  · rename_i f s hs
    obtain ⟨hf, -⟩ | ⟨hf, s1, hs1, h1, -⟩ :=
      generate_fails_blank_or_registered memberOfUnknown m {} f s hm hs
    · rw [hf] at hok
      cases hok
    · exact ⟨m, f, s, hm, hs, hf, s1, hs1, h1 top htop⟩
end DataflowSpecializer.Classes
