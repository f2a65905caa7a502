import DataflowSpecializer.Proofs.Data
import DataflowSpecializer.Value.Type

/-! # The value order -/
namespace DataflowSpecializer.ValueType
open List Option Bool
attribute [local simp] leq leqFields lub lubFields scalarLeq scalarLub isScalar

lemma scalarLeq_isScalar {a b : ValueType} (h : scalarLeq a b) :
    a.isScalar ∧ b.isScalar := by
  cases a <;> cases b <;> simp_all

variable {a : ValueType} {t : ValueType} {fs gs : FieldTypes}

lemma scalarLeq_refl (h : a.isScalar) : scalarLeq a a := by cases a <;> simp_all

lemma scalarLeq_trans {a b c : ValueType} (hab : scalarLeq a b)
    (hbc : scalarLeq b c) : scalarLeq a c := by
  cases a <;> cases b <;> simp at hab <;>
    cases c <;> simp_all

lemma leq_eq_scalarLeq {a b : ValueType} (hb : b.isScalar) : leq a b = scalarLeq a b := by
  cases b <;> simp_all

lemma scalarLub_isScalar {a b : ValueType} (ha : a.isScalar) (hb : b.isScalar) :
    (scalarLub a b).isScalar := by
  unfold scalarLub
  split
  · exact hb
  · split
    · exact ha
    · rfl

lemma scalarLeq_scalarLub {a b : ValueType} (ha : a.isScalar) (hb : b.isScalar) :
    scalarLeq a (scalarLub a b) ∧ scalarLeq b (scalarLub a b) := by
  cases a <;> simp at ha <;> cases b <;> simp at hb <;>
    simp

lemma scalarLub_least {a b c : ValueType} (hac : scalarLeq a c)
    (hbc : scalarLeq b c) : scalarLeq (scalarLub a b) c := by
  cases c <;> cases a <;> simp at hac <;>
    cases b <;> simp_all

/-! ## What stands below and above a type -/
lemma leq_unknown (a : ValueType) : leq a .unknown := rfl

@[simp] lemma leq_general_iff : leq a .general ↔ a ≠ .unknown := by simp

lemma general_leq_iff : leq .general t ↔ t = .general ∨ t = .unknown := by cases t <;> simp

lemma unknown_leq_iff : leq .unknown t ↔ t = .unknown := by cases t <;> simp

lemma array_leq_iff {d t : ValueType} : leq (.array d) t ↔
      t = .general ∨ t = .unknown ∨ ∃ e, t = .array e ∧ leq d e := by
  cases t <;> simp

lemma matrix_leq_iff {d t : ValueType} : leq (.matrix d) t ↔
      t = .general ∨ t = .unknown ∨ ∃ e, t = .matrix e ∧ leq d e := by
  cases t <;> simp

lemma record_leq_iff {fs : FieldTypes} : leq (.record fs) t ↔
      t = .general ∨ t = .unknown ∨ ∃ gs, t = .record gs ∧ leqFields fs gs := by
  cases t <;> simp

lemma function_leq_iff :
    leq (.function n) t ↔ t = .general ∨ t = .unknown ∨ t = .function n := by
  cases t <;> simp [eq_comm]

lemma scalar_leq_iff {a t : ValueType} (ha : a.isScalar) :
    leq a t ↔ t = .general ∨ t = .unknown ∨ scalarLeq a t := by
  cases a <;> simp at ha <;> cases t <;> simp

lemma leqFields_iff : leqFields fs gs ↔
      ∀ g ∈ gs, ∃ s, fs.lookup g.1 = some s ∧ leq s g.2 := by
  induction gs with
  | nil => simp
  | cons g gs ih =>
    obtain ⟨label, t⟩ := g
    rw [leqFields, and_eq_true, ih, forall_mem_cons]
    cases fs.lookup label <;> simp

lemma leq_refl (h : a.IsCanonical) : leq a a := by
  induction h with
  | array _ ih => exact array_leq_iff.2 (.inr (.inr ⟨_, rfl, ih⟩))
  | matrix _ ih => exact matrix_leq_iff.2 (.inr (.inr ⟨_, rfl, ih⟩))
  | record hsorted _ ih =>
    refine record_leq_iff.2 (.inr (.inr ⟨_, rfl, leqFields_iff.2 fun f hf => ?_⟩))
    exact ⟨f.2, lookup_of_mem hsorted hf, ih f hf⟩
  | function => exact function_leq_iff.2 (.inr (.inr rfl))
  | general => exact general_leq_iff.2 (.inl rfl)
  | unknown => rfl
  | boolean | ubyte | int | long | double | complex | fix | string => rfl

mutual

/-- **The value order is transitive.** -/
theorem leq_trans {a b : ValueType} : ∀ {c : ValueType},
    leq a b → leq b c → leq a c
  | .unknown, _, _ => rfl
  | .general, hab, hbc => by
    rw [leq_general_iff] at hbc ⊢
    rintro rfl
    exact hbc (unknown_leq_iff.1 hab)
  | .array e, hab, hbc => by
    cases b with
    | array d =>
      cases a with
      | array x => exact leq_trans (c := e) hab hbc
      | _ => simp at hab
    | _ => simp at hbc
  | .matrix e, hab, hbc => by
    cases b with
    | matrix d =>
      cases a with
      | matrix x => exact leq_trans (c := e) hab hbc
      | _ => simp at hab
    | _ => simp at hbc
  | .record gs, hab, hbc => by
    cases b with
    | record fs =>
      cases a with
      | record es => exact leqFields_trans hab hbc
      | _ => simp at hab
    | _ => simp at hbc
  | .function n, hab, hbc => by
    obtain rfl : b = .function n := by simpa using hbc
    exact hab
  | .boolean, hab, hbc | .ubyte, hab, hbc | .int, hab, hbc | .long, hab, hbc
  | .double, hab, hbc | .complex, hab, hbc | .fix, hab, hbc | .string, hab, hbc => by
    rw [leq_eq_scalarLeq rfl] at hbc ⊢
    rw [leq_eq_scalarLeq (scalarLeq_isScalar hbc).1] at hab
    exact scalarLeq_trans hab hbc

lemma leqFields_trans {es fs : FieldTypes} : ∀ {gs : FieldTypes},
      leqFields es fs → leqFields fs gs → leqFields es gs
  | [], _, _ => rfl
  | (label, t) :: gs, hef, hfg => by
    rw [leqFields, and_eq_true] at hfg ⊢
    refine ⟨?_, leqFields_trans hef hfg.2⟩
    obtain ⟨s, hs, hst⟩ : ∃ s, fs.lookup label = some s ∧ leq s t := by
      have := hfg.1
      split at this
      · exact ⟨_, ‹_›, this⟩
      · cases this
    obtain ⟨r, hr, hrs⟩ := leqFields_iff.1 hef (label, s) (mem_of_lookup hs)
    rw [hr]
    exact leq_trans hrs hst
end

/-! ## The join -/
lemma lub_unknown_right (a : ValueType) : lub a .unknown = .unknown := by cases a <;> simp

lemma lub_scalars {a b : ValueType} (ha : a.isScalar) (hb : b.isScalar) :
    lub a b = scalarLub a b := by
  cases a <;> simp at ha <;> cases b <;> simp at hb <;> simp

lemma lookup_lubFields (fs gs : FieldTypes) (label : String) : (lubFields fs gs).lookup label =
      (fs.lookup label).bind fun s => (gs.lookup label).map fun t => lub s t := by
  induction fs with
  | nil => rfl
  | cons f fs ih =>
    obtain ⟨l, s⟩ := f
    by_cases hl : label = l
    · subst label
      cases hg : gs.lookup l with
      | none => simp only [lubFields, hg, ih, lookup_cons_self, map_none,
          bind_fun_none]
      | some t => simp [hg, lookup_cons_self]
    · have hne : (label == l) = false := beq_eq_false_iff_ne.2 hl
      cases hg : gs.lookup l <;> simp [hg, List.lookup_cons, hne, ih]

lemma mem_lubFields {f : String × ValueType} (h : f ∈ lubFields fs gs) :
    ∃ s t, (f.1, s) ∈ fs ∧ gs.lookup f.1 = some t ∧ f.2 = lub s t := by
  induction fs with
  | nil => cases h
  | cons e fs ih =>
    obtain ⟨l, s⟩ := e
    rw [lubFields] at h
    split at h
    · rename_i t hg
      rcases mem_cons.1 h with rfl | h
      · exact ⟨s, t, (.head _), hg, rfl⟩
      · obtain ⟨s', t', hs, ht, he⟩ := ih h
        exact ⟨s', t', .tail _ hs, ht, he⟩
    · obtain ⟨s', t', hs, ht, he⟩ := ih h
      exact ⟨s', t', .tail _ hs, ht, he⟩

lemma lubFields_labels (fs gs : FieldTypes) :
    ((lubFields fs gs).map Prod.fst).Sublist (fs.map Prod.fst) := by
  induction fs with
  | nil => exact List.Sublist.slnil
  | cons e fs ih =>
    obtain ⟨l, s⟩ := e
    rw [lubFields]
    split
    · exact ih.cons_cons l
    · exact ih.cons l

lemma isCanonical_of_isScalar (h : a.isScalar) : a.IsCanonical := by
  cases a <;> simp at h <;> constructor

mutual

lemma leq_lub_right : ∀ a b : ValueType, leq b (lub a b)
  | .unknown, _ => by simp
  | .general, b => by
    by_cases h : b = .unknown
    · subst b; rfl
    · simp [h]
  | .array d, b => by
    cases b with
    | array e => simpa using leq_lub_right d e
    | _ => simp
  | .matrix d, b => by
    cases b with
    | matrix e => simpa using leq_lub_right d e
    | _ => simp
  | .record fs, b => by
    cases b with
    | record gs => simpa using leqFields_lub_right fs gs
    | _ => simp
  | .function m, b => by
    cases b with
    | function n => by_cases h : m = n <;> simp [h]
    | _ => simp
  | .boolean, b | .ubyte, b | .int, b | .long, b | .double, b | .complex, b | .fix, b
  | .string, b => by
    by_cases hs : b.isScalar
    · rw [lub_scalars rfl hs, leq_eq_scalarLeq (scalarLub_isScalar rfl hs)]
      exact (scalarLeq_scalarLub rfl hs).2
    · cases b <;> simp_all

lemma leqFields_lub_right : ∀ fs gs : FieldTypes, leqFields gs (lubFields fs gs)
  | [], _ => rfl
  | (label, s) :: fs, gs => by
    rw [lubFields]
    split
    · rename_i t ht
      rw [leqFields, ht, and_eq_true]
      exact ⟨leq_lub_right s t, leqFields_lub_right fs gs⟩
    · exact leqFields_lub_right fs gs
end

mutual

lemma leq_lub_of_leq : ∀ {a s : ValueType} (t : ValueType), leq a s → leq a (lub s t)
  | _, .unknown, _, _ => by simp
  | a, .general, t, h => by
    by_cases ht : t = .unknown
    · subst t; simp
    · simpa [ht] using h
  | a, .array d, t, h => by
    cases a <;> simp at h
    cases t with
    | array e => simpa using leq_lub_of_leq e h
    | _ => simp
  | a, .matrix d, t, h => by
    cases a <;> simp at h
    cases t with
    | matrix e => simpa using leq_lub_of_leq e h
    | _ => simp
  | a, .record fs, t, h => by
    cases a <;> simp at h
    cases t with
    | record gs => simpa using leqFields_lub_of_leqFields gs h
    | _ => simp
  | a, .function n, t, h => by
    cases a with
    | function k =>
      obtain rfl : k = n := by simpa using h
      cases t with
      | function j => by_cases hj : k = j <;> simp [hj]
      | _ => simp
    | _ => simp at h
  | a, .boolean, t, h | a, .ubyte, t, h | a, .int, t, h | a, .long, t, h | a, .double, t, h
  | a, .complex, t, h | a, .fix, t, h | a, .string, t, h => by
    rw [leq_eq_scalarLeq rfl] at h
    have ha := (scalarLeq_isScalar h).1
    by_cases hs : t.isScalar
    · rw [lub_scalars rfl hs, leq_eq_scalarLeq (scalarLub_isScalar rfl hs)]
      exact scalarLeq_trans h (scalarLeq_scalarLub rfl hs).1
    · cases a <;> simp at ha <;> cases t <;> simp_all

lemma leqFields_lub_of_leqFields : ∀ {es fs : FieldTypes}
    (gs : FieldTypes), leqFields es fs → leqFields es (lubFields fs gs)
  | _, [], _, _ => rfl
  | es, (label, s) :: fs, gs, h => by
    rw [leqFields] at h
    rw [lubFields]
    split at h
    · rename_i a ha
      obtain ⟨hs, hfs⟩ := (and_eq_true_iff ..).1 h
      split
      · rename_i t ht
        rw [leqFields, ha, and_eq_true]
        exact ⟨leq_lub_of_leq t hs, leqFields_lub_of_leqFields gs hfs⟩
      · exact leqFields_lub_of_leqFields gs hfs
    · cases h
end

lemma leq_lub_left (ha : a.IsCanonical) (b : ValueType) : leq a (lub a b) :=
  leq_lub_of_leq b (leq_refl ha)

mutual

/-- **A join is the least type above both.** -/
theorem lub_least : ∀ {a b c : ValueType}, leq a c → leq b c → leq (lub a b) c
  | .unknown, _, _, ha, _ => by simpa using ha
  | .general, b, c, ha, hb => by
    by_cases h : b = .unknown
    · subst b; simpa using hb
    · simpa [h] using ha
  | .array d, b, c, ha, hb => by
    rcases array_leq_iff.1 ha with rfl | rfl | ⟨e, rfl, hd⟩
    · cases b <;> simp_all
    · rfl
    · cases b with
      | array x => simpa using lub_least hd hb
      | _ => simp at hb
  | .matrix d, b, c, ha, hb => by
    rcases matrix_leq_iff.1 ha with rfl | rfl | ⟨e, rfl, hd⟩
    · cases b <;> simp_all
    · rfl
    · cases b with
      | matrix x => simpa using lub_least hd hb
      | _ => simp at hb
  | .record fs, b, c, ha, hb => by
    rcases record_leq_iff.1 ha with rfl | rfl | ⟨hs, rfl, hf⟩
    · cases b <;> simp_all
    · rfl
    · cases b with
      | record gs =>
        rw [lub, leq, leqFields_iff]
        intro h hh
        obtain ⟨s, hs, hsh⟩ := leqFields_iff.1 hf h hh
        obtain ⟨t, ht, hth⟩ := leqFields_iff.1 hb h hh
        refine ⟨lub s t, by simp [lookup_lubFields, hs, ht], ?_⟩
        exact lub_least_of_mem fs _ (mem_of_lookup hs) hsh hth
      | _ => simp at hb
  | .function m, b, c, ha, hb => by
    rcases function_leq_iff.1 ha with rfl | rfl | rfl
    · by_cases h : lub (.function m) b = .unknown
      · cases b <;> simp at h
        · split at h <;> cases h
        · exact absurd hb (by simp)
      · exact leq_general_iff.2 h
    · rfl
    · obtain rfl : b = .function m := by simpa using hb
      simp
  | .boolean, b, c, ha, hb | .ubyte, b, c, ha, hb | .int, b, c, ha, hb | .long, b, c, ha, hb
  | .double, b, c, ha, hb | .complex, b, c, ha, hb | .fix, b, c, ha, hb
  | .string, b, c, ha, hb => by
    rcases (scalar_leq_iff rfl).1 ha with rfl | rfl | hc
    · cases b <;> simp_all
    · rfl
    · have hcs := (scalarLeq_isScalar hc).2
      rw [leq_eq_scalarLeq hcs] at hb ⊢
      rw [lub_scalars rfl (scalarLeq_isScalar hb).1]
      exact scalarLub_least hc hb

lemma lub_least_of_mem : ∀ (fs : FieldTypes), ∀ f ∈ fs, ∀ {b c : ValueType},
    leq f.2 c → leq b c → leq (lub f.2 b) c
  | [], _, hf, _, _, _, _ => by cases hf
  | (_, s) :: fs, f, hf, _, _, ha, hb => by
    rcases mem_cons.1 hf with rfl | hf
    · exact lub_least (a := s) ha hb
    · exact lub_least_of_mem fs f hf ha hb
end

lemma isCanonical_scalarLub {a b : ValueType} (ha : a.isScalar)
    (hb : b.isScalar) : (scalarLub a b).IsCanonical :=
  isCanonical_of_isScalar (scalarLub_isScalar ha hb)

lemma isCanonical_lub (ha : a.IsCanonical) :
    ∀ {b : ValueType}, b.IsCanonical → (lub a b).IsCanonical := by
  induction ha with (intro b hb)
  | array _ ih | matrix _ ih =>
    cases hb <;> simp only [lub] <;> constructor
    exact ih ‹_›
  | @record fs hsorted _ ih =>
    cases hb with
    | @record gs _ hgs =>
      rw [lub]
      refine .record ?_ fun f hf => ?_
      · exact pairwise_map.1 ((pairwise_map.2 hsorted).sublist (lubFields_labels fs gs))
      · obtain ⟨s, t, hs, ht, he⟩ := mem_lubFields hf
        rw [he]
        exact ih _ hs (hgs _ (mem_of_lookup ht))
    | _ => simp only [lub]; constructor
  | @function m =>
    cases hb with
    | @function n => by_cases h : m = n <;> simp only [lub, h, if_true, if_false] <;> constructor
    | _ => simp only [lub]; constructor
  | general =>
    by_cases h : b = .unknown <;> simp only [lub, h, if_true, if_false] <;> constructor
  | unknown => simp only [lub]; constructor
  | boolean | ubyte | int | long | double | complex | fix | string =>
    by_cases hs : b.isScalar
    · rw [lub_scalars rfl hs]
      exact isCanonical_scalarLub rfl hs
    · cases hb <;> simp_all <;> constructor

variable {ts : List ValueType}

lemma isCanonical_foldl_lub (hts : ∀ t ∈ ts, t.IsCanonical) :
    ∀ {a : ValueType}, a.IsCanonical → (ts.foldl lub a).IsCanonical := by
  induction ts with
  | nil => exact fun ha => ha
  | cons t ts ih =>
    intro a ha
    exact ih (fun u hu => hts u (.tail _ hu)) (isCanonical_lub ha (hts t (.head _)))

lemma leq_foldl_lub (hts : ∀ t ∈ ts, t.IsCanonical) : ∀ {a : ValueType}, a.IsCanonical →
      leq a (ts.foldl lub a) ∧ ∀ t ∈ ts, leq t (ts.foldl lub a) := by
  induction ts with
  | nil => exact fun ha => ⟨leq_refl ha, fun _ h => by cases h⟩
  | cons t ts ih =>
    intro a ha
    have hlub := isCanonical_lub ha (hts t (.head _))
    obtain ⟨hstart, hrest⟩ := ih (fun u hu => hts u (.tail _ hu)) hlub
    refine ⟨leq_trans (leq_lub_left ha t) hstart, fun u hu => ?_⟩
    rcases mem_cons.1 hu with rfl | hu
    · exact leq_trans (leq_lub_right a u) hstart
    · exact hrest u hu

lemma foldl_lub_least {c : ValueType} (hts : ∀ t ∈ ts, leq t c) :
    ∀ {a : ValueType}, leq a c → leq (ts.foldl lub a) c := by
  induction ts with
  | nil => exact fun ha => ha
  | cons t ts ih =>
    intro a ha
    exact ih (fun u hu => hts u (.tail _ hu)) (lub_least ha (hts t (.head _)))

lemma isCanonical_lubAll (h : ∀ t ∈ ts, t.IsCanonical) : (lubAll ts).IsCanonical := by
  cases ts with
  | nil => exact .general
  | cons t ts => exact isCanonical_foldl_lub (fun u hu => h u (.tail _ hu)) (h t (.head _))

lemma leq_lubAll (h : ∀ t ∈ ts, t.IsCanonical) (ht : t ∈ ts) : leq t (lubAll ts) := by
  cases ts with
  | nil => cases ht
  | cons u us =>
    obtain ⟨hstart, hrest⟩ := leq_foldl_lub (fun v hv => h v (.tail _ hv)) (h u (.head _))
    rcases mem_cons.1 ht with rfl | ht
    · exact hstart
    · exact hrest t ht

lemma lubAll_least {c : ValueType} (hne : ts ≠ [])
    (hts : ∀ t ∈ ts, leq t c) : leq (lubAll ts) c := by
  cases ts with
  | nil => exact absurd rfl hne
  | cons t ts => exact foldl_lub_least (fun u hu => hts u (.tail _ hu)) (hts t (.head _))

lemma lubAll_of_forall₂ {α : Type} {r : α → ValueType → Prop} {as : List α}
    (hmono : ∀ {a s t}, r a s → leq s t → r a t)
    (h : List.Forall₂ r as ts) (hts : ∀ t ∈ ts, t.IsCanonical) :
    (∀ a ∈ as, r a (lubAll ts)) ∧ (as = [] → lubAll ts = .general ∨ lubAll ts = .unknown) := by
  refine ⟨fun a ha => ?_, ?_⟩
  · obtain ⟨t, ht, hat⟩ := exists_of_forall₂ h.flip ha
    exact hmono hat (leq_lubAll hts ht)
  · rintro rfl
    obtain rfl := forall₂_nil_left_iff.1 h
    exact .inl rfl
end DataflowSpecializer.ValueType
