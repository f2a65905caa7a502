import DataflowSpecializer.Proofs.Expression.Soundness

/-! # Calls at narrower types -/
namespace DataflowSpecializer
open List ValueType
/-! ## Joins -/
namespace ValueType
lemma lub_mono {a a' b b' : ValueType} (ha : a.leq a') (hb : b.leq b') :
    (a.lub b).leq (a'.lub b') :=
  lub_least (leq_lub_of_leq b' ha) (leq_trans hb (leq_lub_right a' b'))

abbrev AllLeq (ts us : List ValueType) : Prop := List.Forall₂ (fun t u => t.leq u) ts us

variable {ts us : List ValueType}

lemma foldl_lub_mono (h : AllLeq ts us) :
    ∀ {a b : ValueType}, a.leq b → (ts.foldl lub a).leq (us.foldl lub b) := by
  induction h with
  | nil => exact fun hab => hab
  | cons htu _ ih => exact fun hab => ih (lub_mono hab htu)

lemma lubAll_mono (h : AllLeq ts us) : (lubAll ts).leq (lubAll us) := by
  cases h with
  | nil => exact leq_refl .general
  | cons htu hrest => exact foldl_lub_mono hrest htu

lemma exists_of_leq_matrix {t e : ValueType} (h : t.leq (.matrix e)) :
    ∃ d, t = .matrix d ∧ d.leq e := by
  cases t <;> first | exact ⟨_, rfl, h⟩ | cases h

lemma exists_of_leq_array {t e : ValueType} (h : t.leq (.array e)) :
    ∃ d, t = .array d ∧ d.leq e := by
  cases t <;> first | exact ⟨_, rfl, h⟩ | cases h
end ValueType

open ValueType (AllLeq)

namespace Carrier
lemma acceptsScalar_of_leq {k : Carrier} (hk : k ≠ .string) {t u : ValueType}
    (h : t.leq u) (hu : k.acceptsScalar u) : k.acceptsScalar t := by
  have hscalar : u.isScalar := by cases k <;> cases u <;> cases hu <;> rfl
  rw [leq_eq_scalarLeq hscalar] at h
  cases k <;> first | exact absurd rfl hk | (cases u <;> cases hu <;> cases t <;> cases h <;> rfl)

lemma accepts_of_leq {k : Carrier} (hk : k ≠ .string) {t u : ValueType} (h : t.leq u)
    (hu : k.accepts u) : k.accepts t := by
  cases k with
  | token => rfl
  | string => exact absurd rfl hk
  | tokenArray | array =>
    cases u <;> cases hu
    obtain ⟨d, rfl, -⟩ := exists_of_leq_array h
    rfl
  | booleanMatrix | intMatrix | longMatrix | doubleMatrix | complexMatrix | fixMatrix =>
    cases u <;> first | cases hu | skip
    rename_i e
    obtain ⟨d, rfl, hd⟩ := exists_of_leq_matrix h
    exact acceptsScalar_of_leq (by decide) hd hu
  | boolean | int | long | double | complex | fix =>
    cases u <;> cases hu <;> cases t <;> first | rfl | cases h

lemma int_accepts {t : ValueType} (hlong : Carrier.long.accepts t)
    (hdouble : Carrier.double.accepts t) : Carrier.int.accepts t := by
  cases t <;> cases hlong <;> cases hdouble <;> rfl
end Carrier

namespace Builtin
def named (name : String) : List Builtin := table.filter fun b => b.name == name

lemma lookup?_eq_find? (name : String) (form : CallForm) (args : List ValueType) :
    lookup? name form args = (named name).find? fun b => b.accepts form args := by
  simp only [lookup?, named, find?_filter, Bool.decide_and, Bool.decide_eq_true]

structure IsNumeric (b : Builtin) (k : Carrier) (n : Nat) : Prop where
  form : b.form = .function
  params : b.params = replicate n k
  result : b.result = k
  rule : b.rule = .fixed

lemma named_cases (name : String) : (named name).length ≤ 1 ∨ ∃ n a b c, named name = [a, b, c] ∧
      a.IsNumeric .int n ∧ b.IsNumeric .long n ∧ c.IsNumeric .double n := by
  by_cases hname : name ∈ ["abs", "min", "max"]
  · refine .inr ?_
    simp only [mem_cons, not_mem_nil, or_false] at hname
    rcases hname with rfl | rfl | rfl
    · exact ⟨1, _, _, _, rfl, ⟨rfl, rfl, rfl, rfl⟩, ⟨rfl, rfl, rfl, rfl⟩, ⟨rfl, rfl, rfl, rfl⟩⟩
    all_goals exact ⟨2, _, _, _, rfl, ⟨rfl, rfl, rfl, rfl⟩, ⟨rfl, rfl, rfl, rfl⟩, ⟨rfl, rfl, rfl, rfl⟩⟩
  · refine .inl ?_
    by_cases hknown : name ∈ table.map (·.name)
    · have hall : ∀ n ∈ table.map (·.name), n ∉ ["abs", "min", "max"] → (named n).length ≤ 1 := by
        decide +kernel
      exact hall name hknown hname
    · have hnone : named name = [] := by
        refine filter_eq_nil_iff.2 fun b hb hbn => hknown ?_
        exact mem_map.2 ⟨b, hb, beq_iff_eq.1 hbn⟩
      rw [hnone]
      exact Nat.zero_le 1

variable {b c : Builtin} {form : CallForm} {ts us : List ValueType} {n : Nat} {k : Carrier}

lemma accepts_iff : b.accepts form ts ↔
    b.form = form ∧ List.Forall₂ (fun k t => Carrier.accepts k t) b.params ts := by
  simp only [accepts, Bool.and_eq_true, beq_iff_eq, all_eq_true, forall₂_iff_zip, and_assoc]
  exact and_congr_right fun _ => and_congr_right fun _ => ⟨fun h a b hab => h (a, b) hab,
    fun h x hx => h hx⟩

lemma forall₂_accepts_of_allLeq (hks : ∀ k ∈ ks, k ≠ .string)
    (h : AllLeq ts us) (hus : List.Forall₂ (fun k t => Carrier.accepts k t) ks us) :
    List.Forall₂ (fun k t => Carrier.accepts k t) ks ts := by
  induction h generalizing ks with
  | nil => exact hus
  | cons htu _ ih =>
    obtain ⟨k, ks, hk, hrest, rfl⟩ := forall₂_cons_right_iff.1 hus
    exact .cons (Carrier.accepts_of_leq (hks k (.head _)) htu hk)
      (ih (fun k hk => hks k (.tail _ hk)) hrest)

lemma accepts_of_allLeq (hb : b ∈ table) (h : AllLeq ts us) (hus : b.accepts form us) :
    b.accepts form ts := by
  have hstring : ∀ b ∈ table, ∀ k ∈ b.params, k ≠ .string := by decide +kernel
  obtain ⟨hform, hus⟩ := accepts_iff.1 hus
  refine accepts_iff.2 ⟨hform, ?_⟩
  exact forall₂_accepts_of_allLeq (hstring b hb) h hus

lemma resultType_mono (hb : b ∈ table) (h : AllLeq ts us) (hus : b.accepts form us) :
    (b.resultType ts).leq (b.resultType us) := by
  rw [resultType.eq_def, resultType.eq_def]
  cases hrule : b.rule with
  | fixed => exact leq_refl (Expr.isCanonical_carrier b.result)
  | joinArgs =>
    cases h with
    | nil => rfl
    | cons htu hrest => exact foldl_lub_mono hrest htu
  | elementOfFirst =>
    have helement : ∀ b ∈ table, b.rule = .elementOfFirst → b.params = [.tokenArray] := by
      decide +kernel
    have hparams := (accepts_iff.1 hus).2
    rw [helement b hb hrule] at hparams
    obtain ⟨u, us, hu, -, rfl⟩ := forall₂_cons_left_iff.1 hparams
    obtain ⟨t, ts, htu, -, rfl⟩ := forall₂_cons_right_iff.1 h
    cases u <;> cases hu
    obtain ⟨d, rfl, hd⟩ := exists_of_leq_array htu
    exact hd
  | arrayOfSecond =>
    cases h with
    | nil => exact leq_refl (.array .general)
    | cons _ hrest =>
      cases hrest with
      | nil => exact leq_refl (.array .general)
      | cons htu _ => exact htu

lemma forall₂_replicate_iff :
    List.Forall₂ (fun k t => Carrier.accepts k t) (replicate n k) ts ↔
      ts.length = n ∧ ∀ t ∈ ts, k.accepts t := by
  induction ts generalizing n with
  | nil => cases n <;> simp [replicate_succ]
  | cons t ts ih =>
    cases n with
    | zero => simp
    | succ n => simp [replicate_succ, forall₂_cons, ih, and_left_comm]

lemma IsNumeric.accepts_iff (hb : b.IsNumeric k n) : b.accepts form ts ↔
      .function = form ∧ ts.length = n ∧ ∀ t ∈ ts, k.accepts t := by
  rw [Builtin.accepts_iff, hb.form, hb.params, forall₂_replicate_iff]

lemma IsNumeric.resultType_eq (hb : b.IsNumeric k n) : b.resultType ts = k.valueType := by
  rw [resultType.eq_def, hb.rule, hb.result]

lemma numeric_leq {i l d : Builtin} (hi : i.IsNumeric .int n)
    (hl : l.IsNumeric .long n) (hd : d.IsNumeric .double n)
    (hb : [i, l, d].find? (fun b => b.accepts form ts) = some b) (hc : c ∈ [i, l, d])
    (hcts : c.accepts form ts) : (b.resultType ts).leq (c.resultType us) := by
  simp only [mem_cons, not_mem_nil, or_false] at hc
  rw [find?_cons] at hb
  by_cases hits : i.accepts form ts
  · rw [hits] at hb
    cases hb
    rcases hc with rfl | rfl | rfl
    · rw [hi.resultType_eq, hi.resultType_eq]; rfl
    · rw [hi.resultType_eq, hl.resultType_eq]; rfl
    · rw [hi.resultType_eq, hd.resultType_eq]; rfl
  rw [eq_false_of_ne_true hits, find?_cons] at hb
  by_cases hlts : l.accepts form ts
  · rw [hlts] at hb
    cases hb
    rcases hc with rfl | rfl | rfl
    · exact absurd hcts hits
    · rw [hl.resultType_eq, hl.resultType_eq]; rfl
    · -- Arguments that fit longs and doubles are integers.
      obtain ⟨hform, hn, hlong⟩ := hl.accepts_iff.1 hlts
      have hdouble := (hd.accepts_iff.1 hcts).2.2
      exact absurd (hi.accepts_iff.2 ⟨hform, hn, fun t ht =>
        Carrier.int_accepts (hlong t ht) (hdouble t ht)⟩) hits
  rw [eq_false_of_ne_true hlts, find?_cons] at hb
  rcases hc with rfl | rfl | rfl
  · exact absurd hcts hits
  · exact absurd hcts hlts
  · rw [hcts] at hb
    cases hb
    rw [hd.resultType_eq, hd.resultType_eq]; rfl

/-- **A call with narrower arguments has a narrower result**, also where it is a call of another
entry. -/
theorem resultType_leq {name : String} (h : AllLeq ts us) (hb : lookup? name form ts = some b)
    (hc : lookup? name form us = some c) : (b.resultType ts).leq (c.resultType us) := by
  have hctable : c ∈ table := mem_of_find?_eq_some hc
  rw [lookup?_eq_find?] at hb hc
  have hcus := find?_some hc
  have hcts := accepts_of_allLeq hctable h hcus
  have hcmem := mem_of_find?_eq_some hc
  rcases named_cases name with hone | ⟨n, i, l, d, hnamed, hi, hl, hd⟩
  · have hbmem := mem_of_find?_eq_some hb
    have heq : b = c := by
      obtain ⟨x, hx⟩ := length_eq_one_iff.1
        (Nat.le_antisymm hone (length_pos_of_mem hbmem))
      rw [hx, mem_singleton] at hbmem hcmem
      rw [hbmem, hcmem]
    rw [heq]
    exact resultType_mono hctable h hcus
  · rw [hnamed] at hb hcmem
    exact numeric_leq hi hl hd hb hcmem hcts
end Builtin

lemma Expr.leq_inferBuiltin {ts us : List ValueType}
    {b : Builtin} {u : ValueType} (h : AllLeq ts us) (hb : Builtin.lookup? name form ts = some b)
    (hu : inferBuiltin name form us = .ok u) : (b.resultType ts).leq u := by
  rw [inferBuiltin] at hu
  split at hu
  · cases hu
  split at hu
  · cases hu
    exact leq_unknown _
  split at hu
  · rename_i c hc
    cases hu
    exact Builtin.resultType_leq h hb hc
  · cases hu
end DataflowSpecializer
