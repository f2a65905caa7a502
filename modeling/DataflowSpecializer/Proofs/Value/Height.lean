import DataflowSpecializer.Analysis.ValueTypes
import DataflowSpecializer.Proofs.Value.Lattice

/-! # How far types can rise

Types of any depth occur, but each has only finitely many above it: `ValueType.climb` counts the
steps that can lead up to `unknown`, and falls with every step up (`climb_leq`).
-/
namespace DataflowSpecializer.ValueType
open List
structure IsJoin (f : ValueType → ValueType → ValueType) : Prop where
  canonical : ∀ {a b : ValueType}, a.IsCanonical → b.IsCanonical → (f a b).IsCanonical
  above : ∀ {a : ValueType}, a.IsCanonical → ∀ b, leq a (f a b)
  self : ∀ {a : ValueType}, a.IsCanonical → f a a = a
  comm : ∀ {a b : ValueType}, a.IsCanonical → b.IsCanonical → f a b = f b a
  assoc : ∀ {a b c : ValueType}, a.IsCanonical → b.IsCanonical → c.IsCanonical →
    f (f a b) c = f a (f b c)

lemma isJoin_lub : IsJoin lub where
  canonical ha hb := isCanonical_lub ha hb
  above := leq_lub_left
  self := lub_self
  comm := lub_comm
  assoc ha hb hc := lub_assoc ha hb hc

lemma isJoin_merge : IsJoin merge where
  canonical ha _ := isCanonical_merge ha _
  above ha b := leq_trans (leq_lub_left ha b) (lub_leq_merge ha)
  self _ := merge_self _
  comm _ _ := merge_comm _ _
  assoc _ _ _ := merge_assoc _ _ _

mutual

def climb : ValueType → Nat
  | .unknown => 0
  | .general => 1
  | .string | .function _ => 2
  | .boolean | .long | .complex | .fix => 3
  | .double => 4
  | .int => 5
  | .ubyte => 6
  | .array e | .matrix e => climb e + 2
  | .record fs => climbFields fs + 2

def climbFields : FieldTypes → Nat
  | [] => 0
  | (_, t) :: fs => climb t + 1 + climbFields fs
end

lemma climb_scalarLeq {a b : ValueType} (h : scalarLeq a b) :
    climb b ≤ climb a ∧ (climb b = climb a → a = b) := by
  obtain ⟨ha, hb⟩ := scalarLeq_isScalar h
  cases a <;> simp [isScalar] at ha <;> cases b <;> simp [isScalar] at hb <;>
    simp_all [scalarLeq, isScalar, climb]

lemma climb_le_climbFields {fs : FieldTypes} {f : String × ValueType}
    (h : f ∈ fs) : climb f.2 ≤ climbFields fs := by
  induction fs with
  | nil => cases h
  | cons g fs ih =>
    rw [climbFields]
    rcases mem_cons.1 h with rfl | h
    · omega
    · have := ih h
      omega

lemma climb_leqFields {fs : FieldTypes} (hfs : fs.Pairwise fun a b => a.1 < b.1)
    (ih : ∀ f ∈ fs, ∀ {t : ValueType}, t.IsCanonical → leq f.2 t →
      climb t ≤ climb f.2 ∧ (climb t = climb f.2 → f.2 = t)) :
    ∀ {gs : FieldTypes}, gs.Pairwise (fun a b => a.1 < b.1) →
      (∀ g ∈ gs, g.2.IsCanonical) → leqFields fs gs →
      climbFields gs ≤ climbFields fs ∧ (climbFields gs = climbFields fs → fs = gs) := by
  induction fs with
  | nil =>
    intro gs _ _ h
    cases gs with
    | nil => exact ⟨le_rfl, fun _ => rfl⟩
    | cons g gs => exact absurd (leqFields_iff.1 h g (.head _)) (by simp)
  | cons f fs ihfs =>
    obtain ⟨m, s⟩ := f
    intro gs hgs hcanon h
    cases gs with
    | nil =>
      simp only [climbFields]
      exact ⟨Nat.zero_le _, fun hsum => by omega⟩
    | cons g gs =>
      obtain ⟨l, t⟩ := g
      have hrest := @ihfs hfs.of_cons fun f hf => ih f (.tail _ hf)
      -- Behind its first label, a record is looked up in the rest.
      have hlookup (k : String) (hk : k ≠ m) : ((m, s) :: fs).lookup k = fs.lookup k := by
        rw [List.lookup_cons, beq_eq_false_iff_ne.2 hk]
      have hlater : ∀ g ∈ gs, l < g.1 := fun g hg => rel_of_pairwise_cons hgs hg
      have hall := leqFields_iff.1 h
      obtain ⟨s', hs', hst⟩ := hall (l, t) (.head _)
      by_cases hlm : l = m
      · subst m
        obtain rfl : s = s' := by simpa using hs'
        obtain ⟨hle, heq⟩ := ih (l, s) (.head _) (hcanon _ (.head _)) hst
        obtain ⟨hle', heq'⟩ := hrest hgs.of_cons (fun g hg => hcanon g (.tail _ hg))
          (leqFields_iff.2 fun g hg => by
            have hne : g.1 ≠ l := fun e => String.lt_irrefl _ (e ▸ hlater g hg)
            rw [← hlookup g.1 hne]
            exact hall g (.tail _ hg))
        simp only [climbFields]
        refine ⟨by dsimp only at hle; omega, fun hsum => ?_⟩
        have hs : s = t := heq (by dsimp only at hle ⊢; omega)
        rw [hs, heq' (by dsimp only at hle; omega)]
      · have hml : m < l := by
          rw [hlookup l hlm] at hs'
          exact rel_of_pairwise_cons hfs (mem_of_lookup hs')
        have hne : ∀ g ∈ (l, t) :: gs, g.1 ≠ m := by
          intro g hg e
          rcases mem_cons.1 hg with rfl | hg
          · exact hlm e
          · exact String.lt_irrefl _ (String.lt_trans hml (e ▸ hlater g hg))
        obtain ⟨hle, -⟩ := hrest hgs hcanon (leqFields_iff.2 fun g hg => by
          rw [← hlookup g.1 (hne g hg)]
          exact hall g hg)
        rw [climbFields] at hle ⊢
        rw [climbFields]
        exact ⟨by omega, fun hsum => by omega⟩

lemma climb_leq {a : ValueType} (ha : a.IsCanonical) : ∀ {b : ValueType}, b.IsCanonical →
    leq a b → climb b ≤ climb a ∧ (climb b = climb a → a = b) := by
  induction ha with (intro b hb h)
  | array _ ih =>
    rcases array_leq_iff.1 h with rfl | rfl | ⟨e, rfl, hde⟩
    · simp [climb]
    · simp [climb]
    · cases hb with
      | array he => simpa [climb] using ih he hde
  | matrix _ ih =>
    rcases matrix_leq_iff.1 h with rfl | rfl | ⟨e, rfl, hde⟩
    · simp [climb]
    · simp [climb]
    · cases hb with
      | matrix he => simpa [climb] using ih he hde
  | record hfs _ ih =>
    rcases record_leq_iff.1 h with rfl | rfl | ⟨gs, rfl, hle⟩
    · simp [climb]
    · simp [climb]
    · cases hb with
      | record hgs hcanon => simpa [climb] using climb_leqFields hfs ih hgs hcanon hle
  | function =>
    rcases function_leq_iff.1 h with rfl | rfl | rfl <;> simp [climb]
  | general =>
    rcases general_leq_iff.1 h with rfl | rfl <;> simp [climb]
  | unknown =>
    rw [unknown_leq_iff.1 h]
    simp
  | boolean | ubyte | int | long | double | complex | fix | string =>
    rcases (scalar_leq_iff rfl).1 h with rfl | rfl | h
    · simp [climb]
    · simp [climb]
    · exact climb_scalarLeq h

mutual

lemma climb_le_height : ∀ t : ValueType, climb t ≤ TypeContext.height t
  | .array e | .matrix e => by
    have := climb_le_height e
    simp only [climb, TypeContext.height]
    omega
  | .record fs => by
    have := climbFields_le_height fs
    simp only [climb, TypeContext.height]
    omega
  | .boolean | .ubyte | .int | .long | .double | .complex | .fix | .string | .function _
  | .general | .unknown => by simp [climb, TypeContext.height]

lemma climbFields_le_height : ∀ fs : FieldTypes, climbFields fs ≤ TypeContext.height.fieldHeights fs
  | [] => le_rfl
  | (_, t) :: fs => by
    have := climb_le_height t
    have := climbFields_le_height fs
    simp only [climbFields, TypeContext.height.fieldHeights]
    omega
end
end DataflowSpecializer.ValueType
