import Mathlib.Data.List.Induction
import DataflowSpecializer.Proofs.Model.Order

/-! # Writing to variables -/
namespace DataflowSpecializer
open List SortedMap
namespace Constancy
section Reached
variable {deps : Dependencies} {vs : List ObjectId} {v w : ObjectId} {c : Constancy}

lemma Ordered.of_concat (h : Ordered deps (vs ++ [v])) (hv : v ∉ vs) :
    Ordered deps vs ∧ ∀ d ∈ named deps v, d ∈ vs := by
  have hearlier : ∀ {u d}, (vs ++ [v]).idxOf d < (vs ++ [v]).idxOf u → d ∈ vs ++ [v] →
      u ∈ vs ++ [v] → d ∈ vs := by
    intro u d hlt hd hu
    obtain hd | hd := mem_append.1 hd
    · exact hd
    · obtain rfl := mem_singleton.1 hd
      rw [idxOf_append_of_notMem hv, idxOf_cons_self, Nat.add_zero] at hlt
      have hle := idxOf_lt_length_of_mem hu
      rw [length_append, length_singleton] at hle
      exact absurd (Nat.lt_succ_iff.1 hle) (Nat.not_le.2 hlt)
  refine ⟨fun u hu d hd => ?_, fun d hd => ?_⟩
  · obtain ⟨hmem, hlt⟩ := h u (mem_append_left _ hu) d hd
    have hd' := hearlier hlt hmem (mem_append_left _ hu)
    rw [idxOf_append_of_mem hd', idxOf_append_of_mem hu] at hlt
    exact ⟨hd', hlt⟩
  · obtain ⟨hmem, hlt⟩ := h v (mem_append_right _ (.head _)) d hd
    exact hearlier hlt hmem (mem_append_right _ (.head _))

lemma Ordered.pairwise (h : Ordered deps vs) (hnodup : vs.Nodup) :
    vs.Pairwise fun w u => u ∉ named deps w := by
  rw [pairwise_iff_getElem]
  intro i j hi hj hij hmem
  have hlt := (h _ (getElem_mem hi) _ hmem).2
  rw [hnodup.idxOf_getElem, hnodup.idxOf_getElem] at hlt
  exact Nat.lt_asymm hij hlt

lemma foldl_reached (start : ObjectId → Bool) (hnodup : vs.Nodup) (h : Ordered deps vs) :
    let r := vs.foldl (fun acc w =>
      if (named deps w).any fun d => start d || acc.contains d then acc ++ [w] else acc) []
    r.Sublist vs ∧ ∀ w, w ∈ r ↔ w ∈ vs ∧ ∃ d ∈ named deps w, start d ∨ d ∈ r := by
  induction vs using reverseRecOn with
  | nil => simp
  | append_singleton vs v ih =>
    obtain ⟨hvs, -, hdisjoint⟩ := nodup_append.1 hnodup
    have hv : v ∉ vs := fun hv => hdisjoint v hv v (.head _) rfl
    obtain ⟨hordered, hnamed⟩ := h.of_concat hv
    obtain ⟨hsublist, hmem⟩ := ih hvs hordered
    rw [foldl_append, foldl_cons, foldl_nil]
    generalize vs.foldl _ [] = r at hsublist hmem ⊢
    have hfound : ((named deps v).any fun d => start d || r.contains d) ↔
        ∃ d ∈ named deps v, start d ∨ d ∈ r := by
      simp only [List.any_eq_true, Bool.or_eq_true, contains_iff_mem]
    -- whether `v` is added or not, nothing changes for what came before it
    have hstep : ∀ r' : List ObjectId, r' ⊆ vs ++ [v] → (∀ w ∈ vs, w ∈ r' ↔ w ∈ r) →
        (v ∈ r' ↔ ∃ d ∈ named deps v, start d ∨ d ∈ r) →
        ∀ w, w ∈ r' ↔ w ∈ vs ++ [v] ∧ ∃ d ∈ named deps w, start d ∨ d ∈ r' := by
      intro r' hsub hold hnew w
      have hdeps : ∀ w ∈ vs ++ [v], ∀ d ∈ named deps w, d ∈ r' ↔ d ∈ r := by
        intro w hw d hd
        obtain hw | hw := mem_append.1 hw
        · exact hold d (hordered w hw d hd).1
        · exact hold d (hnamed d (mem_singleton.1 hw ▸ hd))
      have hreach : w ∈ vs ++ [v] → ((∃ d ∈ named deps w, start d ∨ d ∈ r') ↔
          ∃ d ∈ named deps w, start d ∨ d ∈ r) := fun hw =>
        exists_congr fun d => and_congr_right fun hd => or_congr_right (hdeps w hw d hd)
      constructor
      · intro hw
        refine ⟨hsub hw, (hreach (hsub hw)).2 ?_⟩
        obtain hw' | hw' := mem_append.1 (hsub hw)
        · exact ((hmem w).1 ((hold w hw').1 hw)).2
        · rw [mem_singleton.1 hw'] at hw ⊢
          exact hnew.1 hw
      · rintro ⟨hw, hd⟩
        have hd := (hreach hw).1 hd
        obtain hw' | hw' := mem_append.1 hw
        · exact (hold w hw').2 ((hmem w).2 ⟨hw', hd⟩)
        · rw [mem_singleton.1 hw'] at hd ⊢
          exact hnew.2 hd
    split
    · rename_i hany
      rw [hfound] at hany
      have hsub := hsublist.append_right [v]
      refine ⟨hsub, hstep _ hsub.subset (fun w hw => ?_) ?_⟩
      · simp [ne_of_mem_of_not_mem hw hv]
      · simp [hany]
    · rename_i hany
      rw [hfound] at hany
      have hsub := hsublist.trans (sublist_append_left vs [v])
      refine ⟨hsub, hstep _ hsub.subset (fun w _ => Iff.rfl) ?_⟩
      exact iff_of_false (fun hv' => hv (hsublist.subset hv')) hany

lemma reached_sublist (h : Complete c.deps c.order) (start : ObjectId → Bool) :
    (c.reached start).Sublist c.order :=
  (foldl_reached start (h.perm.nodup_iff.2 (nodup_keys _)) h.ordered).1

lemma mem_reached (h : Complete c.deps c.order) (start : ObjectId → Bool) (w : ObjectId) :
    w ∈ c.reached start ↔ ∃ d ∈ named c.deps w, start d ∨ d ∈ c.reached start := by
  have hmem := (foldl_reached start (h.perm.nodup_iff.2 (nodup_keys _)) h.ordered).2 w
  refine Iff.trans hmem (and_iff_right_iff_imp.2 ?_)
  rintro ⟨d, hd, -⟩
  exact h.perm.mem_iff.2 (mem_keys_iff.2 (contains_of_mem_named hd))
end Reached

lemma lt_of_mem_affectedBy {c : Constancy} (h : Complete c.deps c.order)
    (hw : w ∈ c.affectedBy v) : c.order.idxOf v < c.order.idxOf w := by
  induction hn : c.order.idxOf w using Nat.strongRecOn generalizing w with
  | ind n ih =>
    obtain ⟨d, hd, hstart⟩ := (mem_reached h _ w).1 hw
    have hworder := (reached_sublist h _).subset hw
    have hlt := (h.ordered w hworder d hd).2
    rw [← hn]
    obtain hdv | hd := hstart
    · rwa [← of_decide_eq_true hdv]
    · exact (ih _ (hn ▸ hlt) hd rfl).trans hlt

lemma reached_mono {c : Constancy} (h : Complete c.deps c.order)
    (hstart : ∀ v, start v → start' v) (hw : w ∈ c.reached start) :
    w ∈ c.reached start' := by
  induction hn : c.order.idxOf w using Nat.strongRecOn generalizing w with
  | ind n ih =>
    obtain ⟨d, hd, hfrom⟩ := (mem_reached h _ w).1 hw
    have hlt := (h.ordered w ((reached_sublist h _).subset hw) d hd).2
    refine (mem_reached h _ w).2 ⟨d, hd, ?_⟩
    exact hfrom.imp (hstart d) fun hd => ih _ (hn ▸ hlt) hd rfl
end Constancy

namespace Model
def recompute (m : Model) (values : Values) (w : ObjectId) : Except Fault Values := do
  match ← m.parse w with
  | none => return values.insert w none
  | some e => return values.insert w (some (← m.evaluateExpr values w e))

/-- A write to `v`, and the recomputing of what depends on it. -/
def write (m : Model) (c : Constancy) (values : Values) (v : ObjectId) (x : Value) :
    Except Fault Values :=
  (c.affectedBy v).foldlM m.recompute (values.insert v (some x))

/-- The variables that an actor writes to. -/
def targets (m : Model) : List ObjectId := m.writers.map (·.2)

section Writing
variable {m : Model} {values values' : Values} {w : ObjectId}

lemma recompute_eq_ok (h : m.recompute values w = .ok values') :
    ∃ y, m.Yields values w y ∧ values' = values.insert w y := by
  obtain ⟨r, hparse, h⟩ := bind_eq_ok.1 h
  cases r with
  | none =>
    cases h
    exact ⟨none, hparse, rfl⟩
  | some e =>
    obtain ⟨x, hx, h⟩ := bind_eq_ok.1 h
    cases h
    exact ⟨some x, ⟨e, hparse, hx⟩, rfl⟩

lemma foldlM_recompute {ws : List ObjectId} (hnodup : ws.Nodup)
    (hvar : ∀ w ∈ ws, m.isVariable w) (hself : ∀ w ∈ ws, ¬ m.Names w w)
    (hlater : ws.Pairwise fun w u => ¬ m.Names w u)
    (h : ws.foldlM m.recompute values = .ok values') :
    (∀ w ∈ ws, m.Satisfied values' w) ∧ ∀ u ∉ ws, values'.get? u = values.get? u := by
  induction ws generalizing values with
  | nil =>
    cases h
    exact ⟨nofun, fun _ _ => rfl⟩
  | cons w ws ih =>
    rw [foldlM_cons] at h
    obtain ⟨values1, hw, h⟩ := bind_eq_ok.1 h
    obtain ⟨y, hyields, rfl⟩ := recompute_eq_ok hw
    obtain ⟨hwnot, hnodup⟩ := nodup_cons.1 hnodup
    obtain ⟨hlater_w, hlater⟩ := pairwise_cons.1 hlater
    obtain ⟨hwvar, hvar⟩ := forall_mem_cons.1 hvar
    obtain ⟨hwself, hself⟩ := forall_mem_cons.1 hself
    obtain ⟨hsatisfied, hkept⟩ := ih hnodup hvar hself hlater h
    refine ⟨forall_mem_cons.2 ⟨⟨y, ?_, hyields.congr hwvar fun u hu => ?_⟩, hsatisfied⟩, ?_⟩
    · rw [hkept w hwnot, get?_insert_self]
    · -- what `w` names is neither `w` nor computed after it
      have hne : u ≠ w := fun heq => hwself (heq ▸ hu)
      rw [hkept u fun hmem => hlater_w u hmem hu, get?_insert_of_ne _ hne]
    · intro u hu
      obtain ⟨hne, hu⟩ := not_or.1 (fun h => hu (mem_cons.2 h))
      rw [hkept u hu, get?_insert_of_ne _ hne]
end Writing

section Write
open Constancy

variable {m : Model} {values values' : Values} {v w : ObjectId} {x : Value}

structure Analysed (m : Model) (c : Constancy) : Prop where
  complete : Complete c.deps c.order
  mem_named : ∀ v w, w ∈ Constancy.named c.deps v ↔ m.Names v w
  constant : ∀ v, m.isVariable v → c.isConstant v →
    v ∉ m.targets ∧ v ∉ c.reached m.targets.contains

lemma analysed_analysis (h : Complete (depsOfModel m) (orderOf (depsOfModel m))) :
    m.Analysed (analysis m) where
  complete := h
  mem_named _ _ := mem_named_depsOfModel
  constant v hv hconstant := by
    have hnot : v ∉ (analysis m).changing := by simpa [isConstant] using hconstant
    rw [analysis, mem_filter, not_and, Bool.or_eq_true, not_or, contains_iff_mem,
      contains_iff_mem] at hnot
    exact hnot (mem_variableIds.2 hv)

variable {c : Constancy} (hc : m.Analysed c)

include hc

lemma Analysed.isVariable_of_mem_affectedBy (hw : w ∈ c.affectedBy v) : m.isVariable w := by
  obtain ⟨d, hd, -⟩ := (mem_reached hc.complete _ w).1 hw
  exact ((hc.mem_named w d).1 hd).1

lemma Analysed.affectedBy_of_names (hw : m.Names w u)
    (hu : u = v ∨ u ∈ c.affectedBy v) : w ∈ c.affectedBy v := by
  refine (mem_reached hc.complete _ w).2 ⟨u, (hc.mem_named w u).2 hw, ?_⟩
  exact hu.imp_left decide_eq_true

lemma Analysed.write (h : m.write c values v x = .ok values') :
    values'.get? v = some (some x) ∧ (∀ w ∈ c.affectedBy v, m.Satisfied values' w) ∧
      ∀ w, w ≠ v → w ∉ c.affectedBy v → values'.get? w = values.get? w := by
  have hnodup : c.order.Nodup := hc.complete.perm.nodup_iff.2 (nodup_keys _)
  have hsublist := reached_sublist hc.complete (· = v)
  have hlater : (c.affectedBy v).Pairwise fun w u => ¬ m.Names w u :=
    ((hc.complete.ordered.pairwise hnodup).sublist hsublist).imp fun {w u} hu hnames =>
      hu ((hc.mem_named w u).2 hnames)
  have hself : ∀ w ∈ c.affectedBy v, ¬ m.Names w w := fun w hw hnames =>
    Nat.lt_irrefl _ (hc.complete.ordered w (hsublist.subset hw) w ((hc.mem_named w w).2 hnames)).2
  obtain ⟨hsatisfied, hkept⟩ := foldlM_recompute (hnodup.sublist hsublist)
    (fun w => hc.isVariable_of_mem_affectedBy) hself hlater h
  refine ⟨?_, hsatisfied, fun w hne hw => ?_⟩
  · rw [hkept v fun hv => Nat.lt_irrefl _ (lt_of_mem_affectedBy hc.complete hv),
      get?_insert_self]
  · rw [hkept w hw, get?_insert_of_ne _ hne]

lemma Analysed.satisfied_of_write (hv : v ∈ m.targets)
    (hvalues : ∀ w, m.isVariable w → w ∉ m.targets → m.Satisfied values w)
    (h : m.write c values v x = .ok values') (hw : m.isVariable w) (hnot : w ∉ m.targets) :
    m.Satisfied values' w := by
  obtain ⟨-, hsatisfied, hkept⟩ := hc.write h
  by_cases hwv : w ∈ c.affectedBy v
  · exact hsatisfied w hwv
  · have hne : w ≠ v := fun heq => hnot (heq ▸ hv)
    refine (hvalues w hw hnot).congr hw (hkept w hne hwv) fun u hu => hkept u ?_ ?_
    · exact fun heq => hwv (hc.affectedBy_of_names hu (.inl heq))
    · exact fun hmem => hwv (hc.affectedBy_of_names hu (.inr hmem))

lemma Analysed.constant_of_write (hv : v ∈ m.targets) (h : m.write c values v x = .ok values')
    (hw : m.isVariable w) (hconstant : c.isConstant w) :
    values'.get? w = values.get? w := by
  obtain ⟨hnot, hreached⟩ := hc.constant w hw hconstant
  refine (hc.write h).2.2 w (fun heq => hnot (heq ▸ hv)) fun hmem => hreached ?_
  refine reached_mono hc.complete (fun u hu => ?_) hmem
  rw [of_decide_eq_true hu]
  exact contains_iff_mem.2 hv

lemma Analysed.writes {ws : List (ObjectId × Value)} (hws : ∀ p ∈ ws, p.1 ∈ m.targets)
    (hvalues : ∀ w, m.isVariable w → w ∉ m.targets → m.Satisfied values w)
    (h : ws.foldlM (fun values p => m.write c values p.1 p.2) values = .ok values') :
    (∀ w, m.isVariable w → w ∉ m.targets → m.Satisfied values' w) ∧
      ∀ w, m.isVariable w → c.isConstant w → values'.get? w = values.get? w := by
  induction ws generalizing values with
  | nil =>
    cases h
    exact ⟨hvalues, fun _ _ _ => rfl⟩
  | cons p ws ih =>
    obtain ⟨hp, hws⟩ := forall_mem_cons.1 hws
    rw [foldlM_cons] at h
    obtain ⟨values1, h1, h⟩ := bind_eq_ok.1 h
    obtain ⟨hsatisfied, hconstant⟩ := ih hws (fun w => hc.satisfied_of_write hp hvalues h1) h
    refine ⟨hsatisfied, fun w hw hwc => ?_⟩
    rw [hconstant w hw hwc, hc.constant_of_write hp h1 hw hwc]
end Write

/-- After any writes to variables that actors write, one more stores its value. It solves the
equations of all that depends on it, those of all variables that no actor writes hold, what does not
depend on it keeps its value, and constant variables have the values they were loaded with. -/
theorem write_restores_equations (d : Description.Entity) (m : Model) (c : Constancy)
    (h : ofDescription d = .ok m) (hc : Constancy.ofModel m = .ok c)
    (ws : List (ObjectId × Value)) (hws : ∀ p ∈ ws, p.1 ∈ m.writers.map (·.2)) (values : Values)
    (hvalues : ws.foldlM (fun values p => m.write c values p.1 p.2) m.values = .ok values)
    (v : ObjectId) (hv : v ∈ m.writers.map (·.2)) (x : Value) (values' : Values)
    (hwrite : m.write c values v x = .ok values') :
    values'.get? v = some (some x) ∧ (∀ w ∈ c.affectedBy v, m.Satisfied values' w) ∧
    (∀ w ∈ m.variableIds, w ∉ m.writers.map (·.2) → m.Satisfied values' w) ∧
    (∀ w, w ≠ v → w ∉ c.affectedBy v → values'.get? w = values.get? w) ∧
    ∀ w ∈ m.variableIds, c.isConstant w → values'.get? w = m.values.get? w := by
  obtain ⟨vs, hvs, hmem⟩ := evaluated_of_ofDescription h
  have hcomplete := Constancy.complete_of_evaluated hvs hmem
  have hsatisfied : ∀ w, m.isVariable w → m.Satisfied m.values w := fun w hw =>
    hvs.satisfied ((hmem w).2 (mem_variableIds.2 hw))
  have hanalysed : m.Analysed c := by
    rw [Constancy.ofModel_eq (parse_of_satisfied hsatisfied) hcomplete] at hc
    cases hc
    exact analysed_analysis hcomplete
  obtain ⟨hbefore, hconstant⟩ := hanalysed.writes hws (fun w hw _ => hsatisfied w hw) hvalues
  obtain ⟨hstored, hdependent, hkept⟩ := hanalysed.write hwrite
  refine ⟨hstored, hdependent, fun w hw => ?_, hkept, fun w hw hwc => ?_⟩
  · exact hanalysed.satisfied_of_write hv hbefore hwrite (mem_variableIds.1 hw)
  · have hw := mem_variableIds.1 hw
    rw [hanalysed.constant_of_write hv hwrite hw hwc, hconstant w hw hwc]

def writtenChain : Description.Entity where
  name := "M"
  parameters :=
    [{ name := "p", expression := "1" }, { name := "w", expression := "p * 2" },
      { name := "k", expression := "w + p" }]
  entities :=
    [{ name := "s", kind := "SetVariable"
       parameters := [{ name := "variableName", expression := "p" }] },
      { name := "t", kind := "SetVariable"
        parameters := [{ name := "variableName", expression := "w" }] }]

/-- The second parameter is written, and then the first, which the others depend on. -/
theorem write_restores_equations_of_chain :
    ∃ m c values values', ofDescription writtenChain = .ok m ∧ Constancy.ofModel m = .ok c ∧
      m.write c m.values 2 (.int 10) = .ok values ∧ m.write c values 1 (.int 5) = .ok values' ∧
      c.affectedBy 1 = [2, 3] ∧ values'.get? 1 = some (some (.int 5)) ∧
      m.Satisfied values' 2 ∧ m.Satisfied values' 3 := by
  have h : ((ofDescription writtenChain).toOption.any fun m =>
      (Constancy.ofModel m).toOption.any fun c =>
        (m.write c m.values 2 (.int 10)).toOption.any fun values =>
          (m.write c values 1 (.int 5)).toOption.any fun _ =>
            c.affectedBy 1 = [2, 3] ∧ 1 ∈ m.writers.map (·.2) ∧ 2 ∈ m.writers.map (·.2)) := by
    decide +kernel
  obtain ⟨m, hm, h⟩ := exists_ok_of_any h
  obtain ⟨c, hc, h⟩ := exists_ok_of_any h
  obtain ⟨values, hvalues, h⟩ := exists_ok_of_any h
  obtain ⟨values', hvalues', h⟩ := exists_ok_of_any h
  obtain ⟨haffected, hp, hw⟩ := of_decide_eq_true h
  obtain ⟨hstored, hsatisfied, -⟩ := write_restores_equations _ m c hm hc [(2, .int 10)]
    (by simpa using hw) values (by rw [foldlM_cons, hvalues]; rfl) 1 hp
    (.int 5) values' hvalues'
  rw [haffected] at hsatisfied
  exact ⟨m, c, values, values', hm, hc, hvalues, hvalues', haffected, hstored,
    hsatisfied 2 (by simp), hsatisfied 3 (by simp)⟩
end Model
end DataflowSpecializer
