import DataflowSpecializer.Proofs.Fitness.References
import DataflowSpecializer.Proofs.Simplify.Correctness
import DataflowSpecializer.Reduce.Equality
import DataflowSpecializer.Reduce.Notifications

/-! # Reductions of methods keep states fit -/
namespace DataflowSpecializer
open Platform DataflowSpecializer.Specialization List Option SortedMap Simplify Specialize
  DataflowSpecializer.Action
open Simplify (label?)

variable {m : MethodId} {P : Demand → Prop}

variable {s : Specialization} {settled : Bool}

namespace Equality
lemma decide?_folded {map : ObjectMap} {a a' : Action} (h : decide? map a = some a') :
    Simplify.Folded a a' := by
  unfold decide? at h
  split at h
  · obtain ⟨taken, -, rfl⟩ := map_eq_some_iff.1 h
    cases taken
    · exact .skipped
    · exact .taken
  · obtain ⟨r, -, rfl⟩ := map_eq_some_iff.1 h
    exact .value nofun
  · cases h

lemma reduceMethod_ensures (hs : s.Fit settled) (hm : m < s.program.methods.size)
    (hlive : s.program.isLiveMethod m) :
    Ensures (reduceMethod m) s fun _ s' => s'.Fit settled ∧ s.Spawns s' := by
  have hb := hs.bodies m hm hlive
  have hdecided := (change_rewrites (f := decide? (s.objectMap m))
    (fun _ _ => decide?_folded) hb.toWellFormed).fits hb
  obtain ⟨hs1, h1⟩ := hs.changeBody (fun _ _ => hdecided) .refl
  refine .get_bind ?_
  dsimp only
  split
  · obtain ⟨hs2, h2⟩ := hs1.warned _
    exact .bind (.set (Q := fun _ s' => s'.Fit settled ∧ s.Spawns s') ⟨hs2, h1.trans h2⟩)
      fun _ _ h => .pure h
  · exact .bind (.set (Q := fun _ s' => s'.Fit settled ∧ s.Spawns s') ⟨hs1, h1⟩)
      fun _ _ h => .pure h

lemma reduce_ensures (hs : s.Fit settled) :
    Ensures reduce s fun _ s' => s'.Fit settled ∧ s.Spawns s' :=
  .get_bind (methods_ensures rfl (fun _ _ => rfl) reduceMethod_ensures _ hs
    fun _ => hs.mem_allLiveMethods)
end Equality

/-! ## Values -/
namespace Boxing
def Reduction.Valid (b : Body) : Reduction → Prop
  | .fold v => (∀ l ∈ v.locals, l < b.locals.size) ∧ v.demands = []
  | .unbox _ lhs rhs _ => lhs < b.locals.size ∧ rhs < b.locals.size

structure Valid (b : Body) (x : StmtId × LocalId × Reduction) : Prop where
  plain : b.Plain x.1
  target : x.2.1 < b.locals.size
  reduction : x.2.2.Valid b

variable {x : StmtId × LocalId × Reduction}

lemma Valid.retained {b b' : Body} (hx : Valid b x) (h : b.Retains b') : Valid b' x where
  plain := h.plain _ hx.plain
  target := hx.target.trans_le h.size
  reduction := by
    obtain ⟨id, l, r⟩ := x
    have hr := hx.reduction
    cases r with
    | fold v => exact ⟨fun l hl => (hr.1 l hl).trans_le h.size, hr.2⟩
    | unbox op lhs rhs t => exact ⟨hr.1.trans_le h.size, hr.2.trans_le h.size⟩

lemma constant_valid (b : Body) (c : Constant) : (constant c).Valid b := ⟨nofun, rfl⟩

variable {b : Body} {r : Reduction}

lemma static?_valid {x : TypeFact} {call : Invocation}
    (hlocals : ∀ l ∈ call.locals, l < b.locals.size) (h : static? x call = some r) : r.Valid b := by
  unfold static? at h
  split at h
  · split at h <;> cases h
    exact constant_valid b _
  · rename_i l _ hargs
    split at h <;> cases h
    refine ⟨fun k hk => hlocals k (mem_append_right _ ?_), rfl⟩
    rw [hargs]
    simpa [Rvalue.locals] using hk
  · cases h

lemma virtual?_valid {x : TypeFact} {call : Invocation}
    (hlocals : ∀ l ∈ call.locals, l < b.locals.size) (h : virtual? s b x call = some r) :
    r.Valid b := by
  unfold virtual? at h
  split at h
  · obtain ⟨v, -, h⟩ := bind_eq_some_iff.1 h
    obtain ⟨k, -, h⟩ := bind_eq_some_iff.1 h
    cases h
    exact constant_valid b k
  · rename_i base arg hbase hargs
    split at h
    · obtain ⟨op, -, h⟩ := bind_eq_some_iff.1 h
      unfold unbox? at h
      dsimp only at h
      split at h <;> cases h
      refine ⟨hlocals base (mem_append_left _ (mem_toList.2 hbase)),
        hlocals arg (mem_append_right _ ?_)⟩
      rw [hargs]
      exact mem_singleton_self _
    · cases h
  · cases h

lemma reduction?_valid {x : TypeFact} {v : Rvalue}
    (hlocals : ∀ l ∈ v.locals, l < b.locals.size) (h : reduction? s b x v = some r) :
    r.Valid b := by
  unfold reduction? at h
  split at h
  · unfold classTest? at h
    dsimp only at h
    split at h <;> cases h
    exact constant_valid b _
  · split at h
    · exact static?_valid hlocals h
    · exact virtual?_valid hlocals h
    · cases h
  · cases h

lemma reductions_valid (hb : (s.program.body m).Fits P) :
    ∀ x ∈ reductions s m, Valid (s.program.body m) x := by
  intro x hx
  obtain ⟨⟨stmt, i⟩, hmem, hx⟩ := mem_filterMap.1 hx
  have hstmt : stmt ∈ (s.program.body m).stmts := fst_mem_of_mem_zipIdx hmem
  obtain ⟨fact, -, hx⟩ := bind_eq_some_iff.1 hx
  obtain ⟨l, hl, hx⟩ := bind_eq_some_iff.1 hx
  obtain ⟨v, hv, hx⟩ := bind_eq_some_iff.1 hx
  obtain ⟨r, hr, hx⟩ := bind_eq_some_iff.1 hx
  cases hx
  have hlocals := hb.locals stmt.action (List.mem_map_of_mem hstmt)
  obtain ⟨place, hassign⟩ : ∃ place, stmt.action = .assign place v := by
    cases ha : stmt.action <;> rw [ha] at hv <;> cases hv
    exact ⟨_, rfl⟩
  refine ⟨.of_mem hb hstmt (by rw [hassign]; rfl), hlocals l (target?_mem_mentions hl),
    reduction?_valid (fun k hk => hlocals k (mem_append_left _ ?_)) hr⟩
  rw [hassign]
  cases place <;> simp [Action.uses, hk]

lemma nativeAccessor?_isReserved {t : ValueType} {accessor : String}
    (h : t.nativeAccessor? = some accessor) : isReserved accessor = false := by
  unfold ValueType.nativeAccessor? at h
  split at h <;> cases h <;> decide

lemma perform_fits [Liberal P]
    (hb : b.Fits P) (hx : Valid b x) : (perform b x).Fits P ∧ b.Retains (perform b x) := by
  obtain ⟨id, l, r⟩ := x
  obtain ⟨hplain, htarget, hr⟩ := hx
  cases r with
  | fold v =>
    refine ⟨hb.replace hplain (fun k hk => ?_) fun y hy => ?_, .replace b id l v⟩
    · rcases mem_append.1 hk with hk | hk
      · exact hr.1 k hk
      · obtain rfl := some.inj (mem_toList.1 hk)
        exact htarget
    · rw [show (Action.set l v).demands = v.demands from rfl, hr.2] at hy
      cases hy
  | unbox op lhs rhs t =>
    simp only [perform]
    split
    · rename_i native accessor _ haccessor
      obtain ⟨hd, hgrows⟩ := Draft.TidyCode.run (unboxed_tidy op t native
        hr.1 hr.2 htarget (nativeAccessor?_isReserved haccessor)) hb
      split
      · rename_i b' hb'
        obtain ⟨pos, hpos⟩ := Body.insertBefore?_eq hb'
        obtain rfl : b' = _ := congrArg Prod.snd hpos
        obtain ⟨hfits, hretains⟩ := hd.inserted hgrows pos
        exact ⟨hfits.remove (hretains.plain _ hplain), hretains.trans (.remove _ id)⟩
      · exact ⟨hd.body.remove (hgrows.retains.plain _ hplain), hgrows.retains.trans (.remove _ id)⟩
    · exact ⟨hb, .refl b⟩

lemma foldl_perform_fits [Liberal P] (xs : List (StmtId × LocalId × Reduction)) (hb : b.Fits P)
    (hxs : ∀ x ∈ xs, Valid b x) : (xs.foldl perform b).Fits P ∧ b.Retains (xs.foldl perform b) := by
  induction xs generalizing b with
  | nil => exact ⟨hb, .refl b⟩
  | cons x xs ih =>
    obtain ⟨hfits, hretains⟩ := perform_fits hb (hxs x (.head _))
    exact (ih hfits fun y hy => (hxs y (.tail _ hy)).retained hretains).imp_right hretains.trans

lemma reduceMethod_ensures (hs : s.Fit settled) (hm : m < s.program.methods.size)
    (hlive : s.program.isLiveMethod m) :
    Ensures (reduceMethod m) s fun _ s' => s'.Fit settled ∧ s.Spawns s' := by
  have hb := hs.bodies m hm hlive
  obtain ⟨hfits, hretains⟩ := foldl_perform_fits (reductions s m) hb (reductions_valid hb)
  have hreduced := hs.changeBody (m := m) (fun _ _ => hfits) hretains.nextStmt
  exact .get_bind (.bind (.set (Q := fun _ s' => s'.Fit settled ∧ s.Spawns s') hreduced)
    fun _ _ h => .pure h)

lemma reduce_ensures (hs : s.Fit settled) :
    Ensures reduce s fun _ s' => s'.Fit settled ∧ s.Spawns s' :=
  .get_bind (methods_ensures rfl (fun _ _ => rfl) reduceMethod_ensures _ hs
    fun _ => hs.mem_allLiveMethods)
end Boxing

/-! ## Notifications -/
structure Body.Reserves (b b' : Body) : Prop where
  stmts : b'.stmts = b.stmts
  entry : b'.entry = b.entry
  nextStmt : b'.nextStmt = b.nextStmt
  size : b.locals.size ≤ b'.locals.size
  nextLabel : b.nextLabel ≤ b'.nextLabel

namespace Body.Reserves
variable {b b' b'' : Body}

lemma refl (b : Body) : b.Reserves b := ⟨rfl, rfl, rfl, .refl, .refl⟩

lemma trans (h : b.Reserves b') (h' : b'.Reserves b'') : b.Reserves b'' :=
  ⟨h'.stmts.trans h.stmts, h'.entry.trans h.entry, h'.nextStmt.trans h.nextStmt,
    h.size.trans h'.size, h.nextLabel.trans h'.nextLabel⟩

lemma newLocal (b : Body) (name : String) (type : CodeType) : b.Reserves (b.newLocal name type).2 :=
  ⟨rfl, rfl, rfl, by rw [size_newLocal]; exact Nat.le_succ _, .refl⟩

lemma newLabel (b : Body) : b.Reserves b.newLabel.2 := ⟨rfl, rfl, rfl, .refl, Nat.le_succ _⟩

lemma retains (h : b.Reserves b') : b.Retains b'  where
  plain _ hid := hid.of_stmts h.nextStmt fun _ hs => .inl (h.stmts ▸ hs)
  size := h.size
  nextStmt := Nat.le_of_eq h.nextStmt.symm

lemma fits (h : b.Reserves b') (hb : b.Fits P) : b'.Fits P := by
  have hcode : b'.code = b.code := by rw [code, h.stmts, code]
  exact {
    ids := h.stmts ▸ hb.ids
    labels := hcode ▸ hb.labels
    targets := hcode ▸ hb.targets
    locals := fun a ha l hl => (hb.locals a (hcode ▸ ha) l hl).trans_le h.size
    entry := fun l hl => (hb.entry l (h.entry ▸ hl)).trans_le h.size
    idsBelow := fun s hs => h.nextStmt ▸ hb.idsBelow s (h.stmts ▸ hs)
    labelsBelow := fun l hl => (hb.labelsBelow l (hcode ▸ hl)).trans_le h.nextLabel
    demands := fun a ha => hb.demands a (hcode ▸ ha) }
end Body.Reserves

namespace Notifications
/-- The locals taken so far: they are new, except for the receiver's. -/
structure Taken (callee : Body) (receiver : Nat) (caller : Body) (table : Array LocalId) (b : Body) :
    Prop where
  reserves : caller.Reserves b
  nextLabel : b.nextLabel = caller.nextLabel
  below : ∀ i < table.size, table.getD i i < b.locals.size
  receiver : ∀ i < table.size, callee.receiver = some i → table.getD i i = receiver
  fresh : ∀ i < table.size, callee.receiver ≠ some i → caller.locals.size ≤ table.getD i i ∧
    ∀ j < table.size, j ≠ i → table.getD j j ≠ table.getD i i

section Taken
variable {callee caller b b' : Body} {receiver v : Nat} {table : Array LocalId}

lemma Taken.lt_of_mem (h : Taken callee receiver caller table b) (hl : l ∈ table) :
    (l : Nat) < b.locals.size := by
  obtain ⟨i, hi, rfl⟩ := Array.mem_iff_getElem.1 hl
  have := h.below i hi
  rwa [Array.getD, dif_pos hi] at this

lemma Taken.push (h : Taken callee receiver caller table b) (hreceiver : receiver < caller.locals.size)
    (hb : b.Reserves b') (hlabel : b'.nextLabel = b.nextLabel) (hv : v < b'.locals.size)
    (hself : callee.receiver = some table.size → v = receiver)
    (hother : callee.receiver ≠ some table.size → v = b.locals.size) :
    Taken callee receiver caller (table.push v) b' := by
  have hcases {i : Nat} (hi : i < (table.push v).size) : i = table.size ∨ i < table.size := by
    rw [Array.size_push] at hi
    omega
  refine ⟨h.reserves.trans hb, hlabel.trans h.nextLabel, fun i hi => ?_, fun i hi hthis => ?_,
    fun i hi hthis => ?_⟩
  · rcases hcases hi with rfl | hi
    · rwa [getD_push_size]
    · rw [getD_push_lt hi]
      exact (h.below i hi).trans_le hb.size
  · rcases hcases hi with rfl | hi
    · rw [getD_push_size, hself hthis]
    · rw [getD_push_lt hi, h.receiver i hi hthis]
  · rcases hcases hi with rfl | hi
    · rw [getD_push_size]
      refine ⟨hother hthis ▸ h.reserves.size, fun j hj hne => ?_⟩
      have hj := (hcases hj).resolve_left hne
      rw [getD_push_lt hj, hother hthis]
      exact Nat.ne_of_lt (h.below j hj)
    · obtain ⟨hle, hne⟩ := h.fresh i hi hthis
      rw [getD_push_lt hi]
      refine ⟨hle, fun j hj hji => ?_⟩
      rcases hcases hj with rfl | hj
      · rw [getD_push_size]
        by_cases hself' : callee.receiver = some table.size
        · rw [hself hself']
          exact Nat.ne_of_lt (hreceiver.trans_le hle)
        · rw [hother hself']
          exact Nat.ne_of_gt (h.below i hi)
      · rw [getD_push_lt hj]
        exact hne j hj hji

lemma takeLocals_fold (h : receiver < caller.locals.size) (ls : List Local)
    (hb : Taken callee receiver caller table b) :
    let r := (ls.zipIdx table.size).foldl (fun (table, caller) (l, i) =>
        if callee.receiver = some i then (table.push receiver, caller)
        else
          let (new, caller) := caller.newLocal l.name l.type
          (table.push new, caller))
      (table, b)
    r.1.size = table.size + ls.length ∧ Taken callee receiver caller r.1 r.2 := by
  induction ls generalizing table b with
  | nil => exact ⟨rfl, hb⟩
  | cons l ls ih =>
    rw [zipIdx_cons, foldl_cons, length_cons, ← Nat.add_assoc, Nat.add_right_comm]
    dsimp only
    split
    · rename_i hself
      rw [← Array.size_push receiver]
      exact ih (hb.push h (.refl _) rfl (h.trans_le hb.reserves.size) (fun _ => rfl)
        fun hother => absurd hself hother)
    · rename_i hother
      have hnew := b.size_newLocal l.name l.type
      rw [← Array.size_push (b.newLocal l.name l.type).1]
      exact ih (hb.push h (.newLocal b _ _) rfl (by rw [hnew]; exact Nat.lt_succ_self _)
        (fun hself => absurd hself hother) fun _ => rfl)

lemma takeLocals_spec (callee : Body) (h : receiver < caller.locals.size) :
    (takeLocals callee receiver caller).1.size = callee.locals.size ∧
      Taken callee receiver caller (takeLocals callee receiver caller).1
        (takeLocals callee receiver caller).2 := by
  have hempty : Taken callee receiver caller #[] caller := by
    refine ⟨.refl _, rfl, ?_, ?_, ?_⟩ <;> simp
  obtain ⟨hsize, htaken⟩ := takeLocals_fold h callee.locals.toList hempty
  exact ⟨hsize.trans (by simp), htaken⟩
end Taken

lemma takeLabels_fold (ls : List Label) (table : SortedMap Label Label) (caller : Body)
    (hnodup : ls.Nodup) :
    let r := ls.foldl (fun (table, caller) l =>
        let (new, caller) := caller.newLabel
        (table.insert l new, caller))
      (table, caller)
    (∀ l ∈ ls, r.1.get? l = some (caller.nextLabel + ls.idxOf l)) ∧
      (∀ l ∉ ls, r.1.get? l = table.get? l) ∧
      r.2.nextLabel = caller.nextLabel + ls.length ∧ caller.Reserves r.2 := by
  induction ls generalizing table caller with
  | nil => exact ⟨fun _ h => absurd h not_mem_nil, fun _ _ => rfl, rfl, .refl caller⟩
  | cons l ls ih =>
    obtain ⟨hl, hnodup⟩ := nodup_cons.1 hnodup
    obtain ⟨hin, hout, hnext, hreserves⟩ :=
      ih (table.insert l caller.nextLabel) caller.newLabel.2 hnodup
    rw [foldl_cons, length_cons]
    refine ⟨fun k hk => ?_, fun k hk => ?_, ?_, (Body.Reserves.newLabel caller).trans hreserves⟩
    · by_cases hkl : k = l
      · subst hkl
        rw [idxOf_cons_self]
        exact (hout k hl).trans (get?_insert_self _ _ _)
      · have hk := (mem_cons.1 hk).resolve_left hkl
        rw [idxOf_cons_ne _ (Ne.symm hkl)]
        exact (hin k hk).trans (congrArg some (Nat.add_right_comm _ 1 _))
    · rw [mem_cons, not_or] at hk
      exact (hout k hk.2).trans (get?_insert_of_ne _ hk.1 _)
    · exact hnext.trans (Nat.add_right_comm _ 1 _)

lemma takeLabels_spec (callee caller : Body) (hnodup : (labelsOf callee.code).Nodup) :
    (∀ l ∈ labelsOf callee.code, (takeLabels callee caller).1.get? l =
        some (caller.nextLabel + (labelsOf callee.code).idxOf l)) ∧
      (∀ l ∉ labelsOf callee.code, (takeLabels callee caller).1.get? l = none) ∧
      (takeLabels callee caller).2.nextLabel = caller.nextLabel + (labelsOf callee.code).length ∧
      caller.Reserves (takeLabels callee caller).2 := by
  have hlabels : callee.stmts.filterMap (fun s => label? s.action) = labelsOf callee.code := by
    rw [labelsOf, Body.code, filterMap_map]
    rfl
  have h := takeLabels_fold (labelsOf callee.code) .empty caller hnodup
  unfold takeLabels
  rw [hlabels]
  exact h

section Copy
variable {locals : Array LocalId} {labels : SortedMap Label Label} {done : Label} {a : Action}

lemma label?_copyAction : label? (copyAction locals labels done a) =
    (label? a).map fun l => (labels.get? l).getD l := by
  unfold copyAction
  dsimp only
  rw [renameLocals_eq_exchange]
  cases a with
  | assign place v => cases place <;> rfl
  | _ => rfl

lemma jump?_copyAction (h : (copyAction locals labels done a).jump? = some l) :
    (∃ t, a.jump? = some t ∧ l = (labels.get? t).getD t) ∨ l = (labels.get? done).getD done := by
  unfold copyAction at h
  dsimp only at h
  rw [renameLocals_eq_exchange] at h
  cases a with
  | assign place v => cases place <;> cases h
  | branch op x y target | goto target =>
    cases h
    exact .inl ⟨target, rfl, rfl⟩
  | ret v =>
    cases h
    exact .inr rfl
  | _ => cases h

lemma mentions_copyAction (h : l ∈ (copyAction locals labels done a).mentions) :
    ∃ k ∈ a.mentions, l = locals.getD k k := by
  have hlabels (f : Label → Label) (a : Action) : (a.renameLabels f).mentions = a.mentions := by
    cases a <;> rfl
  unfold copyAction at h
  rw [hlabels, renameLocals_eq_exchange] at h
  obtain ⟨k, hk, rfl⟩ := mem_mentions_newNames h
  refine ⟨k, ?_, rfl⟩
  cases a with
  | ret v => cases hk
  | _ => exact hk

lemma demands_copyAction : (copyAction locals labels done a).demands = a.demands := by
  have hlabels (f : Label → Label) (a : Action) : (a.renameLabels f).demands = a.demands := by
    cases a <;> rfl
  unfold copyAction
  rw [hlabels, renameLocals_eq_exchange, demands_exchange]
  cases a <;> rfl
end Copy

structure Site.Valid (b : Body) (x : Site) : Prop where
  plain : b.Plain x.stmt
  receiver : x.receiver < b.locals.size
  argument : Draft.OperandsTaken b.locals.size [x.argument]

lemma Site.Valid.retained {b b' : Body} {x : Site} (hx : x.Valid b) (h : b.Retains b') :
    x.Valid b' :=
  ⟨h.plain _ hx.plain, hx.receiver.trans_le h.size, hx.argument.mono h.size⟩

lemma copy_insertable {callee caller : Body} {locals : Array LocalId}
    {labels : SortedMap Label Label} (first : Label) {done : Label} {argument : Operand}
    (hcallee : callee.WellFormed) (hdemands : ∀ a ∈ callee.code, ∀ x ∈ a.demands, P x)
    (hcaller : caller.Fits P) (hsize : locals.size = callee.locals.size)
    (hlocals : ∀ l ∈ locals, (l : Nat) < caller.locals.size)
    (hargument : Draft.OperandsTaken caller.locals.size [argument])
    (hfirst : ∀ l ∈ labelsOf caller.code, l < first) (hin : ∀ l ∈ labelsOf callee.code,
      labels.get? l = some (first + (labelsOf callee.code).idxOf l))
    (hout : ∀ l ∉ labelsOf callee.code, labels.get? l = none)
    (hdone : done = first + (labelsOf callee.code).length) (hnext : caller.nextLabel = done + 1) :
    caller.Insertable P (callee.params.head?.toList.map (fun l =>
        Action.set (locals.getD l l) (.use argument)) ++
      callee.stmts.map (fun s => copyAction locals labels done s.action) ++ [.label done]) := by
  have hlocal {l : LocalId} (hl : l < callee.locals.size) : locals.getD l l < caller.locals.size := by
    have hl : l < locals.size := hsize ▸ hl
    rw [Array.getD, dif_pos hl]
    exact hlocals _ (Array.getElem_mem hl)
  have hset : labelsOf (callee.params.head?.toList.map fun l =>
      Action.set (locals.getD l l) (.use argument)) = [] := by
    cases callee.params.head? <;> rfl
  have hcopy : labelsOf (callee.stmts.map fun s => copyAction locals labels done s.action) =
      (labelsOf callee.code).map fun l => first + (labelsOf callee.code).idxOf l := by
    have hrename : labelsOf (callee.stmts.map fun s => copyAction locals labels done s.action) =
        (labelsOf callee.code).map fun l => (labels.get? l).getD l := by
      rw [labelsOf, labelsOf, Body.code, filterMap_map, filterMap_map, map_filterMap]
      exact filterMap_congr fun s _ => label?_copyAction
    rw [hrename]
    exact map_congr_left fun l hl => by rw [hin l hl, getD_some]
  have hplaced {l : Label} (h : .label l ∈ callee.code) : .label ((labels.get? l).getD l) ∈
        callee.stmts.map fun s => copyAction locals labels done s.action := by
    obtain ⟨s, hs, hl⟩ := List.mem_map.1 h
    exact List.mem_map.2 ⟨s, hs, by rw [hl]; rfl⟩
  -- The labels of the copies lie between those of the caller and the end of the copies.
  have hbetween : ∀ l ∈ labelsOf (callee.stmts.map fun s => copyAction locals labels done s.action),
      first ≤ l ∧ l < done := by
    rw [hcopy, hdone]
    intro l hl
    obtain ⟨k, hk, rfl⟩ := List.mem_map.1 hl
    exact ⟨Nat.le_add_right _ _, Nat.add_lt_add_left (idxOf_lt_length_of_mem hk) _⟩
  have hend : first ≤ done := hdone ▸ Nat.le_add_right _ _
  refine ⟨?_, fun l hl => ?_, fun a ha l hl => ?_, fun a ha l hl => ?_, fun a ha x hx => ?_⟩
  · rw [labelsOf_append, labelsOf_append, hset, nil_append]
    refine nodup_append.2 ⟨hcaller.labels, nodup_append.2 ⟨?_, nodup_singleton _,
      fun l hl k hk => ?_⟩, fun l hl k hk => ?_⟩
    · rw [hcopy]
      refine hcallee.labels.map_on fun l hl k _ h => ?_
      exact (idxOf_inj hl).1 (Nat.add_left_cancel h)
    · obtain rfl := mem_singleton.1 hk
      exact Nat.ne_of_lt (hbetween l hl).2
    · refine Nat.ne_of_lt (Nat.lt_of_lt_of_le (hfirst l hl) ?_)
      rcases mem_append.1 hk with hk | hk
      · exact (hbetween k hk).1
      · obtain rfl := mem_singleton.1 hk
        exact hend
  · rw [labelsOf_append, labelsOf_append, hset, nil_append] at hl
    rw [hnext]
    rcases mem_append.1 hl with hl | hl
    · exact Nat.lt_succ_of_lt (hbetween l hl).2
    · obtain rfl := mem_singleton.1 hl
      exact Nat.lt_succ_self _
  · rcases mem_append.1 ha with ha | ha
    · rcases mem_append.1 ha with ha | ha
      · obtain ⟨p, -, rfl⟩ := List.mem_map.1 ha
        cases hl
      · obtain ⟨s, hs, rfl⟩ := List.mem_map.1 ha
        rcases jump?_copyAction hl with ⟨t, ht, rfl⟩ | rfl
        · have htarget := hcallee.targets s.action (List.mem_map_of_mem hs) t ht
          exact mem_append_left _ (mem_append_right _ (hplaced htarget))
        · -- The end of the copies may have the number of a label of the callee.
          by_cases hmem : done ∈ labelsOf callee.code
          · exact mem_append_left _ (mem_append_right _ (hplaced (mem_labelsOf.1 hmem)))
          · rw [hout done hmem]
            exact mem_append_right _ (mem_singleton_self _)
    · obtain rfl := mem_singleton.1 ha
      cases hl
  · rcases mem_append.1 ha with ha | ha
    · rcases mem_append.1 ha with ha | ha
      · obtain ⟨p, hp, rfl⟩ := List.mem_map.1 ha
        have hp : p ∈ callee.entry := mem_append_right _ (mem_of_head? (mem_toList.1 hp))
        rcases mem_append.1 hl with hl | hl
        · exact hargument l (mem_flatMap.2 ⟨argument, mem_singleton_self _, hl⟩)
        · obtain rfl := some.inj (mem_toList.1 hl)
          exact hlocal (hcallee.entry p hp)
      · obtain ⟨s, hs, rfl⟩ := List.mem_map.1 ha
        obtain ⟨k, hk, rfl⟩ := mentions_copyAction hl
        exact hlocal (hcallee.locals s.action (List.mem_map_of_mem hs) k hk)
    · obtain rfl := mem_singleton.1 ha
      cases hl
  · rcases mem_append.1 ha with ha | ha
    · rcases mem_append.1 ha with ha | ha
      · obtain ⟨p, -, rfl⟩ := List.mem_map.1 ha
        cases hx
      · obtain ⟨s, hs, rfl⟩ := List.mem_map.1 ha
        rw [demands_copyAction] at hx
        exact hdemands s.action (List.mem_map_of_mem hs) x hx
    · obtain rfl := mem_singleton.1 ha
      cases hx

lemma splice_fits {callee caller : Body} {x : Site} (hcallee : callee.WellFormed)
    (hdemands : ∀ a ∈ callee.code, ∀ x ∈ a.demands, P x) (hcaller : caller.Fits P)
    (hx : x.Valid caller) :
    (splice callee caller x).Fits P ∧ caller.Retains (splice callee caller x) := by
  obtain ⟨hsize, htaken⟩ := takeLocals_spec callee hx.receiver
  have hr1 := htaken.reserves
  obtain ⟨hin, hout, hnext, hr2⟩ := takeLabels_spec callee
    (takeLocals callee x.receiver caller).2 hcallee.labels
  have hr3 := Body.Reserves.newLabel (takeLabels callee (takeLocals callee x.receiver caller).2).2
  have hr := (hr1.trans hr2).trans hr3
  have hreserved := hr.fits hcaller
  have hinsert := copy_insertable (takeLocals callee x.receiver caller).2.nextLabel hcallee hdemands
    hreserved hsize (fun l hl => (htaken.lt_of_mem hl).trans_le (hr2.trans hr3).size)
    (hx.argument.mono hr.size)
    (fun l hl => (hr1.fits hcaller).labelsBelow l ?_) hin hout hnext rfl
  · unfold splice
    dsimp only
    split
    · rename_i b' hb'
      obtain ⟨pos, hpos⟩ := Body.insertBefore?_eq hb'
      obtain rfl : b' = _ := congrArg Prod.snd hpos
      exact ⟨(hreserved.insertAt hinsert pos).remove
        ((hr.retains.trans (.insertAt _ pos _)).plain _ hx.plain),
        (hr.retains.trans (.insertAt _ pos _)).trans (.remove _ x.stmt)⟩
    · exact ⟨hreserved, hr.retains⟩
  · rwa [Body.code, (hr2.trans hr3).stmts, ← Body.code] at hl
end Notifications

lemma Specialization.Permits.everywhere (h : s.Permits settled c x)
    (hc : (s.program.classDecl c).kind ≠ .closure) (k : ClassId) : s.Permits settled k x := by
  have hmention {f : FieldId} (hf : s.Mentionable c f) : s.Mentionable k f := by
    refine ⟨hf.lt, .inr ?_⟩
    rcases hf.visible with howner | hkind
    · rw [ownerKind, howner]
      exact hc
    · exact hkind
  cases x with
  | read f | store f => exact ⟨hmention h.1, h.2⟩
  | call m | new className => exact h

namespace Notifications
lemma site?_valid {x : Site} (hs : s.Fit settled) (hb : (s.program.body m).Fits P)
    (hstmt : stmt ∈ (s.program.body m).stmts)
    (h : site? s.program m stmt = some x) :
    x.Valid (s.program.body m) ∧ x.callee < s.program.methods.size ∧
      s.program.isLiveMethod x.callee ∧
        (s.program.classDecl (s.program.methodDecl x.callee).owner).kind ≠ .closure := by
  unfold site? at h
  split at h
  · rename_i receiver method argument args haction
    split at h
    · rename_i hname
      split at h
      · rename_i callee hcallee
        split at h <;> cases h
        obtain ⟨hlive, hcalled⟩ := Program.mem_allLiveMethods_of_resolve? hcallee
        obtain ⟨hlt, hlive⟩ := hs.mem_allLiveMethods hlive
        have hlocals := hb.locals stmt.action (List.mem_map_of_mem hstmt)
        rw [haction] at hlocals
        refine ⟨⟨.of_mem hb hstmt (by rw [haction]; rfl), hlocals receiver ?_, fun l hl => hlocals l ?_⟩,
          hlt, hlive, fun hclosure => ?_⟩
        · simp [mentions, Action.uses, Invocation.locals]
        · have hl : l ∈ argument.locals := by simpa using hl
          simp [mentions, Action.uses, Invocation.locals, hl]
        · have hmethod := hs.methodNames callee hlt
          rw [isMethodName_closure hclosure, hcalled, hname.1] at hmethod
          exact absurd hmethod (by decide)
      · cases h
    · cases h
  · cases h

lemma inlineMethod_fit (hs : s.Fit settled) (hm : m < s.program.methods.size)
    (hlive : s.program.isLiveMethod m) :
    let s' := { s with program := (inlineMethod s.program m).2 }
    s'.Fit settled ∧ s.Spawns s' := by
  have hfold (sites : List Site) (b : Body)
      (hb : b.Fits (s.Permits settled (s.program.methodDecl m).owner))
      (hsites : ∀ x ∈ sites, x.Valid b ∧ x.callee < s.program.methods.size ∧
        s.program.isLiveMethod x.callee ∧
          (s.program.classDecl (s.program.methodDecl x.callee).owner).kind ≠ .closure) :
      let b' := sites.foldl (fun b site => splice (s.program.body site.callee) b site) b
      b'.Fits (s.Permits settled (s.program.methodDecl m).owner) ∧ b.Retains b' := by
    induction sites generalizing b with
    | nil => exact ⟨hb, .refl b⟩
    | cons x sites ih =>
      obtain ⟨hvalid, hlt, hlive, hkind⟩ := hsites x (.head _)
      have hcallee := hs.bodies x.callee hlt hlive
      obtain ⟨hfits, hretains⟩ := splice_fits hcallee.toWellFormed
        (fun a ha x hx => (hcallee.demands a ha x hx).everywhere hkind _) hb hvalid
      exact (ih _ hfits fun y hy => (hsites y (.tail _ hy)).imp_left
        fun h => h.retained hretains).imp_right hretains.trans
  have hb := hs.bodies m hm hlive
  obtain ⟨hfits, hretains⟩ := hfold ((s.program.body m).stmts.filterMap (site? s.program m)) _ hb
    fun x hx => by
      obtain ⟨stmt, hstmt, hx⟩ := mem_filterMap.1 hx
      exact site?_valid hs hb hstmt hx
  exact hs.changeBody (fun _ _ => hfits) hretains.nextStmt

lemma changeAll_fit {f : Program → MethodId → Nat × Program}
    (hf : ∀ {s : Specialization} {m : MethodId}, s.Fit settled → m < s.program.methods.size →
      s.program.isLiveMethod m →
        let s' := { s with program := (f s.program m).2 }
        s'.Fit settled ∧ s.Spawns s')
    (ms : List MethodId) (hs : s.Fit settled)
    (hms : ∀ m ∈ ms, m < s.program.methods.size ∧ s.program.isLiveMethod m) :
    let s' := { s with program := (changeAll f ms s.program).2 }
    s'.Fit settled ∧ s.Spawns s' := by
  induction ms generalizing s with
  | nil => exact ⟨hs, .refl s⟩
  | cons m ms ih =>
    obtain ⟨hm, hlive⟩ := hms m (.head _)
    obtain ⟨hs1, h1⟩ := hf hs hm hlive
    obtain ⟨hs2, h2⟩ := ih hs1 fun k hk => h1.program.liveMethod (hms k (.tail _ hk))
    exact ⟨hs2, h1.trans h2⟩

lemma simplify_fit (hs : s.Fit settled) (hm : m < s.program.methods.size)
    (hlive : s.program.isLiveMethod m) :
    let s' := { s with program := (Simplify.method s.program m).2 }
    s'.Fit settled ∧ s.Spawns s' := by
  have hb := body_fits (p := s.program) (hs.bodies m hm hlive)
  have hnext := body_nextStmt s.program (s.program.body m)
  rcases hbody : Simplify.body s.program (s.program.body m) with ⟨n, b⟩
  rw [hbody] at hb hnext
  have hmethod : (Simplify.method s.program m).2 = s.program.setBody m b := by
    rw [Simplify.method, hbody]
  dsimp only
  rw [hmethod]
  exact hs.changeBody (fun _ _ => hb) hnext.symm.le

lemma reduce_ensures (hs : s.Fit settled) :
    Ensures reduce s fun _ s' => s'.Fit settled ∧ s.Spawns s' := by
  have h1 := changeAll_fit inlineMethod_fit _ hs fun _ => hs.mem_allLiveMethods
  refine onProgram_ensures ?_
  rcases hinline : changeAll inlineMethod s.program.allLiveMethods s.program with ⟨n, p⟩
  rw [hinline] at h1
  obtain ⟨hs1, h1⟩ := h1
  have h2 := changeAll_fit simplify_fit _ hs1 fun _ => hs1.mem_allLiveMethods
  dsimp only at h2 ⊢
  rcases hsimplify : changeAll Simplify.method p.allLiveMethods p with ⟨k, q⟩
  rw [hsimplify] at h2
  exact ⟨h2.1, h1.trans h2.2⟩
end Notifications
end DataflowSpecializer
