import DataflowSpecializer.Proofs.Analysis.Identity
import DataflowSpecializer.Proofs.Fitness.Generation
import DataflowSpecializer.Proofs.Generate.Operators

/-! # Where paths lead

Code reaches another object by climbing from container to container and then descending by name.
Each hop is a call and a cast into locals of their own (`Trail`).
-/
namespace DataflowSpecializer
open Platform List Option SortedMap Generation

namespace Model
inductive Climbs (m : Model) : ObjectId → List ObjectId → ObjectId → Prop
  | nil {o : ObjectId} : Climbs m o [] o
  | cons {o c t : ObjectId} {os : List ObjectId} : m.container o = some c → Climbs m c os t →
      Climbs m o (c :: os) t

inductive Descends (m : Model) : ObjectId → List ObjectId → ObjectId → Prop
  | nil {o : ObjectId} : Descends m o [] o
  | cons {o d t : ObjectId} {os : List ObjectId} : m.container d = some o → Descends m d os t →
      Descends m o (d :: os) t

variable {m : Model} {o c t : ObjectId}

lemma Descends.snoc (h : m.Descends t os c) (ho : m.container o = some c) :
    m.Descends t (os ++ [o]) o := by
  induction h with
  | nil => exact .cons ho .nil
  | cons hd _ ih => exact .cons hd (ih ho)

lemma climbs_descends (hm : m.Shape) {below : List ObjectId}
    (h : o :: m.ancestors o = below ++ t :: above) :
    m.Climbs o ((below ++ [t]).drop 1) t ∧ m.Descends t below.reverse o := by
  induction below generalizing o with
  | nil =>
    cases h
    exact ⟨.nil, .nil⟩
  | cons x below ih =>
    obtain ⟨rfl, hrest⟩ := List.cons.inj h
    cases hc : m.container o with
    | none =>
      rw [ancestors_of_none hc] at hrest
      exact absurd hrest (by simp)
    | some c =>
      rw [ancestors_of_container hm hc] at hrest
      obtain ⟨hclimbs, hdescends⟩ := ih hrest
      refine ⟨?_, ?_⟩
      · have hhead : below ++ [t] = c :: (below ++ [t]).drop 1 := by
          cases below with
          | nil | cons y below => rw [(List.cons.inj hrest).1]; rfl
        show m.Climbs o (below ++ [t]) t
        rw [hhead]
        exact .cons hc hclimbs
      · rw [reverse_cons]
        exact hdescends.snoc hc
end Model

lemma takeWhile_append_of_find? {α : Type} {p : α → Bool} {l : List α} {x : α}
    (h : l.find? p = some x) : ∃ rest, l = l.takeWhile (!p ·) ++ x :: rest := by
  induction l with
  | nil => cases h
  | cons y l ih =>
    rw [find?_cons] at h
    rw [takeWhile_cons]
    by_cases hy : p y
    · rw [hy] at h ⊢
      cases h
      exact ⟨l, rfl⟩
    · rw [eq_false_of_ne_true hy] at h ⊢
      obtain ⟨rest, hrest⟩ := ih h
      exact ⟨rest, congrArg (y :: ·) hrest⟩

variable {source target : ObjectId}

lemma path_climbs_descends {m : Model} (hm : m.Shape)
    {up down : List ObjectId} (h : Specialization.path m source target = .ok (up, down)) :
    ∃ turn, m.Climbs source up turn ∧ m.Descends turn down target := by
  unfold Specialization.path at h
  dsimp only at h
  split at h
  · cases h
  rename_i turn hturn
  obtain ⟨rfl, rfl⟩ := Prod.mk.inj (Except.ok.inj h)
  refine ⟨turn, ?_, ?_⟩
  · obtain ⟨rest, hrest⟩ := takeWhile_append_of_find? hturn
    exact (Model.climbs_descends hm hrest).1
  · have hmem : turn ∈ target :: m.ancestors target := by
      have hway := find?_some hturn
      rw [Bool.or_eq_true, decide_eq_true_eq, Model.isAncestor, contains_iff_mem,
        ← mem_cons] at hway
      exact hway
    have hfound : (target :: m.ancestors target).find? (fun x => decide (x = turn)) = some turn := by
      obtain ⟨x, hx⟩ := isSome_iff_exists.1
        (find?_isSome (p := fun x => decide (x = turn)).2 ⟨turn, hmem, decide_eq_true rfl⟩)
      have hturn := find?_some (p := fun x => decide (x = turn)) hx
      rw [hx, of_decide_eq_true hturn]
    obtain ⟨rest, hrest⟩ := takeWhile_append_of_find? hfound
    simp only [← decide_not] at hrest
    exact (Model.climbs_descends hm hrest).2

/-! ## Trails -/
namespace ObjectMap
open Identity (Below)

def put (m : ObjectMap) (l : LocalId) (i : Identity) : ObjectMap :=
  { m with locals := m.locals.insert l i }

lemma identity?_put_self (m : ObjectMap) (l : LocalId) (i : Identity) :
    (m.put l i).identity? l = some i := get?_insert_self ..

variable {l : LocalId}

lemma holder?_put_of_ne (m : ObjectMap) (h : p ≠ .loc l)
    (i : Identity) : (m.put l i).holder? p = m.holder? p := by
  cases p with
  | loc k => exact get?_insert_of_ne _ (fun e => h (congrArg Holder.loc e)) i
  | field f => rfl

lemma identity?_put_of_ne (m : ObjectMap) (h : k ≠ l) (i : Identity) :
    (m.put l i).identity? k = m.identity? k :=
  holder?_put_of_ne m (p := .loc k) (fun e => h (Holder.loc.inj e)) i

lemma callIdentity?_congr {call : Invocation} {m m' : ObjectMap}
    (hbase : call.base = some l) (h : m'.identity? l = m.identity? l) :
    callIdentity? model m' call = callIdentity? model m call := by
  unfold callIdentity?
  rw [hbase, bind_some, bind_some, h]

lemma callIdentity?_navigates {call : Invocation} {m : ObjectMap} (hbase : call.base = some l)
    (hname : isNavigation call.method.name) (hnavigate : navigate? model o call = some o')
    (hl : Below (some (.object o)) (m.identity? l)) :
    ∃ x, callIdentity? model m call = some x ∧ Below (some (.object o')) (some x) ∧
      (m.identity? l = some (.object o) → x = .object o') := by
  unfold callIdentity?
  rw [if_pos hname, hbase, bind_some]
  rcases hl with h | h | h
  · cases h
  · rw [← h]
    exact ⟨.object o', congrArg (Option.map Identity.object) hnavigate, .refl _, fun _ => rfl⟩
  · rw [h]
    exact ⟨.ambiguous, rfl, .inr (.inr rfl), fun h => by cases h⟩

def SameOff (n n' : Nat) (m m' : ObjectMap) : Prop :=
  ∀ p, (∀ k, p = .loc k → k < n ∨ n' ≤ k) → m'.holder? p = m.holder? p

inductive Trail (model : Model) :
    LocalId → ObjectId → Nat → List Action → LocalId → ObjectId → Nat → Prop
  | done {l n : Nat} {o : ObjectId} : Trail model l o n [] l o n
  | hop {l n r n' : Nat} {o o' t : ObjectId} {call : Invocation} {type : CodeType}
      {rest : List Action} : l < n → call.base = some l →
      isNavigation call.method.name → navigate? model o call = some o' →
      Trail model (n + 1) o' (n + 2) rest r t n' →
      Trail model l o n (.set n (.invoke call) :: .set (n + 1) (.cast type (.loc n)) :: rest) r t n'

namespace Trail
variable {model : Model} {l n r n' : Nat} {o t : ObjectId} {actions : List Action} {m : ObjectMap}

section
variable (h : Trail model l o n actions r t n')

include h

lemma append {actions' : List Action} (h' : Trail model r t n' actions' r' t' n'') :
    Trail model l o n (actions ++ actions') r' t' n'' := by
  induction h with
  | done => exact h'
  | hop hl hbase hname hnavigate _ ih => exact .hop hl hbase hname hnavigate (ih h')

lemma le : n ≤ n' := by
  induction h with
  | done => exact le_refl _
  | hop _ _ _ _ _ ih => omega

lemma end_lt (hl : l < n) : r < n' := by
  induction h with
  | done => exact hl
  | hop _ _ _ _ _ ih => exact ih (by omega)
end

lemma complete (facts : FieldFacts) (h : Trail model l o n actions r t n')
    (hl : Below (some (.object o)) (m.identity? l)) :
    ∃ m' : ObjectMap, SameOff n n' m m' ∧ (∀ a ∈ actions, m'.step model facts a = m') ∧
      Below (some (.object t)) (m'.identity? r) ∧
      (m.identity? l = some (.object o) → m'.identity? r = some (.object t)) := by
  induction h generalizing m with
  | done => exact ⟨m, fun _ _ => rfl, fun a ha => (by cases ha), hl, fun h => h⟩
  | @hop l n r n' o o' t call type rest hlt hbase hname hnavigate hrest ih =>
    obtain ⟨x, hcall, hbelow, hexact⟩ := callIdentity?_navigates hbase hname hnavigate hl
    let m1 := (m.put n x).put (n + 1) x
    have hlast : m1.identity? (n + 1) = some x := identity?_put_self _ _ _
    obtain ⟨m', hsame, hdone, hend, hendExact⟩ := ih (m := m1) (hlast ▸ hbelow)
    -- The statements of the hop concern locals before the rest of the trail.
    have hbefore {k : Nat} (hk : k < n + 2) : m'.identity? k = m1.identity? k :=
      hsame (.loc k) fun k' hk' => .inl (Holder.loc.inj hk' ▸ hk)
    have hstart : m'.identity? l = m.identity? l := by
      rw [hbefore (by omega)]
      exact (identity?_put_of_ne _ (Nat.ne_of_lt (by omega)) x).trans (identity?_put_of_ne _ hlt.ne x)
    have hfirst : m'.identity? n = some x := by
      rw [hbefore (by omega)]
      exact (identity?_put_of_ne _ (Nat.lt_succ_self n).ne x).trans (identity?_put_self _ _ _)
    have hsecond : m'.identity? (n + 1) = some x := (hbefore (by omega)).trans hlast
    refine ⟨m', fun p hp => ?_, ?_, hend, fun h => ?_⟩
    · have hle := hrest.le
      rw [hsame p fun k hk => (hp k hk).imp (fun h => by omega) fun h => h]
      exact (holder?_put_of_ne _ (fun h => by have := hp (n + 1) h; omega) x).trans
        (holder?_put_of_ne _ (fun h => by have := hp n h; omega) x)
    · intro a ha
      rcases mem_cons.1 ha with rfl | ha
      · refine (step_eq_follow model facts m' _).trans (follow_eq_iff.2 fun φ hφ => ?_)
        cases mem_singleton.1 hφ
        show Below (callIdentity? model m' call) (m'.identity? n)
        rw [callIdentity?_congr hbase hstart, hcall, hfirst]
        exact .refl _
      rcases mem_cons.1 ha with rfl | ha
      · refine (step_eq_follow model facts m' _).trans (follow_eq_iff.2 fun φ hφ => ?_)
        rcases mem_pair.1 hφ with rfl | rfl
        · show Below (m'.identity? n) (m'.identity? (n + 1))
          rw [hfirst, hsecond]
          exact .refl _
        · show Below (m'.identity? (n + 1)) (m'.identity? n)
          rw [hfirst, hsecond]
          exact .refl _
      · exact hdone a ha
    · exact hendExact (hlast.trans (congrArg some (hexact h)))

lemma reaches (h : Trail model l o n actions r t n') (hl : Below (some (.object o)) (m.identity? l))
    (hdone : ∀ a ∈ actions, m.step model facts a = m) :
    Below (some (.object t)) (m.identity? r) := by
  induction h with
  | done => exact hl
  | @hop l n r n' o o' t call type rest hlt hbase hname hnavigate hrest ih =>
    obtain ⟨x, hcall, hbelow, -⟩ := callIdentity?_navigates hbase hname hnavigate hl
    have hflows (a : Action) (ha : m.step model facts a = m) :
        ∀ φ ∈ flows model facts a, φ.Done m :=
      follow_eq_iff.1 ((step_eq_follow model facts m a).symm.trans ha)
    have hfirst : Below (callIdentity? model m call) (m.identity? n) :=
      hflows _ (hdone _ (.head _)) _ (mem_singleton_self _)
    have hsecond : Below (m.identity? n) (m.identity? (n + 1)) :=
      hflows _ (hdone _ (.tail _ (.head _))) _ (.head _)
    refine ih ?_ fun a ha => hdone a (.tail _ (.tail _ ha))
    exact hbelow.trans ((hcall ▸ hfirst).trans hsecond)
end Trail
end ObjectMap

namespace Draft
open ObjectMap (Trail)

def hop (l : LocalId) (method : MethodRef) (args : List Operand) (name : String) (type : CodeType) :
    Drafting LocalId := do
  let found ← callValue l method args
  cast name type found

variable {s : Specialization} {d : Draft} {method : MethodRef} {type : CodeType}

lemma hop_run (hresult : method.result ≠ .void) : (hop l method args name type d).1 = d.size + 1 ∧
      (hop l method args name type d).2.size = d.size + 2 ∧
      (hop l method args name type d).2.actions = d.actions ++
        [.set d.size (.invoke ⟨.virtual, some l, method, args⟩),
          .set (d.size + 1) (.cast type (.loc d.size))] := by
  let call : Rvalue := .invoke ⟨.virtual, some l, method, args⟩
  let d1 := (value method.name method.result call d).2
  have hhop : hop l method args name type d = value name type (.cast type (.loc d.size)) d1 := by
    unfold hop
    rw [callValue, invokeValue_eq hresult]
    rfl
  have hsize : d1.size = d.size + 1 := value_size d method.name method.result call
  have hactions : d1.actions = d.actions ++ [.set d.size call] :=
    (value_writes d method.name method.result call).actions
  have hlast := (value_writes d1 name type (.cast type (.loc d.size))).actions
  rw [hhop]
  refine ⟨hsize, ?_, ?_⟩
  · rw [value_size, hsize]
  · rw [hlast, hactions, hsize, append_assoc]
    rfl

lemma hop_trail (hresult : method.result ≠ .void)
    (hname : ObjectMap.isNavigation method.name)
    (hnavigate : ObjectMap.navigate? s.model o ⟨.virtual, some l, method, args⟩ = some o')
    (hl : (l : Nat) < d.size)
    (hrest : ∀ {l : LocalId} {d : Draft}, (l : Nat) < d.size → ∃ actions,
      (k l d).2.actions = d.actions ++ actions ∧
        Trail s.model l o' d.size actions (k l d).1 t (k l d).2.size) :
    ∃ actions, ((hop l method args name type >>= k) d).2.actions = d.actions ++ actions ∧
      Trail s.model l o d.size actions ((hop l method args name type >>= k) d).1 t
        ((hop l method args name type >>= k) d).2.size := by
  obtain ⟨hend, hsize, hactions⟩ := hop_run (l := l) (d := d) hresult
  rw [bind_run, hend]
  obtain ⟨actions, hrestActions, htrail⟩ := hrest (l := d.size + 1)
    (d := (hop l method args name type d).2) (by rw [hsize]; exact Nat.lt_succ_self _)
  rw [hactions, append_assoc] at hrestActions
  rw [hsize] at htrail
  exact ⟨_, hrestActions, .hop hl rfl hname hnavigate htrail⟩

lemma climb_trail (h : s.model.Climbs o os t) (hl : (l : Nat) < d.size) :
    ∃ actions, (climb s l os d).2.actions = d.actions ++ actions ∧
      Trail s.model l o d.size actions (climb s l os d).1 t (climb s l os d).2.size := by
  induction h generalizing l d with
  | nil => exact ⟨[], (append_nil _).symm, .done⟩
  | @cons o c t os hc _ ih =>
    have hnavigate : ObjectMap.navigate? s.model o ⟨.virtual, some l, getContainer, []⟩ = some c :=
      hc
    exact hop_trail (by decide) (by decide) hnavigate hl (k := fun l => climb s l os) ih

lemma descend_trail (hm : s.model.Shape) (h : s.model.Descends o os t) (hl : (l : Nat) < d.size) :
    ∃ actions, (descend s l os d).2.actions = d.actions ++ actions ∧
      Trail s.model l o d.size actions (descend s l os d).1 t (descend s l os d).2.size := by
  have hmethod (f : Model.Family) : (lookupMethod f).result ≠ .void ∧
      ObjectMap.isNavigation (lookupMethod f).name := by
    cases f <;> decide
  have hnavigate (o : ObjectId) (l : LocalId) (f : Model.Family) (name : String) :
      ObjectMap.navigate? s.model o ⟨.virtual, some l, lookupMethod f, [.string name]⟩ =
        s.model.lookup? o f name := by
    cases f <;> rfl
  induction h generalizing l d with
  | nil => exact ⟨[], (append_nil _).symm, .done⟩
  | @cons o x t os hx _ ih =>
    have hfound : s.model.lookup? o (s.model.family x) (s.model.name x) = some x :=
      hm.lookup?_eq_some.2 ⟨hx, rfl, rfl⟩
    exact hop_trail (hmethod _).1 (hmethod _).2
      ((hnavigate o l _ _).trans hfound) hl (k := fun l => descend s l os) ih
end Draft

lemma Generation.reference_trail {s : Specialization} (hm : s.model.Shape)
    (hsource : source < s.model.objects.size)
    (htarget : target < s.model.objects.size) {d : Draft} (hl : (l : Nat) < d.size) :
    ∃ r d' actions, reference l source target ⟨s, d⟩ = .ok r ⟨s, d'⟩ ∧
      d'.actions = d.actions ++ actions ∧
      ObjectMap.Trail s.model l source d.size actions r target d'.size := by
  obtain ⟨⟨up, down⟩, hpath⟩ := path_eq_ok hm hsource htarget
  obtain ⟨turn, hclimbs, hdescends⟩ := path_climbs_descends hm hpath
  obtain ⟨ups, hups, hclimb⟩ := Draft.climb_trail hclimbs hl
  have hturn : (Draft.climb s l up d).1 < (Draft.climb s l up d).2.size := hclimb.end_lt hl
  obtain ⟨downs, hdowns, hdescend⟩ := Draft.descend_trail hm hdescends hturn
  refine ⟨_, _, ups ++ downs, ?_, ?_, hclimb.append hdescend⟩
  · rw [reference, spec_bind, hpath]
    rfl
  · rw [hdowns, hups, append_assoc]

namespace ObjectMap
open Identity (Below)

lemma Trail.identity?_analyze {b : Body} (h : Trail model l o n b.code r t n') (hl : l < n) :
    (analyze b model facts none [(l, o)]).identity? r = some (.object t) := by
  obtain ⟨⟨hseeds, hdone⟩, hleast⟩ := analyze_isLeast b model facts none [(l, o)]
  have hstart := hseeds.2 l o (mem_singleton_self _)
  have hreaches := h.reaches hstart (List.forall_mem_map.2 hdone)
  -- Nothing but the objects on the trail is known, so that nothing else can reach its end.
  let m := empty.put l (.object o)
  have hm : m.identity? l = some (.object o) := identity?_put_self _ _ _
  obtain ⟨m', hsame, hdone', -, hexact⟩ := h.complete facts (m := m) (hm ▸ .refl _)
  have hseeds' : HasSeeds b none [(l, o)] m' := by
    refine ⟨fun _ _ _ h => (by cases h), fun k o' hk => ?_⟩
    cases mem_singleton.1 hk
    have hl' : m'.identity? l = some (.object o) :=
      (hsame (.loc l) fun k hk => .inl (Holder.loc.inj hk ▸ hl)).trans hm
    rw [hl']
    exact .refl _
  have hle := hleast ⟨hseeds', fun s hs => hdone' s.action (List.mem_map_of_mem hs)⟩
  have hr : Below ((analyze b model facts none [(l, o)]).identity? r) (m'.identity? r) := hle (.loc r)
  rw [hexact hm] at hr
  exact hr.antisymm hreaches
end ObjectMap

/-- The body that a draft comes to. -/
def Draft.written (d : Draft) : Body := { d.body with stmts := d.body.number d.actions }

/-- **Paths lead to the object that they aim at.**  Between any two objects of a loaded model there
is a path, and code is written for it. The analysis of that code alone, from a local that refers to
one of the objects, finds that the result refers to the other one and to nothing else. -/
theorem reference_denotes_target (description : Description.Entity) (m : Model)
    (hm : Model.ofDescription description = .ok m) (s : Specialization) (hs : s.model = m)
    (source target : ObjectId) (hsource : source < m.objects.size)
    (htarget : target < m.objects.size)
    (b : Body) (l : LocalId) (hl : l < b.locals.size) (facts : FieldFacts) :
    ∃ r d, reference l source target ⟨s, .ofBody b⟩ = .ok r ⟨s, d⟩ ∧
      (ObjectMap.analyze d.written m facts none [(l, source)]).identity? r =
        some (.object target) := by
  subst hs
  have hshape := (Model.wellBuilt_of_ofDescription hm).1.shape
  obtain ⟨r, d, actions, hrun, hactions, htrail⟩ :=
    reference_trail hshape hsource htarget (d := .ofBody b) hl
  have hcode : d.written.code = actions := (d.body.number_action d.actions).trans hactions
  exact ⟨r, d, hrun, ObjectMap.Trail.identity?_analyze (hcode ▸ htrail) hl⟩

/-- From the input of an actor two containers deep to the port `gain` of its composite, which has a
parameter of that name as well. -/
theorem reference_denotes_target_of_nestedComposite :
    ∃ m, Model.ofDescription Model.nestedComposite = .ok m ∧ m.family 5 = .attribute ∧
      m.family 6 = .port ∧ m.fullName 5 = m.fullName 6 ∧
      ∃ r d, reference 0 9 6 ⟨.start m {}, .ofBody { Body.empty with
          locals := #[⟨"this", tokenType⟩] }⟩ = .ok r ⟨.start m {}, d⟩ ∧
        (ObjectMap.analyze d.written m .empty none [(0, 9)]).identity? r = some (.object 6) := by
  have h : ((Model.ofDescription Model.nestedComposite).toOption.any fun m =>
      9 < m.objects.size ∧ m.family 5 = .attribute ∧ m.family 6 = .port ∧
        m.fullName 5 = m.fullName 6) := by decide +kernel
  obtain ⟨m, hm, hsize⟩ := exists_ok_of_any h
  obtain ⟨hsize, hattribute, hport, hname⟩ := of_decide_eq_true hsize
  have htarget : 6 < m.objects.size := Nat.lt_trans (by decide) hsize
  exact ⟨m, hm, hattribute, hport, hname, reference_denotes_target _ m hm (.start m {}) rfl 9 6 hsize
    htarget { Body.empty with locals := #[⟨"this", tokenType⟩] } 0 Nat.zero_lt_one .empty⟩
end DataflowSpecializer
