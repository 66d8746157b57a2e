import Tesbo.Requests

/-!
# The suite tree

A suite is shown below its parent, so one whose parent chain does not end in a root is not shown at
all.  Creating, deleting and importing suites keeps the live suites of a project a forest; moving
one keeps it as long as the suite is not moved below itself.
-/

namespace Tesbo.SuiteTree

open Reasoning Service

/-- The parent pointers of the live suites of a project. -/
def LiveParent (projectId : Uuid) (db : Db) (x : Uuid) (p : Option Uuid) : Prop :=
  ∃ s ∈ db.suites, s.id = x ∧ s.parentId = p ∧ s.liveIn projectId = true

/-- Every live suite's parent chain is finite, stays among the live suites of the project and ends
in a root. -/
def IsForest (projectId : Uuid) (db : Db) : Prop := Forest (LiveParent projectId db)

/-- The parent of each suite of the project is as it was, when the request updates a suite with a
body that does not mention `parentId`. -/
def KeepsParent [Unicode] (projectId : Uuid) (db : Db) (r : Request) : Prop :=
  ∀ suiteId body, r.call = .updateSuite suiteId body → body.parentId = .undefined →
    ∀ s ∈ db.suites, s.projectId = projectId → suiteId.uuid = some s.id →
      ∀ s' ∈ (step db r).suites, s'.id = s.id → s'.parentId = s.parentId

/-- What an update of a suite of the project must meet, where the caller may make it: a body
without `parentId` is of a root, and a body with one does not move the suite below itself. -/
def Sound (projectId : Uuid) (db : Db) (r : Request) : Prop :=
  match r.call with
  | .updateSuite suiteId body =>
      CallerIn db r.userId projectId →
        ∀ s ∈ db.suites, s.liveIn projectId = true → suiteId.uuid = some s.id →
          (body.parentId = .undefined → s.parentId = none) ∧
          ∀ t ∈ body.parentId.nullish, ∀ p ∈ t.uuid, p ∉ suiteSubtree projectId s.id db
  | _ => True

instance (projectId : Uuid) (db : Db) : ∀ r, Decidable (Sound projectId db r)
  | ⟨userId, _, .updateSuite _ body⟩ =>
      inferInstanceAs (Decidable (CallerIn db userId projectId → ∀ s ∈ db.suites, _ → _ →
        (body.parentId = .undefined → _) ∧ ∀ t ∈ body.parentId.nullish, ∀ p ∈ t.uuid, _))
  | ⟨_, _, .createTestCaseForUser ..⟩ | ⟨_, _, .updateTestCaseForUser ..⟩
  | ⟨_, _, .bulkUpdateTestCases ..⟩ | ⟨_, _, .bulkDeleteTestCases ..⟩
  | ⟨_, _, .importTestCases ..⟩ | ⟨_, _, .createSuiteForUser ..⟩ | ⟨_, _, .deleteSuite ..⟩ =>
      instDecidableTrue

/-! ## The statements on suites -/

section Statements

variable {P : Uuid} {db : Db}

theorem liveParent_unique {x : Uuid} {p q : Option Uuid} (hp : LiveParent P db x p)
    (hq : LiveParent P db x q) : p = q := by
  obtain ⟨s, hs, hid, rfl, -⟩ := hp
  obtain ⟨s', hs', hid', rfl, -⟩ := hq
  rw [Table.eq_of_key hs hs' (hid.trans hid'.symm)]

theorem liveParent_of_liveSuite {x : Uuid} (h : LiveSuite db P x) : ∃ p, LiveParent P db x p := by
  obtain ⟨s, hs, hid, hlive⟩ := h
  exact ⟨s.parentId, s, hs, hid, rfl, hlive⟩

theorem mem_suiteSubtree_iff_below {x y : Uuid} (hx : LiveSuite db P x) :
    y ∈ suiteSubtree P x db ↔ Below (LiveParent P db) x y := by
  rw [mem_suiteSubtree]
  exact ⟨fun h ↦ h.2, fun h ↦ ⟨hx, h⟩⟩

/-- Only the parent pointers count. -/
theorem IsForest.of_liveParent {db' : Db} (h : IsForest P db)
    (hsame : ∀ y q, LiveParent P db' y q ↔ LiveParent P db y q) : IsForest P db' := by
  have heq : LiveParent P db' = LiveParent P db :=
    funext fun y ↦ funext fun q ↦ propext (hsame y q)
  unfold IsForest
  rw [heq]
  exact h

theorem IsForest.of_suites {db' : Db} (h : IsForest P db) (hsuites : db'.suites = db.suites) :
    IsForest P db' := by
  refine h.of_liveParent fun y q ↦ ?_
  unfold LiveParent
  rw [hsuites]

/-- In a forest the parent of a node is a node. -/
theorem IsForest.parent_node {x y : Uuid} (h : IsForest P db)
    (hx : LiveParent P db x (some y)) : ∃ p, LiveParent P db y p := by
  cases h x _ hx with
  | root hr => cases liveParent_unique hx hr
  | child hc hy =>
      obtain rfl := Option.some.inj (liveParent_unique hx hc)
      exact hy.node

/-- A new suite of any project, at its root or below one of its live suites. -/
theorem IsForest.insert {P' : Uuid} {s : Suite} {suites : Table Suite.id} (h : IsForest P db)
    (hlive : s.liveIn P' = true) (hparent : ∀ p, s.parentId = some p → LiveSuite db P' p)
    (hinsert : db.suites.insert s = some suites) : IsForest P { db with suites := suites } := by
  by_cases hP : P' = P
  · subst hP
    have hnodes : ∀ y q, LiveParent P' { db with suites := suites } y q ↔
        LiveParent P' db y q ∨ (y = s.id ∧ q = s.parentId) := by
      intro y q
      unfold LiveParent
      constructor
      · rintro ⟨r, hr, rfl, rfl, hrlive⟩
        rcases (Table.mem_insert hinsert).mp hr with hr | rfl
        · exact .inl ⟨r, hr, rfl, rfl, hrlive⟩
        · exact .inr ⟨rfl, rfl⟩
      · rintro (⟨r, hr, hid, hq, hrlive⟩ | ⟨rfl, rfl⟩)
        · exact ⟨r, (Table.mem_insert hinsert).mpr (.inl hr), hid, hq, hrlive⟩
        · exact ⟨s, (Table.mem_insert hinsert).mpr (.inr rfl), rfl, rfl, hlive⟩
    exact Forest.insert h hnodes fun y hy ↦ liveParent_of_liveSuite (hparent y hy)
  · -- a suite of another project is none of this one's nodes
    refine h.of_liveParent fun y q ↦ ?_
    unfold LiveParent
    constructor
    · rintro ⟨r, hr, hid, hq, hrlive⟩
      rcases (Table.mem_insert hinsert).mp hr with hr | rfl
      · exact ⟨r, hr, hid, hq, hrlive⟩
      · exact absurd ((Suite.liveIn_iff.mp hlive).1.symm.trans (Suite.liveIn_iff.mp hrlive).1) hP
    · rintro ⟨r, hr, hid, hq, hrlive⟩
      exact ⟨r, (Table.mem_insert hinsert).mpr (.inl hr), hid, hq, hrlive⟩

section Update

variable {db' : Db} {s : Suite} {f : Suite → Suite}

/-- An update of one suite leaves the other nodes alone. -/
theorem liveParent_updated_of_ne (hsuites : db.suites.UpdatedRows db'.suites (fun r ↦ r.id = s.id) f)
    (hf : ∀ r, (f r).id = r.id) {y : Uuid} {q : Option Uuid} (hy : y ≠ s.id) :
    LiveParent P db' y q ↔ LiveParent P db y q := by
  unfold LiveParent
  constructor
  · rintro ⟨r, hr, rfl, hq, hlive⟩
    rcases hsuites.mem_iff.mp hr with ⟨hr, -⟩ | ⟨r₀, -, hr₀, rfl⟩
    · exact ⟨r, hr, rfl, hq, hlive⟩
    · exact absurd ((hf r₀).trans (decide_eq_true_eq.mp hr₀)) hy
  · rintro ⟨r, hr, rfl, hq, hlive⟩
    exact ⟨r, hsuites.mem_iff.mpr (.inl ⟨hr, decide_eq_false hy⟩), rfl, hq, hlive⟩

/-- The row of the updated suite itself. -/
theorem mem_updated_self (hsuites : db.suites.UpdatedRows db'.suites (fun r ↦ r.id = s.id) f)
    (hs : s ∈ db.suites) {r : Suite} (hid : r.id = s.id) : r ∈ db'.suites ↔ r = f s := by
  rw [hsuites.mem_iff]
  constructor
  · rintro (⟨-, hr⟩ | ⟨r₀, hr₀, hr₀id, rfl⟩)
    · exact absurd hid (decide_eq_false_iff_not.mp hr)
    · rw [Table.eq_of_key hr₀ hs (decide_eq_true_eq.mp hr₀id)]
  · rintro rfl
    exact .inr ⟨s, hs, decide_eq_true rfl, rfl⟩

/-- A suite moved to the root, or below a live suite that is not below it. -/
theorem IsForest.move (h : IsForest P db)
    (hsuites : db.suites.UpdatedRows db'.suites (fun r ↦ r.id = s.id) f)
    (hf : ∀ r, (f r).id = r.id) (hs : s ∈ db.suites) (hlive : s.live = true)
    (hflive : (f s).live = true) (hfproject : (f s).projectId = s.projectId)
    (hparent : ∀ p, (f s).parentId = some p → LiveSuite db s.projectId p)
    (hbelow : s.projectId = P → ∀ p, (f s).parentId = some p → p ∉ suiteSubtree P s.id db) :
    IsForest P db' := by
  have hself : ∀ q, LiveParent P db' s.id q ↔ s.projectId = P ∧ q = (f s).parentId := by
    intro q
    unfold LiveParent
    constructor
    · rintro ⟨r, hr, hid, rfl, hrlive⟩
      obtain rfl := (mem_updated_self hsuites hs hid).mp hr
      exact ⟨hfproject.symm.trans (Suite.liveIn_iff.mp hrlive).1, rfl⟩
    · rintro ⟨hP, rfl⟩
      exact ⟨f s, (mem_updated_self hsuites hs (hf s)).mpr rfl, hf s, rfl,
        Suite.liveIn_iff.mpr ⟨hfproject.trans hP, hflive⟩⟩
  by_cases hP : s.projectId = P
  · have hnode : LiveSuite db P s.id := ⟨s, hs, rfl, Suite.liveIn_iff.mpr ⟨hP, hlive⟩⟩
    refine Forest.reparent h (fun y q hy ↦ liveParent_updated_of_ne hsuites hf hy)
      (fun q ↦ (hself q).trans (and_iff_right hP)) fun y hy ↦ ⟨?_, ?_⟩
    · exact liveParent_of_liveSuite (hP ▸ hparent y hy)
    · rw [← mem_suiteSubtree_iff_below hnode]
      exact hbelow hP y hy
  · -- the moved suite is of another project, before and after
    refine h.of_liveParent fun y q ↦ ?_
    by_cases hy : y = s.id
    · subst hy
      rw [hself q]
      refine ⟨fun h ↦ absurd h.1 hP, ?_⟩
      rintro ⟨r, hr, hid, -, hrlive⟩
      obtain rfl := Table.eq_of_key hr hs hid
      exact absurd (Suite.liveIn_iff.mp hrlive).1 hP
    · exact liveParent_updated_of_ne hsuites hf hy

end Update

/-- The deletion of a whole subtree of any project. -/
theorem IsForest.delete {db' : Db} {P' id uid : Uuid} {now : Time} (h : IsForest P db)
    (hsuites : db.suites.UpdatedRows db'.suites (fun r ↦ r.id ∈ suiteSubtree P' id db && r.live)
      (Suite.deleted uid now)) : IsForest P db' := by
  have hnodes : ∀ y q, LiveParent P db' y q ↔
      LiveParent P db y q ∧ ¬ y ∈ suiteSubtree P' id db := by
    intro y q
    unfold LiveParent
    constructor
    · rintro ⟨r, hr, rfl, rfl, hlive⟩
      rcases hsuites.mem_iff.mp hr with ⟨hr, hp⟩ | ⟨r₀, -, -, rfl⟩
      · refine ⟨⟨r, hr, rfl, rfl, hlive⟩, fun hmem ↦ ?_⟩
        rw [decide_eq_true hmem, Bool.true_and, (Suite.liveIn_iff.mp hlive).2] at hp
        cases hp
      · cases (Suite.liveIn_iff.mp hlive).2
    · rintro ⟨⟨r, hr, rfl, rfl, hlive⟩, hmem⟩
      refine ⟨r, hsuites.mem_iff.mpr (.inl ⟨hr, ?_⟩), rfl, rfl, hlive⟩
      rw [decide_eq_false hmem, Bool.false_and]
  refine Forest.remove (D := fun y ↦ y ∈ suiteSubtree P' id db) h hnodes fun y z hz hy ↦ ?_
  -- in a forest the parent of a node is a node, so the subtree is one of this project
  obtain ⟨s, hs, hid, hlive⟩ := liveSuite_of_mem_suiteSubtree hy
  obtain ⟨_, r, hr, hrid, -, hrlive⟩ := h.parent_node hz
  obtain rfl := Table.eq_of_key hs hr (hid.trans hrid.symm)
  obtain rfl : P' = P := (Suite.liveIn_iff.mp hlive).1.symm.trans (Suite.liveIn_iff.mp hrlive).1
  obtain ⟨hroot, hreach⟩ := mem_suiteSubtree.mp hy
  exact mem_suiteSubtree.mpr ⟨hroot, hreach.tail hz⟩

end Statements

/-! ## One request -/

section Step

variable {P : Uuid} {db : Db}

theorem isForest_importRules (P P' : Uuid) :
    ImportRules P' (fun db id ↦ LiveSuite db P' id) (fun _ ↦ True) (IsForest P) where
  uuids _ _ h := h
  suites _ _ _ h hlive hparent hinsert := h.insert hlive hparent hinsert
  testcases _ _ _ h _ _ := h

variable [Unicode]

/-- A request that meets its condition keeps the live suites of the project a forest. -/
theorem isForest_run {userId : Option Uuid} {now : Time} {call : Call} (h : IsForest P db)
    (hsound : Sound P db ⟨userId, now, call⟩) :
    wp (call.run userId) (fun _ db' ↦ IsForest P db') (fun _ db' ↦ IsForest P db') db := by
  have hneutral : ∀ db', Neutral db db' → IsForest P db' := by
    rintro _ ⟨users, uuids, rfl⟩
    exact h
  cases call with
  | createTestCaseForUser projectId body =>
      refine wp_effect.mpr (wp_mono createTestCaseForUser_spec ?_ fun _ _ h ↦ hneutral _ h)
      rintro t _ ⟨-, -, -, hins⟩
      obtain ⟨_, _, _, -, rfl⟩ := hins.state
      exact h
  | updateTestCaseForUser projectId testcaseId body =>
      refine wp_mono updateTestCaseForUser_spec ?_ fun _ _ h ↦ hneutral _ h.neutral
      rintro _ _ ⟨t, -, -, -, hupdated⟩
      obtain ⟨_, _, _, _, _, _, _, -, -, -, rfl⟩ := hupdated.state
      exact h
  | bulkUpdateTestCases projectId ids body =>
      refine wp_mono bulkUpdateTestCases_spec ?_ fun _ _ h ↦ hneutral _ h
      rintro _ _ (hsame | ⟨_, _, _, -, -, -, -, _, _, _, _, -, -, rfl⟩)
      · exact hneutral _ hsame
      · exact h
  | bulkDeleteTestCases projectId ids =>
      refine wp_mono bulkDeleteTestCases_spec ?_ fun _ _ h ↦ hneutral _ h
      rintro _ _ (hsame | ⟨_, _, _, -, -, -, -, _, rfl⟩)
      · exact hneutral _ hsame
      · exact h
  | importTestCases projectId body =>
      exact wp_effect.mpr (importTestCases_spec (fun _ ↦ h) fun P' _ _ _ _ ↦
        isForest_importRules P P')
  | createSuiteForUser projectId body =>
      refine wp_effect.mpr (wp_mono createSuiteForUser_spec ?_ fun _ _ h ↦ hneutral _ h)
      rintro _ _ ⟨P', _, -, -, -, s, suites, _, _, hlive, hparent, hinsert, rfl⟩
      exact (h.insert hlive hparent hinsert).of_suites rfl
  | updateSuite suiteId body =>
      refine wp_mono updateSuite_spec ?_ fun _ _ h ↦ hneutral _ h
      rintro _ _ ⟨s, hs, hlive, hid, hcaller, parent, _, _, _, _, _, hbody, hparent, rfl⟩
      refine h.move rfl (fun _ ↦ rfl) hs hlive hlive rfl hparent fun hP p hp ↦ ?_
      subst hP
      have hnew := (hsound hcaller s hs (Suite.liveIn_iff.mpr ⟨rfl, hlive⟩) hid).2
      obtain rfl : parent = some p := hp
      obtain ⟨t, ht, htp⟩ := Option.map_eq_some_iff.mp hbody
      exact hnew t ht p htp
  | deleteSuite suiteId mode =>
      refine wp_mono deleteSuite_spec ?_ fun _ _ h ↦ hneutral _ h
      rintro _ _ ⟨s, -, -, -, _, -, -, _, rfl⟩
      exact h.delete rfl

theorem isForest_step {r : Request} (h : IsForest P db) (hsound : Sound P db r) :
    IsForest P (step db r) := by
  have hsound : Sound P { db with now := r.now } ⟨r.userId, r.now, r.call⟩ := hsound
  have h : IsForest P { db with now := r.now } := h
  exact after_of_wp (isForest_run h hsound)

/-- An update that meets its condition and does not mention `parentId` leaves the parent. -/
theorem keepsParent_of_sound {r : Request} (hsound : Sound P db r) : KeepsParent P db r := by
  obtain ⟨userId, now, call⟩ := r
  rintro suiteId body rfl hundefined s hs rfl hid
  refine after_of_wp (P := fun db' : Db ↦
    ∀ s' : Suite, s' ∈ db'.suites → s'.id = s.id → s'.parentId = s.parentId) ?_
  have hself : ∀ s' ∈ db.suites, s'.id = s.id → s'.parentId = s.parentId := fun s' hs' hid' ↦ by
    rw [Table.eq_of_key hs' hs hid']
  refine wp_mono updateSuite_spec ?_ ?_
  · rintro _ db' ⟨s₁, hs₁, hlive, hid₁, hcaller, parent, name, position, description, preconditions,
      _, hbody, -, hdb'⟩ s' hs' hid'
    obtain rfl := Table.eq_of_key hs₁ hs (Option.some.inj (hid₁.symm.trans hid))
    have hroot := (hsound hcaller s₁ hs (Suite.liveIn_iff.mpr ⟨rfl, hlive⟩) hid).1 hundefined
    have hnone : parent = none := by
      rw [hundefined] at hbody
      exact Option.map_eq_none_iff.mp hbody.symm
    have hrows : db.suites.UpdatedRows db'.suites (fun r ↦ r.id = s₁.id)
        (Suite.updated now name parent position description preconditions) := by
      rw [hdb']
      rfl
    rw [(mem_updated_self hrows hs hid').mp hs']
    exact hnone.trans hroot.symm
  · rintro _ _ ⟨users, uuids, rfl⟩
    exact hself

end Step

/-! ## Runs -/

/-- A project without suites is a forest. -/
theorem isForest_of_empty {P : Uuid} {db : Db} (h : ∀ s ∈ db.suites, s.projectId ≠ P) :
    IsForest P db := by
  rintro x p ⟨s, hs, -, -, hlive⟩
  exact absurd (Suite.liveIn_iff.mp hlive).1 (h s hs)

/-- In a run on a project that starts without suites whose requests all meet their condition, the
project's live suites are a forest in every state, and no update moves a suite unasked. -/
theorem isForest_always [Unicode] {P : Uuid} {db : Db} {requests : List Request}
    (hempty : ∀ s ∈ db.suites, s.projectId ≠ P) (h : Along step (Sound P) db requests) :
    Always step (IsForest P) db requests ∧ Along step (KeepsParent P) db requests := by
  refine Along.invariant (fun db r hforest hsound ↦ ?_) (isForest_of_empty hempty) h
  exact ⟨isForest_step hforest hsound, keepsParent_of_sound hsound⟩

/-- A body that names the suite and may say more. -/
def named (name : String) (parentId : Arg IdText) : SuiteBody :=
  ⟨.value name, .undefined, .undefined, parentId, .undefined⟩

/-- The first member builds a suite and one below it, under the ids 1000 and 1001. -/
def buildsTree : List Request := [
  ⟨some 1, 1, .createSuiteForUser (.canonical 100) (named "Web" .undefined)⟩,
  ⟨some 1, 2, .createSuiteForUser (.canonical 100) (named "Login" (.value (.canonical 1000)))⟩]

def renamesChild (parentId : Arg IdText) : Request :=
  ⟨some 1, 3, .updateSuite (.canonical 1001) (named "Sign in" parentId)⟩

def movesBelowItself : Request :=
  ⟨some 1, 3, .updateSuite (.canonical 1000) (named "Web" (.value (.canonical 1001)))⟩

theorem isForest_buildsTree :
    Always (@step asciiCase) (IsForest 100) twoTenants
        (buildsTree ++ [renamesChild (.value (.canonical 1000))]) ∧
      Along (@step asciiCase) (@KeepsParent asciiCase 100) twoTenants
        (buildsTree ++ [renamesChild (.value (.canonical 1000))]) :=
  @isForest_always asciiCase 100 twoTenants _ (by decide) (by decide)

/-- A rename moves the suite to the root, and a suite moved below itself has no root. -/
theorem not_isForest_not_keepsParent :
    (¬ Along (@step asciiCase) (@KeepsParent asciiCase 100) twoTenants
      (buildsTree ++ [renamesChild .undefined])) ∧
    ¬ Always (@step asciiCase) (IsForest 100) twoTenants (buildsTree ++ [movesBelowItself]) := by
  constructor
  · rintro ⟨-, -, hkeeps, -⟩
    have hsame := hkeeps _ _ rfl rfl
    revert hsame
    decide
  · rintro ⟨-, -, -, hforest⟩
    let P := LiveParent 100 ((buildsTree ++ [movesBelowItself]).foldl (@step asciiCase) twoTenants)
    have hweb : P 1000 (some 1001) := by
      unfold P LiveParent
      decide
    have hlogin : P 1001 (some 1000) := by
      unfold P LiveParent
      decide
    have hrooted : Rooted P 1000 := hforest _ _ hweb
    have hdown : Relation.TransGen (fun a b ↦ P b (some a)) 1000 1001 := .single hlogin
    have hunique : ∀ x p q, P x p → P x q → p = q := fun _ _ _ ↦ liveParent_unique
    exact hrooted.acyclic hunique (hdown.tail hweb)

end Tesbo.SuiteTree
