import Tesbo.Schema

/-!
# Who may reach a project, a suite, a test case

The checks every handler starts with.  All of them leave every table but `users` alone: resolving
the caller's workspace repairs a stale `active_organization_id` on the way.
-/

namespace Tesbo

open Reasoning Service

def requireUser (userId : Option Uuid) : Handler Uuid :=
  check fun _ ↦ userId.elim (.error (.badRequest "Authentication required")) .ok

/-! ## The caller's workspace -/

structure Workspace where
  id : Uuid
  role : String
deriving DecidableEq, Repr

/-- The caller's active organization, when the caller is a member of it. -/
def activeWorkspace (uid : Uuid) (db : Db) : Option Workspace := do
  let user ← db.users.find uid
  let organizationId ← user.activeOrganizationId
  let organization ← db.organizations.find organizationId
  let membership ← db.organizationMembers.find (organization.id, uid)
  pure ⟨organization.id, membership.role⟩

/-- The caller's memberships with their organizations. -/
def memberships (uid : Uuid) (db : Db) : List (Organization × OrganizationMember) :=
  (db.organizationMembers.select fun m ↦ m.userId = uid).filterMap fun m ↦
    (db.organizations.find m.organizationId).map fun o ↦ (o, m)

/-- `ORDER BY o.created_at ASC LIMIT 1`. -/
def earliestWorkspace (uid : Uuid) (db : Db) : Option Workspace :=
  (List.argmin (fun om ↦ om.1.createdAt) (memberships uid db)).map fun om ↦ ⟨om.1.id, om.2.role⟩

def setActiveOrganization (uid organizationId : Uuid) (db : Db) : Db :=
  { db with
    users := db.users.updateWhere (fun u ↦ u.id = uid)
      (fun u ↦ { u with activeOrganizationId := some organizationId }) fun _ ↦ rfl }

def workspace (userId : Option Uuid) : Handler Workspace := do
  let uid ← requireUser userId
  match ← query (activeWorkspace uid) with
  | some active => pure active
  | none =>
      match ← query (earliestWorkspace uid) with
      | none => fail (.notFound "Workspace not found")
      | some earliest => do
          write (setActiveOrganization uid earliest.id)
          pure earliest

/-! ## Projects, suites, test cases -/

/-- A project with the caller's role in it. -/
structure ProjectAccess where
  project : Project
  callerRole : String
deriving DecidableEq, Repr

/-- The project when it is open, in the workspace, and the caller's. -/
def findProjectAccess (uid workspaceId projectId : Uuid) (db : Db) : Option ProjectAccess := do
  let project ← db.projects.find projectId
  let membership ← db.projectMembers.find (projectId, uid)
  if project.archivedAt = none ∧ project.organizationId = some workspaceId
  then some ⟨project, membership.role⟩
  else none

def requireProjectAccess (userId : Option Uuid) (projectId : IdText) : Handler ProjectAccess := do
  let uid ← requireUser userId
  require projectId.isUuid (.notFound "Project not found")
  let id ← castUuid projectId
  let workspace ← workspace (some uid)
  check fun db ↦
    (findProjectAccess uid workspace.id id db).elim (.error (.notFound "Project not found")) .ok

def findLiveSuite (id : Uuid) (db : Db) : Option Suite := (db.suites.find id).filter Suite.live

/-- The project of a live suite the caller may reach. -/
def requireSuiteAccess (userId : Option Uuid) (suiteId : IdText) : Handler Uuid := do
  let uid ← requireUser userId
  require suiteId.isUuid (.notFound "Suite not found")
  let id ← castUuid suiteId
  let suite ← check fun db ↦ (findLiveSuite id db).elim (.error (.notFound "Suite not found")) .ok
  let _ ← requireProjectAccess (some uid) (.canonical suite.projectId)
  pure suite.projectId

def findLiveTestcase (id : Uuid) (db : Db) : Option Testcase :=
  (db.testcases.find id).filter Testcase.live

/-- The id of a live test case of the project. -/
def requireTestCaseAccess (userId : Option Uuid) (projectId testcaseId : IdText) :
    Handler Uuid := do
  let uid ← requireUser userId
  let access ← requireProjectAccess (some uid) projectId
  require testcaseId.isUuid (.notFound "Test case not found")
  let id ← castUuid testcaseId
  let testcase ← check fun db ↦
    ((findLiveTestcase id db).filter fun t ↦ t.projectId = access.project.id).elim
      (.error (.notFound "Test case not found")) .ok
  pure testcase.id

/-! ## What the checks establish -/

def IsMember (db : Db) (projectId uid : Uuid) : Prop :=
  ∃ m ∈ db.projectMembers, m.projectId = projectId ∧ m.userId = uid

instance (db : Db) (projectId uid : Uuid) : Decidable (IsMember db projectId uid) :=
  inferInstanceAs (Decidable (∃ m ∈ db.projectMembers.rows, m.projectId = projectId ∧ m.userId = uid))

/-- Every table but `users` is as before. -/
def OnlyUsers (db db' : Db) : Prop := ∃ users, db' = { db with users := users }

theorem OnlyUsers.refl (db : Db) : OnlyUsers db db := ⟨db.users, rfl⟩

theorem OnlyUsers.trans {db₁ db₂ db₃ : Db} (h : OnlyUsers db₁ db₂) (h' : OnlyUsers db₂ db₃) :
    OnlyUsers db₁ db₃ := by
  obtain ⟨users, rfl⟩ := h
  obtain ⟨users', rfl⟩ := h'
  exact ⟨users', rfl⟩

theorem OnlyUsers.executions {db db' : Db} (h : OnlyUsers db db') :
    db'.executions = db.executions := by
  obtain ⟨users, rfl⟩ := h
  rfl

variable {userId : Option Uuid} {db : Db}

theorem wp_requireUser_seq {β : Type} {f : Uuid → Handler β} {Q : β → Db → Prop}
    {E : Failure → Db → Prop} (hE : ∀ e, E e db) (hf : ∀ uid, userId = some uid → wp (f uid) Q E db) :
    wp (requireUser userId >>= f) Q E db := by
  unfold requireUser
  refine wp_check_seq hE fun uid huid ↦ hf uid ?_
  cases userId with
  | none => cases huid
  | some uid' => cases huid; rfl

theorem workspace_spec :
    wp (workspace userId) (fun _ db' ↦ OnlyUsers db db') (fun _ db' ↦ OnlyUsers db db') db := by
  unfold workspace
  refine wp_requireUser_seq (fun _ ↦ .refl db) fun uid _ ↦ wp_query_seq ?_
  cases activeWorkspace uid db with
  | some active => exact (wp_pure active).mpr (.refl db)
  | none =>
      refine wp_query_seq ?_
      cases earliestWorkspace uid db with
      | none => exact (wp_fail _).mpr (.refl db)
      | some earliest =>
          simp only [wp_bind, wp_write, wp_pure]
          exact ⟨_, rfl⟩

theorem findProjectAccess_eq_some {uid workspaceId projectId : Uuid} {access : ProjectAccess}
    (h : findProjectAccess uid workspaceId projectId db = some access) :
    access.project ∈ db.projects ∧ access.project.id = projectId ∧ IsMember db projectId uid := by
  unfold findProjectAccess at h
  simp only [bind, Option.bind_eq_some_iff] at h
  obtain ⟨project, hproject, membership, hmembership, h⟩ := h
  split at h
  · obtain rfl := Option.some.inj h
    obtain ⟨hmem, hid⟩ := Table.find_eq_some.mp hproject
    obtain ⟨hmember, hkey⟩ := Table.find_eq_some.mp hmembership
    rw [Prod.mk.injEq] at hkey
    exact ⟨hmem, hid, membership, hmember, hkey.1, hkey.2⟩
  · cases h

/-- A caller who gets past the check is a member of the project. -/
theorem requireProjectAccess_spec {projectId : IdText} :
    wp (requireProjectAccess userId projectId)
      (fun access db' ↦ OnlyUsers db db' ∧ access.project ∈ db.projects ∧
        projectId.uuid = some access.project.id ∧
        ∃ uid, userId = some uid ∧ IsMember db access.project.id uid)
      (fun _ db' ↦ OnlyUsers db db') db := by
  have hE : ∀ _ : Failure, OnlyUsers db db := fun _ ↦ .refl db
  unfold requireProjectAccess
  refine wp_requireUser_seq hE fun uid huid ↦ ?_
  refine wp_require_seq (.refl db) fun _ ↦ ?_
  refine wp_castUuid_seq hE fun id hid ↦ ?_
  refine wp_seq workspace_spec ?_
  rintro workspace _ ⟨users, rfl⟩
  rw [wp_check]
  refine ⟨fun access haccess ↦ ?_, fun _ _ ↦ ⟨users, rfl⟩⟩
  cases hfind : findProjectAccess uid workspace.id id { db with users := users } with
  | none => rw [hfind] at haccess; cases haccess
  | some found =>
      rw [hfind] at haccess
      cases haccess
      obtain ⟨hmem, rfl, hmember⟩ := findProjectAccess_eq_some hfind
      exact ⟨⟨users, rfl⟩, hmem, hid, uid, huid, hmember⟩

theorem findLiveSuite_eq_some {id : Uuid} {suite : Suite} :
    findLiveSuite id db = some suite ↔ suite ∈ db.suites ∧ suite.id = id ∧ suite.live = true := by
  unfold findLiveSuite
  rw [Option.filter_eq_some_iff, Table.find_eq_some, and_assoc]

/-- A caller who gets past the check is a member of the project of the live suite. -/
theorem requireSuiteAccess_spec {suiteId : IdText} :
    wp (requireSuiteAccess userId suiteId)
      (fun projectId db' ↦ OnlyUsers db db' ∧
        (∃ suite ∈ db.suites, suiteId.uuid = some suite.id ∧ suite.live = true ∧
          suite.projectId = projectId) ∧
        ∃ uid, userId = some uid ∧ IsMember db projectId uid)
      (fun _ db' ↦ OnlyUsers db db') db := by
  have hE : ∀ _ : Failure, OnlyUsers db db := fun _ ↦ .refl db
  unfold requireSuiteAccess
  refine wp_requireUser_seq hE fun uid huid ↦ ?_
  refine wp_require_seq (.refl db) fun _ ↦ ?_
  refine wp_castUuid_seq hE fun id hid ↦ ?_
  refine wp_check_seq hE fun suite hsuite ↦ ?_
  cases hfind : findLiveSuite id db with
  | none => rw [hfind] at hsuite; cases hsuite
  | some found =>
      rw [hfind] at hsuite
      cases hsuite
      obtain ⟨hmem, rfl, hlive⟩ := findLiveSuite_eq_some.mp hfind
      refine wp_seq requireProjectAccess_spec ?_
      rintro access db' ⟨honly, -, hproject, uid', huid', hmember⟩
      have hsame : suite.projectId = access.project.id := Option.some.inj hproject
      obtain rfl := Option.some.inj huid'
      rw [wp_pure, hsame]
      exact ⟨honly, ⟨suite, hmem, hid, hlive, hsame⟩, _, huid, hmember⟩

theorem findLiveTestcase_eq_some {id : Uuid} {testcase : Testcase} :
    findLiveTestcase id db = some testcase ↔
      testcase ∈ db.testcases ∧ testcase.id = id ∧ testcase.live = true := by
  unfold findLiveTestcase
  rw [Option.filter_eq_some_iff, Table.find_eq_some, and_assoc]

/-- A caller who gets past the check is a member of the project in the URL, and the live test
case is one of that project. -/
theorem requireTestCaseAccess_spec {projectId testcaseId : IdText} :
    wp (requireTestCaseAccess userId projectId testcaseId)
      (fun id db' ↦ OnlyUsers db db' ∧
        ∃ testcase ∈ db.testcases, testcase.id = id ∧ testcaseId.uuid = some testcase.id ∧
          testcase.live = true ∧ projectId.uuid = some testcase.projectId ∧
          ∃ uid, userId = some uid ∧ IsMember db testcase.projectId uid)
      (fun _ db' ↦ OnlyUsers db db') db := by
  unfold requireTestCaseAccess
  refine wp_requireUser_seq (fun _ ↦ .refl db) fun uid huid ↦ ?_
  refine wp_seq requireProjectAccess_spec ?_
  rintro access _ ⟨⟨users, rfl⟩, -, hproject, uid', huid', hmember⟩
  obtain rfl := Option.some.inj huid'
  have hE : ∀ _ : Failure, OnlyUsers db { db with users := users } := fun _ ↦ ⟨users, rfl⟩
  refine wp_require_seq (hE .invalidUuid) fun _ ↦ ?_
  refine wp_castUuid_seq hE fun id hid ↦ ?_
  refine wp_check_seq hE fun testcase htestcase ↦ ?_
  cases hfind : (findLiveTestcase id { db with users := users }).filter
      (fun t ↦ t.projectId = access.project.id) with
  | none => rw [hfind] at htestcase; cases htestcase
  | some found =>
      rw [hfind] at htestcase
      cases htestcase
      rw [Option.filter_eq_some_iff, decide_eq_true_eq] at hfind
      obtain ⟨hmem, rfl, hlive⟩ := findLiveTestcase_eq_some.mp hfind.1
      rw [wp_pure]
      exact ⟨⟨users, rfl⟩, testcase, hmem, rfl, hid, hlive, hfind.2 ▸ hproject, _, huid,
        hfind.2 ▸ hmember⟩

end Tesbo
