import Tesbo.Bugs
import Tesbo.ProjectMembers
import Tesbo.Reasoning.Runs

/-!
# Assignees are members

Whoever a result or a bug is assigned to is a member of its project.  An assignee is checked when
they are set, and let go of when they leave the project; leaving the workspace takes them out of
its projects too, and leaves what is assigned to them.
-/

namespace Tesbo

open Reasoning Service

/-! ## Calls -/

inductive AssignmentCall where
  | bulkAssignExecutions (userId : Option Uuid) (cycleId : IdText) (body : BulkBody)
  | updateExecution (actorId : Option Uuid) (executionId : IdText) (body : ExecutionBody)
  | createBug (projectId : Uuid) (userId : Option Uuid) (body : BugBody)
  | updateBug (userId : Option Uuid) (bugId : IdText) (body : BugBody)
  | addProjectMember (userId : Option Uuid) (projectId : IdText) (body : ProjectMemberBody)
  | removeProjectMember (userId : Option Uuid) (projectId targetUserId : IdText)
  | removeWorkspaceMember (userId : Option Uuid) (targetUserId : IdText)

/-- A call and when it is made. -/
structure AssignmentRequest where
  now : Time
  call : AssignmentCall

section Machine

variable [Unicode] [UtcCalendar]

/-- The database a call leaves. -/
def AssignmentCall.leaves (db : Db) : AssignmentCall → Db
  | .bulkAssignExecutions userId cycleId body =>
      after (Tesbo.bulkAssignExecutions cycleId userId body) db
  | .updateExecution actorId executionId body =>
      after (Tesbo.updateExecution executionId actorId body) db
  | .createBug projectId userId body => after (Tesbo.createBug projectId userId body) db
  | .updateBug userId bugId body => after (Tesbo.updateBug userId bugId body) db
  | .addProjectMember userId projectId body =>
      after (Tesbo.addProjectMember userId projectId body) db
  | .removeProjectMember userId projectId targetUserId =>
      after (Tesbo.removeProjectMember userId projectId targetUserId) db
  | .removeWorkspaceMember userId targetUserId =>
      (after ((Team.removeWorkspaceMember userId targetUserId).run Team.perform) ⟨db, []⟩).db

def assignmentStep (db : Db) (r : AssignmentRequest) : Db := r.call.leaves { db with now := r.now }

end Machine

/-! ## The property and its condition -/

/-- A live result or a live bug of the project is assigned to the user. -/
def AssignedIn (db : Db) (projectId uid : Uuid) : Prop :=
  (∃ e ∈ db.executions, e.live = true ∧ e.inProject projectId db = true ∧
      e.assigneeId = some uid) ∨
    ∃ b ∈ db.bugs, b.live = true ∧ b.projectId = projectId ∧ b.assigneeId = some uid

instance (db : Db) (projectId uid : Uuid) : Decidable (AssignedIn db projectId uid) :=
  inferInstanceAs (Decidable (_ ∨ _))

def AssigneesAreMembers (db : Db) : Prop :=
  ∀ projectId uid, AssignedIn db projectId uid → IsMember db projectId uid

/-- The workspace a caller acts in. -/
def workspaceOf (uid : Uuid) (db : Db) : Option Workspace :=
  (activeWorkspace uid db).or (earliestWorkspace uid db)

/-- The caller, an owner of the workspace, gets the user removed from it. -/
def Removes (db : Db) (uid : Uuid) (w : Workspace) (targetUserId : IdText) (target : Uuid) : Prop :=
  targetUserId.isUuid = true ∧ targetUserId ≠ .canonical uid ∧ normalizeRole w.role = .owner ∧
    ∃ m ∈ db.organizationMembers.find (w.id, target),
      m.role = Role.owner.text → 1 < Team.countOwners w.id db

instance (db : Db) (uid : Uuid) (w : Workspace) (targetUserId : IdText) (target : Uuid) :
    Decidable (Removes db uid w targetUserId target) :=
  inferInstanceAs (Decidable (_ ∧ _ ∧ _ ∧ _))

/-- A member who is removed from the workspace has nothing assigned in a project of it. -/
def AssignmentCall.LeavesNothing (db : Db) : AssignmentCall → Prop
  | .removeWorkspaceMember userId targetUserId =>
      ∀ uid ∈ userId, ∀ w ∈ workspaceOf uid db, ∀ target ∈ targetUserId.uuid,
        Removes db uid w targetUserId target →
          ∀ p ∈ db.projects, p.organizationId = some w.id → ¬ AssignedIn db p.id target
  | .bulkAssignExecutions _ _ _ | .updateExecution _ _ _ | .createBug _ _ _ | .updateBug _ _ _
  | .addProjectMember _ _ _ | .removeProjectMember _ _ _ => True

instance (db : Db) : ∀ call : AssignmentCall, Decidable (call.LeavesNothing db)
  | .removeWorkspaceMember userId targetUserId =>
      inferInstanceAs (Decidable (∀ uid ∈ userId, ∀ w ∈ workspaceOf uid db,
        ∀ target ∈ targetUserId.uuid, Removes db uid w targetUserId target → _))
  | .bulkAssignExecutions _ _ _ | .updateExecution _ _ _ | .createBug _ _ _ | .updateBug _ _ _
  | .addProjectMember _ _ _ | .removeProjectMember _ _ _ => instDecidableTrue

/-! ## Assignments -/

section Assignments

variable {db db' : Db}

theorem AssigneesAreMembers.onlyUsers (h : AssigneesAreMembers db) (honly : OnlyUsers db db') :
    AssigneesAreMembers db' := by
  obtain ⟨users, rfl⟩ := honly
  exact h

/-- Whatever the writer, each row is assigned after it to a member, as of the rows alone. -/
theorem assigneesAreMembers_of {executions : Table Execution.id} {bugs : Table Bug.id}
    (hexecutions : ∀ e ∈ executions, e.live = true → ∀ c ∈ e.cycle db, ∀ uid ∈ e.assigneeId,
      IsMember db c.projectId uid)
    (hbugs : ∀ b ∈ bugs, b.live = true → ∀ uid ∈ b.assigneeId, IsMember db b.projectId uid) :
    AssigneesAreMembers { db with executions := executions, bugs := bugs } := by
  rintro projectId uid (⟨e, he, hlive, hproject, huid⟩ | ⟨b, hb, hlive, rfl, huid⟩)
  · obtain ⟨c, hc, hsame⟩ := (Option.any_eq_true _ _).mp hproject
    obtain rfl := of_decide_eq_true hsame
    exact hexecutions e he hlive c hc uid huid
  · exact hbugs b hb hlive uid huid

theorem AssigneesAreMembers.execution (h : AssigneesAreMembers db) {e : Execution}
    (he : e ∈ db.executions) (hlive : e.live = true) {c : Cycle} (hc : e.cycle db = some c)
    {uid : Uuid} (huid : e.assigneeId = some uid) : IsMember db c.projectId uid := by
  refine h c.projectId uid (.inl ⟨e, he, hlive, ?_, huid⟩)
  unfold Execution.inProject
  rw [hc]
  exact decide_eq_true rfl

theorem AssigneesAreMembers.bug (h : AssigneesAreMembers db) {b : Bug} (hb : b ∈ db.bugs)
    (hlive : b.live = true) {uid : Uuid} (huid : b.assigneeId = some uid) :
    IsMember db b.projectId uid := h b.projectId uid (.inr ⟨b, hb, hlive, rfl, huid⟩)

/-- An update of results keeps the property when what it makes of each is assigned to a member. -/
theorem AssigneesAreMembers.updateExecutions (h : AssigneesAreMembers db) (p : Execution → Bool)
    (f : Execution → Execution) (hid : ∀ e, (f e).id = e.id)
    (hf : ∀ e ∈ db.executions, p e = true → (f e).live = true → ∀ c ∈ (f e).cycle db,
      ∀ uid ∈ (f e).assigneeId, IsMember db c.projectId uid) :
    AssigneesAreMembers { db with executions := db.executions.updateWhere p f hid } := by
  refine assigneesAreMembers_of (fun e he hlive c hc uid huid ↦ ?_)
    fun b hb hlive uid huid ↦ h.bug hb hlive huid
  rcases Table.mem_updateWhere_cases.mp he with ⟨he, -⟩ | ⟨e₀, he₀, hp, rfl⟩
  · exact h.execution he hlive hc huid
  · exact hf e₀ he₀ hp hlive c hc uid huid

theorem members_updateExecution {executionId : IdText} {actorId : Option Uuid}
    {body : ExecutionBody} (h : AssigneesAreMembers db) :
    wp (updateExecution executionId actorId body) (fun _ db' ↦ AssigneesAreMembers db')
      (fun _ db' ↦ AssigneesAreMembers db') db := by
  refine updateExecution_spec (fun _ honly ↦ h.onlyUsers honly) ?_
  rintro id before cycle uid assigneeId db₁ db₂ hid hfind - honly hmember hstore
  have h₁ := h.onlyUsers honly
  rcases storeExecution_eq_ok hstore with rfl | ⟨e, e', he, rfl, happly, rfl⟩
  · exact h₁
  · obtain ⟨-, -, -, hassignee, hitem, hdeleted⟩ := ExecutionChange.apply_eq_ok happly
    obtain ⟨hbefore, hsame, -, hcycle⟩ := findExecution_eq_some hfind
    have hrow : before = e := by
      obtain ⟨users, rfl⟩ := honly
      exact Table.eq_of_key hbefore he hsame
    subst hrow
    refine h₁.updateExecutions (fun r ↦ r.id = before.id) (fun r ↦ { e' with id := r.id })
      (fun _ ↦ rfl) fun r _ _ hlive c hc v hv ↦ ?_
    have hcycle' : before.cycle db₁ = some c := by
      unfold Execution.cycle at hc ⊢
      rw [← hitem]
      exact hc
    change e'.assigneeId = some v at hv
    rw [hassignee] at hv
    split at hv
    · cases hv
    · rcases hnew : assigneeId with _ | w
      · rw [show (body.change uid assigneeId).assigneeId = assigneeId from rfl, hnew,
          Option.none_or] at hv
        refine h₁.execution he ?_ hcycle' hv
        unfold Execution.live at hlive ⊢
        rw [← hdeleted]
        exact hlive
      · rw [show (body.change uid assigneeId).assigneeId = assigneeId from rfl, hnew,
          Option.some_or] at hv
        obtain rfl := Option.some.inj hv
        have hproject : c = cycle := by
          obtain ⟨users, rfl⟩ := honly
          exact Option.some.inj (hcycle'.symm.trans hcycle)
        rw [hproject]
        exact hmember _ hnew

theorem members_bulkAssignExecutions {cycleId : IdText} {userId : Option Uuid} {body : BulkBody}
    (h : AssigneesAreMembers db) :
    wp (bulkAssignExecutions cycleId userId body) (fun _ db' ↦ AssigneesAreMembers db')
      (fun _ db' ↦ AssigneesAreMembers db') db := by
  unfold bulkAssignExecutions
  refine wp_requireUser_seq (fun _ ↦ h) fun uid _ ↦ ?_
  refine wp_seq (wp_mono requireCycleAccess_spec (fun _ _ h ↦ h) fun _ _ ho ↦ h.onlyUsers ho) ?_
  rintro projectId db₁ ⟨honly, -⟩
  have h₁ := h.onlyUsers honly
  refine wp_seq (wp_mono parseAssignee_spec (fun _ _ h ↦ h) fun _ _ heq ↦ heq ▸ h₁) ?_
  rintro assigneeId db₂ ⟨rfl, -⟩
  refine wp_castUuid_seq (fun _ ↦ h₁) fun cycle _ ↦ ?_
  refine wp_seq (wp_mono resolveBulkExecutions_spec (fun _ _ h ↦ h) fun _ _ heq ↦ heq ▸ h₁) ?_
  rintro executionIds db₃ rfl
  exact wp_forEach (fun id _ s hs ↦ members_updateExecution hs) h₁

/-! ### Bugs -/

theorem members_failLinkedExecutions {projectId : Uuid} {actorId : Option Uuid}
    {executionIds : List IdText} (h : AssigneesAreMembers db) :
    wp (failLinkedExecutions projectId actorId executionIds) (fun _ db' ↦ AssigneesAreMembers db')
      (fun _ db' ↦ AssigneesAreMembers db') db := by
  unfold failLinkedExecutions
  refine wp_ofExcept_seq (fun _ ↦ h) fun ids _ ↦ wp_query_seq ?_
  refine wp_forEach (fun e _ s hs ↦ ?_) h
  rw [wp_write]
  exact hs.updateExecutions _ _ _ fun r hr _ hlive c hc uid huid ↦ hs.execution hr hlive hc huid

theorem AssigneesAreMembers.onlyNewLinks (h : AssigneesAreMembers db) (honly : OnlyNewLinks db db') :
    AssigneesAreMembers db' := by
  obtain ⟨bugLinks, uuids, rfl⟩ := honly
  exact h

theorem members_getBug {bugId : Uuid} (h : AssigneesAreMembers db) :
    wp (getBug bugId) (fun _ db' ↦ AssigneesAreMembers db') (fun _ db' ↦ AssigneesAreMembers db')
      db := by
  unfold getBug
  rw [wp_check]
  exact ⟨fun _ _ ↦ h, fun _ _ ↦ h⟩

theorem members_insertBug [Unicode] {new : NewBug} {uid : Option Uuid} (h : AssigneesAreMembers db)
    (hmember : ∀ v ∈ new.assigneeId, IsMember db new.projectId v) :
    wp (insertBug new uid) (fun _ db' ↦ AssigneesAreMembers db') (fun _ _ ↦ True) db := by
  unfold insertBug nextBugExternalId externalIdPrefix
  simp only [wp_bind, wp_query, wp_check, wp_pure, wp_genUuid, wp_exec]
  refine ⟨fun n _ ↦ ⟨fun db₁ hstore ↦ ?_, fun _ _ ↦ trivial⟩, fun _ _ ↦ trivial⟩
  obtain ⟨externalId, text, bugs, hinsert, rfl⟩ := storeBug_eq_ok hstore
  have h₁ : AssigneesAreMembers
      { db with uuids := fun n ↦ db.uuids (n + 1), bugs := bugs } := by
    refine assigneesAreMembers_of (fun e he hlive c hc v hv ↦ h.execution he hlive hc hv)
      fun b hb hlive v hv ↦ ?_
    rcases (Table.mem_insert hinsert).mp hb with hb | rfl
    · exact h.bug hb hlive hv
    · exact hmember v hv
  exact wp_mono replaceBugLinks_onlyNewLinks (fun _ _ ho ↦ h₁.onlyNewLinks ho) fun _ _ _ ↦ trivial

theorem members_insertBugAttempts [Unicode] {new : NewBug} {uid : Option Uuid}
    (h : AssigneesAreMembers db) (hmember : ∀ v ∈ new.assigneeId, IsMember db new.projectId v)
    (retries : ℕ) :
    wp (insertBugAttempts new uid retries) (fun _ db' ↦ AssigneesAreMembers db')
      (fun _ db' ↦ AssigneesAreMembers db') db := by
  induction retries with
  | zero =>
      unfold insertBugAttempts
      rw [wp_transaction]
      exact wp_mono (members_insertBug h hmember) (fun _ _ h ↦ h) fun _ _ _ ↦ h
  | succ retries ih =>
      unfold insertBugAttempts
      rw [wp_bind, wp_savepoint]
      refine wp_mono (members_insertBug h hmember) (fun id db' hok ↦ (wp_pure id).mpr hok) ?_
      intro e db' _
      dsimp only
      split
      · exact ih
      · exact (wp_fail e).mpr h

theorem members_createBug [Unicode] [UtcCalendar] {projectId : Uuid} {userId : Option Uuid}
    {body : BugBody} (h : AssigneesAreMembers db) :
    wp (createBug projectId userId body) (fun _ db' ↦ AssigneesAreMembers db')
      (fun _ db' ↦ AssigneesAreMembers db') db := by
  have hE : ∀ _ : Failure, AssigneesAreMembers db := fun _ ↦ h
  unfold createBug
  refine wp_ofExcept_seq hE fun _ _ ↦ wp_ofExcept_seq hE fun _ _ ↦ wp_query_seq ?_
  refine wp_ofExcept_seq hE fun severity _ ↦ wp_ofExcept_seq hE fun priority _ ↦ ?_
  refine wp_seq (wp_mono parseAssignee_spec (fun _ _ h ↦ h) fun _ _ heq ↦ heq ▸ h) ?_
  rintro assigneeId db ⟨rfl, hmember⟩
  refine wp_ofExcept_seq hE fun dueDate _ ↦ wp_check_seq hE fun _ _ ↦ ?_
  refine wp_seq (members_insertBugAttempts h hmember 4) fun bugId db₁ h₁ ↦ ?_
  exact wp_seq (members_failLinkedExecutions h₁) fun _ db₂ h₂ ↦ members_getBug h₂

theorem members_storeBugChange {projectId id : Uuid} {c : BugChange} (h : AssigneesAreMembers db)
    (hproject : ∀ b ∈ db.bugs, b.id = id → b.projectId = projectId)
    (hmember : ∀ v ∈ c.assigneeId, IsMember db projectId v)
    (hok : storeBugChange id c db = .ok db') : AssigneesAreMembers db' := by
  rcases storeBugChange_eq_ok hok with rfl | ⟨b, b', hb, rfl, happly, rfl⟩
  · exact h
  · obtain ⟨hassignee, hsame, hdeleted⟩ := BugChange.apply_eq_ok happly
    refine assigneesAreMembers_of (fun e he hlive c hc v hv ↦ h.execution he hlive hc hv)
      fun r hr hlive v hv ↦ ?_
    rcases Table.mem_updateWhere_cases.mp hr with ⟨hr, -⟩ | ⟨r₀, -, -, rfl⟩
    · exact h.bug hr hlive hv
    · change b'.assigneeId = some v at hv
      change IsMember db b'.projectId v
      rw [hassignee] at hv
      rw [hsame]
      split at hv
      · cases hv
      · cases hnew : c.assigneeId with
        | none =>
            rw [hnew, Option.none_or] at hv
            refine h.bug hb ?_ hv
            unfold Bug.live at hlive ⊢
            rw [← hdeleted]
            exact hlive
        | some w =>
            rw [hnew, Option.some_or] at hv
            obtain rfl := Option.some.inj hv
            rw [hproject b hb rfl]
            exact hmember w hnew

theorem members_updateBugLinks {bugId uid : Uuid} {links : Option (List LinkBody)}
    (h : AssigneesAreMembers db) :
    wp (updateBugLinks bugId uid links) (fun _ db' ↦ AssigneesAreMembers db')
      (fun _ db' ↦ AssigneesAreMembers db') db := by
  unfold updateBugLinks
  rw [wp_whenSome]
  refine ⟨fun _ ↦ h, fun links _ ↦ wp_query_seq ?_⟩
  rw [wp_transaction]
  exact wp_mono replaceBugLinks_onlyNewLinks (fun _ _ ho ↦ h.onlyNewLinks ho) fun _ _ _ ↦ h

theorem members_updateBug [Unicode] [UtcCalendar] {userId : Option Uuid} {bugId : IdText}
    {body : BugBody} (h : AssigneesAreMembers db) :
    wp (updateBug userId bugId body) (fun _ db' ↦ AssigneesAreMembers db')
      (fun _ db' ↦ AssigneesAreMembers db') db := by
  unfold updateBug
  refine wp_requireUser_seq (fun _ ↦ h) fun uid _ ↦ ?_
  refine wp_seq (wp_mono requireBugAccess_spec (fun _ _ h ↦ h) fun _ _ ho ↦ h.onlyUsers ho) ?_
  rintro projectId db₁ ⟨⟨users, rfl⟩, b, hb, hbugId, -, rfl, -⟩
  have h₁ : AssigneesAreMembers { db with users := users } := h
  have hE : ∀ _ : Failure, AssigneesAreMembers { db with users := users } := fun _ ↦ h₁
  refine wp_castUuid_seq hE fun id hid ↦ wp_ofExcept_seq hE fun severity _ ↦ ?_
  obtain rfl : b.id = id := Option.some.inj (hbugId.symm.trans hid)
  refine wp_ofExcept_seq hE fun _ _ ↦ wp_ofExcept_seq hE fun _ _ ↦ ?_
  refine wp_ofExcept_seq hE fun priority _ ↦ ?_
  refine wp_seq (wp_mono parseAssignee_spec (fun _ _ h ↦ h) fun _ _ heq ↦ heq ▸ h₁) ?_
  rintro assigneeId db₂ ⟨rfl, hmember⟩
  refine wp_ofExcept_seq hE fun dueDate _ ↦ ?_
  unfold getBug
  refine wp_check_seq hE fun before _ ↦ wp_check_seq hE fun _ _ ↦ ?_
  rw [wp_bind, wp_exec]
  refine ⟨fun db₄ hstore ↦ ?_, fun _ _ ↦ h₁⟩
  have h₄ : AssigneesAreMembers db₄ := members_storeBugChange h₁
    (fun r hr hsame ↦ congrArg Bug.projectId (Table.eq_of_key hr hb hsame)) hmember hstore
  exact wp_seq (members_updateBugLinks h₄) fun _ db₅ h₅ ↦ members_getBug h₅

end Assignments

/-! ## Memberships -/

section Memberships

variable {db db' : Db}

/-- The members of a project after an upsert are those before, and no other table changes. -/
theorem AssigneesAreMembers.upsertProjectMember {overwrites : Bool} {userId : Uuid} {role : String}
    {projectId : IdText} (h : AssigneesAreMembers db)
    (hok : Team.upsertProjectMember overwrites userId role db projectId = .ok db') :
    AssigneesAreMembers db' := by
  obtain ⟨id, projectMembers, rfl, hmembers⟩ : ∃ id projectMembers,
      db' = { db with projectMembers := projectMembers } ∧
        projectMembers = db.projectMembers.upsert ⟨id, userId, role⟩
          (fun m ↦ if overwrites then { m with role := role } else m)
          (fun m ↦ by cases overwrites <;> rfl) := by
    unfold Team.upsertProjectMember at hok
    obtain ⟨id, -, hok⟩ := except_bind_eq_ok.mp hok
    change (if (db.projectMembers.find (id, userId)).isNone = true then _ else _) = _ at hok
    split at hok
    · obtain ⟨_, -, hok⟩ := except_bind_eq_ok.mp hok
      exact ⟨id, _, (Except.ok.inj hok).symm, rfl⟩
    · exact ⟨id, _, (Except.ok.inj hok).symm, rfl⟩
  intro p uid hassigned
  obtain ⟨m, hm, hp, hu⟩ := h p uid hassigned
  by_cases hkey : (m.projectId, m.userId) = (id, userId)
  · refine ⟨if overwrites then { m with role := role } else m, ?_, ?_, ?_⟩
    · change _ ∈ projectMembers
      rw [hmembers]
      exact Table.mem_upsert.mpr (.inr (.inr ⟨m, hm, hkey, rfl⟩))
    · cases overwrites <;> exact hp
    · cases overwrites <;> exact hu
  · refine ⟨m, ?_, hp, hu⟩
    change _ ∈ projectMembers
    rw [hmembers]
    exact Table.mem_upsert.mpr (.inl ⟨hm, hkey⟩)

theorem members_addProjectMember {userId : Option Uuid} {projectId : IdText}
    {body : ProjectMemberBody} (h : AssigneesAreMembers db) :
    wp (addProjectMember userId projectId body) (fun _ db' ↦ AssigneesAreMembers db')
      (fun _ db' ↦ AssigneesAreMembers db') db := by
  unfold addProjectMember
  refine wp_requireUser_seq (fun _ ↦ h) fun uid _ ↦ ?_
  refine wp_seq (wp_mono requireProjectAccess_spec (fun _ _ h ↦ h) fun _ _ ho ↦ h.onlyUsers ho) ?_
  rintro access db₁ ⟨honly, -⟩
  have h₁ := h.onlyUsers honly
  have hE : ∀ _ : Failure, AssigneesAreMembers db₁ := fun _ ↦ h₁
  refine wp_require_seq h₁ fun _ ↦ wp_require_seq h₁ fun _ ↦ wp_require_seq h₁ fun _ ↦ ?_
  refine wp_ofExcept_seq hE fun role _ ↦ wp_require_seq h₁ fun _ ↦ wp_require_seq h₁ fun _ ↦ ?_
  refine wp_castUuid_seq hE fun id _ ↦ wp_check_seq hE fun member _ ↦ ?_
  refine wp_require_seq h₁ fun _ ↦ wp_require_seq h₁ fun _ ↦ wp_require_seq h₁ fun _ ↦ ?_
  rw [wp_exec]
  exact ⟨fun db₂ hok ↦ h₁.upsertProjectMember hok, fun _ _ ↦ h₁⟩

/-- A removal of memberships keeps the property where those removed have nothing assigned after. -/
theorem assigneesAreMembers_deleteWhere (p : ProjectMember → Bool)
    (hkeep : ∀ projectId uid, AssignedIn db projectId uid →
      ∃ m ∈ db.projectMembers, m.projectId = projectId ∧ m.userId = uid ∧ p m = false) :
    AssigneesAreMembers { db with projectMembers := db.projectMembers.deleteWhere p } := by
  intro projectId uid hassigned
  obtain ⟨m, hm, hp, hu, hstay⟩ := hkeep projectId uid hassigned
  exact ⟨m, Table.mem_deleteWhere.mpr ⟨hm, hstay⟩, hp, hu⟩

/-- What a member had assigned in the project is let go of with the membership. -/
theorem AssigneesAreMembers.release (h : AssigneesAreMembers db) (projectId userId : Uuid) :
    AssigneesAreMembers (releaseMember projectId userId db) := by
  let released : Db := { releaseMember projectId userId db with projectMembers := db.projectMembers }
  have hrows : ∀ p uid, AssignedIn released p uid →
      AssignedIn db p uid ∧ ¬ (p = projectId ∧ uid = userId) := by
    rintro p uid (⟨e, he, hlive, hproject, huid⟩ | ⟨b, hb, hlive, rfl, huid⟩)
    · change e ∈ db.executions.updateWhere
        (fun e ↦ e.inProject projectId db ∧ e.assigneeId = some userId ∧ e.live)
        (fun e ↦ { e with assigneeId := none }) fun _ ↦ rfl at he
      rcases Table.mem_updateWhere_cases.mp he with ⟨he, hp⟩ | ⟨e₀, -, -, rfl⟩
      · refine ⟨.inl ⟨e, he, hlive, hproject, huid⟩, ?_⟩
        rintro ⟨rfl, rfl⟩
        exact of_decide_eq_false hp ⟨hproject, huid, hlive⟩
      · cases huid
    · change b ∈ db.bugs.updateWhere
        (fun b ↦ b.projectId = projectId ∧ b.assigneeId = some userId)
        (fun b ↦ { b with assigneeId := none, updatedAt := db.now }) fun _ ↦ rfl at hb
      rcases Table.mem_updateWhere_cases.mp hb with ⟨hb, hp⟩ | ⟨b₀, -, -, rfl⟩
      · refine ⟨.inr ⟨b, hb, hlive, rfl, huid⟩, ?_⟩
        rintro ⟨hproject, rfl⟩
        exact of_decide_eq_false hp ⟨hproject, huid⟩
      · cases huid
  refine @assigneesAreMembers_deleteWhere released _ fun p uid hassigned ↦ ?_
  obtain ⟨hbefore, hother⟩ := hrows p uid hassigned
  obtain ⟨m, hm, rfl, rfl⟩ := h p uid hbefore
  exact ⟨m, hm, rfl, rfl, decide_eq_false hother⟩

theorem members_removeProjectMember {userId : Option Uuid} {projectId targetUserId : IdText}
    (h : AssigneesAreMembers db) :
    wp (removeProjectMember userId projectId targetUserId) (fun _ db' ↦ AssigneesAreMembers db')
      (fun _ db' ↦ AssigneesAreMembers db') db := by
  unfold removeProjectMember
  refine wp_requireUser_seq (fun _ ↦ h) fun uid _ ↦ ?_
  refine wp_seq (wp_mono requireProjectAccess_spec (fun _ _ h ↦ h) fun _ _ ho ↦ h.onlyUsers ho) ?_
  rintro access db₁ ⟨honly, -⟩
  have h₁ := h.onlyUsers honly
  have hE : ∀ _ : Failure, AssigneesAreMembers db₁ := fun _ ↦ h₁
  refine wp_require_seq h₁ fun _ ↦ wp_require_seq h₁ fun _ ↦ wp_require_seq h₁ fun _ ↦ ?_
  refine wp_castUuid_seq hE fun id _ ↦ wp_check_seq hE fun member _ ↦ wp_query_seq ?_
  refine wp_require_seq h₁ fun _ ↦ ?_
  rw [wp_write]
  exact h₁.release access.project.id id

/-! ### Leaving the workspace -/

theorem findMember_eq_some {organizationId userId : Uuid} {m : OrganizationMember}
    (h : Team.findMember organizationId userId db = some m) :
    db.organizationMembers.find (organizationId, userId) = some m := by
  unfold Team.findMember at h
  simp only [bind, Option.bind_eq_some_iff] at h
  obtain ⟨m', hfind, -, -, hsame⟩ := h
  obtain rfl := Option.some.inj hsame
  exact hfind

open Proc

/-- Uninterrupted, the check finds the workspace of the caller. -/
theorem run_callerIn_spec {userId : Option Uuid} {s : Team.Shared} :
    wp ((Team.callerIn userId).run Team.perform)
      (fun r s' ↦ OnlyUsers s.db s'.db ∧ ∃ w, userId = some r.1.uid ∧
        workspaceOf r.1.uid s.db = some w ∧ r.1.role = normalizeRole w.role ∧ r.2 = w.id)
      (fun _ s' ↦ OnlyUsers s.db s'.db) s := by
  have hE : ∀ _ : Failure, OnlyUsers s.db s.db := fun _ ↦ .refl s.db
  unfold Team.callerIn Team.requireUser
  refine wp_run_ofExcept_seq hE fun uid huid ↦ ?_
  have hcaller := eq_some_of_found huid
  have hworkspace : wp ((Team.workspace (some uid)).run Team.perform)
      (fun w s' ↦ OnlyUsers s.db s'.db ∧ workspaceOf uid s.db = some w)
      (fun _ s' ↦ OnlyUsers s.db s'.db) s := by
    unfold Team.workspace Team.requireUser Team.select Team.found
    refine wp_run_ofExcept_seq hE fun uid' huid' ↦ wp_run_query_seq ?_
    obtain rfl := Option.some.inj (eq_some_of_found huid')
    unfold workspaceOf
    cases hactive : activeWorkspace uid s.db with
    | some active => exact (wp_pure active).mpr ⟨.refl s.db, rfl⟩
    | none =>
        refine wp_run_check_seq hE fun earliest hearliest ↦ ?_
        refine wp_run_seq (P := fun _ s' ↦ OnlyUsers s.db s'.db) (wp_run_issue ?_) ?_
        · exact (wp_write _).mpr ⟨_, rfl⟩
        · intro _ s' honly
          exact (wp_pure earliest).mpr ⟨honly, eq_some_of_found hearliest⟩
  refine wp_run_seq hworkspace fun w s' hw ↦ (wp_pure _).mpr ⟨hw.1, w, hcaller, hw.2, rfl, rfl⟩

theorem members_removeWorkspaceMember {userId : Option Uuid} {targetUserId : IdText}
    {s : Team.Shared} (h : AssigneesAreMembers s.db)
    (hleave : (AssignmentCall.removeWorkspaceMember userId targetUserId).LeavesNothing s.db) :
    wp ((Team.removeWorkspaceMember userId targetUserId).run Team.perform)
      (fun _ s' ↦ AssigneesAreMembers s'.db) (fun _ s' ↦ AssigneesAreMembers s'.db) s := by
  unfold Team.removeWorkspaceMember
  refine wp_run_seq (wp_mono run_callerIn_spec (fun _ _ h ↦ h) fun _ _ ho ↦ h.onlyUsers ho) ?_
  rintro ⟨caller, workspaceId⟩ ⟨db₁, settlements⟩ ⟨⟨users, rfl⟩, w, hcaller, hw, hrole, rfl⟩
  have h₁ : AssigneesAreMembers { s.db with users := users } := h
  have hE : ∀ _ : Failure, AssigneesAreMembers { s.db with users := users } := fun _ ↦ h₁
  unfold Team.found Team.protectLastOwner Team.select
  refine wp_run_require_seq h₁ fun hother ↦ wp_run_require_seq h₁ fun hisUuid ↦ ?_
  refine wp_run_ofExcept_seq hE fun target htarget ↦ wp_run_check_seq hE fun m hm ↦ ?_
  have hfound := findMember_eq_some (eq_some_of_found hm)
  have hmember : s.db.organizationMembers.find (w.id, target) = some m := hfound
  have hdelete : (m.role = Role.owner.text → 1 < Team.countOwners w.id s.db) →
      wp ((do
        Proc.require (caller.role = .owner) (.forbidden "Only the owner can remove team members")
        Team.ask (.deleteMember caller w.id target) : Team.Procedure Unit).run Team.perform)
        (fun _ s' ↦ AssigneesAreMembers s'.db) (fun _ s' ↦ AssigneesAreMembers s'.db)
        ⟨{ s.db with users := users }, settlements⟩ := by
    intro howners
    refine wp_run_require_seq h₁ fun howner ↦ wp_run_issue ((wp_write _).mpr ?_)
    have hremoves : Removes s.db caller.uid w targetUserId target :=
      ⟨hisUuid, hother, hrole ▸ howner, m, hmember, howners⟩
    refine @assigneesAreMembers_deleteWhere { s.db with users := users } _ ?_
    intro projectId uid hassigned
    obtain ⟨m', hm', rfl, rfl⟩ := h₁ projectId uid hassigned
    refine ⟨m', hm', rfl, rfl, decide_eq_false ?_⟩
    rintro ⟨hsame, p, hp, hid, hworkspace⟩
    refine hleave caller.uid hcaller w hw target (readUuid_eq_ok.mp htarget) hremoves p hp
      hworkspace ?_
    rw [hid, ← hsame]
    exact hassigned
  split
  · rename_i howner
    refine wp_run_seq (P := fun _ s' ↦ s' = ⟨{ s.db with users := users }, settlements⟩ ∧
      1 < Team.countOwners w.id s.db) ?_ ?_
    · exact wp_run_query_seq (wp_run_require (fun _ ↦ h₁) fun hcount ↦ ⟨rfl, hcount⟩)
    · rintro _ s' ⟨rfl, hcount⟩
      exact hdelete fun _ ↦ hcount
  · rename_i hnotOwner
    exact wp_run_seq (P := fun _ s' ↦ s' = ⟨{ s.db with users := users }, settlements⟩)
      ((wp_pure ()).mpr rfl) fun _ s' hs ↦ hs ▸ hdelete fun howner ↦ absurd howner hnotOwner

end Memberships

/-! ## Runs -/

section Runs

variable [Unicode] [UtcCalendar] {db : Db}

theorem members_assignmentStep {r : AssignmentRequest} (h : AssigneesAreMembers db)
    (hleave : r.call.LeavesNothing db) : AssigneesAreMembers (assignmentStep db r) := by
  obtain ⟨now, call⟩ := r
  have hnow : AssigneesAreMembers { db with now := now } := h
  cases call with
  | bulkAssignExecutions userId cycleId body =>
      exact after_of_wp (members_bulkAssignExecutions hnow)
  | updateExecution actorId executionId body => exact after_of_wp (members_updateExecution hnow)
  | createBug projectId userId body => exact after_of_wp (members_createBug hnow)
  | updateBug userId bugId body => exact after_of_wp (members_updateBug hnow)
  | addProjectMember userId projectId body => exact after_of_wp (members_addProjectMember hnow)
  | removeProjectMember userId projectId targetUserId =>
      exact after_of_wp (members_removeProjectMember hnow)
  | removeWorkspaceMember userId targetUserId =>
      exact after_of_wp (P := fun s : Team.Shared ↦ AssigneesAreMembers s.db)
        (members_removeWorkspaceMember hnow hleave)

/-- Assignees stay members in every run in which no one is removed from a workspace while something
of its projects is assigned to them. -/
theorem assigneesAreMembers_always (h : AssigneesAreMembers db) {requests : List AssignmentRequest}
    (hleave : Along assignmentStep (fun db r ↦ r.call.LeavesNothing db) db requests) :
    Always assignmentStep AssigneesAreMembers db requests :=
  (Along.invariant (Q := fun _ _ ↦ True)
    (fun _ _ h hleave ↦ ⟨members_assignmentStep h hleave, trivial⟩) h hleave).1

end Runs

/-! ## A colleague leaves -/

/-- A workspace of two with a project they share. -/
def colleagues : Db :=
  { Db.empty with
    uuids := fun n ↦ 1000 + n
    users := ⟨[⟨1, "ann@one.test", some 10⟩, ⟨2, "bob@one.test", some 10⟩], by decide⟩
    organizations := .singleton ⟨10, 0⟩
    organizationMembers := ⟨[⟨10, 1, "owner"⟩, ⟨10, 2, "qa_engineer"⟩], by decide⟩
    projects := .singleton ⟨100, some 10, "ONE", "", none⟩
    projectMembers := ⟨[⟨100, 1, "owner"⟩, ⟨100, 2, "qa_engineer"⟩], by decide⟩ }

/-- Ann files a bug and assigns it to Bob. -/
def assignsBug : AssignmentRequest :=
  ⟨1, .createBug 100 (some 1)
    ⟨fun _ ↦ .undefined, .value (.canonical 2), .undefined, none⟩⟩

def removesFromProject : AssignmentRequest :=
  ⟨2, .removeProjectMember (some 1) (.canonical 100) (.canonical 2)⟩

def removesFromWorkspace : AssignmentRequest :=
  ⟨3, .removeWorkspaceMember (some 1) (.canonical 2)⟩

@[reducible] def calendar : UtcCalendar := ⟨fun _ ↦ newYear⟩

theorem not_assigneesAreMembers_leaves :
    letI := asciiCase
    letI := calendar
    ¬ Always assignmentStep AssigneesAreMembers colleagues [assignsBug, removesFromWorkspace] := by
  intro h
  have hmember := h.2.2 100 2 (by decide +kernel)
  revert hmember
  decide +kernel

theorem assigneesAreMembers_released :
    letI := asciiCase
    letI := calendar
    Always assignmentStep AssigneesAreMembers colleagues
      [assignsBug, removesFromProject, removesFromWorkspace] :=
  have hstart : AssigneesAreMembers colleagues := by
    rintro p uid (⟨e, he, -⟩ | ⟨b, hb, -⟩)
    · cases he
    · cases hb
  @assigneesAreMembers_always asciiCase calendar colleagues hstart _ (by decide +kernel)

end Tesbo
