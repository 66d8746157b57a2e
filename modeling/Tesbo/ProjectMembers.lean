import Tesbo.Executions
import Tesbo.Team

/-!
# The members of a project

Adding a member of the workspace to a project, and removing one: what was assigned to someone who
is removed from a project is taken off them in the same transaction.
-/

namespace Tesbo

open Reasoning Service

structure ProjectMemberBody where
  userId : Arg IdText
  role : Arg String

/-- The membership of the user in the project, when they are in the workspace of the project. -/
def findWorkspaceUser (project : Project) (userId : Uuid) (db : Db) :
    Option (Option ProjectMember) := do
  let user ← db.users.find userId
  let organizationId ← project.organizationId
  let _ ← db.organizationMembers.find (organizationId, user.id)
  pure (db.projectMembers.find (project.id, user.id))

def addProjectMember (userId : Option Uuid) (projectId : IdText) (body : ProjectMemberBody) :
    Handler Unit := do
  let uid ← requireUser userId
  let access ← requireProjectAccess (some uid) projectId
  let callerRole := normalizeRole access.callerRole
  require (callerRole ≠ .qaEngineer) (.forbidden "QA Engineers cannot manage project members")
  require (body.userId.truthy.isSome = true) (.badRequest "userId is required")
  let targetUserId := body.userId.truthy.getD (.word "")
  require (targetUserId.isUuid = true) (.badRequest "userId is not a valid user id")
  let roleRaw := body.role.truthy.getD "qa_engineer"
  let requestedRole ← ofExcept ((parseRole roleRaw).elim
    (.error (.badRequest s!"\"{roleRaw}\" is not a project role")) .ok)
  require (requestedRole ≠ .owner) (.forbidden "Cannot assign the owner role")
  require (callerRole = .manager → requestedRole = .qaEngineer)
    (.forbidden "Managers can only assign the QA Engineer role")
  let id ← castUuid targetUserId
  let member ← check fun db ↦ (findWorkspaceUser access.project id db).elim
    (.error (.notFound "That user is not a member of this workspace")) .ok
  let existingRole := (member.filter fun m ↦ m.role ≠ "").map fun m ↦ normalizeRole m.role
  require (existingRole ≠ some .owner) (.forbidden "The project owner's role cannot be changed")
  require (existingRole = none ∨ targetUserId ≠ .canonical uid)
    (.badRequest "You cannot change your own role")
  require (callerRole = .manager → existingRole ≠ some .manager)
    (.forbidden "Managers cannot change another manager's role")
  exec fun db ↦ Team.upsertProjectMember true id requestedRole.text db projectId

/-- The membership row of a user there is. -/
def findProjectMember (projectId userId : Uuid) (db : Db) : Option ProjectMember := do
  let m ← db.projectMembers.find (projectId, userId)
  let _ ← db.users.find m.userId
  pure m

def countProjectOwners (projectId : Uuid) (db : Db) : ℕ :=
  (db.projectMembers.select fun m ↦
    m.projectId = projectId ∧ m.role = Role.owner.text).length

/-- A result of a run of the project. -/
def Execution.inProject (e : Execution) (projectId : Uuid) (db : Db) : Bool :=
  (e.cycle db).any fun c ↦ c.projectId = projectId

/-- The transaction of `removeProjectMember`. -/
def releaseMember (projectId userId : Uuid) (db : Db) : Db :=
  { db with
    projectMembers := db.projectMembers.deleteWhere fun m ↦
      m.projectId = projectId ∧ m.userId = userId
    executions := db.executions.updateWhere
      (fun e ↦ e.inProject projectId db ∧ e.assigneeId = some userId ∧ e.live)
      (fun e ↦ { e with assigneeId := none }) fun _ ↦ rfl
    bugs := db.bugs.updateWhere (fun b ↦ b.projectId = projectId ∧ b.assigneeId = some userId)
      (fun b ↦ { b with assigneeId := none, updatedAt := db.now }) fun _ ↦ rfl }

def removeProjectMember (userId : Option Uuid) (projectId targetUserId : IdText) :
    Handler Unit := do
  let uid ← requireUser userId
  let access ← requireProjectAccess (some uid) projectId
  let callerRole := normalizeRole access.callerRole
  require (callerRole ≠ .qaEngineer) (.forbidden "QA Engineers cannot manage project members")
  require (targetUserId ≠ .canonical uid)
    (.badRequest "You cannot remove yourself from the project")
  require (targetUserId.isUuid = true) (.badRequest "userId is not a valid user id")
  let id ← castUuid targetUserId
  let member ← check fun db ↦ (findProjectMember access.project.id id db).elim
    (.error (.notFound "Member not found")) .ok
  let ownerCount ← query (countProjectOwners access.project.id)
  require (normalizeRole member.role = .owner → 1 < ownerCount)
    (.badRequest "Cannot remove the last project owner")
  write (releaseMember access.project.id id)

end Tesbo
