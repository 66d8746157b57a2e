import Tesbo.Reasoning.Procedures
import Tesbo.Access
import Tesbo.Roles

/-!
# The members of a workspace and its invitations

The handlers that write `organization_members` and `invitations`, statement by statement: between
two statements of one call any statement of another may come.  A transaction is one statement.
-/

namespace Tesbo.Team

open Reasoning

/-- What an invitation came to. -/
inductive Outcome where
  | accepted
  | registered
  | declined
  | cancelled
deriving DecidableEq, Repr

/-- The status the outcome is stored as. -/
def Outcome.status : Outcome → String
  | accepted | registered => "accepted"
  | declined => "declined"
  | cancelled => "cancelled"

/-- A call that settled an invitation, and the membership it granted. -/
structure Settlement where
  invitationId : Uuid
  outcome : Outcome
  member : Option (Uuid × Uuid)
deriving DecidableEq, Repr

/-- The database, and what has become of invitations so far; no handler reads the latter. -/
structure Shared where
  db : Db
  settlements : List Settlement

/-- Who makes a call, with the role the call found them in. -/
structure Caller where
  uid : Uuid
  role : Role
deriving DecidableEq, Repr

/-! ## Writes -/

inductive Write where
  | setActiveOrganization (uid organizationId : Uuid)
  | upsertUser (email : String)
  | upsertMember (caller : Caller) (organizationId userId : Uuid) (role : Role)
  | deleteMember (caller : Caller) (organizationId userId : Uuid)
  | setMemberRole (caller : Caller) (organizationId userId : Uuid) (role : Role)
  | insertInvitation (caller : Caller) (organizationId : Uuid) (email : String) (role : Role)
      (token : String) (expiresAt : Time) (projectIds : List IdText)
  | markExpired (id : Uuid)
  | markOverdue (organizationId : Uuid)
  | markCancelled (id : Uuid)
  | renewToken (id : Uuid) (token : String) (expiresAt : Time)
  | commitAccept (invitation : Invitation) (uid : Uuid)
  | markDeclined (id : Uuid)
  | commitRegister (invitation : Invitation)
  | elapse (time : Time)

/-- What a write answers with: the id of a user, whether a row was hit, or nothing. -/
@[reducible] def Reply : Write → Type
  | .upsertUser _ | .commitRegister _ => Uuid
  | .markDeclined _ => Bool
  | _ => Unit

/-! ### Members -/

def memberReferences (organizationId userId : Uuid) (db : Db) : Except Failure Unit :=
  if (db.organizations.find organizationId).isNone
  then .error (.foreignKey "organization_members_organization_id_fkey")
  else if (db.users.find userId).isNone
  then .error (.foreignKey "organization_members_user_id_fkey")
  else .ok ()

/-- `INSERT INTO organization_members … ON CONFLICT DO UPDATE SET role = EXCLUDED.role`. -/
def upsertMember (organizationId userId : Uuid) (role : String) (db : Db) : Except Failure Db := do
  if (db.organizationMembers.find (organizationId, userId)).isNone then
    memberReferences organizationId userId db
  .ok { db with
    organizationMembers := db.organizationMembers.upsert ⟨organizationId, userId, role⟩
      (fun m ↦ { m with role := role }) fun _ ↦ rfl }

def projectMemberReferences (projectId userId : Uuid) (db : Db) : Except Failure Unit :=
  if (db.projects.find projectId).isNone
  then .error (.foreignKey "project_members_project_id_fkey")
  else if (db.users.find userId).isNone
  then .error (.foreignKey "project_members_user_id_fkey")
  else .ok ()

/-- `INSERT INTO project_members … ON CONFLICT DO UPDATE SET role = EXCLUDED.role`, or, unless
`overwrites`, `DO NOTHING`. -/
def upsertProjectMember (overwrites : Bool) (userId : Uuid) (role : String) (db : Db)
    (projectId : IdText) : Except Failure Db := do
  let projectId ← readUuid projectId
  if (db.projectMembers.find (projectId, userId)).isNone then
    projectMemberReferences projectId userId db
  .ok { db with
    projectMembers := db.projectMembers.upsert ⟨projectId, userId, role⟩
      (fun m ↦ if overwrites then { m with role := role } else m) fun m ↦ by
        cases overwrites <;> rfl }

def setMemberRole (organizationId userId : Uuid) (role : String) (db : Db) : Db :=
  { db with
    organizationMembers := db.organizationMembers.updateWhere
      (fun m ↦ m.organizationId = organizationId ∧ m.userId = userId)
      (fun m ↦ { m with role := role }) fun _ ↦ rfl }

/-- The membership goes, and with it those in the projects of the workspace. -/
def deleteMember (organizationId userId : Uuid) (db : Db) : Db :=
  { db with
    organizationMembers := db.organizationMembers.deleteWhere fun m ↦
      m.organizationId = organizationId ∧ m.userId = userId
    projectMembers := db.projectMembers.deleteWhere fun m ↦
      m.userId = userId ∧
        ∃ p ∈ db.projects, p.id = m.projectId ∧ p.organizationId = some organizationId }

/-! ### Users -/

def findUserByEmail (email : String) (db : Db) : Option User :=
  db.users.rows.find? fun u ↦ u.email = email

/-- `INSERT INTO users … RETURNING id`. -/
def insertUser (email : String) (db : Db) : Except Failure (Uuid × Db) := do
  let email ← varchar 255 email
  if (findUserByEmail email db).isSome then .error (.unique "users_email_key")
  let id := db.uuids 0
  match db.users.insert ⟨id, email, none⟩ with
  | none => .error (.unique "users_pkey")
  | some users => .ok (id, { db with users := users, uuids := fun n ↦ db.uuids (n + 1) })

/-- The same, `ON CONFLICT (email)` the user who has it. -/
def upsertUser (email : String) (db : Db) : Except Failure (Uuid × Db) :=
  match findUserByEmail email db with
  | some user => .ok (user.id, db)
  | none => insertUser email db

/-! ### Invitations -/

def setInvitation (id : Uuid) (f : Invitation → Invitation) (hf : ∀ i, (f i).id = i.id) (db : Db) :
    Db :=
  { db with invitations := db.invitations.updateWhere (fun i ↦ i.id = id) f hf }

def markExpired (id : Uuid) : Db → Db :=
  setInvitation id (fun i ↦ { i with status := "expired" }) fun _ ↦ rfl

def markOverdue (organizationId : Uuid) (db : Db) : Db :=
  { db with
    invitations := db.invitations.updateWhere
      (fun i ↦ i.organizationId = organizationId ∧ i.status = "pending" ∧ i.expiresAt < db.now)
      (fun i ↦ { i with status := "expired" }) fun _ ↦ rfl }

def markCancelled (id : Uuid) (db : Db) : Db :=
  setInvitation id (fun i ↦ { i with status := "cancelled", cancelledAt := some db.now })
    (fun _ ↦ rfl) db

def renewToken (id : Uuid) (token : String) (expiresAt : Time) (db : Db) :
    Except Failure Db :=
  if ∃ i ∈ db.invitations, i.token = token ∧ i.id ≠ id
  then .error (.unique "invitations_token_key")
  else .ok (setInvitation id (fun i ↦ { i with token := token, expiresAt := expiresAt })
    (fun _ ↦ rfl) db)

def markAccepted (id : Uuid) (db : Db) : Db :=
  setInvitation id (fun i ↦ { i with status := "accepted", acceptedAt := some db.now })
    (fun _ ↦ rfl) db

/-- The transaction of `acceptInvitation`. -/
def commitAccept (inv : Invitation) (uid : Uuid) (db : Db) : Except Failure Db := do
  let db ← upsertMember inv.organizationId uid inv.role db
  let db ← inv.projectIds.foldlM (upsertProjectMember true uid inv.role) db
  .ok (setActiveOrganization uid inv.organizationId (markAccepted inv.id db))

/-- The transaction of `registerFromInvitation`. -/
def commitRegister (inv : Invitation) (db : Db) : Except Failure (Uuid × Db) := do
  let (uid, db) ← insertUser inv.email db
  memberReferences inv.organizationId uid db
  match db.organizationMembers.insert ⟨inv.organizationId, uid, inv.role⟩ with
  | none => .error (.unique "organization_members_organization_id_user_id_key")
  | some organizationMembers =>
      let db := setActiveOrganization uid inv.organizationId
        { db with organizationMembers := organizationMembers }
      let db ← inv.projectIds.foldlM (upsertProjectMember false uid inv.role) db
      .ok (uid, markAccepted inv.id db)

/-- `UPDATE … SET status = 'declined' WHERE id = $1 AND status = 'pending'`. -/
def markDeclined (id : Uuid) (db : Db) : Db :=
  { db with
    invitations := db.invitations.updateWhere (fun i ↦ i.id = id ∧ i.status = "pending")
      (fun i ↦ { i with status := "declined" }) fun _ ↦ rfl }

def pendingInvitation (id : Uuid) (db : Db) : Bool :=
  (db.invitations.find id).any fun i ↦ i.status = "pending"

def insertInvitation (caller : Caller) (organizationId : Uuid) (email : String) (role : Role)
    (token : String) (expiresAt : Time) (projectIds : List IdText) (db : Db) :
    Except Failure Db := do
  let email ← varchar 255 email
  if ∃ i ∈ db.invitations, i.token = token then .error (.unique "invitations_token_key")
  let row : Invitation :=
    ⟨db.uuids 0, organizationId, email, role.text, token, some caller.uid, "pending", expiresAt, none,
      none, projectIds⟩
  match db.invitations.insert row with
  | none => .error (.unique "invitations_pkey")
  | some invitations =>
      .ok { db with invitations := invitations, uuids := fun n ↦ db.uuids (n + 1) }

/-! ### What a write does -/

/-- A write that cannot fail. -/
def alter (f : Db → Db) : Service Failure Shared Unit := fun s ↦ (.ok (), { s with db := f s.db })

/-- A write that may, and what it settles when it does not. -/
def attempt {α : Type} (f : Db → Except Failure (α × Db)) (settled : α → List Settlement) :
    Service Failure Shared α := fun s ↦
  match f s.db with
  | .ok (a, db) => (.ok a, ⟨db, s.settlements ++ settled a⟩)
  | .error e => (.error e, s)

def attempt_ (f : Db → Except Failure Db) (settled : List Settlement) :
    Service Failure Shared Unit := attempt (fun db ↦ (f db).map fun db ↦ ((), db)) fun _ ↦ settled

def perform : (w : Write) → Service Failure Shared (Reply w)
  | .setActiveOrganization uid organizationId => alter (setActiveOrganization uid organizationId)
  | .upsertUser email => attempt (upsertUser email) fun _ ↦ []
  | .upsertMember _ organizationId userId role =>
      attempt_ (upsertMember organizationId userId role.text) []
  | .deleteMember _ organizationId userId => alter (deleteMember organizationId userId)
  | .setMemberRole _ organizationId userId role =>
      alter (setMemberRole organizationId userId role.text)
  | .insertInvitation caller organizationId email role token expiresAt projectIds =>
      attempt_ (insertInvitation caller organizationId email role token expiresAt projectIds) []
  | .markExpired id => alter (markExpired id)
  | .markOverdue organizationId => alter (markOverdue organizationId)
  | .markCancelled id =>
      attempt_ (fun db ↦ .ok (markCancelled id db)) [⟨id, .cancelled, none⟩]
  | .renewToken id token expiresAt => attempt_ (renewToken id token expiresAt) []
  | .commitAccept inv uid =>
      attempt_ (commitAccept inv uid) [⟨inv.id, .accepted, some (inv.organizationId, uid)⟩]
  | .commitRegister inv =>
      attempt (commitRegister inv) fun uid ↦
        [⟨inv.id, .registered, some (inv.organizationId, uid)⟩]
  | .markDeclined id =>
      attempt (fun db ↦ .ok (pendingInvitation id db, markDeclined id db))
        fun hit ↦ if hit then [⟨id, .declined, none⟩] else []
  | .elapse time => alter fun db ↦ { db with now := db.now + time }

/-! ### What the writes leave -/

section Effects

variable {db db' : Db} {s : Shared}

/-- What holds before a write and after it when it goes through holds after it. -/
theorem after_attempt {α : Type} {P : Shared → Prop} {f : Db → Except Failure (α × Db)}
    {settled : α → List Settlement} (hs : P s)
    (hok : ∀ a db, f s.db = .ok (a, db) → P ⟨db, s.settlements ++ settled a⟩) :
    P (Service.after (attempt f settled) s) := by
  unfold Service.after attempt
  cases hf : f s.db with
  | error e => exact hs
  | ok r => exact hok r.1 r.2 hf

theorem after_attempt_ {P : Shared → Prop} {f : Db → Except Failure Db} {settled : List Settlement}
    (hs : P s) (hok : ∀ db, f s.db = .ok db → P ⟨db, s.settlements ++ settled⟩) :
    P (Service.after (attempt_ f settled) s) := by
  refine after_attempt hs fun _ db' hf ↦ ?_
  cases hf' : f s.db with
  | error e => rw [hf'] at hf; cases hf
  | ok db =>
      rw [hf'] at hf
      obtain ⟨-, rfl⟩ := Prod.mk.inj (Except.ok.inj hf)
      exact hok db hf'

/-- The same for the database alone. -/
theorem db_after_attempt {α : Type} {P : Db → Prop} {f : Db → Except Failure (α × Db)}
    {settled : α → List Settlement} (hs : P s.db) (hok : ∀ a db, f s.db = .ok (a, db) → P db) :
    P (Service.after (attempt f settled) s).db :=
  after_attempt (P := fun s ↦ P s.db) hs hok

theorem db_after_attempt_ {P : Db → Prop} {f : Db → Except Failure Db}
    {settled : List Settlement} (hs : P s.db) (hok : ∀ db, f s.db = .ok db → P db) :
    P (Service.after (attempt_ f settled) s).db :=
  after_attempt_ (P := fun s ↦ P s.db) hs hok

theorem upsertMember_eq_ok {organizationId userId : Uuid} {role : String}
    (h : upsertMember organizationId userId role db = .ok db') :
    db' = { db with
      organizationMembers := db.organizationMembers.upsert ⟨organizationId, userId, role⟩
        (fun m ↦ { m with role := role }) fun _ ↦ rfl } := by
  unfold upsertMember at h
  split at h
  · cases href : memberReferences organizationId userId db with
    | error e => rw [href] at h; cases h
    | ok u =>
        rw [href] at h
        exact (Except.ok.inj h).symm
  · exact (Except.ok.inj h).symm

/-- The rows of `project_members` change, nothing else. -/
def OnlyProjectMembers (db db' : Db) : Prop :=
  ∃ projectMembers, db' = { db with projectMembers := projectMembers }

theorem upsertProjectMember_eq_ok {overwrites : Bool} {userId : Uuid} {role : String}
    {projectId : IdText} (h : upsertProjectMember overwrites userId role db projectId = .ok db') :
    OnlyProjectMembers db db' := by
  unfold upsertProjectMember at h
  cases hid : readUuid projectId with
  | error e => rw [hid] at h; cases h
  | ok id =>
      rw [hid] at h
      change (if (db.projectMembers.find (id, userId)).isNone = true then _ else _) = _ at h
      split at h
      · cases href : projectMemberReferences id userId db with
        | error e => rw [href] at h; cases h
        | ok u =>
            rw [href] at h
            exact ⟨_, (Except.ok.inj h).symm⟩
      · exact ⟨_, (Except.ok.inj h).symm⟩

theorem onlyProjectMembers_of_foldlM {overwrites : Bool} {userId : Uuid} {role : String}
    {projectIds : List IdText}
    (h : projectIds.foldlM (upsertProjectMember overwrites userId role) db = .ok db') :
    OnlyProjectMembers db db' := by
  refine inv_of_foldlM (P := OnlyProjectMembers db) ?_ h ⟨db.projectMembers, rfl⟩
  rintro projectId db₁ db₂ hstep ⟨projectMembers, rfl⟩
  obtain ⟨projectMembers', rfl⟩ := upsertProjectMember_eq_ok hstep
  exact ⟨projectMembers', rfl⟩

/-- An acceptance makes or overwrites the membership, and marks the invitation. -/
theorem commitAccept_eq_ok {inv : Invitation} {uid : Uuid} (h : commitAccept inv uid db = .ok db') :
    db'.organizationMembers = db.organizationMembers.upsert ⟨inv.organizationId, uid, inv.role⟩
        (fun m ↦ { m with role := inv.role }) (fun _ ↦ rfl) ∧
      db'.invitations = (markAccepted inv.id db).invitations := by
  unfold commitAccept at h
  cases hmember : upsertMember inv.organizationId uid inv.role db with
  | error e => rw [hmember] at h; cases h
  | ok db₁ =>
      rw [hmember] at h
      change (inv.projectIds.foldlM (upsertProjectMember true uid inv.role) db₁ >>= _) = _ at h
      cases hprojects : inv.projectIds.foldlM (upsertProjectMember true uid inv.role) db₁ with
      | error e => rw [hprojects] at h; cases h
      | ok db₂ =>
          rw [hprojects] at h
          obtain rfl := Except.ok.inj h
          obtain ⟨projectMembers, rfl⟩ := onlyProjectMembers_of_foldlM hprojects
          obtain rfl := upsertMember_eq_ok hmember
          exact ⟨rfl, rfl⟩

theorem insertUser_eq_ok {email : String} {uid : Uuid} (h : insertUser email db = .ok (uid, db')) :
    uid = db.uuids 0 ∧
      ∃ users, db' = { db with users := users, uuids := fun n ↦ db.uuids (n + 1) } := by
  unfold insertUser at h
  cases hemail : varchar 255 email with
  | error e => rw [hemail] at h; cases h
  | ok email =>
      rw [hemail] at h
      change (if (findUserByEmail email db).isSome = true then _ else _) = _ at h
      split at h
      · cases h
      · change (match db.users.insert ⟨db.uuids 0, email, none⟩ with | none => _ | some _ => _) = _
          at h
        cases hinsert : db.users.insert ⟨db.uuids 0, email, none⟩ with
        | none => rw [hinsert] at h; cases h
        | some users =>
            rw [hinsert] at h
            obtain ⟨rfl, rfl⟩ := Prod.mk.inj (Except.ok.inj h)
            exact ⟨rfl, users, rfl⟩

theorem upsertUser_eq_ok {email : String} {uid : Uuid} (h : upsertUser email db = .ok (uid, db')) :
    ∃ users uuids, db' = { db with users := users, uuids := uuids } := by
  unfold upsertUser at h
  cases hfind : findUserByEmail email db with
  | some user =>
      rw [hfind] at h
      obtain ⟨-, rfl⟩ := Prod.mk.inj (Except.ok.inj h)
      exact ⟨db.users, db.uuids, rfl⟩
  | none =>
      rw [hfind] at h
      obtain ⟨-, users, rfl⟩ := insertUser_eq_ok h
      exact ⟨users, _, rfl⟩

theorem insertInvitation_eq_ok {caller : Caller} {organizationId : Uuid} {email token : String}
    {role : Role} {expiresAt : Time} {projectIds : List IdText}
    (h : insertInvitation caller organizationId email role token expiresAt projectIds db = .ok db') :
    ∃ row : Invitation, row.role = role.text ∧ row.status = "pending" ∧ ∃ invitations uuids,
      db.invitations.insert row = some invitations ∧
        db' = { db with invitations := invitations, uuids := uuids } := by
  unfold insertInvitation at h
  cases hemail : varchar 255 email with
  | error e => rw [hemail] at h; cases h
  | ok email =>
      rw [hemail] at h
      change (if ∃ i ∈ db.invitations, i.token = token then _ else _) = _ at h
      split at h
      · cases h
      · let row : Invitation := ⟨db.uuids 0, organizationId, email, role.text, token,
          some caller.uid, "pending", expiresAt, none, none, projectIds⟩
        change (match db.invitations.insert row with | none => _ | some _ => _) = _ at h
        cases hinsert : db.invitations.insert row with
        | none => rw [hinsert] at h; cases h
        | some invitations =>
            rw [hinsert] at h
            obtain rfl := Except.ok.inj h
            exact ⟨row, rfl, rfl, invitations, _, hinsert, rfl⟩

theorem renewToken_eq_ok {id : Uuid} {token : String} {expiresAt : Time}
    (h : renewToken id token expiresAt db = .ok db') :
    db' = setInvitation id (fun i ↦ { i with token := token, expiresAt := expiresAt })
      (fun _ ↦ rfl) db := by
  unfold renewToken at h
  split at h
  · cases h
  · exact (Except.ok.inj h).symm

/-- A registration makes a membership where there was none, and marks the invitation. -/
theorem commitRegister_eq_ok {inv : Invitation} {uid : Uuid}
    (h : commitRegister inv db = .ok (uid, db')) :
    db.organizationMembers.insert ⟨inv.organizationId, uid, inv.role⟩ =
        some db'.organizationMembers ∧
      db'.invitations = (markAccepted inv.id db).invitations := by
  unfold commitRegister at h
  cases huser : insertUser inv.email db with
  | error e => rw [huser] at h; cases h
  | ok r =>
      obtain ⟨uid', db₁⟩ := r
      rw [huser] at h
      obtain ⟨-, users, rfl⟩ := insertUser_eq_ok huser
      change (memberReferences inv.organizationId uid' _ >>= _) = _ at h
      cases href : memberReferences inv.organizationId uid'
          { db with users := users, uuids := fun n ↦ db.uuids (n + 1) } with
      | error e => rw [href] at h; cases h
      | ok u =>
          rw [href] at h
          change (match db.organizationMembers.insert ⟨inv.organizationId, uid', inv.role⟩ with
            | none => _
            | some _ => _) = _ at h
          cases hinsert : db.organizationMembers.insert ⟨inv.organizationId, uid', inv.role⟩ with
          | none => rw [hinsert] at h; cases h
          | some organizationMembers =>
              rw [hinsert] at h
              change (inv.projectIds.foldlM (upsertProjectMember false uid' inv.role) _ >>= _) = _
                at h
              cases hprojects : inv.projectIds.foldlM (upsertProjectMember false uid' inv.role)
                  (setActiveOrganization uid' inv.organizationId
                    { db with
                      users := users
                      uuids := fun n ↦ db.uuids (n + 1)
                      organizationMembers := organizationMembers }) with
              | error e => rw [hprojects] at h; cases h
              | ok db₂ =>
                  rw [hprojects] at h
                  obtain ⟨rfl, rfl⟩ := Prod.mk.inj (Except.ok.inj h)
                  obtain ⟨projectMembers, rfl⟩ := onlyProjectMembers_of_foldlM hprojects
                  exact ⟨hinsert, rfl⟩

end Effects

/-! ## Handlers -/

/-- `createHash("sha256")`, in hex. -/
class TokenHash where
  hashToken : String → String

abbrev Procedure (α : Type) := Proc Shared Reply Failure α

open Proc

abbrev ask (w : Write) : Procedure (Reply w) := issue w

def select {α : Type} (f : Db → α) : Procedure α := query fun s ↦ f s.db

def found {α : Type} (f : Db → Option α) (e : Failure) : Procedure α :=
  check fun s ↦ (f s.db).elim (.error e) .ok

def requireUser (userId : Option Uuid) : Procedure Uuid :=
  ofExcept (userId.elim (.error (.badRequest "Authentication required")) .ok)

def workspace (userId : Option Uuid) : Procedure Workspace := do
  let uid ← requireUser userId
  match ← select (activeWorkspace uid) with
  | some active => pure active
  | none =>
      let earliest ← found (earliestWorkspace uid) (.notFound "Workspace not found")
      ask (.setActiveOrganization uid earliest.id)
      pure earliest

/-- The caller with the role they have in their workspace, and the workspace. -/
def callerIn (userId : Option Uuid) : Procedure (Caller × Uuid) := do
  let uid ← requireUser userId
  let workspace ← workspace (some uid)
  pure (⟨uid, normalizeRole workspace.role⟩, workspace.id)

/-! ### Members -/

/-- The body of `addWorkspaceMember`; `userId` is read after the blanks around it are cut. -/
structure MemberBody where
  email : Arg String
  userId : Arg IdText
  role : Arg String

/-- Who is added: the user named, or the user of the email, made when there is none. -/
def addedUser (target : Option IdText) (email : String) : Procedure Uuid :=
  match target with
  | none => ask (.upsertUser email)
  | some target => do
      let id ← ofExcept (readUuid target)
      let user ← found (fun db ↦ db.users.find id) (.notFound "User not found")
      pure user.id

def addWorkspaceMember [Unicode] (userId : Option Uuid) (body : MemberBody) : Procedure Unit := do
  let (caller, workspaceId) ← callerIn userId
  require (caller.role ≠ .qaEngineer) (.forbidden "QA Engineers cannot add team members")
  let email := Unicode.toLowerCase (jsTrim (body.email.truthy.getD ""))
  let target := body.userId.truthy
  require (email ≠ "" ∨ target.isSome) (.badRequest "email or userId is required")
  require (target.all IdText.isUuid) (.badRequest "userId is not a valid user id")
  let roleRaw := body.role.truthy.getD "qa_engineer"
  let role ← ofExcept ((parseRole roleRaw).elim
    (.error (.badRequest s!"\"{roleRaw}\" is not a role in this workspace")) .ok)
  require (role ≠ .owner) (.forbidden "The owner role cannot be granted")
  require (caller.role = .manager → role = .qaEngineer)
    (.forbidden "Managers can only add QA Engineers")
  let targetUserId ← addedUser target email
  ask (.upsertMember caller workspaceId targetUserId role)

/-- The membership row of a user there is. -/
def findMember (organizationId userId : Uuid) (db : Db) : Option OrganizationMember := do
  let m ← db.organizationMembers.find (organizationId, userId)
  let _ ← db.users.find m.userId
  pure m

def countOwners (organizationId : Uuid) (db : Db) : ℕ :=
  (db.organizationMembers.select fun m ↦
    m.organizationId = organizationId ∧ m.role = Role.owner.text).length

/-- "Protect the last owner": the count is a statement of its own, and the delete another. -/
def protectLastOwner (organizationId : Uuid) (targetMember : OrganizationMember) : Procedure Unit :=
  if targetMember.role = Role.owner.text then do
    let ownerCount ← select (countOwners organizationId)
    require (1 < ownerCount) (.badRequest "Cannot remove the last owner")
  else pure ()

def removeWorkspaceMember (userId : Option Uuid) (targetUserId : IdText) : Procedure Unit := do
  let (caller, workspaceId) ← callerIn userId
  require (targetUserId ≠ .canonical caller.uid) (.badRequest "You cannot remove yourself")
  require targetUserId.isUuid (.badRequest "userId is not a valid user id")
  let target ← ofExcept (readUuid targetUserId)
  let targetMember ← found (findMember workspaceId target) (.notFound "Member not found")
  protectLastOwner workspaceId targetMember
  require (caller.role = .owner) (.forbidden "Only the owner can remove team members")
  ask (.deleteMember caller workspaceId target)

def changeWorkspaceMemberRole (userId : Option Uuid) (targetUserId : IdText) (newRole : String) :
    Procedure Unit := do
  let (caller, workspaceId) ← callerIn userId
  require (caller.role = .owner) (.forbidden "Only the owner can change roles")
  require (targetUserId ≠ .canonical caller.uid) (.badRequest "You cannot change your own role")
  require targetUserId.isUuid (.badRequest "userId is not a valid user id")
  let target ← ofExcept (readUuid targetUserId)
  let member ← found (findMember workspaceId target) (.notFound "Member not found")
  require (normalizeRole member.role ≠ .owner) (.forbidden "Owner role cannot be changed")
  let role ← ofExcept ((parseRole newRole).elim
    (.error (.badRequest s!"\"{newRole}\" is not a role in this workspace")) .ok)
  require (role ≠ .owner) (.forbidden "Cannot promote to owner")
  ask (.setMemberRole caller workspaceId target role)

/-! ### Invitations -/

/-- Seven days, in the unit of the clock. -/
def invitationLifetime : Time := 7 * 24 * 60 * 60 * 1000

/-- The body of `createInvitation`, with the ids `filter(Boolean)` leaves. -/
structure InvitationBody where
  email : Arg String
  role : Arg String
  projectIds : List IdText

/-- `/^[^\s@]+@[^\s@]+\.[^\s@]+$/` -/
def validEmail (email : String) : Bool :=
  let local_ := email.toList.takeWhile (· ≠ '@')
  let domain := (email.toList.dropWhile (· ≠ '@')).drop 1
  local_ ≠ [] && (domain.drop 1).dropLast.contains '.' && !domain.contains '@' &&
    !email.toList.any jsSpace

def memberWithEmail (organizationId : Uuid) (lower : String → String) (email : String) (db : Db) :
    Bool :=
  db.organizationMembers.rows.any fun m ↦
    m.organizationId = organizationId && (db.users.find m.userId).any fun u ↦ lower u.email = email

def openInvitation (organizationId : Uuid) (email : String) (db : Db) : Bool :=
  db.invitations.rows.any fun i ↦
    i.organizationId = organizationId && i.email = email && i.status = "pending"

def workspaceProjects (organizationId : Uuid) (ids : List Uuid) (db : Db) : List Project :=
  db.projects.select fun p ↦
    p.id ∈ ids ∧ p.organizationId = some organizationId ∧ p.archivedAt = none

/-- `token` is the text `randomBytes` yields. -/
def createInvitation [Unicode] [TokenHash] (userId : Option Uuid) (body : InvitationBody)
    (token : String) : Procedure Unit := do
  let (caller, workspaceId) ← callerIn userId
  let email := Unicode.toLowerCase (jsTrim (body.email.truthy.getD ""))
  let role := normalizeRole (body.role.truthy.getD "qa_engineer")
  require (email ≠ "") (.badRequest "email is required")
  require (validEmail email) (.badRequest "invalid email address")
  require (caller.role ≠ .qaEngineer) (.forbidden "QA Engineers cannot invite members")
  require (role ≠ .owner) (.forbidden "Cannot invite owners directly")
  require (caller.role = .manager → role = .qaEngineer)
    (.forbidden "Managers can only invite QA Engineers")
  let existing ← select (memberWithEmail workspaceId Unicode.lower email)
  require (existing = false) (.badRequest "This user is already a team member")
  let pending ← select (openInvitation workspaceId email)
  require (pending = false)
    (.badRequest "This email already has a pending invite. You can resend the invite.")
  let projectIds ← ofExcept (body.projectIds.mapM readUuid)
  let valid ← select (workspaceProjects workspaceId projectIds)
  require (projectIds = [] ∨ valid.length = projectIds.length)
    (.badRequest "One or more project IDs are invalid")
  let now ← select Db.now
  ask (.insertInvitation caller workspaceId email role (TokenHash.hashToken token)
    (now + invitationLifetime) body.projectIds)

def findInvitation [TokenHash] (token : String) (db : Db) : Option Invitation :=
  db.invitations.rows.find? fun i ↦ i.token = TokenHash.hashToken token

def invitationOf [TokenHash] (token : String) : Procedure Invitation :=
  found (findInvitation token) (.notFound "Invitation not found or token is invalid")

/-- The same for one that can be used; one that is overdue is marked so. -/
def getInvitationRowOrThrow [TokenHash] (token : String) : Procedure Invitation := do
  let inv ← invitationOf token
  require (inv.status = "pending")
    (.badRequest s!"Invitation is {inv.status} and can no longer be used")
  let now ← select Db.now
  if inv.expiresAt < now then do
    ask (.markExpired inv.id)
    fail (.badRequest "This invitation has expired. Ask the sender to resend it.")
  else pure inv

def findInvitationById (id organizationId : Uuid) (db : Db) : Option Invitation :=
  (db.invitations.find id).filter fun i ↦ i.organizationId = organizationId

def cancelInvitation (userId : Option Uuid) (inviteId : IdText) : Procedure Unit := do
  let (caller, workspaceId) ← callerIn userId
  let id ← ofExcept (readUuid inviteId)
  let inv ← found (findInvitationById id workspaceId) (.notFound "Invitation not found")
  require (inv.status = "pending") (.badRequest "Only pending invitations can be cancelled")
  require (caller.role = .owner ∨ inv.invitedBy = some caller.uid)
    (.forbidden "You can only cancel invitations you sent")
  ask (.markCancelled inv.id)

def resendInvitation [TokenHash] (userId : Option Uuid) (inviteId : IdText)
    (token : String) : Procedure Unit := do
  let (caller, workspaceId) ← callerIn userId
  let id ← ofExcept (readUuid inviteId)
  let inv ← found (findInvitationById id workspaceId) (.notFound "Invitation not found")
  require (inv.status = "pending") (.badRequest "Only pending invitations can be resent")
  require (caller.role = .owner ∨ inv.invitedBy = some caller.uid)
    (.forbidden "You can only resend invitations you sent")
  let now ← select Db.now
  ask (.renewToken inv.id (TokenHash.hashToken token) (now + invitationLifetime))

def listInvitations (userId : Option Uuid) : Procedure Unit := do
  let (_, workspaceId) ← callerIn userId
  ask (.markOverdue workspaceId)

def getInvitationByToken [TokenHash] (token : String) : Procedure Unit := do
  let inv ← invitationOf token
  let now ← select Db.now
  if inv.status = "pending" ∧ inv.expiresAt < now then ask (.markExpired inv.id)
  else pure ()

/-- The refusals `acceptInvitation` and `declineInvitation` share, in the words of each. -/
structure Refusals where
  cancelled : String
  declined : String
  accepted : String
  email : String

/-- The invitation as one statement reads it, when it is open and the caller's. -/
def answeredInvitation [Unicode] [TokenHash] (uid : Uuid) (token : String) (refusals : Refusals) :
    Procedure Invitation := do
  let inv ← invitationOf token
  require (inv.status ≠ "cancelled") (.badRequest refusals.cancelled)
  require (inv.status ≠ "declined") (.badRequest refusals.declined)
  require (inv.status ≠ "accepted") (.badRequest refusals.accepted)
  let now ← select Db.now
  require (¬ (inv.status = "expired" ∨ inv.expiresAt < now))
    (.badRequest "This invitation has expired. Ask the sender to resend it.")
  let user ← found (fun db ↦ db.users.find uid) (.notFound "User not found")
  require (Unicode.toLowerCase user.email = Unicode.toLowerCase inv.email)
    (.forbidden refusals.email)
  pure inv

def acceptInvitation [Unicode] [TokenHash] (userId : Option Uuid) (token : String) :
    Procedure Unit := do
  let uid ← requireUser userId
  let inv ← answeredInvitation uid token
    { cancelled := "This invitation has been cancelled"
      declined := "This invitation was declined. Ask the sender to send a new one."
      accepted := "This invitation has already been accepted"
      email := "You must sign in with the invited email address to accept this invite" }
  ask (.commitAccept inv uid)

def declineInvitation [Unicode] [TokenHash] (userId : Option Uuid) (token : String) :
    Procedure Unit := do
  let uid ← requireUser userId
  let inv ← answeredInvitation uid token
    { cancelled := "This invitation has been cancelled"
      declined := "This invitation was already declined"
      accepted := "This invitation has already been accepted"
      email := "You must sign in with the invited email address to decline this invite" }
  let hit ← ask (.markDeclined inv.id)
  require (hit = true) (.badRequest "This invitation can no longer be declined")

/-- `credentials` is what the checks of the name and of the password answer. -/
def registerFromInvitation [TokenHash] (token : String) (credentials : Except Failure Unit) :
    Procedure Unit := do
  let inv ← getInvitationRowOrThrow token
  ofExcept credentials
  let existingUser ← select (findUserByEmail inv.email)
  require (existingUser.isNone) (.badRequest
    "An account with this email already exists. Please sign in and accept the invite.")
  let _ ← ask (.commitRegister inv)
  pure ()

/-! ## Calls in any interleaving -/

inductive Call where
  | addWorkspaceMember (userId : Option Uuid) (body : MemberBody)
  | removeWorkspaceMember (userId : Option Uuid) (targetUserId : IdText)
  | changeWorkspaceMemberRole (userId : Option Uuid) (targetUserId : IdText) (newRole : String)
  | createInvitation (userId : Option Uuid) (body : InvitationBody) (token : String)
  | cancelInvitation (userId : Option Uuid) (inviteId : IdText)
  | resendInvitation (userId : Option Uuid) (inviteId : IdText) (token : String)
  | listInvitations (userId : Option Uuid)
  | getInvitationByToken (token : String)
  | acceptInvitation (userId : Option Uuid) (token : String)
  | declineInvitation (userId : Option Uuid) (token : String)
  | registerFromInvitation (token : String) (credentials : Except Failure Unit)
  | elapse (time : Time)

section Machine

variable [Unicode] [TokenHash]

def enter : Call → Procedure Unit
  | .addWorkspaceMember userId body => addWorkspaceMember userId body
  | .removeWorkspaceMember userId targetUserId => removeWorkspaceMember userId targetUserId
  | .changeWorkspaceMemberRole userId targetUserId newRole =>
      changeWorkspaceMemberRole userId targetUserId newRole
  | .createInvitation userId body token => createInvitation userId body token
  | .cancelInvitation userId inviteId => cancelInvitation userId inviteId
  | .resendInvitation userId inviteId token => resendInvitation userId inviteId token
  | .listInvitations userId => listInvitations userId
  | .getInvitationByToken token => getInvitationByToken token
  | .acceptInvitation userId token => acceptInvitation userId token
  | .declineInvitation userId token => declineInvitation userId token
  | .registerFromInvitation token credentials => registerFromInvitation token credentials
  | .elapse time => ask (.elapse time)

abbrev Run := Config Shared (Procedure Unit)

def step (c : Run) (m : Move Call) : Run := c.move enter (fun _ ↦ Proc.exec perform) m

/-- A move does nothing to the shared state, or what its write does. -/
theorem step_cases (c : Run) (m : Move Call) :
    (moving c m = none ∧ (step c m).shared = c.shared) ∨
      ∃ w, moving c m = some w ∧ (step c m).shared = Service.after (perform w) c.shared :=
  move_cases c m

end Machine

/-! ## A workspace -/

/-- Tokens that are stored as they are. -/
@[reducible] def plainHash : TokenHash := ⟨id⟩

/-- A workspace with an owner, a manager and a QA engineer, and a user who is invited to it. -/
def office : Db :=
  { Db.empty with
    users := ⟨[⟨1, "owner@x.io", some 10⟩, ⟨2, "manager@x.io", some 10⟩, ⟨3, "qa@x.io", some 10⟩,
      ⟨4, "new@x.io", none⟩], by decide⟩
    organizations := .singleton ⟨10, 0⟩
    organizationMembers := ⟨[⟨10, 1, "owner"⟩, ⟨10, 2, "manager"⟩, ⟨10, 3, "qa_engineer"⟩],
      by decide⟩
    invitations := ⟨[⟨50, 10, "new@x.io", "qa_engineer", "t", some 1, "pending", 100, none, none,
      []⟩], by decide⟩ }

end Tesbo.Team
