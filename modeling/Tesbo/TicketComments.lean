import Tesbo.AccessSteps
import Tesbo.Text
import Tesbo.Reasoning.Assoc
import Tesbo.Reasoning.Phases

/-!
# Comments on tickets

A save of drafts comments on each ticket its test cases belong to.  The comment is claimed as a row
of `integration_ticket_comments`, posted to the provider, and the row told of the outcome: three
statements, each of which may fail.  The wording of a comment is `TicketText`; the log of the task
and the labels of pages are left out, since no failure of theirs is passed on.
-/

namespace Tesbo.TicketComments

open Reasoning

inductive Provider where
  | jira
  | linear
  | notion
deriving DecidableEq, Repr

namespace Provider

def text : Provider → String
  | jira => "jira"
  | linear => "linear"
  | notion => "notion"

def label : Provider → String
  | jira => "Jira"
  | linear => "Linear"
  | notion => "Notion"

end Provider

/-- What a save did to a test case. -/
inductive Action where
  | add
  | update
  | archive
deriving DecidableEq, Repr

inductive Status where
  | pending
  | posted
  | failed
  | skippedDisabled
  | skippedNotConnected
deriving DecidableEq, Repr

def Status.text : Status → String
  | pending => "pending"
  | posted => "posted"
  | failed => "failed"
  | skippedDisabled => "skipped_disabled"
  | skippedNotConnected => "skipped_not_connected"

/-- The columns of the `UNIQUE` constraint: a save of a task, and a ticket. -/
structure TicketKey where
  generationRequestId : Uuid
  saveEventId : Uuid
  provider : Provider
  issueKey : String
deriving DecidableEq, Repr

structure TicketComment where
  id : Uuid
  projectId : Uuid
  key : TicketKey
  testcaseIds : List Uuid
  status : Status
  commentText : String
  reason : Option String
  remoteCommentId : Option String
  postedBy : Uuid
  postedAt : Option Time
  updatedAt : Time
deriving DecidableEq, Repr

/-- A comment that is ready to go: its text, and how many requests it takes beyond the first. -/
structure Content where
  markdown : String
  more : ℕ
deriving DecidableEq, Repr

/-- A delivery runs on its own once it is begun. -/
structure Delivery where
  projectId : Uuid
  claimId : Uuid
  provider : Provider
  issueKey : String
  content : Content
deriving DecidableEq, Repr

/-- Why a statement or a request failed; `providerStatus` is that of the provider's answer. -/
structure Fault where
  providerStatus : Option ℕ
  error : String
deriving DecidableEq, Repr

/-- `outcomes` are those of the statements and requests to come, a request's with the id of the
comment.  `posts` are the comments the providers have accepted, by their claims; `unrecorded` are the
claims whose delivery has had its request accepted and not yet come to its next statement.  No
handler reads the two. -/
structure Shared where
  db : Db
  comments : Table TicketComment.id
  autoComment : Uuid → Provider → Bool
  connected : Uuid → Provider → Bool
  outbox : List Delivery
  outcomes : ℕ → Except Fault (Option String)
  posts : List Uuid
  unrecorded : List Uuid

/-! ## Statements -/

inductive Write where
  | setActiveOrganization (uid organizationId : Uuid)
  /-- Whether a read goes through; what it reads is read next. -/
  | reach
  | claim (projectId : Uuid) (key : TicketKey) (testcaseIds : List Uuid) (status : Status)
      (commentText : String) (postedBy : Uuid)
  | reclaim (id projectId generationRequestId postedBy : Uuid)
  | setCommentText (id : Uuid) (commentText : String)
  | post (claimId : Uuid) (index : ℕ)
  | markPosted (id : Uuid) (remoteCommentId : Option String)
  | markFailed (id : Uuid) (reason : String)
  /-- A delivery is begun; no one waits for it. -/
  | spawn (delivery : Delivery)
  /-- The delivery of this place in the queue of the runtime is taken out of it. -/
  | take (place : ℕ)
  | elapse (time : Time)

/-- What a statement answers with; its failure is an answer. -/
@[reducible] def Reply : Write → Type
  | .reach | .setCommentText _ _ | .markPosted _ _ | .markFailed _ _ => Except Fault Unit
  | .claim _ _ _ _ _ _ => Except Fault (Option Uuid)
  | .reclaim _ _ _ _ => Except Fault (Option TicketComment)
  | .post _ _ => Except Fault (Option String)
  | .take _ => Option Delivery
  | _ => Unit

def Shared.next (s : Shared) : Shared := { s with outcomes := fun n ↦ s.outcomes (n + 1) }

/-- The statement may fail, and leaves the state as it was then. -/
def attempt {α : Type} (f : Option String → Shared → α × Shared) :
    Service Failure Shared (Except Fault α) := fun s ↦
  match s.outcomes 0 with
  | .error e => (.ok (.error e), s.next)
  | .ok id => (.ok (.ok (f id s.next).1), (f id s.next).2)

def setComments (p : TicketComment → Bool) (f : TicketComment → TicketComment)
    (hf : ∀ r, (f r).id = r.id) (s : Shared) : Shared :=
  { s with comments := s.comments.updateWhere p f hf }

/-- `INSERT … ON CONFLICT (generation_request_id, save_event_id, provider, issue_key) DO NOTHING
RETURNING id` -/
def claim (projectId : Uuid) (key : TicketKey) (testcaseIds : List Uuid) (status : Status)
    (commentText : String) (postedBy : Uuid) (s : Shared) : Option Uuid × Shared :=
  if ∃ r ∈ s.comments, r.key = key then (none, s)
  else
    let id := s.db.uuids 0
    match s.comments.insert ⟨id, projectId, key, testcaseIds, status, commentText, none, none,
      postedBy, none, s.db.now⟩ with
    | none => (none, s)
    | some comments => (some id, { s with
        db := { s.db with uuids := fun n ↦ s.db.uuids (n + 1) }, comments := comments })

def retryable (id projectId generationRequestId : Uuid) (r : TicketComment) : Bool :=
  r.id = id ∧ r.projectId = projectId ∧ r.key.generationRequestId = generationRequestId ∧
    r.status = .failed

def reclaimed (postedBy : Uuid) (now : Time) (r : TicketComment) : TicketComment :=
  { r with status := .pending, reason := none, postedBy := postedBy, updatedAt := now }

/-- `UPDATE … SET status = 'pending' … WHERE … status = 'failed' RETURNING *` -/
def reclaim (id projectId generationRequestId postedBy : Uuid) (s : Shared) :
    Option TicketComment × Shared :=
  ((s.comments.rows.find? (retryable id projectId generationRequestId)).map
      (reclaimed postedBy s.db.now),
    setComments (retryable id projectId generationRequestId) (reclaimed postedBy s.db.now)
      (fun _ ↦ rfl) s)

def setCommentText (id : Uuid) (commentText : String) : Shared → Shared :=
  setComments (fun r ↦ r.id = id) (fun r ↦ { r with commentText := commentText }) fun _ ↦ rfl

def markPosted (id : Uuid) (remoteCommentId : Option String) (s : Shared) : Shared :=
  setComments (fun r ↦ r.id = id)
    (fun r ↦ { r with
      status := .posted, remoteCommentId := remoteCommentId, postedAt := some s.db.now,
      updatedAt := s.db.now }) (fun _ ↦ rfl) s

def markFailed (id : Uuid) (reason : String) (s : Shared) : Shared :=
  setComments (fun r ↦ r.id = id)
    (fun r ↦ { r with status := .failed, reason := some reason, updatedAt := s.db.now })
    (fun _ ↦ rfl) s

def post (claimId : Uuid) (s : Shared) : Shared :=
  { s with posts := claimId :: s.posts, unrecorded := claimId :: s.unrecorded }

/-- The delivery comes to the statement after its requests. -/
def settle (id : Uuid) (s : Shared) : Shared :=
  { s with unrecorded := s.unrecorded.filter (· ≠ id) }

def take (place : ℕ) (s : Shared) : Option Delivery × Shared :=
  (s.outbox[place]?, { s with outbox := s.outbox.eraseIdx place })

open Service in
def perform : (w : Write) → Service Failure Shared (Reply w)
  | .setActiveOrganization uid organizationId =>
      write fun s ↦ { s with db := setActiveOrganization uid organizationId s.db }
  | .reach => attempt fun _ s ↦ ((), s)
  | .claim projectId key testcaseIds status commentText postedBy =>
      attempt fun _ ↦ claim projectId key testcaseIds status commentText postedBy
  | .reclaim id projectId generationRequestId postedBy =>
      attempt fun _ ↦ reclaim id projectId generationRequestId postedBy
  | .setCommentText id commentText => attempt fun _ s ↦ ((), setCommentText id commentText s)
  | .post claimId _ => attempt fun id s ↦ (id, post claimId s)
  | .markPosted id remoteCommentId => do
      write (settle id)
      attempt fun _ s ↦ ((), markPosted id remoteCommentId s)
  | .markFailed id reason => do
      write (settle id)
      attempt fun _ s ↦ ((), markFailed id reason s)
  | .spawn delivery => write fun s ↦ { s with outbox := s.outbox ++ [delivery] }
  | .take place => returning fun s ↦ .ok (take place s)
  | .elapse time => write fun s ↦ { s with db := { s.db with now := s.db.now + time } }

instance : Steps.Backed Shared Reply where
  db s := s.db
  repair uid organizationId := .setActiveOrganization uid organizationId

/-! ## Procedures -/

abbrev Procedure (α : Type) := Proc Shared Reply Failure α

open Proc

abbrev ask (w : Write) : Procedure (Reply w) := issue w

def Fault.failure (e : Fault) : Failure := .sqlState "" e.error

/-- What a caller that catches nothing makes of an answer. -/
def thrown {α : Type} (r : Except Fault α) : Except Failure α :=
  match r with
  | .ok a => .ok a
  | .error e => .error e.failure

/-- A read that may fail. -/
def reading {α : Type} (f : Shared → α) : Procedure (Except Fault α) := do
  let reached ← ask .reach
  match reached with
  | .error e => pure (.error e)
  | .ok _ => do
      let a ← query f
      pure (.ok a)

/-! ### The tickets of a save -/

/-- A test case a save wrote, with the tickets it is linked to. -/
structure SavedRow where
  id : Option Uuid
  jiraIssueKey : Option String
  linearIssueKey : Option String
  notionPageId : Option String
deriving DecidableEq, Repr

def SavedRow.linked (row : SavedRow) : Provider → String
  | .jira => jsTrim (row.jiraIssueKey.getD "")
  | .linear => jsTrim (row.linearIssueKey.getD "")
  | .notion => jsTrim (row.notionPageId.getD "")

abbrev Entry := Uuid × Action

abbrev Groups := Assoc (Provider × String) (List Entry)

/-- A test case is listed once a ticket, with its last action. -/
def addToGroup (id : Uuid) (action : Action) (row : SavedRow) (groups : Groups)
    (provider : Provider) : Groups :=
  let issueKey := row.linked provider
  if issueKey = "" then groups
  else
    let entries := ((groups.get (provider, issueKey)).getD []).filter fun e ↦ e.1 ≠ id
    groups.set (provider, issueKey) (entries ++ [(id, action)])

def zyraTicketCommentGroups (rows : List SavedRow) (actions : List Action) : Groups :=
  (rows.zip actions).foldl
    (fun groups r ↦ match r.1.id with
      | none => groups
      | some id => [.jira, .linear, .notion].foldl (addToGroup id r.2 r.1) groups) []

/-- The wording of a comment, and how many requests the provider wants it in. -/
class TicketText where
  zyraTicketCommentContent : (projectId : Uuid) → Provider → (issueKey : String) → List Entry →
    Content
  /-- The same from the rows as they are now, with the actions read back from the text before. -/
  rebuild : TicketComment → List Testcase → Content

/-! ### Posting -/

def integrationErrorReason (e : Fault) (provider : Provider) (issueKey : String) : String :=
  let label := provider.label
  let issue := if issueKey = "" then "this issue" else issueKey
  if provider = .notion ∧ e.providerStatus = some 403 then e.error
  else if e.providerStatus = some 401
  then s!"{label} rejected the connection's credentials (401) — the authorization has expired or " ++
    s!"been revoked. Reconnect {label} in workspace settings, then retry."
  else if e.providerStatus = some 403
  then s!"{label} refused the comment (403) — the connected {label} account doesn't have " ++
    "permission to comment on this issue. Give that account comment permission in the " ++
    s!"{label} project, or reconnect with an account that has it, then retry."
  else if provider = .jira ∧ e.providerStatus = some 404
  then s!"Jira could not find {issue} (404) — it does not exist on the connected Jira site, or " ++
    "the connected account cannot see it. If Jira was reconnected to a different site, link a " ++
    "ticket from the new site; otherwise give the connected account access to the project, then " ++
    "retry."
  else e.error

/-- The requests of one comment, in order; the id kept is that of the first.  A renewal of rejected
credentials and the request that follows it are one request here. -/
def postRequests (claimId : Uuid) (index : ℕ) (first : Option String) :
    ℕ → Procedure (Except Fault (Option String))
  | 0 => pure (.ok first)
  | n + 1 => do
      let created ← ask (.post claimId index)
      match created with
      | .error e => pure (.error e)
      | .ok id => postRequests claimId (index + 1) (first.or id) n

def postComment (d : Delivery) : Procedure (Except Fault (Option String)) := do
  let connected ← reading fun s ↦ s.connected d.projectId d.provider
  match connected with
  | .error e => pure (.error e)
  | .ok connected =>
      if connected then postRequests d.claimId 0 none (d.content.more + 1)
      else pure (.error ⟨none, s!"{d.provider.label} is not connected."⟩)

def recordFailure (d : Delivery) (e : Fault) : Procedure Unit := do
  let _ ← ask (.markFailed d.claimId
    (jsSlice 2000 (integrationErrorReason e d.provider d.issueKey)))
  pure ()

/-- The handler of the failures covers the statement after the request as well. -/
def deliverZyraTicketComment (d : Delivery) : Procedure Unit := do
  let sent ← postComment d
  match sent with
  | .error e => recordFailure d e
  | .ok remoteId => do
      let recorded ← ask (.markPosted d.claimId remoteId)
      match recorded with
      | .error e => recordFailure d e
      | .ok _ => pure ()

/-! ### After a save -/

def getProject (projectId : Uuid) (s : Shared) : Option Project :=
  (s.db.projects.find projectId).filter fun p ↦ p.archivedAt = none

abbrev Connected := Assoc Provider Bool

/-- A provider that is wanted is asked about once a save. -/
def checkConnected (projectId : Uuid) (enabled : Bool) (connected : Connected)
    (provider : Provider) : Procedure (Except Fault Connected) :=
  if enabled ∧ !connected.has provider then do
    let answer ← reading fun s ↦ s.connected projectId provider
    pure (answer.map fun b ↦ connected.set provider b)
  else pure (.ok connected)

def commentStatus (enabled : Bool) (connected : Connected) (provider : Provider) : Status :=
  if !enabled then .skippedDisabled
  else if (connected.get provider).getD false then .pending
  else .skippedNotConnected

/-- One ticket; a failure is this ticket's alone. -/
def queueTicket [TicketText] (projectId uid taskId saveEventId : Uuid) (settings : Provider → Bool)
    (connected : Connected) (group : (Provider × String) × List Entry) : Procedure Connected := do
  let ((provider, issueKey), entries) := group
  let enabled := settings provider
  let checked ← checkConnected projectId enabled connected provider
  match checked with
  | .error _ => pure connected
  | .ok connected => do
      let status := commentStatus enabled connected provider
      let content := TicketText.zyraTicketCommentContent projectId provider issueKey entries
      let claimed ← ask (.claim projectId ⟨taskId, saveEventId, provider, issueKey⟩
        (entries.map Prod.fst) status content.markdown uid)
      match claimed with
      | .ok (some claimId) =>
          if status = .pending then do
            ask (.spawn ⟨projectId, claimId, provider, issueKey, content⟩)
            pure connected
          else pure connected
      | _ => pure connected

def queueTickets [TicketText] (projectId uid taskId saveEventId : Uuid) (settings : Provider → Bool) :
    Connected → Groups → Procedure Unit
  | _, [] => pure ()
  | connected, group :: groups => do
      let connected ← queueTicket projectId uid taskId saveEventId settings connected group
      queueTickets projectId uid taskId saveEventId settings connected groups

/-- Never fails: a comment is a side effect of a save that has already succeeded. -/
def queueZyraTicketComments [TicketText] (projectId uid taskId saveEventId : Uuid)
    (rows : List SavedRow) (actions : List Action) : Procedure Unit := do
  let groups := zyraTicketCommentGroups rows actions
  if groups = [] then pure ()
  else do
    let project ← reading fun s ↦ (getProject projectId s).map fun p ↦ s.autoComment p.id
    match project with
    | .ok (some settings) => queueTickets projectId uid taskId saveEventId settings [] groups
    | _ => pure ()

/-- A delivery that was begun, when there is one at the place. -/
def deliverNext (place : ℕ) : Procedure Unit := do
  let taken ← ask (.take place)
  match taken with
  | none => pure ()
  | some delivery => deliverZyraTicketComment delivery

/-! ### Retrying -/

def currentTestcases (r : TicketComment) (s : Shared) : List Testcase :=
  s.db.testcases.select fun tc ↦
    tc.projectId = r.projectId ∧ tc.id ∈ r.testcaseIds ∧ tc.deletedAt = none

def statusOf (id projectId generationRequestId : Uuid) (s : Shared) : Option Status :=
  ((s.comments.find id).filter fun r ↦
    r.projectId = projectId ∧ r.key.generationRequestId = generationRequestId).map
      TicketComment.status

def nothingLeft : String :=
  "None of the test cases in this comment exist anymore, so there is nothing to post."

/-- Why nothing could be claimed. -/
def refuseRetry (id projectId generationRequestId : Uuid) : Procedure Unit := do
  let existing ← reading (statusOf id projectId generationRequestId)
  let existing ← ofExcept (thrown existing)
  match existing with
  | none => fail (.notFound "Ticket comment not found")
  | some status =>
      fail (.conflict
        s!"This comment is \"{status.text}\" — only a failed comment can be retried.")

/-- A comment that has been claimed again. -/
def resend [TicketText] (row : TicketComment) : Procedure Unit := do
  let testcases ← reading (currentTestcases row)
  let testcases ← ofExcept (thrown testcases)
  if testcases = [] then do
    let marked ← ask (.markFailed row.id nothingLeft)
    ofExcept (thrown marked)
  else do
    let content := TicketText.rebuild row testcases
    let saved ← ask (.setCommentText row.id content.markdown)
    ofExcept (thrown saved)
    deliverZyraTicketComment ⟨row.projectId, row.id, row.key.provider, row.key.issueKey, content⟩

def zyraRetryTicketComment [TicketText] (userId : Option Uuid)
    (projectId taskId commentId : IdText) : Procedure Unit := do
  let uid ← Steps.requireUser userId
  let access ← Steps.requireProjectAccess (some uid) projectId
  require (taskId.isUuid ∧ commentId.isUuid) (.notFound "Ticket comment not found")
  let taskId ← ofExcept (readUuid taskId)
  let commentId ← ofExcept (readUuid commentId)
  let claimed ← ask (.reclaim commentId access.project.id taskId uid)
  let claimed ← ofExcept (thrown claimed)
  match claimed with
  | none => refuseRetry commentId access.project.id taskId
  | some row => do
      resend row
      let fresh ← reading fun s ↦ s.comments.find row.id
      let _ ← ofExcept (thrown fresh)
      pure ()

end Tesbo.TicketComments
