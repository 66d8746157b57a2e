import Tesbo.DueDates
import Tesbo.Executions
import Tesbo.ExternalIds
import Tesbo.Reasoning.Assoc

/-!
# Bugs and what they are linked to

Creating and updating a bug, and adding or removing one of its links.  A link names a test case, a
run or both, and the result there; linking a bug to a result marks the result as failed.
-/

namespace Tesbo

open Reasoning Service

/-! ## Links -/

structure LinkBody where
  testcaseId : Arg IdText
  cycleId : Arg IdText
  executionId : Arg IdText

structure LinkTarget where
  testcaseId : Option Uuid
  cycleId : Option Uuid
  executionId : Option Uuid
deriving DecidableEq, Repr

/-- Links of one bug are told apart by their test case and run. -/
def LinkTarget.key (t : LinkTarget) : Option Uuid × Option Uuid := (t.testcaseId, t.cycleId)

def BugLink.target (l : BugLink) : LinkTarget := ⟨l.testcaseId, l.cycleId, l.executionId⟩

def validTestcase (projectId : Uuid) (db : Db) (id : Uuid) : Bool :=
  (db.testcases.find id).any fun t ↦ t.projectId = projectId && t.live

def validCycle (projectId : Uuid) (db : Db) (id : Uuid) : Bool :=
  (db.cycles.find id).any fun c ↦ c.projectId = projectId && c.live

def validExecution (projectId : Uuid) (db : Db) (id : Uuid) : Bool :=
  (db.executions.find id).any fun e ↦
    e.live && (e.cycle db).any fun c ↦ c.projectId = projectId

/-- An id is compared as a text with the ids that were found: one in capitals is dropped. -/
def keepId (valid : Uuid → Bool) : Arg IdText → Option Uuid
  | .value (.canonical id) => if valid id then some id else none
  | _ => none

/-- The links to something live in the project, without what cannot be resolved. -/
def sanitizeBugLinks (projectId : Uuid) (links : List LinkBody) (db : Db) : List LinkTarget :=
  (links.map fun l ↦
    { testcaseId := keepId (validTestcase projectId db) l.testcaseId
      cycleId := keepId (validCycle projectId db) l.cycleId
      executionId := keepId (validExecution projectId db) l.executionId }).filter fun t ↦
    t.testcaseId.isSome || t.cycleId.isSome || t.executionId.isSome

def linkReferences (bugId : Uuid) (t : LinkTarget) (db : Db) : Except Failure Unit := do
  references (db.bugs.find bugId) "bug_links_bug_id_fkey"
  references? t.testcaseId db.testcases.find "bug_links_testcase_id_fkey"
  references? t.cycleId db.cycles.find "bug_links_cycle_id_fkey"
  references? t.executionId db.executions.find "bug_links_execution_id_fkey"

/-- A live link of the bug with the key, as the unique index compares: `NULL` is not `NULL`. -/
def indexConflict (bugId : Uuid) (t : LinkTarget) (db : Db) : Prop :=
  ∃ l ∈ db.bugLinks, l.bugId = bugId ∧ l.live = true ∧ l.target.key = t.key ∧
    t.testcaseId.isSome = true ∧ t.cycleId.isSome = true

instance (bugId : Uuid) (t : LinkTarget) (db : Db) : Decidable (indexConflict bugId t db) :=
  inferInstanceAs (Decidable (∃ l ∈ db.bugLinks, _ ∧ _))

/-- `INSERT … ON CONFLICT … DO NOTHING`. -/
def insertBugLink (bugId : Uuid) (t : LinkTarget) (id : Uuid) (db : Db) : Except Failure Db :=
  if indexConflict bugId t db then .ok db
  else do
    linkReferences bugId t db
    match db.bugLinks.insert ⟨id, bugId, t.testcaseId, t.cycleId, t.executionId, none, none⟩ with
    | none => .error (.unique "bug_links_pkey")
    | some bugLinks => .ok { db with bugLinks := bugLinks }

def setLinkExecution (id : Uuid) (executionId : Option Uuid) (db : Db) : Except Failure Db := do
  references? executionId db.executions.find "bug_links_execution_id_fkey"
  .ok { db with
    bugLinks := db.bugLinks.updateWhere (fun l ↦ l.id = id)
      (fun l ↦ { l with executionId := executionId }) fun _ ↦ rfl }

def deleteLinks (ids : List Uuid) (uid : Option Uuid) (db : Db) : Db :=
  { db with
    bugLinks := db.bugLinks.updateWhere (fun l ↦ l.id ∈ ids ∧ l.live)
      (fun l ↦ { l with deletedAt := some db.now, deletedBy := uid }) fun _ ↦ rfl }

def liveLinks (bugId : Uuid) (db : Db) : List BugLink :=
  db.bugLinks.select fun l ↦ l.bugId = bugId && l.live

/-- One of the links a bug is to have: the one that is there, or a new one. -/
def placeLink (bugId : Uuid) (existing : Assoc (Option Uuid × Option Uuid) BugLink)
    (t : LinkTarget) : Handler Unit :=
  match existing.get t.key with
  | some l =>
      if t.executionId ≠ l.executionId then exec (setLinkExecution l.id t.executionId) else pure ()
  | none => do
      let id ← genUuid
      exec (insertBugLink bugId t id)

/-- The live links of the bug become `links`; one that stays keeps its row. -/
def replaceBugLinks (bugId : Uuid) (uid : Option Uuid) (links : List LinkTarget) :
    Handler Unit := do
  let desired := Assoc.ofList (links.map fun t ↦ (t.key, t))
  let existing ← query (liveLinks bugId)
  let stale := existing.filter fun l ↦ !desired.has l.target.key
  write (deleteLinks (stale.map BugLink.id) uid)
  forEach (fun e ↦ placeLink bugId (Assoc.ofList (existing.map fun l ↦ (l.target.key, l))) e.2)
    desired

/-! ## A bug as it is shown -/

structure BugLinkView where
  id : Uuid
  testcaseId : Option Uuid
  testcaseTitle : Option String
  testcaseExternalId : Option String
  cycleId : Option Uuid
  cycleName : Option String
  executionId : Option Uuid

structure BugView where
  bug : Bug
  links : List BugLinkView

/-- A deleted run is shown as one. -/
def Cycle.shownName (c : Cycle) : String := if c.live then c.name else c.name ++ " (deleted)"

def BugLink.view (db : Db) (l : BugLink) : BugLinkView :=
  let testcase := l.testcaseId.bind db.testcases.find
  let cycle := l.cycleId.bind db.cycles.find
  { id := l.id
    testcaseId := l.testcaseId
    testcaseTitle := testcase.bind fun t ↦ t.text .title
    testcaseExternalId := testcase.map Testcase.externalId
    cycleId := l.cycleId
    cycleName := cycle.map Cycle.shownName
    executionId := l.executionId }

def bugView (bugId : Uuid) (db : Db) : Option BugView := do
  let bug ← (db.bugs.find bugId).filter Bug.live
  pure ⟨bug, (liveLinks bugId db).map (BugLink.view db)⟩

def getBug (bugId : Uuid) : Handler BugView :=
  check fun db ↦ (bugView bugId db).elim (.error (.notFound "Bug not found")) .ok

/-- The project of a live bug the caller may reach. -/
def requireBugAccess (userId : Option Uuid) (bugId : IdText) : Handler Uuid := do
  let uid ← requireUser userId
  require (bugId.isUuid = true) (.notFound "Bug not found")
  let id ← castUuid bugId
  let bug ← check fun db ↦
    ((db.bugs.find id).filter Bug.live).elim (.error (.notFound "Bug not found")) .ok
  let _ ← requireProjectAccess (some uid) (.canonical bug.projectId)
  pure bug.projectId

/-! ## The fields of a bug -/

structure BugBody where
  text : BugColumn → Arg String
  assigneeId : Arg IdText
  dueDate : DateArg
  links : Option (List LinkBody)

def bugSeverities : List String := ["Critical", "High", "Medium", "Low"]
def bugPriorities : List String := ["P0", "P1", "P2", "P3"]
def bugTitleMaxLength : ℕ := 512
def bugExternalUrlMaxLength : ℕ := 1024

/-- One of the choices, in any letter case; an absent, null or empty field chooses none. -/
def parseChoice [Unicode] (choices : List String) (field : String) (value : Arg String) :
    Except Failure (Option String) :=
  match value.truthy with
  | none => .ok none
  | some text =>
      match choices.find? fun c ↦ Unicode.toLowerCase c = Unicode.toLowerCase (jsTrim text) with
      | some choice => .ok (some choice)
      | none => .error (.invalidField s!"{field} must be one of {commaList choices}" field)

def parseBugPriority [Unicode] (value : Arg String) : Except Failure (Option String) :=
  parseChoice bugPriorities "priority" value

def parseBugSeverity [Unicode] (value : Arg String) : Except Failure (Option String) :=
  parseChoice bugSeverities "severity" value

def parseBugDueDate (value : DateArg) : Except Failure (Option Day) :=
  parseDay value "dueDate" "dueDate"

/-- The day before today in UTC, by the time of the database. -/
class UtcCalendar where
  yesterday : Time → Day

def newYear : Day := ⟨2024, 1, 1, by decide⟩

def assertBugDueDateNotInPast [UtcCalendar] (dueDate : Option Day) (now : Time) :
    Except Failure Unit :=
  if ∃ due ∈ dueDate, due < UtcCalendar.yesterday now
  then .error (.invalidField "dueDate cannot be earlier than today" "dueDate")
  else .ok ()

def BugColumn.width : BugColumn → Option ℕ
  | title => some 512
  | description => none
  | externalUrl | betterbugsUrl => some 1024
  | status => some 32
  | severity | integrationProvider => some 16
  | priority => some 8
  | integrationIssueKey => some 64

def storeBugText (c : BugColumn) (value : Option String) : Except Failure (Option String) :=
  match c.width with
  | none => .ok value
  | some width => varchar? width value

/-- The columns as they are stored, or the first that does not fit. -/
def storeBugTexts (text : BugColumn → Option String) : Except Failure (BugColumn → Option String) := do
  let title ← storeBugText .title (text .title)
  let externalUrl ← storeBugText .externalUrl (text .externalUrl)
  let status ← storeBugText .status (text .status)
  let severity ← storeBugText .severity (text .severity)
  let priority ← storeBugText .priority (text .priority)
  let integrationProvider ← storeBugText .integrationProvider (text .integrationProvider)
  let integrationIssueKey ← storeBugText .integrationIssueKey (text .integrationIssueKey)
  let betterbugsUrl ← storeBugText .betterbugsUrl (text .betterbugsUrl)
  .ok fun
    | .title => title
    | .description => text .description
    | .externalUrl => externalUrl
    | .status => status
    | .severity => severity
    | .priority => priority
    | .integrationProvider => integrationProvider
    | .integrationIssueKey => integrationIssueKey
    | .betterbugsUrl => betterbugsUrl

/-! ## External ids -/

def bugExternalIdOf (key : String) (n : ℕ) : String := key ++ "-BUG-" ++ toString n

/-- The bugs of the project, deleted ones included, whose id is under the prefix. -/
def bugIdsUnderPrefix (projectId : Uuid) (key : String) (db : Db) : List String :=
  (db.bugs.select fun b ↦
    b.projectId = projectId && (key ++ "-BUG-").toList.isPrefixOf b.externalId.toList).map
    Bug.externalId

def nextBugExternalId [Unicode] (projectId : Uuid) : Handler String := do
  let key ← externalIdPrefix projectId none
  let n ← check fun db ↦ maxTrailingNumber (bugIdsUnderPrefix projectId key db)
  pure (bugExternalIdOf key (n + 1))

/-! ## Handlers -/

section Handlers

variable [Unicode] [UtcCalendar]

/-- What a new bug is stored with. -/
structure NewBug where
  projectId : Uuid
  text : BugColumn → Option String
  reportedBy : Option Uuid
  assigneeId : Option Uuid
  dueDate : Option Day
  links : List LinkTarget

def NewBug.row (new : NewBug) (id : Uuid) (externalId : String) (text : BugColumn → Option String)
    (now : Time) : Bug where
  id := id
  projectId := new.projectId
  externalId := externalId
  testcaseId := new.links.head?.bind LinkTarget.testcaseId
  cycleId := new.links.head?.bind LinkTarget.cycleId
  executionId := new.links.head?.bind LinkTarget.executionId
  text := text
  reportedBy := new.reportedBy
  assigneeId := new.assigneeId
  dueDate := new.dueDate
  updatedAt := now
  deletedAt := none

/-- `INSERT INTO bugs`. -/
def storeBug (new : NewBug) (id : Uuid) (externalId : String) (db : Db) : Except Failure Db := do
  let externalId ← varchar 32 externalId
  let text ← storeBugTexts new.text
  references (db.projects.find new.projectId) "bugs_project_id_fkey"
  references? new.reportedBy db.users.find "bugs_reported_by_fkey"
  (if ∃ b ∈ db.bugs, b.projectId = new.projectId ∧ b.externalId = externalId
    then .error (.unique "idx_bugs_project_external") else .ok ())
  match db.bugs.insert (new.row id externalId text db.now) with
  | none => .error (.unique "bugs_pkey")
  | some bugs => .ok { db with bugs := bugs }

/-- The transaction of `createBug`. -/
def insertBug (new : NewBug) (uid : Option Uuid) : Handler Uuid := do
  let externalId ← nextBugExternalId new.projectId
  let id ← genUuid
  exec (storeBug new id externalId)
  replaceBugLinks id uid new.links
  pure id

/-- The transaction, and up to `retries` more of them where the external id was taken. -/
def insertBugAttempts (new : NewBug) (uid : Option Uuid) : ℕ → Handler Uuid
  | 0 => transaction (insertBug new uid)
  | retries + 1 => do
      match ← savepoint (insertBug new uid) with
      | .ok id => pure id
      | .error e =>
          if e = .unique "idx_bugs_project_external" then insertBugAttempts new uid retries
          else fail e

/-- The columns of a new bug: untitled and open unless the body says otherwise. -/
def BugBody.insertText (body : BugBody) (severity priority : Option String) :
    BugColumn → Option String
  | .title => some ((body.text .title).truthy.getD "Untitled bug")
  | .description => some ((body.text .description).truthy.getD "")
  | .status => some ((body.text .status).truthy.getD "Open")
  | .severity => severity
  | .priority => priority
  | c => (body.text c).truthy

def createBug (projectId : Uuid) (userId : Option Uuid) (body : BugBody) : Handler BugView := do
  ofExcept (validateBoundedField (body.text .title).nullish "Bug title" bugTitleMaxLength)
  ofExcept (validateBoundedField (body.text .externalUrl).nullish "External URL"
    bugExternalUrlMaxLength)
  let links ← query (sanitizeBugLinks projectId (body.links.getD []))
  let severity ← ofExcept (parseBugSeverity (body.text .severity))
  let priority ← ofExcept (parseBugPriority (body.text .priority))
  let assigneeId ← parseAssignee projectId body.assigneeId.truthy
  let dueDate ← ofExcept (parseBugDueDate body.dueDate)
  check fun db ↦ assertBugDueDateNotInPast dueDate db.now
  let bugId ← insertBugAttempts
    { projectId := projectId
      text := body.insertText severity priority
      reportedBy := userId
      assigneeId := assigneeId
      dueDate := dueDate
      links := links } userId 4
  failLinkedExecutions projectId userId (links.filterMap fun t ↦ t.executionId.map .canonical)
  getBug bugId

structure BugChange where
  text : BugColumn → Option String
  clearsSeverity : Bool
  clearsPriority : Bool
  assigneeId : Option Uuid
  clearsAssignee : Bool
  dueDate : Option Day
  clearsDueDate : Bool

/-- The columns the `UPDATE` sets: severity and priority can be cleared. -/
def BugChange.newText (c : BugChange) (b : Bug) : BugColumn → Option String
  | .severity => if c.clearsSeverity then none else (c.text .severity).or (b.text .severity)
  | .priority => if c.clearsPriority then none else (c.text .priority).or (b.text .priority)
  | column => (c.text column).or (b.text column)

/-- The row the `UPDATE` makes of a bug. -/
def BugChange.apply (c : BugChange) (now : Time) (b : Bug) : Except Failure Bug := do
  let text ← storeBugTexts (c.newText b)
  .ok { b with
    text := text
    assigneeId := if c.clearsAssignee then none else c.assigneeId.or b.assigneeId
    dueDate := if c.clearsDueDate then none else c.dueDate.or b.dueDate
    updatedAt := now }

def storeBugChange (id : Uuid) (c : BugChange) (db : Db) : Except Failure Db :=
  match db.bugs.find id with
  | none => .ok db
  | some b => do
      let b' ← c.apply db.now b
      .ok { db with
        bugs := db.bugs.updateWhere (fun r ↦ r.id = id) (fun r ↦ { b' with id := r.id })
          fun _ ↦ rfl }

/-- The columns a body names; severity and priority are the choices they were read as. -/
def BugBody.updateText (body : BugBody) (severity priority : Option String) :
    BugColumn → Option String
  | .severity => severity
  | .priority => priority
  | c => (body.text c).truthy

/-- The links of the body, when it has any, become the links of the bug. -/
def updateBugLinks (bugId uid : Uuid) (links : Option (List LinkBody)) : Handler Unit :=
  whenSome links fun links ↦ do
    let sanitized ← query fun db ↦
      (db.bugs.find bugId).elim [] fun b ↦ sanitizeBugLinks b.projectId links db
    transaction (replaceBugLinks bugId (some uid) sanitized)

def updateBug (userId : Option Uuid) (bugId : IdText) (body : BugBody) : Handler BugView := do
  let uid ← requireUser userId
  let projectId ← requireBugAccess (some uid) bugId
  let id ← castUuid bugId
  let severity ← ofExcept (parseBugSeverity (body.text .severity))
  ofExcept (validateBoundedField (body.text .title).nullish "Bug title" bugTitleMaxLength)
  ofExcept (validateBoundedField (body.text .externalUrl).nullish "External URL"
    bugExternalUrlMaxLength)
  let priority ← ofExcept (parseBugPriority (body.text .priority))
  let assigneeId ← parseAssignee projectId body.assigneeId.truthy
  let dueDate ← ofExcept (parseBugDueDate body.dueDate)
  let before ← getBug id
  check fun db ↦
    if dueDate ≠ before.bug.dueDate then assertBugDueDateNotInPast dueDate db.now else .ok ()
  exec (storeBugChange id
    { text := body.updateText severity priority
      clearsSeverity := (body.text .severity).clears
      clearsPriority := (body.text .priority).clears
      assigneeId := assigneeId
      clearsAssignee := body.assigneeId.clears
      dueDate := dueDate
      clearsDueDate := body.dueDate.clears })
  updateBugLinks id uid body.links
  getBug id

end Handlers

/-- The ids of the body go into the link as they are. -/
def addBugLink (userId : Option Uuid) (bugId : IdText) (body : LinkBody) : Handler BugView := do
  let projectId ← requireBugAccess userId bugId
  let id ← castUuid bugId
  require (body.testcaseId.truthy.isSome = true ∨ body.cycleId.truthy.isSome = true)
    (.badRequest "testcaseId or cycleId is required.")
  let testcaseId ← castUuid? body.testcaseId.truthy
  let cycleId ← castUuid? body.cycleId.truthy
  let existing ← query fun db ↦
    ((liveLinks id db).filter fun l ↦ l.target.key = (testcaseId, cycleId)).head?
  let executionId ← castUuid? body.executionId.truthy
  match existing with
  | some l =>
      if executionId ≠ l.executionId then exec (setLinkExecution l.id executionId) else pure ()
  | none => do
      let linkId ← genUuid
      exec (insertBugLink id ⟨testcaseId, cycleId, executionId⟩ linkId)
  failLinkedExecutions projectId userId body.executionId.nullish.toList
  getBug id

def deleteLink (linkId bugId uid : Uuid) (db : Db) : Db :=
  { db with
    bugLinks := db.bugLinks.updateWhere (fun l ↦ l.id = linkId ∧ l.bugId = bugId ∧ l.live)
      (fun l ↦ { l with deletedAt := some db.now, deletedBy := some uid }) fun _ ↦ rfl }

def removeBugLink (userId : Option Uuid) (bugId linkId : IdText) : Handler BugView := do
  let uid ← requireUser userId
  let _ ← requireBugAccess (some uid) bugId
  let id ← castUuid bugId
  let linkId ← castUuid linkId
  write (deleteLink linkId id uid)
  getBug id

/-! ## What the handlers change -/

section Effects

variable {db db' : Db}

/-- A caller who gets past the check is a member of the project of the live bug. -/
theorem requireBugAccess_spec {userId : Option Uuid} {bugId : IdText} :
    wp (requireBugAccess userId bugId)
      (fun projectId db' ↦ OnlyUsers db db' ∧ ∃ b ∈ db.bugs, bugId.uuid = some b.id ∧
        b.live = true ∧ b.projectId = projectId ∧ ∃ uid ∈ userId, IsMember db projectId uid)
      (fun _ db' ↦ OnlyUsers db db') db := by
  have hE : ∀ _ : Failure, OnlyUsers db db := fun _ ↦ .refl db
  unfold requireBugAccess
  refine wp_requireUser_seq hE fun uid huid ↦ wp_require_seq (.refl db) fun _ ↦ ?_
  refine wp_castUuid_seq hE fun id hid ↦ wp_check_seq hE fun bug hbug ↦ ?_
  have hfind := eq_some_of_found hbug
  rw [Option.filter_eq_some_iff] at hfind
  obtain ⟨hmem, rfl⟩ := Table.find_eq_some.mp hfind.1
  refine wp_seq requireProjectAccess_spec ?_
  rintro access db' ⟨honly, -, hproject, uid', huid', hmember⟩
  obtain rfl := Option.some.inj huid'
  have hsame : bug.projectId = access.project.id := Option.some.inj hproject
  rw [wp_pure, hsame]
  exact ⟨honly, bug, hmem, hid, hfind.2, hsame, _, huid, hmember⟩

/-- Every table but `bug_links` is as before. -/
def OnlyLinks (db db' : Db) : Prop := ∃ bugLinks, db' = { db with bugLinks := bugLinks }

/-- The same, up to the ids handed out. -/
def OnlyNewLinks (db db' : Db) : Prop :=
  ∃ bugLinks uuids, db' = { db with bugLinks := bugLinks, uuids := uuids }

theorem OnlyNewLinks.trans {db₁ db₂ db₃ : Db} (h : OnlyNewLinks db₁ db₂)
    (h' : OnlyNewLinks db₂ db₃) : OnlyNewLinks db₁ db₃ := by
  obtain ⟨bugLinks, uuids, rfl⟩ := h
  obtain ⟨bugLinks', uuids', rfl⟩ := h'
  exact ⟨bugLinks', uuids', rfl⟩

theorem setLinkExecution_onlyLinks {id : Uuid} {executionId : Option Uuid}
    (h : setLinkExecution id executionId db = .ok db') : OnlyLinks db db' := by
  unfold setLinkExecution at h
  obtain ⟨_, -, h⟩ := except_bind_eq_ok.mp h
  exact ⟨_, (Except.ok.inj h).symm⟩

theorem insertBugLink_onlyLinks {bugId id : Uuid} {t : LinkTarget}
    (h : insertBugLink bugId t id db = .ok db') : OnlyLinks db db' := by
  unfold insertBugLink at h
  split at h
  · exact ⟨db.bugLinks, (Except.ok.inj h).symm⟩
  · obtain ⟨_, -, h⟩ := except_bind_eq_ok.mp h
    split at h
    · cases h
    · exact ⟨_, (Except.ok.inj h).symm⟩

theorem replaceBugLinks_onlyNewLinks {bugId : Uuid} {uid : Option Uuid} {links : List LinkTarget} :
    wp (replaceBugLinks bugId uid links) (fun _ db' ↦ OnlyNewLinks db db')
      (fun _ db' ↦ OnlyNewLinks db db') db := by
  unfold replaceBugLinks
  refine wp_query_seq ?_
  rw [wp_bind, wp_write]
  refine wp_forEach (fun e _ s hs ↦ ?_) ⟨_, db.uuids, rfl⟩
  unfold placeLink
  split
  · split
    · rw [wp_exec]
      refine ⟨fun s' h ↦ hs.trans ?_, fun _ _ ↦ hs⟩
      obtain ⟨bugLinks, rfl⟩ := setLinkExecution_onlyLinks h
      exact ⟨bugLinks, s.uuids, rfl⟩
    · exact (wp_pure _).mpr hs
  · simp only [wp_bind, wp_genUuid, wp_exec]
    refine ⟨fun s' h ↦ hs.trans ?_, fun _ _ ↦ hs.trans ⟨s.bugLinks, _, rfl⟩⟩
    obtain ⟨bugLinks, rfl⟩ := insertBugLink_onlyLinks h
    exact ⟨bugLinks, _, rfl⟩

theorem storeBug_eq_ok {new : NewBug} {id : Uuid} {externalId : String}
    (h : storeBug new id externalId db = .ok db') :
    ∃ externalId text bugs, db.bugs.insert (new.row id externalId text db.now) = some bugs ∧
      db' = { db with bugs := bugs } := by
  unfold storeBug at h
  obtain ⟨externalId', -, h⟩ := except_bind_eq_ok.mp h
  obtain ⟨text, -, h⟩ := except_bind_eq_ok.mp h
  obtain ⟨_, -, h⟩ := except_bind_eq_ok.mp h
  obtain ⟨_, -, h⟩ := except_bind_eq_ok.mp h
  obtain ⟨_, -, h⟩ := except_bind_eq_ok.mp h
  split at h
  · cases h
  · rename_i bugs hinsert
    exact ⟨externalId', text, bugs, hinsert, (Except.ok.inj h).symm⟩

theorem BugChange.apply_eq_ok {c : BugChange} {now : Time} {b b' : Bug}
    (h : c.apply now b = .ok b') :
    b'.assigneeId = (if c.clearsAssignee then none else c.assigneeId.or b.assigneeId) ∧
      b'.projectId = b.projectId ∧ b'.deletedAt = b.deletedAt := by
  unfold BugChange.apply at h
  obtain ⟨text, -, h⟩ := except_bind_eq_ok.mp h
  obtain rfl := Except.ok.inj h
  exact ⟨rfl, rfl, rfl⟩

theorem storeBugChange_eq_ok {id : Uuid} {c : BugChange} (h : storeBugChange id c db = .ok db') :
    db' = db ∨ ∃ b b', b ∈ db.bugs ∧ b.id = id ∧ c.apply db.now b = .ok b' ∧
      db' = { db with
        bugs := db.bugs.updateWhere (fun r ↦ r.id = id) (fun r ↦ { b' with id := r.id })
          fun _ ↦ rfl } := by
  unfold storeBugChange at h
  split at h
  · exact .inl (Except.ok.inj h).symm
  · rename_i b hfind
    obtain ⟨hmem, hid⟩ := Table.find_eq_some.mp hfind
    obtain ⟨b', hb', h⟩ := except_bind_eq_ok.mp h
    exact .inr ⟨b, b', hmem, hid, hb', (Except.ok.inj h).symm⟩

end Effects

end Tesbo
