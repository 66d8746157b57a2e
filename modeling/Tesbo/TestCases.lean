import Tesbo.Suites
import Tesbo.Roles
import Tesbo.ExternalIds

/-!
# Test cases

The writers of `testcases`: create, update, duplicate, and the two bulk updates.  What a body says
about a text column is read by `||` on create and by `COALESCE` on update, so the same body means
different things to the two.
-/

namespace Tesbo

open Reasoning Service

/-! ## The body of a request -/

/-- `related` is the answer of the statements on the tables not modelled here: custom field values,
tags and the foreign key of the owner. -/
structure TestcaseBody where
  externalId : Arg String
  suiteId : Arg IdText
  ownerId : Arg IdText
  text : TextColumn → Arg String
  steps : Arg (List Step)
  stepsJson : Arg (List Step)
  testcaseIdPrefix : Arg String
  related : Except Failure Unit

namespace TestcaseBody

/-- A body that sends nothing. -/
def blank : TestcaseBody where
  externalId := .undefined
  suiteId := .undefined
  ownerId := .undefined
  text _ := .undefined
  steps := .undefined
  stepsJson := .undefined
  testcaseIdPrefix := .undefined
  related := .ok ()

/-- `body.steps || body.stepsJson` -/
def givenSteps (body : TestcaseBody) : Option (List Step) :=
  body.steps.truthy.or body.stepsJson.truthy

end TestcaseBody

/-! ## Lengths -/

/-- A field of the body with a bounded column. -/
inductive BoundedField where
  | externalId
  | text (c : TextColumn)
deriving DecidableEq, Repr

def TestcaseBody.field (body : TestcaseBody) : BoundedField → Option String
  | .externalId => body.externalId.nullish
  | .text c => (body.text c).nullish

structure FieldLimit where
  field : BoundedField
  label : String
  max : ℕ
deriving DecidableEq, Repr

def testcaseFieldLimits : List FieldLimit := [
  ⟨.text .automationRepo, "Automation repo", 1024⟩,
  ⟨.text .title, "Title", 512⟩,
  ⟨.text .automationPath, "Automation path", 512⟩,
  ⟨.text .automationTestName, "Automation test name", 512⟩,
  ⟨.text .automationTags, "Automation tags", 512⟩,
  ⟨.text .component, "Component", 255⟩,
  ⟨.text .automationFramework, "Automation framework", 64⟩,
  ⟨.text .estimatedDuration, "Estimated duration", 64⟩,
  ⟨.text .severity, "Severity", 32⟩,
  ⟨.text .type, "Type", 32⟩,
  ⟨.text .status, "Status", 32⟩,
  ⟨.text .automationStatus, "Automation type", 32⟩,
  ⟨.externalId, "Test case ID", 32⟩,
  ⟨.text .priority, "Priority", 8⟩]

/-- The first field, in the order of the table, that is too long. -/
def assertTestcaseFieldLengths (body : TestcaseBody) : Except Failure Unit :=
  match testcaseFieldLimits.find? fun l ↦ (body.field l.field).any fun v ↦ l.max < jsLength v with
  | some l => .error (.badRequest s!"{l.label} must be at most {l.max} characters")
  | none => .ok ()

/-- The width of a column, for those that have one. -/
def TextColumn.width : TextColumn → Option ℕ
  | .title | .automationPath | .automationTestName | .automationTags => some 512
  | .automationRepo => some 1024
  | .component => some 255
  | .automationFramework | .estimatedDuration => some 64
  | .severity | .type | .status | .automationStatus => some 32
  | .priority => some 8
  | .jiraUrl | .linearUrl => some 512
  | .description | .preconditions | .postconditions | .testData | .jiraIssueKey
  | .linearIssueKey | .attachments | .notionPageId | .notionUrl => none

def TextColumn.all : List TextColumn := [
  .title, .description, .preconditions, .postconditions, .testData, .priority, .severity, .type,
  .automationStatus, .automationRepo, .automationPath, .automationTestName, .automationFramework,
  .automationTags, .component, .status, .jiraIssueKey, .jiraUrl, .linearIssueKey, .linearUrl,
  .attachments, .estimatedDuration, .notionPageId, .notionUrl]

def storeText (c : TextColumn) (text : Option String) : Except Failure (Option String) :=
  match c.width, text with
  | some width, some s => (varchar width s).map some
  | _, text => .ok text

/-- The texts as the columns take them. -/
def storeTexts (text : TextColumn → Option String) : Except Failure (TextColumn → Option String) :=
  if TextColumn.all.all fun c ↦ (storeText c (text c)).isOk
  then .ok fun c ↦ (storeText c (text c)).toOption.join
  else .error (.sqlState "22001" "")

/-- The message for a value too long for its column. -/
def rethrowTruncationAs400 : Failure → Failure
  | .sqlState "22001" _ => .badRequest
      "One of the fields is too long for the field it is stored in. Shorten it and try again."
  | e => e

/-! ## Estimated duration -/

/-- One to `max` digits, then what follows them. -/
def takeDigits (max : ℕ) (cs : List Char) : Option (List Char) :=
  let digits := cs.takeWhile Char.isDigit
  if digits = [] ∨ max < digits.length then none else some (cs.dropWhile Char.isDigit)

def durationMinutes : List String := ["m", "min", "mins", "minute", "minutes"]
def durationHours : List String := ["h", "hr", "hrs", "hour", "hours"]

/-- A unit of the list, in any letter case, then what follows it. -/
def takeUnit (units : List String) (cs : List Char) : Option (List Char) :=
  let rest := cs.dropWhile jsSpace
  if String.ofList ((rest.takeWhile Char.isAlpha).map Char.toLower) ∈ units
  then some (rest.dropWhile Char.isAlpha) else none

/-- `ESTIMATED_DURATION_RE` -/
def estimatedDurationShape (cs : List Char) : Bool :=
  match takeDigits 4 cs with
  | none => false
  | some rest =>
      rest = [] || takeUnit durationMinutes rest = some [] ||
        match takeUnit durationHours rest with
        | none => false
        | some rest => rest = [] ||
            ((takeDigits 2 (rest.dropWhile jsSpace)).bind (takeUnit durationMinutes)) = some []

def normalizeEstimatedDuration (raw : Arg String) : Except Failure (Option String) :=
  match raw with
  | .undefined | .null => .ok none
  | .value raw =>
      let value := jsTrim raw
      if value = "" then .ok (some "")
      else if estimatedDurationShape value.toList then .ok (some value)
      else .error (.badRequest
        "Estimated duration must be minutes (\"90\") or hours and minutes (\"2h\", \"2h 30m\")")

/-! ## Statements -/

/-- One row against the two unique indexes. -/
def insertTestcaseRow (testcases : Table Testcase.id) (t : Testcase) :
    Except Failure (Table Testcase.id) :=
  if testcases.rows.any fun t' ↦ t'.projectId = t.projectId && t'.externalId = t.externalId
  then .error (.unique "idx_testcases_project_external")
  else match testcases.insert t with
    | some testcases => .ok testcases
    | none => .error (.unique "testcases_pkey")

/-- The foreign key: any row of `suites`, live or not, of any project. -/
def suiteExists (suiteId : Option Uuid) (db : Db) : Bool :=
  suiteId.all fun id ↦ (db.suites.find id).isSome

def suiteForeignKey : Failure := .foreignKey "testcases_suite_id_fkey"

/-- `INSERT INTO testcases …` of one or more rows; the foreign key is checked at the end. -/
def insertTestcases (rows : List Testcase) : Handler Unit := exec fun db ↦ do
  let testcases ← rows.foldlM insertTestcaseRow db.testcases
  if rows.all fun t ↦ suiteExists t.suiteId db
  then .ok { db with testcases := testcases }
  else .error suiteForeignKey

/-- `UPDATE testcases SET …, suite_id = … WHERE p`: the foreign key counts when a row is hit. -/
def updateTestcasesSuite (p : Testcase → Bool) (suiteId : Option Uuid) (f : Testcase → Testcase)
    (hf : ∀ t, (f t).id = t.id) : Handler Unit := exec fun db ↦
  if db.testcases.rows.any p && !suiteExists suiteId db then .error suiteForeignKey
  else .ok { db with testcases := db.testcases.updateWhere p f hf }

/-! ## Create -/

/-- The text columns of a new row. -/
def TestcaseBody.insertText (body : TestcaseBody) (duration : Option String) :
    TextColumn → Option String
  | .title => some ((body.text .title).truthy.getD "Untitled test case")
  | .description => some ((body.text .description).truthy.getD "")
  | .preconditions => some ((body.text .preconditions).truthy.getD "")
  | .postconditions => some ((body.text .postconditions).truthy.getD "")
  | .testData => some ((body.text .testData).truthy.getD "")
  | .priority => some (
      if (body.text .priority).sent then (body.text .priority).truthy.getD "" else "Not set")
  | .type => if (body.text .type).sent then (body.text .type).truthy else some "Functional"
  | .automationStatus =>
      if (body.text .automationStatus).sent then (body.text .automationStatus).truthy
      else some "Not Automated"
  | .status => some ((body.text .status).truthy.getD "Draft")
  | .estimatedDuration => duration
  | c => (body.text c).truthy

section Create

variable [Unicode]

/-- `body.externalId || nextExternalId(…)` -/
def chooseExternalId (projectId : Uuid) (supplied requested : Option String) : Handler String :=
  match supplied with
  | some externalId => pure externalId
  | none => nextExternalId projectId requested

def insertTestCaseWithClient (projectId uid : Uuid) (body : TestcaseBody) : Handler Testcase := do
  let externalId ←
    chooseExternalId projectId body.externalId.truthy body.testcaseIdPrefix.nullish
  let duration ← ofExcept (normalizeEstimatedDuration (body.text .estimatedDuration))
  let suiteId ← castUuid? body.suiteId.truthy
  let ownerId ← castUuid? body.ownerId.truthy
  let text ← ofExcept (storeTexts (body.insertText duration))
  let externalId ← ofExcept (varchar 32 externalId)
  let id ← genUuid
  let now ← query Db.now
  let row : Testcase := {
    id, projectId, suiteId, externalId, text, steps := body.givenSteps.getD [], ownerId,
    createdBy := some uid, updatedBy := some uid, updatedAt := now, deletedAt := none,
    deletedBy := none }
  insertTestcases [row]
  ofExcept body.related
  pure row

/-- The failure `createTestCase` answers by allocating again. -/
def allocationCollided (body : TestcaseBody) (e : Failure) : Bool :=
  body.externalId.truthy = none && e = .unique "idx_testcases_project_external"

/-- The transaction, and up to `retries` more of them. -/
def createAttempts (projectId uid : Uuid) (body : TestcaseBody) : ℕ → Handler Testcase
  | 0 => do
      match ← savepoint (insertTestCaseWithClient projectId uid body) with
      | .ok row => pure row
      | .error e => fail (rethrowTruncationAs400 e)
  | retries + 1 => do
      match ← savepoint (insertTestCaseWithClient projectId uid body) with
      | .ok row => pure row
      | .error e =>
          if allocationCollided body e then createAttempts projectId uid body retries
          else fail (rethrowTruncationAs400 e)

def createTestCase (projectId : Uuid) (actorId : Option Uuid) (body : TestcaseBody) :
    Handler Testcase := do
  let uid ← requireUser actorId
  ofExcept (assertTestcaseFieldLengths body)
  createAttempts projectId uid body 4

def createTestCaseForUser (userId : Option Uuid) (projectId : IdText) (body : TestcaseBody) :
    Handler Testcase := do
  let access ← requireProjectAccess userId projectId
  createTestCase access.project.id userId body

/-! ## Bulk create -/

def maxBulkTestcases : ℕ := 500

/-- The text columns of a row of a batch: an empty value always takes the default. -/
def TestcaseBody.bulkText (body : TestcaseBody) : TextColumn → Option String
  | .title => some ((body.text .title).truthy.getD "Untitled test case")
  | .description => some ((body.text .description).truthy.getD "")
  | .preconditions => some ((body.text .preconditions).truthy.getD "")
  | .postconditions => some ((body.text .postconditions).truthy.getD "")
  | .testData => some ((body.text .testData).truthy.getD "")
  | .priority => some ((body.text .priority).truthy.getD "Not set")
  | .type => some ((body.text .type).truthy.getD "Functional")
  | .automationStatus => some ((body.text .automationStatus).truthy.getD "Not Automated")
  | .status => some ((body.text .status).truthy.getD "Draft")
  | .estimatedDuration => none
  | c => (body.text c).truthy

/-- The row of the batch at `index`, its own id or the one derived from the index. -/
def bulkRow (db : Db) (projectId uid : Uuid) (key : String) (startSeq : ℕ) (index : ℕ)
    (body : TestcaseBody) : Except Failure Testcase := do
  let suiteId ← readUuid? body.suiteId.truthy
  let ownerId ← readUuid? body.ownerId.truthy
  let text ← storeTexts body.bulkText
  let externalId ←
    varchar 32 (body.externalId.truthy.getD (externalIdOf key (startSeq + index + 1)))
  pure {
    id := db.uuids index, projectId, suiteId, externalId, text, steps := body.givenSteps.getD [],
    ownerId, createdBy := some uid, updatedBy := some uid, updatedAt := db.now, deletedAt := none,
    deletedBy := none }

/-- The first row with a field that is too long, named by its number. -/
def assertBatchFieldLengths (incoming : List TestcaseBody) : Except Failure Unit :=
  match (incoming.mapIdx fun index row ↦ (index, assertTestcaseFieldLengths row)).find?
      fun row ↦ !row.2.isOk with
  | some (index, .error (.badRequest detail)) =>
      .error (.badRequest s!"Row {index + 1}: {detail}")
  | some (index, _) => .error (.badRequest s!"Row {index + 1}: a field is too long")
  | none => .ok ()

/-- The ids of `n` rows are taken from the generator. -/
def takeUuids (n : ℕ) : Handler Unit := write fun db ↦ { db with uuids := fun i ↦ db.uuids (i + n) }

def bulkCreateTestCases (projectId : Uuid) (actorId : Option Uuid) (incoming : List TestcaseBody)
    (testcaseIdPrefix : Arg String) : Handler (List Testcase) := do
  let uid ← requireUser actorId
  if incoming = [] then pure []
  else
    require (incoming.length ≤ maxBulkTestcases) (.badRequest
      s!"A batch is limited to {maxBulkTestcases} test cases — send larger imports as several batches.")
    ofExcept (assertBatchFieldLengths incoming)
    transaction do
      let key ← externalIdPrefix projectId testcaseIdPrefix.nullish
      let startSeq ← maxExternalIdSeq projectId key
      let rows ← check fun db ↦
        (incoming.mapIdx fun index row ↦ (index, row)).mapM fun (index, row) ↦
          bulkRow db projectId uid key startSeq index row
      takeUuids rows.length
      insertTestcases rows
      ofExcept (incoming.forM TestcaseBody.related)
      pure rows

/-! ## Update -/

/-- The new id of a renamed test case; `none` leaves it. -/
def checkTestCaseExternalIdChange (projectId id : Uuid) (current : String) (raw : Arg String) :
    Handler (Option String) := do
  if raw = .undefined then pure none
  else
    let next := jsTrim (raw.nullish.getD "")
    require (next ≠ "" ∧ ∀ c ∈ next.toList, jsSpace c = false)
      (.badRequest "Test case ID must be a non-empty value without spaces")
    if next = current then pure none
    else
      let taken ← query fun db ↦ db.testcases.rows.any fun t ↦
        t.projectId = projectId && Unicode.lower t.externalId = Unicode.lower next && t.id ≠ id
      require (taken = false) (.conflict s!"Test case ID {next} is already used in this project")
      pure (some next)

/-- An explicit `null` or `""` for a ticket clears the link. -/
def clearsLink (a : Arg String) : Bool := a = .null || a = .value ""

/-- The columns an update sets to NULL. -/
def TestcaseBody.clears (body : TestcaseBody) : TextColumn → Bool
  | .jiraIssueKey | .jiraUrl => clearsLink (body.text .jiraIssueKey)
  | .linearIssueKey | .linearUrl => clearsLink (body.text .linearIssueKey)
  | .notionPageId | .notionUrl => clearsLink (body.text .notionPageId)
  | _ => false

/-- The values an update binds. -/
def TestcaseBody.updateText (body : TestcaseBody) (duration : Option String) :
    TextColumn → Option String
  | .estimatedDuration => duration
  | c => (body.text c).nullish

/-- `suite_id` and `owner_id` are written as they are, the rest is kept where nothing was sent. -/
def Testcase.updated (now uid : ℕ) (suiteId ownerId : Option Uuid)
    (text : TextColumn → Option String) (clears : TextColumn → Bool) (steps : Option (List Step))
    (externalId : Option String) (t : Testcase) : Testcase :=
  { t with
    suiteId := suiteId
    ownerId := ownerId
    text := fun c ↦ if clears c then none else (text c).or (t.text c)
    steps := steps.getD t.steps
    externalId := externalId.getD t.externalId
    updatedBy := some uid
    updatedAt := now }

def updateTestCaseWithClient (id uid : Uuid) (body : TestcaseBody)
    (newExternalId : Option String) : Handler Unit := do
  let duration ← ofExcept (normalizeEstimatedDuration (body.text .estimatedDuration))
  let suiteId ← castUuid? body.suiteId.nullish
  let ownerId ← castUuid? body.ownerId.nullish
  let text ← ofExcept (storeTexts (body.updateText duration))
  let now ← query Db.now
  updateTestcasesSuite (fun t ↦ t.id = id && t.live) suiteId
    (Testcase.updated now uid suiteId ownerId text body.clears body.givenSteps newExternalId)
    fun _ ↦ rfl
  ofExcept body.related

/-- The run snapshots carry a copy of the id. -/
def renameSnapshots (id : Uuid) (externalId : String) : Handler Unit := write fun db ↦
  { db with
    cycleItems := db.cycleItems.updateWhere (fun i ↦ i.testcaseId = id)
      (fun i ↦ { i with snapshotExternalId := externalId }) fun _ ↦ rfl }

def updateTestCase (testcaseId : IdText) (actorId : Option Uuid) (body : TestcaseBody) :
    Handler Unit := do
  let uid ← requireUser actorId
  ofExcept (assertTestcaseFieldLengths body)
  let id ← castUuid testcaseId
  let before ← check fun db ↦
    (findLiveTestcase id db).elim (.error (.notFound "Test case not found")) .ok
  transaction do
    let newExternalId ←
      checkTestCaseExternalIdChange before.projectId id before.externalId body.externalId
    updateTestCaseWithClient id uid body newExternalId
    whenSome newExternalId (renameSnapshots id)

def updateTestCaseForUser (userId : Option Uuid) (projectId testcaseId : IdText)
    (body : TestcaseBody) : Handler Unit := do
  let _ ← requireTestCaseAccess userId projectId testcaseId
  if body.externalId.sent then do
    let access ← requireProjectAccess userId projectId
    require (normalizeRole access.callerRole ≠ .qaEngineer)
      (.forbidden "QA Engineers cannot change a test case ID")
    updateTestCase testcaseId userId body
  else updateTestCase testcaseId userId body

/-! ## Duplicate -/

/-- The copy: everything but the id, the title's suffix, the estimate and who made it. -/
def Testcase.copied (id uid : Uuid) (externalId : String) (text : TextColumn → Option String)
    (now : Time) (src : Testcase) : Testcase where
  id := id
  projectId := src.projectId
  suiteId := src.suiteId
  externalId := externalId
  text := text
  steps := src.steps
  ownerId := src.ownerId
  createdBy := some uid
  updatedBy := some uid
  updatedAt := now
  deletedAt := none
  deletedBy := none

def copiedText (src : Testcase) : TextColumn → Option String
  | .title => some ((src.text .title).getD "" ++ " (copy)")
  | .estimatedDuration => none
  | c => src.text c

/-- The copy of a test case as it was read.  `related` is the answer of the copy of custom field
values and tags. -/
def insertDuplicate (src : Testcase) (uid : Uuid) (related : Except Failure Unit) :
    Handler Testcase := do
  let externalId ← nextExternalId src.projectId none
  transaction do
    let text ← ofExcept (storeTexts (copiedText src))
    let externalId ← ofExcept (varchar 32 externalId)
    let newId ← genUuid
    let now ← query Db.now
    let row := src.copied newId uid externalId text now
    insertTestcases [row]
    ofExcept related
    pure row

/-- The caller, and the test case to copy. -/
def readOriginal (testcaseId : IdText) (actorId : Option Uuid) : Handler (Uuid × Testcase) := do
  let uid ← requireUser actorId
  let id ← castUuid testcaseId
  let src ← check fun db ↦
    (findLiveTestcase id db).elim (.error (.notFound "Test case not found")) .ok
  pure (uid, src)

def duplicateTestCase (testcaseId : IdText) (actorId : Option Uuid)
    (related : Except Failure Unit) : Handler Testcase := do
  let (uid, src) ← readOriginal testcaseId actorId
  insertDuplicate src uid related

def duplicateTestCaseForUser (userId : Option Uuid) (projectId testcaseId : IdText)
    (related : Except Failure Unit) : Handler Testcase := do
  let _ ← requireTestCaseAccess userId projectId testcaseId
  duplicateTestCase testcaseId userId related

end Create

/-! ## Bulk update and bulk delete -/

/-- `suiteId: "none"`, in any letter case, clears the suite. -/
def clearsSuite (suiteId : Arg IdText) : Bool :=
  match suiteId with
  | .value (.word text) => text.toList.map Char.toLower = "none".toList
  | _ => false

def bulkColumns : List TextColumn := [.priority, .status, .automationStatus, .severity]

/-- `suiteId = none` leaves the suite, `some s` sets it to `s`. -/
def Testcase.bulkUpdated (now uid : ℕ) (suiteId : Option (Option Uuid)) (ownerId : Option Uuid)
    (text : TextColumn → Option String) (t : Testcase) : Testcase :=
  { t with
    suiteId := suiteId.getD t.suiteId
    ownerId := ownerId.or t.ownerId
    text := fun c ↦ if c ∈ bulkColumns then (text c).or (t.text c) else t.text c
    updatedBy := some uid
    updatedAt := now }

/-- `$1::uuid[]` -/
def castUuids (ids : List IdText) : Handler (List Uuid) := ofExcept (ids.mapM readUuid)

/-- The live test cases named, of whatever project. -/
def namedLive (ids : List Uuid) (t : Testcase) : Bool := t.id ∈ ids && t.live

def bulkUpdateTestCases (projectId : IdText) (actorId : Option Uuid) (testcaseIds : List IdText)
    (body : TestcaseBody) : Handler Unit := do
  let _ ← requireProjectAccess actorId projectId
  let uid ← requireUser actorId
  if testcaseIds = [] then pure ()
  else
    ofExcept (assertTestcaseFieldLengths body)
    let ids ← castUuids testcaseIds
    let clearSuite := clearsSuite body.suiteId
    let suiteId ← castUuid? (if clearSuite then none else body.suiteId.truthy)
    let ownerId ← castUuid? body.ownerId.truthy
    let text ← ofExcept (storeTexts fun c ↦
      if c ∈ bulkColumns then (body.text c).truthy else none)
    let now ← query Db.now
    let set : Option (Option Uuid) := if clearSuite then some none else suiteId.map some
    updateTestcasesSuite (namedLive ids) suiteId
      (Testcase.bulkUpdated now uid set ownerId text) fun _ ↦ rfl

def Testcase.deleted (uid : Uuid) (now : Time) (t : Testcase) : Testcase :=
  { t with deletedAt := some now, deletedBy := some uid, updatedBy := some uid, updatedAt := now }

def bulkDeleteTestCases (projectId : IdText) (actorId : Option Uuid) (ids : List IdText) :
    Handler Unit := do
  let _ ← requireProjectAccess actorId projectId
  let uid ← requireUser actorId
  if ids = [] then pure ()
  else
    let ids ← castUuids ids
    let now ← query Db.now
    updateTestcases (namedLive ids) (Testcase.deleted uid now) fun _ ↦ rfl

/-! ## What the handlers do -/

section Rules

variable {db : Db} {β : Type} {f : Unit → Handler β} {Q : β → Db → Prop} {E : Failure → Db → Prop}

theorem wp_insertTestcases_seq {rows : List Testcase} (hE : ∀ e, E e db)
    (hf : ∀ testcases, rows.foldlM insertTestcaseRow db.testcases = .ok testcases →
      (∀ t ∈ rows, suiteExists t.suiteId db = true) →
        wp (f ()) Q E { db with testcases := testcases }) :
    wp (insertTestcases rows >>= f) Q E db := by
  unfold insertTestcases
  rw [wp_bind, wp_exec]
  refine ⟨fun db' hdb' ↦ ?_, fun e _ ↦ hE e⟩
  cases hrows : rows.foldlM insertTestcaseRow db.testcases with
  | error e => rw [hrows] at hdb'; cases hdb'
  | ok testcases =>
      rw [hrows] at hdb'
      change (if _ then _ else _) = _ at hdb'
      split at hdb'
      · rename_i hall
        obtain rfl := Except.ok.inj hdb'
        exact hf testcases hrows (List.all_eq_true.mp hall)
      · cases hdb'

theorem wp_updateTestcasesSuite {p : Testcase → Bool} {suiteId : Option Uuid}
    {g : Testcase → Testcase} {hg : ∀ t, (g t).id = t.id} {Q : Unit → Db → Prop}
    (hE : ∀ e, E e db)
    (hQ : (∀ t ∈ db.testcases, p t = true → suiteExists suiteId db = true) →
      Q () { db with testcases := db.testcases.updateWhere p g hg }) :
    wp (updateTestcasesSuite p suiteId g hg) Q E db := by
  unfold updateTestcasesSuite
  rw [wp_exec]
  refine ⟨fun db' hdb' ↦ ?_, fun e _ ↦ hE e⟩
  split at hdb'
  · cases hdb'
  · rename_i hcheck
    obtain rfl := Except.ok.inj hdb'
    refine hQ fun t ht hp ↦ ?_
    by_contra hno
    rw [Bool.not_eq_true] at hno
    rw [hno, Bool.not_false, Bool.and_true] at hcheck
    exact hcheck (List.any_eq_true.mpr ⟨t, ht, hp⟩)

/-- One inserted row: its keys were free and it is the only change. -/
theorem insertTestcaseRow_eq_ok {testcases testcases' : Table Testcase.id} {t : Testcase}
    (h : insertTestcaseRow testcases t = .ok testcases') :
    testcases.insert t = some testcases' ∧
      ∀ t' ∈ testcases, t'.projectId = t.projectId → t'.externalId ≠ t.externalId := by
  unfold insertTestcaseRow at h
  split at h
  · cases h
  · rename_i hfree
    cases hinsert : testcases.insert t with
    | none => rw [hinsert] at h; cases h
    | some inserted =>
        rw [hinsert] at h
        obtain rfl := Except.ok.inj h
        refine ⟨rfl, fun t' ht' hproject hid ↦ hfree (List.any_eq_true.mpr ⟨t', ht', ?_⟩)⟩
        rw [hproject, hid, decide_eq_true rfl, decide_eq_true rfl, Bool.and_self]

theorem foldlM_singleton {t : Testcase} {testcases testcases' : Table Testcase.id}
    (h : [t].foldlM insertTestcaseRow testcases = .ok testcases') :
    insertTestcaseRow testcases t = .ok testcases' := by
  rw [List.foldlM_cons] at h
  cases hrow : insertTestcaseRow testcases t with
  | error e => rw [hrow] at h; cases h
  | ok inserted => rw [hrow] at h; exact h

theorem mem_foldlM_insertTestcaseRow {rows : List Testcase} {testcases testcases' : Table Testcase.id}
    (h : rows.foldlM insertTestcaseRow testcases = .ok testcases') {t : Testcase} :
    t ∈ testcases' ↔ t ∈ testcases ∨ t ∈ rows := by
  induction rows generalizing testcases with
  | nil =>
      obtain rfl := Except.ok.inj h
      simp
  | cons r rows ih =>
      rw [List.foldlM_cons] at h
      cases hr : insertTestcaseRow testcases r with
      | error e => rw [hr] at h; cases h
      | ok inserted =>
          rw [hr] at h
          rw [ih h, Table.mem_insert (insertTestcaseRow_eq_ok hr).1, List.mem_cons, or_assoc]

end Rules

section Create

variable [Unicode] {db : Db}

/-- How a new test case comes by its id: as supplied, or as allocated. -/
def ExternalIdFor (db : Db) (projectId : Uuid) (supplied requested : Option String)
    (externalId : String) : Prop :=
  match supplied with
  | some id => varchar 32 id = .ok externalId
  | none => ∃ n, maxTrailingNumber (idsUnderPrefix projectId
      (idPrefix requested (db.projects.find projectId)) db) = .ok n ∧
      varchar 32 (externalIdOf (idPrefix requested (db.projects.find projectId)) (n + 1)) =
        .ok externalId

theorem nextExternalId_spec {projectId : Uuid} {requested : Option String} :
    wp (nextExternalId projectId requested)
      (fun id db' ↦ db' = db ∧ ∃ n, maxTrailingNumber (idsUnderPrefix projectId
        (idPrefix requested (db.projects.find projectId)) db) = .ok n ∧
        id = externalIdOf (idPrefix requested (db.projects.find projectId)) (n + 1))
      (fun _ db' ↦ db' = db) db := by
  unfold nextExternalId externalIdPrefix maxExternalIdSeq
  refine wp_query_seq (wp_check_seq (fun _ ↦ rfl) fun n hn ↦ ?_)
  rw [wp_pure]
  exact ⟨rfl, n, hn, rfl⟩

theorem chooseExternalId_spec {projectId : Uuid} {supplied requested : Option String} :
    wp (chooseExternalId projectId supplied requested)
      (fun id db' ↦ db' = db ∧ ∀ stored, varchar 32 id = .ok stored →
        ExternalIdFor db projectId supplied requested stored)
      (fun _ db' ↦ db' = db) db := by
  cases supplied with
  | some id => exact (wp_pure id).mpr ⟨rfl, fun stored hstored ↦ hstored⟩
  | none =>
      refine wp_mono nextExternalId_spec ?_ fun _ _ h ↦ h
      rintro _ _ ⟨rfl, n, hn, rfl⟩
      exact ⟨rfl, fun stored hstored ↦ ⟨n, hn, hstored⟩⟩

/-- One test case was inserted, under an id it came by as `ExternalIdFor` says. -/
structure InsertedCase (db : Db) (projectId : Uuid) (supplied requested : Option String)
    (t : Testcase) (db' : Db) : Prop where
  project : t.projectId = projectId
  live : t.live = true
  suite : suiteExists t.suiteId db = true
  externalId : ExternalIdFor db projectId supplied requested t.externalId
  state : ∃ testcases users uuids, insertTestcaseRow db.testcases t = .ok testcases ∧
    db' = { db with testcases := testcases, users := users, uuids := uuids }

theorem insertTestCaseWithClient_spec {projectId uid : Uuid} {body : TestcaseBody} :
    wp (insertTestCaseWithClient projectId uid body)
      (fun t db' ↦ body.suiteId.truthy.map IdText.uuid = t.suiteId.map some ∧
        InsertedCase db projectId body.externalId.truthy body.testcaseIdPrefix.nullish t db')
      (fun _ _ ↦ True) db := by
  unfold insertTestCaseWithClient
  refine wp_seq (wp_mono chooseExternalId_spec (fun _ _ h ↦ h) fun _ _ _ ↦ trivial) ?_
  rintro id _ ⟨rfl, hstore⟩
  have hE : ∀ _ : Failure, True := fun _ ↦ trivial
  refine wp_ofExcept_seq hE fun duration _ ↦ ?_
  refine wp_castUuid?_seq hE fun suiteId hsuite ↦ ?_
  refine wp_castUuid?_seq hE fun ownerId _ ↦ ?_
  refine wp_ofExcept_seq hE fun text _ ↦ ?_
  refine wp_ofExcept_seq hE fun externalId hexternal ↦ ?_
  rw [wp_bind, wp_genUuid]
  refine wp_query_seq ?_
  dsimp only
  refine wp_insertTestcases_seq hE fun testcases hrows hexists ↦ ?_
  refine wp_ofExcept_seq hE fun _ _ ↦ ?_
  rw [wp_pure]
  exact ⟨hsuite, rfl, rfl, hexists _ List.mem_cons_self, hstore _ hexternal, testcases, _, _,
    foldlM_singleton hrows, rfl⟩

/-- Every attempt starts from the state the call was made in. -/
theorem createAttempts_spec {projectId uid : Uuid} {body : TestcaseBody} (retries : ℕ) :
    wp (createAttempts projectId uid body retries)
      (fun t db' ↦ body.suiteId.truthy.map IdText.uuid = t.suiteId.map some ∧
        InsertedCase db projectId body.externalId.truthy body.testcaseIdPrefix.nullish t db')
      (fun _ db' ↦ db' = db) db := by
  induction retries with
  | zero =>
      rw [createAttempts, wp_bind, wp_savepoint]
      refine wp_mono insertTestCaseWithClient_spec (fun t _ h ↦ (wp_pure t).mpr h) fun e _ _ ↦ ?_
      exact (wp_fail _).mpr rfl
  | succ retries ih =>
      rw [createAttempts, wp_bind, wp_savepoint]
      refine wp_mono insertTestCaseWithClient_spec (fun t _ h ↦ (wp_pure t).mpr h) fun e _ _ ↦ ?_
      dsimp only
      split
      · exact ih
      · exact (wp_fail _).mpr rfl

theorem createTestCase_spec {projectId : Uuid} {actorId : Option Uuid} {body : TestcaseBody} :
    wp (createTestCase projectId actorId body)
      (fun t db' ↦ body.suiteId.truthy.map IdText.uuid = t.suiteId.map some ∧
        InsertedCase db projectId body.externalId.truthy body.testcaseIdPrefix.nullish t db')
      (fun _ db' ↦ db' = db) db := by
  unfold createTestCase
  refine wp_requireUser_seq (fun _ ↦ rfl) fun uid _ ↦ ?_
  exact wp_ofExcept_seq (fun _ ↦ rfl) fun _ _ ↦ createAttempts_spec 4

/-- What an insertion does from a state with other `users` it does from this one. -/
theorem InsertedCase.of_neutral {db₁ db' : Db} {projectId : Uuid} {supplied requested : Option String}
    {t : Testcase} (hneutral : Neutral db db₁)
    (h : InsertedCase db₁ projectId supplied requested t db') :
    InsertedCase db projectId supplied requested t db' := by
  obtain ⟨users, uuids, rfl⟩ := hneutral
  obtain ⟨testcases, users', uuids', hrow, rfl⟩ := h.state
  exact ⟨h.project, h.live, h.suite, h.externalId, testcases, users', uuids', hrow, rfl⟩

theorem createTestCaseForUser_spec {userId : Option Uuid} {projectId : IdText}
    {body : TestcaseBody} :
    wp (createTestCaseForUser userId projectId body)
      (fun t db' ↦ (∃ uid, userId = some uid ∧ IsMember db t.projectId uid) ∧
        projectId.uuid = some t.projectId ∧
        body.suiteId.truthy.map IdText.uuid = t.suiteId.map some ∧
        InsertedCase db t.projectId body.externalId.truthy body.testcaseIdPrefix.nullish t db')
      (fun _ db' ↦ Neutral db db') db := by
  unfold createTestCaseForUser
  refine wp_seq (wp_mono requireProjectAccess_spec (fun _ _ h ↦ h) fun _ _ h ↦ h.neutral) ?_
  rintro access db₁ ⟨honly, -, hproject, hcaller⟩
  refine wp_mono createTestCase_spec ?_ ?_
  · rintro t db' ⟨hsuite, hins⟩
    rw [← hins.project] at hcaller hproject
    have hins := hins.of_neutral honly.neutral
    exact ⟨hcaller, hproject, hsuite, { hins with
      project := rfl
      externalId := hins.project ▸ hins.externalId }⟩
  · rintro _ _ rfl
    exact honly.neutral

/-! ### Update -/

theorem checkTestCaseExternalIdChange_spec {projectId id : Uuid} {current : String}
    {raw : Arg String} :
    wp (checkTestCaseExternalIdChange projectId id current raw)
      (fun new db' ↦ db' = db ∧ ∀ next, new = some next →
        ∀ t ∈ db.testcases, t.projectId = projectId → t.id ≠ id →
          Unicode.lower t.externalId ≠ Unicode.lower next)
      (fun _ db' ↦ db' = db) db := by
  unfold checkTestCaseExternalIdChange
  split
  · exact (wp_pure none).mpr ⟨rfl, fun _ h ↦ by cases h⟩
  · refine wp_require_seq rfl fun _ ↦ ?_
    split
    · exact (wp_pure none).mpr ⟨rfl, fun _ h ↦ by cases h⟩
    · refine wp_query_seq (wp_require_seq rfl fun hfree ↦ ?_)
      refine (wp_pure _).mpr ⟨rfl, fun next hnext t ht hproject hid hlower ↦ ?_⟩
      obtain rfl := Option.some.inj hnext
      have htaken := List.any_eq_false.mp hfree t ht
      simp [hproject, hid, hlower] at htaken

/-- A live test case was updated: `suite_id` is what the body says, `none` when it says nothing; a
new id is one no other test case of the project has, whatever the case of its letters. -/
structure UpdatedCase (db : Db) (body : TestcaseBody) (t : Testcase) (db' : Db) : Prop where
  mem : t ∈ db.testcases
  live : t.live = true
  state : ∃ (uid : Uuid) (suiteId ownerId : Option Uuid) (text : TextColumn → Option String)
    (newExternalId : Option String) (users : Table User.id) (cycleItems : Table CycleItem.id),
    body.suiteId.nullish.map IdText.uuid = suiteId.map some ∧
    suiteExists suiteId db = true ∧
    (∀ next, newExternalId = some next → ∀ r ∈ db.testcases, r.projectId = t.projectId →
      r.id ≠ t.id → Unicode.lower r.externalId ≠ Unicode.lower next) ∧
    db' = { db with
      users := users
      cycleItems := cycleItems
      testcases := db.testcases.updateWhere (fun r ↦ r.id = t.id && r.live)
        (Testcase.updated db.now uid suiteId ownerId text body.clears body.givenSteps
          newExternalId) fun _ ↦ rfl }

omit [Unicode] in
theorem updateTestCaseWithClient_spec {id uid : Uuid} {body : TestcaseBody}
    {newExternalId : Option String} :
    wp (updateTestCaseWithClient id uid body newExternalId)
      (fun _ db' ↦ ∃ suiteId ownerId text, body.suiteId.nullish.map IdText.uuid = suiteId.map some ∧
        (∀ t ∈ db.testcases, (t.id = id && t.live) = true → suiteExists suiteId db = true) ∧
        db' = { db with
          testcases := db.testcases.updateWhere (fun r ↦ r.id = id && r.live)
            (Testcase.updated db.now uid suiteId ownerId text body.clears body.givenSteps
              newExternalId) fun _ ↦ rfl })
      (fun _ _ ↦ True) db := by
  have hE : ∀ _ : Failure, True := fun _ ↦ trivial
  unfold updateTestCaseWithClient
  refine wp_ofExcept_seq hE fun duration _ ↦ ?_
  refine wp_castUuid?_seq hE fun suiteId hsuite ↦ ?_
  refine wp_castUuid?_seq hE fun ownerId _ ↦ ?_
  refine wp_ofExcept_seq hE fun text _ ↦ ?_
  refine wp_query_seq ?_
  rw [wp_bind]
  refine wp_updateTestcasesSuite hE fun hexists ↦ ?_
  rw [wp_ofExcept]
  exact ⟨fun _ _ ↦ ⟨suiteId, ownerId, text, hsuite, hexists, rfl⟩, fun _ _ ↦ trivial⟩

theorem updateTestCase_spec {testcaseId : IdText} {actorId : Option Uuid} {body : TestcaseBody} :
    wp (updateTestCase testcaseId actorId body)
      (fun _ db' ↦ ∃ t, testcaseId.uuid = some t.id ∧ UpdatedCase db body t db')
      (fun _ db' ↦ db' = db) db := by
  have hE : ∀ _ : Failure, db = db := fun _ ↦ rfl
  unfold updateTestCase
  refine wp_requireUser_seq hE fun uid _ ↦ ?_
  refine wp_ofExcept_seq hE fun _ _ ↦ ?_
  refine wp_castUuid_seq hE fun id hid ↦ ?_
  refine wp_check_seq hE fun t ht ↦ ?_
  cases hfind : findLiveTestcase id db with
  | none => rw [hfind] at ht; cases ht
  | some found =>
      rw [hfind] at ht
      cases ht
      obtain ⟨hmem, rfl, hlive⟩ := findLiveTestcase_eq_some.mp hfind
      rw [wp_transaction]
      refine wp_seq (wp_mono checkTestCaseExternalIdChange_spec (fun _ _ h ↦ h) fun _ _ _ ↦ rfl) ?_
      rintro newExternalId _ ⟨rfl, hnew⟩
      refine wp_seq (wp_mono updateTestCaseWithClient_spec (fun _ _ h ↦ h) fun _ _ _ ↦ rfl) ?_
      rintro _ _ ⟨suiteId, ownerId, text, hsuite, hexists, rfl⟩
      have hexists := hexists t hmem (by rw [hlive, decide_eq_true rfl, Bool.and_self])
      rw [wp_whenSome]
      constructor
      · intro _
        exact ⟨t, hid, hmem, hlive, uid, suiteId, ownerId, text, newExternalId, _, _, hsuite,
          hexists, hnew, rfl⟩
      · intro next _
        unfold renameSnapshots
        rw [wp_write]
        exact ⟨t, hid, hmem, hlive, uid, suiteId, ownerId, text, newExternalId, _, _, hsuite,
          hexists, hnew, rfl⟩

theorem UpdatedCase.of_onlyUsers {db₁ db' : Db} {body : TestcaseBody} {t : Testcase}
    (honly : OnlyUsers db db₁) (h : UpdatedCase db₁ body t db') : UpdatedCase db body t db' := by
  obtain ⟨users, rfl⟩ := honly
  exact ⟨h.mem, h.live, h.state⟩

/-- The test case updated is one of the project in the URL, of which the caller is a member. -/
theorem updateTestCaseForUser_spec {userId : Option Uuid} {projectId testcaseId : IdText}
    {body : TestcaseBody} :
    wp (updateTestCaseForUser userId projectId testcaseId body)
      (fun _ db' ↦ ∃ t, testcaseId.uuid = some t.id ∧ projectId.uuid = some t.projectId ∧
        (∃ uid, userId = some uid ∧ IsMember db t.projectId uid) ∧ UpdatedCase db body t db')
      (fun _ db' ↦ OnlyUsers db db') db := by
  unfold updateTestCaseForUser
  refine wp_seq requireTestCaseAccess_spec ?_
  rintro _ db₁ ⟨honly, t, ht, rfl, hid, hlive, hproject, hcaller⟩
  have hupdate : ∀ db₂, OnlyUsers db db₂ →
      wp (updateTestCase testcaseId userId body)
        (fun _ db' ↦ ∃ t, testcaseId.uuid = some t.id ∧ projectId.uuid = some t.projectId ∧
          (∃ uid, userId = some uid ∧ IsMember db t.projectId uid) ∧ UpdatedCase db body t db')
        (fun _ db' ↦ OnlyUsers db db') db₂ := by
    intro db₂ honly₂
    refine wp_mono updateTestCase_spec ?_ ?_
    · rintro _ db' ⟨t', hid', hupdated⟩
      have hupdated := hupdated.of_onlyUsers honly₂
      obtain rfl : t = t' :=
        Table.eq_of_key ht hupdated.mem (Option.some.inj (hid.symm.trans hid'))
      exact ⟨t, hid, hproject, hcaller, hupdated⟩
    · rintro _ _ rfl
      exact honly₂
  split
  · refine wp_seq (wp_mono requireProjectAccess_spec (fun _ _ h ↦ h) fun _ _ h ↦ honly.trans h) ?_
    rintro access db₂ ⟨honly₂, -⟩
    exact wp_require_seq (honly.trans honly₂) fun _ ↦ hupdate _ (honly.trans honly₂)
  · exact hupdate _ honly

/-! ### Duplicate -/

omit [Unicode] in
theorem readOriginal_spec {testcaseId : IdText} {actorId : Option Uuid} :
    wp (readOriginal testcaseId actorId)
      (fun original db' ↦ db' = db ∧ original.2 ∈ db.testcases ∧ original.2.live = true ∧
        testcaseId.uuid = some original.2.id)
      (fun _ db' ↦ db' = db) db := by
  have hE : ∀ _ : Failure, db = db := fun _ ↦ rfl
  unfold readOriginal
  refine wp_requireUser_seq hE fun uid _ ↦ ?_
  refine wp_castUuid_seq hE fun id hid ↦ ?_
  refine wp_check_seq hE fun src hsrc ↦ ?_
  cases hfind : findLiveTestcase id db with
  | none => rw [hfind] at hsrc; cases hsrc
  | some found =>
      rw [hfind] at hsrc
      cases hsrc
      obtain ⟨hmem, rfl, hlive⟩ := findLiveTestcase_eq_some.mp hfind
      exact (wp_pure _).mpr ⟨rfl, hmem, hlive, hid⟩

/-- The copy is filed where the original was when it was read. -/
theorem insertDuplicate_spec {src : Testcase} {uid : Uuid} {related : Except Failure Unit} :
    wp (insertDuplicate src uid related)
      (fun t db' ↦ t.suiteId = src.suiteId ∧ InsertedCase db src.projectId none none t db')
      (fun _ db' ↦ db' = db) db := by
  have hE : ∀ _ : Failure, db = db := fun _ ↦ rfl
  unfold insertDuplicate
  refine wp_seq nextExternalId_spec ?_
  rintro _ _ ⟨rfl, n, hn, rfl⟩
  rw [wp_transaction]
  refine wp_ofExcept_seq hE fun text _ ↦ ?_
  refine wp_ofExcept_seq hE fun externalId hexternal ↦ ?_
  rw [wp_bind, wp_genUuid]
  refine wp_query_seq ?_
  dsimp only
  refine wp_insertTestcases_seq hE fun testcases hrows hexists ↦ ?_
  refine wp_ofExcept_seq hE fun _ _ ↦ ?_
  rw [wp_pure]
  exact ⟨rfl, rfl, rfl, hexists _ List.mem_cons_self, ⟨n, hn, hexternal⟩, testcases, _, _,
    foldlM_singleton hrows, rfl⟩

theorem duplicateTestCase_spec {testcaseId : IdText} {actorId : Option Uuid}
    {related : Except Failure Unit} :
    wp (duplicateTestCase testcaseId actorId related)
      (fun t db' ↦ ∃ src ∈ db.testcases, src.live = true ∧ testcaseId.uuid = some src.id ∧
        t.suiteId = src.suiteId ∧ InsertedCase db src.projectId none none t db')
      (fun _ db' ↦ db' = db) db := by
  unfold duplicateTestCase
  refine wp_seq readOriginal_spec ?_
  rintro ⟨uid, src⟩ _ ⟨rfl, hmem, hlive, hid⟩
  exact wp_mono insertDuplicate_spec (fun t db' h ↦ ⟨src, hmem, hlive, hid, h.1, h.2⟩)
    fun _ _ h ↦ h

/-! ### Bulk create -/

omit [Unicode] in
theorem bulkRow_eq_ok {projectId uid : Uuid} {key : String} {startSeq index : ℕ}
    {body : TestcaseBody} {t : Testcase}
    (h : bulkRow db projectId uid key startSeq index body = .ok t) :
    t.projectId = projectId ∧
      varchar 32 (body.externalId.truthy.getD (externalIdOf key (startSeq + index + 1))) =
        .ok t.externalId := by
  unfold bulkRow at h
  cases hsuite : readUuid? body.suiteId.truthy with
  | error e => rw [hsuite] at h; cases h
  | ok suiteId =>
      cases howner : readUuid? body.ownerId.truthy with
      | error e => rw [hsuite, howner] at h; cases h
      | ok ownerId =>
          cases htext : storeTexts body.bulkText with
          | error e => rw [hsuite, howner, htext] at h; cases h
          | ok text =>
              cases hid : varchar 32
                  (body.externalId.truthy.getD (externalIdOf key (startSeq + index + 1))) with
              | error e => rw [hsuite, howner, htext, hid] at h; cases h
              | ok externalId =>
                  rw [hsuite, howner, htext, hid] at h
                  obtain rfl := Except.ok.inj h
                  exact ⟨rfl, rfl⟩

/-- The rows a batch inserts: each in the project and live, with a suite that exists, at most under
an id of its own or the one of its place in the block after the largest number. -/
structure InsertedBatch (db : Db) (projectId : Uuid) (incoming : List TestcaseBody)
    (requested : Option String) (rows : List Testcase) (db' : Db) : Prop where
  rows_eq : ∃ (uid : Uuid) (startSeq : ℕ),
    maxTrailingNumber (idsUnderPrefix projectId
      (idPrefix requested (db.projects.find projectId)) db) = .ok startSeq ∧
    (incoming.mapIdx fun index row ↦ (index, row)).mapM (fun (index, row) ↦
      bulkRow db projectId uid (idPrefix requested (db.projects.find projectId)) startSeq index row)
        = .ok rows
  suite : ∀ t ∈ rows, suiteExists t.suiteId db = true
  state : ∃ testcases uuids, rows.foldlM insertTestcaseRow db.testcases = .ok testcases ∧
    db' = { db with testcases := testcases, uuids := uuids }

theorem bulkCreateTestCases_spec {projectId : Uuid} {actorId : Option Uuid}
    {incoming : List TestcaseBody} {requested : Arg String} :
    wp (bulkCreateTestCases projectId actorId incoming requested)
      (fun rows db' ↦ (rows = [] ∧ db' = db) ∨
        InsertedBatch db projectId incoming requested.nullish rows db')
      (fun _ db' ↦ db' = db) db := by
  have hE : ∀ _ : Failure, db = db := fun _ ↦ rfl
  unfold bulkCreateTestCases
  refine wp_requireUser_seq hE fun uid _ ↦ ?_
  split
  · exact (wp_pure _).mpr (.inl ⟨rfl, rfl⟩)
  · refine wp_require_seq rfl fun _ ↦ ?_
    refine wp_ofExcept_seq hE fun _ _ ↦ ?_
    rw [wp_transaction]
    unfold externalIdPrefix maxExternalIdSeq takeUuids
    refine wp_query_seq ?_
    refine wp_check_seq hE fun startSeq hstart ↦ ?_
    refine wp_check_seq hE fun rows hrows ↦ ?_
    rw [wp_bind, wp_write]
    refine wp_insertTestcases_seq hE fun testcases hinsert hexists ↦ ?_
    refine wp_ofExcept_seq hE fun _ _ ↦ ?_
    rw [wp_pure]
    exact .inr ⟨⟨uid, startSeq, hstart, hrows⟩, hexists, testcases, _, hinsert, rfl⟩

end Create

/-! ### Bulk update and bulk delete -/

section Bulk

variable {db : Db}

/-- A bulk update hits the live test cases named, in whatever project they are. -/
theorem bulkUpdateTestCases_spec {projectId : IdText} {actorId : Option Uuid}
    {testcaseIds : List IdText} {body : TestcaseBody} :
    wp (bulkUpdateTestCases projectId actorId testcaseIds body)
      (fun _ db' ↦ Neutral db db' ∨ ∃ P uid ids, projectId.uuid = some P ∧ actorId = some uid ∧
        IsMember db P uid ∧ testcaseIds.mapM readUuid = .ok ids ∧
        ∃ suiteId ownerId text users,
          (if clearsSuite body.suiteId then none else body.suiteId.truthy).map IdText.uuid =
            suiteId.map some ∧
          (∀ t ∈ db.testcases, namedLive ids t = true → suiteExists suiteId db = true) ∧
          db' = { db with
            users := users
            testcases := db.testcases.updateWhere (namedLive ids)
              (Testcase.bulkUpdated db.now uid
                (if clearsSuite body.suiteId then some none else suiteId.map some) ownerId text)
              fun _ ↦ rfl })
      (fun _ db' ↦ Neutral db db') db := by
  unfold bulkUpdateTestCases
  refine wp_seq (wp_mono requireProjectAccess_spec (fun _ _ h ↦ h) fun _ _ h ↦ h.neutral) ?_
  rintro access _ ⟨⟨users, rfl⟩, -, hproject, uid, rfl, hmember⟩
  have hE : ∀ _ : Failure, Neutral db { db with users := users } := fun _ ↦ ⟨users, db.uuids, rfl⟩
  refine wp_requireUser_seq hE fun uid' huid' ↦ ?_
  obtain rfl := Option.some.inj huid'
  split
  · exact (wp_pure _).mpr (.inl ⟨users, db.uuids, rfl⟩)
  · refine wp_ofExcept_seq hE fun _ _ ↦ ?_
    refine wp_ofExcept_seq hE fun ids hids ↦ ?_
    dsimp only
    refine wp_castUuid?_seq hE fun suiteId hsuite ↦ ?_
    refine wp_castUuid?_seq hE fun ownerId _ ↦ ?_
    refine wp_ofExcept_seq hE fun text _ ↦ ?_
    refine wp_query_seq ?_
    refine wp_updateTestcasesSuite hE fun hexists ↦ ?_
    exact .inr ⟨_, _, ids, hproject, rfl, hmember, hids, suiteId, ownerId, text, users, hsuite,
      hexists, rfl⟩

theorem bulkDeleteTestCases_spec {projectId : IdText} {actorId : Option Uuid}
    {testcaseIds : List IdText} :
    wp (bulkDeleteTestCases projectId actorId testcaseIds)
      (fun _ db' ↦ Neutral db db' ∨ ∃ P uid ids, projectId.uuid = some P ∧ actorId = some uid ∧
        IsMember db P uid ∧ testcaseIds.mapM readUuid = .ok ids ∧ ∃ users,
          db' = { db with
            users := users
            testcases := db.testcases.updateWhere (namedLive ids) (Testcase.deleted uid db.now)
              fun _ ↦ rfl })
      (fun _ db' ↦ Neutral db db') db := by
  unfold bulkDeleteTestCases
  refine wp_seq (wp_mono requireProjectAccess_spec (fun _ _ h ↦ h) fun _ _ h ↦ h.neutral) ?_
  rintro access _ ⟨⟨users, rfl⟩, -, hproject, uid, rfl, hmember⟩
  have hE : ∀ _ : Failure, Neutral db { db with users := users } := fun _ ↦ ⟨users, db.uuids, rfl⟩
  refine wp_requireUser_seq hE fun uid' huid' ↦ ?_
  obtain rfl := Option.some.inj huid'
  split
  · exact (wp_pure _).mpr (.inl ⟨users, db.uuids, rfl⟩)
  · refine wp_ofExcept_seq hE fun ids hids ↦ ?_
    refine wp_query_seq ?_
    unfold updateTestcases
    rw [wp_write]
    exact .inr ⟨_, _, ids, hproject, rfl, hmember, hids, users, rfl⟩

end Bulk

end Tesbo
