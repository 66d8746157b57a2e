import Tesbo.AccessSteps
import Tesbo.ImportTestCases
import Tesbo.Listings
import Tesbo.Reasoning.History
import Tesbo.Reasoning.Phases

/-!
# The cached lists and the calls that change them

`listSuites` and `listTestCases` with their Redis caches, and the writers of suites and test cases,
each with the invalidations it makes once it has committed.  Every statement and every Redis command
is one step; nothing in the caches expires.
-/

namespace Tesbo.ListCaches

open Reasoning Proc

/-- A list that can be asked for. -/
inductive Listing where
  | suites (projectId : Uuid)
  | testcases (projectId : Uuid) (query : TestcasesQuery) (limit offset : ℕ)

/-- What a list call answers. -/
inductive Shown where
  | suites (rows : List SuiteRow)
  | page (page : Page)
deriving DecidableEq, Repr

def Listing.projectId : Listing → Uuid
  | .suites projectId | .testcases projectId _ _ _ => projectId

/-- The list as the database has it. -/
def Listing.view [Unicode] [QueryTexts] : Listing → Data → Except Failure Shown
  | .suites projectId, d => .ok (.suites (listSuitesUncached projectId d))
  | .testcases projectId query limit offset, d =>
      (listTestCasesUncached projectId query limit offset d).map .page

/-- How many bytes a value takes in Redis. -/
class Serialized where
  bytes : Shown → ℕ

def maxValueBytes : ℕ := 200 * 1024

/-! ## The shared state -/

/-- An answer to a list call: the write calls that had returned when it began, and the states the
database had had when it was given. -/
structure Answer where
  listing : Listing
  since : List ℕ
  shown : Shown
  history : List (Mark Data)

/-- `pageKeys` is the index of the pages of a project, in Redis too.  From `history` on the fields
are a record: the states of the database with the call that left each, the numbers given to write
calls, those that have returned, how many states there were when a project's cache was last cleared,
and the answers. -/
structure Shared where
  data : Data
  suites : Uuid → Option (List SuiteRow)
  pages : Uuid × ℕ × ℕ → Option Page
  pageKeys : Uuid → List (ℕ × ℕ)
  history : List (Mark Data)
  calls : ℕ
  returned : List ℕ
  suitesCleared : Uuid → ℕ
  pagesCleared : Uuid → ℕ
  answers : List Answer

/-- How old the database was when the cache a list is in was last cleared. -/
def Shared.cleared (s : Shared) : Listing → ℕ
  | .suites projectId => s.suitesCleared projectId
  | .testcases projectId _ _ _ => s.pagesCleared projectId

/-- The database is left in a state. -/
def Shared.left (s : Shared) (caller : Option ℕ) (d : Data) : Shared :=
  { s with data := d, history := ⟨caller, d⟩ :: s.history }

/-- The steps that are more than a read.  A statement or transaction names the call it is of and the
project whose caches that call goes on to clear. -/
inductive Write where
  | setActiveOrganization (uid organizationId : Uuid)
  | elapse (time : Time)
  | begin
  | returned (call : ℕ)
  | statement (call : ℕ) (projectId : Uuid) (tx : Service Failure Data Unit)
  | importChunk (call : ℕ) (projectId : Uuid) (tx : Service Failure Data ImportState)
  | deleteSuites (projectId : Uuid)
  | deletePages (projectId : Uuid) (keys : List (ℕ × ℕ))
  | storeSuites (projectId : Uuid) (rows : List SuiteRow)
  | storePage (projectId : Uuid) (limit offset : ℕ) (page : Page)
  | count (projectId : Uuid) (query : TestcasesQuery) (limit offset : ℕ) (page : Page)
  | listing (since : List ℕ)
  | answer (listing : Listing) (since : List ℕ) (shown : Shown)

abbrev Reply : Write → Type
  | .begin => ℕ
  | .statement _ _ _ => Except Failure Unit
  | .importChunk _ _ _ => Except Failure ImportState
  | .count _ _ _ _ _ => ℕ
  | _ => Unit

/-- A transaction: all of it or nothing. -/
def commit {α : Type} (call : ℕ) (tx : Service Failure Data α) :
    Service Failure Shared (Except Failure α) := fun s ↦
  match tx s.data with
  | (.ok a, d) => (.ok (.ok a), s.left (some call) d)
  | (.error e, _) => (.ok (.error e), s)

def perform [Unicode] [QueryTexts] : (w : Write) → Service Failure Shared (Reply w)
  | .setActiveOrganization uid organizationId => Service.write fun s ↦
      s.left none { s.data with db := Tesbo.setActiveOrganization uid organizationId s.data.db }
  | .elapse time => Service.write fun s ↦
      s.left none { s.data with db := { s.data.db with now := max s.data.db.now time } }
  | .begin => fun s ↦ (.ok s.calls, { s with calls := s.calls + 1 })
  | .returned call => Service.write fun s ↦ { s with returned := call :: s.returned }
  | .statement call _ tx => commit call tx
  | .importChunk call _ tx => commit call tx
  | .deleteSuites projectId => Service.write fun s ↦
      { s with
        suites := Function.update s.suites projectId none
        suitesCleared := Function.update s.suitesCleared projectId s.history.length }
  -- the keys that were read from the index, and the index
  | .deletePages projectId keys => Service.write fun s ↦
      { s with
        pages := fun key ↦ if key.1 = projectId ∧ key.2 ∈ keys then none else s.pages key
        pageKeys := Function.update s.pageKeys projectId []
        pagesCleared := Function.update s.pagesCleared projectId s.history.length }
  | .storeSuites projectId rows => Service.write fun s ↦
      { s with suites := Function.update s.suites projectId (some rows) }
  | .storePage projectId limit offset page => Service.write fun s ↦
      { s with
        pages := Function.update s.pages (projectId, limit, offset) (some page)
        pageKeys := Function.update s.pageKeys projectId
          ((limit, offset) :: s.pageKeys projectId) }
  | .count projectId query _ _ _ => Service.check fun s ↦ countMatching projectId query s.data
  | .listing _ => Service.write fun s ↦ s
  | .answer listing since shown => Service.write fun s ↦
      { s with answers := ⟨listing, since, shown, s.history⟩ :: s.answers }

abbrev Procedure (α : Type) := Proc Shared Reply Failure α

abbrev ask (w : Write) : Procedure (Reply w) := issue w

instance : Steps.Backed Shared Reply where
  db s := s.data.db
  repair := .setActiveOrganization

/-! ## The lists -/

section Lists

variable [Unicode] [QueryTexts] [Serialized]

/-- The two statements of `listTestCasesUncached`. -/
def selectTestCases (projectId : Uuid) (query : TestcasesQuery) (limit offset : ℕ) :
    Procedure Page := do
  let page ← check fun s ↦ selectPage projectId query limit offset s.data
  if needsCount offset page then do
    let total ← ask (.count projectId query limit offset page)
    pure { page with total := total }
  else pure page

/-- What `listSuites` answers. -/
def readSuites (projectId : Uuid) : Procedure (List SuiteRow) := do
  match ← query fun s ↦ s.suites projectId with
  | some rows => pure rows
  | none =>
      let rows ← query fun s ↦ listSuitesUncached projectId s.data
      if Serialized.bytes (.suites rows) ≤ maxValueBytes then do
        ask (.storeSuites projectId rows)
        pure rows
      else pure rows

def listSuites (projectId : Uuid) : Procedure Unit := do
  let since ← query Shared.returned
  ask (.listing since)
  let rows ← readSuites projectId
  ask (.answer (.suites projectId) since (.suites rows))

/-- What `listTestCases` answers. -/
def readTestCases (projectId : Uuid) (q : TestcasesQuery) : Procedure Page := do
  let limit := q.pageLimit
  let offset := q.pageOffset
  if isNoFilterTestcasesQuery q then do
    match ← query fun s ↦ s.pages (projectId, limit, offset) with
    | some page => pure page
    | none =>
        let page ← selectTestCases projectId q limit offset
        if Serialized.bytes (.page page) ≤ maxValueBytes then do
          ask (.storePage projectId limit offset page)
          pure page
        else pure page
  else selectTestCases projectId q limit offset

def listTestCases (projectId : Uuid) (q : TestcasesQuery) : Procedure Unit := do
  let since ← query Shared.returned
  ask (.listing since)
  let page ← readTestCases projectId q
  ask (.answer (.testcases projectId q q.pageLimit q.pageOffset) since (.page page))

end Lists

/-! ## Statements of the writers -/

/-- A statement on the tables; `created_at` of a new row is the time of the transaction. -/
def onDb {α : Type} (h : Handler α) : Service Failure Data α := fun d ↦
  match h d.db with
  | (r, db) => (r, { d with
      db := db
      createdAt := fun id ↦
        if (d.db.testcases.find id).isSome then d.createdAt id else d.db.now })

def setDetails (id : Uuid) (f : Details → Details) : Service Failure Data Unit :=
  Service.write fun d ↦ { d with details := Function.update d.details id (f (d.details id)) }

/-- What a handler that only reads answers. -/
def reading {α : Type} (h : Handler α) : Procedure α := check fun s ↦ (h s.data.db).1

/-- A statement or transaction, and whether it went through. -/
def attempt (call : ℕ) (projectId : Uuid) (tx : Service Failure Data Unit) :
    Procedure (Except Failure Unit) := ask (.statement call projectId tx)

def write (call : ℕ) (projectId : Uuid) (tx : Service Failure Data Unit) : Procedure Unit := do
  ofExcept (← attempt call projectId tx)

/-- The two invalidations.  The pages are those the index names when it is read. -/
def invalidate (projectId : Uuid) : Procedure Unit := do
  ask (.deleteSuites projectId)
  let keys ← query fun s ↦ s.pageKeys projectId
  ask (.deletePages projectId keys)

/-! ## Writers of suites -/

def insertSuiteRow (projectId : Uuid) (body : SuiteBody) (description preconditions : String) :
    Handler Unit := do
  let parent ← castUuid? body.parentId.truthy
  let name ← Service.ofExcept (varchar suiteNameMaxLength (jsTrim (body.name.truthy.getD "")))
  let position ← Service.ofExcept (int4 (body.position.truthy.getD 0))
  let id ← genUuid
  let now ← Service.query Db.now
  insertSuite {
    id, projectId, parentId := parent, name, description, preconditions, position,
    updatedAt := now, deletedAt := none, deletedBy := none }

/-- The parent a body names, checked. -/
def checkParent (projectId : Uuid) (parentId : Option IdText) : Procedure Unit :=
  match parentId with
  | none => pure ()
  | some suiteId => reading (requireLiveSuiteInProject projectId suiteId)

def createSuite (call : ℕ) (projectId : Uuid) (body : SuiteBody) : Procedure Unit := do
  let name := jsTrim (body.name.truthy.getD "")
  require (name ≠ "") (.badRequest "name is required")
  ofExcept (validateBoundedField (some name) "Suite name" suiteNameMaxLength)
  let description ← ofExcept (normalizeSuiteText body.description "Suite description")
  let preconditions ← ofExcept (normalizeSuiteText body.preconditions "Suite preconditions")
  checkParent projectId body.parentId.truthy
  write call projectId
    (onDb (insertSuiteRow projectId body (description.getD "") (preconditions.getD "")))
  invalidate projectId

def createSuiteForUser (call : ℕ) (userId : Option Uuid) (projectId : IdText) (body : SuiteBody) :
    Procedure Unit := do
  let access ← Steps.requireProjectAccess userId projectId
  createSuite call access.project.id body

def requireSuiteAccess (userId : Option Uuid) (suiteId : IdText) : Procedure Uuid := do
  let uid ← Steps.requireUser userId
  require suiteId.isUuid (.notFound "Suite not found")
  let id ← ofExcept (readUuid suiteId)
  let suite ← Steps.found (findLiveSuite id) (.notFound "Suite not found")
  let _ ← Steps.requireProjectAccess (some uid) (.canonical suite.projectId)
  pure suite.projectId

theorem id_updated (now : Time) (name : Option String) (parentId : Option Uuid)
    (position : Option ℤ) (description preconditions : Option String) (s : Suite) :
    (Suite.updated now name parentId position description preconditions s).id = s.id := rfl

def updateSuiteRow (suiteId : IdText) (body : SuiteBody)
    (description preconditions : Option String) : Handler Unit := do
  let id ← castUuid suiteId
  let parent ← castUuid? body.parentId.nullish
  let name ← Service.ofExcept (body.name.nullish.mapM (varchar suiteNameMaxLength))
  let position ← Service.ofExcept (body.position.nullish.mapM int4)
  let now ← Service.query Db.now
  updateSuites (fun s ↦ s.id = id) (Suite.updated now name parent position description preconditions)
    (id_updated now name parent position description preconditions)

def updateSuite (call : ℕ) (userId : Option Uuid) (suiteId : IdText) (body : SuiteBody) :
    Procedure Unit := do
  let projectId ← requireSuiteAccess userId suiteId
  ofExcept (validateBoundedField body.name.nullish "Suite name" suiteNameMaxLength)
  let description ← ofExcept (normalizeSuiteText body.description "Suite description")
  let preconditions ← ofExcept (normalizeSuiteText body.preconditions "Suite preconditions")
  checkParent projectId body.parentId.truthy
  write call projectId (onDb (updateSuiteRow suiteId body description preconditions))
  invalidate projectId

/-- The transaction of a deletion. -/
def deleteSubtree (uid projectId : Uuid) (suiteId : IdText) (mode : DeleteMode) : Handler Unit := do
  let id ← castUuid suiteId
  let subtree ← Service.query (suiteSubtree projectId id)
  Service.require (subtree ≠ []) (.notFound "Suite not found")
  sweepSubtree mode uid subtree

def deleteSuite (call : ℕ) (userId : Option Uuid) (suiteId : IdText) (mode : DeleteMode) :
    Procedure Unit := do
  let uid ← Steps.requireUser userId
  let projectId ← requireSuiteAccess userId suiteId
  write call projectId (onDb (deleteSubtree uid projectId suiteId mode))
  invalidate projectId

/-! ## Writers of test cases -/

section Testcases

variable [Unicode]

def insertWithDetails (projectId uid : Uuid) (body : TestcaseBody) (details : Details) :
    Service Failure Data Unit := do
  let row ← onDb (insertTestCaseWithClient projectId uid body)
  setDetails row.id fun _ ↦ details

/-- The transaction, and up to `retries` more of them. -/
def createAttempts (call : ℕ) (projectId uid : Uuid) (body : TestcaseBody) (details : Details) :
    ℕ → Procedure Unit
  | 0 => do
      match ← attempt call projectId (insertWithDetails projectId uid body details) with
      | .ok _ => pure ()
      | .error e => fail (rethrowTruncationAs400 e)
  | retries + 1 => do
      match ← attempt call projectId (insertWithDetails projectId uid body details) with
      | .ok _ => pure ()
      | .error e =>
          if allocationCollided body e then createAttempts call projectId uid body details retries
          else fail (rethrowTruncationAs400 e)

def createTestCaseForUser (call : ℕ) (userId : Option Uuid) (projectId : IdText)
    (body : TestcaseBody) (details : Details) : Procedure Unit := do
  let access ← Steps.requireProjectAccess userId projectId
  let uid ← Steps.requireUser userId
  ofExcept (assertTestcaseFieldLengths body)
  createAttempts call access.project.id uid body details 4
  invalidate access.project.id

def insertBatch (projectId : Uuid) (actorId : Option Uuid) (incoming : List TestcaseBody)
    (testcaseIdPrefix : Arg String) (details : List Details) : Service Failure Data Unit := do
  let rows ← onDb (bulkCreateTestCases projectId actorId incoming testcaseIdPrefix)
  Service.forEach (fun row ↦ setDetails row.1 fun _ ↦ row.2) ((rows.map Testcase.id).zip details)

def bulkCreateTestCasesForUser (call : ℕ) (userId : Option Uuid) (projectId : IdText)
    (incoming : List TestcaseBody) (testcaseIdPrefix : Arg String) (details : List Details) :
    Procedure Unit := do
  let access ← Steps.requireProjectAccess userId projectId
  if incoming = [] then pure ()
  else do
    write call access.project.id
      (insertBatch access.project.id userId incoming testcaseIdPrefix details)
    invalidate access.project.id

/-- Every chunk commits and clears the caches before the next. -/
def importChunkList (call : ℕ) (ctx : ImportContext) (titles : List String) :
    List (ℕ × List ImportRow) → ImportState → Procedure Unit
  | [], _ => pure ()
  | (start, chunk) :: chunks, st => do
      let (prepared, st) := prepareChunk titles start chunk st
      if prepared = [] then importChunkList call ctx titles chunks st
      else
        let snapshot ← Steps.select id
        let st ← ofExcept (← ask (.importChunk call ctx.projectId
          (onDb (writeImportChunk snapshot ctx prepared st))))
        invalidate ctx.projectId
        importChunkList call ctx titles chunks st

def importTestCases (call : ℕ) (userId : Option Uuid) (projectId : IdText) (body : ImportBody) :
    Procedure Unit := do
  let uid ← Steps.requireUser userId
  let access ← Steps.requireProjectAccess (some uid) projectId
  require (body.rows ≠ []) (.badRequest "rows must be a non-empty array")
  require (body.rows.length ≤ importMaxRows)
    (.badRequest s!"An import is limited to {importMaxRows} rows per request.")
  let defaultSuiteId ← reading (resolveDefaultSuite access.project.id body.defaultSuiteId)
  let titles ← Steps.select (titlesInProject access.project.id)
  let suiteIdByKey ← Steps.select (suitesByKey access.project.id)
  importChunkList call
    ⟨access.project.id, uid, idPrefix body.testcaseIdPrefix.nullish (some access.project),
      defaultSuiteId⟩ titles (importChunks body.rows) ⟨⟨suiteIdByKey, []⟩, [], [], 0⟩

def requireTestCaseAccess (userId : Option Uuid) (projectId testcaseId : IdText) :
    Procedure ProjectAccess := do
  let uid ← Steps.requireUser userId
  let access ← Steps.requireProjectAccess (some uid) projectId
  require testcaseId.isUuid (.notFound "Test case not found")
  let id ← ofExcept (readUuid testcaseId)
  let _ ← Steps.found (fun db ↦ (findLiveTestcase id db).filter fun t ↦
    t.projectId = access.project.id) (.notFound "Test case not found")
  pure access

/-- The test case a write starts from. -/
def readTestcase (testcaseId : IdText) : Procedure Testcase := do
  let id ← ofExcept (readUuid testcaseId)
  Steps.found (findLiveTestcase id) (.notFound "Test case not found")

def updateRow (before : Testcase) (uid : Uuid) (body : TestcaseBody) : Handler Unit := do
  let newExternalId ←
    checkTestCaseExternalIdChange before.projectId before.id before.externalId body.externalId
  updateTestCaseWithClient before.id uid body newExternalId
  Service.whenSome newExternalId (renameSnapshots before.id)

def updateWithDetails (before : Testcase) (uid : Uuid) (body : TestcaseBody)
    (details : Details → Details) : Service Failure Data Unit := do
  onDb (updateRow before uid body)
  setDetails before.id details

def updateTestCaseForUser (call : ℕ) (userId : Option Uuid) (projectId testcaseId : IdText)
    (body : TestcaseBody) (details : Details → Details) : Procedure Unit := do
  let access ← requireTestCaseAccess userId projectId testcaseId
  require (body.externalId.sent = true → normalizeRole access.callerRole ≠ .qaEngineer)
    (.forbidden "QA Engineers cannot change a test case ID")
  let uid ← Steps.requireUser userId
  ofExcept (assertTestcaseFieldLengths body)
  let before ← readTestcase testcaseId
  write call before.projectId (updateWithDetails before uid body details)
  invalidate before.projectId

/-- The copy, its custom field values and its tags. -/
def insertCopy (src : Testcase) (uid : Uuid) (externalId : String) (related : Except Failure Unit) :
    Service Failure Data Unit := do
  let copy ← onDb do
    let text ← Service.ofExcept (storeTexts (copiedText src))
    let externalId ← Service.ofExcept (varchar 32 externalId)
    let newId ← genUuid
    let now ← Service.query Db.now
    let row := src.copied newId uid externalId text now
    insertTestcases [row]
    Service.ofExcept related
    pure row
  let original ← Service.query fun d : Data ↦ d.details src.id
  setDetails copy.id fun _ ↦ { original with sourceRefs := [] }

def duplicateTestCaseForUser (call : ℕ) (userId : Option Uuid) (projectId testcaseId : IdText)
    (related : Except Failure Unit) : Procedure Unit := do
  let _ ← requireTestCaseAccess userId projectId testcaseId
  let uid ← Steps.requireUser userId
  let src ← readTestcase testcaseId
  let externalId ← reading (nextExternalId src.projectId none)
  write call src.projectId (insertCopy src uid externalId related)
  invalidate src.projectId

omit [Unicode] in
theorem id_deleted (uid : Uuid) (now : Time) (t : Testcase) : (t.deleted uid now).id = t.id := rfl

def deleteRow (id uid : Uuid) : Handler Unit := do
  let now ← Service.query Db.now
  updateTestcases (fun t ↦ t.id = id && t.live) (Testcase.deleted uid now) (id_deleted uid now)

def deleteTestCaseForUser (call : ℕ) (userId : Option Uuid) (projectId testcaseId : IdText) :
    Procedure Unit := do
  let _ ← requireTestCaseAccess userId projectId testcaseId
  let uid ← Steps.requireUser userId
  let before ← readTestcase testcaseId
  write call before.projectId (onDb (deleteRow before.id uid))
  invalidate before.projectId

def bulkUpdateRows (uid : Uuid) (testcaseIds : List IdText) (body : TestcaseBody) :
    Handler Unit := do
  let ids ← castUuids testcaseIds
  let clearSuite := clearsSuite body.suiteId
  let suiteId ← castUuid? (if clearSuite then none else body.suiteId.truthy)
  let ownerId ← castUuid? body.ownerId.truthy
  let text ← Service.ofExcept (storeTexts fun c ↦
    if c ∈ bulkColumns then (body.text c).truthy else none)
  let now ← Service.query Db.now
  updateTestcasesSuite (namedLive ids) suiteId
    (Testcase.bulkUpdated now uid (if clearSuite then some none else suiteId.map some) ownerId text)
    fun _ ↦ rfl

/-- The ids are of test cases of any project; the caches cleared are those of the one named. -/
def bulkUpdateTestCases (call : ℕ) (userId : Option Uuid) (projectId : IdText)
    (testcaseIds : List IdText) (body : TestcaseBody) : Procedure Unit := do
  let uid ← Steps.requireUser userId
  let access ← Steps.requireProjectAccess (some uid) projectId
  if testcaseIds = [] then pure ()
  else do
    ofExcept (assertTestcaseFieldLengths body)
    write call access.project.id (onDb (bulkUpdateRows uid testcaseIds body))
    invalidate access.project.id

def bulkDeleteRows (uid : Uuid) (testcaseIds : List IdText) : Handler Unit := do
  let ids ← castUuids testcaseIds
  let now ← Service.query Db.now
  updateTestcases (namedLive ids) (Testcase.deleted uid now) (id_deleted uid now)

def bulkDeleteTestCases (call : ℕ) (userId : Option Uuid) (projectId : IdText)
    (testcaseIds : List IdText) : Procedure Unit := do
  let uid ← Steps.requireUser userId
  let access ← Steps.requireProjectAccess (some uid) projectId
  if testcaseIds = [] then pure ()
  else do
    write call access.project.id (onDb (bulkDeleteRows uid testcaseIds))
    invalidate access.project.id

end Testcases

/-- The other writers of test cases, such as the saves of a generated batch: a transaction, then the
invalidations of its project. -/
def saveTestCases (call : ℕ) (projectId : Uuid) (tx : Service Failure Data Unit) :
    Procedure Unit := do
  write call projectId tx
  invalidate projectId

end Tesbo.ListCaches
