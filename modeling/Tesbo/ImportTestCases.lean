import Tesbo.TestCases
import Tesbo.Reasoning.Assoc

/-!
# Import of test cases

A file's rows are checked in memory, then written in chunks: the suites a chunk names are looked up
or created, its test cases inserted as one statement, and where that fails the chunk is replayed
row by row.  `related` of a row is the answer of the writes of its custom field values and of the
activity log.
-/

namespace Tesbo

open Reasoning Service

/-! ## The rows of a file -/

structure ImportRow where
  rowNumber : Option ℤ
  text : TextColumn → Arg String
  suite : Arg String
  steps : List Step
  customFieldErrors : List String
  related : Except Failure Unit

structure ImportBody where
  rows : List ImportRow
  defaultSuiteId : Arg IdText
  testcaseIdPrefix : Arg String

structure PreparedImportRow where
  rowNumber : ℤ
  text : TextColumn → Option String
  steps : List Step
  suiteName : String
  componentName : String
  related : Except Failure Unit

section Prepare

variable [Unicode]

def normalizeImportName (value : String) : String :=
  Unicode.toLowerCase (String.ofList (squeezeSpaces (jsTrim value).toList))

/-- The Russian labels of the columns a file may carry them in, each with the stored value. -/
def ruValues : TextColumn → List (String × String)
  | .priority => [("Not set", "Не задан")]
  | .status => [("Draft", "Черновик"), ("In Review", "На проверке"), ("Approved", "Утверждён"),
      ("Deprecated", "Устаревший"), ("Archived", "В архиве")]
  | .type => [("Functional", "Функциональный"), ("Regression", "Регрессионный"),
      ("Smoke", "Смоук"), ("Sanity", "Санити"), ("Integration", "Интеграционный"),
      ("Performance", "Производительность"), ("Security", "Безопасность"),
      ("Acceptance", "Приёмочный"), ("Usability", "Юзабилити"), ("Compatibility", "Совместимость"),
      ("Exploratory", "Исследовательский"), ("Other", "Другое")]
  | .severity => [("Critical", "Критическая"), ("High", "Высокая"), ("Medium", "Средняя"),
      ("Low", "Низкая")]
  | .automationStatus => [("Automated", "Автоматизирован"), ("Not Automated", "Не автоматизирован"),
      ("To Be Automated", "Будет автоматизирован"), ("Can't Automate", "Невозможно автоматизировать")]
  | _ => []

def foldForMatch (value : String) : String :=
  String.ofList ((Unicode.toLowerCase (jsTrim value)).toList.map fun c ↦ if c = 'ё' then 'е' else c)

def canonicalizeImportValue (column : TextColumn) (raw : String) : String :=
  (((ruValues column).find? fun entry ↦ foldForMatch entry.2 = foldForMatch raw).map Prod.fst).getD
    raw

/-- `String(raw?.x ?? "").trim()` -/
def trimmedCell (a : Arg String) : String := jsTrim (a.nullish.getD "")

/-- `canonicalizeImportValue(x, String(raw?.x ?? "").trim()) || default` -/
def vocabularyCell (raw : ImportRow) (column : TextColumn) (default : Option String) :
    Option String :=
  let value := canonicalizeImportValue column (trimmedCell (raw.text column))
  if value = "" then default else some value

/-- The columns of the test case the row becomes. -/
def ImportRow.cells (raw : ImportRow) (duration : Option String) : TextColumn → Option String
  | .title => some (trimmedCell (raw.text .title))
  | .priority => vocabularyCell raw .priority (some "Not set")
  | .severity => vocabularyCell raw .severity none
  | .type => vocabularyCell raw .type (some "Functional")
  | .status => vocabularyCell raw .status (some "Draft")
  | .automationStatus => vocabularyCell raw .automationStatus (some "Not Automated")
  | .component =>
      let component := trimmedCell (raw.text .component)
      if component = "" then none else some component
  | .description => some ((raw.text .description).nullish.getD "")
  | .preconditions => some ((raw.text .preconditions).nullish.getD "")
  | .postconditions => some ((raw.text .postconditions).nullish.getD "")
  | .testData => some ((raw.text .testData).nullish.getD "")
  | .attachments => some ((raw.text .attachments).nullish.getD "")
  | .estimatedDuration => duration
  | _ => none

/-- The limits, in the order they are tested; the name of the suite comes last. -/
def importLimits : List (String × TextColumn × ℕ) := [
  ("Title", .title, 512), ("Priority", .priority, 8), ("Severity", .severity, 32),
  ("Type", .type, 32), ("Status", .status, 32), ("Automation type", .automationStatus, 32),
  ("Component", .component, 255)]

def limitedCells (cells : TextColumn → Option String) (suiteName : String) :
    List (String × Option String × ℕ) :=
  (importLimits.map fun l ↦ (l.1, cells l.2.1, l.2.2)) ++ [("Suite", some suiteName, 255)]

/-- The label and the limit of the first cell that is too long. -/
def overLimit (cells : TextColumn → Option String) (suiteName : String) : Option (String × ℕ) :=
  ((limitedCells cells suiteName).find? fun l ↦ l.2.1.any fun v ↦ l.2.2 < jsLength v).map
    fun l ↦ (l.1, l.2.2)

def failureText : Failure → String
  | .badRequest e | .invalidField e _ | .unauthorized e | .forbidden e | .notFound e | .conflict e
  | .tooManyRequests e | .serviceUnavailable e => e
  | .sqlState _ _ => ""

/-- What can be decided about a row without the database: its number, the row or the reason it is
refused, and the titles of the file so far. -/
def prepareImportRow (raw : ImportRow) (fallbackIndex : ℕ)
    (titlesInProject titlesInFile : List String) :
    ℤ × Except String PreparedImportRow × List String :=
  let rowNumber := raw.rowNumber.getD (fallbackIndex + 1)
  let title := trimmedCell (raw.text .title)
  let suiteName := trimmedCell raw.suite
  if title = "" then (rowNumber, .error "Title is required", titlesInFile)
  else match normalizeEstimatedDuration (raw.text .estimatedDuration) with
    | .error e => (rowNumber, .error (failureText e), titlesInFile)
    | .ok duration =>
        let cells := raw.cells duration
        match overLimit cells suiteName with
        | some (label, limit) =>
            (rowNumber, .error s!"{label} is longer than the {limit} character limit", titlesInFile)
        | none =>
            let normalizedTitle := normalizeImportName title
            if normalizedTitle ∈ titlesInProject then
              (rowNumber, .error "Skipped duplicate title: already exists in this project",
                titlesInFile)
            else if normalizedTitle ∈ titlesInFile then
              (rowNumber, .error "Skipped duplicate title: repeated in this import file",
                titlesInFile)
            else if raw.customFieldErrors ≠ [] then
              (rowNumber, .error ("; ".intercalate raw.customFieldErrors),
                normalizedTitle :: titlesInFile)
            else
              (rowNumber, .ok {
                rowNumber, text := cells, steps := raw.steps, suiteName,
                componentName := (cells .component).getD "", related := raw.related },
                normalizedTitle :: titlesInFile)

/-- The rows of a chunk in order, the titles threaded through. -/
def prepareImportRows (titlesInProject : List String) :
    List String → ℕ → List ImportRow →
      List (ℤ × String) × List PreparedImportRow × List String
  | titlesInFile, _, [] => ([], [], titlesInFile)
  | titlesInFile, index, raw :: rest =>
      let (rowNumber, outcome, titlesInFile) :=
        prepareImportRow raw index titlesInProject titlesInFile
      let (errors, prepared, titlesInFile) :=
        prepareImportRows titlesInProject titlesInFile (index + 1) rest
      match outcome with
      | .error message => ((rowNumber, message) :: errors, prepared, titlesInFile)
      | .ok row => (errors, row :: prepared, titlesInFile)

end Prepare

/-! ## Suites by name -/

/-- A suite is named within its parent; the parent is compared as text. -/
abbrev SuiteKey := Option IdText × String

structure ImportContext where
  projectId : Uuid
  uid : Uuid
  idPrefix : String
  defaultSuiteId : Option IdText

/-- The caches an import carries from row to row. -/
structure SuiteCache where
  suiteIdByKey : Assoc SuiteKey Uuid
  expandSuiteIds : List IdText

/-- A prepared row with the suite it names, and the suite it lands in. -/
structure ResolvedImportRow where
  row : PreparedImportRow
  parentSuiteId : Option IdText
  suiteId : Option IdText

section Resolve

variable [Unicode]

def importSuiteKey (name : String) (parentId : Option IdText) : SuiteKey :=
  (parentId, normalizeImportName name)

/-- The live suites of the project with the parent, as `snapshot` has them. -/
def rescanSuites (projectId : Uuid) (parent : Option Uuid) (snapshot : Db) : List Suite :=
  snapshot.suites.select fun s ↦ s.liveIn projectId && s.parentId = parent

/-- A suite an import creates. -/
def importedSuite (id projectId : Uuid) (parentId : Option Uuid) (name : String) (now : Time) :
    Suite where
  id := id
  projectId := projectId
  parentId := parentId
  name := name
  description := ""
  preconditions := ""
  position := 0
  updatedAt := now
  deletedAt := none
  deletedBy := none

/-- Creates the suites of `missing` one after the other and enters them in the cache under the
parent text `keyOf` gives. -/
def createImportSuites (projectId : Uuid) :
    List (Option IdText × Option IdText × String) → Assoc SuiteKey Uuid →
      Handler (Assoc SuiteKey Uuid)
  | [], suiteIdByKey => pure suiteIdByKey
  | (keyParent, parentId, name) :: missing, suiteIdByKey => do
      let parent ← castUuid? parentId
      let name ← ofExcept (varchar 255 name)
      let id ← genUuid
      let now ← query Db.now
      insertSuite (importedSuite id projectId parent name now)
      createImportSuites projectId missing (suiteIdByKey.set (importSuiteKey name keyParent) id)

/-- The suites of the first level the chunk names and the cache lacks. -/
def missingTop (ctx : ImportContext) (suiteIdByKey : Assoc SuiteKey Uuid) :
    List PreparedImportRow → Assoc SuiteKey String → Assoc SuiteKey String
  | [], missing => missing
  | row :: rows, missing =>
      let key := importSuiteKey row.suiteName ctx.defaultSuiteId
      if row.suiteName = "" || suiteIdByKey.has key then missingTop ctx suiteIdByKey rows missing
      else missingTop ctx suiteIdByKey rows (missing.set key row.suiteName)

/-- What a rescan finds is entered in the cache and is missing no longer. -/
def enterRescan {ν : Type} (keyOf : Suite → SuiteKey) :
    List Suite → Assoc SuiteKey Uuid → Assoc SuiteKey ν → Assoc SuiteKey Uuid × Assoc SuiteKey ν
  | [], suiteIdByKey, missing => (suiteIdByKey, missing)
  | s :: found, suiteIdByKey, missing =>
      enterRescan keyOf found (suiteIdByKey.set (keyOf s) s.id) (missing.erase (keyOf s))

/-- The suite the row names, or the one the user had open. -/
def parentSuite (ctx : ImportContext) (suiteIdByKey : Assoc SuiteKey Uuid)
    (row : PreparedImportRow) : Option IdText :=
  if row.suiteName = "" then ctx.defaultSuiteId
  else ((suiteIdByKey.get (importSuiteKey row.suiteName ctx.defaultSuiteId)).map
    IdText.canonical).or ctx.defaultSuiteId

/-- The component suites the chunk names and the cache lacks, and the suites to expand. -/
def missingChild (ctx : ImportContext) (suiteIdByKey : Assoc SuiteKey Uuid) :
    List PreparedImportRow → Assoc SuiteKey (IdText × String) → List IdText →
      Assoc SuiteKey (IdText × String) × List IdText
  | [], missing, expand => (missing, expand)
  | row :: rows, missing, expand =>
      match parentSuite ctx suiteIdByKey row with
      | none => missingChild ctx suiteIdByKey rows missing expand
      | some parent =>
          if row.componentName = "" then missingChild ctx suiteIdByKey rows missing expand
          else
            let expand := if row.suiteName = "" then expand.insert parent else expand
            let key := importSuiteKey row.componentName (some parent)
            if suiteIdByKey.has key then missingChild ctx suiteIdByKey rows missing expand
            else missingChild ctx suiteIdByKey rows
              (missing.set key (parent, row.componentName)) expand

/-- The suite the row lands in: the component's when it names one, else the parent. -/
def landingSuite (suiteIdByKey : Assoc SuiteKey Uuid) (parent : Option IdText)
    (row : PreparedImportRow) : Option IdText :=
  match parent with
  | none => none
  | some parent =>
      if row.componentName = "" then some parent
      else ((suiteIdByKey.get (importSuiteKey row.componentName (some parent))).map
        IdText.canonical).getD parent

/-- The first level: what the chunk names and the cache lacks is looked up in `snapshot` below the
suite the user had open, and created there when it is not found. -/
def resolveTopSuites (snapshot : Db) (ctx : ImportContext) (suiteIdByKey : Assoc SuiteKey Uuid)
    (prepared : List PreparedImportRow) : Handler (Assoc SuiteKey Uuid) := do
  let missing := missingTop ctx suiteIdByKey prepared []
  let defaultSuite ← castUuid? ctx.defaultSuiteId
  let found := if missing = [] then [] else rescanSuites ctx.projectId defaultSuite snapshot
  let rescan := enterRescan (fun s ↦ importSuiteKey s.name ctx.defaultSuiteId) found suiteIdByKey
    missing
  createImportSuites ctx.projectId
    (rescan.2.map fun entry ↦ (ctx.defaultSuiteId, ctx.defaultSuiteId, entry.2)) rescan.1

/-- The second level: the component suites, below the suite of their row. -/
def resolveChildSuites (snapshot : Db) (ctx : ImportContext) (cache : SuiteCache)
    (prepared : List PreparedImportRow) : Handler SuiteCache := do
  let missing := missingChild ctx cache.suiteIdByKey prepared [] cache.expandSuiteIds
  let parents ← ofExcept (missing.1.mapM fun entry ↦ readUuid entry.2.1)
  let found := parents.dedup.flatMap fun parent ↦ rescanSuites ctx.projectId (some parent) snapshot
  let rescan := enterRescan (fun s ↦ importSuiteKey s.name (s.parentId.map IdText.canonical)) found
    cache.suiteIdByKey missing.1
  let created ← ofExcept (rescan.2.mapM fun entry ↦ readUuid entry.2.1)
  let suiteIdByKey ← createImportSuites ctx.projectId
    (rescan.2.map fun entry ↦ (entry.2.1.uuid.map IdText.canonical, some entry.2.1, entry.2.2))
    rescan.1
  pure ⟨suiteIdByKey,
    created.foldl (fun expand parent ↦ expand.insert (.canonical parent)) missing.2⟩

/-- `resolveImportSuites`: the rescans read `snapshot`. -/
def resolveImportSuites (snapshot : Db) (ctx : ImportContext) (cache : SuiteCache)
    (prepared : List PreparedImportRow) : Handler (SuiteCache × List ResolvedImportRow) := do
  let top ← resolveTopSuites snapshot ctx cache.suiteIdByKey prepared
  let cache ← resolveChildSuites snapshot ctx ⟨top, cache.expandSuiteIds⟩ prepared
  -- a row's parent is settled before the component suites are created
  pure (cache, prepared.map fun row ↦
    let parent := parentSuite ctx top row
    ⟨row, parent, landingSuite cache.suiteIdByKey parent row⟩)

end Resolve

/-! ## Writing a chunk -/

structure ImportState where
  cache : SuiteCache
  titlesInFile : List String
  errors : List (ℤ × String)
  imported : ℕ

/-- The test case a resolved row becomes, `index` rows into the statement. -/
def importedTestcase (db : Db) (ctx : ImportContext) (startNumber index : ℕ)
    (resolved : ResolvedImportRow) : Except Failure Testcase := do
  let suiteId ← readUuid? resolved.suiteId
  let text ← storeTexts resolved.row.text
  let externalId ← varchar 32 (externalIdOf ctx.idPrefix (startNumber + index))
  pure {
    id := db.uuids index, projectId := ctx.projectId, suiteId, externalId, text,
    steps := resolved.row.steps, ownerId := none, createdBy := some ctx.uid,
    updatedBy := some ctx.uid, updatedAt := db.now, deletedAt := none, deletedBy := none }

def insertImportChunk (ctx : ImportContext) (resolved : List ResolvedImportRow)
    (startNumber : ℕ) : Handler ℕ := do
  let rows ← check fun db ↦
    (resolved.mapIdx fun index row ↦ (index, row)).mapM fun (index, row) ↦
      importedTestcase db ctx startNumber index row
  takeUuids rows.length
  insertTestcases rows
  ofExcept (resolved.forM fun r ↦ r.row.related)
  pure rows.length

/-- What the result shows against a row that failed. -/
def importRowErrorMessage : Failure → String
  | .sqlState _ _ => "Failed to import row"
  | e => failureText e

section Chunks

variable [Unicode]

/-- The rows one at a time, each in its own savepoint; the number advances past a row only when
the row is in. -/
def insertImportRowsIndividually (snapshot : Db) (ctx : ImportContext) :
    List PreparedImportRow → ℕ → ImportState → Handler ImportState
  | [], _, st => pure st
  | row :: rows, nextNumber, st => do
      match ← savepoint do
          let (cache, resolved) ← resolveImportSuites snapshot ctx st.cache [row]
          let _ ← insertImportChunk ctx resolved nextNumber
          pure cache with
      | .ok cache =>
          insertImportRowsIndividually snapshot ctx rows (nextNumber + 1)
            { st with cache := cache, imported := st.imported + 1 }
      | .error e =>
          insertImportRowsIndividually snapshot ctx rows nextNumber
            { st with errors := st.errors ++ [(row.rowNumber, importRowErrorMessage e)] }

/-- The transaction of a chunk whose rows are prepared. -/
def writeImportChunk (snapshot : Db) (ctx : ImportContext) (prepared : List PreparedImportRow)
    (st : ImportState) : Handler ImportState := transaction do
  let maxNumber ← maxExternalIdSeq ctx.projectId ctx.idPrefix
  match ← savepoint do
      let (cache, resolved) ← resolveImportSuites snapshot ctx st.cache prepared
      let created ← insertImportChunk ctx resolved (maxNumber + 1)
      pure (cache, created) with
  | .ok (cache, created) =>
      pure { st with cache := cache, imported := st.imported + created }
  | .error _ => insertImportRowsIndividually snapshot ctx prepared (maxNumber + 1) st

/-! ## The import -/

def importMaxRows : ℕ := 20000
def importChunkSize : ℕ := 1000

/-- The chunks with the index of their first row. -/
def importChunks (rows : List ImportRow) : List (ℕ × List ImportRow) :=
  (List.range ((rows.length + importChunkSize - 1) / importChunkSize)).map fun k ↦
    (k * importChunkSize, (rows.drop (k * importChunkSize)).take importChunkSize)

/-- `defaultSuiteId`, confirmed to be a live suite of the project. -/
def resolveDefaultSuite (projectId : Uuid) (defaultSuiteId : Arg IdText) :
    Handler (Option IdText) :=
  match defaultSuiteId.truthy with
  | none => pure none
  | some candidate => check fun db ↦
      if candidate.isUuid && candidate.uuid.any fun id ↦ (findLiveSuiteIn projectId id db).isSome
      then .ok (some candidate)
      else .error (.badRequest "defaultSuiteId is not a suite in this project")

/-- The titles of the project's live test cases, normalized. -/
def titlesInProject (projectId : Uuid) (db : Db) : List String :=
  (db.testcases.select fun t ↦ t.projectId = projectId && t.live).map fun t ↦
    normalizeImportName ((t.text .title).getD "")

/-- The live suites of the project by name within their parent. -/
def suitesByKey (projectId : Uuid) (db : Db) : Assoc SuiteKey Uuid :=
  Assoc.ofList ((db.suites.select (Suite.liveIn projectId)).map fun s ↦
    (importSuiteKey s.name (s.parentId.map IdText.canonical), s.id))

/-- Everything an import reads before its first chunk. -/
def openImport (userId : Option Uuid) (projectId : IdText) (body : ImportBody) :
    Handler (ImportContext × List String × ImportState) := do
  let uid ← requireUser userId
  let access ← requireProjectAccess (some uid) projectId
  require (body.rows ≠ []) (.badRequest "rows must be a non-empty array")
  require (body.rows.length ≤ importMaxRows)
    (.badRequest s!"An import is limited to {importMaxRows} rows per request.")
  let defaultSuiteId ← resolveDefaultSuite access.project.id body.defaultSuiteId
  let titles ← query (titlesInProject access.project.id)
  let suiteIdByKey ← query (suitesByKey access.project.id)
  pure (⟨access.project.id, uid, idPrefix body.testcaseIdPrefix.nullish (some access.project),
      defaultSuiteId⟩, titles, ⟨⟨suiteIdByKey, []⟩, [], [], 0⟩)

/-- The rows of a chunk that can be written, and the state with the others reported. -/
def prepareChunk (titles : List String) (start : ℕ) (chunk : List ImportRow) (st : ImportState) :
    List PreparedImportRow × ImportState :=
  let (errors, prepared, titlesInFile) :=
    prepareImportRows titles st.titlesInFile start chunk
  (prepared, { st with titlesInFile := titlesInFile, errors := st.errors ++ errors })

def importChunk (ctx : ImportContext) (titles : List String) (start : ℕ)
    (chunk : List ImportRow) (st : ImportState) : Handler ImportState := do
  let (prepared, st) := prepareChunk titles start chunk st
  if prepared = [] then pure st
  else
    let snapshot ← query id
    writeImportChunk snapshot ctx prepared st

def importChunkList (ctx : ImportContext) (titles : List String) :
    List (ℕ × List ImportRow) → ImportState → Handler ImportState
  | [], st => pure st
  | (start, chunk) :: chunks, st => do
      let st ← importChunk ctx titles start chunk st
      importChunkList ctx titles chunks st

structure ImportResult where
  imported : ℕ
  total : ℕ
  errors : List (ℤ × String)
  expandSuiteIds : List IdText

def importTestCases (userId : Option Uuid) (projectId : IdText) (body : ImportBody) :
    Handler ImportResult := do
  let (ctx, titles, st) ← openImport userId projectId body
  let st ← importChunkList ctx titles (importChunks body.rows) st
  pure ⟨st.imported, body.rows.length,
    st.errors.mergeSort fun a b ↦ a.1 ≤ b.1, st.cache.expandSuiteIds⟩

end Chunks

end Tesbo
