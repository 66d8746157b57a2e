import Tesbo.ReportedResults
import Tesbo.CommentWording

/-!
# The history of a run

A run and its results take over what another tool recorded of them.  A payload is read key by key: a
key that is left out says nothing, `null` clears.
-/

namespace Tesbo.Arg

variable {α β ε : Type}

/-- Whether a value is there, and whether it is `null`. -/
def shape : Arg α → Arg Unit
  | undefined => undefined
  | null => null
  | value _ => value ()

def traverse (f : α → Except ε β) : Arg α → Except ε (Arg β)
  | undefined => .ok undefined
  | null => .ok null
  | value a => (f a).map value

end Tesbo.Arg

namespace Tesbo.RunHistory

open Reasoning Service
open TicketComments (isUuid)

/-! ## The payload -/

/-- A JSON document.  The keys of an object are told apart. -/
inductive Json where
  | null
  | boolean (b : Bool)
  | number (x : ℚ)
  | text (s : String)
  | list (items : List Json)
  | object (fields : List (String × Json))

/-- `j[key]`; `none` is `undefined`. -/
def Json.get (j : Json) (key : String) : Option Json :=
  match j with
  | .object fields => fields.lookup key
  | _ => none

/-- `entry && typeof entry === "object"` -/
def Json.isObject : Json → Bool
  | .list _ | .object _ => true
  | _ => false

/-- `Date.parse`, which takes a text without an offset for local time; `none` is `NaN`. -/
class Dates where
  parse : String → Option ℤ

/-! ## The dates of a payload -/

def afterDigits : ℕ → List Char → Option (List Char)
  | 0, cs => some cs
  | n + 1, c :: cs => if c.isDigit then afterDigits n cs else none
  | _ + 1, [] => none

/-- `(?:Z|[+-]\d{2}:?\d{2})?$` -/
def zoneShape : List Char → Bool
  | [] | ['Z'] => true
  | sign :: cs =>
      (sign = '+' || sign = '-') &&
        match afterDigits 2 cs with
        | some (':' :: cs) | some cs => afterDigits 2 cs = some []
        | none => false

/-- `(?:\.\d+)?`, and the zone. -/
def fractionShape : List Char → Bool
  | '.' :: cs => cs.takeWhile Char.isDigit ≠ [] && zoneShape (cs.dropWhile Char.isDigit)
  | cs => zoneShape cs

/-- `\d{2}:\d{2}(?::\d{2}(?:\.\d+)?)?`, and the zone. -/
def timeShape (cs : List Char) : Bool :=
  match afterDigits 2 cs with
  | some (':' :: cs) =>
      match afterDigits 2 cs with
      | some (':' :: cs) => (afterDigits 2 cs).elim false fractionShape
      | some cs => zoneShape cs
      | none => false
  | _ => false

/-- `/^\d{4}-\d{2}-\d{2}(?:[T ]\d{2}:\d{2}(?::\d{2}(?:\.\d+)?)?(?:Z|[+-]\d{2}:?\d{2})?)?$/` -/
def dateShape (cs : List Char) : Bool :=
  match afterDigits 4 cs with
  | some ('-' :: cs) =>
      match afterDigits 2 cs with
      | some ('-' :: cs) =>
          match afterDigits 2 cs with
          | some [] => true
          | some (c :: cs) => (c = 'T' || c = ' ') && timeShape cs
          | none => false
      | _ => false
  | _ => false

/-! ## The readers of one value -/

def historyImportMaxSteps : ℕ := 500
def historyImportMaxHistory : ℕ := 100

/-- The instant of a text, in milliseconds; `toISOString` writes it. -/
def historyTimestamp [Dates] (raw : Json) (label : String) : Except Failure (Option ℤ) :=
  let refused := .error (.badRequest s!"{label} must be an ISO 8601 date-time or null")
  match raw with
  | .null => .ok none
  | .text s =>
      if dateShape (jsTrim s).toList
      then (Dates.parse (jsTrim s)).elim refused fun time ↦ .ok (some time)
      else refused
  | _ => refused

def historyInt (raw : Json) (label : String) (max : ℤ) : Except Failure (Option ℤ) :=
  let refused := .error (.badRequest s!"{label} must be a whole number from 0 to {max} or null")
  match raw with
  | .null => .ok none
  | .number x => if x.isInt ∧ 0 ≤ x ∧ x ≤ max then .ok (some x.num) else refused
  | _ => refused

def historyText (raw : Json) (label : String) : Except Failure (Option String) :=
  match raw with
  | .null => .ok none
  | .text s =>
      if historyImportMaxText < jsLength s then
        .error (.badRequest
          s!"{label} is too long ({jsLength s} characters, the limit is {historyImportMaxText})")
      else .ok (some s)
  | _ => .error (.badRequest s!"{label} must be a string or null")

/-- A text of the list, where the key is sent. -/
def oneOf (allowed : List String) (refused : Failure) : Option Json → Except Failure String
  | some (.text s) => if s ∈ allowed then .ok s else .error refused
  | _ => .error refused

def historyStatus (raw : Option Json) (label : String) : Except Failure String :=
  oneOf executionStatuses (.badRequest s!"{label} must be one of: {commaList executionStatuses}") raw

def historyReporter (raw : Json) (label : String) : Except Failure String :=
  oneOf ["human", "automation"] (.badRequest s!"{label} must be human or automation") (some raw)

/-- What a key is set to: nothing where it is left out. -/
def field {α : Type} (j : Json) (key : String) (read : Json → Except Failure (Option α)) :
    Except Failure (Arg α) :=
  match j.get key with
  | none => .ok .undefined
  | some raw => (read raw).map fun v ↦ v.elim .null .value

/-- The same for a key that cannot be `null`. -/
def nonNullField {α : Type} (j : Json) (key : String) (read : Json → Except Failure α) :
    Except Failure (Arg α) := field j key fun raw ↦ (read raw).map some

/-! ## `normalizeRunHistory` -/

/-- What a payload sets of a run; `τ` is how a time is given. -/
structure RunFields (τ : Type) where
  status : Arg String
  createdAt : Arg τ
  startedAt : Arg τ
  endedAt : Arg τ
  closedAt : Arg τ
  closeStatus : Arg String
  timeSpentMs : Arg ℤ
  elapsedMs : Arg ℤ
  tags : Arg (List String)

def maxMilliseconds : ℤ := 10000000000000

/-- The loop over the tags; of two that differ in case, the first stays. -/
def runTags [Unicode] : List String → List String → List Json → Except Failure (List String)
  | _, tags, [] => .ok tags
  | seen, tags, raw :: rest =>
      let tag := match raw with
        | .text s => jsTrim s
        | _ => ""
      if tag = "" ∨ 40 < jsLength tag then
        .error (.badRequest "Each run tag must be 1 to 40 characters")
      else if Unicode.toLowerCase tag ∈ seen then runTags seen tags rest
      else runTags (Unicode.toLowerCase tag :: seen) (tags ++ [tag]) rest

def historyTags [Unicode] : Json → Except Failure (List String)
  | .list items => do
      let tags ← runTags [] [] items
      if 20 < tags.length then .error (.badRequest "A run can have at most 20 tags") else .ok tags
  | _ => .error (.badRequest "run.tags must be an array of strings")

def createdTimestamp [Dates] (raw : Json) : Except Failure (Option ℤ) :=
  match raw with
  | .null => .error (.badRequest "run.createdAt cannot be null")
  | raw => historyTimestamp raw "run.createdAt"

def historyCloseStatus (raw : Json) : Except Failure (Option String) :=
  match raw with
  | .null => .ok none
  | raw => (oneOf ["completed", "incomplete"]
      (.badRequest "run.closeStatus must be completed, incomplete or null") (some raw)).map some

def normalizeRunHistory [Unicode] [Dates] (run : Json) : Except Failure (RunFields ℤ) := do
  let status ← nonNullField run "status" fun raw ↦ oneOf runStatuses
    (.badRequest s!"run.status must be one of: {commaList runStatuses}") (some raw)
  let createdAt ← field run "createdAt" createdTimestamp
  let startedAt ← field run "startedAt" fun raw ↦ historyTimestamp raw "run.startedAt"
  let endedAt ← field run "endedAt" fun raw ↦ historyTimestamp raw "run.endedAt"
  let closedAt ← field run "closedAt" fun raw ↦ historyTimestamp raw "run.closedAt"
  let closeStatus ← field run "closeStatus" historyCloseStatus
  let timeSpentMs ← field run "timeSpentMs" fun raw ↦ historyInt raw "run.timeSpentMs" maxMilliseconds
  let elapsedMs ← field run "elapsedMs" fun raw ↦ historyInt raw "run.elapsedMs" maxMilliseconds
  let tags ← nonNullField run "tags" historyTags
  .ok ⟨status, createdAt, startedAt, endedAt, closedAt, closeStatus, timeSpentMs, elapsedMs, tags⟩

/-! ## The results of a payload -/

structure StepResult where
  position : ℤ
  status : String
  comment : Option String
deriving DecidableEq

/-- An earlier result of the same case in the same run. -/
structure Attempt where
  status : String
  executedAt : Arg ℤ
  durationMs : Arg ℤ
  comment : Arg String
  errorStack : Arg String
  reportedBy : Arg String
deriving DecidableEq

def maxInteger : ℤ := 2147483647

def normalizeAttempt [Dates] (entry : Json) (label : String) : Except Failure Attempt := do
  (if entry.isObject then .ok () else .error (.badRequest s!"{label} must be an object"))
  let status ← historyStatus (entry.get "status") s!"{label}.status"
  let executedAt ← field entry "executedAt" fun raw ↦ historyTimestamp raw s!"{label}.executedAt"
  let durationMs ← field entry "durationMs" fun raw ↦
    historyInt raw s!"{label}.durationMs" maxInteger
  let comment ← field entry "comment" fun raw ↦ historyText raw s!"{label}.comment"
  let errorStack ← field entry "errorStack" fun raw ↦ historyText raw s!"{label}.errorStack"
  let reportedBy ← nonNullField entry "reportedBy" fun raw ↦ historyReporter raw s!"{label}.reportedBy"
  .ok ⟨status, executedAt, durationMs, comment, errorStack, reportedBy⟩

def normalizeResultHistory [Dates] (raw : Json) (label : String) :
    Except Failure (Option (List Attempt)) :=
  let refused := .error (.badRequest
    s!"{label} must be an array of at most {historyImportMaxHistory} entries or null")
  match raw with
  | .null => .ok none
  | .list entries =>
      if historyImportMaxHistory < entries.length then refused
      else (entries.zipIdx.mapM fun e ↦ normalizeAttempt e.1 s!"{label}[{e.2}]").map some
  | _ => refused

/-- `item.comment` is left out for `null` and for an empty text. -/
def stepComment (entry : Json) (label : String) : Except Failure (Option String) :=
  match entry.get "comment" with
  | none | some .null | some (.text "") => .ok none
  | some raw => historyText raw label

def stepPosition (entry : Json) (label : String) : Except Failure ℤ :=
  let refused := .error (.badRequest s!"{label} must be a whole number from 1 to 10000")
  match entry.get "position" with
  | some (.number x) => if x.isInt ∧ 1 ≤ x ∧ x ≤ 10000 then .ok x.num else refused
  | _ => refused

/-- The steps from the `i`th on, none of them at a position already `seen`. -/
def normalizeSteps (label : String) : List ℤ → ℕ → List Json → Except Failure (List StepResult)
  | _, _, [] => .ok []
  | seen, i, entry :: entries => do
      let place := s!"{label}[{i}]"
      (if entry.isObject then .ok () else .error (.badRequest s!"{place} must be an object"))
      let position ← stepPosition entry s!"{place}.position"
      (if position ∈ seen then .error (.badRequest s!"{place}.position {position} appears twice")
        else .ok ())
      let status ← historyStatus (entry.get "status") s!"{place}.status"
      let comment ← stepComment entry s!"{place}.comment"
      let rest ← normalizeSteps label (position :: seen) (i + 1) entries
      .ok (⟨position, status, comment⟩ :: rest)

def normalizeStepResults (raw : Json) (label : String) : Except Failure (Option (List StepResult)) :=
  let refused := .error (.badRequest
    s!"{label} must be an array of at most {historyImportMaxSteps} steps or null")
  match raw with
  | .null => .ok none
  | .list entries =>
      if historyImportMaxSteps < entries.length then refused
      else (normalizeSteps label [] 0 entries).map some
  | _ => refused

/-- What a payload sets of a result. -/
structure ResultFields (τ : Type) where
  testcaseId : Uuid
  status : Arg String
  actualResult : Arg String
  executedAt : Arg τ
  durationMs : Arg ℤ
  errorMessage : Arg String
  errorStack : Arg String
  reportedBy : Arg String
  stepResults : Arg (List StepResult)
  history : Arg (List Attempt)

def hexValue (c : Char) : ℕ := if c.isDigit then c.toNat - 48 else c.toLower.toNat - 87

/-- The id a text spells, where `isUuid` holds of it. -/
def uuidOf (text : String) : Option Uuid :=
  if isUuid text then
    some (text.toList.foldl (fun n c ↦ if c = '-' then n else 16 * n + hexValue c) 0)
  else none

/-- The test case an entry is of. -/
def entryId [Unicode] (entry : Json) : Option Uuid :=
  match entry.get "testcaseId" with
  | some (.text s) => uuidOf (Unicode.toLowerCase s)
  | _ => none

def normalizeResult [Dates] (testcaseId : Uuid) (entry : Json) (label : String) :
    Except Failure (ResultFields ℤ) := do
  let status ← nonNullField entry "status" fun raw ↦ historyStatus (some raw) s!"{label}.status"
  let actualResult ← field entry "actualResult" fun raw ↦ historyText raw s!"{label}.actualResult"
  let executedAt ← field entry "executedAt" fun raw ↦ historyTimestamp raw s!"{label}.executedAt"
  let durationMs ← field entry "durationMs" fun raw ↦
    historyInt raw s!"{label}.durationMs" maxInteger
  let errorMessage ← field entry "errorMessage" fun raw ↦ historyText raw s!"{label}.errorMessage"
  let errorStack ← field entry "errorStack" fun raw ↦ historyText raw s!"{label}.errorStack"
  let reportedBy ← nonNullField entry "reportedBy" fun raw ↦ historyReporter raw s!"{label}.reportedBy"
  let stepResults ← field entry "stepResults" fun raw ↦
    normalizeStepResults raw s!"{label}.stepResults"
  let history ← field entry "history" fun raw ↦ normalizeResultHistory raw s!"{label}.history"
  .ok ⟨testcaseId, status, actualResult, executedAt, durationMs, errorMessage, errorStack, reportedBy,
    stepResults, history⟩

/-- The results from the `i`th on, none of them of a test case already `seen`. -/
def normalizeResults [Unicode] [Dates] :
    List Uuid → ℕ → List Json → Except Failure (List (ResultFields ℤ))
  | _, _, [] => .ok []
  | seen, i, entry :: entries => do
      let label := s!"results[{i}]"
      (if entry.isObject then .ok () else .error (.badRequest s!"{label} must be an object"))
      let id ← (entryId entry).elim
        (.error (.badRequest s!"{label}.testcaseId must be a test case id")) .ok
      (if id ∈ seen then .error (.badRequest s!"{label}.testcaseId appears twice") else .ok ())
      let result ← normalizeResult id entry label
      let rest ← normalizeResults (id :: seen) (i + 1) entries
      .ok (result :: rest)

def payloadRun [Unicode] [Dates] (body : Json) : Except Failure (RunFields ℤ) :=
  match body.get "run" with
  | none => normalizeRunHistory (.object [])
  | some (.object fields) => normalizeRunHistory (.object fields)
  | some _ => .error (.badRequest "run must be an object")

def payloadEntries (body : Json) : Except Failure (List Json) :=
  let refused := .error (.badRequest
    s!"results must be an array of at most {historyImportMaxResults} items")
  match body.get "results" with
  | none => .ok []
  | some (.list entries) =>
      if historyImportMaxResults < entries.length then refused else .ok entries
  | some _ => refused

def normalizePayload [Unicode] [Dates] (body : Json) :
    Except Failure (RunFields ℤ × List (ResultFields ℤ)) := do
  let fields ← payloadRun body
  let entries ← payloadEntries body
  let results ← normalizeResults [] 0 entries
  .ok (fields, results)

/-! ## Runs, items and results -/

/-- A run, with the columns of its history. -/
structure Run extends Cycle where
  createdAt : Time
  closedAt : Option Time
  closeStatus : Option String
  timeSpentMs : Option ℤ
  elapsedMs : Option ℤ
  tags : List String
deriving DecidableEq

structure Result extends Execution where
  stepResults : Option (List StepResult)
  history : Option (List Attempt)
  updatedAt : Time
deriving DecidableEq

/-- The copy a run keeps of a test case, but for its external id. -/
structure Snapshot where
  title : Option String
  priority : Option String
  type : Option String
  suiteId : Option Uuid
  description : Option String
  preconditions : Option String
  postconditions : Option String
  steps : Option (List Step)
  testData : Option String
  automationStatus : Option String
  automationTags : Option String
deriving DecidableEq

structure Item extends CycleItem where
  snapshot : Snapshot
deriving DecidableEq

/-- The entry `cycle_history_imported` of the activity log. -/
structure HistoryLog where
  projectId : Uuid
  actorId : Uuid
  cycleId : Uuid
  runFields : List String
  results : ℕ
  applied : ℕ
  unmatched : ℕ
  refreshedSnapshots : ℕ
deriving DecidableEq

/-- `rest` has the other tables. -/
structure RunDb where
  rest : Db
  runs : Table fun r : Run ↦ r.id
  items : Table fun i : Item ↦ i.id
  results : Table fun e : Result ↦ e.id
  logs : List HistoryLog

/-- The tables, as the access checks see them. -/
def RunDb.db (s : RunDb) : Db :=
  { s.rest with
    cycles := ⟨s.runs.rows.map Run.toCycle, by rw [List.map_map]; exact s.runs.nodup⟩
    cycleItems := ⟨s.items.rows.map Item.toCycleItem, by rw [List.map_map]; exact s.items.nodup⟩
    executions := ⟨s.results.rows.map Result.toExecution, by
      rw [List.map_map]; exact s.results.nodup⟩ }

def RunDb.withUsers (s : RunDb) (users : Table User.id) : RunDb :=
  { s with rest := { s.rest with users := users } }

abbrev Import (α : Type) := Service Failure RunDb α

/-- A check of the caller.  It writes no table but the users. -/
def onUsers {α : Type} (m : Handler α) : Import α := fun s ↦
  ((m s.db).1, s.withUsers (m s.db).2.users)

/-! ## The transaction -/

/-- `timestamptz` of what `toISOString` writes: the years 1 to 9999.  `Time` counts from the year 1. -/
def timestamptz (time : ℤ) : Except Failure Time :=
  if 0 ≤ time + 62135596800000 ∧ time < 253402300800000 then .ok (time + 62135596800000).toNat
  else .error (.sqlState "22008" "")

/-- A text of the database holds no NUL. -/
def storable (text : String) : Prop := Char.ofNat 0 ∉ text.toList

instance (text : String) : Decidable (storable text) := inferInstanceAs (Decidable (_ ∉ _))

def storableTags (tags : List String) : Except Failure (List String) :=
  if ∀ tag ∈ tags, storable tag then .ok tags else .error (.sqlState "22021" "")

namespace RunFields

/-- `[...runFields.keys()]` -/
def columns {τ : Type} (f : RunFields τ) : List String :=
  [(f.status.sent, "status"), (f.createdAt.sent, "created_at"), (f.startedAt.sent, "started_at"),
    (f.endedAt.sent, "ended_at"), (f.closedAt.sent, "closed_at"),
    (f.closeStatus.sent, "close_status"), (f.timeSpentMs.sent, "time_spent_ms"),
    (f.elapsedMs.sent, "elapsed_ms"), (f.tags.sent, "tags")].filterMap fun c ↦
      if c.1 then some c.2 else none

/-- The parameters of the statement. -/
def bound (f : RunFields ℤ) : Except Failure (RunFields Time) := do
  let createdAt ← f.createdAt.traverse timestamptz
  let startedAt ← f.startedAt.traverse timestamptz
  let endedAt ← f.endedAt.traverse timestamptz
  let closedAt ← f.closedAt.traverse timestamptz
  let tags ← f.tags.traverse storableTags
  .ok ⟨f.status, createdAt, startedAt, endedAt, closedAt, f.closeStatus, f.timeSpentMs, f.elapsedMs,
    tags⟩

def apply (f : RunFields Time) (now : Time) (r : Run) : Run :=
  { r with
    status := f.status.nullish.getD r.status
    createdAt := f.createdAt.nullish.getD r.createdAt
    startedAt := f.startedAt.over r.startedAt
    endedAt := f.endedAt.over r.endedAt
    closedAt := f.closedAt.over r.closedAt
    closeStatus := f.closeStatus.over r.closeStatus
    timeSpentMs := f.timeSpentMs.over r.timeSpentMs
    elapsedMs := f.elapsedMs.over r.elapsedMs
    tags := f.tags.nullish.getD r.tags
    updatedAt := now }

end RunFields

/-- `UPDATE cycles SET … WHERE id = $1 AND deleted_at IS NULL`, where a column is sent. -/
def storeRun (runId : Uuid) (fields : RunFields ℤ) : Import Unit :=
  if fields.columns = [] then pure ()
  else exec fun s ↦ do
    let bound ← fields.bound
    .ok { s with
      runs := s.runs.updateWhere (fun r ↦ r.id = runId ∧ r.live) (bound.apply s.rest.now)
        fun _ ↦ rfl }

namespace ResultFields

/-- The texts of the entry in `JSON.stringify(results)`. -/
def texts {τ : Type} (r : ResultFields τ) : List String :=
  r.actualResult.nullish.toList ++ r.errorMessage.nullish.toList ++ r.errorStack.nullish.toList ++
    (r.stepResults.nullish.getD []).filterMap StepResult.comment ++
    (r.history.nullish.getD []).flatMap fun a ↦
      a.comment.nullish.toList ++ a.errorStack.nullish.toList

def bound (r : ResultFields ℤ) : Except Failure (ResultFields Time) := do
  let executedAt ← r.executedAt.traverse timestamptz
  .ok { r with executedAt := executedAt }

/-- A `CASE` for each column. -/
def apply (r : ResultFields Time) (now : Time) (e : Result) : Result :=
  { e with
    status := r.status.nullish.getD e.status
    actualResult := r.actualResult.over e.actualResult
    executedAt := r.executedAt.over e.executedAt
    durationMs := r.durationMs.over e.durationMs
    errorMessage := r.errorMessage.over e.errorMessage
    errorStack := r.errorStack.over e.errorStack
    reportedBy := r.reportedBy.nullish.getD e.reportedBy
    stepResults := r.stepResults.over e.stepResults
    history := r.history.over e.history
    updatedAt := now }

end ResultFields

/-- The test case of a result in a run: both the item and the result are live. -/
def caseIn (runId : Uuid) (s : RunDb) (e : Result) : Option Uuid := do
  let item ← s.items.find e.cycleItemId
  if e.live ∧ item.live ∧ item.cycleId = runId then some item.testcaseId else none

/-- The row of `target` for a result. -/
def targetOf (runId : Uuid) (results : List (ResultFields Time)) (s : RunDb) (e : Result) :
    Option (ResultFields Time) :=
  (caseIn runId s e).bind fun id ↦ results.find? fun r ↦ r.testcaseId = id

/-- The `UPDATE executions`, and the test cases it returns. -/
def updateResults (runId : Uuid) (results : List (ResultFields ℤ)) (s : RunDb) :
    Except Failure (List Uuid × RunDb) := do
  (if ∀ r ∈ results, ∀ text ∈ r.texts, storable text then .ok ()
    else .error (.sqlState "22P05" ""))
  let matched := results.filter fun r ↦
    s.results.rows.any fun e ↦ caseIn runId s e = some r.testcaseId
  let bound ← matched.mapM ResultFields.bound
  .ok (matched.map ResultFields.testcaseId, { s with
    results := s.results.updateWhere (fun e ↦ (targetOf runId bound s e).isSome)
      (fun e ↦ (targetOf runId bound s e).elim e fun r ↦ r.apply s.rest.now e) fun e ↦ by
        cases targetOf runId bound s e <;> rfl })

def storeResults (runId : Uuid) (results : List (ResultFields ℤ)) : Import (List Uuid) :=
  if results = [] then pure [] else returning (updateResults runId results)

def snapshotOf (t : Testcase) : Snapshot where
  title := t.text .title
  priority := t.text .priority
  type := t.text .type
  suiteId := t.suiteId
  description := t.text .description
  preconditions := t.text .preconditions
  postconditions := t.text .postconditions
  steps := some t.steps
  testData := t.text .testData
  automationStatus := t.text .automationStatus
  automationTags := t.text .automationTags

/-- The live test case of a live item of the run. -/
def liveCase (runId : Uuid) (s : RunDb) (item : Item) : Option Testcase :=
  if item.live ∧ item.cycleId = runId
  then (s.rest.testcases.find item.testcaseId).filter Testcase.live else none

/-- The `UPDATE cycle_items`, and how many rows it changes. -/
def refreshItems (runId : Uuid) (s : RunDb) : ℕ × RunDb :=
  ((s.items.select fun i ↦ (liveCase runId s i).isSome).length, { s with
    items := s.items.updateWhere (fun i ↦ (liveCase runId s i).isSome)
      (fun i ↦ (liveCase runId s i).elim i fun t ↦
        { i with snapshotExternalId := t.externalId, snapshot := snapshotOf t }) fun i ↦ by
          cases liveCase runId s i <;> rfl })

def refreshSnapshots (runId : Uuid) (refresh : Bool) : Import ℕ :=
  if refresh then returning fun s ↦ .ok (refreshItems runId s) else pure 0

/-! ## `importRunHistory` -/

structure Answer where
  applied : ℕ
  unmatched : List Uuid
  refreshedSnapshots : ℕ
  runFields : List String
deriving DecidableEq

/-- The caller, the project and the run, where the caller may import into it. -/
def requireImporter (userId : Option Uuid) (cycleId : IdText) : Handler (Uuid × Uuid × Uuid) := do
  let uid ← requireUser userId
  let projectId ← requireCycleAccess (some uid) cycleId
  let access ← requireProjectAccess (some uid) (.canonical projectId)
  require (normalizeRole access.callerRole ≠ .qaEngineer)
    (.forbidden "QA Engineers cannot import run history")
  let runId ← castUuid cycleId
  pure (uid, projectId, runId)

/-- `body.refreshSnapshots === true` -/
def wantsSnapshots (body : Json) : Bool :=
  match body.get "refreshSnapshots" with
  | some (.boolean b) => b
  | _ => false

def storeHistory (runId : Uuid) (fields : RunFields ℤ) (results : List (ResultFields ℤ))
    (refresh : Bool) : Import (List Uuid × ℕ) := transaction do
  storeRun runId fields
  let matched ← storeResults runId results
  let refreshed ← refreshSnapshots runId refresh
  pure (matched, refreshed)

def importRunHistory [Unicode] [Dates] (userId : Option Uuid) (cycleId : IdText) (body : Json) :
    Import Answer := do
  let (uid, projectId, runId) ← onUsers (requireImporter userId cycleId)
  let (fields, results) ← ofExcept (normalizePayload body)
  let (matched, refreshed) ← storeHistory runId fields results (wantsSnapshots body)
  let unmatched := (results.map ResultFields.testcaseId).filter fun id ↦ id ∉ matched
  write fun s ↦
    { s with
      logs := s.logs ++ [⟨projectId, uid, runId, fields.columns, results.length, matched.length,
        unmatched.length, refreshed⟩] }
  pure ⟨matched.length, unmatched, refreshed, fields.columns⟩

end Tesbo.RunHistory
