import Tesbo.Executions
import Tesbo.Reasoning.Assoc

/-!
# Results that come from elsewhere

An automation reports the result of a case it names by its external id, and the history of a run in
another tool is imported over the results of an existing run.
-/

namespace Tesbo

open Reasoning Service

/-! ## Automation -/

/-- The actor automation results are recorded under, when its row could be read. -/
class AutomationAgent where
  actorId : Option Uuid

def wireStatusMap : List (String × String) := [
  ("pass", "Passed"), ("passed", "Passed"), ("fail", "Failed"), ("failed", "Failed"),
  ("skip", "Skipped"), ("skipped", "Skipped"), ("blocked", "Blocked"), ("retest", "Retest"),
  ("untested", "Untested"), ("timedout", "Failed"), ("interrupted", "Blocked")]

/-- What the map inherits as an object, of the names that letters without separators can make, as
the driver writes it. -/
def inheritedStatuses : List (String × String) :=
  [("constructor", "function Object() \x7b [native code] \x7d")]

/-- `input.trim().toLowerCase().replace(/[\s_-]/g, "")` -/
def wireKey [Unicode] (input : String) : String :=
  String.ofList ((Unicode.toLowerCase (jsTrim input)).toList.filter fun c ↦
    !jsSpace c && c ≠ '_' && c ≠ '-')

/-- `WIRE_STATUS_MAP[key] ?? null` -/
def normalizeWireStatus [Unicode] : Arg JsonText → Option String
  | .value (.text input) => (wireStatusMap ++ inheritedStatuses).lookup (wireKey input)
  | _ => none

structure ResultBody where
  caseId : Arg String
  status : Arg JsonText
  durationMs : Arg ℤ
  retryCount : Arg ℤ
  errorMessage : Arg String
  errorStack : Arg String

def maxCaseIdLength : ℕ := 32
def maxErrorMessageLength : ℕ := 8000
def maxErrorStackLength : ℕ := 32000

def boundedString (value : Arg String) (field : String) (max : ℕ) :
    Except Failure (Option String) :=
  match value.nullish.map jsTrim with
  | none => .ok none
  | some text =>
      if text = "" then .ok none
      else if max < jsLength text then
        .error (.badRequest s!"{field} must be {max} characters or fewer (got {jsLength text})")
      else .ok (some text)

def normalizeDuration (value : Arg ℤ) : Except Failure (Option ℤ) :=
  match value.nullish with
  | none => .ok none
  | some ms =>
      if ms < 0 then
        .error (.badRequest "durationMs must be a non-negative number of milliseconds")
      else if 2147483647 < ms then
        .error (.badRequest "durationMs is larger than a single test execution can plausibly be")
      else .ok (some ms)

def normalizeRetryCount (value : Arg ℤ) : Except Failure (Option ℤ) :=
  match value.nullish with
  | none => .ok none
  | some count =>
      if count < 0 then .error (.badRequest "retryCount must be a non-negative integer")
      else if 1000 < count then .error (.badRequest "retryCount is implausibly large")
      else .ok (some count)

/-- The live cases of the project by external id, in lower case. -/
def resolveCases [Unicode] (projectId : Uuid) (caseId : String) (db : Db) : Assoc String Testcase :=
  Assoc.ofList ((db.testcases.select fun t ↦
      t.projectId = projectId ∧ t.live ∧
        Unicode.lower t.externalId = Unicode.toLowerCase caseId).map fun t ↦
    (Unicode.toLowerCase t.externalId, t))

/-- The live run of the project. -/
def requireRun (projectId : Uuid) (runId : IdText) : Handler Cycle := do
  require (runId.isUuid = true) (.notFound "Run not found")
  let id ← castUuid runId
  check fun db ↦
    ((db.cycles.find id).filter fun c ↦ c.live && c.projectId = projectId).elim
      (.error (.notFound "Run not found")) .ok

def insertCycleItem (runId : Uuid) (t : Testcase) (id : Uuid) (db : Db) : Except Failure Db :=
  match db.cycleItems.insert ⟨id, runId, t.id, t.externalId, none⟩ with
  | none => .error (.unique "cycle_items_pkey")
  | some cycleItems => .ok { db with cycleItems := cycleItems }

/-- A result nobody has recorded. -/
def untested (id cycleItemId : Uuid) : Execution :=
  ⟨id, cycleItemId, "Untested", none, none, none, none, none, none, none, 0, none, none, "human", none⟩

def insertExecution (cycleItemId id : Uuid) (db : Db) : Except Failure Db :=
  match db.executions.insert (untested id cycleItemId) with
  | none => .error (.unique "executions_pkey")
  | some executions => .ok { db with executions := executions }

/-- The case joins the run, unless it is in it, with an untested result. -/
def attachCase (runId : Uuid) (t : Testcase) : Handler Unit := do
  let attaches ← query fun db ↦
    decide ((∃ run ∈ db.cycles.find runId, run.live = true) ∧
      ¬ ∃ item ∈ db.cycleItems, item.cycleId = runId ∧ item.testcaseId = t.id ∧ item.live = true)
  if attaches then do
    let itemId ← genUuid
    exec (insertCycleItem runId t itemId)
    let id ← genUuid
    exec (insertExecution itemId id)
  else pure ()

def attachCases [Unicode] (runId projectId : Uuid) (caseId : String) : Handler Unit := do
  let found ← query (resolveCases projectId caseId)
  forEach (fun e ↦ attachCase runId e.2) found

/-- What an automation reports of a case. -/
structure Report where
  status : String
  actorId : Uuid
  durationMs : Option ℤ
  retryCount : Option ℤ
  errorMessage : Option String
  errorStack : Option String

def Report.apply (r : Report) (now : Time) (e : Execution) : Execution :=
  { e with
    status := r.status
    executedAt := some now
    executedBy := some r.actorId
    durationMs := r.durationMs
    retryCount := r.retryCount.getD (if e.status ≠ "Untested" then e.retryCount + 1 else e.retryCount)
    errorMessage := r.errorMessage
    errorStack := r.errorStack
    reportedBy := "automation" }

/-- The results of a case in a run: at most one of them is live. -/
def IsResultOf (runId testcaseId : Uuid) (db : Db) (e : Execution) : Prop :=
  e.live = true ∧ ∃ item ∈ db.cycleItems.find e.cycleItemId,
    item.cycleId = runId ∧ item.testcaseId = testcaseId

instance (runId testcaseId : Uuid) (db : Db) (e : Execution) :
    Decidable (IsResultOf runId testcaseId db e) :=
  inferInstanceAs (Decidable (_ ∧ ∃ item ∈ db.cycleItems.find e.cycleItemId, _ ∧ _))

/-- The `UPDATE … FROM cycle_items`; without a row to update, `missing`. -/
def storeReport (runId testcaseId : Uuid) (r : Report) (missing : Failure) (db : Db) :
    Except Failure Db := do
  let status ← varchar 32 r.status
  if ∃ e ∈ db.executions, IsResultOf runId testcaseId db e then
    .ok { db with
      executions := db.executions.updateWhere (fun e ↦ IsResultOf runId testcaseId db e)
        ({ r with status := status }.apply db.now) fun _ ↦ rfl }
  else .error missing

def touchCycle (runId : Uuid) (db : Db) : Db :=
  { db with
    cycles := db.cycles.updateWhere (fun c ↦ c.id = runId)
      (fun c ↦ { c with lastResultAt := some db.now, updatedAt := db.now }) fun _ ↦ rfl }

def recordResult [Unicode] [AutomationAgent] (userId : Option Uuid) (projectId runId : IdText)
    (body : ResultBody) : Handler Unit := do
  let access ← requireProjectAccess userId projectId
  let run ← requireRun access.project.id runId
  let actorId ← ofExcept ((AutomationAgent.actorId.or userId).elim
    (.error (.badRequest "Authenticated caller required")) .ok)
  let caseId ← ofExcept (boundedString body.caseId "caseId" maxCaseIdLength)
  let caseId ← ofExcept (caseId.elim (.error (.badRequest "caseId is required")) .ok)
  let status ← ofExcept ((normalizeWireStatus body.status).elim
    (.error (.badRequest
      s!"status must be one of: {commaList (wireStatusMap.map Prod.fst)}")) .ok)
  let testcase ← check fun db ↦
    ((resolveCases access.project.id caseId db).get (Unicode.toLowerCase caseId)).elim
      (.error (.notFound s!"No test case with id \"{caseId}\" in this project. Automation reports results against existing cases and never creates them — add the case in Tesbo, or fix the tesbo.testId() tag."))
      .ok
  let durationMs ← ofExcept (normalizeDuration body.durationMs)
  let retryCount ← ofExcept (normalizeRetryCount body.retryCount)
  let errorMessage ← ofExcept (boundedString body.errorMessage "errorMessage" maxErrorMessageLength)
  let errorStack ← ofExcept (boundedString body.errorStack "errorStack" maxErrorStackLength)
  attachCases run.id access.project.id testcase.externalId
  exec (storeReport run.id testcase.id
    ⟨status, actorId, durationMs, retryCount, errorMessage, errorStack⟩
    (.notFound s!"The result row for case \"{caseId}\" in this run is no longer available"))
  write (touchCycle run.id)

/-! ## The history of a run -/

/-- The state of one result in another tool; what is left out stays as it is, `null` clears. -/
structure HistoryResult where
  testcaseId : IdText
  status : Arg String
  actualResult : Arg String
  executedAt : Arg Time
  durationMs : Arg ℤ
  errorMessage : Arg String
  errorStack : Arg String
  reportedBy : Arg String

structure HistoryRun where
  status : Arg String
  startedAt : Arg Time
  endedAt : Arg Time

structure HistoryBody where
  run : Option HistoryRun
  results : List HistoryResult

def historyImportMaxResults : ℕ := 500
def historyImportMaxText : ℕ := 1000000

def runStatuses : List String := ["Planning", "In Progress", "Completed"]

def historyStatus (value : Arg String) (label : String) : Except Failure Unit :=
  match value with
  | .undefined => .ok ()
  | .null => .error (.badRequest s!"{label} must be one of: {commaList executionStatuses}")
  | .value status =>
      if status ∈ executionStatuses then .ok ()
      else .error (.badRequest s!"{label} must be one of: {commaList executionStatuses}")

def historyText (value : Arg String) (label : String) : Except Failure Unit :=
  match value with
  | .undefined | .null => .ok ()
  | .value text =>
      if historyImportMaxText < jsLength text then
        .error (.badRequest
          s!"{label} is too long ({jsLength text} characters, the limit is {historyImportMaxText})")
      else .ok ()

def historyInt (value : Arg ℤ) (label : String) (max : ℤ) : Except Failure Unit :=
  match value with
  | .undefined | .null => .ok ()
  | .value n =>
      if n < 0 ∨ max < n then
        .error (.badRequest s!"{label} must be a whole number from 0 to {max} or null")
      else .ok ()

def HistoryResult.validate (r : HistoryResult) (label : String) : Except Failure Unit := do
  historyStatus r.status s!"{label}.status"
  historyText r.actualResult s!"{label}.actualResult"
  historyInt r.durationMs s!"{label}.durationMs" 2147483647
  historyText r.errorMessage s!"{label}.errorMessage"
  historyText r.errorStack s!"{label}.errorStack"
  (if ∀ reporter ∈ r.reportedBy.nullish, reporter ∈ ["human", "automation"] then .ok ()
    else .error (.badRequest s!"{label}.reportedBy must be human or automation"))

/-- The results from the `i`th on with the cases they are of, none of them one already `seen`. -/
def normalizeResults (seen : List Uuid) (i : ℕ) :
    List HistoryResult → Except Failure (List (Uuid × HistoryResult))
  | [] => .ok []
  | r :: results => do
      let label := s!"results[{i}]"
      let id ← (if r.testcaseId.isUuid then readUuid r.testcaseId
        else .error (.badRequest s!"{label}.testcaseId must be a test case id"))
      (if id ∈ seen then .error (.badRequest s!"{label}.testcaseId appears twice") else .ok ())
      r.validate label
      let rest ← normalizeResults (id :: seen) (i + 1) results
      .ok ((id, r) :: rest)

def HistoryRun.validate (run : HistoryRun) : Except Failure Unit :=
  match run.status with
  | .undefined => .ok ()
  | .value status =>
      if status ∈ runStatuses then .ok ()
      else .error (.badRequest s!"run.status must be one of: {commaList runStatuses}")
  | .null => .error (.badRequest s!"run.status must be one of: {commaList runStatuses}")

/-- `CASE WHEN d ? key THEN d->>key ELSE column END` -/
def Arg.over {α : Type} (value : Arg α) (stored : Option α) : Option α :=
  match value with
  | undefined => stored
  | null => none
  | .value a => some a

def HistoryRun.apply (run : HistoryRun) (now : Time) (c : Cycle) : Cycle :=
  { c with
    status := run.status.nullish.getD c.status
    startedAt := run.startedAt.over c.startedAt
    endedAt := run.endedAt.over c.endedAt
    updatedAt := now }

def HistoryResult.apply (r : HistoryResult) (e : Execution) : Execution :=
  { e with
    status := r.status.nullish.getD e.status
    actualResult := r.actualResult.over e.actualResult
    executedAt := r.executedAt.over e.executedAt
    durationMs := r.durationMs.over e.durationMs
    errorMessage := r.errorMessage.over e.errorMessage
    errorStack := r.errorStack.over e.errorStack
    reportedBy := r.reportedBy.nullish.getD e.reportedBy }

/-- The result the input has for a row of the run, through a live item. -/
def historyOf (runId : Uuid) (results : List (Uuid × HistoryResult)) (db : Db) (e : Execution) :
    Option HistoryResult := do
  let item ← db.cycleItems.find e.cycleItemId
  if e.live ∧ item.live ∧ item.cycleId = runId
  then (results.find? fun r ↦ r.1 = item.testcaseId).map Prod.snd
  else none

/-- The transaction of `importRunHistory`. -/
def storeHistory (runId : Uuid) (run : Option HistoryRun)
    (results : List (Uuid × HistoryResult)) (db : Db) : Db :=
  { db with
    cycles := match run with
      | none => db.cycles
      | some run => db.cycles.updateWhere (fun c ↦ c.id = runId ∧ c.live) (run.apply db.now)
          fun _ ↦ rfl
    executions := db.executions.updateWhere (fun e ↦ (historyOf runId results db e).isSome)
      (fun e ↦ (historyOf runId results db e).elim e fun r ↦ r.apply e) fun e ↦ by
        cases historyOf runId results db e <;> rfl }

def importRunHistory (userId : Option Uuid) (cycleId : IdText) (body : HistoryBody) :
    Handler Unit := do
  let uid ← requireUser userId
  let projectId ← requireCycleAccess (some uid) cycleId
  let access ← requireProjectAccess (some uid) (.canonical projectId)
  require (normalizeRole access.callerRole ≠ .qaEngineer)
    (.forbidden "QA Engineers cannot import run history")
  let cycle ← castUuid cycleId
  ofExcept (body.run.elim (.ok ()) HistoryRun.validate)
  require (body.results.length ≤ historyImportMaxResults)
    (.badRequest s!"results must be an array of at most {historyImportMaxResults} items")
  let results ← ofExcept (normalizeResults [] 0 body.results)
  write (storeHistory cycle body.run results)

end Tesbo
