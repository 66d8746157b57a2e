import Tesbo.ReportedResults
import Tesbo.Reasoning.Fresh
import Tesbo.Reasoning.Phases

/-!
# Runs a test framework reports

A reporter opens a run, or joins the one its external id names, posts the result of every attempt and
closes the run with its own counts.  The calls of many reporters are in flight at a time; each of
their statements is atomic.  That the caller may reach the project is taken as given, ids are uuids,
and nothing is kept of the activity log.
-/

namespace Tesbo.Automation

open Reasoning Proc

/-! ## Rows -/

/-- What a request to open a run says of it. -/
structure RunValues where
  projectId : Uuid
  name : String
  description : String
  environment : Option String
  buildVersion : Option String
  releaseName : Option String
  ownerId : Option Uuid
  triggeredBy : Option String
  commitSha : Option String
  branchName : Option String
  buildUrl : Option String
  externalId : Option String
deriving DecidableEq, Repr

/-- A row of `cycles`. -/
structure Run extends RunValues where
  id : Uuid
  status : String
  source : String
  startedAt : Option Time
  endedAt : Option Time
  closedAt : Option Time
  closeStatus : Option String
  lastResultAt : Option Time
  deletedAt : Option Time
deriving DecidableEq, Repr

def Run.live (r : Run) : Bool := r.deletedAt.isNone

/-- The run the partial unique index on `(project_id, external_id)` finds. -/
def Run.hasKey (projectId : Uuid) (externalId : String) (r : Run) : Bool :=
  r.live && r.projectId = projectId && r.externalId = some externalId

/-- The tables, with what their foreign keys and unique indexes say of them.  The result of an item
that has been taken out of its run is deleted with it. -/
structure Store where
  testcases : Table Testcase.id
  runs : Table Run.id
  items : Table CycleItem.id
  executions : Table Execution.id
  runOfItem : ∀ item ∈ items, ∃ run ∈ runs, run.id = item.cycleId
  itemOfResult : ∀ e ∈ executions, ∃ item ∈ items, item.id = e.cycleItemId ∧
    (e.live = true → item.live = true)
  oneRun : ∀ r ∈ runs, ∀ r' ∈ runs, ∀ projectId externalId, r.hasKey projectId externalId = true →
    r'.hasKey projectId externalId = true → r = r'
  oneItem : ∀ i ∈ items, ∀ j ∈ items, i.live = true → j.live = true → i.cycleId = j.cycleId →
    i.testcaseId = j.testcaseId → i = j
  oneResult : ∀ e ∈ executions, ∀ e' ∈ executions, e.cycleItemId = e'.cycleItemId → e = e'

namespace Store

/-- A live result, of an item of the run and the case. -/
def IsResultOf (s : Store) (runId testcaseId : Uuid) (e : Execution) : Prop :=
  e.live = true ∧ ∃ item ∈ s.items.find e.cycleItemId,
    item.cycleId = runId ∧ item.testcaseId = testcaseId

instance (s : Store) (runId testcaseId : Uuid) (e : Execution) :
    Decidable (s.IsResultOf runId testcaseId e) :=
  inferInstanceAs (Decidable (_ ∧ ∃ item ∈ s.items.find e.cycleItemId, _ ∧ _))

/-- A live result of an item of the run. -/
def IsResultIn (s : Store) (runId : Uuid) (e : Execution) : Prop :=
  e.live = true ∧ ∃ item ∈ s.items.find e.cycleItemId, item.cycleId = runId

instance (s : Store) (runId : Uuid) (e : Execution) : Decidable (s.IsResultIn runId e) :=
  inferInstanceAs (Decidable (_ ∧ ∃ item ∈ s.items.find e.cycleItemId, _))

def liveRun (s : Store) (id : Uuid) : Option Run := (s.runs.find id).filter Run.live

/-! ### Statements -/

/-- The `INSERT INTO cycles`, refused where the unique index has the key. -/
def insertRun (s : Store) (now : Time) (v : RunValues) : Option (Uuid × Store) :=
  if h : ∃ r ∈ s.runs, ∃ externalId ∈ v.externalId, r.hasKey v.projectId externalId = true then none
  else
    let row : Run :=
      { v with
        id := s.runs.newKey, status := "In Progress", source := "automation"
        startedAt := some now, endedAt := none, closedAt := none, closeStatus := none
        lastResultAt := none, deletedAt := none }
    some (row.id,
      { s with
        runs := s.runs.push row rfl
        runOfItem := by
          intro item hitem
          obtain ⟨run, hrun, hid⟩ := s.runOfItem item hitem
          exact ⟨run, Table.mem_push.mpr (.inl hrun), hid⟩
        oneRun := by
          intro r hr r' hr' projectId externalId hkey hkey'
          -- a row with the key of the new one would have been in its way
          have hnew : ∀ r₀ ∈ s.runs, row.hasKey projectId externalId = true →
              r₀.hasKey projectId externalId = true → False := by
            intro r₀ hr₀ hrow hold
            simp only [Run.hasKey, Bool.and_eq_true, decide_eq_true_eq] at hrow
            obtain ⟨⟨-, rfl⟩, hext⟩ := hrow
            exact h ⟨r₀, hr₀, externalId, hext, hold⟩
          rcases Table.mem_push.mp hr with hr | rfl
          · rcases Table.mem_push.mp hr' with hr' | rfl
            · exact s.oneRun r hr r' hr' projectId externalId hkey hkey'
            · exact (hnew r hr hkey' hkey).elim
          · rcases Table.mem_push.mp hr' with hr' | rfl
            · exact (hnew r' hr' hkey hkey').elim
            · rfl })

/-- The case joins the run, where both are live and it is not in the run, with an untested result. -/
def attachCase (s : Store) (runId projectId testcaseId : Uuid) : Store :=
  match h : (s.testcases.find testcaseId).filter fun t ↦ t.live && t.projectId = projectId,
      hrun : s.liveRun runId with
  | some t, some run =>
      if hfree : ∃ item ∈ s.items, item.cycleId = runId ∧ item.testcaseId = testcaseId ∧
          item.live = true then s
      else
        let item : CycleItem := ⟨s.items.newKey, runId, testcaseId, t.externalId, none⟩
        let row : Execution := untested s.executions.newKey item.id
        { s with
          items := s.items.push item rfl
          executions := s.executions.push row rfl
          runOfItem := by
            intro i hi
            rcases Table.mem_push.mp hi with hi | rfl
            · exact s.runOfItem i hi
            · obtain ⟨hmem, hid⟩ := Table.find_eq_some.mp (Option.filter_eq_some_iff.mp hrun).1
              exact ⟨run, hmem, hid⟩
          itemOfResult := by
            intro e he
            rcases Table.mem_push.mp he with he | rfl
            · obtain ⟨i, hi, hrest⟩ := s.itemOfResult e he
              exact ⟨i, Table.mem_push.mpr (.inl hi), hrest⟩
            · exact ⟨item, Table.mem_push.mpr (.inr rfl), rfl, fun _ ↦ rfl⟩
          oneItem := by
            intro i hi j hj hlive hlive' hcycle hcase
            rcases Table.mem_push.mp hi with hi | rfl
            · rcases Table.mem_push.mp hj with hj | rfl
              · exact s.oneItem i hi j hj hlive hlive' hcycle hcase
              · exact (hfree ⟨i, hi, hcycle, hcase, hlive⟩).elim
            · rcases Table.mem_push.mp hj with hj | rfl
              · exact (hfree ⟨j, hj, hcycle.symm, hcase.symm, hlive'⟩).elim
              · rfl
          oneResult := by
            intro e he e' he' hsame
            -- no result hangs on the new item
            have hnew : ∀ e₀ ∈ s.executions, e₀.cycleItemId ≠ item.id := by
              intro e₀ he₀ heq
              obtain ⟨i, hi, hid, -⟩ := s.itemOfResult e₀ he₀
              exact Table.key_ne_newKey hi (hid.trans heq)
            rcases Table.mem_push.mp he with he | rfl
            · rcases Table.mem_push.mp he' with he' | rfl
              · exact s.oneResult e he e' he' hsame
              · exact (hnew e he hsame).elim
            · rcases Table.mem_push.mp he' with he' | rfl
              · exact (hnew e' he' hsame.symm).elim
              · rfl }
  | _, _ => s

/-- An update of results that leaves alone what the other tables know of them. -/
def updateResults (s : Store) (p : Execution → Bool) (f : Execution → Execution)
    (hf : ∀ e, (f e).id = e.id ∧ (f e).cycleItemId = e.cycleItemId ∧ (f e).deletedAt = e.deletedAt) :
    Store :=
  have hstill : ∀ e, (if p e then f e else e).cycleItemId = e.cycleItemId ∧
      (if p e then f e else e).live = e.live := by
    intro e
    split
    · exact ⟨(hf e).2.1, congrArg Option.isNone (hf e).2.2⟩
    · exact ⟨rfl, rfl⟩
  { s with
    executions := s.executions.updateWhere p f fun e ↦ (hf e).1
    itemOfResult := by
      intro e he
      obtain ⟨e₀, he₀, rfl⟩ := Table.mem_updateWhere.mp he
      rw [(hstill e₀).1, (hstill e₀).2]
      exact s.itemOfResult e₀ he₀
    oneResult := by
      intro e he e' he' hsame
      obtain ⟨e₀, he₀, rfl⟩ := Table.mem_updateWhere.mp he
      obtain ⟨e₁, he₁, rfl⟩ := Table.mem_updateWhere.mp he'
      rw [(hstill e₀).1, (hstill e₁).1] at hsame
      rw [s.oneResult e₀ he₀ e₁ he₁ hsame] }

/-- An update of one run that leaves its key alone. -/
def updateRun (s : Store) (runId : Uuid) (f : Run → Run)
    (hf : ∀ r, (f r).id = r.id ∧ (f r).projectId = r.projectId ∧ (f r).externalId = r.externalId ∧
      (f r).deletedAt = r.deletedAt) : Store :=
  have hkey : ∀ r projectId externalId, (if r.id = runId then f r else r).hasKey projectId externalId
      = r.hasKey projectId externalId := by
    intro r projectId externalId
    split
    · unfold Run.hasKey Run.live
      rw [(hf r).2.1, (hf r).2.2.1, (hf r).2.2.2]
    · rfl
  { s with
    runs := s.runs.updateWhere (fun r ↦ r.id = runId) f fun r ↦ (hf r).1
    runOfItem := by
      intro item hitem
      obtain ⟨run, hrun, hid⟩ := s.runOfItem item hitem
      exact Table.exists_updateWhere _ hrun (fun _ ↦ hid) fun _ ↦ ((hf run).1).trans hid
    oneRun := by
      intro r hr r' hr' projectId externalId h h'
      obtain ⟨r₀, hr₀, rfl⟩ := Table.mem_updateWhere.mp hr
      obtain ⟨r₁, hr₁, rfl⟩ := Table.mem_updateWhere.mp hr'
      simp only [decide_eq_true_eq, hkey] at h h'
      rw [s.oneRun r₀ hr₀ r₁ hr₁ projectId externalId h h'] }

/-- The report of a case, stored in the live result it has in the run. -/
def storeReport (s : Store) (now : Time) (runId testcaseId : Uuid) (r : Report) : Store :=
  s.updateResults (fun e ↦ s.IsResultOf runId testcaseId e) (r.apply now) fun _ ↦ ⟨rfl, rfl, rfl⟩

def touchRun (s : Store) (now : Time) (runId : Uuid) : Store :=
  s.updateRun runId (fun r ↦ { r with lastResultAt := some now }) fun _ ↦ ⟨rfl, rfl, rfl, rfl⟩

def closeRun (s : Store) (now : Time) (runId : Uuid) (closeStatus : String) : Store :=
  s.updateRun runId
    (fun r ↦ { r with
      status := "Completed", endedAt := some now, closedAt := some now
      closeStatus := some closeStatus })
    fun _ ↦ ⟨rfl, rfl, rfl, rfl⟩

end Store

/-! ## Counts -/

structure Counts where
  total : ℕ
  passed : ℕ
  failed : ℕ
  skipped : ℕ
  blocked : ℕ
  untested : ℕ
deriving DecidableEq, Repr

/-- The counts of some results: `COUNT(*)` and each `COUNT(*) FILTER`. -/
def countResults (rows : List Execution) : Counts where
  total := rows.length
  passed := rows.countP fun e ↦ e.status = "Passed"
  failed := rows.countP fun e ↦ e.status = "Failed"
  skipped := rows.countP fun e ↦ e.status = "Skipped"
  blocked := rows.countP fun e ↦ e.status = "Blocked"
  untested := rows.countP fun e ↦ e.status ∈ ["Untested", "Retest"]

def Store.resultsIn (s : Store) (runId : Uuid) : List Execution :=
  s.executions.select fun e ↦ s.IsResultIn runId e

def resultCounts (runId : Uuid) (s : Store) : Counts := countResults (s.resultsIn runId)

/-- The counts a reporter sends; each may be left out. -/
structure Summary where
  total : Arg ℤ
  passed : Arg ℤ
  failed : Arg ℤ
  skipped : Arg ℤ
deriving DecidableEq, Repr

structure Difference where
  key : String
  reported : ℤ
  stored : ℕ
deriving DecidableEq, Repr

def difference (key : String) (reported : Arg ℤ) (stored : ℕ) : Option Difference :=
  match reported.nullish with
  | none => none
  | some n => if n ≠ stored then some ⟨key, n, stored⟩ else none

/-- The counts that differ, `none` where none does. -/
def summaryMismatch (summary : Option Summary) (counts : Counts) : Option (List Difference) :=
  match summary with
  | none => none
  | some reported =>
      let diff := [difference "total" reported.total counts.total,
        difference "passed" reported.passed counts.passed,
        difference "failed" reported.failed counts.failed,
        difference "skipped" reported.skipped counts.skipped].reduceOption
      if diff.isEmpty then none else some diff

/-! ## Calls -/

structure RunSummary where
  run : Option Run
  summary : Counts
deriving DecidableEq, Repr

/-- What a call answers.  `caller` and `post` number the calls; nothing reads them. -/
inductive Response where
  | created (caller : ℕ) (summary : RunSummary) (reused : Bool) (casesAttached : ℕ)
      (unknownCaseIds : List String)
  | recorded (post : ℕ) (runId : Uuid) (caseId : String) (execution : Execution) (runClosed : Bool)
  | closed (summary : RunSummary) (alreadyClosed : Bool) (mismatch : Option (List Difference))
deriving DecidableEq, Repr

/-- The tables, the time of the statements, and what has been answered so far. -/
structure Data where
  store : Store
  now : Time
  responses : List Response

/-! ### Statements -/

/-- The live cases of the project by external id, in lower case. -/
def resolveCases [Unicode] (projectId : Uuid) (caseIds : List String) (s : Store) :
    Assoc String Testcase :=
  Assoc.ofList ((s.testcases.select fun t ↦
      t.projectId = projectId ∧ t.live ∧
        Unicode.lower t.externalId ∈ caseIds.map Unicode.toLowerCase).map fun t ↦
    (Unicode.toLowerCase t.externalId, t))

/-- The live run of the project an external id names. -/
def runWithKey (projectId : Uuid) (externalId : String) (s : Store) : Option Uuid :=
  ((s.runs.select (Run.hasKey projectId externalId)).map Run.id).head?

/-- The statements; of those that only read, the ones whose answer a later statement depends on. -/
inductive Write where
  | selectKey (projectId : Uuid) (externalId : String)
  | selectCases (projectId : Uuid) (caseIds : List String)
  | selectRun (runId : Uuid)
  | insertRun (values : RunValues)
  | attach (runId projectId : Uuid) (testcaseIds : List Uuid)
  | store (runId testcaseId : Uuid) (report : Report)
  | touch (runId : Uuid)
  | close (runId : Uuid) (closeStatus : String)
  | respond (response : Response)

abbrev Reply : Write → Type
  | .selectKey _ _ => Option Uuid
  | .selectCases _ _ => Assoc String Testcase
  | .selectRun _ => Option Run
  | .insertRun _ => Except Failure Uuid
  | .attach _ _ _ => ℕ
  | .store _ _ _ => Option Execution
  | .touch _ | .close _ _ | .respond _ => Unit

def Data.insertRun (d : Data) (v : RunValues) : Except Failure Uuid × Data :=
  match d.store.insertRun d.now v with
  | none => (.error (.unique "idx_cycles_project_external_id"), d)
  | some (id, store) => (.ok id, { d with store := store })

/-- Both inserts are one statement; its answer is the number of rows it makes. -/
def Data.attach (d : Data) (runId projectId : Uuid) (testcaseIds : List Uuid) : ℕ × Data :=
  let store := testcaseIds.foldl (fun s id ↦ s.attachCase runId projectId id) d.store
  (store.executions.rows.length - d.store.executions.rows.length, { d with store := store })

/-- The first of the rows the `UPDATE` returns; a status that does not fit the column fails it. -/
def Data.storeReport (d : Data) (runId testcaseId : Uuid) (r : Report) :
    Except Failure (Option Execution × Data) := do
  let status ← varchar 32 r.status
  let report := { r with status := status }
  let found := d.store.executions.select fun e ↦ d.store.IsResultOf runId testcaseId e
  .ok ((found.map (report.apply d.now)).head?,
    { d with store := d.store.storeReport d.now runId testcaseId report })

def perform [Unicode] : (w : Write) → Service Failure Data (Reply w)
  | .selectKey projectId externalId =>
      Service.query fun d ↦ runWithKey projectId externalId d.store
  | .selectCases projectId caseIds => Service.query fun d ↦ resolveCases projectId caseIds d.store
  | .selectRun runId => Service.query fun d ↦ d.store.liveRun runId
  | .insertRun v => fun d ↦ (.ok (d.insertRun v).1, (d.insertRun v).2)
  | .attach runId projectId ids => fun d ↦
      (.ok (d.attach runId projectId ids).1, (d.attach runId projectId ids).2)
  | .store runId testcaseId r => Service.returning fun d ↦ d.storeReport runId testcaseId r
  | .touch runId => Service.write fun d ↦ { d with store := d.store.touchRun d.now runId }
  | .close runId closeStatus => Service.write fun d ↦
      { d with store := d.store.closeRun d.now runId closeStatus }
  | .respond response => Service.write fun d ↦ { d with responses := d.responses ++ [response] }

abbrev Procedure (α : Type) := Proc Data Reply Failure α

def respond (response : Response) : Procedure Unit := issue (Write.respond response)

/-- The live run of the project. -/
def requireRun (projectId runId : Uuid) : Procedure Run :=
  check fun d ↦
    ((d.store.liveRun runId).filter fun r ↦ r.projectId = projectId).elim
      (.error (.notFound "Run not found")) .ok

def runSummary (runId : Uuid) : Procedure RunSummary := do
  let run : Option Run ← issue (Write.selectRun runId)
  let counts ← query fun d ↦ resultCounts runId d.store
  pure ⟨run, counts⟩

/-! ### The cases of a run -/

def unknownCases [Unicode] (caseIds : List String) (found : Assoc String Testcase) : List String :=
  caseIds.filter fun id ↦ !found.has (Unicode.toLowerCase id)

structure Attached where
  attached : ℕ
  unknown : List String

def attachCases [Unicode] (runId projectId : Uuid) (caseIds : List String) :
    Procedure Attached :=
  if caseIds.isEmpty then pure ⟨0, []⟩
  else do
    let found : Assoc String Testcase ← issue (Write.selectCases projectId caseIds)
    if found.isEmpty then pure ⟨0, unknownCases caseIds found⟩
    else do
      let attached : ℕ ← issue (Write.attach runId projectId (found.map fun e ↦ e.2.id))
      pure ⟨attached, unknownCases caseIds found⟩

/-! ### Opening a run -/

def triggeredByValues : List String :=
  ["local", "github-actions", "jenkins", "gitlab-ci", "circleci", "azure-pipelines",
    "bitbucket-pipelines", "other"]

/-- The `caseIds` of a request; an entry is the text `String(entry ?? "")` makes of it. -/
inductive CaseIds where
  | missing
  | notAnArray
  | entries (ids : List String)
deriving DecidableEq, Repr

structure RunBody where
  name : Arg String
  externalId : Arg String
  triggeredBy : Arg JsonText
  caseIds : CaseIds
  description : Arg String
  environment : Arg String
  buildVersion : Arg String
  releaseName : Arg String
  commitSha : Arg String
  branch : Arg String
  buildUrl : Arg String
deriving DecidableEq, Repr

def maxCaseIdsPerCall : ℕ := 2000

/-- The trimmed entries, an empty one left out, up to the first that is too long. -/
def trimCaseIds : List String → Except Failure (List String)
  | [] => .ok []
  | entry :: entries =>
      let id := jsTrim entry
      if id = "" then trimCaseIds entries
      else if maxCaseIdLength < jsLength id then
        .error (.badRequest s!"Test case id \"{jsSlice maxCaseIdLength id}…\" is longer than {maxCaseIdLength} characters, so it cannot be a Tesbo case id")
      else do
        let ids ← trimCaseIds entries
        .ok (id :: ids)

/-- Each id once, in the order they are first named. -/
def distinct (ids : List String) : List String := ids.reverse.dedup.reverse

def normalizeCaseIds : CaseIds → Except Failure (List String)
  | .missing => .ok []
  | .notAnArray => .error (.badRequest "caseIds must be an array of test case ids")
  | .entries raw =>
      if maxCaseIdsPerCall < raw.length then
        .error (.badRequest
          s!"caseIds accepts at most {maxCaseIdsPerCall} ids per call (got {raw.length})")
      else do
        let ids ← trimCaseIds raw
        .ok (distinct ids)

def readTriggeredBy : Arg JsonText → Except Failure (Option String)
  | .undefined | .null => .ok none
  | .value (.text value) =>
      if value ∈ triggeredByValues then .ok (some value)
      else .error (.badRequest s!"triggeredBy must be one of: {commaList triggeredByValues}")
  | .value .other =>
      .error (.badRequest s!"triggeredBy must be one of: {commaList triggeredByValues}")

/-- What is checked before anything is read. -/
structure RunRequest where
  name : String
  externalId : Option String
  triggeredBy : Option String
  caseIds : List String
deriving DecidableEq, Repr

def RunBody.request (body : RunBody) : Except Failure RunRequest := do
  let name ← boundedString body.name "name" 255
  let name ← name.elim (.error (.badRequest "name is required")) .ok
  let externalId ← boundedString body.externalId "externalId" 64
  let triggeredBy ← readTriggeredBy body.triggeredBy
  let caseIds ← normalizeCaseIds body.caseIds
  .ok ⟨name, externalId, triggeredBy, caseIds⟩

/-- The row of a new run; the fields only it needs are checked as it is made. -/
def RunBody.values (body : RunBody) (request : RunRequest) (projectId : Uuid)
    (ownerId : Option Uuid) : Except Failure RunValues := do
  let description ← boundedString body.description "description" 10000
  let environment ← boundedString body.environment "environment" 128
  let buildVersion ← boundedString body.buildVersion "buildVersion" 128
  let releaseName ← boundedString body.releaseName "releaseName" 128
  let commitSha ← boundedString body.commitSha "commitSha" 64
  let branch ← boundedString body.branch "branch" 255
  let buildUrl ← boundedString body.buildUrl "buildUrl" 1024
  .ok ⟨projectId, request.name, description.getD "", environment, buildVersion, releaseName,
    ownerId, request.triggeredBy, commitSha, branch, buildUrl, request.externalId⟩

def isUniqueViolation : Failure → Bool
  | .sqlState code _ => code = "23505"
  | _ => false

/-- The cases join the run, which is answered with its counts. -/
def joinRun [Unicode] (caller : ℕ) (projectId runId : Uuid) (caseIds : List String)
    (reused : Bool) : Procedure Unit := do
  let attached ← attachCases runId projectId caseIds
  let summary ← runSummary runId
  respond (.created caller summary reused attached.attached attached.unknown)

/-- Where the insert comes upon a run with the external id, that run is joined. -/
def insertOrJoin [Unicode] (caller : ℕ) (projectId : Uuid) (ownerId : Option Uuid)
    (body : RunBody) (request : RunRequest) : Procedure Unit := do
  let values ← ofExcept (body.values request projectId ownerId)
  let inserted : Except Failure Uuid ← issue (Write.insertRun values)
  match inserted with
  | .ok runId => joinRun caller projectId runId request.caseIds false
  | .error e =>
      match request.externalId.filter fun _ ↦ isUniqueViolation e with
      | none => fail e
      | some externalId => do
          let raced : Option Uuid ← issue (Write.selectKey projectId externalId)
          match raced with
          | none => fail e
          | some runId => joinRun caller projectId runId request.caseIds true

def createRun [Unicode] (caller : ℕ) (projectId : Uuid) (ownerId : Option Uuid) (body : RunBody) :
    Procedure Unit := do
  let request ← ofExcept body.request
  match request.externalId with
  | none => insertOrJoin caller projectId ownerId body request
  | some externalId => do
      let existing : Option Uuid ← issue (Write.selectKey projectId externalId)
      match existing with
      | some runId => joinRun caller projectId runId request.caseIds true
      | none => insertOrJoin caller projectId ownerId body request

/-! ### Results and the end of a run -/

/-- What of a report does not depend on the case. -/
def ResultBody.report (body : ResultBody) (status : String) (actorId : Uuid) :
    Except Failure Report := do
  let durationMs ← normalizeDuration body.durationMs
  let retryCount ← normalizeRetryCount body.retryCount
  let errorMessage ← boundedString body.errorMessage "errorMessage" maxErrorMessageLength
  let errorStack ← boundedString body.errorStack "errorStack" maxErrorStackLength
  .ok ⟨status, actorId, durationMs, retryCount, errorMessage, errorStack⟩

/-- The id and the status a body names. -/
def ResultBody.caseAndStatus [Unicode] (body : ResultBody) : Except Failure (String × String) := do
  let caseId ← boundedString body.caseId "caseId" maxCaseIdLength
  let caseId ← caseId.elim (.error (.badRequest "caseId is required")) .ok
  let status ← (normalizeWireStatus body.status).elim
    (.error (.badRequest
      s!"status must be one of: {commaList (wireStatusMap.map Prod.fst)}")) .ok
  .ok (caseId, status)

def recordResult [Unicode] (post : ℕ) (actorId projectId runId : Uuid) (body : ResultBody) :
    Procedure Unit := do
  let run ← requireRun projectId runId
  let named ← ofExcept (ResultBody.caseAndStatus body)
  let testcase ← check fun d ↦
    ((resolveCases projectId [named.1] d.store).get (Unicode.toLowerCase named.1)).elim
      (.error (.notFound s!"No test case with id \"{named.1}\" in this project. Automation reports results against existing cases and never creates them — add the case in Tesbo, or fix the tesbo.testId() tag."))
      .ok
  let report ← ofExcept (ResultBody.report body named.2 actorId)
  let _ ← attachCases runId projectId [testcase.externalId]
  let updated : Option Execution ← issue (Write.store runId testcase.id report)
  match updated with
  | none => fail (.notFound s!"The result row for case \"{named.1}\" in this run is no longer available")
  | some execution => do
      let _ ← issue (.touch runId)
      respond (.recorded post runId testcase.externalId execution run.closedAt.isSome)

structure CloseBody where
  status : Arg String
  summary : Option Summary
deriving DecidableEq, Repr

def closeStatuses : List String := ["completed", "incomplete"]

def closeRun [Unicode] (projectId runId : Uuid) (body : CloseBody) : Procedure Unit := do
  let run ← requireRun projectId runId
  let requested := body.status.nullish.elim "completed" fun s ↦ Unicode.toLowerCase (jsTrim s)
  require (requested ∈ closeStatuses) (.badRequest "status must be one of: completed, incomplete")
  if run.closedAt.isSome then do
    let summary ← runSummary runId
    respond (.closed summary true none)
  else do
    let counts ← query fun d ↦ resultCounts runId d.store
    let _ ← issue (.close runId requested)
    let summary ← runSummary runId
    respond (.closed summary false (summaryMismatch body.summary counts))

/-! ## What the statements do to the results -/

namespace Store

variable {s : Store} {runId runId' projectId testcaseId testcaseId' : Uuid} {e e' : Execution}

/-- The live result of a case in a run. -/
def Result (s : Store) (runId testcaseId : Uuid) (e : Execution) : Prop :=
  e ∈ s.executions ∧ e.live = true ∧ ∃ item ∈ s.items, item.id = e.cycleItemId ∧
    item.cycleId = runId ∧ item.testcaseId = testcaseId

theorem isResultOf_iff : s.IsResultOf runId testcaseId e ↔ e.live = true ∧ ∃ item ∈ s.items,
    item.id = e.cycleItemId ∧ item.cycleId = runId ∧ item.testcaseId = testcaseId := by
  apply and_congr_right
  intro _
  constructor
  · rintro ⟨item, hitem, hof⟩
    obtain ⟨hmem, hid⟩ := Table.find_eq_some.mp hitem
    exact ⟨item, hmem, hid, hof⟩
  · rintro ⟨item, hmem, hid, hof⟩
    exact ⟨item, Table.find_eq_some.mpr ⟨hmem, hid⟩, hof⟩

theorem result_iff : s.Result runId testcaseId e ↔
    e ∈ s.executions ∧ s.IsResultOf runId testcaseId e := by
  rw [isResultOf_iff]
  exact Iff.rfl

/-- The item of a result, which is live. -/
theorem Result.item (h : s.Result runId testcaseId e) : ∃ item ∈ s.items,
    item.id = e.cycleItemId ∧ item.cycleId = runId ∧ item.testcaseId = testcaseId ∧
      item.live = true := by
  obtain ⟨he, hlive, item, hitem, hid, hrun, hcase⟩ := h
  obtain ⟨item', hitem', hid', hitemLive⟩ := s.itemOfResult e he
  obtain rfl := Table.eq_of_key hitem hitem' (hid.trans hid'.symm)
  exact ⟨item, hitem, hid, hrun, hcase, hitemLive hlive⟩

/-- A case has at most one result in a run. -/
theorem Result.unique (h : s.Result runId testcaseId e) (h' : s.Result runId testcaseId e') :
    e = e' := by
  obtain ⟨item, hitem, hid, hrun, hcase, hlive⟩ := h.item
  obtain ⟨item', hitem', hid', hrun', hcase', hlive'⟩ := h'.item
  obtain rfl := s.oneItem item hitem item' hitem' hlive hlive' (hrun.trans hrun'.symm)
    (hcase.trans hcase'.symm)
  exact s.oneResult e h.1 e' h'.1 (hid.symm.trans hid')

/-- A result is of one run and one case. -/
theorem Result.same (h : s.Result runId testcaseId e) (h' : s.Result runId' testcaseId' e) :
    runId = runId' ∧ testcaseId = testcaseId' := by
  obtain ⟨-, -, item, hitem, hid, rfl, rfl⟩ := h
  obtain ⟨-, -, item', hitem', hid', rfl, rfl⟩ := h'
  obtain rfl := Table.eq_of_key hitem hitem' (hid.trans hid'.symm)
  exact ⟨rfl, rfl⟩

/-- A live case of the project joins a live run that it is not in. -/
def Joins (s : Store) (runId projectId testcaseId : Uuid) : Prop :=
  (∃ t, s.testcases.find testcaseId = some t ∧ t.live = true ∧ t.projectId = projectId) ∧
    (∃ run, s.liveRun runId = some run) ∧
      ¬ ∃ item ∈ s.items, item.cycleId = runId ∧ item.testcaseId = testcaseId ∧ item.live = true

/-- What attaching a case does: nothing, or one item and its untested result. -/
theorem attachCase_cases (s : Store) (runId projectId testcaseId : Uuid) :
    (¬ s.Joins runId projectId testcaseId ∧ s.attachCase runId projectId testcaseId = s) ∨
      s.Joins runId projectId testcaseId ∧ ∃ item : CycleItem, item.cycleId = runId ∧
        item.testcaseId = testcaseId ∧ item.live = true ∧ item.id = s.items.newKey ∧
        (∀ i, i ∈ (s.attachCase runId projectId testcaseId).items ↔ i ∈ s.items ∨ i = item) ∧
        (∀ e, e ∈ (s.attachCase runId projectId testcaseId).executions ↔
          e ∈ s.executions ∨ e = untested s.executions.newKey item.id) := by
  unfold attachCase
  split
  · rename_i t run ht hrun
    obtain ⟨hfind, hof⟩ := Option.filter_eq_some_iff.mp ht
    simp only [Bool.and_eq_true, decide_eq_true_eq] at hof
    split
    · rename_i htaken
      exact .inl ⟨fun h ↦ h.2.2 htaken, rfl⟩
    · rename_i hfree
      refine .inr ⟨⟨⟨t, hfind, hof⟩, ⟨run, hrun⟩, hfree⟩, ?_⟩
      refine ⟨⟨s.items.newKey, runId, testcaseId, t.externalId, none⟩, rfl, rfl, rfl, rfl, ?_, ?_⟩
      · intro i
        apply Table.mem_push
        rfl
      · intro e
        apply Table.mem_push
        rfl
  · rename_i hnone
    refine .inl ⟨fun h ↦ ?_, rfl⟩
    obtain ⟨⟨t, hfind, hlive, hproject⟩, ⟨run, hrun⟩, -⟩ := h
    have ht : (s.testcases.find testcaseId).filter
        (fun t ↦ t.live && t.projectId = projectId) = some t := by
      rw [Option.filter_eq_some_iff]
      simp [hfind, hlive, hproject]
    exact hnone t run ht hrun

theorem testcases_attachCase : (s.attachCase runId projectId testcaseId).testcases = s.testcases := by
  unfold attachCase
  split
  · split <;> rfl
  · rfl

theorem runs_attachCase : (s.attachCase runId projectId testcaseId).runs = s.runs := by
  unfold attachCase
  split
  · split <;> rfl
  · rfl

/-- The results after a case is attached: those there were, and one nobody has recorded where the
case has joined. -/
theorem result_attachCase : (s.attachCase runId projectId testcaseId).Result runId' testcaseId' e ↔
    s.Result runId' testcaseId' e ∨ s.Joins runId projectId testcaseId ∧ runId' = runId ∧
      testcaseId' = testcaseId ∧ e = untested s.executions.newKey s.items.newKey := by
  rcases attachCase_cases s runId projectId testcaseId with
    ⟨hnot, hsame⟩ | ⟨hjoins, item, rfl, rfl, hlive, hid, hitems, hexecutions⟩
  · rw [hsame]
    simp [hnot]
  · unfold Result
    constructor
    · rintro ⟨he, helive, i, hi, hiid, rfl, rfl⟩
      rcases (hexecutions e).mp he with hold | rfl
      · rcases (hitems i).mp hi with hi | rfl
        · exact .inl ⟨hold, helive, i, hi, hiid, rfl, rfl⟩
        · -- an old result does not hang on the new item
          obtain ⟨i₀, hi₀, hi₀id, -⟩ := s.itemOfResult e hold
          exact (Table.key_ne_newKey hi₀ (hi₀id.trans (hiid.symm.trans hid))).elim
      · rcases (hitems i).mp hi with hi | rfl
        · exact (Table.key_ne_newKey hi (hiid.trans hid)).elim
        · exact .inr ⟨hjoins, rfl, rfl, congrArg _ hid⟩
    · rintro (⟨he, helive, i, hi, hof⟩ | ⟨-, rfl, rfl, rfl⟩)
      · exact ⟨(hexecutions e).mpr (.inl he), helive, i, (hitems i).mpr (.inl hi), hof⟩
      · exact ⟨(hexecutions _).mpr (.inr (congrArg _ hid.symm)), rfl, item,
          (hitems item).mpr (.inr rfl), hid, rfl, rfl⟩

theorem runs_foldl_attachCase (ids : List Uuid) (s : Store) :
    (ids.foldl (fun s id ↦ s.attachCase runId projectId id) s).runs = s.runs := by
  induction ids generalizing s with
  | nil => rfl
  | cons id ids ih => rw [List.foldl_cons, ih, runs_attachCase]

theorem testcases_foldl_attachCase (ids : List Uuid) (s : Store) :
    (ids.foldl (fun s id ↦ s.attachCase runId projectId id) s).testcases = s.testcases := by
  induction ids generalizing s with
  | nil => rfl
  | cons id ids ih => rw [List.foldl_cons, ih, testcases_attachCase]

theorem result_foldl_kept (ids : List Uuid) (h : s.Result runId' testcaseId' e) :
    (ids.foldl (fun s id ↦ s.attachCase runId projectId id) s).Result runId' testcaseId' e := by
  induction ids generalizing s with
  | nil => exact h
  | cons id ids ih => exact ih (result_attachCase.mpr (.inl h))

/-- The results after cases are attached: those there were, and ones nobody has recorded. -/
theorem result_foldl_attachCase (ids : List Uuid)
    (h : (ids.foldl (fun s id ↦ s.attachCase runId projectId id) s).Result runId' testcaseId' e) :
    s.Result runId' testcaseId' e ∨ e.status = "Untested" := by
  induction ids generalizing s with
  | nil => exact .inl h
  | cons id ids ih =>
      rcases ih h with h | huntested
      · rcases result_attachCase.mp h with hold | ⟨-, -, -, rfl⟩
        · exact .inl hold
        · exact .inr rfl
      · exact .inr huntested

/-- The results after a report is stored: the one it is of holds it. -/
theorem result_storeReport {now : Time} {r : Report} :
    (s.storeReport now runId testcaseId r).Result runId' testcaseId' e ↔
      ∃ e₀, s.Result runId' testcaseId' e₀ ∧
        e = if runId' = runId ∧ testcaseId' = testcaseId then r.apply now e₀ else e₀ := by
  have hrows : ∀ e₀, s.Result runId' testcaseId' e₀ →
      ((if s.IsResultOf runId testcaseId e₀ then r.apply now e₀ else e₀) =
        if runId' = runId ∧ testcaseId' = testcaseId then r.apply now e₀ else e₀) := by
    intro e₀ h₀
    apply if_congr _ rfl rfl
    constructor
    · intro hof
      exact h₀.same (result_iff.mpr ⟨h₀.1, hof⟩)
    · rintro ⟨rfl, rfl⟩
      exact (result_iff.mp h₀).2
  have hmem : ∀ e₁, e₁ ∈ (s.storeReport now runId testcaseId r).executions ↔
      ∃ e₀ ∈ s.executions,
        (if s.IsResultOf runId testcaseId e₀ then r.apply now e₀ else e₀) = e₁ := by
    intro e₁
    unfold storeReport updateResults
    dsimp only
    rw [Table.mem_updateWhere]
    simp only [decide_eq_true_eq]
  have hfields : ∀ e₀ : Execution,
      (if s.IsResultOf runId testcaseId e₀ then r.apply now e₀ else e₀).live = e₀.live ∧
      (if s.IsResultOf runId testcaseId e₀ then r.apply now e₀ else e₀).cycleItemId =
        e₀.cycleItemId := by
    intro e₀
    split
    · exact ⟨rfl, rfl⟩
    · exact ⟨rfl, rfl⟩
  constructor
  · rintro ⟨he, hlive, item, hitem, hid, hof⟩
    obtain ⟨e₀, he₀, rfl⟩ := (hmem e).mp he
    rw [(hfields e₀).1] at hlive
    rw [(hfields e₀).2] at hid
    have h₀ : s.Result runId' testcaseId' e₀ := ⟨he₀, hlive, item, hitem, hid, hof⟩
    exact ⟨e₀, h₀, hrows e₀ h₀⟩
  · rintro ⟨e₀, h₀, rfl⟩
    rw [← hrows e₀ h₀]
    obtain ⟨he₀, hlive, item, hitem, hid, hof⟩ := h₀
    refine ⟨(hmem _).mpr ⟨e₀, he₀, rfl⟩, ?_, item, hitem, ?_, hof⟩
    · rw [(hfields e₀).1]
      exact hlive
    · rw [(hfields e₀).2]
      exact hid

end Store

end Tesbo.Automation
