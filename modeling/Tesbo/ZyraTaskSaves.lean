import Tesbo.PairedDrafts

/-!
# Saving the drafts of a task

The suite a save names is created first, and once an attempt; everything else is in one transaction,
which is tried again when an id it allocated has been taken meanwhile.
-/

namespace Tesbo.ZyraTaskSaves

open Reasoning Service PairedDrafts

/-! ## Tasks and chats -/

structure SaveEvent where
  id : Uuid
  suiteId : Option IdText
  testcaseIds : List Uuid
  savedAt : Time

structure ActivityEntry where
  actor : String
  stage : String
  title : String
  detail : String
  createdAt : Time

/-- A row of `ai_generation_requests`. -/
structure GenerationRequest where
  id : Uuid
  projectId : Uuid
  taskStatus : String
  chatSessionId : Option Uuid
  generatedPayload : List ZyraEntry
  generatedCount : ℕ
  savedCount : ℕ
  jiraIssueKeys : List String
  linearIssueKeys : List String
  notionPageIds : List String
  saveEvents : List SaveEvent
  activityLog : List ActivityEntry
  updatedAt : Time

/-- What a save changes of `last_completed_plan`. -/
structure CompletedPlan where
  testcaseIds : List Uuid
  totalCount : ℕ
  pendingReviewRequestIds : List Uuid

structure ChatSession where
  id : Uuid
  lastCompletedPlan : Option CompletedPlan

/-- A ticket or page the project has synced. -/
structure TicketRow where
  projectId : Uuid
  key : String
  url : Option String

/-- `testcaseStorage` is the capability of a project. -/
structure TaskDb where
  save : SaveDb
  requests : Table GenerationRequest.id
  sessions : Table ChatSession.id
  tickets : TicketProvider → List TicketRow
  testcaseStorage : Uuid → Bool

/-- How the save of a task fails: as a save of entries does, or naming the drafts whose test case is
gone. -/
inductive TaskError where
  | save (e : SaveError)
  | staleDrafts (indexes : List ℕ)

def refusal (e : Failure) : TaskError := .save (.refused e)

abbrev TaskSave (α : Type) := Service TaskError TaskDb α

def onSave {α : Type} (m : Save α) : TaskSave α := fun s ↦
  match m s.save with
  | (.ok a, save) => (.ok a, { s with save := save })
  | (.error e, save) => (.error (.save e), { s with save := save })

def onTables {α : Type} (m : Handler α) : TaskSave α := onSave (onDb m)

/-- `try … catch`: an error is an answer, what was written stays. -/
def caught {α : Type} (m : TaskSave α) : TaskSave (Except TaskError α) := fun s ↦
  (.ok (m s).1, (m s).2)

/-! ## What a save is asked -/

/-- `selectedDraftIndexes` is `none` where no list is sent, and has `none` for a number that is no
index. -/
structure SaveBody where
  suiteId : Arg IdText
  suiteName : Arg String
  selectedDraftIndexes : Option (List (Option ℕ))

namespace SaveBody

/-- The suite to create. -/
def newSuite (body : SaveBody) : Option String :=
  if body.suiteId.truthy.isSome then none else body.suiteName.truthy

end SaveBody

structure SaveAnswer where
  savedCount : ℕ
  suiteId : Option IdText
  testcases : List Touched
  remaining : ℕ

/-- What may go wrong with an attempt's statements: the `INSERT` of the suite, or one of the
transaction. -/
inductive Fault where
  | createSuite
  | transaction (e : TaskError)

def connectionLost : TaskError := refusal (.sqlState "08006" "")

/-! ## The transaction -/

/-- The entries picked, with their places; a number that is no index of the batch picks nothing. -/
def selectedEntries (indexes : Option (List (Option ℕ))) (drafts : List ZyraEntry) :
    List (ℕ × ZyraEntry) :=
  match indexes with
  | none => drafts.mapIdx fun index entry ↦ (index, entry)
  | some indexes => indexes.filterMap fun index ↦ do
      let index ← index
      let entry ← drafts[index]?
      pure (index, entry)

/-- The batch, where it may be saved. -/
def openRequest (projectId taskId : Uuid) (s : TaskDb) : Except TaskError GenerationRequest :=
  match (s.requests.find taskId).filter fun r ↦ r.projectId = projectId with
  | none => .error (refusal (.notFound "Zyra task not found"))
  | some existing =>
      if existing.taskStatus = "in_progress" then .error (refusal (.conflict
        "Zyra is still generating drafts for this task. Wait for it to finish before saving."))
      else if existing.taskStatus ≠ "in_review" ∧ existing.taskStatus ≠ "failed" then
        let status := existing.taskStatus
        .error (refusal (.conflict
          s!"This batch is currently \"{status}\" — it looks like it was already saved or closed elsewhere. Reload and try again."))
      else if s.testcaseStorage projectId = false then .error (refusal (.forbidden
        "Test case storage is disabled for Zyra in this project — enable it under Zyra → Settings → Capabilities before saving."))
      else .ok existing

/-- The tickets the task names. -/
def GenerationRequest.keys (r : GenerationRequest) : TicketProvider → List String
  | .jira => r.jiraIssueKeys.filter (· ≠ "")
  | .linear => r.linearIssueKeys.filter (· ≠ "")
  | .notion => r.notionPageIds.filter (· ≠ "")

/-- The key of the task's only ticket. -/
def GenerationRequest.soleKey (r : GenerationRequest) (provider : TicketProvider) : Option String :=
  if (r.keys .jira).length + (r.keys .linear).length + (r.keys .notion).length = 1
  then (r.keys provider).head? else none

/-- The first address that is not empty, of each ticket of the task. -/
def ticketUrls (projectId : Uuid) (r : GenerationRequest) (s : TaskDb) :
    Assoc String (Option String) :=
  TicketProvider.all.foldl (fun urls provider ↦
    ((s.tickets provider).filter fun row ↦
      row.projectId = projectId ∧ row.key ∈ r.keys provider).foldl (fun urls row ↦
        if ((urls.get (listName provider row.key)).join.filter fun url ↦ url ≠ "").isSome then urls
        else urls.set (listName provider row.key) (row.url.filter fun url ↦ url ≠ "")) urls) []

/-- The places of the changes whose test case is gone. -/
def staleDraftIndexes (selected : List (ℕ × ZyraEntry)) (db : Db) : List ℕ :=
  selected.filterMap fun (index, entry) ↦
    match entry with
    | .create _ _ => none
    | .change _ testcaseId _ _ => if (findLiveTestcase testcaseId db).isSome then none else some index

/-- The suites the new test cases may go to, each once. -/
def suiteCandidates (batchSuiteId : Option IdText) (selected : List (ℕ × ZyraEntry)) : List IdText :=
  ((batchSuiteId.toList ++ selected.filterMap fun (_, entry) ↦
    (draftOf entry).bind fun draft ↦ draft.suiteId.truthy).filter IdText.isUuid).eraseDups

/-- Those of them there are. -/
def validSuites (projectId : Uuid) (candidates : List IdText) (db : Db) : List Uuid :=
  candidates.filterMap fun text ↦
    text.uuid.filter fun id ↦ (findLiveSuiteIn projectId id db).isSome

/-- `validSuiteIds.has(String(id))`: the ids are in the form the database writes. -/
def isValid (valid : List Uuid) : IdText → Bool
  | .canonical id => id ∈ valid
  | .recased _ | .loose _ | .word _ => false

/-- What the entries are saved in, and how many suites are gone. -/
def entryContext (projectId uid taskId : Uuid) (batchSuiteId : Option IdText)
    (existing : GenerationRequest) (selected : List (ℕ × ZyraEntry)) (s : TaskDb) :
    ZyraSaveEntryContext × ℕ :=
  let candidates := suiteCandidates batchSuiteId selected
  let valid := validSuites projectId candidates s.save.db
  ({  projectId := projectId
      uid := uid
      taskId := taskId
      chatSessionId := existing.chatSessionId
      batchSuiteId := batchSuiteId.filter (isValid valid)
      jiraIssueKey := existing.soleKey .jira
      linearIssueKey := existing.soleKey .linear
      notionPageId := existing.soleKey .notion
      ticketUrls := ticketUrls projectId existing s
      existingLinkedByTicket := existingLinkedByTicket existing.keys
        (linkedTestcases projectId existing.keys s.save.db)
      validSuiteIds := valid },
    (candidates.filter fun text ↦ isValid valid text = false).length)

/-- One entry after the other, or all new test cases in one statement. -/
def processEntries [Unicode] (setBased : Option ReturningOrder) (ctx : ZyraSaveEntryContext)
    (entries : List ZyraEntry) : Save SaveResult :=
  match setBased with
  | none => processZyraSaveEntriesSequential ctx entries
  | some order => processZyraSaveEntriesBatched order ctx entries

def touchedId : Touched → Uuid
  | .row t _ => t.id
  | .linked id .. => id

/-- What the log of the task says. -/
def saveActivity (touched staleSuites : ℕ) (savedAt : Time) : List ActivityEntry :=
  ⟨"user", "done", "Accepted and saved testcases", s!"Saved {touched} testcase(s).", savedAt⟩ ::
    if staleSuites = 0 then []
    else [⟨"system", "info", "Target suite no longer available",
      s!"{staleSuites} target suite(s) had been deleted since these drafts were staged. Affected new test case(s) were saved unassigned instead of failing the batch.",
      savedAt⟩]

/-- The drafts that were not picked. -/
def remainingPayload (selected : List (ℕ × ZyraEntry)) (drafts : List ZyraEntry) : List ZyraEntry :=
  (drafts.mapIdx fun index entry ↦ (index, entry)).filterMap fun (index, entry) ↦
    if index ∈ selected.map Prod.fst then none else some entry

/-- The plan of a chat with the test cases created, and without the batch when nothing of it is left. -/
def mergedPlan (taskId : Uuid) (created : List Uuid) (remaining : ℕ) (plan : Option CompletedPlan) :
    CompletedPlan :=
  let existing := (plan.map CompletedPlan.testcaseIds).getD []
  let merged := if created = [] then existing else (existing ++ created).eraseDups
  let pending := (plan.map CompletedPlan.pendingReviewRequestIds).getD []
  ⟨merged, merged.length, if remaining = 0 then pending.filter (· ≠ taskId) else pending⟩

/-- The batch after a save: a batch of a chat of which drafts are left stays in review. -/
def GenerationRequest.saved (event : SaveEvent) (activity : List ActivityEntry)
    (remaining : List ZyraEntry) (now : Time) (r : GenerationRequest) : GenerationRequest :=
  if r.chatSessionId.isSome ∧ remaining ≠ [] then
    { r with
      generatedPayload := remaining
      generatedCount := remaining.length
      savedCount := r.savedCount + event.testcaseIds.length
      saveEvents := r.saveEvents ++ [event]
      activityLog := r.activityLog ++ activity
      taskStatus := "in_review"
      updatedAt := now }
  else
    { r with
      savedCount := r.savedCount + event.testcaseIds.length
      saveEvents := r.saveEvents ++ [event]
      activityLog := r.activityLog ++ activity
      taskStatus := "done"
      updatedAt := now }

theorem GenerationRequest.saved_id (event : SaveEvent) (activity : List ActivityEntry)
    (remaining : List ZyraEntry) (now : Time) (r : GenerationRequest) :
    (r.saved event activity remaining now).id = r.id := by
  unfold GenerationRequest.saved
  split <;> rfl

/-- What is written once the entries are. -/
def recordSave (projectId taskId : Uuid) (existing : GenerationRequest)
    (selected : List (ℕ × ZyraEntry)) (batchSuiteId : Option IdText) (staleSuites : ℕ)
    (result : SaveResult) : TaskSave SaveAnswer := do
  let savedAt ← query fun s ↦ s.save.db.now
  let eventId ← onTables genUuid
  let event : SaveEvent := ⟨eventId, batchSuiteId, result.touched.map touchedId, savedAt⟩
  let activity := saveActivity result.touched.length staleSuites savedAt
  let remaining := remainingPayload selected existing.generatedPayload
  let created := result.created.map fun row ↦ row.1.id
  whenSome existing.chatSessionId fun session ↦
    if created ≠ [] ∨ remaining = [] then write fun s ↦
      { s with
        sessions := s.sessions.updateWhere (fun c ↦ c.id = session)
          (fun c ↦ { c with
            lastCompletedPlan := some
              (mergedPlan taskId created remaining.length c.lastCompletedPlan) }) fun _ ↦ rfl }
    else pure ()
  write fun s ↦
    { s with
      requests := s.requests.updateWhere (fun r ↦ r.id = taskId && r.projectId = projectId)
        (GenerationRequest.saved event activity remaining savedAt)
        (GenerationRequest.saved_id event activity remaining savedAt) }
  pure ⟨result.touched.length, batchSuiteId, result.touched, remaining.length⟩

/-- The transaction of an attempt. -/
def saveTransaction [Unicode] (setBased : Option ReturningOrder) (projectId uid taskId : Uuid)
    (batchSuiteId : Option IdText) (indexes : Option (List (Option ℕ))) : TaskSave SaveAnswer := do
  let existing ← check (openRequest projectId taskId)
  let selected := selectedEntries indexes existing.generatedPayload
  if selected = [] then pure ⟨0, batchSuiteId, [], 0⟩
  else do
    let stale ← query fun s ↦ staleDraftIndexes selected s.save.db
    require (stale = []) (.staleDrafts stale)
    let context ← query (entryContext projectId uid taskId batchSuiteId existing selected)
    let result ← onSave (processEntries setBased context.1 (selected.map Prod.snd))
    recordSave projectId taskId existing selected context.1.batchSuiteId context.2 result

/-! ## Attempts -/

/-- A body that names a suite and nothing else. -/
def namedSuite (name : String) : SuiteBody :=
  ⟨.value name, .undefined, .undefined, .undefined, .undefined⟩

/-- The suite of the batch, created where the body names one. -/
def batchSuite (fault : Option Fault) (projectId : Uuid) (body : SaveBody) :
    TaskSave (Option IdText) :=
  match body.newSuite with
  | none => pure body.suiteId.truthy
  | some name =>
      match fault with
      | some .createSuite => fail connectionLost
      | some (.transaction _) | none => do
          let id ← onTables (createSuite projectId (namedSuite name))
          pure (some (.canonical id))

/-- A transaction of which a statement fails: what it wrote before is taken back, whichever it is. -/
def interrupted {α : Type} (fault : Option Fault) (m : TaskSave α) : TaskSave α :=
  match fault with
  | some (.transaction e) => fail e
  | some .createSuite | none => transaction m

def zyraSaveAttempt [Unicode] (setBased : Option ReturningOrder) (fault : Option Fault)
    (projectId uid taskId : Uuid) (body : SaveBody) : TaskSave SaveAnswer := do
  let batchSuiteId ← batchSuite fault projectId body
  interrupted fault
    (saveTransaction setBased projectId uid taskId batchSuiteId body.selectedDraftIndexes)

/-- An id that was allocated has been taken meanwhile. -/
def collided : TaskError → Bool
  | .save (.refused e) => e = .unique "idx_testcases_project_external"
  | .save (.fieldErrors _) | .save .typeError | .staleDrafts _ => false

/-- The attempt numbered `n`, and up to `retries` more of them. -/
def saveAttempts [Unicode] (setBased : Option ReturningOrder) (faults : ℕ → Option Fault)
    (projectId uid taskId : Uuid) (body : SaveBody) : ℕ → ℕ → TaskSave SaveAnswer
  | 0, n => zyraSaveAttempt setBased (faults n) projectId uid taskId body
  | retries + 1, n => do
      match ← caught (zyraSaveAttempt setBased (faults n) projectId uid taskId body) with
      | .ok answer => pure answer
      | .error e =>
          if collided e then saveAttempts setBased faults projectId uid taskId body retries (n + 1)
          else fail e

/-- The checks of a save: the caller, the project and the task; `none` where nothing is picked. -/
def opening (accessFault : Option TaskError) (userId : Option Uuid) (projectId taskId : IdText)
    (body : SaveBody) : TaskSave (Option (Uuid × Uuid × Uuid)) := do
  let uid ← onTables (requireUser userId)
  ofExcept (accessFault.elim (.ok ()) .error)
  let access ← onTables (requireProjectAccess (some uid) projectId)
  require (taskId.isUuid = true) (refusal (.notFound "Zyra task not found"))
  let task ← onTables (castUuid taskId)
  if body.selectedDraftIndexes = some [] then pure none else pure (some (access.project.id, uid, task))

/-- What may go wrong with a save's statements. -/
structure Faults where
  access : Option TaskError
  attempt : ℕ → Option Fault

def zyraSave [Unicode] (setBased : Option ReturningOrder) (faults : Faults) (userId : Option Uuid)
    (projectId taskId : IdText) (body : SaveBody) : TaskSave SaveAnswer := do
  match ← opening faults.access userId projectId taskId body with
  | none => pure ⟨0, body.suiteId.truthy, [], 0⟩
  | some (project, uid, task) => saveAttempts setBased faults.attempt project uid task body 4 0

end Tesbo.ZyraTaskSaves
