import Tesbo.TicketComments

/-!
# Runs of an integration sync

A run of a provider's sync is a row of `integration_sync_runs`: the coordinator, the jobs of its
tickets, the watchdog, a restart and a disconnect all write to it, each by single statements.
-/

namespace Tesbo.Sync

open Reasoning
open TicketComments (Provider)

/-! ## Rows -/

inductive RunStatus where
  | queued
  | running
  | succeeded
  | partly
  | failed
deriving DecidableEq, Repr

namespace RunStatus

def text : RunStatus → String
  | queued => "queued"
  | running => "running"
  | succeeded => "succeeded"
  | partly => "partial"
  | failed => "failed"

/-- `status IN ('queued', 'running')` -/
def active : RunStatus → Bool
  | queued | running => true
  | succeeded | partly | failed => false

end RunStatus

inductive Stage where
  | queued
  | connecting
  | fetchingTickets
  | buildingDocuments
  | done
  | failed
deriving DecidableEq, Repr

inductive TriggerSource where
  | manual
  | nightly
deriving DecidableEq, Repr

/-- `nightlyCycleDate` is the number of the day. -/
structure SyncRun where
  id : Uuid
  organizationId : Uuid
  projectId : Uuid
  provider : Provider
  remoteProjectKey : Option String
  triggeredBy : Option Uuid
  triggerSource : TriggerSource
  nightlyCycleDate : Option ℕ
  status : RunStatus
  stage : Stage
  totalTickets : ℕ
  processedTickets : ℕ
  failedTickets : ℕ
  documentsCreated : ℕ
  documentsUpdated : ℕ
  commentsSynced : ℕ
  decisionSummaries : ℕ
  error : Option String
  truncated : Bool
  windowStart : Option Time
  syncSince : Option Time
  startedAt : Option Time
  finishedAt : Option Time
  createdAt : Time
  updatedAt : Time
deriving Repr

abbrev Runs := Table SyncRun.id

/-! ## Statements -/

structure NewRun where
  organizationId : Uuid
  projectId : Uuid
  provider : Provider
  remoteProjectKey : Option String
  triggeredBy : Option Uuid
  triggerSource : TriggerSource
  nightlyCycleDate : Option ℕ
  windowStart : Option Time
  syncSince : Option Time

/-- `idx_integration_sync_runs_active` -/
def activeTaken (new : NewRun) (runs : Runs) : Prop :=
  ∃ r ∈ runs, r.projectId = new.projectId ∧ r.provider = new.provider ∧ r.status.active = true

instance (new : NewRun) (runs : Runs) : Decidable (activeTaken new runs) :=
  inferInstanceAs (Decidable (∃ r ∈ runs, _))

/-- `idx_integration_sync_runs_nightly_cycle` -/
def nightTaken (new : NewRun) (runs : Runs) : Prop :=
  new.triggerSource = .nightly ∧ ∃ r ∈ runs, r.projectId = new.projectId ∧
    r.provider = new.provider ∧ r.triggerSource = .nightly ∧
      r.nightlyCycleDate = new.nightlyCycleDate

instance (new : NewRun) (runs : Runs) : Decidable (nightTaken new runs) :=
  inferInstanceAs (Decidable (_ ∧ ∃ r ∈ runs, _))

/-- The `INSERT` of `startRun`. -/
def insertRun (new : NewRun) (id : Uuid) (now : Time) (runs : Runs) : Except Failure Runs :=
  if activeTaken new runs then .error (.unique "idx_integration_sync_runs_active")
  else if nightTaken new runs then .error (.unique "idx_integration_sync_runs_nightly_cycle")
  else
    match runs.insert
      { id := id, organizationId := new.organizationId, projectId := new.projectId,
        provider := new.provider, remoteProjectKey := new.remoteProjectKey,
        triggeredBy := new.triggeredBy, triggerSource := new.triggerSource,
        nightlyCycleDate := new.nightlyCycleDate, status := .queued, stage := .queued,
        totalTickets := 0, processedTickets := 0, failedTickets := 0, documentsCreated := 0,
        documentsUpdated := 0, commentsSynced := 0, decisionSummaries := 0, error := none,
        truncated := false, windowStart := some (new.windowStart.getD now),
        syncSince := new.syncSince, startedAt := none, finishedAt := none, createdAt := now,
        updatedAt := now } with
    | none => .error (.unique "integration_sync_runs_pkey")
    | some runs => .ok runs

/-- `UPDATE integration_sync_runs … WHERE id` -/
def updateRun (runId : Uuid) (f : SyncRun → SyncRun) (hf : ∀ r, (f r).id = r.id) (runs : Runs) :
    Runs :=
  runs.updateWhere (fun r ↦ r.id = runId) f hf

/-- The same for a run that has not ended. -/
def settleRun (runId : Uuid) (f : SyncRun → SyncRun) (hf : ∀ r, (f r).id = r.id) (runs : Runs) :
    Runs :=
  runs.updateWhere (fun r ↦ r.id = runId ∧ r.status.active) f hf

def markRunning (runId : Uuid) (stage : Stage) (now : Time) : Runs → Runs :=
  updateRun runId (fun r ↦ { r with
    status := .running, stage := stage, startedAt := r.startedAt.or (some now), updatedAt := now })
    fun _ ↦ rfl

def setStage (runId : Uuid) (stage : Stage) (now : Time) : Runs → Runs :=
  updateRun runId (fun r ↦ { r with stage := stage, updatedAt := now }) fun _ ↦ rfl

def setTotals (runId : Uuid) (totalTickets : ℕ) (now : Time) : Runs → Runs :=
  updateRun runId (fun r ↦ { r with totalTickets := totalTickets, updatedAt := now }) fun _ ↦ rfl

/-- The remote project of the run, as the coordinator finds it mapped. -/
def setRemote (runId : Uuid) (remoteProjectKey : String) (now : Time) : Runs → Runs :=
  updateRun runId (fun r ↦ { r with remoteProjectKey := some remoteProjectKey, updatedAt := now })
    fun _ ↦ rfl

def setTruncated (runId : Uuid) (now : Time) : Runs → Runs :=
  updateRun runId (fun r ↦ { r with truncated := true, updatedAt := now }) fun _ ↦ rfl

/-- What the coordinator has to say of a run that goes on. -/
def setNote (runId : Uuid) (note : String) (now : Time) : Runs → Runs :=
  updateRun runId (fun r ↦ { r with error := some note, updatedAt := now }) fun _ ↦ rfl

/-- `error = COALESCE(error, …)` -/
def noteRefusal (runId : Uuid) (reason : String) (now : Time) : Runs → Runs :=
  updateRun runId (fun r ↦ { r with error := r.error.or (some reason), updatedAt := now })
    fun _ ↦ rfl

def failRun (runId : Uuid) (error : String) (now : Time) : Runs → Runs :=
  settleRun runId (fun r ↦ { r with
    status := .failed, stage := .failed, error := some (jsSlice 2000 error),
    finishedAt := some now, updatedAt := now }) fun _ ↦ rfl

def failActiveRunsForConnection (organizationId : Uuid) (provider : Provider) (message : String)
    (now : Time) (runs : Runs) : Runs :=
  runs.updateWhere
    (fun r ↦ r.organizationId = organizationId ∧ r.provider = provider ∧ r.status.active)
    (fun r ↦ { r with
      status := .failed, stage := .failed, error := some (jsSlice 2000 message),
      finishedAt := some now, updatedAt := now }) fun _ ↦ rfl

def finishRun (runId : Uuid) (note : Option String) (now : Time) : Runs → Runs :=
  settleRun runId (fun r ↦ { r with
    status := if 0 < r.failedTickets then .partly else .succeeded, stage := .done,
    error := r.error.or note, finishedAt := some now, updatedAt := now }) fun _ ↦ rfl

/-- What a ticket adds to the counts of its run. -/
structure TicketProgressDelta where
  processed : ℕ
  failed : ℕ
  created : ℕ
  updated : ℕ
  comments : ℕ
  decisions : ℕ
deriving DecidableEq, Repr

/-- The first statement of `recordTicketResult`. -/
def addTicketResult (runId : Uuid) (delta : TicketProgressDelta) (now : Time) : Runs → Runs :=
  updateRun runId (fun r ↦ { r with
    processedTickets := r.processedTickets + delta.processed,
    failedTickets := r.failedTickets + delta.failed,
    documentsCreated := r.documentsCreated + delta.created,
    documentsUpdated := r.documentsUpdated + delta.updated,
    commentsSynced := r.commentsSynced + delta.comments,
    decisionSummaries := r.decisionSummaries + delta.decisions, updatedAt := now }) fun _ ↦ rfl

/-- Whether the counts `recordTicketResult` is returned are those of a complete run. -/
def complete (r : SyncRun) : Bool := r.totalTickets ≤ r.processedTickets + r.failedTickets

def failStuckRuns (maxAgeMinutes : ℕ) (message : String) (now : Time) (runs : Runs) : Runs :=
  runs.updateWhere (fun r ↦ r.status.active ∧ r.updatedAt + maxAgeMinutes * 60 * 1000 < now)
    (fun r ↦ { r with
      status := .failed, stage := .failed, error := r.error.or (some message),
      finishedAt := some now, updatedAt := now }) fun _ ↦ rfl

def failInterruptedRuns : Time → Runs → Runs :=
  failStuckRuns 0
    "Sync was interrupted before it finished (the server restarted). Run Sync again to retry."

def syncRunStaleMinutes : ℕ := 20

def failStaleRuns : Time → Runs → Runs :=
  failStuckRuns syncRunStaleMinutes
    s!"Sync timed out after {syncRunStaleMinutes} minutes with no progress. Run Sync again to retry."

end Tesbo.Sync
