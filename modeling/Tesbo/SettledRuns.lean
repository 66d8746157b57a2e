import Tesbo.SyncRuns
import Tesbo.Reasoning.Runs

/-!
# A run that has ended

Every writer of a run's status asks that the run has not ended, but the coordinator when it begins: a
run that was failed while it waited in the queue runs again.
-/

namespace Tesbo.Sync

open Reasoning
open TicketComments (Provider)

/-- The statements of the operations on a run; `recordTicketResult` is its first statement, and where
the run is complete a `finishRun`. -/
inductive Op where
  | startRun (new : NewRun) (id : Uuid)
  | markRunning (runId : Uuid) (stage : Stage)
  | setStage (runId : Uuid) (stage : Stage)
  | setTotals (runId : Uuid) (totalTickets : ℕ)
  | recordTicketResult (runId : Uuid) (delta : TicketProgressDelta)
  | finishRun (runId : Uuid) (note : Option String)
  | failRun (runId : Uuid) (error : String)
  | failActiveRunsForConnection (organizationId : Uuid) (provider : Provider) (message : String)
  | failInterruptedRuns
  | failStaleRuns

/-- An operation at a time of its own; one the database refuses changes nothing. -/
def stepRuns (runs : Runs) : Op × Time → Runs
  | (.startRun new id, now) => (insertRun new id now runs).toOption.getD runs
  | (.markRunning runId stage, now) => markRunning runId stage now runs
  | (.setStage runId stage, now) => setStage runId stage now runs
  | (.setTotals runId totalTickets, now) => setTotals runId totalTickets now runs
  | (.recordTicketResult runId delta, now) => addTicketResult runId delta now runs
  | (.finishRun runId note, now) => finishRun runId note now runs
  | (.failRun runId error, now) => failRun runId error now runs
  | (.failActiveRunsForConnection organizationId provider message, now) =>
      failActiveRunsForConnection organizationId provider message now runs
  | (.failInterruptedRuns, now) => failInterruptedRuns now runs
  | (.failStaleRuns, now) => failStaleRuns now runs

def statusOf (id : Uuid) (runs : Runs) : Option RunStatus := (runs.find id).map SyncRun.status

/-- A run that has ended keeps its status in the step. -/
def Absorbs (id : Uuid) (runs : Runs) (e : Op × Time) : Prop :=
  ∀ status, statusOf id runs = some status → status.active = false →
    statusOf id (stepRuns runs e) = some status

/-- The coordinator begins with a run that waits or is at work. -/
def BeginsActive (id : Uuid) (runs : Runs) (e : Op × Time) : Prop :=
  ∀ stage, e.1 = .markRunning id stage → ∀ status ∈ statusOf id runs, status.active = true

section Status

variable {id : Uuid} {runs : Runs}

theorem statusOf_eq_some {status : RunStatus} :
    statusOf id runs = some status ↔ ∃ r ∈ runs, r.id = id ∧ r.status = status := by
  unfold statusOf
  rw [Option.map_eq_some_iff]
  constructor
  · rintro ⟨r, hfind, hstatus⟩
    obtain ⟨hr, hid⟩ := Table.find_eq_some.mp hfind
    exact ⟨r, hr, hid, hstatus⟩
  · rintro ⟨r, hr, hid, hstatus⟩
    exact ⟨r, Table.find_eq_some.mpr ⟨hr, hid⟩, hstatus⟩

section Updates

variable {runs' : Runs} {p : SyncRun → Bool} {f : SyncRun → SyncRun} {status : RunStatus}

/-- An update that leaves the status of the run's row alone. -/
theorem statusOf_updated (hrows : Table.UpdatedRows runs runs' p f) (hf : ∀ r, (f r).id = r.id)
    (h : statusOf id runs = some status)
    (hstays : ∀ r, r.id = id → r.status = status → p r = true → (f r).status = status) :
    statusOf id runs' = some status := by
  obtain ⟨r, hr, hid, hstatus⟩ := statusOf_eq_some.mp h
  refine statusOf_eq_some.mpr (hrows.exists_of_mem hr (fun _ ↦ ⟨hid, hstatus⟩) fun hp ↦ ?_)
  exact ⟨(hf r).trans hid, hstays r hid hstatus hp⟩

/-- A statement that writes no status. -/
theorem statusOf_kept (hrows : Table.UpdatedRows runs runs' p f) (hf : ∀ r, (f r).id = r.id)
    (hstays : ∀ r, (f r).status = r.status) (h : statusOf id runs = some status) :
    statusOf id runs' = some status :=
  statusOf_updated hrows hf h fun r _ hstatus _ ↦ (hstays r).trans hstatus

/-- A statement that asks for a run that has not ended. -/
theorem statusOf_guarded (hrows : Table.UpdatedRows runs runs' p f) (hf : ∀ r, (f r).id = r.id)
    (hguard : ∀ r, p r = true → r.status.active = true) (h : statusOf id runs = some status)
    (hended : status.active = false) : statusOf id runs' = some status := by
  refine statusOf_updated hrows hf h fun r _ hstatus hp ↦ ?_
  have hactive := hguard r hp
  rw [hstatus, hended] at hactive
  cases hactive

end Updates

theorem statusOf_insertRun {new : NewRun} {newId : Uuid} {now : Time} {status : RunStatus}
    (h : statusOf id runs = some status) :
    statusOf id ((insertRun new newId now runs).toOption.getD runs) = some status := by
  unfold insertRun
  split
  · exact h
  · split
    · exact h
    · split
      · exact h
      · rename_i runs' hinsert
        obtain ⟨r, hr, hid, hstatus⟩ := statusOf_eq_some.mp h
        exact statusOf_eq_some.mpr ⟨r, (Table.mem_insert hinsert).mpr (.inl hr), hid, hstatus⟩

/-- The one statement without a guard. -/
theorem absorbs_markRunning_iff {runId : Uuid} {stage : Stage} {now : Time} :
    Absorbs id runs (.markRunning runId stage, now) ↔
      BeginsActive id runs (.markRunning runId stage, now) := by
  constructor
  · rintro h stage' hop status hstatus
    obtain ⟨rfl, rfl⟩ := Op.markRunning.inj hop
    by_contra hended
    have hkept := h status hstatus (Bool.not_eq_true _ ▸ hended)
    obtain ⟨r, hr, hid, -⟩ := statusOf_eq_some.mp hstatus
    have hruns : statusOf runId (markRunning runId stage now runs) = some .running := by
      have hrows : Table.UpdatedRows runs (markRunning runId stage now runs)
        (fun r ↦ r.id = runId) (fun r ↦ { r with
          status := .running, stage := stage, startedAt := r.startedAt.or (some now),
          updatedAt := now }) := rfl
      refine statusOf_eq_some.mpr (hrows.exists_of_mem hr (fun hne ↦ ?_) fun _ ↦ ⟨hid, rfl⟩)
      exact absurd hid (of_decide_eq_false hne)
    have hrunning : some RunStatus.running = some status := hruns.symm.trans hkept
    obtain rfl := Option.some.inj hrunning
    exact hended rfl
  · intro h status hstatus hended
    refine statusOf_updated rfl (fun _ ↦ rfl) hstatus fun r hid _ hp ↦ ?_
    have hsame : runId = id := (of_decide_eq_true hp).symm.trans hid
    have hactive := h stage (by rw [hsame]) status hstatus
    rw [hended] at hactive
    cases hactive

/-- A step leaves an ended run alone unless it is the coordinator's beginning. -/
theorem absorbs_iff {e : Op × Time} : Absorbs id runs e ↔ BeginsActive id runs e := by
  obtain ⟨op, now⟩ := e
  cases op with
  | markRunning runId stage => exact absorbs_markRunning_iff
  | startRun new newId =>
      exact ⟨fun _ _ h ↦ (by cases h), fun _ _ h _ ↦ statusOf_insertRun h⟩
  | setStage runId stage =>
      exact ⟨fun _ _ h ↦ (by cases h), fun _ _ h _ ↦ statusOf_kept rfl (fun _ ↦ rfl) (fun _ ↦ rfl) h⟩
  | setTotals runId totalTickets =>
      exact ⟨fun _ _ h ↦ (by cases h), fun _ _ h _ ↦ statusOf_kept rfl (fun _ ↦ rfl) (fun _ ↦ rfl) h⟩
  | recordTicketResult runId delta =>
      exact ⟨fun _ _ h ↦ (by cases h), fun _ _ h _ ↦ statusOf_kept rfl (fun _ ↦ rfl) (fun _ ↦ rfl) h⟩
  | finishRun runId note =>
      refine ⟨fun _ _ h ↦ (by cases h), fun _ _ h hended ↦ statusOf_guarded rfl (fun _ ↦ rfl) ?_ h hended⟩
      exact fun r hp ↦ (of_decide_eq_true hp).2
  | failRun runId error =>
      refine ⟨fun _ _ h ↦ (by cases h), fun _ _ h hended ↦ statusOf_guarded rfl (fun _ ↦ rfl) ?_ h hended⟩
      exact fun r hp ↦ (of_decide_eq_true hp).2
  | failActiveRunsForConnection organizationId provider message =>
      refine ⟨fun _ _ h ↦ (by cases h), fun _ _ h hended ↦ statusOf_guarded rfl (fun _ ↦ rfl) ?_ h hended⟩
      exact fun r hp ↦ (of_decide_eq_true hp).2.2
  | failInterruptedRuns =>
      refine ⟨fun _ _ h ↦ (by cases h), fun _ _ h hended ↦ statusOf_guarded rfl (fun _ ↦ rfl) ?_ h hended⟩
      exact fun r hp ↦ (of_decide_eq_true hp).1
  | failStaleRuns =>
      refine ⟨fun _ _ h ↦ (by cases h), fun _ _ h hended ↦ statusOf_guarded rfl (fun _ ↦ rfl) ?_ h hended⟩
      exact fun r hp ↦ (of_decide_eq_true hp).1

end Status

/-! ## Whole histories -/

/-- Once the run has ended no later operation gives it another status, whatever came before. -/
def EndsForGood (id : Uuid) (runs : Runs) (es : List (Op × Time)) : Prop :=
  ∀ before after rest, es = before ++ after ++ rest → ∀ status,
    statusOf id (before.foldl stepRuns runs) = some status → status.active = false →
      statusOf id (after.foldl stepRuns (before.foldl stepRuns runs)) = some status

section Histories

variable {id : Uuid} {runs : Runs} {es : List (Op × Time)}

/-- What each step keeps, all of them keep. -/
theorem statusOf_foldl {status : RunStatus} {after rest : List (Op × Time)}
    (h : Along stepRuns (Absorbs id) runs (after ++ rest))
    (hstatus : statusOf id runs = some status) (hended : status.active = false) :
    statusOf id (after.foldl stepRuns runs) = some status := by
  induction after generalizing runs with
  | nil => exact hstatus
  | cons e after ih => exact ih h.2 (h.1 status hstatus hended)

theorem along_append {before after : List (Op × Time)}
    (h : Along stepRuns (Absorbs id) runs (before ++ after)) :
    Along stepRuns (Absorbs id) (before.foldl stepRuns runs) after := by
  induction before generalizing runs with
  | nil => exact h
  | cons e before ih => exact ih h.2

end Histories

/-! ## A run that comes back -/

def manualRun : NewRun :=
  { organizationId := 10, projectId := 100, provider := .jira, remoteProjectKey := some "QA",
    triggeredBy := some 1, triggerSource := .manual, nightlyCycleDate := none,
    windowStart := none, syncSince := none }

/-- A run waits for the coordinator, the integration is disconnected, and the coordinator begins. -/
def disconnectedWhileQueued : List (Op × Time) :=
  [(.startRun manualRun 7, 1000),
    (.failActiveRunsForConnection 10 .jira "Jira was disconnected.", 2000),
    (.markRunning 7 .connecting, 3000)]

end Tesbo.Sync
