import Tesbo.SettledRuns

/-!
# Runs without a job

`startRun` writes a row to the database and a job to the queue.  Either write, and every read between
them, can fail.
-/

namespace Tesbo.OrphanRuns

open Reasoning Service Sync
open TicketComments (Provider)

/-! ## `startRun` -/

/-- The runs, the coordinator jobs that were ever added, and the time. -/
structure SyncState where
  runs : Runs
  jobs : List Uuid
  clock : Time

def SyncState.waited (s : SyncState) (delay : ℕ) : SyncState := { s with clock := s.clock + delay }

/-- What becomes of a write: done, not done, or done with its answer lost. -/
inductive Fault where
  | none
  | before
  | after
deriving DecidableEq, Repr

/-- Which of the steps of a call throw. -/
structure Faults where
  connection : Bool
  prior : Bool
  insert : Fault
  add : Fault
  getRun : Bool
  existing : Bool

structure StartCall where
  organizationId : Uuid
  projectId : Uuid
  provider : Provider
  triggeredBy : Option Uuid
  remoteProjectKey : Option String
  triggerSource : TriggerSource
  since : Option Time
  /-- What `gen_random_uuid` gives. -/
  id : Uuid
  /-- The time that passes up to the `catch`. -/
  elapsed : ℕ

inductive SyncError where
  | lost
  | refused (e : Failure)
deriving DecidableEq, Repr

/-- The number of the day at UTC+5:30. -/
def nightlyCycleDate (now : Time) : ℕ := (now + 19800000) / 86400000

/-- `ORDER BY created_at DESC LIMIT 1`; of runs created at one time, the one written last. -/
def latest (p : SyncRun → Bool) (runs : Runs) : Option SyncRun :=
  (runs.select p).reverse.argmax SyncRun.createdAt

def ofProject (projectId : Uuid) (provider : Provider) (r : SyncRun) : Bool :=
  r.projectId = projectId && r.provider = provider

/-- `SyncRunView` and `alreadyRunning`. -/
abbrev Answer := Option SyncRun × Bool

def lossy {α : Type} (fault : Fault) (m : Service SyncError SyncState α) :
    Service SyncError SyncState α :=
  match fault with
  | .none => m
  | .before => fail .lost
  | .after => do
      let _ ← m
      fail .lost

def lossyRead {α : Type} (lost : Bool) (f : SyncState → α) : Service SyncError SyncState α :=
  if lost then fail .lost else query f

/-- `try { m } catch (e) { h e }` -/
def catching {α : Type} (m : Service SyncError SyncState α)
    (h : SyncError → Service SyncError SyncState α) : Service SyncError SyncState α := fun s ↦
  match m s with
  | (.error e, s') => h e s'
  | (.ok a, s') => (.ok a, s')

namespace StartCall

variable (call : StartCall)

/-- The last run that ended well, where the cap cut it off and it is of the same remote project. -/
def resumed (s : SyncState) : Option SyncRun :=
  (latest (fun r ↦ ofProject call.projectId call.provider r &&
    (r.status = .succeeded || r.status = .partly)) s.runs).filter fun r ↦
      r.truncated && r.windowStart.isSome && r.remoteProjectKey = call.remoteProjectKey

def newRun (resumed : Option SyncRun) (now : Time) : NewRun where
  organizationId := call.organizationId
  projectId := call.projectId
  provider := call.provider
  remoteProjectKey := call.remoteProjectKey
  triggeredBy := call.triggeredBy
  triggerSource := call.triggerSource
  nightlyCycleDate :=
    match call.triggerSource with
    | .nightly => some (OrphanRuns.nightlyCycleDate now)
    | .manual => none
  windowStart := resumed.bind SyncRun.windowStart
  syncSince :=
    match resumed with
    | some r => r.syncSince
    | none => call.since

/-- The `INSERT` and the queue's `add`. -/
def insertAndAdd (faults : Faults) (resumed : Option SyncRun) :
    Service SyncError SyncState Answer := do
  lossy faults.insert <| exec fun s ↦
    match insertRun (call.newRun resumed s.clock) call.id s.clock s.runs with
    | .ok runs => .ok { s with runs := runs }
    | .error e => .error (.refused e)
  lossy faults.add <| write fun s ↦ { s with jobs := call.id :: s.jobs }
  let run ← lossyRead faults.getRun fun s ↦ s.runs.find call.id
  pure (run, false)

/-- The run of this cycle, or the one that is under way. -/
def existing (s : SyncState) : Option SyncRun :=
  match call.triggerSource with
  | .nightly =>
      latest (fun r ↦ ofProject call.projectId call.provider r && (r.triggerSource = .nightly &&
        r.nightlyCycleDate = some (OrphanRuns.nightlyCycleDate s.clock))) s.runs
  | .manual =>
      (latest (ofProject call.projectId call.provider) s.runs).filter fun r ↦ r.status.active

/-- The `catch` of `startRun`. -/
def answerExisting (faults : Faults) (e : SyncError) : Service SyncError SyncState Answer := do
  write fun s ↦ s.waited call.elapsed
  let existing ← lossyRead faults.existing call.existing
  match existing with
  | some run => pure (some run, true)
  | none => fail e

end StartCall

def startRun (call : StartCall) (faults : Faults) : Service SyncError SyncState Answer := do
  lossyRead faults.connection fun _ ↦ ()
  let resumed ← lossyRead faults.prior call.resumed
  catching (call.insertAndAdd faults resumed) (call.answerExisting faults)

/-! ## Runs of the service -/

/-- A call of `startRun`, or a statement of another operation; each some time after the last. -/
inductive Event where
  | start (delay : ℕ) (call : StartCall) (faults : Faults)
  | work (delay : ℕ) (op : Op)

/-- Only a job that was added begins a run. -/
def permitted (jobs : List Uuid) : Op → Bool
  | .startRun _ _ => false
  | .markRunning runId _ => runId ∈ jobs
  | _ => true

def stepState (s : SyncState) : Event → SyncState
  | .start delay call faults => after (startRun call faults) (s.waited delay)
  | .work delay op =>
      let s := s.waited delay
      if permitted s.jobs op then { s with runs := stepRuns s.runs (op, s.clock) } else s

def SyncState.start : SyncState := ⟨.empty, [], 0⟩

/-! ## Orphans -/

/-- The call returns a run with a job, or leaves no run of its own that waits or is at work; and a
run it says is under way has a job. -/
structure LeavesNoOrphan (call : StartCall) (faults : Faults) (s : SyncState) : Prop where
  settled : (∃ run already, (startRun call faults s).1 = .ok (some run, already) ∧
      run.id ∈ (startRun call faults s).2.jobs) ∨
    ∀ r ∈ (startRun call faults s).2.runs, r.status.active = true → ∃ r₀ ∈ s.runs, r₀.id = r.id
  underWay : ∀ run, (startRun call faults s).1 = .ok (some run, true) → run.status.active = true →
    run.id ∈ (startRun call faults s).2.jobs

/-- No row is written: a step before it throws, or the database refuses it. -/
def WritesNoRow (call : StartCall) (faults : Faults) (s : SyncState) : Prop :=
  faults.connection = true ∨ faults.prior = true ∨ faults.insert = .before ∨
    activeTaken (call.newRun none s.clock) s.runs ∨ nightTaken (call.newRun none s.clock) s.runs ∨
    ∃ r ∈ s.runs, r.id = call.id

/-- The job is added; and where an answer is lost after that, the run can be looked up, on the same
day if it is a nightly one. -/
structure AddsJob (call : StartCall) (faults : Faults) (s : SyncState) : Prop where
  inserted : faults.insert = .none
  added : faults.add ≠ .before
  answered : faults.add = .none ∧ faults.getRun = false ∨
    faults.existing = false ∧ (call.triggerSource = .nightly →
      nightlyCycleDate (s.clock + call.elapsed) = nightlyCycleDate s.clock)

def Event.LeavesNoOrphan (s : SyncState) : Event → Prop
  | .start delay call faults => OrphanRuns.LeavesNoOrphan call faults (s.waited delay)
  | .work _ _ => True

def Event.Enqueues (s : SyncState) : Event → Prop
  | .start delay call faults =>
      WritesNoRow call faults (s.waited delay) ∨ AddsJob call faults (s.waited delay)
  | .work _ _ => True

/-! ## What holds of every state -/

/-- Runs were created in the past, those that wait or are at work have a job, and jobs have a run. -/
structure Kept (s : SyncState) : Prop where
  created : ∀ r ∈ s.runs, r.createdAt ≤ s.clock
  cycles : ∀ r ∈ s.runs, ∀ day ∈ r.nightlyCycleDate, day ≤ nightlyCycleDate s.clock
  backed : ∀ r ∈ s.runs, r.status.active = true → r.id ∈ s.jobs
  known : ∀ id ∈ s.jobs, ∃ r ∈ s.runs, r.id = id

theorem nightlyCycleDate_mono {now later : Time} (h : now ≤ later) :
    nightlyCycleDate now ≤ nightlyCycleDate later := by
  unfold nightlyCycleDate
  exact Nat.div_le_div_right (Nat.add_le_add_right h _)

theorem Kept.start : Kept .start where
  created r hr := by cases hr
  cycles r hr := by cases hr
  backed r hr := by cases hr
  known id hid := by cases hid

theorem Kept.waited {s : SyncState} (h : Kept s) (delay : ℕ) : Kept (s.waited delay) where
  created r hr := (h.created r hr).trans (Nat.le_add_right _ _)
  cycles r hr day hday :=
    (h.cycles r hr day hday).trans (nightlyCycleDate_mono (Nat.le_add_right _ _))
  backed := h.backed
  known := h.known

/-- A statement on rows that are there. -/
theorem Kept.updated {s : SyncState} (h : Kept s) {runs : Runs} {p : SyncRun → Bool}
    {f : SyncRun → SyncRun} (hrows : Table.UpdatedRows s.runs runs p f) (hid : ∀ r, (f r).id = r.id)
    (hcreated : ∀ r, (f r).createdAt = r.createdAt)
    (hcycle : ∀ r, (f r).nightlyCycleDate = r.nightlyCycleDate)
    (hactive : ∀ r, p r = true → (f r).status.active = true →
      r.status.active = true ∨ r.id ∈ s.jobs) : Kept { s with runs := runs } where
  created r hr := by
    rcases hrows.mem_iff.mp hr with ⟨hr, -⟩ | ⟨r₀, hr₀, -, rfl⟩
    · exact h.created r hr
    · rw [hcreated]
      exact h.created r₀ hr₀
  cycles r hr day hday := by
    rcases hrows.mem_iff.mp hr with ⟨hr, -⟩ | ⟨r₀, hr₀, -, rfl⟩
    · exact h.cycles r hr day hday
    · rw [hcycle] at hday
      exact h.cycles r₀ hr₀ day hday
  backed r hr hr_active := by
    rcases hrows.mem_iff.mp hr with ⟨hr, -⟩ | ⟨r₀, hr₀, hp, rfl⟩
    · exact h.backed r hr hr_active
    · rw [hid]
      rcases hactive r₀ hp hr_active with hbefore | hjob
      · exact h.backed r₀ hr₀ hbefore
      · exact hjob
  known id hjob := by
    obtain ⟨r, hr, rfl⟩ := h.known id hjob
    exact hrows.exists_of_mem hr (fun _ ↦ rfl) fun _ ↦ hid r

theorem Kept.work {s : SyncState} (h : Kept s) {op : Op} (hop : permitted s.jobs op = true)
    (now : Time) : Kept { s with runs := stepRuns s.runs (op, now) } := by
  cases op with
  | startRun new id => cases hop
  | markRunning runId stage =>
      refine h.updated rfl (fun _ ↦ rfl) (fun _ ↦ rfl) (fun _ ↦ rfl) fun r hp _ ↦ .inr ?_
      rw [of_decide_eq_true hp]
      exact of_decide_eq_true hop
  | setStage runId stage =>
      exact h.updated rfl (fun _ ↦ rfl) (fun _ ↦ rfl) (fun _ ↦ rfl) fun _ _ hactive ↦ .inl hactive
  | setTotals runId totalTickets =>
      exact h.updated rfl (fun _ ↦ rfl) (fun _ ↦ rfl) (fun _ ↦ rfl) fun _ _ hactive ↦ .inl hactive
  | recordTicketResult runId delta =>
      exact h.updated rfl (fun _ ↦ rfl) (fun _ ↦ rfl) (fun _ ↦ rfl) fun _ _ hactive ↦ .inl hactive
  | finishRun runId note =>
      refine h.updated rfl (fun _ ↦ rfl) (fun _ ↦ rfl) (fun _ ↦ rfl) fun r hp _ ↦ .inl ?_
      exact (of_decide_eq_true hp).2
  | failRun runId error =>
      refine h.updated rfl (fun _ ↦ rfl) (fun _ ↦ rfl) (fun _ ↦ rfl) fun r hp _ ↦ .inl ?_
      exact (of_decide_eq_true hp).2
  | failActiveRunsForConnection organizationId provider message =>
      refine h.updated rfl (fun _ ↦ rfl) (fun _ ↦ rfl) (fun _ ↦ rfl) fun r hp _ ↦ .inl ?_
      exact (of_decide_eq_true hp).2.2
  | failInterruptedRuns =>
      refine h.updated rfl (fun _ ↦ rfl) (fun _ ↦ rfl) (fun _ ↦ rfl) fun r hp _ ↦ .inl ?_
      exact (of_decide_eq_true hp).1
  | failStaleRuns =>
      refine h.updated rfl (fun _ ↦ rfl) (fun _ ↦ rfl) (fun _ ↦ rfl) fun r hp _ ↦ .inl ?_
      exact (of_decide_eq_true hp).1

/-! ## The latest run -/

theorem mem_of_latest {p : SyncRun → Bool} {runs : Runs} {r : SyncRun}
    (h : latest p runs = some r) : r ∈ runs ∧ p r = true :=
  Table.mem_select.mp (List.mem_reverse.mp (List.argmax_mem h))

/-- A row that was just written is the latest of its kind. -/
theorem latest_insert {p : SyncRun → Bool} {runs runs' : Runs} {r : SyncRun}
    (hinsert : runs.insert r = some runs') (hp : p r = true)
    (hlast : ∀ r₀ ∈ runs, r₀.createdAt ≤ r.createdAt) : latest p runs' = some r := by
  unfold latest
  rw [Table.select_insert_append hinsert, if_pos hp, List.reverse_append, List.reverse_singleton,
    List.singleton_append, List.argmax_cons]
  cases hbest : (runs.select p).reverse.argmax SyncRun.createdAt with
  | none => rfl
  | some best =>
      have hmem := Table.mem_select.mp (List.mem_reverse.mp (List.argmax_mem hbest))
      exact if_neg (Nat.not_lt.mpr (hlast best hmem.1))

/-! ## The steps of a call -/

section Call

variable {call : StartCall} {faults : Faults} {s : SyncState}

/-- Whether a row of the call is refused does not depend on the run it resumes. -/
theorem insertRun_cases (resumed : Option SyncRun) :
    (∃ e, insertRun (call.newRun resumed s.clock) call.id s.clock s.runs = .error e ∧
      (activeTaken (call.newRun none s.clock) s.runs ∨
        nightTaken (call.newRun none s.clock) s.runs ∨ ∃ r ∈ s.runs, r.id = call.id)) ∨
    ∃ runs r, insertRun (call.newRun resumed s.clock) call.id s.clock s.runs = .ok runs ∧
      s.runs.insert r = some runs ∧ (¬ activeTaken (call.newRun none s.clock) s.runs ∧
        ¬ nightTaken (call.newRun none s.clock) s.runs ∧ ∀ r ∈ s.runs, r.id ≠ call.id) ∧
      r.id = call.id ∧ r.status.active = true ∧ r.createdAt = s.clock ∧
      ofProject call.projectId call.provider r = true ∧ r.triggerSource = call.triggerSource ∧
      r.nightlyCycleDate = (call.newRun none s.clock).nightlyCycleDate := by
  have hactive : activeTaken (call.newRun resumed s.clock) s.runs ↔
      activeTaken (call.newRun none s.clock) s.runs := Iff.rfl
  have hnight : nightTaken (call.newRun resumed s.clock) s.runs ↔
      nightTaken (call.newRun none s.clock) s.runs := Iff.rfl
  unfold insertRun
  split
  · rename_i htaken
    exact .inl ⟨_, rfl, .inl (hactive.mp htaken)⟩
  split
  · rename_i htaken
    exact .inl ⟨_, rfl, .inr (.inl (hnight.mp htaken))⟩
  rename_i hnotActive hnotNight
  split
  · rename_i hnone
    obtain ⟨r, hr, hid⟩ := Table.insert_eq_none hnone
    exact .inl ⟨_, rfl, .inr (.inr ⟨r, hr, hid⟩)⟩
  · rename_i runs hinsert
    refine .inr ⟨runs, _, rfl, hinsert, ⟨hactive.not.mp hnotActive, hnight.not.mp hnotNight,
      fun r hr ↦ (Table.insert_eq_some hinsert).2 r hr⟩, rfl, rfl, rfl, ?_, rfl, rfl⟩
    unfold ofProject
    rw [Bool.and_eq_true]
    exact ⟨decide_eq_true rfl, decide_eq_true rfl⟩

/-- A call whose row is not written leaves runs and jobs alone. -/
theorem insertAndAdd_refused {resumed : Option SyncRun}
    (h : faults.insert = .before ∨
      ∃ e, insertRun (call.newRun resumed s.clock) call.id s.clock s.runs = .error e) :
    ∃ e, call.insertAndAdd faults resumed s = (.error e, s) := by
  have hexec {e : Failure}
      (he : insertRun (call.newRun resumed s.clock) call.id s.clock s.runs = .error e) :
      exec (fun s : SyncState ↦
        match insertRun (call.newRun resumed s.clock) call.id s.clock s.runs with
        | .ok runs => (.ok { s with runs := runs } : Except SyncError SyncState)
        | .error e => .error (.refused e)) s = (.error (.refused e), s) := by
    unfold exec
    dsimp only
    rw [he]
  unfold StartCall.insertAndAdd lossy
  cases hinsert : faults.insert with
  | before => exact ⟨.lost, rfl⟩
  | none =>
      obtain ⟨e, he⟩ := h.resolve_left (by rw [hinsert]; exact fun hne ↦ (by cases hne))
      refine ⟨.refused e, ?_⟩
      dsimp only
      rw [bind_apply, hexec he]
  | after =>
      obtain ⟨e, he⟩ := h.resolve_left (by rw [hinsert]; exact fun hne ↦ (by cases hne))
      refine ⟨.refused e, ?_⟩
      dsimp only
      rw [bind_apply, bind_apply, hexec he]

/-- The jobs after a row was written. -/
def jobsAfter (call : StartCall) (faults : Faults) (s : SyncState) : List Uuid :=
  if faults.insert = .none ∧ faults.add ≠ .before then call.id :: s.jobs else s.jobs

/-- A call whose row is written ends well or in its `catch`. -/
theorem insertAndAdd_written {resumed : Option SyncRun} {runs : Runs}
    (hbefore : faults.insert ≠ .before)
    (h : insertRun (call.newRun resumed s.clock) call.id s.clock s.runs = .ok runs) :
    call.insertAndAdd faults resumed s =
      (if faults.insert = .none ∧ faults.add = .none ∧ faults.getRun = false
        then .ok (runs.find call.id, false) else .error .lost,
        { s with runs := runs, jobs := jobsAfter call faults s }) := by
  have hexec : exec (fun s : SyncState ↦
      match insertRun (call.newRun resumed s.clock) call.id s.clock s.runs with
      | .ok runs => (.ok { s with runs := runs } : Except SyncError SyncState)
      | .error e => .error (.refused e)) s = (.ok (), { s with runs := runs }) := by
    unfold exec
    dsimp only
    rw [h]
  unfold StartCall.insertAndAdd lossy jobsAfter
  cases hinsert : faults.insert with
  | before => exact absurd hinsert hbefore
  | after =>
      dsimp only
      rw [bind_apply, bind_apply, hexec]
      rfl
  | none =>
      dsimp only
      rw [bind_apply, hexec]
      dsimp only
      cases hadd : faults.add with
      | before => rfl
      | after => rfl
      | none =>
          unfold lossyRead
          cases faults.getRun <;> rfl

theorem answerExisting_eq (e : SyncError) : call.answerExisting faults e s =
    (if faults.existing then .error .lost
      else match call.existing (s.waited call.elapsed) with
        | some run => .ok (some run, true)
        | none => .error e, s.waited call.elapsed) := by
  unfold StartCall.answerExisting lossyRead
  cases faults.existing with
  | true => rfl
  | false =>
      change (match call.existing (s.waited call.elapsed) with
        | some run => (pure (some run, true) : Service SyncError SyncState Answer)
        | none => fail e) (s.waited call.elapsed) = _
      cases call.existing (s.waited call.elapsed) <;> rfl

/-- The call ends before its `try`, with the state it found. -/
theorem startRun_unread (h : faults.connection = true ∨ faults.prior = true) :
    startRun call faults s = (.error .lost, s) := by
  unfold startRun lossyRead
  cases hconnection : faults.connection with
  | true => rfl
  | false =>
      rw [h.resolve_left (by rw [hconnection]; exact Bool.false_ne_true)]
      rfl

theorem startRun_read (hconnection : faults.connection = false) (hprior : faults.prior = false) :
    startRun call faults s =
      catching (call.insertAndAdd faults (call.resumed s)) (call.answerExisting faults) s := by
  unfold startRun lossyRead
  rw [hconnection, hprior]
  rfl

/-- A call that writes no row leaves the runs and jobs it found. -/
theorem startRun_noRow (h : WritesNoRow call faults s) :
    startRun call faults s = (.error .lost, s) ∨
      ∃ e, startRun call faults s = call.answerExisting faults e s := by
  by_cases hread : faults.connection = true ∨ faults.prior = true
  · exact .inl (startRun_unread hread)
  · rw [not_or, Bool.not_eq_true, Bool.not_eq_true] at hread
    right
    have hrefused : faults.insert = .before ∨ ∃ e,
        insertRun (call.newRun (call.resumed s) s.clock) call.id s.clock s.runs = .error e := by
      by_cases hbefore : faults.insert = .before
      · exact .inl hbefore
      · right
        rcases insertRun_cases (call.resumed s) with ⟨e, he, -⟩ | ⟨runs, r, -, -, hfree, -⟩
        · exact ⟨e, he⟩
        · rcases h with h | h | h | h | h | ⟨r₀, hr₀, hid⟩
          · exact absurd h (by rw [hread.1]; exact Bool.false_ne_true)
          · exact absurd h (by rw [hread.2]; exact Bool.false_ne_true)
          · exact absurd h hbefore
          · exact absurd h hfree.1
          · exact absurd h hfree.2.1
          · exact absurd hid (hfree.2.2 r₀ hr₀)
    obtain ⟨e, he⟩ := insertAndAdd_refused hrefused
    refine ⟨e, ?_⟩
    rw [startRun_read hread.1 hread.2]
    unfold catching
    rw [he]

theorem existing_mem {run : SyncRun} (h : call.existing s = some run) : run ∈ s.runs := by
  unfold StartCall.existing at h
  split at h
  · exact (mem_of_latest h).1
  · obtain ⟨hlatest, -⟩ := Option.filter_eq_some_iff.mp h
    exact (mem_of_latest hlatest).1

theorem answerExisting_ok {e : SyncError} {run : SyncRun} {already : Bool}
    (h : (call.answerExisting faults e s).1 = .ok (some run, already)) :
    run ∈ s.runs ∧ already = true := by
  rw [answerExisting_eq] at h
  dsimp only at h
  split at h
  · cases h
  split at h
  · rename_i run' hexisting
    have hmem : run' ∈ (s.waited call.elapsed).runs := existing_mem hexisting
    cases h
    exact ⟨hmem, rfl⟩
  · cases h

theorem after_answerExisting {e : SyncError} :
    (call.answerExisting faults e s).2 = s.waited call.elapsed := by
  rw [answerExisting_eq]

/-- Without a row of its own the call leaves no orphan, and speaks of none. -/
theorem leavesNoOrphan_noRow (hkept : Kept s) (h : WritesNoRow call faults s) :
    LeavesNoOrphan call faults s := by
  rcases startRun_noRow h with hstart | ⟨e, hstart⟩
  · constructor
    · rw [hstart]
      exact .inr fun r hr _ ↦ ⟨r, hr, rfl⟩
    · intro run hrun
      rw [hstart] at hrun
      cases hrun
  · constructor
    · rw [hstart, after_answerExisting]
      exact .inr fun r hr _ ↦ ⟨r, hr, rfl⟩
    · intro run hrun hactive
      rw [hstart] at hrun ⊢
      rw [after_answerExisting]
      exact hkept.backed run (answerExisting_ok hrun).1 hactive

/-- A call that writes its row. -/
structure Written (call : StartCall) (faults : Faults) (s : SyncState) (runs : Runs) (r : SyncRun) :
    Prop where
  insert : s.runs.insert r = some runs
  id : r.id = call.id
  active : r.status.active = true
  createdAt : r.createdAt = s.clock
  ofProject : OrphanRuns.ofProject call.projectId call.provider r = true
  triggerSource : r.triggerSource = call.triggerSource
  cycle : r.nightlyCycleDate = (call.newRun none s.clock).nightlyCycleDate
  start : startRun call faults s =
    if faults.insert = .none ∧ faults.add = .none ∧ faults.getRun = false then
      (.ok (some r, false), { s with runs := runs, jobs := jobsAfter call faults s })
    else call.answerExisting faults .lost
      { s with runs := runs, jobs := jobsAfter call faults s }

theorem written_of_row (h : ¬ WritesNoRow call faults s) :
    ∃ runs r, Written call faults s runs r := by
  unfold WritesNoRow at h
  push Not at h
  obtain ⟨hconnection, hprior, hbefore, hactive, hnight, hfresh⟩ := h
  rw [ne_eq, Bool.not_eq_true] at hconnection hprior
  rcases insertRun_cases (call.resumed s) with ⟨e, -, htaken | htaken | ⟨r₀, hr₀, hid⟩⟩ |
    ⟨runs, r, hruns, hinsert, -, hid, hr_active, hcreated, hproject, htrigger, hcycle⟩
  · exact absurd htaken hactive
  · exact absurd htaken hnight
  · exact absurd hid (hfresh r₀ hr₀)
  refine ⟨runs, r, hinsert, hid, hr_active, hcreated, hproject, htrigger, hcycle, ?_⟩
  have hfind : runs.find call.id = some r :=
    Table.find_eq_some.mpr ⟨(Table.mem_insert hinsert).mpr (.inr rfl), hid⟩
  rw [startRun_read hconnection hprior]
  unfold catching
  rw [insertAndAdd_written hbefore hruns]
  split
  · rename_i e s' heq
    by_cases hsmooth : faults.insert = .none ∧ faults.add = .none ∧ faults.getRun = false
    · rw [if_pos hsmooth] at heq
      cases heq
    · rw [if_neg hsmooth] at heq ⊢
      cases heq
      rfl
  · rename_i answer s' heq
    by_cases hsmooth : faults.insert = .none ∧ faults.add = .none ∧ faults.getRun = false
    · rw [if_pos hsmooth, hfind] at heq
      rw [if_pos hsmooth]
      cases heq
      rfl
    · rw [if_neg hsmooth] at heq
      cases heq

section Row

variable {runs : Runs} {r : SyncRun}

theorem Written.mem_iff (hw : Written call faults s runs r) {r' : SyncRun} :
    r' ∈ runs ↔ r' ∈ s.runs ∨ r' = r :=
  Table.mem_insert hw.insert

/-- The `catch` of a call that wrote its row finds that row, unless a nightly one is looked for on
another day. -/
theorem existing_written (hkept : Kept s) (hw : Written call faults s runs r) (jobs : List Uuid) :
    call.existing (SyncState.waited { s with runs := runs, jobs := jobs } call.elapsed) =
      if call.triggerSource = .nightly →
        nightlyCycleDate (s.clock + call.elapsed) = nightlyCycleDate s.clock
      then some r else none := by
  have hlast : ∀ r₀ ∈ s.runs, r₀.createdAt ≤ r.createdAt := by
    rw [hw.createdAt]
    exact hkept.created
  have hcycle := hw.cycle
  unfold StartCall.newRun at hcycle
  unfold StartCall.existing SyncState.waited
  cases htrigger : call.triggerSource with
  | manual =>
      rw [if_pos fun h ↦ (by cases h)]
      dsimp only
      rw [latest_insert hw.insert hw.ofProject hlast, Option.filter_some, if_pos hw.active]
  | nightly =>
      rw [htrigger] at hcycle
      dsimp only at hcycle ⊢
      by_cases hday : nightlyCycleDate (s.clock + call.elapsed) = nightlyCycleDate s.clock
      · rw [if_pos fun _ ↦ hday]
        refine latest_insert hw.insert ?_ hlast
        rw [hw.ofProject, hw.triggerSource, htrigger, hcycle, hday]
        simp
      · rw [if_neg fun h ↦ hday (h rfl)]
        rw [Option.eq_none_iff_forall_not_mem]
        intro run hrun
        obtain ⟨hmem, hp⟩ := mem_of_latest hrun
        simp only [Bool.and_eq_true, decide_eq_true_eq] at hp
        apply hday
        apply le_antisymm _ (nightlyCycleDate_mono (Nat.le_add_right _ _))
        rcases hw.mem_iff.mp hmem with hold | rfl
        · exact hkept.cycles run hold _ hp.2.2
        · rw [hcycle] at hp
          exact (Option.some.inj hp.2.2).ge

theorem mem_jobsAfter (hkept : Kept s) (hw : Written call faults s runs r) :
    r.id ∈ jobsAfter call faults s ↔ faults.insert = .none ∧ faults.add ≠ .before := by
  have hnew : r.id ∉ s.jobs := by
    intro hjob
    obtain ⟨r₀, hr₀, hid⟩ := hkept.known r.id hjob
    exact (Table.insert_eq_some hw.insert).2 r₀ hr₀ hid
  unfold jobsAfter
  split
  · rename_i hadded
    exact iff_of_true (hw.id ▸ List.mem_cons_self) hadded
  · rename_i hadded
    exact iff_of_false hnew hadded

theorem jobs_subset_jobsAfter : s.jobs ⊆ jobsAfter call faults s := by
  unfold jobsAfter
  split
  · exact List.subset_cons_self _ _
  · exact List.Subset.refl _

/-- What is left of a call that wrote its row. -/
theorem Written.state (hw : Written call faults s runs r) :
    (startRun call faults s).2.runs = runs ∧
      (startRun call faults s).2.jobs = jobsAfter call faults s := by
  rw [hw.start]
  split
  · exact ⟨rfl, rfl⟩
  · rw [after_answerExisting]
    exact ⟨rfl, rfl⟩

/-- The answer of a call that wrote its row. -/
theorem Written.answer (hkept : Kept s) (hw : Written call faults s runs r) :
    (startRun call faults s).1 =
      if faults.insert = .none ∧ faults.add = .none ∧ faults.getRun = false then .ok (some r, false)
      else if faults.existing = false ∧ (call.triggerSource = .nightly →
        nightlyCycleDate (s.clock + call.elapsed) = nightlyCycleDate s.clock)
      then .ok (some r, true) else .error .lost := by
  rw [hw.start]
  split
  · rfl
  rw [answerExisting_eq, existing_written hkept hw]
  cases hexisting : faults.existing with
  | true => rfl
  | false =>
      by_cases hday : call.triggerSource = .nightly →
        nightlyCycleDate (s.clock + call.elapsed) = nightlyCycleDate s.clock
      · simp only [if_pos hday, true_and, Bool.false_eq_true, if_false]
      · simp only [if_neg hday, true_and, Bool.false_eq_true, if_false]

/-- A call that wrote its row leaves no orphan exactly when it added the job and answers so. -/
theorem leavesNoOrphan_row (hkept : Kept s) (hw : Written call faults s runs r) :
    LeavesNoOrphan call faults s ↔ AddsJob call faults s := by
  have hjobs := mem_jobsAfter hkept hw
  have hanswer := hw.answer hkept
  constructor
  · intro h
    obtain ⟨run, already, hrun, hjob⟩ := h.settled.resolve_right fun hnone ↦ by
      rw [hw.state.1] at hnone
      obtain ⟨r₀, hr₀, hid⟩ := hnone r (hw.mem_iff.mpr (.inr rfl)) hw.active
      exact (Table.insert_eq_some hw.insert).2 r₀ hr₀ hid
    rw [hw.state.2] at hjob
    rw [hanswer] at hrun
    split at hrun
    · rename_i hsmooth
      exact ⟨hsmooth.1, by rw [hsmooth.2.1]; exact fun h ↦ (by cases h), .inl hsmooth.2⟩
    split at hrun
    · rename_i hfound
      cases hrun
      obtain ⟨hinsert, hadd⟩ := hjobs.mp hjob
      exact ⟨hinsert, hadd, .inr hfound⟩
    · cases hrun
  · intro h
    have hjob := hjobs.mpr ⟨h.inserted, h.added⟩
    constructor
    · left
      rw [hw.state.2, hanswer]
      by_cases hsmooth : faults.insert = .none ∧ faults.add = .none ∧ faults.getRun = false
      · exact ⟨r, false, if_pos hsmooth, hjob⟩
      · have hfound := h.answered.resolve_left fun hok ↦ hsmooth ⟨h.inserted, hok⟩
        refine ⟨r, true, ?_, hjob⟩
        rw [if_neg hsmooth, if_pos hfound]
    · intro run hrun _
      rw [hw.state.2]
      rw [hanswer] at hrun
      split at hrun
      · cases hrun
      split at hrun
      · cases hrun
        exact hjob
      · cases hrun

theorem Kept.written (hkept : Kept s) (hw : Written call faults s runs r)
    (h : AddsJob call faults s) :
    Kept { s with runs := runs, jobs := jobsAfter call faults s } where
  created r' hr' := by
    rcases hw.mem_iff.mp hr' with hold | rfl
    · exact hkept.created r' hold
    · exact hw.createdAt.le
  cycles r' hr' day hday := by
    rcases hw.mem_iff.mp hr' with hold | rfl
    · exact hkept.cycles r' hold day hday
    · have hcycle := hw.cycle
      rw [Option.mem_def.mp hday] at hcycle
      unfold StartCall.newRun at hcycle
      dsimp only at hcycle
      split at hcycle
      · exact (Option.some.inj hcycle).le
      · cases hcycle
  backed r' hr' hactive := by
    rcases hw.mem_iff.mp hr' with hold | rfl
    · exact jobs_subset_jobsAfter (hkept.backed r' hold hactive)
    · exact (mem_jobsAfter hkept hw).mpr ⟨h.inserted, h.added⟩
  known id hid := by
    change id ∈ jobsAfter call faults s at hid
    unfold jobsAfter at hid
    rw [if_pos ⟨h.inserted, h.added⟩] at hid
    rcases List.mem_cons.mp hid with rfl | hold
    · exact ⟨r, hw.mem_iff.mpr (.inr rfl), hw.id⟩
    · obtain ⟨r₀, hr₀, hsame⟩ := hkept.known id hold
      exact ⟨r₀, hw.mem_iff.mpr (.inl hr₀), hsame⟩

end Row

theorem leavesNoOrphan_iff_enqueues (hkept : Kept s) :
    LeavesNoOrphan call faults s ↔ WritesNoRow call faults s ∨ AddsJob call faults s := by
  by_cases hnoRow : WritesNoRow call faults s
  · exact iff_of_true (leavesNoOrphan_noRow hkept hnoRow) (.inl hnoRow)
  · obtain ⟨runs, r, hw⟩ := written_of_row hnoRow
    rw [leavesNoOrphan_row hkept hw]
    exact ⟨.inr, fun h ↦ h.resolve_left hnoRow⟩

theorem Kept.started (hkept : Kept s) (h : WritesNoRow call faults s ∨ AddsJob call faults s) :
    Kept (startRun call faults s).2 := by
  by_cases hnoRow : WritesNoRow call faults s
  · rcases startRun_noRow hnoRow with hstart | ⟨e, hstart⟩
    · rw [hstart]
      exact hkept
    · rw [hstart, after_answerExisting]
      exact hkept.waited _
  · obtain ⟨runs, r, hw⟩ := written_of_row hnoRow
    have hwritten := hkept.written hw (h.resolve_left hnoRow)
    rw [hw.start]
    split
    · exact hwritten
    · rw [after_answerExisting]
      exact hwritten.waited _

end Call

/-! ## Whole histories -/

theorem Kept.step {s : SyncState} {e : Event} (hkept : Kept s) (h : e.Enqueues s) :
    Kept (stepState s e) := by
  cases e with
  | start delay call faults => exact (hkept.waited delay).started h
  | work delay op =>
      unfold stepState
      dsimp only
      split
      · rename_i hop
        exact (hkept.waited delay).work hop _
      · exact hkept.waited delay

/-- No call of a history leaves an orphan exactly when each of them that writes its row adds the job
and can say so. -/
theorem leavesNoOrphan_iff (events : List Event) :
    Along stepState Event.LeavesNoOrphan .start events ↔
      Along stepState Event.Enqueues .start events := by
  refine Along.congr_of_invariant (fun s e hkept ↦ ?_) (fun s e hkept h ↦ hkept.step h) Kept.start
  cases e with
  | start delay call faults => exact leavesNoOrphan_iff_enqueues (hkept.waited delay)
  | work delay op => exact Iff.rfl

/-! ## A queue that cannot be reached -/

def noFaults : Faults := ⟨false, false, .none, .none, false, false⟩

def manualCall (id : Uuid) : StartCall where
  organizationId := 10
  projectId := 100
  provider := .jira
  triggeredBy := some 1
  remoteProjectKey := some "QA"
  triggerSource := .manual
  since := none
  id := id
  elapsed := 5

/-- The queue is down at a first click; at a second one it is up again. -/
def twoClicks : List Event :=
  [.start 1000 (manualCall 7) { noFaults with add := .before }, .start 60000 (manualCall 8) noFaults]

/-- Both clicks are told that run 7 is under way, which has no job. -/
theorem not_leavesNoOrphan_twoClicks :
    ¬ Along stepState Event.LeavesNoOrphan .start twoClicks ∧
      ((twoClicks.foldl stepState .start).runs.rows.map fun r ↦ (r.id, r.status.text)) =
        [(7, "queued")] ∧
      (twoClicks.foldl stepState .start).jobs = [] := by
  refine ⟨fun h ↦ ?_, by decide +kernel, by decide +kernel⟩
  rcases (leavesNoOrphan_iff_enqueues (Kept.start.waited 1000)).mp h.1 with hnoRow | hadds
  · revert hnoRow
    unfold WritesNoRow
    decide +kernel
  · exact hadds.added rfl

end Tesbo.OrphanRuns
