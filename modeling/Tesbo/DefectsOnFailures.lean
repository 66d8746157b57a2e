import Tesbo.ReportedResults
import Tesbo.Reasoning.Runs

/-!
# Only a failing result carries a defect

Five writers set the status of a result; one of them also sets its defect, and clears it with any
status but `Failed`.  The others leave the defect of a result that failed before where it is.
-/

namespace Tesbo

open Reasoning Service

/-! ## Calls -/

inductive ResultCall where
  | updateExecution (actorId : Option Uuid) (executionId : IdText) (body : ExecutionBody)
  | bulkUpdateExecutionStatus (userId : Option Uuid) (cycleId : IdText) (body : BulkBody)
  | recordResult (userId : Option Uuid) (projectId runId : IdText) (body : ResultBody)
  | importRunHistory (userId : Option Uuid) (cycleId : IdText) (body : HistoryBody)
  | failLinkedExecutions (actorId : Option Uuid) (projectId : Uuid) (executionIds : List IdText)

/-- A call and when it is made. -/
structure ResultRequest where
  now : Time
  call : ResultCall

section Machine

variable [Unicode] [AutomationAgent]

def ResultCall.run : ResultCall → Handler Unit
  | .updateExecution actorId executionId body => Tesbo.updateExecution executionId actorId body
  | .bulkUpdateExecutionStatus userId cycleId body =>
      Tesbo.bulkUpdateExecutionStatus cycleId userId body
  | .recordResult userId projectId runId body => Tesbo.recordResult userId projectId runId body
  | .importRunHistory userId cycleId body => Tesbo.importRunHistory userId cycleId body
  | .failLinkedExecutions actorId projectId executionIds =>
      Tesbo.failLinkedExecutions projectId actorId executionIds

def recordStep (db : Db) (r : ResultRequest) : Db := after r.call.run { db with now := r.now }

end Machine

/-! ## The property and its condition -/

def NoDefect (e : Execution) : Prop := e.defectKey = none ∧ e.defectUrl = none

instance (e : Execution) : Decidable (NoDefect e) := inferInstanceAs (Decidable (_ ∧ _))

/-- The result `x` carries a defect only when it is failed. -/
def DefectOnlyOnFailure (x : Uuid) (db : Db) : Prop :=
  ∀ e ∈ db.executions, e.id = x → e.status ≠ "Failed" → NoDefect e

instance (x : Uuid) (db : Db) : Decidable (DefectOnlyOnFailure x db) :=
  inferInstanceAs (Decidable (∀ e ∈ db.executions, e.id = x → _ → _))

/-- What a body must say of a result that is left without a defect or failed: a status other than
`Failed` clears the defect, whatever else the body names. -/
def ExecutionBody.Settles (body : ExecutionBody) (e : Execution) : Prop :=
  e.status = "Failed" ∨ body.status.truthy.isSome = true ∨
    body.defectKey.truthy = none ∧ body.defectUrl.truthy = none

instance (body : ExecutionBody) (e : Execution) : Decidable (body.Settles e) :=
  inferInstanceAs (Decidable (_ ∨ _ ∨ _ ∧ _))

/-- The run and the case a report is of. -/
def reportedCase [Unicode] (projectId runId : IdText) (body : ResultBody) (db : Db) :
    Option (Uuid × Uuid) := do
  let project ← projectId.uuid
  let run ← runId.uuid
  let caseId ← (boundedString body.caseId "caseId" maxCaseIdLength).toOption
  let caseId ← caseId
  let testcase ← (resolveCases project caseId db).get (Unicode.toLowerCase caseId)
  pure (run, testcase.id)

/-- What the call says of the result `e`, should the call get to it, leaves `e` without a defect
or failed. -/
def ResultCall.Settles [Unicode] (db : Db) (e : Execution) : ResultCall → Prop
  | .updateExecution _ executionId body => executionId.uuid = some e.id → body.Settles e
  | .recordResult _ projectId runId body => ∀ reported ∈ reportedCase projectId runId body db,
      IsResultOf reported.1 reported.2 db e →
        ∀ text ∈ normalizeWireStatus body.status, ∀ status ∈ (varchar 32 text).toOption,
          NoDefect e ∨ status = "Failed"
  | .importRunHistory _ cycleId body => ∀ cycle ∈ cycleId.uuid,
      ∀ results ∈ (normalizeResults [] 0 body.results).toOption,
        ∀ r ∈ historyOf cycle results db e, ∀ status ∈ r.status.nullish,
          NoDefect e ∨ status = "Failed"
  | .bulkUpdateExecutionStatus _ _ _ | .failLinkedExecutions _ _ _ => True

instance [Unicode] (db : Db) (e : Execution) : ∀ call : ResultCall, Decidable (call.Settles db e)
  | .updateExecution _ executionId body =>
      inferInstanceAs (Decidable (executionId.uuid = some e.id → body.Settles e))
  | .recordResult _ projectId runId body =>
      inferInstanceAs (Decidable (∀ reported ∈ reportedCase projectId runId body db,
        _ → ∀ text ∈ normalizeWireStatus body.status, ∀ status ∈ (varchar 32 text).toOption,
          _ ∨ _))
  | .importRunHistory _ cycleId body =>
      inferInstanceAs (Decidable (∀ cycle ∈ cycleId.uuid,
        ∀ results ∈ (normalizeResults [] 0 body.results).toOption,
          ∀ r ∈ historyOf cycle results db e, ∀ status ∈ r.status.nullish, _ ∨ _))
  | .bulkUpdateExecutionStatus _ _ _ => instDecidableTrue
  | .failLinkedExecutions _ _ _ => instDecidableTrue

/-- The condition on a request, of the result `x`. -/
def SettlesResult [Unicode] (x : Uuid) (db : Db) (r : ResultRequest) : Prop :=
  ∀ e ∈ db.executions, e.id = x → r.call.Settles db e

instance [Unicode] (x : Uuid) (db : Db) (r : ResultRequest) : Decidable (SettlesResult x db r) :=
  inferInstanceAs (Decidable (∀ e ∈ db.executions, e.id = x → r.call.Settles db e))

/-! ## What each writer leaves -/

section Writers

variable {x : Uuid} {db db' : Db}

/-- What is kept of the result `x`: the property, and the item it hangs on. -/
def Tracked (x : Uuid) (db : Db) : Prop :=
  DefectOnlyOnFailure x db ∧
    ∀ e ∈ db.executions, e.id = x → ∃ item ∈ db.cycleItems, item.id = e.cycleItemId

theorem Tracked.onlyUsers (h : Tracked x db) (honly : OnlyUsers db db') : Tracked x db' := by
  obtain ⟨users, rfl⟩ := honly
  exact h

/-- An update of results that leaves the items they hang on keeps what it keeps of each row. -/
theorem Tracked.updateWhere (h : Tracked x db) (p : Execution → Bool) (f : Execution → Execution)
    (hid : ∀ e, (f e).id = e.id)
    (hitem : ∀ e ∈ db.executions, p e = true → (f e).cycleItemId = e.cycleItemId)
    (hf : ∀ e ∈ db.executions, p e = true → e.id = x → (f e).status ≠ "Failed" → NoDefect (f e)) :
    Tracked x { db with executions := db.executions.updateWhere p f hid } := by
  constructor
  · intro e he hx hstatus
    change e ∈ db.executions.updateWhere p f hid at he
    rcases Table.mem_updateWhere_cases.mp he with ⟨he, -⟩ | ⟨e₀, he₀, hp, rfl⟩
    · exact h.1 e he hx hstatus
    · exact hf e₀ he₀ hp ((hid e₀).symm.trans hx) hstatus
  · intro e he hx
    change e ∈ db.executions.updateWhere p f hid at he
    rcases Table.mem_updateWhere_cases.mp he with ⟨he, -⟩ | ⟨e₀, he₀, hp, rfl⟩
    · exact h.2 e he hx
    · rw [hitem e₀ he₀ hp]
      exact h.2 e₀ he₀ ((hid e₀).symm.trans hx)

theorem varchar_failed : varchar 32 "Failed" = .ok "Failed" := by decide

theorem noDefect_of_apply {body : ExecutionBody} {uid : Uuid} {assigneeId : Option Uuid}
    {now : Time} {e e' : Execution} (hset : body.Settles e)
    (he : e.status ≠ "Failed" → NoDefect e)
    (h : (body.change uid assigneeId).apply now e = .ok e') (hstatus : e'.status ≠ "Failed") :
    NoDefect e' := by
  obtain ⟨hs, hkey, hurl, -⟩ := ExecutionChange.apply_eq_ok h
  have hnone : ∀ {max : ℕ} {v : Option String}, varchar? max none = .ok v → v = none :=
    fun hv ↦ (Except.ok.inj hv).symm
  have hcases : (body.change uid assigneeId).clearsDefect = true ∨
      body.status.truthy = some "Failed" ∨ body.status.truthy = none := by
    change body.status.truthy.any (fun status ↦ decide (status ≠ "Failed")) = true ∨ _
    cases body.status.truthy with
    | none => exact .inr (.inr rfl)
    | some s =>
        by_cases hs : s = "Failed"
        · exact .inr (.inl (congrArg some hs))
        · exact .inl (decide_eq_true hs)
  have hstay : (body.change uid assigneeId).status = body.status.truthy := rfl
  rcases hcases with hclears | hfailed | hunsent
  · rw [hclears, if_pos rfl] at hkey hurl
    exact ⟨hnone hkey, hnone hurl⟩
  · rw [hstay, hfailed, Option.getD_some, varchar_failed] at hs
    exact absurd (Except.ok.inj hs).symm hstatus
  · rw [hstay, hunsent, Option.getD_none] at hs
    by_cases hfailed : e.status = "Failed"
    · rw [hfailed, varchar_failed] at hs
      exact absurd (Except.ok.inj hs).symm hstatus
    · obtain ⟨hk, hu⟩ := he hfailed
      rcases hset with h | h | ⟨hbk, hbu⟩
      · exact absurd h hfailed
      · rw [hunsent] at h
        cases h
      · have hkeep : (body.change uid assigneeId).clearsDefect = false := by
          change body.status.truthy.any _ = false
          rw [hunsent]
          rfl
        have hdk : (body.change uid assigneeId).defectKey = none := hbk
        have hdu : (body.change uid assigneeId).defectUrl = none := hbu
        rw [hkeep, hdk, hk] at hkey
        rw [hkeep, hdu, hu] at hurl
        exact ⟨hnone hkey, hnone hurl⟩

theorem tracked_updateExecution {executionId : IdText} {actorId : Option Uuid}
    {body : ExecutionBody} (h : Tracked x db)
    (hset : ∀ e ∈ db.executions, e.id = x → executionId.uuid = some e.id → body.Settles e) :
    wp (updateExecution executionId actorId body) (fun _ db' ↦ Tracked x db')
      (fun _ db' ↦ Tracked x db') db := by
  refine updateExecution_spec (fun _ honly ↦ h.onlyUsers honly) ?_
  rintro id before cycle uid assigneeId db₁ db₂ hid - - honly - hstore
  have h₁ := h.onlyUsers honly
  have hrows : db₁.executions = db.executions := honly.executions
  rcases storeExecution_eq_ok hstore with rfl | ⟨e, e', he, rfl, happly, rfl⟩
  · exact h₁
  · obtain ⟨-, -, -, -, hitem, -⟩ := ExecutionChange.apply_eq_ok happly
    have hsame : ∀ r ∈ db₁.executions, decide (r.id = e.id) = true → r = e :=
      fun r hr hp ↦ Table.eq_of_key hr he (of_decide_eq_true hp)
    have hnoDefect : e.id = x → e'.status ≠ "Failed" → NoDefect e' := fun hx ↦
      noDefect_of_apply (hset e (hrows ▸ he) hx hid) (h₁.1 e he hx) happly
    refine h₁.updateWhere (fun r ↦ r.id = e.id) (fun r ↦ { e' with id := r.id }) (fun _ ↦ rfl) ?_ ?_
    · intro r hr hp
      rw [hsame r hr hp]
      exact hitem
    · intro r hr hp hx hstatus
      rw [hsame r hr hp] at hx
      exact hnoDefect hx hstatus

theorem ne_empty_of_mem_executionStatuses {status : String} (h : status ∈ executionStatuses) :
    status ≠ "" := by
  rintro rfl
  revert h
  decide

theorem tracked_bulkUpdateExecutionStatus {cycleId : IdText} {userId : Option Uuid}
    {body : BulkBody} (h : Tracked x db) :
    wp (bulkUpdateExecutionStatus cycleId userId body) (fun _ db' ↦ Tracked x db')
      (fun _ db' ↦ Tracked x db') db := by
  have hE : ∀ _ : Failure, Tracked x db := fun _ ↦ h
  unfold bulkUpdateExecutionStatus
  refine wp_requireUser_seq hE fun uid _ ↦ ?_
  refine wp_seq (wp_mono requireCycleAccess_spec (fun _ _ h ↦ h) fun _ _ ho ↦ h.onlyUsers ho) ?_
  rintro projectId db₁ ⟨honly, -⟩
  have h₁ := h.onlyUsers honly
  refine wp_require_seq h₁ fun hstatus ↦ wp_castUuid_seq (fun _ ↦ h₁) fun cycle _ ↦ ?_
  refine wp_seq (wp_mono resolveBulkExecutions_spec (fun _ _ h ↦ h) fun _ _ heq ↦ heq ▸ h₁) ?_
  rintro executionIds db₂ rfl
  refine wp_forEach (fun id _ s hs ↦ tracked_updateExecution hs fun e _ _ _ ↦ .inr (.inl ?_)) h₁
  have htruthy : (statusOnly (jsTrim (body.status.truthy.getD ""))).status.truthy =
      some (jsTrim (body.status.truthy.getD "")) :=
    if_neg (by simpa [Falsy.falsy] using ne_empty_of_mem_executionStatuses hstatus)
  rw [htruthy]
  rfl

theorem tracked_failLinkedExecutions {projectId : Uuid} {actorId : Option Uuid}
    {executionIds : List IdText} (h : Tracked x db) :
    wp (failLinkedExecutions projectId actorId executionIds) (fun _ db' ↦ Tracked x db')
      (fun _ db' ↦ Tracked x db') db := by
  unfold failLinkedExecutions
  refine wp_ofExcept_seq (fun _ ↦ h) fun ids _ ↦ wp_query_seq ?_
  refine wp_forEach (fun e _ s hs ↦ ?_) h
  rw [wp_write]
  exact hs.updateWhere _ _ _ (fun _ _ _ ↦ rfl) fun _ _ _ _ hstatus ↦ absurd rfl hstatus

/-! ### Automation -/

/-- Cases joined the run: what was there stays, and the new results are untested. -/
def Attached (db db' : Db) : Prop :=
  (∀ item ∈ db.cycleItems, item ∈ db'.cycleItems) ∧
    ∀ e ∈ db'.executions, e ∈ db.executions ∨
      NoDefect e ∧ ∃ item ∈ db'.cycleItems, item.id = e.cycleItemId

theorem Attached.refl (db : Db) : Attached db db := ⟨fun _ h ↦ h, fun _ h ↦ .inl h⟩

theorem Attached.trans {db₁ db₂ db₃ : Db} (h : Attached db₁ db₂) (h' : Attached db₂ db₃) :
    Attached db₁ db₃ := by
  refine ⟨fun item hi ↦ h'.1 item (h.1 item hi), fun e he ↦ ?_⟩
  rcases h'.2 e he with he | hnew
  · rcases h.2 e he with he | ⟨hno, item, hi, hid⟩
    · exact .inl he
    · exact .inr ⟨hno, item, h'.1 item hi, hid⟩
  · exact .inr hnew

theorem Tracked.attached (h : Tracked x db) (hatt : Attached db db') : Tracked x db' := by
  constructor
  · intro e he hx hstatus
    rcases hatt.2 e he with he | ⟨hno, -⟩
    · exact h.1 e he hx hstatus
    · exact hno
  · intro e he hx
    rcases hatt.2 e he with he | ⟨-, hitem⟩
    · obtain ⟨item, hi, hid⟩ := h.2 e he hx
      exact ⟨item, hatt.1 item hi, hid⟩
    · exact hitem

theorem insertCycleItem_eq_ok {runId id : Uuid} {t : Testcase}
    (h : insertCycleItem runId t id db = .ok db') :
    ∃ cycleItems, db.cycleItems.insert ⟨id, runId, t.id, t.externalId, none⟩ = some cycleItems ∧
      db' = { db with cycleItems := cycleItems } := by
  unfold insertCycleItem at h
  split at h
  · cases h
  · rename_i cycleItems hinsert
    exact ⟨cycleItems, hinsert, (Except.ok.inj h).symm⟩

theorem insertExecution_eq_ok {cycleItemId id : Uuid}
    (h : insertExecution cycleItemId id db = .ok db') :
    ∃ executions, db.executions.insert (untested id cycleItemId) = some executions ∧
      db' = { db with executions := executions } := by
  unfold insertExecution at h
  split at h
  · cases h
  · rename_i executions hinsert
    exact ⟨executions, hinsert, (Except.ok.inj h).symm⟩

theorem attachCase_spec {runId : Uuid} {t : Testcase} :
    wp (attachCase runId t) (fun _ db' ↦ Attached db db') (fun _ db' ↦ Attached db db') db := by
  unfold attachCase
  refine wp_query_seq ?_
  split
  · simp only [wp_bind, wp_genUuid, wp_exec]
    refine ⟨fun db₁ hitem ↦ ?_, fun _ _ ↦ .refl db⟩
    obtain ⟨cycleItems, hinsert, rfl⟩ := insertCycleItem_eq_ok hitem
    have hold : ∀ item ∈ db.cycleItems, item ∈ cycleItems :=
      fun item hi ↦ (Table.mem_insert hinsert).mpr (.inl hi)
    refine ⟨fun db₂ hexecution ↦ ?_, fun _ _ ↦ ⟨hold, fun _ he ↦ .inl he⟩⟩
    obtain ⟨executions, hinsert', rfl⟩ := insertExecution_eq_ok hexecution
    refine ⟨hold, fun e he ↦ ?_⟩
    rcases (Table.mem_insert hinsert').mp he with he | rfl
    · exact .inl he
    · exact .inr ⟨⟨rfl, rfl⟩, _, (Table.mem_insert hinsert).mpr (.inr rfl), rfl⟩
  · exact (wp_pure _).mpr (.refl db)

theorem attachCases_spec [Unicode] {runId projectId : Uuid} {caseId : String} :
    wp (attachCases runId projectId caseId) (fun _ db' ↦ Attached db db')
      (fun _ db' ↦ Attached db db') db := by
  unfold attachCases
  refine wp_query_seq (wp_forEach (fun e _ s hs ↦ ?_) (.refl db))
  exact wp_mono attachCase_spec (fun _ _ h ↦ hs.trans h) fun _ _ h ↦ hs.trans h

/-- The report of a result settles it, before the case is attached as after. -/
theorem tracked_storeReport {db₁ : Db} {runId testcaseId : Uuid} {r : Report} {missing : Failure}
    (hatt : Attached db db₁) (h : Tracked x db)
    (hset : ∀ e ∈ db.executions, e.id = x → IsResultOf runId testcaseId db e →
      ∀ status ∈ (varchar 32 r.status).toOption, NoDefect e ∨ status = "Failed")
    (hok : storeReport runId testcaseId r missing db₁ = .ok db') : Tracked x db' := by
  have h₁ := h.attached hatt
  unfold storeReport at hok
  obtain ⟨status, hfits, hok⟩ := except_bind_eq_ok.mp hok
  split at hok
  · obtain rfl := Except.ok.inj hok
    refine h₁.updateWhere (fun e ↦ IsResultOf runId testcaseId db₁ e)
      ({ r with status := status }.apply db₁.now)
      (fun _ ↦ rfl) (fun _ _ _ ↦ rfl) fun e he hp hx hstatus ↦ ?_
    obtain ⟨hlive, item, hfind, hrun, hcase⟩ := of_decide_eq_true hp
    rcases hatt.2 e he with hold | ⟨hno, -⟩
    · obtain ⟨item₀, hitem₀, hid₀⟩ := h.2 e hold hx
      have hfind₀ : db₁.cycleItems.find e.cycleItemId = some item₀ :=
        Table.find_eq_some.mpr ⟨hatt.1 item₀ hitem₀, hid₀⟩
      obtain rfl : item₀ = item := Option.some.inj (hfind₀.symm.trans hfind)
      have hresult : IsResultOf runId testcaseId db e :=
        ⟨hlive, item₀, Table.find_eq_some.mpr ⟨hitem₀, hid₀⟩, hrun, hcase⟩
      have hsettled := hset e hold hx hresult status (by rw [hfits]; rfl)
      rcases hsettled with hno | hfailed
      · exact hno
      · exact absurd hfailed hstatus
    · exact hno
  · cases hok

theorem requireRun_spec {projectId : Uuid} {runId : IdText} :
    wp (requireRun projectId runId) (fun run db' ↦ db' = db ∧ runId.uuid = some run.id)
      (fun _ db' ↦ db' = db) db := by
  unfold requireRun
  refine wp_require_seq rfl fun _ ↦ wp_castUuid_seq (fun _ ↦ rfl) fun id hid ↦ ?_
  rw [wp_check]
  refine ⟨fun run hrun ↦ ⟨rfl, ?_⟩, fun _ _ ↦ rfl⟩
  have hfind := eq_some_of_found hrun
  rw [Option.filter_eq_some_iff] at hfind
  rw [hid, (Table.find_eq_some.mp hfind.1).2]

theorem tracked_recordResult [Unicode] [AutomationAgent] {userId : Option Uuid}
    {projectId runId : IdText} {body : ResultBody} (h : Tracked x db)
    (hset : ∀ e ∈ db.executions, e.id = x →
      (ResultCall.recordResult userId projectId runId body).Settles db e) :
    wp (recordResult userId projectId runId body) (fun _ db' ↦ Tracked x db')
      (fun _ db' ↦ Tracked x db') db := by
  unfold recordResult
  refine wp_seq (wp_mono requireProjectAccess_spec (fun _ _ h ↦ h) fun _ _ ho ↦ h.onlyUsers ho) ?_
  rintro access db₁ ⟨honly, -, hproject, -⟩
  have h₁ := h.onlyUsers honly
  have hE : ∀ _ : Failure, Tracked x db₁ := fun _ ↦ h₁
  refine wp_seq (wp_mono requireRun_spec (fun _ _ h ↦ h) fun _ _ heq ↦ heq ▸ h₁) ?_
  rintro run db₁ ⟨rfl, hrun⟩
  refine wp_ofExcept_seq hE fun actorId _ ↦ wp_ofExcept_seq hE fun caseId? hcaseId? ↦ ?_
  refine wp_ofExcept_seq hE fun caseId hcaseId ↦ wp_ofExcept_seq hE fun status hstatus ↦ ?_
  refine wp_check_seq hE fun testcase htestcase ↦ ?_
  refine wp_ofExcept_seq hE fun durationMs _ ↦ wp_ofExcept_seq hE fun retryCount _ ↦ ?_
  refine wp_ofExcept_seq hE fun errorMessage _ ↦ wp_ofExcept_seq hE fun errorStack _ ↦ ?_
  refine wp_seq (wp_mono attachCases_spec (fun _ _ h ↦ h) fun _ _ ha ↦ h₁.attached ha) ?_
  intro _ db₂ hatt
  have hreported : reportedCase projectId runId body db₁ = some (run.id, testcase.id) := by
    rw [eq_some_of_found hcaseId] at hcaseId?
    unfold reportedCase
    rw [hproject, hrun, hcaseId?]
    change ((resolveCases access.project.id caseId db₁).get _).bind _ = _
    rw [eq_some_of_found htestcase]
    rfl
  obtain ⟨users, rfl⟩ := honly
  simp only [wp_bind, wp_exec, wp_write]
  refine ⟨fun db₃ hok ↦ ?_, fun _ _ ↦ h₁.attached hatt⟩
  have h₃ : Tracked x db₃ := by
    refine tracked_storeReport hatt h₁ (fun e he hx hresult ↦ ?_) hok
    exact hset e he hx _ hreported hresult status (eq_some_of_found hstatus)
  exact h₃

/-! ### History -/

theorem tracked_storeHistory {runId : Uuid} {run : Option HistoryRun}
    {results : List (Uuid × HistoryResult)} (h : Tracked x db)
    (hset : ∀ e ∈ db.executions, e.id = x → ∀ r ∈ historyOf runId results db e,
      ∀ status ∈ r.status.nullish, NoDefect e ∨ status = "Failed") :
    Tracked x (storeHistory runId run results db) := by
  have hrows := h.updateWhere (fun e ↦ (historyOf runId results db e).isSome)
    (fun e ↦ (historyOf runId results db e).elim e fun r ↦ r.apply e)
    (fun e ↦ by cases historyOf runId results db e <;> rfl)
    (fun e _ _ ↦ by cases historyOf runId results db e <;> rfl) ?_
  · exact hrows
  · intro e he hp hx hstatus
    cases hr : historyOf runId results db e with
    | none => rw [hr] at hp; cases hp
    | some r =>
        simp only [hr, Option.elim_some] at hstatus ⊢
        cases hsent : r.status.nullish with
        | none =>
            simp only [HistoryResult.apply, hsent, Option.getD_none] at hstatus
            exact h.1 e he hx hstatus
        | some status =>
            simp only [HistoryResult.apply, hsent, Option.getD_some] at hstatus
            rcases hset e he hx r hr status hsent with hno | hfailed
            · exact hno
            · exact absurd hfailed hstatus

theorem tracked_importRunHistory [Unicode] {userId : Option Uuid} {cycleId : IdText}
    {body : HistoryBody} (h : Tracked x db)
    (hset : ∀ e ∈ db.executions, e.id = x →
      (ResultCall.importRunHistory userId cycleId body).Settles db e) :
    wp (importRunHistory userId cycleId body) (fun _ db' ↦ Tracked x db')
      (fun _ db' ↦ Tracked x db') db := by
  unfold importRunHistory
  refine wp_requireUser_seq (fun _ ↦ h) fun uid _ ↦ ?_
  refine wp_seq (wp_mono requireCycleAccess_spec (fun _ _ h ↦ h) fun _ _ ho ↦ h.onlyUsers ho) ?_
  rintro projectId db₁ ⟨honly, -⟩
  refine wp_seq (wp_mono requireProjectAccess_spec (fun _ _ h ↦ h) fun _ _ ho ↦
    h.onlyUsers (honly.trans ho)) ?_
  rintro access db₂ ⟨honly', -⟩
  obtain ⟨users, rfl⟩ := honly.trans honly'
  have h₂ : Tracked x { db with users := users } := h
  have hE : ∀ _ : Failure, Tracked x { db with users := users } := fun _ ↦ h₂
  refine wp_require_seq h₂ fun _ ↦ wp_castUuid_seq hE fun cycle hcycle ↦ ?_
  refine wp_ofExcept_seq hE fun _ _ ↦ wp_require_seq h₂ fun _ ↦ ?_
  refine wp_ofExcept_seq hE fun results hresults ↦ ?_
  rw [wp_write]
  refine tracked_storeHistory h₂ fun e he hx r hr ↦ ?_
  exact hset e he hx cycle hcycle results (by rw [hresults]; rfl) r hr

end Writers

/-! ## Runs -/

section Runs

variable [Unicode] [AutomationAgent] {x : Uuid} {db : Db}

theorem tracked_recordStep {r : ResultRequest} (h : Tracked x db) (hset : SettlesResult x db r) :
    Tracked x (recordStep db r) := by
  obtain ⟨now, call⟩ := r
  have hnow : Tracked x { db with now := now } := h
  refine after_of_wp ?_
  cases call with
  | updateExecution actorId executionId body => exact tracked_updateExecution hnow hset
  | bulkUpdateExecutionStatus userId cycleId body => exact tracked_bulkUpdateExecutionStatus hnow
  | recordResult userId projectId runId body => exact tracked_recordResult hnow hset
  | importRunHistory userId cycleId body => exact tracked_importRunHistory hnow hset
  | failLinkedExecutions actorId projectId executionIds => exact tracked_failLinkedExecutions hnow

/-- A result that starts without a defect carries one only while it is failed, in every run in which
no call leaves the defect of a failed result on another status or names a defect for a result it does
not fail. -/
theorem defectOnlyOnFailure_always {e : Execution} (he : e ∈ db.executions) (hno : NoDefect e)
    (hitem : ∃ item ∈ db.cycleItems, item.id = e.cycleItemId) {requests : List ResultRequest}
    (hset : Along recordStep (SettlesResult e.id) db requests) :
    Always recordStep (DefectOnlyOnFailure e.id) db requests := by
  have hsame : ∀ r ∈ db.executions, r.id = e.id → r = e := fun r hr hid ↦ Table.eq_of_key hr he hid
  have hstart : Tracked e.id db :=
    ⟨fun r hr hid _ ↦ hsame r hr hid ▸ hno, fun r hr hid ↦ hsame r hr hid ▸ hitem⟩
  have hrun := Along.invariant (Q := fun _ _ ↦ True)
    (fun _ _ h hs ↦ ⟨tracked_recordStep h hs, trivial⟩) hstart hset
  exact hrun.1.mono fun _ h ↦ h.1

end Runs

/-! ## A nightly run -/

/-- A run with one case, not yet tested. -/
def nightly : Db :=
  { Db.empty with
    uuids := fun n ↦ 1000 + n
    users := .singleton ⟨1, "ann@x.io", some 10⟩
    organizations := .singleton ⟨10, 0⟩
    organizationMembers := .singleton ⟨10, 1, "owner"⟩
    projects := .singleton ⟨100, some 10, "ONE", "", none⟩
    projectMembers := .singleton ⟨100, 1, "owner"⟩
    testcases := ⟨[⟨5, 100, none, "ONE-TC-1", fun _ ↦ none, [], none, none, none, 0, none, none⟩],
      by simp⟩
    cycles := .singleton ⟨20, 100, none, "Nightly", none, none, none, none, none, "In Progress", none, none,
      none, none, none, 0, none⟩
    cycleItems := .singleton ⟨30, 20, 5, "ONE-TC-1", none⟩
    executions := ⟨[untested 40 30], by decide⟩ }

@[reducible] def noAgent : AutomationAgent := ⟨none⟩

/-- The case fails with a bug against it. -/
def failsWithBug : ResultRequest :=
  ⟨1, .updateExecution (some 1) (.canonical 40)
    ⟨.value "Failed", .undefined, .undefined, .value "BUG-1", .undefined⟩⟩

/-- The automation reports a status for the case. -/
def reports (status : String) : ResultRequest :=
  ⟨2, .recordResult (some 1) (.canonical 100) (.canonical 20)
    ⟨.value "ONE-TC-1", .value (.text status), .undefined, .undefined, .undefined, .undefined⟩⟩

/-- The case passes in the next automated run, and the bug stays with it. -/
theorem not_defectOnlyOnFailure_passes :
    letI := asciiCase
    letI := noAgent
    ¬ Always recordStep (DefectOnlyOnFailure 40) nightly [failsWithBug, reports "passed"] := by
  decide +kernel

theorem defectOnlyOnFailure_failsAgain :
    letI := asciiCase
    letI := noAgent
    Always recordStep (DefectOnlyOnFailure 40) nightly
      [reports "passed", failsWithBug, reports "failed"] :=
  have hmem : untested 40 30 ∈ nightly.executions := List.mem_singleton.mpr rfl
  have hitem : ∃ item ∈ nightly.cycleItems, item.id = (untested 40 30).cycleItemId := by decide
  @defectOnlyOnFailure_always asciiCase noAgent nightly _ hmem (by decide) hitem _
    (by decide +kernel)

end Tesbo
