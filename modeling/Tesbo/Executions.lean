import Tesbo.Access
import Tesbo.Roles
import Tesbo.Text

/-!
# The results of a run

The writers of `executions`: a tester's update of one result or of a selection, an automation's
report, the import of a run's history, and the bug that marks the result it was found in as failed.
-/

namespace Tesbo

open Reasoning Service

def executionStatuses : List String :=
  ["Untested", "Passed", "Failed", "Blocked", "Skipped", "Retest"]

/-- `values.join(", ")` -/
def commaList (values : List String) : String := ", ".intercalate values

def statusError : Failure := .badRequest s!"status must be one of: {commaList executionStatuses}"

/-- The project of a live run the caller may reach. -/
def requireCycleAccess (userId : Option Uuid) (cycleId : IdText) : Handler Uuid := do
  let uid ← requireUser userId
  require (cycleId.isUuid = true) (.notFound "Cycle not found")
  let id ← castUuid cycleId
  let cycle ← check fun db ↦
    ((db.cycles.find id).filter Cycle.live).elim (.error (.notFound "Cycle not found")) .ok
  let _ ← requireProjectAccess (some uid) (.canonical cycle.projectId)
  pure cycle.projectId

/-- The run a result belongs to. -/
def Execution.cycle (e : Execution) (db : Db) : Option Cycle := do
  let item ← db.cycleItems.find e.cycleItemId
  db.cycles.find item.cycleId

def findExecution (id : Uuid) (db : Db) : Option (Execution × Cycle) := do
  let e ← (db.executions.find id).filter Execution.live
  let cycle ← e.cycle db
  pure (e, cycle)

/-- The user a text names, when they are a member of the project. -/
def parseAssignee (projectId : Uuid) : Option IdText → Handler (Option Uuid)
  | none => pure none
  | some text => do
      require (text.isUuid = true) (.notFound "Assignee not found")
      let id ← castUuid text
      check fun db ↦
        if IsMember db projectId id then .ok (some id)
        else .error (.badRequest "The assignee must be a member of this project")

/-! ## One result -/

structure ExecutionBody where
  status : Arg String
  assigneeId : Arg IdText
  actualResult : Arg String
  defectKey : Arg String
  defectUrl : Arg String

/-- Sent as `null` or as the empty text. -/
def Arg.clears {α : Type} [Falsy α] : Arg α → Bool
  | undefined => false
  | null => true
  | value a => Falsy.falsy a

structure ExecutionChange where
  status : Option String
  assigneeId : Option Uuid
  actualResult : Option String
  defectKey : Option String
  defectUrl : Option String
  executedBy : Uuid
  clearsDefect : Bool
  clearsAssignee : Bool

/-- The row the `UPDATE` makes of a result. -/
def ExecutionChange.apply (c : ExecutionChange) (now : Time) (e : Execution) :
    Except Failure Execution := do
  let status ← varchar 32 (c.status.getD e.status)
  let defectKey ← varchar? 128 (if c.clearsDefect then none else c.defectKey.or e.defectKey)
  let defectUrl ← varchar? 1024 (if c.clearsDefect then none else c.defectUrl.or e.defectUrl)
  .ok { e with
    status := status
    assigneeId := if c.clearsAssignee then none else c.assigneeId.or e.assigneeId
    actualResult := c.actualResult.or e.actualResult
    executedAt := if c.status.isNone then e.executedAt else some now
    defectKey := defectKey
    defectUrl := defectUrl
    executedBy := some c.executedBy }

def storeExecution (id : Uuid) (c : ExecutionChange) (db : Db) : Except Failure Db :=
  match (db.executions.find id).filter Execution.live with
  | none => .ok db
  | some e => do
      let e' ← c.apply db.now e
      .ok { db with
        executions := db.executions.updateWhere (fun r ↦ r.id = id) (fun r ↦ { e' with id := r.id })
          fun _ ↦ rfl }

def ExecutionBody.change (body : ExecutionBody) (uid : Uuid) (assigneeId : Option Uuid) :
    ExecutionChange where
  status := body.status.truthy
  assigneeId := assigneeId
  actualResult := body.actualResult.truthy
  defectKey := body.defectKey.truthy
  defectUrl := body.defectUrl.truthy
  executedBy := uid
  clearsDefect := body.status.truthy.any fun status ↦ status ≠ "Failed"
  clearsAssignee := body.assigneeId.clears

def updateExecution (executionId : IdText) (actorId : Option Uuid) (body : ExecutionBody) :
    Handler Unit := do
  let uid ← requireUser actorId
  require (∀ status ∈ body.status.truthy, status ∈ executionStatuses) statusError
  let id ← castUuid executionId
  let before ← check fun db ↦ (findExecution id db).elim (.error (.notFound "Execution not found")) .ok
  let _ ← requireProjectAccess (some uid) (.canonical before.2.projectId)
  let assigneeId ← parseAssignee before.2.projectId body.assigneeId.truthy
  exec (storeExecution id (body.change uid assigneeId))

/-! ## A selection of a run's results -/

structure BulkBody where
  executionIds : List IdText
  status : Arg String
  assigneeId : Arg IdText

/-- The selection, refused as a whole when one of it is not in the run. -/
def resolveBulkExecutions (cycleId : Uuid) (executionIds : List IdText) : Handler (List Uuid) := do
  require (executionIds ≠ []) (.badRequest "executionIds is required")
  require (∀ id ∈ executionIds, id.isUuid = true) (.notFound "Execution not found")
  let ids ← ofExcept (executionIds.mapM readUuid)
  check fun db ↦
    let rows := db.executions.select fun e ↦
      e.live ∧ e.id ∈ ids ∧ ∃ item ∈ db.cycleItems.find e.cycleItemId, item.cycleId = cycleId
    if rows.length = executionIds.length then .ok (rows.map Execution.id)
    else .error (.notFound "Execution not found")

/-- A body that names nothing but a status. -/
def statusOnly (status : String) : ExecutionBody :=
  ⟨.value status, .undefined, .undefined, .undefined, .undefined⟩

def bulkUpdateExecutionStatus (cycleId : IdText) (userId : Option Uuid) (body : BulkBody) :
    Handler Unit := do
  let uid ← requireUser userId
  let _ ← requireCycleAccess (some uid) cycleId
  let status := jsTrim (body.status.truthy.getD "")
  require (status ∈ executionStatuses) statusError
  let cycle ← castUuid cycleId
  let executionIds ← resolveBulkExecutions cycle body.executionIds
  forEach (fun id ↦ updateExecution (.canonical id) (some uid) (statusOnly status)) executionIds

/-- A body that names nothing but an assignee. -/
def assigneeOnly (assigneeId : Option IdText) : ExecutionBody :=
  ⟨.undefined, assigneeId.elim .null .value, .undefined, .undefined, .undefined⟩

def bulkAssignExecutions (cycleId : IdText) (userId : Option Uuid) (body : BulkBody) :
    Handler Unit := do
  let uid ← requireUser userId
  let projectId ← requireCycleAccess (some uid) cycleId
  let assigneeId := body.assigneeId.nullish
  let _ ← parseAssignee projectId assigneeId
  let cycle ← castUuid cycleId
  let executionIds ← resolveBulkExecutions cycle body.executionIds
  forEach (fun id ↦ updateExecution (.canonical id) (some uid) (assigneeOnly assigneeId))
    executionIds

/-! ## The bug found in a result -/

/-- The `UPDATE` of one result, live when it is made. -/
def failExecution (actorId : Option Uuid) (db : Db) (id : Uuid) : Db :=
  { db with
    executions := db.executions.updateWhere (fun e ↦ e.id = id ∧ e.live)
      (fun e ↦ { e with status := "Failed", executedAt := some db.now, executedBy := actorId })
      fun _ ↦ rfl }

/-- The live results among `ids` of runs of the project. -/
def linkedExecutions (projectId : Uuid) (ids : List Uuid) (db : Db) : List Execution :=
  db.executions.select fun e ↦
    e.id ∈ ids ∧ e.live ∧ ∃ cycle ∈ e.cycle db, cycle.projectId = projectId

/-- A result that has failed is left alone, any other is set to failed. -/
def failLinkedExecutions (projectId : Uuid) (actorId : Option Uuid) (executionIds : List IdText) :
    Handler Unit := do
  let ids ← ofExcept ((executionIds.filter IdText.isUuid).mapM readUuid)
  let affected ← query (linkedExecutions projectId ids)
  forEach (fun e ↦ write fun db ↦ failExecution actorId db e.id)
    (affected.filter fun e ↦ e.status ≠ "Failed")

/-! ## What the updates do -/

section Effects

variable {db db' : Db}

theorem requireCycleAccess_spec {userId : Option Uuid} {cycleId : IdText} :
    wp (requireCycleAccess userId cycleId)
      (fun projectId db' ↦ OnlyUsers db db' ∧
        ∃ cycle ∈ db.cycles, cycleId.uuid = some cycle.id ∧ cycle.projectId = projectId)
      (fun _ db' ↦ OnlyUsers db db') db := by
  have hE : ∀ _ : Failure, OnlyUsers db db := fun _ ↦ .refl db
  unfold requireCycleAccess
  refine wp_requireUser_seq hE fun uid _ ↦ wp_require_seq (.refl db) fun _ ↦ ?_
  refine wp_castUuid_seq hE fun id hid ↦ wp_check_seq hE fun cycle hcycle ↦ ?_
  have hfind := eq_some_of_found hcycle
  rw [Option.filter_eq_some_iff] at hfind
  obtain ⟨hmem, rfl⟩ := Table.find_eq_some.mp hfind.1
  refine wp_seq requireProjectAccess_spec ?_
  rintro access db' ⟨honly, -⟩
  rw [wp_pure]
  exact ⟨honly, cycle, hmem, hid, rfl⟩

theorem parseAssignee_spec {projectId : Uuid} {text : Option IdText} :
    wp (parseAssignee projectId text)
      (fun assigneeId db' ↦ db' = db ∧ ∀ uid ∈ assigneeId, IsMember db projectId uid)
      (fun _ db' ↦ db' = db) db := by
  cases text with
  | none => exact (wp_pure _).mpr ⟨rfl, fun uid huid ↦ by cases huid⟩
  | some text =>
      unfold parseAssignee
      refine wp_require_seq rfl fun _ ↦ wp_castUuid_seq (fun _ ↦ rfl) fun id _ ↦ ?_
      rw [wp_check]
      refine ⟨fun assigneeId h ↦ ⟨rfl, fun uid huid ↦ ?_⟩, fun _ _ ↦ rfl⟩
      split at h
      · rename_i hmember
        obtain rfl := Except.ok.inj h
        obtain rfl := Option.some.inj huid
        exact hmember
      · cases h

theorem findExecution_eq_some {id : Uuid} {before : Execution × Cycle}
    (h : findExecution id db = some before) :
    before.1 ∈ db.executions ∧ before.1.id = id ∧ before.1.live = true ∧
      before.1.cycle db = some before.2 := by
  unfold findExecution at h
  simp only [bind, Option.bind_eq_some_iff] at h
  obtain ⟨e, he, cycle, hcycle, h⟩ := h
  obtain rfl := Option.some.inj h
  rw [Option.filter_eq_some_iff] at he
  obtain ⟨hmem, hid⟩ := Table.find_eq_some.mp he.1
  exact ⟨hmem, hid, he.2, hcycle⟩

/-- An update leaves every table but `users` alone, or stores its change in a live result, for an
assignee who is a member of the project of the result. -/
theorem updateExecution_spec {executionId : IdText} {actorId : Option Uuid} {body : ExecutionBody}
    {I : Db → Prop} (hI : ∀ db', OnlyUsers db db' → I db')
    (hstore : ∀ id e cycle uid assigneeId db₁ db₂, executionId.uuid = some id →
      findExecution id db = some (e, cycle) → (∀ s ∈ body.status.truthy, s ∈ executionStatuses) →
      OnlyUsers db db₁ → (∀ uid ∈ assigneeId, IsMember db₁ cycle.projectId uid) →
      storeExecution id (body.change uid assigneeId) db₁ = .ok db₂ → I db₂) :
    wp (updateExecution executionId actorId body) (fun _ db' ↦ I db') (fun _ db' ↦ I db') db := by
  have hE : ∀ _ : Failure, I db := fun _ ↦ hI db (.refl db)
  unfold updateExecution
  refine wp_requireUser_seq hE fun uid _ ↦ wp_require_seq (hE .invalidUuid) fun hstatus ↦ ?_
  refine wp_castUuid_seq hE fun id hid ↦ wp_check_seq hE fun before hbefore ↦ ?_
  have hfind := eq_some_of_found hbefore
  refine wp_seq (wp_mono requireProjectAccess_spec (fun _ _ h ↦ h) fun _ db' h ↦ hI db' h) ?_
  rintro access db₁ ⟨honly, -⟩
  refine wp_seq (wp_mono parseAssignee_spec (fun _ _ h ↦ h) fun _ db' h ↦ h ▸ hI db₁ honly) ?_
  rintro assigneeId db₁ ⟨rfl, hmember⟩
  rw [wp_exec]
  exact ⟨fun db₂ h ↦ hstore id before.1 before.2 uid assigneeId db₁ db₂ hid hfind hstatus honly
    hmember h, fun _ _ ↦ hI db₁ honly⟩

theorem ExecutionChange.apply_eq_ok {c : ExecutionChange} {now : Time} {e e' : Execution}
    (h : c.apply now e = .ok e') :
    varchar 32 (c.status.getD e.status) = .ok e'.status ∧
      varchar? 128 (if c.clearsDefect then none else c.defectKey.or e.defectKey) = .ok e'.defectKey ∧
      varchar? 1024 (if c.clearsDefect then none else c.defectUrl.or e.defectUrl) =
        .ok e'.defectUrl ∧
      e'.assigneeId = (if c.clearsAssignee then none else c.assigneeId.or e.assigneeId) ∧
      e'.cycleItemId = e.cycleItemId ∧ e'.deletedAt = e.deletedAt := by
  unfold ExecutionChange.apply at h
  obtain ⟨status, hstatus, h⟩ := except_bind_eq_ok.mp h
  obtain ⟨defectKey, hkey, h⟩ := except_bind_eq_ok.mp h
  obtain ⟨defectUrl, hurl, h⟩ := except_bind_eq_ok.mp h
  obtain rfl := Except.ok.inj h
  exact ⟨hstatus, hkey, hurl, rfl, rfl, rfl⟩

theorem storeExecution_eq_ok {id : Uuid} {c : ExecutionChange}
    (h : storeExecution id c db = .ok db') :
    db' = db ∨ ∃ e e', e ∈ db.executions ∧ e.id = id ∧ c.apply db.now e = .ok e' ∧
      db' = { db with
        executions := db.executions.updateWhere (fun r ↦ r.id = id) (fun r ↦ { e' with id := r.id })
          fun _ ↦ rfl } := by
  unfold storeExecution at h
  split at h
  · exact .inl (Except.ok.inj h).symm
  · rename_i e hfind
    rw [Option.filter_eq_some_iff] at hfind
    obtain ⟨hmem, hid⟩ := Table.find_eq_some.mp hfind.1
    obtain ⟨e', he', h⟩ := except_bind_eq_ok.mp h
    exact .inr ⟨e, e', hmem, hid, he', (Except.ok.inj h).symm⟩

theorem resolveBulkExecutions_spec {cycleId : Uuid} {executionIds : List IdText} :
    wp (resolveBulkExecutions cycleId executionIds) (fun _ db' ↦ db' = db) (fun _ db' ↦ db' = db)
      db := by
  unfold resolveBulkExecutions
  refine wp_require_seq rfl fun _ ↦ wp_require_seq rfl fun _ ↦ wp_ofExcept_seq (fun _ ↦ rfl) ?_
  intro ids _
  rw [wp_check]
  exact ⟨fun _ _ ↦ rfl, fun _ _ ↦ rfl⟩

end Effects

end Tesbo
