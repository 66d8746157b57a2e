import Tesbo.AccessSteps
import Tesbo.Executions
import Tesbo.Reasoning.Disturbed

/-!
# A selection of a run's results, statement by statement

A bulk change checks its selection once and then updates one result after the other, each with checks
of its own.  Between any two statements others may change anything, and any statement may fail.
-/

namespace Tesbo.BulkResults

open Reasoning Proc

/-! ## The calls -/

/-- The writes of a call: the repair of a stale workspace, and the `UPDATE` of one result. -/
inductive Statement where
  | repair (uid organizationId : Uuid)
  | update (id : Uuid) (change : ExecutionChange)

abbrev Reply : Statement → Type := fun _ ↦ Except Failure Unit

/-- The database, and what the call has written: the rows its `UPDATE`s hit, with the change. -/
structure Ledger where
  db : Db
  updated : List (Uuid × ExecutionChange)

instance : Steps.Backed Ledger Reply := ⟨Ledger.db, Statement.repair⟩

abbrev Call (α : Type) := Proc Ledger Reply Failure α

/-- The projects whose access the request remembers, where it remembers any. -/
abbrev Memo := Option (List Uuid)

/-- `requestCache.remember` of the row of a project. -/
def rememberAccess (memo : Memo) (uid workspaceId projectId : Uuid) : Call Memo :=
  if ∃ known ∈ memo, projectId ∈ known then pure memo
  else do
    let access ← Steps.found (findProjectAccess uid workspaceId projectId)
      (.notFound "Project not found")
    pure (memo.map fun known ↦ access.project.id :: known)

def requireProjectAccess (memo : Memo) (uid projectId : Uuid) : Call Memo := do
  let workspace ← Steps.workspace (some uid)
  rememberAccess memo uid workspace.id projectId

/-- The project of a live run the caller may reach. -/
def requireCycleAccess (memo : Memo) (uid : Uuid) (cycleId : IdText) : Call (Uuid × Memo) := do
  require (cycleId.isUuid = true) (.notFound "Cycle not found")
  let id ← ofExcept (readUuid cycleId)
  let cycle ← Steps.found (fun db ↦ (db.cycles.find id).filter Cycle.live)
    (.notFound "Cycle not found")
  let memo ← requireProjectAccess memo uid cycle.projectId
  pure (cycle.projectId, memo)

/-- The user a text names, when they are a member of the project. -/
def parseAssignee (projectId : Uuid) : Option IdText → Call (Option Uuid)
  | none => pure none
  | some text => do
      require (text.isUuid = true) (.notFound "Assignee not found")
      let id ← ofExcept (readUuid text)
      check fun s ↦
        if IsMember s.db projectId id then .ok (some id)
        else .error (.badRequest "The assignee must be a member of this project")

/-- The lookup, the checks and the `UPDATE` of one result; what is told of it afterwards is not read,
and its errors are caught. -/
def changeExecution (memo : Memo) (uid id : Uuid) (body : ExecutionBody) : Call Memo := do
  let before ← Steps.found (findExecution id) (.notFound "Execution not found")
  let memo ← requireProjectAccess memo uid before.2.projectId
  let assigneeId ← parseAssignee before.2.projectId body.assigneeId.truthy
  let stored ← issue (.update id (body.change uid assigneeId))
  ofExcept stored
  pure memo

def updateExecution (memo : Memo) (executionId : IdText) (actorId : Option Uuid)
    (body : ExecutionBody) : Call Memo := do
  let uid ← Steps.requireUser actorId
  require (∀ status ∈ body.status.truthy, status ∈ executionStatuses) statusError
  let id ← ofExcept (readUuid executionId)
  changeExecution memo uid id body

def updateAll (memo : Memo) (uid : Uuid) (body : ExecutionBody) : List Uuid → Call Unit
  | [] => pure ()
  | id :: ids => do
      let memo ← updateExecution memo (.canonical id) (some uid) body
      updateAll memo uid body ids

/-- The live results of a run among `ids`. -/
def selectedExecutions (cycleId : Uuid) (ids : List Uuid) (db : Db) : List Execution :=
  db.executions.select fun e ↦
    e.live ∧ e.id ∈ ids ∧ ∃ item ∈ db.cycleItems.find e.cycleItemId, item.cycleId = cycleId

/-- The selection, refused as a whole when one of it is not in the run. -/
def resolveBulkExecutions (cycleId : Uuid) (executionIds : List IdText) : Call (List Uuid) := do
  require (executionIds ≠ []) (.badRequest "executionIds is required")
  require (∀ id ∈ executionIds, id.isUuid = true) (.notFound "Execution not found")
  let ids ← ofExcept (executionIds.mapM readUuid)
  check fun s ↦
    let rows := selectedExecutions cycleId ids s.db
    if rows.length = executionIds.length then .ok (rows.map Execution.id)
    else .error (.notFound "Execution not found")

/-- The results before a change of their status, read for the notices. -/
def executionsBeforeBulkStatus (executionIds : List Uuid) : Call (List (String × Option Uuid)) :=
  query fun s ↦ (s.db.executions.select fun e ↦ e.live ∧ e.id ∈ executionIds).map
    fun e ↦ (e.status, e.assigneeId)

/-- `String(body.status || "").trim()` -/
def bulkStatus (body : BulkBody) : String := jsTrim (body.status.truthy.getD "")

/-- The updates of a bulk change of status, after the notices' read if there are any. -/
def updateStatuses (memo : Memo) (uid : Uuid) (status : String) (executionIds : List Uuid) :
    Call Unit :=
  if status ≠ "Failed" ∧ status ≠ "Blocked" then do
    let _ ← executionsBeforeBulkStatus executionIds
    updateAll memo uid (statusOnly status) executionIds
  else updateAll memo uid (statusOnly status) executionIds

def bulkUpdateExecutionStatus (memo : Memo) (cycleId : IdText) (userId : Option Uuid)
    (body : BulkBody) : Call Unit := do
  let uid ← Steps.requireUser userId
  let access ← requireCycleAccess memo uid cycleId
  require (bulkStatus body ∈ executionStatuses) statusError
  let cycle ← ofExcept (readUuid cycleId)
  let executionIds ← resolveBulkExecutions cycle body.executionIds
  updateStatuses access.2 uid (bulkStatus body) executionIds

def bulkAssignExecutions (memo : Memo) (cycleId : IdText) (userId : Option Uuid)
    (body : BulkBody) : Call Unit := do
  let uid ← Steps.requireUser userId
  let access ← requireCycleAccess memo uid cycleId
  let _ ← parseAssignee access.1 body.assigneeId.nullish
  let cycle ← ofExcept (readUuid cycleId)
  let executionIds ← resolveBulkExecutions cycle body.executionIds
  updateAll access.2 uid (assigneeOnly body.assigneeId.nullish) executionIds

/-! ## Statements and the others -/

/-- An `UPDATE` that finds no live row changes nothing, and is not told from one that does. -/
def perform : (w : Statement) → Ledger → Reply w × Ledger
  | .repair uid organizationId, s =>
      (.ok (), { s with db := setActiveOrganization uid organizationId s.db })
  | .update id change, s =>
      match (s.db.executions.find id).filter Execution.live with
      | none => (.ok (), s)
      | some _ =>
          match storeExecution id change s.db with
          | .error e => (.error e, s)
          | .ok db => (.ok (), ⟨db, s.updated ++ [(id, change)]⟩)

def refused (w : Statement) (e : Failure) : Reply w := .error e

/-- The others change the database as they like. -/
def others (f : Db → Db) (s : Ledger) : Ledger := { s with db := f s.db }

abbrev Underway := Reasoning.Underway Ledger Reply Failure Unit

abbrev Happening := Reasoning.Happening (Db → Db) Failure

def step (c : Underway) (happening : Happening) : Underway :=
  c.step others perform refused happening

/-! ## All or nothing -/

inductive Bulk where
  | status (cycleId : IdText) (userId : Option Uuid) (body : BulkBody)
  | assign (cycleId : IdText) (userId : Option Uuid) (body : BulkBody)

namespace Bulk

def call (memo : Memo) : Bulk → Call Unit
  | status cycleId userId body => bulkUpdateExecutionStatus memo cycleId userId body
  | assign cycleId userId body => bulkAssignExecutions memo cycleId userId body

def userId : Bulk → Option Uuid
  | status _ userId _ | assign _ userId _ => userId

/-- The ids of the selection. -/
def named : Bulk → List IdText
  | status _ _ body | assign _ _ body => body.executionIds

/-- What each result of the selection is asked to change. -/
def body : Bulk → ExecutionBody
  | status _ _ body => statusOnly (bulkStatus body)
  | assign _ _ body => assigneeOnly body.assigneeId.nullish

def change (bulk : Bulk) (uid : Uuid) : ExecutionChange :=
  bulk.body.change uid (bulk.body.assigneeId.truthy.bind IdText.uuid)

end Bulk

/-- The rows changed are those named, each by the change asked for. -/
def ChangesNamed (bulk : Bulk) (updated : List (Uuid × ExecutionChange)) : Prop :=
  ∃ uid, bulk.userId = some uid ∧ ∀ id change, (id, change) ∈ updated ↔
    change = bulk.change uid ∧ ∃ text ∈ bulk.named, text.uuid = some id

/-- A call that has answered has changed the whole selection, one that has thrown has changed
nothing. -/
def AllOrNothing (bulk : Bulk) (c : Underway) : Prop :=
  match c.rest with
  | .done (.ok _) => ChangesNamed bulk c.state.updated
  | .done (.error _) => c.state.updated = []
  | .read _ | .write _ _ => True

/-- Nothing is changed yet. -/
def Unchanged (s : Ledger) : Prop := s.updated = []

/-- An `UPDATE` may fail while nothing is changed, and otherwise hits a live row. -/
def Lands : (w : Statement) → Option Failure → Ledger → Prop
  | .repair _ _, _, _ => True
  | .update _ _, some _, s => Unchanged s
  | .update id change, none, s =>
      ((s.db.executions.find id).filter Execution.live).isSome = true ∧
        ((storeExecution id change s.db).isOk = true ∨ Unchanged s)

instance (s : Ledger) : Decidable (Unchanged s) := inferInstanceAs (Decidable (s.updated = []))

instance : ∀ w failure s, Decidable (Lands w failure s)
  | .repair _ _, _, _ => instDecidableTrue
  | .update _ _, some _, s => inferInstanceAs (Decidable (Unchanged s))
  | .update id change, none, s =>
      inferInstanceAs (Decidable (((s.db.executions.find id).filter Execution.live).isSome = true ∧
        ((storeExecution id change s.db).isOk = true ∨ Unchanged s)))

/-- The condition of a step: once a result has been changed, no statement of the call fails and none of
its checks refuses; and an `UPDATE` finds its row live. -/
def Undisturbed (c : Underway) (happening : Happening) : Prop :=
  c.Meets Unchanged Lands happening

instance (c : Underway) (happening : Happening) : Decidable (Undisturbed c happening) :=
  inferInstanceAs (Decidable (c.Meets Unchanged Lands happening))

/-! ## What a call goes through -/

/-- The ledger, as the answers of the statements tell it. -/
def turn (updated : List (Uuid × ExecutionChange)) :
    (w : Statement) → Reply w → List (Uuid × ExecutionChange)
  | .update id change, .ok _ => updated ++ [(id, change)]
  | .update _ _, .error _ => updated
  | .repair _ _, _ => updated

/-- A call that has changed something goes on after a repair, and after an `UPDATE` that is carried
out. -/
def goesOn (updated : List (Uuid × ExecutionChange)) : (w : Statement) → Reply w → Prop
  | .update _ _, .ok _ => True
  | .update _ _, .error _ => False
  | .repair _ _, _ => updated ≠ []

def IsRepair (_ : Ledger) : Statement → Prop
  | .repair _ _ => True
  | .update _ _ => False

/-- Others may do anything. -/
def Anything (_ _ : Ledger) : Prop := True

abbrev FollowsTo {α : Type} (Q : α → List (Uuid × ExecutionChange) → Prop)
    (updated : List (Uuid × ExecutionChange)) (s : Ledger) (p : Call α) : Prop :=
  Follows turn (fun _ _ ↦ True) (fun _ _ _ ↦ True) (fun a t _ ↦ Q a t) updated s p

abbrev Steadily {α : Type} (updated : List (Uuid × ExecutionChange)) (p : Call α) : Prop :=
  Steady turn goesOn updated p

abbrev OnlyRepairs {α : Type} (P : α → Prop) (s : Ledger) (p : Call α) : Prop :=
  Asks (fun _ _ ↦ True) IsRepair (fun a _ ↦ P a) s p

section Rules

variable {α β : Type} {updated : List (Uuid × ExecutionChange)} {s : Ledger}

/-- The checks of a call leave its ledger alone. -/
theorem FollowsTo.checks {P : α → Prop} {Q : β → List (Uuid × ExecutionChange) → Prop} {p : Call α}
    {f : α → Call β} (hp : OnlyRepairs P s p) (hf : ∀ a s, P a → FollowsTo Q updated s (f a)) :
    FollowsTo Q updated s (p >>= f) := by
  have hrepairs : ∀ (s : Ledger) w, IsRepair s w → True ∧ ∀ r, turn updated w r = updated := by
    intro s w hw
    cases w with
    | repair => exact ⟨trivial, fun _ ↦ rfl⟩
    | update => exact hw.elim
  apply follows_seq (fun _ ↦ trivial) (fun _ _ _ _ _ ↦ trivial) (hp.follows hrepairs)
  rintro a t s' _ ⟨rfl, ha⟩
  exact hf a s' ha

/-- While nothing is changed, any error may follow the checks. -/
theorem Steadily.checks {P : α → Prop} {p : Call α} {f : α → Call β} (hp : OnlyRepairs P s p)
    (hf : ∀ a, P a → Steadily [] (f a)) : Steadily [] (p >>= f) := by
  apply Asks.steady_seq (fun _ ↦ trivial) hp (fun _ _ ↦ trivial)
  · intro s w r hw
    cases w with
    | repair => exact ⟨fun hne ↦ hne rfl, rfl⟩
    | update => exact hw.elim
  · exact fun a _ ha ↦ hf a ha

theorem onlyRepairs_workspace {uid : Option Uuid} :
    OnlyRepairs (fun _ ↦ True) s (Steps.workspace uid : Call Workspace) :=
  Steps.asks_workspace fun _ _ _ ↦ trivial

theorem onlyRepairs_requireProjectAccess {memo : Memo} {uid projectId : Uuid} :
    OnlyRepairs (fun _ ↦ True) s (requireProjectAccess memo uid projectId) := by
  unfold requireProjectAccess
  apply asks_seq (fun _ ↦ trivial) (fun _ _ _ _ _ ↦ trivial) onlyRepairs_workspace
  intro workspace s₁ _ _
  unfold rememberAccess
  split
  · exact asks_pure fun _ _ ↦ trivial
  · apply Steps.asks_found_seq
    intro s₂ _ access _
    exact asks_pure fun _ _ ↦ trivial

theorem onlyRepairs_requireCycleAccess {memo : Memo} {uid : Uuid} {cycleId : IdText} :
    OnlyRepairs (fun _ ↦ True) s (requireCycleAccess memo uid cycleId) := by
  unfold requireCycleAccess
  apply asks_require_seq
  intro _
  apply asks_ofExcept_seq
  intro id _
  apply Steps.asks_found_seq
  intro s₁ _ cycle _
  apply asks_seq (fun _ ↦ trivial) (fun _ _ _ _ _ ↦ trivial) onlyRepairs_requireProjectAccess
  intro memo s₂ _ _
  exact asks_pure fun _ _ ↦ trivial

/-- An assignee is who the text names. -/
theorem onlyRepairs_parseAssignee {projectId : Uuid} {text : Option IdText} :
    OnlyRepairs (fun assigneeId ↦ assigneeId = text.bind IdText.uuid ∧
      ∀ t ∈ text, t.isUuid = true) s (parseAssignee projectId text) := by
  cases text with
  | none => exact asks_pure fun _ _ ↦ ⟨rfl, fun _ h ↦ by cases h⟩
  | some text =>
      unfold parseAssignee
      apply asks_require_seq
      intro huuid
      apply asks_ofExcept_seq
      intro id hid
      apply asks_check
      intro s₁ _ assigneeId hassignee _ _
      split at hassignee
      · cases hassignee
        refine ⟨(readUuid_eq_ok.mp hid).symm, fun t ht ↦ ?_⟩
        cases ht
        exact huuid
      · cases hassignee

theorem onlyRepairs_found {f : Db → Option α} {e : Failure} :
    OnlyRepairs (fun _ ↦ True) s (Steps.found f e : Call α) :=
  Steps.asks_found fun _ _ _ _ _ _ ↦ trivial

/-- A selection that is not refused is that of the rows named. -/
theorem onlyRepairs_resolveBulkExecutions {cycleId : Uuid} {executionIds : List IdText} :
    OnlyRepairs (fun ids ↦ ∀ id, id ∈ ids ↔ ∃ text ∈ executionIds, text.uuid = some id) s
      (resolveBulkExecutions cycleId executionIds) := by
  unfold resolveBulkExecutions
  apply asks_require_seq
  intro _
  apply asks_require_seq
  intro _
  apply asks_ofExcept_seq
  intro ids hids
  apply asks_check
  intro s₁ _ selected hselected _ _
  dsimp only at hselected
  split at hselected
  · rename_i hlength
    obtain rfl := Except.ok.inj hselected
    have hnodup : ((selectedExecutions cycleId ids s₁.db).map Execution.id).Nodup :=
      s₁.db.executions.nodup.sublist (List.filter_sublist.map Execution.id)
    have hsubset : (selectedExecutions cycleId ids s₁.db).map Execution.id ⊆ ids := by
      intro id hid
      obtain ⟨e, he, rfl⟩ := List.mem_map.mp hid
      obtain ⟨_, hcondition⟩ := Table.mem_select.mp he
      simp only [decide_eq_true_eq] at hcondition
      exact hcondition.2.1
    have hsame := (forall₂_of_mapM hids).length_eq
    have hperm : ((selectedExecutions cycleId ids s₁.db).map Execution.id).Perm ids := by
      apply (hnodup.subperm hsubset).perm_of_length_le
      rw [List.length_map, hlength, hsame]
    intro id
    rw [hperm.mem_iff]
    constructor
    · intro hid
      obtain ⟨text, htext, hread⟩ := exists_of_mem_mapM hids hid
      exact ⟨text, htext, readUuid_eq_ok.mp hread⟩
    · rintro ⟨text, htext, huuid⟩
      obtain ⟨id', hid', hread⟩ := exists_image_of_mapM hids htext
      have hsome := huuid.symm.trans (readUuid_eq_ok.mp hread)
      rw [Option.some.inj hsome]
      exact hid'
  · cases hselected

end Rules

/-! ## The updates -/

section Updates

variable {memo : Memo} {uid : Uuid} {body : ExecutionBody}
  {updated : List (Uuid × ExecutionChange)} {s : Ledger}

/-- What a body asks to change, where its assignee is one. -/
def changeOf (body : ExecutionBody) (uid : Uuid) : ExecutionChange :=
  body.change uid (body.assigneeId.truthy.bind IdText.uuid)

/-- A body whose values pass the checks that read nothing. -/
structure WellFormed (body : ExecutionBody) : Prop where
  status : ∀ status ∈ body.status.truthy, status ∈ executionStatuses
  assignee : ∀ text ∈ body.assigneeId.truthy, text.isUuid = true

theorem updateExecution_canonical (hbody : WellFormed body) (id : Uuid) :
    updateExecution memo (.canonical id) (some uid) body = changeExecution memo uid id body := by
  unfold updateExecution require
  rw [if_pos hbody.status]
  rfl

theorem followsTo_changeExecution {id : Uuid} :
    FollowsTo (fun _ t ↦ t = updated ++ [(id, changeOf body uid)]) updated s
      (changeExecution memo uid id body) := by
  unfold changeExecution
  apply FollowsTo.checks onlyRepairs_found
  intro before s₁ _
  apply FollowsTo.checks onlyRepairs_requireProjectAccess
  intro memo s₂ _
  apply FollowsTo.checks onlyRepairs_parseAssignee
  rintro assigneeId s₃ ⟨rfl, _⟩
  apply follows_issue_seq fun _ _ ↦ trivial
  intro r s₄ _
  cases r with
  | error e => exact follows_fail
  | ok _ => exact follows_pure fun _ _ ↦ rfl

theorem steadily_workspace {actorId : Option Uuid} :
    Steadily updated (Steps.workspace actorId : Call Workspace) := by
  unfold Steps.workspace
  cases actorId with
  | none => exact trivial
  | some uid =>
      refine steady_query_seq fun s ↦ ?_
      split
      · exact trivial
      · exact steady_check_seq fun _ earliest _ _ ↦ ⟨fun _ ↦ rfl, trivial⟩

theorem steadily_requireProjectAccess {projectId : Uuid} :
    Steadily updated (requireProjectAccess memo uid projectId) := by
  have hsteady (workspace : Workspace) (t : List (Uuid × ExecutionChange)) :
      Steadily t (rememberAccess memo uid workspace.id projectId) ∧
        (rememberAccess memo uid workspace.id projectId).failed = false := by
    unfold rememberAccess
    split
    · exact ⟨trivial, rfl⟩
    · exact ⟨steady_check_seq fun _ _ _ ↦ trivial, rfl⟩
  unfold requireProjectAccess
  exact steadily_workspace.seq (fun workspace t ↦ (hsteady workspace t).1)
    fun workspace ↦ (hsteady workspace updated).2

/-- A text of the right shape is looked up. -/
theorem parseAssignee_uuid {projectId : Uuid} {text : IdText} (htext : text.isUuid = true) :
    ∃ id, parseAssignee projectId (some text) = check fun s ↦
      if IsMember s.db projectId id then .ok (some id)
      else .error (.badRequest "The assignee must be a member of this project") := by
  obtain ⟨id, hid⟩ := IdText.uuid_of_isUuid htext
  refine ⟨id, ?_⟩
  unfold parseAssignee require
  dsimp only
  rw [if_pos htext, readUuid_eq_ok.mpr hid]
  rfl

/-- What comes after the checks of one result: its `UPDATE`. -/
theorem steadily_parseAssignee (updated : List (Uuid × ExecutionChange)) {projectId id : Uuid} {text : Option IdText}
    (htext : ∀ t ∈ text, t.isUuid = true) (change : Option Uuid → ExecutionChange) :
    let rest : Call Memo := do
      let assigneeId ← parseAssignee projectId text
      let stored ← issue (.update id (change assigneeId))
      ofExcept stored
      pure memo
    Steadily updated rest ∧ rest.failed = false := by
  have hupdate (assigneeId : Option Uuid) : Steadily updated (do
      let stored ← issue (.update id (change assigneeId))
      ofExcept stored
      pure memo : Call Memo) := by
    intro r
    cases r with
    | ok _ => exact ⟨fun _ ↦ rfl, trivial⟩
    | error e => exact ⟨fun h ↦ h.elim, trivial⟩
  cases text with
  | none => exact ⟨hupdate none, rfl⟩
  | some text =>
      obtain ⟨assignee, hread⟩ := parseAssignee_uuid (htext text rfl)
      rw [hread]
      exact ⟨steady_check_seq fun _ assigneeId _ ↦ hupdate assigneeId, rfl⟩

theorem steadily_changeExecution (hbody : WellFormed body) {id : Uuid} :
    Steadily updated (changeExecution memo uid id body) := by
  unfold changeExecution
  apply steady_check_seq
  intro s before _
  apply steadily_requireProjectAccess.seq
  · exact fun memo t ↦ (steadily_parseAssignee t hbody.assignee (body.change uid)).1
  · exact fun memo ↦ (steadily_parseAssignee updated hbody.assignee (body.change uid)).2

theorem followsTo_updateAll (hbody : WellFormed body) (ids : List Uuid) :
    FollowsTo (fun _ t ↦ t = updated ++ ids.map fun id ↦ (id, changeOf body uid)) updated s
      (updateAll memo uid body ids) := by
  induction ids generalizing updated s memo with
  | nil => exact follows_pure fun _ _ ↦ (List.append_nil _).symm
  | cons id ids ih =>
      rw [updateAll, updateExecution_canonical hbody]
      apply follows_seq (fun _ ↦ trivial) (fun _ _ _ _ _ ↦ trivial) followsTo_changeExecution
      rintro memo t s₁ _ rfl
      apply ih.mono
      rintro _ t _ rfl
      rw [List.append_assoc]
      rfl

theorem steadily_updateAll (memo : Memo) (uid : Uuid) (updated : List (Uuid × ExecutionChange))
    (hbody : WellFormed body) (ids : List Uuid) :
    Steadily updated (updateAll memo uid body ids) ∧
      (updateAll memo uid body ids).failed = false := by
  induction ids generalizing updated memo with
  | nil => exact ⟨trivial, rfl⟩
  | cons id ids ih =>
      rw [updateAll, updateExecution_canonical hbody]
      constructor
      · exact (steadily_changeExecution hbody).seq (fun memo t ↦ (ih memo t).1) fun memo ↦ (ih memo []).2
      · rfl

end Updates

/-! ## The calls, all in all -/

section Calls

variable {memo : Memo} {s : Ledger}

theorem eq_of_mem_truthy {α : Type} [Falsy α] {a b : α} (h : b ∈ (Arg.value a).truthy) : a = b := by
  have h : (if Falsy.falsy a then none else some a) = some b := h
  split at h
  · cases h
  · exact Option.some.inj h

theorem wellFormed_statusOnly {status : String} (h : status ∈ executionStatuses) :
    WellFormed (statusOnly status) := by
  constructor
  · intro text htext
    rw [← eq_of_mem_truthy htext]
    exact h
  · exact fun _ h ↦ absurd h (Option.not_mem_none _)

theorem wellFormed_assigneeOnly {assigneeId : Option IdText}
    (h : ∀ t ∈ assigneeId, t.isUuid = true) : WellFormed (assigneeOnly assigneeId) := by
  constructor
  · exact fun _ h ↦ absurd h (Option.not_mem_none _)
  · intro text htext
    cases assigneeId with
    | none => cases htext
    | some own =>
        rw [← eq_of_mem_truthy htext]
        exact h own rfl

/-- The selection has been gone through. -/
theorem changesNamed_of_ids {bulk : Bulk} {uid : Uuid} {ids : List Uuid}
    (huser : bulk.userId = some uid)
    (hids : ∀ id, id ∈ ids ↔ ∃ text ∈ bulk.named, text.uuid = some id) :
    ChangesNamed bulk (ids.map fun id ↦ (id, changeOf bulk.body uid)) := by
  refine ⟨uid, huser, fun id change ↦ ?_⟩
  rw [← hids, List.mem_map]
  constructor
  · rintro ⟨id', hid', heq⟩
    cases heq
    exact ⟨rfl, hid'⟩
  · rintro ⟨rfl, hid⟩
    exact ⟨id, hid, rfl⟩

theorem onlyRepairs_requireUser {actorId : Option Uuid} :
    OnlyRepairs (fun uid ↦ actorId = some uid) s (Steps.requireUser actorId : Call Uuid) := by
  cases actorId with
  | none => exact asks_fail
  | some uid => exact asks_pure fun _ _ ↦ rfl

theorem onlyRepairs_ofExcept {α : Type} {r : Except Failure α} :
    OnlyRepairs (fun a ↦ r = .ok a) s (Proc.ofExcept r : Call α) := by
  cases r with
  | error e => exact asks_fail
  | ok a => exact asks_pure fun _ _ ↦ rfl

theorem onlyRepairs_require {p : Prop} [Decidable p] {e : Failure} :
    OnlyRepairs (fun _ ↦ p) s (require p e : Call Unit) := by
  unfold require
  by_cases hp : p
  · rw [if_pos hp]
    exact asks_pure fun _ _ ↦ hp
  · rw [if_neg hp]
    exact asks_fail

/-- The updates of a call whose checks have passed. -/
theorem updates_of_ids (memo : Memo) (s : Ledger) (bulk : Bulk) {uid : Uuid} {ids : List Uuid} (hbody : WellFormed bulk.body)
    (huser : bulk.userId = some uid)
    (hids : ∀ id, id ∈ ids ↔ ∃ text ∈ bulk.named, text.uuid = some id) :
    FollowsTo (fun _ t ↦ ChangesNamed bulk t) [] s (updateAll memo uid bulk.body ids) := by
  apply (followsTo_updateAll hbody ids).mono
  rintro _ t _ rfl
  exact changesNamed_of_ids huser hids

theorem followsTo_call (bulk : Bulk) :
    FollowsTo (fun _ t ↦ ChangesNamed bulk t) [] s (bulk.call memo) := by
  cases bulk with
  | status cycleId userId body =>
      show FollowsTo _ [] s (bulkUpdateExecutionStatus memo cycleId userId body)
      unfold bulkUpdateExecutionStatus
      apply FollowsTo.checks onlyRepairs_requireUser
      intro uid s₁ huser
      apply FollowsTo.checks onlyRepairs_requireCycleAccess
      intro access s₂ _
      apply FollowsTo.checks onlyRepairs_require
      intro _ s₃ hstatus
      apply FollowsTo.checks onlyRepairs_ofExcept
      intro cycle s₄ _
      apply FollowsTo.checks onlyRepairs_resolveBulkExecutions
      intro ids s₅ hids
      have hupdates (s : Ledger) := updates_of_ids access.2 s (.status cycleId userId body)
        (wellFormed_statusOnly hstatus) huser hids
      unfold updateStatuses
      split
      · exact follows_query_seq fun s' _ ↦ hupdates s'
      · exact hupdates s₅
  | assign cycleId userId body =>
      show FollowsTo _ [] s (bulkAssignExecutions memo cycleId userId body)
      unfold bulkAssignExecutions
      apply FollowsTo.checks onlyRepairs_requireUser
      intro uid s₁ huser
      apply FollowsTo.checks onlyRepairs_requireCycleAccess
      intro access s₂ _
      apply FollowsTo.checks onlyRepairs_parseAssignee
      rintro _ s₃ ⟨_, hassignee⟩
      apply FollowsTo.checks onlyRepairs_ofExcept
      intro cycle s₄ _
      apply FollowsTo.checks onlyRepairs_resolveBulkExecutions
      intro ids s₅ hids
      exact updates_of_ids access.2 s₅ (.assign cycleId userId body)
        (wellFormed_assigneeOnly hassignee) huser hids

theorem steadily_call (bulk : Bulk) : Steadily [] (bulk.call memo) := by
  have start : Ledger := ⟨Db.empty, []⟩
  cases bulk with
  | status cycleId userId body =>
      show Steadily [] (bulkUpdateExecutionStatus memo cycleId userId body)
      unfold bulkUpdateExecutionStatus
      apply Steadily.checks (onlyRepairs_requireUser (s := start))
      intro uid _
      apply Steadily.checks (onlyRepairs_requireCycleAccess (s := start))
      intro access _
      apply Steadily.checks (onlyRepairs_require (s := start))
      intro _ hstatus
      apply Steadily.checks (onlyRepairs_ofExcept (s := start))
      intro cycle _
      apply Steadily.checks (onlyRepairs_resolveBulkExecutions (s := start))
      intro ids _
      have hupdates := (steadily_updateAll access.2 uid [] (wellFormed_statusOnly hstatus) ids).1
      unfold updateStatuses
      split
      · exact steady_query_seq fun _ ↦ hupdates
      · exact hupdates
  | assign cycleId userId body =>
      show Steadily [] (bulkAssignExecutions memo cycleId userId body)
      unfold bulkAssignExecutions
      apply Steadily.checks (onlyRepairs_requireUser (s := start))
      intro uid _
      apply Steadily.checks (onlyRepairs_requireCycleAccess (s := start))
      intro access _
      apply Steadily.checks (onlyRepairs_parseAssignee (s := start))
      rintro _ ⟨_, hassignee⟩
      apply Steadily.checks (onlyRepairs_ofExcept (s := start))
      intro cycle _
      apply Steadily.checks (onlyRepairs_resolveBulkExecutions (s := start))
      intro ids _
      exact (steadily_updateAll access.2 uid [] (wellFormed_assigneeOnly hassignee) ids).1

end Calls

/-! ## Runs -/

/-- A call that has not begun. -/
def start (memo : Memo) (bulk : Bulk) (db : Db) : Underway := ⟨⟨db, []⟩, bulk.call memo⟩

theorem perform_update_of_row {id : Uuid} (change : ExecutionChange) {s : Ledger}
    (hrow : ((s.db.executions.find id).filter Execution.live).isSome = true) :
    perform (.update id change) s =
      match storeExecution id change s.db with
      | .error e => (.error e, s)
      | .ok db => (.ok (), ⟨db, s.updated ++ [(id, change)]⟩) := by
  obtain ⟨e, he⟩ := Option.isSome_iff_exists.mp hrow
  unfold perform
  simp only [he]

/-- A write that is carried out is in the ledger as its answer says; one that fails comes while nothing
is changed. -/
theorem lands (w : Statement) (failure : Option Failure) (updated : List (Uuid × ExecutionChange))
    (s : Ledger) (hs : s.updated = updated) (hlands : Lands w failure s) :
    (Reasoning.Underway.answer perform refused w s failure).2.updated =
        turn updated w (Reasoning.Underway.answer perform refused w s failure).1 ∧
      (goesOn updated w (Reasoning.Underway.answer perform refused w s failure).1 ∨
        Unchanged (Reasoning.Underway.answer perform refused w s failure).2) := by
  subst hs
  cases w with
  | repair uid organizationId =>
      have hgoes : s.updated ≠ [] ∨ s.updated = [] := (em _).symm
      cases failure with
      | none => exact ⟨rfl, hgoes⟩
      | some e => exact ⟨rfl, hgoes⟩
  | update id change =>
      cases failure with
      | some e => exact ⟨rfl, .inr hlands⟩
      | none =>
          obtain ⟨hrow, hstored⟩ := hlands
          rw [Reasoning.Underway.answer, perform_update_of_row change hrow]
          cases hstore : storeExecution id change s.db with
          | ok db => exact ⟨rfl, .inl trivial⟩
          | error e =>
              rw [hstore] at hstored
              exact ⟨rfl, .inr (hstored.resolve_left Bool.false_ne_true)⟩

def pending (id itemId : Uuid) : Execution :=
  ⟨id, itemId, "Untested", none, none, none, none, none, none, none, 0, none, none, "manual", none⟩

def twoCases : Db :=
  { Db.empty with
    users := .singleton ⟨1, "ann@x.io", some 10⟩
    organizations := .singleton ⟨10, 0⟩
    organizationMembers := .singleton ⟨10, 1, "owner"⟩
    projects := .singleton ⟨100, some 10, "ONE", "", none⟩
    projectMembers := .singleton ⟨100, 1, "owner"⟩
    cycles := .singleton ⟨20, 100, none, "Nightly", none, none, none, none, none, "In Progress", none, none,
      none, none, none, 0, none⟩
    cycleItems := ⟨[⟨30, 20, 5, "ONE-TC-1", none⟩, ⟨31, 20, 6, "ONE-TC-2", none⟩], by decide⟩
    executions := ⟨[pending 40 30, pending 41 31], by decide⟩ }

/-- Both are marked as passed. -/
def passBoth : Bulk :=
  .status (.canonical 20) (some 1)
    ⟨[.canonical 40, .canonical 41], .value "Passed", .undefined⟩

/-- Nothing else happens: five statements of the call, and four for each result. -/
def quiet : List Happening := List.replicate 13 (.next none)

/-- A colleague takes a case out of the run. -/
def removed (id : Uuid) (db : Db) : Db :=
  { db with
    executions := db.executions.updateWhere (fun e ↦ e.id = id)
      (fun e ↦ { e with deletedAt := some db.now }) fun _ ↦ rfl }

/-- The second result goes after the first one has been changed. -/
def removedInBetween : List Happening :=
  List.replicate 9 (.next none) ++ [.other (removed 41), .next none]

theorem unchanged_of_failed {bulk : Bulk} {c : Underway} (h : AllOrNothing bulk c)
    (hfailed : c.rest.failed = true) : c.state.updated = [] := by
  obtain ⟨s, rest⟩ := c
  cases rest with
  | done outcome =>
      cases outcome with
      | ok _ => cases hfailed
      | error e => exact h
  | read next => cases hfailed
  | write w next => cases hfailed

end Tesbo.BulkResults
