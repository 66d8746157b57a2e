import Tesbo.AccessSteps
import Tesbo.DueDates

/-!
# The schedules of plans and test runs

Creating and updating a plan or a run, statement by statement: between two statements of one call
any statement of another may come.  An update reads the stored dates in one statement and writes
the ones its body names in a later one, which the table's constraint may refuse.
-/

namespace Tesbo.Schedules

open Reasoning Proc Steps

/-! ## Plans -/

structure NewPlan where
  projectId : Uuid
  name : String
  description : String
  targetRelease : Option String
  ownerId : Option IdText
  startDate : Option Day
  dueDate : Option Day
deriving DecidableEq, Repr

structure PlanChange where
  name : Option String
  description : Option String
  targetRelease : Option String
  dates : DateChange
deriving DecidableEq, Repr

/-- `CHECK (due_date IS NULL OR start_date IS NULL OR due_date >= start_date)`. -/
def dueNotBeforeStart (constraint : String) (startDate dueDate : Option Day) :
    Except Failure Unit :=
  if Inverted startDate dueDate then .error (.check constraint) else .ok ()

def planConstraint : String := "plans_due_not_before_start"

/-- `INSERT INTO plans … RETURNING *`. -/
def storePlan (new : NewPlan) (db : Db) : Except Failure (Plan × Db) := do
  let ownerId ← readUuid? new.ownerId
  let name ← varchar 255 new.name
  let targetRelease ← varchar? 128 new.targetRelease
  let plan : Plan :=
    ⟨db.uuids 0, new.projectId, name, some new.description, targetRelease, ownerId, new.startDate,
      new.dueDate, db.now, none⟩
  dueNotBeforeStart planConstraint plan.startDate plan.dueDate
  references (db.projects.find plan.projectId) "plans_project_id_fkey"
  references? plan.ownerId db.users.find "plans_owner_id_fkey"
  match db.plans.insert plan with
  | none => .error (.unique "plans_pkey")
  | some plans => .ok (plan, { db with plans := plans, uuids := fun n ↦ db.uuids (n + 1) })

/-- The row the `UPDATE` makes of a plan. -/
def PlanChange.apply (c : PlanChange) (now : Time) (plan : Plan) : Except Failure Plan := do
  let name ← varchar 255 (c.name.getD plan.name)
  let targetRelease ← varchar? 128 (c.targetRelease.or plan.targetRelease)
  let plan : Plan :=
    { plan with
      name := name
      description := c.description.or plan.description
      targetRelease := targetRelease
      startDate := c.dates.start plan.startDate
      dueDate := c.dates.due plan.dueDate
      updatedAt := now }
  dueNotBeforeStart planConstraint plan.startDate plan.dueDate
  .ok plan

def storePlanChange (id : Uuid) (c : PlanChange) (db : Db) : Except Failure Db :=
  match db.plans.find id with
  | none => .ok db
  | some plan => do
      let plan ← c.apply db.now plan
      .ok { db with
        plans := db.plans.updateWhere (fun p ↦ p.id = id) (fun p ↦ { plan with id := p.id })
          fun _ ↦ rfl }

/-! ## Runs -/

structure NewCycle where
  projectId : Uuid
  planId : Option IdText
  name : String
  description : String
  environment : Option String
  buildVersion : Option String
  releaseName : Option String
  ownerId : Option IdText
  startDate : Option Day
  dueDate : Option Day
deriving DecidableEq, Repr

structure CycleChange where
  name : Option String
  description : Option String
  environment : Option String
  buildVersion : Option String
  releaseName : Option String
  clearPlan : Bool
  planId : Option IdText
  status : Option String
  dates : DateChange
deriving DecidableEq, Repr

def cycleConstraint : String := "cycles_due_not_before_start"

/-- `INSERT INTO cycles … RETURNING *`. -/
def storeCycle (new : NewCycle) (db : Db) : Except Failure (Cycle × Db) := do
  let planId ← readUuid? new.planId
  let ownerId ← readUuid? new.ownerId
  let name ← varchar 255 new.name
  let environment ← varchar? 128 new.environment
  let buildVersion ← varchar? 128 new.buildVersion
  let releaseName ← varchar? 128 new.releaseName
  let cycle : Cycle :=
    { id := db.uuids 0, projectId := new.projectId, planId := planId, name := name
      description := some new.description, environment := environment
      buildVersion := buildVersion, releaseName := releaseName, ownerId := ownerId
      status := "Planning", startedAt := none, endedAt := none, startDate := new.startDate
      dueDate := new.dueDate, lastResultAt := none, updatedAt := db.now, deletedAt := none }
  dueNotBeforeStart cycleConstraint cycle.startDate cycle.dueDate
  references (db.projects.find cycle.projectId) "cycles_project_id_fkey"
  references? cycle.planId db.plans.find "cycles_plan_id_fkey"
  references? cycle.ownerId db.users.find "cycles_owner_id_fkey"
  match db.cycles.insert cycle with
  | none => .error (.unique "cycles_pkey")
  | some cycles => .ok (cycle, { db with cycles := cycles, uuids := fun n ↦ db.uuids (n + 1) })

/-- The row the `UPDATE` makes of a run: a status starts or stops its clock. -/
def CycleChange.apply (c : CycleChange) (planId : Option Uuid) (now : Time) (cycle : Cycle) :
    Except Failure Cycle := do
  let name ← varchar 255 (c.name.getD cycle.name)
  let environment ← varchar? 128 (c.environment.or cycle.environment)
  let buildVersion ← varchar? 128 (c.buildVersion.or cycle.buildVersion)
  let releaseName ← varchar? 128 (c.releaseName.or cycle.releaseName)
  let status ← varchar 32 (c.status.getD cycle.status)
  let cycle : Cycle :=
    { cycle with
      name := name
      description := c.description.or cycle.description
      environment := environment
      buildVersion := buildVersion
      releaseName := releaseName
      planId := if c.clearPlan then none else planId.or cycle.planId
      status := status
      startedAt :=
        if c.status = some "In Progress" ∨ c.status = some "Completed"
        then cycle.startedAt.or (some now) else cycle.startedAt
      endedAt :=
        if c.status = some "Completed" then some now
        else if c.status = some "In Progress" ∨ c.status = some "Planning" then none
        else cycle.endedAt
      startDate := c.dates.start cycle.startDate
      dueDate := c.dates.due cycle.dueDate
      updatedAt := now }
  dueNotBeforeStart cycleConstraint cycle.startDate cycle.dueDate
  .ok cycle

def storeCycleChange (id : Uuid) (c : CycleChange) (db : Db) : Except Failure Db := do
  let planId ← readUuid? c.planId
  match db.cycles.find id with
  | none => .ok db
  | some cycle => do
      let cycle ← c.apply planId db.now cycle
      references? cycle.planId db.plans.find "cycles_plan_id_fkey"
      .ok { db with
        cycles := db.cycles.updateWhere (fun r ↦ r.id = id) (fun r ↦ { cycle with id := r.id })
          fun _ ↦ rfl }

/-! ## Statements -/

inductive Write where
  | setActiveOrganization (uid organizationId : Uuid)
  | insertPlan (new : NewPlan)
  | updatePlan (id : Uuid) (change : PlanChange)
  | insertCycle (new : NewCycle)
  | updateCycle (id : Uuid) (change : CycleChange)
  | elapse (time : Time)

@[reducible] def Reply : Write → Type
  | .insertPlan _ => Plan
  | .insertCycle _ => Cycle
  | _ => Unit

def perform : (w : Write) → Handler (Reply w)
  | .setActiveOrganization uid organizationId =>
      Service.write (setActiveOrganization uid organizationId)
  | .insertPlan new => Service.returning (storePlan new)
  | .updatePlan id change => Service.exec (storePlanChange id change)
  | .insertCycle new => Service.returning (storeCycle new)
  | .updateCycle id change => Service.exec (storeCycleChange id change)
  | .elapse time => Service.write fun db ↦ { db with now := db.now + time }

instance : Backed Db Reply := ⟨id, .setActiveOrganization⟩

abbrev Procedure (α : Type) := Proc Db Reply Failure α

abbrev ask (w : Write) : Procedure (Reply w) := issue w

/-! ## Handlers -/

structure PlanBody where
  name : Arg String
  description : Arg String
  targetRelease : Arg String
  ownerId : Arg IdText
  startDate : DateArg
  dueDate : DateArg

structure CycleBody where
  name : Arg String
  description : Arg String
  environment : Arg String
  buildVersion : Arg String
  releaseName : Arg String
  planId : Arg IdText
  clearPlan : Bool
  ownerId : Arg IdText
  status : Arg JsonText
  startDate : DateArg
  dueDate : DateArg

def planNameMaxLength : ℕ := 255
def planTargetReleaseMaxLength : ℕ := 128
def cycleNameMaxLength : ℕ := 255
def cycleLabelMaxLength : ℕ := 128

def PlanBody.validate (body : PlanBody) : Except Failure Unit := do
  validateBoundedField body.name.nullish "Plan name" planNameMaxLength
  validateBoundedField body.targetRelease.nullish "Target release" planTargetReleaseMaxLength

def CycleBody.validate (body : CycleBody) : Except Failure Unit := do
  validateBoundedField body.name.nullish "Test run name" cycleNameMaxLength
  validateBoundedField body.environment.nullish "Environment" cycleLabelMaxLength
  validateBoundedField body.buildVersion.nullish "Build version" cycleLabelMaxLength
  validateBoundedField body.releaseName.nullish "Release name" cycleLabelMaxLength

/-- The project of a live row the caller may reach. -/
def requireRowAccess (userId : Option Uuid) (id : IdText) (project : Uuid → Db → Option Uuid)
    (missing : Failure) : Procedure Uuid := do
  let uid ← Steps.requireUser userId
  require (id.isUuid = true) missing
  let id ← ofExcept (readUuid id)
  let projectId ← found (project id) missing
  let _ ← Steps.requireProjectAccess (some uid) (.canonical projectId)
  pure projectId

def requirePlanAccess (userId : Option Uuid) (planId : IdText) : Procedure Uuid :=
  requireRowAccess userId planId
    (fun id db ↦ ((db.plans.find id).filter Plan.live).map Plan.projectId)
    (.notFound "Plan not found")

def requireCycleAccess (userId : Option Uuid) (cycleId : IdText) : Procedure Uuid :=
  requireRowAccess userId cycleId
    (fun id db ↦ ((db.cycles.find id).filter Cycle.live).map Cycle.projectId)
    (.notFound "Cycle not found")

section Handlers

variable [Calendar]

def createPlan (userId : Option Uuid) (projectId : IdText) (body : PlanBody) :
    Procedure Plan := do
  let access ← Steps.requireProjectAccess userId projectId
  ofExcept body.validate
  let today ← select (Calendar.todayIn access.project.id)
  let dates ← ofExcept (datesOfNew body.startDate body.dueDate today)
  ask (.insertPlan
    { projectId := access.project.id
      name := body.name.truthy.getD "Untitled plan"
      description := body.description.truthy.getD ""
      targetRelease := body.targetRelease.truthy
      ownerId := body.ownerId.truthy
      startDate := dates.1
      dueDate := dates.2 })

/-- The stored dates, read only when the body names one of them. -/
def currentDates (startDate dueDate : DateArg) (dates : Db → Option (Option Day × Option Day)) :
    Procedure (Option Day × Option Day) :=
  if startDate.sent || dueDate.sent then select fun db ↦ (dates db).getD (none, none)
  else pure (none, none)

def updatePlan (userId : Option Uuid) (planId : IdText) (body : PlanBody) :
    Procedure Unit := do
  let projectId ← requirePlanAccess userId planId
  let id ← ofExcept (readUuid planId)
  ofExcept body.validate
  let current ← currentDates body.startDate body.dueDate fun db ↦
    (db.plans.find id).map fun p ↦ (p.startDate, p.dueDate)
  let today ← select (Calendar.todayIn projectId)
  let dates ← ofExcept (resolveDateChange body.startDate body.dueDate current today)
  ask (.updatePlan id
    { name := body.name.truthy
      description := body.description.truthy
      targetRelease := body.targetRelease.truthy
      dates := dates })

/-- The insert itself, without a check of the caller. -/
def createCycle (projectId : Uuid) (body : CycleBody) : Procedure Cycle := do
  ofExcept body.validate
  let today ← select (Calendar.todayIn projectId)
  let dates ← ofExcept (datesOfNew body.startDate body.dueDate today)
  ask (.insertCycle
    { projectId := projectId
      planId := body.planId.truthy
      name := body.name.truthy.getD "Untitled cycle"
      description := body.description.truthy.getD ""
      environment := body.environment.truthy
      buildVersion := body.buildVersion.truthy
      releaseName := body.releaseName.truthy
      ownerId := body.ownerId.truthy
      startDate := dates.1
      dueDate := dates.2 })

def createCycleForUser (userId : Option Uuid) (projectId : IdText) (body : CycleBody) :
    Procedure Cycle := do
  let access ← Steps.requireProjectAccess userId projectId
  createCycle access.project.id body

/-- `typeof body.status === "string" ? body.status : null` -/
def CycleBody.statusText (body : CycleBody) : Option String :=
  match body.status with
  | .value (.text status) => some status
  | _ => none

/-- A run is not started or completed before it has a case. -/
def requireItems (id : Uuid) (status : Option String) : Procedure Unit :=
  if status = some "In Progress" ∨ status = some "Completed" then
    check fun db ↦
      if ∃ item ∈ db.cycleItems, item.cycleId = id ∧ item.live = true then .ok ()
      else .error (.badRequest "Add at least one test case before starting or completing a run")
  else pure ()

def updateCycle (userId : Option Uuid) (cycleId : IdText) (body : CycleBody) :
    Procedure Unit := do
  let projectId ← requireCycleAccess userId cycleId
  let id ← ofExcept (readUuid cycleId)
  ofExcept body.validate
  let current ← currentDates body.startDate body.dueDate fun db ↦
    (db.cycles.find id).map fun c ↦ (c.startDate, c.dueDate)
  let today ← select (Calendar.todayIn projectId)
  let dates ← ofExcept (resolveDateChange body.startDate body.dueDate current today)
  requireItems id body.statusText
  ask (.updateCycle id
    { name := body.name.truthy
      description := body.description.truthy
      environment := body.environment.truthy
      buildVersion := body.buildVersion.truthy
      releaseName := body.releaseName.truthy
      clearPlan := body.clearPlan
      planId := body.planId.truthy
      status := body.statusText
      dates := dates })

/-! ## Calls in any interleaving -/

inductive Call where
  | createPlan (userId : Option Uuid) (projectId : IdText) (body : PlanBody)
  | updatePlan (userId : Option Uuid) (planId : IdText) (body : PlanBody)
  | createCycle (projectId : Uuid) (body : CycleBody)
  | createCycleForUser (userId : Option Uuid) (projectId : IdText) (body : CycleBody)
  | updateCycle (userId : Option Uuid) (cycleId : IdText) (body : CycleBody)
  | elapse (time : Time)

/-- A call runs for its effect and its answer's status. -/
def answered {α : Type} (p : Procedure α) : Procedure Unit := do
  let _ ← p
  pure ()

def enter : Call → Procedure Unit
  | .createPlan userId projectId body => answered (Schedules.createPlan userId projectId body)
  | .updatePlan userId planId body => Schedules.updatePlan userId planId body
  | .createCycle projectId body => answered (Schedules.createCycle projectId body)
  | .createCycleForUser userId projectId body =>
      answered (Schedules.createCycleForUser userId projectId body)
  | .updateCycle userId cycleId body => Schedules.updateCycle userId cycleId body
  | .elapse time => ask (.elapse time)

abbrev Run := Config Db (Procedure Unit)

def step (c : Run) (m : Move Call) : Run := c.move enter (fun _ ↦ Proc.exec perform) m

/-- A move does nothing to the database, or what its write does. -/
theorem step_cases (c : Run) (m : Move Call) :
    (moving c m = none ∧ (step c m).shared = c.shared) ∨
      ∃ w, moving c m = some w ∧ (step c m).shared = Service.after (perform w) c.shared :=
  move_cases c m

end Handlers

end Tesbo.Schedules
