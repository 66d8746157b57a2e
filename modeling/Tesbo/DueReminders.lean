import Tesbo.Text

/-!
# The due-date sweep

Reminders for test runs and test plans that are due tomorrow, due today or overdue.  A pass keeps no
record of whom it has told: it reads the open items, judges each by the day it is in the item's
workspace, and writes a notification under a key made of the item, its due date and the phase.
-/

namespace Tesbo

/-! ## Days by number -/

/-- The days of the year before its `month`, which is 13 for the days of the whole year. -/
def daysBeforeMonth (year : ℕ) : ℕ → ℕ
  | 0 | 1 => 0
  | month + 2 => daysBeforeMonth year (month + 1) + daysIn year (month + 1)

/-- The days of the years before `year`, from year 0. -/
def daysBeforeYear : ℕ → ℕ
  | 0 => 0
  | year + 1 => daysBeforeYear year + daysBeforeMonth year 13

/-- The day of the year, from 1. -/
def Day.ofYear (d : Day) : ℕ := daysBeforeMonth d.year d.month + d.day

/-- The days from 1970-01-01. -/
def Day.sinceEpoch (d : Day) : ℤ := ((daysBeforeYear d.year + d.ofYear : ℕ) : ℤ) - 719529

example : (Day.mk 1970 1 1 (by decide)).sinceEpoch = 0 := by decide +kernel

example : (Day.mk 2024 3 1 (by decide)).sinceEpoch = 19783 := by decide +kernel

namespace DueReminders

/-! ## Clocks -/

/-- Milliseconds from 1970-01-01, UTC. -/
abbrev Instant := ℤ

def hourMs : ℤ := 60 * 60 * 1000

def dayMs : ℤ := 24 * hourMs

/-- How far the clocks of a zone are ahead of UTC. -/
structure Offset where
  ms : ℤ
  bounds : -12 * hourMs ≤ ms ∧ ms ≤ 14 * hourMs

/-- What `Intl.DateTimeFormat` brings: the zones it knows, their offsets, the names of the months. -/
class Intl where
  knowsZone : String → Bool
  offsetAt : String → Instant → Offset
  shortMonth : ℕ → String

def defaultWorkspaceTimezone : String := "Asia/Kolkata"

/-- How many days before the due date the "due soon" notification goes out. -/
def dueSoonLeadDays : ℤ := 1

/-- Workspace-local hour from which reminders go out. -/
def dueDateNotifyFromHour : ℤ := 8

/-- How far back a missed due date is still announced. -/
def dueDateOverdueCatchupDays : ℤ := 14

inductive DuePhase where
  | dueSoon
  | dueToday
  | overdue
deriving DecidableEq, Repr

def DuePhase.name : DuePhase → String
  | .dueSoon => "due_soon"
  | .dueToday => "due_today"
  | .overdue => "overdue"

/-- Days are by number here, where the source has the texts `YYYY-MM-DD`. -/
def utcToday (now : Instant) : ℤ := now / dayMs

def addDays (day days : ℤ) : ℤ := day + days

def duePhase (dueDate : Option Day) (today : ℤ) : Option DuePhase :=
  match dueDate with
  | none => none
  | some due =>
      if due.sinceEpoch < today then some .overdue
      else if due.sinceEpoch = today then some .dueToday
      else if due.sinceEpoch ≤ addDays today dueSoonLeadDays then some .dueSoon
      else none

section
variable [Intl]

def isValidTimezone (zone : String) : Bool := jsTrim zone ≠ "" && Intl.knowsZone zone

def resolvedZone (zone : String) : String :=
  if isValidTimezone zone then zone else defaultWorkspaceTimezone

/-- The clock of a zone, as if it were a UTC clock. -/
def localClock (zone : String) (now : Instant) : ℤ :=
  now + (Intl.offsetAt (resolvedZone zone) now).ms

def todayIn (zone : String) (now : Instant) : ℤ := localClock zone now / dayMs

def hourIn (zone : String) (now : Instant) : ℤ := localClock zone now % dayMs / hourMs

/-- "25 Oct 2026" -/
def formatDay (day : Day) : String :=
  let d := toString day.day
  let padded := if day.day < 10 then "0" ++ d else d
  s!"{padded} {Intl.shortMonth day.month} {day.year}"

end

/-! ## Rows -/

inductive Kind where
  | run
  | plan
deriving DecidableEq, Repr

structure Cycle where
  id : Uuid
  projectId : Uuid
  planId : Option Uuid
  name : String
  externalId : Option String
  status : String
  ownerId : Option Uuid
  dueDate : Option Day
  deletedAt : Option Time
deriving DecidableEq, Repr

structure Plan where
  id : Uuid
  projectId : Uuid
  name : String
  externalId : Option String
  ownerId : Option Uuid
  dueDate : Option Day
  deletedAt : Option Time
deriving DecidableEq, Repr

structure Project where
  id : Uuid
  name : String
  organizationId : Option Uuid
  archivedAt : Option Time
deriving DecidableEq, Repr

structure Organization where
  id : Uuid
  timezone : Option String
deriving DecidableEq, Repr

structure CycleItem where
  id : Uuid
  cycleId : Uuid
  deletedAt : Option Time
deriving DecidableEq, Repr

structure Execution where
  cycleItemId : Uuid
  assigneeId : Option Uuid
  status : String
  deletedAt : Option Time
deriving DecidableEq, Repr

structure ProjectMember where
  projectId : Uuid
  userId : Uuid
  role : String
deriving DecidableEq, Repr

structure Db where
  users : List Uuid
  cycles : List Cycle
  plans : List Plan
  projects : List Project
  organizations : List Organization
  cycleItems : List CycleItem
  executions : List Execution
  projectMembers : List ProjectMember

structure DueItem where
  kind : Kind
  id : Uuid
  name : String
  externalId : Option String
  status : String
  ownerId : Option Uuid
  projectId : Uuid
  projectName : String
  dueDate : Day
  timezone : String
deriving DecidableEq, Repr

/-! ## The open items -/

/-- The two joins: a project that is not archived, and its workspace. -/
def homes (db : Db) (projectId : Uuid) : List (Project × Organization) :=
  (db.projects.filter fun p ↦ p.id = projectId ∧ p.archivedAt = none).flatMap fun p ↦
    (db.organizations.filter fun o ↦ p.organizationId = some o.id).map fun o ↦ (p, o)

/-- `cycles r` with `r.plan_id = pl.id AND r.deleted_at IS NULL` -/
def runsOf (db : Db) (planId : Uuid) : List Cycle :=
  db.cycles.filter fun r ↦ r.planId = some planId ∧ r.deletedAt = none

def runItem (c : Cycle) (due : Day) (home : Project × Organization) : DueItem where
  kind := .run
  id := c.id
  name := c.name
  externalId := c.externalId
  status := c.status
  ownerId := c.ownerId
  projectId := c.projectId
  projectName := home.1.name
  dueDate := due
  timezone := home.2.timezone.getD defaultWorkspaceTimezone

def planItem (runs : List Cycle) (pl : Plan) (due : Day) (home : Project × Organization) :
    DueItem where
  kind := .plan
  id := pl.id
  name := pl.name
  externalId := pl.externalId
  status := if runs.isEmpty then "Draft" else "Active"
  ownerId := pl.ownerId
  projectId := pl.projectId
  projectName := home.1.name
  dueDate := due
  timezone := home.2.timezone.getD defaultWorkspaceTimezone

/-- `due_date BETWEEN $1 AND $2`, a day wider on each side than the days that are asked for. -/
def InWindow (now : Instant) (due : Day) : Prop :=
  addDays (utcToday now) (-(dueDateOverdueCatchupDays + 1)) ≤ due.sinceEpoch ∧
    due.sinceEpoch ≤ addDays (utcToday now) 2

instance (now : Instant) (due : Day) : Decidable (InWindow now due) :=
  inferInstanceAs (Decidable (_ ∧ _))

/-- The query for the runs. -/
def loadOpenRuns (db : Db) (now : Instant) : List DueItem :=
  (db.cycles.filter fun c ↦ c.deletedAt = none ∧ c.status ≠ "Completed").flatMap fun c ↦
    (c.dueDate.toList.filter fun due ↦ InWindow now due).flatMap fun due ↦
      (homes db c.projectId).map (runItem c due)

/-- The query for the plans. -/
def loadOpenPlans (db : Db) (now : Instant) : List DueItem :=
  (db.plans.filter fun pl ↦ pl.deletedAt = none ∧
      ¬ ((∃ r ∈ runsOf db pl.id, True) ∧
        ¬ ∃ r ∈ runsOf db pl.id, r.status ≠ "Completed")).flatMap fun pl ↦
    (pl.dueDate.toList.filter fun due ↦ InWindow now due).flatMap fun due ↦
      (homes db pl.projectId).map (planItem (runsOf db pl.id) pl due)

def loadOpenItems (db : Db) (now : Instant) : List DueItem :=
  loadOpenRuns db now ++ loadOpenPlans db now

/-! ## Notifications -/

/-- The texts that notifications are told apart by.  A reminder's is `due:kind:id:dueDate:phase`. -/
inductive DedupeKey where
  | due (kind : Kind) (id : Uuid) (dueDate : Day) (phase : DuePhase)
  | other (text : String)
deriving DecidableEq, Repr

/-- A link's ids stand for their texts, joined by `:`. -/
structure Notification where
  userId : Uuid
  type : String
  title : String
  linkEntityType : Option String
  linkEntityId : Option (List Uuid)
  dedupeKey : Option DedupeKey
  body : Option String
deriving DecidableEq, Repr

/-- The unique index on `(user_id, dedupe_key)` takes the two for one. -/
def Notification.SameAs (a b : Notification) : Prop :=
  a.dedupeKey.isSome ∧ a.userId = b.userId ∧ a.dedupeKey = b.dedupeKey

instance (a b : Notification) : Decidable (a.SameAs b) :=
  inferInstanceAs (Decidable (_ ∧ _ ∧ _))

/-- The notifications, under their unique index. -/
structure Inbox where
  rows : List Notification
  unique : rows.Pairwise fun a b ↦ ¬ a.SameAs b

theorem pairwise_concat {rows : List Notification} {n : Notification}
    (h : rows.Pairwise fun a b ↦ ¬ a.SameAs b) (hn : ¬ ∃ m ∈ rows, m.SameAs n) :
    (rows ++ [n]).Pairwise fun a b ↦ ¬ a.SameAs b := by
  rw [List.pairwise_append]
  refine ⟨h, List.pairwise_singleton _ n, ?_⟩
  intro m hm n' hn' hsame
  rw [List.mem_singleton.mp hn'] at hsame
  exact hn ⟨m, hm, hsame⟩

/-- `INSERT … ON CONFLICT (user_id, dedupe_key) WHERE dedupe_key IS NOT NULL DO NOTHING` -/
def Inbox.insert (inbox : Inbox) (n : Notification) : Inbox :=
  if h : ∃ m ∈ inbox.rows, m.SameAs n then inbox
  else ⟨inbox.rows ++ [n], pairwise_concat inbox.unique h⟩

def Inbox.insertAll (inbox : Inbox) (ns : List Notification) : Inbox :=
  ns.foldl Inbox.insert inbox

def titleMax : ℕ := 255

def clipNotificationTitle (message : String) : String :=
  if jsLength message ≤ titleMax then message else jsSlice (titleMax - 1) message ++ "…"

def runLabel (name : String) (externalId : Option String) : String :=
  let id := jsTrim (externalId.getD "")
  if id = "" then name else s!"{id} ({name})"

def types (kind : Kind) (phase : DuePhase) : String :=
  match kind with
  | .run => "test_run_" ++ phase.name
  | .plan => "test_plan_" ++ phase.name

def dueReminder (what name : String) : DuePhase → String
  | .dueSoon => s!"{what} {name} is due tomorrow."
  | .dueToday => s!"{what} {name} is due today."
  | .overdue => s!"{what} {name} is overdue."

def dueReminderBody (projectName dueDay status : String) : String :=
  s!"Project: {projectName} · Due: {dueDay} · Status: {status}"

def dueKey (item : DueItem) (phase : DuePhase) : DedupeKey :=
  .due item.kind item.id item.dueDate phase

/-- The row that `notify` has written for one user. -/
def reminder [Intl] (item : DueItem) (phase : DuePhase) (userId : Uuid) : Notification where
  userId := userId
  type := types item.kind phase
  title := clipNotificationTitle (match item.kind with
    | .run => dueReminder "Test run" (runLabel item.name item.externalId) phase
    | .plan => dueReminder "Test plan" item.name phase)
  linkEntityType := some (match item.kind with
    | .run => "test_run"
    | .plan => "test_plan")
  linkEntityId := some [item.projectId, item.id]
  dedupeKey := some (dueKey item phase)
  body :=
    let body := jsTrim (dueReminderBody item.projectName (formatDay item.dueDate) item.status)
    if body = "" then none else some body

/-- Whoever still has an unfinished case of the run. -/
def assignees (db : Db) (runId : Uuid) : List Uuid :=
  (db.executions.filter fun e ↦ e.status ∈ ["Untested", "Retest", "Blocked"] ∧ e.deletedAt = none ∧
      ∃ ci ∈ db.cycleItems, ci.id = e.cycleItemId ∧ ci.cycleId = runId ∧ ci.deletedAt = none).filterMap
    (·.assigneeId)

def recipients (db : Db) (item : DueItem) : List Uuid :=
  let named := item.ownerId.toList ++ match item.kind with
    | .run => assignees db item.id
    | .plan => []
  let owners := (db.projectMembers.filter fun m ↦
    m.projectId = item.projectId ∧ m.role = "owner").map (·.userId)
  (if named = [] then owners else named).eraseDups

/-- The recipients who are members of the project. -/
def memberRecipients (db : Db) (item : DueItem) : List Uuid :=
  db.users.filter fun u ↦ u ∈ recipients db item ∧
    ∃ m ∈ db.projectMembers, m.userId = u ∧ m.projectId = item.projectId

def notify [Intl] (db : Db) (inbox : Inbox) (item : DueItem) (phase : DuePhase) : Inbox :=
  inbox.insertAll ((memberRecipients db item).map (reminder item phase))

/-! ## A pass -/

/-- The phase an item is announced under on a day, if any. -/
def announced (dueDate : Day) (today : ℤ) : Option DuePhase :=
  match duePhase (some dueDate) today with
  | some .overdue =>
      if dueDate.sinceEpoch < addDays today (-dueDateOverdueCatchupDays) then none
      else some .overdue
  | phase => phase

/-- The phase the loop notifies about, where it does not go on to the next item. -/
def phaseToNotify [Intl] (item : DueItem) (now : Instant) : Option DuePhase :=
  if hourIn (resolvedZone item.timezone) now < dueDateNotifyFromHour then none
  else announced item.dueDate (todayIn (resolvedZone item.timezone) now)

structure Summary where
  scanned : ℕ
  notifiedItems : ℕ
  notificationRows : ℕ
  failures : ℕ
deriving DecidableEq, Repr

/-- A call of `run` under way: what it has loaded and not yet looked at. -/
structure Pass where
  now : Instant
  plansLoaded : Bool
  items : List DueItem
  summary : Summary

/-- How the statements for one item go: a failure to read the recipients is counted, a failure to
write is logged and counts as no rows. -/
inductive Outcome where
  | done
  | recipientsFail
  | insertFails
deriving DecidableEq, Repr

def Summary.add (s : Summary) (rows : ℕ) : Summary :=
  { s with
    notifiedItems := if 0 < rows then s.notifiedItems + 1 else s.notifiedItems
    notificationRows := s.notificationRows + rows }

/-- One turn of the loop of `run`. -/
def turn [Intl] (db : Db) (inbox : Inbox) (p : Pass) (item : DueItem) (outcome : Outcome) :
    Inbox × Summary :=
  match phaseToNotify item p.now with
  | none => (inbox, p.summary)
  | some phase =>
      match outcome with
      | .recipientsFail => (inbox, { p.summary with failures := p.summary.failures + 1 })
      | .insertFails => (inbox, p.summary)
      | .done =>
          let after := notify db inbox item phase
          (after, p.summary.add (after.rows.length - inbox.rows.length))

/-! ## Passes among other writes -/

structure World where
  db : Db
  inbox : Inbox
  passes : ℕ → Option Pass

inductive Event where
  /-- The pass numbered `k` begins, and loads the runs. -/
  | start (k : ℕ) (now : Instant)
  | loadPlans (k : ℕ)
  /-- The loop of the pass takes its next turn. -/
  | next (k : ℕ) (outcome : Outcome)
  | setDueDate (kind : Kind) (id : Uuid) (dueDate : Option Day)
  /-- Any other write of the tables. -/
  | edit (db : Db)
  /-- Any other notification. -/
  | notification (n : Notification)

def Db.setDueDate (db : Db) (kind : Kind) (id : Uuid) (dueDate : Option Day) : Db :=
  match kind with
  | .run => { db with
      cycles := db.cycles.map fun c ↦ if c.id = id then { c with dueDate := dueDate } else c }
  | .plan => { db with
      plans := db.plans.map fun pl ↦ if pl.id = id then { pl with dueDate := dueDate } else pl }

/-- The pass once its plans are loaded. -/
def Pass.withPlans (p : Pass) (plans : List DueItem) : Pass :=
  { p with
    plansLoaded := true
    items := p.items ++ plans
    summary := { p.summary with scanned := (p.items ++ plans).length } }

/-- A number that has been used stays used. -/
def step [Intl] (w : World) : Event → World
  | .start k now =>
      match w.passes k with
      | some _ => w
      | none => { w with
          passes := Function.update w.passes k
            (some ⟨now, false, loadOpenRuns w.db now, ⟨0, 0, 0, 0⟩⟩) }
  | .loadPlans k =>
      match w.passes k with
      | some ⟨now, false, items, summary⟩ => { w with
          passes := Function.update w.passes k
            (some (Pass.withPlans ⟨now, false, items, summary⟩ (loadOpenPlans w.db now))) }
      | _ => w
  | .next k outcome =>
      match w.passes k with
      | some ⟨now, true, item :: items, summary⟩ =>
          let after := turn w.db w.inbox ⟨now, true, item :: items, summary⟩ item outcome
          { w with
            inbox := after.1
            passes := Function.update w.passes k (some ⟨now, true, items, after.2⟩) }
      | _ => w
  | .setDueDate kind id dueDate => { w with db := w.db.setDueDate kind id dueDate }
  | .edit db => { w with db := db }
  | .notification n => { w with inbox := w.inbox.insert n }

def runAll [Intl] (w : World) (es : List Event) : World := es.foldl step w

/-- No pass has begun. -/
def idle (db : Db) (inbox : Inbox) : World := ⟨db, inbox, fun _ ↦ none⟩

end DueReminders

end Tesbo
