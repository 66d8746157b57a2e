import Tesbo.Reasoning.Service
import Tesbo.Reasoning.Table

/-!
# The database and the values of a request

The columns the handlers below read or write, table by table, and the shapes in which a request
names an id or leaves a field out.  Ids are numbers; a text in a request is read as one or is not.
-/

namespace Tesbo

open Reasoning

abbrev Uuid := ℕ

abbrev Time := ℕ

/-! ## What a request carries -/

/-- A text where the program expects a uuid.  `isUuid` takes the first two; Postgres' cast also
takes texts `isUuid` does not match, such as one in braces. -/
inductive IdText where
  | canonical (id : Uuid)
  | recased (id : Uuid)
  | loose (id : Uuid)
  | word (text : String)
deriving DecidableEq, Repr

namespace IdText

def isUuid : IdText → Bool
  | canonical _ | recased _ => true
  | loose _ | word _ => false

/-- The cast `::uuid`; `none` is the error 22P02. -/
def uuid : IdText → Option Uuid
  | canonical id | recased id | loose id => some id
  | word _ => none

theorem uuid_of_isUuid {t : IdText} (h : t.isUuid = true) : ∃ id, t.uuid = some id := by
  cases t with
  | canonical id => exact ⟨id, rfl⟩
  | recased id => exact ⟨id, rfl⟩
  | loose id => cases h
  | word text => cases h

end IdText

/-- A field of a request body: left out, `null`, or a value. -/
inductive Arg (α : Type) where
  | undefined
  | null
  | value (a : α)
deriving DecidableEq, Repr

/-- The values `||` passes over. -/
class Falsy (α : Type) where
  falsy : α → Bool

instance : Falsy String := ⟨fun s ↦ s = ""⟩
instance : Falsy IdText := ⟨fun t ↦ t = .word ""⟩
instance : Falsy ℤ := ⟨fun n ↦ n = 0⟩
instance {α : Type} : Falsy (List α) := ⟨fun _ ↦ false⟩

namespace Arg

variable {α : Type}

/-- `x ?? null` -/
def nullish : Arg α → Option α
  | undefined | null => none
  | value a => some a

/-- `x || null` -/
def truthy [Falsy α] : Arg α → Option α
  | undefined | null => none
  | value a => if Falsy.falsy a then none else some a

/-- `x !== undefined` -/
def sent : Arg α → Bool
  | undefined => false
  | null | value _ => true

end Arg

/-- A JSON value where a text is expected. -/
inductive JsonText where
  | text (s : String)
  | other
deriving DecidableEq, Repr

/-! ## Failures -/

/-- The answers other than success: the HTTP exceptions with their `error` text, a 400 that also
names its `field`, and an error of the database by its SQLSTATE and constraint. -/
inductive Failure where
  | badRequest (error : String)
  | invalidField (error field : String)
  | unauthorized (error : String)
  | forbidden (error : String)
  | notFound (error : String)
  | conflict (error : String)
  | tooManyRequests (error : String)
  | serviceUnavailable (error : String)
  | sqlState (code : String) (constraint : String)
deriving DecidableEq, Repr

namespace Failure

def invalidUuid : Failure := sqlState "22P02" ""

def foreignKey (constraint : String) : Failure := sqlState "23503" constraint

def unique (constraint : String) : Failure := sqlState "23505" constraint

def check (constraint : String) : Failure := sqlState "23514" constraint

def outOfRange : Failure := sqlState "22003" ""

end Failure

/-! ## Rows -/

def daysIn (year month : ℕ) : ℕ :=
  if month = 2 then if year % 4 = 0 ∧ (year % 100 ≠ 0 ∨ year % 400 = 0) then 29 else 28
  else if month = 4 ∨ month = 6 ∨ month = 9 ∨ month = 11 then 30
  else 31

/-- A calendar day of the years four digits name, as in a `DATE` column. -/
structure Day where
  year : ℕ
  month : ℕ
  day : ℕ
  exists_day : year < 10000 ∧ 1 ≤ month ∧ month ≤ 12 ∧ 1 ≤ day ∧ day ≤ daysIn year month
deriving DecidableEq, Repr

namespace Day

/-- The day as the eight digits of `YYYY-MM-DD`; days are ordered as these are. -/
def number (d : Day) : ℕ := d.year * 10000 + d.month * 100 + d.day

instance : LE Day := ⟨fun a b ↦ a.number ≤ b.number⟩
instance : LT Day := ⟨fun a b ↦ a.number < b.number⟩

instance (a b : Day) : Decidable (a ≤ b) := inferInstanceAs (Decidable (a.number ≤ b.number))
instance (a b : Day) : Decidable (a < b) := inferInstanceAs (Decidable (a.number < b.number))

theorem le_of_not_lt {a b : Day} (h : ¬ a < b) : b ≤ a := Nat.le_of_not_lt h

end Day

structure User where
  id : Uuid
  email : String
  activeOrganizationId : Option Uuid
deriving DecidableEq, Repr

structure Organization where
  id : Uuid
  createdAt : Time
deriving DecidableEq, Repr

structure OrganizationMember where
  organizationId : Uuid
  userId : Uuid
  role : String
deriving DecidableEq, Repr

/-- `testcaseIdPrefix` is the entry of that name in `settings`, empty when there is none. -/
structure Project where
  id : Uuid
  organizationId : Option Uuid
  key : String
  testcaseIdPrefix : String
  archivedAt : Option Time
deriving DecidableEq, Repr

structure ProjectMember where
  projectId : Uuid
  userId : Uuid
  role : String
deriving DecidableEq, Repr

structure Invitation where
  id : Uuid
  organizationId : Uuid
  email : String
  role : String
  token : String
  invitedBy : Option Uuid
  status : String
  expiresAt : Time
  acceptedAt : Option Time
  cancelledAt : Option Time
  projectIds : List IdText
deriving DecidableEq, Repr

structure Suite where
  id : Uuid
  projectId : Uuid
  parentId : Option Uuid
  name : String
  description : String
  preconditions : String
  position : ℤ
  updatedAt : Time
  deletedAt : Option Time
  deletedBy : Option Uuid
deriving DecidableEq, Repr

structure Step where
  action : String
  expectedResult : String
deriving DecidableEq, Repr

/-- The text columns of `testcases`. -/
inductive TextColumn where
  | title | description | preconditions | postconditions | testData | priority | severity | type
  | automationStatus | automationRepo | automationPath | automationTestName
  | automationFramework | automationTags | component | status | jiraIssueKey | jiraUrl
  | linearIssueKey | linearUrl | attachments | estimatedDuration | notionPageId | notionUrl
deriving DecidableEq, Repr

structure Testcase where
  id : Uuid
  projectId : Uuid
  suiteId : Option Uuid
  externalId : String
  text : TextColumn → Option String
  steps : List Step
  ownerId : Option Uuid
  createdBy : Option Uuid
  updatedBy : Option Uuid
  updatedAt : Time
  deletedAt : Option Time
  deletedBy : Option Uuid

structure Plan where
  id : Uuid
  projectId : Uuid
  name : String
  description : Option String
  targetRelease : Option String
  ownerId : Option Uuid
  startDate : Option Day
  dueDate : Option Day
  updatedAt : Time
  deletedAt : Option Time
deriving DecidableEq, Repr

/-- A test run. -/
structure Cycle where
  id : Uuid
  projectId : Uuid
  planId : Option Uuid
  name : String
  description : Option String
  environment : Option String
  buildVersion : Option String
  releaseName : Option String
  ownerId : Option Uuid
  status : String
  startedAt : Option Time
  endedAt : Option Time
  startDate : Option Day
  dueDate : Option Day
  lastResultAt : Option Time
  updatedAt : Time
  deletedAt : Option Time
deriving DecidableEq, Repr

/-- `snapshotExternalId` is the copy of the case's id a run keeps. -/
structure CycleItem where
  id : Uuid
  cycleId : Uuid
  testcaseId : Uuid
  snapshotExternalId : String
  deletedAt : Option Time
deriving DecidableEq, Repr

/-- The result of one case of a run. -/
structure Execution where
  id : Uuid
  cycleItemId : Uuid
  status : String
  assigneeId : Option Uuid
  actualResult : Option String
  executedAt : Option Time
  executedBy : Option Uuid
  defectKey : Option String
  defectUrl : Option String
  durationMs : Option ℤ
  retryCount : ℤ
  errorMessage : Option String
  errorStack : Option String
  reportedBy : String
  deletedAt : Option Time
deriving DecidableEq, Repr

/-- The columns of `bugs` a body sets as a text. -/
inductive BugColumn where
  | title | description | externalUrl | status | severity | priority | integrationProvider
  | integrationIssueKey | betterbugsUrl
deriving DecidableEq, Repr

/-- `testcaseId`, `cycleId` and `executionId` are the first link as of the bug's creation. -/
structure Bug where
  id : Uuid
  projectId : Uuid
  externalId : String
  testcaseId : Option Uuid
  cycleId : Option Uuid
  executionId : Option Uuid
  text : BugColumn → Option String
  reportedBy : Option Uuid
  assigneeId : Option Uuid
  dueDate : Option Day
  updatedAt : Time
  deletedAt : Option Time

/-- What a bug was found in: a test case, a run, or both, and the result there. -/
structure BugLink where
  id : Uuid
  bugId : Uuid
  testcaseId : Option Uuid
  cycleId : Option Uuid
  executionId : Option Uuid
  deletedAt : Option Time
  deletedBy : Option Uuid
deriving DecidableEq, Repr

/-! ## The database -/

/-- The tables, the time of the statement, and the ids `gen_random_uuid` will hand out. -/
structure Db where
  now : Time
  uuids : ℕ → Uuid
  users : Table User.id
  organizations : Table Organization.id
  organizationMembers : Table fun m : OrganizationMember ↦ (m.organizationId, m.userId)
  projects : Table Project.id
  projectMembers : Table fun m : ProjectMember ↦ (m.projectId, m.userId)
  invitations : Table Invitation.id
  suites : Table Suite.id
  testcases : Table Testcase.id
  plans : Table Plan.id
  cycles : Table Cycle.id
  cycleItems : Table CycleItem.id
  executions : Table Execution.id
  bugs : Table Bug.id
  bugLinks : Table BugLink.id

def Db.empty : Db where
  now := 0
  uuids n := n
  users := .empty
  organizations := .empty
  organizationMembers := .empty
  projects := .empty
  projectMembers := .empty
  invitations := .empty
  suites := .empty
  testcases := .empty
  plans := .empty
  cycles := .empty
  cycleItems := .empty
  executions := .empty
  bugs := .empty
  bugLinks := .empty

abbrev Handler (α : Type) := Service Failure Db α

open Service

/-- The next id of the generator. -/
def genUuid : Handler Uuid := do
  let id ← query fun db ↦ db.uuids 0
  write fun db ↦ { db with uuids := fun n ↦ db.uuids (n + 1) }
  pure id

/-- A text bound to a uuid column or parameter. -/
def readUuid (t : IdText) : Except Failure Uuid := t.uuid.elim (.error .invalidUuid) .ok

/-- The same for a parameter that may be null. -/
def readUuid? : Option IdText → Except Failure (Option Uuid)
  | none => .ok none
  | some t => (readUuid t).map some

def castUuid (t : IdText) : Handler Uuid := ofExcept (readUuid t)

def castUuid? (t : Option IdText) : Handler (Option Uuid) := ofExcept (readUuid? t)

theorem readUuid_eq_ok {t : IdText} {id : Uuid} : readUuid t = .ok id ↔ t.uuid = some id := by
  unfold readUuid
  cases t.uuid with
  | none => simp
  | some id => simp

theorem readUuid?_eq_ok {t : Option IdText} {id : Option Uuid} :
    readUuid? t = .ok id ↔ t.map IdText.uuid = id.map some := by
  cases t with
  | none => cases id <;> simp [readUuid?]
  | some t => cases id <;> cases h : t.uuid <;> simp [readUuid?, readUuid, h, Except.map]

def references {α : Type} (row : Option α) (constraint : String) : Except Failure Unit :=
  if row.isNone then .error (.foreignKey constraint) else .ok ()

/-- The same for a column that may be null. -/
def references? {α : Type} (id : Option Uuid) (find : Uuid → Option α) (constraint : String) :
    Except Failure Unit :=
  id.elim (.ok ()) fun id ↦ references (find id) constraint

theorem references_eq_ok {α : Type} {row : Option α} {constraint : String}
    (h : references row constraint = .ok ()) : ∃ r, row = some r := by
  unfold references at h
  cases row with
  | none => cases h
  | some r => exact ⟨r, rfl⟩

theorem references?_eq_ok {α : Type} {id : Option Uuid} {find : Uuid → Option α}
    {constraint : String} (h : references? id find constraint = .ok ()) :
    ∀ i ∈ id, ∃ row, find i = some row := by
  rintro i rfl
  exact references_eq_ok h

section Rules

variable {E : Failure → Db → Prop} {db : Db}

@[simp] theorem wp_genUuid {Q : Uuid → Db → Prop} :
    wp genUuid Q E db ↔ Q (db.uuids 0) { db with uuids := fun n ↦ db.uuids (n + 1) } := by
  unfold genUuid
  simp only [wp_bind, wp_query, wp_write, wp_pure]

@[simp] theorem wp_castUuid {t : IdText} {Q : Uuid → Db → Prop} :
    wp (castUuid t) Q E db ↔
      (∀ id, t.uuid = some id → Q id db) ∧ ∀ e, readUuid t = .error e → E e db := by
  simp only [castUuid, wp_ofExcept, readUuid_eq_ok]

section Steps

variable {β : Type} {Q : β → Db → Prop}

theorem wp_castUuid_seq {t : IdText} {f : Uuid → Handler β} (hE : ∀ e, E e db)
    (hf : ∀ id, t.uuid = some id → wp (f id) Q E db) : wp (castUuid t >>= f) Q E db :=
  wp_ofExcept_seq hE fun id hid ↦ hf id (readUuid_eq_ok.mp hid)

theorem wp_castUuid?_seq {t : Option IdText} {f : Option Uuid → Handler β} (hE : ∀ e, E e db)
    (hf : ∀ id, t.map IdText.uuid = id.map some → wp (f id) Q E db) :
    wp (castUuid? t >>= f) Q E db :=
  wp_ofExcept_seq hE fun id hid ↦ hf id (readUuid?_eq_ok.mp hid)

end Steps

end Rules

/-! ## Rows in the words of the statements -/

def Suite.live (s : Suite) : Bool := s.deletedAt.isNone

def Testcase.live (t : Testcase) : Bool := t.deletedAt.isNone

def Plan.live (p : Plan) : Bool := p.deletedAt.isNone

def Cycle.live (c : Cycle) : Bool := c.deletedAt.isNone

def CycleItem.live (i : CycleItem) : Bool := i.deletedAt.isNone

def Execution.live (e : Execution) : Bool := e.deletedAt.isNone

def Bug.live (b : Bug) : Bool := b.deletedAt.isNone

def BugLink.live (l : BugLink) : Bool := l.deletedAt.isNone

end Tesbo
