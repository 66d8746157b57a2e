import Tesbo.Text

/-!
# Start and due dates

The rules a request's two dates are checked by, before anything is stored.  A date is a calendar
day; a text that is not `YYYY-MM-DD`, or names no day of the calendar, is refused.
-/

namespace Tesbo

open Reasoning

/-- The number a list of decimal digits spells. -/
def readDigits (cs : List Char) : Option ℕ :=
  cs.foldlM (fun n c ↦ if '0' ≤ c ∧ c ≤ '9' then some (10 * n + (c.toNat - 48)) else none) 0

/-- The day a text names.  A year below 100 is none: `Date.UTC` takes it for one of the 1900s. -/
def readDay (text : String) : Option Day :=
  match text.toList with
  | [y₁, y₂, y₃, y₄, '-', m₁, m₂, '-', d₁, d₂] => do
      let year ← readDigits [y₁, y₂, y₃, y₄]
      let month ← readDigits [m₁, m₂]
      let day ← readDigits [d₁, d₂]
      if h : year < 10000 ∧ 1 ≤ month ∧ month ≤ 12 ∧ 1 ≤ day ∧ day ≤ daysIn year month then
        if 100 ≤ year then some ⟨year, month, day, h⟩ else none
      else none
  | _ => none

/-- A date field of a body: left out, `null`, a text, or something else. -/
abbrev DateArg := Arg JsonText

def parseDay (value : DateArg) (field label : String) : Except Failure (Option Day) :=
  match value with
  | .undefined | .null | .value (.text "") => .ok none
  | .value json =>
      let text := match json with
        | .text s => jsTrim s
        | .other => ""
      match readDay text with
      | some day => .ok (some day)
      | none => .error (.invalidField s!"{label} must be a valid date in YYYY-MM-DD format" field)

/-- `dueDate < startDate` where both are set. -/
def Inverted (startDate dueDate : Option Day) : Prop :=
  ∃ start ∈ startDate, ∃ due ∈ dueDate, due < start

instance (startDate dueDate : Option Day) : Decidable (Inverted startDate dueDate) :=
  inferInstanceAs (Decidable (∃ start ∈ startDate, ∃ due ∈ dueDate, due < start))

def assertDateRange (startDate dueDate : Option Day) : Except Failure Unit :=
  if Inverted startDate dueDate
  then .error (.invalidField "Due date cannot be earlier than the start date" "dueDate")
  else .ok ()

def assertStartNotInPast (startDate : Option Day) (today : Day) : Except Failure Unit :=
  if ∃ start ∈ startDate, start < today
  then .error (.invalidField "Start date cannot be earlier than today" "startDate")
  else .ok ()

/-- The two dates of a new plan or run: it starts today unless the body names a day. -/
def datesOfNew (startDate dueDate : DateArg) (today : Day) :
    Except Failure (Option Day × Option Day) := do
  let start := (← parseDay startDate "startDate" "Start date").getD today
  assertStartNotInPast (some start) today
  let due ← parseDay dueDate "dueDate" "Due date"
  assertDateRange (some start) due
  pure (some start, due)

/-- What the body of an update says about the two dates. -/
structure DateChange where
  startDate : Option Day
  dueDate : Option Day
  clearsDueDate : Bool
deriving DecidableEq, Repr

/-- Sent as `null` or as the empty text. -/
def DateArg.clears : DateArg → Bool
  | .null | .value (.text "") => true
  | _ => false

def refuseRemoval (startDate : DateArg) : Except Failure Unit :=
  if startDate.clears then .error (.invalidField "Start date cannot be removed" "startDate")
  else .ok ()

/-- The change, checked against the dates `current` that were read. -/
def resolveDateChange (startDate dueDate : DateArg) (current : Option Day × Option Day)
    (today : Day) : Except Failure DateChange := do
  refuseRemoval startDate
  let start ← parseDay startDate "startDate" "Start date"
  (if start ≠ current.1 then assertStartNotInPast start today else .ok ())
  let due ← (if dueDate.clears then .ok none else parseDay dueDate "dueDate" "Due date")
  assertDateRange (start.or current.1) (if dueDate.clears then none else due.or current.2)
  pure ⟨start, due, dueDate.clears⟩

namespace DateChange

/-- `COALESCE($start, start_date)` -/
def start (c : DateChange) (stored : Option Day) : Option Day := c.startDate.or stored

/-- `CASE WHEN $clears THEN NULL ELSE COALESCE($due, due_date) END` -/
def due (c : DateChange) (stored : Option Day) : Option Day :=
  if c.clearsDueDate then none else c.dueDate.or stored

theorem isSome_start {c : DateChange} {stored : Option Day} (h : stored.isSome = true) :
    (c.start stored).isSome = true := by
  unfold start
  rw [Option.isSome_or, h, Bool.or_true]

end DateChange

/-- The workspace's calendar: the day it is, by the time of the database, in the timezone of the
project's workspace. -/
class Calendar where
  todayIn : (projectId : Uuid) → Db → Day

/-! ## What the checks establish -/

/-- An error of a date check is a 400 that names one of the two date fields. -/
def AboutDates (e : Failure) : Prop :=
  ∃ error field, e = .invalidField error field ∧ field ∈ ["startDate", "dueDate"]

theorem parseDay_error {value : DateArg} {field label : String} {e : Failure}
    (hfield : field ∈ ["startDate", "dueDate"]) (h : parseDay value field label = .error e) :
    AboutDates e := by
  cases value with
  | undefined => cases h
  | null => cases h
  | value json =>
      unfold parseDay at h
      split at h
      · cases h
      · cases h
      · cases h
      · dsimp only at h
        split at h
        · cases h
        · exact ⟨_, field, (Except.error.inj h).symm, hfield⟩

theorem assertDateRange_eq_ok {start due : Option Day} {u : Unit}
    (h : assertDateRange start due = .ok u) : ¬ Inverted start due := by
  intro hinv
  rw [assertDateRange, if_pos hinv] at h
  cases h

theorem assertDateRange_error {start due : Option Day} {e : Failure}
    (h : assertDateRange start due = .error e) : AboutDates e := by
  unfold assertDateRange at h
  split at h
  · exact ⟨_, "dueDate", (Except.error.inj h).symm, by decide⟩
  · cases h

theorem assertStartNotInPast_error {start : Option Day} {today : Day} {e : Failure}
    (h : assertStartNotInPast start today = .error e) : AboutDates e := by
  unfold assertStartNotInPast at h
  split at h
  · exact ⟨_, "startDate", (Except.error.inj h).symm, by decide⟩
  · cases h

/-- A change that passes the check leaves the dates it was checked against in order: only dates
stored since can make the constraint refuse it. -/
theorem resolveDateChange_eq_ok {startDate dueDate : DateArg} {current : Option Day × Option Day}
    {today : Day} {c : DateChange} (h : resolveDateChange startDate dueDate current today = .ok c) :
    ¬ Inverted (c.start current.1) (c.due current.2) := by
  unfold resolveDateChange at h
  obtain ⟨_, -, h⟩ := except_bind_eq_ok.mp h
  obtain ⟨start, -, h⟩ := except_bind_eq_ok.mp h
  obtain ⟨_, -, h⟩ := except_bind_eq_ok.mp h
  obtain ⟨due, -, h⟩ := except_bind_eq_ok.mp h
  obtain ⟨u, hrange, h⟩ := except_bind_eq_ok.mp h
  obtain rfl := Except.ok.inj h
  exact assertDateRange_eq_ok hrange

/-- A refused change names a date field. -/
theorem resolveDateChange_error {startDate dueDate : DateArg}
    {current : Option Day × Option Day} {today : Day} {e : Failure}
    (h : resolveDateChange startDate dueDate current today = .error e) : AboutDates e := by
  unfold resolveDateChange at h
  rcases except_bind_eq_error.mp h with h | ⟨_, -, h⟩
  · unfold refuseRemoval at h
    split at h
    · exact ⟨_, "startDate", (Except.error.inj h).symm, by decide⟩
    · cases h
  rcases except_bind_eq_error.mp h with h | ⟨start, -, h⟩
  · exact parseDay_error (by decide) h
  rcases except_bind_eq_error.mp h with h | ⟨_, -, h⟩
  · split at h
    · exact assertStartNotInPast_error h
    · cases h
  rcases except_bind_eq_error.mp h with h | ⟨due, -, h⟩
  · split at h
    · cases h
    · exact parseDay_error (by decide) h
  rcases except_bind_eq_error.mp h with h | ⟨u, -, h⟩
  · exact assertDateRange_error h
  · cases h

end Tesbo
