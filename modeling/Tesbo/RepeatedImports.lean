import Tesbo.RunHistory

/-!
# An import touches what it names, once

A column keeps its value where the payload leaves its key out, and what a payload sets it sets again
to the same.
-/

namespace Tesbo.Arg

variable {α β ε : Type}

@[simp] theorem shape_eq_undefined {a : Arg α} : a.shape = .undefined ↔ a = .undefined := by
  cases a <;> simp [shape]

@[simp] theorem shape_eq_null {a : Arg α} : a.shape = .null ↔ a = .null := by
  cases a <;> simp [shape]

theorem sent_eq_false {a : Arg α} : a.sent = false ↔ a = .undefined := by
  cases a <;> simp [sent]

theorem shape_traverse {f : α → Except ε β} {a : Arg α} {b : Arg β} (h : a.traverse f = .ok b) :
    b.shape = a.shape := by
  cases a with
  | undefined => cases h; rfl
  | null => cases h; rfl
  | value x =>
      change (f x).map value = .ok b at h
      cases hx : f x with
      | error e => rw [hx] at h; cases h
      | ok y => rw [hx] at h; cases h; rfl

@[simp] theorem over_over (a : Arg α) (stored : Option α) : a.over (a.over stored) = a.over stored := by
  cases a <;> rfl

@[simp] theorem getD_getD (a : Arg α) (stored : α) :
    a.nullish.getD (a.nullish.getD stored) = a.nullish.getD stored := by
  cases a <;> rfl

end Tesbo.Arg

namespace Tesbo.RunHistory

open Reasoning Service

/-! ## The columns of the keys -/

inductive Cell where
  | text (s : String)
  | time (t : Time)
  | integer (n : ℤ)
  | texts (ts : List String)
  | steps (steps : List StepResult)
  | attempts (attempts : List Attempt)

inductive RunKey where
  | status | createdAt | startedAt | endedAt | closedAt | closeStatus | timeSpentMs | elapsedMs | tags

inductive ResultKey where
  | status | actualResult | executedAt | durationMs | errorMessage | errorStack | reportedBy
  | stepResults | history

namespace RunKey

def name : RunKey → String
  | status => "status"
  | createdAt => "createdAt"
  | startedAt => "startedAt"
  | endedAt => "endedAt"
  | closedAt => "closedAt"
  | closeStatus => "closeStatus"
  | timeSpentMs => "timeSpentMs"
  | elapsedMs => "elapsedMs"
  | tags => "tags"

/-- The column of the key; `none` is `NULL`. -/
def cell (r : Run) : RunKey → Option Cell
  | status => some (.text r.status)
  | createdAt => some (.time r.createdAt)
  | startedAt => r.startedAt.map .time
  | endedAt => r.endedAt.map .time
  | closedAt => r.closedAt.map .time
  | closeStatus => r.closeStatus.map .text
  | timeSpentMs => r.timeSpentMs.map .integer
  | elapsedMs => r.elapsedMs.map .integer
  | tags => some (.texts r.tags)

def nullable : RunKey → Bool
  | status | createdAt | tags => false
  | startedAt | endedAt | closedAt | closeStatus | timeSpentMs | elapsedMs => true

def shape {τ : Type} (f : RunFields τ) : RunKey → Arg Unit
  | status => f.status.shape
  | createdAt => f.createdAt.shape
  | startedAt => f.startedAt.shape
  | endedAt => f.endedAt.shape
  | closedAt => f.closedAt.shape
  | closeStatus => f.closeStatus.shape
  | timeSpentMs => f.timeSpentMs.shape
  | elapsedMs => f.elapsedMs.shape
  | tags => f.tags.shape

end RunKey

namespace ResultKey

def name : ResultKey → String
  | status => "status"
  | actualResult => "actualResult"
  | executedAt => "executedAt"
  | durationMs => "durationMs"
  | errorMessage => "errorMessage"
  | errorStack => "errorStack"
  | reportedBy => "reportedBy"
  | stepResults => "stepResults"
  | history => "history"

def cell (e : Result) : ResultKey → Option Cell
  | status => some (.text e.status)
  | actualResult => e.actualResult.map .text
  | executedAt => e.executedAt.map .time
  | durationMs => e.durationMs.map .integer
  | errorMessage => e.errorMessage.map .text
  | errorStack => e.errorStack.map .text
  | reportedBy => some (.text e.reportedBy)
  | stepResults => e.stepResults.map .steps
  | history => e.history.map .attempts

def nullable : ResultKey → Bool
  | status | reportedBy => false
  | actualResult | executedAt | durationMs | errorMessage | errorStack | stepResults | history => true

def shape {τ : Type} (f : ResultFields τ) : ResultKey → Arg Unit
  | status => f.status.shape
  | actualResult => f.actualResult.shape
  | executedAt => f.executedAt.shape
  | durationMs => f.durationMs.shape
  | errorMessage => f.errorMessage.shape
  | errorStack => f.errorStack.shape
  | reportedBy => f.reportedBy.shape
  | stepResults => f.stepResults.shape
  | history => f.history.shape

end ResultKey

/-- A run without the columns of the keys, and without `updated_at`. -/
def Run.unkeyed (r : Run) : Run :=
  { r with
    status := "", createdAt := 0, startedAt := none, endedAt := none, closedAt := none
    closeStatus := none, timeSpentMs := none, elapsedMs := none, tags := [], updatedAt := 0 }

def Result.unkeyed (e : Result) : Result :=
  { e with
    status := "", actualResult := none, executedAt := none, durationMs := none
    errorMessage := none, errorStack := none, reportedBy := "", stepResults := none
    history := none, updatedAt := 0 }

/-- A run, but for `updated_at`. -/
def Run.aside (r : Run) : Run := { r with updatedAt := 0 }

def Result.aside (e : Result) : Result := { e with updatedAt := 0 }

/-! ## The property -/

/-- What becomes of a run, `payload` being what is sent of it. -/
structure KeptRun (runId : Uuid) (payload : Option Json) (r r' : Run) : Prop where
  others : r.id ≠ runId → r' = r
  unnamed : (∀ key : RunKey, payload.bind (·.get key.name) = none) → r' = r
  omitted : ∀ key : RunKey, payload.bind (·.get key.name) = none → key.cell r' = key.cell r
  cleared : r.id = runId → ∀ key : RunKey, payload.bind (·.get key.name) = some .null →
    key.cell r' = none
  rest : r'.unkeyed = r.unkeyed

/-- What becomes of a result, `entry` being the entry that names it. -/
structure KeptResult (entry : Option Json) (e e' : Result) : Prop where
  unnamed : entry = none → e' = e
  omitted : ∀ j ∈ entry, ∀ key : ResultKey, j.get key.name = none → key.cell e' = key.cell e
  cleared : ∀ j ∈ entry, ∀ key : ResultKey, j.get key.name = some .null → key.cell e' = none
  people : e'.assigneeId = e.assigneeId ∧ e'.executedBy = e.executedBy
  rest : e'.unkeyed = e.unkeyed

/-- An item, but for its snapshot. -/
def SameItem (i i' : Item) : Prop :=
  i' = { i with snapshotExternalId := i'.snapshotExternalId, snapshot := i'.snapshot }

/-- The entries of a payload. -/
def entries (body : Json) : List Json :=
  match body.get "results" with
  | some (.list entries) => entries
  | _ => []

/-- The entry that names a result: the one of its test case, in a live item of the run. -/
def entryFor [Unicode] (runId : Uuid) (body : Json) (s : RunDb) (e : Result) : Option Json :=
  (caseIn runId s e).bind fun id ↦ (entries body).find? fun entry ↦ entryId entry = some id

/-- What a payload that is accepted touches. -/
structure TouchesNamed [Unicode] (runId : Uuid) (body : Json) (s s' : RunDb) : Prop where
  runs : List.Forall₂ (KeptRun runId (body.get "run")) s.runs.rows s'.runs.rows
  results : List.Forall₂ (fun e e' ↦ KeptResult (entryFor runId body s e) e e') s.results.rows
    s'.results.rows
  items : List.Forall₂ SameItem s.items.rows s'.items.rows
  snapshots : wantsSnapshots body = false → s'.items = s.items
  rest : ∃ users, s'.rest = { s.rest with users := users }

/-- The same runs and results, but for `updated_at`. -/
structure SameHistory (s s' : RunDb) : Prop where
  runs : s'.runs.rows.map Run.aside = s.runs.rows.map Run.aside
  results : s'.results.rows.map Result.aside = s.results.rows.map Result.aside

def RunDb.atTime (s : RunDb) (now : Time) : RunDb := { s with rest := { s.rest with now := now } }

/-- A payload that is refused leaves what the check of the caller leaves, which is all of it where the
caller's workspace is not stale.  One that is accepted touches what it names; the same import again,
whoever makes it and whenever, changes nothing more. -/
def ImportsNamed [Unicode] [Dates] (userId : Option Uuid) (cycleId : IdText) (body : Json)
    (s : RunDb) : Except Failure Answer × RunDb → Prop
  | (.error _, s') =>
      s' = s.withUsers (after (requireImporter userId cycleId) s.db).users ∧
        ((∀ uid ∈ userId, (activeWorkspace uid s.db).isSome) → s' = s)
  | (.ok _, s') =>
      (∃ runId, cycleId.uuid = some runId ∧ TouchesNamed runId body s s') ∧
        ∀ userId' now, SameHistory s'
          (after (importRunHistory userId' cycleId body) (s'.atTime now))

/-! ## What is read of a key -/

/-- What a key is set to says what was sent. -/
structure Mirrors (nullable : Bool) (raw : Option Json) (shape : Arg Unit) : Prop where
  omitted : raw = none → shape = .undefined
  cleared : raw = some .null → shape = .null ∧ nullable = true

section Keys

variable {α : Type} {j : Json} {key : String} {nullable : Bool}

theorem field_mirrors {read : Json → Except Failure (Option α)} {a : Arg α}
    (h : field j key read = .ok a)
    (hread : ∀ v, read .null = .ok v → v = none ∧ nullable = true) :
    Mirrors nullable (j.get key) a.shape := by
  unfold field at h
  cases hraw : j.get key with
  | none =>
      rw [hraw] at h
      cases h
      exact ⟨fun _ ↦ rfl, fun h ↦ (by cases h)⟩
  | some raw =>
      rw [hraw] at h
      refine ⟨fun h ↦ (by cases h), fun hnull ↦ ?_⟩
      obtain rfl := Option.some.inj hnull
      cases hv : read .null with
      | error e => simp [hv, Except.map] at h
      | ok v =>
          obtain ⟨rfl, hnullable⟩ := hread v hv
          simp only [hv, Except.map, Option.elim_none] at h
          cases h
          exact ⟨rfl, hnullable⟩

theorem nonNullField_mirrors {read : Json → Except Failure α} {a : Arg α} {e : Failure}
    (h : nonNullField j key read = .ok a) (hread : read .null = .error e) :
    Mirrors false (j.get key) a.shape := by
  refine field_mirrors h fun v hv ↦ ?_
  rw [hread] at hv
  cases hv

theorem nullable_of_ok {v : Option α} (h : (.ok none : Except Failure (Option α)) = .ok v) :
    v = none ∧ true = true := ⟨(Except.ok.inj h).symm, rfl⟩

end Keys

theorem normalizeRunHistory_mirrors [Unicode] [Dates] {run : Json} {f : RunFields ℤ}
    (h : normalizeRunHistory run = .ok f) (key : RunKey) :
    Mirrors key.nullable (run.get key.name) (key.shape f) := by
  unfold normalizeRunHistory at h
  obtain ⟨status, hstatus, h⟩ := except_bind_eq_ok.mp h
  obtain ⟨createdAt, hcreated, h⟩ := except_bind_eq_ok.mp h
  obtain ⟨startedAt, hstarted, h⟩ := except_bind_eq_ok.mp h
  obtain ⟨endedAt, hended, h⟩ := except_bind_eq_ok.mp h
  obtain ⟨closedAt, hclosed, h⟩ := except_bind_eq_ok.mp h
  obtain ⟨closeStatus, hcloseStatus, h⟩ := except_bind_eq_ok.mp h
  obtain ⟨timeSpentMs, hspent, h⟩ := except_bind_eq_ok.mp h
  obtain ⟨elapsedMs, helapsed, h⟩ := except_bind_eq_ok.mp h
  obtain ⟨tags, htags, h⟩ := except_bind_eq_ok.mp h
  obtain rfl := Except.ok.inj h
  cases key with
  | status => exact nonNullField_mirrors hstatus rfl
  | createdAt => exact field_mirrors hcreated fun v hv ↦ (by cases hv)
  | startedAt => exact field_mirrors hstarted fun v hv ↦ nullable_of_ok hv
  | endedAt => exact field_mirrors hended fun v hv ↦ nullable_of_ok hv
  | closedAt => exact field_mirrors hclosed fun v hv ↦ nullable_of_ok hv
  | closeStatus => exact field_mirrors hcloseStatus fun v hv ↦ nullable_of_ok hv
  | timeSpentMs => exact field_mirrors hspent fun v hv ↦ nullable_of_ok hv
  | elapsedMs => exact field_mirrors helapsed fun v hv ↦ nullable_of_ok hv
  | tags => exact nonNullField_mirrors htags rfl

theorem normalizeResult_mirrors [Dates] {id : Uuid} {entry : Json} {label : String}
    {f : ResultFields ℤ} (h : normalizeResult id entry label = .ok f) :
    f.testcaseId = id ∧
      ∀ key : ResultKey, Mirrors key.nullable (entry.get key.name) (key.shape f) := by
  unfold normalizeResult at h
  obtain ⟨status, hstatus, h⟩ := except_bind_eq_ok.mp h
  obtain ⟨actualResult, hactual, h⟩ := except_bind_eq_ok.mp h
  obtain ⟨executedAt, hexecuted, h⟩ := except_bind_eq_ok.mp h
  obtain ⟨durationMs, hduration, h⟩ := except_bind_eq_ok.mp h
  obtain ⟨errorMessage, hmessage, h⟩ := except_bind_eq_ok.mp h
  obtain ⟨errorStack, hstack, h⟩ := except_bind_eq_ok.mp h
  obtain ⟨reportedBy, hreported, h⟩ := except_bind_eq_ok.mp h
  obtain ⟨stepResults, hsteps, h⟩ := except_bind_eq_ok.mp h
  obtain ⟨history, hhistory, h⟩ := except_bind_eq_ok.mp h
  obtain rfl := Except.ok.inj h
  refine ⟨rfl, fun key ↦ ?_⟩
  cases key with
  | status => exact nonNullField_mirrors hstatus rfl
  | actualResult => exact field_mirrors hactual fun v hv ↦ nullable_of_ok hv
  | executedAt => exact field_mirrors hexecuted fun v hv ↦ nullable_of_ok hv
  | durationMs => exact field_mirrors hduration fun v hv ↦ nullable_of_ok hv
  | errorMessage => exact field_mirrors hmessage fun v hv ↦ nullable_of_ok hv
  | errorStack => exact field_mirrors hstack fun v hv ↦ nullable_of_ok hv
  | reportedBy => exact nonNullField_mirrors hreported rfl
  | stepResults => exact field_mirrors hsteps fun v hv ↦ nullable_of_ok hv
  | history => exact field_mirrors hhistory fun v hv ↦ nullable_of_ok hv

/-- What is read of an entry: its test case, and each of its keys. -/
structure ReadsEntry [Unicode] (entry : Json) (f : ResultFields ℤ) : Prop where
  id : entryId entry = some f.testcaseId
  keys : ∀ key : ResultKey, Mirrors key.nullable (entry.get key.name) (key.shape f)

theorem normalizeResults_reads [Unicode] [Dates] {seen : List Uuid} {i : ℕ} {items : List Json}
    {results : List (ResultFields ℤ)} (h : normalizeResults seen i items = .ok results) :
    List.Forall₂ ReadsEntry items results := by
  induction items generalizing seen i results with
  | nil =>
      obtain rfl := Except.ok.inj h
      exact .nil
  | cons entry items ih =>
      unfold normalizeResults at h
      obtain ⟨-, -, h⟩ := except_bind_eq_ok.mp h
      obtain ⟨id, hid, h⟩ := except_bind_eq_ok.mp h
      obtain ⟨-, -, h⟩ := except_bind_eq_ok.mp h
      obtain ⟨result, hresult, h⟩ := except_bind_eq_ok.mp h
      obtain ⟨rest, hrest, h⟩ := except_bind_eq_ok.mp h
      obtain rfl := Except.ok.inj h
      obtain ⟨rfl, hkeys⟩ := normalizeResult_mirrors hresult
      exact .cons ⟨eq_some_of_found hid, hkeys⟩ (ih hrest)

/-- What is read of a payload. -/
theorem normalizePayload_reads [Unicode] [Dates] {body : Json} {fields : RunFields ℤ}
    {results : List (ResultFields ℤ)} (h : normalizePayload body = .ok (fields, results)) :
    (∀ key : RunKey, Mirrors key.nullable ((body.get "run").bind (·.get key.name))
      (key.shape fields)) ∧ List.Forall₂ ReadsEntry (entries body) results := by
  unfold normalizePayload at h
  obtain ⟨fields', hfields, h⟩ := except_bind_eq_ok.mp h
  obtain ⟨items, hitems, h⟩ := except_bind_eq_ok.mp h
  obtain ⟨results', hresults, h⟩ := except_bind_eq_ok.mp h
  cases h
  constructor
  · intro key
    unfold payloadRun at hfields
    split at hfields
    · rename_i hrun
      rw [hrun]
      exact normalizeRunHistory_mirrors hfields key
    · rename_i hrun
      rw [hrun]
      exact normalizeRunHistory_mirrors hfields key
    · cases hfields
  · have hentries : entries body = items := by
      unfold entries
      unfold payloadEntries at hitems
      dsimp only at hitems
      split at hitems
      · rename_i hnone
        rw [hnone]
        exact Except.ok.inj hitems
      · rename_i hlist
        rw [hlist]
        split at hitems
        · cases hitems
        · exact Except.ok.inj hitems
      · cases hitems
    rw [hentries]
    exact normalizeResults_reads hresults

/-! ## What a row takes over -/

theorem RunFields.shape_bound {f : RunFields ℤ} {b : RunFields Time} (h : f.bound = .ok b)
    (key : RunKey) : key.shape b = key.shape f := by
  unfold bound at h
  obtain ⟨createdAt, hcreated, h⟩ := except_bind_eq_ok.mp h
  obtain ⟨startedAt, hstarted, h⟩ := except_bind_eq_ok.mp h
  obtain ⟨endedAt, hended, h⟩ := except_bind_eq_ok.mp h
  obtain ⟨closedAt, hclosed, h⟩ := except_bind_eq_ok.mp h
  obtain ⟨tags, htags, h⟩ := except_bind_eq_ok.mp h
  obtain rfl := Except.ok.inj h
  cases key with
  | createdAt => exact Arg.shape_traverse hcreated
  | startedAt => exact Arg.shape_traverse hstarted
  | endedAt => exact Arg.shape_traverse hended
  | closedAt => exact Arg.shape_traverse hclosed
  | tags => exact Arg.shape_traverse htags
  | status | closeStatus | timeSpentMs | elapsedMs => rfl

theorem ResultFields.shape_bound {f : ResultFields ℤ} {b : ResultFields Time} (h : f.bound = .ok b) :
    b.testcaseId = f.testcaseId ∧ ∀ key : ResultKey, key.shape b = key.shape f := by
  unfold bound at h
  obtain ⟨executedAt, hexecuted, h⟩ := except_bind_eq_ok.mp h
  obtain rfl := Except.ok.inj h
  refine ⟨rfl, fun key ↦ ?_⟩
  cases key with
  | executedAt => exact Arg.shape_traverse hexecuted
  | status | actualResult | durationMs | errorMessage | errorStack | reportedBy | stepResults
  | history => rfl

/-- Only a key that is sent has a column in the statement. -/
theorem RunFields.columns_eq_nil {τ : Type} {f : RunFields τ} :
    f.columns = [] ↔ ∀ key : RunKey, key.shape f = .undefined := by
  have hcolumns : f.columns = [] ↔ f.status = .undefined ∧ f.createdAt = .undefined ∧
      f.startedAt = .undefined ∧ f.endedAt = .undefined ∧ f.closedAt = .undefined ∧
      f.closeStatus = .undefined ∧ f.timeSpentMs = .undefined ∧ f.elapsedMs = .undefined ∧
      f.tags = .undefined := by
    unfold columns
    simp [List.filterMap_eq_nil_iff, Arg.sent_eq_false]
  rw [hcolumns]
  constructor
  · rintro ⟨h₁, h₂, h₃, h₄, h₅, h₆, h₇, h₈, h₉⟩ key
    cases key <;> simpa [RunKey.shape]
  · intro h
    have hkey (key : RunKey) := h key
    exact ⟨Arg.shape_eq_undefined.mp (hkey .status), Arg.shape_eq_undefined.mp (hkey .createdAt),
      Arg.shape_eq_undefined.mp (hkey .startedAt), Arg.shape_eq_undefined.mp (hkey .endedAt),
      Arg.shape_eq_undefined.mp (hkey .closedAt), Arg.shape_eq_undefined.mp (hkey .closeStatus),
      Arg.shape_eq_undefined.mp (hkey .timeSpentMs), Arg.shape_eq_undefined.mp (hkey .elapsedMs),
      Arg.shape_eq_undefined.mp (hkey .tags)⟩

section Rows

variable {f : RunFields Time} {g : ResultFields Time} {now now' : Time}

theorem RunKey.cell_apply_omitted {key : RunKey} {r : Run} (h : key.shape f = .undefined) :
    key.cell (f.apply now r) = key.cell r := by
  cases key <;> simp only [shape, Arg.shape_eq_undefined] at h <;>
    simp [cell, RunFields.apply, h, Arg.over, Arg.nullish]

theorem RunKey.cell_apply_cleared {key : RunKey} {r : Run} (h : key.shape f = .null)
    (hnullable : key.nullable = true) : key.cell (f.apply now r) = none := by
  cases key <;> cases hnullable <;> simp only [shape, Arg.shape_eq_null] at h <;>
    simp [cell, RunFields.apply, h, Arg.over]

theorem ResultKey.cell_apply_omitted {key : ResultKey} {e : Result} (h : key.shape g = .undefined) :
    key.cell (g.apply now e) = key.cell e := by
  cases key <;> simp only [shape, Arg.shape_eq_undefined] at h <;>
    simp [cell, ResultFields.apply, h, Arg.over, Arg.nullish]

theorem ResultKey.cell_apply_cleared {key : ResultKey} {e : Result} (h : key.shape g = .null)
    (hnullable : key.nullable = true) : key.cell (g.apply now e) = none := by
  cases key <;> cases hnullable <;> simp only [shape, Arg.shape_eq_null] at h <;>
    simp [cell, ResultFields.apply, h, Arg.over]

theorem RunFields.apply_apply (r : Run) :
    (f.apply now' (f.apply now r)).aside = (f.apply now r).aside := by
  simp [apply, Run.aside]

theorem ResultFields.apply_apply (e : Result) :
    (g.apply now' (g.apply now e)).aside = (g.apply now e).aside := by
  simp [apply, Result.aside]

end Rows

/-! ## The rows of the statements -/

/-- The rows of `UPDATE cycles`. -/
def StoresRun (runId : Uuid) (fields : RunFields ℤ) (now : Time) (r r' : Run) : Prop :=
  if fields.columns ≠ [] ∧ r.id = runId ∧ r.live then ∃ b, fields.bound = .ok b ∧ r' = b.apply now r
  else r' = r

/-- The rows of `UPDATE executions`; `input` is the one a result is joined with. -/
def StoresResult (input : Option (ResultFields ℤ)) (now : Time) (e e' : Result) : Prop :=
  match input with
  | none => e' = e
  | some f => ∃ b, f.bound = .ok b ∧ e' = b.apply now e

/-- The row of the input for a result. -/
def inputFor (runId : Uuid) (results : List (ResultFields ℤ)) (s : RunDb) (e : Result) :
    Option (ResultFields ℤ) :=
  (caseIn runId s e).bind fun id ↦ results.find? fun f ↦ f.testcaseId = id

/-- What a payload that is read stores. -/
structure Stores (runId : Uuid) (fields : RunFields ℤ) (results : List (ResultFields ℤ))
    (refresh : Bool) (s s' : RunDb) : Prop where
  runs : List.Forall₂ (StoresRun runId fields s.rest.now) s.runs.rows s'.runs.rows
  results : List.Forall₂ (fun e e' ↦ StoresResult (inputFor runId results s e) s.rest.now e e')
    s.results.rows s'.results.rows
  items : List.Forall₂ SameItem s.items.rows s'.items.rows
  snapshots : refresh = false → s'.items = s.items
  rest : s'.rest = s.rest

theorem forall₂_map_self {ρ : Type} {R : ρ → ρ → Prop} {rows : List ρ} {f : ρ → ρ}
    (h : ∀ r ∈ rows, R r (f r)) : List.Forall₂ R rows (rows.map f) :=
  List.forall₂_map_right_iff.mpr (List.forall₂_same.mpr h)

/-- Elements that correspond are found alike. -/
theorem rel_find? {α β : Type} {R : α → β → Prop} {p : α → Bool} {q : β → Bool} {as : List α}
    {bs : List β} (h : List.Forall₂ R as bs) (hpq : ∀ a b, R a b → p a = q b) :
    Option.Rel R (as.find? p) (bs.find? q) := by
  induction h with
  | nil => exact .none
  | @cons a b as bs hab _ ih =>
      rw [List.find?_cons, List.find?_cons, ← hpq a b hab]
      cases p a with
      | true => exact .some hab
      | false => exact ih

/-- A row is changed where there is something to change it by. -/
theorem ite_isSome_elim {ρ τ : Type} (o : Option τ) (r : ρ) (f : τ → ρ) :
    (if o.isSome = true then o.elim r f else r) = o.elim r f := by
  cases o <;> rfl

section Statements

variable {runId : Uuid} {fields : RunFields ℤ} {results : List (ResultFields ℤ)} {s : RunDb}

theorem storeRun_spec : wp (storeRun runId fields)
    (fun _ s' ↦ s' = { s with runs := s'.runs } ∧
      List.Forall₂ (StoresRun runId fields s.rest.now) s.runs.rows s'.runs.rows)
    (fun _ _ ↦ True) s := by
  unfold storeRun
  split
  · rename_i hnone
    rw [wp_pure]
    refine ⟨rfl, List.forall₂_same.mpr fun r _ ↦ ?_⟩
    unfold StoresRun
    rw [if_neg fun h ↦ h.1 hnone]
  · rename_i hsome
    rw [wp_exec]
    refine ⟨fun s' hs' ↦ ?_, fun _ _ ↦ trivial⟩
    obtain ⟨b, hb, hs'⟩ := except_bind_eq_ok.mp hs'
    obtain rfl := Except.ok.inj hs'
    refine ⟨rfl, forall₂_map_self fun r _ ↦ ?_⟩
    unfold StoresRun
    by_cases hr : r.id = runId ∧ r.live = true
    · rw [if_pos ⟨hsome, hr⟩, if_pos (decide_eq_true hr)]
      exact ⟨b, hb, rfl⟩
    · rw [if_neg fun h ↦ hr h.2, if_neg (by simpa using hr)]

/-- A result is joined with the row of its test case. -/
theorem rel_targetOf {matched : List (ResultFields ℤ)} {bound : List (ResultFields Time)} {e : Result}
    (hmatched : matched = results.filter fun r ↦
      s.results.rows.any fun e ↦ caseIn runId s e = some r.testcaseId)
    (hbound : matched.mapM ResultFields.bound = .ok bound) (he : e ∈ s.results.rows) :
    Option.Rel (fun f b ↦ f.bound = .ok b) (inputFor runId results s e)
      (targetOf runId bound s e) := by
  unfold inputFor targetOf
  cases hcase : caseIn runId s e with
  | none => exact .none
  | some id =>
      rw [Option.bind_some, Option.bind_some]
      have hfind : results.find? (fun f ↦ f.testcaseId = id) =
          matched.find? fun f ↦ f.testcaseId = id := by
        rw [hmatched, List.find?_filter]
        refine List.find?_congr fun f _ ↦ ?_
        by_cases hid : f.testcaseId = id
        · have hany : (s.results.rows.any fun e ↦ caseIn runId s e = some f.testcaseId) = true :=
            List.any_eq_true.mpr ⟨e, he, by rw [hcase, hid]; simp⟩
          simp [hid, ← hany]
        · simp [hid]
      rw [hfind]
      refine rel_find? (forall₂_of_mapM hbound) fun f b hb ↦ ?_
      rw [(ResultFields.shape_bound hb).1]

theorem storeResults_spec : wp (storeResults runId results)
    (fun _ s' ↦ s' = { s with results := s'.results } ∧
      List.Forall₂ (fun e e' ↦ StoresResult (inputFor runId results s e) s.rest.now e e')
        s.results.rows s'.results.rows)
    (fun _ _ ↦ True) s := by
  unfold storeResults
  split
  · rename_i hnone
    rw [wp_pure]
    refine ⟨rfl, List.forall₂_same.mpr fun e _ ↦ ?_⟩
    have hinput : inputFor runId results s e = none := by
      unfold inputFor
      rw [hnone]
      cases caseIn runId s e <;> rfl
    rw [hinput]
    rfl
  · rw [wp_returning]
    refine ⟨fun matched s' hs' ↦ ?_, fun _ _ ↦ trivial⟩
    unfold updateResults at hs'
    obtain ⟨-, -, hs'⟩ := except_bind_eq_ok.mp hs'
    obtain ⟨bound, hbound, hs'⟩ := except_bind_eq_ok.mp hs'
    cases hs'
    refine ⟨rfl, forall₂_map_self fun e he ↦ ?_⟩
    have hrel := rel_targetOf rfl hbound he
    rw [ite_isSome_elim]
    generalize targetOf runId bound s e = target at hrel ⊢
    generalize inputFor runId results s e = input at hrel ⊢
    cases hrel with
    | none => rfl
    | some hb => exact ⟨_, hb, rfl⟩

theorem refreshSnapshots_spec {refresh : Bool} : wp (refreshSnapshots runId refresh)
    (fun _ s' ↦ s' = { s with items := s'.items } ∧
      List.Forall₂ SameItem s.items.rows s'.items.rows ∧ (refresh = false → s'.items = s.items))
    (fun _ _ ↦ True) s := by
  unfold refreshSnapshots
  split
  · rename_i hrefresh
    rw [wp_returning]
    refine ⟨fun n s' hs' ↦ ?_, fun _ _ ↦ trivial⟩
    cases hs'
    refine ⟨rfl, forall₂_map_self fun i _ ↦ ?_, fun h ↦ (by rw [hrefresh] at h; cases h)⟩
    rw [ite_isSome_elim]
    cases liveCase runId s i <;> rfl
  · rw [wp_pure]
    exact ⟨rfl, List.forall₂_same.mpr fun i _ ↦ rfl, fun _ ↦ rfl⟩

/-- The transaction stores what is read, or nothing. -/
theorem storeHistory_spec {refresh : Bool} : wp (storeHistory runId fields results refresh)
    (fun _ s' ↦ Stores runId fields results refresh s s' ∧ s'.logs = s.logs)
    (fun _ s' ↦ s' = s) s := by
  unfold storeHistory
  rw [wp_transaction]
  have hE : ∀ {α : Type} {m : Import α} {Q : α → RunDb → Prop} {s₁ : RunDb},
      wp m Q (fun _ _ ↦ True) s₁ → wp m Q (fun _ _ ↦ s = s) s₁ := fun h ↦
    wp_mono h (fun _ _ h ↦ h) fun _ _ _ ↦ rfl
  apply wp_seq (hE storeRun_spec)
  rintro _ s₁ ⟨h₁, hruns⟩
  apply wp_seq (hE storeResults_spec)
  rintro matched s₂ ⟨h₂, hresults⟩
  apply wp_seq (hE refreshSnapshots_spec)
  rintro refreshed s₃ ⟨h₃, hitems, hsnapshots⟩
  rw [wp_pure]
  rw [h₁] at h₂ hresults
  rw [h₂] at h₃ hitems hsnapshots
  rw [h₃]
  exact ⟨⟨hruns, hresults, hitems, hsnapshots, rfl⟩, rfl⟩

end Statements

/-! ## The check of the caller -/

section Caller

variable {userId : Option Uuid} {cycleId : IdText} {db : Db}

/-- An import is into a live run. -/
theorem requireImporter_live : wp (requireImporter userId cycleId)
    (fun a _ ↦ cycleId.uuid = some a.2.2 ∧ ∃ cycle ∈ db.cycles, cycle.id = a.2.2 ∧ cycle.live = true)
    (fun _ _ ↦ True) db := by
  have hE : ∀ _ : Failure, True := fun _ ↦ trivial
  have hcycle : wp (requireCycleAccess userId cycleId)
      (fun _ _ ↦ ∃ cycle ∈ db.cycles, cycleId.uuid = some cycle.id ∧ cycle.live = true)
      (fun _ _ ↦ True) db := by
    unfold requireCycleAccess
    apply wp_requireUser_seq hE
    intro uid _
    apply wp_require_seq trivial
    intro _
    apply wp_castUuid_seq hE
    intro id hid
    apply wp_check_seq hE
    intro cycle hcycle
    have hfind := eq_some_of_found hcycle
    rw [Option.filter_eq_some_iff] at hfind
    obtain ⟨hmem, rfl⟩ := Table.find_eq_some.mp hfind.1
    apply wp_seq (wp_any _ _)
    intro _ _ _
    rw [wp_pure]
    exact ⟨cycle, hmem, hid, hfind.2⟩
  unfold requireImporter
  apply wp_requireUser_seq hE
  rintro uid rfl
  apply wp_seq hcycle
  rintro projectId _ ⟨cycle, hmem, huuid, hlive⟩
  apply wp_seq (wp_any _ _)
  intro access _ _
  apply wp_require_seq trivial
  intro _
  apply wp_castUuid_seq hE
  intro runId hrunId
  rw [wp_pure]
  exact ⟨hrunId, cycle, hmem, Option.some.inj (huuid.symm.trans hrunId), hlive⟩

section Settled

variable (hactive : ∀ uid ∈ userId, (activeWorkspace uid db).isSome)

include hactive

/-- The workspace of a caller is looked up, and written only where it is stale. -/
theorem workspace_settled :
    wp (workspace userId) (fun _ db' ↦ db' = db) (fun _ db' ↦ db' = db) db := by
  unfold workspace
  refine wp_requireUser_seq (fun _ ↦ rfl) ?_
  intro uid huid
  apply wp_query_seq
  cases hfind : activeWorkspace uid db with
  | some active => exact (wp_pure active).mpr rfl
  | none =>
      have hsome := hactive uid huid
      rw [hfind] at hsome
      cases hsome

theorem requireProjectAccess_settled {projectId : IdText} :
    wp (requireProjectAccess userId projectId) (fun _ db' ↦ db' = db) (fun _ db' ↦ db' = db) db := by
  unfold requireProjectAccess
  refine wp_requireUser_seq (fun _ ↦ rfl) ?_
  rintro uid rfl
  refine wp_require_seq rfl ?_
  intro _
  refine wp_castUuid_seq (fun _ ↦ rfl) ?_
  intro id _
  apply wp_seq (workspace_settled hactive)
  rintro found _ rfl
  rw [wp_check]
  exact ⟨fun _ _ ↦ rfl, fun _ _ ↦ rfl⟩

theorem requireCycleAccess_settled :
    wp (requireCycleAccess userId cycleId) (fun _ db' ↦ db' = db) (fun _ db' ↦ db' = db) db := by
  unfold requireCycleAccess
  refine wp_requireUser_seq (fun _ ↦ rfl) ?_
  rintro uid rfl
  refine wp_require_seq rfl ?_
  intro _
  refine wp_castUuid_seq (fun _ ↦ rfl) ?_
  intro id _
  refine wp_check_seq (fun _ ↦ rfl) ?_
  intro cycle _
  apply wp_seq (requireProjectAccess_settled hactive)
  rintro access _ rfl
  exact (wp_pure _).mpr rfl

theorem requireImporter_settled :
    wp (requireImporter userId cycleId) (fun _ db' ↦ db' = db) (fun _ db' ↦ db' = db) db := by
  unfold requireImporter
  refine wp_requireUser_seq (fun _ ↦ rfl) ?_
  rintro uid rfl
  apply wp_seq (requireCycleAccess_settled hactive)
  rintro projectId _ rfl
  apply wp_seq (requireProjectAccess_settled hactive)
  rintro access _ rfl
  refine wp_require_seq rfl ?_
  intro _
  refine wp_castUuid_seq (fun _ ↦ rfl) ?_
  intro runId _
  exact (wp_pure _).mpr rfl

end Settled

end Caller

theorem wp_onUsers {α : Type} {m : Handler α} {Q : α → Db → Prop} {s : RunDb}
    (h : wp m Q (fun _ _ ↦ True) s.db) :
    wp (onUsers m) (fun a s' ↦ s' = s.withUsers (after m s.db).users ∧ Q a (after m s.db))
      (fun _ s' ↦ s' = s.withUsers (after m s.db).users) s := by
  unfold wp at h
  unfold wp onUsers after
  generalize m s.db = outcome at h ⊢
  obtain ⟨r, db'⟩ := outcome
  cases r with
  | error e => rfl
  | ok a => exact ⟨rfl, h⟩

/-! ## The import -/

section Imports

variable [Unicode] [Dates] {userId : Option Uuid} {cycleId : IdText} {body : Json} {s : RunDb}

/-- An import is refused, or stores what is read of its payload in a live run. -/
theorem importRunHistory_spec : wp (importRunHistory userId cycleId body)
    (fun _ s' ↦ ∃ runId fields results users, cycleId.uuid = some runId ∧
      (∃ r ∈ s.runs, r.id = runId ∧ r.live = true) ∧
      normalizePayload body = .ok (fields, results) ∧
      Stores runId fields results (wantsSnapshots body) (s.withUsers users) s')
    (fun _ s' ↦ s' = s.withUsers (after (requireImporter userId cycleId) s.db).users) s := by
  unfold importRunHistory
  apply wp_seq (wp_onUsers requireImporter_live)
  rintro ⟨uid, projectId, runId⟩ _ ⟨rfl, huuid, cycle, hcycle, hid, hlive⟩
  obtain ⟨r, hr, rfl⟩ := List.mem_map.mp hcycle
  refine wp_ofExcept_seq (fun _ ↦ rfl) ?_
  rintro ⟨fields, results⟩ hread
  apply wp_seq storeHistory_spec
  rintro ⟨matched, refreshed⟩ s' ⟨hstores, -⟩
  simp only [wp_bind, wp_write, wp_pure]
  exact ⟨runId, fields, results, _, huuid, ⟨r, hr, hid, hlive⟩, hread,
    ⟨hstores.runs, hstores.results, hstores.items, hstores.snapshots, hstores.rest⟩⟩

end Imports

/-! ### What is kept -/

section Kept

variable {runId : Uuid} {fields : RunFields ℤ} {now now' : Time}

theorem StoresRun.kept {payload : Option Json} {r r' : Run} (h : StoresRun runId fields now r r')
    (hkeys : ∀ key : RunKey, Mirrors key.nullable (payload.bind (·.get key.name)) (key.shape fields))
    (hlive : r.id = runId → r.live = true) : KeptRun runId payload r r' := by
  unfold StoresRun at h
  split at h
  · rename_i hset
    obtain ⟨b, hb, rfl⟩ := h
    have hshape := RunFields.shape_bound hb
    exact {
      others := fun hne ↦ absurd hset.2.1 hne
      unnamed := fun hnone ↦ absurd (RunFields.columns_eq_nil.mpr fun key ↦
        (hkeys key).omitted (hnone key)) hset.1
      omitted := fun key hnone ↦
        RunKey.cell_apply_omitted ((hshape key).trans ((hkeys key).omitted hnone))
      cleared := fun _ key hnull ↦
        have hcleared := (hkeys key).cleared hnull
        RunKey.cell_apply_cleared ((hshape key).trans hcleared.1) hcleared.2
      rest := rfl }
  · rename_i hset
    subst h
    refine ⟨fun _ ↦ rfl, fun _ ↦ rfl, fun _ _ ↦ rfl, fun hid key hnull ↦ ?_, rfl⟩
    -- A key that is sent has a column in the statement, and the run is live.
    refine absurd ⟨fun hnil ↦ ?_, hid, hlive hid⟩ hset
    have hundefined := RunFields.columns_eq_nil.mp hnil key
    rw [((hkeys key).cleared hnull).1] at hundefined
    cases hundefined

theorem StoresResult.kept [Unicode] {entry : Option Json} {input : Option (ResultFields ℤ)}
    {e e' : Result} (h : StoresResult input now e e') (hentry : Option.Rel ReadsEntry entry input) :
    KeptResult entry e e' := by
  cases hentry with
  | none =>
      obtain rfl := h
      exact ⟨fun _ ↦ rfl, fun j hj ↦ (by cases hj), fun j hj ↦ (by cases hj), ⟨rfl, rfl⟩, rfl⟩
  | @some entry f hreads =>
      obtain ⟨b, hb, rfl⟩ := h
      have hshape := (ResultFields.shape_bound hb).2
      refine ⟨fun hnone ↦ (by cases hnone), fun j hj key hnone ↦ ?_, fun j hj key hnull ↦ ?_,
        ⟨rfl, rfl⟩, rfl⟩
      · obtain rfl := Option.some.inj hj
        exact ResultKey.cell_apply_omitted ((hshape key).trans ((hreads.keys key).omitted hnone))
      · obtain rfl := Option.some.inj hj
        have hcleared := (hreads.keys key).cleared hnull
        exact ResultKey.cell_apply_cleared ((hshape key).trans hcleared.1) hcleared.2

theorem StoresRun.again {r r' r'' : Run} (h : StoresRun runId fields now r r')
    (h' : StoresRun runId fields now' r' r'') : r''.aside = r'.aside := by
  unfold StoresRun at h h'
  split at h
  · rename_i hset
    obtain ⟨b, hb, rfl⟩ := h
    -- The run has the same id, and is as live, as before.
    have hagain : fields.columns ≠ [] ∧ (b.apply now r).id = runId ∧ (b.apply now r).live := hset
    rw [if_pos hagain] at h'
    obtain ⟨b', hb', rfl⟩ := h'
    rw [hb] at hb'
    obtain rfl := Except.ok.inj hb'
    exact RunFields.apply_apply r
  · rename_i hset
    subst h
    rw [if_neg hset] at h'
    rw [h']

theorem StoresResult.again {input : Option (ResultFields ℤ)} {e e' e'' : Result}
    (h : StoresResult input now e e') (h' : StoresResult input now' e' e'') :
    e''.aside = e'.aside := by
  cases input with
  | none =>
      obtain rfl := h'
      rfl
  | some f =>
      obtain ⟨b, hb, rfl⟩ := h
      obtain ⟨b', hb', rfl⟩ := h'
      rw [hb] at hb'
      obtain rfl := Except.ok.inj hb'
      exact ResultFields.apply_apply e

/-- A result stays where it was. -/
theorem StoresResult.place {input : Option (ResultFields ℤ)} {e e' : Result}
    (h : StoresResult input now e e') : e'.cycleItemId = e.cycleItemId ∧ e'.live = e.live := by
  cases input with
  | none =>
      obtain rfl := h
      exact ⟨rfl, rfl⟩
  | some f =>
      obtain ⟨b, -, rfl⟩ := h
      exact ⟨rfl, rfl⟩

end Kept

/-! ### The same import again -/

section Again

variable {runId : Uuid} {results : List (ResultFields ℤ)} {s s' : RunDb}

theorem SameItem.eq {i i' : Item} (h : SameItem i i') :
    i'.id = i.id ∧ i'.cycleId = i.cycleId ∧ i'.testcaseId = i.testcaseId ∧ i'.live = i.live := by
  rw [SameItem] at h
  rw [h]
  exact ⟨rfl, rfl, rfl, rfl⟩

/-- A result is of the same test case where items keep all but their snapshots. -/
theorem inputFor_eq (hitems : List.Forall₂ SameItem s.items.rows s'.items.rows) {e e' : Result}
    (hplace : e'.cycleItemId = e.cycleItemId ∧ e'.live = e.live) :
    inputFor runId results s' e' = inputFor runId results s e := by
  have hfind : Option.Rel SameItem (s.items.find e.cycleItemId) (s'.items.find e.cycleItemId) :=
    rel_find? hitems fun i i' h ↦ congrArg (fun id ↦ decide (id = e.cycleItemId)) h.eq.1.symm
  have hcase : caseIn runId s' e' = caseIn runId s e := by
    unfold caseIn
    rw [hplace.1, hplace.2]
    generalize s.items.find e.cycleItemId = found at hfind ⊢
    generalize s'.items.find e.cycleItemId = found' at hfind ⊢
    cases hfind with
    | none => rfl
    | @some i i' h =>
        obtain ⟨-, hcycle, htestcase, hlive⟩ := h.eq
        change (if e.live ∧ i'.live ∧ i'.cycleId = runId then some i'.testcaseId else none) =
          if e.live ∧ i.live ∧ i.cycleId = runId then some i.testcaseId else none
        rw [hcycle, htestcase, hlive]
  unfold inputFor
  rw [hcase]

theorem forall₂_imp {ρ : Type} {R S : ρ → ρ → Prop} {xs ys : List ρ} (h : List.Forall₂ R xs ys)
    (himp : ∀ x ∈ xs, ∀ y, R x y → S x y) : List.Forall₂ S xs ys := by
  induction h with
  | nil => exact .nil
  | cons hxy _ ih =>
      exact .cons (himp _ List.mem_cons_self _ hxy)
        (ih fun x hx y ↦ himp x (List.mem_cons_of_mem _ hx) y)

theorem map_eq_of_forall₂ {ρ τ : Type} {R S : ρ → ρ → Prop} {f : ρ → τ} {xs ys zs : List ρ}
    (h : List.Forall₂ R xs ys) (h' : List.Forall₂ S ys zs)
    (hf : ∀ x y z, R x y → S y z → f z = f y) : zs.map f = ys.map f := by
  induction h generalizing zs with
  | nil => cases h'; rfl
  | cons hxy _ ih =>
      cases h' with
      | cons hyz hrest => rw [List.map_cons, List.map_cons, hf _ _ _ hxy hyz, ih hrest]

/-- Two imports of what is read of one payload store the same, but for `updated_at`. -/
theorem Stores.again {s₁ s₂ : RunDb} {fields : RunFields ℤ} {refresh : Bool}
    (h : Stores runId fields results refresh s s₁) (h' : Stores runId fields results refresh s' s₂)
    (hruns : s'.runs = s₁.runs) (hresults : s'.results = s₁.results) (hitems : s'.items = s₁.items) :
    SameHistory s₁ s₂ := by
  have hruns' := h'.runs
  have hresults' := h'.results
  rw [hruns] at hruns'
  rw [hresults] at hresults'
  constructor
  · exact map_eq_of_forall₂ h.runs hruns' fun _ _ _ h h' ↦ h.again h'
  · refine map_eq_of_forall₂ h.results hresults' fun e e' e'' h₁ h₂ ↦ ?_
    have hsame : inputFor runId results s' e' = inputFor runId results s e :=
      inputFor_eq (by rw [hitems]; exact h.items) h₁.place
    rw [hsame] at h₂
    exact h₁.again h₂

/-- The entry that names a result is the one its input is read from. -/
theorem rel_entryFor [Unicode] {body : Json} (h : List.Forall₂ ReadsEntry (entries body) results)
    (e : Result) : Option.Rel ReadsEntry (entryFor runId body s e) (inputFor runId results s e) := by
  unfold entryFor inputFor
  cases caseIn runId s e with
  | none => exact .none
  | some id =>
      refine rel_find? h fun entry f hreads ↦ ?_
      rw [hreads.id]
      exact decide_eq_decide.mpr Option.some_inj

end Again

theorem importRunHistory_exact [Unicode] [Dates] (userId : Option Uuid) (cycleId : IdText)
    (body : Json) (s : RunDb) :
    ImportsNamed userId cycleId body s (importRunHistory userId cycleId body s) := by
  have hspec := @importRunHistory_spec _ _ userId cycleId body s
  unfold wp at hspec
  generalize importRunHistory userId cycleId body s = outcome at hspec
  obtain ⟨r, s'⟩ := outcome
  cases r with
  | error e =>
      refine ⟨hspec, fun hactive ↦ ?_⟩
      have hsettled : after (requireImporter userId cycleId) s.db = s.db :=
        after_of_wp (requireImporter_settled hactive)
      obtain rfl := hspec
      rw [hsettled]
      rfl
  | ok answer =>
      obtain ⟨runId, fields, results, users, huuid, ⟨run, hrun, hid, hlive⟩, hread, hstores⟩ := hspec
      obtain ⟨hkeys, hentries⟩ := normalizePayload_reads hread
      refine ⟨⟨runId, huuid, ?_, ?_, hstores.items, hstores.snapshots, users, hstores.rest⟩, ?_⟩
      · refine forall₂_imp hstores.runs fun r hr r' h ↦ h.kept hkeys fun hsame ↦ ?_
        rw [Table.eq_of_key hr hrun (hsame.trans hid.symm)]
        exact hlive
      · exact hstores.results.imp fun e e' h ↦ h.kept (rel_entryFor hentries e)
      · intro userId' now
        have hagain := @importRunHistory_spec _ _ userId' cycleId body (s'.atTime now)
        unfold wp at hagain
        unfold after
        generalize importRunHistory userId' cycleId body (s'.atTime now) = outcome at hagain ⊢
        obtain ⟨r, s''⟩ := outcome
        cases r with
        | error e =>
            obtain rfl := hagain
            exact ⟨rfl, rfl⟩
        | ok answer' =>
            obtain ⟨runId', fields', results', users', huuid', -, hread', hstores'⟩ := hagain
            obtain rfl := Option.some.inj (huuid.symm.trans huuid')
            rw [hread] at hread'
            cases hread'
            exact hstores.again hstores' rfl rfl rfl

end Tesbo.RunHistory
