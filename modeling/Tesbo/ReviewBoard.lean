import Tesbo.ReviewAnalysis
import Tesbo.Schema
import Tesbo.Reasoning.Fresh
import Tesbo.Reasoning.Phases

/-!
# The Review Board

An analysis writes what it finds as recommendations.  A reviewer keeps a recommendation as it is,
removes one of its two test cases, or edits one.  That the reviewer may use the board is taken as
given, and caches are left out.
-/

namespace Tesbo.ReviewBoard

open Reasoning Proc

/-! ## Rows -/

inductive ReviewStatus where
  | pending
  | kept
  | edited
  | removed
  | obsolete
deriving DecidableEq, Repr

def ReviewStatus.text : ReviewStatus → String
  | pending => "pending"
  | kept => "kept"
  | edited => "edited"
  | removed => "removed"
  | obsolete => "obsolete"

/-- A row of `testcases`. -/
structure Case extends TestcaseSource where
  projectId : Uuid
  updatedBy : Option Uuid
  updatedAt : Time
  deletedAt : Option Time
  deletedBy : Option Uuid
deriving DecidableEq, Repr

def Case.live (c : Case) : Bool := c.deletedAt.isNone

/-- A row of `review_recommendations`; its pair is ordered. -/
structure Recommendation [Runtime] where
  id : Uuid
  projectId : Uuid
  aId : Uuid
  bId : Uuid
  classification : Classification
  similarity : Double
  explanation : String
  differences : List Difference
  fingerprintA : String
  fingerprintB : String
  stateFingerprintA : Option String
  stateFingerprintB : Option String
  reviewStatus : ReviewStatus
  reviewedBy : Option Uuid
  reviewedAt : Option Time
  removedTestcaseId : Option Uuid
  lastRunId : Option Uuid
  createdAt : Time
  updatedAt : Time
  ordered : aId < bId

/-- The run of an analysis. -/
structure AnalysisRun where
  id : Uuid
  projectId : Uuid
  status : String
  testcasesAnalyzed : Option ℕ
  pairsFound : Option ℕ
  truncated : Bool
  finishedAt : Option Time
deriving DecidableEq, Repr

/-- A field that an edit has changed, as text. -/
structure FieldChange where
  field : DiffField
  before : String
  after : String
deriving DecidableEq, Repr

/-- What an audit entry says of the change it is about. -/
inductive AuditDiff [Runtime] where
  | kept (aId bId : Uuid)
  | removed (removedId keptId : Uuid) (classification : Classification) (similarity : Double)
  | deleted (before : Case)
  | edited (testcaseId : Uuid) (fields : List String) (changes : List FieldChange)
      (similarities : Option (Double × Double))
  | updated (before : Case) (after : Option Case)

/-- A row of `audit_logs`. -/
structure Audit [Runtime] where
  projectId : Uuid
  actorId : Option Uuid
  action : String
  entityType : String
  entityId : Uuid
  entityName : Option String
  diff : AuditDiff

/-- The tables; a pair of a project has one recommendation. -/
structure Board [Runtime] where
  testcases : Table fun c : Case ↦ c.id
  recommendations : Table Recommendation.id
  runs : Table AnalysisRun.id
  audits : List Audit
  onePair : ∀ r ∈ recommendations, ∀ r' ∈ recommendations, r.projectId = r'.projectId →
    r.aId = r'.aId → r.bId = r'.bId → r = r'

section Tables

variable [Runtime]

def Recommendation.ofPair (projectId aId bId : Uuid) (r : Recommendation) : Bool :=
  r.projectId = projectId ∧ r.aId = aId ∧ r.bId = bId

namespace Board

/-- An update of recommendations that leaves their pairs alone. -/
def updateRecommendations (b : Board) (p : Recommendation → Bool)
    (f : Recommendation → Recommendation)
    (hf : ∀ r, (f r).id = r.id ∧ (f r).projectId = r.projectId ∧ (f r).aId = r.aId ∧
      (f r).bId = r.bId) : Board :=
  have hpair : ∀ r, (if p r then f r else r).projectId = r.projectId ∧
      (if p r then f r else r).aId = r.aId ∧ (if p r then f r else r).bId = r.bId := by
    intro r
    split
    · exact (hf r).2
    · exact ⟨rfl, rfl, rfl⟩
  { b with
    recommendations := b.recommendations.updateWhere p f fun r ↦ (hf r).1
    onePair := by
      intro r hr r' hr' hproject ha hb
      obtain ⟨r₀, hr₀, rfl⟩ := Table.mem_updateWhere.mp hr
      obtain ⟨r₁, hr₁, rfl⟩ := Table.mem_updateWhere.mp hr'
      rw [(hpair r₀).1, (hpair r₁).1] at hproject
      rw [(hpair r₀).2.1, (hpair r₁).2.1] at ha
      rw [(hpair r₀).2.2, (hpair r₁).2.2] at hb
      rw [b.onePair r₀ hr₀ r₁ hr₁ hproject ha hb] }

/-! ## What an analysis writes -/

/-- `REOPENS_FINDING` -/
def reopens (r : Recommendation) (f : Finding) : Bool :=
  r.reviewStatus = .obsolete ∨ (r.reviewStatus ≠ .edited ∧
    (r.fingerprintA ≠ f.fingerprintA ∨ r.fingerprintB ≠ f.fingerprintB))

/-- `DO UPDATE SET` -/
def redescribe (now : Time) (runId : Uuid) (f : Finding) (r : Recommendation) : Recommendation :=
  { r with
    classification := f.classification
    similarity := f.similarity
    explanation := f.explanation
    differences := f.differences
    reviewStatus := if reopens r f then .pending else r.reviewStatus
    reviewedBy := if reopens r f then none else r.reviewedBy
    reviewedAt := if reopens r f then none else r.reviewedAt
    fingerprintA := f.fingerprintA
    fingerprintB := f.fingerprintB
    stateFingerprintA := some f.stateFingerprintA
    stateFingerprintB := some f.stateFingerprintB
    lastRunId := some runId
    updatedAt := now }

/-- The row of a pair that is found for the first time. -/
def newRecommendation (b : Board) (now : Time) (projectId runId : Uuid) (f : Finding)
    (ordered : f.aId < f.bId) : Recommendation where
  id := b.recommendations.newKey
  projectId := projectId
  aId := f.aId
  bId := f.bId
  classification := f.classification
  similarity := f.similarity
  explanation := f.explanation
  differences := f.differences
  fingerprintA := f.fingerprintA
  fingerprintB := f.fingerprintB
  stateFingerprintA := some f.stateFingerprintA
  stateFingerprintB := some f.stateFingerprintB
  reviewStatus := .pending
  reviewedBy := none
  reviewedAt := none
  removedTestcaseId := none
  lastRunId := some runId
  createdAt := now
  updatedAt := now
  ordered := ordered

/-- `INSERT … ON CONFLICT … DO UPDATE … WHERE review_status <> 'removed'`, for one finding. -/
def upsert (b : Board) (now : Time) (projectId runId : Uuid) (f : Finding) :
    Except Failure Board :=
  if h : ∃ r ∈ b.recommendations, r.ofPair projectId f.aId f.bId = true then
    .ok (b.updateRecommendations
      (fun r ↦ r.ofPair projectId f.aId f.bId && r.reviewStatus ≠ .removed)
      (redescribe now runId f) fun _ ↦ ⟨rfl, rfl, rfl, rfl⟩)
  else if ordered : f.aId < f.bId then
    .ok { b with
      recommendations :=
        b.recommendations.push (b.newRecommendation now projectId runId f ordered) rfl
      onePair := by
        intro r hr r' hr' hproject ha hb
        have hnew : ∀ r₀ ∈ b.recommendations, r₀.projectId = projectId → r₀.aId = f.aId →
            r₀.bId = f.bId → False := by
          intro r₀ hr₀ h₁ h₂ h₃
          exact h ⟨r₀, hr₀, decide_eq_true ⟨h₁, h₂, h₃⟩⟩
        rcases Table.mem_push.mp hr with hr | rfl
        · rcases Table.mem_push.mp hr' with hr' | rfl
          · exact b.onePair r hr r' hr' hproject ha hb
          · exact (hnew r hr hproject ha hb).elim
        · rcases Table.mem_push.mp hr' with hr' | rfl
          · exact (hnew r' hr' hproject.symm ha.symm hb.symm).elim
          · rfl }
  else .error (.check "review_recommendations_ordered_pair")

def upsertAll (now : Time) (projectId runId : Uuid) : List Finding → Board → Except Failure Board
  | [], b => .ok b
  | f :: findings, b => do
      let b ← b.upsert now projectId runId f
      upsertAll now projectId runId findings b

/-- The pending pairs of the project that the run has not found become obsolete. -/
def sweep (b : Board) (now : Time) (projectId runId : Uuid) : Board :=
  b.updateRecommendations
    (fun r ↦ r.projectId = projectId ∧ r.reviewStatus = .pending ∧ r.lastRunId ≠ some runId)
    (fun r ↦ { r with reviewStatus := .obsolete, updatedAt := now }) fun _ ↦ ⟨rfl, rfl, rfl, rfl⟩

def complete (b : Board) (now : Time) (runId : Uuid) (analysed pairsFound : ℕ)
    (truncated : Bool) : Board :=
  { b with
    runs := b.runs.updateWhere (fun run ↦ run.id = runId ∧ run.status = "running")
      (fun run ↦ { run with
        status := "completed"
        testcasesAnalyzed := some analysed
        pairsFound := some pairsFound
        truncated := truncated
        finishedAt := some now }) fun _ ↦ rfl }

def isRunning (b : Board) (runId : Uuid) : Bool :=
  (b.runs.find runId).any fun run ↦ run.status = "running"

/-- One transaction; a run that is not running any more writes nothing. -/
def persist (b : Board) (now : Time) (runId projectId : Uuid) (analysed : ℕ) (a : Analysis) :
    Except Failure Board :=
  if b.isRunning runId then do
    let b ← upsertAll now projectId runId a.findings
      (b.complete now runId analysed a.findings.length a.truncated)
    .ok (b.sweep now projectId runId)
  else .ok b

end Board

/-! ## Whether a recommendation can be decided -/

inductive StaleReason where
  | content
  | state
  | unverified
deriving DecidableEq, Repr

omit [Runtime] in
def StaleReason.message : StaleReason → String
  | content =>
      "One of these test cases changed after the analysis. Re-run the analysis before reviewing this finding."
  | state =>
      "The status, suite, priority, owner or other details of one of these test cases changed after the analysis. Re-run the analysis before reviewing this finding."
  | unverified =>
      "This finding was recorded before change tracking existed, so it cannot be verified as current. Re-run the analysis before reviewing it."

def staleReasonOf (r : Recommendation) (a b : ComparableCase) : Option StaleReason :=
  if a.fingerprint ≠ r.fingerprintA ∨ b.fingerprint ≠ r.fingerprintB then some .content
  else if r.stateFingerprintA = none ∨ r.stateFingerprintB = none then some .unverified
  else if some a.stateFingerprint ≠ r.stateFingerprintA ∨ some b.stateFingerprint ≠ r.stateFingerprintB
  then some .state
  else none

/-- A recommendation with its two live test cases. -/
structure Pair where
  recommendation : Recommendation
  a : Case
  b : Case

def assertFresh (p : Pair) : Except Failure Unit :=
  match staleReasonOf p.recommendation (toComparable p.a.toTestcaseSource)
      (toComparable p.b.toTestcaseSource) with
  | some reason => .error (.conflict reason.message)
  | none => .ok ()

def assertPending (r : Recommendation) : Except Failure Unit :=
  if r.reviewStatus = .pending then .ok ()
  else .error (.conflict
    s!"This recommendation was already reviewed ({r.reviewStatus.text}).")

/-- A text that is no id is `none`. -/
def assertPairMember (r : Recommendation) (testcaseId : Option Uuid) : Except Failure Uuid :=
  match testcaseId.filter fun id ↦ id = r.aId ∨ id = r.bId with
  | some id => .ok id
  | none => .error (.badRequest
      "testcaseId must be one of the two test cases in this recommendation.")

/-! ## Edits -/

inductive EditField where
  | title
  | description
  | preconditions
  | postconditions
  | testData
deriving DecidableEq, Repr

namespace EditField

def all : List EditField := [title, description, preconditions, postconditions, testData]

omit [Runtime] in
def name : EditField → String
  | title => "title"
  | description => "description"
  | preconditions => "preconditions"
  | postconditions => "postconditions"
  | testData => "testData"

end EditField

/-- `requiredFields` is what the check of the custom fields the project requires says of the case. -/
structure EditBody where
  testcaseId : Option Uuid
  confirm : Bool
  text : EditField → Arg JsonText
  steps : Arg StepsColumn
  requiredFields : Except Failure Unit

/-- The fields that are to change, with the suite and the owner the case has. -/
structure CaseChanges where
  text : EditField → Option String
  steps : Option (List StepItem)
  suiteId : Option Uuid
  ownerId : Option Uuid

def maxStepsOnEdit : ℕ := 200
def maxStepFieldChars : ℕ := 5000

omit [Runtime] in
def validateStepField (name : String) : Scalar → Except Failure Unit
  | .absent => .ok ()
  | .text s =>
      if maxStepFieldChars < jsLength s then
        .error (.badRequest
          s!"Each step's {name} must be text of at most {maxStepFieldChars} characters.")
      else .ok ()
  | .number _ | .other => .error (.badRequest
      s!"Each step's {name} must be text of at most {maxStepFieldChars} characters.")

omit [Runtime] in
def validateStep : StepItem → Except Failure Unit
  | .scalar (.text s) => validateStepField "action" (.text s)
  | .scalar _ => .error (.badRequest
      "Each step must be text or an object with action and expectedResult.")
  | .object action _ _ expectedResult _ => do
      validateStepField "action" action
      validateStepField "expected result" expectedResult

omit [Runtime] in
def validateEditedSteps : StepsColumn → Except Failure (List StepItem)
  | .array items =>
      if maxStepsOnEdit < items.length then
        .error (.badRequest s!"steps must be an array of at most {maxStepsOnEdit} steps.")
      else do
        items.forM validateStep
        .ok items
  | .text _ | .other =>
      .error (.badRequest s!"steps must be an array of at most {maxStepsOnEdit} steps.")

omit [Runtime] in
def readEditField (field : EditField) : Arg JsonText → Except Failure (Option String)
  | .undefined => .ok none
  | .value (.text s) =>
      if field = .title ∧ jsTrim s = "" then .error (.badRequest "title cannot be empty.")
      else .ok (some s)
  | .null | .value .other => .error (.badRequest s!"{field.name} must be a string.")

omit [Runtime] in
/-- What is to change, before the suite and the owner are known. -/
def readChanges (body : EditBody) : Except Failure CaseChanges := do
  let title ← readEditField .title (body.text .title)
  let description ← readEditField .description (body.text .description)
  let preconditions ← readEditField .preconditions (body.text .preconditions)
  let postconditions ← readEditField .postconditions (body.text .postconditions)
  let testData ← readEditField .testData (body.text .testData)
  let steps ← match body.steps with
    | .undefined => .ok none
    | .null => .error (.badRequest
        s!"steps must be an array of at most {maxStepsOnEdit} steps.")
    | .value column => (validateEditedSteps column).map some
  let text : EditField → Option String
    | .title => title
    | .description => description
    | .preconditions => preconditions
    | .postconditions => postconditions
    | .testData => testData
  if (∀ field ∈ EditField.all, text field = none) ∧ steps = none then
    .error (.badRequest "No editable fields were provided.")
  else .ok ⟨text, steps, none, none⟩

omit [Runtime] in
def CaseChanges.names (changes : CaseChanges) : List String :=
  (EditField.all.filter fun field ↦ (changes.text field).isSome).map EditField.name ++
    if changes.steps.isSome then ["steps"] else []

omit [Runtime] in
/-- `SET title = COALESCE($3, title), …`; the suite and the owner are set as they are given. -/
def CaseChanges.apply (changes : CaseChanges) (uid : Uuid) (now : Time) (c : Case) : Case :=
  { c with
    suiteId := changes.suiteId
    title := (changes.text .title).or c.title
    description := (changes.text .description).or c.description
    preconditions := (changes.text .preconditions).or c.preconditions
    postconditions := (changes.text .postconditions).or c.postconditions
    testData := (changes.text .testData).or c.testData
    steps := changes.steps.elim c.steps .array
    ownerId := changes.ownerId
    updatedBy := some uid
    updatedAt := now }

/-- `assertTestcaseFieldLengths`: of the fields an edit has, only the title is bounded. -/
def assertFieldLengths (changes : CaseChanges) : Except Failure Unit :=
  if (changes.text .title).any fun title ↦ 512 < jsLength title then
    .error (.badRequest "Title must be at most 512 characters")
  else .ok ()

def stepsText (steps : StepsColumn) : String :=
  joinLines ((parseSteps steps).zipIdx.map fun (s, i) ↦
    s!"{i + 1}. {s.action}" ++ if s.expected = "" then "" else s!"\n   Expected: {s.expected}")

/-- The fields that differ, in reading order. -/
def changesBetween (before after : Case) : List FieldChange :=
  let rows : List FieldChange := [
    ⟨.title, plain before.title, plain after.title⟩,
    ⟨.description, plain before.description, plain after.description⟩,
    ⟨.preconditions, plain before.preconditions, plain after.preconditions⟩,
    ⟨.steps, stepsText before.steps, stepsText after.steps⟩,
    ⟨.testData, plain before.testData, plain after.testData⟩,
    ⟨.postconditions, plain before.postconditions, plain after.postconditions⟩]
  rows.filter fun row ↦ row.before ≠ row.after

/-! ## Statements -/

/-- Row locks: for each row, the call that holds it. -/
abbrev Locks := Uuid → Option ℕ

namespace Locks

omit [Runtime] in
/-- Nobody else holds the row. -/
def free (l : Locks) (caller : ℕ) (id : Uuid) : Bool := l id = none ∨ l id = some caller

def take (l : Locks) (caller : ℕ) (id : Uuid) : Locks := Function.update l id (some caller)

/-- The end of a transaction. -/
def release (l : Locks) (caller : ℕ) : Locks := fun id ↦ if l id = some caller then none else l id

end Locks

/-- What a transaction writes when it commits. -/
structure Decision where
  recommendationId : Uuid
  status : ReviewStatus
  reviewedBy : Option Uuid
  removedTestcaseId : Option Uuid
  finding : Option Finding
  audits : List Audit

/-- The tables with their locks, the calls whose statements have written to them, and the answers. -/
structure Data where
  board : Board
  now : Time
  recommendationLocks : Locks
  caseLocks : Locks
  writers : List ℕ
  responses : List (ℕ × Except Failure Unit)

/-- The statements.  What a transaction writes is seen when it commits; until then it holds the locks
on the rows it has read `FOR UPDATE` or updated. -/
inductive Write where
  | loadForAction (projectId recommendationId : Uuid)
  | lockRecommendation (caller : ℕ) (projectId recommendationId : Uuid)
  | lockCases (caller : ℕ) (projectId aId bId : Uuid)
  | markReviewed (caller : ℕ) (recommendationId : Uuid)
  | selectCase (projectId testcaseId : Uuid)
  | updateTestCase (caller : ℕ) (testcaseId uid : Uuid) (changes : CaseChanges)
  | log (caller : ℕ) (audit : Audit)
  | selectAfter (projectId testcaseId : Uuid)
  | selectPair (projectId aId bId : Uuid)
  | commit (caller : ℕ) (decision : Decision)
  | rollback (caller : ℕ)
  | respond (caller : ℕ) (outcome : Except Failure Unit)

abbrev Reply : Write → Type
  | .loadForAction _ _ => Option Pair
  | .lockRecommendation _ _ _ => Option Recommendation
  | .lockCases _ _ _ _ | .selectPair _ _ _ => Option (Case × Case)
  | .markReviewed _ _ => Bool
  | .selectCase _ _ | .updateTestCase _ _ _ _ | .selectAfter _ _ => Option Case
  | .log _ _ | .commit _ _ | .rollback _ | .respond _ _ => Unit

namespace Board

def liveCase (b : Board) (projectId id : Uuid) : Option Case :=
  (b.testcases.find id).filter fun c ↦ c.live && c.projectId = projectId

def livePair (b : Board) (projectId aId bId : Uuid) : Option (Case × Case) := do
  let x ← b.liveCase projectId aId
  let y ← b.liveCase projectId bId
  pure (x, y)

def recommendation (b : Board) (projectId id : Uuid) : Option Recommendation :=
  (b.recommendations.find id).filter fun r ↦ r.projectId = projectId

def loadForAction (b : Board) (projectId id : Uuid) : Option Pair := do
  let r ← b.recommendation projectId id
  let cases ← b.livePair projectId r.aId r.bId
  pure ⟨r, cases.1, cases.2⟩

def updateCase (b : Board) (p : Case → Bool) (f : Case → Case) (hf : ∀ c, (f c).id = c.id) :
    Board :=
  { b with testcases := b.testcases.updateWhere p f hf }

/-- `UPDATE testcases SET … WHERE id = $1 AND deleted_at IS NULL` -/
def editCase (b : Board) (now : Time) (id uid : Uuid) (changes : CaseChanges) : Board :=
  b.updateCase (fun c ↦ c.id = id && c.live) (changes.apply uid now) fun _ ↦ rfl

def removeCase (b : Board) (now : Time) (id : Uuid) (uid : Option Uuid) : Board :=
  b.updateCase (fun c ↦ c.id = id && c.live)
    (fun c ↦ { c with
      deletedAt := some now, deletedBy := uid, updatedBy := uid, updatedAt := now }) fun _ ↦ rfl

/-- The statements of a decision on the recommendation. -/
def decided (now : Time) (d : Decision) (r : Recommendation) : Recommendation :=
  let marked : Recommendation := { r with
    reviewStatus := d.status
    reviewedBy := d.reviewedBy
    reviewedAt := some now
    removedTestcaseId := d.removedTestcaseId
    updatedAt := now }
  match d.finding with
  | none => marked
  | some f =>
      { marked with
        classification := f.classification
        similarity := f.similarity
        explanation := f.explanation
        differences := f.differences
        fingerprintA := f.fingerprintA
        fingerprintB := f.fingerprintB
        stateFingerprintA := some f.stateFingerprintA
        stateFingerprintB := some f.stateFingerprintB }

theorem decided_pair (now : Time) (d : Decision) (r : Recommendation) :
    (decided now d r).id = r.id ∧ (decided now d r).projectId = r.projectId ∧
      (decided now d r).aId = r.aId ∧ (decided now d r).bId = r.bId := by
  unfold decided
  cases d.finding with
  | none => exact ⟨rfl, rfl, rfl, rfl⟩
  | some f => exact ⟨rfl, rfl, rfl, rfl⟩

def decide (b : Board) (now : Time) (d : Decision) : Board :=
  let b := b.updateRecommendations (fun r ↦ r.id = d.recommendationId) (decided now d)
    (decided_pair now d)
  let b := match d.removedTestcaseId with
    | none => b
    | some id => b.removeCase now id d.reviewedBy
  { b with audits := b.audits ++ d.audits }

theorem rows_decide (b : Board) (now : Time) (d : Decision) :
    Table.UpdatedRows b.recommendations (b.decide now d).recommendations
      (fun r ↦ r.id = d.recommendationId) (decided now d) := by
  unfold decide
  dsimp only
  split
  · rfl
  · rfl

end Board

theorem recommendation_of_load {b : Board} {projectId id : Uuid} {p : Pair}
    (h : b.loadForAction projectId id = some p) :
    b.recommendation projectId id = some p.recommendation ∧
      b.livePair projectId p.recommendation.aId p.recommendation.bId = some (p.a, p.b) := by
  unfold Board.loadForAction at h
  obtain ⟨r, hr, h⟩ := Option.bind_eq_some_iff.mp h
  obtain ⟨cases, hcases, h⟩ := Option.bind_eq_some_iff.mp h
  obtain rfl := Option.some.inj h
  exact ⟨hr, hcases⟩

def Data.unlock (d : Data) (caller : ℕ) : Data :=
  { d with
    recommendationLocks := d.recommendationLocks.release caller
    caseLocks := d.caseLocks.release caller }

def Data.wrote (d : Data) (caller : ℕ) (b : Board) : Data :=
  { d with board := b, writers := d.writers ++ [caller] }

def perform : (w : Write) → Service Failure Data (Reply w)
  | .loadForAction projectId id => Service.query fun d ↦ d.board.loadForAction projectId id
  | .lockRecommendation caller projectId id => fun d ↦
      (.ok (d.board.recommendation projectId id),
        { d with recommendationLocks := d.recommendationLocks.take caller id })
  | .lockCases caller projectId aId bId => fun d ↦
      (.ok (d.board.livePair projectId aId bId),
        { d with caseLocks := (d.caseLocks.take caller aId).take caller bId })
  | .markReviewed caller id => fun d ↦
      (.ok ((d.board.recommendations.find id).any fun r ↦ r.reviewStatus = .pending),
        { d with recommendationLocks := d.recommendationLocks.take caller id })
  | .selectCase projectId id => Service.query fun d ↦ d.board.liveCase projectId id
  | .updateTestCase caller id uid changes => fun d ↦
      let b := d.board.editCase d.now id uid changes
      if (d.board.testcases.find id).any Case.live then
        (.ok (b.testcases.find id), d.wrote caller b)
      else (.ok none, d)
  | .log caller audit => Service.write fun d ↦
      d.wrote caller { d.board with audits := d.board.audits ++ [audit] }
  | .selectAfter projectId id => Service.query fun d ↦
      (d.board.testcases.find id).filter fun c ↦ c.projectId = projectId
  | .selectPair projectId aId bId => Service.query fun d ↦ d.board.livePair projectId aId bId
  | .commit caller decision => Service.write fun d ↦
      (d.wrote caller (d.board.decide d.now decision)).unlock caller
  | .rollback caller => Service.write fun d ↦ d.unlock caller
  | .respond caller outcome => Service.write fun d ↦
      { d with responses := d.responses ++ [(caller, outcome)] }

/-- The statement has to wait for a row that another call has locked. -/
def waits (d : Data) : Write → Bool
  | .lockRecommendation caller _ id | .markReviewed caller id =>
      !d.recommendationLocks.free caller id
  | .lockCases caller _ aId bId => !(d.caseLocks.free caller aId && d.caseLocks.free caller bId)
  | .updateTestCase caller id _ _ => !d.caseLocks.free caller id
  | _ => false

/-! ## Requests -/

abbrev Procedure (α : Type) := Proc Data Reply Failure α

/-- The decision is committed, an error rolls back. -/
def transaction (caller : ℕ) (p : Procedure Decision) : Procedure Unit := do
  let outcome ← p.attempt
  match outcome with
  | .ok decision => issue (Write.commit caller decision)
  | .error e => do
      let _ ← issue (Write.rollback caller)
      fail e

def lockPair (caller : ℕ) (projectId id : Uuid) : Procedure Pair := do
  let found : Option Recommendation ← issue (Write.lockRecommendation caller projectId id)
  match found with
  | none => fail (.notFound "Recommendation not found")
  | some r => do
      ofExcept (assertPending r)
      let cases : Option (Case × Case) ← issue (Write.lockCases caller projectId r.aId r.bId)
      match cases with
      | none => fail (.notFound "One of the test cases in this recommendation no longer exists.")
      | some (a, b) => pure ⟨r, a, b⟩

def markReviewed (caller : ℕ) (id : Uuid) : Procedure Unit := do
  let marked : Bool ← issue (Write.markReviewed caller id)
  require marked (.conflict "This recommendation was already reviewed.")

def recommendationAudit (projectId : Uuid) (userId : Option Uuid) (action : String) (id : Uuid)
    (diff : AuditDiff) : Audit :=
  ⟨projectId, userId, action, "review_recommendation", id, none, diff⟩

def keep (caller : ℕ) (userId : Option Uuid) (projectId id : Uuid) : Procedure Unit :=
  transaction caller do
    let p ← lockPair caller projectId id
    ofExcept (assertFresh p)
    markReviewed caller id
    pure {
      recommendationId := id, status := .kept, reviewedBy := userId, removedTestcaseId := none
      finding := none
      audits := [recommendationAudit projectId userId "review_board_kept" id
        (.kept p.recommendation.aId p.recommendation.bId)] }

structure RemoveBody where
  testcaseId : Option Uuid
  confirm : Bool

def removal (p : Pair) (userId : Option Uuid) (projectId id testcaseId : Uuid) : Decision :=
  let target := if testcaseId = p.recommendation.aId then p.a else p.b
  let keptId := if testcaseId = p.recommendation.aId then p.recommendation.bId
    else p.recommendation.aId
  { recommendationId := id
    status := .removed
    reviewedBy := userId
    removedTestcaseId := some testcaseId
    finding := none
    audits := [
      ⟨projectId, userId, "testcase_deleted", "testcase", testcaseId,
        some (target.externalId ++ " - " ++ target.title.getD "null"), .deleted target⟩,
      recommendationAudit projectId userId "review_board_removed" id
        (.removed testcaseId keptId p.recommendation.classification
          p.recommendation.similarity)] }

def remove (caller : ℕ) (userId : Option Uuid) (projectId id : Uuid) (body : RemoveBody) :
    Procedure Unit := do
  require body.confirm (.badRequest "Removal requires explicit confirmation (confirm: true).")
  transaction caller do
    let p ← lockPair caller projectId id
    let testcaseId ← ofExcept (assertPairMember p.recommendation body.testcaseId)
    ofExcept (assertFresh p)
    markReviewed caller id
    pure (removal p userId projectId id testcaseId)

/-- `updateTestCase`, and the entry it leaves.  An update whose case lacks a required field is rolled
back; here it is not made. -/
def updateTestCase (caller : ℕ) (userId : Option Uuid) (projectId testcaseId : Uuid)
    (changes : CaseChanges) (requiredFields : Except Failure Unit) : Procedure Unit := do
  let uid ← ofExcept (userId.elim (.error (.unauthorized "Unauthorized")) .ok)
  ofExcept (assertFieldLengths changes)
  let before : Option Case ← issue (Write.selectCase projectId testcaseId)
  match before with
  | none => fail (.notFound "Test case not found")
  | some before => do
      ofExcept requiredFields
      let after : Option Case ← issue (Write.updateTestCase caller testcaseId uid changes)
      issue (Write.log caller ⟨projectId, some uid, "testcase_updated", "testcase", testcaseId,
        some (after.elim "undefined - undefined" fun c ↦
          c.externalId ++ " - " ++ c.title.getD "null"),
        .updated before after⟩)

def edited (p : Pair) (userId : Option Uuid) (projectId id testcaseId : Uuid)
    (changes : CaseChanges) (fieldChanges : List FieldChange) (now : Option (Case × Case)) :
    Decision :=
  let finding := now.map fun cases ↦
    rescorePair (toComparable cases.1.toTestcaseSource) (toComparable cases.2.toTestcaseSource)
  { recommendationId := id
    status := .edited
    reviewedBy := userId
    removedTestcaseId := none
    finding := finding
    audits := [recommendationAudit projectId userId "review_board_edited" id
      (.edited testcaseId changes.names fieldChanges
        (finding.map fun f ↦ (p.recommendation.similarity, f.similarity)))] }

def edit (caller : ℕ) (userId : Option Uuid) (projectId id : Uuid) (body : EditBody) :
    Procedure Unit := do
  let loaded : Option Pair ← issue (Write.loadForAction projectId id)
  match loaded with
  | none => fail (.notFound "Recommendation not found")
  | some p => do
      let testcaseId ← ofExcept (assertPairMember p.recommendation body.testcaseId)
      ofExcept (assertPending p.recommendation)
      ofExcept (assertFresh p)
      require body.confirm
        (.badRequest "Saving an edit requires explicit confirmation (confirm: true).")
      let changes ← ofExcept (readChanges body)
      let current : Option Case ← issue (Write.selectCase projectId testcaseId)
      match current with
      | none => fail (.notFound "Test case not found")
      | some current => do
          updateTestCase caller userId projectId testcaseId
            { changes with suiteId := current.suiteId, ownerId := current.ownerId }
            body.requiredFields
          let after : Option Case ← issue (Write.selectAfter projectId testcaseId)
          transaction caller do
            markReviewed caller id
            let cases : Option (Case × Case) ←
              issue (Write.selectPair projectId p.recommendation.aId p.recommendation.bId)
            pure (edited p userId projectId id testcaseId changes
              (after.elim [] (changesBetween current)) cases)

inductive Request where
  | keep (userId : Option Uuid)
  | remove (userId : Option Uuid) (body : RemoveBody)
  | edit (userId : Option Uuid) (body : EditBody)

/-- What comes of a request is answered. -/
def Request.run (caller : ℕ) (projectId id : Uuid) (request : Request) : Procedure Unit := do
  let outcome ← Proc.attempt (match request with
    | .keep userId => ReviewBoard.keep caller userId projectId id
    | .remove userId body => ReviewBoard.remove caller userId projectId id body
    | .edit userId body => ReviewBoard.edit caller userId projectId id body)
  issue (Write.respond caller outcome)

abbrev Requests := Config Data (Procedure Unit)

/-- The write the call asks for has to wait. -/
def waiting (c : Requests) (k : ℕ) : Bool :=
  (moving c (.advance k : Move Empty)).any (waits c.shared)

/-- The next statement of a call, unless it has to wait. -/
def step (c : Requests) (k : ℕ) : Requests :=
  if waiting c k then c
  else c.move (fun none : Empty ↦ none.elim) (fun _ ↦ Proc.exec perform) (.advance k)

end Tables

end Tesbo.ReviewBoard
