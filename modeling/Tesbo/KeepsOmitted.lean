import Tesbo.McpTools

/-!
# An update of a tool keeps what it does not mention

What a tool sends back for what it was not told is what it read before, so it is kept where it is
still that when the update is made.
-/

namespace Tesbo.Mcp

open Reasoning Service
open ListCaches (Shared Serialized commit onDb updateRow updateWithDetails updateSuiteRow)

/-! ## The property and its condition -/

/-- The columns a body does not mention are those of before.  A body that clears the key of a link
mentions its address; who made the update, and when, is of the update. -/
structure KeptTestcase (body : TestcaseBody) (t t' : Testcase) : Prop where
  project : t'.projectId = t.projectId
  suite : body.suiteId = .undefined → t'.suiteId = t.suiteId
  owner : body.ownerId = .undefined → t'.ownerId = t.ownerId
  externalId : body.externalId = .undefined → t'.externalId = t.externalId
  text : ∀ c ∈ TextColumn.all, body.text c = .undefined → body.clears c = false →
    t'.text c = t.text c
  steps : body.steps = .undefined → body.stepsJson = .undefined → t'.steps = t.steps
  created : t'.createdBy = t.createdBy
  deleted : t'.deletedAt = t.deletedAt ∧ t'.deletedBy = t.deletedBy

structure KeptSuite (body : SuiteBody) (x x' : Suite) : Prop where
  project : x'.projectId = x.projectId
  parent : body.parentId = .undefined → x'.parentId = x.parentId
  name : body.name = .undefined → x'.name = x.name
  position : body.position = .undefined → x'.position = x.position
  description : body.description = .undefined → x'.description = x.description
  preconditions : body.preconditions = .undefined → x'.preconditions = x.preconditions
  deleted : x'.deletedAt = x.deletedAt ∧ x'.deletedBy = x.deletedBy

instance (body : TestcaseBody) (t t' : Testcase) : Decidable (KeptTestcase body t t') :=
  decidable_of_iff (t'.projectId = t.projectId ∧
      (body.suiteId = .undefined → t'.suiteId = t.suiteId) ∧
      (body.ownerId = .undefined → t'.ownerId = t.ownerId) ∧
      (body.externalId = .undefined → t'.externalId = t.externalId) ∧
      (∀ c ∈ TextColumn.all, body.text c = .undefined → body.clears c = false →
        t'.text c = t.text c) ∧
      (body.steps = .undefined → body.stepsJson = .undefined → t'.steps = t.steps) ∧
      t'.createdBy = t.createdBy ∧ t'.deletedAt = t.deletedAt ∧ t'.deletedBy = t.deletedBy)
    ⟨fun ⟨h₁, h₂, h₃, h₄, h₅, h₆, h₇, h₈⟩ ↦ ⟨h₁, h₂, h₃, h₄, h₅, h₆, h₇, h₈⟩,
      fun h ↦ ⟨h.project, h.suite, h.owner, h.externalId, h.text, h.steps, h.created, h.deleted⟩⟩

instance (body : SuiteBody) (x x' : Suite) : Decidable (KeptSuite body x x') :=
  decidable_of_iff (x'.projectId = x.projectId ∧
      (body.parentId = .undefined → x'.parentId = x.parentId) ∧
      (body.name = .undefined → x'.name = x.name) ∧
      (body.position = .undefined → x'.position = x.position) ∧
      (body.description = .undefined → x'.description = x.description) ∧
      (body.preconditions = .undefined → x'.preconditions = x.preconditions) ∧
      x'.deletedAt = x.deletedAt ∧ x'.deletedBy = x.deletedBy)
    ⟨fun ⟨h₁, h₂, h₃, h₄, h₅, h₆, h₇⟩ ↦ ⟨h₁, h₂, h₃, h₄, h₅, h₆, h₇⟩,
      fun h ↦ ⟨h.project, h.parent, h.name, h.position, h.description, h.preconditions, h.deleted⟩⟩

section Property

variable [Unicode] [QueryTexts]

/-- Right after the update of a tool, its row has what it had right before, but for what the
arguments mention. -/
def KeepsOmitted (s : Shared) (w : Write) : Prop :=
  match w with
  | .app _ => True
  | .updateTestcase _ u => ∀ t ∈ s.data.db.testcases, t.id = u.before.id →
      (∀ t' ∈ (after (perform w) s).data.db.testcases, t'.id = t.id →
        KeptTestcase u.args.body t t') ∧
      (u.args.sourceRefs = none → ((after (perform w) s).data.details t.id).sourceRefs =
        (s.data.details t.id).sourceRefs)
  | .updateSuite _ u => ∀ x ∈ s.data.db.suites, u.suiteId.uuid = some x.id →
      ∀ x' ∈ (after (perform w) s).data.db.suites, x'.id = x.id → KeptSuite u.args x x'

instance (s : Shared) (w : Write) : Decidable (KeepsOmitted s w) := by
  cases w with
  | app w => exact instDecidableTrue
  | updateTestcase call u =>
      exact inferInstanceAs (Decidable (∀ t ∈ s.data.db.testcases, _ →
        (∀ t' ∈ Db.testcases _, _ → _) ∧ (_ → _)))
  | updateSuite call u =>
      exact inferInstanceAs (Decidable (∀ x ∈ s.data.db.suites, _ → ∀ x' ∈ Db.suites _, _ → _))

/-- The suite and the owner that a tool read, and the parent it was shown, are still those of the
row, where its arguments leave them out. -/
def StillRead (s : Shared) : Write → Prop
  | .app _ => True
  | .updateTestcase _ u => ∀ t ∈ s.data.db.testcases, t.id = u.before.id →
      (u.args.body.suiteId = .undefined → u.suiteId = t.suiteId) ∧
        (u.args.body.ownerId = .undefined → u.ownerId = t.ownerId)
  | .updateSuite _ u => ∀ x ∈ s.data.db.suites, u.suiteId.uuid = some x.id →
      u.args.parentId = .undefined → u.parentId = x.parentId

omit [Unicode] [QueryTexts] in
instance (s : Shared) (w : Write) : Decidable (StillRead s w) := by
  cases w with
  | app w => exact instDecidableTrue
  | updateTestcase call u =>
      exact inferInstanceAs (Decidable (∀ t ∈ s.data.db.testcases, _ → (_ → _) ∧ (_ → _)))
  | updateSuite call u =>
      exact inferInstanceAs (Decidable (∀ x ∈ s.data.db.suites, _ → _ → _))

end Property

/-! ## What an update writes -/

section Updates

variable {db : Db} {s : Shared}

theorem KeptTestcase.refl (body : TestcaseBody) (t : Testcase) : KeptTestcase body t t :=
  ⟨rfl, fun _ ↦ rfl, fun _ ↦ rfl, fun _ ↦ rfl, fun _ _ _ _ ↦ rfl, fun _ _ ↦ rfl, rfl, rfl, rfl⟩

theorem KeptSuite.refl (body : SuiteBody) (x : Suite) : KeptSuite body x x :=
  ⟨rfl, fun _ ↦ rfl, fun _ ↦ rfl, fun _ ↦ rfl, fun _ ↦ rfl, fun _ ↦ rfl, rfl, rfl⟩

/-- A text that is not sent is stored as none. -/
theorem storeTexts_none {text text' : TextColumn → Option String}
    (h : storeTexts text = .ok text') {c : TextColumn} (hc : text c = none) : text' c = none := by
  unfold storeTexts at h
  split at h
  · obtain rfl := Except.ok.inj h
    have hstore : storeText c none = .ok none := by
      unfold storeText
      split
      · contradiction
      · rfl
    dsimp only
    rw [hc, hstore]
    rfl
  · cases h

/-- What an update writes into its row: what was sent, or nothing where nothing was. -/
def Wrote (db : Db) (id : Uuid) (body : TestcaseBody) (db' : Db) : Prop :=
  ∃ now uid suiteId ownerId text externalId,
    body.suiteId.nullish.map IdText.uuid = suiteId.map some ∧
    body.ownerId.nullish.map IdText.uuid = ownerId.map some ∧
    (∀ c, body.text c = .undefined → text c = none) ∧
    (body.externalId = .undefined → externalId = none) ∧
    Table.UpdatedRows db.testcases db'.testcases (fun t ↦ t.id = id && t.live)
      (Testcase.updated now uid suiteId ownerId text body.clears body.givenSteps externalId)

theorem wrote_updateTestCaseWithClient {id uid : Uuid} {body : TestcaseBody}
    {newExternalId : Option String} (hnew : body.externalId = .undefined → newExternalId = none) :
    wp (updateTestCaseWithClient id uid body newExternalId) (fun _ db' ↦ Wrote db id body db')
      (fun _ _ ↦ True) db := by
  have hE : ∀ _ : Failure, True := fun _ ↦ trivial
  unfold updateTestCaseWithClient
  refine wp_ofExcept_seq hE fun duration hduration ↦ ?_
  refine wp_castUuid?_seq hE fun suiteId hsuite ↦ ?_
  refine wp_castUuid?_seq hE fun ownerId howner ↦ ?_
  refine wp_ofExcept_seq hE fun text htext ↦ ?_
  refine wp_query_seq ?_
  rw [wp_bind]
  refine wp_updateTestcasesSuite hE fun _ ↦ ?_
  rw [wp_ofExcept]
  refine ⟨fun _ _ ↦ ⟨db.now, uid, suiteId, ownerId, text, newExternalId, hsuite, howner, ?_, hnew,
    rfl⟩, fun _ _ ↦ trivial⟩
  intro c hc
  refine storeTexts_none htext ?_
  unfold TestcaseBody.updateText
  split
  · rw [hc] at hduration
    exact (Except.ok.inj hduration).symm
  · rw [hc]
    rfl

theorem wrote_updateRow [Unicode] {before : Testcase} {uid : Uuid} {body : TestcaseBody} :
    wp (updateRow before uid body) (fun _ db' ↦ Wrote db before.id body db') (fun _ _ ↦ True)
      db := by
  unfold updateRow
  have hcheck : wp (checkTestCaseExternalIdChange before.projectId before.id before.externalId
      body.externalId) (fun new db' ↦ db' = db ∧ (body.externalId = .undefined → new = none))
      (fun _ _ ↦ True) db := by
    by_cases hsent : body.externalId = .undefined
    · unfold checkTestCaseExternalIdChange
      rw [if_pos hsent]
      exact (wp_pure none).mpr ⟨rfl, fun _ ↦ rfl⟩
    · refine wp_mono checkTestCaseExternalIdChange_spec (fun new db' h ↦ ?_) fun _ _ _ ↦ trivial
      exact ⟨h.1, fun h ↦ absurd h hsent⟩
  refine wp_seq hcheck ?_
  rintro newExternalId _ ⟨rfl, hnew⟩
  refine wp_seq (wrote_updateTestCaseWithClient hnew) fun _ db' hwrote ↦ ?_
  rw [wp_whenSome]
  refine ⟨fun _ ↦ hwrote, fun next _ ↦ ?_⟩
  unfold renameSnapshots
  exact (wp_write _).mpr hwrote

theorem nullish_resent (id : Option Uuid) :
    (resent id).nullish.map IdText.uuid = id.map some := by
  cases id with
  | none => rfl
  | some id => rfl

/-- What is read and sent back is what was read. -/
theorem eq_of_orRead {arg : Arg IdText} {read written : Option Uuid}
    (h : (orRead arg read).nullish.map IdText.uuid = written.map some)
    (harg : arg = .undefined) : written = read := by
  unfold orRead at h
  rw [if_pos harg, nullish_resent] at h
  exact (Option.map_injective (fun _ _ ↦ Option.some.inj) h).symm

/-- The row that is updated keeps what is not mentioned, where what was read is still its own. -/
theorem Wrote.kept {db' : Db} {body : TestcaseBody} {suiteId ownerId : Option Uuid} {id : Uuid}
    (h : Wrote db id (bodyWith body suiteId ownerId) db') {t t' : Testcase}
    (ht : t ∈ db.testcases) (hsuite : body.suiteId = .undefined → suiteId = t.suiteId)
    (howner : body.ownerId = .undefined → ownerId = t.ownerId) (ht' : t' ∈ db'.testcases)
    (hid : t'.id = t.id) : KeptTestcase body t t' := by
  obtain ⟨now, uid, suite, owner, text, externalId, hsuite', howner', htext, hexternal, hrows⟩ := h
  rcases hrows.mem_iff.mp ht' with ⟨hmem, -⟩ | ⟨t₀, ht₀, -, rfl⟩
  · obtain rfl := Table.eq_of_key hmem ht hid
    exact KeptTestcase.refl body t'
  obtain rfl := Table.eq_of_key ht₀ ht hid
  constructor
  case project => rfl
  case suite => exact fun harg ↦ (eq_of_orRead hsuite' harg).trans (hsuite harg)
  case owner => exact fun harg ↦ (eq_of_orRead howner' harg).trans (howner harg)
  case externalId =>
    intro harg
    change externalId.getD t₀.externalId = t₀.externalId
    rw [hexternal harg]
    rfl
  case text =>
    intro c _ harg hclears
    change (if TestcaseBody.clears body c then none else (text c).or (t₀.text c)) = t₀.text c
    rw [hclears, if_neg Bool.false_ne_true, htext c harg]
    rfl
  case steps =>
    intro hsteps hjson
    change (TestcaseBody.givenSteps body).getD t₀.steps = t₀.steps
    unfold TestcaseBody.givenSteps
    rw [hsteps, hjson]
    rfl
  case created => rfl
  case deleted => exact ⟨rfl, rfl⟩

/-! ### Transactions -/

/-- What holds of the data before, and of what the transaction leaves when it goes through. -/
theorem after_commit {call : ℕ} {tx : Service Failure Data Unit} {P : Data → Prop}
    (hsame : P s.data) (htx : wp tx (fun _ d ↦ P d) (fun _ _ ↦ True) s.data) :
    P (after (commit call tx) s).data := by
  have hdone := (of_wp htx).1
  unfold after commit
  rcases hrun : tx s.data with ⟨e | ⟨⟩, d⟩
  · exact hsame
  · exact hdone () d hrun

/-- A statement on the tables leaves the columns that only the lists read. -/
theorem wp_onDb {α : Type} {h : Handler α} {P : Db → Prop} {d : Data}
    (hh : wp h (fun _ db' ↦ P db') (fun _ _ ↦ True) d.db) :
    wp (onDb h) (fun _ d' ↦ P d'.db ∧ d'.details = d.details) (fun _ _ ↦ True) d := by
  have hdone := (of_wp hh).1
  unfold wp onDb
  rcases hrun : h d.db with ⟨e | a, db'⟩
  · exact trivial
  · exact ⟨hdone a db' hrun, rfl⟩

theorem wp_updateWithDetails [Unicode] {u : TestcaseUpdate} {d : Data} :
    wp (updateWithDetails u.before u.uid u.body u.details)
      (fun _ d' ↦ Wrote d.db u.before.id u.body d'.db ∧ d'.details =
        Function.update d.details u.before.id (u.details (d.details u.before.id)))
      (fun _ _ ↦ True) d := by
  unfold updateWithDetails
  refine wp_seq (wp_onDb wrote_updateRow) fun _ d' hwrote ↦ ?_
  unfold ListCaches.setDetails
  refine (wp_write _).mpr ⟨hwrote.1, ?_⟩
  dsimp only
  rw [hwrote.2]

theorem keepsOmitted_updateTestcase [Unicode] [QueryTexts] {call : ℕ} {u : TestcaseUpdate}
    (h : StillRead s (.updateTestcase call u)) : KeepsOmitted s (.updateTestcase call u) := by
  intro t ht hid
  obtain ⟨hsuite, howner⟩ := h t ht hid
  have hbefore : ∀ t' ∈ s.data.db.testcases, t'.id = t.id → KeptTestcase u.args.body t t' := by
    intro t' ht' hid'
    obtain rfl := Table.eq_of_key ht' ht hid'
    exact KeptTestcase.refl u.args.body t'
  refine after_commit (P := fun d ↦ (∀ t' ∈ d.db.testcases, t'.id = t.id →
    KeptTestcase u.args.body t t') ∧ (u.args.sourceRefs = none →
      (d.details t.id).sourceRefs = (s.data.details t.id).sourceRefs)) ⟨hbefore, fun _ ↦ rfl⟩ ?_
  refine wp_mono wp_updateWithDetails (fun _ d hd ↦ ⟨fun t' ht' hid' ↦ ?_, fun hrefs ↦ ?_⟩)
    fun _ _ _ ↦ trivial
  · exact hd.1.kept ht hsuite howner ht' hid'
  · rw [hd.2, hid, Function.update_self]
    unfold TestcaseUpdate.details
    rw [hrefs]
    rfl

/-! ### Suites -/

theorem normalizeSuiteText_undefined {arg : Arg JsonText} {label : String} {text : Option String}
    (h : normalizeSuiteText arg label = .ok text) (harg : arg = .undefined) : text = none := by
  subst harg
  exact (Except.ok.inj h).symm

/-- What an update writes into a suite. -/
def WroteSuite (db : Db) (u : SuiteUpdate) (db' : Db) : Prop :=
  ∃ id now parent name position description preconditions, u.suiteId.uuid = some id ∧
    u.body.parentId.nullish.map IdText.uuid = parent.map some ∧
    (u.args.name = .undefined → name = none) ∧ (u.args.position = .undefined → position = none) ∧
    (u.args.description = .undefined → description = none) ∧
    (u.args.preconditions = .undefined → preconditions = none) ∧
    Table.UpdatedRows db.suites db'.suites (fun x ↦ x.id = id)
      (Suite.updated now name parent position description preconditions)

/-- A field that is not sent is not read. -/
theorem mapM_undefined {α β : Type} {f : α → Except Failure β} {arg : Arg α} {value : Option β}
    (h : arg.nullish.mapM f = .ok value) (harg : arg = .undefined) : value = none := by
  subst harg
  exact (Except.ok.inj h).symm

theorem wroteSuite_row {u : SuiteUpdate} :
    wp u.row (fun _ db' ↦ WroteSuite db u db') (fun _ _ ↦ True) db := by
  have hE : ∀ _ : Failure, True := fun _ ↦ trivial
  unfold SuiteUpdate.row updateSuiteRow
  refine wp_ofExcept_seq hE fun description hdescription ↦ ?_
  refine wp_ofExcept_seq hE fun preconditions hpreconditions ↦ ?_
  refine wp_castUuid_seq hE fun id hid ↦ ?_
  refine wp_castUuid?_seq hE fun parent hparent ↦ ?_
  refine wp_ofExcept_seq hE fun name hname ↦ ?_
  refine wp_ofExcept_seq hE fun position hposition ↦ ?_
  refine wp_query_seq ?_
  unfold updateSuites
  refine (wp_write _).mpr ⟨id, db.now, parent, name, position, description, preconditions, hid,
    hparent, fun h ↦ mapM_undefined hname h, fun h ↦ mapM_undefined hposition h,
    fun h ↦ normalizeSuiteText_undefined hdescription h,
    fun h ↦ normalizeSuiteText_undefined hpreconditions h, rfl⟩

theorem WroteSuite.kept {u : SuiteUpdate} {db' : Db} (h : WroteSuite db u db') {x x' : Suite}
    (hx : x ∈ db.suites) (hparent : u.args.parentId = .undefined → u.parentId = x.parentId)
    (hx' : x' ∈ db'.suites) (hid : x'.id = x.id) : KeptSuite u.args x x' := by
  obtain ⟨id, now, parent, name, position, description, preconditions, -, hparent', hname,
    hposition, hdescription, hpreconditions, hrows⟩ := h
  rcases hrows.mem_iff.mp hx' with ⟨hmem, -⟩ | ⟨x₀, hx₀, -, rfl⟩
  · obtain rfl := Table.eq_of_key hmem hx hid
    exact KeptSuite.refl u.args x'
  obtain rfl := Table.eq_of_key hx₀ hx hid
  constructor
  case project => rfl
  case parent => exact fun harg ↦ (eq_of_orRead hparent' harg).trans (hparent harg)
  case name => exact fun harg ↦ congrArg (Option.getD · x₀.name) (hname harg)
  case position => exact fun harg ↦ congrArg (Option.getD · x₀.position) (hposition harg)
  case description => exact fun harg ↦ congrArg (Option.getD · x₀.description) (hdescription harg)
  case preconditions =>
    exact fun harg ↦ congrArg (Option.getD · x₀.preconditions) (hpreconditions harg)
  case deleted => exact ⟨rfl, rfl⟩

theorem keepsOmitted_updateSuite [Unicode] [QueryTexts] {call : ℕ} {u : SuiteUpdate}
    (h : StillRead s (.updateSuite call u)) : KeepsOmitted s (.updateSuite call u) := by
  intro x hx hid
  have hbefore : ∀ x' ∈ s.data.db.suites, x'.id = x.id → KeptSuite u.args x x' := by
    intro x' hx' hid'
    obtain rfl := Table.eq_of_key hx' hx hid'
    exact KeptSuite.refl u.args x'
  refine after_commit (P := fun d ↦ ∀ x' ∈ d.db.suites, x'.id = x.id → KeptSuite u.args x x')
    hbefore (wp_mono (wp_onDb wroteSuite_row) (fun _ d hd x' hx' hid' ↦ ?_) fun _ _ _ ↦ trivial)
  exact hd.1.kept hx (h x hx hid) hx' hid'

end Updates

/-! ## Whole runs -/

section Runs

variable [Unicode] [QueryTexts] [Serialized]

omit [Serialized] in
theorem keepsOmitted_of_stillRead {s : Shared} {w : Write} (h : StillRead s w) :
    KeepsOmitted s w := by
  cases w with
  | app w => exact trivial
  | updateTestcase call u => exact keepsOmitted_updateTestcase h
  | updateSuite call u => exact keepsOmitted_updateSuite h

end Runs

/-! ## A test case archived while it is moved -/

section Example

open ListCaches (emptyProject plainTexts countedRows started)

def suiteNamed (id : Uuid) (name : String) : Suite :=
  ⟨id, 100, none, name, "", "", 0, 0, none, none⟩

/-- A test case in the first of two suites. -/
def filedCase : Data :=
  { emptyProject with
    db := { emptyProject.db with
      suites := ⟨[suiteNamed 201 "Web", suiteNamed 202 "Mobile"], by decide⟩
      testcases := ⟨[{
        id := 1001, projectId := 100, suiteId := some 201, externalId := "ONE-TC-1",
        text := fun _ ↦ some "", steps := [], ownerId := some 1, createdBy := some 1,
        updatedBy := none, updatedAt := 0, deletedAt := none, deletedBy := none }], by decide⟩ } }

def token : Context := ⟨100, 1, 1⟩

def unrelated : Related := ⟨.ok (), id⟩

def moveToMobile : ListCaches.Call :=
  .bulkUpdateTestCases (some 1) (.canonical 100) [.canonical 1001]
    { TestcaseBody.blank with suiteId := .value (.canonical 202) }

def archiveCall : Call := .tool token (.archiveTestcase (.canonical 1001) unrelated)

/-- The test case is moved, and then archived. -/
def movedThenArchived : List (Move Call) :=
  [.enter 0 (.app moveToMobile)] ++ List.replicate 9 (.advance 0) ++ [.enter 1 archiveCall] ++
    List.replicate 10 (.advance 1)

/-- The test case is moved while the tool has read its suite and has not sent it back yet. -/
def movedMeanwhile : List (Move Call) :=
  [.enter 1 archiveCall] ++ List.replicate 3 (.advance 1) ++ [.enter 0 (.app moveToMobile)] ++
    List.replicate 9 (.advance 0) ++ List.replicate 7 (.advance 1)

def filed (ms : List (Move Call)) : List (Option Uuid × Option String) :=
  letI := asciiCase
  letI := plainTexts
  letI := countedRows
  (ms.foldl step (Config.idle (started filedCase))).shared.data.db.testcases.rows.map fun t ↦
    (t.suiteId, t.text .status)

end Example

end Tesbo.Mcp
