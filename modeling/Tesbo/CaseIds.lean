import Tesbo.Requests

/-!
# Ids that name one test case

A run's result is filed under the test case whose id equals the reported one ignoring letter case.
Ids come from five writers: four allocate `<KEY>-TC-<n>` after the largest number under the key, two
take an id from the request, and one renames.
-/

namespace Tesbo.CaseIds

open Reasoning Service

inductive Call where
  | createTestCase (projectId : Uuid) (actorId : Option Uuid) (body : TestcaseBody)
  | bulkCreateTestCases (projectId : Uuid) (actorId : Option Uuid) (incoming : List TestcaseBody)
      (testcaseIdPrefix : Arg String)
  | importTestCases (userId : Option Uuid) (projectId : IdText) (body : ImportBody)
  | duplicateTestCase (testcaseId : IdText) (actorId : Option Uuid) (related : Except Failure Unit)
  | updateTestCase (testcaseId : IdText) (actorId : Option Uuid) (body : TestcaseBody)

section Machine

variable [Unicode]

def Call.run : Call → Handler Unit
  | .createTestCase projectId actorId body => effect (Tesbo.createTestCase projectId actorId body)
  | .bulkCreateTestCases projectId actorId incoming testcaseIdPrefix =>
      effect (Tesbo.bulkCreateTestCases projectId actorId incoming testcaseIdPrefix)
  | .importTestCases userId projectId body => effect (Tesbo.importTestCases userId projectId body)
  | .duplicateTestCase testcaseId actorId related =>
      effect (Tesbo.duplicateTestCase testcaseId actorId related)
  | .updateTestCase testcaseId actorId body => Tesbo.updateTestCase testcaseId actorId body

def step (db : Db) (call : Call) : Db := after call.run db

/-! ## One id, one test case -/

/-- No two test cases of a project have ids that are equal but for the case of their letters. -/
def IdsDistinct (testcases : Table Testcase.id) : Prop :=
  ∀ t ∈ testcases, ∀ t' ∈ testcases, t.projectId = t'.projectId →
    Unicode.lower t.externalId = Unicode.lower t'.externalId → t.id = t'.id

/-- An id of the list that is equal to a stored one, or to another of the list, but for the case of
its letters is equal to it altogether. -/
def Faithful (testcases : Table Testcase.id) (projectId : Uuid) (ids : List String) : Prop :=
  ∀ a ∈ ids,
    (∀ t ∈ testcases, t.projectId = projectId →
      Unicode.lower t.externalId = Unicode.lower a → t.externalId = a) ∧
    ∀ b ∈ ids, Unicode.lower b = Unicode.lower a → b = a

instance (testcases : Table Testcase.id) : Decidable (IdsDistinct testcases) :=
  inferInstanceAs (Decidable (∀ t ∈ testcases, ∀ t' ∈ testcases, _ → _ → _))

instance (testcases : Table Testcase.id) (projectId : Uuid) (ids : List String) :
    Decidable (Faithful testcases projectId ids) :=
  inferInstanceAs (Decidable (∀ a ∈ ids, (∀ t ∈ testcases, _ → _ → _) ∧ ∀ b ∈ ids, _ → _))

/-- The number the next block of ids under the key starts after. -/
def lastNumber (db : Db) (projectId : Uuid) (key : String) : ℕ :=
  largestNumber (idsUnderPrefix projectId key db)

/-- The allocator answers, and the `n` ids that follow fit their column and are no test case's, in
whatever case of letters. -/
def Fresh (db : Db) (projectId : Uuid) (key : String) (n : ℕ) : Prop :=
  ∃ m, maxExternalIdSeq projectId key db = (.ok m, db) ∧
    ∀ id ∈ idBlock key (m + 1) n, varchar 32 id = .ok id ∧
      ∀ t ∈ db.testcases, t.projectId = projectId →
        Unicode.lower t.externalId ≠ Unicode.lower id

/-- No id under the key ends in a number that is no `INTEGER`, and the `n` ids that follow the last
number are no stored ids in other letters. -/
def Allocatable (db : Db) (projectId : Uuid) (key : String) (n : ℕ) : Prop :=
  NumbersFit (idsUnderPrefix projectId key db) ∧
    Faithful db.testcases projectId (idBlock key (lastNumber db projectId key + 1) n)

instance (db : Db) (projectId : Uuid) (key : String) (n : ℕ) :
    Decidable (Allocatable db projectId key n) :=
  inferInstanceAs (Decidable (_ ∧ _))

/-! ## What is said of one call -/

/-- `Q` of every chunk with rows to write, in the state the chunk starts in. -/
def ChunksMeet (Q : Db → Uuid → String → ℕ → Prop) (ctx : ImportContext) (titles : List String) :
    List (ℕ × List ImportRow) → ImportState → Db → Prop
  | [], _, _ => True
  | (start, chunk) :: chunks, st, db =>
      ((prepareChunk titles start chunk st).1 ≠ [] →
        Q db ctx.projectId ctx.idPrefix (prepareChunk titles start chunk st).1.length) ∧
      onAnswer (importChunk ctx titles start chunk st)
        (fun st' db' ↦ ChunksMeet Q ctx titles chunks st' db') db

/-- `Q` of every chunk of an import that gets past its checks. -/
def ImportMeets (Q : Db → Uuid → String → ℕ → Prop) (userId : Option Uuid) (projectId : IdText)
    (body : ImportBody) (db : Db) : Prop :=
  onAnswer (openImport userId projectId body)
    (fun opened db' ↦ ChunksMeet Q opened.1 opened.2.1 (importChunks body.rows) opened.2.2 db') db

instance instDecidableChunksMeet {Q : Db → Uuid → String → ℕ → Prop}
    [∀ db projectId key n, Decidable (Q db projectId key n)] (ctx : ImportContext)
    (titles : List String) : ∀ chunks st db, Decidable (ChunksMeet Q ctx titles chunks st db)
  | [], _, _ => instDecidableTrue
  | (start, chunk) :: chunks, st, _ =>
      have : ∀ st' db', Decidable (ChunksMeet Q ctx titles chunks st' db') :=
        instDecidableChunksMeet ctx titles chunks
      inferInstanceAs (Decidable ((_ → _) ∧ onAnswer (importChunk ctx titles start chunk st) _ _))

instance (userId : Option Uuid) (projectId : IdText) (body : ImportBody) (db : Db) :
    Decidable (ImportMeets Allocatable userId projectId body db) :=
  inferInstanceAs (Decidable (onAnswer (openImport userId projectId body) _ db))

/-- A call that brings no id of its own is allocated fresh ones: one for a new test case, one for
each row of a batch or of a chunk of a file. -/
def Allocates (db : Db) : Call → Prop
  | .createTestCase projectId _ body =>
      body.externalId.truthy = none →
        Fresh db projectId (idPrefix body.testcaseIdPrefix.nullish (db.projects.find projectId)) 1
  | .bulkCreateTestCases projectId _ incoming testcaseIdPrefix =>
      (∀ row ∈ incoming, row.externalId.truthy = none) → incoming.length ≤ maxBulkTestcases →
        Fresh db projectId (idPrefix testcaseIdPrefix.nullish (db.projects.find projectId))
          incoming.length
  | .importTestCases userId projectId body => ImportMeets Fresh userId projectId body db
  | .duplicateTestCase .. | .updateTestCase .. => True

/-- The ids a batch stores, the rows' own and those of their places. -/
def batchIds (key : String) (start : ℕ) (incoming : List TestcaseBody) : List String :=
  (incoming.mapIdx fun index row ↦
    row.externalId.truthy.getD (externalIdOf key (start + index))).filterMap
      fun id ↦ (varchar 32 id).toOption

/-- A new test case's id, brought along or about to be given, is no stored id in other letters. -/
def IdSound (db : Db) (projectId : Uuid) (supplied requested : Option String) : Prop :=
  match supplied with
  | some id => ∀ stored ∈ (varchar 32 id).toOption, Faithful db.testcases projectId [stored]
  | none => Allocatable db projectId (idPrefix requested (db.projects.find projectId)) 1

instance (db : Db) (projectId : Uuid) : ∀ supplied requested,
    Decidable (IdSound db projectId supplied requested)
  | some id, _ => inferInstanceAs (Decidable (∀ stored ∈ (varchar 32 id).toOption, _))
  | none, _ => inferInstanceAs (Decidable (Allocatable db projectId _ 1))

/-- What a call must meet: an id it brings, or is about to be given, is no stored id in other
letters, and where it brings none the numbers under the key fit. -/
def Sound (db : Db) : Call → Prop
  | .createTestCase projectId _ body =>
      IdSound db projectId body.externalId.truthy body.testcaseIdPrefix.nullish
  | .bulkCreateTestCases projectId _ incoming testcaseIdPrefix =>
      let key := idPrefix testcaseIdPrefix.nullish (db.projects.find projectId)
      ((∀ row ∈ incoming, row.externalId.truthy = none) →
        NumbersFit (idsUnderPrefix projectId key db)) ∧
      (NumbersFit (idsUnderPrefix projectId key db) →
        Faithful db.testcases projectId (batchIds key (lastNumber db projectId key + 1) incoming))
  | .importTestCases userId projectId body => ImportMeets Allocatable userId projectId body db
  | .duplicateTestCase testcaseId _ _ =>
      ∀ src ∈ db.testcases, testcaseId.uuid = some src.id → src.live = true →
        NumbersFit (idsUnderPrefix src.projectId
          (idPrefix none (db.projects.find src.projectId)) db) →
        IdSound db src.projectId none none
  | .updateTestCase .. => True

instance (db : Db) : ∀ call, Decidable (Sound db call)
  | .createTestCase projectId _ _ => inferInstanceAs (Decidable (IdSound db projectId _ _))
  | .bulkCreateTestCases .. => inferInstanceAs (Decidable ((_ → NumbersFit _) ∧ (_ → _)))
  | .importTestCases userId projectId body =>
      inferInstanceAs (Decidable (ImportMeets Allocatable userId projectId body db))
  | .duplicateTestCase testcaseId _ _ =>
      inferInstanceAs (Decidable (∀ src ∈ db.testcases, testcaseId.uuid = some src.id → _ → _ → _))
  | .updateTestCase .. => instDecidableTrue

end Machine

/-! ## Inserting faithful ids -/

section Insert

variable [Unicode] {testcases testcases' : Table Testcase.id} {projectId : Uuid} {ids : List String}

/-- A row under an id of a faithful list is the only one of its project with that id in any
letters: a stored id that is equal but for its letters would be equal, and refused. -/
theorem Faithful.insertRow {r : Testcase} (h : Faithful testcases projectId ids)
    (hd : IdsDistinct testcases) (hrow : insertTestcaseRow testcases r = .ok testcases')
    (hproject : r.projectId = projectId) (hid : r.externalId ∈ ids) :
    Faithful testcases' projectId ids ∧ IdsDistinct testcases' := by
  obtain ⟨hinsert, hfree⟩ := insertTestcaseRow_eq_ok hrow
  have hnew : ∀ t ∈ testcases, t.projectId = projectId →
      Unicode.lower t.externalId ≠ Unicode.lower r.externalId := by
    intro t ht htproject hlower
    exact hfree t ht (htproject.trans hproject.symm) ((h _ hid).1 t ht htproject hlower)
  constructor
  · intro a ha
    refine ⟨fun t ht htproject hlower ↦ ?_, (h a ha).2⟩
    rcases (Table.mem_insert hinsert).mp ht with ht | rfl
    · exact (h a ha).1 t ht htproject hlower
    · exact (h a ha).2 _ hid hlower
  · intro t ht t' ht' hsame hlower
    rcases (Table.mem_insert hinsert).mp ht with ht | rfl
    · rcases (Table.mem_insert hinsert).mp ht' with ht' | rfl
      · exact hd t ht t' ht' hsame hlower
      · exact absurd hlower (hnew t ht (hsame.trans hproject))
    · rcases (Table.mem_insert hinsert).mp ht' with ht' | rfl
      · exact absurd hlower.symm (hnew t' ht' (hsame.symm.trans hproject))
      · rfl

theorem Faithful.insertRows {rows : List Testcase} (h : Faithful testcases projectId ids)
    (hd : IdsDistinct testcases) (hrows : rows.foldlM insertTestcaseRow testcases = .ok testcases')
    (hids : ∀ r ∈ rows, r.projectId = projectId ∧ r.externalId ∈ ids) :
    Faithful testcases' projectId ids ∧ IdsDistinct testcases' := by
  induction rows generalizing testcases with
  | nil =>
      obtain rfl := Except.ok.inj hrows
      exact ⟨h, hd⟩
  | cons r rows ih =>
      rw [List.foldlM_cons] at hrows
      cases hr : insertTestcaseRow testcases r with
      | error e => rw [hr] at hrows; cases hrows
      | ok inserted =>
          rw [hr] at hrows
          obtain ⟨hproject, hid⟩ := hids r List.mem_cons_self
          obtain ⟨h', hd'⟩ := h.insertRow hd hr hproject hid
          exact ih h' hd' hrows fun r' hr' ↦ hids r' (List.mem_cons_of_mem r hr')

/-- A row whose id becomes one no other row of its project has, in any letters, or keeps its id. -/
theorem IdsDistinct.update {t : Testcase} {p : Testcase → Bool} {f : Testcase → Testcase}
    (hd : IdsDistinct testcases) (hrows : testcases.UpdatedRows testcases' p f)
    (ht : t ∈ testcases) (hp : ∀ r, p r = true → r.id = t.id)
    (hf : ∀ r, (f r).id = r.id ∧ (f r).projectId = r.projectId)
    (hid : (f t).externalId = t.externalId ∨ ∀ r ∈ testcases, r.projectId = t.projectId →
      r.id ≠ t.id → Unicode.lower r.externalId ≠ Unicode.lower (f t).externalId) :
    IdsDistinct testcases' := by
  -- an untouched row and the updated one
  have hmixed : ∀ r ∈ testcases, p r = false → p t = true → r.projectId = t.projectId →
      Unicode.lower r.externalId = Unicode.lower (f t).externalId → r.id = t.id := by
    intro r hr _ _ hproject hlower
    by_contra hne
    rcases hid with hid | hid
    · rw [hid] at hlower
      exact hne (hd r hr t ht hproject hlower)
    · exact hid r hr hproject hne hlower
  intro r hr r' hr' hproject hlower
  rcases hrows.mem_iff.mp hr with ⟨hr, hpr⟩ | ⟨r₀, hr₀, hpr₀, rfl⟩
  · rcases hrows.mem_iff.mp hr' with ⟨hr', -⟩ | ⟨r₁, hr₁, hpr₁, rfl⟩
    · exact hd r hr r' hr' hproject hlower
    · obtain rfl := Table.eq_of_key hr₁ ht (hp r₁ hpr₁)
      rw [(hf r₁).1]
      exact hmixed r hr hpr hpr₁ (hproject.trans (hf r₁).2) hlower
  · obtain rfl := Table.eq_of_key hr₀ ht (hp r₀ hpr₀)
    rcases hrows.mem_iff.mp hr' with ⟨hr', hpr'⟩ | ⟨r₁, hr₁, hpr₁, rfl⟩
    · rw [(hf r₀).1]
      exact (hmixed r' hr' hpr' hpr₀ (hproject.symm.trans (hf r₀).2) hlower.symm).symm
    · rw [Table.eq_of_key hr₁ ht (hp r₁ hpr₁)]

end Insert

/-! ## Allocating -/

section Allocate

variable [Unicode] {db : Db} {projectId : Uuid} {key : String} {n : ℕ}

omit [Unicode] in
theorem mem_idsUnderPrefix {t : Testcase} (ht : t ∈ db.testcases) (hproject : t.projectId = projectId)
    (hunder : underPrefix key t.externalId = true) :
    t.externalId ∈ idsUnderPrefix projectId key db := by
  refine List.mem_map_of_mem (Table.mem_select.mpr ⟨ht, ?_⟩)
  rw [hunder, Bool.and_true]
  exact decide_eq_true hproject

omit [Unicode] in
/-- An id of a block after a number that fits is stored as it is. -/
theorem varchar_idBlock (hkey : IsKey key) {m : ℕ} (hm : m ≤ maxInt4) (hn : n ≤ 10 ^ 10)
    {id : String} (hid : id ∈ idBlock key (m + 1) n) : varchar 32 id = .ok id := by
  obtain ⟨i, hi, rfl⟩ := mem_idBlock.mp hid
  apply varchar_externalIdOf hkey
  unfold maxInt4 at hm
  omega

/-- The block after the last number is fresh when the only stored ids it could meet, those in other
letters, are not there. -/
theorem fresh_of_faithful (hkey : IsKey key) (hn : n ≤ 10 ^ 10)
    (hfit : NumbersFit (idsUnderPrefix projectId key db))
    (hfaithful : ∀ id ∈ idBlock key (lastNumber db projectId key + 1) n, ∀ t ∈ db.testcases,
      t.projectId = projectId → Unicode.lower t.externalId = Unicode.lower id →
        t.externalId = id) : Fresh db projectId key n := by
  refine ⟨lastNumber db projectId key, ?_, fun id hid ↦ ⟨?_, fun t ht hproject hlower ↦ ?_⟩⟩
  · have hmax := maxTrailingNumber_eq_ok.mpr ⟨hfit, rfl⟩
    show (maxTrailingNumber (idsUnderPrefix projectId key db), db) = _
    rw [hmax]
    rfl
  · exact varchar_idBlock hkey (largestNumber_le hfit) hn hid
  · -- an id equal to one of the block has its number, which is larger than the largest
    have hsame := hfaithful id hid t ht hproject hlower
    obtain ⟨i, -, rfl⟩ := mem_idBlock.mp hid
    have hunder : underPrefix key t.externalId = true := hsame ▸ underPrefix_externalIdOf key _
    have hmem := mem_idsUnderPrefix ht hproject hunder
    have hle := le_largestNumber hmem (hsame ▸ trailingNumber_externalIdOf key _)
    unfold lastNumber at hle
    omega

theorem Allocatable.fresh (h : Allocatable db projectId key n) (hkey : IsKey key)
    (hn : n ≤ 10 ^ 10) : Fresh db projectId key n :=
  fresh_of_faithful hkey hn h.1 fun id hid ↦ (h.2 id hid).1

omit [Unicode] in
/-- The id allocated to a single test case. -/
theorem mem_idBlock_one (hkey : IsKey key) {m : ℕ} {id : String}
    (hm : maxTrailingNumber (idsUnderPrefix projectId key db) = .ok m)
    (hid : varchar 32 (externalIdOf key (m + 1)) = .ok id) :
    id ∈ idBlock key (lastNumber db projectId key + 1) 1 := by
  obtain ⟨hfit, rfl⟩ := maxTrailingNumber_eq_ok.mp hm
  have hmem : externalIdOf key (lastNumber db projectId key + 1) ∈
      idBlock key (lastNumber db projectId key + 1) 1 :=
    mem_idBlock.mpr ⟨0, Nat.one_pos, rfl⟩
  have hstored := varchar_idBlock hkey (largestNumber_le hfit) (by decide) hmem
  rw [← Except.ok.inj (hstored.symm.trans hid)]
  exact hmem

/-- One more test case, under a sound id. -/
theorem idsDistinct_insertedCase {supplied requested : Option String} {t : Testcase} {db' : Db}
    (hd : IdsDistinct db.testcases) (hins : InsertedCase db projectId supplied requested t db')
    (hsound : IdSound db projectId supplied requested) : IdsDistinct db'.testcases := by
  have hexternal := hins.externalId
  obtain ⟨testcases, users, uuids, hrow, rfl⟩ := hins.state
  cases supplied with
  | some id =>
      have hstored : varchar 32 id = .ok t.externalId := hexternal
      have hfaithful : Faithful db.testcases projectId [t.externalId] :=
        hsound _ (by rw [hstored]; rfl)
      exact (hfaithful.insertRow hd hrow hins.project List.mem_cons_self).2
  | none =>
      obtain ⟨m, hm, hid⟩ := hexternal
      have hfaithful := (show Allocatable db projectId _ 1 from hsound).2
      exact (hfaithful.insertRow hd hrow hins.project (mem_idBlock_one (isKey_idPrefix _ _) hm hid)).2

end Allocate

/-! ## One call -/

section Calls

variable [Unicode] {db : Db}

theorem idsDistinct_createTestCase {projectId : Uuid} {actorId : Option Uuid} {body : TestcaseBody}
    (hd : IdsDistinct db.testcases) (hsound : Sound db (.createTestCase projectId actorId body)) :
    wp (Tesbo.createTestCase projectId actorId body) (fun _ db' ↦ IdsDistinct db'.testcases)
      (fun _ db' ↦ IdsDistinct db'.testcases) db := by
  refine wp_mono createTestCase_spec ?_ fun _ _ h ↦ h ▸ hd
  exact fun t db' h ↦ idsDistinct_insertedCase hd h.2 hsound

theorem idsDistinct_duplicateTestCase {testcaseId : IdText} {actorId : Option Uuid}
    {related : Except Failure Unit} (hd : IdsDistinct db.testcases)
    (hsound : Sound db (.duplicateTestCase testcaseId actorId related)) :
    wp (Tesbo.duplicateTestCase testcaseId actorId related)
      (fun _ db' ↦ IdsDistinct db'.testcases) (fun _ db' ↦ IdsDistinct db'.testcases) db := by
  refine wp_mono duplicateTestCase_spec ?_ fun _ _ h ↦ h ▸ hd
  rintro t db' ⟨src, hsrc, hlive, hid, -, hins⟩
  obtain ⟨m, hm, -⟩ := hins.externalId
  have hfit := (maxTrailingNumber_eq_ok.mp hm).1
  exact idsDistinct_insertedCase hd hins (hsound src hsrc hid hlive hfit)

theorem idsDistinct_updateTestCase {testcaseId : IdText} {actorId : Option Uuid}
    {body : TestcaseBody} (hd : IdsDistinct db.testcases) :
    wp (Tesbo.updateTestCase testcaseId actorId body) (fun _ db' ↦ IdsDistinct db'.testcases)
      (fun _ db' ↦ IdsDistinct db'.testcases) db := by
  refine wp_mono updateTestCase_spec ?_ fun _ _ h ↦ h ▸ hd
  rintro _ _ ⟨t, -, hupdated⟩
  obtain ⟨uid, suiteId, ownerId, text, newExternalId, _, _, -, -, hnew, rfl⟩ := hupdated.state
  refine hd.update rfl hupdated.mem (fun r hr ↦ ?_) (fun r ↦ ⟨rfl, rfl⟩) ?_
  · rw [Bool.and_eq_true, decide_eq_true_eq] at hr
    exact hr.1
  · cases newExternalId with
    | none => exact .inl rfl
    | some next => exact .inr (hnew next rfl)

omit [Unicode] in
/-- A row of a batch has one of the batch's ids. -/
theorem mem_batchIds {projectId uid : Uuid} {key : String} {startSeq : ℕ}
    {incoming : List TestcaseBody} {rows : List Testcase}
    (hrows : (incoming.mapIdx fun index row ↦ (index, row)).mapM (fun (index, row) ↦
      bulkRow db projectId uid key startSeq index row) = .ok rows) {t : Testcase} (ht : t ∈ rows) :
    t.projectId = projectId ∧ t.externalId ∈ batchIds key (startSeq + 1) incoming := by
  obtain ⟨⟨index, row⟩, hmem, hrow⟩ := exists_of_mem_mapM hrows ht
  obtain ⟨k, hk, heq⟩ := List.mem_mapIdx.mp hmem
  obtain ⟨rfl, rfl⟩ := Prod.mk.inj heq
  obtain ⟨hproject, hid⟩ := bulkRow_eq_ok hrow
  refine ⟨hproject, List.mem_filterMap.mpr ⟨_, List.mem_mapIdx.mpr ⟨k, hk, rfl⟩, ?_⟩⟩
  rw [Nat.add_right_comm, hid]
  rfl

theorem idsDistinct_bulkCreateTestCases {projectId : Uuid} {actorId : Option Uuid}
    {incoming : List TestcaseBody} {requested : Arg String} (hd : IdsDistinct db.testcases)
    (hsound : Sound db (.bulkCreateTestCases projectId actorId incoming requested)) :
    wp (Tesbo.bulkCreateTestCases projectId actorId incoming requested)
      (fun _ db' ↦ IdsDistinct db'.testcases) (fun _ db' ↦ IdsDistinct db'.testcases) db := by
  refine wp_mono bulkCreateTestCases_spec ?_ fun _ _ h ↦ h ▸ hd
  rintro rows _ (⟨-, rfl⟩ | hbatch)
  · exact hd
  · obtain ⟨uid, startSeq, hstart, hrows⟩ := hbatch.rows_eq
    obtain ⟨hfit, rfl⟩ := maxTrailingNumber_eq_ok.mp hstart
    obtain ⟨testcases, uuids, hinsert, rfl⟩ := hbatch.state
    exact ((hsound.2 hfit).insertRows hd hinsert fun t ht ↦ mem_batchIds hrows ht).2

/-! ### Imports -/

/-- The writes of a chunk under the ids of a faithful block. -/
theorem idsDistinct_importRules (projectId : Uuid) (ids : List String) :
    ImportRules projectId (fun _ _ ↦ True) (· ∈ ids) fun db ↦
      Faithful db.testcases projectId ids ∧ IdsDistinct db.testcases where
  uuids _ _ h := h
  suites _ _ _ h _ _ _ := h
  testcases _ _ _ h hrows hinsert :=
    h.1.insertRows h.2 hinsert fun t ht ↦ ⟨(hrows t ht).1, (hrows t ht).2.2.2⟩

omit [Unicode] in
theorem everySuite_rules (projectId : Uuid) (I : Db → Prop) :
    SuiteRules projectId (fun _ _ ↦ True) I where
  uuids _ _ _ _ := trivial
  suites _ _ _ _ _ _ _ _ := trivial
  testcases _ _ _ _ := trivial

theorem idsDistinct_importChunk {ctx : ImportContext} {titles : List String} {start : ℕ}
    {chunk : List ImportRow} {st : ImportState} (hkey : IsKey ctx.idPrefix)
    (hlength : chunk.length ≤ importChunkSize) (hd : IdsDistinct db.testcases)
    (ha : (prepareChunk titles start chunk st).1 ≠ [] →
      Allocatable db ctx.projectId ctx.idPrefix (prepareChunk titles start chunk st).1.length) :
    wp (importChunk ctx titles start chunk st) (fun _ db' ↦ IdsDistinct db'.testcases)
      (fun _ db' ↦ IdsDistinct db'.testcases) db := by
  have hprepared := prepareChunk_length_le titles start chunk st
  unfold importChunk
  generalize prepareChunk titles start chunk st = prepared at *
  obtain ⟨rows, st⟩ := prepared
  dsimp only at *
  split
  · exact (wp_pure _).mpr hd
  · rename_i hne
    obtain ⟨hfit, hfaithful⟩ := ha hne
    have hsize : rows.length ≤ 10 ^ 10 := by
      have hchunk : importChunkSize ≤ 10 ^ 10 := by decide
      omega
    have hblock : ∀ m, maxTrailingNumber (idsUnderPrefix ctx.projectId ctx.idPrefix db) = .ok m →
        BlockAllowed (· ∈ idBlock ctx.idPrefix (lastNumber db ctx.projectId ctx.idPrefix + 1)
          rows.length) ctx.idPrefix (m + 1) rows.length := by
      intro m hm i hi id hid
      obtain ⟨-, rfl⟩ := maxTrailingNumber_eq_ok.mp hm
      have hmem : externalIdOf ctx.idPrefix (lastNumber db ctx.projectId ctx.idPrefix + 1 + i) ∈
          idBlock ctx.idPrefix (lastNumber db ctx.projectId ctx.idPrefix + 1) rows.length :=
        mem_idBlock.mpr ⟨i, hi, rfl⟩
      have hstored := varchar_idBlock hkey (largestNumber_le hfit) hsize hmem
      rw [← Except.ok.inj (hstored.symm.trans hid)]
      exact hmem
    refine wp_query_seq (wp_mono (writeImportChunk_spec (everySuite_rules ctx.projectId _)
      (idsDistinct_importRules ctx.projectId _) rfl (rowsNamed_true _) ⟨hfaithful, hd⟩
      (fun _ _ _ ↦ trivial) (fun _ _ ↦ trivial) (fun _ _ _ _ ↦ trivial) hblock) ?_ ?_)
    · exact fun _ _ h ↦ h.1.2
    · exact fun _ _ h ↦ h ▸ hd

/-- Chunk after chunk, each in the state the one before leaves. -/
theorem idsDistinct_importChunkList {ctx : ImportContext} {titles : List String}
    (hkey : IsKey ctx.idPrefix) (chunks : List (ℕ × List ImportRow)) {st : ImportState}
    (hlength : ∀ chunk ∈ chunks, chunk.2.length ≤ importChunkSize)
    (hd : IdsDistinct db.testcases) (h : ChunksMeet Allocatable ctx titles chunks st db) :
    wp (importChunkList ctx titles chunks st) (fun _ db' ↦ IdsDistinct db'.testcases)
        (fun _ db' ↦ IdsDistinct db'.testcases) db ∧
      ChunksMeet Fresh ctx titles chunks st db := by
  induction chunks generalizing st db with
  | nil => exact ⟨(wp_pure _).mpr hd, trivial⟩
  | cons c chunks ih =>
      obtain ⟨start, chunk⟩ := c
      obtain ⟨ha, hrest⟩ := h
      have hchunk : chunk.length ≤ importChunkSize := hlength _ List.mem_cons_self
      have htail : ∀ c ∈ chunks, c.2.length ≤ importChunkSize := fun c hc ↦
        hlength c (List.mem_cons_of_mem _ hc)
      have hone := wp_and (idsDistinct_importChunk hkey hchunk hd ha) (onAnswer_iff.mp hrest)
      constructor
      · unfold importChunkList
        rw [wp_bind]
        exact wp_mono hone (fun st' db' h ↦ (ih htail h.1 h.2).1) fun _ _ h ↦ h.1
      · refine ⟨fun hne ↦ (ha hne).fresh hkey ?_, ?_⟩
        · have hprepared := prepareChunk_length_le titles start chunk st
          have hsize : importChunkSize ≤ 10 ^ 10 := by decide
          omega
        · exact onAnswer_iff.mpr (wp_mono hone (fun st' db' h ↦ (ih htail h.1 h.2).2)
            fun _ _ _ ↦ trivial)

theorem idsDistinct_importTestCases {userId : Option Uuid} {projectId : IdText} {body : ImportBody}
    (hd : IdsDistinct db.testcases) (h : ImportMeets Allocatable userId projectId body db) :
    wp (Tesbo.importTestCases userId projectId body) (fun _ db' ↦ IdsDistinct db'.testcases)
        (fun _ db' ↦ IdsDistinct db'.testcases) db ∧
      ImportMeets Fresh userId projectId body db := by
  have hopen := wp_and openImport_spec (onAnswer_iff.mp h)
  have hlength : ∀ chunk ∈ importChunks body.rows, chunk.2.length ≤ importChunkSize :=
    fun _ ↦ length_le_of_mem_importChunks
  constructor
  · unfold Tesbo.importTestCases
    rw [wp_bind]
    refine wp_mono hopen ?_ ?_
    · rintro ⟨ctx, titles, st⟩ _ ⟨⟨⟨users, rfl⟩, -, -, -, -, hkey⟩, hchunks⟩
      have hd : IdsDistinct ({ db with users := users } : Db).testcases := hd
      have hlist := (idsDistinct_importChunkList hkey _ hlength hd hchunks).1
      exact wp_seq (wp_mono hlist (fun _ _ h ↦ h) fun _ _ h ↦ h) fun _ _ h ↦ (wp_pure _).mpr h
    · rintro _ _ ⟨⟨users, rfl⟩, -⟩
      exact hd
  · refine onAnswer_iff.mpr (wp_mono hopen ?_ fun _ _ _ ↦ trivial)
    rintro ⟨ctx, titles, st⟩ _ ⟨⟨⟨users, rfl⟩, -, -, -, -, hkey⟩, hchunks⟩
    have hd : IdsDistinct ({ db with users := users } : Db).testcases := hd
    exact (idsDistinct_importChunkList hkey _ hlength hd hchunks).2

/-- A call that meets its condition keeps ids distinct and is allocated the ids it needs. -/
theorem step_of_sound {call : Call} (hd : IdsDistinct db.testcases) (hsound : Sound db call) :
    IdsDistinct (step db call).testcases ∧ Allocates db call := by
  cases call with
  | createTestCase projectId actorId body =>
      refine ⟨after_of_wp (P := fun db' : Db ↦ IdsDistinct db'.testcases)
        (wp_effect.mpr (idsDistinct_createTestCase hd hsound)), fun hnone ↦ ?_⟩
      have hsound : IdSound db projectId body.externalId.truthy body.testcaseIdPrefix.nullish :=
        hsound
      rw [hnone] at hsound
      have ha : Allocatable db projectId
          (idPrefix body.testcaseIdPrefix.nullish (db.projects.find projectId)) 1 := hsound
      exact ha.fresh (isKey_idPrefix _ _) (by decide)
  | bulkCreateTestCases projectId actorId incoming requested =>
      refine ⟨after_of_wp (P := fun db' : Db ↦ IdsDistinct db'.testcases)
        (wp_effect.mpr (idsDistinct_bulkCreateTestCases hd hsound)), fun hnone hlength ↦ ?_⟩
      have hfit := hsound.1 hnone
      refine fresh_of_faithful (isKey_idPrefix _ _) ?_ hfit fun id hid ↦ (hsound.2 hfit id ?_).1
      · have hsize : maxBulkTestcases ≤ 10 ^ 10 := by decide
        omega
      · -- without ids of their own the rows have those of their places
        have hsize : incoming.length ≤ 10 ^ 10 := by
          have hsize : maxBulkTestcases ≤ 10 ^ 10 := by decide
          omega
        have hstored := varchar_idBlock (isKey_idPrefix _ _) (largestNumber_le hfit) hsize hid
        obtain ⟨i, hi, rfl⟩ := mem_idBlock.mp hid
        refine List.mem_filterMap.mpr ⟨_, List.mem_mapIdx.mpr ⟨i, hi, rfl⟩, ?_⟩
        rw [hnone _ (List.getElem_mem hi), Option.getD_none, hstored]
        rfl
  | importTestCases userId projectId body =>
      have h := idsDistinct_importTestCases hd hsound
      exact ⟨after_of_wp (P := fun db' : Db ↦ IdsDistinct db'.testcases) (wp_effect.mpr h.1), h.2⟩
  | duplicateTestCase testcaseId actorId related =>
      exact ⟨after_of_wp (P := fun db' : Db ↦ IdsDistinct db'.testcases)
        (wp_effect.mpr (idsDistinct_duplicateTestCase hd hsound)), trivial⟩
  | updateTestCase testcaseId actorId body =>
      exact ⟨after_of_wp (P := fun db' : Db ↦ IdsDistinct db'.testcases)
        (idsDistinct_updateTestCase hd), trivial⟩

end Calls

/-! ## Runs -/

/-- In a run whose calls all meet their condition ids stay distinct and every allocation succeeds. -/
theorem idsDistinct_always [Unicode] {db : Db} {calls : List Call} (hd : IdsDistinct db.testcases)
    (h : Along step Sound db calls) :
    Always step (fun db ↦ IdsDistinct db.testcases) db calls ∧ Along step Allocates db calls :=
  Along.invariant (I := fun db : Db ↦ IdsDistinct db.testcases)
    (fun _ _ hd hsound ↦ step_of_sound hd hsound) hd h

/-- A body with an id of its own. -/
def withId (externalId : String) : TestcaseBody :=
  { TestcaseBody.blank with externalId := .value externalId }

def creates (body : TestcaseBody) : Call := .createTestCase 100 (some 1) body

def mixesIds : List Call := [
  creates .blank,
  creates (withId "login-1"),
  .bulkCreateTestCases 100 (some 1) [.blank, withId "login-2", .blank] .undefined,
  .duplicateTestCase (.canonical 1000) (some 1) (.ok ()),
  .updateTestCase (.canonical 1001) (some 1) (withId "LOGIN-1")]

theorem idsDistinct_mixesIds :
    Always (@step asciiCase) (fun db ↦ @IdsDistinct asciiCase db.testcases) twoTenants
        mixesIds ∧
      Along (@step asciiCase) (@Allocates asciiCase) twoTenants mixesIds :=
  @idsDistinct_always asciiCase twoTenants mixesIds (by decide) (by decide)

/-- A supplied id may be an allocated one in other letters, and one with a large number stops the
allocator. -/
theorem not_idsDistinct_not_allocates :
    (¬ Always (@step asciiCase) (fun db ↦ @IdsDistinct asciiCase db.testcases) twoTenants
      [creates .blank, creates (withId "one-tc-1")]) ∧
    ¬ Along (@step asciiCase) (@Allocates asciiCase) twoTenants
      [creates (withId "ONE-TC-99999999999"), creates .blank] := by
  constructor
  · decide
  · rintro ⟨-, hallocates, -⟩
    obtain ⟨m, hm, -⟩ := hallocates rfl
    have hanswer : _ = true := congrArg (fun outcome ↦ outcome.1.isOk) hm
    revert hanswer
    decide

end Tesbo.CaseIds
