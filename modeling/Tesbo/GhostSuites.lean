import Tesbo.Requests

/-!
# Test cases and deleted suites

A test case whose suite is deleted, or is another project's, is shown nowhere.  `deleteSuite` works
in three statements that other calls may come between: under a lock of the project's tree it reads
the subtree, then it sweeps the test cases filed there, then it commits with the suites marked
deleted.  What it has swept is locked until then.  The writers of test cases are atomic when they
commit; an import and a copy act on suites they read earlier.
-/

namespace Tesbo.GhostSuites

open Reasoning Service

/-- A deletion at work: the call that makes it, the project whose tree it has locked, the subtree it
read and, once it has swept it, the test cases it has locked. -/
structure Sweep where
  holder : ℕ
  projectId : Uuid
  subtree : List Uuid
  rows : Option (List Uuid)
deriving DecidableEq, Repr

structure Shared where
  db : Db
  sweeps : Table Sweep.holder

inductive Call where
  | createTestCaseForUser (userId : Option Uuid) (projectId : IdText) (body : TestcaseBody)
  | updateTestCaseForUser (userId : Option Uuid) (projectId testcaseId : IdText)
      (body : TestcaseBody)
  | bulkUpdateTestCases (userId : Option Uuid) (projectId : IdText) (testcaseIds : List IdText)
      (body : TestcaseBody)
  | duplicateTestCase (testcaseId : IdText) (actorId : Option Uuid) (related : Except Failure Unit)
  | importTestCases (userId : Option Uuid) (projectId : IdText) (body : ImportBody)
  | deleteSuite (userId : Option Uuid) (suiteId : IdText) (mode : DeleteMode)

/-- What is left of a call: all of it, a copy whose original is read, chunks to prepare, a chunk
whose lookups read `snapshot`, or a deletion that has its lock. -/
inductive Task where
  | call (c : Call)
  | insertDuplicate (src : Testcase) (uid : Uuid) (related : Except Failure Unit)
  | importChunks (ctx : ImportContext) (titles : List String) (chunks : List (ℕ × List ImportRow))
      (st : ImportState)
  | writeImportChunk (snapshot : Db) (ctx : ImportContext) (titles : List String)
      (prepared : List PreparedImportRow) (chunks : List (ℕ × List ImportRow)) (st : ImportState)
  | deletion (uid : Uuid) (mode : DeleteMode)

/-- Some row of the ids is locked by a deletion. -/
def Shared.locked (s : Shared) (ids : List Uuid) : Bool :=
  s.sweeps.rows.any fun e ↦ (e.rows.getD []).any (· ∈ ids)

/-- The step, or none while a deletion has one of the rows locked. -/
def Shared.whenFree (s : Shared) (ids : List Uuid) (task : Task) (go : Shared × Option Task) :
    Shared × Option Task := if s.locked ids then (s, some task) else go

/-- A handler as one step, and what follows its answer. -/
def Shared.handle {α : Type} (s : Shared) (m : Handler α) (next : α → Option Task) :
    Shared × Option Task :=
  match m s.db with
  | (.ok a, db) => ({ s with db := db }, next a)
  | (.error _, db) => ({ s with db := db }, none)

/-! ### Deleting -/

/-- Everything up to the subtree: who deletes, in which project, and what. -/
def openDeletion (userId : Option Uuid) (suiteId : IdText) : Handler (Uuid × Uuid × List Uuid) := do
  let uid ← requireUser userId
  let projectId ← requireSuiteAccess userId suiteId
  let id ← castUuid suiteId
  let subtree ← query (suiteSubtree projectId id)
  require (subtree ≠ []) (.notFound "Suite not found")
  pure (uid, projectId, subtree)

/-- The ids of the live test cases filed in the subtree. -/
def filedRows (subtree : List Uuid) (db : Db) : List Uuid :=
  (db.testcases.select (Testcase.filedIn subtree)).map Testcase.id

/-- What a deletion leaves when it commits. -/
def commitDeletion (mode : DeleteMode) (uid : Uuid) (subtree rows : List Uuid) (db : Db) : Db :=
  { db with
    testcases := db.testcases.updateWhere (fun t ↦ t.id ∈ rows) (Testcase.swept mode uid db.now)
      Testcase.swept_id
    suites := db.suites.updateWhere (fun s ↦ s.id ∈ subtree && s.live) (Suite.deleted uid db.now)
      fun _ ↦ rfl }

/-- The lock, for which another deletion in the project may have to be waited, and the subtree. -/
def Shared.startDeletion (s : Shared) (k : ℕ) (userId : Option Uuid) (suiteId : IdText)
    (mode : DeleteMode) : Shared × Option Task :=
  match openDeletion userId suiteId s.db with
  | (.error _, db) => ({ s with db := db }, none)
  | (.ok (uid, projectId, subtree), db) =>
      if s.sweeps.rows.any fun e ↦ e.projectId = projectId
      then (s, some (.call (.deleteSuite userId suiteId mode)))
      else match s.sweeps.insert ⟨k, projectId, subtree, none⟩ with
        | some sweeps => (⟨db, sweeps⟩, some (.deletion uid mode))
        | none => (s, none)

def Shared.continueDeletion (s : Shared) (k : ℕ) (uid : Uuid) (mode : DeleteMode) :
    Shared × Option Task :=
  match s.sweeps.find k with
  | none => (s, none)
  | some e =>
      match e.rows with
      | none =>
          let rows := filedRows e.subtree s.db
          s.whenFree rows (.deletion uid mode)
            ({ s with
                sweeps := s.sweeps.updateWhere (fun e ↦ e.holder = k)
                  (fun e ↦ { e with rows := some rows }) fun _ ↦ rfl },
              some (.deletion uid mode))
      | some rows =>
          (⟨commitDeletion mode uid e.subtree rows s.db,
            s.sweeps.deleteWhere fun e ↦ e.holder = k⟩, none)

/-! ### Steps -/

section Machine

variable [Unicode]

def Shared.prepare (s : Shared) (ctx : ImportContext) (titles : List String) :
    List (ℕ × List ImportRow) → ImportState → Option Task
  | [], _ => none
  | (start, chunk) :: chunks, st =>
      let (prepared, st) := prepareChunk titles start chunk st
      if prepared = [] then some (.importChunks ctx titles chunks st)
      else some (.writeImportChunk s.db ctx titles prepared chunks st)

/-- One step of the call numbered `k`.  An update of a locked row waits for the deletion to end. -/
def exec (k : ℕ) (s : Shared) : Task → Shared × Option Task
  | .call (.createTestCaseForUser userId projectId body) =>
      s.handle (createTestCaseForUser userId projectId body) fun _ ↦ none
  | .call (.updateTestCaseForUser userId projectId testcaseId body) =>
      s.whenFree testcaseId.uuid.toList
        (.call (.updateTestCaseForUser userId projectId testcaseId body))
        (s.handle (updateTestCaseForUser userId projectId testcaseId body) fun _ ↦ none)
  | .call (.bulkUpdateTestCases userId projectId testcaseIds body) =>
      s.whenFree ((testcaseIds.mapM readUuid).toOption.getD [])
        (.call (.bulkUpdateTestCases userId projectId testcaseIds body))
        (s.handle (bulkUpdateTestCases projectId userId testcaseIds body) fun _ ↦ none)
  | .call (.duplicateTestCase testcaseId actorId related) =>
      s.handle (readOriginal testcaseId actorId) fun original ↦
        some (.insertDuplicate original.2 original.1 related)
  | .call (.importTestCases userId projectId body) =>
      s.handle (openImport userId projectId body) fun opened ↦
        some (.importChunks opened.1 opened.2.1 (importChunks body.rows) opened.2.2)
  | .call (.deleteSuite userId suiteId mode) => s.startDeletion k userId suiteId mode
  | .insertDuplicate src uid related =>
      s.handle (insertDuplicate src uid related) fun _ ↦ none
  | .importChunks ctx titles chunks st => (s, s.prepare ctx titles chunks st)
  | .writeImportChunk snapshot ctx titles prepared chunks st =>
      s.handle (writeImportChunk snapshot ctx prepared st) fun st ↦
        some (.importChunks ctx titles chunks st)
  | .deletion uid mode => s.continueDeletion k uid mode

abbrev Run := Config Shared Task

def step (c : Run) (m : Move Call) : Run := c.move Task.call exec m

end Machine

/-! ## No ghosts -/

/-- The suite of a live test case is a live suite of its project. -/
def NoGhosts (db : Db) : Prop :=
  ∀ t ∈ db.testcases, t.live = true → ∀ s ∈ t.suiteId, LiveSuite db t.projectId s

/-- A live suite of the project, in no subtree that a deletion has swept. -/
def CanFile (sweeps : Table Sweep.holder) (db : Db) (projectId id : Uuid) : Prop :=
  LiveSuite db projectId id ∧ ∀ e ∈ sweeps, e.rows.isSome = true → id ∉ e.subtree

instance (db : Db) (projectId id : Uuid) : Decidable (LiveSuite db projectId id) :=
  inferInstanceAs (Decidable (∃ s ∈ db.suites, s.id = id ∧ s.liveIn projectId = true))

instance (db : Db) : Decidable (NoGhosts db) :=
  inferInstanceAs (Decidable (∀ t ∈ db.testcases, t.live = true → ∀ s ∈ t.suiteId, _))

instance (sweeps : Table Sweep.holder) (db : Db) (projectId : Uuid) :
    DecidablePred (CanFile sweeps db projectId) := fun id ↦
  inferInstanceAs (Decidable (LiveSuite db projectId id ∧ ∀ e ∈ sweeps, _ → id ∉ e.subtree))

section Filing

variable [Unicode]

/-- A name of a row of the chunk, as names are compared. -/
def NamedBy (prepared : List PreparedImportRow) (name : String) : Prop :=
  ∃ row ∈ prepared, name = normalizeImportName row.suiteName ∨
    name = normalizeImportName row.componentName

/-- What a step that files test cases must meet: the suite it names, copies or has found under a
name of the chunk can be filed in, in the project of the test case it files. -/
def Files (s : Shared) : Task → Prop
  | .call (.createTestCaseForUser userId projectId body) =>
      ∀ P ∈ projectId.uuid, CallerIn s.db userId P →
        GoodText (CanFile s.sweeps s.db P) body.suiteId.truthy
  | .call (.updateTestCaseForUser userId projectId _ body) =>
      ∀ P ∈ projectId.uuid, CallerIn s.db userId P →
        GoodText (CanFile s.sweeps s.db P) body.suiteId.nullish
  | .call (.bulkUpdateTestCases userId projectId testcaseIds body) =>
      (∃ P ∈ projectId.uuid, CallerIn s.db userId P) → clearsSuite body.suiteId = false →
        ∀ ids ∈ (testcaseIds.mapM readUuid).toOption, ∀ t ∈ s.db.testcases,
          namedLive ids t = true →
            GoodText (CanFile s.sweeps s.db t.projectId) body.suiteId.truthy
  | .insertDuplicate src _ _ => ∀ id ∈ src.suiteId, CanFile s.sweeps s.db src.projectId id
  | .writeImportChunk snapshot ctx _ prepared _ st =>
      GoodText (CanFile s.sweeps s.db ctx.projectId) ctx.defaultSuiteId ∧
      GoodCache (NamedBy prepared) (CanFile s.sweeps s.db ctx.projectId) st.cache.suiteIdByKey ∧
      GoodSnapshot ctx.projectId (NamedBy prepared) (CanFile s.sweeps s.db ctx.projectId) snapshot
  | _ => True

instance (prepared : List PreparedImportRow) : DecidablePred (NamedBy prepared) := fun _ ↦
  inferInstanceAs (Decidable (∃ row ∈ prepared, _ ∨ _))

instance (s : Shared) : ∀ task, Decidable (Files s task)
  | .call (.createTestCaseForUser userId projectId _)
  | .call (.updateTestCaseForUser userId projectId _ _) =>
      inferInstanceAs (Decidable (∀ P ∈ projectId.uuid, CallerIn s.db userId P → _))
  | .call (.bulkUpdateTestCases userId projectId testcaseIds body) =>
      inferInstanceAs (Decidable ((∃ P ∈ projectId.uuid, CallerIn s.db userId P) →
        clearsSuite body.suiteId = false → ∀ ids ∈ (testcaseIds.mapM readUuid).toOption,
          ∀ t ∈ s.db.testcases, _ → _))
  | .insertDuplicate src _ _ => inferInstanceAs (Decidable (∀ id ∈ src.suiteId, _))
  | .writeImportChunk .. => inferInstanceAs (Decidable (GoodText _ _ ∧ GoodCache _ _ _ ∧ _))
  | .call (.duplicateTestCase ..) | .call (.importTestCases ..) | .call (.deleteSuite ..)
  | .importChunks .. | .deletion .. => instDecidableTrue

end Filing

/-! ## What the sweeps keep -/

/-- The subtrees read are of suites there are, and what is left in a swept one are the test cases
the deletion has locked. -/
structure Covered (sweeps : Table Sweep.holder) (db : Db) : Prop where
  known : ∀ e ∈ sweeps, ∀ id ∈ e.subtree, ∃ s ∈ db.suites, s.id = id
  locked : ∀ e ∈ sweeps, ∀ rows ∈ e.rows, ∀ t ∈ db.testcases, t.filedIn e.subtree = true →
    t.id ∈ rows

def Sound (sweeps : Table Sweep.holder) (db : Db) : Prop := NoGhosts db ∧ Covered sweeps db

section Keep

variable {sweeps : Table Sweep.holder} {db db' : Db}

theorem filedIn_iff {subtree : List Uuid} {t : Testcase} :
    t.filedIn subtree = true ↔ (∃ s ∈ t.suiteId, s ∈ subtree) ∧ t.live = true := by
  unfold Testcase.filedIn
  rw [Bool.and_eq_true]
  cases t.suiteId with
  | none => simp
  | some s => simp

/-- A live test case that was filed where it is, or is filed where it may be. -/
def Settled (sweeps : Table Sweep.holder) (db : Db) (t' : Testcase) : Prop :=
  ∀ s ∈ t'.suiteId, CanFile sweeps db t'.projectId s ∨
    ∃ t ∈ db.testcases, t.live = true ∧ t.id = t'.id ∧ t.projectId = t'.projectId ∧ t.suiteId = some s

/-- A step that takes no suite away and settles every live test case keeps the invariant. -/
theorem Sound.of_settled (h : Sound sweeps db) (hsuites : ∀ s ∈ db.suites, s ∈ db'.suites)
    (hsettled : ∀ t' ∈ db'.testcases, t'.live = true → Settled sweeps db t') :
    Sound sweeps db' := by
  have hlive : ∀ P id, LiveSuite db P id → LiveSuite db' P id := fun P id ⟨s, hs, hid, hl⟩ ↦
    ⟨s, hsuites s hs, hid, hl⟩
  refine ⟨?_, ?_, ?_⟩
  · intro t' ht' htlive' s hs
    apply hlive
    rcases hsettled t' ht' htlive' s hs with hcan | ⟨t, ht, htlive, -, hproject, hts⟩
    · exact hcan.1
    · exact hproject ▸ h.1 t ht htlive s hts
  · intro e he id hid
    obtain ⟨s, hs, hsid⟩ := h.2.known e he id hid
    exact ⟨s, hsuites s hs, hsid⟩
  · intro e he rows hrows t' ht' hfiled
    obtain ⟨⟨s, hs, hmem⟩, hlive⟩ := filedIn_iff.mp hfiled
    rcases hsettled t' ht' hlive s hs with hcan | ⟨t, ht, htlive, hid, -, hts⟩
    · -- a suite test cases can be filed in is in no swept subtree
      have hswept : e.rows.isSome = true := by
        rw [show e.rows = some rows from hrows]
        rfl
      exact absurd hmem (hcan.2 e he hswept)
    · rw [← hid]
      exact h.2.locked e he rows hrows t ht (filedIn_iff.mpr ⟨⟨s, hts, hmem⟩, htlive⟩)

theorem settled_of_mem {t : Testcase} (ht : t ∈ db.testcases) (hlive : t.live = true) :
    Settled sweeps db t := fun _ hs ↦ .inr ⟨t, ht, hlive, rfl, rfl, hs⟩

/-- One more test case. -/
theorem Sound.insertedCase [Unicode] {P : Uuid} {supplied requested : Option String} {t : Testcase}
    (h : Sound sweeps db) (hins : InsertedCase db P supplied requested t db')
    (hsuite : ∀ s ∈ t.suiteId, CanFile sweeps db P s) : Sound sweeps db' := by
  have hproject := hins.project
  obtain ⟨testcases, users, uuids, hrow, rfl⟩ := hins.state
  refine h.of_settled (fun _ hs ↦ hs) fun t' ht' hlive ↦ ?_
  rcases (Table.mem_insert (insertTestcaseRow_eq_ok hrow).1).mp ht' with ht' | rfl
  · exact settled_of_mem ht' hlive
  · exact fun s hs ↦ .inl (hproject ▸ hsuite s hs)

/-- An update of test cases that moves each to where it may be filed or leaves it. -/
theorem Sound.updatedCases {p : Testcase → Bool} {f : Testcase → Testcase} (h : Sound sweeps db)
    (hrows : db.testcases.UpdatedRows db'.testcases p f) (hsuites : db'.suites = db.suites)
    (hf : ∀ t ∈ db.testcases, p t = true → (f t).live = true → Settled sweeps db (f t)) :
    Sound sweeps db' := by
  refine h.of_settled (fun s hs ↦ hsuites ▸ hs) fun t' ht' hlive ↦ ?_
  rcases hrows.mem_iff.mp ht' with ⟨ht', -⟩ | ⟨t, ht, hp, rfl⟩
  · exact settled_of_mem ht' hlive
  · exact hf t ht hp hlive

/-- The suites that can be filed in are a set an import does not shrink: a new suite is in no
subtree that was read before. -/
theorem canFile_rules (sweeps : Table Sweep.holder) (P : Uuid) :
    SuiteRules P (fun db id ↦ CanFile sweeps db P id) (Sound sweeps) where
  uuids _ _ _ h := h
  testcases _ _ _ h := h
  suites db s suites id hsound hlive hinsert h := by
    rcases h with ⟨hid, hswept⟩ | rfl
    · obtain ⟨r, hr, hrid, hrlive⟩ := hid
      exact ⟨⟨r, (Table.mem_insert hinsert).mpr (.inl hr), hrid, hrlive⟩, hswept⟩
    · refine ⟨⟨s, (Table.mem_insert hinsert).mpr (.inr rfl), rfl, hlive⟩, fun e he _ hmem ↦ ?_⟩
      obtain ⟨r, hr, hrid⟩ := hsound.2.known e he s.id hmem
      exact (Table.insert_eq_some hinsert).2 r hr hrid

theorem sound_importRules (sweeps : Table Sweep.holder) (P : Uuid) :
    ImportRules P (fun db id ↦ CanFile sweeps db P id) (fun _ ↦ True) (Sound sweeps) where
  uuids _ _ h := h.of_settled (fun _ hs ↦ hs) fun _ ht hlive ↦ settled_of_mem ht hlive
  suites _ _ _ h _ _ hinsert :=
    h.of_settled (fun _ hs ↦ (Table.mem_insert hinsert).mpr (.inl hs)) fun _ ht hlive ↦
      settled_of_mem ht hlive
  testcases _ rows testcases h hrows hinsert := by
    refine h.of_settled (fun _ hs ↦ hs) fun t' ht' hlive ↦ ?_
    rcases (mem_foldlM_insertTestcaseRow hinsert).mp ht' with ht' | ht'
    · exact settled_of_mem ht' hlive
    · obtain ⟨hproject, -, hsuite, -⟩ := hrows t' ht'
      exact fun s hs ↦ .inl (hproject ▸ hsuite s hs)

/-- A sweep locks what is filed in the subtree. -/
theorem Covered.sweep {sweeps' : Table Sweep.holder} {e : Sweep} {k : ℕ} (h : Covered sweeps db)
    (hrows : sweeps.UpdatedRows sweeps' (fun e ↦ e.holder = k)
      (fun e' ↦ { e' with rows := some (filedRows e.subtree db) }))
    (he : e ∈ sweeps) (hk : e.holder = k) : Covered sweeps' db where
  known e' he' := by
    rcases hrows.mem_iff.mp he' with ⟨he', -⟩ | ⟨e₀, he₀, -, rfl⟩
    · exact h.known e' he'
    · exact h.known e₀ he₀
  locked e' he' rows hrows' t ht hfiled := by
    rcases hrows.mem_iff.mp he' with ⟨he', -⟩ | ⟨e₀, he₀, hk₀, rfl⟩
    · exact h.locked e' he' rows hrows' t ht hfiled
    · have hsame : e₀ = e := Table.eq_of_key he₀ he ((decide_eq_true_eq.mp hk₀).trans hk.symm)
      obtain rfl := Option.some.inj hrows'
      rw [hsame] at hfiled
      exact List.mem_map_of_mem (Table.mem_select.mpr ⟨ht, hfiled⟩)

/-- The commit of a deletion: what it has swept is unfiled or deleted, and nothing else is left
below the suites it deletes. -/
theorem Sound.commitDeletion {e : Sweep} {rows : List Uuid} {k : ℕ} {uid : Uuid} {mode : DeleteMode}
    (h : Sound sweeps db) (he : e ∈ sweeps) (hrows : e.rows = some rows) :
    Sound (sweeps.deleteWhere fun e ↦ e.holder = k)
      (GhostSuites.commitDeletion mode uid e.subtree rows db) := by
  have hupdated : db.testcases.UpdatedRows
      (GhostSuites.commitDeletion mode uid e.subtree rows db).testcases (fun t ↦ t.id ∈ rows)
      (Testcase.swept mode uid db.now) := rfl
  have hdeleted : db.suites.UpdatedRows
      (GhostSuites.commitDeletion mode uid e.subtree rows db).suites
      (fun s ↦ s.id ∈ e.subtree && s.live) (Suite.deleted uid db.now) := rfl
  -- a test case that is still live and filed was not swept
  have hleft : ∀ t' ∈ (GhostSuites.commitDeletion mode uid e.subtree rows db).testcases,
      t'.live = true → t'.suiteId.isSome = true → t' ∈ db.testcases ∧ t'.id ∉ rows := by
    intro t' ht' hlive hfiled
    rcases hupdated.mem_iff.mp ht' with ⟨ht', hnot⟩ | ⟨t, -, -, rfl⟩
    · exact ⟨ht', decide_eq_false_iff_not.mp hnot⟩
    · cases mode with
      | deleteTestcases => cases hlive
      | moveToDefault => cases hfiled
  refine ⟨?_, ?_, ?_⟩
  · intro t' ht' hlive s hs
    obtain ⟨hmem, hnot⟩ := hleft t' ht' hlive (by rw [show t'.suiteId = some s from hs]; rfl)
    obtain ⟨r, hr, hrid, hrlive⟩ := h.1 t' hmem hlive s hs
    have hout : s ∉ e.subtree := fun hin ↦
      hnot (h.2.locked e he rows hrows t' hmem (filedIn_iff.mpr ⟨⟨s, hs, hin⟩, hlive⟩))
    refine ⟨r, hdeleted.mem_iff.mpr (.inl ⟨hr, ?_⟩), hrid, hrlive⟩
    rw [hrid, decide_eq_false hout, Bool.false_and]
  · intro e' he' id hid
    obtain ⟨r, hr, hrid⟩ := h.2.known e' (Table.mem_deleteWhere.mp he').1 id hid
    cases hp : (r.id ∈ e.subtree && r.live : Bool) with
    | false => exact ⟨r, hdeleted.mem_iff.mpr (.inl ⟨hr, hp⟩), hrid⟩
    | true => exact ⟨_, hdeleted.mem_iff.mpr (.inr ⟨r, hr, hp, rfl⟩), hrid⟩
  · intro e' he' rows' hrows' t' ht' hfiled
    obtain ⟨⟨s, hs, hin⟩, hlive⟩ := filedIn_iff.mp hfiled
    obtain ⟨hmem, -⟩ := hleft t' ht' hlive (by rw [show t'.suiteId = some s from hs]; rfl)
    exact h.2.locked e' (Table.mem_deleteWhere.mp he').1 rows' hrows' t' hmem hfiled

end Keep

/-! ## One step -/

section Steps

variable {s : Shared}

theorem Sound.of_neutral {sweeps : Table Sweep.holder} {db db' : Db} (h : Sound sweeps db)
    (hneutral : Neutral db db') : Sound sweeps db' := by
  obtain ⟨users, uuids, rfl⟩ := hneutral
  exact h.of_settled (fun _ hs ↦ hs) fun _ ht hlive ↦ settled_of_mem ht hlive

theorem sound_whenFree {ids : List Uuid} {task : Task} {go : Shared × Option Task}
    (h : Sound s.sweeps s.db) (hgo : Sound go.1.sweeps go.1.db) :
    Sound (s.whenFree ids task go).1.sweeps (s.whenFree ids task go).1.db := by
  unfold Shared.whenFree
  split
  · exact h
  · exact hgo

/-- A handler that keeps the invariant, as a step. -/
theorem sound_handle {α : Type} {m : Handler α} {next : α → Option Task}
    (h : wp m (fun _ db' ↦ Sound s.sweeps db') (fun _ db' ↦ Sound s.sweeps db') s.db) :
    Sound (s.handle m next).1.sweeps (s.handle m next).1.db := by
  obtain ⟨hok, herror⟩ := of_wp h
  unfold Shared.handle
  cases hm : m s.db with
  | mk outcome db' =>
      cases outcome with
      | ok a => exact hok a db' hm
      | error e => exact herror e db' hm

/-! ### Deleting -/

theorem openDeletion_spec {db : Db} {userId : Option Uuid} {suiteId : IdText} :
    wp (openDeletion userId suiteId)
      (fun opened db' ↦ OnlyUsers db db' ∧ ∀ id ∈ opened.2.2, ∃ r ∈ db.suites, r.id = id)
      (fun _ db' ↦ OnlyUsers db db') db := by
  unfold openDeletion
  refine wp_requireUser_seq (fun _ ↦ .refl db) fun uid _ ↦ ?_
  refine wp_seq requireSuiteAccess_spec ?_
  rintro projectId _ ⟨⟨users, rfl⟩, -, -⟩
  have hE : ∀ _ : Failure, OnlyUsers db { db with users := users } := fun _ ↦ ⟨users, rfl⟩
  refine wp_castUuid_seq hE fun id _ ↦ wp_query_seq ?_
  refine wp_require_seq ⟨users, rfl⟩ fun _ ↦ ?_
  rw [wp_pure]
  refine ⟨⟨users, rfl⟩, fun x hx ↦ ?_⟩
  obtain ⟨r, hr, hid, -⟩ := liveSuite_of_mem_suiteSubtree hx
  exact ⟨r, hr, hid⟩

theorem sound_startDeletion {k : ℕ} {userId : Option Uuid} {suiteId : IdText} {mode : DeleteMode}
    (h : Sound s.sweeps s.db) :
    Sound (s.startDeletion k userId suiteId mode).1.sweeps
      (s.startDeletion k userId suiteId mode).1.db := by
  obtain ⟨hok, herror⟩ := of_wp (show wp (openDeletion userId suiteId) _ _ s.db from openDeletion_spec)
  unfold Shared.startDeletion
  cases hm : openDeletion userId suiteId s.db with
  | mk outcome db' =>
      cases outcome with
      | error e => exact h.of_neutral (herror e db' hm).neutral
      | ok opened =>
          obtain ⟨uid, projectId, subtree⟩ := opened
          obtain ⟨honly, hknown⟩ := hok _ db' hm
          dsimp only
          split
          · exact h
          · cases hinsert : s.sweeps.insert ⟨k, projectId, subtree, none⟩ with
            | none => exact h
            | some sweeps =>
                obtain ⟨hghosts, hcovered⟩ := h.of_neutral honly.neutral
                obtain ⟨users, rfl⟩ := honly
                refine ⟨hghosts, ?_, ?_⟩
                · intro e he
                  rcases (Table.mem_insert hinsert).mp he with he | rfl
                  · exact hcovered.known e he
                  · exact hknown
                · intro e he rows hrows
                  rcases (Table.mem_insert hinsert).mp he with he | rfl
                  · exact hcovered.locked e he rows hrows
                  · cases hrows

theorem sound_continueDeletion {k : ℕ} {uid : Uuid} {mode : DeleteMode} (h : Sound s.sweeps s.db) :
    Sound (s.continueDeletion k uid mode).1.sweeps (s.continueDeletion k uid mode).1.db := by
  unfold Shared.continueDeletion
  cases hfind : s.sweeps.find k with
  | none => exact h
  | some e =>
      obtain ⟨he, hk⟩ := Table.find_eq_some.mp hfind
      dsimp only
      cases hrows : e.rows with
      | some rows => exact h.commitDeletion he hrows
      | none =>
          exact sound_whenFree h ⟨h.1, h.2.sweep rfl he hk⟩

/-! ### Filing -/

variable [Unicode]

theorem sound_createTestCaseForUser {userId : Option Uuid} {projectId : IdText}
    {body : TestcaseBody} (h : Sound s.sweeps s.db)
    (hfiles : Files s (.call (.createTestCaseForUser userId projectId body))) :
    wp (createTestCaseForUser userId projectId body) (fun _ db' ↦ Sound s.sweeps db')
      (fun _ db' ↦ Sound s.sweeps db') s.db := by
  refine wp_mono createTestCaseForUser_spec ?_ fun _ _ hneutral ↦ h.of_neutral hneutral
  rintro t db' ⟨⟨uid, huid, hmember⟩, hproject, hsuite, hins⟩
  have hgood := hfiles t.projectId hproject ⟨uid, huid, hmember⟩
  refine h.insertedCase hins fun id hid ↦ hgood id ?_
  rw [hsuite, show t.suiteId = some id from hid]
  rfl

theorem sound_updateTestCaseForUser {userId : Option Uuid} {projectId testcaseId : IdText}
    {body : TestcaseBody} (h : Sound s.sweeps s.db)
    (hfiles : Files s (.call (.updateTestCaseForUser userId projectId testcaseId body))) :
    wp (updateTestCaseForUser userId projectId testcaseId body) (fun _ db' ↦ Sound s.sweeps db')
      (fun _ db' ↦ Sound s.sweeps db') s.db := by
  refine wp_mono updateTestCaseForUser_spec ?_ fun _ _ honly ↦ h.of_neutral honly.neutral
  rintro _ _ ⟨t, -, hproject, ⟨uid, huid, hmember⟩, hupdated⟩
  have hgood := hfiles t.projectId hproject ⟨uid, huid, hmember⟩
  obtain ⟨_, suiteId, _, _, _, _, _, hsuite, -, -, rfl⟩ := hupdated.state
  refine h.updatedCases rfl rfl fun r hr hp _ id hid ↦ .inl ?_
  rw [Bool.and_eq_true, decide_eq_true_eq] at hp
  obtain rfl := Table.eq_of_key hr hupdated.mem hp.1
  refine hgood id ?_
  rw [hsuite, show suiteId = some id from hid]
  rfl

omit [Unicode] in
/-- A bulk update leaves a test case where it was, or moves it to the suite named, or to none. -/
theorem sound_bulkUpdateTestCases [Unicode] {userId : Option Uuid} {projectId : IdText}
    {testcaseIds : List IdText} {body : TestcaseBody} (h : Sound s.sweeps s.db)
    (hfiles : Files s (.call (.bulkUpdateTestCases userId projectId testcaseIds body))) :
    wp (bulkUpdateTestCases projectId userId testcaseIds body) (fun _ db' ↦ Sound s.sweeps db')
      (fun _ db' ↦ Sound s.sweeps db') s.db := by
  refine wp_mono bulkUpdateTestCases_spec ?_ fun _ _ hneutral ↦ h.of_neutral hneutral
  rintro _ db' (hneutral | ⟨P, uid, ids, hP, huid, hmember, hids, suiteId, _, _, _, hsuite, -, rfl⟩)
  · exact h.of_neutral hneutral
  · refine h.updatedCases rfl rfl fun r hr hp hlive ↦ ?_
    have hrlive : r.live = true := hlive
    cases hclear : clearsSuite body.suiteId with
    | true =>
        intro id hid
        cases hid
    | false =>
        have hgood := hfiles ⟨P, hP, uid, huid, hmember⟩ hclear ids (by rw [hids]; rfl) r hr hp
        rw [hclear] at hsuite
        cases hcase : suiteId with
        | none => exact fun id hid ↦ .inr ⟨r, hr, hrlive, rfl, rfl, hid⟩
        | some new =>
            intro id hid
            obtain rfl := Option.some.inj hid
            refine .inl (hgood new ?_)
            rw [show body.suiteId.truthy.map IdText.uuid = suiteId.map some from hsuite, hcase]
            rfl

theorem sound_insertDuplicate {src : Testcase} {uid : Uuid} {related : Except Failure Unit}
    (h : Sound s.sweeps s.db) (hfiles : Files s (.insertDuplicate src uid related)) :
    wp (insertDuplicate src uid related) (fun _ db' ↦ Sound s.sweeps db')
      (fun _ db' ↦ Sound s.sweeps db') s.db := by
  refine wp_mono insertDuplicate_spec ?_ fun _ _ hsame ↦ hsame ▸ h
  rintro t db' ⟨hsuite, hins⟩
  exact h.insertedCase hins fun id hid ↦ hfiles id (hsuite ▸ hid)

theorem sound_writeImportChunk {snapshot : Db} {ctx : ImportContext} {titles : List String}
    {prepared : List PreparedImportRow} {chunks : List (ℕ × List ImportRow)} {st : ImportState}
    (h : Sound s.sweeps s.db)
    (hfiles : Files s (.writeImportChunk snapshot ctx titles prepared chunks st)) :
    wp (writeImportChunk snapshot ctx prepared st) (fun _ db' ↦ Sound s.sweeps db')
      (fun _ db' ↦ Sound s.sweeps db') s.db := by
  obtain ⟨hdefault, hcache, hsnapshot⟩ := hfiles
  have hnamed : RowsNamed (NamedBy prepared) prepared := fun row hrow ↦
    ⟨⟨row, hrow, .inl rfl⟩, ⟨row, hrow, .inr rfl⟩⟩
  refine wp_mono (writeImportChunk_spec (canFile_rules s.sweeps ctx.projectId)
    (sound_importRules s.sweeps ctx.projectId) rfl hnamed h hcache hdefault hsnapshot
    fun _ _ ↦ .of_all (fun _ ↦ trivial) _ _ _) (fun _ _ hdone ↦ hdone.1) ?_
  exact fun _ _ hsame ↦ hsame ▸ h

/-- A step that meets its condition keeps the invariant. -/
theorem sound_exec {k : ℕ} {task : Task} (h : Sound s.sweeps s.db) (hfiles : Files s task) :
    Sound (exec k s task).1.sweeps (exec k s task).1.db := by
  cases task with
  | call c =>
      cases c with
      | createTestCaseForUser userId projectId body =>
          exact sound_handle (sound_createTestCaseForUser h hfiles)
      | updateTestCaseForUser userId projectId testcaseId body =>
          exact sound_whenFree h (sound_handle (sound_updateTestCaseForUser h hfiles))
      | bulkUpdateTestCases userId projectId testcaseIds body =>
          exact sound_whenFree h (sound_handle (sound_bulkUpdateTestCases h hfiles))
      | duplicateTestCase testcaseId actorId related =>
          exact sound_handle (wp_mono readOriginal_spec (fun _ _ hread ↦ hread.1 ▸ h)
            fun _ _ hsame ↦ hsame ▸ h)
      | importTestCases userId projectId body =>
          exact sound_handle (wp_mono openImport_spec (fun _ _ hopen ↦ h.of_neutral hopen.1.neutral)
            fun _ _ honly ↦ h.of_neutral honly.neutral)
      | deleteSuite userId suiteId mode => exact sound_startDeletion h
  | insertDuplicate src uid related => exact sound_handle (sound_insertDuplicate h hfiles)
  | importChunks ctx titles chunks st => exact h
  | writeImportChunk snapshot ctx titles prepared chunks st =>
      exact sound_handle (sound_writeImportChunk h hfiles)
  | deletion uid mode => exact sound_continueDeletion h

end Steps

/-! ## Runs -/

/-- In an interleaving whose filing steps all meet their condition, every live test case is always
filed in a live suite of its project, or in none. -/
theorem noGhosts_always [Unicode] {db : Db} {moves : List (Move Call)} (h : NoGhosts db)
    (hfiles : Along step (AtStep Files) (.idle ⟨db, .empty⟩) moves) :
    Always step (fun c ↦ NoGhosts c.shared.db) (.idle ⟨db, .empty⟩) moves := by
  have hsound : Sound Table.empty db :=
    ⟨h, ⟨fun e he ↦ absurd he List.not_mem_nil, fun e he ↦ absurd he List.not_mem_nil⟩⟩
  let I : Run → Prop := fun c ↦ Sound c.shared.sweeps c.shared.db
  have hmove : ∀ c m, I c → AtStep Files c m → I (step c m) ∧ True := fun c m hc hm ↦
    ⟨Config.shared_move (I := fun s ↦ Sound s.sweeps s.db) (fun _ _ _ hs ht ↦ sound_exec hs ht) hc hm,
      trivial⟩
  have hstart : I (.idle ⟨db, .empty⟩) := hsound
  exact (Along.invariant hmove hstart hfiles).1.mono fun c hc ↦ hc.1

/-- The first tenant's project with one suite, 500. -/
def oneSuite : Db :=
  { twoTenants with suites := ⟨[⟨500, 100, none, "Web", "", "", 0, 0, none, none⟩], by decide⟩ }

def filesInWeb : Call :=
  .createTestCaseForUser (some 1) (.canonical 100)
    { TestcaseBody.blank with suiteId := .value (.canonical 500) }

def deletesWeb : Call := .deleteSuite (some 1) (.canonical 500) .moveToDefault

/-- A test case filed before the deletion sweeps its suite, and one that is unfiled by it. -/
theorem noGhosts_filesInWeb :
    Always (@step asciiCase) (fun c ↦ NoGhosts c.shared.db) (.idle ⟨oneSuite, .empty⟩)
      [.enter 0 deletesWeb, .advance 0, .enter 1 filesInWeb, .advance 1, .advance 0, .advance 0] :=
  @noGhosts_always asciiCase oneSuite _ (by decide) (by decide)

/-- A test case filed after the sweep, and before the deletion commits, stays in the deleted suite;
so does one filed after the commit. -/
theorem not_noGhosts_filesInWeb :
    (¬ Always (@step asciiCase) (fun c ↦ NoGhosts c.shared.db) (.idle ⟨oneSuite, .empty⟩)
      [.enter 0 deletesWeb, .enter 1 filesInWeb, .advance 0, .advance 0, .advance 1,
        .advance 0]) ∧
    ¬ Always (@step asciiCase) (fun c ↦ NoGhosts c.shared.db) (.idle ⟨oneSuite, .empty⟩)
      [.enter 0 deletesWeb, .advance 0, .advance 0, .advance 0, .enter 1 filesInWeb,
        .advance 1] := by
  decide

end Tesbo.GhostSuites
