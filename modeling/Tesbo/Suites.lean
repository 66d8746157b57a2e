import Tesbo.Access
import Tesbo.Text
import Tesbo.Reasoning.Forest

/-!
# Suites

`createSuite`, `updateSuite` and `deleteSuite`, statement by statement.  Suites are soft-deleted, so
the foreign keys on `parent_id` and `suite_id` are satisfied by deleted suites too.
-/

namespace Tesbo

open Reasoning Service

def suiteNameMaxLength : ℕ := 255
def suiteTextMaxLength : ℕ := 20000

/-- `none` keeps the stored text, an empty text clears it. -/
def normalizeSuiteText (value : Arg JsonText) (label : String) : Except Failure (Option String) :=
  match value with
  | .undefined => .ok none
  | .null => .ok (some "")
  | .value .other => .error (.badRequest s!"{label} must be a string")
  | .value (.text s) =>
      let text := jsTrim s
      if suiteTextMaxLength < jsLength text
      then .error (.badRequest
        s!"{label} is too long ({jsLength text} characters, the limit is {suiteTextMaxLength})")
      else .ok (some text)

structure SuiteBody where
  name : Arg String
  description : Arg JsonText
  preconditions : Arg JsonText
  parentId : Arg IdText
  position : Arg ℤ
deriving DecidableEq, Repr

/-! ## The statements -/

/-- The row is a live suite of the project. -/
def Suite.liveIn (projectId : Uuid) (s : Suite) : Bool := s.projectId = projectId && s.live

def findLiveSuiteIn (projectId id : Uuid) (db : Db) : Option Suite :=
  (db.suites.find id).filter (Suite.liveIn projectId)

def insertSuite (s : Suite) : Handler Unit := exec fun db ↦
  match db.suites.insert s with
  | some suites => .ok { db with suites := suites }
  | none => .error (.unique "suites_pkey")

def updateSuites (p : Suite → Bool) (f : Suite → Suite) (hf : ∀ s, (f s).id = s.id) :
    Handler Unit := write fun db ↦ { db with suites := db.suites.updateWhere p f hf }

def updateTestcases (p : Testcase → Bool) (f : Testcase → Testcase) (hf : ∀ t, (f t).id = t.id) :
    Handler Unit := write fun db ↦ { db with testcases := db.testcases.updateWhere p f hf }

/-! ## The handlers -/

def requireLiveSuiteInProject (projectId : Uuid) (suiteId : IdText) : Handler Unit := do
  require suiteId.isUuid (.badRequest "parentId is not a valid suite id")
  let id ← castUuid suiteId
  let suite ← query (findLiveSuiteIn projectId id)
  require suite.isSome (.badRequest "parentId does not reference a suite in this project")

/-- `createSuite`, and the id of the new row. -/
def createSuite (projectId : Uuid) (body : SuiteBody) : Handler Uuid := do
  let name := jsTrim (body.name.truthy.getD "")
  require (name ≠ "") (.badRequest "name is required")
  ofExcept (validateBoundedField (some name) "Suite name" suiteNameMaxLength)
  let description ← ofExcept (normalizeSuiteText body.description "Suite description")
  let preconditions ← ofExcept (normalizeSuiteText body.preconditions "Suite preconditions")
  let parentId := body.parentId.truthy
  whenSome parentId (requireLiveSuiteInProject projectId)
  let parent ← castUuid? parentId
  let name ← ofExcept (varchar suiteNameMaxLength name)
  let position ← ofExcept (int4 (body.position.truthy.getD 0))
  let id ← genUuid
  let now ← query Db.now
  insertSuite {
    id, projectId, parentId := parent, name, description := description.getD "",
    preconditions := preconditions.getD "", position, updatedAt := now, deletedAt := none,
    deletedBy := none }
  pure id

def createSuiteForUser (userId : Option Uuid) (projectId : IdText) (body : SuiteBody) :
    Handler Uuid := do
  let access ← requireProjectAccess userId projectId
  createSuite access.project.id body

/-- The row an update of a suite leaves: `parent_id` is written as it is, the rest is kept where
nothing was sent. -/
def Suite.updated (now : Time) (name : Option String) (parentId : Option Uuid)
    (position : Option ℤ) (description preconditions : Option String) (s : Suite) : Suite :=
  { s with
    name := name.getD s.name
    parentId := parentId
    position := position.getD s.position
    description := description.getD s.description
    preconditions := preconditions.getD s.preconditions
    updatedAt := now }

def updateSuite (userId : Option Uuid) (suiteId : IdText) (body : SuiteBody) : Handler Unit := do
  let projectId ← requireSuiteAccess userId suiteId
  ofExcept (validateBoundedField body.name.nullish "Suite name" suiteNameMaxLength)
  let description ← ofExcept (normalizeSuiteText body.description "Suite description")
  let preconditions ← ofExcept (normalizeSuiteText body.preconditions "Suite preconditions")
  -- a body without `parentId` binds NULL here, and the statement has no COALESCE for it
  let parentId := body.parentId.nullish
  whenSome body.parentId.truthy (requireLiveSuiteInProject projectId)
  let id ← castUuid suiteId
  let parent ← castUuid? parentId
  let name ← ofExcept (body.name.nullish.mapM (varchar suiteNameMaxLength))
  let position ← ofExcept (body.position.nullish.mapM int4)
  let now ← query Db.now
  updateSuites (fun s ↦ s.id = id) (Suite.updated now name parent position description preconditions)
    fun _ ↦ rfl

/-! ### Deleting a subtree -/

/-- The two values of `mode` the program tells apart. -/
inductive DeleteMode where
  | deleteTestcases
  | moveToDefault
deriving DecidableEq, Repr

/-- The ids of the live suites of the project whose parent is `x`. -/
def suiteChildren (projectId : Uuid) (db : Db) (x : Uuid) : List Uuid :=
  (db.suites.select fun s ↦ s.parentId = some x && s.liveIn projectId).map Suite.id

/-- `WITH RECURSIVE subtree`: the suite, when it is live in the project, and what lies below. -/
def suiteSubtree (projectId id : Uuid) (db : Db) : List Uuid :=
  if (findLiveSuiteIn projectId id db).isSome
  then walk (suiteChildren projectId db) (db.suites.rows.map Suite.id).length [id]
  else []

/-- A live test case filed in one of the suites. -/
def Testcase.filedIn (subtree : List Uuid) (t : Testcase) : Bool :=
  t.suiteId.any (· ∈ subtree) && t.live

/-- What `deleteSuite` does to the test cases of the subtree. -/
def Testcase.swept (mode : DeleteMode) (uid : Uuid) (now : Time) (t : Testcase) : Testcase :=
  match mode with
  | .deleteTestcases =>
      { t with deletedAt := some now, deletedBy := some uid, updatedBy := some uid, updatedAt := now }
  | .moveToDefault => { t with suiteId := none, updatedAt := now }

theorem Testcase.swept_id {mode : DeleteMode} {uid : Uuid} {now : Time} (t : Testcase) :
    (t.swept mode uid now).id = t.id := by
  cases mode with
  | deleteTestcases => rfl
  | moveToDefault => rfl

theorem Testcase.swept_projectId {mode : DeleteMode} {uid : Uuid} {now : Time} (t : Testcase) :
    (t.swept mode uid now).projectId = t.projectId := by
  cases mode with
  | deleteTestcases => rfl
  | moveToDefault => rfl

def Suite.deleted (uid : Uuid) (now : Time) (s : Suite) : Suite :=
  { s with deletedAt := some now, deletedBy := some uid, updatedAt := now }

/-- The two updates of the transaction. -/
def sweepSubtree (mode : DeleteMode) (uid : Uuid) (subtree : List Uuid) : Handler Unit := do
  let now ← query Db.now
  updateTestcases (Testcase.filedIn subtree) (Testcase.swept mode uid now) Testcase.swept_id
  updateSuites (fun s ↦ s.id ∈ subtree && s.live) (Suite.deleted uid now) fun _ ↦ rfl

def deleteSuite (userId : Option Uuid) (suiteId : IdText) (mode : DeleteMode) : Handler Unit := do
  let uid ← requireUser userId
  let projectId ← requireSuiteAccess userId suiteId
  transaction do
    let id ← castUuid suiteId
    let subtree ← query (suiteSubtree projectId id)
    require (subtree ≠ []) (.notFound "Suite not found")
    sweepSubtree mode uid subtree

/-! ## What the handlers do -/

/-- The id is one of a live suite of the project. -/
def LiveSuite (db : Db) (projectId id : Uuid) : Prop :=
  ∃ s ∈ db.suites, s.id = id ∧ s.liveIn projectId = true

theorem Suite.liveIn_iff {projectId : Uuid} {s : Suite} :
    s.liveIn projectId = true ↔ s.projectId = projectId ∧ s.live = true := by
  unfold Suite.liveIn
  rw [Bool.and_eq_true, decide_eq_true_eq]

/-- Every table but `users` is as before; ids may have been drawn. -/
def Neutral (db db' : Db) : Prop := ∃ users uuids, db' = { db with users := users, uuids := uuids }

theorem Neutral.refl (db : Db) : Neutral db db := ⟨db.users, db.uuids, rfl⟩

theorem OnlyUsers.neutral {db db' : Db} (h : OnlyUsers db db') : Neutral db db' := by
  obtain ⟨users, rfl⟩ := h
  exact ⟨users, db.uuids, rfl⟩

theorem Neutral.trans {db₁ db₂ db₃ : Db} (h : Neutral db₁ db₂) (h' : Neutral db₂ db₃) :
    Neutral db₁ db₃ := by
  obtain ⟨users, uuids, rfl⟩ := h
  obtain ⟨users', uuids', rfl⟩ := h'
  exact ⟨users', uuids', rfl⟩

variable {db : Db}

theorem findLiveSuiteIn_isSome {projectId id : Uuid} :
    (findLiveSuiteIn projectId id db).isSome = true ↔ LiveSuite db projectId id := by
  unfold findLiveSuiteIn LiveSuite
  rw [Option.isSome_iff_exists]
  simp only [Option.filter_eq_some_iff, Table.find_eq_some, and_assoc]

/-- `b` is a live suite of the project directly below `a`. -/
def ChildSuite (db : Db) (projectId a b : Uuid) : Prop :=
  ∃ s ∈ db.suites, s.id = b ∧ s.parentId = some a ∧ s.liveIn projectId = true

theorem mem_suiteChildren {projectId a b : Uuid} :
    b ∈ suiteChildren projectId db a ↔ ChildSuite db projectId a b := by
  unfold suiteChildren ChildSuite
  simp only [List.mem_map, Table.mem_select, Bool.and_eq_true, decide_eq_true_eq]
  constructor
  · rintro ⟨s, ⟨hs, hparent, hlive⟩, hid⟩
    exact ⟨s, hs, hid, hparent, hlive⟩
  · rintro ⟨s, hs, hid, hparent, hlive⟩
    exact ⟨s, ⟨hs, hparent, hlive⟩, hid⟩

/-- The recursive query returns a live suite and everything below it. -/
theorem mem_suiteSubtree {projectId id x : Uuid} :
    x ∈ suiteSubtree projectId id db ↔
      LiveSuite db projectId id ∧ Relation.ReflTransGen (ChildSuite db projectId) id x := by
  have hchildren : (fun a b ↦ b ∈ suiteChildren projectId db a) = ChildSuite db projectId :=
    funext fun a ↦ funext fun b ↦ propext mem_suiteChildren
  have hnodes : ∀ a b, b ∈ suiteChildren projectId db a → b ∈ db.suites.rows.map Suite.id := by
    intro a b hb
    obtain ⟨s, hs, rfl⟩ := List.mem_map.mp hb
    exact List.mem_map_of_mem (Table.mem_select.mp hs).1
  unfold suiteSubtree
  by_cases hlive : LiveSuite db projectId id
  · have hnode : id ∈ db.suites.rows.map Suite.id := by
      obtain ⟨s, hs, rfl, -⟩ := hlive
      exact List.mem_map_of_mem hs
    rw [if_pos (findLiveSuiteIn_isSome.mpr hlive), mem_walk_iff hnode hnodes, hchildren]
    exact ⟨fun h ↦ ⟨hlive, h⟩, fun h ↦ h.2⟩
  · rw [if_neg fun h ↦ hlive (findLiveSuiteIn_isSome.mp h)]
    exact ⟨fun h ↦ absurd h List.not_mem_nil, fun h ↦ absurd h.1 hlive⟩

theorem liveSuite_of_mem_suiteSubtree {projectId id x : Uuid}
    (h : x ∈ suiteSubtree projectId id db) : LiveSuite db projectId x := by
  obtain ⟨hlive, hreach⟩ := mem_suiteSubtree.mp h
  rcases Relation.ReflTransGen.cases_tail hreach with rfl | ⟨a, -, s, hs, hid, -, hslive⟩
  · exact hlive
  · exact ⟨s, hs, hid, hslive⟩

theorem requireLiveSuiteInProject_spec {projectId : Uuid} {suiteId : IdText} :
    wp (requireLiveSuiteInProject projectId suiteId)
      (fun _ db' ↦ db' = db ∧ ∃ id, suiteId.uuid = some id ∧ LiveSuite db projectId id)
      (fun _ db' ↦ db' = db) db := by
  unfold requireLiveSuiteInProject
  simp only [wp_bind, wp_require, wp_castUuid, wp_query, implies_true, and_true]
  intro _ id hid hsome
  exact ⟨trivial, id, hid, findLiveSuiteIn_isSome.mp hsome⟩

theorem wp_insertSuite {s : Suite} {Q : Unit → Db → Prop} {E : Failure → Db → Prop} :
    wp (insertSuite s) Q E db ↔
      (∀ suites, db.suites.insert s = some suites → Q () { db with suites := suites }) ∧
        (db.suites.insert s = none → E (.unique "suites_pkey") db) := by
  unfold insertSuite
  rw [wp_exec]
  cases db.suites.insert s with
  | none => simp
  | some suites => simp

/-- The parent a body names, when it names one, is a live suite of the project. -/
theorem whenSome_requireLiveSuite_spec {projectId : Uuid} {parentId : Option IdText} :
    wp (whenSome parentId (requireLiveSuiteInProject projectId))
      (fun _ db' ↦ db' = db ∧ ∀ p, parentId.map IdText.uuid = some (some p) →
        LiveSuite db projectId p)
      (fun _ db' ↦ Neutral db db') db := by
  rw [wp_whenSome]
  constructor
  · rintro rfl
    exact ⟨rfl, fun p hp ↦ by cases hp⟩
  · rintro t rfl
    refine wp_mono requireLiveSuiteInProject_spec ?_ ?_
    · rintro _ _ ⟨rfl, id, hid, hlive⟩
      refine ⟨rfl, fun p hp ↦ ?_⟩
      rw [Option.map_some, hid, Option.some.injEq, Option.some.injEq] at hp
      exact hp ▸ hlive
    · rintro _ _ rfl
      exact .refl _

/-- A created suite is live, in the project, and at the root or below a live suite of it. -/
theorem createSuite_spec {projectId : Uuid} {body : SuiteBody} :
    wp (createSuite projectId body)
      (fun id db' ↦ ∃ s suites uuids, s.id = id ∧ s.liveIn projectId = true ∧
        (∀ p, s.parentId = some p → LiveSuite db projectId p) ∧
        db.suites.insert s = some suites ∧ db' = { db with suites := suites, uuids := uuids })
      (fun _ db' ↦ Neutral db db') db := by
  have hE : ∀ _ : Failure, Neutral db db := fun _ ↦ .refl db
  unfold createSuite
  dsimp only
  refine wp_require_seq (.refl db) fun _ ↦ ?_
  refine wp_ofExcept_seq hE fun _ _ ↦ ?_
  refine wp_ofExcept_seq hE fun description _ ↦ ?_
  refine wp_ofExcept_seq hE fun preconditions _ ↦ ?_
  refine wp_seq whenSome_requireLiveSuite_spec ?_
  rintro _ _ ⟨rfl, hchecked⟩
  refine wp_castUuid?_seq hE fun parent hparent ↦ ?_
  refine wp_ofExcept_seq hE fun name _ ↦ ?_
  refine wp_ofExcept_seq hE fun position _ ↦ ?_
  simp only [wp_bind, wp_genUuid, wp_query, wp_insertSuite, wp_pure]
  refine ⟨fun suites hsuites ↦ ⟨_, suites, _, rfl, ?_, ?_, hsuites, rfl⟩, fun _ ↦ ⟨_, _, rfl⟩⟩
  · exact Suite.liveIn_iff.mpr ⟨rfl, rfl⟩
  · rintro p rfl
    exact hchecked p hparent

theorem createSuiteForUser_spec {userId : Option Uuid} {projectId : IdText} {body : SuiteBody} :
    wp (createSuiteForUser userId projectId body)
      (fun _ db' ↦ ∃ P uid, projectId.uuid = some P ∧ userId = some uid ∧ IsMember db P uid ∧
        ∃ s suites users uuids, s.liveIn P = true ∧
          (∀ p, s.parentId = some p → LiveSuite db P p) ∧ db.suites.insert s = some suites ∧
          db' = { db with users := users, suites := suites, uuids := uuids })
      (fun _ db' ↦ Neutral db db') db := by
  unfold createSuiteForUser
  refine wp_seq (wp_mono requireProjectAccess_spec (fun _ _ h ↦ h) fun _ _ h ↦ h.neutral) ?_
  rintro access _ ⟨⟨users, rfl⟩, -, hproject, uid, huid, hmember⟩
  refine wp_mono createSuite_spec ?_ fun _ _ h ↦ OnlyUsers.neutral ⟨users, rfl⟩ |>.trans h
  rintro _ _ ⟨s, suites, uuids, -, hlive, hparent, hinsert, rfl⟩
  exact ⟨_, uid, hproject, huid, hmember, s, suites, users, uuids, hlive, hparent, hinsert, rfl⟩

/-- A text that Postgres reads as a uuid is not the empty text. -/
theorem truthy_of_nullish {a : Arg IdText} {t : IdText} {p : Uuid} (ha : a.nullish = some t)
    (ht : t.uuid = some p) : a.truthy = some t := by
  cases a with
  | undefined => cases ha
  | null => cases ha
  | value t' =>
      obtain rfl := Option.some.inj ha
      have hne : t' ≠ .word "" := fun h ↦ by rw [h] at ht; cases ht
      exact if_neg (by simpa [Falsy.falsy] using hne)

/-- An update changes one live suite, of a project of the caller's; its new parent is NULL or one
of the project's live suites. -/
theorem updateSuite_spec {userId : Option Uuid} {suiteId : IdText} {body : SuiteBody} :
    wp (updateSuite userId suiteId body)
      (fun _ db' ↦ ∃ s ∈ db.suites, s.live = true ∧ suiteId.uuid = some s.id ∧
        (∃ uid, userId = some uid ∧ IsMember db s.projectId uid) ∧
        ∃ parent name position description preconditions users,
          body.parentId.nullish.map IdText.uuid = parent.map some ∧
          (∀ p, parent = some p → LiveSuite db s.projectId p) ∧
          db' = { db with
            users := users
            suites := db.suites.updateWhere (fun r ↦ r.id = s.id)
              (Suite.updated db.now name parent position description preconditions) fun _ ↦ rfl })
      (fun _ db' ↦ Neutral db db') db := by
  unfold updateSuite
  refine wp_seq (wp_mono requireSuiteAccess_spec (fun _ _ h ↦ h) fun _ _ h ↦ h.neutral) ?_
  rintro projectId _ ⟨⟨users, rfl⟩, ⟨s, hs, hid, hlive, rfl⟩, hcaller⟩
  have hE : ∀ _ : Failure, Neutral db { db with users := users } := fun _ ↦ ⟨users, db.uuids, rfl⟩
  dsimp only
  refine wp_ofExcept_seq hE fun _ _ ↦ ?_
  refine wp_ofExcept_seq hE fun description _ ↦ ?_
  refine wp_ofExcept_seq hE fun preconditions _ ↦ ?_
  refine wp_seq (wp_mono whenSome_requireLiveSuite_spec (fun _ _ h ↦ h)
    fun _ _ h ↦ (hE .invalidUuid).trans h) ?_
  rintro _ _ ⟨rfl, hchecked⟩
  refine wp_castUuid_seq hE fun id hid' ↦ ?_
  obtain rfl : s.id = id := Option.some.inj (hid.symm.trans hid')
  refine wp_castUuid?_seq hE fun parent hparent ↦ ?_
  refine wp_ofExcept_seq hE fun name _ ↦ ?_
  refine wp_ofExcept_seq hE fun position _ ↦ ?_
  simp only [wp_bind, wp_query, updateSuites, wp_write]
  refine ⟨s, hs, hlive, hid, hcaller, parent, name, position, description, preconditions, users,
    hparent, ?_, rfl⟩
  rintro p rfl
  obtain ⟨t, ht, htp⟩ := Option.map_eq_some_iff.mp hparent
  refine hchecked p ?_
  rw [truthy_of_nullish ht htp, Option.map_some, htp]

/-- A deletion marks the live suites of the subtree and sweeps the live test cases filed there. -/
theorem deleteSuite_spec {userId : Option Uuid} {suiteId : IdText} {mode : DeleteMode} :
    wp (deleteSuite userId suiteId mode)
      (fun _ db' ↦ ∃ s ∈ db.suites, s.live = true ∧ suiteId.uuid = some s.id ∧
        ∃ uid, userId = some uid ∧ IsMember db s.projectId uid ∧ ∃ users,
          db' = { db with
            users := users
            testcases := db.testcases.updateWhere
              (Testcase.filedIn (suiteSubtree s.projectId s.id db))
              (Testcase.swept mode uid db.now) Testcase.swept_id
            suites := db.suites.updateWhere
              (fun r ↦ r.id ∈ suiteSubtree s.projectId s.id db && r.live)
              (Suite.deleted uid db.now) fun _ ↦ rfl })
      (fun _ db' ↦ Neutral db db') db := by
  unfold deleteSuite
  refine wp_requireUser_seq (fun _ ↦ .refl db) fun uid huid ↦ ?_
  refine wp_seq (wp_mono requireSuiteAccess_spec (fun _ _ h ↦ h) fun _ _ h ↦ h.neutral) ?_
  rintro projectId _ ⟨⟨users, rfl⟩, ⟨s, hs, hid, hlive, rfl⟩, uid', huid', hmember⟩
  obtain rfl : uid = uid' := Option.some.inj (huid.symm.trans huid')
  have hE : ∀ _ : Failure, Neutral db { db with users := users } := fun _ ↦ ⟨users, db.uuids, rfl⟩
  rw [wp_transaction]
  refine wp_castUuid_seq hE fun id hid' ↦ ?_
  obtain rfl : s.id = id := Option.some.inj (hid.symm.trans hid')
  refine wp_query_seq ?_
  refine wp_require_seq (hE .invalidUuid) fun _ ↦ ?_
  simp only [sweepSubtree, updateTestcases, updateSuites, wp_bind, wp_query, wp_write]
  exact ⟨s, hs, hlive, hid, uid, huid, hmember, users, rfl⟩

end Tesbo
