import Tesbo.Requests

/-!
# Tenants and the writers of test cases

Every writer checks the project in its URL.  What it then writes is addressed by the ids in the
body, and by the suite a test case was filed in earlier.
-/

namespace Tesbo.TenantIsolation

open Reasoning Service

/-! ## Isolation -/

def suitesOf (projectId : Uuid) (db : Db) : List Suite :=
  db.suites.select fun s ↦ s.projectId = projectId

def testcasesOf (projectId : Uuid) (db : Db) : List Testcase :=
  db.testcases.select fun t ↦ t.projectId = projectId

/-- The project of the URL of a bulk call. -/
def bulkProject : Call → Option IdText
  | .bulkUpdateTestCases projectId _ _ | .bulkDeleteTestCases projectId _ => some projectId
  | _ => none

/-- The request changes no suite and no test case of a project the caller is not a member of, and a
bulk request no test case of any project but its own. -/
def Isolated [Unicode] (db : Db) (r : Request) : Prop :=
  (∀ Q, ¬ CallerIn db r.userId Q →
    suitesOf Q (step db r) = suitesOf Q db ∧ testcasesOf Q (step db r) = testcasesOf Q db) ∧
  ∀ P ∈ bulkProject r.call, ∀ Q, P.uuid ≠ some Q → testcasesOf Q (step db r) = testcasesOf Q db

/-- The ids, when they all are ids, name live test cases of the project only. -/
def NamesOnly (db : Db) (projectId : IdText) (ids : List IdText) : Prop :=
  ∀ named ∈ (ids.mapM readUuid).toOption, ∀ t ∈ db.testcases,
    namedLive named t = true → projectId.uuid = some t.projectId

instance (db : Db) (projectId : IdText) (ids : List IdText) :
    Decidable (NamesOnly db projectId ids) :=
  inferInstanceAs (Decidable (∀ named ∈ (ids.mapM readUuid).toOption, ∀ t ∈ db.testcases, _ → _))

/-- What a request must meet to stay with the caller's own projects: a bulk request that gets past
the check of its project names test cases of that project, and the subtree a suite is deleted with
holds no live test case of a project foreign to the caller. -/
def Scoped (db : Db) (r : Request) : Prop :=
  match r.call with
  | .bulkUpdateTestCases projectId ids _ | .bulkDeleteTestCases projectId ids =>
      (∃ P ∈ projectId.uuid, CallerIn db r.userId P) → NamesOnly db projectId ids
  | .deleteSuite suiteId _ =>
      ∀ s ∈ db.suites, suiteId.uuid = some s.id → CallerIn db r.userId s.projectId →
        ∀ t ∈ db.testcases, t.filedIn (suiteSubtree s.projectId s.id db) = true →
          CallerIn db r.userId t.projectId
  | _ => True

instance (db : Db) : ∀ r, Decidable (Scoped db r)
  | ⟨_, _, .bulkUpdateTestCases P ids _⟩ | ⟨_, _, .bulkDeleteTestCases P ids⟩ =>
      inferInstanceAs (Decidable ((∃ p ∈ P.uuid, _) → NamesOnly db P ids))
  | ⟨_, _, .deleteSuite _ _⟩ =>
      inferInstanceAs (Decidable (∀ s ∈ db.suites, _ → _ → ∀ t ∈ db.testcases, _ → _))
  | ⟨_, _, .createTestCaseForUser ..⟩ | ⟨_, _, .updateTestCaseForUser ..⟩
  | ⟨_, _, .importTestCases ..⟩ | ⟨_, _, .createSuiteForUser ..⟩ | ⟨_, _, .updateSuite ..⟩ =>
      instDecidableTrue

/-! ## One request -/

section Untouched

variable {Q : Uuid} {db db' : Db}

/-- No suite and no test case of the project differs. -/
def Untouched (Q : Uuid) (db db' : Db) : Prop :=
  suitesOf Q db' = suitesOf Q db ∧ testcasesOf Q db' = testcasesOf Q db

theorem Untouched.of_neutral (h : Neutral db db') : Untouched Q db db' := by
  obtain ⟨users, uuids, rfl⟩ := h
  exact ⟨rfl, rfl⟩

theorem suitesOf_insert {s : Suite} {suites : Table Suite.id} (h : db.suites.insert s = some suites)
    (hs : s.projectId ≠ Q) : suites.select (fun s ↦ s.projectId = Q) = suitesOf Q db :=
  Table.select_insert h (decide_eq_false hs)

theorem testcasesOf_foldlM {rows : List Testcase} {testcases testcases' : Table Testcase.id}
    (h : rows.foldlM insertTestcaseRow testcases = .ok testcases')
    (hrows : ∀ t ∈ rows, t.projectId ≠ Q) :
    testcases'.select (fun t ↦ t.projectId = Q) = testcases.select (fun t ↦ t.projectId = Q) := by
  induction rows generalizing testcases with
  | nil =>
      obtain rfl := Except.ok.inj h
      rfl
  | cons r rows ih =>
      rw [List.foldlM_cons] at h
      cases hr : insertTestcaseRow testcases r with
      | error e => rw [hr] at h; cases h
      | ok inserted =>
          rw [hr] at h
          rw [ih h fun t ht ↦ hrows t (List.mem_cons_of_mem r ht)]
          exact Table.select_insert (insertTestcaseRow_eq_ok hr).1
            (decide_eq_false (hrows r List.mem_cons_self))

theorem Untouched.of_insertedCase [Unicode] {P : Uuid} {supplied requested : Option String}
    {t : Testcase} (h : InsertedCase db P supplied requested t db') (hP : P ≠ Q) :
    Untouched Q db db' := by
  obtain ⟨testcases, users, uuids, hrow, rfl⟩ := h.state
  exact ⟨rfl, Table.select_insert (insertTestcaseRow_eq_ok hrow).1
    (decide_eq_false fun hQ ↦ hP (h.project ▸ hQ))⟩

/-- An update of test cases none of which is of the project, and which moves none into it. -/
theorem testcasesOf_updated {p : Testcase → Bool} {f : Testcase → Testcase}
    (h : db.testcases.UpdatedRows db'.testcases p f)
    (hproject : ∀ t, (f t).projectId = t.projectId)
    (hother : ∀ t ∈ db.testcases, p t = true → t.projectId ≠ Q) :
    testcasesOf Q db' = testcasesOf Q db := by
  refine h.select fun t ht hp ↦ ⟨decide_eq_false (hother t ht hp), ?_⟩
  rw [hproject]
  exact decide_eq_false (hother t ht hp)

theorem suitesOf_updated {p : Suite → Bool} {f : Suite → Suite}
    (h : db.suites.UpdatedRows db'.suites p f) (hproject : ∀ s, (f s).projectId = s.projectId)
    (hother : ∀ s ∈ db.suites, p s = true → s.projectId ≠ Q) :
    suitesOf Q db' = suitesOf Q db := by
  refine h.select fun s hs hp ↦ ⟨decide_eq_false (hother s hs hp), ?_⟩
  rw [hproject]
  exact decide_eq_false (hother s hs hp)

/-- The writes of an import leave other projects alone. -/
theorem untouched_importRules {P : Uuid} (hP : P ≠ Q) (good : Db → Uuid → Prop) :
    ImportRules P good (fun _ ↦ True) (Untouched Q db) where
  uuids _ _ h := h
  suites db' s suites h hlive _ hinsert := by
    refine ⟨?_, h.2⟩
    rw [← h.1]
    exact suitesOf_insert hinsert fun hQ ↦ hP ((Suite.liveIn_iff.mp hlive).1 ▸ hQ)
  testcases db' rows testcases h hrows hinsert := by
    refine ⟨h.1, ?_⟩
    rw [← h.2]
    exact testcasesOf_foldlM hinsert fun t ht hQ ↦ hP ((hrows t ht).1 ▸ hQ)

end Untouched

section Step

variable [Unicode] {db : Db} {userId : Option Uuid} {Q : Uuid}

omit [Unicode] in
/-- The suites below a suite are suites of its project. -/
theorem projectId_of_mem_suiteSubtree {s r : Suite} (hr : r ∈ db.suites)
    (h : r.id ∈ suiteSubtree s.projectId s.id db) : r.projectId = s.projectId := by
  obtain ⟨r', hr', hid, hlive⟩ := liveSuite_of_mem_suiteSubtree h
  rw [← Table.eq_of_key hr' hr hid]
  exact (Suite.liveIn_iff.mp hlive).1

omit [Unicode] in
/-- A bulk request whose ids are the project's changes nothing of another project, nor of its own
when the caller may not reach it. -/
theorem untouched_bulkUpdateTestCases {projectId : IdText} {ids : List IdText} {body : TestcaseBody}
    (hnames : (∃ P ∈ projectId.uuid, CallerIn db userId P) → NamesOnly db projectId ids)
    (hQ : projectId.uuid = some Q → ¬ CallerIn db userId Q) :
    wp (Tesbo.bulkUpdateTestCases projectId userId ids body) (fun _ db' ↦ Untouched Q db db')
      (fun _ db' ↦ Untouched Q db db') db := by
  refine wp_mono bulkUpdateTestCases_spec ?_ fun _ _ h ↦ .of_neutral h
  rintro _ db' (h | ⟨P, uid, named, hP, huid, hmember, hnamed, _, _, _, users, -, -, rfl⟩)
  · exact .of_neutral h
  · have honly := hnames ⟨P, hP, uid, huid, hmember⟩ named (by rw [hnamed]; rfl)
    refine ⟨rfl, testcasesOf_updated rfl (fun _ ↦ rfl) fun t ht hp ↦ ?_⟩
    rintro rfl
    have hsame : P = t.projectId := Option.some.inj (hP.symm.trans (honly t ht hp))
    exact hQ (hsame ▸ hP) ⟨uid, huid, hsame ▸ hmember⟩

omit [Unicode] in
theorem untouched_bulkDeleteTestCases {projectId : IdText} {ids : List IdText}
    (hnames : (∃ P ∈ projectId.uuid, CallerIn db userId P) → NamesOnly db projectId ids)
    (hQ : projectId.uuid = some Q → ¬ CallerIn db userId Q) :
    wp (Tesbo.bulkDeleteTestCases projectId userId ids) (fun _ db' ↦ Untouched Q db db')
      (fun _ db' ↦ Untouched Q db db') db := by
  refine wp_mono bulkDeleteTestCases_spec ?_ fun _ _ h ↦ .of_neutral h
  rintro _ db' (h | ⟨P, uid, named, hP, huid, hmember, hnamed, users, rfl⟩)
  · exact .of_neutral h
  · have honly := hnames ⟨P, hP, uid, huid, hmember⟩ named (by rw [hnamed]; rfl)
    refine ⟨rfl, testcasesOf_updated rfl (fun _ ↦ rfl) fun t ht hp ↦ ?_⟩
    rintro rfl
    have hsame : P = t.projectId := Option.some.inj (hP.symm.trans (honly t ht hp))
    exact hQ (hsame ▸ hP) ⟨uid, huid, hsame ▸ hmember⟩

/-- A request that meets its condition changes nothing of a project foreign to its caller. -/
theorem untouched_of_scoped {call : Call} {now : Time}
    (hscoped : Scoped db ⟨userId, now, call⟩) (hQ : ¬ CallerIn db userId Q) :
    wp (call.run userId) (fun _ db' ↦ Untouched Q db db') (fun _ db' ↦ Untouched Q db db') db := by
  have hne : ∀ {P uid}, userId = some uid → IsMember db P uid → P ≠ Q := by
    rintro P uid rfl hmember rfl
    exact hQ ⟨uid, rfl, hmember⟩
  cases call with
  | createTestCaseForUser projectId body =>
      refine wp_effect.mpr (wp_mono createTestCaseForUser_spec ?_ fun _ _ h ↦ .of_neutral h)
      rintro t db' ⟨⟨uid, huid, hmember⟩, -, -, hins⟩
      exact .of_insertedCase hins (hne huid hmember)
  | updateTestCaseForUser projectId testcaseId body =>
      refine wp_mono updateTestCaseForUser_spec ?_ fun _ _ h ↦ .of_neutral h.neutral
      rintro _ _ ⟨t, -, -, ⟨uid, huid, hmember⟩, hmem, -, _, _, _, _, _, users, cycleItems, -, -, -, rfl⟩
      refine ⟨rfl, testcasesOf_updated rfl (fun _ ↦ rfl) fun r hr hp ↦ ?_⟩
      rw [Bool.and_eq_true, decide_eq_true_eq] at hp
      rw [Table.eq_of_key hr hmem hp.1]
      exact hne huid hmember
  | bulkUpdateTestCases projectId ids body =>
      exact untouched_bulkUpdateTestCases hscoped fun _ ↦ hQ
  | bulkDeleteTestCases projectId ids =>
      exact untouched_bulkDeleteTestCases hscoped fun _ ↦ hQ
  | importTestCases projectId body =>
      refine wp_effect.mpr (importTestCases_spec (fun users ↦ ⟨rfl, rfl⟩) ?_)
      exact fun P uid _ huid hmember ↦ untouched_importRules (hne huid hmember) _
  | createSuiteForUser projectId body =>
      refine wp_effect.mpr (wp_mono createSuiteForUser_spec ?_ fun _ _ h ↦ .of_neutral h)
      rintro _ _ ⟨P, uid, -, huid, hmember, s, suites, users, uuids, hlive, -, hinsert, rfl⟩
      exact ⟨suitesOf_insert hinsert ((Suite.liveIn_iff.mp hlive).1 ▸ hne huid hmember), rfl⟩
  | updateSuite suiteId body =>
      refine wp_mono updateSuite_spec ?_ fun _ _ h ↦ .of_neutral h
      rintro _ _ ⟨s, hs, -, -, ⟨uid, huid, hmember⟩, _, _, _, _, _, users, -, -, rfl⟩
      refine ⟨suitesOf_updated rfl (fun _ ↦ rfl) fun r hr hp ↦ ?_, rfl⟩
      rw [Table.eq_of_key hr hs (decide_eq_true_eq.mp hp)]
      exact hne huid hmember
  | deleteSuite suiteId mode =>
      refine wp_mono deleteSuite_spec ?_ fun _ _ h ↦ .of_neutral h
      rintro _ _ ⟨s, hs, -, hid, uid, huid, hmember, users, rfl⟩
      constructor
      · refine suitesOf_updated rfl (fun _ ↦ rfl) fun r hr hp ↦ ?_
        rw [Bool.and_eq_true, decide_eq_true_eq] at hp
        rw [projectId_of_mem_suiteSubtree hr hp.1]
        exact hne huid hmember
      · refine testcasesOf_updated rfl Testcase.swept_projectId fun t ht hp ↦ ?_
        rintro rfl
        exact hQ (hscoped s hs hid ⟨uid, huid, hmember⟩ t ht hp)

theorem isolated_of_scoped {r : Request} (h : Scoped db r) : Isolated db r := by
  have hscoped : Scoped { db with now := r.now } ⟨r.userId, r.now, r.call⟩ := h
  refine ⟨fun Q hQ ↦ after_of_wp (untouched_of_scoped hscoped hQ), fun P hP Q hPQ ↦ ?_⟩
  obtain ⟨userId, now, call⟩ := r
  cases call with
  | bulkUpdateTestCases projectId ids body =>
      obtain rfl := Option.some.inj hP
      exact (after_of_wp (P := Untouched Q { db with now := now })
        (untouched_bulkUpdateTestCases hscoped fun h ↦ absurd h hPQ)).2
  | bulkDeleteTestCases projectId ids =>
      obtain rfl := Option.some.inj hP
      exact (after_of_wp (P := Untouched Q { db with now := now })
        (untouched_bulkDeleteTestCases hscoped fun h ↦ absurd h hPQ)).2
  | _ => cases hP

end Step

/-! ## Runs -/

/-- In a run whose requests all meet their condition, no request reaches into a project its caller
is not a member of, and every bulk request stays in its own project. -/
theorem isolated_along [Unicode] {db : Db} {requests : List Request}
    (h : Along step Scoped db requests) : Along step Isolated db requests :=
  h.mono fun _ _ hscoped ↦ isolated_of_scoped hscoped

/-- The second tenant creates a test case. -/
def createsCase : Request := ⟨some 2, 1, .createTestCaseForUser (.canonical 200) .blank⟩

/-- The second tenant deletes it in its own project. -/
def deletesOwnCase : Request :=
  ⟨some 2, 2, .bulkDeleteTestCases (.canonical 200) [.canonical 1000]⟩

theorem isolated_twoTenants :
    Along (@step asciiCase) (@Isolated asciiCase) twoTenants [createsCase, deletesOwnCase] :=
  @isolated_along asciiCase twoTenants [createsCase, deletesOwnCase] (by decide)

/-- The first tenant deletes it, in a bulk call made in a project of its own. -/
def deletesForeignCase : Request :=
  ⟨some 1, 2, .bulkDeleteTestCases (.canonical 100) [.canonical 1000]⟩

/-- The bulk delete deletes the other tenant's test case. -/
theorem not_isolated_bulkDelete :
    ¬ Along (@step asciiCase) (@Isolated asciiCase) twoTenants [createsCase, deletesForeignCase] := by
  rintro ⟨-, ⟨hforeign, -⟩, -⟩
  have hsame := (hforeign 200 (by decide)).2
  exact absurd (congrArg (List.map Testcase.deletedAt) hsame) (by decide)

end Tesbo.TenantIsolation
