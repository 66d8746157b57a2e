import Tesbo.PlaywrightReporter

/-!
# The attempt that stands

Requests overtake each other, and the `UPDATE` that stores a report does not ask which attempt the
row holds.  So the attempt that stands is the one whose report is stored last.
-/

namespace Tesbo.Automation

open Reasoning Proc

/-! ## What is stored of a post -/

/-- The status a report is stored with. -/
def storedStatus : TestStatus → String
  | .passed => "Passed"
  | .failed | .timedOut => "Failed"
  | .skipped => "Skipped"
  | .interrupted => "Blocked"

/-- The row holds what was posted. -/
def Holds (p : Post) (e : Execution) : Prop :=
  e.status = storedStatus p.result.status ∧ e.errorMessage = errorMessage p.result ∧
    e.retryCount = p.result.retry

instance (p : Post) (e : Execution) : Decidable (Holds p e) :=
  inferInstanceAs (Decidable (_ ∧ _ ∧ _))

theorem normalizeWireStatus_statusMap [LetterCase] (status : TestStatus) :
    normalizeWireStatus (.value (.text (statusMap status))) = some (storedStatus status) := by
  have hkey : ∀ s : String, jsTrim s = s → (∀ c ∈ s.toList, c.toNat < 128) →
      wireKey s = String.ofList ((s.toList.map Char.toLower).filter fun c ↦
        !jsSpace c && c ≠ '_' && c ≠ '-') := by
    intro s htrim hascii
    unfold wireKey
    rw [htrim, LetterCase.toLowerCase_ascii s hascii, String.toList_ofList]
  unfold normalizeWireStatus
  dsimp only
  rw [hkey (statusMap status) (by cases status <;> decide) (by cases status <;> decide)]
  cases status <;> decide

theorem trimmed_errorMessage {result : TestResult} {text : String}
    (h : errorMessage result = some text) : jsTrim text = text ∧ text ≠ "" := by
  unfold errorMessage at h
  dsimp only at h
  split at h
  · cases h
  · cases h
  · split at h
    · cases h
    · rename_i hne
      obtain rfl := Option.some.inj h
      exact ⟨jsTrim_eq (trimmed_jsTrim _), hne⟩

/-- A report that is accepted says what was posted. -/
theorem report_eq_ok {p : Post} {status : String} {actorId : Uuid} {r : Report}
    (h : ResultBody.report p.body status actorId = .ok r) :
    r.status = status ∧ r.errorMessage = errorMessage p.result ∧
      r.retryCount = some (p.result.retry : ℤ) := by
  unfold ResultBody.report at h
  obtain ⟨durationMs, -, h⟩ := except_bind_eq_ok.mp h
  obtain ⟨retryCount, hretry, h⟩ := except_bind_eq_ok.mp h
  obtain ⟨message, hmessage, h⟩ := except_bind_eq_ok.mp h
  obtain ⟨stack, -, h⟩ := except_bind_eq_ok.mp h
  obtain rfl := Except.ok.inj h
  refine ⟨rfl, ?_, ?_⟩
  · show message = errorMessage p.result
    simp only [Post.body, boundedString] at hmessage
    cases herror : errorMessage p.result with
    | none =>
        rw [herror] at hmessage
        exact (Except.ok.inj hmessage).symm
    | some text =>
        obtain ⟨htrim, hne⟩ := trimmed_errorMessage herror
        rw [herror] at hmessage
        simp only [optional, Arg.nullish, Option.map_some, htrim, if_neg hne] at hmessage
        split at hmessage
        · cases hmessage
        · exact (Except.ok.inj hmessage).symm
  · show retryCount = some (p.result.retry : ℤ)
    simp only [Post.body, normalizeRetryCount, Arg.nullish] at hretry
    split at hretry
    · cases hretry
    · split at hretry
      · cases hretry
      · exact (Except.ok.inj hretry).symm

theorem status_of_caseAndStatus [LetterCase] {p : Post} {named : String × String}
    (h : ResultBody.caseAndStatus p.body = .ok named) :
    named.2 = storedStatus p.result.status := by
  unfold ResultBody.caseAndStatus at h
  obtain ⟨caseId?, -, h⟩ := except_bind_eq_ok.mp h
  obtain ⟨caseId, -, h⟩ := except_bind_eq_ok.mp h
  obtain ⟨status, hstatus, h⟩ := except_bind_eq_ok.mp h
  obtain rfl := Except.ok.inj h
  have hsome := eq_some_of_found hstatus
  rw [show p.body.status = .value (.text (statusMap p.result.status)) from rfl,
    normalizeWireStatus_statusMap] at hsome
  exact (Option.some.inj hsome).symm

theorem varchar_storedStatus (status : TestStatus) :
    varchar 32 (storedStatus status) = .ok (storedStatus status) := by
  apply varchar_of_length_le
  cases status <;> decide

/-- What is stored of a report that is accepted. -/
theorem holds_apply [LetterCase] {p : Post} {named : String × String} {actorId : Uuid} {r : Report}
    (hnamed : ResultBody.caseAndStatus p.body = .ok named)
    (hr : ResultBody.report p.body named.2 actorId = .ok r) (now : Time) (e : Execution) :
    varchar 32 r.status = .ok r.status ∧ Holds p (r.apply now e) := by
  obtain ⟨hstatus, hmessage, hretry⟩ := report_eq_ok hr
  rw [status_of_caseAndStatus hnamed] at hstatus
  refine ⟨?_, hstatus, hmessage, ?_⟩
  · rw [hstatus]
    exact varchar_storedStatus p.result.status
  · show r.retryCount.getD _ = _
    rw [hretry]
    rfl

/-! ## Which report is stored last -/

section Stored

variable [Unicode]

/-- The post whose report the step stores in the result of the case, when it stores one. -/
def Session.storing (n : Session) (testcaseId : Uuid) (c : Requests) (k : ℕ) : Option ℕ :=
  match moving c (.advance k : Move Empty) with
  | some (.store runId id _) =>
      if runId = n.runId ∧ id = testcaseId ∧
          ∃ e ∈ c.shared.store.executions, c.shared.store.IsResultOf runId id e
      then n.carries k
      else none
  | _ => none

/-- The post whose report is the last that the steps store in the result of the case. -/
def Session.lastStored (n : Session) (testcaseId : Uuid) : Requests → List ℕ → Option ℕ
  | _, [] => none
  | c, k :: ks => (n.lastStored testcaseId (step c k) ks).or (n.storing testcaseId c k)

/-- The result of the case holds what was posted. -/
def Session.Stands (n : Session) (testcaseId : Uuid) (p : Post) (d : Data) : Prop :=
  ∃ e, d.store.Result n.runId testcaseId e ∧ Holds p e

/-- Each request is in a phase of the post it carries, and the cases are those of the start. -/
abbrev Session.Underway (n : Session) (start : Data) (c : Requests) : Prop :=
  Phased turn (fun d phase ↦ SameCases start d ∧ ∀ k, (phase k).post = n.carries k) SameCases
    n.Legal (fun _ _ _ ↦ True) c

/-- The phase a request starts in. -/
def Session.first (n : Session) (k : ℕ) : Phase := (n.carries k).elim .idle .posting

theorem follows_request (n : Session) (d : Data) (k : ℕ) (q : Procedure Unit)
    (hq : n.request k = some q) :
    Follows turn SameCases n.Legal (fun _ _ _ ↦ True) (n.first k) d q := by
  obtain ⟨i, hi, hq⟩ := Option.bind_eq_some_iff.mp hq
  obtain ⟨p, hp, hq⟩ := Option.bind_eq_some_iff.mp hq
  obtain rfl := Option.some.inj hq
  unfold Session.first
  rw [hi]
  exact follows_recordResult hp d

theorem underway_start (n : Session) (d : Data) : n.Underway d (n.start d) := by
  refine ⟨n.first, ⟨sameCases_refl d, fun k ↦ ?_⟩, follows_request n d⟩
  unfold Session.first
  cases n.carries k with
  | none => rfl
  | some i => rfl

theorem Session.Underway.step {n : Session} {start : Data} {c : Requests}
    (hc : n.Underway start c) (k : ℕ) : n.Underway start (step c k) := by
  apply Phased.move (P := fun _ _ ↦ True) sameCases_refl sameCases_trans
    (fun _ _ _ none ↦ none.elim) ?_ hc fun _ _ ↦ trivial
  intro d phase j w hI _ _
  have hsame := sameCases_perform w d
  refine ⟨?_, hsame⟩
  have hpost : ∀ r j', (Function.update phase j (turn (phase j) w r) j').post = n.carries j' := by
    intro r j'
    by_cases hj : j' = j
    · subst hj
      rw [Function.update_self, post_turn]
      exact hI.2 j'
    · rw [Function.update_of_ne hj]
      exact hI.2 j'
  unfold Turns Service.wp
  unfold Service.after at hsame
  rcases hdone : perform w d with ⟨_ | r, d'⟩
  · rw [hdone] at hsame
    exact ⟨sameCases_trans start d d' hI.1 hsame, hI.2⟩
  · rw [hdone] at hsame
    exact ⟨sameCases_trans start d d' hI.1 hsame, hpost r⟩

/-- The case a body names is a row of its table. -/
theorem mem_of_reportedCase {projectId : Uuid} {body : ResultBody} {s : Store} {t : Testcase}
    (h : reportedCase projectId body s = some t) : t ∈ s.testcases := by
  obtain ⟨named, -, hget⟩ := Option.bind_eq_some_iff.mp h
  have hmem := Assoc.mem_ofList (Assoc.mem_of_get hget)
  obtain ⟨t', ht', heq⟩ := List.mem_map.mp hmem
  obtain rfl := (Prod.mk.inj heq).2
  exact (Table.mem_select.mp ht').1

end Stored

/-! ## One step -/

section Step

variable [LetterCase] {n : Session} {start d : Data} {t : Testcase} {last : ℕ} {p : Post}

omit [LetterCase] in
/-- A case that joins the run has no result before, and one that holds no post after. -/
theorem stands_attach {runId projectId : Uuid} (ids : List Uuid) (s : Store) :
    (∃ e, (ids.foldl (fun s id ↦ s.attachCase runId projectId id) s).Result n.runId t.id e ∧
      Holds p e) ↔ ∃ e, s.Result n.runId t.id e ∧ Holds p e := by
  induction ids generalizing s with
  | nil => exact Iff.rfl
  | cons id ids ih =>
      rw [List.foldl_cons, ih]
      constructor
      · rintro ⟨e, hresult, hholds⟩
        rcases Store.result_attachCase.mp hresult with hold | ⟨-, -, -, rfl⟩
        · exact ⟨e, hold, hholds⟩
        · -- no report is stored as untested
          exfalso
          have hstatus : "Untested" = storedStatus p.result.status := hholds.1
          revert hstatus
          cases p.result.status <;> decide
      · rintro ⟨e, hresult, hholds⟩
        exact ⟨e, Store.result_attachCase.mpr (.inl hresult), hholds⟩

/-- A report that finds the result of the case decides what it holds. -/
theorem stands_store {q : Post} {i : ℕ} {named : String × String} {r : Report}
    (hq : n.posts[i]? = some q) (hlast : n.posts[last]? = some p)
    (hnamed : ResultBody.caseAndStatus q.body = .ok named)
    (hr : ResultBody.report q.body named.2 n.actorId = .ok r)
    (hnumbered : q.result.retry = p.result.retry → i = last) (now : Time) (s : Store)
    (hfound : ∃ e, s.Result n.runId t.id e) :
    (∃ e, (s.storeReport now n.runId t.id r).Result n.runId t.id e ∧ Holds p e) ↔ i = last := by
  have hholds := fun e ↦ (holds_apply hnamed hr now e).2
  constructor
  · rintro ⟨e, hresult, -, -, hretry⟩
    obtain ⟨e₀, -, rfl⟩ := Store.result_storeReport.mp hresult
    rw [if_pos ⟨rfl, rfl⟩, (hholds e₀).2.2] at hretry
    exact hnumbered (Int.ofNat.inj hretry)
  · rintro rfl
    obtain rfl := Option.some.inj (hlast.symm.trans hq)
    obtain ⟨e₀, h₀⟩ := hfound
    refine ⟨r.apply now e₀, Store.result_storeReport.mpr ⟨e₀, h₀, ?_⟩, hholds e₀⟩
    rw [if_pos ⟨rfl, rfl⟩]

omit [LetterCase] in
/-- A report of another case, or one that finds no result, leaves what the result of the case holds. -/
theorem stands_store_other {runId testcaseId : Uuid} {r : Report} {now : Time} {s : Store}
    (hother : ¬ (runId = n.runId ∧ testcaseId = t.id ∧
      ∃ e ∈ s.executions, s.IsResultOf runId testcaseId e)) :
    (∃ e, (s.storeReport now runId testcaseId r).Result n.runId t.id e ∧ Holds p e) ↔
      ∃ e, s.Result n.runId t.id e ∧ Holds p e := by
  have hsame : ∀ e₀, s.Result n.runId t.id e₀ → ¬ (n.runId = runId ∧ t.id = testcaseId) := by
    rintro e₀ h₀ ⟨rfl, rfl⟩
    exact hother ⟨rfl, rfl, e₀, Store.result_iff.mp h₀⟩
  constructor
  · rintro ⟨e, hresult, hholds⟩
    obtain ⟨e₀, h₀, rfl⟩ := Store.result_storeReport.mp hresult
    rw [if_neg (hsame e₀ h₀)] at hholds
    exact ⟨e₀, h₀, hholds⟩
  · rintro ⟨e, hresult, hholds⟩
    refine ⟨e, Store.result_storeReport.mpr ⟨e, hresult, ?_⟩, hholds⟩
    rw [if_neg (hsame e hresult)]

/-- What a step does to what the result of the case holds. -/
theorem stands_step {c : Requests} (hc : n.Underway start c) (hlast : n.posts[last]? = some p)
    (hcase : reportedCase n.projectId p.body start.store = some t)
    (hnumbered : ∀ i q, n.posts[i]? = some q →
      reportedCase n.projectId q.body start.store = some t → q.result.retry = p.result.retry →
        i = last) (k : ℕ) :
    n.Stands t.id p (step c k).shared ↔ match n.storing t.id c k with
      | some i => i = last
      | none => n.Stands t.id p c.shared := by
  rcases @move_cases _ _ _ _ _ perform Empty (fun none ↦ none.elim) c (.advance k) with
    ⟨hmoving, hshared⟩ | ⟨w, hmoving, hshared⟩
  · unfold Session.storing step
    rw [hmoving, hshared]
  · obtain ⟨phase, ⟨hsame, hpost⟩, hlegal⟩ := Phased.legal_advance hc (sameCases_refl _) hmoving
    unfold Session.storing step
    rw [hmoving, hshared]
    cases w with
    | attach runId projectId ids => exact stands_attach ids c.shared.store
    | store runId testcaseId r =>
        cases hk : phase k with
        | idle =>
            rw [hk] at hlegal
            exact hlegal.elim
        | stored i =>
            rw [hk] at hlegal
            exact hlegal.elim
        | posting i =>
            rw [hk] at hlegal
            have hcarries : n.carries k = some i := by
              rw [← hpost k, hk]
              rfl
            obtain ⟨q, hq, rfl, ⟨t', ht', rfl⟩, named, hnamed, hr⟩ := hlegal
            rw [reportedCase_congr hsame] at ht'
            have hfits := (holds_apply hnamed hr 0 (untested 0 0)).1
            have hafter : (Service.after (perform (.store n.runId t'.id r)) c.shared).store =
                c.shared.store.storeReport c.shared.now n.runId t'.id r := by
              show (Service.returning (fun d ↦ d.storeReport n.runId t'.id r) c.shared).2.store = _
              unfold Service.returning Data.storeReport
              rw [hfits]
              rfl
            unfold Session.Stands
            rw [hafter]
            dsimp only
            by_cases hfound : n.runId = n.runId ∧ t'.id = t.id ∧
                ∃ e ∈ c.shared.store.executions, c.shared.store.IsResultOf n.runId t'.id e
            · rw [if_pos hfound]
              obtain ⟨-, hid, e, he, hof⟩ := hfound
              -- the report is of this very case
              obtain rfl : t' = t := by
                have hmem := mem_of_reportedCase ht'
                exact Table.eq_of_key hmem (mem_of_reportedCase hcase) hid
              rw [hcarries]
              exact stands_store hq hlast hnamed hr (hnumbered i q hq ht') c.shared.now
                c.shared.store ⟨e, Store.result_iff.mpr ⟨he, hof⟩⟩
            · rw [if_neg hfound]
              exact stands_store_other hfound
    | selectKey projectId externalId => exact Iff.rfl
    | selectCases projectId caseIds => exact Iff.rfl
    | selectRun runId => exact Iff.rfl
    | touch runId => exact Iff.rfl
    | respond response => exact Iff.rfl
    | insertRun v =>
        cases hk : phase k <;> rw [hk] at hlegal
        · exact hlegal.elim
        · exact hlegal.choose_spec.2.elim
        · exact hlegal.elim
    | close runId closeStatus =>
        cases hk : phase k <;> rw [hk] at hlegal
        · exact hlegal.elim
        · exact hlegal.choose_spec.2.elim
        · exact hlegal.elim

end Step

/-! ## The latest attempt -/

/-- The result of a case holds what the attempt `last` posted exactly when the report of that attempt
is the last one stored for the case; where none has been stored, when it held that before. -/
theorem stands_iff [LetterCase] (n : Session) (d : Data) {t : Testcase} {last : ℕ} {p : Post}
    (hlast : n.posts[last]? = some p)
    (hcase : reportedCase n.projectId p.body d.store = some t)
    (hnumbered : ∀ i q, n.posts[i]? = some q →
      reportedCase n.projectId q.body d.store = some t → q.result.retry = p.result.retry →
        i = last) (ks : List ℕ) :
    n.Stands t.id p (ks.foldl step (n.start d)).shared ↔
      match n.lastStored t.id (n.start d) ks with
      | some i => i = last
      | none => n.Stands t.id p d := by
  have hrun : ∀ c, n.Underway d c → ∀ ks : List ℕ, n.Stands t.id p (ks.foldl step c).shared ↔
      match n.lastStored t.id c ks with
      | some i => i = last
      | none => n.Stands t.id p c.shared := by
    intro c hc ks
    -- from the first step on: a later report overwrites what it stores
    induction ks generalizing c with
    | nil => exact Iff.rfl
    | cons k ks ih =>
        rw [List.foldl_cons, ih (step c k) (hc.step k), Session.lastStored]
        cases n.lastStored t.id (step c k) ks with
        | some i => exact Iff.rfl
        | none => exact stands_step hc hlast hcase hnumbered k
  exact hrun (n.start d) (underway_start n d) ks

/-! ### A test that passes at the second attempt -/

section Example

instance (n : Session) (testcaseId : Uuid) (p : Post) (d : Data) :
    Decidable (n.Stands testcaseId p d) :=
  decidable_of_iff (∃ e ∈ d.store.executions,
    d.store.IsResultOf n.runId testcaseId e ∧ Holds p e) (by
      constructor
      · rintro ⟨e, he, hof, hholds⟩
        exact ⟨e, Store.result_iff.mpr ⟨he, hof⟩, hholds⟩
      · rintro ⟨e, hresult, hholds⟩
        obtain ⟨he, hof⟩ := Store.result_iff.mp hresult
        exact ⟨e, he, hof, hholds⟩)

def loginCase : Testcase where
  id := 7
  projectId := 1
  suiteId := none
  externalId := "TES-1"
  text _ := none
  steps := []
  ownerId := none
  createdBy := none
  updatedBy := none
  updatedAt := 0
  deletedAt := none
  deletedBy := none

def nightlyRun : Run where
  projectId := 1
  name := "nightly"
  description := ""
  environment := none
  buildVersion := none
  releaseName := none
  ownerId := none
  triggeredBy := none
  commitSha := none
  branchName := none
  buildUrl := none
  externalId := none
  id := 3
  status := "In Progress"
  source := "automation"
  startedAt := some 0
  endedAt := none
  closedAt := none
  closeStatus := none
  lastResultAt := none
  deletedAt := none

/-- A run without cases, in a project with one. -/
def emptyRun : Store where
  testcases := ⟨[loginCase], by decide⟩
  runs := ⟨[nightlyRun], by decide⟩
  items := .empty
  executions := .empty
  runOfItem _ h := by cases h
  itemOfResult _ h := by cases h
  oneRun := by
    intro r hr r' hr' _ _ _ _
    exact (List.mem_singleton.mp hr).trans (List.mem_singleton.mp hr').symm
  oneItem _ h := by cases h
  oneResult _ h := by cases h

def firstAttempt : Post := ⟨"TES-1", ⟨.failed, 30, 0, some ⟨some "no button", none⟩, []⟩⟩

def secondAttempt : Post := ⟨"tes-1", ⟨.passed, 20, 1, none, []⟩⟩

/-- Two attempts, a request for each. -/
def flakyTest : Session where
  actorId := 9
  projectId := 1
  runId := 3
  posts := [firstAttempt, secondAttempt]
  carries k := if k < 2 then some k else none

def before : Data := ⟨emptyRun, 100, []⟩

/-- The requests are handled one after the other. -/
def handled (order : List ℕ) : List ℕ := order.flatMap fun k ↦ List.replicate 8 k

theorem stands_inOrder : letI := asciiLetters
    flakyTest.Stands 7 secondAttempt
      ((handled [0, 1]).foldl step (flakyTest.start before)).shared := by
  let _ := asciiLetters
  have hstored : flakyTest.lastStored loginCase.id (flakyTest.start before) (handled [0, 1]) =
      some 1 := by decide +kernel
  apply (@stands_iff asciiLetters flakyTest before loginCase 1 secondAttempt rfl rfl ?_
    (handled [0, 1])).mpr
  · rw [hstored]
  · intro i q hq _ hretry
    match i with
    | 0 =>
        obtain rfl := Option.some.inj hq
        cases hretry
    | 1 => rfl
    | i + 2 => cases hq

/-- The request of the first attempt is overtaken: both are answered, and the test is left failed. -/
theorem not_stands_overtaken : letI := asciiLetters
    let c := (handled [1, 0]).foldl step (flakyTest.start before)
    c.pc 0 = none ∧ c.pc 1 = none ∧ c.shared.responses.length = 2 ∧
      flakyTest.Stands 7 firstAttempt c.shared ∧ ¬ flakyTest.Stands 7 secondAttempt c.shared := by
  refine ⟨?_, ?_, ?_⟩
  · rfl
  · rfl
  · decide +kernel

end Example

end Tesbo.Automation
