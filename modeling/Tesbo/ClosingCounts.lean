import Tesbo.LatestAttempt
import Mathlib.Data.List.ReduceOption

/-!
# The counts a run is closed with

The reporter counts the attempts it has posted, the service the results the run has.  They are to
differ where a result has been lost.
-/

namespace Tesbo.Automation

open Reasoning Proc

/-! ## What the reporter counts -/

def isFailed (status : TestStatus) : Bool := status ≠ .passed ∧ status ≠ .skipped

theorem report_counts (tests : List TestEnd) :
    (report tests).counters.passed =
        (report tests).posts.countP (fun p ↦ p.result.status = .passed) ∧
      (report tests).counters.skipped =
        (report tests).posts.countP (fun p ↦ p.result.status = .skipped) ∧
      (report tests).counters.failed =
        (report tests).posts.countP (fun p ↦ isFailed p.result.status) := by
  unfold report
  induction tests using List.reverseRecOn with
  | nil => exact ⟨rfl, rfl, rfl⟩
  | append_singleton tests test ih =>
      obtain ⟨hpassed, hskipped, hfailed⟩ := ih
      rw [List.foldl_append]
      simp only [List.foldl_cons, List.foldl_nil]
      generalize tests.foldl Reporter.onTestEnd ⟨⟨0, 0, 0, 0, 0⟩, []⟩ = r at *
      unfold Reporter.onTestEnd
      cases test.caseId with
      | none =>
          dsimp only
          split
          · exact ⟨hpassed, hskipped, hfailed⟩
          · exact ⟨hpassed, hskipped, hfailed⟩
      | some caseId =>
          simp only [List.countP_append, List.countP_singleton, ← hpassed, ← hskipped, ← hfailed]
          cases test.result.status <;> simp [Counters.count, isFailed]

/-- Each posted attempt is in one of the three counts. -/
theorem total_posts (posts : List Post) :
    posts.countP (fun p ↦ p.result.status = .passed) +
      posts.countP (fun p ↦ isFailed p.result.status) +
        posts.countP (fun p ↦ p.result.status = .skipped) = posts.length := by
  induction posts with
  | nil => rfl
  | cons p posts ih =>
      have hone : ∀ status : TestStatus, (if status = .passed then 1 else 0) +
          (if isFailed status = true then 1 else 0) + (if status = .skipped then 1 else 0) = 1 := by
        intro status
        cases status <;> rfl
      have hp := hone p.result.status
      simp only [List.countP_cons, List.length_cons, decide_eq_true_eq]
      omega

/-! ## What the service compares -/

theorem difference_eq_none {key : String} {n : ℤ} {stored : ℕ} :
    difference key (.value n) stored = none ↔ n = stored := by
  unfold difference Arg.nullish
  dsimp only
  split
  · rename_i h
    simp [h]
  · rename_i h
    simpa using h

theorem reduceOption_isEmpty {α : Type} {os : List (Option α)} :
    os.reduceOption.isEmpty = true ↔ ∀ o ∈ os, o = none := by
  induction os with
  | nil => simp [List.reduceOption]
  | cons o os ih =>
      cases o with
      | none =>
          rw [List.reduceOption_cons_of_none, ih]
          simp
      | some a => simp [List.reduceOption_cons_of_some]

theorem summaryMismatch_eq_none {counters : Counters} {counts : Counts} :
    summaryMismatch (some counters.summary) counts = none ↔
      counters.passed + counters.failed + counters.skipped = counts.total ∧
        counters.passed = counts.passed ∧ counters.failed = counts.failed ∧
          counters.skipped = counts.skipped := by
  unfold summaryMismatch Counters.summary
  dsimp only
  rw [ite_eq_left_iff]
  simp only [reduceCtorEq, imp_false, not_not, reduceOption_isEmpty, List.forall_mem_cons,
    difference_eq_none, List.not_mem_nil, Nat.cast_inj, false_imp_iff, forall_const, and_true]

/-! ## Posts and results, one to one -/

/-- Where as many rows as there are numbers below `m` each have a number of their own, every number
is one of a row. -/
theorem exists_row_of_index {α : Type} {rows : List α} (hnodup : rows.Nodup) {m : ℕ}
    (hlength : rows.length = m) (rel : α → Fin m → Prop) (hrow : ∀ r ∈ rows, ∃ i, rel r i)
    (hown : ∀ r ∈ rows, ∀ r' ∈ rows, ∀ i, rel r i → rel r' i → r = r') (i : Fin m) :
    ∃ r ∈ rows, rel r i := by
  classical
  have : Nonempty (Fin m) := ⟨i⟩
  choose! index hindex using hrow
  have hinj : Set.InjOn index (rows.toFinset : Set α) := by
    intro r hr r' hr' hsame
    have hr := List.mem_toFinset.mp hr
    have hr' := List.mem_toFinset.mp hr'
    exact hown r hr r' hr' (index r) (hindex r hr) (hsame ▸ hindex r' hr')
  have hcard : (rows.toFinset.image index).card = Fintype.card (Fin m) := by
    rw [Finset.card_image_of_injOn hinj, List.toFinset_card_of_nodup hnodup, hlength,
      Fintype.card_fin]
  have hmem : i ∈ rows.toFinset.image index := by
    rw [Finset.eq_univ_of_card _ hcard]
    exact Finset.mem_univ i
  obtain ⟨r, hr, rfl⟩ := Finset.mem_image.mp hmem
  have hr := List.mem_toFinset.mp hr
  exact ⟨r, hr, hindex r hr⟩

/-- Two lists whose members correspond one to one have the same values, up to their order. -/
theorem map_perm_of_index {α β γ : Type} {rows : List α} {posts : List β} {f : α → γ} {g : β → γ}
    (hnodup : rows.Nodup) (row : Fin posts.length → α) (hinj : Function.Injective row)
    (hrows : ∀ r, r ∈ rows ↔ ∃ i, row i = r) (hvalue : ∀ i, f (row i) = g (posts.get i)) :
    (rows.map f).Perm (posts.map g) := by
  have hperm : rows.Perm (List.ofFn row) := by
    rw [List.perm_ext_iff_of_nodup hnodup (List.nodup_ofFn.mpr hinj)]
    intro r
    rw [hrows, List.mem_ofFn]
  have hposts : (List.ofFn row).map f = posts.map g := by
    rw [List.map_ofFn]
    conv_rhs => rw [← List.ofFn_get posts, List.map_ofFn]
    exact congrArg List.ofFn (funext hvalue)
  rw [← hposts]
  exact hperm.map f

/-! ## What the requests keep -/

section Kept

variable [LetterCase]

/-- The post is of the case. -/
def Session.CaseOf (n : Session) (s : Store) (i : ℕ) (testcaseId : Uuid) : Prop :=
  ∃ p t, n.posts[i]? = some p ∧ reportedCase n.projectId p.body s = some t ∧ t.id = testcaseId

/-- The case of the post has a result that somebody has recorded. -/
def Session.Done (n : Session) (s : Store) (d : Data) (i : ℕ) : Prop :=
  ∃ testcaseId e, n.CaseOf s i testcaseId ∧ d.store.Result n.runId testcaseId e ∧
    e.status ≠ "Untested"

/-- A run that can be reported to and closed. -/
def OpenRun (projectId runId : Uuid) (s : Store) : Prop :=
  ∃ run, s.liveRun runId = some run ∧ run.projectId = projectId ∧ run.closedAt = none

/-- The post whose result has been answered as recorded. -/
def Response.post : Response → Option ℕ
  | .recorded post _ _ _ _ => some post
  | _ => none

/-- The run is open, a result of it nobody has recorded is untested, any other holds the status of a
post of its case; what is answered has been recorded. -/
structure Session.Sound (n : Session) (start d : Data) : Prop where
  same : SameCases start d
  isOpen : OpenRun n.projectId n.runId d.store
  status : ∀ testcaseId e, d.store.Result n.runId testcaseId e → e.status = "Untested" ∨
    ∃ i p, n.posts[i]? = some p ∧ n.CaseOf start.store i testcaseId ∧
      e.status = storedStatus p.result.status
  answered : ∀ r ∈ d.responses, ∀ i ∈ r.post, n.Done start.store d i

variable {n : Session} {start d d' : Data}

omit [LetterCase] in
theorem openRun_touchRun {projectId runId runId' : Uuid} {now : Time} {s : Store}
    (h : OpenRun projectId runId s) : OpenRun projectId runId (s.touchRun now runId') := by
  obtain ⟨run, hrun, hproject, hopen⟩ := h
  obtain ⟨hfind, hlive⟩ := Option.filter_eq_some_iff.mp hrun
  have hrows : Table.UpdatedRows s.runs (s.touchRun now runId').runs (fun r ↦ r.id = runId')
      (fun r ↦ { r with lastResultAt := some now }) := rfl
  have hfind' := hrows.find (fun _ ↦ rfl) runId
  rw [hfind] at hfind'
  refine ⟨if run.id = runId' then { run with lastResultAt := some now } else run, ?_, ?_, ?_⟩
  · unfold Store.liveRun
    rw [hfind', Option.filter_eq_some_iff]
    refine ⟨by simp only [Option.map_some, decide_eq_true_eq], ?_⟩
    split
    · exact hlive
    · exact hlive
  · split
    · exact hproject
    · exact hproject
  · split
    · exact hopen
    · exact hopen

/-- The results that have been recorded are kept so. -/
theorem Session.Done.mono {s : Store} {i : ℕ} (h : n.Done s d i)
    (hkept : ∀ testcaseId e, d.store.Result n.runId testcaseId e → e.status ≠ "Untested" →
      ∃ e', d'.store.Result n.runId testcaseId e' ∧ e'.status ≠ "Untested") : n.Done s d' i := by
  obtain ⟨testcaseId, e, hcase, hresult, hstatus⟩ := h
  obtain ⟨e', hresult', hstatus'⟩ := hkept testcaseId e hresult hstatus
  exact ⟨testcaseId, e', hcase, hresult', hstatus'⟩

omit [LetterCase] in
theorem storedStatus_ne_untested (status : TestStatus) : storedStatus status ≠ "Untested" := by
  cases status <;> decide

/-- The phases of requests that have been recorded. -/
def Session.AllDone (n : Session) (start d : Data) (phase : ℕ → Phase) : Prop :=
  n.Sound start d ∧ ∀ k i, phase k = .stored i → n.Done start.store d i

theorem Session.AllDone.update {phase : ℕ → Phase} (h : n.AllDone start d phase) {k : ℕ} {t : Phase}
    (ht : ∀ i, t = .stored i → n.Done start.store d i) :
    n.AllDone start d (Function.update phase k t) := by
  refine ⟨h.1, fun j i hj ↦ ?_⟩
  by_cases hjk : j = k
  · subst hjk
    rw [Function.update_self] at hj
    exact ht i hj
  · rw [Function.update_of_ne hjk] at hj
    exact h.2 j i hj

/-- A change of the results that keeps the recorded ones. -/
theorem Session.AllDone.kept {phase : ℕ → Phase} (h : n.AllDone start d phase)
    (hsame : SameCases d d') (hopen : OpenRun n.projectId n.runId d'.store)
    (hresponses : d'.responses = d.responses)
    (hstatus : ∀ testcaseId e, d'.store.Result n.runId testcaseId e → e.status = "Untested" ∨
      ∃ i p, n.posts[i]? = some p ∧ n.CaseOf start.store i testcaseId ∧
        e.status = storedStatus p.result.status)
    (hkept : ∀ testcaseId e, d.store.Result n.runId testcaseId e → e.status ≠ "Untested" →
      ∃ e', d'.store.Result n.runId testcaseId e' ∧ e'.status ≠ "Untested") :
    n.AllDone start d' phase := by
  refine ⟨⟨sameCases_trans start d d' h.1.same hsame, hopen, hstatus, ?_⟩, ?_⟩
  · rw [hresponses]
    exact fun r hr i hi ↦ (h.1.answered r hr i hi).mono hkept
  · exact fun k i hk ↦ (h.2 k i hk).mono hkept

/-- Each write of a request keeps the invariant. -/
theorem Session.AllDone.turns {phase : ℕ → Phase} (h : n.AllDone start d phase) {k : ℕ} {w : Write}
    (hlegal : n.Legal (phase k) d w) :
    Turns perform turn (n.AllDone start) phase k w d := by
  cases hk : phase k with
  | idle =>
      rw [hk] at hlegal
      exact hlegal.elim
  | posting i =>
      rw [hk] at hlegal
      obtain ⟨p, hp, hlegal⟩ := hlegal
      unfold Turns
      rw [hk]
      cases w with
      | selectCases projectId caseIds =>
          unfold Service.wp
          exact Session.AllDone.update h fun i' hi' ↦ by cases hi'
      | attach runId projectId ids =>
          obtain ⟨rfl, rfl⟩ := hlegal
          unfold Service.wp
          refine Session.AllDone.update ?_ fun i hi ↦ ?_
          · apply h.kept (sameCases_perform (.attach n.runId n.projectId ids) d) ?_ rfl
            · intro testcaseId e hresult
              rcases Store.result_foldl_attachCase ids hresult with hold | huntested
              · exact h.1.status testcaseId e hold
              · exact .inl huntested
            · intro testcaseId e hresult hstatus
              exact ⟨e, Store.result_foldl_kept ids hresult, hstatus⟩
            · show OpenRun _ _ (ids.foldl _ d.store)
              unfold OpenRun Store.liveRun
              rw [Store.runs_foldl_attachCase]
              exact h.1.isOpen
          · cases hi
      | store runId testcaseId r =>
          obtain ⟨rfl, ⟨t, ht, rfl⟩, named, hnamed, hr⟩ := hlegal
          rw [reportedCase_congr h.1.same] at ht
          have hcase : n.CaseOf start.store i t.id := ⟨p, t, hp, ht, rfl⟩
          obtain ⟨hfits, -⟩ := holds_apply hnamed hr d.now (untested 0 0)
          have hholds := fun e ↦ (holds_apply hnamed hr d.now e).2
          have hsame := sameCases_perform (.store n.runId t.id r) d
          have hdone : perform (.store n.runId t.id r) d =
              (.ok ((d.store.executions.select fun e ↦ d.store.IsResultOf n.runId t.id e).map
                  (r.apply d.now)).head?,
                { d with store := d.store.storeReport d.now n.runId t.id r }) := by
            show Service.returning (fun d ↦ d.storeReport n.runId t.id r) d = _
            unfold Service.returning Data.storeReport
            rw [hfits]
            rfl
          unfold Service.after at hsame
          unfold Service.wp
          rw [hdone] at hsame ⊢
          refine Session.AllDone.update ?_ fun i' hi' ↦ ?_
          · apply h.kept hsame h.1.isOpen rfl
            · intro testcaseId e hresult
              obtain ⟨e₀, h₀, rfl⟩ := Store.result_storeReport.mp hresult
              split
              · rename_i hof
                obtain ⟨-, rfl⟩ := hof
                exact .inr ⟨i, p, hp, hcase, (hholds e₀).1⟩
              · exact h.1.status testcaseId e₀ h₀
            · intro testcaseId e hresult hstatus
              refine ⟨_, Store.result_storeReport.mpr ⟨e, hresult, rfl⟩, ?_⟩
              split
              · rw [(hholds e).1]
                exact storedStatus_ne_untested _
              · exact hstatus
          · -- the request goes on only with a row that has been found
            cases hfound : d.store.executions.select fun e ↦ d.store.IsResultOf n.runId t.id e with
            | nil =>
                simp only [hfound, List.map_nil, List.head?_nil, turn] at hi'
                cases hi'
            | cons e₀ rest =>
                simp only [hfound, List.map_cons, List.head?_cons, turn] at hi'
                cases hi'
                have hmem : e₀ ∈ d.store.executions.select fun e ↦
                    d.store.IsResultOf n.runId t.id e := by
                  rw [hfound]
                  exact List.mem_cons_self
                obtain ⟨he₀, hof⟩ := Table.mem_select.mp hmem
                have h₀ := Store.result_iff.mpr ⟨he₀, of_decide_eq_true hof⟩
                refine ⟨t.id, r.apply d.now e₀, hcase, ?_, ?_⟩
                · apply Store.result_storeReport.mpr
                  exact ⟨e₀, h₀, by rw [if_pos ⟨rfl, rfl⟩]⟩
                · rw [(hholds e₀).1]
                  exact storedStatus_ne_untested _
      | selectKey projectId externalId => exact hlegal.elim
      | selectRun runId => exact hlegal.elim
      | insertRun v => exact hlegal.elim
      | touch runId => exact hlegal.elim
      | close runId closeStatus => exact hlegal.elim
      | respond response => exact hlegal.elim
  | stored i =>
      rw [hk] at hlegal
      unfold Turns
      rw [hk]
      cases w with
      | touch runId =>
          refine (Service.wp_write _).mpr ?_
          have hkept : n.AllDone start { d with store := d.store.touchRun d.now runId } phase := by
            apply h.kept
            · rfl
            · exact openRun_touchRun h.1.isOpen
            · rfl
            · exact h.1.status
            · exact fun _ e hresult hstatus ↦ ⟨e, hresult, hstatus⟩
          apply hkept.update
          intro i' hi'
          cases hi'
          exact hkept.2 k i hk
      | respond response =>
          refine (Service.wp_write _).mpr ?_
          have hdone := h.2 k i hk
          have hkept : n.AllDone start { d with responses := d.responses ++ [response] } phase := by
            refine ⟨⟨h.1.same, h.1.isOpen, h.1.status, ?_⟩, h.2⟩
            intro r hr i' hi'
            rcases List.mem_append.mp hr with hr | hr
            · exact h.1.answered r hr i' hi'
            · obtain rfl := List.mem_singleton.mp hr
              cases r with
              | recorded post runId caseId e runClosed =>
                  obtain rfl : post = i := hlegal
                  cases hi'
                  exact hdone
              | created caller summary reused casesAttached unknown => exact hlegal.elim
              | closed summary alreadyClosed mismatch => exact hlegal.elim
          apply hkept.update
          intro i' hi'
          cases hi'
          exact hdone
      | selectKey projectId externalId => exact hlegal.elim
      | selectCases projectId caseIds => exact hlegal.elim
      | selectRun runId => exact hlegal.elim
      | insertRun v => exact hlegal.elim
      | attach runId projectId ids => exact hlegal.elim
      | store runId testcaseId r => exact hlegal.elim
      | close runId closeStatus => exact hlegal.elim

/-- What a run nobody has reported to becomes. -/
theorem sound_steps {store : Store} {now : Time} (hopen : OpenRun n.projectId n.runId store)
    (hnew : ∀ testcaseId e, store.Result n.runId testcaseId e → e.status = "Untested")
    (ks : List ℕ) :
    n.Sound ⟨store, now, []⟩ (ks.foldl step (n.start ⟨store, now, []⟩)).shared := by
  have hrun : ∀ (c : Requests), Phased turn (n.AllDone ⟨store, now, []⟩) SameCases n.Legal
      (fun _ _ _ ↦ True) c → ∀ ks : List ℕ, n.Sound ⟨store, now, []⟩ (ks.foldl step c).shared := by
    intro c hc ks
    induction ks generalizing c with
    | nil =>
        obtain ⟨phase, hall, -⟩ := hc
        exact hall.1
    | cons k ks ih =>
        apply ih
        apply Phased.move (P := fun _ _ ↦ True) sameCases_refl sameCases_trans
          (fun _ _ _ none ↦ none.elim) ?_ hc fun _ _ ↦ trivial
        exact fun d phase j w hI hlegal _ ↦ ⟨hI.turns hlegal, sameCases_perform w d⟩
  apply hrun
  refine ⟨n.first, ⟨⟨rfl, hopen, ?_, ?_⟩, ?_⟩, follows_request n _⟩
  · exact fun testcaseId e h ↦ .inl (hnew testcaseId e h)
  · exact fun r hr ↦ by cases hr
  · intro k i hk
    unfold Session.first at hk
    cases hcarries : n.carries k with
    | none => rw [hcarries] at hk; cases hk
    | some j => rw [hcarries] at hk; cases hk

end Kept

/-! ## Closing -/

section Closing

variable [LetterCase]

/-- The request with which the reporter closes the run. -/
def Session.closing (n : Session) (interrupted : Bool) (counters : Counters) :
    Service Failure Data Unit :=
  (closeRun n.projectId n.runId
    ⟨.value (if interrupted then "incomplete" else "completed"), some counters.summary⟩).run perform

/-- Every post has been answered as recorded. -/
def Session.Accepted (n : Session) (d : Data) : Prop :=
  ∀ i < n.posts.length, ∃ r ∈ d.responses, r.post = some i

/-- Each post is of a case of its own, none was interrupted, and the run has no results but those of
these cases. -/
structure Session.OneEach (n : Session) (start s : Store) : Prop where
  own : ∀ i j testcaseId, n.CaseOf start i testcaseId → n.CaseOf start j testcaseId → i = j
  finished : ∀ p ∈ n.posts, p.result.status ≠ .interrupted
  reported : ∀ testcaseId e, s.Result n.runId testcaseId e → ∃ i, n.CaseOf start i testcaseId

theorem toLowerCase_close (interrupted : Bool) :
    Unicode.toLowerCase (jsTrim (if interrupted then "incomplete" else "completed")) =
      if interrupted then "incomplete" else "completed" := by
  have htrim : jsTrim (if interrupted then "incomplete" else "completed") =
      if interrupted then "incomplete" else "completed" := by
    cases interrupted <;> decide
  rw [htrim, LetterCase.toLowerCase_ascii _ (by cases interrupted <;> decide)]
  cases interrupted <;> decide

/-- An open run is closed, and the counts sent are compared with those of its results. -/
theorem closing_answer {n : Session} {d : Data} (hopen : OpenRun n.projectId n.runId d.store)
    (interrupted : Bool) (counters : Counters) :
    ∃ summary d', n.closing interrupted counters d = (.ok (), d') ∧
      d'.responses = d.responses ++
        [.closed summary false (summaryMismatch (some counters.summary)
          (resultCounts n.runId d.store))] := by
  obtain ⟨run, hrun, hproject, hclosed⟩ := hopen
  have hfound : ((d.store.liveRun n.runId).filter fun r ↦ r.projectId = n.projectId).elim
      (.error (.notFound "Run not found")) Except.ok = (.ok run : Except Failure Run) := by
    rw [hrun, Option.filter_some, if_pos (decide_eq_true hproject)]
    rfl
  unfold Session.closing closeRun requireRun
  rw [run_bind, Service.bind_apply, run_check, hfound]
  simp only [Arg.nullish, Option.elim_some, toLowerCase_close]
  rw [run_bind, Service.bind_apply]
  unfold require
  rw [if_pos (by cases interrupted <;> decide), hclosed]
  exact ⟨_, _, rfl, rfl⟩

section Exact

omit [LetterCase]

theorem mem_resultsIn {s : Store} {runId : Uuid} {e : Execution} :
    e ∈ s.resultsIn runId ↔ ∃ testcaseId, s.Result runId testcaseId e := by
  unfold Store.resultsIn
  rw [Table.mem_select, decide_eq_true_eq]
  constructor
  · rintro ⟨he, hlive, item, hitem, hrun⟩
    obtain ⟨hmem, hid⟩ := Table.find_eq_some.mp hitem
    exact ⟨item.testcaseId, he, hlive, item, hmem, hid, hrun, rfl⟩
  · rintro ⟨testcaseId, he, hlive, item, hmem, hid, hrun, -⟩
    exact ⟨he, hlive, item, Table.find_eq_some.mpr ⟨hmem, hid⟩, hrun⟩

theorem nodup_resultsIn (s : Store) (runId : Uuid) : (s.resultsIn runId).Nodup :=
  (List.Nodup.of_map _ s.executions.nodup).filter _

/-- The statuses of attempts that reach a verdict of their own. -/
def verdicts : List String := ["Passed", "Failed", "Skipped"]

theorem countP_verdicts (rows : List Execution) :
    rows.countP (fun e ↦ e.status = "Passed") + rows.countP (fun e ↦ e.status = "Failed") +
      rows.countP (fun e ↦ e.status = "Skipped") = rows.countP fun e ↦ e.status ∈ verdicts := by
  induction rows with
  | nil => rfl
  | cons e rows ih =>
      have hone : (if e.status = "Passed" then 1 else 0) + (if e.status = "Failed" then 1 else 0) +
          (if e.status = "Skipped" then 1 else 0) = if e.status ∈ verdicts then 1 else 0 := by
        by_cases hpassed : e.status = "Passed"
        · simp [hpassed, verdicts]
        · by_cases hfailed : e.status = "Failed"
          · simp [hfailed, verdicts]
          · simp [hpassed, hfailed, verdicts]
      simp only [List.countP_cons, decide_eq_true_eq]
      omega

/-- A count of results, in the order of the posts they are of. -/
theorem countP_eq_of_perm {rows : List Execution} {posts : List Post}
    (hperm : (rows.map Execution.status).Perm (posts.map fun p ↦ storedStatus p.result.status))
    (status : String) {q : Post → Bool}
    (hq : ∀ p ∈ posts, q p = true ↔ storedStatus p.result.status = status) :
    rows.countP (fun e ↦ e.status = status) = posts.countP q := by
  have hrows : rows.countP (fun e ↦ e.status = status) =
      (rows.map Execution.status).countP (· = status) := by
    rw [List.countP_map]
    rfl
  rw [hrows, hperm.countP_eq, List.countP_map]
  apply List.countP_congr
  intro p hp
  rw [Function.comp_apply, decide_eq_true_eq]
  exact (hq p hp).symm

end Exact

variable {n : Session} {start d : Data}

/-- The cases of one number are one case. -/
theorem Session.CaseOf.unique {s : Store} {i : ℕ} {testcaseId testcaseId' : Uuid}
    (h : n.CaseOf s i testcaseId) (h' : n.CaseOf s i testcaseId') : testcaseId = testcaseId' := by
  obtain ⟨p, t, hp, ht, rfl⟩ := h
  obtain ⟨p', t', hp', ht', rfl⟩ := h'
  obtain rfl := Option.some.inj (hp.symm.trans hp')
  rw [Option.some.inj (ht.symm.trans ht')]

/-- Where the counts agree, each result is of one post and each post of one result. -/
theorem oneEach_of_counts (hsound : n.Sound start d)
    (hlength : (d.store.resultsIn n.runId).length = n.posts.length)
    (hverdicts : ∀ e ∈ d.store.resultsIn n.runId, e.status ∈ verdicts) :
    n.OneEach start.store d.store := by
  have hindex : ∀ e ∈ d.store.resultsIn n.runId, ∃ i p testcaseId, n.posts[i]? = some p ∧
      d.store.Result n.runId testcaseId e ∧ n.CaseOf start.store i testcaseId ∧
        e.status = storedStatus p.result.status := by
    intro e he
    obtain ⟨testcaseId, hresult⟩ := mem_resultsIn.mp he
    rcases hsound.status testcaseId e hresult with huntested | ⟨i, p, hp, hcase, hstatus⟩
    · have hverdict := hverdicts e he
      rw [huntested] at hverdict
      exact absurd hverdict (by decide)
    · exact ⟨i, p, testcaseId, hp, hresult, hcase, hstatus⟩
  choose! index post testcaseId hpost hresult hcase hstatus using hindex
  -- as many posts as results: every post is that of a result
  have hall : ∀ i < n.posts.length, ∃ e ∈ d.store.resultsIn n.runId, index e = i := by
    intro i hi
    apply exists_row_of_index (nodup_resultsIn d.store n.runId) hlength
      (fun e i ↦ index e = i) _ _ ⟨i, hi⟩
    · intro e he
      have hlt := (List.getElem?_eq_some_iff.mp (hpost e he)).1
      exact ⟨⟨index e, hlt⟩, rfl⟩
    · intro e he e' he' j hj hj'
      have hsame := (hcase e he).unique (hj.trans hj'.symm ▸ hcase e' he')
      exact (hresult e he).unique (hsame ▸ hresult e' he')
  have hof : ∀ i t, n.CaseOf start.store i t → ∃ e ∈ d.store.resultsIn n.runId, index e = i ∧
      d.store.Result n.runId t e := by
    intro i t h
    obtain ⟨p, t', hp, -⟩ := id h
    obtain ⟨e, he, rfl⟩ := hall i (List.getElem?_eq_some_iff.mp hp).1
    exact ⟨e, he, rfl, h.unique (hcase e he) ▸ hresult e he⟩
  constructor
  · intro i j t hi hj
    obtain ⟨e, he, rfl, hresult⟩ := hof i t hi
    obtain ⟨e', he', rfl, hresult'⟩ := hof j t hj
    rw [hresult.unique hresult']
  · intro p hp hinterrupted
    obtain ⟨i, hi, rfl⟩ := List.getElem_of_mem hp
    obtain ⟨e, he, rfl⟩ := hall i hi
    have hsome := List.getElem?_eq_getElem hi
    have hstored := hstatus e he
    rw [Option.some.inj ((hpost e he).symm.trans hsome), hinterrupted] at hstored
    have hverdict := hverdicts e he
    rw [hstored] at hverdict
    exact absurd hverdict (by decide)
  · intro t e h
    have he := mem_resultsIn.mpr ⟨t, h⟩
    have hsame := ((hresult e he).same h).2
    exact ⟨index e, hsame ▸ hcase e he⟩

/-- Where each post is of a case of its own, the results hold what was posted. -/
theorem statuses_of_oneEach (hsound : n.Sound start d) (haccepted : n.Accepted d)
    (h : n.OneEach start.store d.store) :
    ((d.store.resultsIn n.runId).map Execution.status).Perm
      (n.posts.map fun p ↦ storedStatus p.result.status) := by
  have hrow : ∀ i : Fin n.posts.length, ∃ e testcaseId, n.CaseOf start.store i testcaseId ∧
      d.store.Result n.runId testcaseId e ∧
        e.status = storedStatus (n.posts.get i).result.status := by
    intro i
    obtain ⟨r, hr, hpost⟩ := haccepted i i.isLt
    obtain ⟨t, e, hcase, hresult, hrecorded⟩ := hsound.answered r hr i hpost
    refine ⟨e, t, hcase, hresult, ?_⟩
    rcases hsound.status t e hresult with huntested | ⟨j, p, hp, hcase', hstatus⟩
    · exact absurd huntested hrecorded
    · obtain rfl := h.own j i t hcase' hcase
      obtain ⟨hlt, rfl⟩ := List.getElem?_eq_some_iff.mp hp
      exact hstatus
  choose row testcaseId hcase hresult hstatus using hrow
  apply map_perm_of_index (nodup_resultsIn d.store n.runId) row
  · intro i j hij
    have hsame := ((hresult i).same (hij ▸ hresult j)).2
    exact Fin.ext (h.own i j (testcaseId i) (hcase i) (hsame ▸ hcase j))
  · intro e
    rw [mem_resultsIn]
    constructor
    · rintro ⟨t, he⟩
      obtain ⟨i, hi⟩ := h.reported t e he
      obtain ⟨p, -, hp, -⟩ := id hi
      have hlt := (List.getElem?_eq_some_iff.mp hp).1
      refine ⟨⟨i, hlt⟩, ?_⟩
      have hsame := (hcase ⟨i, hlt⟩).unique hi
      exact (hresult ⟨i, hlt⟩).unique (hsame ▸ he)
    · rintro ⟨i, rfl⟩
      exact ⟨testcaseId i, hresult i⟩
  · exact hstatus

/-- The counts agree exactly when posts and results are one to one. -/
theorem counts_agree_iff {tests : List TestEnd} (hposts : n.posts = (report tests).posts)
    (hsound : n.Sound start d) (haccepted : n.Accepted d) :
    summaryMismatch (some (report tests).counters.summary) (resultCounts n.runId d.store) = none ↔
      n.OneEach start.store d.store := by
  obtain ⟨hpassed, hskipped, hfailed⟩ := report_counts tests
  have htotal := total_posts (report tests).posts
  rw [summaryMismatch_eq_none]
  unfold resultCounts countResults
  dsimp only
  rw [hpassed, hskipped, hfailed, ← hposts]
  rw [← hposts] at htotal
  constructor
  · rintro ⟨hlength, hpassed', hfailed', hskipped'⟩
    have hverdicts := countP_verdicts (d.store.resultsIn n.runId)
    have hall : (d.store.resultsIn n.runId).countP (fun e ↦ e.status ∈ verdicts) =
        (d.store.resultsIn n.runId).length := by omega
    apply oneEach_of_counts hsound
    · omega
    · intro e he
      exact of_decide_eq_true (List.countP_eq_length.mp hall e he)
  · intro h
    have hperm := statuses_of_oneEach hsound haccepted h
    have hlength := hperm.length_eq
    rw [List.length_map, List.length_map] at hlength
    refine ⟨by omega, ?_, ?_, ?_⟩
    · apply (countP_eq_of_perm hperm "Passed" _).symm
      intro p _
      cases p.result.status <;> decide
    · apply (countP_eq_of_perm hperm "Failed" _).symm
      intro p hp
      have hfinished := h.finished p hp
      revert hfinished
      cases p.result.status <;> decide
    · apply (countP_eq_of_perm hperm "Skipped" _).symm
      intro p _
      cases p.result.status <;> decide

/-- A new run, reported to and closed: where every post has been accepted, no difference is answered
exactly when each post is of a case of its own, none was interrupted, and no other case is in the
run. -/
theorem mismatch_iff (n : Session) (tests : List TestEnd) (hposts : n.posts = (report tests).posts)
    {store : Store} (now : Time) (hopen : OpenRun n.projectId n.runId store)
    (hnew : ∀ testcaseId e, store.Result n.runId testcaseId e → e.status = "Untested")
    (ks : List ℕ) (haccepted : n.Accepted (ks.foldl step (n.start ⟨store, now, []⟩)).shared)
    (interrupted : Bool) :
    ∃ summary mismatch d', n.closing interrupted (report tests).counters
        (ks.foldl step (n.start ⟨store, now, []⟩)).shared = (.ok (), d') ∧
      d'.responses = (ks.foldl step (n.start ⟨store, now, []⟩)).shared.responses ++
        [.closed summary false mismatch] ∧
      (mismatch = none ↔
        n.OneEach store (ks.foldl step (n.start ⟨store, now, []⟩)).shared.store) := by
  have hsound := @sound_steps _ n store now hopen hnew ks
  obtain ⟨summary, d', hrun, hresponses⟩ :=
    closing_answer hsound.isOpen interrupted (report tests).counters
  exact ⟨summary, _, d', hrun, hresponses, counts_agree_iff hposts hsound haccepted⟩

end Closing

/-! ### A retried test, and one that ran once -/

section Example

/-- The outcome of closing a run after a request for each post, in order. -/
def closedWith (tests : List TestEnd) : List Response :=
  letI := asciiLetters
  let n : Session :=
    ⟨9, 1, 3, (report tests).posts, fun k ↦ if k < (report tests).posts.length then some k else none⟩
  (n.closing false (report tests).counters ((handled (List.range n.posts.length)).foldl step
    (n.start ⟨emptyRun, 100, []⟩)).shared).2.responses

def mismatches (responses : List Response) : List (Option (List Difference)) :=
  responses.filterMap fun
    | .closed _ _ mismatch => some mismatch
    | _ => none

def ranOnce : List TestEnd := [⟨some "TES-1", false, secondAttempt.result⟩]

def ranTwice : List TestEnd := [⟨some "TES-1", false, firstAttempt.result⟩,
  ⟨some "TES-1", false, secondAttempt.result⟩]

/-- Both attempts are recorded, and the counts differ. -/
theorem mismatch_ranTwice : (closedWith ranTwice).length = 3 ∧ mismatches (closedWith ranTwice) =
    [some [⟨"total", 2, 1⟩, ⟨"failed", 1, 0⟩]] := by
  decide +kernel

def onceSession : Session :=
  ⟨9, 1, 3, (report ranOnce).posts, fun k ↦ if k = 0 then some 0 else none⟩

instance (n : Session) (d : Data) : Decidable (n.Accepted d) :=
  inferInstanceAs (Decidable (∀ i < n.posts.length, ∃ r ∈ d.responses, r.post = some i))

theorem mismatch_ranOnce : letI := asciiLetters
    ∃ summary mismatch d', onceSession.closing false (report ranOnce).counters
        ((handled [0]).foldl step (onceSession.start ⟨emptyRun, 100, []⟩)).shared = (.ok (), d') ∧
      d'.responses = ((handled [0]).foldl step
        (onceSession.start ⟨emptyRun, 100, []⟩)).shared.responses ++
          [.closed summary false mismatch] ∧
      (mismatch = none ↔ onceSession.OneEach emptyRun
        ((handled [0]).foldl step (onceSession.start ⟨emptyRun, 100, []⟩)).shared.store) := by
  let _ := asciiLetters
  apply @mismatch_iff asciiLetters onceSession ranOnce rfl emptyRun 100
  · exact ⟨nightlyRun, rfl, rfl, rfl⟩
  · intro testcaseId e h
    cases h.1
  · decide +kernel

end Example

end Tesbo.Automation
