import Tesbo.ClosingCounts

/-!
# Every status that is stored is counted

The counts of a run add up as long as each of its results is in one of them.  A status that is
reported is looked up in an object, which knows one name that its table does not have.
-/

namespace Tesbo.Automation.Counted

open Reasoning Proc

/-! ## The five counts -/

/-- The statuses behind each count. -/
def buckets : List (List String) :=
  [["Passed"], ["Failed"], ["Skipped"], ["Blocked"], ["Untested", "Retest"]]

/-- The status falls in exactly one count. -/
def IsCounted (status : String) : Prop := buckets.countP (fun b ↦ status ∈ b) = 1

instance (status : String) : Decidable (IsCounted status) := inferInstanceAs (Decidable (_ = _))

def Balanced (c : Counts) : Prop :=
  c.total = c.passed + c.failed + c.skipped + c.blocked + c.untested

theorem isCounted_iff {status : String} :
    IsCounted status ↔
      status ∈ ["Passed", "Failed", "Skipped", "Blocked", "Untested", "Retest"] := by
  constructor
  · intro h
    by_contra hnone
    simp only [List.mem_cons, List.not_mem_nil, or_false, not_or] at hnone
    simp [IsCounted, buckets, hnone] at h
  · revert status
    decide

/-- One more result counts as many times as it is in a count. -/
theorem countResults_cons (e : Execution) (rows : List Execution) :
    (countResults (e :: rows)).passed + (countResults (e :: rows)).failed +
        (countResults (e :: rows)).skipped + (countResults (e :: rows)).blocked +
          (countResults (e :: rows)).untested =
      (countResults rows).passed + (countResults rows).failed + (countResults rows).skipped +
        (countResults rows).blocked + (countResults rows).untested +
          buckets.countP fun b ↦ e.status ∈ b := by
  simp only [countResults, buckets, List.countP_cons, List.countP_nil, List.mem_cons,
    List.not_mem_nil, or_false, decide_eq_true_eq]
  omega

theorem countP_le_one (status : String) : buckets.countP (fun b ↦ status ∈ b) ≤ 1 := by
  by_cases h : IsCounted status
  · exact h.le
  · rw [isCounted_iff] at h
    simp only [List.mem_cons, List.not_mem_nil, or_false, not_or] at h
    simp [buckets, h]

/-- The counts add up exactly when every result is in one. -/
theorem balanced_iff {rows : List Execution} :
    Balanced (countResults rows) ↔ ∀ e ∈ rows, IsCounted e.status := by
  have hle : ∀ rows : List Execution, (countResults rows).passed + (countResults rows).failed +
      (countResults rows).skipped + (countResults rows).blocked + (countResults rows).untested ≤
        rows.length := by
    intro rows
    induction rows with
    | nil => exact Nat.le_refl _
    | cons e rows ih =>
        have hone := countP_le_one e.status
        rw [countResults_cons, List.length_cons]
        omega
  induction rows with
  | nil => simp [Balanced, countResults]
  | cons e rows ih =>
      have hcons := countResults_cons e rows
      have hone := countP_le_one e.status
      have hrest := hle rows
      rw [List.forall_mem_cons]
      refine Iff.trans ?_ (and_congr_right' ih)
      unfold Balanced
      have htotal : (countResults (e :: rows)).total = rows.length + 1 := rfl
      have htotal' : (countResults rows).total = rows.length := rfl
      rw [htotal, htotal', hcons]
      unfold IsCounted
      omega

theorem isCounted_fits {status : String} (h : IsCounted status) : varchar 32 status = .ok status := by
  apply varchar_of_length_le
  rw [isCounted_iff] at h
  revert status
  decide

/-! ## What a report is stored as -/

section Normalised

variable [Unicode]

/-- The word a status is looked up by. -/
def keyOf : Arg JsonText → Option String
  | .value (.text input) => some (wireKey input)
  | _ => none

/-- What a status is normalised to is counted, but for the one name the table inherits. -/
theorem normalizeWireStatus_counted (input : Arg JsonText) :
    (∀ status ∈ normalizeWireStatus input, IsCounted status) ↔ keyOf input ≠ some "constructor" := by
  have htext : ∀ key, (∀ status ∈ (wireStatusMap ++ inheritedStatuses).lookup key,
      IsCounted status) ↔ key ≠ "constructor" := by
    intro key
    by_cases hkey : key = "constructor"
    · subst hkey
      have hfunction : (wireStatusMap ++ inheritedStatuses).lookup "constructor" =
          some "function Object() \x7b [native code] \x7d" := by decide
      rw [hfunction]
      simp only [Option.mem_some_iff, forall_eq', ne_eq, not_true_eq_false, iff_false]
      decide
    · refine iff_of_true (fun status hstatus ↦ ?_) hkey
      have hmem : (key, status) ∈ wireStatusMap ++ inheritedStatuses := Assoc.mem_of_get hstatus
      rcases List.mem_append.mp hmem with hmem | hmem
      · have hall : ∀ e ∈ wireStatusMap, IsCounted e.2 := by decide
        exact hall (key, status) hmem
      · exact (hkey (congrArg Prod.fst (List.mem_singleton.mp hmem))).elim
  cases input with
  | undefined => exact iff_of_true (fun _ h ↦ by cases h) (by simp [keyOf])
  | null => exact iff_of_true (fun _ h ↦ by cases h) (by simp [keyOf])
  | value v =>
      cases v with
      | other => exact iff_of_true (fun _ h ↦ by cases h) (by simp [keyOf])
      | text input =>
          rw [show keyOf (.value (.text input)) = some (wireKey input) from rfl, ne_eq,
            Option.some.injEq]
          exact htext (wireKey input)

end Normalised

/-! ## What a request may ask for -/

/-- A refusal of what is asked: 400 or 404. -/
def IsRefusal : Failure → Prop
  | .badRequest _ | .notFound _ => True
  | _ => False

/-- The row a request has stored, once it has. -/
abbrev Phase := Option Execution

def turn : Phase → (w : Write) → Reply w → Phase
  | _, .store _ _ _, some execution => some execution
  | t, _, _ => t

def Legal : Phase → Write → Prop
  | _, .selectCases _ _ | _, .attach _ _ _ | _, .touch _ => True
  | _, .store _ _ r => IsCounted r.status
  | t, .respond (.recorded _ _ _ execution _) => t = some execution
  | _, _ => False

section Refusing

/-- A check that can only refuse. -/
def Refuses {α : Type} (r : Except Failure α) : Prop := ∀ e, r = .error e → IsRefusal e

theorem refuses_ok {α : Type} (a : α) : Refuses (.ok a) := fun _ h ↦ by cases h

theorem refuses_error {α : Type} {e : Failure} (h : IsRefusal e) :
    Refuses (.error e : Except Failure α) := fun _ h' ↦ Except.error.inj h' ▸ h

theorem refuses_bind {α β : Type} {r : Except Failure α} {f : α → Except Failure β}
    (hr : Refuses r) (hf : ∀ a, Refuses (f a)) : Refuses (r >>= f) := by
  cases r with
  | ok a => exact hf a
  | error e => exact fun e' h ↦ hr e' (congrArg Except.error (Except.error.inj h))

theorem refuses_elim {α : Type} {o : Option α} {e : Failure} (h : IsRefusal e) :
    Refuses (o.elim (.error e) .ok) := by
  cases o with
  | none => exact refuses_error h
  | some a => exact refuses_ok a

theorem refuses_boundedString (value : Arg String) (field : String) (max : ℕ) :
    Refuses (boundedString value field max) := by
  unfold boundedString
  split
  · exact refuses_ok _
  · split
    · exact refuses_ok _
    · split
      · exact refuses_error trivial
      · exact refuses_ok _

theorem refuses_normalizeDuration (value : Arg ℤ) : Refuses (normalizeDuration value) := by
  unfold normalizeDuration
  split
  · exact refuses_ok _
  · split
    · exact refuses_error trivial
    · split
      · exact refuses_error trivial
      · exact refuses_ok _

theorem refuses_normalizeRetryCount (value : Arg ℤ) : Refuses (normalizeRetryCount value) := by
  unfold normalizeRetryCount
  split
  · exact refuses_ok _
  · split
    · exact refuses_error trivial
    · split
      · exact refuses_error trivial
      · exact refuses_ok _

theorem refuses_caseAndStatus [Unicode] (body : ResultBody) :
    Refuses (ResultBody.caseAndStatus body) := by
  unfold ResultBody.caseAndStatus
  apply refuses_bind (refuses_boundedString _ _ _)
  intro caseId
  apply refuses_bind (refuses_elim (e := .badRequest _) trivial)
  intro caseId
  apply refuses_bind (refuses_elim (e := .badRequest _) trivial)
  exact fun status ↦ refuses_ok _

theorem refuses_report (body : ResultBody) (status : String) (actorId : Uuid) :
    Refuses (ResultBody.report body status actorId) := by
  unfold ResultBody.report
  apply refuses_bind (refuses_normalizeDuration _)
  intro durationMs
  apply refuses_bind (refuses_normalizeRetryCount _)
  intro retryCount
  apply refuses_bind (refuses_boundedString _ _ _)
  intro errorMessage
  apply refuses_bind (refuses_boundedString _ _ _)
  exact fun errorStack ↦ refuses_ok _

end Refusing

section Running

variable [Unicode]

structure Call where
  actorId : Uuid
  projectId : Uuid
  runId : Uuid
  body : ResultBody

/-- Every call has been sent. -/
def start (calls : ℕ → Option Call) (d : Data) : Requests :=
  ⟨d, fun k ↦ (calls k).map fun call ↦
    recordResult k call.actorId call.projectId call.runId call.body⟩

theorem passes_attachCases {runId projectId : Uuid} {caseIds : List String}
    {E : Failure → Phase → Prop} :
    Passes turn Legal (fun _ t ↦ t = none) E none (attachCases runId projectId caseIds) := by
  unfold attachCases
  split
  · exact passes_pure rfl
  · apply passes_issue_seq
    · exact trivial
    · intro found
      split
      · exact passes_pure rfl
      · apply passes_issue_seq
        · exact trivial
        · exact fun _ ↦ passes_pure rfl

theorem caseAndStatus_status {body : ResultBody} {named : String × String}
    (h : ResultBody.caseAndStatus body = .ok named) :
    normalizeWireStatus body.status = some named.2 := by
  unfold ResultBody.caseAndStatus at h
  obtain ⟨caseId, -, h⟩ := except_bind_eq_ok.mp h
  obtain ⟨caseId, -, h⟩ := except_bind_eq_ok.mp h
  obtain ⟨status, hstatus, h⟩ := except_bind_eq_ok.mp h
  obtain rfl := Except.ok.inj h
  cases hnormal : normalizeWireStatus body.status with
  | none => rw [hnormal] at hstatus; cases hstatus
  | some s => rw [hnormal] at hstatus; exact congrArg some (Except.ok.inj hstatus)

omit [Unicode] in
theorem report_status {body : ResultBody} {status : String} {actorId : Uuid} {r : Report}
    (h : ResultBody.report body status actorId = .ok r) : r.status = status := by
  unfold ResultBody.report at h
  obtain ⟨_, -, h⟩ := except_bind_eq_ok.mp h
  obtain ⟨_, -, h⟩ := except_bind_eq_ok.mp h
  obtain ⟨_, -, h⟩ := except_bind_eq_ok.mp h
  obtain ⟨_, -, h⟩ := except_bind_eq_ok.mp h
  exact congrArg Report.status (Except.ok.inj h).symm

/-- A call stores a counted status, or refuses what it is asked. -/
theorem passes_recordResult {post : ℕ} {call : Call}
    (hkey : keyOf call.body.status ≠ some "constructor") :
    Passes turn Legal (fun _ _ ↦ True) (fun e _ ↦ IsRefusal e) none
      (recordResult post call.actorId call.projectId call.runId call.body) := by
  unfold recordResult requireRun
  apply passes_check_seq
  · exact fun d ↦ refuses_elim (e := .notFound _) trivial
  · intro _ run _
    apply passes_ofExcept_seq
    · exact refuses_caseAndStatus call.body
    · intro named hnamed
      have hcounted : IsCounted named.2 :=
        (normalizeWireStatus_counted call.body.status).mpr hkey _ (caseAndStatus_status hnamed)
      apply passes_check_seq
      · exact fun d ↦ refuses_elim (e := .notFound _) trivial
      · intro _ testcase _
        apply passes_ofExcept_seq
        · exact refuses_report call.body named.2 call.actorId
        · intro report hreport
          apply passes_seq passes_attachCases
          intro attached t ht
          rw [ht]
          apply passes_issue_seq
          · show IsCounted report.status
            rw [report_status hreport]
            exact hcounted
          · intro updated
            cases updated with
            | none => exact passes_fail trivial
            | some execution =>
                apply passes_issue_seq
                · exact trivial
                · intro _
                  unfold respond
                  apply passes_issue (w := Write.respond _) (Q := fun _ _ ↦ True)
                  · exact rfl
                  · exact fun _ ↦ trivial

/-! ## What the calls keep -/

/-- The row an answer is about. -/
def execution? : Response → Option Execution
  | .recorded _ _ _ execution _ => some execution
  | _ => none

/-- The results of all runs are counted, and so are those that have been answered or will be. -/
structure Sound (d : Data) (phase : ℕ → Phase) : Prop where
  stored : ∀ runId testcaseId e, d.store.Result runId testcaseId e → IsCounted e.status
  answered : ∀ r ∈ d.responses, ∀ e ∈ execution? r, IsCounted e.status
  phase : ∀ k, ∀ e ∈ phase k, IsCounted e.status

variable {d d' : Data} {phase : ℕ → Phase} {k : ℕ} {t : Phase} {w : Write}

omit [Unicode] in
theorem Sound.update (h : Sound d phase)
    (hstored : ∀ runId testcaseId e, d'.store.Result runId testcaseId e → IsCounted e.status)
    (hanswered : ∀ r ∈ d'.responses, ∀ e ∈ execution? r, IsCounted e.status)
    (ht : ∀ e ∈ t, IsCounted e.status) : Sound d' (Function.update phase k t) := by
  refine ⟨hstored, hanswered, fun j e he ↦ ?_⟩
  by_cases hj : j = k
  · subst hj
    rw [Function.update_self] at he
    exact ht e he
  · rw [Function.update_of_ne hj] at he
    exact h.phase j e he

/-- Each statement goes through, and keeps this. -/
theorem Sound.turns (h : Sound d phase) (hlegal : Legal (phase k) w) :
    Service.wp (perform w) (fun r d' ↦ Sound d' (Function.update phase k (turn (phase k) w r)))
      (fun _ _ ↦ False) d := by
  cases w with
  | selectCases projectId caseIds =>
      unfold Service.wp
      exact h.update h.stored h.answered (h.phase k)
  | attach runId projectId ids =>
      unfold Service.wp
      refine h.update (fun runId' testcaseId e hresult ↦ ?_) h.answered (h.phase k)
      rcases Store.result_foldl_attachCase ids hresult with hold | huntested
      · exact h.stored runId' testcaseId e hold
      · rw [huntested]
        decide
  | store runId testcaseId r =>
      have hdone : perform (.store runId testcaseId r) d =
          (.ok ((d.store.executions.select fun e ↦ d.store.IsResultOf runId testcaseId e).map
              (r.apply d.now)).head?,
            { d with store := d.store.storeReport d.now runId testcaseId r }) := by
        show Service.returning (fun d ↦ d.storeReport runId testcaseId r) d = _
        unfold Service.returning Data.storeReport
        rw [isCounted_fits hlegal]
        rfl
      unfold Service.wp
      rw [hdone]
      refine h.update (fun runId' testcaseId' e hresult ↦ ?_) h.answered fun e he ↦ ?_
      · obtain ⟨e₀, h₀, rfl⟩ := Store.result_storeReport.mp hresult
        split
        · exact hlegal
        · exact h.stored runId' testcaseId' e₀ h₀
      · -- the row that comes back is the one that has been written
        cases hfound : d.store.executions.select fun e ↦ d.store.IsResultOf runId testcaseId e with
        | nil =>
            rw [hfound] at he
            exact h.phase k e he
        | cons e₀ rest =>
            rw [hfound] at he
            obtain rfl := Option.some.inj he
            exact hlegal
  | touch runId => exact (Service.wp_write _).mpr (h.update h.stored h.answered (h.phase k))
  | respond response =>
      refine (Service.wp_write _).mpr (h.update h.stored (fun r hr e he ↦ ?_) (h.phase k))
      rcases List.mem_append.mp hr with hr | hr
      · exact h.answered r hr e he
      · obtain rfl := List.mem_singleton.mp hr
        cases r with
        | recorded post runId caseId execution closed =>
            obtain rfl := Option.some.inj he
            exact h.phase k execution hlegal
        | created caller summary reused attached unknown => cases he
        | closed summary already mismatch => cases he
  | selectKey projectId externalId => exact hlegal.elim
  | selectRun runId => exact hlegal.elim
  | insertRun values => exact hlegal.elim
  | close runId closeStatus => exact hlegal.elim

/-- In every run the counts add up, what has been answered is counted, and a call that has failed has
refused what it was asked. -/
structure Kept (c : Requests) : Prop where
  balanced : ∀ runId, Balanced (resultCounts runId c.shared.store)
  answered : ∀ r ∈ c.shared.responses, ∀ e ∈ execution? r, IsCounted e.status
  refused : ∀ k e, c.pc k = some (.done (.error e)) → IsRefusal e

/-- No statement fails. -/
def GoesThrough (c : Requests) (k : ℕ) : Prop :=
  ∀ w ∈ moving c (.advance k : Move Empty), ∃ r, (perform w c.shared).1 = .ok r

omit [Unicode] in
theorem balanced_results {s : Store} :
    (∀ runId, Balanced (resultCounts runId s)) ↔
      ∀ runId testcaseId e, s.Result runId testcaseId e → IsCounted e.status := by
  unfold resultCounts
  simp only [balanced_iff, mem_resultsIn]
  exact ⟨fun h runId testcaseId e hresult ↦ h runId e ⟨testcaseId, hresult⟩,
    fun h runId e ⟨testcaseId, hresult⟩ ↦ h runId testcaseId e hresult⟩

/-- What a status is normalised to is counted exactly where it is not the inherited name.  Where no
call reports that, whatever is reported, by any number of calls and in any order of their statements,
is refused or stored as a status that is counted. -/
theorem statuses_counted (calls : ℕ → Option Call) (store : Store) (now : Time)
    (hstart : ∀ runId, Balanced (resultCounts runId store))
    (hkeys : ∀ k, ∀ call ∈ calls k, keyOf call.body.status ≠ some "constructor") (ks : List ℕ) :
    (∀ input, (∀ status ∈ normalizeWireStatus input, IsCounted status) ↔
        keyOf input ≠ some "constructor") ∧
      Always step Kept (start calls ⟨store, now, []⟩) ks ∧
      Along step GoesThrough (start calls ⟨store, now, []⟩) ks := by
  refine ⟨normalizeWireStatus_counted, ?_⟩
  let Inv (c : Requests) : Prop :=
    Phased turn Sound Freely (fun t _ w ↦ Legal t w) (fun _ _ _ ↦ True) c ∧
      c.Inv (fun _ ↦ True) fun _ _ p ↦ p.Never fun e ↦ ¬ IsRefusal e
  have hstep : ∀ c k, Inv c → True → Inv (step c k) ∧ GoesThrough c k := by
    intro c k ⟨hphased, hnever⟩ _
    refine ⟨⟨?_, never_move (fun none ↦ none.elim) hnever⟩, fun w hw ↦ ?_⟩
    · apply Phased.move (P := fun _ _ ↦ True) freely_refl freely_trans
        (fun _ _ _ none ↦ none.elim) _ hphased fun _ _ ↦ trivial
      intro d phase j w hsound hlegal _
      refine ⟨?_, trivial⟩
      exact Service.wp_mono (hsound.turns hlegal) (fun _ _ h ↦ h) fun _ _ hno ↦ hno.elim
    · obtain ⟨phase, hsound, hlegal⟩ := hphased.legal_advance trivial hw
      have hdone := Service.of_wp (hsound.turns hlegal)
      rcases hperform : perform w c.shared with ⟨e | r, d'⟩
      · exact (hdone.2 e d' hperform).elim
      · exact ⟨r, rfl⟩
  have hfirst : Inv (start calls ⟨store, now, []⟩) := by
    have hpasses : ∀ k p, (start calls ⟨store, now, []⟩).pc k = some p →
        Passes turn Legal (fun _ _ ↦ True) (fun e _ ↦ IsRefusal e) none p := by
      intro k p hp
      obtain ⟨call, hcall, rfl⟩ := Option.map_eq_some_iff.mp hp
      exact passes_recordResult (hkeys k call hcall)
    refine ⟨⟨fun _ ↦ none, ⟨balanced_results.mp hstart, ?_, ?_⟩, ?_⟩, trivial, ?_⟩
    · exact fun r hr ↦ by cases hr
    · exact fun k e he ↦ by cases he
    · exact fun k p hp ↦ (hpasses k p hp).follows _
    · have hdata : Nonempty Data := ⟨⟨store, now, []⟩⟩
      exact fun k p hp ↦ (hpasses k p hp).never fun e _ he hno ↦ hno he
  obtain ⟨hall, hgoes⟩ := Along.invariant hstep hfirst (along_true _ ks)
  refine ⟨hall.mono fun c hc ↦ ?_, hgoes⟩
  obtain ⟨⟨phase, hsound, -⟩, hnever⟩ := hc
  refine ⟨balanced_results.mpr hsound.stored, hsound.answered, fun k e hk ↦ ?_⟩
  exact not_not.mp (hnever.2 k _ hk)

end Running

/-! ### The inherited name, and two others -/

section Example

def report (status : String) : Call :=
  ⟨9, 1, 3, ⟨.value "TES-1", .value (.text status), .undefined, .undefined, .undefined, .undefined⟩⟩

/-- The status is taken as one that is known; the column refuses it after the case has joined the
run. -/
theorem statuses_counted_not_constructor : letI := asciiCase
    let call := report "constructor"
    let outcome := (recordResult 0 call.actorId call.projectId call.runId call.body).run perform
      ⟨emptyRun, 100, []⟩
    (∃ status ∈ normalizeWireStatus call.body.status, ¬ IsCounted status) ∧
      outcome.1 = .error (.sqlState "22001" "") ∧ emptyRun.items.rows.length = 0 ∧
        outcome.2.store.items.rows.length = 1 := by
  decide +kernel

def twoReports (k : ℕ) : Option Call :=
  if k = 0 then some (report "Timed-Out") else if k = 1 then some (report "flaky") else none

theorem statuses_counted_two : letI := asciiCase
    (∀ input, (∀ status ∈ normalizeWireStatus input, IsCounted status) ↔
        keyOf input ≠ some "constructor") ∧
      Always step Kept (start twoReports ⟨emptyRun, 100, []⟩) (handled [1, 0]) ∧
      Along step GoesThrough (start twoReports ⟨emptyRun, 100, []⟩) (handled [1, 0]) := by
  let _ := asciiCase
  apply statuses_counted
  · intro runId
    exact balanced_iff.mpr fun e he ↦ by cases he
  · intro k call hcall
    unfold twoReports at hcall
    split at hcall
    · obtain rfl := Option.some.inj hcall
      decide
    · split at hcall
      · obtain rfl := Option.some.inj hcall
        decide
      · cases hcall

end Example

end Tesbo.Automation.Counted
