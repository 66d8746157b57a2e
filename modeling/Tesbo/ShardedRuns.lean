import Tesbo.LatestAttempt

/-!
# One run for the shards of a build

Every shard of a build asks for a run under the same external id.  Whatever the order of their
statements, one of them opens the run and all the others join it.
-/

namespace Tesbo.Automation.Shards

open Reasoning Proc

/-! ## How far a call has come -/

structure Shard where
  ownerId : Option Uuid
  body : RunBody
deriving DecidableEq, Repr

/-- The ids of cases the shard names. -/
def Shard.caseIds (shard : Shard) : List String :=
  match shard.body.request with
  | .ok request => request.caseIds
  | .error _ => []

/-- `opening` lasts until there is a run to join; where the insert is refused, `beaten` until that
run has been found.  A call that is `lost` has found none. -/
inductive Stage where
  | outside
  | opening
  | beaten
  | lost
  | joining (runId : Uuid) (reused : Bool)
  | resolved (runId : Uuid) (reused : Bool) (testcaseIds : List Uuid)
  | attached (runId : Uuid) (reused : Bool)
  | summarised (run : Option Run) (reused : Bool)
  | answered (reused : Bool)
deriving DecidableEq, Repr

/-- The call of a shard, and the ids it names. -/
structure Phase where
  shard : ℕ
  caseIds : List String
  stage : Stage
deriving DecidableEq, Repr

def nextStage : Stage → (w : Write) → Reply w → Stage
  | .opening, .selectKey _ _, some runId => .joining runId true
  | .opening, .insertRun _, .ok runId => .joining runId false
  | .opening, .insertRun _, .error e => if isUniqueViolation e then .beaten else .lost
  | .beaten, .selectKey _ _, some runId => .joining runId true
  | .beaten, .selectKey _ _, none => .lost
  | .joining runId reused, .selectCases _ _, found =>
      .resolved runId reused (found.map fun e ↦ e.2.id)
  | .joining _ reused, .selectRun _, run => .summarised run reused
  | .resolved runId reused _, .attach _ _ _, _ => .attached runId reused
  | .resolved _ reused _, .selectRun _, run => .summarised run reused
  | .attached _ reused, .selectRun _, run => .summarised run reused
  | .summarised _ reused, .respond _, _ => .answered reused
  | stage, _, _ => stage

def turn (t : Phase) (w : Write) (r : Reply w) : Phase := { t with stage := nextStage t.stage w r }

/-- What a call may ask for, of the run of the key. -/
inductive Legal (projectId : Uuid) (externalId : String) : Phase → Write → Prop where
  | find {k ids} : Legal projectId externalId ⟨k, ids, .opening⟩ (.selectKey projectId externalId)
  | insert {k ids v} (hproject : v.projectId = projectId) (hkey : v.externalId = some externalId) :
      Legal projectId externalId ⟨k, ids, .opening⟩ (.insertRun v)
  | findAgain {k ids} :
      Legal projectId externalId ⟨k, ids, .beaten⟩ (.selectKey projectId externalId)
  | resolve {k ids runId reused} :
      Legal projectId externalId ⟨k, ids, .joining runId reused⟩ (.selectCases projectId ids)
  | readNone {k runId reused} :
      Legal projectId externalId ⟨k, [], .joining runId reused⟩ (.selectRun runId)
  | attach {k ids runId reused found} :
      Legal projectId externalId ⟨k, ids, .resolved runId reused found⟩
        (.attach runId projectId found)
  | readUnknown {k ids runId reused} :
      Legal projectId externalId ⟨k, ids, .resolved runId reused []⟩ (.selectRun runId)
  | read {k ids runId reused} :
      Legal projectId externalId ⟨k, ids, .attached runId reused⟩ (.selectRun runId)
  | answer {k ids reused attached unknown} (summary : RunSummary) :
      Legal projectId externalId ⟨k, ids, .summarised summary.run reused⟩
        (.respond (.created k summary reused attached unknown))

/-- A call ends once it is answered, or where the run it lost to is gone. -/
def Final (t : Phase) : Prop :=
  match t.stage with
  | .outside | .lost | .answered _ => True
  | _ => False

section Passing

variable [Unicode] {projectId : Uuid} {externalId : String} {k : ℕ} {caseIds : List String}

abbrev Ends (projectId : Uuid) (externalId : String) (t : Phase) (p : Procedure Unit) : Prop :=
  Passes turn (Legal projectId externalId) (fun _ t ↦ Final t) (fun _ t ↦ Final t) t p

/-- The run can be read for the answer. -/
structure Ready (projectId : Uuid) (externalId : String) (k : ℕ) (runId : Uuid) (reused : Bool)
    (t : Phase) : Prop where
  shard : t.shard = k
  legal : Legal projectId externalId t (.selectRun runId)
  next : ∀ run, nextStage t.stage (.selectRun runId) run = .summarised run reused

omit [Unicode] in
theorem passes_summary {runId : Uuid} {reused : Bool} {attached : ℕ} {unknown : List String}
    {t : Phase} (ht : Ready projectId externalId k runId reused t) :
    Ends projectId externalId t (do
      let summary ← runSummary runId
      respond (.created k summary reused attached unknown)) := by
  apply passes_issue_seq
  · exact ht.legal
  · intro run
    have hturn : turn t (.selectRun runId) run = ⟨k, t.caseIds, .summarised run reused⟩ := by
      unfold turn
      rw [ht.next run, ht.shard]
    apply passes_query_seq
    intro d
    rw [hturn]
    unfold respond
    apply passes_issue (w := Write.respond _)
    · exact .answer ⟨run, resultCounts runId d.store⟩
    · exact fun _ ↦ trivial

theorem passes_attachCases {runId : Uuid} {reused : Bool} {E : Failure → Phase → Prop} :
    Passes turn (Legal projectId externalId)
      (fun _ t ↦ Ready projectId externalId k runId reused t) E
      ⟨k, caseIds, .joining runId reused⟩ (attachCases runId projectId caseIds) := by
  unfold attachCases
  split
  · rename_i hempty
    obtain rfl := List.isEmpty_iff.mp hempty
    exact passes_pure ⟨rfl, .readNone, fun _ ↦ rfl⟩
  · apply passes_issue_seq
    · exact .resolve
    · intro found
      split
      · rename_i hempty
        obtain rfl := List.isEmpty_iff.mp hempty
        exact passes_pure ⟨rfl, .readUnknown, fun _ ↦ rfl⟩
      · apply passes_issue_seq
        · exact .attach
        · intro _
          exact passes_pure ⟨rfl, .read, fun _ ↦ rfl⟩

theorem passes_joinRun {runId : Uuid} {reused : Bool} :
    Ends projectId externalId ⟨k, caseIds, .joining runId reused⟩
      (joinRun k projectId runId caseIds reused) := by
  unfold joinRun
  apply passes_seq passes_attachCases
  intro attached t ht
  exact passes_summary ht

/-- The request of the shard passes its checks, and names the external id. -/
def Valid (projectId : Uuid) (externalId : String) (shard : Shard) : Prop :=
  ∃ request, shard.body.request = .ok request ∧ request.externalId = some externalId ∧
    ∃ values, shard.body.values request projectId shard.ownerId = .ok values

omit [Unicode] in
theorem values_key {body : RunBody} {request : RunRequest} {projectId : Uuid}
    {ownerId : Option Uuid} {values : RunValues}
    (h : body.values request projectId ownerId = .ok values) :
    values.projectId = projectId ∧ values.externalId = request.externalId := by
  unfold RunBody.values at h
  obtain ⟨_, -, h⟩ := except_bind_eq_ok.mp h
  obtain ⟨_, -, h⟩ := except_bind_eq_ok.mp h
  obtain ⟨_, -, h⟩ := except_bind_eq_ok.mp h
  obtain ⟨_, -, h⟩ := except_bind_eq_ok.mp h
  obtain ⟨_, -, h⟩ := except_bind_eq_ok.mp h
  obtain ⟨_, -, h⟩ := except_bind_eq_ok.mp h
  obtain ⟨_, -, h⟩ := except_bind_eq_ok.mp h
  obtain rfl := Except.ok.inj h
  exact ⟨rfl, rfl⟩

omit [Unicode] in
theorem ofExcept_ok_seq {α β : Type} (a : α) (f : α → Procedure β) :
    (ofExcept (.ok a) >>= f) = f a := rfl

theorem passes_createRun {shard : Shard} (h : Valid projectId externalId shard) :
    Ends projectId externalId ⟨k, shard.caseIds, .opening⟩
      (createRun k projectId shard.ownerId shard.body) := by
  obtain ⟨request, hrequest, hexternal, values, hvalues⟩ := h
  obtain ⟨hproject, hkey⟩ := values_key hvalues
  have hcaseIds : shard.caseIds = request.caseIds := by
    unfold Shard.caseIds
    rw [hrequest]
  rw [hcaseIds]
  unfold createRun
  rw [hrequest, ofExcept_ok_seq]
  simp only [hexternal]
  apply passes_issue_seq
  · exact .find
  · intro existing
    cases existing with
    | some runId => exact passes_joinRun
    | none =>
        show Ends _ _ ⟨k, request.caseIds, .opening⟩
          (insertOrJoin k projectId shard.ownerId shard.body request)
        unfold insertOrJoin
        rw [hvalues]
        apply passes_issue_seq
        · exact .insert hproject (hkey.trans hexternal)
        · intro inserted
          cases inserted with
          | ok runId => exact passes_joinRun
          | error e =>
              unfold turn nextStage
              cases hunique : isUniqueViolation e with
              | false =>
                  simp only [hexternal, hunique, Option.filter_some, Bool.false_eq_true, if_false]
                  exact passes_fail trivial
              | true =>
                  simp only [hexternal, hunique, Option.filter_some, if_true]
                  apply passes_issue_seq
                  · exact .findAgain
                  · intro raced
                    cases raced with
                    | none => exact passes_fail trivial
                    | some runId => exact passes_joinRun

end Passing

/-! ## What the attached cases are -/

section Attaching

variable {runId projectId : Uuid}

/-- Every live item of the run has a live result. -/
def AllHaveResults (s : Store) (runId : Uuid) : Prop :=
  ∀ item ∈ s.items, item.live = true → item.cycleId = runId →
    ∃ e ∈ s.executions, e.cycleItemId = item.id ∧ e.live = true

/-- The case is in the run. -/
def InRun (s : Store) (runId testcaseId : Uuid) : Prop :=
  ∃ item ∈ s.items, item.live = true ∧ item.cycleId = runId ∧ item.testcaseId = testcaseId

/-- A live case of the project. -/
def CaseIn (s : Store) (projectId testcaseId : Uuid) : Prop :=
  ∃ t, s.testcases.find testcaseId = some t ∧ t.live = true ∧ t.projectId = projectId

/-- Attaching live cases to a live run puts these in, and no others. -/
theorem attachCase_spec {s : Store} {testcaseId : Uuid} (hresults : AllHaveResults s runId)
    (hrun : ∃ run, s.liveRun runId = some run) (hcase : CaseIn s projectId testcaseId) :
    AllHaveResults (s.attachCase runId projectId testcaseId) runId ∧
      ∀ t, InRun (s.attachCase runId projectId testcaseId) runId t ↔
        InRun s runId t ∨ t = testcaseId := by
  rcases Store.attachCase_cases s runId projectId testcaseId with
    ⟨hnot, hsame⟩ | ⟨-, item, rfl, rfl, hlive, hid, hitems, hexecutions⟩
  · rw [hsame]
    refine ⟨hresults, fun t ↦ ⟨.inl, ?_⟩⟩
    rintro (h | rfl)
    · exact h
    · -- what keeps it from joining is that it is in the run
      by_contra hnew
      apply hnot
      refine ⟨hcase, hrun, ?_⟩
      rintro ⟨item, hitem, hcycle, htestcase, hlive⟩
      exact hnew ⟨item, hitem, hlive, hcycle, htestcase⟩
  · constructor
    · intro i hi hilive hicycle
      rcases (hitems i).mp hi with hi | rfl
      · obtain ⟨e, he, hof⟩ := hresults i hi hilive hicycle
        exact ⟨e, (hexecutions e).mpr (.inl he), hof⟩
      · exact ⟨_, (hexecutions _).mpr (.inr rfl), rfl, rfl⟩
    · intro t
      constructor
      · rintro ⟨i, hi, hilive, hicycle, rfl⟩
        rcases (hitems i).mp hi with hi | rfl
        · exact .inl ⟨i, hi, hilive, hicycle, rfl⟩
        · exact .inr rfl
      · rintro (⟨i, hi, hof⟩ | rfl)
        · exact ⟨i, (hitems i).mpr (.inl hi), hof⟩
        · exact ⟨item, (hitems item).mpr (.inr rfl), hlive, rfl, rfl⟩

theorem attach_spec {ids : List Uuid} {s : Store} (hresults : AllHaveResults s runId)
    (hrun : ∃ run, s.liveRun runId = some run) (hcases : ∀ id ∈ ids, CaseIn s projectId id) :
    AllHaveResults (ids.foldl (fun s id ↦ s.attachCase runId projectId id) s) runId ∧
      ∀ t, InRun (ids.foldl (fun s id ↦ s.attachCase runId projectId id) s) runId t ↔
        InRun s runId t ∨ t ∈ ids := by
  induction ids generalizing s with
  | nil => exact ⟨hresults, fun t ↦ by simp⟩
  | cons id ids ih =>
      obtain ⟨hresults', hin⟩ := attachCase_spec hresults hrun (hcases id List.mem_cons_self)
      obtain ⟨hall, hin'⟩ := ih hresults' (by
        unfold Store.liveRun
        rw [Store.runs_attachCase]
        exact hrun) (by
        intro id' hid'
        unfold CaseIn
        rw [Store.testcases_attachCase]
        exact hcases id' (List.mem_cons_of_mem id hid'))
      rw [List.foldl_cons]
      refine ⟨hall, fun t ↦ ?_⟩
      rw [hin', hin, List.mem_cons, or_assoc]

end Attaching

/-! ## Before and after the run is opened -/

/-- The cases of the project a list of ids names. -/
def known [Unicode] (projectId : Uuid) (caseIds : List String) (s : Store) : List Uuid :=
  (resolveCases projectId caseIds s).map fun e ↦ e.2.id

/-- Whether a call that has a run has found it there. -/
def reusedOf : Stage → Option Bool
  | .joining _ reused | .resolved _ reused _ | .attached _ reused | .summarised _ reused
  | .answered reused => some reused
  | .outside | .opening | .beaten | .lost => none

/-- The cases of the call are in its run. -/
def hasAttached : Stage → Bool
  | .attached _ _ | .summarised _ _ | .answered _ => true
  | _ => false

/-- The answers to a call: the run each names, and whether it was there. -/
def answersOf (k : ℕ) (responses : List Response) : List (Option Uuid × Bool) :=
  responses.filterMap fun
    | .created caller summary reused _ _ =>
        if caller = k then some (summary.run.map Run.id, reused) else none
    | _ => none

def answersAt (runId : Uuid) : Stage → List (Option Uuid × Bool)
  | .answered reused => [(some runId, reused)]
  | _ => []

/-- What a call knows of the run is so. -/
def Fits [Unicode] (projectId : Uuid) (start : Store) (runId : Uuid) (t : Phase) : Prop :=
  match t.stage with
  | .outside | .opening | .beaten | .answered _ => True
  | .lost => False
  | .joining id _ | .attached id _ => id = runId
  | .resolved id _ found => id = runId ∧ found = known projectId t.caseIds start
  | .summarised run _ => run.map Run.id = some runId

section Kept

variable [Unicode] (projectId : Uuid) (externalId : String) (start : Store)

/-- No call has come further than looking for the run. -/
structure Unopened (d : Data) (phase : ℕ → Phase) : Prop where
  key : runWithKey projectId externalId d.store = none
  opening : ∀ k, (phase k).stage = .outside ∨ (phase k).stage = .opening
  responses : d.responses = []

/-- The run is there; one call has opened it, the cases in it are those of the calls that have
attached theirs. -/
structure Opened (runId : Uuid) (d : Data) (phase : ℕ → Phase) : Prop where
  key : runWithKey projectId externalId d.store = some runId
  fits : ∀ k, Fits projectId start runId (phase k)
  opener : ∃ k, ∀ j, reusedOf (phase j).stage = some false ↔ j = k
  answers : ∀ k, answersOf k d.responses = answersAt runId (phase k).stage
  cases : ∀ testcaseId, InRun d.store runId testcaseId ↔ ∃ k, hasAttached (phase k).stage = true ∧
    testcaseId ∈ known projectId (phase k).caseIds start
  results : AllHaveResults d.store runId

variable {projectId externalId start} {runId : Uuid} {d d' : Data} {phase : ℕ → Phase} {k : ℕ}
  {t : Phase}

/-- One call moves on; the cases it has attached are in the run. -/
theorem Opened.update (h : Opened projectId externalId start runId d phase)
    (hkey : runWithKey projectId externalId d'.store = some runId)
    (hcaseIds : t.caseIds = (phase k).caseIds) (hfits : Fits projectId start runId t)
    (hreused : reusedOf t.stage = some false ↔ reusedOf (phase k).stage = some false)
    (hkept : hasAttached (phase k).stage = true → hasAttached t.stage = true)
    (hanswers : ∀ j, answersOf j d'.responses =
      if j = k then answersAt runId t.stage else answersOf j d.responses)
    (hcases : ∀ testcaseId, InRun d'.store runId testcaseId ↔ InRun d.store runId testcaseId ∨
      hasAttached t.stage = true ∧ testcaseId ∈ known projectId t.caseIds start)
    (hresults : AllHaveResults d'.store runId) :
    Opened projectId externalId start runId d' (Function.update phase k t) := by
  have hself : Function.update phase k t k = t := Function.update_self k t phase
  have hother : ∀ j, j ≠ k → Function.update phase k t j = phase j :=
    fun j hj ↦ Function.update_of_ne hj t phase
  refine ⟨hkey, fun j ↦ ?_, ?_, fun j ↦ ?_, fun testcaseId ↦ ?_, hresults⟩
  · by_cases hj : j = k
    · subst hj
      rw [hself]
      exact hfits
    · rw [hother j hj]
      exact h.fits j
  · obtain ⟨first, hfirst⟩ := h.opener
    refine ⟨first, fun j ↦ ?_⟩
    by_cases hj : j = k
    · subst hj
      rw [hself, hreused]
      exact hfirst j
    · rw [hother j hj]
      exact hfirst j
  · rw [hanswers j]
    by_cases hj : j = k
    · rw [if_pos hj, hj, hself]
    · rw [if_neg hj, hother j hj]
      exact h.answers j
  · rw [hcases, h.cases]
    constructor
    · rintro (⟨j, hj, hmem⟩ | ⟨hattached, hmem⟩)
      · refine ⟨j, ?_⟩
        by_cases hjk : j = k
        · subst hjk
          rw [hself, hcaseIds]
          exact ⟨hkept hj, hmem⟩
        · rw [hother j hjk]
          exact ⟨hj, hmem⟩
      · refine ⟨k, ?_⟩
        rw [hself]
        exact ⟨hattached, hmem⟩
    · rintro ⟨j, hj, hmem⟩
      by_cases hjk : j = k
      · subst hjk
        rw [hself] at hj hmem
        exact .inr ⟨hj, hmem⟩
      · rw [hother j hjk] at hj hmem
        exact .inl ⟨j, hj, hmem⟩

/-- One call moves on, and nothing else changes. -/
theorem Opened.stay (h : Opened projectId externalId start runId d phase) {j : ℕ}
    {ids : List String} {stage stage' : Stage} (hphase : phase k = ⟨j, ids, stage⟩)
    (hfits : Fits projectId start runId ⟨j, ids, stage'⟩)
    (hreused : reusedOf stage' = some false ↔ reusedOf stage = some false)
    (hanswers : answersAt runId stage' = answersAt runId stage)
    (hkept : hasAttached stage = true → hasAttached stage' = true)
    (hattached : hasAttached stage' = true → hasAttached stage = true ∨
      known projectId ids start = []) :
    Opened projectId externalId start runId d (Function.update phase k ⟨j, ids, stage'⟩) := by
  have hanswer := h.answers k
  rw [hphase] at hanswer
  apply h.update h.key
  · rw [hphase]
  · exact hfits
  · rw [hphase]
    exact hreused
  · rw [hphase]
    exact hkept
  · intro i
    by_cases hi : i = k
    · rw [if_pos hi, hi, hanswer, hanswers]
    · rw [if_neg hi]
  · intro testcaseId
    refine ⟨.inl, ?_⟩
    rintro (hin | ⟨hdone, hmem⟩)
    · exact hin
    · rcases hattached hdone with hold | hnone
      · refine (h.cases testcaseId).mpr ⟨k, ?_⟩
        rw [hphase]
        exact ⟨hold, hmem⟩
      · rw [hnone] at hmem
        cases hmem
  · exact h.results

end Kept

/-! ### The statements on runs -/

section Runs

variable {projectId runId : Uuid} {externalId : String} {s : Store} {v : RunValues}

theorem runWithKey_eq_some : runWithKey projectId externalId s = some runId ↔
    ∃ r ∈ s.runs, r.hasKey projectId externalId = true ∧ r.id = runId := by
  unfold runWithKey
  rw [List.head?_map, Option.map_eq_some_iff]
  constructor
  · rintro ⟨r, hr, rfl⟩
    obtain ⟨hmem, hkey⟩ := Table.mem_select.mp (List.mem_of_mem_head? hr)
    exact ⟨r, hmem, hkey, rfl⟩
  · rintro ⟨r, hmem, hkey, rfl⟩
    have hselected : r ∈ s.runs.select (Run.hasKey projectId externalId) :=
      Table.mem_select.mpr ⟨hmem, hkey⟩
    refine ⟨(s.runs.select (Run.hasKey projectId externalId)).head (List.ne_nil_of_mem hselected),
      List.head?_eq_some_head _, ?_⟩
    -- the index lets no other run have the key
    obtain ⟨hmem', hkey'⟩ := Table.mem_select.mp
      (List.head_mem (List.ne_nil_of_mem hselected))
    rw [s.oneRun _ hmem' r hmem projectId externalId hkey' hkey]

theorem runWithKey_eq_none : runWithKey projectId externalId s = none ↔
    ∀ r ∈ s.runs, r.hasKey projectId externalId = false := by
  unfold runWithKey
  rw [List.head?_eq_none_iff, List.map_eq_nil_iff]
  unfold Table.select
  rw [List.filter_eq_nil_iff]
  simp only [Bool.not_eq_true]
  exact Iff.rfl

theorem liveRun_of_key (h : runWithKey projectId externalId s = some runId) :
    ∃ run, s.liveRun runId = some run ∧ run.id = runId := by
  obtain ⟨run, hmem, hkey, hid⟩ := runWithKey_eq_some.mp h
  refine ⟨run, ?_, hid⟩
  unfold Store.liveRun
  rw [Option.filter_eq_some_iff]
  simp only [Run.hasKey, Bool.and_eq_true] at hkey
  exact ⟨Table.find_eq_some.mpr ⟨hmem, hid⟩, hkey.1.1⟩

theorem insertRun_refused (now : Time) (hproject : v.projectId = projectId)
    (hkey : v.externalId = some externalId)
    (h : runWithKey projectId externalId s = some runId) : s.insertRun now v = none := by
  obtain ⟨run, hmem, hrun, -⟩ := runWithKey_eq_some.mp h
  unfold Store.insertRun
  rw [dif_pos ⟨run, hmem, externalId, hkey, hproject ▸ hrun⟩]

/-- The run that is opened has the key, and nothing in it. -/
theorem insertRun_opens (now : Time) (hproject : v.projectId = projectId)
    (hkey : v.externalId = some externalId) (h : runWithKey projectId externalId s = none) :
    ∃ runId s', s.insertRun now v = some (runId, s') ∧
      runWithKey projectId externalId s' = some runId ∧ s'.testcases = s.testcases ∧
        ∀ item ∈ s'.items, item.cycleId ≠ runId := by
  have hnone := runWithKey_eq_none.mp h
  have hfree : ¬ ∃ r ∈ s.runs, ∃ externalId ∈ v.externalId,
      r.hasKey v.projectId externalId = true := by
    rintro ⟨r, hmem, externalId', hkey', hr⟩
    obtain rfl := Option.some.inj (hkey.symm.trans hkey')
    rw [hproject, hnone r hmem] at hr
    cases hr
  unfold Store.insertRun
  rw [dif_neg hfree]
  refine ⟨_, _, rfl, ?_, rfl, ?_⟩
  · rw [runWithKey_eq_some]
    refine ⟨_, List.mem_append_right _ (List.mem_singleton_self _), ?_, rfl⟩
    simp [Run.hasKey, Run.live, hproject, hkey]
  · intro item hitem hcycle
    obtain ⟨run, hmem, hid⟩ := s.runOfItem item hitem
    exact Table.key_ne_newKey hmem (hid.trans hcycle)

end Runs

/-! ### Each statement keeps this -/

section Steps

variable [Unicode] {projectId runId : Uuid} {externalId : String} {start : Store} {d : Data}
  {phase : ℕ → Phase} {k : ℕ} {t : Phase} {w : Write}

theorem known_nil : known projectId [] start = [] := by
  unfold known resolveCases
  simp [Table.select, Assoc.ofList]

theorem caseIn_of_known {caseIds : List String} {id : Uuid}
    (h : id ∈ known projectId caseIds start) : CaseIn start projectId id := by
  obtain ⟨e, he, rfl⟩ := List.mem_map.mp h
  obtain ⟨testcase, hmem, rfl⟩ := List.mem_map.mp (Assoc.mem_ofList he)
  obtain ⟨hrow, hof⟩ := Table.mem_select.mp hmem
  simp only [decide_eq_true_eq] at hof
  exact ⟨testcase, Table.find_eq_some.mpr ⟨hrow, rfl⟩, hof.2.1, hof.1⟩

theorem known_congr {caseIds : List String} {s : Store} (h : s.testcases = start.testcases) :
    known projectId caseIds s = known projectId caseIds start := by
  unfold known resolveCases
  rw [h]

omit [Unicode] in
theorem answersOf_append {j : ℕ} {responses : List Response} {r : Response} :
    answersOf j (responses ++ [r]) = answersOf j responses ++ answersOf j [r] :=
  List.filterMap_append

/-- The statements of a call whose build has its run. -/
theorem Opened.turns (h : Opened projectId externalId start runId d phase)
    (hsame : d.store.testcases = start.testcases) (hphase : phase k = t) (hshard : t.shard = k)
    (hlegal : Legal projectId externalId t w) :
    Service.wp (perform w) (fun r d' ↦ d'.store.testcases = start.testcases ∧
      Opened projectId externalId start runId d' (Function.update phase k (turn t w r)))
      (fun _ _ ↦ False) d := by
  have hfits := h.fits k
  rw [hphase] at hfits
  obtain ⟨run, hrun, hid⟩ := liveRun_of_key h.key
  cases hlegal with
  | @find j ids =>
      unfold Service.wp
      refine ⟨hsame, ?_⟩
      show Opened _ _ _ _ d (Function.update phase k
        ⟨j, ids, nextStage .opening (.selectKey projectId externalId)
          (runWithKey projectId externalId d.store)⟩)
      rw [h.key]
      show Opened _ _ _ _ d (Function.update phase k ⟨j, ids, .joining runId true⟩)
      exact h.stay hphase rfl (by simp [reusedOf]) rfl id fun hno ↦ by cases hno
  | @insert j ids v hproject hkey =>
      have hrefused : perform (.insertRun v) d =
          (.ok (.error (.unique "idx_cycles_project_external_id")), d) := by
        show (Except.ok (d.insertRun v).1, (d.insertRun v).2) = _
        unfold Data.insertRun
        rw [insertRun_refused d.now hproject hkey h.key]
      unfold Service.wp
      rw [hrefused]
      refine ⟨hsame, ?_⟩
      show Opened _ _ _ _ d (Function.update phase k ⟨j, ids, .beaten⟩)
      exact h.stay hphase trivial (by simp [reusedOf]) rfl id fun hno ↦ by cases hno
  | @findAgain j ids =>
      unfold Service.wp
      refine ⟨hsame, ?_⟩
      show Opened _ _ _ _ d (Function.update phase k
        ⟨j, ids, nextStage .beaten (.selectKey projectId externalId)
          (runWithKey projectId externalId d.store)⟩)
      rw [h.key]
      show Opened _ _ _ _ d (Function.update phase k ⟨j, ids, .joining runId true⟩)
      exact h.stay hphase rfl (by simp [reusedOf]) rfl id fun hno ↦ by cases hno
  | @resolve j ids runId' reused =>
      unfold Service.wp
      refine ⟨hsame, ?_⟩
      show Opened _ _ _ _ d (Function.update phase k
        ⟨j, ids, .resolved runId' reused (known projectId ids d.store)⟩)
      rw [known_congr hsame]
      exact h.stay hphase ⟨hfits, rfl⟩ Iff.rfl rfl id fun hno ↦ by cases hno
  | @readNone j runId' reused =>
      obtain rfl : runId' = runId := hfits
      unfold Service.wp
      refine ⟨hsame, ?_⟩
      show Opened _ _ _ _ d
        (Function.update phase k ⟨j, [], .summarised (d.store.liveRun runId') reused⟩)
      rw [hrun]
      exact h.stay hphase (congrArg some hid) Iff.rfl rfl (fun _ ↦ rfl) fun _ ↦ .inr known_nil
  | @attach j ids runId' reused found =>
      obtain ⟨rfl, hfound : found = known projectId ids start⟩ := hfits
      subst hfound
      have hcases : ∀ id ∈ known projectId ids start, CaseIn d.store projectId id := by
        intro id hid
        unfold CaseIn
        rw [hsame]
        exact caseIn_of_known hid
      obtain ⟨hresults, hin⟩ := attach_spec h.results ⟨run, hrun⟩ hcases
      unfold Service.wp
      refine ⟨(Store.testcases_foldl_attachCase _ d.store).trans hsame, ?_⟩
      show Opened _ _ _ _ _ (Function.update phase k ⟨j, ids, .attached runId' reused⟩)
      apply h.update
      · show runWithKey _ _ (List.foldl _ _ _) = _
        unfold runWithKey
        rw [Store.runs_foldl_attachCase]
        exact h.key
      · rw [hphase]
      · exact rfl
      · rw [hphase]
        exact Iff.rfl
      · exact fun _ ↦ rfl
      · intro i
        by_cases hi : i = k
        · have hanswer := h.answers k
          rw [hphase] at hanswer
          rw [if_pos hi, hi]
          exact hanswer
        · rw [if_neg hi]
          exact rfl
      · intro testcaseId
        refine (hin testcaseId).trans (or_congr_right ?_)
        exact ⟨fun hmem ↦ ⟨rfl, hmem⟩, fun hmem ↦ hmem.2⟩
      · exact hresults
  | @readUnknown j ids runId' reused =>
      obtain ⟨rfl, hnone⟩ := hfits
      unfold Service.wp
      refine ⟨hsame, ?_⟩
      show Opened _ _ _ _ d
        (Function.update phase k ⟨j, ids, .summarised (d.store.liveRun runId') reused⟩)
      rw [hrun]
      exact h.stay hphase (congrArg some hid) Iff.rfl rfl (fun _ ↦ rfl) fun _ ↦ .inr hnone.symm
  | @read j ids runId' reused =>
      obtain rfl : runId' = runId := hfits
      unfold Service.wp
      refine ⟨hsame, ?_⟩
      show Opened _ _ _ _ d
        (Function.update phase k ⟨j, ids, .summarised (d.store.liveRun runId') reused⟩)
      rw [hrun]
      exact h.stay hphase (congrArg some hid) Iff.rfl rfl id fun _ ↦ .inl rfl
  | @answer j ids reused attached unknown summary =>
      obtain rfl : j = k := hshard
      have hanswer := h.answers j
      rw [hphase] at hanswer
      refine (Service.wp_write _).mpr ⟨hsame, ?_⟩
      show Opened _ _ _ _ _ (Function.update phase j ⟨j, ids, .answered reused⟩)
      apply h.update
      · exact h.key
      · rw [hphase]
      · exact trivial
      · rw [hphase]
        exact Iff.rfl
      · exact fun _ ↦ rfl
      · intro i
        rw [answersOf_append]
        by_cases hi : i = j
        · subst hi
          have hone : answersOf i [.created i summary reused attached unknown] =
              [(some runId, reused)] := by
            simp only [answersOf, List.filterMap_cons, List.filterMap_nil, if_true]
            rw [hfits]
          rw [if_pos rfl, hanswer, hone]
          exact rfl
        · have hnone : answersOf i [.created j summary reused attached unknown] = [] := by
            simp only [answersOf, List.filterMap_cons, List.filterMap_nil, if_neg (Ne.symm hi)]
          rw [if_neg hi, hnone, List.append_nil]
      · intro testcaseId
        refine ⟨.inl, ?_⟩
        rintro (hin | ⟨-, hmem⟩)
        · exact hin
        · refine (h.cases testcaseId).mpr ⟨j, ?_⟩
          rw [hphase]
          exact ⟨rfl, hmem⟩
      · exact h.results

/-- The statements of a call that may be the first. -/
theorem Unopened.turns (h : Unopened projectId externalId d phase)
    (hsame : d.store.testcases = start.testcases) (hphase : phase k = t)
    (hlegal : Legal projectId externalId t w) :
    Service.wp (perform w) (fun r d' ↦ d'.store.testcases = start.testcases ∧
      (Unopened projectId externalId d' (Function.update phase k (turn t w r)) ∨
        ∃ runId, Opened projectId externalId start runId d'
          (Function.update phase k (turn t w r)))) (fun _ _ ↦ False) d := by
  have hopening := h.opening k
  rw [hphase] at hopening
  cases hlegal with
  | @find j ids =>
      unfold Service.wp
      have hturn : turn ⟨j, ids, .opening⟩ (.selectKey projectId externalId)
          (runWithKey projectId externalId d.store) = phase k := by
        rw [h.key, hphase]
        rfl
      refine ⟨hsame, .inl ?_⟩
      show Unopened _ _ d (Function.update phase k (turn ⟨j, ids, .opening⟩
        (.selectKey projectId externalId) (runWithKey projectId externalId d.store)))
      rw [hturn, Function.update_eq_self]
      exact h
  | @insert j ids v hproject hkey =>
      obtain ⟨runId, s, hinsert, hrun, htestcases, hempty⟩ :=
        insertRun_opens d.now hproject hkey h.key
      have hdone : perform (.insertRun v) d = (.ok (.ok runId), { d with store := s }) := by
        show (Except.ok (d.insertRun v).1, (d.insertRun v).2) = _
        unfold Data.insertRun
        rw [hinsert]
      unfold Service.wp
      rw [hdone]
      refine ⟨htestcases.trans hsame, .inr ⟨runId, ?_⟩⟩
      show Opened _ _ _ _ _ (Function.update phase k ⟨j, ids, .joining runId false⟩)
      have hself : Function.update phase k ⟨j, ids, .joining runId false⟩ k =
          ⟨j, ids, .joining runId false⟩ := Function.update_self k _ phase
      -- the others are where they were, and have no run
      have hother : ∀ i, i ≠ k →
          (Function.update phase k ⟨j, ids, .joining runId false⟩ i).stage = .outside ∨
            (Function.update phase k ⟨j, ids, .joining runId false⟩ i).stage = .opening := by
        intro i hi
        rw [Function.update_of_ne hi]
        exact h.opening i
      refine ⟨hrun, fun i ↦ ?_, ⟨k, fun i ↦ ?_⟩, fun i ↦ ?_, fun testcaseId ↦ ?_, ?_⟩
      · by_cases hi : i = k
        · rw [hi, hself]
          exact rfl
        · unfold Fits
          rcases hother i hi with hstage | hstage <;> rw [hstage] <;> exact trivial
      · by_cases hi : i = k
        · rw [hi, hself]
          exact ⟨fun _ ↦ rfl, fun _ ↦ rfl⟩
        · rcases hother i hi with hstage | hstage <;> rw [hstage] <;> simp [reusedOf, hi]
      · show answersOf i d.responses = _
        rw [h.responses]
        by_cases hi : i = k
        · rw [hi, hself]
          rfl
        · rcases hother i hi with hstage | hstage <;> rw [hstage] <;> rfl
      · constructor
        · rintro ⟨item, hitem, -, hcycle, -⟩
          exact (hempty item hitem hcycle).elim
        · rintro ⟨i, hattached, -⟩
          by_cases hi : i = k
          · rw [hi, hself] at hattached
            cases hattached
          · rcases hother i hi with hstage | hstage <;> rw [hstage] at hattached <;> cases hattached
      · exact fun item hitem _ hcycle ↦ (hempty item hitem hcycle).elim
  | findAgain => simp at hopening
  | resolve => simp at hopening
  | readNone => simp at hopening
  | attach => simp at hopening
  | readUnknown => simp at hopening
  | read => simp at hopening
  | answer => simp at hopening

end Steps

/-! ## A build -/

/-- The shards of a build, which all name one external id. -/
structure Build where
  projectId : Uuid
  externalId : String
  shards : List Shard
deriving DecidableEq, Repr

def Build.first (b : Build) (k : ℕ) : Phase :=
  match b.shards[k]? with
  | none => ⟨k, [], .outside⟩
  | some shard => ⟨k, shard.caseIds, .opening⟩

def Build.Valid (b : Build) : Prop :=
  ∀ shard ∈ b.shards, Shards.Valid b.projectId b.externalId shard

section Build

variable [Unicode]

def Build.call (b : Build) (k : ℕ) : Option (Procedure Unit) :=
  b.shards[k]?.map fun shard ↦ createRun k b.projectId shard.ownerId shard.body

/-- Every shard has sent its request. -/
def Build.start (b : Build) (d : Data) : Requests := ⟨d, b.call⟩

/-- The calls are those of the shards, and what they know of the run is so. -/
structure Build.Sound (b : Build) (start : Store) (d : Data) (phase : ℕ → Phase) : Prop where
  testcases : d.store.testcases = start.testcases
  shard : ∀ k, (phase k).shard = k
  caseIds : ∀ k, (phase k).caseIds = (b.first k).caseIds
  outside : ∀ k, (phase k).stage = .outside ↔ b.shards.length ≤ k
  run : Unopened b.projectId b.externalId d phase ∨
    ∃ runId, Opened b.projectId b.externalId start runId d phase

omit [Unicode] in
theorem nextStage_ne_outside {stage : Stage} (h : stage ≠ .outside) (w : Write) (r : Reply w) :
    nextStage stage w r ≠ .outside := by
  unfold nextStage
  split
  case h_3 =>
    split
    · exact Stage.noConfusion
    · exact Stage.noConfusion
  case h_12 => exact h
  all_goals exact Stage.noConfusion

variable {b : Build} {start : Store} {d : Data} {phase : ℕ → Phase} {k : ℕ} {w : Write}

omit [Unicode] in
theorem Legal.ne_outside {projectId : Uuid} {externalId : String} {t : Phase}
    (h : Legal projectId externalId t w) : t.stage ≠ .outside := by
  cases h <;> exact Stage.noConfusion

/-- Each statement of a call keeps the invariant. -/
theorem Build.Sound.turns (h : b.Sound start d phase)
    (hlegal : Legal b.projectId b.externalId (phase k) w) :
    Service.wp (perform w)
      (fun r d' ↦ b.Sound start d' (Function.update phase k (turn (phase k) w r)))
      (fun _ _ ↦ False) d := by
  -- which shard a call is of does not change
  have hcalls : ∀ r, (∀ j, (Function.update phase k (turn (phase k) w r) j).shard = j) ∧
      (∀ j, (Function.update phase k (turn (phase k) w r) j).caseIds = (b.first j).caseIds) ∧
      ∀ j, (Function.update phase k (turn (phase k) w r) j).stage = .outside ↔
        b.shards.length ≤ j := by
    intro r
    refine ⟨fun j ↦ ?_, fun j ↦ ?_, fun j ↦ ?_⟩ <;> by_cases hj : j = k
    · subst hj
      rw [Function.update_self]
      exact h.shard j
    · rw [Function.update_of_ne hj]
      exact h.shard j
    · subst hj
      rw [Function.update_self]
      exact h.caseIds j
    · rw [Function.update_of_ne hj]
      exact h.caseIds j
    · subst hj
      rw [Function.update_self, ← h.outside j]
      exact iff_of_false (nextStage_ne_outside hlegal.ne_outside w r) hlegal.ne_outside
    · rw [Function.update_of_ne hj]
      exact h.outside j
  rcases h.run with hrun | ⟨runId, hrun⟩
  · apply Service.wp_mono (hrun.turns h.testcases rfl hlegal)
    · rintro r d' ⟨hsame, hrun'⟩
      obtain ⟨hshard, hcaseIds, houtside⟩ := hcalls r
      exact ⟨hsame, hshard, hcaseIds, houtside, hrun'⟩
    · exact fun _ _ hno ↦ hno
  · apply Service.wp_mono (hrun.turns h.testcases rfl (h.shard k) hlegal)
    · rintro r d' ⟨hsame, hrun'⟩
      obtain ⟨hshard, hcaseIds, houtside⟩ := hcalls r
      exact ⟨hsame, hshard, hcaseIds, houtside, .inr ⟨runId, hrun'⟩⟩
    · exact fun _ _ hno ↦ hno

theorem Build.sound_first (b : Build) (now : Time)
    (hnew : runWithKey b.projectId b.externalId start = none) :
    b.Sound start ⟨start, now, []⟩ b.first := by
  have hstage : ∀ k, (b.first k).stage = if k < b.shards.length then .opening else .outside := by
    intro k
    unfold Build.first
    by_cases hk : k < b.shards.length
    · rw [List.getElem?_eq_getElem hk, if_pos hk]
    · rw [List.getElem?_eq_none (by omega), if_neg hk]
  refine ⟨rfl, fun k ↦ ?_, fun k ↦ rfl, fun k ↦ ?_, .inl ⟨hnew, fun k ↦ ?_, rfl⟩⟩
  · unfold Build.first
    split <;> rfl
  · rw [hstage]
    split
    · rename_i hk
      exact iff_of_false Stage.noConfusion (by omega)
    · rename_i hk
      exact iff_of_true rfl (by omega)
  · rw [hstage]
    split
    · exact .inr rfl
    · exact .inl rfl

/-! ### How long a call takes -/

theorem within_joinRun {projectId runId : Uuid} {caseIds : List String} {reused : Bool} :
    Within 6 (joinRun k projectId runId caseIds reused) := by
  unfold joinRun attachCases
  split
  · exact fun _ _ _ ↦ trivial
  · intro found
    show Within 5 ((if found.isEmpty then _ else _) >>= _)
    split
    · exact fun _ _ _ ↦ trivial
    · exact fun _ _ _ _ ↦ trivial

theorem within_insertOrJoin {projectId : Uuid} {ownerId : Option Uuid} {body : RunBody}
    {request : RunRequest} : Within 8 (insertOrJoin k projectId ownerId body request) := by
  unfold insertOrJoin
  cases body.values request projectId ownerId with
  | error e => exact trivial
  | ok values =>
      intro inserted
      cases inserted with
      | ok runId => exact within_joinRun.succ
      | error e =>
          simp only [Proc.bind]
          split
          · exact trivial
          · intro raced
            cases raced with
            | none => exact trivial
            | some runId => exact within_joinRun

theorem within_createRun {projectId : Uuid} {ownerId : Option Uuid} {body : RunBody} :
    Within 9 (createRun k projectId ownerId body) := by
  unfold createRun
  cases body.request with
  | error e => exact trivial
  | ok request =>
      rw [ofExcept_ok_seq]
      split
      · exact within_insertOrJoin.succ
      · intro existing
        cases existing with
        | some runId => exact within_joinRun.mono (by decide : 6 ≤ 8)
        | none => exact within_insertOrJoin

/-! ### The run of the build -/

/-- There is one run with the key, `runId`. -/
def OnlyRun (projectId : Uuid) (externalId : String) (s : Store) (runId : Uuid) : Prop :=
  ∃ run, run.id = runId ∧ ∀ r, (r ∈ s.runs ∧ r.hasKey projectId externalId = true) ↔ r = run

/-- The case has one live item in the run, and this one result. -/
def OnceInRun (s : Store) (runId testcaseId : Uuid) : Prop :=
  ∃ item e, (∀ i, (i ∈ s.items ∧ i.live = true ∧ i.cycleId = runId ∧ i.testcaseId = testcaseId) ↔
    i = item) ∧ ∀ e', (e' ∈ s.executions ∧ e'.cycleItemId = item.id) ↔ e' = e

/-- Every shard is answered with the run, of which one has opened it; each case a shard names is in
it once, and no others are. -/
structure Build.Joined (b : Build) (start : Store) (runId : Uuid) (d : Data) : Prop where
  only : OnlyRun b.projectId b.externalId d.store runId
  answered : ∀ k < b.shards.length, ∃ reused, answersOf k d.responses = [(some runId, reused)]
  opener : ∃ k, ∀ j, answersOf j d.responses = [(some runId, false)] ↔ j = k
  once : ∀ shard ∈ b.shards, ∀ testcaseId ∈ known b.projectId shard.caseIds start,
    OnceInRun d.store runId testcaseId
  others : ∀ testcaseId, InRun d.store runId testcaseId →
    ∃ shard ∈ b.shards, testcaseId ∈ known b.projectId shard.caseIds start

omit [Unicode] in
theorem onlyRun_of_key {projectId runId : Uuid} {externalId : String} {s : Store}
    (h : runWithKey projectId externalId s = some runId) :
    OnlyRun projectId externalId s runId := by
  obtain ⟨run, hmem, hkey, hid⟩ := runWithKey_eq_some.mp h
  refine ⟨run, hid, fun r ↦ ⟨?_, ?_⟩⟩
  · rintro ⟨hr, hrkey⟩
    exact s.oneRun r hr run hmem projectId externalId hrkey hkey
  · rintro rfl
    exact ⟨hmem, hkey⟩

omit [Unicode] in
theorem onceInRun_of_inRun {runId testcaseId : Uuid} {s : Store} (h : AllHaveResults s runId)
    (hin : InRun s runId testcaseId) : OnceInRun s runId testcaseId := by
  obtain ⟨item, hitem, hlive, hcycle, hcase⟩ := hin
  obtain ⟨e, he, hof, -⟩ := h item hitem hlive hcycle
  refine ⟨item, e, fun i ↦ ⟨?_, ?_⟩, fun e' ↦ ⟨?_, ?_⟩⟩
  · rintro ⟨hi, hilive, hicycle, hicase⟩
    exact s.oneItem i hi item hitem hilive hlive (hicycle.trans hcycle.symm)
      (hicase.trans hcase.symm)
  · rintro rfl
    exact ⟨hitem, hlive, hcycle, hcase⟩
  · rintro ⟨he', hof'⟩
    exact s.oneResult e' he' e he (hof'.trans hof.symm)
  · rintro rfl
    exact ⟨he, hof⟩

/-- Once every call has ended. -/
theorem Build.Sound.joined (h : b.Sound start d phase) (hne : b.shards ≠ [])
    (hfinal : ∀ k, Final (phase k)) : ∃ runId, b.Joined start runId d := by
  rcases h.run with hrun | ⟨runId, hrun⟩
  · -- a call that has ended has found a run
    have hpos : 0 < b.shards.length := List.length_pos_iff.mpr hne
    have hin : (phase 0).stage ≠ .outside := fun hout ↦ by
      have := (h.outside 0).mp hout
      omega
    rcases hrun.opening 0 with hstage | hstage
    · exact absurd hstage hin
    · have hends := hfinal 0
      unfold Final at hends
      rw [hstage] at hends
      exact hends.elim
  · have hanswered : ∀ k, k < b.shards.length → ∃ reused, (phase k).stage = .answered reused := by
      intro k hk
      have hin : (phase k).stage ≠ .outside := fun hout ↦ by
        have := (h.outside k).mp hout
        omega
      have hends := hfinal k
      have hfits := hrun.fits k
      unfold Final at hends
      unfold Fits at hfits
      cases hstage : (phase k).stage with
      | answered reused => exact ⟨reused, rfl⟩
      | outside => exact absurd hstage hin
      | lost => rw [hstage] at hfits; exact hfits.elim
      | _ => rw [hstage] at hends; exact hends.elim
    have hcaseIds : ∀ k shard, b.shards[k]? = some shard → (phase k).caseIds = shard.caseIds := by
      intro k shard hk
      rw [h.caseIds k]
      unfold Build.first
      rw [hk]
    refine ⟨runId, onlyRun_of_key hrun.key, fun k hk ↦ ?_, ?_,
      fun shard hshard testcaseId hmem ↦ ?_, fun testcaseId hin ↦ ?_⟩
    · obtain ⟨reused, hstage⟩ := hanswered k hk
      refine ⟨reused, ?_⟩
      rw [hrun.answers k, hstage]
      rfl
    · obtain ⟨first, hfirst⟩ := hrun.opener
      refine ⟨first, fun j ↦ ?_⟩
      rw [hrun.answers j, ← hfirst j]
      by_cases hj : j < b.shards.length
      · obtain ⟨reused, hstage⟩ := hanswered j hj
        rw [hstage]
        simp [answersAt, reusedOf]
      · rw [(h.outside j).mpr (by omega)]
        simp [answersAt, reusedOf]
    · obtain ⟨k, hk⟩ := List.getElem?_of_mem hshard
      obtain ⟨reused, hstage⟩ := hanswered k (List.getElem?_eq_some_iff.mp hk).1
      apply onceInRun_of_inRun hrun.results
      refine (hrun.cases testcaseId).mpr ⟨k, ?_, ?_⟩
      · rw [hstage]
        rfl
      · rw [hcaseIds k shard hk]
        exact hmem
    · obtain ⟨k, hattached, hmem⟩ := (hrun.cases testcaseId).mp hin
      cases hk : b.shards[k]? with
      | none =>
          rw [(h.outside k).mpr (List.getElem?_eq_none_iff.mp hk)] at hattached
          cases hattached
      | some shard =>
          rw [hcaseIds k shard hk] at hmem
          exact ⟨shard, List.mem_of_getElem? hk, hmem⟩

/-- Whatever the order of their statements, once every shard has had its turns they have joined one
run. -/
theorem shards_joined (b : Build) (hne : b.shards ≠ []) (hvalid : b.Valid) (store : Store)
    (now : Time) (hnew : runWithKey b.projectId b.externalId store = none) (ks : List ℕ)
    (hks : ∀ k < b.shards.length, 9 ≤ ks.count k) :
    (∀ k, (ks.foldl step (b.start ⟨store, now, []⟩)).pc k = none) ∧
      ∃ runId, b.Joined store runId (ks.foldl step (b.start ⟨store, now, []⟩)).shared := by
  have hended : ∀ k, (ks.foldl step (b.start ⟨store, now, []⟩)).pc k = none := by
    intro k
    by_cases hk : k < b.shards.length
    · apply ended_of_count ks _ (hks k hk)
      intro p hp
      obtain ⟨shard, -, rfl⟩ := Option.map_eq_some_iff.mp hp
      exact within_createRun
    · apply ended_of_count (n := 0) ks _ (Nat.zero_le _)
      intro p hp
      obtain ⟨shard, hshard, -⟩ := Option.map_eq_some_iff.mp hp
      exact hk (List.getElem?_eq_some_iff.mp hshard).1
  refine ⟨hended, ?_⟩
  have hrun : ∀ (ks : List ℕ) c, Concluding turn (b.Sound store) (Legal b.projectId b.externalId)
      Final c → Concluding turn (b.Sound store) (Legal b.projectId b.externalId) Final
        (ks.foldl step c) := by
    intro ks
    induction ks with
    | nil => exact fun c hc ↦ hc
    | cons k ks ih =>
        exact fun c hc ↦ ih _ (Concluding.advance (P := fun _ _ ↦ True)
          (fun d phase j w hsound hlegal _ ↦ hsound.turns hlegal) hc fun _ _ ↦ trivial)
  have hstart : Concluding turn (b.Sound store) (Legal b.projectId b.externalId) Final
      (b.start ⟨store, now, []⟩) := by
    refine ⟨b.first, Build.sound_first b now hnew, fun k ↦ ?_⟩
    unfold Build.start Build.call Build.first
    dsimp only
    cases hk : b.shards[k]? with
    | none => exact trivial
    | some shard => exact passes_createRun (hvalid shard (List.mem_of_getElem? hk))
  obtain ⟨phase, hsound, hcalls⟩ := hrun ks _ hstart
  apply hsound.joined hne
  intro k
  have hcall := hcalls k
  rw [hended k] at hcall
  exact hcall

end Build

/-! ### Two shards that share a case -/

section Example

def shardOf (caseIds : List String) : Shard where
  ownerId := some 9
  body :=
    { name := .value "nightly", externalId := .value "build-7", triggeredBy := .undefined
      caseIds := .entries caseIds, description := .undefined, environment := .undefined
      buildVersion := .undefined, releaseName := .undefined, commitSha := .undefined
      branch := .undefined, buildUrl := .undefined }

def twoShards : Build := ⟨1, "build-7", [shardOf ["TES-1"], shardOf ["tes-1", "TES-9"]]⟩

/-- The statements of both shards in turn. -/
def inTurn : List ℕ := (List.replicate 9 [0, 1]).flatten

theorem shards_joined_two : letI := asciiLetters
    (∀ k, (inTurn.foldl step (twoShards.start ⟨emptyRun, 100, []⟩)).pc k = none) ∧
      ∃ runId, twoShards.Joined emptyRun runId
        (inTurn.foldl step (twoShards.start ⟨emptyRun, 100, []⟩)).shared := by
  let _ := asciiLetters
  apply shards_joined twoShards
  · decide
  · intro shard hshard
    simp only [twoShards, List.mem_cons, List.not_mem_nil, or_false] at hshard
    rcases hshard with rfl | rfl
    · exact ⟨_, rfl, rfl, _, rfl⟩
    · exact ⟨_, rfl, rfl, _, rfl⟩
  · decide +kernel
  · decide

end Example

end Tesbo.Automation.Shards
