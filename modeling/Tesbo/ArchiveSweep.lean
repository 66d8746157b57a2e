import Tesbo.Text
import Tesbo.Reasoning.Assoc
import Tesbo.Reasoning.Pool

/-!
# The archive sweep

Every night the test cases whose tickets are done are proposed for the archive: those with a Jira
ticket project by project, then those with a Linear ticket and those with a Notion page, three at a
time.  A test case may have more than one of them, and then it comes up for each.  What a proposal
or a notification does to the database is left out, and so is what a notification says.
-/

namespace Tesbo.ArchiveSweep

open Reasoning

/-! ## Candidates -/

inductive Provider where
  | jira
  | linear
  | notion
deriving DecidableEq, Repr

structure Candidate where
  id : ℕ
  projectId : ℕ
  jiraIssueKey : Option String
  linearIssueKey : Option String
  notionPageId : Option String
deriving DecidableEq, Repr

def Candidate.key (candidate : Candidate) : Provider → Option String
  | .jira => candidate.jiraIssueKey
  | .linear => candidate.linearIssueKey
  | .notion => candidate.notionPageId

/-- A candidate that comes up for a provider, and what it is called there. -/
structure Link where
  provider : Provider
  candidate : Candidate
  issueKey : String
deriving DecidableEq, Repr

/-! ## Answers -/

inductive Doneness where
  | done
  | notDone
deriving DecidableEq, Repr

inductive LookupReason where
  | ok
  | notConnected
  | notFound
  | unmappedCategory
  | error
deriving DecidableEq, Repr

structure TicketCategoryLookup where
  doneness : Option Doneness
  rawCategory : Option String
  reason : LookupReason
  detail : Option String
deriving DecidableEq, Repr

inductive StageOutcome where
  | staged
  | alreadyStaged
  | skipped
deriving DecidableEq, Repr

/-- What a run finds, and what its calls are answered with; a lookup that throws says why.  Of the
workers for a provider `pick` says which goes on next. -/
structure Setting where
  candidates : List Candidate
  alreadyStaged : ℕ → Bool
  fetchLiveJiraTicketCategoriesBulk : ℕ → List String →
    Except String (String → Option TicketCategoryLookup)
  fetchLiveTicketCategory : Link → Except String TicketCategoryLookup
  stageArchiveSweepProposal : Link → String → Except Failure StageOutcome
  notifyProjectMembers : ℕ → Except Failure ℕ
  pick : Provider → ℕ → ℕ

/-! ## The summary -/

structure ArchiveSweepFailure where
  testcaseId : ℕ
  provider : Provider
  issueKey : String
  reason : LookupReason
  detail : Option String
deriving DecidableEq, Repr

structure ArchiveSweepSummary where
  candidatesFound : ℕ
  checked : ℕ
  staged : ℕ
  alreadyStaged : ℕ
  skippedNotConnected : ℕ
  skippedNotDone : ℕ
  skippedUnmappedCategory : ℕ
  skippedArchivedMeanwhile : ℕ
  failed : ℕ
  failures : List ArchiveSweepFailure
  notifiedProjects : ℕ
  notificationRows : ℕ
  notifyFailures : ℕ
deriving DecidableEq, Repr

/-- What becomes of a candidate that comes up. -/
inductive Outcome where
  | notConnected
  | failed (reason : LookupReason) (detail : Option String)
  | unmappedCategory
  | notDone
  | proposed (outcome : StageOutcome)
deriving DecidableEq, Repr

/-- `settled` is what has become of those that came up so far, and `notified` the projects a
notification was tried for; nothing reads these two. -/
structure Sweep where
  summary : ArchiveSweepSummary
  stagedByProject : Assoc ℕ ℕ
  settled : List (Link × Outcome)
  notified : List ℕ
deriving DecidableEq, Repr

def Sweep.start : Sweep where
  summary := ⟨0, 0, 0, 0, 0, 0, 0, 0, 0, [], 0, 0, 0⟩
  stagedByProject := []
  settled := []
  notified := []

/-- The updates between two calls. -/
inductive Update where
  | check
  | settle (link : Link) (outcome : Outcome)
deriving DecidableEq, Repr

def count (link : Link) (outcome : Outcome) (summary : ArchiveSweepSummary) :
    ArchiveSweepSummary :=
  match outcome with
  | .notConnected => { summary with skippedNotConnected := summary.skippedNotConnected + 1 }
  | .failed reason detail =>
      { summary with
        failed := summary.failed + 1
        failures := summary.failures ++
          [⟨link.candidate.id, link.provider, link.issueKey, reason, detail⟩] }
  | .unmappedCategory =>
      { summary with skippedUnmappedCategory := summary.skippedUnmappedCategory + 1 }
  | .notDone => { summary with skippedNotDone := summary.skippedNotDone + 1 }
  | .proposed .staged => { summary with staged := summary.staged + 1 }
  | .proposed .alreadyStaged => { summary with alreadyStaged := summary.alreadyStaged + 1 }
  | .proposed .skipped =>
      { summary with skippedArchivedMeanwhile := summary.skippedArchivedMeanwhile + 1 }

def perform (update : Update) (s : Sweep) : Sweep :=
  match update with
  | .check => { s with summary.checked := s.summary.checked + 1 }
  | .settle link outcome =>
      { s with
        summary := count link outcome s.summary
        stagedByProject :=
          if outcome = .proposed .staged then
            s.stagedByProject.set link.candidate.projectId
              ((s.stagedByProject.get link.candidate.projectId).getD 0 + 1)
          else s.stagedByProject
        settled := s.settled ++ [(link, outcome)] }

/-! ## A candidate that comes up -/

abbrev SweepJob := Job Failure Update

def Provider.label : Provider → String
  | .jira => "Jira"
  | .linear => "Linear"
  | .notion => "Notion"

def proposalReason (link : Link) (result : TicketCategoryLookup) : String :=
  let issueKey := link.issueKey
  let label := link.provider.label
  -- a template writes a missing category as "null"
  let category := "\"" ++ result.rawCategory.getD "null" ++ "\""
  if link.provider = .notion then
    s!"Zyra's archive sweep found the linked Notion page {issueKey} is archived or in the " ++
      "trash, so this test case may no longer be needed. Review before archiving."
  else
    s!"Zyra's archive sweep found the linked {label} ticket {issueKey}'s status category is " ++
      s!"{category} (done), so this test case may no longer be needed. Review before archiving."

def handleResult (w : Setting) (link : Link) (result : TicketCategoryLookup) : SweepJob :=
  if result.reason = .notConnected then .step (.settle link .notConnected) .done
  else
    .step .check
      (if result.reason = .notFound ∨ result.reason = .error then
        .step (.settle link (.failed result.reason result.detail)) .done
      else
        match result.doneness with
        | none => .step (.settle link .unmappedCategory) .done
        | some .notDone => .step (.settle link .notDone) .done
        | some .done =>
            match w.stageArchiveSweepProposal link (proposalReason link result) with
            | .ok outcome => .step (.settle link (.proposed outcome)) .done
            | .error e => .throw e)

/-- A lookup that threw. -/
def crashed (message : String) : Outcome := .failed .error (some (jsSlice 300 message))

def missingFromBulkResult : TicketCategoryLookup :=
  ⟨none, none, .error, some "missing from bulk result"⟩

abbrev Run := Service Failure Sweep Unit

def processJira (w : Setting) (links : List Link) : Run :=
  Service.forEach (fun (projectId, group) ↦
    match w.fetchLiveJiraTicketCategoriesBulk projectId (group.map Link.issueKey) with
    | .error message =>
        Service.forEach (fun link ↦ Service.write (perform (.settle link (crashed message)))) group
    | .ok results =>
        Service.forEach (fun link ↦
          (handleResult w link ((results link.issueKey).getD missingFromBulkResult)).exec perform)
          group)
    (Assoc.groupBy (fun link ↦ link.candidate.projectId) links)

def zyraArchiveSweepLinearConcurrency : ℕ := 3

def lookUp (w : Setting) (link : Link) : SweepJob :=
  match w.fetchLiveTicketCategory link with
  | .error message => .step (.settle link (crashed message)) .done
  | .ok result => handleResult w link result

/-- `processLinear` and `processNotion` -/
def processEach (w : Setting) (provider : Provider) (links : List Link) : Run :=
  mapWithConcurrency perform zyraArchiveSweepLinearConcurrency (w.pick provider)
    (links.map (lookUp w))

/-! ## The run -/

def notify (w : Setting) (projectId : ℕ) (s : Sweep) : Sweep :=
  let summary := match w.notifyProjectMembers projectId with
    | .ok rows =>
        { s.summary with
          notifiedProjects := s.summary.notifiedProjects + if 0 < rows then 1 else 0
          notificationRows := s.summary.notificationRows + rows }
    | .error _ => { s.summary with notifyFailures := s.summary.notifyFailures + 1 }
  { s with summary := summary, notified := s.notified ++ [projectId] }

def notifyStagedProjects (w : Setting) : Run := do
  let stagedByProject ← Service.query Sweep.stagedByProject
  Service.forEach (fun (projectId, count) ↦
    if count ≤ 0 then pure () else Service.write (notify w projectId)) stagedByProject

def pending (w : Setting) : List Candidate :=
  w.candidates.filter fun candidate ↦ !w.alreadyStaged candidate.id

/-- The candidates with a key that is not empty. -/
def linksTo (provider : Provider) (candidates : List Candidate) : List Link :=
  candidates.filterMap fun candidate ↦
    ((candidate.key provider).filter (· ≠ "")).map (Link.mk provider candidate)

def run (w : Setting) : Run := do
  Service.write fun s ↦ { s with summary.candidatesFound := w.candidates.length }
  Service.write fun s ↦
    { s with summary.alreadyStaged := s.summary.alreadyStaged +
        (w.candidates.filter fun candidate ↦ w.alreadyStaged candidate.id).length }
  processJira w (linksTo .jira (pending w))
  processEach w .linear (linksTo .linear (pending w))
  processEach w .notion (linksTo .notion (pending w))
  notifyStagedProjects w

/-! ## What each candidate comes to on its own -/

/-- Those that come up, for each provider they are linked to. -/
def links (w : Setting) : List Link :=
  linksTo .jira (pending w) ++ (linksTo .linear (pending w) ++ linksTo .notion (pending w))

/-- The tickets of a project are looked up together, the others one by one. -/
def answerOf (w : Setting) (link : Link) : Except String TicketCategoryLookup :=
  match link.provider with
  | .jira =>
      let group := (linksTo .jira (pending w)).filter fun other ↦
        other.candidate.projectId = link.candidate.projectId
      (w.fetchLiveJiraTicketCategoriesBulk link.candidate.projectId
        (group.map Link.issueKey)).map fun results ↦
          (results link.issueKey).getD missingFromBulkResult
  | .linear | .notion => w.fetchLiveTicketCategory link

def outcomeOf (w : Setting) (link : Link) (result : TicketCategoryLookup) :
    Except Failure Outcome :=
  if result.reason = .notConnected then .ok .notConnected
  else if result.reason = .notFound ∨ result.reason = .error then
    .ok (.failed result.reason result.detail)
  else
    match result.doneness with
    | none => .ok .unmappedCategory
    | some .notDone => .ok .notDone
    | some .done =>
        (w.stageArchiveSweepProposal link (proposalReason link result)).map .proposed

/-- The outcome of a candidate, from its own answers; the failure is its staging call's. -/
def verdict (w : Setting) (link : Link) : Except Failure Outcome :=
  match answerOf w link with
  | .error message => .ok (crashed message)
  | .ok result => outcomeOf w link result

/-! ## Each comes up once -/

variable {w : Setting} {link : Link} {outcome : Outcome} {s : Sweep}

def weight : Update → Multiset (Link × Outcome)
  | .check => 0
  | .settle link outcome => {(link, outcome)}

def settledSoFar (s : Sweep) : Multiset (Link × Outcome) := s.settled

theorem settledSoFar_perform (update : Update) (s : Sweep) :
    settledSoFar (perform update s) = settledSoFar s + weight update := by
  cases update with
  | check => exact (add_zero _).symm
  | settle link outcome => rfl

/-- The job settles its candidate, once. -/
def Settles (job : SweepJob) (link : Link) (outcome : Outcome) : Prop :=
  ¬ job.Throws ∧ job.total weight = {(link, outcome)}

theorem settles_settle : Settles (.step (.settle link outcome) .done) link outcome :=
  ⟨fun h ↦ h, add_zero _⟩

theorem Settles.check {job : SweepJob} (h : Settles job link outcome) :
    Settles (.step .check job) link outcome :=
  ⟨h.1, (zero_add _).trans h.2⟩

theorem settles_handleResult {result : TicketCategoryLookup}
    (h : outcomeOf w link result = .ok outcome) :
    Settles (handleResult w link result) link outcome := by
  unfold handleResult
  unfold outcomeOf at h
  by_cases hconnected : result.reason = .notConnected
  · rw [if_pos hconnected] at h ⊢
    obtain rfl := Except.ok.inj h
    exact settles_settle
  rw [if_neg hconnected] at h ⊢
  apply Settles.check
  by_cases hfailed : result.reason = .notFound ∨ result.reason = .error
  · rw [if_pos hfailed] at h ⊢
    obtain rfl := Except.ok.inj h
    exact settles_settle
  rw [if_neg hfailed] at h ⊢
  cases hdoneness : result.doneness with
  | none =>
      rw [hdoneness] at h
      obtain rfl := Except.ok.inj h
      exact settles_settle
  | some doneness =>
      rw [hdoneness] at h
      cases doneness with
      | notDone =>
          obtain rfl := Except.ok.inj h
          exact settles_settle
      | done =>
          dsimp only at h ⊢
          cases hstage : w.stageArchiveSweepProposal link (proposalReason link result) with
          | error e =>
              rw [hstage] at h
              cases h
          | ok stage =>
              rw [hstage] at h
              obtain rfl := Except.ok.inj h
              exact settles_settle

/-- A lookup of its own. -/
theorem settles_lookUp (hprovider : link.provider ≠ .jira) (h : verdict w link = .ok outcome) :
    Settles (lookUp w link) link outcome := by
  have hanswer : answerOf w link = w.fetchLiveTicketCategory link := by
    unfold answerOf
    cases hlink : link.provider with
    | jira => exact absurd hlink hprovider
    | linear => rfl
    | notion => rfl
  unfold verdict at h
  rw [hanswer] at h
  unfold lookUp
  cases hlookup : w.fetchLiveTicketCategory link with
  | error message =>
      rw [hlookup] at h
      obtain rfl := Except.ok.inj h
      exact settles_settle
  | ok result =>
      rw [hlookup] at h
      exact settles_handleResult h

/-- The links that are to be settled so, one each. -/
def each (outcome : Link → Outcome) (links : List Link) : Multiset (Link × Outcome) :=
  (links.map fun link ↦ ({(link, outcome link)} : Multiset (Link × Outcome))).sum

variable {outcomes : Link → Outcome} {group : List Link}

theorem each_eq_coe (outcome : Link → Outcome) (links : List Link) :
    each outcome links = ((links.map fun link ↦ (link, outcome link) : List _) : Multiset _) := by
  unfold each
  induction links with
  | nil => rfl
  | cons link links ih =>
      rw [List.map_cons, List.sum_cons, ih]
      rfl

theorem each_append (group group' : List Link) :
    each outcomes (group ++ group') = each outcomes group + each outcomes group' := by
  unfold each
  rw [List.map_append, List.sum_append]

/-- The groups are settled when their elements are. -/
theorem sum_each_groupBy (links : List Link) :
    ((Assoc.groupBy (fun link ↦ link.candidate.projectId) links).map
      fun e ↦ each outcomes e.2).sum = each outcomes links := by
  have hflat : ∀ groups : Assoc ℕ (List Link),
      (groups.map fun e ↦ each outcomes e.2).sum = each outcomes (groups.flatMap Prod.snd) := by
    intro groups
    induction groups with
    | nil => rfl
    | cons e groups ih =>
        rw [List.map_cons, List.sum_cons, ih, List.flatMap_cons, each_append]
  rw [hflat]
  exact ((Assoc.perm_groupBy links).map _).sum_eq

theorem mem_linksTo {provider : Provider} {candidates : List Candidate} :
    link ∈ linksTo provider candidates ↔ link.provider = provider ∧ link.candidate ∈ candidates ∧
      link.candidate.key provider = some link.issueKey ∧ link.issueKey ≠ "" := by
  unfold linksTo
  rw [List.mem_filterMap]
  constructor
  · intro ⟨candidate, hmem, h⟩
    obtain ⟨key, hkey, rfl⟩ := Option.map_eq_some_iff.mp h
    rw [Option.filter_eq_some_iff, decide_eq_true_eq] at hkey
    exact ⟨rfl, hmem, hkey.1, hkey.2⟩
  · intro ⟨hprovider, hmem, hkey, hne⟩
    refine ⟨link.candidate, hmem, Option.map_eq_some_iff.mpr ⟨link.issueKey, ?_, ?_⟩⟩
    · rw [Option.filter_eq_some_iff, decide_eq_true_eq]
      exact ⟨hkey, hne⟩
    · rw [← hprovider]

/-- Workers or not, each candidate of the provider is settled. -/
theorem processEach_ok {provider : Provider} (hprovider : provider ≠ .jira)
    (h : ∀ link ∈ linksTo provider (pending w), verdict w link = .ok (outcomes link)) :
    ∃ s', processEach w provider (linksTo provider (pending w)) s = (.ok (), s') ∧
      settledSoFar s' = settledSoFar s + each outcomes (linksTo provider (pending w)) := by
  have hsettles : ∀ link ∈ linksTo provider (pending w),
      Settles (lookUp w link) link (outcomes link) := by
    intro link hlink
    refine settles_lookUp ?_ (h link hlink)
    rw [(mem_linksTo.mp hlink).1]
    exact hprovider
  have hquiet : ∀ job ∈ (linksTo provider (pending w)).map (lookUp w), ¬ job.Throws := by
    intro job hjob
    obtain ⟨link, hlink, rfl⟩ := List.mem_map.mp hjob
    exact (hsettles link hlink).1
  obtain ⟨s', hrun, htotal⟩ := mapWithConcurrency_ok (s := s) zyraArchiveSweepLinearConcurrency
    (w.pick provider) settledSoFar_perform hquiet
  refine ⟨s', hrun, htotal.trans (congrArg (settledSoFar s + ·) ?_)⟩
  unfold each
  rw [List.map_map]
  exact congrArg List.sum (List.map_congr_left fun link hlink ↦ (hsettles link hlink).2)

/-- Project by project, each candidate with a Jira ticket is settled. -/
theorem processJira_ok
    (h : ∀ link ∈ linksTo .jira (pending w), verdict w link = .ok (outcomes link)) :
    ∃ s', processJira w (linksTo .jira (pending w)) s = (.ok (), s') ∧
      settledSoFar s' = settledSoFar s + each outcomes (linksTo .jira (pending w)) := by
  rw [← sum_each_groupBy]
  refine forEach_ok fun ⟨projectId, group⟩ hgroup s ↦ ?_
  have hmembers := Assoc.mem_groupBy hgroup
  dsimp only at hmembers ⊢
  -- a candidate of the group is looked up with the whole of it
  have hanswer : ∀ link ∈ group, link ∈ linksTo .jira (pending w) ∧ answerOf w link =
      (w.fetchLiveJiraTicketCategoriesBulk projectId (group.map Link.issueKey)).map
        fun results ↦ (results link.issueKey).getD missingFromBulkResult := by
    intro link hlink
    rw [hmembers] at hlink
    obtain ⟨hjira, hproject⟩ := List.mem_filter.mp hlink
    rw [decide_eq_true_eq] at hproject
    refine ⟨hjira, ?_⟩
    unfold answerOf
    rw [(mem_linksTo.mp hjira).1, hmembers, ← hproject]
  cases hbulk : w.fetchLiveJiraTicketCategoriesBulk projectId (group.map Link.issueKey) with
  | error message =>
      refine forEach_ok fun link hlink s ↦ ⟨_, rfl, ?_⟩
      obtain ⟨hjira, hlookup⟩ := hanswer link hlink
      have hverdict := h link hjira
      unfold verdict at hverdict
      rw [hlookup, hbulk] at hverdict
      rw [settledSoFar_perform, ← Except.ok.inj hverdict]
      rfl
  | ok results =>
      refine forEach_ok fun link hlink s ↦ ?_
      obtain ⟨hjira, hlookup⟩ := hanswer link hlink
      have hverdict := h link hjira
      unfold verdict at hverdict
      rw [hlookup, hbulk] at hverdict
      obtain ⟨hquiet, htotal⟩ := settles_handleResult hverdict
      rw [← htotal]
      exact exec_ok settledSoFar_perform hquiet

/-! ## What the counters say -/

/-- Of those that have been settled, the ones of a project that were staged. -/
def stagedIn (projectId : ℕ) (settled : List (Link × Outcome)) : ℕ :=
  settled.countP fun e ↦ e.1.candidate.projectId = projectId ∧ e.2 = .proposed .staged

/-- The candidates a summary tells the outcome of. -/
def ArchiveSweepSummary.accounted (summary : ArchiveSweepSummary) : ℕ :=
  summary.staged + summary.alreadyStaged + summary.skippedNotConnected + summary.skippedNotDone +
    summary.skippedUnmappedCategory + summary.skippedArchivedMeanwhile + summary.failed

/-- The counters and the projects agree with what has been settled; `before` had a proposal
already. -/
structure Counted (found before : ℕ) (s : Sweep) : Prop where
  found : s.summary.candidatesFound = found
  accounted : s.summary.accounted = before + s.settled.length
  nodup : (s.stagedByProject.map Prod.fst).Nodup
  positive : ∀ e ∈ s.stagedByProject, 0 < e.2
  staged : ∀ projectId, (s.stagedByProject.get projectId).getD 0 = stagedIn projectId s.settled
  notified : s.notified = []

theorem accounted_count (summary : ArchiveSweepSummary) :
    (count link outcome summary).accounted = summary.accounted + 1 := by
  unfold ArchiveSweepSummary.accounted
  cases outcome with
  | proposed stage => cases stage <;> simp only [count] <;> omega
  | notConnected => simp only [count]; omega
  | failed reason detail => simp only [count]; omega
  | unmappedCategory => simp only [count]; omega
  | notDone => simp only [count]; omega

theorem candidatesFound_count (summary : ArchiveSweepSummary) :
    (count link outcome summary).candidatesFound = summary.candidatesFound := by
  cases outcome with
  | proposed stage => cases stage <;> rfl
  | _ => rfl

theorem stagedIn_append (projectId : ℕ) (settled : List (Link × Outcome)) :
    stagedIn projectId (settled ++ [(link, outcome)]) = stagedIn projectId settled +
      if link.candidate.projectId = projectId ∧ outcome = .proposed .staged then 1 else 0 := by
  unfold stagedIn
  rw [List.countP_append, List.countP_singleton]
  simp only [decide_eq_true_eq]

variable {found before : ℕ}

theorem Counted.perform (update : Update) (h : Counted found before s) :
    Counted found before (perform update s) := by
  cases update with
  | check => exact ⟨h.found, h.accounted, h.nodup, h.positive, h.staged, h.notified⟩
  | settle link outcome =>
      refine ⟨(candidatesFound_count _).trans h.found, ?_, ?_, ?_, ?_, h.notified⟩
      · change (count link outcome s.summary).accounted = before + (s.settled ++ [_]).length
        rw [accounted_count, h.accounted, List.length_append]
        rfl
      · dsimp only [ArchiveSweep.perform]
        split
        · exact Assoc.nodup_set h.nodup _ _
        · exact h.nodup
      · dsimp only [ArchiveSweep.perform]
        split
        · intro e he
          rcases Assoc.mem_set he with rfl | he
          · exact Nat.succ_pos _
          · exact h.positive e he
        · exact h.positive
      · intro projectId
        change (Assoc.get (if outcome = .proposed .staged then _ else _) projectId).getD 0 =
          stagedIn projectId (s.settled ++ [(link, outcome)])
        rw [stagedIn_append, ← h.staged projectId]
        by_cases hstaged : outcome = .proposed .staged
        · rw [if_pos hstaged, Assoc.get_set]
          by_cases hproject : projectId = link.candidate.projectId
          · rw [if_pos hproject, if_pos ⟨hproject.symm, hstaged⟩, hproject, Option.getD_some]
          · rw [if_neg hproject, if_neg fun h ↦ hproject h.1.symm]
            rfl
        · rw [if_neg hstaged, if_neg fun h ↦ hstaged h.2]
          rfl

/-! ## Notifications -/

/-- A notification is tried for each project with a count, and changes no outcome. -/
theorem notifyStagedProjects_ok (h : ∀ e ∈ s.stagedByProject, 0 < e.2) :
    ∃ s', notifyStagedProjects w s = (.ok (), s') ∧ s'.settled = s.settled ∧
      s'.summary.candidatesFound = s.summary.candidatesFound ∧
      s'.summary.accounted = s.summary.accounted ∧
      s'.notified = s.notified ++ s.stagedByProject.map Prod.fst := by
  have hloop : ∀ (entries : Assoc ℕ ℕ) (s : Sweep), (∀ e ∈ entries, 0 < e.2) →
      ∃ s', Service.forEach (fun (projectId, count) ↦
          if count ≤ 0 then pure () else Service.write (notify w projectId)) entries s =
            ((.ok (), s') : Except Failure Unit × Sweep) ∧ s'.settled = s.settled ∧
        s'.summary.candidatesFound = s.summary.candidatesFound ∧
        s'.summary.accounted = s.summary.accounted ∧
        s'.notified = s.notified ++ entries.map Prod.fst := by
    intro entries
    induction entries with
    | nil => exact fun s _ ↦ ⟨s, rfl, rfl, rfl, rfl, (List.append_nil _).symm⟩
    | cons e entries ih =>
        intro s hentries
        obtain ⟨s', hrun, hsettled, hfound, haccounted, hnotified⟩ :=
          ih (notify w e.1 s) fun e' he' ↦ hentries e' (List.mem_cons_of_mem _ he')
        have hpos := hentries e List.mem_cons_self
        -- whether the call answers or throws, only the counters of notifications move
        have hsummary : (notify w e.1 s).summary.candidatesFound = s.summary.candidatesFound ∧
            (notify w e.1 s).summary.accounted = s.summary.accounted := by
          unfold notify
          cases w.notifyProjectMembers e.1 with
          | ok rows => exact ⟨rfl, rfl⟩
          | error e => exact ⟨rfl, rfl⟩
        refine ⟨s', ?_, hsettled, hfound.trans hsummary.1, haccounted.trans hsummary.2, ?_⟩
        · rw [Service.forEach, Service.bind_apply]
          dsimp only
          rw [if_neg (Nat.not_le.mpr hpos)]
          exact hrun
        · rw [hnotified]
          change s.notified ++ [e.1] ++ entries.map Prod.fst = _
          rw [List.append_assoc]
          rfl
  exact hloop s.stagedByProject s h

/-! ## A whole run -/

/-- The providers a candidate comes up for. -/
def Candidate.providers (candidate : Candidate) : List Provider :=
  [.jira, .linear, .notion].filter fun provider ↦
    ((candidate.key provider).filter (· ≠ "")).isSome

/-- None of the staging calls a run comes to throws. -/
def StagingAnswers (w : Setting) : Prop := ∀ link ∈ links w, ∃ outcome, verdict w link = .ok outcome

/-- The candidates that had a proposal already and the others, which come up once for each of their
providers: each time with the outcome that their own answers give, whatever throws elsewhere. -/
structure SettledAll (w : Setting) (s : Sweep) : Prop where
  found : s.summary.candidatesFound = w.candidates.length
  accounted : s.summary.accounted =
    (w.candidates.filter fun candidate ↦ w.alreadyStaged candidate.id).length +
      ((pending w).map fun candidate ↦ candidate.providers.length).sum
  balanced : (∀ candidate ∈ pending w, candidate.providers.length = 1) →
    s.summary.candidatesFound = s.summary.accounted
  once : (s.settled.map Prod.fst).Perm (links w)
  own : ∀ e ∈ s.settled, verdict w e.1 = .ok e.2
  notifiedOnce : s.notified.Nodup
  notified : ∀ projectId, projectId ∈ s.notified ↔
    ∃ e ∈ s.settled, e.1.candidate.projectId = projectId ∧ e.2 = .proposed .staged

theorem length_linksTo (provider : Provider) (candidates : List Candidate) :
    (linksTo provider candidates).length = (candidates.map fun candidate ↦
      if ((candidate.key provider).filter (· ≠ "")).isSome then 1 else 0).sum := by
  unfold linksTo
  induction candidates with
  | nil => rfl
  | cons candidate candidates ih =>
      rw [List.map_cons, List.sum_cons, ← ih, List.filterMap_cons]
      cases (candidate.key provider).filter (· ≠ "") with
      | none => exact (Nat.zero_add _).symm
      | some key => exact Nat.add_comm _ _

theorem length_links (w : Setting) :
    (links w).length = ((pending w).map fun candidate ↦ candidate.providers.length).sum := by
  unfold links
  rw [List.length_append, List.length_append, length_linksTo, length_linksTo, length_linksTo,
    ← List.sum_map_add, ← List.sum_map_add]
  congr 1
  refine List.map_congr_left fun candidate _ ↦ ?_
  rw [← Nat.add_assoc]
  simp only [Candidate.providers, ← List.countP_eq_length_filter, List.countP_cons,
    List.countP_nil, Nat.zero_add]
  omega

theorem length_settled {settled : List (Link × Outcome)}
    (h : (settled.map Prod.fst).Perm (links w)) : settled.length = (links w).length := by
  rw [← h.length_eq, List.length_map]

theorem getD_get_pos {m : Assoc ℕ ℕ} (hm : (m.map Prod.fst).Nodup) (hpos : ∀ e ∈ m, 0 < e.2)
    {projectId : ℕ} : projectId ∈ m.map Prod.fst ↔ 0 < (m.get projectId).getD 0 := by
  constructor
  · intro h
    obtain ⟨e, he, rfl⟩ := List.mem_map.mp h
    rw [Assoc.get_of_mem hm he]
    exact hpos e he
  · intro h
    cases hget : m.get projectId with
    | none =>
        rw [hget] at h
        exact absurd h (Nat.lt_irrefl 0)
    | some n => exact List.mem_map_of_mem (Assoc.mem_of_get hget)

/-- The state the providers are gone through from. -/
def counted (w : Setting) : Sweep :=
  { Sweep.start with
    summary.candidatesFound := w.candidates.length
    summary.alreadyStaged :=
      0 + (w.candidates.filter fun candidate ↦ w.alreadyStaged candidate.id).length }

theorem counted_counted (w : Setting) : Counted w.candidates.length
    (w.candidates.filter fun candidate ↦ w.alreadyStaged candidate.id).length (counted w) := by
  refine ⟨rfl, ?_, List.nodup_nil, fun e he ↦ (by cases he), fun _ ↦ rfl, rfl⟩
  simp only [counted, Sweep.start, ArchiveSweepSummary.accounted, List.length_nil]
  omega

theorem counted_processEach (provider : Provider) (group : List Link)
    (h : Counted found before s) : Counted found before (processEach w provider group s).2 :=
  inv_mapWithConcurrency (fun update _ h ↦ h.perform update) h

theorem counted_processJira (group : List Link) (h : Counted found before s) :
    Counted found before (processJira w group s).2 := by
  refine inv_forEach (fun e _ s h ↦ ?_) h
  dsimp only
  cases w.fetchLiveJiraTicketCategoriesBulk e.1 (e.2.map Link.issueKey) with
  | error message =>
      exact inv_forEach (fun link _ s h ↦ h.perform (.settle link (crashed message))) h
  | ok results =>
      exact inv_forEach (fun link _ s h ↦ inv_exec (fun update _ h ↦ h.perform update) h) h

/-- The candidates are settled before anyone is notified. -/
theorem settledAll_notify {s' : Sweep} {outcomes : Link → Outcome}
    (houtcomes : ∀ link ∈ links w, verdict w link = .ok (outcomes link))
    (hcounted : Counted w.candidates.length
      (w.candidates.filter fun candidate ↦ w.alreadyStaged candidate.id).length s)
    (hsettled : s.settled.Perm ((links w).map fun link ↦ (link, outcomes link)))
    (hsame : s'.settled = s.settled)
    (hfound : s'.summary.candidatesFound = s.summary.candidatesFound)
    (haccounted : s'.summary.accounted = s.summary.accounted)
    (hnotified : s'.notified = s.notified ++ s.stagedByProject.map Prod.fst) :
    SettledAll w s' := by
  have honce : (s.settled.map Prod.fst).Perm (links w) := by
    have hfirst := hsettled.map Prod.fst
    rwa [List.map_map, show (Prod.fst ∘ fun link ↦ (link, outcomes link)) = id from rfl,
      List.map_id] at hfirst
  rw [hcounted.found] at hfound
  rw [hcounted.accounted, length_settled honce, length_links] at haccounted
  rw [hcounted.notified, List.nil_append] at hnotified
  refine ⟨hfound, haccounted, fun hsingle ↦ ?_, hsame ▸ honce, ?_, hnotified ▸ hcounted.nodup, ?_⟩
  · -- one candidate, one provider
    rw [hfound, haccounted, List.map_congr_left hsingle, List.map_const', List.sum_replicate,
      smul_eq_mul, Nat.mul_one, pending, Nat.add_comm]
    have := w.candidates.length_eq_length_filter_add fun candidate ↦ !w.alreadyStaged candidate.id
    simpa only [Bool.not_not] using this
  · intro e he
    rw [hsame, hsettled.mem_iff] at he
    obtain ⟨link, hlink, rfl⟩ := List.mem_map.mp he
    exact houtcomes link hlink
  · intro projectId
    rw [hnotified, getD_get_pos hcounted.nodup hcounted.positive, hcounted.staged, hsame]
    unfold stagedIn
    rw [List.countP_pos_iff]
    simp only [decide_eq_true_eq]

/-- Whatever is looked up, and whichever lookups and notifications throw, a run whose staging calls
do not throw returns, and has settled each candidate for each of its providers. -/
theorem settledAll_run (w : Setting) (h : StagingAnswers w) :
    ∃ s, run w .start = (.ok (), s) ∧ SettledAll w s := by
  obtain ⟨outcomes, houtcomes⟩ : ∃ outcomes : Link → Outcome,
      ∀ link ∈ links w, verdict w link = .ok (outcomes link) := by
    have hinhabited : Nonempty Outcome := ⟨.notDone⟩
    choose! outcomes houtcomes using h
    exact ⟨outcomes, houtcomes⟩
  have hall := houtcomes
  unfold links at hall
  rw [List.forall_mem_append, List.forall_mem_append] at hall
  obtain ⟨hjira, hlinear, hnotion⟩ := hall
  -- the providers one after the other
  obtain ⟨s₁, hrun₁, htotal₁⟩ := processJira_ok (s := counted w) hjira
  obtain ⟨s₂, hrun₂, htotal₂⟩ := processEach_ok (s := s₁) (by decide) hlinear
  obtain ⟨s₃, hrun₃, htotal₃⟩ := processEach_ok (s := s₂) (by decide) hnotion
  have hcounted₁ := counted_processJira (w := w) (linksTo .jira (pending w)) (counted_counted w)
  rw [hrun₁] at hcounted₁
  have hcounted₂ := counted_processEach (w := w) .linear (linksTo .linear (pending w)) hcounted₁
  rw [hrun₂] at hcounted₂
  have hcounted := counted_processEach (w := w) .notion (linksTo .notion (pending w)) hcounted₂
  rw [hrun₃] at hcounted
  have hsettled : s₃.settled.Perm ((links w).map fun link ↦ (link, outcomes link)) := by
    refine Multiset.coe_eq_coe.mp ?_
    rw [← each_eq_coe]
    change settledSoFar s₃ = _
    have hstart : settledSoFar (counted w) = 0 := rfl
    rw [htotal₃, htotal₂, htotal₁, hstart, zero_add, links, each_append, each_append, add_assoc]
  obtain ⟨s, hnotify, hsame, hfound, haccounted, hnotified⟩ :=
    notifyStagedProjects_ok (w := w) hcounted.positive
  refine ⟨s, ?_, settledAll_notify houtcomes hcounted hsettled hsame hfound haccounted hnotified⟩
  unfold run
  change (processJira w _ >>= fun _ ↦ _) (counted w) = _
  rw [Service.bind_apply, hrun₁]
  dsimp only
  rw [Service.bind_apply, hrun₂]
  dsimp only
  rw [Service.bind_apply, hrun₃]
  exact hnotify

def ticketDone : TicketCategoryLookup := ⟨some .done, some "done", .ok, none⟩

/-- Two candidates of a project, the first of which has two tickets that are done; the lookup of the
other one's throws. -/
def twoTickets : Setting where
  candidates := [⟨1, 7, some "A-1", some "ENG-1", none⟩, ⟨2, 7, none, some "ENG-2", none⟩]
  alreadyStaged _ := false
  fetchLiveJiraTicketCategoriesBulk _ _ := .ok fun _ ↦ some ticketDone
  fetchLiveTicketCategory link :=
    if link.issueKey = "ENG-1" then .ok ticketDone else .error "timeout"
  stageArchiveSweepProposal link _ :=
    .ok (if link.provider = .jira then .staged else .alreadyStaged)
  notifyProjectMembers _ := .ok 1
  pick _ := id

theorem settledAll_twoTickets : StagingAnswers twoTickets ∧
    ∃ s, run twoTickets .start = (.ok (), s) ∧ SettledAll twoTickets s := by
  have hstaging : StagingAnswers twoTickets := by
    have hall : ∀ link ∈ links twoTickets, (verdict twoTickets link).toOption.isSome = true := by
      decide +kernel
    intro link hlink
    cases hverdict : verdict twoTickets link with
    | ok outcome => exact ⟨outcome, rfl⟩
    | error e =>
        have := hall link hlink
        rw [hverdict] at this
        cases this
  exact ⟨hstaging, settledAll_run twoTickets hstaging⟩

/-- It is staged for one ticket and already staged for the other: two candidates count three. -/
theorem unbalanced_twoTickets : ¬ ∃ s, run twoTickets .start = (.ok (), s) ∧
    s.summary.candidatesFound = s.summary.accounted := by
  have hcounts : (run twoTickets .start).2.summary.candidatesFound = 2 ∧
      (run twoTickets .start).2.summary.accounted = 3 := by decide +kernel
  intro ⟨s, hrun, hbalanced⟩
  rw [hrun] at hcounts
  rw [hcounts.1, hcounts.2] at hbalanced
  cases hbalanced

end Tesbo.ArchiveSweep
