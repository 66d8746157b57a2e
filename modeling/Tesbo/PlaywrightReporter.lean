import Tesbo.AutomationRuns

/-!
# The reporter for Playwright

Each attempt of a tagged test is counted and posted as it ends; nothing waits for the answer before
the next attempt, and a post that fails is sent again.  What the service gets is therefore any number
of requests for each post, under way at the same time.  The case id a test is tagged with is taken
as read, evidence is left out.
-/

namespace Tesbo

/-- Letter case where JavaScript's mapping of ASCII text is the ASCII mapping, too. -/
class LetterCase extends Unicode where
  toLowerCase_ascii : ∀ s : String, (∀ c ∈ s.toList, c.toNat < 128) →
    toLowerCase s = String.ofList (s.toList.map Char.toLower)

@[reducible] def asciiLetters : LetterCase :=
  { asciiCase with toLowerCase_ascii := fun _ _ ↦ rfl }

namespace Automation

open Reasoning Proc

/-! ## One result -/

inductive TestStatus where
  | passed
  | failed
  | timedOut
  | skipped
  | interrupted
deriving DecidableEq, Repr

/-- `STATUS_MAP` -/
def statusMap : TestStatus → String
  | .passed => "pass"
  | .failed => "fail"
  | .skipped => "skip"
  | .timedOut => "timedOut"
  | .interrupted => "interrupted"

structure TestError where
  message : Option String
  stack : Option String
deriving DecidableEq, Repr

structure TestResult where
  status : TestStatus
  duration : ℤ
  retry : ℕ
  error : Option TestError
  errors : List TestError
deriving DecidableEq, Repr

/-- What follows `[0-9;]*m`. -/
def afterAnsi : List Char → Option (List Char)
  | [] => none
  | c :: cs =>
      if c = 'm' then some cs
      else if c.isDigit || c = ';' then afterAnsi cs
      else none

/-- `replace(ANSI_SGR, "")`, on at most `n` characters. -/
def stripAnsi : ℕ → List Char → List Char
  | 0, _ => []
  | _, [] => []
  | n + 1, c :: cs =>
      match (if c.toNat = 27 then cs else []) with
      | '[' :: rest =>
          match afterAnsi rest with
          | some after => stripAnsi n after
          | none => c :: stripAnsi n cs
      | _ => c :: stripAnsi n cs

/-- The text of the error, without colours; an empty one is left out. -/
def errorMessage (result : TestResult) : Option String :=
  let raw := (result.error.bind TestError.message).or (result.errors.head?.bind TestError.message)
  match raw with
  | none | some "" => none
  | some text =>
      let message := jsTrim (String.ofList (stripAnsi text.length text.toList))
      if message = "" then none else some message

def optional {α : Type} : Option α → Arg α
  | none => .undefined
  | some a => .value a

structure Post where
  caseId : String
  result : TestResult
deriving DecidableEq, Repr

/-- The body of the request. -/
def Post.body (p : Post) : ResultBody where
  caseId := .value p.caseId
  status := .value (.text (statusMap p.result.status))
  durationMs := .value p.result.duration
  retryCount := .value p.result.retry
  errorMessage := optional (errorMessage p.result)
  errorStack := optional (p.result.error.bind TestError.stack)

/-! ## A session -/

/-- A test that has ended, with the case it is tagged with. -/
structure TestEnd where
  caseId : Option String
  malformed : Bool
  result : TestResult
deriving DecidableEq, Repr

structure Counters where
  passed : ℕ
  failed : ℕ
  skipped : ℕ
  untagged : ℕ
  malformed : ℕ
deriving DecidableEq, Repr

/-- The counters, and what has been posted in order. -/
structure Reporter where
  counters : Counters
  posts : List Post
deriving DecidableEq, Repr

def Counters.count (c : Counters) : TestStatus → Counters
  | .passed => { c with passed := c.passed + 1 }
  | .skipped => { c with skipped := c.skipped + 1 }
  | _ => { c with failed := c.failed + 1 }

def Reporter.onTestEnd (r : Reporter) (test : TestEnd) : Reporter :=
  match test.caseId with
  | none =>
      if test.malformed then
        { r with counters := { r.counters with malformed := r.counters.malformed + 1 } }
      else { r with counters := { r.counters with untagged := r.counters.untagged + 1 } }
  | some caseId =>
      { counters := r.counters.count test.result.status
        posts := r.posts ++ [⟨caseId, test.result⟩] }

/-- The reporter once the tests have ended. -/
def report (tests : List TestEnd) : Reporter :=
  tests.foldl Reporter.onTestEnd ⟨⟨0, 0, 0, 0, 0⟩, []⟩

/-- The summary sent with the request to close the run. -/
def Counters.summary (c : Counters) : Summary where
  total := .value (c.passed + c.failed + c.skipped : ℕ)
  passed := .value c.passed
  failed := .value c.failed
  skipped := .value c.skipped

/-- The run that is reported to, what is posted, and which post each request carries. -/
structure Session where
  actorId : Uuid
  projectId : Uuid
  runId : Uuid
  posts : List Post
  carries : ℕ → Option ℕ

abbrev Requests := Config Data (Procedure Unit)

variable [Unicode]

def Session.request (n : Session) (k : ℕ) : Option (Procedure Unit) := do
  let i ← n.carries k
  let p ← n.posts[i]?
  pure (recordResult i n.actorId n.projectId n.runId p.body)

/-- Every request has been sent. -/
def Session.start (n : Session) (d : Data) : Requests := ⟨d, n.request⟩

def step (c : Requests) (k : ℕ) : Requests :=
  c.move (fun none : Empty ↦ none.elim) (fun _ ↦ Proc.exec perform) (.advance k)

/-- The case a body names. -/
def reportedCase (projectId : Uuid) (body : ResultBody) (s : Store) : Option Testcase := do
  let named ← (ResultBody.caseAndStatus body).toOption
  (resolveCases projectId [named.1] s).get (Unicode.toLowerCase named.1)

/-! ## How far a request has come -/

/-- The phases of a request by the post it carries: not yet stored, and stored. -/
inductive Phase where
  | idle
  | posting (i : ℕ)
  | stored (i : ℕ)
deriving DecidableEq, Repr

def Phase.post : Phase → Option ℕ
  | .idle => none
  | .posting i | .stored i => some i

def turn : Phase → (w : Write) → Reply w → Phase
  | .posting i, .store _ _ _, some _ => .stored i
  | t, _, _ => t

omit [Unicode] in
@[simp] theorem post_turn (t : Phase) (w : Write) (r : Reply w) : (turn t w r).post = t.post := by
  unfold turn
  split <;> rfl

/-- The cases are as they were. -/
def SameCases (d d' : Data) : Prop := d'.store.testcases = d.store.testcases

omit [Unicode] in
theorem sameCases_refl (d : Data) : SameCases d d := rfl

omit [Unicode] in
theorem sameCases_trans (a b c : Data) (h : SameCases a b) (h' : SameCases b c) : SameCases a c :=
  h'.trans h

/-- The report of a post goes to the case it names. -/
def Session.Legal (n : Session) : Phase → Data → Write → Prop
  | .idle, _, _ => False
  | .posting i, d, w => ∃ p, n.posts[i]? = some p ∧
      match w with
      | .selectCases _ _ => True
      | .attach runId projectId _ => runId = n.runId ∧ projectId = n.projectId
      | .store runId testcaseId report => runId = n.runId ∧
          (∃ t, reportedCase n.projectId p.body d.store = some t ∧ t.id = testcaseId) ∧
            ∃ named, ResultBody.caseAndStatus p.body = .ok named ∧
              ResultBody.report p.body named.2 n.actorId = .ok report
      | _ => False
  | .stored i, _, w =>
      match w with
      | .touch _ => True
      | .respond (.recorded post _ _ _ _) => post = i
      | _ => False

omit [Unicode] in
theorem testcases_foldl_attachCase {runId projectId : Uuid} (ids : List Uuid) (s : Store) :
    (ids.foldl (fun s id ↦ s.attachCase runId projectId id) s).testcases = s.testcases := by
  induction ids generalizing s with
  | nil => rfl
  | cons id ids ih =>
      rw [List.foldl_cons, ih]
      exact Store.testcases_attachCase

/-- No statement changes the cases. -/
theorem sameCases_perform (w : Write) (d : Data) : SameCases d (Service.after (perform w) d) := by
  unfold SameCases Service.after perform
  cases w with
  | selectKey projectId externalId => rfl
  | selectCases projectId caseIds => rfl
  | selectRun runId => rfl
  | insertRun v =>
      show (d.insertRun v).2.store.testcases = _
      unfold Data.insertRun Store.insertRun
      split
      · rfl
      · rename_i h
        split at h
        · cases h
        · obtain rfl := (Prod.mk.inj (Option.some.inj h)).2
          rfl
  | attach runId projectId ids => exact testcases_foldl_attachCase ids d.store
  | store runId testcaseId r =>
      show (Service.returning _ d).2.store.testcases = _
      unfold Service.returning Data.storeReport
      cases varchar 32 r.status with
      | error e => rfl
      | ok status => rfl
  | touch runId => rfl
  | close runId closeStatus => rfl
  | respond response => rfl

theorem reportedCase_congr {projectId : Uuid} {body : ResultBody} {d d' : Data}
    (h : SameCases d d') :
    reportedCase projectId body d'.store = reportedCase projectId body d.store := by
  unfold reportedCase resolveCases
  rw [h]

theorem follows_attachCases {n : Session} {i : ℕ} {p : Post} (hp : n.posts[i]? = some p)
    {caseIds : List String} {d : Data} :
    Follows turn SameCases n.Legal (fun _ t _ ↦ t = .posting i) (.posting i) d
      (attachCases n.runId n.projectId caseIds) := by
  unfold attachCases
  split
  · exact follows_pure fun _ _ ↦ rfl
  · apply follows_issue_seq
    · intro _ _
      exact ⟨p, hp, trivial⟩
    · intro found _ _
      split
      · exact follows_pure fun _ _ ↦ rfl
      · apply follows_issue_seq
        · intro _ _
          exact ⟨p, hp, rfl, rfl⟩
        · intro _ _ _
          exact follows_pure fun _ _ ↦ rfl

theorem follows_recordResult {n : Session} {i : ℕ} {p : Post} (hp : n.posts[i]? = some p)
    (d : Data) :
    Follows turn SameCases n.Legal (fun _ _ _ ↦ True) (.posting i) d
      (recordResult i n.actorId n.projectId n.runId p.body) := by
  unfold recordResult requireRun
  apply follows_check_seq
  intro d₁ _ run _
  apply follows_ofExcept_seq
  intro named hnamed
  apply follows_check_seq
  intro d₂ _ t ht
  have hcase : reportedCase n.projectId p.body d₂.store = some t := by
    unfold reportedCase
    rw [hnamed]
    exact eq_some_of_found ht
  apply follows_ofExcept_seq
  intro report hreport
  apply follows_seq sameCases_refl sameCases_trans (follows_attachCases hp)
  rintro _ _ d₃ h₃ rfl
  apply follows_issue_seq
  · intro d₄ h₄
    refine ⟨p, hp, rfl, ⟨t, ?_, rfl⟩, named, hnamed, hreport⟩
    rw [reportedCase_congr h₄, reportedCase_congr h₃, hcase]
  · intro updated d₄ _
    cases updated with
    | none => exact follows_fail
    | some execution =>
        apply follows_issue_seq
        · exact fun _ _ ↦ trivial
        · intro _ _ _
          unfold respond
          apply follows_issue (w := Write.respond _) (Q := fun _ _ _ ↦ True) sameCases_trans
          · exact fun _ _ ↦ rfl
          · exact fun _ _ _ ↦ trivial

end Automation

end Tesbo
