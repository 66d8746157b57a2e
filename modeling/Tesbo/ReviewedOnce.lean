import Tesbo.ReviewBoard

/-!
# Decisions on one recommendation

Two reviewers, or a double click: of any number of requests to keep, remove or edit the pair of a
recommendation, one succeeds.  An edit writes its test case before it marks the recommendation;
where the recommendation is decided between the two, the edit is refused after it has been made.
-/

namespace Tesbo.ReviewBoard.Once

open Reasoning Proc

section Deciding

variable [Runtime]

/-! ## How far a request has come -/

/-- `holding`, `judged`, `winning`, `refusing` and `losing` are inside a transaction.  `wrote` is an
edit whose test case has been updated, with its entry; `losing`, `lost` and `beaten` are what comes
of one that has found the recommendation decided. -/
inductive Stage where
  | outside
  | started
  | holding (r : Recommendation)
  | judged
  | checked (p : Pair)
  | found (p : Pair)
  | ready
  | updated
  | wrote
  | winning
  | refusing
  | losing
  | won
  | failed
  | lost
  | succeeded
  | denied
  | beaten

/-- The number of a call, what it requests, and how far it has come. -/
structure Phase where
  caller : ℕ
  request : Request
  stage : Stage

def isOk {α : Type} (r : Except Failure α) : Bool :=
  match r with
  | .ok _ => true
  | .error _ => false

/-- The pair passes what the request checks of it. -/
def accepts : Request → Pair → Bool
  | .keep _, p => isOk (assertFresh p)
  | .remove _ body, p =>
      isOk (assertPairMember p.recommendation body.testcaseId) && isOk (assertFresh p)
  | .edit _ body, p => isOk (assertPairMember p.recommendation body.testcaseId) &&
      isOk (assertPending p.recommendation) && isOk (assertFresh p) && body.confirm &&
        isOk (readChanges body)

/-- The update passes what is checked before the test case is read again. -/
def allowsUpdate : Request → Bool
  | .edit userId body => userId.isSome && isOk (readChanges body >>= assertFieldLengths)
  | _ => false

/-- The fields the project requires are there. -/
def hasRequired : Request → Bool
  | .edit _ body => isOk body.requiredFields
  | _ => false

/-- A removal that has not been confirmed. -/
def unconfirmed : Request → Bool
  | .remove _ body => !body.confirm
  | _ => false

def nextStage (request : Request) : Stage → (w : Write) → Reply w → Stage
  | .started, .lockRecommendation _ _ _, some r =>
      if r.reviewStatus = .pending then .holding r else .refusing
  | .started, .lockRecommendation _ _ _, none => .refusing
  | .started, .loadForAction _ _, some p => if accepts request p then .checked p else .failed
  | .started, .loadForAction _ _, none => .failed
  | .holding r, .lockCases _ _ _ _, some (a, b) =>
      if accepts request ⟨r, a, b⟩ then .judged else .refusing
  | .holding _, .lockCases _ _ _ _, none => .refusing
  | .judged, .markReviewed _ _, marked => bif marked then .winning else .refusing
  | .checked p, .selectCase _ _, some _ => if allowsUpdate request then .found p else .failed
  | .checked _, .selectCase _ _, none => .failed
  | .found _, .selectCase _ _, some _ => if hasRequired request then .ready else .failed
  | .found _, .selectCase _ _, none => .failed
  | .ready, .updateTestCase _ _ _ _, _ => .updated
  | .updated, .log _ _, _ => .wrote
  | .wrote, .markReviewed _ _, marked => bif marked then .winning else .losing
  | .winning, .commit _ _, _ => .won
  | .refusing, .rollback _, _ => .failed
  | .losing, .rollback _, _ => .lost
  | .won, .respond _ _, _ => .succeeded
  | .started, .respond _ _, _ | .failed, .respond _ _, _ => .denied
  | .lost, .respond _ _, _ => .beaten
  | stage, _, _ => stage

def turn (t : Phase) (w : Write) (r : Reply w) : Phase :=
  { t with stage := nextStage t.request t.stage w r }

/-- What a call may ask for. -/
inductive Legal (projectId id : Uuid) : Phase → Write → Prop where
  | refuse {k request e} (hunconfirmed : unconfirmed request = true) :
      Legal projectId id ⟨k, request, .started⟩ (.respond k (.error e))
  | lock {k request} :
      Legal projectId id ⟨k, request, .started⟩ (.lockRecommendation k projectId id)
  | load {k userId body} :
      Legal projectId id ⟨k, .edit userId body, .started⟩ (.loadForAction projectId id)
  | lockCases {k request r} :
      Legal projectId id ⟨k, request, .holding r⟩ (.lockCases k projectId r.aId r.bId)
  | mark {k request} : Legal projectId id ⟨k, request, .judged⟩ (.markReviewed k id)
  | select {k userId body p testcaseId}
      (hmember : testcaseId = p.recommendation.aId ∨ testcaseId = p.recommendation.bId) :
      Legal projectId id ⟨k, .edit userId body, .checked p⟩ (.selectCase projectId testcaseId)
  | selectBefore {k userId body p testcaseId}
      (hmember : testcaseId = p.recommendation.aId ∨ testcaseId = p.recommendation.bId) :
      Legal projectId id ⟨k, .edit userId body, .found p⟩ (.selectCase projectId testcaseId)
  | update {k request testcaseId uid changes} :
      Legal projectId id ⟨k, request, .ready⟩ (.updateTestCase k testcaseId uid changes)
  | log {k request audit} : Legal projectId id ⟨k, request, .updated⟩ (.log k audit)
  | selectAfter {k request testcaseId} :
      Legal projectId id ⟨k, request, .wrote⟩ (.selectAfter projectId testcaseId)
  | markEdited {k request} : Legal projectId id ⟨k, request, .wrote⟩ (.markReviewed k id)
  | selectPair {k request aId bId} :
      Legal projectId id ⟨k, request, .winning⟩ (.selectPair projectId aId bId)
  | commit {k request decision} (hid : decision.recommendationId = id)
      (hstatus : decision.status ≠ .pending) :
      Legal projectId id ⟨k, request, .winning⟩ (.commit k decision)
  | rollback {k request} : Legal projectId id ⟨k, request, .refusing⟩ (.rollback k)
  | rollbackEdited {k request} : Legal projectId id ⟨k, request, .losing⟩ (.rollback k)
  | succeed {k request} : Legal projectId id ⟨k, request, .won⟩ (.respond k (.ok ()))
  | deny {k request e} : Legal projectId id ⟨k, request, .failed⟩ (.respond k (.error e))
  | beat {k request message} :
      Legal projectId id ⟨k, request, .lost⟩ (.respond k (.error (.conflict message)))

def Final (t : Phase) : Prop :=
  match t.stage with
  | .outside | .succeeded | .denied | .beaten => True
  | _ => False

/-! ### The statements of a request, in order -/

section Passing

variable {projectId id : Uuid} {k : ℕ} {request : Request}

/-- Inside a transaction: nothing has been written, or an edit has. -/
def Rolls (k : ℕ) (request : Request) (e : Failure) (t : Phase) : Prop :=
  t = ⟨k, request, .refusing⟩ ∨ (t = ⟨k, request, .losing⟩ ∧ ∃ message, e = .conflict message)

/-- Outside of one. -/
def Fails (k : ℕ) (request : Request) (e : Failure) (t : Phase) : Prop :=
  t = ⟨k, request, .failed⟩ ∨ (t = ⟨k, request, .lost⟩ ∧ ∃ message, e = .conflict message)

abbrev Wins (projectId id : Uuid) (k : ℕ) (request : Request) (t : Phase)
    (p : Procedure Unit) : Prop :=
  Passes turn (Legal projectId id) (fun _ t ↦ t = ⟨k, request, .won⟩) (Fails k request) t p

omit [Runtime] in
theorem isOk_eq_true {α : Type} {r : Except Failure α} : isOk r = true ↔ ∃ a, r = .ok a := by
  cases r with
  | ok a => exact iff_of_true rfl ⟨a, rfl⟩
  | error e =>
      apply iff_of_false
      · exact Bool.false_ne_true
      · rintro ⟨a, h⟩
        cases h

omit [Runtime] in
theorem isOk_error {α : Type} {r : Except Failure α} {e : Failure} (h : r = .error e) :
    isOk r = false := by
  rw [h]
  rfl

theorem passes_transaction {p : Procedure Decision} {t : Phase}
    (hp : Passes turn (Legal projectId id)
      (fun d t ↦ t = ⟨k, request, .winning⟩ ∧ d.recommendationId = id ∧ d.status ≠ .pending)
      (Rolls k request) t p) : Wins projectId id k request t (transaction k p) := by
  unfold transaction
  apply passes_attempt_seq hp
  · rintro decision _ ⟨rfl, hid, hstatus⟩
    apply passes_issue (w := Write.commit k decision)
    · exact .commit hid hstatus
    · exact fun _ ↦ rfl
  · rintro e _ (rfl | ⟨rfl, hconflict⟩)
    · apply passes_issue_seq
      · exact .rollback
      · exact fun _ ↦ passes_fail (.inl rfl)
    · apply passes_issue_seq
      · exact .rollbackEdited
      · exact fun _ ↦ passes_fail (.inr ⟨rfl, hconflict⟩)

theorem passes_lockPair : Passes turn (Legal projectId id)
    (fun p t ↦ t = ⟨k, request, if accepts request p then .judged else .refusing⟩)
    (Rolls k request) ⟨k, request, .started⟩ (lockPair k projectId id) := by
  unfold lockPair
  apply passes_issue_seq
  · exact .lock
  · intro found
    cases found with
    | none => exact passes_fail (.inl rfl)
    | some r =>
        by_cases hpending : r.reviewStatus = .pending
        · have hstage : turn ⟨k, request, .started⟩ (.lockRecommendation k projectId id) (some r) =
              ⟨k, request, .holding r⟩ := by
            simp only [turn, nextStage, if_pos hpending]
          have hok : assertPending r = .ok () := if_pos hpending
          rw [hstage]
          dsimp only
          rw [hok]
          apply passes_issue_seq
          · exact .lockCases
          · intro cases
            match cases with
            | none => exact passes_fail (.inl rfl)
            | some (a, b) => exact passes_pure rfl
        · have hstage : turn ⟨k, request, .started⟩ (.lockRecommendation k projectId id) (some r) =
              ⟨k, request, .refusing⟩ := by
            simp only [turn, nextStage, if_neg hpending]
          rw [hstage]
          apply passes_ofExcept_seq
          · exact fun e _ ↦ .inl rfl
          · intro _ hok
            unfold assertPending at hok
            rw [if_neg hpending] at hok
            cases hok

/-- A pair that has been judged is marked. -/
theorem passes_markJudged {f : Unit → Procedure Decision}
    (hf : Passes turn (Legal projectId id)
      (fun d t ↦ t = ⟨k, request, .winning⟩ ∧ d.recommendationId = id ∧ d.status ≠ .pending)
      (Rolls k request) ⟨k, request, .winning⟩ (f ())) :
    Passes turn (Legal projectId id)
      (fun d t ↦ t = ⟨k, request, .winning⟩ ∧ d.recommendationId = id ∧ d.status ≠ .pending)
      (Rolls k request) ⟨k, request, .judged⟩ (markReviewed k id >>= f) := by
  unfold markReviewed
  apply passes_seq (P := fun _ t ↦ t = ⟨k, request, .winning⟩)
  · apply passes_issue_seq
    · exact .mark
    · intro marked
      cases marked with
      | true => exact passes_pure rfl
      | false => exact passes_fail (.inl rfl)
  · rintro _ _ rfl
    exact hf

theorem passes_keep {userId : Option Uuid} :
    Wins projectId id k (.keep userId) ⟨k, .keep userId, .started⟩
      (ReviewBoard.keep k userId projectId id) := by
  unfold ReviewBoard.keep
  apply passes_transaction
  apply passes_seq passes_lockPair
  rintro p _ rfl
  apply passes_ofExcept_seq
  · intro e he
    have hno : accepts (.keep userId) p = false := isOk_error he
    rw [hno]
    exact .inl rfl
  · intro _ hok
    have hyes : accepts (.keep userId) p = true := isOk_eq_true.mpr ⟨_, hok⟩
    rw [hyes]
    apply passes_markJudged
    exact passes_pure ⟨rfl, rfl, ReviewStatus.noConfusion⟩

theorem passes_remove {userId : Option Uuid} {body : RemoveBody} :
    Passes turn (Legal projectId id) (fun _ t ↦ t = ⟨k, .remove userId body, .won⟩)
      (fun e t ↦ Fails k (.remove userId body) e t ∨
        (unconfirmed (.remove userId body) = true ∧ t = ⟨k, .remove userId body, .started⟩))
      ⟨k, .remove userId body, .started⟩ (ReviewBoard.remove k userId projectId id body) := by
  unfold ReviewBoard.remove
  apply passes_require_seq
  · intro hconfirm
    apply Or.inr
    constructor
    · simp only [unconfirmed, Bool.eq_false_of_not_eq_true hconfirm, Bool.not_false]
    · rfl
  · intro _
    refine Passes.mono ?_ (fun _ _ h ↦ h) fun _ _ h ↦ .inl h
    apply passes_transaction
    apply passes_seq passes_lockPair
    rintro p _ rfl
    apply passes_ofExcept_seq
    · intro e he
      have hno : accepts (.remove userId body) p = false := by
        simp only [accepts, isOk_error he, Bool.false_and]
      rw [hno]
      exact .inl rfl
    · intro testcaseId hmember
      apply passes_ofExcept_seq
      · intro e he
        have hno : accepts (.remove userId body) p = false := by
          simp only [accepts, isOk_error he, Bool.and_false]
        rw [hno]
        exact .inl rfl
      · intro _ hfresh
        have hyes : accepts (.remove userId body) p = true := by
          simp only [accepts, hmember, hfresh, isOk, Bool.and_self]
        rw [hyes]
        apply passes_markJudged
        exact passes_pure ⟨rfl, rfl, ReviewStatus.noConfusion⟩

theorem member_of_assert {r : Recommendation} {testcaseId : Option Uuid} {x : Uuid}
    (h : assertPairMember r testcaseId = .ok x) : x = r.aId ∨ x = r.bId := by
  unfold assertPairMember at h
  split at h
  · rename_i y hy
    cases h
    exact of_decide_eq_true (Option.filter_eq_some_iff.mp hy).2
  · cases h

/-- The update of an edit, with its entry. -/
theorem passes_updateTestCase {userId : Option Uuid} {body : EditBody} {p : Pair}
    {testcaseId : Uuid} {changes changes' : CaseChanges} (hread : readChanges body = .ok changes)
    (htext : changes'.text = changes.text)
    (hmember : testcaseId = p.recommendation.aId ∨ testcaseId = p.recommendation.bId) :
    Passes turn (Legal projectId id) (fun _ t ↦ t = ⟨k, .edit userId body, .wrote⟩)
      (Fails k (.edit userId body))
      ⟨k, .edit userId body, if allowsUpdate (.edit userId body) then .found p else .failed⟩
      (updateTestCase k userId projectId testcaseId changes' body.requiredFields) := by
  have hlengths : assertFieldLengths changes' = assertFieldLengths changes := by
    simp only [assertFieldLengths, htext]
  have hallows : allowsUpdate (.edit userId body) =
      (userId.isSome && isOk (assertFieldLengths changes)) := by
    simp only [allowsUpdate, hread]
    rfl
  unfold updateTestCase
  rw [hallows, hlengths]
  cases userId with
  | none => exact passes_fail (.inl rfl)
  | some uid =>
      apply passes_ofExcept_seq
      · intro e he
        cases he
      intro uid' huid
      apply passes_ofExcept_seq
      · intro e he
        rw [isOk_error he]
        exact .inl rfl
      intro _ hok
      rw [hok]
      apply passes_issue_seq
      · exact .selectBefore hmember
      intro before
      cases before with
      | none => exact passes_fail (.inl rfl)
      | some before =>
          apply passes_ofExcept_seq
          · intro e he
            have hno : hasRequired (.edit (some uid) body) = false := isOk_error he
            simp only [turn, nextStage, hno]
            exact .inl rfl
          intro _ hrequired
          have hyes : hasRequired (.edit (some uid) body) = true := isOk_eq_true.mpr ⟨_, hrequired⟩
          have hstage : turn ⟨k, .edit (some uid) body, .found p⟩ (.selectCase projectId testcaseId)
              (some before) = ⟨k, .edit (some uid) body, .ready⟩ := by
            simp only [turn, nextStage, hyes, if_true]
          show Passes turn _ _ _ (turn ⟨k, .edit (some uid) body, .found p⟩
            (.selectCase projectId testcaseId) (some before)) _
          rw [hstage]
          apply passes_issue_seq
          · exact .update
          intro after
          apply passes_issue (w := Write.log k _)
          · exact .log
          · exact fun _ ↦ rfl

theorem passes_edit {userId : Option Uuid} {body : EditBody} :
    Wins projectId id k (.edit userId body) ⟨k, .edit userId body, .started⟩
      (ReviewBoard.edit k userId projectId id body) := by
  unfold ReviewBoard.edit
  apply passes_issue_seq
  · exact .load
  intro loaded
  cases loaded with
  | none => exact passes_fail (.inl rfl)
  | some p =>
      have hrefused : accepts (.edit userId body) p = false → ∀ e,
          Fails k (.edit userId body) e (turn ⟨k, .edit userId body, .started⟩
            (.loadForAction projectId id) (some p)) := by
        intro hno e
        simp only [turn, nextStage, hno]
        exact .inl rfl
      apply passes_ofExcept_seq
      · intro e he
        apply hrefused
        simp only [accepts, isOk_error he, Bool.false_and]
      intro testcaseId hmember
      apply passes_ofExcept_seq
      · intro e he
        apply hrefused
        simp only [accepts, isOk_error he, Bool.false_and, Bool.and_false]
      intro _ hpending
      apply passes_ofExcept_seq
      · intro e he
        apply hrefused
        simp only [accepts, isOk_error he, Bool.false_and, Bool.and_false]
      intro _ hfresh
      apply passes_require_seq
      · intro hconfirm
        apply hrefused
        simp only [accepts, Bool.eq_false_of_not_eq_true hconfirm, Bool.false_and, Bool.and_false]
      intro hconfirm
      apply passes_ofExcept_seq
      · intro e he
        apply hrefused
        simp only [accepts, isOk_error he, Bool.and_false]
      intro changes hchanges
      have hyes : accepts (.edit userId body) p = true := by
        simp only [accepts, hmember, hpending, hfresh, hconfirm, hchanges, isOk, Bool.and_self]
      have hstage : turn ⟨k, .edit userId body, .started⟩ (.loadForAction projectId id) (some p) =
          ⟨k, .edit userId body, .checked p⟩ := by
        simp only [turn, nextStage, hyes, if_true]
      have hpair := member_of_assert hmember
      rw [hstage]
      apply passes_issue_seq
      · exact .select hpair
      intro current
      cases current with
      | none => exact passes_fail (.inl rfl)
      | some current =>
          refine passes_seq (passes_updateTestCase hchanges ?_ hpair) ?_
          · rfl
          rintro _ _ rfl
          apply passes_issue_seq
          · exact .selectAfter
          intro after
          apply passes_transaction
          unfold markReviewed
          apply passes_seq (P := fun _ t ↦ t = ⟨k, .edit userId body, .winning⟩)
          · apply passes_issue_seq
            · exact .markEdited
            intro marked
            cases marked with
            | true => exact passes_pure rfl
            | false => exact passes_fail (.inr ⟨rfl, _, rfl⟩)
          · rintro _ _ rfl
            apply passes_issue_seq
            · exact .selectPair
            intro cases
            exact passes_pure ⟨rfl, rfl, ReviewStatus.noConfusion⟩

/-- Every request is answered. -/
theorem passes_run : Passes turn (Legal projectId id) (fun _ t ↦ Final t) (fun _ t ↦ Final t)
    ⟨k, request, .started⟩ (request.run k projectId id) := by
  have hanswered : ∀ {p : Procedure Unit},
      Passes turn (Legal projectId id) (fun _ t ↦ t = ⟨k, request, .won⟩)
        (fun e t ↦ Fails k request e t ∨
          (unconfirmed request = true ∧ t = ⟨k, request, .started⟩)) ⟨k, request, .started⟩ p →
      Passes turn (Legal projectId id) (fun _ t ↦ Final t) (fun _ t ↦ Final t)
        ⟨k, request, .started⟩ (p.attempt >>= fun outcome ↦ issue (Write.respond k outcome)) := by
    intro p hp
    apply passes_attempt_seq hp
    · rintro _ _ rfl
      apply passes_issue (w := Write.respond k _)
      · exact .succeed
      · exact fun _ ↦ trivial
    · rintro e _ ((rfl | ⟨rfl, message, rfl⟩) | ⟨hunconfirmed, rfl⟩)
      · apply passes_issue (w := Write.respond k _)
        · exact .deny
        · exact fun _ ↦ trivial
      · apply passes_issue (w := Write.respond k _)
        · exact .beat
        · exact fun _ ↦ trivial
      · apply passes_issue (w := Write.respond k _)
        · exact .refuse hunconfirmed
        · exact fun _ ↦ trivial
  unfold Request.run
  cases request with
  | keep userId => exact hanswered (passes_keep.mono (fun _ _ h ↦ h) fun _ _ h ↦ .inl h)
  | remove userId body => exact hanswered passes_remove
  | edit userId body => exact hanswered (passes_edit.mono (fun _ _ h ↦ h) fun _ _ h ↦ .inl h)

end Passing

/-! ## What holds of the requests together -/

namespace Stage

/-- A transaction that has the lock on the recommendation. -/
def holds : Stage → Prop
  | holding _ | judged | winning | refusing | losing => True
  | _ => False

/-- It may have written. -/
def writes : Stage → Prop
  | updated | wrote | winning | losing | won | lost | succeeded | beaten => True
  | _ => False

def wins : Stage → Prop
  | won | succeeded => True
  | _ => False

def refuses : Stage → Prop
  | refusing | failed | denied => True
  | _ => False

/-- An edit that has found the recommendation decided. -/
def late : Stage → Prop
  | losing | lost | beaten => True
  | _ => False

/-- A request that has still to be answered. -/
def isOpen : Stage → Prop
  | outside | succeeded | denied | beaten => False
  | _ => True

def answers : Stage → Except Failure Unit → Prop
  | succeeded, outcome => outcome = .ok ()
  | denied, outcome | beaten, outcome => ∃ e, outcome = .error e
  | _, _ => False

theorem not_answers {s : Stage} (h : s.isOpen) (outcome : Except Failure Unit) :
    ¬ s.answers outcome := by
  cases s with
  | outside | succeeded | denied | beaten => exact h.elim
  | _ => exact fun hno ↦ hno

theorem ne_of_isOpen {s : Stage} (h : s.isOpen) : s ≠ outside ∧ s ≠ succeeded := by
  constructor
  · rintro rfl
    exact h
  · rintro rfl
    exact h

theorem wins_of_answers {s : Stage} (h : s.answers (.ok ())) : s.wins := by
  cases s with
  | succeeded => trivial
  | denied | beaten =>
      obtain ⟨e, he⟩ := h
      cases he
  | _ => exact h.elim

theorem late_of_answers {s : Stage} {e : Failure} (hwrites : s.writes) (h : s.answers (.error e)) :
    s.late := by
  cases s with
  | beaten => trivial
  | denied => exact hwrites.elim
  | succeeded => cases h
  | _ => exact h.elim

end Stage

def isPending (b : Board) (id : Uuid) : Prop :=
  (b.recommendations.find id).any (fun r ↦ r.reviewStatus = .pending) = true

section Sound

variable (board : Board) (projectId id : Uuid) (calls : ℕ → Option Request)

/-- The request would be carried out, if it were the only one. -/
def Capable (request : Request) : Prop :=
  unconfirmed request = false ∧
    (∃ p, board.loadForAction projectId id = some p ∧ p.recommendation.reviewStatus = .pending ∧
      accepts request p = true) ∧
    ∀ userId body, request = .edit userId body →
      allowsUpdate request = true ∧ hasRequired request = true

/-- What a stage says of the recommendation and its lock. -/
def Stage.Fits (d : Data) (k : ℕ) : Stage → Prop
  | holding r => d.recommendationLocks id = some k ∧ isPending d.board id ∧
      (d.writers = [] → board.recommendation projectId id = some r)
  | judged | winning => d.recommendationLocks id = some k ∧ isPending d.board id
  | refusing => d.recommendationLocks id = some k
  | losing => d.recommendationLocks id = some k ∧ ¬ isPending d.board id
  | checked p | found p => d.writers = [] → board.loadForAction projectId id = some p
  | won | succeeded | lost | beaten => ¬ isPending d.board id
  | _ => True

/-- What holds of one request. -/
structure Own (d : Data) (t : Phase) : Prop where
  asked : ∀ r, calls t.caller = some r → t.request = r ∧ t.stage ≠ .outside
  fits : t.stage.Fits board projectId id d t.caller
  writer : t.caller ∈ d.writers → t.stage.writes
  answered : ∀ o, (t.caller, o) ∈ d.responses → t.stage.answers o
  succeeded : t.stage = .succeeded → (t.caller, .ok ()) ∈ d.responses
  refused : t.stage.refuses → Capable board projectId id t.request → d.writers ≠ []

structure Sound (d : Data) (phase : ℕ → Phase) : Prop where
  callers : ∀ k, (phase k).caller = k
  own : ∀ k, Own board projectId id calls d (phase k)
  one : ∀ j k, (phase j).stage.wins → (phase k).stage.wins → j = k
  winner : isPending board id → ¬ isPending d.board id → ∃ k, (phase k).stage.wins
  unwritten : d.writers = [] → d.board = board

/-- What a statement of one call leaves to the others, if it is no commit. -/
structure Leaves (k : ℕ) (d d' : Data) : Prop where
  pending : isPending d'.board id ↔ isPending d.board id
  locks : ∀ j, j ≠ k → d.recommendationLocks id = some j → d'.recommendationLocks id = some j
  writers : ∀ j, j ≠ k → j ∈ d'.writers → j ∈ d.writers
  responses : ∀ j o, j ≠ k → ((j, o) ∈ d'.responses ↔ (j, o) ∈ d.responses)
  written : d'.writers = [] → d.writers = [] ∧ d'.board = d.board

variable {board projectId id calls} {d d' : Data} {phase : ℕ → Phase} {k : ℕ} {t : Phase}

theorem Own.left (h : Own board projectId id calls d t) (hd : Leaves id k d d')
    (ht : t.caller ≠ k) : Own board projectId id calls d' t where
  asked := h.asked
  fits := by
    have hfits := h.fits
    obtain ⟨j, request, stage⟩ := t
    cases stage with
    | holding r =>
        obtain ⟨hlock, hpending, hread⟩ := hfits
        exact ⟨hd.locks j ht hlock, hd.pending.mpr hpending, fun hw ↦ hread (hd.written hw).1⟩
    | judged | winning => exact ⟨hd.locks j ht hfits.1, hd.pending.mpr hfits.2⟩
    | refusing => exact hd.locks j ht hfits
    | losing => exact ⟨hd.locks j ht hfits.1, mt hd.pending.mp hfits.2⟩
    | checked p | found p => exact fun hw ↦ hfits (hd.written hw).1
    | won | succeeded | lost | beaten => exact mt hd.pending.mp hfits
    | outside | started | ready | updated | wrote | failed | denied => trivial
  writer hw := h.writer (hd.writers _ ht hw)
  answered o ho := h.answered o ((hd.responses _ o ht).mp ho)
  succeeded hs := (hd.responses _ _ ht).mpr (h.succeeded hs)
  refused hs hc hw := h.refused hs hc (hd.written hw).1

/-- A request that is not answered yet goes on. -/
theorem Own.proceed {request : Request} {s s' : Stage}
    (h : Own board projectId id calls d ⟨k, request, s⟩) (hs : s.isOpen) (hs' : s'.isOpen)
    (hresponses : d'.responses = d.responses) (hfits : s'.Fits board projectId id d' k)
    (hwriter : k ∈ d'.writers → s'.writes)
    (hrefused : s'.refuses → Capable board projectId id request → d'.writers ≠ []) :
    Own board projectId id calls d' ⟨k, request, s'⟩ where
  asked r hr := ⟨(h.asked r hr).1, (Stage.ne_of_isOpen hs').1⟩
  fits := hfits
  writer := hwriter
  answered o ho := (Stage.not_answers hs o (h.answered o (hresponses ▸ ho))).elim
  succeeded hsucceeded := ((Stage.ne_of_isOpen hs').2 hsucceeded).elim
  refused := hrefused

theorem Sound.update (h : Sound board projectId id calls d phase) (hd : Leaves id k d d')
    (ht : t.caller = k) (hwins : t.stage.wins ↔ (phase k).stage.wins)
    (hown : Own board projectId id calls d' t) :
    Sound board projectId id calls d' (Function.update phase k t) := by
  have hstage : ∀ j, (Function.update phase k t j).stage.wins ↔ (phase j).stage.wins := by
    intro j
    by_cases hj : j = k
    · subst hj
      rw [Function.update_self]
      exact hwins
    · rw [Function.update_of_ne hj]
  constructor
  · intro j
    by_cases hj : j = k
    · subst hj
      rw [Function.update_self]
      exact ht
    · rw [Function.update_of_ne hj]
      exact h.callers j
  · intro j
    by_cases hj : j = k
    · subst hj
      rw [Function.update_self]
      exact hown
    · rw [Function.update_of_ne hj]
      apply (h.own j).left hd
      rw [h.callers j]
      exact hj
  · intro i j hi hj
    exact h.one i j ((hstage i).mp hi) ((hstage j).mp hj)
  · intro hstart hdecided
    obtain ⟨j, hj⟩ := h.winner hstart (mt hd.pending.mpr hdecided)
    exact ⟨j, (hstage j).mpr hj⟩
  · intro hw
    rw [(hd.written hw).2]
    exact h.unwritten (hd.written hw).1

/-! ### What each statement leaves -/

theorem leaves_same (hboard : d'.board = d.board) (hwriters : d'.writers = d.writers)
    (hresponses : d'.responses = d.responses)
    (hlocks : ∀ j, j ≠ k → d.recommendationLocks id = some j → d'.recommendationLocks id = some j) :
    Leaves id k d d' where
  pending := by rw [hboard]
  locks := hlocks
  writers j _ hj := hwriters ▸ hj
  responses j o _ := by rw [hresponses]
  written hw := ⟨hwriters ▸ hw, hboard⟩

theorem leaves_locked (hfree : d.recommendationLocks.free k id = true) :
    Leaves id k d { d with recommendationLocks := d.recommendationLocks.take k id } := by
  refine leaves_same rfl rfl rfl ?_
  intro j hj hlock
  rcases of_decide_eq_true hfree with hnone | hown
  · rw [hnone] at hlock
    cases hlock
  · rw [hown] at hlock
    exact absurd (Option.some.inj hlock).symm hj

theorem leaves_unlocked : Leaves id k d (d.unlock k) := by
  refine leaves_same rfl rfl rfl ?_
  intro j hj hlock
  show (if d.recommendationLocks id = some k then none else d.recommendationLocks id) = some j
  rw [hlock, if_neg fun h ↦ hj (Option.some.inj h)]

theorem leaves_wrote {b : Board} (hsame : b.recommendations = d.board.recommendations) :
    Leaves id k d (d.wrote k b) where
  pending := by
    show isPending b id ↔ isPending d.board id
    unfold isPending
    rw [hsame]
  locks _ _ h := h
  writers j hj hmem := by
    rcases List.mem_append.mp hmem with hmem | hmem
    · exact hmem
    · exact absurd (List.mem_singleton.mp hmem) hj
  responses _ _ _ := Iff.rfl
  written hw := absurd hw (List.append_ne_nil_of_right_ne_nil _ (List.cons_ne_nil _ _))

theorem leaves_responded {outcome : Except Failure Unit} :
    Leaves id k d { d with responses := d.responses ++ [(k, outcome)] } where
  pending := Iff.rfl
  locks _ _ h := h
  writers _ _ h := h
  responses j o hj := by
    rw [List.mem_append, List.mem_singleton]
    constructor
    · rintro (h | h)
      · exact h
      · cases h
        exact absurd rfl hj
    · exact .inl
  written hw := ⟨hw, rfl⟩

theorem mem_wrote {b : Board} : k ∈ (d.wrote k b).writers :=
  List.mem_append_right _ (List.mem_singleton_self k)

/-- The last statement of a request. -/
theorem Own.respond {request : Request} {s s' : Stage} {outcome : Except Failure Unit}
    (h : Own board projectId id calls d ⟨k, request, s⟩) (hs : s.isOpen)
    (hout : s' ≠ .outside) (houtcome : s'.answers outcome)
    (hsucceeded : s' = .succeeded → outcome = .ok ())
    (hfits : s'.Fits board projectId id d k) (hwriter : k ∈ d.writers → s'.writes)
    (hrefused : s'.refuses → Capable board projectId id request → d.writers ≠ []) :
    Own board projectId id calls { d with responses := d.responses ++ [(k, outcome)] }
      ⟨k, request, s'⟩ where
  asked r hr := ⟨(h.asked r hr).1, hout⟩
  fits := by
    cases s' with
    | _ => exact hfits
  writer := hwriter
  answered o ho := by
    rcases List.mem_append.mp ho with ho | ho
    · exact (Stage.not_answers hs o (h.answered o ho)).elim
    · cases List.mem_singleton.mp ho
      exact houtcome
  succeeded hs := by
    cases hsucceeded hs
    exact List.mem_append_right _ (List.mem_singleton_self _)
  refused := hrefused

theorem not_isPending_decide (b : Board) (now : Time) {decision : Decision}
    (hid : decision.recommendationId = id) (hstatus : decision.status ≠ .pending) :
    ¬ isPending (b.decide now decision) id := by
  have hrows := b.rows_decide now decision
  have hdecided : ∀ r, (Board.decided now decision r).reviewStatus = decision.status := by
    intro r
    unfold Board.decided
    cases decision.finding with
    | none => rfl
    | some f => rfl
  unfold isPending
  rw [hrows.find (fun r ↦ (Board.decided_pair now decision r).1)]
  cases hfind : b.recommendations.find id with
  | none => exact Bool.false_ne_true
  | some r =>
      have hr : r.id = decision.recommendationId := (Table.find_eq_some.mp hfind).2.trans hid.symm
      simp only [Option.map_some, Option.any_some, hr, decide_true, if_true, hdecided, hstatus,
        decide_false]
      exact Bool.false_ne_true

/-- A decision: nobody else can have been deciding. -/
theorem Sound.commit (h : Sound board projectId id calls d phase) {request : Request}
    (hk : phase k = ⟨k, request, .winning⟩) {decision : Decision}
    (hid : decision.recommendationId = id) (hstatus : decision.status ≠ .pending) :
    Sound board projectId id calls ((d.wrote k (d.board.decide d.now decision)).unlock k)
      (Function.update phase k ⟨k, request, .won⟩) := by
  have hown := h.own k
  rw [hk] at hown
  obtain ⟨hlock, hpending⟩ := hown.fits
  have hdecided := not_isPending_decide d.board d.now hid hstatus
  have hwritten : ((d.wrote k (d.board.decide d.now decision)).unlock k).writers ≠ [] :=
    List.append_ne_nil_of_right_ne_nil _ (List.cons_ne_nil _ _)
  -- who has decided has found it decided
  have hnone : ∀ j, ¬ (phase j).stage.wins := by
    intro j hwins
    have hfits := (h.own j).fits
    revert hwins hfits
    cases (phase j).stage with
    | won | succeeded => exact fun _ hno ↦ hno hpending
    | _ => exact fun hwins _ ↦ hwins
  have hothers : ∀ j, j ≠ k → Own board projectId id calls
      ((d.wrote k (d.board.decide d.now decision)).unlock k) (phase j) := by
    intro j hj
    have hother := h.own j
    have hcaller := h.callers j
    generalize phase j = t at hother hcaller ⊢
    obtain ⟨i, request, stage⟩ := t
    obtain rfl : i = j := hcaller
    refine ⟨hother.asked, ?_, ?_, hother.answered, hother.succeeded, fun _ _ ↦ hwritten⟩
    · have hfits := hother.fits
      have hunlocked : d.recommendationLocks id ≠ some i := by
        rw [hlock]
        exact fun h ↦ hj (Option.some.inj h).symm
      cases stage with
      | holding r | judged | winning | losing => exact absurd hfits.1 hunlocked
      | refusing => exact absurd hfits hunlocked
      | checked p | found p => exact fun hw ↦ absurd hw hwritten
      | won | succeeded | lost | beaten => exact hdecided
      | outside | started | ready | updated | wrote | failed | denied => trivial
    · intro hmem
      rcases List.mem_append.mp hmem with hmem | hmem
      · exact hother.writer hmem
      · exact absurd (List.mem_singleton.mp hmem) hj
  constructor
  · intro j
    by_cases hj : j = k
    · subst hj
      rw [Function.update_self]
    · rw [Function.update_of_ne hj]
      exact h.callers j
  · intro j
    by_cases hj : j = k
    · subst hj
      rw [Function.update_self]
      refine hown.proceed trivial trivial rfl ?_ ?_ ?_
      · exact hdecided
      · exact fun _ ↦ trivial
      · exact False.elim
    · rw [Function.update_of_ne hj]
      exact hothers j hj
  · intro i j hi hj
    have honly : ∀ i, (Function.update phase k ⟨k, request, .won⟩ i).stage.wins → i = k := by
      intro i hi
      by_contra hne
      rw [Function.update_of_ne hne] at hi
      exact hnone i hi
    rw [honly i hi, honly j hj]
  · intro _ _
    refine ⟨k, ?_⟩
    rw [Function.update_self]
    trivial
  · intro hw
    exact absurd hw hwritten

theorem pending_of_recommendation {b : Board} {r : Recommendation}
    (h : b.recommendation projectId id = some r) (hpending : r.reviewStatus = .pending) :
    isPending b id := by
  unfold isPending
  rw [(Option.filter_eq_some_iff.mp h).1]
  exact decide_eq_true hpending

theorem liveCase_of_load {b : Board} {p : Pair} (h : b.loadForAction projectId id = some p)
    {testcaseId : Uuid}
    (hmember : testcaseId = p.recommendation.aId ∨ testcaseId = p.recommendation.bId) :
    (b.liveCase projectId testcaseId).isSome := by
  have hpair := (recommendation_of_load h).2
  unfold Board.livePair at hpair
  obtain ⟨x, hx, hpair⟩ := Option.bind_eq_some_iff.mp hpair
  obtain ⟨y, hy, -⟩ := Option.bind_eq_some_iff.mp hpair
  rcases hmember with rfl | rfl
  · rw [hx]
    rfl
  · rw [hy]
    rfl

/-- The rule for a statement that is no commit. -/
theorem Sound.goOn (h : Sound board projectId id calls d phase) (hd : Leaves id k d d')
    {request : Request} {s s' : Stage} (hk : phase k = ⟨k, request, s⟩)
    (hwins : s'.wins ↔ s.wins)
    (hown : Own board projectId id calls d ⟨k, request, s⟩ →
      Own board projectId id calls d' ⟨k, request, s'⟩) :
    Sound board projectId id calls d' (Function.update phase k ⟨k, request, s'⟩) := by
  apply h.update hd rfl
  · rw [hk]
    exact hwins
  · apply hown
    rw [← hk]
    exact h.own k

/-! ### One statement

Each theorem is about the statement its stage asks for; `hk` says which that is. -/

section Statements

variable {request : Request}

/-- The invariant after a statement that has gone through. -/
def Next (board : Board) (projectId id : Uuid) (calls : ℕ → Option Request) (d : Data)
    (phase : ℕ → Phase) (k : ℕ) (w : Write) : Prop :=
  Service.wp (perform w)
    (fun r d' ↦ Sound board projectId id calls d' (Function.update phase k (turn (phase k) w r)))
    (fun _ _ ↦ False) d

theorem Sound.lock (h : Sound board projectId id calls d phase)
    (hk : phase k = ⟨k, request, .started⟩)
    (hwaits : waits d (.lockRecommendation k projectId id) = false) :
    Next board projectId id calls d phase k (.lockRecommendation k projectId id) := by
  unfold Next Service.wp
  rw [hk]
  have hfree : d.recommendationLocks.free k id = true := by simpa [waits] using hwaits
  have htaken : d.recommendationLocks.take k id id = some k := Function.update_self _ _ _
  show Sound board projectId id calls _ (Function.update phase k
    ⟨k, request, nextStage request .started (.lockRecommendation k projectId id)
      (d.board.recommendation projectId id)⟩)
  apply h.goOn (leaves_locked hfree) hk
  · cases d.board.recommendation projectId id with
    | none => exact Iff.rfl
    | some r =>
        simp only [nextStage]
        split
        · exact Iff.rfl
        · exact Iff.rfl
  intro hown
  have hrefuse : (∀ r, d.board.recommendation projectId id = some r → r.reviewStatus ≠ .pending) →
      Own board projectId id calls
        { d with recommendationLocks := d.recommendationLocks.take k id }
        ⟨k, request, .refusing⟩ := by
    intro hnot
    refine hown.proceed trivial trivial rfl ?_ ?_ ?_
    · exact htaken
    · exact fun hw ↦ (hown.writer hw).elim
    · rintro - ⟨-, ⟨p, hload, hpending, -⟩, -⟩ hw
      rw [← h.unwritten hw] at hload
      exact hnot _ (recommendation_of_load hload).1 hpending
  cases hr : d.board.recommendation projectId id with
  | none =>
      apply hrefuse
      intro r hr'
      rw [hr] at hr'
      cases hr'
  | some r =>
      by_cases hpending : r.reviewStatus = .pending
      · simp only [nextStage, if_pos hpending]
        refine hown.proceed trivial trivial rfl ?_ ?_ ?_
        · refine ⟨htaken, pending_of_recommendation hr hpending, fun hw ↦ ?_⟩
          rw [← h.unwritten hw]
          exact hr
        · exact fun hw ↦ (hown.writer hw).elim
        · exact False.elim
      · simp only [nextStage, if_neg hpending]
        apply hrefuse
        intro r' hr'
        rw [hr] at hr'
        obtain rfl := Option.some.inj hr'
        exact hpending

theorem Sound.lockCases (h : Sound board projectId id calls d phase) {r : Recommendation}
    (hk : phase k = ⟨k, request, .holding r⟩) :
    Next board projectId id calls d phase k (.lockCases k projectId r.aId r.bId) := by
  unfold Next Service.wp
  rw [hk]
  show Sound board projectId id calls _ (Function.update phase k
    ⟨k, request, nextStage request (.holding r) (.lockCases k projectId r.aId r.bId)
      (d.board.livePair projectId r.aId r.bId)⟩)
  have hd : Leaves id k d { d with caseLocks := (d.caseLocks.take k r.aId).take k r.bId } :=
    leaves_same rfl rfl rfl fun _ _ h ↦ h
  apply h.goOn hd hk
  · cases d.board.livePair projectId r.aId r.bId with
    | none => exact Iff.rfl
    | some cases =>
        simp only [nextStage]
        split
        · exact Iff.rfl
        · exact Iff.rfl
  intro hown
  obtain ⟨hlock, hpending, hread⟩ := hown.fits
  have hrefuse : (∀ a b, d.board.livePair projectId r.aId r.bId = some (a, b) →
      accepts request ⟨r, a, b⟩ ≠ true) → Own board projectId id calls
        { d with caseLocks := (d.caseLocks.take k r.aId).take k r.bId }
        ⟨k, request, .refusing⟩ := by
    intro hnot
    refine hown.proceed trivial trivial rfl ?_ ?_ ?_
    · exact hlock
    · exact fun hw ↦ (hown.writer hw).elim
    · rintro - ⟨-, ⟨p, hload, -, haccepts⟩, -⟩ hw
      obtain ⟨hr, hcases⟩ := recommendation_of_load hload
      obtain rfl := Option.some.inj (hr.symm.trans (hread hw))
      rw [← h.unwritten hw] at hcases
      exact hnot _ _ hcases haccepts
  cases hcases : d.board.livePair projectId r.aId r.bId with
  | none =>
      apply hrefuse
      intro a b hcases'
      rw [hcases] at hcases'
      cases hcases'
  | some pair =>
      obtain ⟨a, b⟩ := pair
      cases haccepts : accepts request ⟨r, a, b⟩ with
      | true =>
          simp only [nextStage, haccepts, if_true]
          refine hown.proceed trivial trivial rfl ?_ ?_ ?_
          · exact ⟨hlock, hpending⟩
          · exact fun hw ↦ (hown.writer hw).elim
          · exact False.elim
      | false =>
          simp only [nextStage, haccepts, Bool.false_eq_true, if_false]
          apply hrefuse
          intro a' b' hcases'
          rw [hcases] at hcases'
          cases hcases'
          rw [haccepts]
          exact Bool.false_ne_true

/-- A statement that goes on to one stage, whatever it is answered. -/
theorem Sound.pass (h : Sound board projectId id calls d phase) {w : Write} {s u : Stage}
    (hk : phase k = ⟨k, request, s⟩) (hs : s.isOpen) (hu : u.isOpen) (hwins : u.wins ↔ s.wins)
    (hturn : ∀ r, nextStage request s w r = u)
    (hw : Service.wp (perform w) (fun _ d' ↦ Leaves id k d d' ∧ d'.responses = d.responses ∧
      u.Fits board projectId id d' k ∧ (k ∈ d'.writers → u.writes) ∧
      (u.refuses → Capable board projectId id request → d'.writers ≠ [])) (fun _ _ ↦ False) d) :
    Next board projectId id calls d phase k w := by
  unfold Next
  apply Service.wp_mono hw
  · rintro r d' ⟨hd, hresponses, hfits, hwriter, hrefused⟩
    rw [hk]
    show Sound board projectId id calls d' (Function.update phase k
      ⟨k, request, nextStage request s w r⟩)
    rw [hturn r]
    exact h.goOn hd hk hwins fun hown ↦ hown.proceed hs hu hresponses hfits hwriter hrefused
  · exact fun _ _ h ↦ h

theorem Sound.load (h : Sound board projectId id calls d phase)
    (hk : phase k = ⟨k, request, .started⟩) :
    Next board projectId id calls d phase k (.loadForAction projectId id) := by
  unfold Next Service.wp
  rw [hk]
  show Sound board projectId id calls d (Function.update phase k
    ⟨k, request, nextStage request .started (.loadForAction projectId id)
      (d.board.loadForAction projectId id)⟩)
  have hd : Leaves id k d d := leaves_same rfl rfl rfl fun _ _ h ↦ h
  apply h.goOn hd hk
  · cases d.board.loadForAction projectId id with
    | none => exact Iff.rfl
    | some p =>
        simp only [nextStage]
        split
        · exact Iff.rfl
        · exact Iff.rfl
  intro hown
  have hrefuse : (∀ p, d.board.loadForAction projectId id = some p → accepts request p ≠ true) →
      Own board projectId id calls d ⟨k, request, .failed⟩ := by
    intro hnot
    refine hown.proceed trivial trivial rfl ?_ ?_ ?_
    · trivial
    · exact fun hw ↦ (hown.writer hw).elim
    · rintro - ⟨-, ⟨p, hload, -, haccepts⟩, -⟩ hw
      rw [← h.unwritten hw] at hload
      exact hnot p hload haccepts
  cases hload : d.board.loadForAction projectId id with
  | none =>
      apply hrefuse
      intro p hp
      rw [hload] at hp
      cases hp
  | some p =>
      cases haccepts : accepts request p with
      | true =>
          simp only [nextStage, haccepts, if_true]
          refine hown.proceed trivial trivial rfl ?_ ?_ ?_
          · intro hw
            rw [← h.unwritten hw]
            exact hload
          · exact fun hw ↦ (hown.writer hw).elim
          · exact False.elim
      | false =>
          simp only [nextStage, haccepts, Bool.false_eq_true, if_false]
          apply hrefuse
          intro p' hp'
          rw [hload] at hp'
          cases hp'
          rw [haccepts]
          exact Bool.false_ne_true

/-- A test case of the pair is read again; the request goes on to `u` where it passes `check`. -/
theorem Sound.select (h : Sound board projectId id calls d phase) {p : Pair} {testcaseId : Uuid}
    (hmember : testcaseId = p.recommendation.aId ∨ testcaseId = p.recommendation.bId)
    {s u : Stage} {check : Bool} (hk : phase k = ⟨k, request, s⟩) (hs : s.isOpen) (hu : u.isOpen)
    (hwins : ¬ s.wins ∧ ¬ u.wins) (hwrites : ¬ s.writes) (hrefuses : ¬ u.refuses)
    (hfits : s.Fits board projectId id d k →
      (d.writers = [] → board.loadForAction projectId id = some p) ∧ u.Fits board projectId id d k)
    (hcheck : Capable board projectId id request → check = true)
    (hturn : ∀ c : Option Case, nextStage request s (.selectCase projectId testcaseId) c =
      if c.isSome && check then u else .failed) :
    Next board projectId id calls d phase k (.selectCase projectId testcaseId) := by
  unfold Next Service.wp
  rw [hk]
  show Sound board projectId id calls d (Function.update phase k
    ⟨k, request, nextStage request s (.selectCase projectId testcaseId)
      (d.board.liveCase projectId testcaseId)⟩)
  have hd : Leaves id k d d := leaves_same rfl rfl rfl fun _ _ h ↦ h
  rw [hturn]
  by_cases hpasses : ((d.board.liveCase projectId testcaseId).isSome && check) = true
  · rw [if_pos hpasses]
    apply h.goOn hd hk
    · exact iff_of_false hwins.2 hwins.1
    intro hown
    refine hown.proceed hs hu rfl ?_ ?_ ?_
    · exact (hfits hown.fits).2
    · exact fun hw ↦ (hwrites (hown.writer hw)).elim
    · exact fun h ↦ (hrefuses h).elim
  · rw [if_neg hpasses]
    apply h.goOn hd hk
    · exact iff_of_false (fun h ↦ h) hwins.1
    intro hown
    refine hown.proceed hs trivial rfl ?_ ?_ ?_
    · trivial
    · exact fun hw ↦ (hwrites (hown.writer hw)).elim
    · intro _ hcapable hw
      have hlive := liveCase_of_load ((hfits hown.fits).1 hw) hmember
      rw [← h.unwritten hw] at hlive
      rw [hlive, hcheck hcapable] at hpasses
      exact hpasses rfl

/-- The recommendation is marked: `u` where it is pending, `u'` where it is not. -/
theorem Sound.mark (h : Sound board projectId id calls d phase) {s s' s'' : Stage}
    (hk : phase k = ⟨k, request, s⟩)
    (hturn : ∀ marked, nextStage request s (.markReviewed k id) marked =
      bif marked then s' else s'')
    (hwins : ¬ s.wins ∧ ¬ s'.wins ∧ ¬ s''.wins)
    (hwaits : waits d (.markReviewed k id) = false)
    (hmarked : isPending d.board id →
      Own board projectId id calls d ⟨k, request, s⟩ →
      Own board projectId id calls
        { d with recommendationLocks := d.recommendationLocks.take k id } ⟨k, request, s'⟩)
    (hrefused : ¬ isPending d.board id →
      Own board projectId id calls d ⟨k, request, s⟩ →
      Own board projectId id calls
        { d with recommendationLocks := d.recommendationLocks.take k id } ⟨k, request, s''⟩) :
    Next board projectId id calls d phase k (.markReviewed k id) := by
  unfold Next Service.wp
  rw [hk]
  have hfree : d.recommendationLocks.free k id = true := by simpa [waits] using hwaits
  show Sound board projectId id calls _ (Function.update phase k
    ⟨k, request, nextStage request s (.markReviewed k id)
      ((d.board.recommendations.find id).any fun r ↦ r.reviewStatus = .pending)⟩)
  rw [hturn]
  cases hpending : (d.board.recommendations.find id).any fun r ↦ r.reviewStatus = .pending with
  | true =>
      apply h.goOn (leaves_locked hfree) hk
      · exact iff_of_false hwins.2.1 hwins.1
      · exact hmarked hpending
  | false =>
      apply h.goOn (leaves_locked hfree) hk
      · exact iff_of_false hwins.2.2 hwins.1
      · apply hrefused
        unfold isPending
        rw [hpending]
        exact Bool.false_ne_true

/-- The answer. -/
theorem Sound.respond (h : Sound board projectId id calls d phase) {s s' : Stage}
    {outcome : Except Failure Unit} (hk : phase k = ⟨k, request, s⟩) (hs : s.isOpen)
    (hturn : nextStage request s (.respond k outcome) () = s') (hwins : s'.wins ↔ s.wins)
    (hout : s' ≠ .outside) (houtcome : s'.answers outcome)
    (hsucceeded : s' = .succeeded → outcome = .ok ())
    (hfits : s.Fits board projectId id d k → s'.Fits board projectId id d k)
    (hwriter : s.writes → s'.writes)
    (hrefused : Own board projectId id calls d ⟨k, request, s⟩ → s'.refuses →
      Capable board projectId id request → d.writers ≠ []) :
    Next board projectId id calls d phase k (.respond k outcome) := by
  unfold Next
  apply (Service.wp_write _).mpr
  rw [hk]
  show Sound board projectId id calls _ (Function.update phase k
    ⟨k, request, nextStage request s (.respond k outcome) ()⟩)
  rw [hturn]
  apply h.goOn leaves_responded hk hwins
  intro hown
  refine hown.respond hs hout houtcome hsucceeded ?_ ?_ ?_
  · exact hfits hown.fits
  · exact fun hw ↦ hwriter (hown.writer hw)
  · exact hrefused hown

/-- Every statement that has not to wait keeps the invariant. -/
theorem Sound.perform (h : Sound board projectId id calls d phase) {w : Write}
    (hlegal : Legal projectId id (phase k) w) (hwaits : waits d w = false) :
    Next board projectId id calls d phase k w := by
  have hcaller := h.callers k
  have hown := h.own k
  obtain ⟨t, ht⟩ : ∃ t, phase k = t := ⟨_, rfl⟩
  have htaken : ∀ l : Locks, l.take k id id = some k := fun l ↦ Function.update_self _ _ _
  have hsame : Leaves id k d d := leaves_same rfl rfl rfl fun _ _ h ↦ h
  rw [ht] at hlegal hcaller hown
  cases hlegal with
  | refuse hunconfirmed =>
      obtain rfl := hcaller
      refine h.respond ht trivial rfl Iff.rfl nofun ⟨_, rfl⟩ nofun ?_ ?_ ?_
      · exact fun h ↦ h
      · exact False.elim
      · rintro - - ⟨hconfirmed, -⟩
        rw [hunconfirmed] at hconfirmed
        cases hconfirmed
  | lock =>
      obtain rfl := hcaller
      exact h.lock ht hwaits
  | load =>
      obtain rfl := hcaller
      exact h.load ht
  | lockCases =>
      obtain rfl := hcaller
      exact h.lockCases ht
  | mark =>
      obtain rfl := hcaller
      apply h.mark ht
      · exact fun _ ↦ rfl
      · exact ⟨False.elim, False.elim, False.elim⟩
      · exact hwaits
      · intro hpending hown
        refine hown.proceed trivial trivial rfl ?_ ?_ ?_
        · exact ⟨htaken _, hpending⟩
        · exact fun _ ↦ trivial
        · exact False.elim
      · exact fun hdecided hown ↦ (hdecided hown.fits.2).elim
  | @select j userId body p testcaseId hmember =>
      obtain rfl := hcaller
      apply h.select (u := .found p) hmember ht trivial trivial ⟨False.elim, False.elim⟩ False.elim
        False.elim
      · exact fun hfits ↦ ⟨hfits, hfits⟩
      · exact fun hcapable ↦ (hcapable.2.2 userId body rfl).1
      · intro c
        cases c with
        | none => rfl
        | some c => rfl
  | @selectBefore j userId body p testcaseId hmember =>
      obtain rfl := hcaller
      apply h.select (u := .ready) hmember ht trivial trivial ⟨False.elim, False.elim⟩ False.elim
        False.elim
      · exact fun hfits ↦ ⟨hfits, trivial⟩
      · exact fun hcapable ↦ (hcapable.2.2 userId body rfl).2
      · intro c
        cases c with
        | none => rfl
        | some c => rfl
  | @update j request testcaseId uid changes =>
      obtain rfl := hcaller
      apply h.pass (u := .updated) ht trivial trivial Iff.rfl (fun _ ↦ rfl)
      unfold Service.wp
      by_cases hlive : (d.board.testcases.find testcaseId).any Case.live = true
      · have hdone : ReviewBoard.perform (.updateTestCase j testcaseId uid changes) d =
            (.ok ((d.board.editCase d.now testcaseId uid changes).testcases.find testcaseId),
              d.wrote j (d.board.editCase d.now testcaseId uid changes)) := if_pos hlive
        rw [hdone]
        exact ⟨leaves_wrote rfl, rfl, trivial, fun _ ↦ trivial, False.elim⟩
      · have hdone : ReviewBoard.perform (.updateTestCase j testcaseId uid changes) d =
            (.ok none, d) := if_neg hlive
        rw [hdone]
        exact ⟨hsame, rfl, trivial, fun _ ↦ trivial, False.elim⟩
  | log =>
      obtain rfl := hcaller
      apply h.pass (u := .wrote) ht trivial trivial Iff.rfl (fun _ ↦ rfl)
      apply (Service.wp_write _).mpr
      exact ⟨leaves_wrote rfl, rfl, trivial, fun _ ↦ trivial, False.elim⟩
  | selectAfter =>
      obtain rfl := hcaller
      apply h.pass (u := .wrote) ht trivial trivial Iff.rfl (fun _ ↦ rfl)
      apply (Service.wp_query _).mpr
      exact ⟨hsame, rfl, trivial, fun _ ↦ trivial, False.elim⟩
  | markEdited =>
      obtain rfl := hcaller
      apply h.mark ht
      · exact fun _ ↦ rfl
      · exact ⟨False.elim, False.elim, False.elim⟩
      · exact hwaits
      · intro hpending hown
        refine hown.proceed trivial trivial rfl ?_ ?_ ?_
        · exact ⟨htaken _, hpending⟩
        · exact fun _ ↦ trivial
        · exact False.elim
      · intro hdecided hown
        refine hown.proceed trivial trivial rfl ?_ ?_ ?_
        · exact ⟨htaken _, hdecided⟩
        · exact fun _ ↦ trivial
        · exact False.elim
  | selectPair =>
      obtain rfl := hcaller
      apply h.pass (u := .winning) ht trivial trivial Iff.rfl (fun _ ↦ rfl)
      apply (Service.wp_query _).mpr
      exact ⟨hsame, rfl, hown.fits, fun _ ↦ trivial, False.elim⟩
  | commit hid hstatus =>
      obtain rfl := hcaller
      apply (Service.wp_write _).mpr
      rw [ht]
      exact h.commit ht hid hstatus
  | rollback =>
      obtain rfl := hcaller
      apply h.pass (u := .failed) ht trivial trivial Iff.rfl (fun _ ↦ rfl)
      apply (Service.wp_write _).mpr
      exact ⟨leaves_unlocked, rfl, trivial, hown.writer, hown.refused⟩
  | rollbackEdited =>
      obtain rfl := hcaller
      apply h.pass (u := .lost) ht trivial trivial Iff.rfl (fun _ ↦ rfl)
      apply (Service.wp_write _).mpr
      exact ⟨leaves_unlocked, rfl, hown.fits.2, fun _ ↦ trivial, False.elim⟩
  | succeed =>
      obtain rfl := hcaller
      refine h.respond ht trivial rfl Iff.rfl nofun rfl (fun _ ↦ rfl) ?_ ?_ ?_
      · exact fun h ↦ h
      · exact fun h ↦ h
      · exact fun _ ↦ False.elim
  | deny =>
      obtain rfl := hcaller
      refine h.respond ht trivial rfl Iff.rfl nofun ⟨_, rfl⟩ nofun ?_ ?_ ?_
      · exact fun h ↦ h
      · exact fun h ↦ h
      · exact fun hown _ ↦ hown.refused trivial
  | beat =>
      obtain rfl := hcaller
      refine h.respond ht trivial rfl Iff.rfl nofun ⟨_, rfl⟩ nofun ?_ ?_ ?_
      · exact fun h ↦ h
      · exact fun h ↦ h
      · exact fun _ ↦ False.elim

/-- A statement that finds the recommendation pending where it marks it does not come late. -/
theorem not_late_turn {w : Write} (hlegal : Legal projectId id t w) (ht : ¬ t.stage.late)
    (hintime : ∀ caller i, w = .markReviewed caller i → isPending d.board i) :
    Service.wp (perform w) (fun r _ ↦ ¬ (turn t w r).stage.late) (fun _ _ ↦ True) d := by
  have hall : ∀ {w : Write}, (∀ r, ¬ (turn t w r).stage.late) →
      Service.wp (perform w) (fun r _ ↦ ¬ (turn t w r).stage.late) (fun _ _ ↦ True) d := by
    intro w hr
    unfold Service.wp
    split
    · exact hr _
    · trivial
  cases hlegal with
  | markEdited =>
      have hmarked : ((d.board.recommendations.find id).any fun r ↦ r.reviewStatus = .pending) =
          true := hintime _ _ rfl
      unfold Service.wp ReviewBoard.perform
      dsimp only
      rw [hmarked]
      exact fun h ↦ h
  | mark =>
      apply hall
      intro marked
      cases marked with
      | true => exact fun h ↦ h
      | false => exact fun h ↦ h
  | lock =>
      apply hall
      intro found
      cases found with
      | none => exact fun h ↦ h
      | some r =>
          simp only [turn, nextStage]
          split
          · exact fun h ↦ h
          · exact fun h ↦ h
  | lockCases =>
      apply hall
      intro cases
      cases cases with
      | none => exact fun h ↦ h
      | some pair =>
          simp only [turn, nextStage]
          split
          · exact fun h ↦ h
          · exact fun h ↦ h
  | load | select | selectBefore =>
      apply hall
      intro found
      cases found with
      | none => exact fun h ↦ h
      | some r =>
          simp only [turn, nextStage]
          split
          · exact fun h ↦ h
          · exact fun h ↦ h
  | rollbackEdited | beat => exact (ht trivial).elim
  | _ => exact hall fun _ h ↦ h

end Statements

end Sound

/-! ## Runs -/

/-- The board, and the requests that come. -/
def start (board : Board) (now : Time) (projectId id : Uuid) (calls : ℕ → Option Request) :
    Requests :=
  ⟨⟨board, now, fun _ ↦ none, fun _ ↦ none, [], []⟩,
    fun k ↦ (calls k).map (Request.run k projectId id)⟩

/-- Who comes to mark a recommendation finds it pending. -/
def InTime (c : Requests) (k : ℕ) : Prop :=
  waiting c k = false → ∀ caller id,
    moving c (.advance k : Move Empty) = some (.markReviewed caller id) →
      isPending c.shared.board id

section Runs

variable {board : Board} {now : Time} {projectId id : Uuid} {calls : ℕ → Option Request}
  {c : Requests} {k : ℕ}

def firstPhase (calls : ℕ → Option Request) (k : ℕ) : Phase :=
  match calls k with
  | none => ⟨k, .keep none, .outside⟩
  | some request => ⟨k, request, .started⟩

theorem firstPhase_cases (calls : ℕ → Option Request) (k : ℕ) :
    (calls k = none ∧ firstPhase calls k = ⟨k, .keep none, .outside⟩) ∨
      ∃ request, calls k = some request ∧ firstPhase calls k = ⟨k, request, .started⟩ := by
  unfold firstPhase
  cases calls k with
  | none => exact .inl ⟨rfl, rfl⟩
  | some request => exact .inr ⟨request, rfl, rfl⟩

theorem sound_first : Sound board projectId id calls (start board now projectId id calls).shared
    (firstPhase calls) := by
  constructor
  · intro k
    rcases firstPhase_cases calls k with ⟨-, hk⟩ | ⟨request, -, hk⟩
    · rw [hk]
    · rw [hk]
  · intro k
    rcases firstPhase_cases calls k with ⟨hnone, hk⟩ | ⟨request, hcall, hk⟩
    · rw [hk]
      refine ⟨?_, trivial, nofun, nofun, nofun, False.elim⟩
      intro r hr
      rw [hnone] at hr
      cases hr
    · rw [hk]
      refine ⟨?_, trivial, nofun, nofun, nofun, False.elim⟩
      intro r hr
      rw [hcall] at hr
      exact ⟨Option.some.inj hr, nofun⟩
  · intro j k hj
    rcases firstPhase_cases calls j with ⟨-, hk⟩ | ⟨request, -, hk⟩
    · rw [hk] at hj
      exact hj.elim
    · rw [hk] at hj
      exact hj.elim
  · exact fun hstart hdecided ↦ (hdecided hstart).elim
  · exact fun _ ↦ rfl

theorem not_late_first (k : ℕ) : ¬ (firstPhase calls k).stage.late := by
  rcases firstPhase_cases calls k with ⟨-, hk⟩ | ⟨request, -, hk⟩
  · rw [hk]
    exact fun h ↦ h
  · rw [hk]
    exact fun h ↦ h

abbrev Going (board : Board) (projectId id : Uuid) (calls : ℕ → Option Request)
    (I : Data → (ℕ → Phase) → Prop) (c : Requests) : Prop :=
  Concluding turn (fun d phase ↦ Sound board projectId id calls d phase ∧ I d phase)
    (Legal projectId id) Final c

theorem going_start {I : Data → (ℕ → Phase) → Prop}
    (hI : I (start board now projectId id calls).shared (firstPhase calls)) :
    Going board projectId id calls I (start board now projectId id calls) := by
  refine ⟨firstPhase calls, ⟨sound_first, hI⟩, fun k ↦ ?_⟩
  have hpc : (start board now projectId id calls).pc k =
      (calls k).map (Request.run k projectId id) := rfl
  rw [hpc]
  rcases firstPhase_cases calls k with ⟨hnone, hk⟩ | ⟨request, hcall, hk⟩
  · rw [hnone, hk]
    trivial
  · rw [hcall, hk]
    exact passes_run

theorem waits_of_moving {w : Write} (hwaiting : ¬ waiting c k = true)
    (hw : moving c (.advance k : Move Empty) = some w) : waits c.shared w = false := by
  unfold waiting at hwaiting
  rw [hw] at hwaiting
  exact Bool.eq_false_of_not_eq_true hwaiting

theorem going_step (hc : Going board projectId id calls (fun _ _ ↦ True) c) :
    Going board projectId id calls (fun _ _ ↦ True) (step c k) := by
  unfold step
  split
  · exact hc
  · rename_i hwaiting
    apply Concluding.advance (P := fun d w ↦ waits d w = false) _ hc
    · exact fun w hw ↦ waits_of_moving hwaiting hw
    · rintro d phase k w ⟨hsound, -⟩ hlegal hwaits
      apply Service.wp_mono (hsound.perform hlegal hwaits)
      · exact fun _ _ h ↦ ⟨h, trivial⟩
      · exact fun _ _ h ↦ h

/-- While nobody marks late, nobody is late. -/
theorem going_step_inTime
    (hc : Going board projectId id calls (fun _ phase ↦ ∀ k, ¬ (phase k).stage.late) c)
    (hintime : InTime c k) :
    Going board projectId id calls (fun _ phase ↦ ∀ k, ¬ (phase k).stage.late) (step c k) := by
  unfold step
  split
  · exact hc
  · rename_i hwaiting
    apply Concluding.advance (P := fun d w ↦ waits d w = false ∧
      ∀ caller i, w = .markReviewed caller i → isPending d.board i) _ hc
    · intro w hw
      constructor
      · exact waits_of_moving hwaiting hw
      · rintro caller i rfl
        exact hintime (Bool.eq_false_of_not_eq_true hwaiting) caller i hw
    · rintro d phase k w ⟨hsound, hlate⟩ hlegal ⟨hwaits, hpending⟩
      have hturn := not_late_turn hlegal (hlate k) hpending
      apply Service.wp_mono (Service.wp_and (hsound.perform hlegal hwaits) hturn)
      · rintro r d' ⟨hsound', hnot⟩
        refine ⟨hsound', fun j ↦ ?_⟩
        by_cases hj : j = k
        · subst hj
          rw [Function.update_self]
          exact hnot
        · rw [Function.update_of_ne hj]
          exact hlate j
      · rintro e d' ⟨h, -⟩
        exact h

/-! ### Who has written -/

/-- Who changes the board is recorded as a writer, and stays one. -/
def Recorded (k : ℕ) (d d' : Data) : Prop :=
  (d'.board = d.board ∨ k ∈ d'.writers) ∧ ∀ j ∈ d.writers, j ∈ d'.writers

theorem recorded_refl {d : Data} : Recorded k d d := ⟨.inl rfl, fun _ h ↦ h⟩

theorem recorded_of_legal {t : Phase} {w : Write} {d : Data} (hlegal : Legal projectId id t w) :
    Service.wp (perform w) (fun _ d' ↦ Recorded t.caller d d') (fun _ _ ↦ False) d := by
  cases hlegal with
  | update =>
      unfold Service.wp ReviewBoard.perform
      dsimp only
      split
      · rename_i hdone
        split at hdone
        · cases hdone
          exact ⟨.inr mem_wrote, fun _ ↦ List.mem_append_left _⟩
        · cases hdone
          exact recorded_refl
      · rename_i hdone
        split at hdone
        · cases hdone
        · cases hdone
  | log =>
      apply (Service.wp_write _).mpr
      exact ⟨.inr mem_wrote, fun _ ↦ List.mem_append_left _⟩
  | @commit k request decision hid hstatus =>
      apply (Service.wp_write _).mpr
      exact ⟨.inr (mem_wrote (b := d.board.decide d.now decision)), fun _ ↦ List.mem_append_left _⟩
  | load | select | selectBefore | selectAfter | selectPair =>
      exact (Service.wp_query _).mpr recorded_refl
  | refuse | rollback | rollbackEdited | succeed | deny | beat =>
      exact (Service.wp_write _).mpr recorded_refl
  | lock | lockCases | mark | markEdited =>
      unfold Service.wp ReviewBoard.perform
      exact recorded_refl

theorem recorded_step (hc : Going board projectId id calls (fun _ _ ↦ True) c) :
    Recorded k c.shared (step c k).shared := by
  unfold step
  split
  · exact recorded_refl
  · rcases @move_cases _ _ _ _ _ perform Empty (fun none ↦ none.elim) c (.advance k) with
      ⟨-, hsame⟩ | ⟨w, hw, -⟩
    · rw [hsame]
      exact recorded_refl
    · have hafter : Concluding turn (fun d' _ ↦ Recorded k c.shared d') (Legal projectId id) Final
          (c.move (fun none : Empty ↦ none.elim) (fun _ ↦ Proc.exec perform) (.advance k)) := by
        apply hc.advance_write hw
        rintro phase ⟨hsound, -⟩ hlegal
        have hrecorded := recorded_of_legal (d := c.shared) hlegal
        rw [hsound.callers k] at hrecorded
        exact hrecorded
      obtain ⟨_, hrecorded, -⟩ := hafter
      exact hrecorded

theorem going_steps (ks : List ℕ) (hc : Going board projectId id calls (fun _ _ ↦ True) c) :
    Going board projectId id calls (fun _ _ ↦ True) (ks.foldl step c) := by
  induction ks generalizing c with
  | nil => exact hc
  | cons k ks ih => exact ih (going_step hc)

theorem going_steps_inTime {ks : List ℕ}
    (hc : Going board projectId id calls (fun _ phase ↦ ∀ k, ¬ (phase k).stage.late) c)
    (hintime : Along step InTime c ks) :
    Going board projectId id calls (fun _ phase ↦ ∀ k, ¬ (phase k).stage.late)
      (ks.foldl step c) := by
  induction ks generalizing c with
  | nil => exact hc
  | cons k ks ih => exact ih (going_step_inTime hc hintime.1) hintime.2

theorem writers_steps {j : ℕ} (ks : List ℕ) (hc : Going board projectId id calls (fun _ _ ↦ True) c)
    (hj : j ∈ c.shared.writers) : j ∈ (ks.foldl step c).shared.writers := by
  induction ks generalizing c with
  | nil => exact hj
  | cons k ks ih => exact ih (going_step hc) ((recorded_step hc).2 j hj)

/-- All answered, a request that could be carried out leaves one that was. -/
theorem Sound.exists_succeeded {d : Data} {phase : ℕ → Phase}
    (h : Sound board projectId id calls d phase) (hfinal : ∀ k, Final (phase k))
    {request : Request} (hcall : calls k = some request)
    (hcapable : Capable board projectId id request) : ∃ j, (phase j).stage = .succeeded := by
  -- a recommendation that is decided has been decided by one of them
  have hdecided : ¬ isPending d.board id → ∃ j, (phase j).stage = .succeeded := by
    intro hdecided
    obtain ⟨-, ⟨p, hload, hpending, -⟩, -⟩ := hcapable
    have hstart := pending_of_recommendation (recommendation_of_load hload).1 hpending
    obtain ⟨j, hj⟩ := h.winner hstart hdecided
    refine ⟨j, ?_⟩
    have hj' := hfinal j
    unfold Final at hj'
    revert hj hj'
    cases (phase j).stage with
    | succeeded => exact fun _ _ ↦ rfl
    | won => exact fun _ h ↦ h.elim
    | _ => exact fun h _ ↦ h.elim
  have hwriter : ∀ j, (phase j).stage.writes → ∃ j, (phase j).stage = .succeeded := by
    intro j hj
    have hj' := hfinal j
    have hfits := (h.own j).fits
    unfold Final at hj'
    cases hstage : (phase j).stage with
    | succeeded => exact ⟨j, hstage⟩
    | beaten =>
        rw [hstage] at hfits
        exact hdecided hfits
    | outside | denied =>
        rw [hstage] at hj
        exact hj.elim
    | _ =>
        rw [hstage] at hj'
        exact hj'.elim
  have hown := h.own k
  have hk := hfinal k
  obtain ⟨hrequest, hout⟩ := hown.asked request (by rw [h.callers k]; exact hcall)
  unfold Final at hk
  cases hstage : (phase k).stage with
  | outside => exact absurd hstage hout
  | succeeded => exact ⟨k, hstage⟩
  | beaten => exact hwriter k (by rw [hstage]; trivial)
  | denied =>
      have hrefused := hown.refused
      rw [hstage, hrequest] at hrefused
      obtain ⟨j, hj⟩ := List.exists_mem_of_ne_nil _ (hrefused trivial hcapable)
      apply hwriter j
      apply (h.own j).writer
      rw [h.callers j]
      exact hj
  | _ =>
      rw [hstage] at hk
      exact hk.elim

/-- Of any number of requests on a recommendation no two succeed, and one does when all have been
answered and one could be carried out; while who marks the recommendation finds it pending, one that
is answered with an error, such as a conflict, has left the board as it was. -/
theorem decided_once (board : Board) (now : Time) (projectId id : Uuid)
    (calls : ℕ → Option Request) (ks : List ℕ) :
    let first := start board now projectId id calls
    let c := ks.foldl step first
    (Along step InTime first ks → ∀ k e, (k, .error e) ∈ c.shared.responses →
      ∀ before after, ks = before ++ k :: after →
        ((before ++ [k]).foldl step first).shared.board = (before.foldl step first).shared.board) ∧
    (∀ j k, (j, .ok ()) ∈ c.shared.responses → (k, .ok ()) ∈ c.shared.responses → j = k) ∧
    ((∀ k, c.pc k = none) →
      (∃ k request, calls k = some request ∧ Capable board projectId id request) →
        ∃! k, (k, .ok ()) ∈ c.shared.responses) := by
  intro first c
  have hfirst : Going board projectId id calls (fun _ _ ↦ True) first := going_start trivial
  obtain ⟨phase, ⟨hsound, -⟩, hcalls⟩ := going_steps ks hfirst
  have hanswered : ∀ k o, (k, o) ∈ c.shared.responses → (phase k).stage.answers o := by
    intro k o ho
    apply (hsound.own k).answered
    rw [hsound.callers k]
    exact ho
  have hone : ∀ j k, (j, .ok ()) ∈ c.shared.responses → (k, .ok ()) ∈ c.shared.responses →
      j = k := fun j k hj hk ↦
    hsound.one j k (Stage.wins_of_answers (hanswered j _ hj))
      (Stage.wins_of_answers (hanswered k _ hk))
  refine ⟨?_, hone, ?_⟩
  · intro hintime k e hk before after hks
    obtain ⟨phase', ⟨hsound', hlate⟩, -⟩ := going_steps_inTime (going_start not_late_first) hintime
    have hbefore := going_steps before hfirst
    rw [List.foldl_append]
    rcases (recorded_step (k := k) hbefore).1 with hsame | hwrote
    · exact hsame
    · -- a request that has written and is answered with an error has come late
      have hwrote' := writers_steps after (going_step hbefore) hwrote
      have hsteps : after.foldl step (step (before.foldl step first) k) = c := by
        show _ = ks.foldl step first
        rw [hks, List.foldl_append, List.foldl_cons]
      rw [hsteps] at hwrote'
      have hwrites := (hsound'.own k).writer (by rw [hsound'.callers k]; exact hwrote')
      have hanswers := (hsound'.own k).answered (.error e) (by rw [hsound'.callers k]; exact hk)
      exact (hlate k (Stage.late_of_answers hwrites hanswers)).elim
  · rintro hended ⟨k, request, hcall, hcapable⟩
    have hfinal : ∀ k, Final (phase k) := by
      intro k
      have hk := hcalls k
      have hpc : (ks.foldl step first).pc k = none := hended k
      rw [hpc] at hk
      exact hk
    obtain ⟨j, hj⟩ := hsound.exists_succeeded hfinal hcall hcapable
    have hsucceeded := (hsound.own j).succeeded hj
    rw [hsound.callers j] at hsucceeded
    exact ⟨j, hsucceeded, fun i hi ↦ hone i j hi hsucceeded⟩

end Runs

end Deciding

/-! ### An edit and a decision that comes between -/

section Example

def reviewed (id : Uuid) (title : String) : Case where
  id := id
  externalId := s!"TES-{id}"
  title := some title
  preconditions := none
  postconditions := none
  testData := none
  steps := .array [.scalar (.text "Open the page")]
  description := none
  status := none
  suiteId := none
  priority := none
  severity := none
  type := none
  component := none
  ownerId := none
  jiraIssueKey := none
  linearIssueKey := none
  notionPageId := none
  projectId := 9
  updatedBy := none
  updatedAt := 0
  deletedAt := none
  deletedBy := none

/-- A recommendation on two test cases, as the analysis has left it. -/
def onePair : @Board asciiRuntime :=
  letI := asciiRuntime
  let a := toComparable (reviewed 1 "Log in").toTestcaseSource
  let b := toComparable (reviewed 2 "Log in again").toTestcaseSource
  let r : Recommendation := {
    id := 5, projectId := 9, aId := 1, bId := 2
    classification := .similar, similarity := (4 / 5 : ℚ), explanation := "", differences := []
    fingerprintA := a.fingerprint, fingerprintB := b.fingerprint
    stateFingerprintA := some a.stateFingerprint, stateFingerprintB := some b.stateFingerprint
    reviewStatus := .pending, reviewedBy := none, reviewedAt := none, removedTestcaseId := none
    lastRunId := some 7, createdAt := 0, updatedAt := 0, ordered := by decide }
  { testcases := ⟨[reviewed 1 "Log in", reviewed 2 "Log in again"], by decide⟩
    recommendations := ⟨[r], List.nodup_singleton _⟩
    runs := ⟨[], List.nodup_nil⟩
    audits := []
    onePair := by
      intro r₁ h₁ r₂ h₂ _ _ _
      rw [List.mem_singleton.mp h₁, List.mem_singleton.mp h₂] }

def newTitle : EditBody where
  testcaseId := some 1
  confirm := true
  text
    | .title => .value (.text "Log in twice")
    | _ => .undefined
  steps := .undefined
  requiredFields := .ok ()

/-- An edit, and a request to keep the pair. -/
def twoReviewers : ℕ → Option Request
  | 0 => some (.edit (some 3) newTitle)
  | 1 => some (.keep (some 4))
  | _ => none

/-- The edit has been checked, then the pair is kept, and then the edit is made. -/
def keptBetween : List ℕ := 0 :: List.replicate 6 1 ++ List.replicate 9 0

def after (ks : List ℕ) : @Requests asciiRuntime :=
  letI := asciiRuntime
  ks.foldl step (start onePair 100 9 5 twoReviewers)

def titleOf (b : @Board asciiRuntime) : Option String :=
  letI := asciiRuntime
  (b.testcases.find 1).bind fun c ↦ c.title

/-- The edit is answered with a conflict, and its test case has changed. -/
theorem edited_though_refused : letI := asciiRuntime
    ¬ ∀ k message, (k, .error (.conflict message)) ∈ (after keptBetween).shared.responses →
      ∀ before rest, keptBetween = before ++ k :: rest →
        (after (before ++ [k])).shared.board = (after before).shared.board := by
  let _ := asciiRuntime
  intro h
  have hresponses : (after keptBetween).shared.responses =
      [(1, .ok ()), (0, .error (.conflict "This recommendation was already reviewed."))] := by
    decide +kernel
  have hrefused : (0, .error (.conflict "This recommendation was already reviewed.")) ∈
      (after keptBetween).shared.responses := by
    rw [hresponses]
    exact List.mem_cons_of_mem _ (List.mem_singleton_self _)
  have hmoves : keptBetween = (0 :: List.replicate 6 1 ++ [0, 0]) ++ 0 :: List.replicate 6 0 := by
    decide
  have hsame := congrArg titleOf (h 0 _ hrefused _ _ hmoves)
  revert hsame
  decide +kernel

end Example

end Tesbo.ReviewBoard.Once
