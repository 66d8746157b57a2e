import Tesbo.ReviewBoard

/-!
# The history of a Review Board

Analyses, decisions of reviewers and changes of test cases, one after the other.  What an analysis
does to a row is `describe` and `swept`; what a decision does is `Board.decided`.
-/

namespace Tesbo.ReviewBoard

open Reasoning Proc

section History

variable [Runtime]

/-! ## Events -/

inductive Event where
  | queue (projectId : Uuid)
  | claim (runId : Uuid)
  | giveUp (runId : Uuid)
  | analysis (now : Time) (runId projectId : Uuid) (analysed : ℕ) (analysis : Analysis)
  | review (now : Time) (projectId id : Uuid) (request : Request)
  | change (testcases : Table fun c : Case ↦ c.id)

namespace Board

def queue (b : Board) (projectId : Uuid) : Board :=
  { b with runs := b.runs.push ⟨b.runs.newKey, projectId, "queued", none, none, false, none⟩ rfl }

/-- A queued run is claimed; one that is running may be claimed again. -/
def claim (b : Board) (runId : Uuid) : Board :=
  { b with
    runs := b.runs.updateWhere
      (fun run ↦ run.id = runId ∧ (run.status = "queued" ∨ run.status = "running"))
      (fun run ↦ { run with status := "running" }) fun _ ↦ rfl }

/-- A run that fails or expires. -/
def giveUp (b : Board) (runId : Uuid) : Board :=
  { b with
    runs := b.runs.updateWhere
      (fun run ↦ run.id = runId ∧ (run.status = "queued" ∨ run.status = "running"))
      (fun run ↦ { run with status := "failed" }) fun _ ↦ rfl }

/-- A request with nothing between its statements. -/
def review (b : Board) (now : Time) (projectId id : Uuid) (request : Request) : Board :=
  (Service.after ((request.run 0 projectId id).run perform)
    ⟨b, now, fun _ ↦ none, fun _ ↦ none, [], []⟩).board

/-- What an event leaves; an analysis that is refused is rolled back. -/
def apply (b : Board) : Event → Board
  | .queue projectId => b.queue projectId
  | .claim runId => b.claim runId
  | .giveUp runId => b.giveUp runId
  | .analysis now runId projectId analysed analysis =>
      match b.persist now runId projectId analysed analysis with
      | .ok b' => b'
      | .error _ => b
  | .review now projectId id request => b.review now projectId id request
  | .change testcases => { b with testcases := testcases }

def row (b : Board) (id : Uuid) : Option Recommendation := b.recommendations.find id

end Board

/-! ## What an analysis does to a row -/

/-- The upsert of one finding, as a row sees it. -/
def describeBy (now : Time) (projectId runId : Uuid) (r : Recommendation) (f : Finding) :
    Recommendation :=
  if r.ofPair projectId f.aId f.bId && r.reviewStatus ≠ .removed then
    Board.redescribe now runId f r
  else r

def describe (now : Time) (projectId runId : Uuid) (findings : List Finding)
    (r : Recommendation) : Recommendation :=
  findings.foldl (describeBy now projectId runId) r

/-- The sweep, as a row sees it. -/
def swept (now : Time) (projectId runId : Uuid) (r : Recommendation) : Recommendation :=
  if r.projectId = projectId ∧ r.reviewStatus = .pending ∧ r.lastRunId ≠ some runId then
    { r with reviewStatus := .obsolete, updatedAt := now }
  else r

variable {b b' : Board} {now : Time} {projectId runId : Uuid} {f : Finding} {findings : List Finding}
  {r : Recommendation}

/-- The same row of the same pair. -/
structure SameRow (r r' : Recommendation) : Prop where
  id : r'.id = r.id
  projectId : r'.projectId = r.projectId
  aId : r'.aId = r.aId
  bId : r'.bId = r.bId

theorem SameRow.refl (r : Recommendation) : SameRow r r := ⟨rfl, rfl, rfl, rfl⟩

theorem SameRow.trans {r r' r'' : Recommendation} (h : SameRow r r') (h' : SameRow r' r'') :
    SameRow r r'' :=
  ⟨h'.id.trans h.id, h'.projectId.trans h.projectId, h'.aId.trans h.aId, h'.bId.trans h.bId⟩

theorem SameRow.ofPair {r r' : Recommendation} (h : SameRow r r') (projectId aId bId : Uuid) :
    r'.ofPair projectId aId bId = r.ofPair projectId aId bId := by
  unfold Recommendation.ofPair
  rw [h.projectId, h.aId, h.bId]

theorem sameRow_describeBy (r : Recommendation) (f : Finding) :
    SameRow r (describeBy now projectId runId r f) := by
  unfold describeBy
  split
  · exact ⟨rfl, rfl, rfl, rfl⟩
  · exact SameRow.refl r

theorem sameRow_describe (r : Recommendation) (findings : List Finding) :
    SameRow r (describe now projectId runId findings r) := by
  unfold describe
  induction findings generalizing r with
  | nil => exact SameRow.refl r
  | cons f findings ih => exact (sameRow_describeBy r f).trans (ih _)

theorem sameRow_swept (r : Recommendation) : SameRow r (swept now projectId runId r) := by
  unfold swept
  split
  · exact ⟨rfl, rfl, rfl, rfl⟩
  · exact SameRow.refl r

/-! ### The tables an analysis leaves -/

theorem mem_upsert (h : b.upsert now projectId runId f = .ok b') (hr : r ∈ b.recommendations) :
    describeBy now projectId runId r f ∈ b'.recommendations := by
  unfold Board.upsert at h
  split at h
  · obtain rfl := Except.ok.inj h
    exact List.mem_map.mpr ⟨r, hr, rfl⟩
  · rename_i hnone
    have hstay : describeBy now projectId runId r f = r := by
      unfold describeBy
      rw [if_neg]
      intro hpair
      exact hnone ⟨r, hr, (Bool.and_eq_true_iff.mp hpair).1⟩
    split at h
    · obtain rfl := Except.ok.inj h
      rw [hstay]
      exact List.mem_append_left _ hr
    · cases h

theorem mem_upsertAll (h : Board.upsertAll now projectId runId findings b = .ok b')
    (hr : r ∈ b.recommendations) :
    describe now projectId runId findings r ∈ b'.recommendations := by
  induction findings generalizing b r with
  | nil =>
      obtain rfl := Except.ok.inj h
      exact hr
  | cons f findings ih =>
      obtain ⟨b₁, h₁, h⟩ := except_bind_eq_ok.mp h
      exact ih h (mem_upsert h₁ hr)

/-- What a finding writes of its pair. -/
structure Described (projectId runId : Uuid) (f : Finding) (r : Recommendation) : Prop where
  projectId : r.projectId = projectId
  aId : r.aId = f.aId
  bId : r.bId = f.bId
  classification : r.classification = f.classification
  similarity : r.similarity = f.similarity
  fingerprintA : r.fingerprintA = f.fingerprintA
  fingerprintB : r.fingerprintB = f.fingerprintB
  lastRunId : r.lastRunId = some runId

theorem ofPair_iff {aId bId : Uuid} : r.ofPair projectId aId bId = true ↔
    r.projectId = projectId ∧ r.aId = aId ∧ r.bId = bId := decide_eq_true_iff

/-- A row is left alone, or a finding describes it. -/
theorem describeBy_cases (now : Time) (r : Recommendation) (f : Finding) :
    describeBy now projectId runId r f = r ∨
      Described projectId runId f (describeBy now projectId runId r f) := by
  unfold describeBy
  split
  · rename_i h
    obtain ⟨hproject, ha, hb⟩ := ofPair_iff.mp (Bool.and_eq_true_iff.mp h).1
    exact .inr ⟨hproject, ha, hb, rfl, rfl, rfl, rfl, rfl⟩
  · exact .inl rfl

/-! ### A run that is written -/

/-- The transaction of a run that is still running. -/
theorem persist_running {analysed : ℕ} {analysis : Analysis} (hrunning : b.isRunning runId = true)
    (h : b.persist now runId projectId analysed analysis = .ok b') :
    ∃ b₁, Board.upsertAll now projectId runId analysis.findings
        (b.complete now runId analysed analysis.findings.length analysis.truncated) = .ok b₁ ∧
      b' = b₁.sweep now projectId runId := by
  unfold Board.persist at h
  rw [if_pos hrunning] at h
  obtain ⟨b₁, h₁, h⟩ := except_bind_eq_ok.mp h
  exact ⟨b₁, h₁, (Except.ok.inj h).symm⟩

theorem mem_persist {analysed : ℕ} {analysis : Analysis} (hrunning : b.isRunning runId = true)
    (h : b.persist now runId projectId analysed analysis = .ok b') (hr : r ∈ b.recommendations) :
    swept now projectId runId (describe now projectId runId analysis.findings r) ∈
      b'.recommendations := by
  obtain ⟨b₁, h₁, rfl⟩ := persist_running hrunning h
  have hmem : describe now projectId runId analysis.findings r ∈ b₁.recommendations :=
    mem_upsertAll h₁ hr
  apply List.mem_map.mpr
  refine ⟨_, hmem, ?_⟩
  unfold swept
  simp only [decide_eq_true_eq]

theorem persist_not_running {analysed : ℕ} {analysis : Analysis}
    (hrunning : b.isRunning runId = false)
    (h : b.persist now runId projectId analysed analysis = .ok b') : b' = b := by
  unfold Board.persist at h
  rw [if_neg (by rw [hrunning]; exact Bool.false_ne_true)] at h
  exact (Except.ok.inj h).symm

/-! ### What becomes of the status of a row -/

theorem describe_removed (h : r.reviewStatus = .removed) (findings : List Finding) :
    describe now projectId runId findings r = r := by
  unfold describe
  induction findings with
  | nil => rfl
  | cons f findings ih =>
      have hstay : describeBy now projectId runId r f = r := by
        unfold describeBy
        rw [h, if_neg]
        simp
      rw [List.foldl_cons, hstay]
      exact ih

theorem describe_edited (h : r.reviewStatus = .edited) (findings : List Finding) :
    (describe now projectId runId findings r).reviewStatus = .edited := by
  unfold describe
  induction findings generalizing r with
  | nil => exact h
  | cons f findings ih =>
      apply ih
      unfold describeBy
      split
      · have hreopens : Board.reopens r f = false := by
          simp [Board.reopens, h]
        show (if Board.reopens r f then ReviewStatus.pending else r.reviewStatus) = _
        rw [hreopens]
        exact h
      · exact h

/-- The fingerprints a row was last described with are those of the finding. -/
def agrees (r : Recommendation) (f : Finding) : Prop :=
  r.fingerprintA = f.fingerprintA ∧ r.fingerprintB = f.fingerprintB

/-- A kept row that every finding of its pair agrees with stays kept, with its fingerprints. -/
theorem describe_kept (h : r.reviewStatus = .kept) (findings : List Finding)
    (hagrees : ∀ f ∈ findings, r.ofPair projectId f.aId f.bId = true → agrees r f) :
    (describe now projectId runId findings r).reviewStatus = .kept ∧
      (describe now projectId runId findings r).fingerprintA = r.fingerprintA ∧
      (describe now projectId runId findings r).fingerprintB = r.fingerprintB := by
  unfold describe
  induction findings generalizing r with
  | nil => exact ⟨h, rfl, rfl⟩
  | cons f findings ih =>
      have hdescribed : (describeBy now projectId runId r f).reviewStatus = .kept ∧
          (describeBy now projectId runId r f).fingerprintA = r.fingerprintA ∧
          (describeBy now projectId runId r f).fingerprintB = r.fingerprintB := by
        unfold describeBy
        split
        · rename_i hpair
          have hf := hagrees f List.mem_cons_self (Bool.and_eq_true_iff.mp hpair).1
          have hreopens : Board.reopens r f = false := by
            simp [Board.reopens, h, hf.1, hf.2]
          refine ⟨?_, hf.1.symm, hf.2.symm⟩
          show (if Board.reopens r f then ReviewStatus.pending else r.reviewStatus) = _
          rw [hreopens]
          exact h
        · exact ⟨h, rfl, rfl⟩
      obtain ⟨hkept, ha, hb⟩ := hdescribed
      obtain ⟨hkept', ha', hb'⟩ := ih hkept fun g hg hpair ↦ by
        rw [(sameRow_describeBy r f).ofPair] at hpair
        obtain ⟨ga, gb⟩ := hagrees g (List.mem_cons_of_mem _ hg) hpair
        exact ⟨ha.trans ga, hb.trans gb⟩
      exact ⟨hkept', ha'.trans ha, hb'.trans hb⟩

/-- A row is left alone, or ends as some finding describes it. -/
theorem describe_cases (r : Recommendation) (findings : List Finding) :
    describe now projectId runId findings r = r ∨
      ∃ f ∈ findings, Described projectId runId f (describe now projectId runId findings r) := by
  induction findings generalizing r with
  | nil => exact .inl rfl
  | cons f findings ih =>
      show describe now projectId runId findings (describeBy now projectId runId r f) = r ∨
        ∃ g ∈ f :: findings, Described projectId runId g
          (describe now projectId runId findings (describeBy now projectId runId r f))
      rcases ih (describeBy now projectId runId r f) with hstay | ⟨g, hg, hdescribed⟩
      · rw [hstay]
        rcases describeBy_cases now r f with hsame | hdescribed
        · exact .inl hsame
        · exact .inr ⟨f, List.mem_cons_self, hdescribed⟩
      · exact .inr ⟨g, List.mem_cons_of_mem _ hg, hdescribed⟩

/-- What an analysis makes of a status that it does not leave: the row is to be reviewed. -/
theorem describe_status {P : ReviewStatus → Prop} (hpending : P .pending) (h : P r.reviewStatus)
    (findings : List Finding) : P (describe now projectId runId findings r).reviewStatus := by
  unfold describe
  induction findings generalizing r with
  | nil => exact h
  | cons f findings ih =>
      apply ih
      unfold describeBy
      split
      · show P (if Board.reopens r f then .pending else r.reviewStatus)
        split
        · exact hpending
        · exact h
      · exact h

/-- A kept row that some finding of its pair does not agree with is to be reviewed again. -/
theorem describe_reopened (h : r.reviewStatus = .kept) (findings : List Finding)
    (hdiffers : ∃ f ∈ findings, r.ofPair projectId f.aId f.bId = true ∧ ¬ agrees r f) :
    (describe now projectId runId findings r).reviewStatus = .pending := by
  induction findings generalizing r with
  | nil =>
      obtain ⟨f, hf, -⟩ := hdiffers
      cases hf
  | cons f findings ih =>
      show (describe now projectId runId findings (describeBy now projectId runId r f)).reviewStatus =
        .pending
      by_cases hpair : r.ofPair projectId f.aId f.bId = true
      · have hdescribed : describeBy now projectId runId r f = Board.redescribe now runId f r := by
          unfold describeBy
          rw [if_pos]
          rw [hpair, h]
          rfl
        by_cases hagrees : agrees r f
        · -- described by it, the row is still the one the others are compared with
          have hreopens : Board.reopens r f = false := by
            simp [Board.reopens, h, hagrees.1, hagrees.2]
          apply ih
          · rw [hdescribed]
            show (if Board.reopens r f then ReviewStatus.pending else r.reviewStatus) = _
            rw [hreopens]
            exact h
          · obtain ⟨g, hg, hgpair, hgdiffers⟩ := hdiffers
            rcases List.mem_cons.mp hg with rfl | hg
            · exact absurd hagrees hgdiffers
            · refine ⟨g, hg, ?_, ?_⟩
              · rw [(sameRow_describeBy r f).ofPair]
                exact hgpair
              · rw [hdescribed]
                rintro ⟨ha, hb⟩
                exact hgdiffers ⟨hagrees.1.trans ha, hagrees.2.trans hb⟩
        · have hreopens : Board.reopens r f = true := by
            unfold agrees at hagrees
            simp only [Board.reopens, h]
            simp only [decide_eq_true_eq]
            exact .inr ⟨nofun, by tauto⟩
          apply describe_status (P := fun s ↦ s = .pending) rfl
          rw [hdescribed]
          show (if Board.reopens r f then ReviewStatus.pending else r.reviewStatus) = _
          rw [if_pos hreopens]
      · have hstay : describeBy now projectId runId r f = r := by
          unfold describeBy
          rw [if_neg]
          exact fun hboth ↦ hpair (Bool.and_eq_true_iff.mp hboth).1
        rw [hstay]
        apply ih h
        obtain ⟨g, hg, hgpair, hgdiffers⟩ := hdiffers
        rcases List.mem_cons.mp hg with rfl | hg
        · exact absurd hgpair hpair
        · exact ⟨g, hg, hgpair, hgdiffers⟩

theorem swept_of_run (h : r.lastRunId = some runId) : swept now projectId runId r = r := by
  unfold swept
  rw [if_neg]
  exact fun hsweep ↦ hsweep.2.2 h

theorem swept_of_ne (h : r.reviewStatus ≠ .pending) : swept now projectId runId r = r := by
  unfold swept
  rw [if_neg]
  exact fun hsweep ↦ h hsweep.2.1

/-! ## What a request does to the rows -/

/-- What a decision that is made rests on. -/
structure Decides (b : Board) (projectId id : Uuid) (d : Decision) : Prop where
  recommendationId : d.recommendationId = id
  status : d.status ≠ .pending ∧ d.status ≠ .obsolete
  pending : ∃ r, b.row id = some r ∧ r.reviewStatus = .pending
  kept : d.status = .kept → d.finding = none ∧
    ∃ p, b.loadForAction projectId id = some p ∧ assertFresh p = .ok ()

/-- The rows are left alone, but for that of a decision. -/
def Reviewed (projectId id : Uuid) (x x' : Data) : Prop :=
  x'.board.recommendations = x.board.recommendations ∨
    ∃ d, Decides x.board projectId id d ∧
      Table.UpdatedRows x.board.recommendations x'.board.recommendations
        (fun r ↦ r.id = id) (Board.decided x.now d)

/-- Statements that are not of a decision leave the rows alone. -/
def RowsKept (x x' : Data) : Prop :=
  x'.board.recommendations = x.board.recommendations ∧ x'.now = x.now

section Requests

variable {x : Data} {k : ℕ} {id : Uuid}

theorem perform_total (w : Write) (x : Data) :
    Service.wp (perform w) (fun _ _ ↦ True) (fun _ _ ↦ False) x := by
  cases w with
  | updateTestCase caller testcaseId uid changes =>
      unfold Service.wp perform
      dsimp only
      split
      · trivial
      · rename_i h
        split at h
        · cases h
        · cases h
  | loadForAction | selectCase | selectAfter | selectPair => exact (Service.wp_query _).mpr trivial
  | log | commit | rollback | respond => exact (Service.wp_write _).mpr trivial
  | lockRecommendation | lockCases | markReviewed =>
      unfold Service.wp perform
      trivial

/-- A transaction that has only read leaves the rows as they are, or decided. -/
theorem wp_transaction {x₀ : Data} {p : Procedure Decision} (hx₀ : RowsKept x₀ x)
    (hp : Service.wp (p.run perform)
      (fun d x' ↦ x'.board = x.board ∧ x'.now = x.now ∧ Decides x₀.board projectId id d)
      (fun _ x' ↦ x'.board = x.board) x) :
    Service.wp ((transaction k p).run perform) (fun _ x' ↦ Reviewed projectId id x₀ x')
      (fun _ x' ↦ Reviewed projectId id x₀ x') x := by
  unfold transaction
  apply wp_run_attempt_seq perform_total hp
  · rintro d x' ⟨hboard, hnow, hdecides⟩
    apply wp_run_issue (w := Write.commit k d)
    apply (Service.wp_write _).mpr
    refine .inr ⟨d, hdecides, ?_⟩
    have hrows := x.board.rows_decide x.now d
    rw [hdecides.recommendationId] at hrows
    show Table.UpdatedRows x₀.board.recommendations (x'.board.decide x'.now d).recommendations _ _
    rw [hboard, hnow, ← hx₀.1, ← hx₀.2]
    exact hrows
  · intro e x' hboard
    apply wp_run_seq (P := fun _ x' ↦ x'.board = x.board)
    · apply wp_run_issue (w := Write.rollback k)
      exact (Service.wp_write _).mpr hboard
    · intro _ x' hboard
      apply (Service.wp_fail e).mpr
      left
      rw [hboard]
      exact hx₀.1

theorem wp_lockPair : Service.wp ((lockPair k projectId id).run perform)
    (fun p x' ↦ x'.board = x.board ∧ x'.now = x.now ∧
      x.board.loadForAction projectId id = some p ∧ p.recommendation.reviewStatus = .pending)
    (fun _ x' ↦ x'.board = x.board) x := by
  unfold lockPair
  apply wp_run_seq (P := fun found x' ↦ x'.board = x.board ∧ x'.now = x.now ∧
    found = x.board.recommendation projectId id)
  · apply wp_run_issue (w := Write.lockRecommendation k projectId id)
    unfold Service.wp perform
    exact ⟨rfl, rfl, rfl⟩
  · rintro found x₁ ⟨hboard, hnow, rfl⟩
    cases hr : x.board.recommendation projectId id with
    | none => exact (Service.wp_fail _).mpr hboard
    | some r =>
        apply wp_run_ofExcept_seq
        · exact fun _ ↦ hboard
        intro _ hpending
        have hstatus : r.reviewStatus = .pending := by
          unfold assertPending at hpending
          by_contra hnot
          rw [if_neg hnot] at hpending
          cases hpending
        apply wp_run_seq (P := fun cases x' ↦ x'.board = x.board ∧ x'.now = x.now ∧
          cases = x.board.livePair projectId r.aId r.bId)
        · apply wp_run_issue (w := Write.lockCases k projectId r.aId r.bId)
          unfold Service.wp perform
          exact ⟨hboard, hnow, by rw [hboard]⟩
        · rintro cases x₂ ⟨hboard, hnow, rfl⟩
          cases hcases : x.board.livePair projectId r.aId r.bId with
          | none => exact (Service.wp_fail _).mpr hboard
          | some pair =>
              apply (Service.wp_pure _).mpr
              refine ⟨hboard, hnow, ?_, hstatus⟩
              unfold Board.loadForAction
              rw [hr]
              show (x.board.livePair projectId r.aId r.bId).bind _ = _
              rw [hcases]
              rfl

theorem wp_markReviewed : Service.wp ((markReviewed k id).run perform)
    (fun _ x' ↦ x'.board = x.board ∧ x'.now = x.now ∧
      ∃ r, x.board.row id = some r ∧ r.reviewStatus = .pending)
    (fun _ x' ↦ x'.board = x.board) x := by
  unfold markReviewed
  apply wp_run_seq (P := fun marked x' ↦ x'.board = x.board ∧ x'.now = x.now ∧
    marked = (x.board.row id).any fun r ↦ r.reviewStatus = .pending)
  · apply wp_run_issue (w := Write.markReviewed k id)
    unfold Service.wp perform
    exact ⟨rfl, rfl, rfl⟩
  · rintro marked x₁ ⟨hboard, hnow, rfl⟩
    apply wp_run_require
    · exact fun _ ↦ hboard
    · intro hmarked
      refine ⟨hboard, hnow, ?_⟩
      obtain ⟨r, hr, hpending⟩ := (Option.any_eq_true _ _).mp hmarked
      exact ⟨r, hr, of_decide_eq_true hpending⟩

theorem wp_keep {userId : Option Uuid} :
    Service.wp ((keep k userId projectId id).run perform)
      (fun _ x' ↦ Reviewed projectId id x x') (fun _ x' ↦ Reviewed projectId id x x') x := by
  unfold keep
  apply wp_transaction ⟨rfl, rfl⟩
  apply wp_run_seq wp_lockPair
  rintro p x₁ ⟨hboard, hnow, hload, -⟩
  apply wp_run_ofExcept_seq
  · exact fun _ ↦ hboard
  intro _ hfresh
  apply wp_run_seq (P := fun _ x' ↦ x'.board = x.board ∧ x'.now = x.now ∧
    ∃ r, x.board.row id = some r ∧ r.reviewStatus = .pending)
  · apply Service.wp_mono wp_markReviewed
    · rintro _ x₂ ⟨hboard', hnow', hpending⟩
      rw [hboard] at hpending
      exact ⟨hboard'.trans hboard, hnow'.trans hnow, hpending⟩
    · exact fun _ _ hboard' ↦ hboard'.trans hboard
  · rintro _ x₂ ⟨hboard₂, hnow₂, hpending⟩
    apply (Service.wp_pure _).mpr
    exact ⟨hboard₂, hnow₂, rfl, ⟨nofun, nofun⟩, hpending, fun _ ↦ ⟨rfl, p, hload, hfresh⟩⟩

theorem wp_remove {userId : Option Uuid} {body : RemoveBody} :
    Service.wp ((remove k userId projectId id body).run perform)
      (fun _ x' ↦ Reviewed projectId id x x') (fun _ x' ↦ Reviewed projectId id x x') x := by
  unfold remove
  apply wp_run_require_seq
  · exact .inl rfl
  intro _
  apply wp_transaction ⟨rfl, rfl⟩
  apply wp_run_seq wp_lockPair
  rintro p x₁ ⟨hboard, hnow, -, -⟩
  apply wp_run_ofExcept_seq
  · exact fun _ ↦ hboard
  intro testcaseId _
  apply wp_run_ofExcept_seq
  · exact fun _ ↦ hboard
  intro _ _
  apply wp_run_seq (P := fun _ x' ↦ x'.board = x.board ∧ x'.now = x.now ∧
    ∃ r, x.board.row id = some r ∧ r.reviewStatus = .pending)
  · apply Service.wp_mono wp_markReviewed
    · rintro _ x₂ ⟨hboard', hnow', hpending⟩
      rw [hboard] at hpending
      exact ⟨hboard'.trans hboard, hnow'.trans hnow, hpending⟩
    · exact fun _ _ hboard' ↦ hboard'.trans hboard
  · rintro _ x₂ ⟨hboard₂, hnow₂, hpending⟩
    apply (Service.wp_pure _).mpr
    exact ⟨hboard₂, hnow₂, rfl, ⟨nofun, nofun⟩, hpending, nofun⟩

theorem wp_updateTestCase {userId : Option Uuid} {testcaseId : Uuid} {changes : CaseChanges}
    {requiredFields : Except Failure Unit} :
    Service.wp ((updateTestCase k userId projectId testcaseId changes requiredFields).run perform)
      (fun _ x' ↦ RowsKept x x') (fun _ x' ↦ RowsKept x x') x := by
  unfold updateTestCase
  apply wp_run_ofExcept_seq
  · exact fun _ ↦ ⟨rfl, rfl⟩
  intro uid _
  apply wp_run_ofExcept_seq
  · exact fun _ ↦ ⟨rfl, rfl⟩
  intro _ _
  apply wp_run_seq (P := fun _ x' ↦ RowsKept x x')
  · apply wp_run_issue (w := Write.selectCase projectId testcaseId)
    exact (Service.wp_query _).mpr ⟨rfl, rfl⟩
  intro before x₁ h₁
  cases before with
  | none => exact (Service.wp_fail _).mpr h₁
  | some before =>
      apply wp_run_ofExcept_seq
      · exact fun _ ↦ h₁
      intro _ _
      apply wp_run_seq (P := fun _ x' ↦ RowsKept x x')
      · apply wp_run_issue (w := Write.updateTestCase k testcaseId uid changes)
        unfold Service.wp perform
        dsimp only
        split
        · rename_i hdone
          split at hdone
          · cases hdone
            exact h₁
          · cases hdone
            exact h₁
        · rename_i hdone
          split at hdone
          · cases hdone
          · cases hdone
      · intro after x₂ h₂
        apply wp_run_issue (w := Write.log k _)
        exact (Service.wp_write _).mpr h₂

theorem wp_edit {userId : Option Uuid} {body : EditBody} :
    Service.wp ((edit k userId projectId id body).run perform)
      (fun _ x' ↦ Reviewed projectId id x x') (fun _ x' ↦ Reviewed projectId id x x') x := by
  unfold edit
  apply wp_run_seq (P := fun _ x' ↦ RowsKept x x')
  · apply wp_run_issue (w := Write.loadForAction projectId id)
    exact (Service.wp_query _).mpr ⟨rfl, rfl⟩
  intro loaded x₁ h₁
  cases loaded with
  | none => exact (Service.wp_fail _).mpr (.inl h₁.1)
  | some p =>
      apply wp_run_ofExcept_seq
      · exact fun _ ↦ .inl h₁.1
      intro testcaseId _
      apply wp_run_ofExcept_seq
      · exact fun _ ↦ .inl h₁.1
      intro _ _
      apply wp_run_ofExcept_seq
      · exact fun _ ↦ .inl h₁.1
      intro _ _
      apply wp_run_require_seq
      · exact .inl h₁.1
      intro _
      apply wp_run_ofExcept_seq
      · exact fun _ ↦ .inl h₁.1
      intro changes _
      apply wp_run_seq (P := fun _ x' ↦ RowsKept x x')
      · apply wp_run_issue (w := Write.selectCase projectId testcaseId)
        exact (Service.wp_query _).mpr h₁
      intro current x₂ h₂
      cases current with
      | none => exact (Service.wp_fail _).mpr (.inl h₂.1)
      | some current =>
          apply wp_run_seq (P := fun _ x' ↦ RowsKept x x')
          · apply Service.wp_mono wp_updateTestCase
            · exact fun _ x₃ h ↦ ⟨h.1.trans h₂.1, h.2.trans h₂.2⟩
            · exact fun _ x₃ h ↦ .inl (h.1.trans h₂.1)
          intro _ x₃ h₃
          apply wp_run_seq (P := fun _ x' ↦ RowsKept x x')
          · apply wp_run_issue (w := Write.selectAfter projectId testcaseId)
            exact (Service.wp_query _).mpr h₃
          intro after x₄ h₄
          apply wp_transaction h₄
          apply wp_run_seq wp_markReviewed
          rintro _ x₅ ⟨hboard, hnow, hpending⟩
          unfold Board.row at hpending
          rw [h₄.1] at hpending
          apply wp_run_seq (P := fun _ x' ↦ x'.board = x₄.board ∧ x'.now = x₄.now)
          · apply wp_run_issue (w := Write.selectPair projectId _ _)
            exact (Service.wp_query _).mpr ⟨hboard, hnow⟩
          rintro cases x₆ ⟨hboard, hnow⟩
          apply (Service.wp_pure _).mpr
          exact ⟨hboard, hnow, rfl, ⟨nofun, nofun⟩, hpending, nofun⟩

/-- A request leaves the rows as they are, or decided. -/
theorem rows_review (b : Board) (now : Time) (projectId id : Uuid) (request : Request) :
    (b.review now projectId id request).recommendations = b.recommendations ∨
      ∃ d, Decides b projectId id d ∧
        Table.UpdatedRows b.recommendations (b.review now projectId id request).recommendations
          (fun r ↦ r.id = id) (Board.decided now d) := by
  let x : Data := ⟨b, now, fun _ ↦ none, fun _ ↦ none, [], []⟩
  have hreviewed : Service.wp ((request.run 0 projectId id).run perform)
      (fun _ x' ↦ Reviewed projectId id x x') (fun _ x' ↦ Reviewed projectId id x x') x := by
    unfold Request.run
    have hanswered : ∀ {p : Procedure Unit}, Service.wp (p.run perform)
        (fun _ x' ↦ Reviewed projectId id x x') (fun _ x' ↦ Reviewed projectId id x x') x →
        Service.wp ((p.attempt >>= fun outcome ↦ issue (Write.respond 0 outcome)).run perform)
          (fun _ x' ↦ Reviewed projectId id x x') (fun _ x' ↦ Reviewed projectId id x x') x := by
      intro p hp
      apply wp_run_attempt_seq perform_total hp
      · intro _ x' h
        apply wp_run_issue (w := Write.respond 0 _)
        exact (Service.wp_write _).mpr h
      · intro e x' h
        apply wp_run_issue (w := Write.respond 0 _)
        exact (Service.wp_write _).mpr h
    cases request with
    | keep userId => exact hanswered wp_keep
    | remove userId body => exact hanswered wp_remove
    | edit userId body => exact hanswered wp_edit
  exact Service.after_of_wp hreviewed

end Requests

end History

end Tesbo.ReviewBoard
