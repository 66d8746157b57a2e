import Tesbo.ReviewHistory

/-!
# What reviewers have decided outlasts the analyses

A removed recommendation is never touched again, an edited one stays edited, and a kept one is to be
reviewed again only where an analysis finds its pair with another content than the reviewer saw.
-/

namespace Tesbo.ReviewBoard

open Reasoning

section Lasting

variable [Runtime]

/-- What an event makes of a row. -/
inductive Becomes (b : Board) (id : Uuid) (r : Recommendation) : Event → Recommendation → Prop where
  | stays {e} : Becomes b id r e r
  | described {now runId projectId analysed analysis} :
      Becomes b id r (.analysis now runId projectId analysed analysis)
        (swept now projectId runId (describe now projectId runId analysis.findings r))
  | decided {now projectId request d} (hdecides : Decides b projectId id d) :
      Becomes b id r (.review now projectId id request) (Board.decided now d r)

variable {b : Board} {e : Event} {id : Uuid} {r r' : Recommendation}

theorem row_eq_some : b.row id = some r ↔ r ∈ b.recommendations ∧ r.id = id := Table.find_eq_some

theorem row_apply (hr : b.row id = some r) (e : Event) :
    ∃ r', (b.apply e).row id = some r' ∧ Becomes b id r e r' := by
  obtain ⟨hmem, hid⟩ := row_eq_some.mp hr
  cases e with
  | queue | claim | giveUp | change => exact ⟨r, hr, .stays⟩
  | analysis now runId projectId analysed analysis =>
      unfold Board.apply
      dsimp only
      cases hpersist : b.persist now runId projectId analysed analysis with
      | error e => exact ⟨r, hr, .stays⟩
      | ok b' =>
          cases hrunning : b.isRunning runId with
          | false =>
              rw [persist_not_running hrunning hpersist]
              exact ⟨r, hr, .stays⟩
          | true =>
              refine ⟨_, row_eq_some.mpr ⟨mem_persist hrunning hpersist hmem, ?_⟩, .described⟩
              rw [(sameRow_swept _).id, (sameRow_describe r _).id]
              exact hid
  | review now projectId id' request =>
      rcases rows_review b now projectId id' request with hsame | ⟨d, hdecides, hrows⟩
      · refine ⟨r, ?_, .stays⟩
        show (b.review now projectId id' request).recommendations.find id = some r
        rw [hsame]
        exact hr
      · have hfind := hrows.find (fun r ↦ (Board.decided_pair now d r).1) id
        have hrow : b.recommendations.find id = some r := hr
        rw [hrow, Option.map_some, hid] at hfind
        by_cases hown : id = id'
        · subst hown
          simp only [decide_true, if_true] at hfind
          exact ⟨Board.decided now d r, hfind, .decided hdecides⟩
        · simp only [hown, decide_false, Bool.false_eq_true, if_false] at hfind
          exact ⟨r, hfind, .stays⟩

/-- Only a row that is to be reviewed is decided. -/
theorem pending_of_decides {projectId : Uuid} {d : Decision} (h : Decides b projectId id d)
    (hr : b.row id = some r) : r.reviewStatus = .pending := by
  obtain ⟨r₀, hr₀, hpending⟩ := h.pending
  rw [hr] at hr₀
  obtain rfl := Option.some.inj hr₀
  exact hpending

theorem Becomes.removed (h : Becomes b id r e r') (hr : b.row id = some r)
    (hremoved : r.reviewStatus = .removed) : r' = r := by
  cases h with
  | stays => rfl
  | described =>
      rw [describe_removed hremoved]
      apply swept_of_ne
      rw [hremoved]
      exact nofun
  | decided hdecides =>
      have hpending := pending_of_decides hdecides hr
      rw [hremoved] at hpending
      cases hpending

theorem Becomes.edited (h : Becomes b id r e r') (hr : b.row id = some r)
    (hedited : r.reviewStatus = .edited) : r'.reviewStatus = .edited := by
  cases h with
  | stays => exact hedited
  | @described now runId projectId analysed analysis =>
      have hstatus : (describe now projectId runId analysis.findings r).reviewStatus = .edited :=
        describe_edited hedited _
      rw [swept_of_ne]
      · exact hstatus
      · rw [hstatus]
        exact nofun
  | decided hdecides =>
      have hpending := pending_of_decides hdecides hr
      rw [hedited] at hpending
      cases hpending

/-- The event is an analysis that has found the pair with another content. -/
def FindsChanged (e : Event) (projectId aId bId : Uuid) (fingerprintA fingerprintB : String) : Prop :=
  ∃ now runId analysed analysis, e = .analysis now runId projectId analysed analysis ∧
    ∃ f ∈ analysis.findings, f.aId = aId ∧ f.bId = bId ∧
      (f.fingerprintA ≠ fingerprintA ∨ f.fingerprintB ≠ fingerprintB)

/-- A kept row stays kept, with its fingerprints, or an analysis has found its pair changed. -/
theorem Becomes.kept (h : Becomes b id r e r') (hr : b.row id = some r)
    (hkept : r.reviewStatus = .kept) :
    (r'.reviewStatus = .kept ∧ r'.fingerprintA = r.fingerprintA ∧
      r'.fingerprintB = r.fingerprintB ∧ SameRow r r') ∨
      (r'.reviewStatus = .pending ∧
        FindsChanged e r.projectId r.aId r.bId r.fingerprintA r.fingerprintB) := by
  cases h with
  | stays => exact .inl ⟨hkept, rfl, rfl, SameRow.refl r⟩
  | decided hdecides =>
      have hpending := pending_of_decides hdecides hr
      rw [hkept] at hpending
      cases hpending
  | @described now runId projectId analysed analysis =>
      have hrow : SameRow r (describe now projectId runId analysis.findings r) :=
        sameRow_describe r _
      by_cases hagrees : ∀ f ∈ analysis.findings, r.ofPair projectId f.aId f.bId = true → agrees r f
      · left
        have hdescribed : (describe now projectId runId analysis.findings r).reviewStatus = .kept ∧
            (describe now projectId runId analysis.findings r).fingerprintA = r.fingerprintA ∧
            (describe now projectId runId analysis.findings r).fingerprintB = r.fingerprintB :=
          describe_kept hkept _ hagrees
        obtain ⟨hstatus, ha, hb⟩ := hdescribed
        rw [swept_of_ne]
        · exact ⟨hstatus, ha, hb, hrow⟩
        · rw [hstatus]
          exact nofun
      · right
        push Not at hagrees
        obtain ⟨f, hf, hpair, hdiffers⟩ := hagrees
        have hpending : (describe now projectId runId analysis.findings r).reviewStatus = .pending :=
          describe_reopened hkept _ ⟨f, hf, hpair, hdiffers⟩
        -- the run has described it, so the sweep of the run leaves it
        have hlast : (describe now projectId runId analysis.findings r).lastRunId = some runId := by
          rcases describe_cases r analysis.findings with hstay | ⟨g, -, hdescribed⟩
          · rw [hstay, hkept] at hpending
            cases hpending
          · exact hdescribed.lastRunId
        rw [swept_of_run hlast]
        obtain ⟨hproject, ha, hb⟩ := ofPair_iff.mp hpair
        unfold agrees at hdiffers
        refine ⟨hpending, now, runId, analysed, analysis, by rw [hproject], f, hf, ha.symm, hb.symm, ?_⟩
        by_contra hsame
        push Not at hsame
        exact hdiffers ⟨hsame.1.symm, hsame.2.symm⟩

/-- A row that becomes kept has the fingerprints its two test cases have then. -/
theorem fingerprints_of_kept (h : Becomes b id r e r') (hr : b.row id = some r)
    (hbefore : r.reviewStatus ≠ .kept) (hkept : r'.reviewStatus = .kept) :
    SameRow r r' ∧ ∃ x y, b.livePair r.projectId r.aId r.bId = some (x, y) ∧
      r'.fingerprintA = (toComparable x.toTestcaseSource).fingerprint ∧
      r'.fingerprintB = (toComparable y.toTestcaseSource).fingerprint := by
  cases h with
  | stays => exact absurd hkept hbefore
  | @described now runId projectId analysed analysis =>
      have hstatus : (describe now projectId runId analysis.findings r).reviewStatus ≠ .kept :=
        describe_status (P := fun s ↦ s ≠ .kept) nofun hbefore _
      unfold swept at hkept
      split at hkept
      · cases hkept
      · exact absurd hkept hstatus
  | @decided now projectId request d hdecides =>
      have hdecided : (Board.decided now d r).reviewStatus = d.status := by
        unfold Board.decided
        cases d.finding with
        | none => rfl
        | some f => rfl
      rw [hdecided] at hkept
      obtain ⟨hfinding, p, hload, hfresh⟩ := hdecides.kept hkept
      obtain ⟨hrecommendation, hcases⟩ := recommendation_of_load hload
      obtain ⟨hfind, hproject⟩ := Option.filter_eq_some_iff.mp hrecommendation
      have hsame : p.recommendation = r := Option.some.inj (hfind.symm.trans hr)
      rw [hsame] at hcases hproject
      have hstale : staleReasonOf r (toComparable p.a.toTestcaseSource)
          (toComparable p.b.toTestcaseSource) = none := by
        unfold assertFresh at hfresh
        rw [hsame] at hfresh
        split at hfresh
        · cases hfresh
        · assumption
      have hcontent : (toComparable p.a.toTestcaseSource).fingerprint = r.fingerprintA ∧
          (toComparable p.b.toTestcaseSource).fingerprint = r.fingerprintB := by
        unfold staleReasonOf at hstale
        split at hstale
        · cases hstale
        · rename_i hsame
          push Not at hsame
          exact hsame
      have hrow : SameRow r (Board.decided now d r) := by
        obtain ⟨h₁, h₂, h₃, h₄⟩ := Board.decided_pair now d r
        exact ⟨h₁, h₂, h₃, h₄⟩
      refine ⟨hrow, p.a, p.b, ?_, ?_, ?_⟩
      · rw [of_decide_eq_true hproject]
        exact hcases
      · unfold Board.decided
        rw [hfinding]
        exact hcontent.1.symm
      · unfold Board.decided
        rw [hfinding]
        exact hcontent.2.symm

/-! ## Runs -/

/-- The row is kept in every state. -/
def KeptThroughout (b : Board) (id : Uuid) (es : List Event) : Prop :=
  Always Board.apply (fun b ↦ ∃ r, b.row id = some r ∧ r.reviewStatus = .kept) b es

theorem removed_stays (hr : b.row id = some r) (hremoved : r.reviewStatus = .removed)
    (es : List Event) : (es.foldl Board.apply b).row id = some r := by
  induction es generalizing b with
  | nil => exact hr
  | cons e es ih =>
      obtain ⟨r', hr', hbecomes⟩ := row_apply hr e
      rw [hbecomes.removed hr hremoved] at hr'
      exact ih hr'

theorem edited_stays (hr : b.row id = some r) (hedited : r.reviewStatus = .edited)
    (es : List Event) :
    ∃ r', (es.foldl Board.apply b).row id = some r' ∧ r'.reviewStatus = .edited := by
  induction es generalizing b r with
  | nil => exact ⟨r, hr, hedited⟩
  | cons e es ih =>
      obtain ⟨r', hr', hbecomes⟩ := row_apply hr e
      exact ih hr' (hbecomes.edited hr hedited)

/-- While it is kept, a row has the fingerprints it was kept with. -/
theorem fingerprints_throughout (hr : b.row id = some r) {es : List Event}
    (hkept : KeptThroughout b id es) :
    ∃ r', (es.foldl Board.apply b).row id = some r' ∧ r'.reviewStatus = .kept ∧
      r'.fingerprintA = r.fingerprintA ∧ r'.fingerprintB = r.fingerprintB ∧ SameRow r r' := by
  induction es generalizing b r with
  | nil =>
      obtain ⟨r₀, hr₀, hstatus⟩ := hkept
      obtain rfl := Option.some.inj (hr.symm.trans hr₀)
      exact ⟨r, hr, hstatus, rfl, rfl, SameRow.refl r⟩
  | cons e es ih =>
      obtain ⟨⟨r₀, hr₀, hstatus⟩, hrest⟩ := hkept
      obtain rfl := Option.some.inj (hr.symm.trans hr₀)
      obtain ⟨r₁, hr₁, hbecomes⟩ := row_apply hr e
      obtain ⟨r', hr', hstatus', ha, hb, hrow⟩ := ih hr₁ hrest
      refine ⟨r', hr', hstatus', ?_⟩
      rcases hbecomes.kept hr hstatus with ⟨-, ha₁, hb₁, hrow₁⟩ | ⟨hpending, -⟩
      · exact ⟨ha.trans ha₁, hb.trans hb₁, hrow₁.trans hrow⟩
      · obtain ⟨r₂, hr₂, hkept₂⟩ := hrest.head
        obtain rfl := Option.some.inj (hr₁.symm.trans hr₂)
        rw [hpending] at hkept₂
        cases hkept₂

/-- A kept row that an event takes back is to be reviewed again, and the event is an analysis that has
found the pair with a content the row was not kept with. -/
theorem kept_until_changed (hr : b.row id = some r) {es : List Event}
    (hkept : KeptThroughout b id es) {e : Event}
    (hr' : ((es.foldl Board.apply b).apply e).row id = some r')
    (hnot : r'.reviewStatus ≠ .kept) :
    r'.reviewStatus = .pending ∧
      FindsChanged e r.projectId r.aId r.bId r.fingerprintA r.fingerprintB := by
  obtain ⟨r₁, hr₁, hstatus, ha, hb, hrow⟩ := fingerprints_throughout hr hkept
  obtain ⟨r₂, hr₂, hbecomes⟩ := row_apply hr₁ e
  obtain rfl := Option.some.inj (hr'.symm.trans hr₂)
  rcases hbecomes.kept hr₁ hstatus with ⟨hstill, -⟩ | ⟨hpending, hchanged⟩
  · exact absurd hstill hnot
  · rw [ha, hb, hrow.projectId, hrow.aId, hrow.bId] at hchanged
    exact ⟨hpending, hchanged⟩

/-- From any board, after any events: a removed row is as it was, an edited row is edited, and a kept
row is taken back only by an analysis that has found its pair with another content than it had at the
decision (or, where the row was kept at the start, than it was kept with), which a change of the other
details of a test case is not. -/
theorem decisions_last (b : Board) (id : Uuid) (es : List Event) :
    (∀ r, b.row id = some r → r.reviewStatus = .removed →
      (es.foldl Board.apply b).row id = some r) ∧
    (∀ r, b.row id = some r → r.reviewStatus = .edited →
      ∃ r', (es.foldl Board.apply b).row id = some r' ∧ r'.reviewStatus = .edited) ∧
    (∀ decision r r₁ e r', b.row id = some r → r.reviewStatus ≠ .kept →
      (b.apply decision).row id = some r₁ → r₁.reviewStatus = .kept →
      KeptThroughout (b.apply decision) id es →
      ((es.foldl Board.apply (b.apply decision)).apply e).row id = some r' →
      r'.reviewStatus ≠ .kept →
      r'.reviewStatus = .pending ∧ ∃ x y, b.livePair r.projectId r.aId r.bId = some (x, y) ∧
        FindsChanged e r.projectId r.aId r.bId (toComparable x.toTestcaseSource).fingerprint
          (toComparable y.toTestcaseSource).fingerprint) ∧
    (∀ r e r', b.row id = some r → KeptThroughout b id es →
      ((es.foldl Board.apply b).apply e).row id = some r' → r'.reviewStatus ≠ .kept →
      r'.reviewStatus = .pending ∧
        FindsChanged e r.projectId r.aId r.bId r.fingerprintA r.fingerprintB) ∧
    (∀ s s' : TestcaseSource, s.title = s'.title → s.preconditions = s'.preconditions →
      s.postconditions = s'.postconditions → s.testData = s'.testData → s.steps = s'.steps →
      (toComparable s).fingerprint = (toComparable s').fingerprint) := by
  refine ⟨fun r hr hremoved ↦ removed_stays hr hremoved es,
    fun r hr hedited ↦ edited_stays hr hedited es, ?_,
    fun r e r' hr hkept hr' hnot ↦ kept_until_changed hr hkept hr' hnot, ?_⟩
  · intro decision r r₁ e r' hr hbefore hr₁ hkept hthroughout hr' hnot
    obtain ⟨r₂, hr₂, hbecomes⟩ := row_apply hr decision
    obtain rfl := Option.some.inj (hr₁.symm.trans hr₂)
    obtain ⟨hrow, x, y, hpair, ha, hb⟩ := fingerprints_of_kept hbecomes hr hbefore hkept
    obtain ⟨hpending, hchanged⟩ := kept_until_changed hr₁ hthroughout hr' hnot
    rw [ha, hb, hrow.projectId, hrow.aId, hrow.bId] at hchanged
    exact ⟨hpending, x, y, hpair, hchanged⟩
  · intro s s' htitle hpre hpost hdata hsteps
    simp only [toComparable, htitle, hpre, hpost, hdata, hsteps]

end Lasting

end Tesbo.ReviewBoard
