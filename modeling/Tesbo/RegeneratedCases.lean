import Tesbo.PairedDrafts

/-!
# What a regenerated test case keeps

A draft paired with a linked test case rewrites its row.  Some columns are written as the draft has
them or as they are by default, some are only filled, and a link that is not sent is cleared.
-/

namespace Tesbo.RegeneratedCases

open Reasoning Service PairedDrafts

/-! ## What should stay -/

/-- The column with the address of a ticket. -/
def urlColumn : TicketProvider → TextColumn
  | .jira => .jiraUrl
  | .linear => .linearUrl
  | .notion => .notionUrl

/-- The ticket of a provider a draft is saved under. -/
def keyOf (ctx : ZyraSaveEntryContext) (draft : ZyraDraft) : TicketProvider → Option String
  | .jira => ticketKey draft.jiraIssueKey ctx.jiraIssueKey
  | .linear => ticketKey draft.linearIssueKey ctx.linearIssueKey
  | .notion => ticketKey draft.notionPageId ctx.notionPageId

/-- A column keeps its value where neither the draft nor the save has one for it; severity and
component keep one that is not blank in any case. -/
structure Keeps (ctx : ZyraSaveEntryContext) (draft : ZyraDraft) (t t' : Testcase)
    (refs refs' : List SourceRef) : Prop where
  suite : draft.suiteId.truthy = none → ctx.batchSuiteId = none → t'.suiteId = t.suiteId
  owner : t'.ownerId = t.ownerId
  status : draft.status.truthy = none → t'.text .status = t.text .status
  priority : draft.priority.truthy = none → t'.text .priority = t.text .priority
  severity : draft.severity.truthy = none ∨ filled (t.text .severity) →
    t'.text .severity = t.text .severity
  component : draft.component.truthy = none ∨ filled (t.text .component) →
    t'.text .component = t.text .component
  sourceRefs : draft.sourceRefs = [] → refs' = refs
  tickets : ∀ provider, keyOf ctx draft provider = none →
    t'.text provider.column = t.text provider.column ∧
      t'.text (urlColumn provider) = t.text (urlColumn provider)

/-- Where nothing is supplied, the test case has what is written by default: no suite, no owner, the
first status, no priority, and no ticket of a provider the draft has none of. -/
structure NothingToLose (ctx : ZyraSaveEntryContext) (draft : ZyraDraft) (t : Testcase) : Prop where
  suite : draft.suiteId.truthy = none → ctx.batchSuiteId = none → t.suiteId = none
  owner : t.ownerId = none
  status : draft.status.truthy = none → t.text .status = some "Draft"
  priority : draft.priority.truthy = none → t.text .priority = some "Not set"
  tickets : ∀ provider, keyOf ctx draft provider = none →
    t.text provider.column = none ∧ t.text (urlColumn provider) = none

/-! ## The row of a draft -/

theorem storeText_of_storeTexts {text text' : TextColumn → Option String}
    (h : storeTexts text = .ok text') (c : TextColumn) : storeText c (text c) = .ok (text' c) := by
  unfold storeTexts at h
  split at h
  · rename_i hall
    cases h
    have hmem : c ∈ TextColumn.all := by cases c <;> decide
    have hok := List.all_eq_true.mp hall c hmem
    cases hc : storeText c (text c) with
    | error e =>
        rw [hc] at hok
        cases hok
    | ok stored =>
        show Except.ok stored = .ok (storeText c (text c)).toOption.join
        rw [hc]
        cases stored <;> rfl
  · cases h

@[simp] theorem storeText_none (c : TextColumn) : storeText c none = .ok none := by
  unfold storeText
  cases c.width <;> rfl

/-- The row a draft leaves of the one it is paired with: `text` is the payload as the columns take
it. -/
structure Rewritten (ctx : ZyraSaveEntryContext) (draft : ZyraDraft) (link : DraftLink)
    (tags : String) (t t' : Testcase) : Prop where
  id : t'.id = t.id
  suite : (draftPayload ctx draft link tags).body.suiteId.nullish.map IdText.uuid =
    t'.suiteId.map some
  owner : t'.ownerId = none
  text : ∃ text, storeTexts ((draftPayload ctx draft link tags).body.updateText none) = .ok text ∧
    ∀ c, t'.text c = if (draftPayload ctx draft link tags).body.clears c then none
      else (text c).or (t.text c)

section Row

variable {ctx : ZyraSaveEntryContext} {draft : ZyraDraft} {link : DraftLink} {tags : String}
  {t t' : Testcase}

/-- A column that is not cleared has the text of the payload, or the one it had. -/
theorem Rewritten.text_of_written (h : Rewritten ctx draft link tags t t') {c : TextColumn}
    (hclears : (draftPayload ctx draft link tags).body.clears c = false) {stored : Option String}
    (hstored : storeText c (payloadText ctx draft link tags c).nullish = .ok stored) :
    t'.text c = stored.or (t.text c) := by
  obtain ⟨text, htext, hrow⟩ := h.text
  have hc := storeText_of_storeTexts htext c
  have hupdate : (draftPayload ctx draft link tags).body.updateText none c =
      (payloadText ctx draft link tags c).nullish := by
    cases c <;> rfl
  rw [hupdate, hstored] at hc
  rw [hrow, hclears, if_neg Bool.false_ne_true, Except.ok.inj hc]

theorem Rewritten.text_of_null (h : Rewritten ctx draft link tags t t') {c : TextColumn}
    (hclears : (draftPayload ctx draft link tags).body.clears c = false)
    (hnull : payloadText ctx draft link tags c = .null) : t'.text c = t.text c := by
  have hstored : storeText c (payloadText ctx draft link tags c).nullish = .ok none := by
    rw [hnull]
    exact storeText_none c
  rw [h.text_of_written hclears hstored, Option.none_or]

theorem Rewritten.text_of_cleared (h : Rewritten ctx draft link tags t t') {c : TextColumn}
    (hclears : (draftPayload ctx draft link tags).body.clears c = true) : t'.text c = none := by
  obtain ⟨text, _, hrow⟩ := h.text
  rw [hrow, hclears, if_pos rfl]

/-- The link of a draft names the tickets it is saved under. -/
def DraftLink.key (link : DraftLink) : TicketProvider → Option String
  | .jira => link.jiraIssueKey
  | .linear => link.linearIssueKey
  | .notion => link.notionPageId

theorem key_zyraDraftTicketLink (st : LinkState) (draft : ZyraDraft) (provider : TicketProvider) :
    DraftLink.key (zyraDraftTicketLink ctx st draft).1 provider = keyOf ctx draft provider := by
  unfold zyraDraftTicketLink
  dsimp only
  split <;> cases provider <;> simp only [DraftLink.key, keyOf]

/-- A ticket a draft does not have is taken off the row. -/
theorem clears_of_key (ctx : ZyraSaveEntryContext) (draft : ZyraDraft) (tags : String)
    {provider : TicketProvider} (hkey : DraftLink.key link provider = none) :
    (draftPayload ctx draft link tags).body.clears provider.column = true ∧
      (draftPayload ctx draft link tags).body.clears (urlColumn provider) = true := by
  have hnull : payloadText ctx draft link tags provider.column = .null := by
    cases provider with
    | jira =>
        show orNull (DraftLink.key link .jira) = .null
        rw [hkey]
        rfl
    | linear =>
        show orNull (DraftLink.key link .linear) = .null
        rw [hkey]
        rfl
    | notion =>
        show orNull (DraftLink.key link .notion) = .null
        rw [hkey]
        rfl
  have hclears : clearsLink (payloadText ctx draft link tags provider.column) = true := by
    rw [hnull]
    rfl
  cases provider <;> exact ⟨hclears, hclears⟩

theorem targetSuite_of_none (hdraft : draft.suiteId.truthy = none)
    (hbatch : ctx.batchSuiteId = none) : targetSuite ctx draft = none := by
  unfold targetSuite
  rw [hdraft, hbatch]
  rfl

theorem Rewritten.suite_of_none (h : Rewritten ctx draft link tags t t')
    (hdraft : draft.suiteId.truthy = none) (hbatch : ctx.batchSuiteId = none) :
    t'.suiteId = none := by
  have hsuite := h.suite
  simp only [draftPayload, targetSuite_of_none hdraft hbatch] at hsuite
  exact Option.map_eq_none_iff.mp hsuite.symm

/-- Severity and component are not written over a value there is, nor without one. -/
theorem payloadText_filled {t : Testcase} (hrow : link.existingLinkedRow = some (linkedRow t)) :
    (draft.severity.truthy = none ∨ filled (t.text .severity) →
      payloadText ctx draft link tags .severity = .null) ∧
    (draft.component.truthy = none ∨ filled (t.text .component) →
      payloadText ctx draft link tags .component = .null) := by
  constructor
  · intro h
    show (if filled (link.existingLinkedRow.bind LinkedRow.severity) then .null
      else orNull draft.severity.truthy) = Arg.null
    rw [hrow]
    split
    · rfl
    · rename_i hblank
      rcases h with h | h
      · rw [h]
        rfl
      · exact absurd h hblank
  · intro h
    show (if filled (link.existingLinkedRow.bind LinkedRow.component) then .null
      else orNull draft.component.truthy) = Arg.null
    rw [hrow]
    split
    · rfl
    · rename_i hblank
      rcases h with h | h
      · rw [h]
        rfl
      · exact absurd h hblank

/-- The row keeps what it should where it had what is written by default. -/
theorem Rewritten.keeps_iff (h : Rewritten ctx draft link tags t t')
    (hrow : link.existingLinkedRow = some (linkedRow t))
    (hkey : ∀ provider, DraftLink.key link provider = keyOf ctx draft provider)
    {refs refs' : List SourceRef} (hrefs : draft.sourceRefs = [] → refs' = refs) :
    Keeps ctx draft t t' refs refs' ↔ NothingToLose ctx draft t := by
  have hstatus (hnone : draft.status.truthy = none) : t'.text .status = some "Draft" := by
    have hstored : storeText .status (payloadText ctx draft link tags .status).nullish =
        .ok (some "Draft") := by
      show storeText .status (Arg.value (draft.status.truthy.getD "Draft")).nullish = _
      rw [hnone]
      rfl
    exact h.text_of_written rfl hstored
  have hpriority (hnone : draft.priority.truthy = none) : t'.text .priority = some "Not set" := by
    have hstored : storeText .priority (payloadText ctx draft link tags .priority).nullish =
        .ok (some "Not set") := by
      show storeText .priority (Arg.value (draft.priority.truthy.getD "Not set")).nullish = _
      rw [hnone]
      rfl
    exact h.text_of_written rfl hstored
  have htickets (provider : TicketProvider) (hnone : keyOf ctx draft provider = none) :
      t'.text provider.column = none ∧ t'.text (urlColumn provider) = none := by
    obtain ⟨hcolumn, hurl⟩ := clears_of_key ctx draft tags ((hkey provider).trans hnone)
    exact ⟨h.text_of_cleared hcolumn, h.text_of_cleared hurl⟩
  constructor
  · intro hkeeps
    constructor
    case suite =>
      intro hdraft hbatch
      rw [← hkeeps.suite hdraft hbatch, h.suite_of_none hdraft hbatch]
    case owner => rw [← hkeeps.owner, h.owner]
    case status => exact fun hnone ↦ (hkeeps.status hnone).symm.trans (hstatus hnone)
    case priority => exact fun hnone ↦ (hkeeps.priority hnone).symm.trans (hpriority hnone)
    case tickets =>
      intro provider hnone
      obtain ⟨hcolumn, hurl⟩ := hkeeps.tickets provider hnone
      rw [← hcolumn, ← hurl]
      exact htickets provider hnone
  · intro hnothing
    constructor
    case suite =>
      intro hdraft hbatch
      rw [h.suite_of_none hdraft hbatch, hnothing.suite hdraft hbatch]
    case owner => rw [h.owner, hnothing.owner]
    case status => exact fun hnone ↦ (hstatus hnone).trans (hnothing.status hnone).symm
    case priority => exact fun hnone ↦ (hpriority hnone).trans (hnothing.priority hnone).symm
    case severity =>
      intro hcase
      exact h.text_of_null rfl ((payloadText_filled hrow).1 hcase)
    case component =>
      intro hcase
      exact h.text_of_null rfl ((payloadText_filled hrow).2 hcase)
    case sourceRefs => exact hrefs
    case tickets =>
      intro provider hnone
      obtain ⟨hcolumn, hurl⟩ := htickets provider hnone
      obtain ⟨hcolumn', hurl'⟩ := hnothing.tickets provider hnone
      rw [hcolumn, hurl, hcolumn', hurl']
      exact ⟨rfl, rfl⟩

end Row

/-! ## The steps of a save -/

/-- A test case and its citations, as they are stored. -/
structure Stored (t : Testcase) (refs : List SourceRef) (s : SaveDb) : Prop where
  mem : t ∈ s.db.testcases
  sourceRefs : s.sourceRefs t.id = refs

/-- The values of custom fields are not in the test case. -/
theorem setValuesForTestCase_stored {uid projectId testcaseId : Uuid} {isNew : Bool} {t : Testcase}
    {refs : List SourceRef} {s : SaveDb} (h : Stored t refs s) :
    wp (setValuesForTestCase uid projectId testcaseId isNew) (fun _ s' ↦ Stored t refs s')
      (fun _ _ ↦ True) s := by
  have hE : ∀ _ : SaveError, True := fun _ ↦ trivial
  unfold setValuesForTestCase
  apply wp_query_seq
  split
  · apply wp_query_seq
    apply wp_query_seq
    apply wp_ofExcept_seq hE
    intro values _
    apply wp_query_seq
    apply wp_query_seq
    rw [wp_write]
    exact ⟨h.mem, h.sourceRefs⟩
  · rw [wp_pure]
    exact h

theorem logProjectActivity_stored {projectId actorId entityId : Uuid} {action entityName : String}
    {diff : AuditDiff} {t : Testcase} {refs : List SourceRef} {s : SaveDb} (h : Stored t refs s) :
    wp (logProjectActivity projectId actorId action entityId entityName diff)
      (fun _ s' ↦ Stored t refs s') (fun _ _ ↦ True) s := by
  unfold logProjectActivity
  rw [wp_write]
  exact ⟨h.mem, h.sourceRefs⟩

/-- A change is made to the row it names. -/
theorem patchTestCaseFromZyraWithClient_spec {testcaseId actorId : Uuid} {fields : PatchFields}
    {t : Testcase} {db : Db} (ht : t ∈ db.testcases) (hid : t.id ≠ testcaseId) :
    wp (patchTestCaseFromZyraWithClient testcaseId actorId fields)
      (fun _ db' ↦ t ∈ db'.testcases) (fun _ _ ↦ True) db := by
  unfold patchTestCaseFromZyraWithClient
  split
  · rw [wp_pure]
    exact ht
  · apply wp_ofExcept_seq fun _ ↦ trivial
    intro text _
    apply wp_query_seq
    rw [wp_exec]
    constructor
    · intro db' hdb
      split at hdb
      · cases hdb
      · cases hdb
        have hother : (decide (t.id = testcaseId) && t.live) = false := by
          rw [decide_eq_false hid, Bool.false_and]
        show t ∈ db.testcases.updateWhere (fun r ↦ r.id = testcaseId && r.live)
          (Testcase.patched actorId db.now fields text) fun _ ↦ rfl
        exact Table.mem_updateWhere_cases.mpr (.inl ⟨ht, hother⟩)
    · exact fun _ _ ↦ trivial

theorem processChange_stored {ctx : ZyraSaveEntryContext} {archive : Bool} {testcaseId : Uuid}
    {fields : PatchFields} {reason : Arg String} {t : Testcase} {refs : List SourceRef}
    {s : SaveDb} (h : Stored t refs s) (hid : t.id ≠ testcaseId) :
    wp (processChange ctx archive testcaseId fields reason) (fun _ s' ↦ Stored t refs s')
      (fun _ _ ↦ True) s := by
  unfold processChange
  apply wp_seq (wp_onDb (patchTestCaseFromZyraWithClient_spec h.mem hid))
  rintro _ s₁ ⟨hmem, hs⟩
  have h₁ : Stored t refs s₁ := ⟨hmem, by rw [hs]; exact h.sourceRefs⟩
  apply wp_query_seq
  apply wp_ofExcept_seq fun _ ↦ trivial
  intro row _
  apply wp_query_seq
  apply wp_seq (logProjectActivity_stored h₁)
  intro _ s₂ h₂
  rw [wp_pure]
  exact h₂

/-- A new test case is another row. -/
theorem insertTestCase_stored [Unicode] {ctx : ZyraSaveEntryContext} {payload : ZyraPayload}
    {t : Testcase} {refs : List SourceRef} {s : SaveDb} (h : Stored t refs s) :
    wp (insertTestCase ctx payload) (fun _ s' ↦ Stored t refs s') (fun _ _ ↦ True) s := by
  unfold insertTestCase
  apply wp_seq (wp_onDb insertTestCaseWithClient_spec)
  rintro row s₁ ⟨⟨_, hinserted⟩, hs⟩
  obtain ⟨testcases, users, uuids, hrow, hdb⟩ := hinserted.state
  obtain ⟨hinsert, _⟩ := insertTestcaseRow_eq_ok hrow
  have hne : t.id ≠ row.id := (Table.insert_eq_some hinsert).2 t h.mem
  rw [wp_bind, wp_write]
  have hmem : t ∈ s₁.db.testcases := by
    rw [hdb]
    exact (Table.mem_insert hinsert).mpr (.inl h.mem)
  have hstored : Stored t refs { s₁ with
      sourceRefs := Function.update s₁.sourceRefs row.id
        (sanitizeSourceRefsInput (payload.sourceRefs.getD [])) } := by
    refine ⟨hmem, ?_⟩
    show Function.update s₁.sourceRefs row.id _ t.id = refs
    rw [Function.update_of_ne hne, hs]
    exact h.sourceRefs
  apply wp_seq (setValuesForTestCase_stored hstored)
  intro _ s₂ h₂
  rw [wp_pure]
  exact h₂

/-- Suite, owner, texts, steps: an update writes the row that has the id and is live. -/
theorem updateTestCaseWithClient_rewrites {ctx : ZyraSaveEntryContext} {draft : ZyraDraft}
    {link : DraftLink} {tags : String} {uid : Uuid} {t : Testcase} {db : Db}
    (ht : t ∈ db.testcases) (hlive : t.live = true) :
    wp (updateTestCaseWithClient t.id uid (draftPayload ctx draft link tags).body none)
      (fun _ db' ↦ ∃ t' ∈ db'.testcases, Rewritten ctx draft link tags t t') (fun _ _ ↦ True)
      db := by
  have hE : ∀ _ : Failure, True := fun _ ↦ trivial
  unfold updateTestCaseWithClient
  apply wp_ofExcept_seq hE
  intro duration hduration
  obtain rfl : none = duration := Except.ok.inj hduration
  apply wp_castUuid?_seq hE
  intro suiteId hsuite
  apply wp_castUuid?_seq hE
  intro ownerId howner
  apply wp_ofExcept_seq hE
  intro text htext
  apply wp_query_seq
  rw [wp_bind]
  apply wp_updateTestcasesSuite hE
  intro _
  rw [wp_ofExcept]
  refine ⟨fun _ _ ↦ ?_, fun _ _ ↦ trivial⟩
  have hnamed : (decide (t.id = t.id) && t.live) = true := by
    rw [hlive, decide_eq_true rfl, Bool.and_self]
  show ∃ t' ∈ db.testcases.updateWhere (fun r ↦ r.id = t.id && r.live)
    (Testcase.updated db.now uid suiteId ownerId text (draftPayload ctx draft link tags).body.clears
      (draftPayload ctx draft link tags).body.givenSteps none) fun _ ↦ rfl, _
  refine ⟨_, Table.mem_updateWhere_cases.mpr (.inr ⟨t, ht, hnamed, rfl⟩), ?_⟩
  exact ⟨rfl, hsuite, Option.map_eq_none_iff.mp howner.symm, text, htext, fun _ ↦ rfl⟩

/-- The draft of a row rewrites it, and its citations where the draft has any. -/
theorem processLinked_rewrites {ctx : ZyraSaveEntryContext} {draft : ZyraDraft} {link : DraftLink}
    {tags : String} {t : Testcase} {refs : List SourceRef} {s : SaveDb} (h : Stored t refs s)
    (hlive : t.live = true) (hrow : link.existingLinkedRow = some (linkedRow t)) :
    wp (processLinked ctx draft link (draftPayload ctx draft link tags) t.id)
      (fun _ s' ↦ ∃ t' refs', Rewritten ctx draft link tags t t' ∧
        (draft.sourceRefs = [] → refs' = refs) ∧ Stored t' refs' s') (fun _ _ ↦ True) s := by
  have hE : ∀ _ : SaveError, True := fun _ ↦ trivial
  unfold processLinked
  apply wp_seq (wp_onDb (updateTestCaseWithClient_rewrites h.mem hlive))
  rintro _ s₁ ⟨⟨t', hmem, hrewritten⟩, hs⟩
  have hrefs₁ : s₁.sourceRefs = s.sourceRefs := by rw [hs]
  have hid : t'.id = t.id := hrewritten.id
  apply wp_query_seq
  have hwritten : wp (whenSome (draftPayload ctx draft link tags).sourceRefs fun sourceRefs ↦
        whenSome ((s₁.db.testcases.find t.id).filter Testcase.live) fun _ ↦ write fun s ↦
          { s with sourceRefs :=
              Function.update s.sourceRefs t.id (sanitizeSourceRefsInput sourceRefs) })
      (fun _ s' ↦ ∃ refs', (draft.sourceRefs = [] → refs' = refs) ∧ Stored t' refs' s')
      (fun (_ : SaveError) _ ↦ True) s₁ := by
    have hstored : Stored t' refs s₁ := ⟨hmem, by rw [hid, hrefs₁]; exact h.sourceRefs⟩
    rw [wp_whenSome]
    refine ⟨fun _ ↦ ⟨refs, fun _ ↦ rfl, hstored⟩, fun sourceRefs hsent ↦ ?_⟩
    rw [wp_whenSome]
    refine ⟨fun _ ↦ ⟨refs, fun _ ↦ rfl, hstored⟩, fun _ _ ↦ ?_⟩
    rw [wp_write]
    refine ⟨sanitizeSourceRefsInput sourceRefs, fun hnone ↦ ?_, hmem, ?_⟩
    · -- a linked test case is sent no citations where the draft has none
      simp only [draftPayload, hnone, hrow] at hsent
      cases hsent
    · show Function.update s₁.sourceRefs t.id _ t'.id = _
      rw [hid, Function.update_self]
  apply wp_seq hwritten
  rintro _ s₂ ⟨refs', hrefs', hstored⟩
  apply wp_seq (setValuesForTestCase_stored hstored)
  intro _ s₃ h₃
  apply wp_ofExcept_seq hE
  intro row _
  rw [wp_pure]
  exact ⟨t', refs', hrewritten, hrefs', h₃⟩

/-- Another test case that is rewritten is another row. -/
theorem processLinked_stored {ctx : ZyraSaveEntryContext} {draft : ZyraDraft} {link : DraftLink}
    {payload : ZyraPayload} {linkedId : Uuid} {t : Testcase} {refs : List SourceRef} {s : SaveDb}
    (h : Stored t refs s) (hne : t.id ≠ linkedId) :
    wp (processLinked ctx draft link payload linkedId) (fun _ s' ↦ Stored t refs s')
      (fun _ _ ↦ True) s := by
  have hE : ∀ _ : SaveError, True := fun _ ↦ trivial
  unfold processLinked
  apply wp_seq (wp_onDb updateTestCaseWithClient_spec)
  rintro _ s₁ ⟨⟨suiteId, ownerId, text, _, _, hdb⟩, hs⟩
  have hother : (decide (t.id = linkedId) && t.live) = false := by
    rw [decide_eq_false hne, Bool.false_and]
  have h₁ : Stored t refs s₁ := by
    constructor
    · rw [hdb]
      show t ∈ s.db.testcases.updateWhere (fun r ↦ r.id = linkedId && r.live)
        (Testcase.updated s.db.now ctx.uid suiteId ownerId text payload.body.clears
          payload.body.givenSteps none) fun _ ↦ rfl
      exact Table.mem_updateWhere_cases.mpr (.inl ⟨h.mem, hother⟩)
    · rw [hs]
      exact h.sourceRefs
  apply wp_query_seq
  have hwritten : wp (whenSome payload.sourceRefs fun sourceRefs ↦
        whenSome ((s₁.db.testcases.find linkedId).filter Testcase.live) fun _ ↦ write fun s ↦
          { s with sourceRefs :=
              Function.update s.sourceRefs linkedId (sanitizeSourceRefsInput sourceRefs) })
      (fun _ s' ↦ Stored t refs s') (fun (_ : SaveError) _ ↦ True) s₁ := by
    rw [wp_whenSome]
    refine ⟨fun _ ↦ h₁, fun sourceRefs _ ↦ ?_⟩
    rw [wp_whenSome]
    refine ⟨fun _ ↦ h₁, fun _ _ ↦ ?_⟩
    rw [wp_write]
    constructor
    · exact h₁.mem
    · show Function.update s₁.sourceRefs linkedId _ t.id = refs
      rw [Function.update_of_ne hne]
      exact h₁.sourceRefs
  apply wp_seq hwritten
  intro _ s₂ h₂
  apply wp_seq (setValuesForTestCase_stored h₂)
  intro _ s₃ h₃
  apply wp_ofExcept_seq hE
  intro row _
  rw [wp_pure]
  exact h₃

theorem checkedPayload_spec [Unicode] {ctx : ZyraSaveEntryContext} {draft : ZyraDraft}
    {link : DraftLink} {s : SaveDb} :
    wp (checkedPayload ctx draft link)
      (fun payload s' ↦ (∃ tags, payload = draftPayload ctx draft link tags) ∧ s' = s)
      (fun _ _ ↦ True) s := by
  unfold checkedPayload
  apply wp_query_seq
  apply wp_ofExcept_seq fun _ ↦ trivial
  intro _ _
  rw [wp_pure]
  exact ⟨⟨_, rfl⟩, rfl⟩

/-! ## A save -/

section Save

variable {ctx : ZyraSaveEntryContext} {t : Testcase} {refs : List SourceRef}

/-- The test case a change names. -/
def changedId : ZyraEntry → Option Uuid
  | .change _ testcaseId _ _ => some testcaseId
  | .create .. => none

/-- Where the lists of the tickets are after some drafts. -/
def linkStateFrom (ctx : ZyraSaveEntryContext) (st : LinkState) (drafts : List ZyraDraft) :
    LinkState :=
  drafts.foldl (fun st draft ↦ (zyraDraftTicketLink ctx st draft).2) st

theorem filterMap_draftOf_create (draft : ZyraDraft) (reason : Arg String)
    (entries : List ZyraEntry) :
    (ZyraEntry.create draft reason :: entries).filterMap draftOf =
      draft :: entries.filterMap draftOf := rfl

theorem givenFrom_append (st : LinkState) (before after : List ZyraDraft) :
    givenFrom ctx st (before ++ after) =
      givenFrom ctx st before ++ givenFrom ctx (linkStateFrom ctx st before) after := by
  induction before generalizing st with
  | nil => rfl
  | cons draft before ih =>
      rw [List.cons_append, givenFrom, givenFrom, ih, List.append_assoc]
      rfl

/-- Neither changed nor given to a draft. -/
structure Avoids (ctx : ZyraSaveEntryContext) (st : LinkState) (id : Uuid)
    (entries : List ZyraEntry) : Prop where
  changes : ∀ entry ∈ entries, changedId entry ≠ some id
  drafts : id ∉ (givenFrom ctx st (entries.filterMap draftOf)).map LinkedRow.id

/-- The entries of a save leave a test case none of them is about; what they answer only adds to the
answer of the rest. -/
theorem sequentialFrom_stored [Unicode] {st : LinkState} {before rest : List ZyraEntry}
    {Q : SaveDb → Prop} {s : SaveDb} (h : Stored t refs s) (havoids : Avoids ctx st t.id before)
    (hrest : ∀ s₁, Stored t refs s₁ →
      wp (sequentialFrom ctx (linkStateFrom ctx st (before.filterMap draftOf)) rest)
        (fun _ s' ↦ Q s') (fun _ _ ↦ True) s₁) :
    wp (sequentialFrom ctx st (before ++ rest)) (fun _ s' ↦ Q s') (fun _ _ ↦ True) s := by
  induction before generalizing st s with
  | nil => exact hrest s h
  | cons entry before ih =>
      have hchanges : ∀ e ∈ before, changedId e ≠ some t.id :=
        fun e he ↦ havoids.changes e (List.mem_cons_of_mem _ he)
      cases entry with
      | change archive testcaseId fields reason =>
          have hne : t.id ≠ testcaseId := fun heq ↦
            havoids.changes _ List.mem_cons_self (congrArg some heq.symm)
          apply wp_seq (processChange_stored h hne)
          intro touched s₁ h₁
          apply wp_seq (ih h₁ ⟨hchanges, havoids.drafts⟩ hrest)
          intro result s₂ h₂
          rw [wp_pure]
          exact h₂
      | create draft reason =>
          have hdrafts := havoids.drafts
          rw [filterMap_draftOf_create, givenFrom, List.map_append, List.mem_append,
            not_or] at hdrafts
          obtain ⟨hown, hlater⟩ := hdrafts
          have havoids' : Avoids ctx (zyraDraftTicketLink ctx st draft).2 t.id before :=
            ⟨hchanges, hlater⟩
          apply wp_seq checkedPayload_spec
          rintro payload s₁ ⟨_, rfl⟩
          cases hrow : (zyraDraftTicketLink ctx st draft).1.existingLinkedRow with
          | some linked =>
              have hne : t.id ≠ linked.id := by
                intro heq
                rw [hrow, heq] at hown
                exact hown List.mem_cons_self
              apply wp_seq (processLinked_stored h hne)
              intro touched s₂ h₂
              apply wp_seq (ih h₂ havoids' hrest)
              intro result s₃ h₃
              rw [wp_pure]
              exact h₃
          | none =>
              apply wp_seq (insertTestCase_stored h)
              intro row s₂ h₂
              apply wp_seq (logProjectActivity_stored h₂)
              intro _ s₃ h₃
              apply wp_seq (ih h₃ havoids' hrest)
              intro result s₄ h₄
              rw [wp_pure]
              exact h₄

/-- The test case, as it is stored after a save, keeps what it should. -/
def KeptAcross (ctx : ZyraSaveEntryContext) (draft : ZyraDraft) (t : Testcase) (s s' : SaveDb) :
    Prop :=
  ∃ t' ∈ s'.db.testcases, t'.id = t.id ∧
    Keeps ctx draft t t' (s.sourceRefs t.id) (s'.sourceRefs t.id)

/-- The draft of a row, and what comes after it. -/
theorem sequentialFrom_linked [Unicode] {st : LinkState} {draft : ZyraDraft} {reason : Arg String}
    {after : List ZyraEntry} {s₀ s : SaveDb}
    (hrefs : s₀.sourceRefs t.id = refs) (h : Stored t refs s) (hlive : t.live = true)
    (hrow : (zyraDraftTicketLink ctx st draft).1.existingLinkedRow = some (linkedRow t))
    (havoids : Avoids ctx (zyraDraftTicketLink ctx st draft).2 t.id after) :
    wp (sequentialFrom ctx st (.create draft reason :: after))
      (fun _ s' ↦ KeptAcross ctx draft t s₀ s' ↔ NothingToLose ctx draft t) (fun _ _ ↦ True)
      s := by
  apply wp_seq checkedPayload_spec
  rintro payload s₁ ⟨⟨tags, rfl⟩, rfl⟩
  rw [hrow]
  apply wp_seq (processLinked_rewrites h hlive hrow)
  rintro touched s₂ ⟨t', refs', hrewritten, hrefs', h₂⟩
  have hid : t'.id = t.id := hrewritten.id
  rw [← hid] at havoids
  have hkept := hrewritten.keeps_iff hrow (key_zyraDraftTicketLink st draft) hrefs'
  have hrest : wp (sequentialFrom ctx (zyraDraftTicketLink ctx st draft).2 (after ++ []))
      (fun _ s' ↦ KeptAcross ctx draft t s₀ s' ↔ NothingToLose ctx draft t) (fun _ _ ↦ True)
      s₂ := by
    apply sequentialFrom_stored h₂ havoids
    intro s₃ h₃
    rw [sequentialFrom, wp_pure, ← hkept]
    have hrefs₃ : s₃.sourceRefs t.id = refs' := by rw [← hid]; exact h₃.sourceRefs
    unfold KeptAcross
    rw [hrefs, hrefs₃]
    constructor
    · rintro ⟨t'', hmem, hid'', hkeeps⟩
      obtain rfl := Table.eq_of_key hmem h₃.mem (hid''.trans hid.symm)
      exact hkeeps
    · exact fun hkeeps ↦ ⟨t', h₃.mem, hid, hkeeps⟩
  rw [List.append_nil] at hrest
  apply wp_seq hrest
  intro result s₃ h₃
  rw [wp_pure]
  exact h₃

end Save

/-- After a save that no other entry of concerns the test case, it keeps what it should exactly when
it had what is written by default. -/
theorem kept_iff [Unicode] (ctx : ZyraSaveEntryContext) (before after : List ZyraEntry)
    (draft : ZyraDraft) (reason : Arg String) (t : Testcase) (s : SaveDb)
    (hgiven : given ctx (before.filterMap draftOf) draft = some (linkedRow t))
    (hmem : t ∈ s.db.testcases) (hlive : t.live = true)
    (hchanges : ∀ entry ∈ before ++ after, changedId entry ≠ some t.id) :
    onAnswer (processZyraSaveEntriesSequential ctx (before ++ .create draft reason :: after))
      (fun _ s' ↦ KeptAcross ctx draft t s s' ↔ NothingToLose ctx draft t) s := by
  rw [onAnswer_iff]
  -- the row is given once
  have hnodup := (nodup_givenFrom ctx []
    ((before ++ .create draft reason :: after).filterMap draftOf)).1
  rw [List.filterMap_append, givenFrom_append, List.map_append] at hnodup
  obtain ⟨_, hrest, hdisjoint⟩ := List.nodup_append.mp hnodup
  have hown : (zyraDraftTicketLink ctx (linkStateFrom ctx .start (before.filterMap draftOf))
      draft).1.existingLinkedRow = some (linkedRow t) := hgiven
  rw [filterMap_draftOf_create, givenFrom] at hrest hdisjoint
  have hstart : stateAfter ctx [] = .start := rfl
  rw [hstart, hown] at hrest hdisjoint
  have hbefore : Avoids ctx .start t.id before := by
    constructor
    · exact fun entry h ↦ hchanges entry (List.mem_append_left _ h)
    · exact fun hmem ↦ hdisjoint _ hmem t.id List.mem_cons_self rfl
  apply sequentialFrom_stored ⟨hmem, rfl⟩ hbefore
  intro s₁ h₁
  apply sequentialFrom_linked rfl h₁ hlive hown
  constructor
  · exact fun entry h ↦ hchanges entry (List.mem_append_right _ h)
  · exact (List.nodup_cons.mp hrest).1

/-- A live test case of a ticket. -/
def linkedCase (suiteId ownerId : Option Uuid) (status : String) : Testcase where
  id := 7
  projectId := 1
  suiteId := suiteId
  externalId := "SHOP-TC-1"
  text
    | .title => some "Pays by card"
    | .priority => some "Not set"
    | .status => some status
    | .jiraIssueKey => some "SHOP-1"
    | _ => none
  steps := []
  ownerId := ownerId
  createdBy := some 5
  updatedBy := some 5
  updatedAt := 0
  deletedAt := none
  deletedBy := none

def withCase (t : Testcase) : SaveDb where
  db := { Db.empty with
    testcases := ⟨[t], List.nodup_singleton _⟩
    suites := ⟨[⟨3, 1, none, "Payments", "", "", 0, 0, none, none⟩], List.nodup_singleton _⟩ }
  sourceRefs _ := []
  fieldDefinitions := []
  fieldValues _ _ := none
  customFieldsEnabled _ := true
  notionPageKeys _ _ := none
  auditLogs := 0

/-- A save of a task that names the ticket. -/
def ticketSave (t : Testcase) : ZyraSaveEntryContext where
  projectId := 1
  uid := 2
  taskId := 9
  chatSessionId := none
  batchSuiteId := none
  jiraIssueKey := some "SHOP-1"
  linearIssueKey := none
  notionPageId := none
  ticketUrls := []
  existingLinkedByTicket := [("jira:SHOP-1", [linkedRow t])]
  validSuiteIds := [3]

/-- A draft with a title only. -/
def titledDraft : ZyraDraft where
  suiteId := .undefined
  title := .value "Pays by card, once"
  description := .undefined
  expectedSummary := .undefined
  preconditions := .undefined
  steps := []
  testData := .undefined
  priority := .undefined
  severity := .undefined
  component := .undefined
  type := .undefined
  status := .undefined
  tags := []
  jiraIssueKey := .undefined
  linearIssueKey := .undefined
  notionPageId := .undefined
  sourceRefs := []
  reason := .undefined

def unfiledCase : Testcase := linkedCase none none "Draft"

/-- A save of the draft, where letters are ASCII. -/
def titledSave (t : Testcase) : Save SaveResult :=
  @processZyraSaveEntriesSequential asciiCase (ticketSave t) [.create titledDraft .undefined]

theorem kept_unfiledCase : onAnswer (titledSave unfiledCase)
    (fun _ s' ↦ KeptAcross (ticketSave unfiledCase) titledDraft unfiledCase (withCase unfiledCase)
      s' ↔ NothingToLose (ticketSave unfiledCase) titledDraft unfiledCase)
    (withCase unfiledCase) := by
  have hgiven : given (ticketSave unfiledCase) [] titledDraft = some (linkedRow unfiledCase) := by
    decide +kernel
  have hmem : unfiledCase ∈ (withCase unfiledCase).db.testcases := List.mem_cons_self
  have hchanges : ∀ entry ∈ ([] ++ [] : List ZyraEntry), changedId entry ≠ some unfiledCase.id :=
    fun _ h ↦ absurd h List.not_mem_nil
  exact @kept_iff asciiCase (ticketSave unfiledCase) [] [] titledDraft .undefined unfiledCase
    (withCase unfiledCase) hgiven hmem rfl hchanges

/-- A reviewed test case, in a suite and with an owner. -/
def ownedCase : Testcase := linkedCase (some 3) (some 5) "Ready"

/-- The save succeeds, and the test case has lost its suite, its owner and its status. -/
theorem not_kept_ownedCase :
    given (ticketSave ownedCase) [] titledDraft = some (linkedRow ownedCase) ∧
      ownedCase ∈ (withCase ownedCase).db.testcases ∧ ownedCase.live = true ∧
      (titledSave ownedCase (withCase ownedCase)).1.isOk = true ∧
      ¬ KeptAcross (ticketSave ownedCase) titledDraft ownedCase (withCase ownedCase)
        (after (titledSave ownedCase) (withCase ownedCase)) := by
  have hgiven : given (ticketSave ownedCase) [] titledDraft = some (linkedRow ownedCase) := by
    decide +kernel
  have hok : (titledSave ownedCase (withCase ownedCase)).1.isOk = true := by decide +kernel
  have hcleared : ∀ r ∈ (after (titledSave ownedCase) (withCase ownedCase)).db.testcases.rows,
      r.ownerId = none := by
    decide +kernel
  refine ⟨hgiven, List.mem_cons_self, rfl, hok, ?_⟩
  rintro ⟨t', hmem, _, hkeeps⟩
  have howner : none = some 5 := (hcleared t' hmem).symm.trans hkeeps.owner
  cases howner

end Tesbo.RegeneratedCases
