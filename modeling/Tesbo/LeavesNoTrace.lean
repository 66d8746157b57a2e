import Tesbo.RegeneratedCases
import Tesbo.ZyraTaskSaves

/-!
# A save that fails leaves no trace

All but the suite of the batch is in the transaction.  The suite stays where the attempt that created
it fails or saves nothing.
-/

namespace Tesbo.ZyraTaskSaves

open Reasoning Service PairedDrafts RegeneratedCases

/-! ## The property and its condition -/

/-- Suites, test cases, batches and the plans of the chats are as before. -/
structure Untouched (s s' : TaskDb) : Prop where
  suites : s'.save.db.suites = s.save.db.suites
  testcases : s'.save.db.testcases = s.save.db.testcases
  requests : s'.requests = s.requests
  sessions : s'.sessions = s.sessions

/-- The suites are those of before and new ones with these names. -/
def AddsSuites (names : List String) (s s' : TaskDb) : Prop :=
  ∃ created : List Suite, s'.save.db.suites.rows = s.save.db.suites.rows ++ created ∧
    List.Forall₂ (fun name suite ↦ varchar suiteNameMaxLength (jsTrim name) = .ok suite.name)
      names created

/-- A save that throws or saves nothing changes nothing, and any other creates the suite it names, and
no other one. -/
def LeavesNoTrace (body : SaveBody) (s : TaskDb) :
    Except TaskError SaveAnswer × TaskDb → Prop
  | (.error _, s') => Untouched s s'
  | (.ok answer, s') =>
      if answer.savedCount = 0 then Untouched s s' else AddsSuites body.newSuite.toList s s'

/-- Whether a statement of the transaction fails. -/
def Fault.breaks : Option Fault → Bool
  | some (.transaction _) => true
  | some .createSuite | none => false

section Definitions

variable [Unicode] (setBased : Option ReturningOrder) (fault : Option Fault)
  (projectId uid taskId : Uuid) (batchSuiteId : Option IdText)
  (indexes : Option (List (Option ℕ)))

/-- The transaction is not refused, none of its statements fails, and there is something to save. -/
def Savable (s : TaskDb) : Prop :=
  Fault.breaks fault = false ∧ ∃ existing, openRequest projectId taskId s = .ok existing ∧
    selectedEntries indexes existing.generatedPayload ≠ [] ∧
    staleDraftIndexes (selectedEntries indexes existing.generatedPayload) s.save.db = [] ∧
    (processEntries setBased
      (entryContext projectId uid taskId batchSuiteId existing
        (selectedEntries indexes existing.generatedPayload) s).1
      ((selectedEntries indexes existing.generatedPayload).map Prod.snd) s.save).1.isOk = true

end Definitions

/-! ## What the entries leave alone -/

section Entries

variable {s : SaveDb}

/-- The tables a save of entries does not write. -/
def SameSuites (s s' : SaveDb) : Prop := s'.db.suites = s.db.suites

theorem SameSuites.trans {s s' s'' : SaveDb} (h : SameSuites s s') (h' : SameSuites s' s'') :
    SameSuites s s'' := Eq.trans h' h

theorem setValuesForTestCase_suites {uid projectId testcaseId : Uuid} {isNew : Bool} :
    wp (setValuesForTestCase uid projectId testcaseId isNew) (fun _ s' ↦ SameSuites s s')
      (fun _ _ ↦ True) s := by
  have hE : ∀ _ : SaveError, True := fun _ ↦ trivial
  unfold setValuesForTestCase
  apply wp_query_seq
  split
  · apply wp_query_seq
    apply wp_query_seq
    apply wp_ofExcept_seq hE
    intro values _
    apply wp_query_seq
    apply wp_query_seq
    rw [wp_write]
    rfl
  · rw [wp_pure]
    rfl

theorem logProjectActivity_suites {projectId actorId entityId : Uuid} {action entityName : String}
    {diff : AuditDiff} :
    wp (logProjectActivity projectId actorId action entityId entityName diff)
      (fun _ s' ↦ SameSuites s s') (fun _ _ ↦ True) s := by
  unfold logProjectActivity
  rw [wp_write]
  rfl

/-- A handler of the tables that keeps the suites. -/
theorem onDb_suites {α : Type} {m : Handler α}
    (h : wp m (fun _ db' ↦ db'.suites = s.db.suites) (fun _ _ ↦ True) s.db) :
    wp (onDb m) (fun _ s' ↦ SameSuites s s') (fun _ _ ↦ True) s :=
  wp_mono (wp_onDb h) (fun _ _ h ↦ h.1) fun _ _ h ↦ h

theorem patchTestCase_suites {testcaseId actorId : Uuid} {fields : PatchFields} {db : Db} :
    wp (patchTestCaseFromZyraWithClient testcaseId actorId fields)
      (fun _ db' ↦ db'.suites = db.suites) (fun _ _ ↦ True) db := by
  unfold patchTestCaseFromZyraWithClient
  split
  · rw [wp_pure]
  · apply wp_ofExcept_seq fun _ ↦ trivial
    intro text _
    apply wp_query_seq
    rw [wp_exec]
    constructor
    · intro db' hdb
      split at hdb
      · cases hdb
      · cases hdb
        rfl
    · exact fun _ _ ↦ trivial

theorem processChange_suites {ctx : ZyraSaveEntryContext} {archive : Bool} {testcaseId : Uuid}
    {fields : PatchFields} {reason : Arg String} :
    wp (processChange ctx archive testcaseId fields reason) (fun _ s' ↦ SameSuites s s')
      (fun _ _ ↦ True) s := by
  unfold processChange
  apply wp_seq (onDb_suites patchTestCase_suites)
  intro _ s₁ h₁
  apply wp_query_seq
  apply wp_ofExcept_seq fun _ ↦ trivial
  intro row _
  apply wp_query_seq
  apply wp_seq logProjectActivity_suites
  intro _ s₂ h₂
  rw [wp_pure]
  exact h₁.trans h₂

theorem processLinked_suites {ctx : ZyraSaveEntryContext} {draft : ZyraDraft} {link : DraftLink}
    {payload : ZyraPayload} {linkedId : Uuid} :
    wp (processLinked ctx draft link payload linkedId) (fun _ s' ↦ SameSuites s s')
      (fun _ _ ↦ True) s := by
  have hE : ∀ _ : SaveError, True := fun _ ↦ trivial
  have hupdate : wp (updateTestCaseWithClient linkedId ctx.uid payload.body none)
      (fun _ db' ↦ db'.suites = s.db.suites) (fun _ _ ↦ True) s.db := by
    apply wp_mono updateTestCaseWithClient_spec
    · rintro _ _ ⟨_, _, _, _, _, rfl⟩
      rfl
    · exact fun _ _ h ↦ h
  unfold processLinked
  apply wp_seq (onDb_suites hupdate)
  intro _ s₁ h₁
  apply wp_query_seq
  have hrefs : wp (whenSome payload.sourceRefs fun sourceRefs ↦
        whenSome ((s₁.db.testcases.find linkedId).filter Testcase.live) fun _ ↦ write fun s ↦
          { s with sourceRefs :=
              Function.update s.sourceRefs linkedId (sanitizeSourceRefsInput sourceRefs) })
      (fun _ s' ↦ SameSuites s s') (fun (_ : SaveError) _ ↦ True) s₁ := by
    rw [wp_whenSome]
    refine ⟨fun _ ↦ h₁, fun sourceRefs _ ↦ ?_⟩
    rw [wp_whenSome]
    refine ⟨fun _ ↦ h₁, fun _ _ ↦ ?_⟩
    rw [wp_write]
    exact h₁
  apply wp_seq hrefs
  intro _ s₂ h₂
  apply wp_seq setValuesForTestCase_suites
  intro _ s₃ h₃
  apply wp_ofExcept_seq hE
  intro row _
  rw [wp_pure]
  exact h₂.trans h₃

variable [Unicode]

theorem checkedPayload_suites {ctx : ZyraSaveEntryContext} {draft : ZyraDraft} {link : DraftLink} :
    wp (checkedPayload ctx draft link) (fun _ s' ↦ SameSuites s s') (fun _ _ ↦ True) s := by
  unfold checkedPayload
  apply wp_query_seq
  apply wp_ofExcept_seq fun _ ↦ trivial
  intro _ _
  rw [wp_pure]
  rfl

theorem insertTestCase_suites {ctx : ZyraSaveEntryContext} {payload : ZyraPayload} :
    wp (insertTestCase ctx payload) (fun _ s' ↦ SameSuites s s') (fun _ _ ↦ True) s := by
  have hinsert : wp (insertTestCaseWithClient ctx.projectId ctx.uid payload.body)
      (fun _ db' ↦ db'.suites = s.db.suites) (fun _ _ ↦ True) s.db := by
    apply wp_mono insertTestCaseWithClient_spec
    · rintro _ db' ⟨_, hcase⟩
      obtain ⟨_, _, _, _, rfl⟩ := hcase.state
      rfl
    · exact fun _ _ h ↦ h
  unfold insertTestCase
  apply wp_seq (onDb_suites hinsert)
  intro row s₁ h₁
  rw [wp_bind, wp_write]
  apply wp_seq setValuesForTestCase_suites
  intro _ s₂ h₂
  rw [wp_pure]
  exact h₁.trans h₂

/-- Each entry has its place in the answer. -/
theorem sequentialFrom_spec {ctx : ZyraSaveEntryContext} (st : LinkState)
    (entries : List ZyraEntry) :
    wp (sequentialFrom ctx st entries)
      (fun result s' ↦ result.touched.length = entries.length ∧ SameSuites s s')
      (fun _ _ ↦ True) s := by
  induction entries generalizing st s with
  | nil =>
      rw [sequentialFrom, wp_pure]
      exact ⟨rfl, rfl⟩
  | cons entry rest ih =>
      cases entry with
      | change archive testcaseId fields reason =>
          apply wp_seq processChange_suites
          intro touched s₁ h₁
          apply wp_seq (ih st)
          rintro result s₂ ⟨hlength, h₂⟩
          rw [wp_pure]
          exact ⟨congrArg Nat.succ hlength, h₁.trans h₂⟩
      | create draft reason =>
          apply wp_seq checkedPayload_suites
          intro payload s₁ h₁
          cases (zyraDraftTicketLink ctx st draft).1.existingLinkedRow with
          | some linked =>
              apply wp_seq processLinked_suites
              intro touched s₂ h₂
              apply wp_seq (ih _)
              rintro result s₃ ⟨hlength, h₃⟩
              rw [wp_pure]
              exact ⟨congrArg Nat.succ hlength, h₁.trans (h₂.trans h₃)⟩
          | none =>
              apply wp_seq insertTestCase_suites
              intro row s₂ h₂
              apply wp_seq logProjectActivity_suites
              intro _ s₃ h₃
              apply wp_seq (ih _)
              rintro result s₄ ⟨hlength, h₄⟩
              rw [wp_pure]
              exact ⟨congrArg Nat.succ hlength, h₁.trans (h₂.trans (h₃.trans h₄))⟩

theorem batchedFrom_spec {ctx : ZyraSaveEntryContext} (st : LinkState) (entries : List ZyraEntry) :
    wp (batchedFrom ctx st entries)
      (fun slots s' ↦ slots.length = entries.length ∧ SameSuites s s') (fun _ _ ↦ True) s := by
  induction entries generalizing st s with
  | nil =>
      rw [batchedFrom, wp_pure]
      exact ⟨rfl, rfl⟩
  | cons entry rest ih =>
      cases entry with
      | change archive testcaseId fields reason =>
          apply wp_seq processChange_suites
          intro touched s₁ h₁
          apply wp_seq (ih st)
          rintro slots s₂ ⟨hlength, h₂⟩
          rw [wp_pure]
          exact ⟨congrArg Nat.succ hlength, h₁.trans h₂⟩
      | create draft reason =>
          apply wp_seq checkedPayload_suites
          intro payload s₁ h₁
          cases (zyraDraftTicketLink ctx st draft).1.existingLinkedRow with
          | some linked =>
              apply wp_seq processLinked_suites
              intro touched s₂ h₂
              apply wp_seq (ih _)
              rintro slots s₃ ⟨hlength, h₃⟩
              rw [wp_pure]
              exact ⟨congrArg Nat.succ hlength, h₁.trans (h₂.trans h₃)⟩
          | none =>
              apply wp_seq (ih _)
              rintro slots s₂ ⟨hlength, h₂⟩
              rw [wp_pure]
              exact ⟨congrArg Nat.succ hlength, h₁.trans h₂⟩

theorem zyraBatchInsertTestCases_suites {order : ReturningOrder} {ctx : ZyraSaveEntryContext}
    {payloads : List ZyraPayload} :
    wp (zyraBatchInsertTestCases order ctx payloads) (fun _ s' ↦ SameSuites s s')
      (fun _ _ ↦ True) s := by
  have hE : ∀ _ : Failure, True := fun _ ↦ trivial
  unfold zyraBatchInsertTestCases
  refine wp_seq (onDb_suites ?_) ?_
  · unfold externalIdPrefix maxExternalIdSeq takeUuids
    apply wp_query_seq
    apply wp_check_seq hE
    intro startSeq _
    apply wp_check_seq hE
    intro rows _
    rw [wp_bind, wp_write]
    apply wp_insertTestcases_seq hE
    intro testcases _ _
    rw [wp_pure]
  · intro rows s₁ h₁
    rw [wp_bind, wp_write]
    apply wp_ofExcept_seq fun _ ↦ trivial
    intro inserted _
    rw [wp_pure]
    exact h₁

omit [Unicode] in
theorem fillSlots_spec {ctx : ZyraSaveEntryContext} (slots : List Slot)
    (rows : List (Testcase × List SourceRef)) :
    wp (fillSlots ctx slots rows)
      (fun result s' ↦ result.touched.length = slots.length ∧ SameSuites s s')
      (fun _ _ ↦ True) s := by
  induction slots generalizing rows s with
  | nil =>
      rw [fillSlots, wp_pure]
      exact ⟨rfl, rfl⟩
  | cons slot slots ih =>
      cases slot with
      | filled touched action =>
          apply wp_seq (ih rows)
          rintro result s₁ ⟨hlength, h₁⟩
          rw [wp_pure]
          exact ⟨congrArg Nat.succ hlength, h₁⟩
      | toInsert payload reason =>
          cases rows with
          | nil =>
              show wp (fail SaveError.typeError) _ _ s
              rw [wp_fail]
              trivial
          | cons row rows =>
              apply wp_seq setValuesForTestCase_suites
              intro _ s₁ h₁
              apply wp_seq logProjectActivity_suites
              intro _ s₂ h₂
              apply wp_seq (ih rows)
              rintro result s₃ ⟨hlength, h₃⟩
              rw [wp_pure]
              exact ⟨congrArg Nat.succ hlength, h₁.trans (h₂.trans h₃)⟩

theorem processEntries_spec {setBased : Option ReturningOrder} {ctx : ZyraSaveEntryContext}
    {entries : List ZyraEntry} :
    wp (processEntries setBased ctx entries)
      (fun result s' ↦ result.touched.length = entries.length ∧ SameSuites s s')
      (fun _ _ ↦ True) s := by
  cases setBased with
  | none => exact sequentialFrom_spec .start entries
  | some order =>
      show wp (processZyraSaveEntriesBatched order ctx entries) _ _ s
      unfold processZyraSaveEntriesBatched
      apply wp_seq (batchedFrom_spec .start entries)
      rintro slots s₁ ⟨hlength, h₁⟩
      have hfill : ∀ rows s₂, SameSuites s₁ s₂ → wp (fillSlots ctx slots rows)
          (fun result s' ↦ result.touched.length = entries.length ∧ SameSuites s s')
          (fun _ _ ↦ True) s₂ := by
        intro rows s₂ h₂
        apply wp_mono (fillSlots_spec slots rows)
        · rintro result s₃ ⟨hfilled, h₃⟩
          exact ⟨hfilled.trans hlength, h₁.trans (h₂.trans h₃)⟩
        · exact fun _ _ h ↦ h
      dsimp only
      split
      · exact hfill [] s₁ rfl
      · exact wp_seq zyraBatchInsertTestCases_suites hfill

end Entries

/-! ## The transaction -/

section Transaction

variable {α : Type} {s : TaskDb}

theorem wp_onSave {m : Save α} {Q : α → SaveDb → Prop} (h : wp m Q (fun _ _ ↦ True) s.save) :
    wp (onSave m) (fun a s' ↦ (m s.save).1.isOk = true ∧ Q a s'.save)
      (fun _ _ ↦ (m s.save).1.isOk = false) s := by
  unfold wp onSave at *
  generalize m s.save = outcome at h ⊢
  obtain ⟨r, save⟩ := outcome
  cases r with
  | error e => rfl
  | ok a => exact ⟨rfl, h⟩

/-- A handler of the tables leaves the rest alone, and is refused as it is alone. -/
theorem wp_onTables {m : Handler α} {Q : α → Db → Prop} {E : Failure → Db → Prop}
    (h : wp m Q E s.save.db) :
    wp (onTables m)
      (fun a s' ↦ Q a s'.save.db ∧ s'.requests = s.requests ∧ s'.sessions = s.sessions)
      (fun e s' ↦ (∃ f, e = refusal f ∧ E f s'.save.db) ∧ s'.requests = s.requests ∧
        s'.sessions = s.sessions) s := by
  unfold wp onTables onSave onDb at *
  generalize m s.save.db = outcome at h ⊢
  obtain ⟨r, db⟩ := outcome
  cases r with
  | error e => exact ⟨⟨e, rfl, h⟩, rfl, rfl⟩
  | ok a => exact ⟨h, rfl, rfl⟩

variable {setBased : Option ReturningOrder} {fault : Option Fault} {projectId uid taskId : Uuid}
  {batchSuiteId : Option IdText} {indexes : Option (List (Option ℕ))}

/-- What is written once the entries are never fails, and counts them. -/
theorem recordSave_spec {existing : GenerationRequest} {selected : List (ℕ × ZyraEntry)}
    {staleSuites : ℕ} {result : SaveResult} {E : TaskError → TaskDb → Prop} :
    wp (recordSave projectId taskId existing selected batchSuiteId staleSuites result)
      (fun answer s' ↦ answer.savedCount = result.touched.length ∧ SameSuites s.save s'.save) E s := by
  have hid : wp genUuid (fun _ db' ↦ db'.suites = s.save.db.suites) (fun _ _ ↦ False) s.save.db := by
    rw [wp_genUuid]
  unfold recordSave
  apply wp_query_seq
  refine wp_seq (wp_mono (wp_onTables hid) (fun _ _ h ↦ h.1) fun _ _ h ↦ ?_) ?_
  · obtain ⟨⟨_, _, hfalse⟩, -⟩ := h
    exact hfalse.elim
  · intro eventId s₁ h₁
    dsimp only
    apply wp_whenSome_seq
    · intro _
      rw [wp_bind, wp_write, wp_pure]
      exact ⟨rfl, h₁⟩
    · intro session _
      split
      · rw [wp_write, wp_bind, wp_write, wp_pure]
        exact ⟨rfl, h₁⟩
      · rw [wp_pure, wp_bind, wp_write, wp_pure]
        exact ⟨rfl, h₁⟩

variable [Unicode]

theorem savable_iff {existing : GenerationRequest}
    (hopen : openRequest projectId taskId s = .ok existing) :
    Savable setBased fault projectId uid taskId batchSuiteId indexes s ↔
      Fault.breaks fault = false ∧ selectedEntries indexes existing.generatedPayload ≠ [] ∧
      staleDraftIndexes (selectedEntries indexes existing.generatedPayload) s.save.db = [] ∧
      (processEntries setBased
        (entryContext projectId uid taskId batchSuiteId existing
          (selectedEntries indexes existing.generatedPayload) s).1
        ((selectedEntries indexes existing.generatedPayload).map Prod.snd) s.save).1.isOk = true := by
  unfold Savable
  constructor
  · rintro ⟨hfault, existing', hopen', h⟩
    obtain rfl : existing = existing' := Except.ok.inj (hopen.symm.trans hopen')
    exact ⟨hfault, h⟩
  · exact fun ⟨hfault, h⟩ ↦ ⟨hfault, existing, hopen, h⟩

/-- A transaction none of whose statements fails: it saves something just where it can. -/
theorem saveTransaction_spec (hfault : Fault.breaks fault = false) :
    wp (saveTransaction setBased projectId uid taskId batchSuiteId indexes)
      (fun answer s' ↦
        if answer.savedCount = 0 then
          s' = s ∧ ¬ Savable setBased fault projectId uid taskId batchSuiteId indexes s
        else SameSuites s.save s'.save ∧
          Savable setBased fault projectId uid taskId batchSuiteId indexes s)
      (fun _ _ ↦ ¬ Savable setBased fault projectId uid taskId batchSuiteId indexes s) s := by
  unfold saveTransaction
  rw [wp_bind, wp_check]
  constructor
  · intro existing hopen
    have hiff := @savable_iff s setBased fault projectId uid taskId batchSuiteId indexes _ existing
      hopen
    dsimp only
    generalize selectedEntries indexes existing.generatedPayload = selected at hiff ⊢
    split
    · rename_i hnone
      rw [wp_pure, if_pos rfl]
      exact ⟨rfl, fun h ↦ (hiff.mp h).2.1 hnone⟩
    · rename_i hsome
      apply wp_query_seq
      rw [wp_bind, wp_require]
      constructor
      · intro hstale
        apply wp_query_seq
        apply wp_seq
        · apply wp_mono (wp_onSave processEntries_spec)
          · exact fun _ _ h ↦ h
          · intro _ _ herror hsavable
            rw [(hiff.mp hsavable).2.2.2] at herror
            cases herror
        rintro result s₁ ⟨hok, hlength, h₁⟩
        have hsavable := hiff.mpr ⟨hfault, hsome, hstale, hok⟩
        apply wp_mono recordSave_spec
        · rintro answer s₂ ⟨hcount, h₂⟩
          rw [List.length_map] at hlength
          have hne : answer.savedCount ≠ 0 := by
            rw [hcount, hlength]
            exact fun h ↦ hsome (List.eq_nil_of_length_eq_zero h)
          rw [if_neg hne]
          exact ⟨h₁.trans h₂, hsavable⟩
        · exact fun _ _ h ↦ h
      · exact fun h hsavable ↦ h (hiff.mp hsavable).2.2.1
  · rintro e hopen ⟨-, existing, hopen', -⟩
    rw [hopen] at hopen'
    cases hopen'

/-- What an attempt does once its suite is there: it saves something or leaves everything. -/
theorem interrupted_spec :
    wp (interrupted fault
        (saveTransaction setBased projectId uid taskId batchSuiteId indexes))
      (fun answer s' ↦
        if answer.savedCount = 0 then
          s' = s ∧ ¬ Savable setBased fault projectId uid taskId batchSuiteId indexes s
        else SameSuites s.save s'.save ∧
          Savable setBased fault projectId uid taskId batchSuiteId indexes s)
      (fun _ s' ↦
        s' = s ∧ ¬ Savable setBased fault projectId uid taskId batchSuiteId indexes s) s := by
  have hwhole (hfault : Fault.breaks fault = false) :
      wp (transaction (saveTransaction setBased projectId uid taskId batchSuiteId indexes))
        (fun answer s' ↦
          if answer.savedCount = 0 then
            s' = s ∧ ¬ Savable setBased fault projectId uid taskId batchSuiteId indexes s
          else SameSuites s.save s'.save ∧
            Savable setBased fault projectId uid taskId batchSuiteId indexes s)
        (fun _ s' ↦
          s' = s ∧ ¬ Savable setBased fault projectId uid taskId batchSuiteId indexes s) s := by
    rw [wp_transaction]
    apply wp_mono (saveTransaction_spec hfault)
    · exact fun _ _ h ↦ h
    · exact fun _ _ h ↦ ⟨rfl, h⟩
  unfold interrupted
  split
  · rw [wp_fail]
    exact ⟨rfl, fun h ↦ Bool.noConfusion h.1⟩
  · exact hwhole rfl
  · exact hwhole rfl

end Transaction

/-! ## The suite of the batch -/

section NewSuite

theorem validateBoundedField_not_collided {value : Option String} {label : String} {max : ℕ}
    {e : Failure} (h : validateBoundedField value label max = .error e) :
    collided (refusal e) = false := by
  unfold validateBoundedField at h
  split at h
  · cases h
  · split at h
    · cases h
      rfl
    · cases h

theorem varchar_not_collided {max : ℕ} {text : String} {e : Failure}
    (h : varchar max text = .error e) : collided (refusal e) = false := by
  unfold varchar at h
  split at h
  · cases h
  · cases h
    rfl

theorem ofExcept_ok_bind {α β : Type} (a : α) (f : α → Handler β) :
    (ofExcept (.ok a) >>= f : Handler β) = f a := rfl

theorem whenSome_none_bind {α β : Type} (g : α → Handler Unit) (f : Unit → Handler β) :
    (whenSome none g >>= f : Handler β) = f () := rfl

/-- A suite that only has a name is created at the end, or is refused for good. -/
theorem createSuite_namedSuite {projectId : Uuid} {name : String} {db : Db} :
    wp (createSuite projectId (namedSuite name))
      (fun _ db' ↦ db'.testcases = db.testcases ∧
        ∃ suite : Suite, db'.suites.rows = db.suites.rows ++ [suite] ∧
          varchar suiteNameMaxLength (jsTrim name) = .ok suite.name)
      (fun e db' ↦ collided (refusal e) = false ∧ Neutral db db') db := by
  have hname : (namedSuite name).name.truthy.getD "" = name := by
    show (if decide (name = "") = true then none else some name).getD "" = name
    by_cases hempty : name = ""
    · rw [if_pos (decide_eq_true hempty), hempty]
      rfl
    · rw [if_neg (by simpa using hempty)]
      rfl
  unfold createSuite
  dsimp only
  rw [hname, wp_bind, wp_require]
  constructor
  · intro _
    rw [wp_bind, wp_ofExcept]
    constructor
    · intro _ _
      have hdescription : normalizeSuiteText (namedSuite name).description "Suite description" =
          .ok none := rfl
      have hpreconditions : normalizeSuiteText (namedSuite name).preconditions
          "Suite preconditions" = .ok none := rfl
      have hparent : (namedSuite name).parentId.truthy = none := rfl
      have hcast : castUuid? none = pure none := rfl
      have hposition : int4 ((namedSuite name).position.truthy.getD 0) = .ok 0 := rfl
      rw [hdescription, hpreconditions, hparent, hcast, hposition]
      simp only [ofExcept_ok_bind, whenSome_none_bind]
      rw [wp_bind, wp_pure, wp_bind, wp_ofExcept]
      constructor
      · intro text htext
        simp only [wp_bind, wp_genUuid, wp_query, wp_insertSuite, wp_pure]
        constructor
        · intro suites hsuites
          exact ⟨trivial, _, (Table.insert_eq_some hsuites).1, htext⟩
        · exact fun _ ↦ ⟨rfl, _, _, rfl⟩
      · exact fun e he ↦ ⟨varchar_not_collided he, .refl db⟩
    · exact fun e he ↦ ⟨validateBoundedField_not_collided he, .refl db⟩
  · exact fun _ ↦ ⟨rfl, .refl db⟩

end NewSuite

/-! ## The attempts -/

section Attempts

variable {s : TaskDb} {fault : Option Fault} {projectId uid taskId : Uuid} {body : SaveBody}

theorem Untouched.refl (s : TaskDb) : Untouched s s := ⟨rfl, rfl, rfl, rfl⟩

/-- A suite the batch asks for is the only thing created, or nothing is and no attempt follows. -/
theorem batchSuite_spec {name : String} (hname : body.newSuite = some name) :
    wp (batchSuite fault projectId body) (fun _ s' ↦ AddsSuites [name] s s')
      (fun e s' ↦ collided e = false ∧ Untouched s s') s := by
  have hcreate : wp (onTables (createSuite projectId (namedSuite name)) >>= fun id ↦
        (pure (some (.canonical id)) : TaskSave (Option IdText)))
      (fun _ s' ↦ AddsSuites [name] s s') (fun e s' ↦ collided e = false ∧ Untouched s s') s := by
    apply wp_seq
    · apply wp_mono (wp_onTables createSuite_namedSuite)
      · exact fun _ _ h ↦ h
      · rintro e s' ⟨⟨f, rfl, hcollided, hneutral⟩, hrequests, hsessions⟩
        obtain ⟨users, uuids, hdb⟩ := hneutral
        exact ⟨hcollided, by rw [hdb], by rw [hdb], hrequests, hsessions⟩
    · rintro id s' ⟨⟨-, suite, hrows, hvarchar⟩, -⟩
      rw [wp_pure]
      exact ⟨[suite], hrows, .cons hvarchar .nil⟩
  unfold batchSuite
  rw [hname]
  dsimp only
  split
  · rw [wp_fail]
    exact ⟨rfl, .refl s⟩
  · exact hcreate
  · exact hcreate

variable [Unicode] {setBased : Option ReturningOrder}

omit [Unicode] in
theorem wp_caught {α : Type} {m : TaskSave α} {Q : Except TaskError α → TaskDb → Prop}
    {E : TaskError → TaskDb → Prop}
    (h : wp m (fun a s' ↦ Q (.ok a) s') (fun e s' ↦ Q (.error e) s') s) :
    wp (caught m) Q E s := by
  unfold wp caught at *
  rcases hm : m s with ⟨r, s'⟩
  rw [hm] at h
  cases r with
  | ok a => exact h
  | error e => exact h

/-- A collision is answered by the next attempt, on what this one left. -/
theorem wp_saveAttempts_succ {faults : ℕ → Option Fault} {retries n : ℕ}
    {Q : SaveAnswer → TaskDb → Prop} {E : TaskError → TaskDb → Prop}
    (h : wp (zyraSaveAttempt setBased (faults n) projectId uid taskId body) Q (fun e s' ↦
      if collided e then
        wp (saveAttempts setBased faults projectId uid taskId body retries (n + 1)) Q E s'
      else E e s') s) :
    wp (saveAttempts setBased faults projectId uid taskId body (retries + 1) n) Q E s := by
  rw [saveAttempts, wp_bind]
  apply wp_caught
  apply wp_mono h
  · intro answer s' hQ
    dsimp only
    rw [wp_pure]
    exact hQ
  · intro e s' hE
    dsimp only at hE ⊢
    split at hE
    · rename_i hcollided
      rw [if_pos hcollided]
      exact hE
    · rename_i hnot
      rw [if_neg hnot, wp_fail]
      exact hE

/-- Without a suite to create an attempt is its transaction. -/
theorem zyraSaveAttempt_noSuite (hname : body.newSuite = none) :
    wp (zyraSaveAttempt setBased fault projectId uid taskId body)
      (fun answer s' ↦ if answer.savedCount = 0 then s' = s else SameSuites s.save s'.save)
      (fun _ s' ↦ s' = s) s := by
  unfold zyraSaveAttempt batchSuite
  rw [hname, wp_bind, wp_pure]
  apply wp_mono interrupted_spec
  · intro answer s' h
    split at h
    · rename_i hzero
      rw [if_pos hzero]
      exact h.1
    · rename_i hpos
      rw [if_neg hpos]
      exact h.1
  · exact fun _ _ h ↦ h.1

/-- Without a suite to create no attempt leaves a trace. -/
theorem saveAttempts_noSuite {faults : ℕ → Option Fault} (hname : body.newSuite = none)
    (retries n : ℕ) :
    wp (saveAttempts setBased faults projectId uid taskId body retries n)
      (fun answer s' ↦ if answer.savedCount = 0 then s' = s else SameSuites s.save s'.save)
      (fun _ s' ↦ s' = s) s := by
  induction retries generalizing n with
  | zero => exact zyraSaveAttempt_noSuite hname
  | succ retries ih =>
      apply wp_saveAttempts_succ
      apply wp_mono (zyraSaveAttempt_noSuite hname)
      · exact fun _ _ h ↦ h
      · intro e s' h
        subst h
        split
        · exact ih (n + 1)
        · rfl

/-- At least `k` suites more than before. -/
def MoreSuites (k : ℕ) (s s' : TaskDb) : Prop :=
  s.save.db.suites.rows.length + k ≤ s'.save.db.suites.rows.length

/-- An attempt that creates a suite takes none away, and one that saves something creates one. -/
theorem zyraSaveAttempt_moreSuites {name : String} (hname : body.newSuite = some name) :
    wp (zyraSaveAttempt setBased fault projectId uid taskId body)
      (fun answer s' ↦ MoreSuites 0 s s' ∧ (answer.savedCount ≠ 0 → MoreSuites 1 s s'))
      (fun _ s' ↦ MoreSuites 0 s s') s := by
  unfold zyraSaveAttempt
  apply wp_seq
  · apply wp_mono (batchSuite_spec hname)
    · exact fun _ _ h ↦ h
    · rintro e s' ⟨-, h⟩
      exact le_of_eq (congrArg (fun suites ↦ suites.rows.length) h.suites.symm)
  rintro suiteId s₁ ⟨created, hrows, hcreated⟩
  have hmore : MoreSuites 1 s s₁ := by
    unfold MoreSuites
    rw [hrows, List.length_append, ← hcreated.length_eq]
    rfl
  have hless : MoreSuites 0 s s₁ := le_trans (Nat.le_succ _) hmore
  apply wp_mono interrupted_spec
  · intro answer s' h
    split at h
    · rename_i hzero
      rw [h.1]
      exact ⟨hless, fun hne ↦ absurd hzero hne⟩
    · have hsame : s'.save.db.suites = s₁.save.db.suites := h.1
      unfold MoreSuites at *
      rw [hsame]
      exact ⟨hless, fun _ ↦ hmore⟩
  · intro _ s' h
    rw [h.1]
    exact hless

/-- No attempt takes a suite away, and one that saves something creates one. -/
theorem saveAttempts_moreSuites {faults : ℕ → Option Fault} {name : String}
    (hname : body.newSuite = some name) (retries n : ℕ) :
    wp (saveAttempts setBased faults projectId uid taskId body retries n)
      (fun answer s' ↦ MoreSuites 0 s s' ∧ (answer.savedCount ≠ 0 → MoreSuites 1 s s'))
      (fun _ s' ↦ MoreSuites 0 s s') s := by
  induction retries generalizing n s with
  | zero => exact zyraSaveAttempt_moreSuites hname
  | succ retries ih =>
      apply wp_saveAttempts_succ
      apply wp_mono (zyraSaveAttempt_moreSuites hname)
      · exact fun _ _ h ↦ h
      · intro e s₁ h₁
        split
        · apply wp_mono (ih (n + 1))
          · intro answer s₂ h₂
            unfold MoreSuites at *
            exact ⟨by omega, fun hne ↦ by have := h₂.2 hne; omega⟩
          · intro _ s₂ h₂
            unfold MoreSuites at *
            omega
        · exact h₁

/-- A first attempt whose suite is created, and whose transaction goes through then, saves something
with that suite only. -/
theorem zyraSaveAttempt_savable {name : String} (hname : body.newSuite = some name)
    (hsavable : ∀ suiteId s₁, batchSuite fault projectId body s = (.ok suiteId, s₁) →
      Savable setBased fault projectId uid taskId suiteId body.selectedDraftIndexes s₁) :
    wp (zyraSaveAttempt setBased fault projectId uid taskId body)
      (fun answer s' ↦ answer.savedCount ≠ 0 ∧ AddsSuites [name] s s')
      (fun e s' ↦ collided e = false ∧ Untouched s s') s := by
  unfold zyraSaveAttempt
  apply wp_seq
  · apply wp_mono (wp_and (batchSuite_spec hname) (wp_outcome _ s))
    · exact fun _ _ h ↦ h
    · exact fun _ _ h ↦ h.1
  rintro suiteId s₁ ⟨⟨created, hrows, hcreated⟩, houtcome⟩
  have hgoes := hsavable suiteId s₁ houtcome
  apply wp_mono interrupted_spec
  · intro answer s' h
    split at h
    · exact absurd hgoes h.2
    · rename_i hpos
      have hsame : s'.save.db.suites = s₁.save.db.suites := h.1
      exact ⟨hpos, created, by rw [hsame, hrows], hcreated⟩
  · exact fun _ _ h ↦ absurd hgoes h.2

/-- Where its transaction does not go through, the suite stays. -/
theorem zyraSaveAttempt_leavesSuite {name : String} (hname : body.newSuite = some name)
    {suiteId : Option IdText} {s₁ : TaskDb}
    (hcreated : batchSuite fault projectId body s = (.ok suiteId, s₁))
    (hnot : ¬ Savable setBased fault projectId uid taskId suiteId body.selectedDraftIndexes s₁) :
    wp (zyraSaveAttempt setBased fault projectId uid taskId body)
      (fun answer s' ↦ answer.savedCount = 0 ∧ MoreSuites 1 s s') (fun _ s' ↦ MoreSuites 1 s s')
      s := by
  obtain ⟨created, hrows, hlength⟩ := (of_wp (batchSuite_spec hname)).1 _ _ hcreated
  have hmore : MoreSuites 1 s s₁ := by
    unfold MoreSuites
    rw [hrows, List.length_append, ← hlength.length_eq]
    rfl
  unfold zyraSaveAttempt
  apply wp_seq
  · apply wp_mono (wp_outcome _ s)
    · exact fun _ _ h ↦ h
    · intro e s' h
      rw [hcreated] at h
      cases h
  intro suiteId' s' houtcome
  rw [hcreated] at houtcome
  cases houtcome
  apply wp_mono interrupted_spec
  · intro answer s' h
    split at h
    · rename_i hzero
      rw [h.1]
      exact ⟨hzero, hmore⟩
    · exact absurd h.2 hnot
  · intro _ s' h
    rw [h.1]
    exact hmore

/-- With a first attempt that goes through, no other is made. -/
theorem saveAttempts_savable {faults : ℕ → Option Fault} {name : String} {retries n : ℕ}
    (hname : body.newSuite = some name)
    (hsavable : ∀ suiteId s₁, batchSuite (faults n) projectId body s = (.ok suiteId, s₁) →
      Savable setBased (faults n) projectId uid taskId suiteId body.selectedDraftIndexes s₁) :
    wp (saveAttempts setBased faults projectId uid taskId body retries n)
      (fun answer s' ↦ answer.savedCount ≠ 0 ∧ AddsSuites [name] s s')
      (fun _ s' ↦ Untouched s s') s := by
  have hfirst := zyraSaveAttempt_savable hname hsavable
  cases retries with
  | zero =>
      apply wp_mono hfirst
      · exact fun _ _ h ↦ h
      · exact fun _ _ h ↦ h.2
  | succ retries =>
      apply wp_saveAttempts_succ
      apply wp_mono hfirst
      · exact fun _ _ h ↦ h
      · intro e s' h
        rw [if_neg (Bool.not_eq_true _ ▸ h.1)]
        exact h.2

/-- The suite of a first attempt that does not go through is never taken away, and every attempt that
saves something has created another one. -/
theorem saveAttempts_leavesSuite {faults : ℕ → Option Fault} {name : String} {retries n : ℕ}
    (hname : body.newSuite = some name) {suiteId : Option IdText} {s₁ : TaskDb}
    (hcreated : batchSuite (faults n) projectId body s = (.ok suiteId, s₁))
    (hnot : ¬ Savable setBased (faults n) projectId uid taskId suiteId body.selectedDraftIndexes
      s₁) :
    wp (saveAttempts setBased faults projectId uid taskId body retries n)
      (fun answer s' ↦ MoreSuites 1 s s' ∧ (answer.savedCount ≠ 0 → MoreSuites 2 s s'))
      (fun _ s' ↦ MoreSuites 1 s s') s := by
  have hfirst := @zyraSaveAttempt_leavesSuite s (faults n) projectId uid taskId body _ setBased name
    hname suiteId s₁ hcreated hnot
  cases retries with
  | zero =>
      apply wp_mono hfirst
      · exact fun _ _ h ↦ ⟨h.2, fun hne ↦ absurd h.1 hne⟩
      · exact fun _ _ h ↦ h
  | succ retries =>
      apply wp_saveAttempts_succ
      apply wp_mono hfirst
      · exact fun _ _ h ↦ ⟨h.2, fun hne ↦ absurd h.1 hne⟩
      · intro e s₂ h₁
        split
        · apply wp_mono (saveAttempts_moreSuites hname retries (n + 1))
          · intro answer s₃ h₂
            unfold MoreSuites at *
            exact ⟨by omega, fun hne ↦ by have := h₂.2 hne; omega⟩
          · intro _ s₃ h₂
            unfold MoreSuites at *
            omega
        · exact h₁

omit [Unicode] in
theorem Untouched.not_moreSuites {s' : TaskDb} (h : Untouched s s') : ¬ MoreSuites 1 s s' := by
  unfold MoreSuites
  rw [h.suites]
  omega

omit [Unicode] in
theorem leavesNoTrace_iff_wp {m : TaskSave SaveAnswer} :
    LeavesNoTrace body s (m s) ↔
      wp m (fun answer s' ↦ if answer.savedCount = 0 then Untouched s s'
        else AddsSuites body.newSuite.toList s s') (fun _ s' ↦ Untouched s s') s := by
  unfold wp
  rcases m s with ⟨r, s'⟩
  cases r with
  | error e => exact Iff.rfl
  | ok a => exact Iff.rfl

/-- The attempts leave no trace just where the first one creates no suite or goes through. -/
theorem saveAttempts_leavesNoTrace_iff {faults : ℕ → Option Fault} {retries n : ℕ} :
    LeavesNoTrace body s (saveAttempts setBased faults projectId uid taskId body retries n s) ↔
      (body.newSuite.isSome = true → ∀ suiteId s₁,
        batchSuite (faults n) projectId body s = (.ok suiteId, s₁) →
        Savable setBased (faults n) projectId uid taskId suiteId body.selectedDraftIndexes s₁) := by
  rw [leavesNoTrace_iff_wp]
  cases hname : body.newSuite with
  | none =>
      refine iff_of_true ?_ (fun h ↦ Bool.noConfusion h)
      apply wp_mono (saveAttempts_noSuite hname retries n)
      · intro answer s' h
        split at h
        · rename_i hzero
          rw [if_pos hzero, h]
          exact .refl s
        · rename_i hpos
          rw [if_neg hpos]
          exact ⟨[], by rw [h, List.append_nil], .nil⟩
      · intro _ s' h
        rw [h]
        exact .refl s
  | some name =>
      constructor
      · intro hclean _ suiteId s₁ hcreated
        by_contra hnot
        have hboth := wp_and hclean
          (@saveAttempts_leavesSuite s projectId uid taskId body _ setBased faults name retries n
            hname suiteId s₁ hcreated hnot)
        rcases houtcome : saveAttempts setBased faults projectId uid taskId body retries n s with
          ⟨error | answer, s'⟩
        · obtain ⟨huntouched, hmore⟩ := (of_wp hboth).2 _ _ houtcome
          exact huntouched.not_moreSuites hmore
        · obtain ⟨hanswer, hmore, htwo⟩ := (of_wp hboth).1 _ _ houtcome
          split at hanswer
          · exact hanswer.not_moreSuites hmore
          · rename_i hpos
            obtain ⟨created, hrows, hlength⟩ := hanswer
            have hmore := htwo hpos
            unfold MoreSuites at hmore
            rw [hrows, List.length_append, ← hlength.length_eq] at hmore
            exact absurd hmore (by simp)
      · intro hsavable
        apply wp_mono (saveAttempts_savable hname (hsavable rfl))
        · intro answer s' h
          rw [if_neg h.1]
          exact h.2
        · exact fun _ _ h ↦ h

end Attempts

/-! ## Saves -/

section Saves

variable {s : TaskDb} {accessFault : Option TaskError} {userId : Option Uuid}
  {projectId taskId : IdText} {body : SaveBody}

theorem onTables_untouched {α : Type} {m : Handler α}
    (h : wp m (fun _ db' ↦ OnlyUsers s.save.db db') (fun _ db' ↦ OnlyUsers s.save.db db')
      s.save.db) :
    wp (onTables m) (fun _ s' ↦ Untouched s s') (fun _ s' ↦ Untouched s s') s := by
  apply wp_mono (wp_onTables h)
  · rintro _ s' ⟨⟨users, hdb⟩, hrequests, hsessions⟩
    exact ⟨by rw [hdb], by rw [hdb], hrequests, hsessions⟩
  · rintro _ s' ⟨⟨_, -, users, hdb⟩, hrequests, hsessions⟩
    exact ⟨by rw [hdb], by rw [hdb], hrequests, hsessions⟩

theorem Untouched.trans {s₁ s₂ s₃ : TaskDb} (h : Untouched s₁ s₂) (h' : Untouched s₂ s₃) :
    Untouched s₁ s₃ :=
  ⟨h'.suites.trans h.suites, h'.testcases.trans h.testcases, h'.requests.trans h.requests,
    h'.sessions.trans h.sessions⟩

/-- The checks only choose the workspace of the caller. -/
theorem opening_spec :
    wp (opening accessFault userId projectId taskId body) (fun _ s' ↦ Untouched s s')
      (fun _ s' ↦ Untouched s s') s := by
  have huser : wp (requireUser userId) (fun _ db' ↦ OnlyUsers s.save.db db')
      (fun _ db' ↦ OnlyUsers s.save.db db') s.save.db := by
    unfold requireUser
    rw [wp_check]
    exact ⟨fun _ _ ↦ .refl _, fun _ _ ↦ .refl _⟩
  unfold opening
  apply wp_seq (onTables_untouched huser)
  intro uid s₁ h₁
  rw [wp_bind, wp_ofExcept]
  constructor
  · intro _ _
    have haccess : wp (requireProjectAccess (some uid) projectId)
        (fun _ db' ↦ OnlyUsers s₁.save.db db') (fun _ db' ↦ OnlyUsers s₁.save.db db')
        s₁.save.db := by
      apply wp_mono requireProjectAccess_spec
      · exact fun _ _ h ↦ h.1
      · exact fun _ _ h ↦ h
    apply wp_seq
    · apply wp_mono (onTables_untouched haccess)
      · exact fun _ _ h ↦ h₁.trans h
      · exact fun _ _ h ↦ h₁.trans h
    intro access s₂ h₂
    refine wp_require_seq h₂ fun _ ↦ ?_
    have hcast : wp (castUuid taskId) (fun _ db' ↦ OnlyUsers s₂.save.db db')
        (fun _ db' ↦ OnlyUsers s₂.save.db db') s₂.save.db := by
      rw [wp_castUuid]
      exact ⟨fun _ _ ↦ .refl _, fun _ _ ↦ .refl _⟩
    apply wp_seq
    · apply wp_mono (onTables_untouched hcast)
      · exact fun _ _ h ↦ h₂.trans h
      · exact fun _ _ h ↦ h₂.trans h
    intro task s₃ h₃
    split
    · rw [wp_pure]
      exact h₃
    · rw [wp_pure]
      exact h₃
  · exact fun _ _ ↦ h₁

/-- States that only differ in what no save is about. -/
theorem LeavesNoTrace.congr {s₁ : TaskDb} (h : Untouched s s₁)
    (outcome : Except TaskError SaveAnswer × TaskDb) :
    LeavesNoTrace body s outcome ↔ LeavesNoTrace body s₁ outcome := by
  have huntouched (s' : TaskDb) : Untouched s s' ↔ Untouched s₁ s' := by
    constructor
    · intro h'
      exact ⟨h'.suites.trans h.suites.symm, h'.testcases.trans h.testcases.symm,
        h'.requests.trans h.requests.symm, h'.sessions.trans h.sessions.symm⟩
    · exact h.trans
  obtain ⟨r, s'⟩ := outcome
  cases r with
  | error e => exact huntouched s'
  | ok answer =>
      show (if _ then _ else _) ↔ if _ then _ else _
      split
      · exact huntouched s'
      · unfold AddsSuites
        rw [h.suites]

end Saves

/-- A save leaves no trace just where the suite it names is created by no first attempt, or by one
whose transaction goes through. -/
theorem leavesNoTrace_iff [Unicode] (setBased : Option ReturningOrder) (faults : Faults)
    (userId : Option Uuid) (projectId taskId : IdText) (body : SaveBody) (s : TaskDb) :
    LeavesNoTrace body s (zyraSave setBased faults userId projectId taskId body s) ↔
      ∀ project uid task s₁,
        opening faults.access userId projectId taskId body s =
          (.ok (some (project, uid, task)), s₁) →
        body.newSuite.isSome = true → ∀ suiteId s₂,
          batchSuite (faults.attempt 0) project body s₁ = (.ok suiteId, s₂) →
          Savable setBased (faults.attempt 0) project uid task suiteId body.selectedDraftIndexes
            s₂ := by
  unfold zyraSave
  rw [bind_apply]
  rcases hopening : opening faults.access userId projectId taskId body s with ⟨error | opened, s₁⟩
  · have huntouched := (of_wp opening_spec).2 _ _ hopening
    exact iff_of_true huntouched fun _ _ _ _ h ↦ nomatch h
  · have huntouched := (of_wp opening_spec).1 _ _ hopening
    cases opened with
    | none => exact iff_of_true huntouched fun _ _ _ _ h ↦ nomatch h
    | some ids =>
        obtain ⟨project, uid, task⟩ := ids
        show LeavesNoTrace body s
          (saveAttempts setBased faults.attempt project uid task body 4 0 s₁) ↔ _
        rw [LeavesNoTrace.congr huntouched, saveAttempts_leavesNoTrace_iff]
        constructor
        · intro h _ _ _ _ heq
          cases heq
          exact h
        · exact fun h ↦ h project uid task s₁ rfl

/-! ## Saves with a suite to create -/

/-- The caller's project. -/
def emptyProject : SaveDb where
  db := { Db.empty with
    users := .singleton ⟨1, "ann@x.io", some 10⟩
    organizations := .singleton ⟨10, 0⟩
    organizationMembers := .singleton ⟨10, 1, "owner"⟩
    projects := .singleton ⟨100, some 10, "SHOP", "", none⟩
    projectMembers := .singleton ⟨100, 1, "owner"⟩ }
  sourceRefs _ := []
  fieldDefinitions := []
  fieldValues _ _ := none
  customFieldsEnabled _ := true
  notionPageKeys _ _ := none
  auditLogs := 0

/-- A task with one draft. -/
def oneDraft (status : String) : TaskDb where
  save := emptyProject
  requests := ⟨[⟨9, 100, status, none, [.create titledDraft .undefined], 1, 0, [], [], [], [], [], 0⟩],
    List.nodup_singleton _⟩
  sessions := .empty
  tickets _ := []
  testcaseStorage _ := true

def intoCheckout : SaveBody := ⟨.undefined, .value "Checkout", none⟩

def saveInto (faults : Faults) (status : String) : Except TaskError SaveAnswer × TaskDb :=
  @zyraSave asciiCase none faults (some 1) (.canonical 100) (.canonical 9) intoCheckout
    (oneDraft status)

def noFaults : Faults := ⟨none, fun _ ↦ none⟩

/-- Another save takes the id allocated by the first attempt. -/
def oneCollision : Faults where
  access := none
  attempt
    | 0 => some (.transaction (refusal (.unique "idx_testcases_project_external")))
    | _ + 1 => none

/-- A save of a task that is closed is refused and leaves the suite it created; a save that is made
again after a collision succeeds with two suites. -/
theorem not_leavesNoTrace_intoCheckout :
    ¬ LeavesNoTrace intoCheckout (oneDraft "done") (saveInto noFaults "done") ∧
      ¬ LeavesNoTrace intoCheckout (oneDraft "in_review") (saveInto oneCollision "in_review") := by
  constructor
  · have hrefused : (saveInto noFaults "done").1.isOk = false := by decide +kernel
    have hcreated : (saveInto noFaults "done").2.save.db.suites.rows.length = 1 := by decide +kernel
    generalize saveInto noFaults "done" = outcome at hrefused hcreated ⊢
    obtain ⟨error | answer, s'⟩ := outcome
    · intro h
      have hsuites : s'.save.db.suites.rows = [] := congrArg Table.rows h.suites
      rw [hsuites] at hcreated
      cases hcreated
    · cases hrefused
  · have hcreated : (saveInto oneCollision "in_review").2.save.db.suites.rows.length = 2 := by
      decide +kernel
    have hsaved : ((saveInto oneCollision "in_review").1.toOption.map SaveAnswer.savedCount) =
        some 1 := by
      decide +kernel
    generalize saveInto oneCollision "in_review" = outcome at hsaved hcreated ⊢
    obtain ⟨error | answer, s'⟩ := outcome
    · cases hsaved
    · intro h
      have hcount : answer.savedCount = 1 := Option.some.inj hsaved
      have hone : ¬ answer.savedCount = 0 := by omega
      have hname : intoCheckout.newSuite.toList = ["Checkout"] := by decide
      simp only [LeavesNoTrace, if_neg hone, hname] at h
      obtain ⟨created, hrows, hlength⟩ := h
      rw [hrows, List.length_append, ← hlength.length_eq] at hcreated
      cases hcreated

end Tesbo.ZyraTaskSaves
