import Tesbo.CustomFields
import Tesbo.TestCases
import Tesbo.Reasoning.Assoc

/-!
# Saving review entries

The drafts of a review batch a user has picked become test cases, new ones or ones already linked to
the draft's ticket, and the proposed changes are made; one entry after the other, or with all new
test cases in one statement.
-/

namespace Tesbo

open Reasoning Service

/-! ## What a save reads and writes beside the tables above -/

/-- A value of a custom field. -/
abbrev Json := FieldValue ℚ

structure SourceRef where
  type : String
  id : String
  title : String
deriving DecidableEq

/-- A citation as sent, by those of its fields that are texts. -/
structure RawSourceRef where
  type : Option String
  id : Option String
  title : Option String
deriving DecidableEq

def sourceRefTypes : List String :=
  ["knowledge_document", "knowledge_file", "jira_ticket", "testcase", "bug"]

def sanitizeSourceRefsInput (raw : List RawSourceRef) : List SourceRef :=
  (raw.take 20).filterMap fun entry ↦ do
    let type ← entry.type.filter (· ∈ sourceRefTypes)
    let id ← entry.id.filter fun id ↦ jsTrim id ≠ ""
    let title := (entry.title.map jsTrim).getD ""
    some ⟨type, jsTrim id, if title = "" then jsTrim id else title⟩

inductive FieldStatus where
  | active | inactive | archived
deriving DecidableEq, Repr

/-- A row of `custom_field_definitions`. -/
structure CustomFieldDefinition where
  id : Uuid
  projectId : Uuid
  key : String
  name : String
  fieldType : FieldType
  status : FieldStatus
  required : Bool
  config : FieldConfig ℚ
  deletedAt : Option Time

/-- The values a change proposes. -/
structure PatchFields where
  text : TextColumn → Arg String
  steps : Option (List Step)

inductive AuditDiff where
  | fieldUpdated (fieldId : Uuid) (fieldKey fieldName : String) (after : Json)
  | created (source : String) (taskId : Uuid) (reason : Option String)
  | changed (source : String) (fields : PatchFields) (reason : Option String)

/-- A row of `audit_logs` about a test case. -/
structure AuditLog where
  projectId : Uuid
  organizationId : Option Uuid
  actorId : Uuid
  action : String
  entityId : Uuid
  entityName : Option String
  diff : AuditDiff

/-- The database with what a save touches besides: the column `source_refs`, the custom fields and
their values by test case and definition, whether a workspace's plan has custom fields, the keys of
the Notion pages of a project, and the activity log, whose rows have no order. -/
structure SaveDb where
  db : Db
  sourceRefs : Uuid → List SourceRef
  fieldDefinitions : List CustomFieldDefinition
  fieldValues : Uuid → Uuid → Option Json
  customFieldsEnabled : Uuid → Bool
  notionPageKeys : Uuid → String → Option String
  auditLogs : Multiset AuditLog

/-- How a save fails: refused, required fields without a value, a property of `undefined`. -/
inductive SaveError where
  | refused (e : Failure)
  | fieldErrors (errors : List (Uuid × String))
  | typeError

abbrev Save (α : Type) := Service SaveError SaveDb α

/-- A handler of the tables above, inside a save. -/
def onDb {α : Type} (m : Handler α) : Save α := fun s ↦
  match m s.db with
  | (.ok a, db) => (.ok a, { s with db := db })
  | (.error e, db) => (.error (.refused e), { s with db := db })

/-- A handler leaves everything but its own tables. -/
theorem wp_onDb {α : Type} {m : Handler α} {s : SaveDb} {Q : α → Db → Prop}
    (h : wp m Q (fun _ _ ↦ True) s.db) :
    wp (onDb m) (fun a s' ↦ Q a s'.db ∧ s' = { s with db := s'.db }) (fun _ _ ↦ True) s := by
  unfold wp onDb at *
  generalize m s.db = outcome at h ⊢
  obtain ⟨r, db⟩ := outcome
  cases r with
  | error e => trivial
  | ok a => exact ⟨h, rfl⟩

/-! ## Custom field values -/

def applyDefaultIfMissing (config : FieldConfig ℚ) (fieldType : FieldType) : Arg Json :=
  if config.defaultValue.sent then config.defaultValue
  else match fieldType with
    | .singleSelect =>
        match config.defaultOptionId.nullish with
        | some (.text id) => if id = "" then .undefined else .value (.text id)
        | some (.other written) => if written ∈ ["0", "false"] then .undefined else .value .other
        | none => .undefined
    | .multiSelect =>
        match config.defaultOptionIds.nullish with
        | some ids => if ids.isEmptyValue then .undefined else .value ids
        | none => .undefined
    | .text | .longText | .boolean | .number | .date => .undefined

/-- `isEmptyValue` -/
def isEmptyValue (value : Option Json) : Bool := value.all FieldValue.isEmptyValue

/-- The defaults a test case lacks. -/
def missingDefaults (definitions : List CustomFieldDefinition) (existing : Uuid → Option Json) :
    List (CustomFieldDefinition × Option Json) :=
  (definitions.filter fun d ↦ d.status = .active && (existing d.id).isNone).filterMap fun d ↦
    match applyDefaultIfMissing d.config d.fieldType with
    | .undefined => none
    | .null => some (d, none)
    | .value v => some (d, some v)

/-- The value a definition ends up with. -/
def effectiveValue (normalized : List (CustomFieldDefinition × Option Json))
    (existing : Uuid → Option Json) (id : Uuid) : Option Json :=
  match normalized.find? fun e ↦ e.1.id = id with
  | some e => e.2
  | none => existing id

/-- `normalizeValues` where no values come in, as a save calls it. -/
def normalizeValues (definitions : List CustomFieldDefinition) (existing : Uuid → Option Json) :
    List (CustomFieldDefinition × Option Json) × List (Uuid × String) :=
  let normalized := missingDefaults definitions existing
  let required := definitions.filter fun d ↦ d.status = .active && d.required
  (normalized, (required.filter fun d ↦
    isEmptyValue (effectiveValue normalized existing d.id)).map fun d ↦
      (d.id, d.name ++ " is required"))

/-- `"<id> - <title>"` -/
def entityNameOf (t : Testcase) : String := t.externalId ++ " - " ++ (t.text .title).getD ""

def organizationOf (projectId : Uuid) (db : Db) : Option Uuid :=
  (db.projects.find projectId).bind Project.organizationId

/-- Whether the project's plan lets values be written. -/
def writesFields (projectId : Uuid) (s : SaveDb) : Bool :=
  (organizationOf projectId s.db).all s.customFieldsEnabled

/-- The definitions of `loadWriteContext`. -/
def projectDefinitions (projectId : Uuid) (s : SaveDb) : List CustomFieldDefinition :=
  s.fieldDefinitions.filter fun d ↦ d.projectId = projectId && d.deletedAt.isNone

/-- The upserts of the values that are not empty. -/
def storeValues (values : List (CustomFieldDefinition × Json)) (stored : Uuid → Option Json) :
    Uuid → Option Json :=
  values.foldl (fun stored e ↦ Function.update stored e.1.id (some e.2)) stored

def valueLogs (uid projectId testcaseId : Uuid) (values : List (CustomFieldDefinition × Json))
    (entityName : Option String) (organizationId : Option Uuid) : Multiset AuditLog :=
  Multiset.ofList <| values.map fun (d, value) ↦ {
    projectId := projectId, organizationId := organizationId, actorId := uid
    action := "testcase_custom_field_updated", entityId := testcaseId, entityName := entityName
    diff := .fieldUpdated d.id d.key d.name value }

/-- The values to write, or the fields that are required and have none. -/
def writableValues (definitions : List CustomFieldDefinition) (existing : Uuid → Option Json) :
    Except SaveError (List (CustomFieldDefinition × Json)) :=
  let (normalized, errors) := normalizeValues definitions existing
  if errors ≠ [] then .error (.fieldErrors errors)
  else .ok (normalized.filterMap fun (d, value) ↦
    (value.filter fun v ↦ !v.isEmptyValue).map fun v ↦ (d, v))

def setValuesForTestCase (uid projectId testcaseId : Uuid) (testCaseIsNew : Bool) : Save Unit := do
  let enabled ← query (writesFields projectId)
  if enabled then
    let definitions ← query (projectDefinitions projectId)
    let existing ← query fun s ↦ if testCaseIsNew then fun _ ↦ none else s.fieldValues testcaseId
    let values ← ofExcept (writableValues definitions existing)
    let entityName ← query fun s ↦ (s.db.testcases.find testcaseId).map entityNameOf
    let organizationId ← query fun s ↦ organizationOf projectId s.db
    write fun s ↦ { s with
      fieldValues := Function.update s.fieldValues testcaseId
        (storeValues values (s.fieldValues testcaseId))
      auditLogs := s.auditLogs +
        valueLogs uid projectId testcaseId values entityName organizationId }
  else pure ()

/-- An entry of the activity log. -/
def logProjectActivity (projectId actorId : Uuid) (action : String) (entityId : Uuid)
    (entityName : String) (diff : AuditDiff) : Save Unit :=
  write fun s ↦ { s with
    auditLogs := s.auditLogs + {{
      projectId := projectId, organizationId := organizationOf projectId s.db, actorId := actorId
      action := action, entityId := entityId, entityName := some entityName, diff := diff }} }

/-! ## The entries of a review batch -/

structure ZyraDraft where
  suiteId : Arg IdText
  title : Arg String
  description : Arg String
  expectedSummary : Arg String
  preconditions : Arg String
  steps : List Step
  testData : Arg String
  priority : Arg String
  severity : Arg String
  component : Arg String
  type : Arg String
  status : Arg String
  tags : List String
  jiraIssueKey : Arg String
  linearIssueKey : Arg String
  notionPageId : Arg String
  sourceRefs : List RawSourceRef
  reason : Arg String

/-- An entry: a change or the archiving of a test case, or a draft. -/
inductive ZyraEntry where
  | change (archive : Bool) (testcaseId : Uuid) (fields : PatchFields) (reason : Arg String)
  | create (draft : ZyraDraft) (reason : Arg String)

/-- A test case already linked to a ticket, as the save read it. -/
structure LinkedRow where
  id : Uuid
  severity : Option String
  component : Option String
deriving DecidableEq

structure ZyraSaveEntryContext where
  projectId : Uuid
  uid : Uuid
  taskId : Uuid
  chatSessionId : Option Uuid
  batchSuiteId : Option IdText
  jiraIssueKey : Option String
  linearIssueKey : Option String
  notionPageId : Option String
  ticketUrls : Assoc String (Option String)
  existingLinkedByTicket : Assoc String (List LinkedRow)
  validSuiteIds : List Uuid

namespace ZyraSaveEntryContext

def source (ctx : ZyraSaveEntryContext) : String :=
  if ctx.chatSessionId.isSome then "zyra_chat" else "zyra_task"

end ZyraSaveEntryContext

/-- `linkedPositions` and `claimedLinkedIds`, which a save changes as it goes. -/
structure LinkState where
  linkedPositions : Assoc String ℕ
  claimedLinkedIds : List Uuid

def LinkState.start : LinkState := ⟨[], []⟩

structure DraftLink where
  jiraIssueKey : Option String
  linearIssueKey : Option String
  notionPageId : Option String
  existingLinkedRow : Option LinkedRow

/-- `String(own || task || "").trim() || null` -/
def ticketKey (own : Arg String) (task : Option String) : Option String :=
  let key := jsTrim ((own.truthy.or (task.filter fun s ↦ s ≠ "")).getD "")
  if key = "" then none else some key

def poolKeyOf (jira linear notion : Option String) : Option String :=
  (jira.map fun k ↦ "jira:" ++ k).or
    ((linear.map fun k ↦ "linear:" ++ k).or (notion.map fun k ↦ "notion:" ++ k))

/-- The next row of a ticket's pool that no draft has claimed, and its place. -/
def nextLinked (pool : List LinkedRow) (position : ℕ) (claimed : List Uuid) :
    ℕ × Option LinkedRow :=
  let rest := pool.drop position
  let skipped := (rest.takeWhile fun row ↦ row.id ∈ claimed).length
  (position + skipped, (rest.drop skipped).head?)

def zyraDraftTicketLink (ctx : ZyraSaveEntryContext) (st : LinkState) (draft : ZyraDraft) :
    DraftLink × LinkState :=
  let jira := ticketKey draft.jiraIssueKey ctx.jiraIssueKey
  let linear := ticketKey draft.linearIssueKey ctx.linearIssueKey
  let notion := ticketKey draft.notionPageId ctx.notionPageId
  match poolKeyOf jira linear notion with
  | none => (⟨jira, linear, notion, none⟩, st)
  | some poolKey =>
      let (position, row) := nextLinked ((ctx.existingLinkedByTicket.get poolKey).getD [])
        ((st.linkedPositions.get poolKey).getD 0) st.claimedLinkedIds
      (⟨jira, linear, notion, row⟩,
        ⟨st.linkedPositions.set poolKey (position + 1),
          (row.map LinkedRow.id).toList ++ st.claimedLinkedIds⟩)

/-- The URL of a ticket the task names. -/
def ticketUrl (ctx : ZyraSaveEntryContext) (provider : String) (key : Option String) :
    Option String :=
  key.bind fun k ↦ (ctx.ticketUrls.get (provider ++ ":" ++ k)).join

/-- `notion:` and eight characters of the id, without dashes and in lower case. -/
def notionPageKey [Unicode] (pageId : String) : String :=
  "notion:" ++ String.ofList
    ((Unicode.toLowerCase (String.ofList (pageId.toList.filter (· ≠ '-')))).toList.take 8)

/-- `notionKeysByPageId` of one page, or the key derived from its id. -/
def notionKey [Unicode] (projectId : Uuid) (pageId : String) (s : SaveDb) : String :=
  ((s.notionPageKeys projectId pageId).filter fun key ↦ key ≠ "").getD (notionPageKey pageId)

/-- `automation_tags` of a draft. -/
def draftTags (draft : ZyraDraft) (link : DraftLink) (notionTag : Option String) : String :=
  let tags := draft.tags ++ ["zyra"] ++ (link.jiraIssueKey.map fun k ↦ "jira:" ++ k).toList ++
    (link.linearIssueKey.map fun k ↦ "linear:" ++ k).toList ++ notionTag.toList ++
    [if link.existingLinkedRow.isSome then "zyra-regenerated" else "zyra-generated"]
  String.ofList (joined [','] (tags.eraseDups.map String.toList))

/-- A value that is there and not empty is kept. -/
def filled (current : Option String) : Bool := current.any fun s ↦ s ≠ ""

/-- The payload of a draft: a body as for a create or an update, and its citations. -/
structure ZyraPayload where
  body : TestcaseBody
  sourceRefs : Option (List RawSourceRef)

/-- `x || null` as a field of a body. -/
def orNull (x : Option String) : Arg String :=
  match x with
  | some s => .value s
  | none => .null

def payloadText (ctx : ZyraSaveEntryContext) (draft : ZyraDraft) (link : DraftLink)
    (tags : String) : TextColumn → Arg String
  | .title => draft.title
  | .description =>
      .value ((draft.description.truthy.or draft.expectedSummary.truthy).getD "")
  | .preconditions => .value (draft.preconditions.truthy.getD "")
  | .testData => .value (draft.testData.truthy.getD "")
  | .priority => .value (draft.priority.truthy.getD "Not set")
  | .severity =>
      if filled (link.existingLinkedRow.bind LinkedRow.severity) then .null
      else orNull draft.severity.truthy
  | .component =>
      if filled (link.existingLinkedRow.bind LinkedRow.component) then .null
      else orNull draft.component.truthy
  | .type => .value (draft.type.truthy.getD "Functional")
  | .status => .value (draft.status.truthy.getD "Draft")
  | .automationTags => .value tags
  | .jiraIssueKey => orNull link.jiraIssueKey
  | .jiraUrl => orNull (ticketUrl ctx "jira" link.jiraIssueKey)
  | .linearIssueKey => orNull link.linearIssueKey
  | .linearUrl => orNull (ticketUrl ctx "linear" link.linearIssueKey)
  | .notionPageId => orNull link.notionPageId
  | .notionUrl => orNull (ticketUrl ctx "notion" link.notionPageId)
  | .postconditions | .automationStatus | .automationRepo | .automationPath | .automationTestName
  | .automationFramework | .attachments | .estimatedDuration => .undefined

/-- The suite of the draft or of the batch, where it is still there. -/
def targetSuite (ctx : ZyraSaveEntryContext) (draft : ZyraDraft) : Option Uuid :=
  match draft.suiteId.truthy.or ctx.batchSuiteId with
  | some (.canonical id) => if id ∈ ctx.validSuiteIds then some id else none
  | some (.recased _) | some (.loose _) | some (.word _) | none => none

def draftPayload (ctx : ZyraSaveEntryContext) (draft : ZyraDraft) (link : DraftLink)
    (tags : String) : ZyraPayload where
  body := { TestcaseBody.blank with
    suiteId := match targetSuite ctx draft with
      | some id => .value (.canonical id)
      | none => .null
    text := payloadText ctx draft link tags
    stepsJson := .value draft.steps }
  sourceRefs :=
    if draft.sourceRefs ≠ [] then some draft.sourceRefs
    else if link.existingLinkedRow.isSome then none else some []

/-! ## Changes to test cases there are -/

section Process

variable [Unicode]

/-- The columns of `ZYRA_PATCH_FIELD_COLUMNS` that hold texts. -/
def patchColumns : List TextColumn := [
  .title, .description, .preconditions, .testData, .priority, .severity, .type, .automationStatus,
  .automationTags, .component, .status, .jiraIssueKey, .jiraUrl]

def PatchFields.sets (fields : PatchFields) (c : TextColumn) : Bool :=
  c ∈ patchColumns && (fields.text c).sent

def Testcase.patched (uid : Uuid) (now : Time) (fields : PatchFields)
    (text : TextColumn → Option String) (t : Testcase) : Testcase :=
  { t with
    text := fun c ↦ if fields.sets c then text c else t.text c
    steps := fields.steps.getD t.steps
    updatedBy := some uid
    updatedAt := now }

/-- The text columns that are `NOT NULL`. -/
def requiredColumns : List TextColumn := [.title, .priority, .status]

/-- Whether a column that must have a value is set to `NULL`. -/
def PatchFields.unsets (fields : PatchFields) : Bool :=
  requiredColumns.any fun c ↦ fields.sets c && (fields.text c).nullish.isNone

def patchTestCaseFromZyraWithClient (testcaseId actorId : Uuid) (fields : PatchFields) :
    Handler Unit :=
  if (TextColumn.all.any fields.sets || fields.steps.isSome) = false then pure ()
  else do
    let text ← ofExcept (storeTexts fun c ↦ if fields.sets c then (fields.text c).nullish else none)
    let now ← query Db.now
    exec fun db ↦
      if (db.testcases.rows.any fun t ↦ t.id = testcaseId && t.live) && fields.unsets
      then .error (.sqlState "23502" "")
      else .ok { db with
        testcases := db.testcases.updateWhere (fun t ↦ t.id = testcaseId && t.live)
          (Testcase.patched actorId now fields text) fun _ ↦ rfl }

/-- A row of the answer: as written, or the summary of a linked test case. -/
inductive Touched where
  | row (t : Testcase) (sourceRefs : List SourceRef)
  | linked (id : Uuid) (title : Arg String) (externalId : String)
      (jiraIssueKey linearIssueKey notionPageId : Option String)

inductive TouchedAction where
  | add | update | archive
deriving DecidableEq, Repr

structure SaveResult where
  created : List (Testcase × List SourceRef)
  touched : List Touched
  touchedActions : List TouchedAction

/-- A row that is `undefined` has no properties. -/
def found {α : Type} (row : Option α) : Save α := ofExcept (row.elim (.error .typeError) .ok)

def processChange (ctx : ZyraSaveEntryContext) (archive : Bool) (testcaseId : Uuid)
    (fields : PatchFields) (reason : Arg String) : Save Touched := do
  onDb (patchTestCaseFromZyraWithClient testcaseId ctx.uid fields)
  let refreshed ← query fun s ↦ s.db.testcases.find testcaseId
  let row ← found refreshed
  let sourceRefs ← query fun s ↦ s.sourceRefs testcaseId
  logProjectActivity ctx.projectId ctx.uid (if archive then "zyra_archived" else "zyra_updated")
    testcaseId (entityNameOf row) (.changed ctx.source fields reason.truthy)
  pure (.row row sourceRefs)

/-- The draft of a ticket that has a test case already. -/
def processLinked (ctx : ZyraSaveEntryContext) (draft : ZyraDraft) (link : DraftLink)
    (payload : ZyraPayload) (linkedId : Uuid) : Save Touched := do
  onDb (updateTestCaseWithClient linkedId ctx.uid payload.body none)
  let updated ← query fun s ↦ s.db.testcases.find linkedId
  let live := updated.filter Testcase.live
  whenSome payload.sourceRefs fun sourceRefs ↦ whenSome live fun _ ↦ write fun s ↦
    { s with sourceRefs :=
        Function.update s.sourceRefs linkedId (sanitizeSourceRefsInput sourceRefs) }
  setValuesForTestCase ctx.uid ctx.projectId linkedId false
  let row ← found live
  pure (.linked linkedId draft.title row.externalId link.jiraIssueKey link.linearIssueKey
    link.notionPageId)

/-- The payload of a draft, refused where a field is too long. -/
def checkedPayload (ctx : ZyraSaveEntryContext) (draft : ZyraDraft) (link : DraftLink) :
    Save ZyraPayload := do
  let notionTag ← query fun s ↦ link.notionPageId.map fun id ↦ notionKey ctx.projectId id s
  let payload := draftPayload ctx draft link (draftTags draft link notionTag)
  ofExcept ((assertTestcaseFieldLengths payload.body).mapError .refused)
  pure payload

/-- `draft.reason || entry.reason || null` -/
def creationReason (draft : ZyraDraft) (reason : Arg String) : Option String :=
  draft.reason.truthy.or reason.truthy

def logCreated (ctx : ZyraSaveEntryContext) (row : Testcase) (reason : Option String) :
    Save Unit :=
  logProjectActivity ctx.projectId ctx.uid "zyra_created" row.id (entityNameOf row)
    (.created ctx.source ctx.taskId reason)

/-! ## One entry after the other -/

/-- `insertTestCaseWithClient`, with the columns and values of this module.  The new row has no tags
to remove. -/
def insertTestCase (ctx : ZyraSaveEntryContext) (payload : ZyraPayload) :
    Save (Testcase × List SourceRef) := do
  let row ← onDb (insertTestCaseWithClient ctx.projectId ctx.uid payload.body)
  let sourceRefs := sanitizeSourceRefsInput (payload.sourceRefs.getD [])
  write fun s ↦ { s with sourceRefs := Function.update s.sourceRefs row.id sourceRefs }
  setValuesForTestCase ctx.uid ctx.projectId row.id true
  pure (row, sourceRefs)

def SaveResult.empty : SaveResult := ⟨[], [], []⟩

/-- An entry that touched a test case there was, before the others. -/
def SaveResult.touch (touched : Touched) (action : TouchedAction) (rest : SaveResult) :
    SaveResult :=
  ⟨rest.created, touched :: rest.touched, action :: rest.touchedActions⟩

/-- An entry that created a test case, before the others. -/
def SaveResult.add (row : Testcase × List SourceRef) (rest : SaveResult) : SaveResult :=
  ⟨row :: rest.created, .row row.1 row.2 :: rest.touched, .add :: rest.touchedActions⟩

def sequentialFrom (ctx : ZyraSaveEntryContext) : LinkState → List ZyraEntry → Save SaveResult
  | _, [] => pure .empty
  | st, .change archive testcaseId fields reason :: rest => do
      let touched ← processChange ctx archive testcaseId fields reason
      let result ← sequentialFrom ctx st rest
      pure (result.touch touched (if archive then .archive else .update))
  | st, .create draft reason :: rest => do
      let link := (zyraDraftTicketLink ctx st draft).1
      let payload ← checkedPayload ctx draft link
      match link.existingLinkedRow with
      | some linked =>
          let touched ← processLinked ctx draft link payload linked.id
          let result ← sequentialFrom ctx (zyraDraftTicketLink ctx st draft).2 rest
          pure (result.touch touched .update)
      | none =>
          let row ← insertTestCase ctx payload
          logCreated ctx row.1 (creationReason draft reason)
          let result ← sequentialFrom ctx (zyraDraftTicketLink ctx st draft).2 rest
          pure (result.add row)

def processZyraSaveEntriesSequential (ctx : ZyraSaveEntryContext) (selected : List ZyraEntry) :
    Save SaveResult :=
  sequentialFrom ctx .start selected

/-! ## All new test cases in one statement -/

/-- A slot of the answer: filled, or waiting for the insert. -/
inductive Slot where
  | filled (touched : Touched) (action : TouchedAction)
  | toInsert (payload : ZyraPayload) (reason : Option String)

def batchedFrom (ctx : ZyraSaveEntryContext) : LinkState → List ZyraEntry → Save (List Slot)
  | _, [] => pure []
  | st, .change archive testcaseId fields reason :: rest => do
      let touched ← processChange ctx archive testcaseId fields reason
      let slots ← batchedFrom ctx st rest
      pure (.filled touched (if archive then .archive else .update) :: slots)
  | st, .create draft reason :: rest => do
      let link := (zyraDraftTicketLink ctx st draft).1
      let payload ← checkedPayload ctx draft link
      match link.existingLinkedRow with
      | some linked =>
          let touched ← processLinked ctx draft link payload linked.id
          let slots ← batchedFrom ctx (zyraDraftTicketLink ctx st draft).2 rest
          pure (.filled touched .update :: slots)
      | none =>
          let slots ← batchedFrom ctx (zyraDraftTicketLink ctx st draft).2 rest
          pure (.toInsert payload (creationReason draft reason) :: slots)

/-- The text columns of a row of the batch. -/
def zyraRowText (body : TestcaseBody) : TextColumn → Option String
  | .title => some ((body.text .title).truthy.getD "Untitled test case")
  | .description => some ((body.text .description).truthy.getD "")
  | .preconditions => some ((body.text .preconditions).truthy.getD "")
  | .postconditions => some ""
  | .testData => some ((body.text .testData).truthy.getD "")
  | .priority => some ((body.text .priority).truthy.getD "Not set")
  | .severity => (body.text .severity).truthy
  | .type => some ((body.text .type).truthy.getD "Functional")
  | .automationStatus => some "Not Automated"
  | .automationTags => (body.text .automationTags).truthy
  | .component => (body.text .component).truthy
  | .status => some ((body.text .status).truthy.getD "Draft")
  | .jiraIssueKey => (body.text .jiraIssueKey).truthy
  | .jiraUrl => (body.text .jiraUrl).truthy
  | .linearIssueKey => (body.text .linearIssueKey).truthy
  | .linearUrl => (body.text .linearUrl).truthy
  | .notionPageId => (body.text .notionPageId).truthy
  | .notionUrl => (body.text .notionUrl).truthy
  | .automationRepo | .automationPath | .automationTestName | .automationFramework | .attachments
  | .estimatedDuration => none

/-- The row at `index` of the batch. -/
def zyraRow (db : Db) (projectId uid : Uuid) (key : String) (startSeq : ℕ) (index : ℕ)
    (body : TestcaseBody) : Except Failure Testcase := do
  let suiteId ← readUuid? body.suiteId.truthy
  let text ← storeTexts (zyraRowText body)
  let externalId ← varchar 32 (externalIdOf key (startSeq + index + 1))
  pure {
    id := db.uuids index, projectId, suiteId, externalId, text
    steps := body.stepsJson.truthy.getD [], ownerId := none, createdBy := some uid
    updatedBy := some uid, updatedAt := db.now, deletedAt := none, deletedBy := none }

/-- The order in which a statement returns its rows. -/
abbrev ReturningOrder := { f : List Testcase → List Testcase // ∀ rows, (f rows).Perm rows }

/-- The rows inserted, in the order of the payloads: each is found by the id it was given. -/
def zyraBatchInsertTestCases (order : ReturningOrder) (ctx : ZyraSaveEntryContext)
    (payloads : List ZyraPayload) : Save (List (Testcase × List SourceRef)) := do
  let rows ← onDb do
    let key ← externalIdPrefix ctx.projectId none
    let startSeq ← maxExternalIdSeq ctx.projectId key
    let rows ← check fun db ↦
      (payloads.mapIdx fun index payload ↦ (index, payload)).mapM fun (index, payload) ↦
        zyraRow db ctx.projectId ctx.uid key startSeq index payload.body
    takeUuids rows.length
    insertTestcases rows
    pure rows
  let refs := payloads.map fun payload ↦ sanitizeSourceRefsInput (payload.sourceRefs.getD [])
  write fun s ↦ { s with
    sourceRefs := (rows.zip refs).foldl (fun stored e ↦ Function.update stored e.1.id e.2)
      s.sourceRefs }
  let inserted ← ofExcept <| rows.mapM fun row ↦
    (order.1 rows).find? (fun r ↦ r.externalId = row.externalId) |>.elim (.error .typeError) .ok
  pure (inserted.zip refs)

/-- The slots in order, the waiting ones with the rows inserted for them. -/
def fillSlots (ctx : ZyraSaveEntryContext) :
    List Slot → List (Testcase × List SourceRef) → Save SaveResult
  | [], _ => pure .empty
  | .filled touched action :: slots, rows => do
      let result ← fillSlots ctx slots rows
      pure (result.touch touched action)
  | .toInsert _ reason :: slots, row :: rows => do
      setValuesForTestCase ctx.uid ctx.projectId row.1.id true
      logCreated ctx row.1 reason
      let result ← fillSlots ctx slots rows
      pure (result.add row)
  | .toInsert _ _ :: _, [] => fail .typeError

def Slot.payload? : Slot → Option ZyraPayload
  | .filled _ _ => none
  | .toInsert payload _ => some payload

def processZyraSaveEntriesBatched (order : ReturningOrder) (ctx : ZyraSaveEntryContext)
    (selected : List ZyraEntry) : Save SaveResult := do
  let slots ← batchedFrom ctx .start selected
  let payloads := slots.filterMap Slot.payload?
  let rows ← if payloads = [] then pure [] else zyraBatchInsertTestCases order ctx payloads
  fillSlots ctx slots rows

end Process

end Tesbo
