import Tesbo.FreshLists
import Tesbo.Bugs

/-!
# The MCP tools that update

An update of a test case writes its suite and its owner as they are sent, and one of a suite its
parent; all else is kept where nothing is sent.  A tool that is not told them reads them and sends
them back: those of a test case from its row, the parent of a suite from the list of suites, which
may come from the cache.
-/

namespace Tesbo.Mcp

open Reasoning Proc
open ListCaches (Shared Serialized commit onDb updateWithDetails updateSuiteRow)

/-- The caller: the project of the token, the agent the writes are attributed to, and the owner of
the token. -/
structure Context where
  projectId : Uuid
  actorId : Uuid
  userId : Uuid

/-! ## What is asked for -/

/-- What the arguments say of a test case.  `sourceRefs` is there when it is an array; `related` is
what becomes of the custom field values and tags, which are rows of their own. -/
structure TestcaseArgs where
  body : TestcaseBody
  sourceRefs : Option (List String)
  related : Details → Details

/-- An update of a test case, with the suite and the owner that were read. -/
structure TestcaseUpdate where
  args : TestcaseArgs
  suiteId : Option Uuid
  ownerId : Option Uuid
  before : Testcase
  uid : Uuid

/-- An update of a suite, with the parent that was listed. -/
structure SuiteUpdate where
  args : SuiteBody
  parentId : Option Uuid
  suiteId : IdText

/-- An id that was read, as it is sent back. -/
def resent : Option Uuid → Arg IdText
  | none => .null
  | some id => .value (.canonical id)

/-- What was left out is what was read. -/
def orRead (arg : Arg IdText) (read : Option Uuid) : Arg IdText :=
  if arg = .undefined then resent read else arg

def bodyWith (body : TestcaseBody) (suiteId ownerId : Option Uuid) : TestcaseBody :=
  { body with
    suiteId := orRead body.suiteId suiteId
    ownerId := orRead body.ownerId ownerId }

def TestcaseUpdate.body (u : TestcaseUpdate) : TestcaseBody :=
  bodyWith u.args.body u.suiteId u.ownerId

def TestcaseUpdate.details (u : TestcaseUpdate) (d : Details) : Details :=
  { u.args.related d with sourceRefs := u.args.sourceRefs.getD d.sourceRefs }

def SuiteUpdate.body (u : SuiteUpdate) : SuiteBody :=
  { u.args with parentId := orRead u.args.parentId u.parentId }

/-- The statement of `updateSuite`, with the texts it has normalized. -/
def SuiteUpdate.row (u : SuiteUpdate) : Handler Unit := do
  let description ← Service.ofExcept (normalizeSuiteText u.args.description "Suite description")
  let preconditions ←
    Service.ofExcept (normalizeSuiteText u.args.preconditions "Suite preconditions")
  updateSuiteRow u.suiteId u.body description preconditions

/-! ## Statements -/

/-- A step of the app, or the update of a tool. -/
inductive Write where
  | app (w : ListCaches.Write)
  | updateTestcase (call : ℕ) (update : TestcaseUpdate)
  | updateSuite (call : ℕ) (update : SuiteUpdate)

@[reducible] def Reply : Write → Type
  | .app w => ListCaches.Reply w
  | .updateTestcase _ _ | .updateSuite _ _ => Except Failure Unit

section Machine

variable [Unicode] [QueryTexts]

def perform : (w : Write) → Service Failure Shared (Reply w)
  | .app w => ListCaches.perform w
  | .updateTestcase call u => commit call (updateWithDetails u.before u.uid u.body u.details)
  | .updateSuite call u => commit call (onDb u.row)

end Machine

abbrev Procedure (α : Type) := Proc Shared Reply Failure α

abbrev ask (w : Write) : Procedure (Reply w) := issue w

/-- A procedure of the app. -/
def app {α : Type} (p : ListCaches.Procedure α) : Procedure α := p.lift Write.app fun _ r ↦ r

/-! ## The tools

An error of a tool is one of its own kind; that of a project other than the token's is told apart. -/

def toolError (message : String) : Failure := .badRequest message

def projectScopeDenied (message : String) : Failure := .forbidden message

/-- Whether an argument has a text in it. -/
def given : IdText → Bool
  | .word text => jsTrim text ≠ ""
  | _ => true

def requireString (value : IdText) (key : String) : Procedure Unit :=
  require (given value = true)
    (toolError ("\"" ++ key ++ "\" is required and must be a non-empty string"))

def requireProjectOwnedRow {α : Type} (ctx : Context) (find : Uuid → Db → Option α)
    (project : α → Uuid) (id : IdText) (label : String) : Procedure Unit := do
  let id ← ofExcept (readUuid id)
  let row ← check fun s ↦ (find id s.data.db).elim (.error (toolError (label ++ " not found"))) .ok
  require (project row = ctx.projectId)
    (projectScopeDenied (label ++ " belongs to a different project than this token"))

def requireOwnTestcase (ctx : Context) (testcaseId : IdText) : Procedure Unit :=
  requireProjectOwnedRow ctx findLiveTestcase Testcase.projectId testcaseId "Test case"

def getTestCase (testcaseId : IdText) : Procedure Testcase := app (ListCaches.readTestcase testcaseId)

/-- What the row has now, for what the arguments leave out. -/
def preserveOmittedSuiteAndOwner (testcaseId : IdText) (body : TestcaseBody) :
    Procedure (Option Uuid × Option Uuid) := do
  if body.suiteId ≠ .undefined ∧ body.ownerId ≠ .undefined then pure (none, none)
  else do
    let current ← getTestCase testcaseId
    pure (current.suiteId, current.ownerId)

/-- What the tools of a test case do after their checks. -/
def updateTestCase (call : ℕ) (ctx : Context) (testcaseId : IdText) (args : TestcaseArgs) :
    Procedure Unit := do
  let (suiteId, ownerId) ← preserveOmittedSuiteAndOwner testcaseId args.body
  ofExcept (assertTestcaseFieldLengths (bodyWith args.body suiteId ownerId))
  let before ← getTestCase testcaseId
  let updated ← ask (.updateTestcase call ⟨args, suiteId, ownerId, before, ctx.actorId⟩)
  ofExcept updated
  app (ListCaches.invalidate before.projectId)
  let _ ← getTestCase testcaseId
  pure ()

/-- One of the severities, in any letter case; what is blank stays as it is. -/
def canonicalizeSeverity [Unicode] (body : TestcaseBody) : Except Failure TestcaseBody :=
  match body.text .severity with
  | .undefined | .null => .ok body
  | .value raw =>
      if jsTrim raw = "" then .ok body
      else
        match bugSeverities.find? fun severity ↦
            Unicode.toLowerCase severity = Unicode.toLowerCase (jsTrim raw) with
        | some severity =>
            .ok { body with text := Function.update body.text .severity (.value severity) }
        | none => .error (toolError ("\"severity\" must be one of " ++ commaList bugSeverities ++
            " — got \"" ++ raw ++ "\""))

def updateTestcaseTool [Unicode] (call : ℕ) (ctx : Context) (testcaseId : IdText)
    (args : TestcaseArgs) : Procedure Unit := do
  requireString testcaseId "testcaseId"
  requireOwnTestcase ctx testcaseId
  let body ← ofExcept (canonicalizeSeverity args.body)
  updateTestCase call ctx testcaseId { args with body := body }

/-- What becomes of the rows that go with a test case. -/
structure Related where
  outcome : Except Failure Unit
  details : Details → Details

/-- Arguments that say something of text columns only. -/
def ofTexts (text : TextColumn → Arg String) (related : Related) : TestcaseArgs :=
  ⟨{ TestcaseBody.blank with text := text, related := related.outcome }, none, related.details⟩

def setStatus (status : String) (call : ℕ) (ctx : Context) (testcaseId : IdText)
    (related : Related) : Procedure Unit := do
  requireString testcaseId "testcaseId"
  requireOwnTestcase ctx testcaseId
  updateTestCase call ctx testcaseId
    (ofTexts (fun c ↦ if c = .status then .value status else .undefined) related)

def archiveTestcase : ℕ → Context → IdText → Related → Procedure Unit := setStatus "Archived"

def restoreTestcase : ℕ → Context → IdText → Related → Procedure Unit := setStatus "Draft"

structure RequirementArgs where
  jiraIssueKey : Arg JsonText
  jiraUrl : Arg JsonText
  linearIssueKey : Arg JsonText
  linearUrl : Arg JsonText
  notionPageId : Arg JsonText
  notionUrl : Arg JsonText

/-- `typeof value === "string"` -/
def textOf : Arg JsonText → Option String
  | .value (.text text) => some text
  | _ => none

def keyOf (value : Arg JsonText) : String := jsTrim ((textOf value).getD "")

/-- A key, and its address where there is one. -/
def linkTexts (key url : TextColumn) (id : String) (address : Arg JsonText) :
    TextColumn → Arg String := fun c ↦
  if c = key then .value id
  else if c = url then (textOf address).elim .undefined .value
  else .undefined

def linkRequirementToTestcase (call : ℕ) (ctx : Context) (testcaseId : IdText)
    (args : RequirementArgs) (related : Related) : Procedure Unit := do
  requireString testcaseId "testcaseId"
  let jira := keyOf args.jiraIssueKey
  let linear := keyOf args.linearIssueKey
  let notion := keyOf args.notionPageId
  let count := ([jira, linear, notion].filter fun key ↦ key ≠ "").length
  require (count ≠ 0)
    (toolError "\"jiraIssueKey\", \"linearIssueKey\" or \"notionPageId\" is required")
  require (count ≤ 1) (toolError ("Provide only one of \"jiraIssueKey\", \"linearIssueKey\" or " ++
    "\"notionPageId\" per call"))
  requireOwnTestcase ctx testcaseId
  updateTestCase call ctx testcaseId (ofTexts
    (if jira ≠ "" then linkTexts .jiraIssueKey .jiraUrl jira args.jiraUrl
    else if notion ≠ "" then linkTexts .notionPageId .notionUrl notion args.notionUrl
    else linkTexts .linearIssueKey .linearUrl linear args.linearUrl) related)

/-- The columns of a link. -/
def linkColumns : String → Option (TextColumn × TextColumn)
  | "jira" => some (.jiraIssueKey, .jiraUrl)
  | "linear" => some (.linearIssueKey, .linearUrl)
  | "notion" => some (.notionPageId, .notionUrl)
  | _ => none

def unlinkRequirementFromTestcase (call : ℕ) (ctx : Context) (testcaseId : IdText)
    (provider : String) (related : Related) : Procedure Unit := do
  requireString testcaseId "testcaseId"
  requireString (.word provider) "provider"
  let columns ← ofExcept ((linkColumns provider).elim
    (.error (toolError "\"provider\" must be \"jira\" or \"linear\" (or \"notion\")")) .ok)
  requireOwnTestcase ctx testcaseId
  updateTestCase call ctx testcaseId
    (ofTexts (fun c ↦ if c = columns.1 ∨ c = columns.2 then .null else .undefined) related)

section Suites

variable [Unicode] [QueryTexts] [Serialized]

def listedSuite (ctx : Context) (suiteId : IdText) : Procedure (Option SuiteRow) := do
  let suites ← app (ListCaches.readSuites ctx.projectId)
  pure (suites.find? fun row ↦ suiteId = .canonical row.id)

def updateSuite (call : ℕ) (ctx : Context) (suiteId : IdText) (args : SuiteBody) :
    Procedure Unit := do
  requireString suiteId "suiteId"
  requireProjectOwnedRow ctx findLiveSuite Suite.projectId suiteId "Suite"
  let listed ← listedSuite ctx suiteId
  let existing ← ofExcept (listed.elim (.error (toolError "Suite not found")) .ok)
  let projectId ← app (ListCaches.requireSuiteAccess (some ctx.userId) suiteId)
  ofExcept (validateBoundedField args.name.nullish "Suite name" suiteNameMaxLength)
  let _ ← ofExcept (normalizeSuiteText args.description "Suite description")
  let _ ← ofExcept (normalizeSuiteText args.preconditions "Suite preconditions")
  app (ListCaches.checkParent projectId (orRead args.parentId existing.parentId).truthy)
  let updated ← ask (.updateSuite call ⟨args, existing.parentId, suiteId⟩)
  ofExcept updated
  app (ListCaches.invalidate projectId)
  let _ ← listedSuite ctx suiteId
  pure ()

end Suites

/-! ## Calls -/

inductive Tool where
  | updateTestcase (testcaseId : IdText) (args : TestcaseArgs)
  | archiveTestcase (testcaseId : IdText) (related : Related)
  | restoreTestcase (testcaseId : IdText) (related : Related)
  | linkRequirementToTestcase (testcaseId : IdText) (args : RequirementArgs) (related : Related)
  | unlinkRequirementFromTestcase (testcaseId : IdText) (provider : String) (related : Related)
  | updateSuite (suiteId : IdText) (args : SuiteBody)

inductive Call where
  | app (call : ListCaches.Call)
  | tool (ctx : Context) (tool : Tool)

section Machine

variable [Unicode] [QueryTexts] [Serialized]

def runTool (call : ℕ) (ctx : Context) : Tool → Procedure Unit
  | .updateTestcase testcaseId args => updateTestcaseTool call ctx testcaseId args
  | .archiveTestcase testcaseId related => archiveTestcase call ctx testcaseId related
  | .restoreTestcase testcaseId related => restoreTestcase call ctx testcaseId related
  | .linkRequirementToTestcase testcaseId args related =>
      linkRequirementToTestcase call ctx testcaseId args related
  | .unlinkRequirementFromTestcase testcaseId provider related =>
      unlinkRequirementFromTestcase call ctx testcaseId provider related
  | .updateSuite suiteId args => updateSuite call ctx suiteId args

def enter : Call → Procedure Unit
  | .app call => app (ListCaches.enter call)
  | .tool ctx tool => do
      let call ← ask (.app .begin)
      runTool call ctx tool
      ask (.app (.returned call))

abbrev Run := Config Shared (Procedure Unit)

def step (c : Run) (m : Move Call) : Run := c.move enter (fun _ ↦ Proc.exec perform) m

end Machine

end Tesbo.Mcp
