import Tesbo.KnowledgeHandlers
import Tesbo.ExternalIds

/-!
# Uploads and new projects

The handlers that add to what a plan counts: each counts first, and inserts in later statements.
-/

namespace Tesbo.Knowledge

open Reasoning Proc

/-! ## Names and sizes of files -/

def oneMegabyte : ℕ := kilobyte * kilobyte

/-- `toFixed(1)` of megabytes, or whole kilobytes but at least one. -/
def formatFileSize (bytes : ℕ) : String :=
  if oneMegabyte ≤ bytes then
    let tenths := (20 * bytes + oneMegabyte) / (2 * oneMegabyte)
    s!"{tenths / 10}.{tenths % 10}MB"
  else s!"{max 1 ((2 * bytes + kilobyte) / (2 * kilobyte))}KB"

def displayFileNameMax : ℕ := 255

def displayFileName (originalName : String) : String :=
  let slashes := String.ofList (originalName.toList.map fun c ↦ if c = '\\' then '/' else c)
  let shown := (lastSegment slashes).filter fun c ↦ ¬ (c.toNat < 0x20 ∨ c.toNat = 0x7F)
  let base := String.ofList (trimChars shown)
  if base = "" ∨ base = "." ∨ base = ".." then "upload"
  else if jsLength base ≤ displayFileNameMax then base
  else
    -- the extension stays on the stem that is cut
    let ext := dottedExtension base
    if ext ≠ "" ∧ jsLength ext < displayFileNameMax
    then jsSlice (displayFileNameMax - jsLength ext) base ++ ext
    else jsSlice displayFileNameMax base

def supportedTypes : String := ", ".intercalate (kbAllowedExtensions.mergeSort (· ≤ ·))

/-- The batch is refused for its first file that is not fit. -/
def assertValidEvidenceFiles (maxSize : ℕ) (files : List Upload) : Except Failure Unit :=
  files.forM fun file ↦
    let name := displayFileName file.originalName
    let ext := extension file.originalName
    if ext = "" then
      .error (.badRequest s!"{name} has no file extension, so its type can't be determined. Supported types: {supportedTypes}.")
    else if ext ∉ kbAllowedExtensions then
      .error (.badRequest s!"{name}: .{ext} files aren't supported. Supported types: {supportedTypes}.")
    else if file.size = 0 then .error (.badRequest s!"{name} is empty (0 bytes).")
    else if maxSize < file.size then
      .error (.badRequest (s!"{name} is {formatFileSize file.size}, which is over the " ++
        s!"{formatFileSize maxSize} limit for evidence files."))
    else .ok ()

def totalSize (files : List Upload) : ℕ := (files.map Upload.size).sum

/-- The most a file may take up, where the configuration says nothing. -/
def evidenceMaxFileSize : ℕ := 25 * oneMegabyte

def bugFileMaxSize : ℕ := 20 * oneMegabyte

def bugMaxAttachments : ℕ := 10

/-! ## Evidence -/

def attachmentOf (projectId entityId : Uuid) (file : Upload) (storagePath : StorageKey) :
    NewAttachment :=
  { projectId := projectId, entityId := entityId, fileName := displayFileName file.originalName,
    fileSize := file.size, storagePath := storagePath }

/-- The files of a checked batch, one after the other; `seen` as in `storeKnowledgeFiles`. -/
def storeAttachments (projectId entityId : Uuid) (directory : Directory) :
    ℕ → List Upload → Procedure Unit
  | _, [] => pure ()
  | seen, file :: files => do
      let key ← ask (.putObject directory (extension file.originalName))
      let inserted ← ask (.insertAttachment seen (attachmentOf projectId entityId file key))
      let _ ← ofExcept inserted
      storeAttachments projectId entityId directory (seen + file.size) files

def bugInProject (projectId : Uuid) (bugId : IdText) : Procedure Uuid := do
  require bugId.isUuid (.notFound "Bug not found")
  let id ← ofExcept (readUuid bugId)
  check fun s ↦
    if (s.db.bugs.find id).any fun b ↦ b.projectId = projectId ∧ b.deletedAt.isNone
    then .ok id else .error (.notFound "Bug not found")

/-- The live attachments of the bug itself. -/
def countBugAttachments (bugId : Uuid) (s : Shared) : ℕ :=
  (s.attachments.select fun a ↦ a.entityId = bugId ∧ a.deletedAt.isNone ∧
    a.storagePath.directory = .bug a.projectId bugId).length

def uploadBugAttachments (userId : Option Uuid) (projectId bugId : IdText) (files : List Upload) :
    Procedure Unit := do
  let (_, project) ← member userId projectId
  require (files ≠ []) (.badRequest "No files were uploaded")
  let bugId ← bugInProject project.id bugId
  let existing ← query (countBugAttachments bugId)
  require (existing + files.length ≤ bugMaxAttachments)
    (.badRequest s!"A bug can have at most {bugMaxAttachments} attachments.")
  ofExcept (assertValidEvidenceFiles bugFileMaxSize files)
  let seen ← check (assertProjectStorage project.organizationId (totalSize files))
  storeAttachments project.id bugId (.bug project.id bugId) seen files

/-- The project of a live result, in the run that is named. -/
def projectOfExecution (cycleId id : Uuid) (s : Shared) : Option Project := do
  let e ← (s.db.executions.find id).filter fun e : Execution ↦ e.deletedAt.isNone
  let item ← (s.db.cycleItems.find e.cycleItemId).filter fun i : CycleItem ↦ i.cycleId = cycleId
  let cycle ← s.db.cycles.find item.cycleId
  s.db.projects.find cycle.projectId

theorem mem_of_projectOfExecution {cycleId id : Uuid} {s : Shared} {project : Project}
    (h : projectOfExecution cycleId id s = some project) : project ∈ s.db.projects := by
  unfold projectOfExecution at h
  obtain ⟨e, -, h⟩ := Option.bind_eq_some_iff.mp h
  obtain ⟨item, -, h⟩ := Option.bind_eq_some_iff.mp h
  obtain ⟨cycle, -, h⟩ := Option.bind_eq_some_iff.mp h
  exact (Table.find_eq_some.mp h).1

def executionOwner (cycleId executionId : IdText) : Procedure (Uuid × Project) := do
  require (cycleId.isUuid ∧ executionId.isUuid) (.notFound "Execution not found")
  let cycleId ← ofExcept (readUuid cycleId)
  let id ← ofExcept (readUuid executionId)
  let project ← check fun s ↦
    (projectOfExecution cycleId id s).elim (.error (.notFound "Execution not found")) .ok
  pure (id, project)

def uploadExecutionAttachments (userId : Option Uuid) (cycleId executionId : IdText)
    (files : List Upload) : Procedure Unit := do
  let uid ← Steps.requireUser userId
  require (files ≠ []) (.badRequest "No files were uploaded")
  let (executionId, project) ← executionOwner cycleId executionId
  let _ ← member (some uid) (.canonical project.id)
  ofExcept (assertValidEvidenceFiles evidenceMaxFileSize files)
  let seen ← check (assertProjectStorage project.organizationId (totalSize files))
  storeAttachments project.id executionId (.execution project.id executionId) seen files

section Automation

variable [Unicode]

/-- The result of the case in the run. -/
def executionOfCase (projectId runId : Uuid) (caseId : String) (s : Shared) : Option Uuid :=
  (s.db.executions.rows.find? fun e ↦ e.deletedAt.isNone ∧
    (s.db.cycleItems.find e.cycleItemId).any fun i ↦ i.cycleId = runId ∧
      (s.db.testcases.find i.testcaseId).any fun t ↦ t.projectId = projectId ∧
        t.deletedAt.isNone ∧ Unicode.lower t.externalId = Unicode.toLowerCase caseId).map
    Execution.id

/-- Evidence of an automated run is skipped when there is no room for it.  `caseId` is what the
checks of the kind and the case id leave, `valid` what those of the files answer. -/
def uploadEvidence (userId : Option Uuid) (projectId runId : IdText) (caseId : Except Failure String)
    (valid : Except Failure Unit) (files : List Upload) : Procedure Unit := do
  let (_, project) ← member userId projectId
  require runId.isUuid (.notFound "Run not found")
  let runId ← ofExcept (readUuid runId)
  let _ ← check fun s ↦
    if (s.db.cycles.find runId).any fun c ↦ c.live && c.projectId = project.id then .ok ()
    else .error (.notFound "Run not found")
  require (files ≠ []) (.badRequest "No files were uploaded")
  let caseId ← ofExcept caseId
  let executionId ← check fun s ↦ (executionOfCase project.id runId caseId s).elim
    (.error (.notFound s!"Case \"{caseId}\" has no result in this run. Post the result before its evidence."))
    .ok
  ofExcept valid
  let room ← query fun s ↦ assertProjectStorage project.organizationId (totalSize files) s
  match room with
  | .error _ => pure ()
  | .ok seen =>
      storeAttachments project.id executionId (.execution project.id executionId) seen files

end Automation

/-! ## Comments on bugs -/

def bugCommentMaxAttachments : ℕ := 10

/-- Checked before anything is stored: the bytes in use. -/
def assertBugCommentFiles (project : Project) (files : List Upload) (existing : ℕ) :
    Procedure ℕ := do
  require (existing + files.length ≤ bugCommentMaxAttachments)
    (.badRequest s!"A comment can have at most {bugCommentMaxAttachments} attachments.")
  if files = [] then pure 0
  else do
    ofExcept (assertValidEvidenceFiles bugFileMaxSize files)
    check (assertProjectStorage project.organizationId (totalSize files))

/-- What was stored goes again. -/
def unstore : List (StorageKey × Option Uuid) → Procedure Unit
  | [] => pure ()
  | (key, id) :: stored => do
      ask (.removeObject key)
      match id with
      | some id => ask (.dropAttachment id)
      | none => pure ()
      unstore stored

/-- A file that cannot be stored takes the ones before it with it. -/
def storeBugCommentFiles (projectId bugId commentId : Uuid) :
    ℕ → List (StorageKey × Option Uuid) → List Upload → Procedure Unit
  | _, _, [] => pure ()
  | seen, stored, file :: files => do
      let key ← ask (.putObject (.bugComment projectId bugId commentId) (extension file.originalName))
      let inserted ← ask (.insertAttachment seen (attachmentOf projectId commentId file key))
      match inserted with
      | .ok id =>
          storeBugCommentFiles projectId bugId commentId (seen + file.size)
            (stored ++ [(key, some id)]) files
      | .error e => do
          unstore (stored ++ [(key, none)])
          Proc.fail e

/-- The files of a new comment.  The comment is a row no plan counts: `saved` is what inserting it
answers, after the checks of its text and parent. -/
def createBugComment (userId : Option Uuid) (projectId bugId : IdText)
    (checked : Except Failure Unit) (saved : Except Failure Uuid) (files : List Upload) :
    Procedure Unit := do
  let (_, project) ← member userId projectId
  let bugId ← bugInProject project.id bugId
  ofExcept checked
  let seen ← assertBugCommentFiles project files 0
  let commentId ← ofExcept saved
  storeBugCommentFiles project.id bugId commentId seen [] files

def removeBugCommentFiles : List Attachment → Procedure Unit
  | [] => pure ()
  | file :: files => do
      ask (.removeObject file.storagePath)
      ask (.markAttachmentDeleted file.id)
      removeBugCommentFiles files

/-- The live attachments of the comment. -/
def bugCommentAttachments (bugId commentId : Uuid) (s : Shared) : List Attachment :=
  s.attachments.select fun a ↦ a.entityId = commentId ∧ a.deletedAt.isNone ∧
    a.storagePath.directory = .bugComment a.projectId bugId commentId

/-- New files of a comment come before those that go.  `comment` is what the checks of the caller,
of the edit window and of the text answer, `removeIds` the attachments that are to go. -/
def updateBugComment (userId : Option Uuid) (projectId bugId : IdText)
    (comment : Except Failure Uuid) (removeIds : List IdText) (files : List Upload) :
    Procedure Unit := do
  let (_, project) ← member userId projectId
  let bugId ← bugInProject project.id bugId
  let commentId ← ofExcept comment
  let current ← query (bugCommentAttachments bugId commentId)
  let removing := current.filter fun a ↦ IdText.canonical a.id ∈ removeIds
  require (removing.length = removeIds.dedup.length) (.notFound "Attachment not found")
  let seen ← assertBugCommentFiles project files (current.length - removing.length)
  storeBugCommentFiles project.id bugId commentId seen [] files
  removeBugCommentFiles removing

/-! ## Projects -/

def projectLimit : Plan → Option ℕ
  | .launch => some 2
  | .pro => none

/-- The projects of the workspace that are not archived. -/
def projectCount (organizationId : Uuid) (s : Shared) : ℕ :=
  (s.db.projects.select fun p ↦
    p.organizationId = some organizationId ∧ p.archivedAt.isNone).length

/-- The projects that were counted. -/
def assertCanCreateProject (organizationId : Uuid) (s : Shared) : Except Failure ℕ :=
  let count := projectCount organizationId s
  if s.enforced then
    match projectLimit (s.effectivePlan organizationId) with
    | none => .ok count
    | some limit =>
        if limit ≤ count then
          .error (.forbidden s!"The Launch plan is limited to {limit} projects. Upgrade to Pro for unlimited projects.")
        else .ok count
  else .ok count

/-- `icon` is what `validateProjectIcon` answers, `tails` the random ends of keys. -/
structure ProjectBody where
  name : Arg String
  description : Arg String
  key : Arg String
  icon : Except Failure Unit
  tails : ℕ → String

def projectNameMinLength : ℕ := 3

def projectNameMaxLength : ℕ := 30

def projectDescriptionMaxLength : ℕ := 500

def projectKeyMaxLength : ℕ := 30

def validateProjectFields (name : String) (description : Option String) : Except Failure Unit :=
  if jsTrim name = "" then .error (.badRequest "Project name is required")
  else if jsLength (jsTrim name) < projectNameMinLength then
    .error (.badRequest s!"Project name must be at least {projectNameMinLength} characters")
  else if projectNameMaxLength < jsLength (jsTrim name) then
    .error (.badRequest s!"Project name must be at most {projectNameMaxLength} characters")
  else if description.any fun text ↦ projectDescriptionMaxLength < jsLength (jsTrim text) then
    .error (.badRequest s!"Description must be at most {projectDescriptionMaxLength} characters")
  else .ok ()

/-- The name, its suffix when it is taken, a random end when a thousand are. -/
def nextFreeProjectKey (base tail : String) (taken : List String) : String :=
  if base ∉ taken then base
  else
    let candidates := (List.range 998).map fun i ↦
      let suffix := toString (i + 2)
      String.ofList (base.toList.take (projectKeyMaxLength - suffix.length)) ++ suffix
    (candidates.find? (· ∉ taken)).getD
      (String.ofList (base.toList.take (projectKeyMaxLength - 6)) ++ tail)

def projectKeys (organizationId : Uuid) (s : Shared) : List String :=
  (s.db.projects.select fun p ↦ p.organizationId = some organizationId).map Project.key

def isKeyCollision : Failure → Bool
  | .sqlState code constraint => code = "23505" ∧ "key".toList <:+: constraint.toList
  | _ => false

/-- Up to `attempts` more tries, with the key that is free by then. -/
def insertProjectWithUniqueKey (organizationId uid : Uuid) (base : String) (tails : ℕ → String)
    (seen : ℕ) : ℕ → Procedure Uuid
  | 0 => Proc.fail (.sqlState "23505" "")
  | attempts + 1 => do
      let key ← query fun s ↦ nextFreeProjectKey base (tails attempts) (projectKeys organizationId s)
      let inserted ← ask (.insertProject seen ⟨organizationId, key, uid⟩)
      match inserted with
      | .ok id => pure id
      | .error e =>
          if isKeyCollision e = true ∧ attempts ≠ 0
          then insertProjectWithUniqueKey organizationId uid base tails seen attempts
          else Proc.fail e

section Keys

variable [Unicode]

def sanitizeKey (value : String) : String :=
  String.ofList ((Unicode.toUpperCase (jsTrim value)).toList.filter upperOrDigit)

def projectKey (value : String) : String :=
  let key := String.ofList ((sanitizeKey value).toList.take 16)
  if key = "" then "TESBO" else key

def validateProjectKey (rawKey : Option String) : Except Failure Unit :=
  match rawKey with
  | none => .ok ()
  | some raw =>
      if jsTrim raw = "" then .ok ()
      else if sanitizeKey (jsTrim raw) = "" then
        .error (.badRequest "Project key must contain at least one letter or number")
      else if projectKeyMaxLength < jsLength (sanitizeKey (jsTrim raw)) then
        .error (.badRequest s!"Project key must be at most {projectKeyMaxLength} characters")
      else .ok ()

def createProject (userId : Option Uuid) (body : ProjectBody) : Procedure Uuid := do
  let uid ← Steps.requireUser userId
  let name := jsTrim (body.name.truthy.getD "")
  ofExcept (validateProjectFields name body.description.nullish)
  ofExcept (validateProjectKey body.key.nullish)
  ofExcept body.icon
  let workspace ← Steps.workspace (some uid)
  require (normalizeRole workspace.role ≠ .qaEngineer)
    (.forbidden "Only the workspace owner, admin, or manager can create projects")
  let seen ← check (assertCanCreateProject workspace.id)
  let explicitKey := sanitizeKey (body.key.nullish.getD "")
  let base := if explicitKey = "" then projectKey name else explicitKey
  insertProjectWithUniqueKey workspace.id uid base body.tails seen 3

end Keys

end Tesbo.Knowledge
