import Tesbo.KnowledgeBase
import Tesbo.Reasoning.Phases

/-!
# Creating, moving, deleting and restoring in the knowledge base

Every handler looks up what it is about, and where that is to go, in statements before the one that
changes anything; the change itself repeats none of the conditions.
-/

namespace Tesbo.Knowledge

open Reasoning Proc

/-! ## Writes -/

inductive Write where
  | setActiveOrganization (uid organizationId : Uuid)
  | insertFolder (projectId : Uuid) (parentFolderId : Option Uuid) (name : String) (uid : Uuid)
  | setParent (id parentFolderId uid : Uuid)
  | cascadeSoftDelete (folderIds : List Uuid) (uid : Option Uuid) (deletionReason : DeletionReason)
  | reviveFolder (id projectId uid : Uuid)
  | insertDocument (new : NewDocument)
  | setDocumentFolder (id folderId uid : Uuid)
  | reviveDocument (id projectId uid : Uuid)
  | putObject (directory : Directory) (ext : String)
  | removeObject (key : StorageKey)
  | insertFile (seen : ℕ) (new : NewFile)
  | insertAttachment (seen : ℕ) (new : NewAttachment)
  | dropAttachment (id : Uuid)
  | markAttachmentDeleted (id : Uuid)
  | insertProject (seen : ℕ) (new : NewProject)
  | setFileFolder (id folderId : Uuid)
  | markFileDeleted (id : Uuid)
  | reviveFile (id projectId : Uuid)
  | elapse (time : Time)

/-- What a write answers with: an id, whether a row was hit, the key of a new object, or nothing.
Where a caller catches the error, the error is an answer. -/
@[reducible] def Reply : Write → Type
  | .insertFolder _ _ _ _ => Except Failure Uuid
  | .setParent _ _ _ => Except Failure Bool
  | .insertProject _ _ | .insertAttachment _ _ => Except Failure Uuid
  | .insertDocument _ | .insertFile _ _ => Uuid
  | .reviveFolder _ _ _ | .reviveDocument _ _ _ | .reviveFile _ _ => Bool
  | .putObject _ _ => StorageKey
  | _ => Unit

open Service in
def perform : (w : Write) → Service Failure Shared (Reply w)
  | .setActiveOrganization uid organizationId =>
      write fun s ↦ { s with db := setActiveOrganization uid organizationId s.db }
  | .insertFolder projectId parentFolderId name uid =>
      savepoint (returning (insertFolder projectId parentFolderId name uid))
  | .setParent id parentFolderId uid => savepoint (returning (setParent id parentFolderId uid))
  | .cascadeSoftDelete folderIds uid deletionReason =>
      exec (cascadeSoftDeleteFolderTree folderIds uid deletionReason)
  | .reviveFolder id projectId uid => returning (reviveFolder id projectId uid)
  | .insertDocument new => returning (insertDocument new)
  | .setDocumentFolder id folderId uid => exec (setDocumentFolder id folderId uid)
  | .reviveDocument id projectId uid =>
      returning fun s ↦ .ok (hitsDocument id projectId s, reviveDocument id projectId uid s)
  | .putObject directory ext => returning fun s ↦ .ok (putObject directory ext s)
  | .removeObject key => write (removeObject key)
  | .insertFile _ new => returning (insertFile new)
  | .insertAttachment _ new => savepoint (returning (insertAttachment new))
  | .dropAttachment id => write (dropAttachment id)
  | .markAttachmentDeleted id => write (markAttachmentDeleted id)
  | .insertProject _ new => savepoint (returning (insertProject new))
  | .setFileFolder id folderId => exec (setFileFolder id folderId)
  | .markFileDeleted id => write (markFileDeleted id)
  | .reviveFile id projectId =>
      returning fun s ↦ .ok (hitsFile id projectId s, reviveFile id projectId s)
  | .elapse time => write fun s ↦ { s with db := { s.db with now := s.db.now + time } }

instance : Steps.Backed Shared Reply where
  db s := s.db
  repair uid organizationId := .setActiveOrganization uid organizationId

abbrev Procedure (α : Type) := Proc Shared Reply Failure α

abbrev ask (w : Write) : Procedure (Reply w) := issue w

/-! ## Looking up -/

def findFolder (projectId id : Uuid) (s : Shared) : Option Folder :=
  (s.folders.find id).filter fun f ↦ f.projectId = projectId ∧ f.live

def findDocument (projectId id : Uuid) (s : Shared) : Option Document :=
  (s.documents.find id).filter fun d ↦ d.projectId = projectId ∧ d.live

def findFile (projectId id : Uuid) (s : Shared) : Option File :=
  (s.files.find id).filter fun f ↦ f.projectId = projectId ∧ f.live

section Lookups

variable {κ : Type} {Reply : κ → Type}

/-- A row that must be there, under an id the request names. -/
def lookUp {ρ : Type} (find : Uuid → Shared → Option ρ) (error : String) (id : IdText) :
    Proc Shared Reply Failure ρ := do
  require id.isUuid (.notFound error)
  let id ← ofExcept (readUuid id)
  check fun s ↦ (find id s).elim (.error (.notFound error)) .ok

def kbFolder (projectId : Uuid) (folderId : IdText) : Proc Shared Reply Failure Folder :=
  lookUp (findFolder projectId) "Folder not found" folderId

def kbDocument (projectId : Uuid) (documentId : IdText) : Proc Shared Reply Failure Document :=
  lookUp (findDocument projectId) "Document not found" documentId

def kbFile (projectId : Uuid) (fileId : IdText) : Proc Shared Reply Failure File :=
  lookUp (findFile projectId) "File not found" fileId

def kbProjectRole (uid projectId : Uuid) : Proc Shared Reply Failure Role :=
  query fun s ↦
    normalizeRole ((s.db.projectMembers.find (projectId, uid)).elim "" ProjectMember.role)

def kbRequireOwnerOrManager (role : Role) : Proc Shared Reply Failure Unit :=
  require (role = .owner ∨ role = .manager)
    (.forbidden "Only owners and managers can perform this action")

def kbRequireMutateAccess (role : Role) (ownerId : Option Uuid) (uid : Uuid) :
    Proc Shared Reply Failure Unit :=
  require (role = .owner ∨ role = .manager ∨ ownerId = some uid)
    (.forbidden "You can only modify items you created")

end Lookups

/-- The caller, and the project they may reach. -/
def member (userId : Option Uuid) (projectId : IdText) : Procedure (Uuid × Project) := do
  let uid ← Steps.requireUser userId
  let access ← Steps.requireProjectAccess (some uid) projectId
  pure (uid, access.project)

/-! ## Folders -/

/-- `parentFolderId` as `String(… || "")` leaves it, `none` for the empty text. -/
structure FolderBody where
  name : Arg String
  parentFolderId : Arg IdText

def kbFolderNameMaxLength : ℕ := 50

def kbFolderName (raw : Arg String) : Except Failure String :=
  let name := jsTrim (raw.nullish.getD "")
  if name = "" then .error (.badRequest "Folder name is required")
  else if kbFolderNameMaxLength < jsLength name
  then .error (.badRequest s!"Folder name must be at most {kbFolderNameMaxLength} characters")
  else .ok name

/-- The handler's own answer where a name is taken, the error itself otherwise. -/
def nameConflict (answer : String) : Failure → Failure
  | .sqlState "23505" _ => .badRequest answer
  | e => e

def createKnowledgeFolder (userId : Option Uuid) (projectId : IdText) (body : FolderBody) :
    Procedure Uuid := do
  let (uid, project) ← member userId projectId
  let name ← ofExcept (kbFolderName body.name)
  let parentFolderId ← match body.parentFolderId.truthy with
    | some id => do
        let parent ← kbFolder project.id id
        pure (some parent.id)
    | none => query (rootOf project.id)
  let inserted ← ask (.insertFolder project.id parentFolderId name uid)
  ofExcept (inserted.mapError (nameConflict "A folder with this name already exists here"))

def moveKnowledgeFolder (userId : Option Uuid) (projectId folderId : IdText) (body : FolderBody) :
    Procedure Unit := do
  let (uid, project) ← member userId projectId
  let folder ← kbFolder project.id folderId
  require (folder.isRoot = false) (.badRequest "The root folder cannot be moved")
  let role ← kbProjectRole uid project.id
  kbRequireMutateAccess role folder.createdBy uid
  let targetParentId ← ofExcept (body.parentFolderId.truthy.elim
    (.error (.badRequest "parentFolderId is required")) .ok)
  let target ← kbFolder project.id targetParentId
  let below ← check (queryDescendants [folder.id])
  require (target.id ∉ below)
    (.badRequest "A folder cannot be moved into itself or one of its subfolders")
  let moved ← ask (.setParent folder.id target.id uid)
  let _ ← ofExcept (moved.mapError
    (nameConflict "A folder with this name already exists in the destination"))

/-- The keys of the live files below the folder. -/
def filesToPurge (folderId : Uuid) (s : Shared) : Except Failure (List StorageKey) := do
  let tree ← queryDescendants [folderId] s
  .ok ((s.files.select fun f ↦ f.folderId ∈ tree ∧ f.live).map File.storageKey)

/-- The objects go one after the other; that one cannot be deleted does not stop the rest. -/
def purge : List StorageKey → Procedure Unit
  | [] => pure ()
  | key :: keys => .write (.removeObject key) fun _ ↦ purge keys

def deleteKnowledgeFolder (userId : Option Uuid) (projectId folderId : IdText) :
    Procedure Unit := do
  let (uid, project) ← member userId projectId
  let folder ← kbFolder project.id folderId
  require (folder.isRoot = false) (.badRequest "The root folder cannot be deleted")
  let role ← kbProjectRole uid project.id
  kbRequireMutateAccess role folder.createdBy uid
  let keys ← check (filesToPurge folder.id)
  ask (.cascadeSoftDelete [folder.id] (some uid) .manual)
  purge keys

/-- What a disconnect of an integration does to the folders of its provider. -/
def disconnectFolders (folderIds : List Uuid) (uid : Option Uuid) : Procedure Unit :=
  ask (.cascadeSoftDelete folderIds uid .integrationDisconnect)

def providerFolderName : String → Option String
  | "jira" => some "Jira"
  | "linear" => some "Linear"
  | "notion" => some "Notion"
  | _ => none

def disconnectedError (f : Folder) : Failure :=
  let what := match providerFolderName (f.sourceProvider.getD "") with
    | some name => s!"{name} was disconnected"
    | none => "the integration was disconnected"
  .badRequest s!"This folder was removed when {what} and can't be restored. Reconnect and sync to create a new one."

def restoreKnowledgeFolder (userId : Option Uuid) (projectId folderId : IdText) :
    Procedure Unit := do
  let (uid, project) ← member userId projectId
  let role ← kbProjectRole uid project.id
  kbRequireOwnerOrManager role
  let existing ← lookUp (fun id s ↦ (s.folders.find id).filter fun f ↦ f.projectId = project.id)
    "Folder not found" folderId
  require (existing.deletionReason ≠ some .integrationDisconnect) (disconnectedError existing)
  let hit ← ask (.reviveFolder existing.id project.id uid)
  require (hit = true) (.notFound "Folder not found")

/-! ## Documents -/

/-- `contentJson` by its canonical text; `payloadBytes` is what the three contents take up. -/
structure NewDocumentBody where
  title : Arg String
  folderId : Arg IdText
  contentJson : Option String
  contentHtml : Arg String
  contentText : Arg String
  documentType : Arg String
  payloadBytes : ℕ

def kbDocumentTitleMaxLength : ℕ := 512

def kbDocumentMaxPayloadBytes : ℕ := 20 * 1024 * 1024

def assertKnowledgeDocumentPayloadSize (bytes : ℕ) : Except Failure Unit :=
  if kbDocumentMaxPayloadBytes < bytes
  then .error (.badRequest s!"This document is over the {kbDocumentMaxPayloadBytes / (1024 * 1024)}MB limit we currently support. Split it into smaller documents to save.")
  else .ok ()

/-- The target of a request, which must be sent. -/
def requiredFolder (projectId : Uuid) (folderId : Arg IdText) : Procedure Folder := do
  let folderId ← ofExcept (folderId.truthy.elim (.error (.badRequest "folderId is required")) .ok)
  kbFolder projectId folderId

def createKnowledgeDocument (userId : Option Uuid) (projectId : IdText) (body : NewDocumentBody) :
    Procedure Uuid := do
  let (uid, project) ← member userId projectId
  let title := jsTrim (body.title.truthy.getD "")
  require (title ≠ "") (.badRequest "Document title is required")
  require (title ≠ zyraMemoryDocTitle) (.badRequest
    "\"Zyra AI Memory\" is reserved for Zyra's own memory document — choose a different title.")
  require (jsLength title ≤ kbDocumentTitleMaxLength)
    (.badRequest s!"Title must be at most {kbDocumentTitleMaxLength} characters")
  ofExcept (assertKnowledgeDocumentPayloadSize body.payloadBytes)
  let folder ← requiredFolder project.id body.folderId
  ask (.insertDocument
    { organizationId := project.organizationId, projectId := project.id, folderId := folder.id,
      title := title, contentJson := body.contentJson, contentHtml := body.contentHtml.truthy,
      contentText := body.contentText.truthy,
      documentType := body.documentType.truthy.getD "general", uid := uid })

def moveKnowledgeDocument (userId : Option Uuid) (projectId documentId : IdText)
    (folderId : Arg IdText) : Procedure Unit := do
  let (uid, project) ← member userId projectId
  let doc ← kbDocument project.id documentId
  let role ← kbProjectRole uid project.id
  kbRequireMutateAccess role doc.createdBy uid
  let folder ← requiredFolder project.id folderId
  ask (.setDocumentFolder doc.id folder.id uid)

def restoreKnowledgeDocument (userId : Option Uuid) (projectId documentId : IdText) :
    Procedure Unit := do
  let (uid, project) ← member userId projectId
  let role ← kbProjectRole uid project.id
  kbRequireOwnerOrManager role
  require documentId.isUuid (.notFound "Document not found")
  let id ← ofExcept (readUuid documentId)
  let hit ← ask (.reviveDocument id project.id uid)
  require (hit = true) (.notFound "Document not found")

/-! ## Files -/

/-- The name without directories: `path.basename`. -/
def lastSegment (name : String) : List Char :=
  ((name.toList.reverse.dropWhile (· = '/')).takeWhile (· ≠ '/')).reverse

/-- `path.extname` without its dot, in lower case. -/
def extension (name : String) : String :=
  let base := lastSegment name
  let ext := (base.reverse.takeWhile (· ≠ '.')).reverse
  -- a name that only begins with its last dot, or has none, has no extension
  if base.length ≤ ext.length + 1 ∨ base = ['.', '.'] then ""
  else String.ofList (ext.map Char.toLower)

/-- The name before `path.extname`, without directories. -/
def baseName (name : String) : String :=
  let base := lastSegment name
  let ext := (base.reverse.takeWhile (· ≠ '.')).reverse
  if base.length ≤ ext.length + 1 ∨ base = ['.', '.'] then String.ofList base
  else String.ofList (base.take (base.length - ext.length - 1))

/-- The extension with its dot, as it stands in the name. -/
def dottedExtension (name : String) : String :=
  String.ofList ((lastSegment name).drop (baseName name).length)

def kbAllowedExtensions : List String :=
  ["png", "jpg", "jpeg", "webp", "svg", "pdf", "doc", "docx", "txt", "md", "xls", "xlsx", "csv",
    "ppt", "pptx", "js", "ts", "java", "py", "json", "xml", "yaml", "yml", "sql", "html", "css",
    "mp3", "wav", "m4a", "mp4", "mov", "webm"]

/-- A file of a request; `size` is its length in bytes. -/
structure Upload where
  originalName : String
  size : ℕ

/-- The first of `name`, `name (1)`, `name (2)`, … that no live file of the folder has. -/
def uniqueFileName (taken : List String) (name : String) : String :=
  if name ∈ taken then
    let candidate := fun i : ℕ ↦ s!"{baseName name} ({i}){dottedExtension name}"
    (((List.range (taken.length + 1)).map fun i ↦ candidate (i + 1)).find? (· ∉ taken)).getD name
  else name

def kbUniqueFileName (folderId : Uuid) (name : String) (s : Shared) : String :=
  uniqueFileName ((s.files.select fun f ↦ f.folderId = folderId ∧ f.live).map File.originalFileName)
    name

/-- The files of a checked batch, one after the other.  `seen` is what the call takes for the bytes
in use: what its check found, and what it has stored since. -/
def storeKnowledgeFiles (uid : Uuid) (project : Project) (folderId : Uuid) :
    ℕ → List Upload → Procedure Unit
  | _, [] => pure ()
  | seen, file :: files => do
      let ext := extension file.originalName
      let originalFileName ← query (kbUniqueFileName folderId file.originalName)
      let storageKey ← ask (.putObject (.knowledgeBase project.organizationId project.id) ext)
      let _ ← ask (.insertFile seen
        { organizationId := project.organizationId, projectId := project.id, folderId := folderId,
          originalFileName := originalFileName, fileExtension := ext, fileSize := file.size,
          storageKey := storageKey, uid := uid })
      storeKnowledgeFiles uid project folderId (seen + file.size) files

def uploadKnowledgeFiles (userId : Option Uuid) (projectId : IdText) (folderId : Arg IdText)
    (files : List Upload) : Procedure Unit := do
  let (uid, project) ← member userId projectId
  let folder ← requiredFolder project.id folderId
  require (files ≠ []) (.badRequest "No files were uploaded")
  let seen ← check (assertProjectStorage project.organizationId (files.map Upload.size).sum)
  ofExcept (match files.find? fun file ↦ extension file.originalName ∉ kbAllowedExtensions with
    | some invalid =>
        .error (.badRequest s!"This file type is not supported: {invalid.originalName}")
    | none => .ok ())
  storeKnowledgeFiles uid project folder.id seen files

def moveKnowledgeFile (userId : Option Uuid) (projectId fileId : IdText) (folderId : Arg IdText) :
    Procedure Unit := do
  let (uid, project) ← member userId projectId
  let file ← kbFile project.id fileId
  let role ← kbProjectRole uid project.id
  kbRequireMutateAccess role file.uploadedBy uid
  let folder ← requiredFolder project.id folderId
  ask (.setFileFolder file.id folder.id)

def deleteKnowledgeFile (userId : Option Uuid) (projectId fileId : IdText) : Procedure Unit := do
  let (uid, project) ← member userId projectId
  let file ← kbFile project.id fileId
  let role ← kbProjectRole uid project.id
  kbRequireMutateAccess role file.uploadedBy uid
  ask (.markFileDeleted file.id)
  purge [file.storageKey]

def restoreKnowledgeFile (userId : Option Uuid) (projectId fileId : IdText) : Procedure Unit := do
  let (uid, project) ← member userId projectId
  let role ← kbProjectRole uid project.id
  kbRequireOwnerOrManager role
  require fileId.isUuid (.notFound "File not found")
  let id ← ofExcept (readUuid fileId)
  let hit ← ask (.reviveFile id project.id)
  require (hit = true) (.notFound "File not found")

/-! ## With nothing between the statements -/

section Sequential

open Service

/-- Every table but `users` is as before. -/
def SameBase (s s' : Shared) : Prop := ∃ users, s' = { s with db := { s.db with users := users } }

theorem SameBase.refl (s : Shared) : SameBase s s := ⟨s.db.users, rfl⟩

variable {s : Shared} {β : Type} {Q : β → Shared → Prop} {E : Failure → Shared → Prop}

theorem run_member_spec {userId : Option Uuid} {projectId : IdText} :
    wp ((member userId projectId).run perform)
      (fun r s' ↦ SameBase s s' ∧ userId = some r.1 ∧ projectId.uuid = some r.2.id ∧
        IsMember s.db r.2.id r.1)
      (fun _ s' ↦ SameBase s s') s := by
  have hE : ∀ _ : Failure, SameBase s s := fun _ ↦ .refl s
  have hworkspace : ∀ uid, wp ((Steps.workspace (some uid) : Procedure Workspace).run perform)
      (fun _ s' ↦ SameBase s s') (fun _ s' ↦ SameBase s s') s := by
    intro uid
    unfold Steps.workspace Steps.requireUser Steps.select Steps.found
    refine wp_run_ofExcept_seq hE fun uid' _ ↦ wp_run_query_seq ?_
    cases activeWorkspace uid' s.db with
    | some active => exact (wp_pure active).mpr (.refl s)
    | none =>
        refine wp_run_check_seq hE fun earliest _ ↦ ?_
        refine wp_run_seq (P := fun _ s' ↦ SameBase s s') (wp_run_issue ?_) ?_
        · exact (wp_write _).mpr ⟨_, rfl⟩
        · exact fun _ s' hs ↦ (wp_pure earliest).mpr hs
  unfold member Steps.requireProjectAccess Steps.requireUser Steps.found
  refine wp_run_ofExcept_seq hE fun uid huid ↦ ?_
  have haccess : wp ((do
      let uid ← ofExcept (Option.elim (some uid)
        (.error (.badRequest "Authentication required")) .ok)
      require projectId.isUuid (.notFound "Project not found")
      let id ← ofExcept (readUuid projectId)
      let workspace ← Steps.workspace (some uid)
      check fun s : Shared ↦ (findProjectAccess uid workspace.id id s.db).elim
        (.error (.notFound "Project not found")) .ok : Procedure ProjectAccess).run perform)
      (fun access s' ↦ SameBase s s' ∧ projectId.uuid = some access.project.id ∧
        IsMember s.db access.project.id uid) (fun _ s' ↦ SameBase s s') s := by
    refine wp_run_ofExcept_seq hE fun uid' huid' ↦ wp_run_require_seq (.refl s) fun _ ↦ ?_
    obtain rfl := Except.ok.inj huid'
    refine wp_run_ofExcept_seq hE fun id hid ↦ wp_run_seq (hworkspace uid) ?_
    rintro workspace s' ⟨users, rfl⟩
    refine wp_check.mpr ⟨fun access h ↦ ?_, fun _ _ ↦ ⟨users, rfl⟩⟩
    obtain ⟨-, rfl, hmember⟩ := findProjectAccess_eq_some (eq_some_of_found h)
    exact ⟨⟨users, rfl⟩, readUuid_eq_ok.mp hid, hmember⟩
  exact wp_run_seq haccess fun access s' h ↦
    (wp_pure _).mpr ⟨h.1, eq_some_of_found huid, h.2.1, h.2.2⟩

theorem wp_run_member_seq {userId : Option Uuid} {projectId : IdText}
    {f : Uuid × Project → Procedure β} (hE : ∀ e s', SameBase s s' → E e s')
    (hf : ∀ uid project users, userId = some uid → projectId.uuid = some project.id →
      IsMember s.db project.id uid →
      wp ((f (uid, project)).run perform) Q E { s with db := { s.db with users := users } }) :
    wp ((member userId projectId >>= f).run perform) Q E s := by
  refine wp_run_seq (wp_mono run_member_spec (fun _ _ h ↦ h) fun e s' h ↦ hE e s' h) ?_
  rintro ⟨uid, project⟩ s' ⟨⟨users, rfl⟩, huid, hproject, hmember⟩
  exact hf uid project users huid hproject hmember

theorem run_lookUp_spec {ρ : Type} {find : Uuid → Shared → Option ρ} {error : String}
    {id : IdText} {E : Failure → Shared → Prop} (hE : ∀ e, E e s) :
    wp ((lookUp find error id : Procedure ρ).run perform)
      (fun row s' ↦ s' = s ∧ ∃ i, id.uuid = some i ∧ find i s = some row) E s := by
  unfold lookUp
  refine wp_run_require_seq (hE _) fun _ ↦ wp_run_ofExcept_seq hE fun i hi ↦ ?_
  exact wp_check.mpr ⟨fun row h ↦ ⟨rfl, i, readUuid_eq_ok.mp hi, eq_some_of_found h⟩, fun e _ ↦ hE e⟩

theorem wp_run_lookUp_seq {ρ : Type} {find : Uuid → Shared → Option ρ} {error : String}
    {id : IdText} {f : ρ → Procedure β} (hE : ∀ e, E e s)
    (hf : ∀ i row, id.uuid = some i → find i s = some row → wp ((f row).run perform) Q E s) :
    wp ((lookUp find error id >>= f).run perform) Q E s := by
  refine wp_run_seq (run_lookUp_spec hE) ?_
  rintro row s' ⟨rfl, i, hi, hrow⟩
  exact hf i row hi hrow

theorem wp_run_requiredFolder_seq {projectId : Uuid} {folderId : Arg IdText}
    {f : Folder → Procedure β} (hE : ∀ e, E e s)
    (hf : ∀ i target, findFolder projectId i s = some target → wp ((f target).run perform) Q E s) :
    wp ((requiredFolder projectId folderId >>= f).run perform) Q E s := by
  unfold requiredFolder kbFolder
  refine wp_run_seq (P := fun target s' ↦ s' = s ∧ ∃ i, findFolder projectId i s = some target) ?_ ?_
  · refine wp_run_ofExcept_seq hE fun id _ ↦ wp_mono (run_lookUp_spec hE) ?_ fun _ _ h ↦ h
    rintro target s' ⟨rfl, i, -, htarget⟩
    exact ⟨rfl, i, htarget⟩
  · rintro target s' ⟨rfl, i, htarget⟩
    exact hf i target htarget

/-- The objects go, and nothing else. -/
theorem run_purge_spec (keys : List StorageKey) :
    wp ((purge keys).run perform) (fun _ s' ↦ ∃ objects, s' = { s with objects := objects }) E s := by
  induction keys generalizing s with
  | nil => exact (wp_pure ()).mpr ⟨s.objects, rfl⟩
  | cons key keys ih =>
      refine wp_seq (P := fun _ s' ↦ s' = removeObject key s) ((wp_write _).mpr rfl) ?_
      rintro _ s' rfl
      refine wp_mono (@ih (removeObject key s)) ?_ fun _ _ h ↦ h
      rintro _ s' ⟨objects, rfl⟩
      exact ⟨objects, rfl⟩

end Sequential

/-! ## With others between the statements -/

section Interleaved

variable {φ α β : Type} {turn : φ → (w : Write) → Reply w → φ} {R : Shared → Shared → Prop}
  {L : φ → Shared → Write → Prop} {Q : β → φ → Shared → Prop} {t : φ} {s : Shared}

theorem asks_member (hrefl : ∀ a, R a a) (htrans : ∀ a b c, R a b → R b c → R a c)
    {userId : Option Uuid} {projectId : IdText} :
    Asks R (fun _ w ↦ ∃ uid organizationId, w = .setActiveOrganization uid organizationId)
      (fun r s' ↦ userId = some r.1 ∧ projectId.uuid = some r.2.id ∧
        ∃ s₁, r.2 ∈ s₁.db.projects ∧ R s₁ s') s (member userId projectId) := by
  unfold member
  refine Steps.asks_requireUser_seq fun uid huid ↦ ?_
  refine asks_seq hrefl htrans (Steps.asks_requireProjectAccess hrefl htrans
    fun _ uid organizationId ↦ ⟨uid, organizationId, rfl⟩) fun access s' _ hproject ↦ ?_
  obtain ⟨hid, s₁, hrow, h₁⟩ := hproject
  exact asks_pure fun s'' h ↦ ⟨huid, hid, s₁, hrow, htrans s₁ s' s'' h₁ h⟩

/-- The caller's check leaves the phase as it is. -/
theorem follows_member_seq (hrefl : ∀ a, R a a) (htrans : ∀ a b c, R a b → R b c → R a c)
    (hrepair : ∀ s uid organizationId, L t s (.setActiveOrganization uid organizationId) ∧
      ∀ r, turn t (.setActiveOrganization uid organizationId) r = t)
    {userId : Option Uuid} {projectId : IdText} {f : Uuid × Project → Procedure β}
    (hf : ∀ uid project s₁ s', R s s' → userId = some uid → projectId.uuid = some project.id →
      project ∈ s₁.db.projects → R s₁ s' → Follows turn R L Q t s' (f (uid, project))) :
    Follows turn R L Q t s (member userId projectId >>= f) := by
  have hmember : Follows turn R L (fun r t' s' ↦ t' = t ∧ userId = some r.1 ∧
      projectId.uuid = some r.2.id ∧ ∃ s₁, r.2 ∈ s₁.db.projects ∧ R s₁ s') t s
        (member userId projectId) := by
    refine (asks_member hrefl htrans).follows fun s w hw ↦ ?_
    obtain ⟨uid, organizationId, rfl⟩ := hw
    exact hrepair s uid organizationId
  refine follows_seq hrefl htrans hmember ?_
  rintro ⟨uid, project⟩ _ s' hs ⟨rfl, huid, hproject, s₁, hrow, h₁⟩
  exact hf uid project s₁ s' hs huid hproject hrow h₁

theorem follows_lookUp_seq {ρ : Type} {find : Uuid → Shared → Option ρ} {error : String}
    {id : IdText} {f : ρ → Procedure β} (hrefl : ∀ a, R a a)
    (htrans : ∀ a b c, R a b → R b c → R a c)
    (hf : ∀ i row s₁ s₂, id.uuid = some i → R s s₁ → find i s₁ = some row → R s₁ s₂ →
      Follows turn R L Q t s₂ (f row)) :
    Follows turn R L Q t s (lookUp find error id >>= f) := by
  have hlook : Follows turn R L (fun row t' s₂ ↦ t' = t ∧ ∃ i s₁, id.uuid = some i ∧ R s s₁ ∧
      find i s₁ = some row ∧ R s₁ s₂) t s (lookUp find error id : Procedure ρ) := by
    unfold lookUp
    refine follows_require_seq fun _ ↦ follows_ofExcept_seq fun i hi ↦ ?_
    refine follows_check fun s₁ h₁ row hrow s₂ h₂ ↦ ?_
    exact ⟨rfl, i, s₁, readUuid_eq_ok.mp hi, h₁, eq_some_of_found hrow, h₂⟩
  refine follows_seq hrefl htrans hlook ?_
  rintro row _ s₃ - ⟨rfl, i, s₁, hi, h₁, hrow, h₂⟩
  exact hf i row s₁ s₃ hi h₁ hrow h₂

theorem follows_requiredFolder_seq {projectId : Uuid} {folderId : Arg IdText}
    {f : Folder → Procedure β} (hrefl : ∀ a, R a a) (htrans : ∀ a b c, R a b → R b c → R a c)
    (hf : ∀ target s', R s s' → Follows turn R L Q t s' (f target)) :
    Follows turn R L Q t s (requiredFolder projectId folderId >>= f) := by
  have hfolder : Follows turn R L (fun _ t' _ ↦ t' = t) t s
      (requiredFolder projectId folderId) := by
    unfold requiredFolder kbFolder lookUp
    refine follows_ofExcept_seq fun _ _ ↦ follows_require_seq fun _ ↦ ?_
    exact follows_ofExcept_seq fun i _ ↦ follows_check fun _ _ _ _ _ _ ↦ rfl
  refine follows_seq hrefl htrans hfolder ?_
  rintro target _ s' hs rfl
  exact hf target s' hs

end Interleaved

section Rows

variable {s : Shared} {projectId id : Uuid}

theorem findFolder_eq_some {f : Folder} : findFolder projectId id s = some f ↔
    f ∈ s.folders ∧ f.id = id ∧ f.projectId = projectId ∧ f.live = true := by
  unfold findFolder
  rw [Option.filter_eq_some_iff, Table.find_eq_some, decide_eq_true_eq, and_assoc]

theorem findFile_eq_some {f : File} : findFile projectId id s = some f ↔
    f ∈ s.files ∧ f.id = id ∧ f.projectId = projectId ∧ f.live = true := by
  unfold findFile
  rw [Option.filter_eq_some_iff, Table.find_eq_some, decide_eq_true_eq, and_assoc]

end Rows

end Tesbo.Knowledge
