import Tesbo.AccessSteps
import Tesbo.Roles
import Tesbo.Reasoning.Forest

/-!
# The knowledge base of a project

Folders, and the documents and files in them.  What is deleted keeps its row; the bytes of a file
are an object in a storage of its own.  The handlers run statement by statement, a transaction being
one statement.
-/

namespace Tesbo.Knowledge

open Reasoning

/-! ## Rows -/

/-- Why a folder was deleted. -/
inductive DeletionReason where
  | manual
  | integrationDisconnect
deriving DecidableEq, Repr

structure Folder where
  id : Uuid
  projectId : Uuid
  parentFolderId : Option Uuid
  name : String
  isRoot : Bool
  sourceProvider : Option String
  createdBy : Option Uuid
  updatedBy : Option Uuid
  updatedAt : Time
  isDeleted : Bool
  deletedAt : Option Time
  deletionReason : Option DeletionReason
deriving DecidableEq, Repr

/-- A `JSONB` column holds the canonical text of a value other than `null`. -/
structure Document where
  id : Uuid
  organizationId : Option Uuid
  projectId : Uuid
  folderId : Uuid
  title : String
  contentJson : Option String
  contentHtml : Option String
  contentText : Option String
  documentType : String
  status : String
  isReadOnly : Bool
  sourceProvider : Option String
  createdBy : Option Uuid
  updatedBy : Option Uuid
  reviewedBy : Option Uuid
  reviewedAt : Option Time
  updatedAt : Time
  isDeleted : Bool
  deletedAt : Option Time
deriving DecidableEq, Repr

/-- Whose objects a directory of the storage holds. -/
inductive Directory where
  | knowledgeBase (organizationId : Option Uuid) (projectId : Uuid)
  | bug (projectId bugId : Uuid)
  | bugComment (projectId bugId commentId : Uuid)
  | execution (projectId executionId : Uuid)
deriving DecidableEq, Repr

/-- `<directory>/<uuid>.<ext>` -/
structure StorageKey where
  directory : Directory
  uuid : Uuid
  ext : String
deriving DecidableEq, Repr

structure File where
  id : Uuid
  organizationId : Option Uuid
  projectId : Uuid
  folderId : Uuid
  originalFileName : String
  fileExtension : String
  fileSize : ℕ
  storageKey : StorageKey
  uploadedBy : Option Uuid
  isDeleted : Bool
  deletedAt : Option Time
  updatedAt : Time
deriving DecidableEq, Repr

/-- Evidence stored with a bug, a comment on one, or the result of a run. -/
structure Attachment where
  id : Uuid
  projectId : Uuid
  entityId : Uuid
  fileName : String
  fileSize : ℕ
  storagePath : StorageKey
  deletedAt : Option Time
deriving DecidableEq, Repr

inductive Plan where
  | launch
  | pro
deriving DecidableEq, Repr

/-- The database with the tables of the knowledge base, the objects in the storage, and what each
workspace is entitled to: `enforced` is `isStripeBillingEnabled`, `effectivePlan` the plan whose
limits apply.  `supportContactEmail` is configuration. -/
structure Shared where
  db : Db
  folders : Table Folder.id
  documents : Table Document.id
  files : Table File.id
  attachments : Table Attachment.id
  objects : List StorageKey
  enforced : Bool
  effectivePlan : Uuid → Plan
  supportContactEmail : String

def Folder.live (f : Folder) : Bool := !f.isDeleted

def Document.live (d : Document) : Bool := !d.isDeleted

def File.live (f : File) : Bool := !f.isDeleted

def zyraMemoryDocTitle : String := "Zyra AI Memory"

/-- The document Zyra keeps its memory of the project in. -/
def Document.isZyraMemory (d : Document) : Bool := jsTrim d.title = zyraMemoryDocTitle

/-! ## The folder tree -/

def folderChildren (s : Shared) (id : Uuid) : List Uuid :=
  (s.folders.select fun f ↦ f.parentFolderId = some id).map Folder.id

/-- The folder and what is below it, live or not. -/
def subtree (id : Uuid) (s : Shared) : List Uuid :=
  if (s.folders.find id).isSome then walk (folderChildren s) s.folders.rows.length [id] else []

/-- `DESCENDANTS_CTE` -/
def descendants (ids : List Uuid) (s : Shared) : List Uuid := ids.flatMap fun id ↦ subtree id s

/-- A folder below one of these is below itself: the recursive query does not end. -/
def Cyclic (ids : List Uuid) (s : Shared) : Prop :=
  ∃ id ∈ descendants ids s, ∃ child ∈ folderChildren s id, id ∈ subtree child s

instance (ids : List Uuid) (s : Shared) : Decidable (Cyclic ids s) :=
  inferInstanceAs (Decidable (∃ id ∈ descendants ids s, _))

/-- The answer of the recursive query, when it ends. -/
def queryDescendants (ids : List Uuid) (s : Shared) : Except Failure (List Uuid) :=
  if Cyclic ids s then .error (.sqlState "57014" "") else .ok (descendants ids s)

/-- The root folder of the project. -/
def rootOf (projectId : Uuid) (s : Shared) : Option Uuid :=
  (s.folders.rows.find? fun f ↦ f.projectId = projectId ∧ f.isRoot).map Folder.id

/-! ### What is below a folder -/

section Tree

variable {s : Shared} {x y : Uuid}

def ChildFolder (s : Shared) (x y : Uuid) : Prop :=
  ∃ f ∈ s.folders, f.id = y ∧ f.parentFolderId = some x

theorem mem_folderChildren : y ∈ folderChildren s x ↔ ChildFolder s x y := by
  unfold folderChildren ChildFolder
  rw [List.mem_map]
  simp only [Table.mem_select, decide_eq_true_eq]
  constructor
  · rintro ⟨f, ⟨hf, hparent⟩, hid⟩
    exact ⟨f, hf, hid, hparent⟩
  · rintro ⟨f, hf, hid, hparent⟩
    exact ⟨f, ⟨hf, hparent⟩, hid⟩

theorem mem_subtree : y ∈ subtree x s ↔
    (∃ f ∈ s.folders, f.id = x) ∧ Relation.ReflTransGen (ChildFolder s) x y := by
  have hchildren : (fun a b ↦ b ∈ folderChildren s a) = ChildFolder s :=
    funext fun a ↦ funext fun b ↦ propext mem_folderChildren
  have hnodes : ∀ a b, b ∈ folderChildren s a → b ∈ s.folders.rows.map Folder.id := by
    intro a b hb
    obtain ⟨f, hf, rfl, -⟩ := mem_folderChildren.mp hb
    exact List.mem_map_of_mem hf
  unfold subtree
  cases hfind : s.folders.find x with
  | none =>
      have hno := Table.find_eq_none.mp hfind
      constructor
      · intro h
        cases h
      · rintro ⟨⟨f, hf, hid⟩, -⟩
        exact absurd hid (hno f hf)
  | some f =>
      obtain ⟨hf, hid⟩ := Table.find_eq_some.mp hfind
      have hnode : x ∈ s.folders.rows.map Folder.id := hid ▸ List.mem_map_of_mem hf
      have hlength : s.folders.rows.length = (s.folders.rows.map Folder.id).length := by
        rw [List.length_map]
      have hfound : (some f).isSome = true := rfl
      rw [if_pos hfound, hlength, mem_walk_iff hnode hnodes, hchildren]
      exact ⟨fun h ↦ ⟨⟨f, hf, hid⟩, h⟩, fun h ↦ h.2⟩

theorem mem_descendants {ids : List Uuid} :
    y ∈ descendants ids s ↔ ∃ x ∈ ids, y ∈ subtree x s := by
  unfold descendants
  rw [List.mem_flatMap]

theorem queryDescendants_eq_ok {ids tree : List Uuid} (h : queryDescendants ids s = .ok tree) :
    tree = descendants ids s := by
  unfold queryDescendants at h
  split at h
  · cases h
  · exact (Except.ok.inj h).symm

end Tree

/-! ## Statements -/

/-- `idx_knowledge_folders_unique_name` -/
def nameTaken (f : Folder) (s : Shared) : Prop :=
  f.live = true ∧ f.parentFolderId.isSome = true ∧
    ∃ g ∈ s.folders, g.id ≠ f.id ∧ g.live = true ∧ g.projectId = f.projectId ∧
      g.parentFolderId = f.parentFolderId ∧ g.name = f.name

instance (f : Folder) (s : Shared) : Decidable (nameTaken f s) :=
  inferInstanceAs (Decidable (_ ∧ _ ∧ ∃ g ∈ s.folders, _))

/-- `idx_knowledge_folders_one_root` -/
def rootTaken (f : Folder) (s : Shared) : Prop :=
  f.live = true ∧ f.isRoot = true ∧
    ∃ g ∈ s.folders, g.id ≠ f.id ∧ g.live = true ∧ g.isRoot = true ∧ g.projectId = f.projectId

instance (f : Folder) (s : Shared) : Decidable (rootTaken f s) :=
  inferInstanceAs (Decidable (_ ∧ _ ∧ ∃ g ∈ s.folders, _))

def folderIndexes (f : Folder) (s : Shared) : Except Failure Unit :=
  if nameTaken f s then .error (.unique "idx_knowledge_folders_unique_name")
  else if rootTaken f s then .error (.unique "idx_knowledge_folders_one_root")
  else .ok ()

/-- `UPDATE knowledge_folders … WHERE id`, answered with whether there is such a row. -/
def updateFolder (id : Uuid) (p : Folder → Bool) (f : Folder → Folder) (hf : ∀ r, (f r).id = r.id)
    (s : Shared) : Except Failure (Bool × Shared) :=
  match (s.folders.find id).filter p with
  | none => .ok (false, s)
  | some row => do
      references? (f row).parentFolderId s.folders.find "knowledge_folders_parent_folder_id_fkey"
      folderIndexes (f row) s
      .ok (true, { s with folders := s.folders.updateWhere (fun r ↦ r.id = id) f hf })

theorem updateFolder_eq_ok {id : Uuid} {p : Folder → Bool} {f : Folder → Folder}
    {hf : ∀ r, (f r).id = r.id} {s s' : Shared} {hit : Bool}
    (h : updateFolder id p f hf s = .ok (hit, s')) :
    s' = s ∨ ∃ row ∈ s.folders, row.id = id ∧ p row = true ∧
      s' = { s with folders := s.folders.updateWhere (fun r ↦ r.id = id) f hf } := by
  unfold updateFolder at h
  split at h
  · exact .inl (congrArg Prod.snd (Except.ok.inj h)).symm
  · rename_i row hfind
    obtain ⟨hfind, hp⟩ := Option.filter_eq_some_iff.mp hfind
    obtain ⟨hrow, hid⟩ := Table.find_eq_some.mp hfind
    obtain ⟨_, -, h⟩ := except_bind_eq_ok.mp h
    obtain ⟨_, -, h⟩ := except_bind_eq_ok.mp h
    exact .inr ⟨row, hrow, hid, hp, (congrArg Prod.snd (Except.ok.inj h)).symm⟩

def insertFolder (projectId : Uuid) (parentFolderId : Option Uuid) (name : String) (uid : Uuid)
    (s : Shared) : Except Failure (Uuid × Shared) := do
  references? parentFolderId s.folders.find "knowledge_folders_parent_folder_id_fkey"
  let row : Folder :=
    ⟨s.db.uuids 0, projectId, parentFolderId, name, false, none, some uid, some uid, s.db.now, false,
      none, none⟩
  folderIndexes row s
  match s.folders.insert row with
  | none => .error (.unique "knowledge_folders_pkey")
  | some folders =>
      .ok (row.id, { s with folders := folders, db := { s.db with uuids := fun n ↦ s.db.uuids (n + 1) } })

def setParent (id parentFolderId uid : Uuid) (s : Shared) : Except Failure (Bool × Shared) :=
  updateFolder id (fun _ ↦ true) (fun f ↦
    { f with parentFolderId := some parentFolderId, updatedBy := some uid, updatedAt := s.db.now })
    (fun _ ↦ rfl) s

def reviveFolder (id projectId uid : Uuid) (s : Shared) : Except Failure (Bool × Shared) :=
  updateFolder id (fun f ↦ f.projectId = projectId) (fun f ↦
    { f with isDeleted := false, deletedAt := none, updatedBy := some uid, updatedAt := s.db.now })
    (fun _ ↦ rfl) s

/-- The folders go, whatever was their state; live documents but Zyra's memory and live files go
with them; and Zyra's memory moves to the root of its project.  No statement of the transaction
changes the tree the others walk. -/
def takeDown (tree : List Uuid) (uid : Option Uuid) (deletionReason : DeletionReason) (s : Shared) :
    Shared :=
  let now := s.db.now
  { s with
    folders := s.folders.updateWhere (fun f ↦ f.id ∈ tree)
      (fun f ↦ { f with
        isDeleted := true
        deletedAt := some now
        deletionReason := some deletionReason
        updatedAt := now
        updatedBy := uid }) fun _ ↦ rfl
    documents := (s.documents.updateWhere
      (fun d ↦ d.folderId ∈ tree ∧ d.live ∧ d.title ≠ zyraMemoryDocTitle)
      (fun d ↦ { d with
        isDeleted := true, deletedAt := some now, updatedAt := now, updatedBy := uid })
      fun _ ↦ rfl).updateWhere (fun d ↦ d.folderId ∈ tree ∧ d.title = zyraMemoryDocTitle)
      (fun d ↦ { d with
        folderId := (rootOf d.projectId s).getD d.folderId, updatedAt := now }) fun _ ↦ rfl
    files := s.files.updateWhere (fun f ↦ f.folderId ∈ tree ∧ f.live)
      (fun f ↦ { f with isDeleted := true, deletedAt := some now }) fun _ ↦ rfl }

/-- The memory of a project without a root has nowhere to go. -/
def cascadeSoftDeleteFolderTree (folderIds : List Uuid) (uid : Option Uuid)
    (deletionReason : DeletionReason) (s : Shared) : Except Failure Shared :=
  if folderIds = [] then .ok s
  else do
    let tree ← queryDescendants folderIds s
    if ∃ d ∈ s.documents, d.folderId ∈ tree ∧ d.title = zyraMemoryDocTitle ∧
        rootOf d.projectId s = none then .error (.sqlState "23502" "")
    .ok (takeDown tree uid deletionReason s)

theorem cascadeSoftDeleteFolderTree_eq_ok {folderIds : List Uuid} {uid : Option Uuid}
    {deletionReason : DeletionReason} {s s' : Shared}
    (h : cascadeSoftDeleteFolderTree folderIds uid deletionReason s = .ok s') :
    s' = s ∨ s' = takeDown (descendants folderIds s) uid deletionReason s ∧
      ∀ d ∈ s.documents, d.folderId ∈ descendants folderIds s → d.title = zyraMemoryDocTitle →
        ∃ root, rootOf d.projectId s = some root := by
  unfold cascadeSoftDeleteFolderTree at h
  split at h
  · exact .inl (Except.ok.inj h).symm
  · obtain ⟨tree, htree, h⟩ := except_bind_eq_ok.mp h
    obtain rfl := queryDescendants_eq_ok htree
    split at h
    · cases h
    · rename_i hroots
      refine .inr ⟨(Except.ok.inj h).symm, fun d hd htree htitle ↦ ?_⟩
      exact Option.ne_none_iff_exists'.mp fun hnone ↦ hroots ⟨d, hd, htree, htitle, hnone⟩

structure NewDocument where
  organizationId : Option Uuid
  projectId : Uuid
  folderId : Uuid
  title : String
  contentJson : Option String
  contentHtml : Option String
  contentText : Option String
  documentType : String
  uid : Uuid

def documentTypes : List String :=
  ["general", "requirement_note", "test_data_note", "api_note", "release_note", "ai_memory"]

def insertDocument (new : NewDocument) (s : Shared) : Except Failure (Uuid × Shared) := do
  references (s.folders.find new.folderId) "knowledge_documents_folder_id_fkey"
  if new.documentType ∉ documentTypes then .error (.check "knowledge_documents_document_type_check")
  let title ← varchar 512 new.title
  let row : Document :=
    { id := s.db.uuids 0, organizationId := new.organizationId, projectId := new.projectId,
      folderId := new.folderId, title := title, contentJson := new.contentJson,
      contentHtml := new.contentHtml, contentText := new.contentText,
      documentType := new.documentType, status := "draft", isReadOnly := false,
      sourceProvider := none, createdBy := some new.uid, updatedBy := some new.uid,
      reviewedBy := none, reviewedAt := none, updatedAt := s.db.now, isDeleted := false,
      deletedAt := none }
  match s.documents.insert row with
  | none => .error (.unique "knowledge_documents_pkey")
  | some documents =>
      .ok (row.id,
        { s with documents := documents, db := { s.db with uuids := fun n ↦ s.db.uuids (n + 1) } })

def setDocumentFolder (id folderId uid : Uuid) (s : Shared) : Except Failure Shared := do
  references (s.folders.find folderId) "knowledge_documents_folder_id_fkey"
  .ok { s with
    documents := s.documents.updateWhere (fun d ↦ d.id = id)
      (fun d ↦ { d with folderId := folderId, updatedBy := some uid, updatedAt := s.db.now })
      fun _ ↦ rfl }

def hitsDocument (id projectId : Uuid) (s : Shared) : Bool :=
  (s.documents.find id).any fun d ↦ d.projectId = projectId

def reviveDocument (id projectId uid : Uuid) (s : Shared) : Shared :=
  { s with
    documents := s.documents.updateWhere (fun d ↦ d.id = id ∧ d.projectId = projectId)
      (fun d ↦ { d with
        isDeleted := false, deletedAt := none, updatedBy := some uid, updatedAt := s.db.now })
      fun _ ↦ rfl }

/-- An object under a key with a new `randomUUID`. -/
def putObject (directory : Directory) (ext : String) (s : Shared) : StorageKey × Shared :=
  let key : StorageKey := ⟨directory, s.db.uuids 0, ext⟩
  (key, { s with
    objects := key :: s.objects, db := { s.db with uuids := fun n ↦ s.db.uuids (n + 1) } })

def removeObject (key : StorageKey) (s : Shared) : Shared :=
  { s with objects := s.objects.filter (· ≠ key) }

structure NewFile where
  organizationId : Option Uuid
  projectId : Uuid
  folderId : Uuid
  originalFileName : String
  fileExtension : String
  fileSize : ℕ
  storageKey : StorageKey
  uid : Uuid

def insertFile (new : NewFile) (s : Shared) : Except Failure (Uuid × Shared) := do
  references (s.folders.find new.folderId) "knowledge_files_folder_id_fkey"
  let originalFileName ← varchar 512 new.originalFileName
  let fileExtension ← varchar 16 new.fileExtension
  let row : File :=
    { id := s.db.uuids 0, organizationId := new.organizationId, projectId := new.projectId,
      folderId := new.folderId, originalFileName := originalFileName,
      fileExtension := fileExtension, fileSize := new.fileSize, storageKey := new.storageKey,
      uploadedBy := some new.uid, isDeleted := false, deletedAt := none, updatedAt := s.db.now }
  match s.files.insert row with
  | none => .error (.unique "knowledge_files_pkey")
  | some files =>
      .ok (row.id, { s with files := files, db := { s.db with uuids := fun n ↦ s.db.uuids (n + 1) } })

theorem insertFile_eq_ok {new : NewFile} {s s' : Shared} {id : Uuid}
    (h : insertFile new s = .ok (id, s')) : ∃ (row : File) (files : Table File.id),
      s.files.insert row = some files ∧ row.live = true ∧ row.storageKey = new.storageKey ∧
        row.organizationId = new.organizationId ∧ row.fileSize = new.fileSize ∧
        s' = { s with
          files := files, db := { s.db with uuids := fun n ↦ s.db.uuids (n + 1) } } := by
  unfold insertFile at h
  obtain ⟨_, -, h⟩ := except_bind_eq_ok.mp h
  obtain ⟨originalFileName, -, h⟩ := except_bind_eq_ok.mp h
  obtain ⟨fileExtension, -, h⟩ := except_bind_eq_ok.mp h
  dsimp only at h
  split at h
  · cases h
  · rename_i files hinsert
    exact ⟨_, files, hinsert, rfl, rfl, rfl, rfl, (congrArg Prod.snd (Except.ok.inj h)).symm⟩

def setFileFolder (id folderId : Uuid) (s : Shared) : Except Failure Shared := do
  references (s.folders.find folderId) "knowledge_files_folder_id_fkey"
  .ok { s with
    files := s.files.updateWhere (fun f ↦ f.id = id)
      (fun f ↦ { f with folderId := folderId, updatedAt := s.db.now }) fun _ ↦ rfl }

def markFileDeleted (id : Uuid) (s : Shared) : Shared :=
  { s with
    files := s.files.updateWhere (fun f ↦ f.id = id)
      (fun f ↦ { f with isDeleted := true, deletedAt := some s.db.now, updatedAt := s.db.now })
      fun _ ↦ rfl }

def hitsFile (id projectId : Uuid) (s : Shared) : Bool :=
  (s.files.find id).any fun f ↦ f.projectId = projectId

def reviveFile (id projectId : Uuid) (s : Shared) : Shared :=
  { s with
    files := s.files.updateWhere (fun f ↦ f.id = id ∧ f.projectId = projectId)
      (fun f ↦ { f with isDeleted := false, deletedAt := none, updatedAt := s.db.now }) fun _ ↦ rfl }

structure NewAttachment where
  projectId : Uuid
  entityId : Uuid
  fileName : String
  fileSize : ℕ
  storagePath : StorageKey

def insertAttachment (new : NewAttachment) (s : Shared) : Except Failure (Uuid × Shared) := do
  references (s.db.projects.find new.projectId) "attachments_project_id_fkey"
  let fileName ← varchar 255 new.fileName
  let row : Attachment :=
    ⟨s.db.uuids 0, new.projectId, new.entityId, fileName, new.fileSize, new.storagePath, none⟩
  match s.attachments.insert row with
  | none => .error (.unique "attachments_pkey")
  | some attachments =>
      .ok (row.id,
        { s with attachments := attachments, db := { s.db with uuids := fun n ↦ s.db.uuids (n + 1) } })

theorem insertAttachment_eq_ok {new : NewAttachment} {s s' : Shared} {id : Uuid}
    (h : insertAttachment new s = .ok (id, s')) :
    (∃ p ∈ s.db.projects, p.id = new.projectId) ∧
      ∃ (row : Attachment) (attachments : Table Attachment.id),
        s.attachments.insert row = some attachments ∧ row.projectId = new.projectId ∧
          row.fileSize = new.fileSize ∧ s' = { s with
            attachments := attachments, db := { s.db with uuids := fun n ↦ s.db.uuids (n + 1) } } := by
  unfold insertAttachment at h
  obtain ⟨_, hproject, h⟩ := except_bind_eq_ok.mp h
  obtain ⟨fileName, -, h⟩ := except_bind_eq_ok.mp h
  dsimp only at h
  obtain ⟨p, hfind⟩ := references_eq_ok hproject
  split at h
  · cases h
  · rename_i attachments hinsert
    refine ⟨⟨p, Table.find_eq_some.mp hfind⟩, _, attachments, hinsert, rfl, rfl, ?_⟩
    exact (congrArg Prod.snd (Except.ok.inj h)).symm

def dropAttachment (id : Uuid) (s : Shared) : Shared :=
  { s with attachments := s.attachments.deleteWhere fun a ↦ a.id = id }

def markAttachmentDeleted (id : Uuid) (s : Shared) : Shared :=
  { s with
    attachments := s.attachments.updateWhere (fun a ↦ a.id = id ∧ a.deletedAt.isNone)
      (fun a ↦ { a with deletedAt := some s.db.now }) fun _ ↦ rfl }

structure NewProject where
  organizationId : Uuid
  key : String
  uid : Uuid

/-- The project, its creator as its owner, and the root folder of its knowledge base. -/
def insertProject (new : NewProject) (s : Shared) : Except Failure (Uuid × Shared) := do
  let key ← varchar 32 new.key
  if ∃ p ∈ s.db.projects, p.organizationId = some new.organizationId ∧ p.key = key then
    .error (.unique "projects_organization_id_key_key")
  let project : Project := ⟨s.db.uuids 0, some new.organizationId, key, "", none⟩
  let root : Folder :=
    ⟨s.db.uuids 1, project.id, none, "Knowledge base", true, none, none, none, s.db.now, false, none,
      none⟩
  match s.db.projects.insert project, s.db.projectMembers.insert ⟨project.id, new.uid, "owner"⟩,
      s.folders.insert root with
  | some projects, some projectMembers, some folders =>
      .ok (project.id,
        { s with
          folders := folders
          db := { s.db with
            projects := projects
            projectMembers := projectMembers
            uuids := fun n ↦ s.db.uuids (n + 2) } })
  | none, _, _ => .error (.unique "projects_pkey")
  | some _, none, _ => .error (.unique "project_members_project_id_user_id_key")
  | some _, some _, none => .error (.unique "knowledge_folders_pkey")

theorem insertProject_eq_ok {new : NewProject} {s s' : Shared} {id : Uuid}
    (h : insertProject new s = .ok (id, s')) :
    ∃ (project : Project) (projects : Table Project.id), s.db.projects.insert project = some projects ∧
      project.organizationId = some new.organizationId ∧ s'.db.projects = projects ∧
        s'.files = s.files ∧ s'.attachments = s.attachments ∧ s'.enforced = s.enforced ∧
          s'.effectivePlan = s.effectivePlan := by
  unfold insertProject at h
  obtain ⟨key, -, h⟩ := except_bind_eq_ok.mp h
  dsimp only at h
  split at h
  · cases h
  · split at h
    · rename_i projects projectMembers folders hprojects _ _
      obtain rfl := congrArg Prod.snd (Except.ok.inj h)
      exact ⟨_, projects, hprojects, rfl, rfl, rfl, rfl, rfl, rfl⟩
    · cases h
    · cases h
    · cases h

/-! ## Plan limits -/

def kilobyte : ℕ := 1024

def storageLimitBytes : Plan → ℕ
  | .launch => 500 * kilobyte * kilobyte
  | .pro => 5 * kilobyte * kilobyte * kilobyte

/-- What the live files and the attachments of the workspace take up. -/
def storageUsedBytes (organizationId : Uuid) (s : Shared) : ℕ :=
  ((s.files.select fun f ↦ f.organizationId = some organizationId ∧ f.live).map File.fileSize).sum +
    ((s.attachments.select fun a ↦ a.deletedAt.isNone ∧
      (s.db.projects.find a.projectId).any fun p ↦ p.organizationId = some organizationId).map
        Attachment.fileSize).sum

def storageReason (supportContactEmail : String) : Plan → String
  | .launch =>
      "This upload would exceed your workspace's 500MB storage limit. Upgrade to Pro for 5GB of storage."
  | .pro =>
      "This upload would exceed your workspace's 5.0GB storage limit." ++
        s!" You're on our largest plan — contact {supportContactEmail} to add more storage."

/-- Whether `incoming` bytes fit, and what is used: `checkStorageAvailable`. -/
def checkStorageAvailable (organizationId : Uuid) (incoming : ℕ) (s : Shared) : Bool × ℕ :=
  let used := storageUsedBytes organizationId s
  (!s.enforced || used + incoming ≤ storageLimitBytes (s.effectivePlan organizationId), used)

/-- The same, an upload that does not fit being refused: the bytes in use. -/
def assertStorageAvailable (organizationId : Uuid) (incoming : ℕ) (s : Shared) :
    Except Failure ℕ :=
  match checkStorageAvailable organizationId incoming s with
  | (true, used) => .ok used
  | (false, _) =>
      .error (.forbidden (storageReason s.supportContactEmail (s.effectivePlan organizationId)))

/-- `null` is the id of no workspace: nothing is in use, and the limits are those of Launch. -/
def assertProjectStorage (organizationId : Option Uuid) (incoming : ℕ) (s : Shared) :
    Except Failure ℕ :=
  match organizationId with
  | some organizationId => assertStorageAvailable organizationId incoming s
  | none =>
      if s.enforced ∧ storageLimitBytes .launch < incoming
      then .error (.forbidden (storageReason s.supportContactEmail .launch))
      else .ok 0

end Tesbo.Knowledge
