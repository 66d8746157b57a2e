import Tesbo.KnowledgeHandlers
import Tesbo.Reasoning.Phases

/-!
# Findings approved into the knowledge base

What is approved of the findings of a NYRA project is written into one document of the knowledge
base, by the same calls a person edits documents with.  An approval holds a lock all the while; its
statements are made on other connections.  Which findings there are, and how they are rendered, is
the caller's; versions of a document, its embedding, the table of the approvals, the activity log
and notifications are left out.
-/

namespace Tesbo.Nyra

open Reasoning
open Knowledge (zyraMemoryDocTitle kbDocumentTitleMaxLength assertKnowledgeDocumentPayloadSize
  providerFolderName)

/-! ## Rows -/

inductive Column where
  | title
  | json
  | html
  | text
deriving DecidableEq, Repr

def columns : List Column := [.title, .json, .html, .text]

/-- A `JSONB` column holds the canonical text of a value other than `null`. -/
structure Content where
  title : String
  contentJson : Option String
  contentHtml : Option String
  contentText : Option String
deriving DecidableEq, Repr

def Content.differs (content content' : Content) : Column → Bool
  | .title => content.title ≠ content'.title
  | .json => content.contentJson ≠ content'.contentJson
  | .html => content.contentHtml ≠ content'.contentHtml
  | .text => content.contentText ≠ content'.contentText

/-- A row of `knowledge_documents`.  `product` says that an approval made it, `changed` which columns
a person has changed since an approval last wrote it; nothing reads these two. -/
structure Document where
  content : Content
  folderId : ℕ
  documentType : String
  status : String
  isReadOnly : Bool
  sourceProvider : Option String
  createdBy : ℕ
  isDeleted : Bool
  product : Bool
  changed : List Column
deriving DecidableEq, Repr

/-- The row of `nyra_kb_documents` whose kind is `product`. -/
structure KbDocument where
  documentId : ℕ
  contentHash : Option String
deriving DecidableEq, Repr

/-- How far the approval that holds the lock has come; nothing reads it. -/
inductive Stage where
  | locked
  /-- The document has been edited, and the caller has not said to replace the edits. -/
  | refusing (documentId : ℕ)
  | checked (documentId : ℕ) (replaceEdits : Bool)
  | found (documentId : ℕ) (replaceEdits : Bool)
  /-- There is no document to update. -/
  | missing
  /-- The document is inserted, and not published. -/
  | created (documentId : ℕ)
  | wrote (documentId : ℕ)
  | readBack (documentId : ℕ) (contentText : Option String)
  | recorded
deriving DecidableEq, Repr

/-- An update of a document by an approval: what a person had changed, and what it overwrote. -/
structure Overwrite where
  replaceEdits : Bool
  changed : List Column
  before : Content
  after : Content
deriving DecidableEq, Repr

/-- The documents, the folder the product's is put into, the row that says which one it is, and the
lock.  `answers` says which of the coming statements go through; `overwrites`, and `refused` with what
a person had changed at each answer `kb_document_edited`, are kept for the record. -/
structure Data where
  documents : ℕ → Option Document
  nextId : ℕ
  folder : Option ℕ
  kb : Option KbDocument
  lock : Option Stage
  answers : ℕ → Bool
  overwrites : List Overwrite
  refused : List (List Column)

/-! ## Statements -/

/-- Whose update of a document it is. -/
inductive Author where
  | person
  | approval (replaceEdits : Bool)
deriving DecidableEq, Repr

def Author.locked : Author → Bool
  | .person => false
  | .approval _ => true

/-- The values of an update; a type that is absent stays as it is. -/
structure Update where
  content : Content
  documentType : Option String
  status : String
deriving DecidableEq, Repr

inductive Write where
  /-- A statement of which only matters whether it goes through, and whether under the lock. -/
  | reach (locked : Bool)
  | lock
  | readWritten (replaceEdits : Bool)
  /-- The answer `kb_document_edited`. -/
  | refuse (documentId : ℕ)
  | findFolder
  | insertFolder
  | readFolder (folderId : ℕ)
  | readDocument (author : Author) (documentId : ℕ)
  | updateDocument (author : Author) (documentId : ℕ) (update : Update)
  | insertDocument (content : Content) (folderId : ℕ) (createdBy : ℕ)
  | deleteDocument (documentId : ℕ)
  | restoreDocument (documentId : ℕ)
  | readStored (documentId : ℕ)
  | record (documentId : ℕ) (contentHash : String)
  /-- `COMMIT`, or `ROLLBACK`. -/
  | unlock

structure Written where
  documentId : ℕ
  live : Bool
  edited : Bool

/-- What a statement returns when it goes through. -/
@[reducible] def Value : Write → Type
  | .lock | .restoreDocument _ | .readFolder _ => Bool
  | .readWritten _ => Option Written
  | .findFolder | .insertFolder => Option ℕ
  | .readDocument _ _ => Option Document
  | .insertDocument _ _ _ => ℕ
  | .readStored _ => Option String
  | .reach _ | .refuse _ | .updateDocument _ _ _ | .deleteDocument _ | .record _ _ | .unlock => Unit

@[reducible] def Reply (w : Write) : Type := Except Failure (Value w)

/-- Where a statement that goes through takes the approval that makes it. -/
def Stage.next : Stage → (w : Write) → Value w → Stage
  | .locked, .readWritten _, none => .missing
  | .locked, .readWritten replaceEdits, some written =>
      if written.edited ∧ replaceEdits = false then .refusing written.documentId
      else .checked written.documentId replaceEdits
  | .checked _ _, .readDocument (.approval _) _, none => .missing
  | .checked documentId replaceEdits, .readDocument (.approval _) _, some _ =>
      .found documentId replaceEdits
  | .found documentId _, .updateDocument (.approval _) _ _, _ => .wrote documentId
  | .missing, .insertDocument _ _ _, documentId => .created documentId
  | .created documentId, .updateDocument (.approval _) _ _, _ => .wrote documentId
  | .wrote documentId, .readStored _, contentText => .readBack documentId contentText
  | .readBack _ _, .record _ _, _ => .recorded
  | stage, _, _ => stage

def lockAfter (lock : Option Stage) : (w : Write) → Value w → Option Stage
  | .lock, true => lock.or (some .locked)
  | .unlock, _ => none
  | w, value => lock.map fun stage ↦ stage.next w value

namespace Data

def next (s : Data) : Data := { s with answers := fun n ↦ s.answers (n + 1) }

def setDocument (documentId : ℕ) (f : Document → Document) (s : Data) : Data :=
  { s with documents := Function.update s.documents documentId ((s.documents documentId).map f) }

end Data

/-- The columns a person's update changes are kept; an approval's starts anew. -/
def Document.updated (author : Author) (update : Update) (d : Document) : Document :=
  { d with
    content := update.content
    documentType := update.documentType.getD d.documentType
    status := update.status
    changed := match author with
      | .person => d.changed ++ columns.filter (d.content.differs update.content)
      | .approval _ => [] }

def updateDocument (author : Author) (documentId : ℕ) (update : Update) (s : Data) : Data :=
  match s.documents documentId with
  | none => s
  | some d =>
      { s.setDocument documentId (Document.updated author update) with
        overwrites := match author with
          | .person => s.overwrites
          | .approval replaceEdits =>
              ⟨replaceEdits, d.changed, d.content, update.content⟩ :: s.overwrites }

def insertDocument (content : Content) (folderId createdBy : ℕ) (s : Data) : Data :=
  { s with
    documents := Function.update s.documents s.nextId (some
      ⟨content, folderId, "general", "draft", false, none, createdBy, false, true, []⟩)
    nextId := s.nextId + 1 }

/-- A live document of the project. -/
def findDocument (documentId : ℕ) (s : Data) : Option Document :=
  (s.documents documentId).filter fun d ↦ d.isDeleted = false

section Statements

variable [Sha256]

/-- The product's document, and whether its text is another than the one that was last written. -/
def writtenDocument (s : Data) : Option Written :=
  s.kb.map fun row ↦
    let live := (findDocument row.documentId s).isSome
    let contentText := (s.documents row.documentId).bind fun d ↦ d.content.contentText
    ⟨row.documentId, live, live ∧ row.contentHash.getD "" ≠ "" ∧
      some (Sha256.hex (contentText.getD "")) ≠ row.contentHash⟩

/-- What a statement returns, and the state it leaves but for the lock. -/
def effect : (w : Write) → Data → Value w × Data
  | .reach _ => fun s ↦ ((), s)
  | .lock => fun s ↦ (s.lock.isNone, s)
  | .readWritten _ => fun s ↦ (writtenDocument s, s)
  | .refuse documentId => fun s ↦
      ((), { s with refused := ((s.documents documentId).elim [] Document.changed) :: s.refused })
  | .findFolder => fun s ↦ (s.folder, s)
  -- without a name that is taken
  | .insertFolder => fun s ↦
      if s.folder.isSome then (none, s)
      else (some s.nextId, { s with folder := some s.nextId, nextId := s.nextId + 1 })
  | .readFolder folderId => fun s ↦ (s.folder = some folderId, s)
  | .readDocument _ documentId => fun s ↦ (findDocument documentId s, s)
  | .updateDocument author documentId update => fun s ↦
      ((), updateDocument author documentId update s)
  | .insertDocument content folderId createdBy => fun s ↦
      (s.nextId, insertDocument content folderId createdBy s)
  | .deleteDocument documentId => fun s ↦
      ((), s.setDocument documentId fun d ↦ { d with isDeleted := true })
  | .restoreDocument documentId => fun s ↦
      ((s.documents documentId).isSome, s.setDocument documentId fun d ↦
        { d with isDeleted := false })
  | .readStored documentId => fun s ↦
      ((s.documents documentId).bind fun d ↦ d.content.contentText, s)
  | .record documentId contentHash => fun s ↦
      ((), { s with kb := some ⟨documentId, some contentHash⟩ })
  | .unlock => fun s ↦ ((), s)

def act (w : Write) (s : Data) : Value w × Data :=
  ((effect w s).1, { (effect w s).2 with lock := lockAfter s.lock w (effect w s).1 })

/-- A failure leaves everything as it is; but the end of a transaction frees its lock all the same. -/
def skip : Write → Data → Data
  | .unlock, s => { s with lock := none }
  | _, s => s

def unreachable : Failure := .sqlState "08006" ""

/-- An answer to the caller is no statement. -/
def goesThrough (w : Write) (s : Data) : Bool :=
  match w with
  | .refuse _ => true
  | _ => s.answers 0

def perform (w : Write) : Service Failure Data (Reply w) :=
  Service.perhaps (goesThrough w) unreachable (fun s ↦ act w s.next) fun s ↦ skip w s.next

end Statements

abbrev Procedure (α : Type) := Proc Data Reply Failure α

open Proc

abbrev ask (w : Write) : Procedure (Reply w) := issue w

/-- A statement whose failure is the caller's. -/
def must (w : Write) : Procedure (Value w) := do
  let answer ← ask w
  match answer with
  | .ok value => pure value
  | .error _ => fail unreachable

/-! ## Calls of the knowledge base -/

/-- Someone with a role in the project. -/
structure Member where
  userId : ℕ
  role : Role
deriving DecidableEq, Repr

/-- What is sent to change; `contentJson`, where it is not absent, by its canonical text, and a title
as `String` gives it.  `payloadBytes` is what the three contents take up. -/
structure Body where
  title : Option String
  contentJson : Option (Option String)
  contentHtml : Option (Option String)
  contentText : Option (Option String)
  documentType : Option String
  status : Option String
  payloadBytes : ℕ
deriving DecidableEq, Repr

def kbDocument (author : Author) (documentId : ℕ) : Procedure Document := do
  let found ← must (.readDocument author documentId)
  match found with
  | none => fail (.notFound "Document not found")
  | some doc => pure doc

def kbRequireMutateAccess (caller : Member) (ownerId : ℕ) : Except Failure Unit :=
  if caller.role = .owner ∨ caller.role = .manager ∨ ownerId = caller.userId then .ok ()
  else .error (.forbidden "You can only modify items you created")

def kbRequireOwnerOrManager (role : Role) : Except Failure Unit :=
  if role = .owner ∨ role = .manager then .ok ()
  else .error (.forbidden "Only owners and managers can perform this action")

def isZyraMemoryDocument (content : Content) : Bool := jsTrim content.title = zyraMemoryDocTitle

/-- Whether one of the keys that are Zyra's own to change is sent. -/
def Body.touchesMemory (body : Body) : Bool :=
  body.contentJson.isSome || body.contentHtml.isSome || body.contentText.isSome ||
    body.documentType.isSome || body.status.isSome

def contentChanged (content next : Content) : Bool :=
  next.title ≠ content.title || next.contentHtml ≠ content.contentHtml ||
    next.contentText ≠ content.contentText

/-- Of what is stored, a value that is falsy is dropped. -/
def keptJson (contentJson : Option String) : Option String :=
  contentJson.filter fun text ↦ text ∉ ["false", "0", "\"\""]

/-- The content an update leaves of the one that was read. -/
def Body.over (content : Content) (body : Body) : Content where
  title := (body.title.map jsTrim).getD content.title
  contentJson := body.contentJson.getD (keptJson content.contentJson)
  contentHtml := body.contentHtml.getD content.contentHtml
  contentText := body.contentText.getD content.contentText

def nextStatus (doc : Document) (body : Body) : String :=
  if doc.documentType = "ai_memory" then
    if doc.status = "approved" ∧ contentChanged doc.content (body.over doc.content) then "draft"
    else doc.status
  else body.status.getD doc.status

def readOnlyError (doc : Document) : Failure :=
  let provider := (providerFolderName (doc.sourceProvider.getD "")).getD "an integration"
  .badRequest s!"\"{doc.content.title}\" is synced from {provider} and its body can't be edited because the next sync would overwrite your changes. Add a comment on the document instead."

/-- What is checked of an update, in the order of the checks, and what it will write. -/
def nextColumns (doc : Document) (body : Body) : Except Failure Update :=
  let next := body.over doc.content
  let zyra := isZyraMemoryDocument doc.content
  if doc.isReadOnly then .error (readOnlyError doc)
  else if zyra ∧ next.title ≠ doc.content.title then .error (.badRequest
    "\"Zyra AI Memory\" is managed by Zyra and can't be renamed — Zyra finds its memory by this title.")
  else if zyra ∧ body.touchesMemory then .error (.badRequest
    "\"Zyra AI Memory\" is managed by Zyra and can't be edited directly — Zyra reads it as context for every response. A project owner or manager can correct or remove individual entries instead.")
  else if ¬ zyra ∧ next.title = zyraMemoryDocTitle ∧ next.title ≠ doc.content.title then
    .error (.badRequest
      "\"Zyra AI Memory\" is reserved for Zyra's own memory document — choose a different title.")
  else if next.title = "" ∧ jsTrim (next.contentText.getD "") = "" then .error (.badRequest
    "A document needs a title or some content — it can't be saved blank.")
  else if kbDocumentTitleMaxLength < jsLength next.title then
    .error (.badRequest s!"Title must be at most {kbDocumentTitleMaxLength} characters")
  else do
    assertKnowledgeDocumentPayloadSize body.payloadBytes
    .ok ⟨next, body.documentType.filter (· ≠ ""), nextStatus doc body⟩

/-- The latest version is read, and one is added or its difference told anew. -/
def snapshot (author : Author) : Procedure Unit := do
  must (.reach author.locked)
  must (.reach author.locked)

def updateKnowledgeDocument (author : Author) (caller : Member) (documentId : ℕ) (body : Body) :
    Procedure Unit := do
  let doc ← kbDocument author documentId
  must (.reach author.locked)
  ofExcept (kbRequireMutateAccess caller doc.createdBy)
  let update ← ofExcept (nextColumns doc body)
  if contentChanged doc.content update.content then snapshot author else pure ()
  must (.updateDocument author documentId update)

def deleteKnowledgeDocument (caller : Member) (documentId : ℕ) : Procedure Unit := do
  let doc ← kbDocument .person documentId
  must (.reach false)
  ofExcept (kbRequireMutateAccess caller doc.createdBy)
  require (isZyraMemoryDocument doc.content = false) (.badRequest
    "\"Zyra AI Memory\" is managed by Zyra and can't be deleted — it holds everything Zyra has learned about this project. A project owner or manager can remove individual entries from it instead.")
  must (.deleteDocument documentId)

def restoreKnowledgeDocument (caller : Member) (documentId : ℕ) : Procedure Unit := do
  must (.reach false)
  ofExcept (kbRequireOwnerOrManager caller.role)
  let hit ← must (.restoreDocument documentId)
  require (hit = true) (.notFound "Document not found")

/-! ## Approving -/

/-- What is approved of the findings: how many, whether some are of the kinds a document can be made
of, and the document. -/
structure Product where
  itemCount : ℕ
  hasStory : Bool
  title : String
  contentText : String
  contentHtml : String
  payloadBytes : ℕ
deriving DecidableEq, Repr

/-- The rows of an insertion, or why there is none. -/
def newContent (product : Product) : Except Failure Content :=
  let title := jsTrim product.title
  if title = "" then .error (.badRequest "Document title is required")
  else if title = zyraMemoryDocTitle then .error (.badRequest
    "\"Zyra AI Memory\" is reserved for Zyra's own memory document — choose a different title.")
  else if kbDocumentTitleMaxLength < jsLength title then
    .error (.badRequest s!"Title must be at most {kbDocumentTitleMaxLength} characters")
  else do
    assertKnowledgeDocumentPayloadSize product.payloadBytes
    .ok ⟨title, none, (some product.contentHtml).filter (· ≠ ""),
      (some product.contentText).filter (· ≠ "")⟩

def createKnowledgeDocument (caller : Member) (folderId : ℕ) (product : Product) :
    Procedure ℕ := do
  let content ← ofExcept (newContent product)
  let hit ← must (.readFolder folderId)
  require (hit = true) (.notFound "Folder not found")
  must (.insertDocument content folderId caller.userId)

def createKnowledgeFolder : Procedure ℕ := do
  must (.reach true)
  let inserted ← must .insertFolder
  match inserted with
  | none => fail (.badRequest "A folder with this name already exists here")
  | some folderId => pure folderId

def folder : Procedure ℕ := do
  let found ← must .findFolder
  match found with
  | some folderId => pure folderId
  | none => do
      let created ← createKnowledgeFolder.attempt
      match created with
      | .ok folderId => pure folderId
      | .error e => do
          let again ← must .findFolder
          match again with
          | some folderId => pure folderId
          | none => fail e

def isNotFound : Failure → Bool
  | .notFound _ => true
  | _ => false

/-- The document, when it could be updated. -/
def updateExisting (replaceEdits : Bool) (caller : Member) (product : Product) :
    Option ℕ → Procedure (Option ℕ)
  | none => pure none
  | some documentId => do
      let outcome ← (updateKnowledgeDocument (.approval replaceEdits) caller documentId
        ⟨some product.title, some none, some (some product.contentHtml),
          some (some product.contentText), none, none, product.payloadBytes⟩).attempt
      match outcome with
      | .ok _ => pure (some documentId)
      | .error e => if isNotFound e then pure none else fail e

def published : Body := ⟨none, none, none, none, none, some "published", 0⟩

/-- A document that is made for the product. -/
def createPublished (replaceEdits : Bool) (caller : Member) (folderId : ℕ) (product : Product) :
    Procedure ℕ := do
  let documentId ← createKnowledgeDocument caller folderId product
  updateKnowledgeDocument (.approval replaceEdits) caller documentId published
  pure documentId

def writeDocument [Sha256] (replaceEdits : Bool) (caller : Member) (folderId : ℕ)
    (existingId : Option ℕ) (product : Product) : Procedure ℕ := do
  let updated ← updateExisting replaceEdits caller product existingId
  let documentId ← match updated with
    | some documentId => pure documentId
    | none => createPublished replaceEdits caller folderId product
  let stored ← must (.readStored documentId)
  must (.record documentId (Sha256.hex (stored.getD "")))
  pure documentId

structure Approved where
  documentId : ℕ
  title : String
  itemCount : ℕ
deriving DecidableEq, Repr

def kbDocumentEdited : Failure := .conflict
  "The Knowledge Base document was edited after it was last approved. Approving again replaces those edits."

/-- What is done under the lock. -/
def approveLocked [Sha256] (caller : Member) (replaceEdits : Bool) (product : Product) :
    Procedure Approved := do
  must (.reach true)
  require (product.hasStory = true) (.badRequest
    "Mark at least one screen, feature, workflow or business rule Correct before approving.")
  let written ← must (.readWritten replaceEdits)
  match written.filter fun written ↦ written.edited ∧ replaceEdits = false with
  | some written => do
      let _ ← ask (.refuse written.documentId)
      fail kbDocumentEdited
  | none => do
      let folderId ← folder
      let documentId ← writeDocument replaceEdits caller folderId
        (written.map Written.documentId) product
      -- the approval of the scan is stored, and read with the documents it has led to
      must (.reach true)
      must (.reach true)
      must (.reach true)
      pure ⟨documentId, product.title, product.itemCount⟩

/-- The lock is waited for; after so many looks at it the statement is given up. -/
def acquire : ℕ → Procedure Unit
  | 0 => fail (.sqlState "55P03" "")
  | looks + 1 => do
      let taken ← must .lock
      if taken then pure () else acquire looks

/-- `scan` is the status NYRA has of the scan, when it has the scan. -/
def finished (scan : Option String) : Except Failure Unit :=
  match scan with
  | none => .error (.notFound "Run not found")
  | some status =>
      if status = "queued" ∨ status = "running" then
        .error (.conflict "Approve findings once the scan has finished.")
      else .ok ()

def approve [Sha256] (caller : Member) (looks : ℕ) (scan : Option String) (replaceEdits : Bool)
    (product : Product) : Procedure Approved := do
  must (.reach false)
  require (caller.role ≠ .qaEngineer) (.forbidden
    "Only project owners and managers can approve findings into the Knowledge Base.")
  ofExcept (finished scan)
  acquire looks
  let outcome ← (approveLocked caller replaceEdits product).attempt
  let ended ← ask .unlock
  match outcome with
  | .error e => fail e
  | .ok approved => do
      ofExcept ended
      pure approved

end Tesbo.Nyra
