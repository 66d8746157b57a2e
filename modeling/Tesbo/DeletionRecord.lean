import Tesbo.KnowledgeHandlers
import Tesbo.Requests
import Tesbo.Reasoning.Runs

/-!
# The record of what was deleted

A deleted folder says when it went and why, and the why decides whether it can come back.  A second
cascade over it writes both anew.
-/

namespace Tesbo.DeletionRecord

open Reasoning Service Proc Knowledge

/-! ## Calls -/

inductive TreeCall where
  | moveKnowledgeFolder (userId : Option Uuid) (projectId folderId : IdText) (body : FolderBody)
  | moveKnowledgeDocument (userId : Option Uuid) (projectId documentId : IdText)
      (folderId : Arg IdText)
  | deleteKnowledgeFolder (userId : Option Uuid) (projectId folderId : IdText)
  | restoreKnowledgeFolder (userId : Option Uuid) (projectId folderId : IdText)
  | integrationDisconnect (folderIds : List Uuid) (uid : Option Uuid)

/-- A call and when it is made. -/
structure TreeRequest where
  now : Time
  call : TreeCall

/-- The knowledge base, and the folders a disconnect has taken; no handler reads the latter. -/
structure Recorded where
  shared : Shared
  disconnected : List Uuid

def TreeCall.procedure : TreeCall → Procedure Unit
  | .moveKnowledgeFolder userId projectId folderId body =>
      Knowledge.moveKnowledgeFolder userId projectId folderId body
  | .moveKnowledgeDocument userId projectId documentId folderId =>
      Knowledge.moveKnowledgeDocument userId projectId documentId folderId
  | .deleteKnowledgeFolder userId projectId folderId =>
      Knowledge.deleteKnowledgeFolder userId projectId folderId
  | .restoreKnowledgeFolder userId projectId folderId =>
      Knowledge.restoreKnowledgeFolder userId projectId folderId
  | .integrationDisconnect folderIds uid => disconnectFolders folderIds uid

def TreeCall.leaves (s : Shared) (c : TreeCall) : Shared := after (c.procedure.run perform) s

/-- The live folders a disconnect takes. -/
def TreeCall.disconnects (s s' : Shared) : TreeCall → List Uuid
  | .integrationDisconnect _ _ =>
      (s.folders.select fun f ↦ f.live ∧ (s'.folders.find f.id).any fun f' ↦ !f'.live).map Folder.id
  | _ => []

def Recorded.at (r : Recorded) (now : Time) : Shared :=
  { r.shared with db := { r.shared.db with now := now } }

def treeStep (r : Recorded) (q : TreeRequest) : Recorded :=
  let s := r.at q.now
  let s' := q.call.leaves s
  ⟨s', r.disconnected ++ q.call.disconnects s s'⟩

/-! ## The property and its condition -/

def TreeCall.Cascades : TreeCall → Prop
  | .deleteKnowledgeFolder _ _ _ | .integrationDisconnect _ _ => True
  | .moveKnowledgeFolder _ _ _ _ | .moveKnowledgeDocument _ _ _ _
  | .restoreKnowledgeFolder _ _ _ => False

instance : ∀ c : TreeCall, Decidable c.Cascades
  | .deleteKnowledgeFolder _ _ _ | .integrationDisconnect _ _ => instDecidableTrue
  | .moveKnowledgeFolder _ _ _ _ | .moveKnowledgeDocument _ _ _ _
  | .restoreKnowledgeFolder _ _ _ => instDecidableFalse

/-- What was deleted before has been deleted when it was, and for the reason it was. -/
def RecordKept (s s' : Shared) : Prop :=
  (∀ f ∈ s.folders, f.live = false → ∃ f' ∈ s'.folders, f'.id = f.id ∧
      f'.deletedAt = f.deletedAt ∧ f'.deletionReason = f.deletionReason) ∧
    (∀ d ∈ s.documents, d.live = false → ∃ d' ∈ s'.documents, d'.id = d.id ∧
      d'.deletedAt = d.deletedAt) ∧
    ∀ f ∈ s.files, f.live = false → ∃ f' ∈ s'.files, f'.id = f.id ∧ f'.deletedAt = f.deletedAt

instance (s s' : Shared) : Decidable (RecordKept s s') := inferInstanceAs (Decidable (_ ∧ _ ∧ _))

/-- Zyra's live memory is live and in a live folder. -/
def MemoryKept (s s' : Shared) : Prop :=
  ∀ d ∈ s.documents, d.title = zyraMemoryDocTitle → d.live = true →
    ∃ d' ∈ s'.documents, d'.id = d.id ∧ d'.live = true ∧
      ∃ f ∈ s'.folders, f.id = d'.folderId ∧ f.live = true

instance (s s' : Shared) : Decidable (MemoryKept s s') :=
  inferInstanceAs (Decidable (∀ d ∈ s.documents, _ → _ → ∃ d' ∈ s'.documents, _ ∧ _ ∧ _))

def KeepsRecord (r : Recorded) (q : TreeRequest) : Prop :=
  q.call.Cascades →
    RecordKept r.shared (treeStep r q).shared ∧ MemoryKept r.shared (treeStep r q).shared

instance (r : Recorded) (q : TreeRequest) : Decidable (KeepsRecord r q) :=
  inferInstanceAs (Decidable (_ → _ ∧ _))

/-- No folder a disconnect took is live. -/
def NoneReturned (r : Recorded) : Prop :=
  ∀ id ∈ r.disconnected, ∀ f ∈ r.shared.folders, f.id = id → f.live = false

instance (r : Recorded) : Decidable (NoneReturned r) :=
  inferInstanceAs (Decidable (∀ id ∈ r.disconnected, _))

/-- The folders a disconnect has taken before. -/
def Recorded.start (s : Shared) : Recorded :=
  ⟨s, (s.folders.select fun f ↦
    !f.live && f.deletionReason = some .integrationDisconnect).map Folder.id⟩

/-- Every root is live and without parent, and Zyra's live memory is in a live folder. -/
structure Sound (s : Shared) : Prop where
  roots : ∀ f ∈ s.folders, f.isRoot = true → f.live = true ∧ f.parentFolderId = none
  memory : ∀ d ∈ s.documents, d.title = zyraMemoryDocTitle → d.live = true →
    ∃ f ∈ s.folders, f.id = d.folderId ∧ f.live = true

/-- The folders a cascade takes down are live, and no root is among them. -/
def TakesLive (ids : List Uuid) (s : Shared) : Prop :=
  ∀ f ∈ s.folders, f.id ∈ descendants ids s → f.live = true ∧ f.isRoot = false

instance (ids : List Uuid) (s : Shared) : Decidable (TakesLive ids s) :=
  inferInstanceAs (Decidable (∀ f ∈ s.folders, f.id ∈ descendants ids s → _ ∧ _))

/-- The same of the cascade a call may get to. -/
def TreeCall.TakesLive (s : Shared) : TreeCall → Prop
  | .deleteKnowledgeFolder userId projectId folderId =>
      ∀ pid ∈ projectId.uuid, CallerIn s.db userId pid → ∀ id ∈ folderId.uuid,
        ∀ f ∈ findFolder pid id s, f.isRoot = false → DeletionRecord.TakesLive [f.id] s
  | .integrationDisconnect folderIds _ => DeletionRecord.TakesLive folderIds s
  | .moveKnowledgeFolder _ _ _ _ | .moveKnowledgeDocument _ _ _ _
  | .restoreKnowledgeFolder _ _ _ => True

instance (s : Shared) : ∀ c : TreeCall, Decidable (c.TakesLive s)
  | .deleteKnowledgeFolder userId projectId folderId =>
      inferInstanceAs (Decidable (∀ pid ∈ projectId.uuid, CallerIn s.db userId pid →
        ∀ id ∈ folderId.uuid, ∀ f ∈ findFolder pid id s, f.isRoot = false →
          DeletionRecord.TakesLive [f.id] s))
  | .integrationDisconnect folderIds _ =>
      inferInstanceAs (Decidable (DeletionRecord.TakesLive folderIds s))
  | .moveKnowledgeFolder _ _ _ _ | .moveKnowledgeDocument _ _ _ _
  | .restoreKnowledgeFolder _ _ _ => instDecidableTrue

/-! ## What a call keeps -/

/-- A folder a disconnect took stays deleted, and stays marked. -/
def KeepsMarks (s s' : Shared) : Prop :=
  ∀ f ∈ s.folders, f.live = false → f.deletionReason = some .integrationDisconnect →
    ∃ f' ∈ s'.folders, f'.id = f.id ∧ f'.live = false ∧
      f'.deletionReason = some .integrationDisconnect

/-- A folder a disconnect takes is marked. -/
def Marks (s s' : Shared) : Prop :=
  ∀ f ∈ s.folders, f.live = true → ∀ f' ∈ s'.folders, f'.id = f.id → f'.live = false →
    f'.deletionReason = some .integrationDisconnect

structure Keeps (c : TreeCall) (s s' : Shared) : Prop where
  sound : Sound s'
  marked : KeepsMarks s s'
  marks : c.disconnects s s' ≠ [] → Marks s s'
  record : c.Cascades → RecordKept s s' ∧ MemoryKept s s'

section Frame

variable {s s' : Shared}

/-- Nothing happens to the folders, documents and files. -/
theorem Keeps.of_same (c : TreeCall) (h : Sound s) (hfolders : s'.folders = s.folders)
    (hdocuments : s'.documents = s.documents) (hfiles : s'.files = s.files) : Keeps c s s' where
  sound := by
    refine ⟨?_, ?_⟩
    · rw [hfolders]
      exact h.roots
    · rw [hdocuments, hfolders]
      exact h.memory
  marked := by
    intro f hf hlive hreason
    rw [hfolders]
    exact ⟨f, hf, rfl, hlive, hreason⟩
  marks := by
    intro _ f hf hlive f' hf' hid hdead
    rw [hfolders] at hf'
    rw [Table.eq_of_key hf' hf hid, hlive] at hdead
    cases hdead
  record := by
    intro _
    refine ⟨⟨fun f hf _ ↦ ⟨f, hfolders ▸ hf, rfl, rfl, rfl⟩,
      fun d hd _ ↦ ⟨d, hdocuments ▸ hd, rfl, rfl⟩, fun f hf _ ↦ ⟨f, hfiles ▸ hf, rfl, rfl⟩⟩, ?_⟩
    intro d hd htitle hlive
    obtain ⟨f, hf, hid, hflive⟩ := h.memory d hd htitle hlive
    exact ⟨d, hdocuments ▸ hd, rfl, hlive, f, hfolders ▸ hf, hid, hflive⟩

theorem Keeps.sameBase (c : TreeCall) (h : Sound s) (hs : SameBase s s') : Keeps c s s' := by
  obtain ⟨users, rfl⟩ := hs
  exact .of_same c h rfl rfl rfl

end Frame

/-! ### Moves -/

section Moves

variable {s s' : Shared}

/-- A folder that is no root gets another parent. -/
theorem Keeps.setParent {c : TreeCall} (hc : ¬ c.Cascades) (hnone : c.disconnects s s' = [])
    (h : Sound s) {f : Folder} (hf : f ∈ s.folders) (hroot : f.isRoot = false) {p : Uuid}
    {uid : Uuid} {t : Time}
    (hs : s'.folders = s.folders.updateWhere (fun r ↦ r.id = f.id)
      (fun r ↦ { r with parentFolderId := some p, updatedBy := some uid, updatedAt := t })
      fun _ ↦ rfl) (hdocuments : s'.documents = s.documents) : Keeps c s s' := by
  have hsame : ∀ r ∈ s.folders, ∃ r' ∈ s'.folders, r'.id = r.id ∧ r'.live = r.live ∧
      r'.deletionReason = r.deletionReason := by
    intro r hr
    rw [hs]
    refine Table.exists_updateWhere _ hr (fun _ ↦ ⟨rfl, rfl, rfl⟩) fun _ ↦ ⟨rfl, rfl, rfl⟩
  constructor
  · constructor
    · intro r hr hr'
      rw [hs] at hr
      rcases Table.mem_updateWhere_cases.mp hr with ⟨hr, -⟩ | ⟨r₀, hr₀, hid, rfl⟩
      · exact h.roots r hr hr'
      · rw [Table.eq_of_key hr₀ hf (of_decide_eq_true hid)] at hr'
        exact absurd hr' (by rw [hroot]; decide)
    · intro d hd htitle hlive
      rw [hdocuments] at hd
      obtain ⟨r, hr, hid, hrlive⟩ := h.memory d hd htitle hlive
      obtain ⟨r', hr', hid', hlive', -⟩ := hsame r hr
      exact ⟨r', hr', hid'.trans hid, hlive'.trans hrlive⟩
  · intro r hr hlive hreason
    obtain ⟨r', hr', hid', hlive', hreason'⟩ := hsame r hr
    exact ⟨r', hr', hid', hlive'.trans hlive, hreason'.trans hreason⟩
  · exact fun hsome ↦ absurd hnone hsome
  · exact fun hcascades ↦ absurd hcascades hc

/-- A document goes into a live folder. -/
theorem Keeps.setDocumentFolder {c : TreeCall} (hc : ¬ c.Cascades) (hnone : c.disconnects s s' = [])
    (h : Sound s) {target : Folder} (htarget : target ∈ s.folders) (hlive : target.live = true)
    {id : Uuid} {uid : Uuid} {t : Time} (hfolders : s'.folders = s.folders)
    (hs : s'.documents = s.documents.updateWhere (fun d ↦ d.id = id)
      (fun d ↦ { d with folderId := target.id, updatedBy := some uid, updatedAt := t })
      fun _ ↦ rfl) : Keeps c s s' := by
  constructor
  · constructor
    · rw [hfolders]
      exact h.roots
    · intro d hd htitle hdlive
      rw [hs] at hd
      rw [hfolders]
      rcases Table.mem_updateWhere_cases.mp hd with ⟨hd, -⟩ | ⟨d₀, -, -, rfl⟩
      · exact h.memory d hd htitle hdlive
      · exact ⟨target, htarget, rfl, hlive⟩
  · intro r hr hdead hreason
    rw [hfolders]
    exact ⟨r, hr, rfl, hdead, hreason⟩
  · exact fun hsome ↦ absurd hnone hsome
  · exact fun hcascades ↦ absurd hcascades hc

/-- A folder that no disconnect took comes back. -/
theorem Keeps.revive {c : TreeCall} (hc : ¬ c.Cascades) (hnone : c.disconnects s s' = [])
    (h : Sound s) {f : Folder} (hf : f ∈ s.folders)
    (hreason : f.deletionReason ≠ some .integrationDisconnect) {uid : Uuid} {t : Time}
    (hs : s'.folders = s.folders.updateWhere (fun r ↦ r.id = f.id)
      (fun r ↦ { r with
        isDeleted := false, deletedAt := none, updatedBy := some uid, updatedAt := t })
      fun _ ↦ rfl) (hdocuments : s'.documents = s.documents) : Keeps c s s' := by
  constructor
  · constructor
    · intro r hr hr'
      rw [hs] at hr
      rcases Table.mem_updateWhere_cases.mp hr with ⟨hr, -⟩ | ⟨r₀, hr₀, -, rfl⟩
      · exact h.roots r hr hr'
      · exact ⟨rfl, (h.roots r₀ hr₀ hr').2⟩
    · intro d hd htitle hlive
      rw [hdocuments] at hd
      obtain ⟨r, hr, hid, hrlive⟩ := h.memory d hd htitle hlive
      rw [hs]
      exact Table.exists_updateWhere _ hr (fun _ ↦ ⟨hid, hrlive⟩) fun _ ↦ ⟨hid, rfl⟩
  · intro r hr hdead hmark
    rw [hs]
    refine ⟨r, Table.mem_updateWhere_cases.mpr (.inl ⟨hr, decide_eq_false ?_⟩), rfl, hdead, hmark⟩
    intro hid
    exact hreason (Table.eq_of_key hr hf hid ▸ hmark)
  · exact fun hsome ↦ absurd hnone hsome
  · exact fun hcascades ↦ absurd hcascades hc

end Moves

/-! ### Cascades -/

section Cascade

variable {s : Shared} {tree : List Uuid} {uid : Option Uuid} {reason : DeletionReason}

theorem folders_takeDown : Table.UpdatedRows s.folders (takeDown tree uid reason s).folders
    (fun f ↦ f.id ∈ tree) fun f ↦ { f with
      isDeleted := true, deletedAt := some s.db.now, deletionReason := some reason,
      updatedAt := s.db.now, updatedBy := uid } := rfl

theorem files_takeDown : Table.UpdatedRows s.files (takeDown tree uid reason s).files
    (fun f ↦ f.folderId ∈ tree ∧ f.live)
    fun f ↦ { f with isDeleted := true, deletedAt := some s.db.now } := rfl

variable (s tree uid reason) in
/-- The documents go first, then the memory moves. -/
theorem documents_takeDown : ∃ documents : Table Document.id,
    Table.UpdatedRows s.documents documents
      (fun d ↦ d.folderId ∈ tree ∧ d.live ∧ d.title ≠ zyraMemoryDocTitle) (fun d ↦ { d with
        isDeleted := true, deletedAt := some s.db.now, updatedAt := s.db.now, updatedBy := uid }) ∧
    Table.UpdatedRows documents (takeDown tree uid reason s).documents
      (fun d ↦ d.folderId ∈ tree ∧ d.title = zyraMemoryDocTitle) (fun d ↦ { d with
        folderId := (rootOf d.projectId s).getD d.folderId, updatedAt := s.db.now }) :=
  ⟨s.documents.updateWhere (fun d ↦ d.folderId ∈ tree ∧ d.live ∧ d.title ≠ zyraMemoryDocTitle)
    (fun d ↦ { d with
      isDeleted := true, deletedAt := some s.db.now, updatedAt := s.db.now, updatedBy := uid })
    fun _ ↦ rfl, rfl, rfl⟩

/-- What becomes of a document of a tree that is taken down. -/
theorem document_takeDown {d : Document} (hd : d ∈ s.documents) {P : Document → Prop}
    (hout : d.folderId ∉ tree → P d)
    (hdead : d.folderId ∈ tree → d.live = false → d.title ≠ zyraMemoryDocTitle → P d)
    (hgone : d.folderId ∈ tree → d.live = true → d.title ≠ zyraMemoryDocTitle → P { d with
      isDeleted := true, deletedAt := some s.db.now, updatedAt := s.db.now, updatedBy := uid })
    (hmemory : d.folderId ∈ tree → d.title = zyraMemoryDocTitle → P { d with
      folderId := (rootOf d.projectId s).getD d.folderId, updatedAt := s.db.now }) :
    ∃ d' ∈ (takeDown tree uid reason s).documents, P d' := by
  obtain ⟨documents, hgo, hmove⟩ := documents_takeDown s tree uid reason
  have hfirst : ∃ e ∈ documents, (¬ (e.folderId ∈ tree ∧ e.title = zyraMemoryDocTitle) → P e) ∧
      (e.folderId ∈ tree ∧ e.title = zyraMemoryDocTitle → P { e with
        folderId := (rootOf e.projectId s).getD e.folderId, updatedAt := s.db.now }) := by
    refine hgo.exists_of_mem hd (fun hstays ↦ ⟨fun hnot ↦ ?_, fun h ↦ hmemory h.1 h.2⟩)
      fun hgoes ↦ ?_
    · by_cases htree : d.folderId ∈ tree
      · have htitle : d.title ≠ zyraMemoryDocTitle := fun htitle ↦ hnot ⟨htree, htitle⟩
        have hnotlive : ¬ d.live = true := fun hlive ↦
          of_decide_eq_false hstays ⟨htree, hlive, htitle⟩
        exact hdead htree (Bool.eq_false_iff.mpr hnotlive) htitle
      · exact hout htree
    · obtain ⟨htree, hlive, htitle⟩ := of_decide_eq_true hgoes
      exact ⟨fun _ ↦ hgone htree hlive htitle, fun h ↦ absurd h.2 htitle⟩
  obtain ⟨e, he, hstay, hgoto⟩ := hfirst
  exact hmove.exists_of_mem he (fun hp ↦ hstay (of_decide_eq_false hp))
    fun hp ↦ hgoto (of_decide_eq_true hp)

/-- A document after a tree was taken down, and the document it was. -/
theorem mem_documents_takeDown {d : Document} (hd : d ∈ (takeDown tree uid reason s).documents)
    (hlive : d.live = true) : ∃ d₀ ∈ s.documents, d₀.live = true ∧ d₀.title = d.title ∧
      (d₀.folderId ∉ tree ∧ d = d₀ ∨ d₀.folderId ∈ tree ∧ d.title = zyraMemoryDocTitle ∧
        d.folderId = (rootOf d₀.projectId s).getD d₀.folderId) := by
  obtain ⟨documents, hgo, hmove⟩ := documents_takeDown s tree uid reason
  rcases hmove.mem_iff.mp hd with ⟨he, hstays⟩ | ⟨e, he, hmoves, rfl⟩
  · rcases hgo.mem_iff.mp he with ⟨hd₀, hkeeps⟩ | ⟨d₀, -, -, rfl⟩
    · refine ⟨d, hd₀, hlive, rfl, .inl ⟨fun htree ↦ ?_, rfl⟩⟩
      have htitle : d.title ≠ zyraMemoryDocTitle := fun htitle ↦
        of_decide_eq_false hstays ⟨htree, htitle⟩
      exact of_decide_eq_false hkeeps ⟨htree, hlive, htitle⟩
    · cases hlive
  · obtain ⟨htree, htitle⟩ := of_decide_eq_true hmoves
    rcases hgo.mem_iff.mp he with ⟨hd₀, -⟩ | ⟨d₀, -, -, rfl⟩
    · exact ⟨e, hd₀, hlive, rfl, .inr ⟨htree, htitle, rfl⟩⟩
    · cases hlive

theorem folder_kept {f : Folder} (hf : f ∈ s.folders) (htree : f.id ∉ tree) :
    f ∈ (takeDown tree uid reason s).folders :=
  folders_takeDown.mem_iff.mpr (.inl ⟨hf, decide_eq_false htree⟩)

/-- A folder after a tree was taken down. -/
theorem mem_folders_takeDown {f : Folder} (hf : f ∈ (takeDown tree uid reason s).folders) :
    f ∈ s.folders ∧ f.id ∉ tree ∨ ∃ f₀ ∈ s.folders, f₀.id ∈ tree ∧ f.id = f₀.id ∧
      f.isRoot = f₀.isRoot ∧ f.deletionReason = some reason := by
  rcases folders_takeDown.mem_iff.mp hf with ⟨hf, hstays⟩ | ⟨f₀, hf₀, hgoes, rfl⟩
  · exact .inl ⟨hf, of_decide_eq_false hstays⟩
  · exact .inr ⟨f₀, hf₀, of_decide_eq_true hgoes, rfl, rfl, rfl⟩

theorem file_kept {f : File} (hf : f ∈ s.files) (hdead : f.live = false) :
    f ∈ (takeDown tree uid reason s).files := by
  refine files_takeDown.mem_iff.mpr (.inl ⟨hf, decide_eq_false fun hgoes ↦ ?_⟩)
  rw [hgoes.2] at hdead
  cases hdead

theorem rootOf_eq_some {p root : Uuid} (h : rootOf p s = some root) :
    ∃ f ∈ s.folders, f.id = root ∧ f.isRoot = true := by
  unfold rootOf at h
  obtain ⟨f, hfind, rfl⟩ := Option.map_eq_some_iff.mp h
  have hroot : f.projectId = p ∧ f.isRoot = true := by
    simpa only [decide_eq_true_eq] using List.find?_some hfind
  exact ⟨f, List.mem_of_find?_eq_some hfind, rfl, hroot.2⟩

variable {ids : List Uuid}

/-- What a folder tree of live folders takes with it. -/
theorem Keeps.takenDown {c : TreeCall} (h : Sound s) (hlive : DeletionRecord.TakesLive ids s)
    (hroots : ∀ d ∈ s.documents, d.folderId ∈ descendants ids s → d.title = zyraMemoryDocTitle →
      ∃ root, rootOf d.projectId s = some root)
    (hmark : reason = .integrationDisconnect ∨ ∀ s s', c.disconnects s s' = []) :
    Keeps c s (takeDown (descendants ids s) uid reason s) := by
  have hdead : ∀ f ∈ s.folders, f.live = false → f.id ∉ descendants ids s := by
    intro f hf hfdead htree
    rw [(hlive f hf htree).1] at hfdead
    cases hfdead
  -- no root is in the tree, so the root a memory moves to stays live
  have hroot : ∀ p root, rootOf p s = some root → ∃ f ∈ (takeDown (descendants ids s) uid reason
      s).folders, f.id = root ∧ f.live = true := by
    intro p root hp
    obtain ⟨f, hf, hid, hfroot⟩ := rootOf_eq_some hp
    refine ⟨f, folder_kept hf fun htree ↦ ?_, hid, (h.roots f hf hfroot).1⟩
    rw [(hlive f hf htree).2] at hfroot
    cases hfroot
  have hstays : ∀ d ∈ s.documents, d.title = zyraMemoryDocTitle → d.live = true →
      d.folderId ∉ descendants ids s → ∃ f ∈ (takeDown (descendants ids s) uid reason s).folders,
        f.id = d.folderId ∧ f.live = true := by
    intro d hd htitle hdlive hout
    obtain ⟨f, hf, hid, hflive⟩ := h.memory d hd htitle hdlive
    exact ⟨f, folder_kept hf (hid ▸ hout), hid, hflive⟩
  constructor
  · constructor
    · intro f hf hfroot
      rcases mem_folders_takeDown hf with ⟨hf, -⟩ | ⟨f₀, hf₀, htree, -, hsame, -⟩
      · exact h.roots f hf hfroot
      · rw [hsame, (hlive f₀ hf₀ htree).2] at hfroot
        cases hfroot
    · intro d hd htitle hdlive
      obtain ⟨d₀, hd₀, hlive₀, htitle₀, hcase⟩ := mem_documents_takeDown hd hdlive
      rcases hcase with ⟨hout, rfl⟩ | ⟨htree, -, hfolder⟩
      · exact hstays d hd₀ htitle hdlive hout
      · obtain ⟨root, hp⟩ := hroots d₀ hd₀ htree (htitle₀.trans htitle)
        rw [hfolder, hp]
        exact hroot _ root hp
  · intro f hf hfdead hreason
    exact ⟨f, folder_kept hf (hdead f hf hfdead), rfl, hfdead, hreason⟩
  · intro hsome f hf hflive f' hf' hid hfdead
    rcases mem_folders_takeDown hf' with ⟨hf', -⟩ | ⟨f₀, -, -, -, -, hreason⟩
    · rw [Table.eq_of_key hf' hf hid, hflive] at hfdead
      cases hfdead
    · rcases hmark with rfl | hnone
      · exact hreason
      · exact absurd (hnone _ _) hsome
  · intro _
    refine ⟨⟨?_, ?_, ?_⟩, ?_⟩
    · intro f hf hfdead
      exact ⟨f, folder_kept hf (hdead f hf hfdead), rfl, rfl, rfl⟩
    · intro d hd hddead
      refine document_takeDown hd (fun _ ↦ ⟨rfl, rfl⟩) (fun _ _ _ ↦ ⟨rfl, rfl⟩) ?_
        fun _ _ ↦ ⟨rfl, rfl⟩
      intro _ hdlive _
      rw [hdlive] at hddead
      cases hddead
    · intro f hf hfdead
      exact ⟨f, file_kept hf hfdead, rfl, rfl⟩
    · intro d hd htitle hdlive
      refine document_takeDown hd ?_ (fun _ _ hnot ↦ absurd htitle hnot)
        (fun _ _ hnot ↦ absurd htitle hnot) ?_
      · exact fun hout ↦ ⟨rfl, hdlive, hstays d hd htitle hdlive hout⟩
      · intro htree _
        obtain ⟨root, hp⟩ := hroots d hd htree htitle
        refine ⟨rfl, hdlive, ?_⟩
        obtain ⟨f, hf, hid, hflive⟩ := hroot _ root hp
        exact ⟨f, hf, by rw [hid, hp]; rfl, hflive⟩

theorem Keeps.cascade {c : TreeCall} (h : Sound s) (hlive : DeletionRecord.TakesLive ids s)
    (hmark : reason = .integrationDisconnect ∨ ∀ s s', c.disconnects s s' = []) {s' : Shared}
    (hs : cascadeSoftDeleteFolderTree ids uid reason s = .ok s') : Keeps c s s' := by
  rcases cascadeSoftDeleteFolderTree_eq_ok hs with rfl | ⟨rfl, hroots⟩
  · exact .of_same c h rfl rfl rfl
  · exact .takenDown h hlive hroots hmark

end Cascade

/-! ## Every call -/

section Calls

open Service

variable {s : Shared}

/-- What is kept whatever the call answers. -/
def KeptBy (c : TreeCall) (s : Shared) : Prop :=
  wp (c.procedure.run perform) (fun _ s' ↦ Keeps c s s') (fun _ s' ↦ Keeps c s s') s

theorem keeps_moveKnowledgeFolder (h : Sound s) (userId : Option Uuid) (projectId folderId : IdText)
    (body : FolderBody) : KeptBy (.moveKnowledgeFolder userId projectId folderId body) s := by
  unfold KeptBy TreeCall.procedure Knowledge.moveKnowledgeFolder kbFolder kbProjectRole
    kbRequireMutateAccess
  refine wp_run_member_seq (fun _ _ hs ↦ .sameBase _ h hs) fun uid project users _ _ _ ↦ ?_
  have hsame : Keeps (.moveKnowledgeFolder userId projectId folderId body) s
      { s with db := { s.db with users := users } } := .sameBase _ h ⟨users, rfl⟩
  refine wp_run_lookUp_seq (fun _ ↦ hsame) fun i folder _ hfolder ↦ ?_
  refine wp_run_require_seq hsame fun hroot ↦ wp_run_query_seq (wp_run_require_seq hsame fun _ ↦ ?_)
  refine wp_run_ofExcept_seq (fun _ ↦ hsame) fun _ _ ↦ ?_
  refine wp_run_lookUp_seq (fun _ ↦ hsame) fun j target _ _ ↦ ?_
  refine wp_run_check_seq (fun _ ↦ hsame) fun below _ ↦ wp_run_require_seq hsame fun _ ↦ ?_
  refine wp_run_seq (P := fun _ s' ↦ Keeps (.moveKnowledgeFolder userId projectId folderId body) s s')
    (wp_run_issue ?_) ?_
  · refine (wp_savepoint _).mpr (wp_returning.mpr ⟨fun hit s' hs ↦ ?_, fun _ _ ↦ hsame⟩)
    rcases updateFolder_eq_ok hs with rfl | ⟨row, hrow, hid, -, rfl⟩
    · exact hsame
    · exact .setParent (fun hc ↦ hc) rfl h (findFolder_eq_some.mp hfolder).1 hroot rfl rfl
  · exact fun moved s' hs ↦ wp_run_ofExcept_seq (fun _ ↦ hs) fun _ _ ↦ (wp_pure ()).mpr hs

theorem keeps_moveKnowledgeDocument (h : Sound s) (userId : Option Uuid)
    (projectId documentId : IdText) (folderId : Arg IdText) :
    KeptBy (.moveKnowledgeDocument userId projectId documentId folderId) s := by
  unfold KeptBy TreeCall.procedure Knowledge.moveKnowledgeDocument kbDocument kbProjectRole
    kbRequireMutateAccess
  refine wp_run_member_seq (fun _ _ hs ↦ .sameBase _ h hs) fun uid project users _ _ _ ↦ ?_
  have hsame : Keeps (.moveKnowledgeDocument userId projectId documentId folderId) s
      { s with db := { s.db with users := users } } := .sameBase _ h ⟨users, rfl⟩
  refine wp_run_lookUp_seq (fun _ ↦ hsame) fun i doc _ _ ↦ ?_
  refine wp_run_query_seq (wp_run_require_seq hsame fun _ ↦ ?_)
  refine wp_run_requiredFolder_seq (fun _ ↦ hsame) fun i target htarget ↦ ?_
  obtain ⟨htarget, -, -, hlive⟩ := findFolder_eq_some.mp htarget
  refine wp_run_issue (wp_exec.mpr ⟨fun s' hs ↦ ?_, fun _ _ ↦ hsame⟩)
  obtain ⟨_, -, hs⟩ := except_bind_eq_ok.mp hs
  obtain rfl := Except.ok.inj hs
  exact .setDocumentFolder (fun hc ↦ hc) rfl h htarget hlive rfl rfl

theorem keeps_deleteKnowledgeFolder (h : Sound s) (userId : Option Uuid)
    (projectId folderId : IdText)
    (hlive : (TreeCall.deleteKnowledgeFolder userId projectId folderId).TakesLive s) :
    KeptBy (.deleteKnowledgeFolder userId projectId folderId) s := by
  unfold KeptBy TreeCall.procedure Knowledge.deleteKnowledgeFolder kbFolder kbProjectRole
    kbRequireMutateAccess
  refine wp_run_member_seq (fun _ _ hs ↦ .sameBase _ h hs) fun uid project users huid hpid hm ↦ ?_
  have hsame : Keeps (.deleteKnowledgeFolder userId projectId folderId) s
      { s with db := { s.db with users := users } } := .sameBase _ h ⟨users, rfl⟩
  refine wp_run_lookUp_seq (fun _ ↦ hsame) fun i folder hi hfolder ↦ ?_
  refine wp_run_require_seq hsame fun hroot ↦ wp_run_query_seq (wp_run_require_seq hsame fun _ ↦ ?_)
  refine wp_run_check_seq (fun _ ↦ hsame) fun keys _ ↦ ?_
  refine wp_run_seq (P := fun _ s' ↦ Keeps (.deleteKnowledgeFolder userId projectId folderId) s s')
    (wp_run_issue (wp_exec.mpr ⟨fun s' hs ↦ ?_, fun _ _ ↦ hsame⟩)) ?_
  · have htree := hlive project.id hpid ⟨uid, huid, hm⟩ i hi folder hfolder hroot
    have hsound : Sound { s with db := { s.db with users := users } } := ⟨h.roots, h.memory⟩
    have hkeeps : Keeps (.deleteKnowledgeFolder userId projectId folderId)
        { s with db := { s.db with users := users } } s' :=
      Keeps.cascade hsound htree (.inr fun _ _ ↦ rfl) hs
    exact ⟨hkeeps.sound, hkeeps.marked, hkeeps.marks, hkeeps.record⟩
  · intro _ s' hs
    refine wp_mono (run_purge_spec keys) ?_ fun _ _ hf ↦ hf
    rintro _ _ ⟨objects, rfl⟩
    exact ⟨⟨hs.sound.roots, hs.sound.memory⟩, hs.marked, hs.marks, hs.record⟩

theorem keeps_restoreKnowledgeFolder (h : Sound s) (userId : Option Uuid)
    (projectId folderId : IdText) : KeptBy (.restoreKnowledgeFolder userId projectId folderId) s := by
  unfold KeptBy TreeCall.procedure Knowledge.restoreKnowledgeFolder kbProjectRole
    kbRequireOwnerOrManager
  refine wp_run_member_seq (fun _ _ hs ↦ .sameBase _ h hs) fun uid project users _ _ _ ↦ ?_
  have hsame : Keeps (.restoreKnowledgeFolder userId projectId folderId) s
      { s with db := { s.db with users := users } } := .sameBase _ h ⟨users, rfl⟩
  refine wp_run_query_seq (wp_run_require_seq hsame fun _ ↦ ?_)
  refine wp_run_lookUp_seq (fun _ ↦ hsame) fun i existing _ hexisting ↦ ?_
  refine wp_run_require_seq hsame fun hreason ↦ ?_
  refine wp_run_seq (P := fun _ s' ↦ Keeps (.restoreKnowledgeFolder userId projectId folderId) s s')
    (wp_run_issue (wp_returning.mpr ⟨fun hit s' hs ↦ ?_, fun _ _ ↦ hsame⟩)) ?_
  · rcases updateFolder_eq_ok hs with rfl | ⟨row, hrow, hid, -, rfl⟩
    · exact hsame
    · have hmem := (Table.find_eq_some.mp (Option.filter_eq_some_iff.mp hexisting).1).1
      exact .revive (fun hc ↦ hc) rfl h hmem hreason rfl rfl
  · exact fun hit s' hs ↦ wp_run_require (fun _ ↦ hs) fun _ ↦ hs

theorem keeps_integrationDisconnect (h : Sound s) (folderIds : List Uuid) (uid : Option Uuid)
    (hlive : DeletionRecord.TakesLive folderIds s) :
    KeptBy (.integrationDisconnect folderIds uid) s := by
  unfold KeptBy TreeCall.procedure disconnectFolders
  refine wp_run_issue (wp_exec.mpr ⟨fun s' hs ↦ ?_, fun _ _ ↦ .of_same _ h rfl rfl rfl⟩)
  exact .cascade h hlive (.inl rfl) hs

theorem keeps_call (h : Sound s) (c : TreeCall) (hlive : c.TakesLive s) : KeptBy c s := by
  cases c with
  | moveKnowledgeFolder userId projectId folderId body =>
      exact keeps_moveKnowledgeFolder h userId projectId folderId body
  | moveKnowledgeDocument userId projectId documentId folderId =>
      exact keeps_moveKnowledgeDocument h userId projectId documentId folderId
  | deleteKnowledgeFolder userId projectId folderId =>
      exact keeps_deleteKnowledgeFolder h userId projectId folderId hlive
  | restoreKnowledgeFolder userId projectId folderId =>
      exact keeps_restoreKnowledgeFolder h userId projectId folderId
  | integrationDisconnect folderIds uid => exact keeps_integrationDisconnect h folderIds uid hlive

end Calls

/-! ## Runs -/

/-- What a disconnect took is still deleted, and still marked. -/
structure Recorded.Inv (r : Recorded) : Prop where
  sound : Sound r.shared
  marked : ∀ id ∈ r.disconnected, ∃ f ∈ r.shared.folders, f.id = id ∧ f.live = false ∧
    f.deletionReason = some .integrationDisconnect

section Runs

variable {s : Shared} {r : Recorded} {q : TreeRequest}

theorem Recorded.Inv.start (h : Sound s) : (Recorded.start s).Inv := by
  refine ⟨h, fun id hid ↦ ?_⟩
  obtain ⟨f, hf, rfl⟩ := List.mem_map.mp hid
  obtain ⟨hf, hmark⟩ := Table.mem_select.mp hf
  rw [Bool.and_eq_true, Bool.not_eq_true', decide_eq_true_eq] at hmark
  exact ⟨f, hf, rfl, hmark⟩

theorem Recorded.Inv.noneReturned (h : r.Inv) : NoneReturned r := by
  intro id hid f hf hfid
  obtain ⟨f', hf', hid', hdead, -⟩ := h.marked id hid
  rw [Table.eq_of_key hf hf' (hfid.trans hid'.symm)]
  exact hdead

/-- A folder that a call adds to those a disconnect took. -/
theorem mem_disconnects {c : TreeCall} {s s' : Shared} {id : Uuid} (h : id ∈ c.disconnects s s') :
    ∃ f ∈ s.folders, f.id = id ∧ f.live = true ∧ ∃ f' ∈ s'.folders, f'.id = id ∧ f'.live = false := by
  cases c with
  | integrationDisconnect folderIds uid =>
      obtain ⟨f, hf, rfl⟩ := List.mem_map.mp h
      obtain ⟨hf, hgone⟩ := Table.mem_select.mp hf
      obtain ⟨hlive, hgone⟩ := of_decide_eq_true hgone
      obtain ⟨f', hfind, hdead⟩ := (Option.any_eq_true _ _).mp hgone
      obtain ⟨hf', hid⟩ := Table.find_eq_some.mp hfind
      exact ⟨f, hf, rfl, hlive, f', hf', hid, (Bool.not_eq_true' _).mp hdead⟩
  | moveKnowledgeFolder _ _ _ _ => cases h
  | moveKnowledgeDocument _ _ _ _ => cases h
  | deleteKnowledgeFolder _ _ _ => cases h
  | restoreKnowledgeFolder _ _ _ => cases h

theorem inv_treeStep (h : r.Inv) (hlive : q.call.TakesLive (r.at q.now)) :
    (treeStep r q).Inv ∧ KeepsRecord r q := by
  have hsound : Sound (r.at q.now) := ⟨h.sound.roots, h.sound.memory⟩
  have hkeeps : Keeps q.call (r.at q.now) (q.call.leaves (r.at q.now)) :=
    after_of_wp (keeps_call hsound q.call hlive)
  refine ⟨⟨hkeeps.sound, fun id hid ↦ ?_⟩, hkeeps.record⟩
  rcases List.mem_append.mp hid with hold | hnew
  · obtain ⟨f, hf, rfl, hdead, hreason⟩ := h.marked id hold
    exact hkeeps.marked f hf hdead hreason
  · obtain ⟨f, hf, hfid, hflive, f', hf', hid', hdead⟩ := mem_disconnects hnew
    have hsome : q.call.disconnects (r.at q.now) (q.call.leaves (r.at q.now)) ≠ [] :=
      List.ne_nil_of_mem hnew
    exact ⟨f', hf', hid', hdead, hkeeps.marks hsome f hf hflive f' hf' (hid'.trans hfid.symm) hdead⟩

/-- Where every cascade of a run comes upon live folders only, it keeps the record of what was
deleted before, and what a disconnect took never comes back. -/
theorem keepsRecord_along (h : Sound s) {requests : List TreeRequest}
    (hlive : Along treeStep (fun r q ↦ q.call.TakesLive (r.at q.now)) (.start s) requests) :
    Along treeStep KeepsRecord (.start s) requests ∧
      Always treeStep NoneReturned (.start s) requests := by
  obtain ⟨halways, halong⟩ := Along.invariant (I := Recorded.Inv)
    (fun r q hr hq ↦ inv_treeStep hr hq) (.start h) hlive
  exact ⟨halong, halways.mono fun r hr ↦ hr.noneReturned⟩

end Runs

/-! ## A folder of Jira is moved -/

/-- A project with its root, a folder of Jira with a document, and a folder of its own. -/
def board : Shared where
  db := { Db.empty with
    uuids := fun n ↦ 1000 + n
    users := .singleton ⟨1, "ann@one.test", some 10⟩
    organizations := .singleton ⟨10, 0⟩
    organizationMembers := .singleton ⟨10, 1, "owner"⟩
    projects := .singleton ⟨100, some 10, "ONE", "", none⟩
    projectMembers := .singleton ⟨100, 1, "owner"⟩ }
  folders := ⟨[⟨200, 100, none, "Knowledge base", true, none, none, none, 0, false, none, none⟩,
    ⟨201, 100, some 200, "Jira", false, some "jira", some 1, some 1, 0, false, none, none⟩,
    ⟨202, 100, some 200, "Notes", false, none, some 1, some 1, 0, false, none, none⟩], by decide⟩
  documents := .empty
  files := .empty
  attachments := .empty
  objects := []
  enforced := false
  effectivePlan _ := .launch
  supportContactEmail := "support@tesbo.io"

def movesJira : TreeRequest :=
  ⟨1, .moveKnowledgeFolder (some 1) (.canonical 100) (.canonical 201)
    ⟨.undefined, .value (.canonical 202)⟩⟩

def disconnectsJira : TreeRequest := ⟨2, .integrationDisconnect [201] (some 1)⟩

def deletesNotes : TreeRequest :=
  ⟨3, .deleteKnowledgeFolder (some 1) (.canonical 100) (.canonical 202)⟩

def restoresJira : TreeRequest :=
  ⟨4, .restoreKnowledgeFolder (some 1) (.canonical 100) (.canonical 201)⟩

theorem sound_board : Sound board := ⟨by decide, by decide⟩

/-- The delete above the folder takes its mark away, and then it comes back. -/
theorem not_keepsRecord_moved : ¬ (Along treeStep KeepsRecord (.start board)
      [movesJira, disconnectsJira, deletesNotes, restoresJira] ∧
    Always treeStep NoneReturned (.start board)
      [movesJira, disconnectsJira, deletesNotes, restoresJira]) := by
  decide +kernel

theorem keepsRecord_along_board : Along treeStep KeepsRecord (.start board)
      [disconnectsJira, deletesNotes, restoresJira] ∧
    Always treeStep NoneReturned (.start board) [disconnectsJira, deletesNotes, restoresJira] :=
  keepsRecord_along sound_board (by decide +kernel)

end Tesbo.DeletionRecord
