import Tesbo.Uploads

/-!
# Plan limits under load

What a plan limits is counted in one statement and added to in a later one.  `seen` is what the call
counted, with what it has added itself since.
-/

namespace Tesbo.PlanLimits

open Reasoning Proc Knowledge

/-! ## Calls -/

inductive Call where
  | createProject (userId : Option Uuid) (body : ProjectBody)
  | uploadKnowledgeFiles (userId : Option Uuid) (projectId : IdText) (folderId : Arg IdText)
      (files : List Upload)
  | uploadBugAttachments (userId : Option Uuid) (projectId bugId : IdText) (files : List Upload)
  | uploadExecutionAttachments (userId : Option Uuid) (cycleId executionId : IdText)
      (files : List Upload)
  | uploadEvidence (userId : Option Uuid) (projectId runId : IdText)
      (caseId : Except Failure String) (valid : Except Failure Unit) (files : List Upload)
  | createBugComment (userId : Option Uuid) (projectId bugId : IdText)
      (checked : Except Failure Unit) (saved : Except Failure Uuid) (files : List Upload)
  | updateBugComment (userId : Option Uuid) (projectId bugId : IdText)
      (comment : Except Failure Uuid) (removeIds : List IdText) (files : List Upload)
  | elapse (time : Time)

abbrev Run := Config Shared (Procedure Unit)

section Machine

variable [Unicode]

def enter : Call → Procedure Unit
  | .createProject userId body => do
      let _ ← Knowledge.createProject userId body
      pure ()
  | .uploadKnowledgeFiles userId projectId folderId files =>
      Knowledge.uploadKnowledgeFiles userId projectId folderId files
  | .uploadBugAttachments userId projectId bugId files =>
      Knowledge.uploadBugAttachments userId projectId bugId files
  | .uploadExecutionAttachments userId cycleId executionId files =>
      Knowledge.uploadExecutionAttachments userId cycleId executionId files
  | .uploadEvidence userId projectId runId caseId valid files =>
      Knowledge.uploadEvidence userId projectId runId caseId valid files
  | .createBugComment userId projectId bugId checked saved files =>
      Knowledge.createBugComment userId projectId bugId checked saved files
  | .updateBugComment userId projectId bugId comment removeIds files =>
      Knowledge.updateBugComment userId projectId bugId comment removeIds files
  | .elapse time => ask (.elapse time)

def step (c : Run) (m : Move Call) : Run := c.move enter (fun _ ↦ Proc.exec perform) m

end Machine

/-! ## The property and its condition -/

/-- The workspace has no more projects and stores no more bytes than its plan allows. -/
def Within (organizationId : Uuid) (s : Shared) : Prop :=
  (∀ limit ∈ projectLimit (s.effectivePlan organizationId), projectCount organizationId s ≤ limit) ∧
    storageUsedBytes organizationId s ≤ storageLimitBytes (s.effectivePlan organizationId)

instance (organizationId : Uuid) (s : Shared) : Decidable (Within organizationId s) :=
  inferInstanceAs (Decidable (_ ∧ _))

def ProjectIn (organizationId projectId : Uuid) (s : Shared) : Prop :=
  ∃ p ∈ s.db.projects, p.id = projectId ∧ p.organizationId = some organizationId

instance (organizationId projectId : Uuid) (s : Shared) :
    Decidable (ProjectIn organizationId projectId s) :=
  inferInstanceAs (Decidable (∃ p ∈ s.db.projects, _))

/-- What an insert adds to, the workspace has no more of than its call has seen. -/
def Unovertaken (organizationId : Uuid) (s : Shared) : Write → Prop
  | .insertProject seen new =>
      new.organizationId = organizationId → projectCount organizationId s ≤ seen
  | .insertFile seen new =>
      new.organizationId = some organizationId → storageUsedBytes organizationId s ≤ seen
  | .insertAttachment seen new =>
      ProjectIn organizationId new.projectId s → storageUsedBytes organizationId s ≤ seen
  | _ => True

instance (organizationId : Uuid) (s : Shared) : ∀ w, Decidable (Unovertaken organizationId s w)
  | .insertProject _ _ => inferInstanceAs (Decidable (_ → _ ≤ _))
  | .insertFile _ _ => inferInstanceAs (Decidable (_ → _ ≤ _))
  | .insertAttachment _ _ => inferInstanceAs (Decidable (_ → _ ≤ _))
  | .setActiveOrganization .. | .insertFolder .. | .setParent .. | .cascadeSoftDelete ..
  | .reviveFolder .. | .insertDocument _ | .setDocumentFolder .. | .reviveDocument ..
  | .putObject .. | .removeObject _ | .dropAttachment _ | .markAttachmentDeleted _
  | .setFileFolder .. | .markFileDeleted _ | .reviveFile .. | .elapse _ => instDecidableTrue

/-- Every attachment is one of a project there is. -/
def Attached (s : Shared) : Prop := ∀ a ∈ s.attachments, ∃ p ∈ s.db.projects, p.id = a.projectId

instance (s : Shared) : Decidable (Attached s) :=
  inferInstanceAs (Decidable (∀ a ∈ s.attachments, ∃ p ∈ s.db.projects, _))

/-! ## What the calls ask for -/

/-- What a plan allows does not change, and no project changes or goes. -/
structure Fixed (s s' : Shared) : Prop where
  enforced : s'.enforced = s.enforced
  plan : s'.effectivePlan = s.effectivePlan
  projects : ∀ p ∈ s.db.projects, p ∈ s'.db.projects

theorem Fixed.refl (s : Shared) : Fixed s s := ⟨rfl, rfl, fun _ hp ↦ hp⟩

theorem Fixed.trans (a b c : Shared) (h : Fixed a b) (h' : Fixed b c) : Fixed a c :=
  ⟨h'.enforced.trans h.enforced, h'.plan.trans h.plan, fun p hp ↦ h'.projects p (h.projects p hp)⟩

/-- `size` more bytes fit into what a workspace may store beside the `seen` ones. -/
def Fits (organizationId : Option Uuid) (seen size : ℕ) (s : Shared) : Prop :=
  s.enforced = true → ∀ id ∈ organizationId, seen + size ≤ storageLimitBytes (s.effectivePlan id)

/-- One more project is allowed beside the `seen` ones. -/
def Allows (organizationId : Uuid) (seen : ℕ) (s : Shared) : Prop :=
  s.enforced = true → ∀ limit ∈ projectLimit (s.effectivePlan organizationId), seen < limit

theorem Fits.later {organizationId : Option Uuid} {seen size : ℕ} {s s' : Shared}
    (h : Fits organizationId seen size s) (hs : Fixed s s') : Fits organizationId seen size s' := by
  intro henforced id hid
  rw [hs.plan]
  exact h (hs.enforced ▸ henforced) id hid

theorem Allows.later {organizationId : Uuid} {seen : ℕ} {s s' : Shared}
    (h : Allows organizationId seen s) (hs : Fixed s s') : Allows organizationId seen s' := by
  intro henforced limit hlimit
  rw [hs.plan] at hlimit
  exact h (hs.enforced ▸ henforced) limit hlimit

/-- What is inserted fits beside what the call has seen. -/
def Legal (s : Shared) : Write → Prop
  | .setActiveOrganization _ _ | .putObject _ _ | .removeObject _ | .dropAttachment _
  | .markAttachmentDeleted _ | .elapse _ => True
  | .insertProject seen new => Allows new.organizationId seen s
  | .insertFile seen new => Fits new.organizationId seen new.fileSize s
  | .insertAttachment seen new =>
      ∀ p ∈ s.db.projects, p.id = new.projectId → Fits p.organizationId seen new.fileSize s
  | _ => False

section Checks

variable {s : Shared} {seen : ℕ}

theorem fits_of_assertProjectStorage {organizationId : Option Uuid} {incoming : ℕ}
    (h : assertProjectStorage organizationId incoming s = .ok seen) :
    Fits organizationId seen incoming s := by
  intro henforced id hid
  obtain rfl := Option.mem_def.mp hid
  unfold assertProjectStorage assertStorageAvailable checkStorageAvailable at h
  simp only [henforced, Bool.not_true, Bool.false_or] at h
  split at h
  · rename_i used hroom
    obtain ⟨hfits, rfl⟩ := Prod.mk.inj hroom
    obtain rfl := Except.ok.inj h
    exact of_decide_eq_true hfits
  · cases h

theorem allows_of_assertCanCreateProject {organizationId : Uuid}
    (h : assertCanCreateProject organizationId s = .ok seen) : Allows organizationId seen s := by
  intro henforced limit hlimit
  unfold assertCanCreateProject at h
  simp only [henforced, if_true] at h
  rw [Option.mem_def.mp hlimit] at h
  dsimp only at h
  split at h
  · cases h
  · rename_i hroom
    obtain rfl := Except.ok.inj h
    exact Nat.lt_of_not_le hroom

end Checks

section Calls

variable {s : Shared}

/-- The calls have no phases. -/
abbrev turn : Unit → (w : Write) → Reply w → Unit := fun _ _ _ ↦ ()

abbrev Keeps {α : Type} (s : Shared) (p : Procedure α) : Prop :=
  Follows turn Fixed (fun _ ↦ Legal) (fun _ _ _ ↦ True) () s p

theorem repair_legal (s : Shared) (uid organizationId : Uuid) :
    Legal s (.setActiveOrganization uid organizationId) ∧
      ∀ r, turn () (.setActiveOrganization uid organizationId) r = () := ⟨trivial, fun _ ↦ rfl⟩

/-- A write that is always allowed, then the rest. -/
theorem keeps_issue_seq {α : Type} {w : Write} {f : Reply w → Procedure α}
    (hw : ∀ s, Legal s w) (hf : ∀ r s', Fixed s s' → Keeps s' (f r)) :
    Keeps s (ask w >>= f) := follows_issue_seq (fun s' _ ↦ hw s') hf

theorem keeps_storeKnowledgeFiles {uid : Uuid} {project : Project} {folderId : Uuid}
    {files : List Upload} {seen : ℕ} (hfits : Fits project.organizationId seen (totalSize files) s) :
    Keeps s (storeKnowledgeFiles uid project folderId seen files) := by
  induction files generalizing s seen with
  | nil => exact follows_pure fun _ _ ↦ trivial
  | cons file files ih =>
      have hsize : totalSize (file :: files) = file.size + totalSize files := List.sum_cons
      unfold storeKnowledgeFiles
      refine follows_query_seq fun s₁ h₁ ↦ keeps_issue_seq (fun _ ↦ trivial) fun key s₂ h₂ ↦ ?_
      refine follows_issue_seq (fun s₃ h₃ henforced id hid ↦ ?_) fun _ s₃ h₃ ↦ ih ?_
      · have hroom := ((hfits.later h₁).later h₂).later h₃ henforced id hid
        dsimp only
        omega
      · intro henforced id hid
        have hroom := ((hfits.later h₁).later h₂).later h₃ henforced id hid
        omega

/-- The row of a project that was there is there, and is the only one of its id. -/
theorem Fits.ofRow {projectId : Uuid} {project : Project} {seen size : ℕ}
    (hfits : Fits project.organizationId seen size s) (hrow : project ∈ s.db.projects)
    (hid : project.id = projectId) :
    ∀ p ∈ s.db.projects, p.id = projectId → Fits p.organizationId seen size s := by
  intro p hp hpid
  rw [Table.eq_of_key hp hrow (hpid.trans hid.symm)]
  exact hfits

theorem keeps_storeAttachments {project : Project} {entityId : Uuid} {directory : Directory}
    {files : List Upload} {seen : ℕ} (hrow : project ∈ s.db.projects)
    (hfits : Fits project.organizationId seen (totalSize files) s) :
    Keeps s (storeAttachments project.id entityId directory seen files) := by
  induction files generalizing s seen with
  | nil => exact follows_pure fun _ _ ↦ trivial
  | cons file files ih =>
      have hsize : totalSize (file :: files) = file.size + totalSize files := List.sum_cons
      unfold storeAttachments
      refine keeps_issue_seq (fun _ ↦ trivial) fun key s₁ h₁ ↦ ?_
      refine follows_issue_seq (fun s₂ h₂ ↦ ?_) fun inserted s₂ h₂ ↦ ?_
      · refine Fits.ofRow ?_ (h₂.projects _ (h₁.projects _ hrow)) rfl
        intro henforced id hid
        have hroom := (hfits.later h₁).later h₂ henforced id hid
        dsimp only [attachmentOf]
        omega
      · refine follows_ofExcept_seq fun _ _ ↦ ih (h₂.projects _ (h₁.projects _ hrow)) ?_
        intro henforced id hid
        have hroom := (hfits.later h₁).later h₂ henforced id hid
        omega

theorem keeps_unstore {stored : List (StorageKey × Option Uuid)} : Keeps s (unstore stored) := by
  induction stored generalizing s with
  | nil => exact follows_pure fun _ _ ↦ trivial
  | cons entry stored ih =>
      obtain ⟨key, id⟩ := entry
      unfold unstore
      refine keeps_issue_seq (fun _ ↦ trivial) fun _ s₁ _ ↦ ?_
      cases id with
      | some id => exact keeps_issue_seq (fun _ ↦ trivial) fun _ s₂ _ ↦ ih
      | none => exact ih

theorem keeps_storeBugCommentFiles {project : Project} {bugId commentId : Uuid}
    {stored : List (StorageKey × Option Uuid)} {files : List Upload} {seen : ℕ}
    (hrow : project ∈ s.db.projects)
    (hfits : Fits project.organizationId seen (totalSize files) s) :
    Keeps s (storeBugCommentFiles project.id bugId commentId seen stored files) := by
  induction files generalizing s seen stored with
  | nil => exact follows_pure fun _ _ ↦ trivial
  | cons file files ih =>
      have hsize : totalSize (file :: files) = file.size + totalSize files := List.sum_cons
      unfold storeBugCommentFiles
      refine keeps_issue_seq (fun _ ↦ trivial) fun key s₁ h₁ ↦ ?_
      refine follows_issue_seq (fun s₂ h₂ ↦ ?_) fun inserted s₂ h₂ ↦ ?_
      · refine Fits.ofRow ?_ (h₂.projects _ (h₁.projects _ hrow)) rfl
        intro henforced id hid
        have hroom := (hfits.later h₁).later h₂ henforced id hid
        dsimp only [attachmentOf]
        omega
      · cases inserted with
        | ok id =>
            refine ih (h₂.projects _ (h₁.projects _ hrow)) ?_
            intro henforced id hid
            have hroom := (hfits.later h₁).later h₂ henforced id hid
            omega
        | error e =>
            exact follows_seq .refl .trans keeps_unstore fun _ _ _ _ _ ↦ follows_fail

theorem keeps_uploadKnowledgeFiles {userId : Option Uuid} {projectId : IdText}
    {folderId : Arg IdText} {files : List Upload} :
    Keeps s (Knowledge.uploadKnowledgeFiles userId projectId folderId files) := by
  unfold Knowledge.uploadKnowledgeFiles
  refine follows_member_seq .refl .trans repair_legal fun uid project _ s₁ _ _ _ _ _ ↦ ?_
  refine follows_requiredFolder_seq .refl .trans fun folder s₂ _ ↦ follows_require_seq fun _ ↦ ?_
  refine follows_check_seq fun s₃ _ seen hseen ↦ follows_ofExcept_seq fun _ _ ↦ ?_
  exact keeps_storeKnowledgeFiles (fits_of_assertProjectStorage hseen)

theorem follows_bugInProject_seq {projectId : Uuid} {bugId : IdText} {f : Uuid → Procedure Unit}
    (hf : ∀ id s', Fixed s s' → Keeps s' (f id)) : Keeps s (bugInProject projectId bugId >>= f) := by
  have hbug : Keeps s (bugInProject projectId bugId) := by
    unfold bugInProject
    refine follows_require_seq fun _ ↦ follows_ofExcept_seq fun id _ ↦ ?_
    exact follows_check fun _ _ _ _ _ _ ↦ trivial
  exact follows_seq .refl .trans hbug fun id _ s' hs _ ↦ hf id s' hs

theorem keeps_uploadBugAttachments {userId : Option Uuid} {projectId bugId : IdText}
    {files : List Upload} : Keeps s (Knowledge.uploadBugAttachments userId projectId bugId files) := by
  unfold Knowledge.uploadBugAttachments
  refine follows_member_seq .refl .trans repair_legal fun uid project _ s₁ _ _ _ hrow h₁ ↦ ?_
  refine follows_require_seq fun _ ↦ follows_bugInProject_seq fun bugId s₂ h₂ ↦ ?_
  refine follows_query_seq fun s₃ h₃ ↦ follows_require_seq fun _ ↦ follows_ofExcept_seq fun _ _ ↦ ?_
  refine follows_check_seq fun s₄ h₄ seen hseen ↦ ?_
  have hlater := ((h₁.trans _ _ _ h₂).trans _ _ _ h₃).trans _ _ _ h₄
  exact keeps_storeAttachments (hlater.projects _ hrow) (fits_of_assertProjectStorage hseen)

theorem keeps_uploadExecutionAttachments {userId : Option Uuid} {cycleId executionId : IdText}
    {files : List Upload} :
    Keeps s (Knowledge.uploadExecutionAttachments userId cycleId executionId files) := by
  unfold Knowledge.uploadExecutionAttachments Steps.requireUser
  refine follows_ofExcept_seq fun uid _ ↦ follows_require_seq fun _ ↦ ?_
  have howner : Follows turn Fixed (fun _ ↦ Legal)
      (fun (r : Uuid × Project) _ s' ↦ r.2 ∈ s'.db.projects) () s
      (executionOwner cycleId executionId) := by
    unfold executionOwner
    refine follows_require_seq fun _ ↦ follows_ofExcept_seq fun cycleId _ ↦ ?_
    refine follows_ofExcept_seq fun id _ ↦ follows_check_seq fun s₁ _ project hproject ↦ ?_
    have hrow := mem_of_projectOfExecution (eq_some_of_found hproject)
    exact follows_pure fun s₂ h₂ ↦ h₂.projects project hrow
  refine follows_seq .refl .trans howner ?_
  rintro ⟨executionId, project⟩ _ s₁ _ hrow
  refine follows_member_seq .refl .trans repair_legal fun uid _ _ s₂ h₂ _ _ _ _ ↦ ?_
  refine follows_ofExcept_seq fun _ _ ↦ follows_check_seq fun s₃ h₃ seen hseen ↦ ?_
  have hlater := h₂.trans _ _ _ h₃
  exact keeps_storeAttachments (hlater.projects _ hrow) (fits_of_assertProjectStorage hseen)

theorem keeps_uploadEvidence [Unicode] {userId : Option Uuid} {projectId runId : IdText}
    {caseId : Except Failure String} {valid : Except Failure Unit} {files : List Upload} :
    Keeps s (Knowledge.uploadEvidence userId projectId runId caseId valid files) := by
  unfold Knowledge.uploadEvidence
  refine follows_member_seq .refl .trans repair_legal fun uid project _ s₁ _ _ _ hrow h₁ ↦ ?_
  refine follows_require_seq fun _ ↦ follows_ofExcept_seq fun runId _ ↦ ?_
  refine follows_check_seq fun s₂ h₂ _ _ ↦ follows_require_seq fun _ ↦ ?_
  refine follows_ofExcept_seq fun caseId _ ↦ follows_check_seq fun s₃ h₃ executionId _ ↦ ?_
  refine follows_ofExcept_seq fun _ _ ↦ follows_query_seq fun s₄ h₄ ↦ ?_
  have hlater := ((h₁.trans _ _ _ h₂).trans _ _ _ h₃).trans _ _ _ h₄
  cases hroom : assertProjectStorage project.organizationId (totalSize files) s₄ with
  | error e => exact follows_pure fun _ _ ↦ trivial
  | ok seen =>
      exact keeps_storeAttachments (hlater.projects _ hrow) (fits_of_assertProjectStorage hroom)

/-- A comment without files has nothing to fit. -/
theorem follows_assertBugCommentFiles_seq {project : Project} {files : List Upload} {existing : ℕ}
    {f : ℕ → Procedure Unit}
    (hf : ∀ seen s', Fixed s s' → (files = [] ∨ Fits project.organizationId seen (totalSize files) s') →
      Keeps s' (f seen)) : Keeps s (assertBugCommentFiles project files existing >>= f) := by
  have hfiles : Follows turn Fixed (fun _ ↦ Legal) (fun seen _ s' ↦ files = [] ∨
      Fits project.organizationId seen (totalSize files) s') () s
      (assertBugCommentFiles project files existing) := by
    unfold assertBugCommentFiles
    refine follows_require_seq fun _ ↦ ?_
    split
    · rename_i hnone
      exact follows_pure fun _ _ ↦ .inl hnone
    · refine follows_ofExcept_seq fun _ _ ↦ follows_check fun s₁ _ seen hseen s₂ h₂ ↦ .inr ?_
      exact (fits_of_assertProjectStorage hseen).later h₂
  exact follows_seq .refl .trans hfiles fun seen _ s' hs hseen ↦ hf seen s' hs hseen

theorem keeps_commentFiles {project : Project} {bugId commentId : Uuid} {files : List Upload}
    {seen : ℕ} (hrow : project ∈ s.db.projects)
    (hfits : files = [] ∨ Fits project.organizationId seen (totalSize files) s) :
    Keeps s (storeBugCommentFiles project.id bugId commentId seen [] files) := by
  rcases hfits with rfl | hfits
  · exact follows_pure fun _ _ ↦ trivial
  · exact keeps_storeBugCommentFiles hrow hfits

theorem keeps_createBugComment {userId : Option Uuid} {projectId bugId : IdText}
    {checked : Except Failure Unit} {saved : Except Failure Uuid} {files : List Upload} :
    Keeps s (Knowledge.createBugComment userId projectId bugId checked saved files) := by
  unfold Knowledge.createBugComment
  refine follows_member_seq .refl .trans repair_legal fun uid project _ s₁ _ _ _ hrow h₁ ↦ ?_
  refine follows_bugInProject_seq fun bugId s₂ h₂ ↦ follows_ofExcept_seq fun _ _ ↦ ?_
  refine follows_assertBugCommentFiles_seq fun seen s₃ h₃ hfits ↦ ?_
  refine follows_ofExcept_seq fun commentId _ ↦ ?_
  have hlater := (h₁.trans _ _ _ h₂).trans _ _ _ h₃
  exact keeps_commentFiles (hlater.projects _ hrow) hfits

theorem keeps_removeBugCommentFiles {files : List Attachment} :
    Keeps s (removeBugCommentFiles files) := by
  induction files generalizing s with
  | nil => exact follows_pure fun _ _ ↦ trivial
  | cons file files ih =>
      unfold removeBugCommentFiles
      refine keeps_issue_seq (fun _ ↦ trivial) fun _ s₁ _ ↦ ?_
      exact keeps_issue_seq (fun _ ↦ trivial) fun _ s₂ _ ↦ ih

theorem keeps_updateBugComment {userId : Option Uuid} {projectId bugId : IdText}
    {comment : Except Failure Uuid} {removeIds : List IdText} {files : List Upload} :
    Keeps s (Knowledge.updateBugComment userId projectId bugId comment removeIds files) := by
  unfold Knowledge.updateBugComment
  refine follows_member_seq .refl .trans repair_legal fun uid project _ s₁ _ _ _ hrow h₁ ↦ ?_
  refine follows_bugInProject_seq fun bugId s₂ h₂ ↦ follows_ofExcept_seq fun commentId _ ↦ ?_
  refine follows_query_seq fun s₃ h₃ ↦ follows_require_seq fun _ ↦ ?_
  refine follows_assertBugCommentFiles_seq fun seen s₄ h₄ hfits ↦ ?_
  have hlater := ((h₁.trans _ _ _ h₂).trans _ _ _ h₃).trans _ _ _ h₄
  refine follows_seq .refl .trans (keeps_commentFiles (hlater.projects _ hrow) hfits) ?_
  exact fun _ _ s₅ _ _ ↦ keeps_removeBugCommentFiles

theorem keeps_insertProjectWithUniqueKey {organizationId uid : Uuid} {base : String}
    {tails : ℕ → String} {seen attempts : ℕ} (hroom : Allows organizationId seen s) :
    Keeps s (insertProjectWithUniqueKey organizationId uid base tails seen attempts) := by
  induction attempts generalizing s with
  | zero => exact follows_fail
  | succ attempts ih =>
      unfold insertProjectWithUniqueKey
      refine follows_query_seq fun s₁ h₁ ↦ ?_
      refine follows_issue_seq (fun s₂ h₂ ↦ (hroom.later h₁).later h₂) fun inserted s₂ h₂ ↦ ?_
      cases inserted with
      | ok id => exact follows_pure fun _ _ ↦ trivial
      | error e =>
          dsimp only
          split
          · exact ih ((hroom.later h₁).later h₂)
          · exact follows_fail

theorem keeps_createProject [Unicode] {userId : Option Uuid} {body : ProjectBody} :
    Keeps s (Knowledge.createProject userId body) := by
  unfold Knowledge.createProject Steps.requireUser
  refine follows_ofExcept_seq fun uid _ ↦ follows_ofExcept_seq fun _ _ ↦ ?_
  refine follows_ofExcept_seq fun _ _ ↦ follows_ofExcept_seq fun _ _ ↦ ?_
  have hasks : Asks Fixed Legal (fun _ _ ↦ True) s
      (Steps.workspace (some uid) : Procedure Workspace) :=
    Steps.asks_workspace fun _ _ _ ↦ trivial
  have hworkspace : Follows turn Fixed (fun _ ↦ Legal) (fun _ t' _ ↦ t' = () ∧ True) () s
      (Steps.workspace (some uid) : Procedure Workspace) :=
    hasks.follows fun _ _ h ↦ ⟨h, fun _ ↦ rfl⟩
  refine follows_seq .refl .trans hworkspace fun workspace _ s₁ _ _ ↦ follows_require_seq fun _ ↦ ?_
  refine follows_check_seq fun s₂ _ seen hseen ↦ ?_
  exact keeps_insertProjectWithUniqueKey (allows_of_assertCanCreateProject hseen)

theorem keeps_enter [Unicode] (call : Call) : Keeps s (enter call) := by
  cases call with
  | createProject userId body =>
      exact follows_seq .refl .trans keeps_createProject fun _ _ _ _ _ ↦ follows_pure fun _ _ ↦ trivial
  | uploadKnowledgeFiles userId projectId folderId files => exact keeps_uploadKnowledgeFiles
  | uploadBugAttachments userId projectId bugId files => exact keeps_uploadBugAttachments
  | uploadExecutionAttachments userId cycleId executionId files =>
      exact keeps_uploadExecutionAttachments
  | uploadEvidence userId projectId runId caseId valid files => exact keeps_uploadEvidence
  | createBugComment userId projectId bugId checked saved files => exact keeps_createBugComment
  | updateBugComment userId projectId bugId comment removeIds files => exact keeps_updateBugComment
  | elapse time =>
      exact follows_issue (w := Write.elapse time) Fixed.trans (fun _ _ ↦ trivial)
        fun _ _ _ ↦ trivial

end Calls

/-! ## What each write leaves -/

section Writes

variable {organizationId : Uuid} {s s' : Shared}

/-- Whether the attachment is one of the workspace that counts. -/
def Counts (organizationId : Uuid) (s : Shared) (a : Attachment) : Bool :=
  a.deletedAt.isNone ∧ (s.db.projects.find a.projectId).any fun p ↦
    p.organizationId = some organizationId

/-- A write that inserts nothing that counts leaves no more than there was. -/
structure NoMore (organizationId : Uuid) (s s' : Shared) : Prop where
  projects : s'.db.projects = s.db.projects
  files : s'.files = s.files
  attachments : ((s'.attachments.select (Counts organizationId s)).map Attachment.fileSize).sum ≤
    ((s.attachments.select (Counts organizationId s)).map Attachment.fileSize).sum

theorem storageUsedBytes_eq : storageUsedBytes organizationId s =
    ((s.files.select fun f ↦ f.organizationId = some organizationId ∧ f.live).map
      File.fileSize).sum +
      ((s.attachments.select (Counts organizationId s)).map Attachment.fileSize).sum := rfl

theorem NoMore.within (h : NoMore organizationId s s') (hplan : s'.effectivePlan = s.effectivePlan)
    (hw : Within organizationId s) : Within organizationId s' := by
  have hcounts : Counts organizationId s' = Counts organizationId s := by
    unfold Counts
    rw [h.projects]
  refine ⟨?_, ?_⟩
  · intro limit hlimit
    unfold projectCount
    rw [h.projects]
    rw [hplan] at hlimit
    exact hw.1 limit hlimit
  · have hused := hw.2
    have hless := h.attachments
    rw [storageUsedBytes_eq] at hused ⊢
    rw [hcounts, h.files, hplan]
    omega

/-- What is kept by every write the calls can ask for. -/
structure Kept (organizationId : Uuid) (s s' : Shared) : Prop where
  fixed : Fixed s s'
  within : Within organizationId s'
  attached : Attached s'

theorem Kept.same (hw : Within organizationId s) (ha : Attached s) : Kept organizationId s s :=
  ⟨.refl s, hw, ha⟩

/-- A file that fits beside what the call has seen, where that is all there is. -/
theorem kept_insertFile (henforced : s.enforced = true) (hw : Within organizationId s)
    (ha : Attached s) {seen : ℕ} {new : NewFile} (hfits : Fits new.organizationId seen new.fileSize s)
    (hseen : new.organizationId = some organizationId → storageUsedBytes organizationId s ≤ seen)
    {id : Uuid} (hs : insertFile new s = .ok (id, s')) : Kept organizationId s s' := by
  obtain ⟨row, files, hinsert, hlive, -, horganization, hsize, rfl⟩ := insertFile_eq_ok hs
  refine ⟨⟨rfl, rfl, fun p hp ↦ hp⟩, ⟨hw.1, ?_⟩, ha⟩
  have hused := hw.2
  rw [storageUsedBytes_eq] at hused ⊢
  dsimp only
  rw [Table.select_insert_append hinsert, List.map_append, List.sum_append]
  by_cases horg : new.organizationId = some organizationId
  · have hroom := hfits henforced organizationId horg
    have hbefore := hseen horg
    rw [storageUsedBytes_eq] at hbefore
    have hcounts : decide (row.organizationId = some organizationId ∧ row.live = true) = true :=
      decide_eq_true ⟨horganization.trans horg, hlive⟩
    rw [if_pos hcounts, List.map_singleton, List.sum_singleton, hsize]
    change _ + ((s.attachments.select (Counts organizationId s)).map Attachment.fileSize).sum ≤ _
    omega
  · have hcounts : ¬ decide (row.organizationId = some organizationId ∧ row.live = true) = true := by
      intro hcounts
      exact horg (horganization ▸ (of_decide_eq_true hcounts).1)
    rw [if_neg hcounts, List.map_nil, List.sum_nil]
    change _ + ((s.attachments.select (Counts organizationId s)).map Attachment.fileSize).sum ≤ _
    omega

theorem counts_iff {a : Attachment} : Counts organizationId s a = true ↔
    a.deletedAt = none ∧ ProjectIn organizationId a.projectId s := by
  unfold Counts ProjectIn
  rw [decide_eq_true_eq, Option.isNone_iff_eq_none, Option.any_eq_true]
  refine and_congr_right fun _ ↦ ⟨?_, ?_⟩
  · rintro ⟨p, hfind, horg⟩
    obtain ⟨hp, hid⟩ := Table.find_eq_some.mp hfind
    exact ⟨p, hp, hid, of_decide_eq_true horg⟩
  · rintro ⟨p, hp, hid, horg⟩
    exact ⟨p, Table.find_eq_some.mpr ⟨hp, hid⟩, decide_eq_true horg⟩

theorem kept_insertAttachment (henforced : s.enforced = true) (hw : Within organizationId s)
    (ha : Attached s) {seen : ℕ} {new : NewAttachment}
    (hfits : ∀ p ∈ s.db.projects, p.id = new.projectId → Fits p.organizationId seen new.fileSize s)
    (hseen : ProjectIn organizationId new.projectId s → storageUsedBytes organizationId s ≤ seen)
    {id : Uuid} (hs : insertAttachment new s = .ok (id, s')) : Kept organizationId s s' := by
  obtain ⟨howner, row, attachments, hinsert, hproject, hsize, rfl⟩ := insertAttachment_eq_ok hs
  refine ⟨⟨rfl, rfl, fun p hp ↦ hp⟩, ⟨hw.1, ?_⟩, ?_⟩
  · have hused := hw.2
    rw [storageUsedBytes_eq] at hused ⊢
    change _ + ((attachments.select (Counts organizationId s)).map Attachment.fileSize).sum ≤ _
    rw [Table.select_insert_append hinsert, List.map_append, List.sum_append]
    by_cases hcounts : Counts organizationId s row = true
    · obtain ⟨-, p, hp, hid, horg⟩ := counts_iff.mp hcounts
      have hroom := hfits p hp (hid.trans hproject) henforced organizationId horg
      have hbefore := hseen ⟨p, hp, hid.trans hproject, horg⟩
      rw [storageUsedBytes_eq] at hbefore
      rw [if_pos hcounts, List.map_singleton, List.sum_singleton, hsize]
      dsimp only at hroom ⊢
      omega
    · rw [if_neg hcounts, List.map_nil, List.sum_nil]
      exact hused
  · intro a hmem
    rcases (Table.mem_insert hinsert).mp hmem with hmem | rfl
    · exact ha a hmem
    · obtain ⟨p, hp, hid⟩ := howner
      exact ⟨p, hp, hid.trans hproject.symm⟩

theorem kept_insertProject (henforced : s.enforced = true) (hw : Within organizationId s)
    (ha : Attached s) {seen : ℕ} {new : NewProject} (hroom : Allows new.organizationId seen s)
    (hseen : new.organizationId = organizationId → projectCount organizationId s ≤ seen)
    {id : Uuid} (hs : insertProject new s = .ok (id, s')) : Kept organizationId s s' := by
  obtain ⟨project, projects, hinsert, horg, hprojects, hfiles, hattachments, hen, hplan⟩ :=
    insertProject_eq_ok hs
  have hold : ∀ p ∈ s.db.projects, p ∈ s'.db.projects := by
    intro p hp
    rw [hprojects]
    exact (Table.mem_insert hinsert).mpr (.inl hp)
  have hattached : Attached s' := by
    intro a hmem
    rw [hattachments] at hmem
    obtain ⟨p, hp, hid⟩ := ha a hmem
    exact ⟨p, hold p hp, hid⟩
  refine ⟨⟨hen, hplan, hold⟩, ⟨?_, ?_⟩, hattached⟩
  · intro limit hlimit
    rw [hplan] at hlimit
    have hbefore := hw.1 limit hlimit
    unfold projectCount at hbefore hseen ⊢
    rw [hprojects, Table.select_insert_append hinsert, List.length_append]
    by_cases hsame : new.organizationId = organizationId
    · subst hsame
      have hlt := hroom henforced limit hlimit
      have hle := hseen rfl
      split
      · rw [List.length_singleton]
        omega
      · rw [List.length_nil]
        omega
    · have hnot : ¬ decide (project.organizationId = some organizationId ∧
          project.archivedAt.isNone) = true := by
        intro hcounts
        exact hsame (Option.some.inj (horg.symm.trans (of_decide_eq_true hcounts).1))
      rw [if_neg hnot, List.length_nil]
      omega
  · -- the attachments there are belong to projects there were
    have hcounts : ∀ a ∈ s.attachments.rows,
        Counts organizationId s' a = Counts organizationId s a := by
      intro a hmem
      obtain ⟨p, hp, hid⟩ := ha a hmem
      unfold Counts
      rw [Table.find_eq_some.mpr ⟨hold p hp, hid⟩, Table.find_eq_some.mpr ⟨hp, hid⟩]
    have hused := hw.2
    rw [storageUsedBytes_eq] at hused ⊢
    have hselect : s'.attachments.select (Counts organizationId s') =
        s.attachments.select (Counts organizationId s) := by
      rw [hattachments]
      exact List.filter_congr hcounts
    rw [hfiles, hselect, hplan]
    exact hused

open Service in
theorem kept_perform {w : Write} (henforced : s.enforced = true) (hw : Within organizationId s)
    (ha : Attached s) (hlegal : Legal s w) (hseen : Unovertaken organizationId s w) :
    wp (perform w) (fun _ s' ↦ Kept organizationId s s') (fun _ s' ↦ Kept organizationId s s') s := by
  have hsame : Kept organizationId s s := .same hw ha
  have hstays : ∀ {s' : Shared}, NoMore organizationId s s' → s'.enforced = s.enforced →
      s'.effectivePlan = s.effectivePlan → Attached s' → Kept organizationId s s' := by
    intro s' h hen hplan hattached
    exact ⟨⟨hen, hplan, fun p hp ↦ h.projects ▸ hp⟩, h.within hplan hw, hattached⟩
  cases w with
  | setActiveOrganization uid id => exact (wp_write _).mpr (hstays ⟨rfl, rfl, le_rfl⟩ rfl rfl ha)
  | putObject directory ext =>
      change wp (returning fun s ↦ .ok (putObject directory ext s)) _ _ s
      refine wp_returning.mpr ⟨fun key s' hs ↦ ?_, fun _ _ ↦ hsame⟩
      obtain ⟨rfl, rfl⟩ := Prod.mk.inj (Except.ok.inj hs)
      exact hstays ⟨rfl, rfl, le_rfl⟩ rfl rfl ha
  | removeObject key => exact (wp_write _).mpr (hstays ⟨rfl, rfl, le_rfl⟩ rfl rfl ha)
  | dropAttachment id =>
      refine (wp_write _).mpr (hstays ⟨rfl, rfl, Table.sum_select_deleteWhere_le⟩ rfl rfl ?_)
      exact fun a hmem ↦ ha a (Table.mem_deleteWhere.mp hmem).1
  | markAttachmentDeleted id =>
      have hrows : Table.UpdatedRows s.attachments (markAttachmentDeleted id s).attachments
          (fun a ↦ a.id = id ∧ a.deletedAt.isNone)
          fun a ↦ { a with deletedAt := some s.db.now } := rfl
      refine (wp_write _).mpr (hstays ⟨rfl, rfl, hrows.sum_select_le ?_ fun _ ↦ rfl⟩ rfl rfl ?_)
      · intro a _ _ hcounts
        cases (counts_iff.mp hcounts).1
      · intro a hmem
        rcases hrows.mem_iff.mp hmem with ⟨hold, -⟩ | ⟨a₀, hold, -, rfl⟩
        · exact ha a hold
        · exact ha a₀ hold
  | insertFile seen new =>
      exact wp_returning.mpr
        ⟨fun id s' hs ↦ kept_insertFile henforced hw ha hlegal hseen hs, fun _ _ ↦ hsame⟩
  | insertAttachment seen new =>
      refine (wp_savepoint _).mpr (wp_returning.mpr ⟨fun id s' hs ↦ ?_, fun _ _ ↦ hsame⟩)
      exact kept_insertAttachment henforced hw ha hlegal hseen hs
  | insertProject seen new =>
      refine (wp_savepoint _).mpr (wp_returning.mpr ⟨fun id s' hs ↦ ?_, fun _ _ ↦ hsame⟩)
      exact kept_insertProject henforced hw ha hlegal hseen hs
  | elapse time => exact (wp_write _).mpr (hstays ⟨rfl, rfl, le_rfl⟩ rfl rfl ha)
  | _ => exact hlegal.elim

end Writes

/-! ## Runs -/

/-- The limits hold in every run in which no insert comes upon more than its call has seen. -/
theorem within_always [Unicode] {organizationId : Uuid} {s : Shared} (henforced : s.enforced = true)
    (hattached : Attached s) (hwithin : Within organizationId s) {moves : List (Move Call)}
    (hseen : Along step (AtWrite (Unovertaken organizationId)) (.idle s) moves) :
    Always step (fun c ↦ Within organizationId c.shared) (.idle s) moves := by
  let I : Shared → (ℕ → Unit) → Prop := fun s _ ↦
    s.enforced = true ∧ Within organizationId s ∧ Attached s
  let Inv : Run → Prop := Phased turn I Fixed (fun _ ↦ Legal) fun _ _ _ ↦ True
  have hstep : ∀ c m, Inv c → AtWrite (Unovertaken organizationId) c m →
      Inv (step c m) ∧ True := by
    intro c m hc hm
    refine ⟨Phased.move .refl .trans ?_ ?_ hc hm, trivial⟩
    · exact fun s phase k call h ↦ ⟨(), h, keeps_enter call⟩
    · intro s phase k w h hlegal hw
      have hkept := kept_perform h.1 h.2.1 h.2.2 hlegal hw
      have hI : ∀ s', Kept organizationId s s' → s'.enforced = true ∧
          Within organizationId s' ∧ Attached s' :=
        fun s' hk ↦ ⟨hk.fixed.enforced.trans h.1, hk.within, hk.attached⟩
      exact ⟨Service.wp_mono hkept (fun _ s' hk ↦ hI s' hk) fun _ s' hk ↦ hI s' hk,
        Service.after_of_wp (Service.wp_mono hkept (fun _ _ hk ↦ hk.fixed) fun _ _ hk ↦ hk.fixed)⟩
  have hstart : Inv (.idle s) :=
    ⟨fun _ ↦ (), ⟨henforced, hwithin, hattached⟩, fun _ _ hp ↦ by cases hp⟩
  obtain ⟨halways, -⟩ := Along.invariant hstep hstart hseen
  exact halways.mono fun c hc ↦ hc.elim fun _ h ↦ h.1.2.1

/-! ## Two at a time -/

/-- A Launch workspace with one project, and 460 MB in its knowledge base. -/
def studio : Shared where
  db := { Db.empty with
    uuids := fun n ↦ 1000 + n
    users := .singleton ⟨1, "ann@one.test", some 10⟩
    organizations := .singleton ⟨10, 0⟩
    organizationMembers := .singleton ⟨10, 1, "owner"⟩
    projects := .singleton ⟨100, some 10, "ONE", "", none⟩
    projectMembers := .singleton ⟨100, 1, "owner"⟩ }
  folders := .singleton ⟨200, 100, none, "Knowledge base", true, none, none, none, 0, false, none, none⟩
  documents := .empty
  files := ⟨[⟨300, some 10, 100, 200, "demo.mp4", "mp4", 460 * oneMegabyte,
    ⟨.knowledgeBase (some 10) 100, 400, "mp4"⟩, some 1, false, none, 0⟩], by decide⟩
  attachments := .empty
  objects := [⟨.knowledgeBase (some 10) 100, 400, "mp4"⟩]
  enforced := true
  effectivePlan _ := .launch
  supportContactEmail := "support@tesbo.io"

def creates (name : String) : Call :=
  .createProject (some 1) ⟨.value name, .undefined, .value name, .ok (), fun _ ↦ "000000"⟩

def uploads (name : String) : Call :=
  .uploadKnowledgeFiles (some 1) (.canonical 100) (.value (.canonical 200)) [⟨name, 30 * oneMegabyte⟩]

/-- Two calls that go step by step together. -/
def together (a b : Call) : List (Move Call) :=
  .enter 0 a :: .enter 1 b :: (List.replicate 12 [.advance 0, .advance 1]).flatten

def oneAfterTheOther (a b : Call) : List (Move Call) :=
  .enter 0 a :: List.replicate 12 (.advance 0) ++ .enter 1 b :: List.replicate 12 (.advance 1)

theorem not_within_together :
    letI := asciiCase
    (¬ Always step (fun c ↦ Within 10 c.shared) (.idle studio)
      (together (creates "Web") (creates "App"))) ∧
    ¬ Always step (fun c ↦ Within 10 c.shared) (.idle studio)
      (together (uploads "one.mp4") (uploads "two.mp4")) := by
  decide +kernel

theorem within_always_studio :
    letI := asciiCase
    Always step (fun c ↦ Within 10 c.shared) (.idle studio)
      (oneAfterTheOther (creates "Web") (uploads "one.mp4")) :=
  @within_always asciiCase 10 studio rfl (by decide) (by decide) _ (by decide +kernel)

end Tesbo.PlanLimits
