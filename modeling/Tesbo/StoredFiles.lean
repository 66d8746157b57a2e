import Tesbo.KnowledgeHandlers

/-!
# The bytes of a file

A file is a row of the database and an object of the storage, and no statement changes both.  An
upload stores the object before the row, a delete takes the object after the row; what is left to
fear is a row that is live again when its object goes.
-/

namespace Tesbo.StoredFiles

open Reasoning Proc Knowledge

/-! ## Calls -/

inductive Call where
  | uploadKnowledgeFiles (userId : Option Uuid) (projectId : IdText) (folderId : Arg IdText)
      (files : List Upload)
  | moveKnowledgeFile (userId : Option Uuid) (projectId fileId : IdText) (folderId : Arg IdText)
  | deleteKnowledgeFile (userId : Option Uuid) (projectId fileId : IdText)
  | deleteKnowledgeFolder (userId : Option Uuid) (projectId folderId : IdText)
  | restoreKnowledgeFile (userId : Option Uuid) (projectId fileId : IdText)
  | elapse (time : Time)

def enter : Call → Procedure Unit
  | .uploadKnowledgeFiles userId projectId folderId files =>
      Knowledge.uploadKnowledgeFiles userId projectId folderId files
  | .moveKnowledgeFile userId projectId fileId folderId =>
      Knowledge.moveKnowledgeFile userId projectId fileId folderId
  | .deleteKnowledgeFile userId projectId fileId =>
      Knowledge.deleteKnowledgeFile userId projectId fileId
  | .deleteKnowledgeFolder userId projectId folderId =>
      Knowledge.deleteKnowledgeFolder userId projectId folderId
  | .restoreKnowledgeFile userId projectId fileId =>
      Knowledge.restoreKnowledgeFile userId projectId fileId
  | .elapse time => ask (.elapse time)

abbrev Run := Config Shared (Procedure Unit)

def step (c : Run) (m : Move Call) : Run := c.move enter (fun _ ↦ Proc.exec perform) m

theorem step_cases (c : Run) (m : Move Call) :
    (moving c m = none ∧ (step c m).shared = c.shared) ∨
      ∃ w, moving c m = some w ∧ (step c m).shared = Service.after (perform w) c.shared :=
  move_cases c m

/-! ## The property and its condition -/

def BytesKept (s : Shared) : Prop := ∀ f ∈ s.files, f.live = true → f.storageKey ∈ s.objects

instance (s : Shared) : Decidable (BytesKept s) :=
  inferInstanceAs (Decidable (∀ f ∈ s.files, _))

/-- A file that comes back still has its object, and no object of a live file goes. -/
def Guarded (s : Shared) : Write → Prop
  | .reviveFile id projectId =>
      ∀ f ∈ s.files, f.id = id → f.projectId = projectId → f.storageKey ∈ s.objects
  | .removeObject key => ∀ f ∈ s.files, f.live = true → f.storageKey ≠ key
  | _ => True

instance (s : Shared) (w : Write) : Decidable (Guarded s w) := by
  cases w with
  | reviveFile id projectId => exact inferInstanceAs (Decidable (∀ f ∈ s.files, _))
  | removeObject key => exact inferInstanceAs (Decidable (∀ f ∈ s.files, _))
  | _ => exact instDecidableTrue

/-- The ids to come are new: none comes twice, and none is in the key of an object or a file. -/
structure NewUuids (s : Shared) : Prop where
  injective : Function.Injective s.db.uuids
  objects : ∀ key ∈ s.objects, ∀ n, key.uuid ≠ s.db.uuids n
  files : ∀ f ∈ s.files, ∀ n, f.storageKey.uuid ≠ s.db.uuids n

/-! ## Objects without a row -/

/-- The key of the object a call has stored and not yet given a row. -/
abbrev Phase := Option StorageKey

def turn (held : Phase) : (w : Write) → Reply w → Phase
  | .putObject _ _, key => some key
  | .insertFile _ _, _ => none
  | _, _ => held

/-- No file loses its row. -/
def KeepsKeys (s s' : Shared) : Prop :=
  ∀ f ∈ s.files, ∃ f' ∈ s'.files, f'.storageKey = f.storageKey

theorem KeepsKeys.refl (s : Shared) : KeepsKeys s s := fun f hf ↦ ⟨f, hf, rfl⟩

theorem KeepsKeys.trans (a b c : Shared) (h : KeepsKeys a b) (h' : KeepsKeys b c) :
    KeepsKeys a c := by
  intro f hf
  obtain ⟨f₁, hf₁, hkey₁⟩ := h f hf
  obtain ⟨f₂, hf₂, hkey₂⟩ := h' f₁ hf₁
  exact ⟨f₂, hf₂, hkey₂.trans hkey₁⟩

/-- What these calls ask for: a row is given to the object just stored, and the objects that go are
those of files. -/
def Legal (held : Phase) (s : Shared) : Write → Prop
  | .setActiveOrganization _ _ | .cascadeSoftDelete _ _ _ | .putObject _ _ | .setFileFolder _ _
  | .markFileDeleted _ | .reviveFile _ _ | .elapse _ => True
  | .insertFile _ new => held = some new.storageKey
  | .removeObject key => ∃ f ∈ s.files, f.storageKey = key
  | _ => False

/-- An object without a row is in the hands of one call, and is not the object of any file. -/
structure Held (s : Shared) (phase : ℕ → Phase) : Prop where
  new : NewUuids s
  object : ∀ k key, phase k = some key → key ∈ s.objects
  unused : ∀ k key, phase k = some key → ∀ f ∈ s.files, f.storageKey ≠ key
  apart : ∀ j k key, phase j = some key → phase k = some key → j = k

/-! ### What each call asks for -/

section Calls

variable {s : Shared}

abbrev Keeps (t : Phase) (s : Shared) (p : Procedure Unit) : Prop :=
  Follows turn KeepsKeys Legal (fun _ _ _ ↦ True) t s p

theorem follows_purge {t : Phase} {keys : List StorageKey}
    (hkeys : ∀ key ∈ keys, ∃ f ∈ s.files, f.storageKey = key) : Keeps t s (purge keys) := by
  induction keys generalizing s with
  | nil => exact follows_pure fun _ _ ↦ trivial
  | cons key keys ih =>
      have hlater : ∀ s', KeepsKeys s s' → ∀ key' ∈ key :: keys, ∃ f ∈ s'.files,
          f.storageKey = key' := by
        intro s' hs key' hkey'
        obtain ⟨f, hf, rfl⟩ := hkeys key' hkey'
        exact hs f hf
      refine follows_write (fun s' hs ↦ hlater s' hs key List.mem_cons_self) fun _ s' hs ↦ ?_
      exact ih fun key' hkey' ↦ hlater s' hs key' (List.mem_cons_of_mem _ hkey')

theorem follows_storeKnowledgeFiles {uid : Uuid} {project : Project} {folderId : Uuid}
    {files : List Upload} {t : Phase} {seen : ℕ} :
    Keeps t s (storeKnowledgeFiles uid project folderId seen files) := by
  induction files generalizing t s seen with
  | nil => exact follows_pure fun _ _ ↦ trivial
  | cons file files ih =>
      unfold storeKnowledgeFiles
      refine follows_query_seq fun s₁ _ ↦ ?_
      refine follows_issue_seq (fun _ _ ↦ trivial) fun key s₂ _ ↦ ?_
      exact follows_issue_seq (fun _ _ ↦ rfl) fun _ s₃ _ ↦ ih

theorem repair_legal {t : Phase} (s : Shared) (uid organizationId : Uuid) :
    Legal t s (.setActiveOrganization uid organizationId) ∧
      ∀ r, turn t (.setActiveOrganization uid organizationId) r = t := ⟨trivial, fun _ ↦ rfl⟩

theorem follows_uploadKnowledgeFiles {t : Phase} {userId : Option Uuid} {projectId : IdText}
    {folderId : Arg IdText} {files : List Upload} :
    Keeps t s (Knowledge.uploadKnowledgeFiles userId projectId folderId files) := by
  unfold Knowledge.uploadKnowledgeFiles
  refine follows_member_seq .refl .trans repair_legal fun uid project _ s₁ _ _ _ _ _ ↦ ?_
  refine follows_requiredFolder_seq .refl .trans fun folder s₂ _ ↦ follows_require_seq fun _ ↦ ?_
  refine follows_check_seq fun s₃ _ seen _ ↦ follows_ofExcept_seq fun _ _ ↦ ?_
  exact follows_storeKnowledgeFiles

theorem follows_moveKnowledgeFile {t : Phase} {userId : Option Uuid} {projectId fileId : IdText}
    {folderId : Arg IdText} :
    Keeps t s (Knowledge.moveKnowledgeFile userId projectId fileId folderId) := by
  unfold Knowledge.moveKnowledgeFile kbFile kbProjectRole kbRequireMutateAccess
  refine follows_member_seq .refl .trans repair_legal fun uid project _ s₁ _ _ _ _ _ ↦ ?_
  refine follows_lookUp_seq .refl .trans fun i file _ s₂ _ _ _ _ ↦ ?_
  refine follows_query_seq fun s₃ _ ↦ follows_require_seq fun _ ↦ ?_
  refine follows_requiredFolder_seq .refl .trans fun folder s₄ _ ↦ ?_
  exact follows_issue (w := Write.setFileFolder file.id folder.id) KeepsKeys.trans
    (fun _ _ ↦ trivial) fun _ _ _ ↦ trivial

theorem follows_deleteKnowledgeFile {t : Phase} {userId : Option Uuid}
    {projectId fileId : IdText} :
    Keeps t s (Knowledge.deleteKnowledgeFile userId projectId fileId) := by
  unfold Knowledge.deleteKnowledgeFile kbFile kbProjectRole kbRequireMutateAccess
  refine follows_member_seq .refl .trans repair_legal fun uid project _ s₁ _ _ _ _ _ ↦ ?_
  refine follows_lookUp_seq .refl .trans fun i file s₂ s₃ _ _ hfile h₃ ↦ ?_
  refine follows_query_seq fun s₄ h₄ ↦ follows_require_seq fun _ ↦ ?_
  refine follows_issue_seq (fun _ _ ↦ trivial) fun _ s₅ h₅ ↦ follows_purge fun key hkey ↦ ?_
  obtain rfl := List.mem_singleton.mp hkey
  exact ((h₃.trans _ _ _ h₄).trans _ _ _ h₅) file (findFile_eq_some.mp hfile).1

theorem follows_deleteKnowledgeFolder {t : Phase} {userId : Option Uuid}
    {projectId folderId : IdText} :
    Keeps t s (Knowledge.deleteKnowledgeFolder userId projectId folderId) := by
  unfold Knowledge.deleteKnowledgeFolder kbFolder kbProjectRole kbRequireMutateAccess
  refine follows_member_seq .refl .trans repair_legal fun uid project _ s₁ _ _ _ _ _ ↦ ?_
  refine follows_lookUp_seq .refl .trans fun i folder _ s₂ _ _ _ _ ↦ follows_require_seq fun _ ↦ ?_
  refine follows_query_seq fun s₃ _ ↦ follows_require_seq fun _ ↦ ?_
  refine follows_check_seq fun s₄ _ keys hkeys ↦ ?_
  refine follows_issue_seq (fun _ _ ↦ trivial) fun _ s₅ h₅ ↦ follows_purge fun key hkey ↦ ?_
  obtain ⟨tree, -, hkeys⟩ := except_bind_eq_ok.mp hkeys
  obtain rfl := Except.ok.inj hkeys
  obtain ⟨f, hf, rfl⟩ := List.mem_map.mp hkey
  exact h₅ f (Table.mem_select.mp hf).1

theorem follows_restoreKnowledgeFile {t : Phase} {userId : Option Uuid}
    {projectId fileId : IdText} :
    Keeps t s (Knowledge.restoreKnowledgeFile userId projectId fileId) := by
  unfold Knowledge.restoreKnowledgeFile kbProjectRole kbRequireOwnerOrManager
  refine follows_member_seq .refl .trans repair_legal fun uid project _ s₁ _ _ _ _ _ ↦ ?_
  refine follows_query_seq fun s₂ _ ↦ follows_require_seq fun _ ↦ follows_require_seq fun _ ↦ ?_
  refine follows_ofExcept_seq fun i _ ↦ follows_issue_seq (fun _ _ ↦ trivial) fun hit s₃ _ ↦ ?_
  exact follows_require fun _ _ _ ↦ trivial

theorem follows_enter {t : Phase} (call : Call) : Keeps t s (enter call) := by
  cases call with
  | uploadKnowledgeFiles userId projectId folderId files => exact follows_uploadKnowledgeFiles
  | moveKnowledgeFile userId projectId fileId folderId => exact follows_moveKnowledgeFile
  | deleteKnowledgeFile userId projectId fileId => exact follows_deleteKnowledgeFile
  | deleteKnowledgeFolder userId projectId folderId => exact follows_deleteKnowledgeFolder
  | restoreKnowledgeFile userId projectId fileId => exact follows_restoreKnowledgeFile
  | elapse time =>
      exact follows_issue (w := Write.elapse time) KeepsKeys.trans (fun _ _ ↦ trivial)
        fun _ _ _ ↦ trivial

end Calls

/-! ### What each write leaves -/

section Writes

variable {s s' : Shared} {phase : ℕ → Phase} {k : ℕ}

/-- The state and the phases a write leaves. -/
def Left (s s' : Shared) (phase : ℕ → Phase) : Prop :=
  KeepsKeys s s' ∧ Held s' phase ∧ BytesKept s'

/-- A call whose write is neither a put nor an insert stays in its phase. -/
theorem Left.stay (h : Left s s' phase) : Left s s' (Function.update phase k (phase k)) := by
  rw [Function.update_eq_self]
  exact h

theorem Left.same (h : Held s phase) (hb : BytesKept s) : Left s s phase := ⟨.refl s, h, hb⟩

/-- The rows of the files change, but no key, and what is live then has its object. -/
theorem left_updateWhere (h : Held s phase) (hb : BytesKept s)
    (huuids : s'.db.uuids = s.db.uuids) (hobjects : s'.objects = s.objects) {p : File → Bool}
    {f : File → File} (hrows : Table.UpdatedRows s.files s'.files p f)
    (hkey : ∀ r, (f r).storageKey = r.storageKey)
    (hlive : ∀ r ∈ s.files, p r = true → (f r).live = true → r.storageKey ∈ s.objects) :
    Left s s' phase := by
  have hback : ∀ r' ∈ s'.files, ∃ r ∈ s.files, r.storageKey = r'.storageKey ∧
      (r'.live = true → r.storageKey ∈ s.objects) := by
    intro r' hr'
    rcases hrows.mem_iff.mp hr' with ⟨hr, -⟩ | ⟨r, hr, hp, rfl⟩
    · exact ⟨r', hr, rfl, hb r' hr⟩
    · exact ⟨r, hr, (hkey r).symm, hlive r hr hp⟩
  refine ⟨?_, ⟨⟨?_, ?_, ?_⟩, ?_, ?_, h.apart⟩, ?_⟩
  · intro r hr
    exact hrows.exists_of_mem hr (fun _ ↦ rfl) fun _ ↦ hkey r
  · rw [huuids]
    exact h.new.injective
  · rw [hobjects, huuids]
    exact h.new.objects
  · intro r' hr'
    obtain ⟨r, hr, hsame, -⟩ := hback r' hr'
    rw [huuids, ← hsame]
    exact h.new.files r hr
  · intro j key hj
    rw [hobjects]
    exact h.object j key hj
  · intro j key hj r' hr'
    obtain ⟨r, hr, hsame, -⟩ := hback r' hr'
    rw [← hsame]
    exact h.unused j key hj r hr
  · intro r' hr' hlive'
    obtain ⟨r, hr, hsame, hobject⟩ := hback r' hr'
    rw [hobjects, ← hsame]
    exact hobject hlive'

/-- The stored object is a new one, and in the hands of the call that stored it. -/
theorem left_putObject (h : Held s phase) (hb : BytesKept s) (directory : Directory)
    (ext : String) :
    Left s (putObject directory ext s).2
      (Function.update phase k (some (putObject directory ext s).1)) := by
  have hnew : ∀ j, ∀ key ∈ s.objects, phase j = some key → key ≠ ⟨directory, s.db.uuids 0, ext⟩ := by
    intro j key hkey _ heq
    exact h.new.objects key hkey 0 (congrArg StorageKey.uuid heq)
  refine ⟨fun f hf ↦ ⟨f, hf, rfl⟩, ⟨⟨?_, ?_, ?_⟩, ?_, ?_, ?_⟩, ?_⟩
  · intro m n hmn
    exact Nat.succ.inj (h.new.injective hmn)
  · intro key hkey n
    rcases List.mem_cons.mp hkey with rfl | hkey
    · intro heq
      exact absurd (h.new.injective heq) (by omega)
    · exact h.new.objects key hkey (n + 1)
  · exact fun f hf n ↦ h.new.files f hf (n + 1)
  · intro j key hj
    by_cases hjk : j = k
    · subst hjk
      rw [Function.update_self] at hj
      exact List.mem_cons.mpr (.inl (Option.some.inj hj).symm)
    · rw [Function.update_of_ne hjk] at hj
      exact List.mem_cons_of_mem _ (h.object j key hj)
  · intro j key hj f hf
    by_cases hjk : j = k
    · subst hjk
      rw [Function.update_self] at hj
      obtain rfl := Option.some.inj hj
      exact fun heq ↦ h.new.files f hf 0 (congrArg StorageKey.uuid heq)
    · rw [Function.update_of_ne hjk] at hj
      exact h.unused j key hj f hf
  · intro i j key hi hj
    by_cases hik : i = k
    · by_cases hjk : j = k
      · exact hik.trans hjk.symm
      · rw [hik, Function.update_self] at hi
        rw [Function.update_of_ne hjk] at hj
        exact absurd (Option.some.inj hi).symm (hnew j key (h.object j key hj) hj)
    · rw [Function.update_of_ne hik] at hi
      by_cases hjk : j = k
      · rw [hjk, Function.update_self] at hj
        exact absurd (Option.some.inj hj).symm (hnew i key (h.object i key hi) hi)
      · rw [Function.update_of_ne hjk] at hj
        exact h.apart i j key hi hj
  · exact fun f hf hlive ↦ List.mem_cons_of_mem _ (hb f hf hlive)

/-- The object in the hands of the call gets its row. -/
theorem left_insertFile (h : Held s phase) (hb : BytesKept s) {new : NewFile}
    (hheld : phase k = some new.storageKey) {id : Uuid} (hs : insertFile new s = .ok (id, s')) :
    Left s s' (Function.update phase k none) := by
  obtain ⟨row, files, hinsert, -, hkey, -, -, rfl⟩ := insertFile_eq_ok hs
  have hrow : ∀ f ∈ files, f ∈ s.files ∨ f.storageKey = new.storageKey := by
    intro f hf
    rcases (Table.mem_insert hinsert).mp hf with hf | rfl
    · exact .inl hf
    · exact .inr hkey
  have hobject : new.storageKey ∈ s.objects := h.object k _ hheld
  have hothers : ∀ j key, Function.update phase k none j = some key → j ≠ k ∧ phase j = some key := by
    intro j key hj
    by_cases hjk : j = k
    · rw [hjk, Function.update_self] at hj
      cases hj
    · rw [Function.update_of_ne hjk] at hj
      exact ⟨hjk, hj⟩
  refine ⟨fun f hf ↦ ⟨f, (Table.mem_insert hinsert).mpr (.inl hf), rfl⟩,
    ⟨⟨?_, fun key hkey n ↦ h.new.objects key hkey (n + 1), ?_⟩, ?_, ?_, ?_⟩, ?_⟩
  · intro m n hmn
    exact Nat.succ.inj (h.new.injective hmn)
  · intro f hf n
    rcases hrow f hf with hf | hkey
    · exact h.new.files f hf (n + 1)
    · rw [hkey]
      exact h.new.objects _ hobject (n + 1)
  · exact fun j key hj ↦ h.object j key (hothers j key hj).2
  · intro j key hj f hf
    obtain ⟨hjk, hj⟩ := hothers j key hj
    rcases hrow f hf with hf | hkey
    · exact h.unused j key hj f hf
    · intro heq
      exact hjk (h.apart j k key hj (by rw [hheld, ← hkey, heq]))
  · intro i j key hi hj
    exact h.apart i j key (hothers i key hi).2 (hothers j key hj).2
  · intro f hf hlive
    rcases hrow f hf with hf | hkey
    · exact hb f hf hlive
    · exact hkey ▸ hobject

/-- An object of no live file goes. -/
theorem left_removeObject (h : Held s phase) (hb : BytesKept s) {key : StorageKey}
    (hfile : ∃ f ∈ s.files, f.storageKey = key)
    (hguard : ∀ f ∈ s.files, f.live = true → f.storageKey ≠ key) :
    Left s (removeObject key s) phase := by
  have hmem : ∀ key', key' ∈ (removeObject key s).objects ↔ key' ∈ s.objects ∧ key' ≠ key := by
    intro key'
    unfold removeObject
    rw [List.mem_filter, decide_eq_true_eq]
  refine ⟨.refl s, ⟨⟨h.new.injective, ?_, h.new.files⟩, ?_, h.unused, h.apart⟩, ?_⟩
  · exact fun key' hkey' ↦ h.new.objects key' ((hmem key').mp hkey').1
  · intro j key' hj
    obtain ⟨f, hf, rfl⟩ := hfile
    exact (hmem key').mpr ⟨h.object j key' hj, (h.unused j key' hj f hf).symm⟩
  · exact fun f hf hlive ↦ (hmem _).mpr ⟨hb f hf hlive, hguard f hf hlive⟩

open Service in
/-- Each write the calls can ask for keeps the bytes of the live files, under its condition. -/
theorem left_perform {w : Write} (h : Held s phase) (hb : BytesKept s)
    (hlegal : Legal (phase k) s w) (hguard : Guarded s w) :
    wp (perform w) (fun r s' ↦ Left s s' (Function.update phase k (turn (phase k) w r)))
      (fun _ s' ↦ Left s s' phase) s := by
  have hsame : Left s s phase := .same h hb
  cases w with
  | setActiveOrganization uid organizationId =>
      refine (wp_write _).mpr (Left.stay ?_)
      exact ⟨.refl s, ⟨⟨h.new.injective, h.new.objects, h.new.files⟩, h.object, h.unused, h.apart⟩, hb⟩
  | putObject directory ext =>
      change wp (returning fun s ↦ .ok (putObject directory ext s)) _ _ s
      refine wp_returning.mpr ⟨fun key s' hs ↦ ?_, fun _ _ ↦ hsame⟩
      obtain ⟨rfl, rfl⟩ := Prod.mk.inj (Except.ok.inj hs)
      exact left_putObject h hb directory ext
  | insertFile seen new =>
      refine wp_returning.mpr ⟨fun id s' hs ↦ ?_, fun _ _ ↦ hsame⟩
      exact left_insertFile h hb hlegal hs
  | removeObject key =>
      exact (wp_write _).mpr (Left.stay (left_removeObject h hb hlegal hguard))
  | cascadeSoftDelete folderIds uid deletionReason =>
      refine wp_exec.mpr ⟨fun s' hs ↦ Left.stay ?_, fun _ _ ↦ hsame⟩
      rcases cascadeSoftDeleteFolderTree_eq_ok hs with rfl | ⟨rfl, -⟩
      · exact hsame
      · exact left_updateWhere h hb rfl rfl rfl (fun _ ↦ rfl) fun _ _ _ hlive ↦
          absurd hlive Bool.false_ne_true
  | setFileFolder id folderId =>
      refine wp_exec.mpr ⟨fun s' hs ↦ Left.stay ?_, fun _ _ ↦ hsame⟩
      obtain ⟨_, -, hs⟩ := except_bind_eq_ok.mp hs
      obtain rfl := Except.ok.inj hs
      exact left_updateWhere h hb rfl rfl rfl (fun _ ↦ rfl) fun f hf _ hlive ↦ hb f hf hlive
  | markFileDeleted id =>
      refine (wp_write _).mpr (Left.stay ?_)
      exact left_updateWhere h hb rfl rfl rfl (fun _ ↦ rfl) fun _ _ _ hlive ↦
        absurd hlive Bool.false_ne_true
  | reviveFile id projectId =>
      change wp (returning fun s ↦ .ok (hitsFile id projectId s, reviveFile id projectId s)) _ _ s
      refine wp_returning.mpr ⟨fun hit s' hs ↦ Left.stay ?_, fun _ _ ↦ hsame⟩
      obtain ⟨-, rfl⟩ := Prod.mk.inj (Except.ok.inj hs)
      refine left_updateWhere h hb rfl rfl rfl (fun _ ↦ rfl) fun f hf hp _ ↦ ?_
      obtain ⟨hid, hproject⟩ := of_decide_eq_true hp
      exact hguard f hf hid hproject
  | elapse time =>
      refine (wp_write _).mpr (Left.stay ?_)
      exact ⟨.refl s, ⟨⟨h.new.injective, h.new.objects, h.new.files⟩, h.object, h.unused, h.apart⟩, hb⟩
  | _ => exact hlegal.elim

/-- A call that is entered has nothing in its hands. -/
theorem Held.enter (h : Held s phase) : Held s (Function.update phase k none) := by
  have hothers : ∀ j key, Function.update phase k none j = some key → phase j = some key := by
    intro j key hj
    by_cases hjk : j = k
    · rw [hjk, Function.update_self] at hj
      cases hj
    · rw [Function.update_of_ne hjk] at hj
      exact hj
  refine ⟨h.new, fun j key hj ↦ h.object j key (hothers j key hj),
    fun j key hj ↦ h.unused j key (hothers j key hj), fun i j key hi hj ↦ ?_⟩
  exact h.apart i j key (hothers i key hi) (hothers j key hj)

/-- A write that keeps the bytes meets its condition. -/
theorem guarded_of_bytesKept {w : Write} (h : BytesKept (Service.after (perform w) s)) :
    Guarded s w := by
  cases w with
  | reviveFile id projectId =>
      intro f hf hid hproject
      have hrows : Table.UpdatedRows s.files (reviveFile id projectId s).files
          (fun f ↦ f.id = id ∧ f.projectId = projectId)
          fun f ↦ { f with isDeleted := false, deletedAt := none, updatedAt := s.db.now } := rfl
      have hback := hrows.mem_iff.mpr (.inr ⟨f, hf, decide_eq_true ⟨hid, hproject⟩, rfl⟩)
      have hobject := h _ hback rfl
      exact hobject
  | removeObject key =>
      intro f hf hlive
      have hobject := h f hf hlive
      change f.storageKey ∈ s.objects.filter (· ≠ key) at hobject
      rw [List.mem_filter, decide_eq_true_eq] at hobject
      exact hobject.2
  | _ => trivial

end Writes

/-! ## Runs -/

section Runs

/-- The bytes are kept, and what is stored without a row is in the hands of one call. -/
abbrev Inv (c : Run) : Prop :=
  Phased turn (fun s phase ↦ Held s phase ∧ BytesKept s) KeepsKeys Legal (fun _ _ _ ↦ True) c

theorem inv_step {c : Run} {m : Move Call} (hc : Inv c) (hm : AtWrite Guarded c m) :
    Inv (step c m) := by
  refine Phased.move .refl .trans ?_ ?_ hc hm
  · exact fun s phase k call h ↦ ⟨none, ⟨h.1.enter, h.2⟩, follows_enter call⟩
  · intro s phase k w h hlegal hguard
    have hleft := left_perform h.1 h.2 hlegal hguard
    exact ⟨Service.wp_mono hleft (fun _ _ hl ↦ hl.2) fun _ _ hl ↦ hl.2,
      Service.after_of_wp (Service.wp_mono hleft (fun _ _ hl ↦ hl.1) fun _ _ hl ↦ hl.1)⟩

theorem atWrite_guarded_iff {c : Run} {m : Move Call} (hc : Inv c) :
    AtWrite Guarded c m ↔ BytesKept (step c m).shared := by
  constructor
  · intro hm
    obtain ⟨phase, h, -⟩ := inv_step hc hm
    exact h.2
  · intro hkept w hw
    rcases step_cases c m with ⟨hnone, -⟩ | ⟨w', hw', hafter⟩
    · rw [hnone] at hw
      cases hw
    · obtain rfl := Option.some.inj (hw'.symm.trans hw)
      rw [hafter] at hkept
      exact guarded_of_bytesKept hkept

/-- Every live file has its object all along a run exactly where no file comes back after its object
went, and no object goes after its file came back. -/
theorem bytesKept_always_iff {s : Shared} (hnew : NewUuids s) (hkept : BytesKept s)
    {moves : List (Move Call)} :
    Always step (fun c ↦ BytesKept c.shared) (.idle s) moves ↔
      Along step (AtWrite Guarded) (.idle s) moves := by
  have hheld : Held s fun _ ↦ none := by
    refine ⟨hnew, ?_, ?_, ?_⟩
    · exact fun _ _ hk ↦ by cases hk
    · exact fun _ _ hk ↦ by cases hk
    · exact fun _ _ _ hk ↦ by cases hk
  have hstart : Inv (.idle s) := .idle ⟨hheld, hkept⟩
  rw [always_iff_along, Along.congr_of_invariant (I := Inv) (fun c m hc ↦ atWrite_guarded_iff hc)
    (fun c m hc hq ↦ inv_step hc ((atWrite_guarded_iff hc).mpr hq)) hstart]
  exact and_iff_right hkept

end Runs

/-! ## A file that comes back -/

/-- A project with a folder and a file in it. -/
def library : Shared where
  db := { Db.empty with
    uuids := fun n ↦ 1000 + n
    users := .singleton ⟨1, "ann@one.test", some 10⟩
    organizations := .singleton ⟨10, 0⟩
    organizationMembers := .singleton ⟨10, 1, "owner"⟩
    projects := .singleton ⟨100, some 10, "ONE", "", none⟩
    projectMembers := .singleton ⟨100, 1, "owner"⟩ }
  folders := .singleton ⟨200, 100, none, "Knowledge base", true, none, none, none, 0, false, none, none⟩
  documents := .empty
  files := ⟨[⟨300, some 10, 100, 200, "plan.pdf", "pdf", 5, ⟨.knowledgeBase (some 10) 100, 400, "pdf"⟩,
    some 1, false, none, 0⟩], by decide⟩
  attachments := .empty
  objects := [⟨.knowledgeBase (some 10) 100, 400, "pdf"⟩]
  enforced := false
  effectivePlan _ := .launch
  supportContactEmail := "support@tesbo.io"

theorem newUuids_library : NewUuids library := by
  refine ⟨fun m n hmn ↦ Nat.add_left_cancel hmn, fun key hkey n ↦ ?_, fun f hf n ↦ ?_⟩
  · obtain rfl := List.mem_singleton.mp hkey
    change 400 ≠ 1000 + n
    omega
  · obtain rfl := List.mem_singleton.mp hf
    change 400 ≠ 1000 + n
    omega

def uploads : Call :=
  .uploadKnowledgeFiles (some 1) (.canonical 100) (.value (.canonical 200)) [⟨"notes.txt", 3⟩]

def deletes : Call := .deleteKnowledgeFile (some 1) (.canonical 100) (.canonical 300)

def restores : Call := .restoreKnowledgeFile (some 1) (.canonical 100) (.canonical 300)

/-- A call with nothing between its statements. -/
def alone (k : ℕ) (call : Call) : List (Move Call) :=
  .enter k call :: List.replicate 12 (.advance k)

/-- A file that is deleted and restored is live, and its object is gone. -/
theorem not_bytesKept_restored :
    ¬ Always step (fun c ↦ BytesKept c.shared) (.idle library) (alone 0 deletes ++ alone 1 restores) := by
  decide +kernel

theorem bytesKept_always_library :
    Always step (fun c ↦ BytesKept c.shared) (.idle library) (alone 0 uploads ++ alone 1 deletes) :=
  (bytesKept_always_iff newUuids_library (by decide)).mpr (by decide +kernel)

end Tesbo.StoredFiles
