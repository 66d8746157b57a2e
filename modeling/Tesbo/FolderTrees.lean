import Tesbo.DeletionRecord
import Tesbo.Reasoning.Forest

/-!
# The folders of a project are a tree

A folder is moved only after a recursive query has not found its new parent below it.  With nothing
between the query and the move the parents stay a forest, so that no recursive query runs on without
end, and neither a folder nor a document ever leaves its project.
-/

namespace Tesbo.FolderTrees

open Reasoning Service Proc Knowledge
open DeletionRecord (TreeCall folders_takeDown board)

/-! ## Calls -/

inductive Call where
  | createKnowledgeFolder (userId : Option Uuid) (projectId : IdText) (body : FolderBody)
  | createKnowledgeDocument (userId : Option Uuid) (projectId : IdText) (body : NewDocumentBody)
  | restoreKnowledgeDocument (userId : Option Uuid) (projectId documentId : IdText)
  | rearrange (c : TreeCall)

/-- What a call leaves, answered or failed. -/
def Call.leaves (s : Shared) : Call → Shared
  | .createKnowledgeFolder userId projectId body =>
      after ((Knowledge.createKnowledgeFolder userId projectId body).run perform) s
  | .createKnowledgeDocument userId projectId body =>
      after ((Knowledge.createKnowledgeDocument userId projectId body).run perform) s
  | .restoreKnowledgeDocument userId projectId documentId =>
      after ((Knowledge.restoreKnowledgeDocument userId projectId documentId).run perform) s
  | .rearrange c => c.leaves s

/-- A call and when it is made. -/
structure Request where
  now : Time
  call : Call

def step (s : Shared) (q : Request) : Shared :=
  q.call.leaves { s with db := { s.db with now := q.now } }

/-! ## The invariant -/

/-- The folder `x` of the project `q` has the parent `p`. -/
def Filed (s : Shared) (x : Uuid) (p : Option Uuid) (q : Uuid) : Prop :=
  ∃ f ∈ s.folders, f.id = x ∧ f.parentFolderId = p ∧ f.projectId = q

instance (s : Shared) (x : Uuid) (p : Option Uuid) (q : Uuid) : Decidable (Filed s x p q) :=
  inferInstanceAs (Decidable (∃ f ∈ s.folders, _))

/-- `knowledge_folders.parent_folder_id` -/
def Parent (s : Shared) (x : Uuid) (p : Option Uuid) : Prop := ∃ q, Filed s x p q

structure Arranged (s : Shared) : Prop where
  forest : Forest (Parent s)
  ownParent : ∀ x p q, Filed s x (some p) q → ∃ r, Filed s p r q
  ownFolder : ∀ d ∈ s.documents, ∃ p, Filed s d.folderId p d.projectId

section

variable {s s' : Shared}

theorem filed_of_mem {f : Folder} (h : f ∈ s.folders) : Filed s f.id f.parentFolderId f.projectId :=
  ⟨f, h, rfl, rfl, rfl⟩

/-- A folder has one parent and one project. -/
theorem Filed.unique {x q q' : Uuid} {p p' : Option Uuid} (h : Filed s x p q) (h' : Filed s x p' q') :
    p = p' ∧ q = q' := by
  obtain ⟨f, hf, hid, rfl, rfl⟩ := h
  obtain ⟨g, hg, hid', rfl, rfl⟩ := h'
  have heq : f = g := Table.eq_of_key hf hg (hid.trans hid'.symm)
  subst heq
  exact ⟨rfl, rfl⟩

/-! ### What follows from it -/

theorem below_of_mem_subtree {x y : Uuid} (h : y ∈ subtree x s) : Below (Parent s) x y := by
  obtain ⟨-, hpath⟩ := mem_subtree.mp h
  refine Relation.ReflTransGen.mono (fun a b hb ↦ ?_) _ _ hpath
  obtain ⟨f, hf, hid, hparent⟩ := hb
  exact ⟨f.projectId, f, hf, hid, hparent, rfl⟩

theorem mem_subtree_of_below {x y : Uuid} (hx : ∃ f ∈ s.folders, f.id = x)
    (h : Below (Parent s) x y) : y ∈ subtree x s := by
  refine mem_subtree.mpr ⟨hx, Relation.ReflTransGen.mono (fun a b hb ↦ ?_) _ _ h⟩
  obtain ⟨q, f, hf, hid, hparent, -⟩ := hb
  exact ⟨f, hf, hid, hparent⟩

/-- No recursive query over the folders runs on without end. -/
theorem Arranged.queryDescendants (h : Arranged s) (ids : List Uuid) :
    Knowledge.queryDescendants ids s = .ok (descendants ids s) := by
  unfold Knowledge.queryDescendants
  rw [if_neg]
  intro hcyclic
  obtain ⟨x, hx, child, hchild, hback⟩ := hcyclic
  obtain ⟨f, hf, hid, hparent⟩ := mem_folderChildren.mp hchild
  have hdown : Parent s child (some x) := ⟨f.projectId, f, hf, hid, hparent, rfl⟩
  have hcycle : Relation.TransGen (fun a b ↦ Parent s b (some a)) x x :=
    Relation.TransGen.head' hdown (below_of_mem_subtree hback)
  obtain ⟨y, hy, hyx⟩ := Relation.TransGen.tail'_iff.mp hcycle
  refine (h.forest x _ hyx).acyclic ?_ hcycle
  intro a p p' ⟨q, hp⟩ ⟨q', hp'⟩
  exact (hp.unique hp').1

/-- What is below a folder is of its project. -/
theorem Arranged.project_of_below (h : Arranged s) {x y q q' : Uuid} {p p' : Option Uuid}
    (hbelow : Below (Parent s) x y) (hx : Filed s x p q) (hy : Filed s y p' q') : q' = q := by
  induction hbelow generalizing p' q' with
  | refl => exact (hy.unique hx).2
  | @tail a b hpath hparent ih =>
      obtain ⟨r, hb⟩ := hparent
      obtain ⟨p'', ha⟩ := h.ownParent b a r hb
      exact ((hy.unique hb).2).trans (ih ha)

/-! ### What keeps it -/

theorem Arranged.of_filed (h : Arranged s) (hfiled : ∀ x p q, Filed s' x p q ↔ Filed s x p q)
    (hdocuments : ∀ d ∈ s'.documents, ∃ p, Filed s d.folderId p d.projectId) : Arranged s' := by
  have hsame : Filed s' = Filed s := by
    funext x p q
    exact propext (hfiled x p q)
  have hparent : Parent s' = Parent s := by
    unfold Parent
    rw [hsame]
  constructor
  · rw [hparent]
    exact h.forest
  · rw [hsame]
    exact h.ownParent
  · rw [hsame]
    exact hdocuments

/-- Other columns of the folders are written. -/
theorem filed_updated {p : Folder → Bool} {g : Folder → Folder}
    (h : Table.UpdatedRows s.folders s'.folders p g)
    (hg : ∀ f, (g f).id = f.id ∧ (g f).parentFolderId = f.parentFolderId ∧
      (g f).projectId = f.projectId) (x : Uuid) (r : Option Uuid) (q : Uuid) :
    Filed s' x r q ↔ Filed s x r q := by
  constructor
  · rintro ⟨f, hf, hid, hparent, hproject⟩
    rcases h.mem_iff.mp hf with ⟨hf, -⟩ | ⟨f₀, hf₀, -, rfl⟩
    · exact ⟨f, hf, hid, hparent, hproject⟩
    · obtain ⟨gid, gparent, gproject⟩ := hg f₀
      exact ⟨f₀, hf₀, gid ▸ hid, gparent ▸ hparent, gproject ▸ hproject⟩
  · rintro ⟨f, hf, hid, hparent, hproject⟩
    obtain ⟨gid, gparent, gproject⟩ := hg f
    refine h.exists_of_mem hf (fun _ ↦ ⟨hid, hparent, hproject⟩) fun _ ↦ ?_
    exact ⟨gid.trans hid, gparent.trans hparent, gproject.trans hproject⟩

/-- What holds of the rows an update finds, and of those it writes. -/
theorem forall_updateWhere {ρ κ : Type} [DecidableEq κ] {key : ρ → κ} {t : Table key} {p : ρ → Bool}
    {g : ρ → ρ} {hkey : ∀ r, key (g r) = key r} {Q : ρ → Prop} (h : ∀ r ∈ t, Q r)
    (hg : ∀ r ∈ t, p r = true → Q (g r)) : ∀ r ∈ t.updateWhere p g hkey, Q r := by
  intro r hr
  rcases Table.mem_updateWhere_cases.mp hr with ⟨hr, -⟩ | ⟨r₀, hr₀, hat, rfl⟩
  · exact h r hr
  · exact hg r₀ hr₀ hat

/-- A folder under a parent of its project. -/
theorem Arranged.inserted (h : Arranged s) {row : Folder}
    (hinsert : s.folders.insert row = some s'.folders) (hdocuments : s'.documents = s.documents)
    (hparent : ∀ p, row.parentFolderId = some p → ∃ r, Filed s p r row.projectId) : Arranged s' := by
  have hold : ∀ x p q, Filed s x p q → Filed s' x p q := by
    rintro x p q ⟨f, hf, hrest⟩
    exact ⟨f, (Table.mem_insert hinsert).mpr (.inl hf), hrest⟩
  have hnew : ∀ x p q, Filed s' x p q →
      Filed s x p q ∨ (x = row.id ∧ p = row.parentFolderId ∧ q = row.projectId) := by
    rintro x p q ⟨f, hf, rfl, rfl, rfl⟩
    rcases (Table.mem_insert hinsert).mp hf with hf | rfl
    · exact .inl (filed_of_mem hf)
    · exact .inr ⟨rfl, rfl, rfl⟩
  have hrow : Filed s' row.id row.parentFolderId row.projectId :=
    filed_of_mem ((Table.mem_insert hinsert).mpr (.inr rfl))
  constructor
  · refine h.forest.insert (x := row.id) (p := row.parentFolderId) ?_ ?_
    · intro y p
      constructor
      · rintro ⟨q, hq⟩
        rcases hnew y p q hq with hq | ⟨hy, hp, -⟩
        · exact .inl ⟨q, hq⟩
        · exact .inr ⟨hy, hp⟩
      · rintro (⟨q, hq⟩ | ⟨rfl, rfl⟩)
        · exact ⟨q, hold y p q hq⟩
        · exact ⟨row.projectId, hrow⟩
    · intro p hp
      obtain ⟨r, hr⟩ := hparent p hp
      exact ⟨r, row.projectId, hr⟩
  · intro x p q hx
    rcases hnew x (some p) q hx with hx | ⟨-, hp, rfl⟩
    · obtain ⟨r, hr⟩ := h.ownParent x p q hx
      exact ⟨r, hold p r q hr⟩
    · obtain ⟨r, hr⟩ := hparent p hp.symm
      exact ⟨r, hold p r _ hr⟩
  · intro d hd
    rw [hdocuments] at hd
    obtain ⟨p, hp⟩ := h.ownFolder d hd
    exact ⟨p, hold _ p _ hp⟩

/-- A folder is moved to one of its project that is not below it. -/
theorem Arranged.moved (h : Arranged s) {x target q : Uuid} {p r : Option Uuid} {g : Folder → Folder}
    (hrows : Table.UpdatedRows s.folders s'.folders (fun f ↦ f.id = x) g)
    (hg : ∀ f, (g f).id = f.id ∧ (g f).parentFolderId = some target ∧ (g f).projectId = f.projectId)
    (hdocuments : s'.documents = s.documents) (hx : Filed s x p q) (htarget : Filed s target r q)
    (hbelow : ¬ Below (Parent s) x target) : Arranged s' := by
  -- the folder has its new parent and is of the same project; no other is changed
  have hself : ∀ p' q', Filed s' x p' q' ↔ p' = some target ∧ q' = q := by
    intro p' q'
    constructor
    · rintro ⟨f, hf, hid, rfl, rfl⟩
      rcases hrows.mem_iff.mp hf with ⟨-, hne⟩ | ⟨f₀, hf₀, hat, rfl⟩
      · exact absurd hid (of_decide_eq_false hne)
      · obtain ⟨gid, gparent, gproject⟩ := hg f₀
        rw [gproject]
        exact ⟨gparent, ((filed_of_mem hf₀).unique (of_decide_eq_true hat ▸ hx)).2⟩
    · rintro ⟨rfl, rfl⟩
      obtain ⟨f, hf, hid, -, rfl⟩ := hx
      obtain ⟨gid, gparent, gproject⟩ := hg f
      exact hrows.exists_of_mem hf (fun hne ↦ absurd hid (of_decide_eq_false hne))
        fun _ ↦ ⟨gid.trans hid, gparent, gproject⟩
  have hother : ∀ y p' q', y ≠ x → (Filed s' y p' q' ↔ Filed s y p' q') := by
    intro y p' q' hy
    constructor
    · rintro ⟨f, hf, hid, hrest⟩
      rcases hrows.mem_iff.mp hf with ⟨hf, -⟩ | ⟨f₀, hf₀, hat, rfl⟩
      · exact ⟨f, hf, hid, hrest⟩
      · exact absurd (hid.symm.trans ((hg f₀).1.trans (of_decide_eq_true hat))) hy
    · rintro ⟨f, hf, hid, hrest⟩
      exact hrows.exists_of_mem hf (fun _ ↦ ⟨hid, hrest⟩)
        fun hat ↦ absurd (hid.symm.trans (of_decide_eq_true hat)) hy
  have hold : ∀ y p' q', Filed s y p' q' → ∃ p'', Filed s' y p'' q' := by
    intro y p' q' hy
    by_cases hyx : y = x
    · subst hyx
      exact ⟨some target, (hself _ _).mpr ⟨rfl, (hy.unique hx).2⟩⟩
    · exact ⟨p', (hother y p' q' hyx).mpr hy⟩
  constructor
  · refine h.forest.reparent (x := x) (p := some target) ?_ ?_ ?_
    · exact fun y p' hy ↦ exists_congr fun q' ↦ hother y p' q' hy
    · intro p'
      constructor
      · rintro ⟨q', hq'⟩
        exact ((hself p' q').mp hq').1
      · exact fun hp' ↦ ⟨q, (hself p' q).mpr ⟨hp', rfl⟩⟩
    · intro y hy
      cases hy
      exact ⟨⟨r, q, htarget⟩, hbelow⟩
  · intro y p' q' hy
    by_cases hyx : y = x
    · subst hyx
      obtain ⟨hp', rfl⟩ := (hself _ _).mp hy
      cases hp'
      exact hold target r _ htarget
    · obtain ⟨r', hr'⟩ := h.ownParent y p' q' ((hother y _ q' hyx).mp hy)
      exact hold p' r' q' hr'
  · intro d hd
    rw [hdocuments] at hd
    obtain ⟨p', hp'⟩ := h.ownFolder d hd
    exact hold _ p' _ hp'

end

/-! ## What a call leaves -/

section Calls

variable {s : Shared}

theorem Arranged.of_folders {s' : Shared} (h : Arranged s) (hfolders : s'.folders = s.folders)
    (hdocuments : ∀ d ∈ s'.documents, ∃ p, Filed s d.folderId p d.projectId) : Arranged s' := by
  refine h.of_filed (fun x p q ↦ ?_) hdocuments
  unfold Filed
  rw [hfolders]

/-- The rows of folders and documents are all there is to the invariant. -/
theorem Arranged.of_same {s' : Shared} (h : Arranged s) (hfolders : s'.folders = s.folders)
    (hdocuments : s'.documents = s.documents) : Arranged s' := by
  apply h.of_folders hfolders
  rw [hdocuments]
  exact h.ownFolder

theorem Arranged.sameBase {s' : Shared} (h : Arranged s) (hs : SameBase s s') : Arranged s' := by
  obtain ⟨users, rfl⟩ := hs
  exact h.of_same rfl rfl

/-- The tree is arranged after a handler, answered or failed. -/
def Leaves {α : Type} (p : Procedure α) (s : Shared) : Prop :=
  wp (p.run perform) (fun _ s' ↦ Arranged s') (fun _ s' ↦ Arranged s') s

theorem leaves_member_seq {α : Type} (h : Arranged s) {userId : Option Uuid} {projectId : IdText}
    {f : Uuid × Project → Procedure α}
    (hf : ∀ uid project s₁, Arranged s₁ → Leaves (f (uid, project)) s₁) :
    Leaves (member userId projectId >>= f) s :=
  wp_run_member_seq (fun _ _ hs ↦ h.sameBase hs) fun uid project _ _ _ _ ↦
    hf uid project _ (h.of_same rfl rfl)

theorem filed_of_findFolder {projectId i : Uuid} {f : Folder} (h : findFolder projectId i s = some f) :
    Filed s f.id f.parentFolderId projectId := by
  obtain ⟨hf, -, rfl, -⟩ := findFolder_eq_some.mp h
  exact filed_of_mem hf

theorem filed_of_rootOf {projectId root : Uuid} (h : rootOf projectId s = some root) :
    ∃ p, Filed s root p projectId := by
  obtain ⟨f, hfind, rfl⟩ := Option.map_eq_some_iff.mp h
  have hroot : f.projectId = projectId ∧ f.isRoot = true := by
    simpa only [decide_eq_true_eq] using List.find?_some hfind
  exact ⟨_, f, List.mem_of_find?_eq_some hfind, rfl, rfl, hroot.1⟩

theorem leaves_createKnowledgeFolder (h : Arranged s) (userId : Option Uuid) (projectId : IdText)
    (body : FolderBody) :
    Leaves (Knowledge.createKnowledgeFolder userId projectId body) s := by
  unfold Knowledge.createKnowledgeFolder
  refine leaves_member_seq h fun uid project s₁ hsame ↦ ?_
  refine wp_run_ofExcept_seq (fun _ ↦ hsame) fun name _ ↦ ?_
  have hinserted : ∀ parent, (∀ p, parent = some p → ∃ r, Filed s₁ p r project.id) →
      Leaves (ask (.insertFolder project.id parent name uid) >>= fun inserted ↦
        Proc.ofExcept (inserted.mapError (nameConflict "A folder with this name already exists here")) :
          Procedure Uuid) s₁ := by
    intro parent hparent
    refine wp_run_seq (P := fun _ s' ↦ Arranged s') (wp_run_issue ?_) fun inserted s' hs ↦ ?_
    · refine (wp_savepoint _).mpr (wp_returning.mpr ⟨fun id s₂ hs ↦ ?_, fun _ _ ↦ hsame⟩)
      obtain ⟨_, -, hs⟩ := except_bind_eq_ok.mp hs
      obtain ⟨_, -, hs⟩ := except_bind_eq_ok.mp hs
      split at hs
      · cases hs
      · rename_i folders hinsert
        cases hs
        exact hsame.inserted hinsert rfl hparent
    · exact (Service.wp_ofExcept _).mpr ⟨fun _ _ ↦ hs, fun _ _ ↦ hs⟩
  cases body.parentFolderId.truthy with
  | some id =>
      refine wp_run_lookUp_seq (fun _ ↦ hsame) fun i parent _ hparent ↦ hinserted (some parent.id) ?_
      rintro p hp
      cases hp
      exact ⟨_, filed_of_findFolder hparent⟩
  | none =>
      exact wp_run_query_seq (hinserted (rootOf project.id s₁) fun p hp ↦ filed_of_rootOf hp)

theorem insertDocument_eq_ok {new : NewDocument} {s' : Shared} {id : Uuid}
    (h : insertDocument new s = .ok (id, s')) : s'.folders = s.folders ∧
      ∃ row, s.documents.insert row = some s'.documents ∧ row.folderId = new.folderId ∧
        row.projectId = new.projectId := by
  unfold insertDocument at h
  obtain ⟨_, -, h⟩ := except_bind_eq_ok.mp h
  dsimp only at h
  split at h
  · cases h
  · obtain ⟨title, -, h⟩ := except_bind_eq_ok.mp h
    split at h
    · cases h
    · rename_i documents hinsert
      cases h
      exact ⟨rfl, _, hinsert, rfl, rfl⟩

theorem leaves_createKnowledgeDocument (h : Arranged s) (userId : Option Uuid)
    (projectId : IdText) (body : NewDocumentBody) :
    Leaves (Knowledge.createKnowledgeDocument userId projectId body) s := by
  unfold Knowledge.createKnowledgeDocument
  refine leaves_member_seq h fun uid project s₁ hsame ↦ ?_
  refine wp_run_require_seq hsame fun _ ↦ wp_run_require_seq hsame fun _ ↦ ?_
  refine wp_run_require_seq hsame fun _ ↦ wp_run_ofExcept_seq (fun _ ↦ hsame) fun _ _ ↦ ?_
  refine wp_run_requiredFolder_seq (fun _ ↦ hsame) fun i folder hfolder ↦ ?_
  refine wp_run_issue (wp_returning.mpr ⟨fun id s₂ hs ↦ ?_, fun _ _ ↦ hsame⟩)
  obtain ⟨hfolders, row, hinsert, hfiled, hproject⟩ := insertDocument_eq_ok hs
  refine hsame.of_folders hfolders fun d hd ↦ ?_
  rcases (Table.mem_insert hinsert).mp hd with hd | rfl
  · exact hsame.ownFolder d hd
  · rw [hfiled, hproject]
    exact ⟨_, filed_of_findFolder hfolder⟩

theorem leaves_restoreKnowledgeDocument (h : Arranged s) (userId : Option Uuid)
    (projectId documentId : IdText) :
    Leaves (Knowledge.restoreKnowledgeDocument userId projectId documentId) s := by
  unfold Knowledge.restoreKnowledgeDocument kbProjectRole kbRequireOwnerOrManager
  refine leaves_member_seq h fun uid project s₁ hsame ↦ ?_
  refine wp_run_query_seq (wp_run_require_seq hsame fun _ ↦ wp_run_require_seq hsame fun _ ↦ ?_)
  refine wp_run_ofExcept_seq (fun _ ↦ hsame) fun i _ ↦ ?_
  have hrevived : Arranged (reviveDocument i project.id uid s₁) := by
    refine hsame.of_folders rfl ?_
    unfold reviveDocument
    dsimp only
    exact forall_updateWhere hsame.ownFolder fun d hd _ ↦ hsame.ownFolder d hd
  refine wp_run_seq (P := fun _ s' ↦ Arranged s') (wp_run_issue ?_) fun hit s₂ hs ↦ ?_
  · unfold perform
    refine wp_returning.mpr ⟨fun hit s₂ hs ↦ ?_, fun e he ↦ by cases he⟩
    cases hs
    exact hrevived
  · exact wp_run_require (fun _ ↦ hs) fun _ ↦ hs

theorem leaves_moveKnowledgeFolder (h : Arranged s) (userId : Option Uuid)
    (projectId folderId : IdText) (body : FolderBody) :
    Leaves (Knowledge.moveKnowledgeFolder userId projectId folderId body) s := by
  unfold Knowledge.moveKnowledgeFolder kbFolder kbProjectRole kbRequireMutateAccess
  refine leaves_member_seq h fun uid project s₁ hsame ↦ ?_
  refine wp_run_lookUp_seq (fun _ ↦ hsame) fun i folder _ hfolder ↦ ?_
  refine wp_run_require_seq hsame fun _ ↦ wp_run_query_seq (wp_run_require_seq hsame fun _ ↦ ?_)
  refine wp_run_ofExcept_seq (fun _ ↦ hsame) fun _ _ ↦ ?_
  refine wp_run_lookUp_seq (fun _ ↦ hsame) fun j target _ htarget ↦ ?_
  refine wp_run_check_seq (fun _ ↦ hsame) fun below hquery ↦ wp_run_require_seq hsame fun hbelow ↦ ?_
  refine wp_run_seq (P := fun _ s' ↦ Arranged s') (wp_run_issue ?_) ?_
  · refine (wp_savepoint _).mpr (wp_returning.mpr ⟨fun hit s' hs ↦ ?_, fun _ _ ↦ hsame⟩)
    rcases updateFolder_eq_ok hs with rfl | ⟨row, hrow, hid, -, rfl⟩
    · exact hsame
    · refine hsame.moved rfl (fun f ↦ ⟨rfl, rfl, rfl⟩) rfl (filed_of_findFolder hfolder)
        (filed_of_findFolder htarget) fun hpath ↦ hbelow ?_
      -- the query was answered from the state the move finds
      obtain rfl := queryDescendants_eq_ok hquery
      exact mem_descendants.mpr ⟨_, List.mem_singleton_self _, mem_subtree_of_below
        ⟨folder, (findFolder_eq_some.mp hfolder).1, rfl⟩ hpath⟩
  · exact fun moved s' hs ↦ wp_run_ofExcept_seq (fun _ ↦ hs) fun _ _ ↦ (wp_pure ()).mpr hs

theorem leaves_moveKnowledgeDocument (h : Arranged s) (userId : Option Uuid)
    (projectId documentId : IdText) (folderId : Arg IdText) :
    Leaves (Knowledge.moveKnowledgeDocument userId projectId documentId folderId) s := by
  unfold Knowledge.moveKnowledgeDocument kbDocument kbProjectRole kbRequireMutateAccess
  refine leaves_member_seq h fun uid project s₁ hsame ↦ ?_
  refine wp_run_lookUp_seq (fun _ ↦ hsame) fun i doc _ hdoc ↦ ?_
  refine wp_run_query_seq (wp_run_require_seq hsame fun _ ↦ ?_)
  refine wp_run_requiredFolder_seq (fun _ ↦ hsame) fun j target htarget ↦ ?_
  refine wp_run_issue (wp_exec.mpr ⟨fun s' hs ↦ ?_, fun _ _ ↦ hsame⟩)
  obtain ⟨_, -, hs⟩ := except_bind_eq_ok.mp hs
  cases hs
  obtain ⟨hfind, hown⟩ := Option.filter_eq_some_iff.mp hdoc
  obtain ⟨hd, hdid⟩ := Table.find_eq_some.mp hfind
  refine hsame.of_folders rfl ?_
  dsimp only
  refine forall_updateWhere hsame.ownFolder fun d₀ hd₀ hat ↦ ?_
  have heq : d₀ = doc := Table.eq_of_key hd₀ hd (of_decide_eq_true hat)
  rw [heq, (of_decide_eq_true hown).1]
  exact ⟨_, filed_of_findFolder htarget⟩

/-- A cascade writes no parent, and moves a document to the root of its project only. -/
theorem Arranged.cascade {s' : Shared} {ids : List Uuid} {uid : Option Uuid} {reason : DeletionReason}
    (h : Arranged s) (hs : cascadeSoftDeleteFolderTree ids uid reason s = .ok s') : Arranged s' := by
  rcases cascadeSoftDeleteFolderTree_eq_ok hs with rfl | ⟨rfl, -⟩
  · exact h
  · apply h.of_filed (filed_updated folders_takeDown fun _ ↦ ⟨rfl, rfl, rfl⟩)
    unfold takeDown
    dsimp only
    refine forall_updateWhere ?_ fun d hd _ ↦ ?_
    · exact forall_updateWhere h.ownFolder fun d hd _ ↦ h.ownFolder d hd
    · cases hroot : rootOf d.projectId s with
      | none =>
          -- a project without a root: the document keeps its folder
          have hown : ∃ p, Filed s d.folderId p d.projectId := by
            refine forall_updateWhere h.ownFolder ?_ d hd
            exact fun d hd _ ↦ h.ownFolder d hd
          obtain ⟨p, hp⟩ := hown
          exact ⟨p, by simpa only [hroot, Option.getD_none] using hp⟩
      | some root =>
          obtain ⟨p, hp⟩ := filed_of_rootOf hroot
          exact ⟨p, by simpa only [hroot, Option.getD_some] using hp⟩

theorem leaves_deleteKnowledgeFolder (h : Arranged s) (userId : Option Uuid)
    (projectId folderId : IdText) :
    Leaves (Knowledge.deleteKnowledgeFolder userId projectId folderId) s := by
  unfold Knowledge.deleteKnowledgeFolder kbFolder kbProjectRole kbRequireMutateAccess
  refine leaves_member_seq h fun uid project s₁ hsame ↦ ?_
  refine wp_run_lookUp_seq (fun _ ↦ hsame) fun i folder _ _ ↦ ?_
  refine wp_run_require_seq hsame fun _ ↦ wp_run_query_seq (wp_run_require_seq hsame fun _ ↦ ?_)
  refine wp_run_check_seq (fun _ ↦ hsame) fun keys _ ↦ ?_
  refine wp_run_seq (P := fun _ s' ↦ Arranged s') (wp_run_issue (wp_exec.mpr
    ⟨fun s' hs ↦ hsame.cascade hs, fun _ _ ↦ hsame⟩)) fun _ s₂ hs ↦ ?_
  refine wp_mono (run_purge_spec keys) ?_ fun _ _ hf ↦ hf
  rintro _ _ ⟨objects, rfl⟩
  exact hs.of_same rfl rfl

theorem leaves_restoreKnowledgeFolder (h : Arranged s) (userId : Option Uuid)
    (projectId folderId : IdText) :
    Leaves (Knowledge.restoreKnowledgeFolder userId projectId folderId) s := by
  unfold Knowledge.restoreKnowledgeFolder kbProjectRole kbRequireOwnerOrManager
  refine leaves_member_seq h fun uid project s₁ hsame ↦ ?_
  refine wp_run_query_seq (wp_run_require_seq hsame fun _ ↦ ?_)
  refine wp_run_lookUp_seq (fun _ ↦ hsame) fun i existing _ _ ↦ wp_run_require_seq hsame fun _ ↦ ?_
  refine wp_run_seq (P := fun _ s' ↦ Arranged s') (wp_run_issue (wp_returning.mpr
    ⟨fun hit s' hs ↦ ?_, fun _ _ ↦ hsame⟩)) fun hit s' hs ↦ wp_run_require (fun _ ↦ hs) fun _ ↦ hs
  rcases updateFolder_eq_ok hs with rfl | ⟨row, hrow, hid, -, rfl⟩
  · exact hsame
  · exact hsame.of_filed (filed_updated rfl fun _ ↦ ⟨rfl, rfl, rfl⟩) hsame.ownFolder

theorem arranged_call (h : Arranged s) (c : Call) : Arranged (c.leaves s) := by
  cases c with
  | createKnowledgeFolder userId projectId body =>
      exact after_of_wp (leaves_createKnowledgeFolder h userId projectId body)
  | createKnowledgeDocument userId projectId body =>
      exact after_of_wp (leaves_createKnowledgeDocument h userId projectId body)
  | restoreKnowledgeDocument userId projectId documentId =>
      exact after_of_wp (leaves_restoreKnowledgeDocument h userId projectId documentId)
  | rearrange c =>
      cases c with
      | moveKnowledgeFolder userId projectId folderId body =>
          exact after_of_wp (leaves_moveKnowledgeFolder h userId projectId folderId body)
      | moveKnowledgeDocument userId projectId documentId folderId =>
          exact after_of_wp (leaves_moveKnowledgeDocument h userId projectId documentId folderId)
      | deleteKnowledgeFolder userId projectId folderId =>
          exact after_of_wp (leaves_deleteKnowledgeFolder h userId projectId folderId)
      | restoreKnowledgeFolder userId projectId folderId =>
          exact after_of_wp (leaves_restoreKnowledgeFolder h userId projectId folderId)
      | integrationDisconnect folderIds uid =>
          apply after_of_wp
          exact wp_run_issue (wp_exec.mpr ⟨fun s' hs ↦ h.cascade hs, fun _ _ ↦ h⟩)

end Calls

/-! ## Runs -/

/-- What holds of the knowledge base between two calls. -/
structure Kept (s : Shared) : Prop where
  forest : Forest (Parent s)
  ends : ∀ ids, Knowledge.queryDescendants ids s = .ok (descendants ids s)
  ownTree : ∀ x y p p' q q', y ∈ subtree x s → Filed s x p q → Filed s y p' q' → q' = q
  ownFolder : ∀ d ∈ s.documents, ∃ p, Filed s d.folderId p d.projectId

theorem Arranged.kept {s : Shared} (h : Arranged s) : Kept s where
  forest := h.forest
  ends := h.queryDescendants
  ownTree _ _ _ _ _ _ hy hx hy' := h.project_of_below (below_of_mem_subtree hy) hx hy'
  ownFolder := h.ownFolder

/-- One call after the other, the folders stay a forest whose recursive queries end, what is below a
folder is of its project, and a document is in a folder of its own. -/
theorem trees_kept_always {s : Shared} (h : Arranged s) (requests : List Request) :
    Always step Kept s requests := by
  have hstep : ∀ s q, Arranged s → True → Arranged (step s q) ∧ True := by
    intro s q hs _
    have hlater : Arranged { s with db := { s.db with now := q.now } } := hs.of_same rfl rfl
    exact ⟨arranged_call hlater q.call, trivial⟩
  exact (Along.invariant hstep h (along_true s requests)).1.mono fun s hs ↦ hs.kept

theorem arranged_board : Arranged board where
  forest := by
    have hroot : Rooted (Parent board) 200 := .root ⟨100, by decide⟩
    have hfolders : ∀ f ∈ board.folders, f.id = 200 ∨ Filed board f.id (some 200) 100 := by decide
    rintro x p ⟨q, f, hf, rfl, -, -⟩
    rcases hfolders f hf with hid | hchild
    · exact hid ▸ hroot
    · exact .child ⟨100, hchild⟩ hroot
  ownParent := by
    have hfolders : ∀ f ∈ board.folders, f.parentFolderId.all (· = 200) ∧ f.projectId = 100 := by decide
    rintro x p q ⟨f, hf, -, hparent, rfl⟩
    obtain ⟨hall, hproject⟩ := hfolders f hf
    rw [hparent] at hall
    obtain rfl : p = 200 := of_decide_eq_true hall
    rw [hproject]
    exact ⟨none, by decide⟩
  ownFolder _ hd := by cases hd

/-- The notes are moved into the folder of Jira, and that folder is not moved into the notes. -/
theorem trees_kept_board : Always step Kept board
    [⟨1, .rearrange (.moveKnowledgeFolder (some 1) (.canonical 100) (.canonical 202)
        ⟨.undefined, .value (.canonical 201)⟩)⟩,
      ⟨2, .rearrange (.moveKnowledgeFolder (some 1) (.canonical 100) (.canonical 201)
        ⟨.undefined, .value (.canonical 202)⟩)⟩] :=
  trees_kept_always arranged_board _

end Tesbo.FolderTrees
