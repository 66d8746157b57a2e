import Tesbo.Reasoning.Procedures
import Tesbo.Access

/-!
# The checks of `Access`, statement by statement

For handlers whose statements others may come between.  A machine says where its state keeps the
database and which of its writes repairs a stale `active_organization_id`.
-/

namespace Tesbo.Steps

open Reasoning Proc

/-- How the statements of a machine reach the database. -/
class Backed (σ : Type) {κ : Type} (Reply : κ → Type) where
  db : σ → Db
  repair : (uid organizationId : Uuid) → κ

variable {σ κ : Type} {Reply : κ → Type} [Backed σ Reply]

/-- A statement that reads the database. -/
def select {α : Type} (f : Db → α) : Proc σ Reply Failure α := query fun s ↦ f (Backed.db Reply s)

def found {α : Type} (f : Db → Option α) (e : Failure) : Proc σ Reply Failure α :=
  check fun s ↦ (f (Backed.db Reply s)).elim (.error e) .ok

def requireUser (userId : Option Uuid) : Proc σ Reply Failure Uuid :=
  ofExcept (userId.elim (.error (.badRequest "Authentication required")) .ok)

def workspace (userId : Option Uuid) : Proc σ Reply Failure Workspace := do
  let uid ← requireUser userId
  match ← select (activeWorkspace uid) with
  | some active => pure active
  | none =>
      let earliest ← found (earliestWorkspace uid) (.notFound "Workspace not found")
      .write (Backed.repair σ Reply uid earliest.id) fun _ ↦ pure earliest

def requireProjectAccess (userId : Option Uuid) (projectId : IdText) :
    Proc σ Reply Failure ProjectAccess := do
  let uid ← requireUser userId
  require projectId.isUuid (.notFound "Project not found")
  let id ← ofExcept (readUuid projectId)
  let workspace ← workspace (some uid)
  found (findProjectAccess uid workspace.id id) (.notFound "Project not found")

section Rules

variable {R : σ → σ → Prop} {L : σ → κ → Prop} {s : σ}

theorem asks_found_seq {α β : Type} {f : Db → Option α} {e : Failure}
    {g : α → Proc σ Reply Failure β} {Q : β → σ → Prop}
    (hg : ∀ s', R s s' → ∀ a, f (Backed.db Reply s') = some a → Asks R L Q s' (g a)) :
    Asks R L Q s (found f e >>= g) :=
  asks_check_seq fun s' hs a ha ↦ hg s' hs a (eq_some_of_found ha)

theorem asks_found {α : Type} {f : Db → Option α} {e : Failure} {Q : α → σ → Prop}
    (h : ∀ s', R s s' → ∀ a, f (Backed.db Reply s') = some a → ∀ s'', R s' s'' → Q a s'') :
    Asks R L Q s (found f e : Proc σ Reply Failure α) :=
  asks_check fun s' hs a ha ↦ h s' hs a (eq_some_of_found ha)

omit [Backed σ Reply] in
theorem asks_requireUser_seq {β : Type} {userId : Option Uuid} {g : Uuid → Proc σ Reply Failure β}
    {Q : β → σ → Prop} (hg : ∀ uid, userId = some uid → Asks R L Q s (g uid)) :
    Asks R L Q s (requireUser userId >>= g) :=
  asks_ofExcept_seq fun uid huid ↦ hg uid (eq_some_of_found huid)

theorem asks_workspace
    (hrepair : ∀ s uid organizationId, L s (Backed.repair σ Reply uid organizationId))
    {userId : Option Uuid} :
    Asks R L (fun _ _ ↦ True) s (workspace userId : Proc σ Reply Failure Workspace) := by
  unfold workspace
  refine asks_requireUser_seq fun uid _ ↦ asks_query_seq fun s₁ h₁ ↦ ?_
  cases activeWorkspace uid (Backed.db Reply s₁) with
  | some active => exact asks_pure fun _ _ ↦ trivial
  | none =>
      refine asks_found_seq fun s₂ h₂ earliest _ ↦ ?_
      exact asks_write (fun _ _ ↦ hrepair _ _ _) fun _ _ _ ↦ asks_pure fun _ _ ↦ trivial

/-- The project is read once and handed on: it was there in some state before. -/
theorem asks_requireProjectAccess (hrefl : ∀ a, R a a) (htrans : ∀ a b c, R a b → R b c → R a c)
    (hrepair : ∀ s uid organizationId, L s (Backed.repair σ Reply uid organizationId))
    {userId : Option Uuid} {projectId : IdText} :
    Asks R L (fun access s' ↦ projectId.uuid = some access.project.id ∧
      ∃ s₁, access.project ∈ (Backed.db Reply s₁).projects ∧ R s₁ s') s
      (requireProjectAccess userId projectId : Proc σ Reply Failure ProjectAccess) := by
  unfold requireProjectAccess
  refine asks_requireUser_seq fun uid _ ↦ asks_require_seq fun _ ↦ asks_ofExcept_seq fun id hid ↦ ?_
  refine asks_seq hrefl htrans (asks_workspace hrepair) fun workspace s₁ h₁ _ ↦ ?_
  refine asks_found fun s₂ h₂ access haccess s₃ h₃ ↦ ?_
  obtain ⟨hproject, rfl, -⟩ := findProjectAccess_eq_some haccess
  exact ⟨readUuid_eq_ok.mp hid, s₂, hproject, h₃⟩

end Rules

end Tesbo.Steps
