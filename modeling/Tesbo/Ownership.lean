import Tesbo.Team

/-!
# Owners and managers of a workspace

The roles in a workspace are written by two upserts, an update and a delete.  Each handler checks
something of the caller, of the role asked for or of the member there is, in statements of their
own; no write repeats a check.
-/

namespace Tesbo.Ownership

open Reasoning Proc Team

def At (organizationId userId : Uuid) (m : OrganizationMember) : Prop :=
  m.organizationId = organizationId ∧ m.userId = userId

instance (organizationId userId : Uuid) : DecidablePred (At organizationId userId) := fun m ↦
  inferInstanceAs (Decidable (m.organizationId = organizationId ∧ m.userId = userId))

def HasOwner (organizationId : Uuid) (db : Db) : Prop :=
  ∃ m ∈ db.organizationMembers, m.organizationId = organizationId ∧ normalizeRole m.role = .owner

instance (organizationId : Uuid) (db : Db) : Decidable (HasOwner organizationId db) :=
  inferInstanceAs (Decidable (∃ m ∈ db.organizationMembers, _ ∧ _))

/-- The members of the workspace singled out by `p` have the same role as before, or are gone. -/
def KeepsRole (organizationId : Uuid) (p : OrganizationMember → Prop) (db db' : Db) : Prop :=
  ∀ m ∈ db.organizationMembers, m.organizationId = organizationId → p m →
    ∀ m' ∈ db'.organizationMembers, At m.organizationId m.userId m' →
      normalizeRole m'.role = normalizeRole m.role

/-- The members a call of a manager must leave as they are. -/
def AboveManager (uid : Uuid) (m : OrganizationMember) : Prop :=
  normalizeRole m.role = .owner ∨ normalizeRole m.role = .manager ∧ m.userId ≠ uid

/-- Who makes the call a write belongs to, where the call depends on a role. -/
def callerOf : Write → Option Caller
  | .upsertMember caller .. | .deleteMember caller .. | .setMemberRole caller ..
  | .insertInvitation caller .. => some caller
  | _ => none

/-- The move changes no owner's role, and made by a manager no other manager's either. -/
def Ranked [Unicode] [TokenHash] (organizationId : Uuid) (c : Run) (m : Move Call) : Prop :=
  KeepsRole organizationId (fun m ↦ normalizeRole m.role = .owner) c.shared.db (step c m).shared.db ∧
    ∀ w ∈ moving c m, ∀ caller ∈ callerOf w, caller.role = .manager →
      KeepsRole organizationId (AboveManager caller.uid) c.shared.db (step c m).shared.db

/-- What a write must meet: an upsert hits no owner, and made for a manager no other manager; a
delete of an owner leaves another. -/
def Guarded (organizationId : Uuid) (s : Shared) : Write → Prop
  | .upsertMember caller o u _ => o = organizationId → ∀ m ∈ s.db.organizationMembers, At o u m →
      normalizeRole m.role ≠ .owner ∧
        (caller.role = .manager → normalizeRole m.role = .manager → u = caller.uid)
  | .commitAccept inv uid => inv.organizationId = organizationId →
      ∀ m ∈ s.db.organizationMembers, At inv.organizationId uid m → normalizeRole m.role ≠ .owner
  | .deleteMember _ o u => o = organizationId →
      (∃ m ∈ s.db.organizationMembers, At o u m ∧ normalizeRole m.role = .owner) →
        ∃ m ∈ s.db.organizationMembers, m.organizationId = o ∧ m.userId ≠ u ∧
          normalizeRole m.role = .owner
  | _ => True

instance (organizationId : Uuid) (s : Shared) : ∀ w, Decidable (Guarded organizationId s w)
  | .upsertMember .. | .commitAccept .. =>
      inferInstanceAs (Decidable (_ = _ → ∀ m ∈ s.db.organizationMembers, At _ _ m → _))
  | .deleteMember .. => inferInstanceAs (Decidable (_ = _ →
      (∃ m ∈ s.db.organizationMembers, At _ _ m ∧ _) → ∃ m ∈ s.db.organizationMembers, _ ∧ _ ∧ _))
  | .setActiveOrganization .. | .upsertUser .. | .setMemberRole .. | .insertInvitation ..
  | .markExpired .. | .markOverdue .. | .markCancelled .. | .renewToken .. | .markDeclined ..
  | .commitRegister .. | .elapse .. => instDecidableTrue

/-! ## What a write does to the members -/

section Writes

variable {db db' : Db} {w : Write}

/-- The row a write can put among the members. -/
def Puts (db : Db) (m : OrganizationMember) : Write → Prop
  | .upsertMember _ o u role | .setMemberRole _ o u role => m = ⟨o, u, role.text⟩
  | .commitAccept inv uid => m = ⟨inv.organizationId, uid, inv.role⟩
  | .commitRegister inv => m.role = inv.role ∧
      ∀ r ∈ db.organizationMembers, ¬ At m.organizationId m.userId r
  | _ => False

/-- The row a write can overwrite or take away. -/
def Replaces (m : OrganizationMember) : Write → Prop
  | .upsertMember _ o u _ | .setMemberRole _ o u _ | .deleteMember _ o u => At o u m
  | .commitAccept inv uid => At inv.organizationId uid m
  | _ => False

structure MembersMove (w : Write) (db db' : Db) : Prop where
  mem_or_puts : ∀ m ∈ db'.organizationMembers, m ∈ db.organizationMembers ∨ Puts db m w
  mem_or_replaces : ∀ m ∈ db.organizationMembers, m ∈ db'.organizationMembers ∨ Replaces m w

theorem MembersMove.of_eq (h : db'.organizationMembers = db.organizationMembers) :
    MembersMove w db db' := ⟨fun _ hm ↦ .inl (h ▸ hm), fun _ hm ↦ .inl (h ▸ hm)⟩

theorem upsert_moves {o u : Uuid} {role : String}
    {members : Table fun m : OrganizationMember ↦ (m.organizationId, m.userId)}
    {hf : ∀ m : OrganizationMember, (m.organizationId, m.userId) = (m.organizationId, m.userId)}
    {m : OrganizationMember} :
    (m ∈ members.upsert ⟨o, u, role⟩ (fun m ↦ { m with role := role }) hf →
      m ∈ members ∨ m = ⟨o, u, role⟩) ∧
    (m ∈ members → m ∈ members.upsert ⟨o, u, role⟩ (fun m ↦ { m with role := role }) hf ∨
      At o u m) := by
  rw [Table.mem_upsert]
  simp only [Prod.mk.injEq]
  constructor
  · rintro (⟨hm, -⟩ | ⟨rfl, -⟩ | ⟨r, hr, ⟨rfl, rfl⟩, rfl⟩)
    · exact .inl hm
    · exact .inr rfl
    · exact .inr rfl
  · intro hm
    by_cases hat : m.organizationId = o ∧ m.userId = u
    · exact .inr hat
    · exact .inl (.inl ⟨hm, fun heq ↦ hat (Prod.mk.inj heq)⟩)

theorem membersMove_perform (w : Write) (s : Shared) :
    MembersMove w s.db (Service.after (perform w) s).db := by
  have hself : MembersMove w s.db s.db := .of_eq rfl
  cases w with
  | setActiveOrganization | markExpired | markOverdue | markCancelled | elapse => exact .of_eq rfl
  | markDeclined id => exact .of_eq rfl
  | upsertUser email =>
      refine db_after_attempt hself fun uid db' h ↦ ?_
      obtain ⟨users, uuids, rfl⟩ := upsertUser_eq_ok h
      exact .of_eq rfl
  | insertInvitation caller o email role token expiresAt projectIds =>
      refine db_after_attempt_ hself fun db' h ↦ ?_
      obtain ⟨row, -, -, invitations, uuids, -, rfl⟩ := insertInvitation_eq_ok h
      exact .of_eq rfl
  | renewToken id token expiresAt =>
      refine db_after_attempt_ hself fun db' h ↦ ?_
      obtain rfl := renewToken_eq_ok h
      exact .of_eq rfl
  | upsertMember caller o u role =>
      refine db_after_attempt_ hself fun db' h ↦ ?_
      obtain rfl := upsertMember_eq_ok h
      exact ⟨fun m ↦ upsert_moves.1, fun m ↦ upsert_moves.2⟩
  | commitAccept inv uid =>
      refine db_after_attempt_ hself fun db' h ↦ ?_
      have hmembers := (commitAccept_eq_ok h).1
      refine ⟨fun m hm ↦ ?_, fun m hm ↦ ?_⟩
      · rw [hmembers] at hm
        exact upsert_moves.1 hm
      · rw [hmembers]
        exact upsert_moves.2 hm
  | commitRegister inv =>
      refine db_after_attempt hself fun uid db' h ↦ ?_
      have hinsert := (commitRegister_eq_ok h).1
      refine ⟨fun m hm ↦ ?_, fun m hm ↦ .inl ((Table.mem_insert hinsert).mpr (.inl hm))⟩
      rcases (Table.mem_insert hinsert).mp hm with hm | rfl
      · exact .inl hm
      · refine .inr ⟨rfl, fun r hr hat ↦ ?_⟩
        exact (Table.insert_eq_some hinsert).2 r hr (by rw [hat.1, hat.2])
  | setMemberRole caller o u role =>
      have hupdated : s.db.organizationMembers.UpdatedRows
          (setMemberRole o u role.text s.db).organizationMembers
          (fun m ↦ m.organizationId = o ∧ m.userId = u) (fun m ↦ { m with role := role.text }) := rfl
      refine ⟨fun m hm ↦ ?_, fun m hm ↦ ?_⟩
      · rcases hupdated.mem_iff.mp hm with ⟨hm, -⟩ | ⟨r, -, hr, rfl⟩
        · exact .inl hm
        · obtain ⟨rfl, rfl⟩ := decide_eq_true_eq.mp hr
          exact .inr rfl
      · by_cases hat : m.organizationId = o ∧ m.userId = u
        · exact .inr hat
        · exact .inl (hupdated.mem_iff.mpr (.inl ⟨hm, decide_eq_false hat⟩))
  | deleteMember caller o u =>
      refine ⟨fun m hm ↦ .inl (Table.mem_deleteWhere.mp hm).1, fun m hm ↦ ?_⟩
      by_cases hat : m.organizationId = o ∧ m.userId = u
      · exact .inr hat
      · exact .inl (Table.mem_deleteWhere.mpr ⟨hm, decide_eq_false hat⟩)

end Writes

/-! ## What the handlers ask for -/

section Asking

/-- No invitation is to the role of owner. -/
def PlainInvitations (db : Db) : Prop := ∀ i ∈ db.invitations, normalizeRole i.role ≠ .owner

instance (db : Db) : Decidable (PlainInvitations db) :=
  inferInstanceAs (Decidable (∀ i ∈ db.invitations, _))

/-- From one state to a later one nobody has become an owner. -/
structure Unpromoted (s s' : Shared) : Prop where
  plain : PlainInvitations s.db → PlainInvitations s'.db
  owners : ∀ m ∈ s'.db.organizationMembers, normalizeRole m.role = .owner →
    m ∈ s.db.organizationMembers

theorem Unpromoted.refl (s : Shared) : Unpromoted s s := ⟨id, fun _ hm _ ↦ hm⟩

theorem Unpromoted.trans (s₁ s₂ s₃ : Shared) (h : Unpromoted s₁ s₂) (h' : Unpromoted s₂ s₃) :
    Unpromoted s₁ s₃ :=
  ⟨h'.plain ∘ h.plain, fun m hm howner ↦ h.owners m (h'.owners m hm howner) howner⟩

/-- What the checks of the handlers establish of the writes they ask for. -/
def Legal (s : Shared) : Write → Prop
  | .upsertMember _ _ _ role => role ≠ .owner
  | .setMemberRole caller o u role => caller.role = .owner ∧ role ≠ .owner ∧
      ∀ m ∈ s.db.organizationMembers, At o u m → normalizeRole m.role ≠ .owner
  | .commitAccept inv _ | .commitRegister inv => normalizeRole inv.role ≠ .owner
  | .insertInvitation _ _ _ role _ _ _ => role ≠ .owner
  | _ => True

variable {s : Shared} {userId : Option Uuid}

theorem eq_of_found {α : Type} {f : Db → Option α} {e : Failure} {a : α}
    (h : (f s.db).elim (.error e) Except.ok = .ok a) : f s.db = some a := by
  cases hf : f s.db with
  | none => rw [hf] at h; cases h
  | some a' =>
      rw [hf] at h
      exact congrArg some (Except.ok.inj h)

/-- A part of a handler whose answer has `Q`, and the rest. -/
abbrev Requests {α : Type} (s : Shared) (p : Procedure α) (Q : α → Prop) : Prop :=
  Asks Unpromoted Legal (fun a _ ↦ Q a) s p

theorem asks_workspace : Requests s (Team.workspace userId) fun _ ↦ True := by
  unfold Team.workspace Team.requireUser
  refine asks_ofExcept_seq fun uid _ ↦ asks_query_seq fun s₁ _ ↦ ?_
  split
  · exact asks_pure fun _ _ ↦ trivial
  · refine asks_check_seq fun _ _ _ _ ↦ asks_issue_seq (fun _ _ ↦ trivial) fun _ _ _ ↦ ?_
    exact asks_pure fun _ _ ↦ trivial

theorem asks_callerIn : Requests s (callerIn userId) fun _ ↦ True := by
  unfold callerIn Team.requireUser
  refine asks_ofExcept_seq fun uid _ ↦ ?_
  refine asks_seq .refl .trans asks_workspace fun _ _ _ _ ↦ asks_pure fun _ _ ↦ trivial

/-- The rest of a handler that starts with its caller's workspace. -/
theorem asks_callerIn_seq {f : Caller × Uuid → Procedure Unit}
    (hf : ∀ caller workspaceId s', Unpromoted s s' →
      Requests s' (f (caller, workspaceId)) fun _ ↦ True) :
    Requests s (callerIn userId >>= f) fun _ ↦ True :=
  asks_seq .refl .trans asks_callerIn fun a s' hs _ ↦ hf a.1 a.2 s' hs

theorem asks_write (w : Write) (hw : ∀ s', Unpromoted s s' → Legal s' w) :
    Requests s (ask w) fun _ ↦ True := asks_issue .trans hw fun _ _ _ ↦ trivial

theorem asks_addWorkspaceMember [Unicode] {body : MemberBody} :
    Requests s (addWorkspaceMember userId body) fun _ ↦ True := by
  unfold addWorkspaceMember
  refine asks_callerIn_seq fun caller workspaceId s₁ _ ↦ ?_
  dsimp only
  refine asks_require_seq fun _ ↦ asks_require_seq fun _ ↦ asks_require_seq fun _ ↦ ?_
  refine asks_ofExcept_seq fun role _ ↦ asks_require_seq fun hrole ↦ asks_require_seq fun _ ↦ ?_
  have hadded : Requests s₁ (addedUser body.userId.truthy
      (Unicode.toLowerCase (jsTrim (body.email.truthy.getD "")))) fun _ ↦ True := by
    unfold addedUser
    cases body.userId.truthy with
    | none => exact asks_write (.upsertUser _) fun _ _ ↦ trivial
    | some target =>
        refine asks_ofExcept_seq fun _ _ ↦ asks_check_seq fun _ _ _ _ ↦ ?_
        exact asks_pure fun _ _ ↦ trivial
  exact asks_seq .refl .trans hadded fun target _ _ _ ↦
    asks_write (.upsertMember caller workspaceId target role) fun _ _ ↦ hrole

theorem asks_removeWorkspaceMember {targetUserId : IdText} :
    Requests s (removeWorkspaceMember userId targetUserId) fun _ ↦ True := by
  unfold removeWorkspaceMember
  refine asks_callerIn_seq fun caller workspaceId s₁ _ ↦ ?_
  dsimp only
  refine asks_require_seq fun _ ↦ asks_require_seq fun _ ↦ asks_ofExcept_seq fun target _ ↦ ?_
  refine asks_check_seq fun s₂ _ member _ ↦ ?_
  have hprotect : Requests s₂ (protectLastOwner workspaceId member) fun _ ↦ True := by
    unfold protectLastOwner
    split
    · exact asks_query_seq fun _ _ ↦ asks_require fun _ _ _ ↦ trivial
    · exact asks_pure fun _ _ ↦ trivial
  refine asks_seq .refl .trans hprotect fun _ _ _ _ ↦ ?_
  exact asks_require_seq fun _ ↦
    asks_write (.deleteMember caller workspaceId target) fun _ _ ↦ trivial

/-- Nobody becomes an owner between the check of the target's role and the update. -/
theorem asks_changeWorkspaceMemberRole {targetUserId : IdText} {newRole : String} :
    Requests s (changeWorkspaceMemberRole userId targetUserId newRole) fun _ ↦ True := by
  unfold changeWorkspaceMemberRole
  refine asks_callerIn_seq fun caller workspaceId s₁ _ ↦ ?_
  dsimp only
  refine asks_require_seq fun hcaller ↦ asks_require_seq fun _ ↦ asks_require_seq fun _ ↦ ?_
  refine asks_ofExcept_seq fun target _ ↦ asks_check_seq fun s₂ _ member hmember ↦ ?_
  refine asks_require_seq fun hnot ↦ asks_ofExcept_seq fun role _ ↦ asks_require_seq fun hrole ↦ ?_
  refine asks_write (.setMemberRole caller workspaceId target role) fun s₃ hs₃ ↦
    ⟨hcaller, hrole, fun m hm hat howner ↦ hnot ?_⟩
  have hfound := eq_of_found hmember
  unfold findMember at hfound
  simp only [Bind.bind, Option.bind_eq_some_iff] at hfound
  obtain ⟨member', hfind, _, -, hsame⟩ := hfound
  obtain ⟨hmem, hkey⟩ := Table.find_eq_some.mp hfind
  have hrow : m = member' :=
    Table.eq_of_key (hs₃.owners m hm howner) hmem (by rw [hkey, hat.1, hat.2])
  rw [← Option.some.inj hsame, ← hrow]
  exact howner

/-! ### Invitations -/

theorem asks_createInvitation [Unicode] [TokenHash] {body : InvitationBody} {token : String} :
    Requests s (createInvitation userId body token) fun _ ↦ True := by
  unfold createInvitation
  refine asks_callerIn_seq fun caller workspaceId s₁ _ ↦ ?_
  dsimp only
  refine asks_require_seq fun _ ↦ asks_require_seq fun _ ↦ asks_require_seq fun _ ↦ ?_
  refine asks_require_seq fun hrole ↦ asks_require_seq fun _ ↦ asks_query_seq fun _ _ ↦ ?_
  refine asks_require_seq fun _ ↦ asks_query_seq fun _ _ ↦ asks_require_seq fun _ ↦ ?_
  refine asks_ofExcept_seq fun _ _ ↦ asks_query_seq fun _ _ ↦ asks_require_seq fun _ ↦ ?_
  exact asks_query_seq fun _ _ ↦ asks_write (.insertInvitation ..) fun _ _ ↦ hrole

variable [TokenHash] {token : String}

/-- An invitation that is read is to a role below owner. -/
theorem asks_invitationOf_seq {β : Type} {f : Invitation → Procedure β} {Q : β → Prop}
    (hplain : PlainInvitations s.db)
    (hf : ∀ inv s', Unpromoted s s' → normalizeRole inv.role ≠ .owner → Requests s' (f inv) Q) :
    Requests s (invitationOf token >>= f) Q := by
  refine asks_check_seq fun s₁ hs₁ inv hinv ↦ hf inv s₁ hs₁ ?_
  exact hs₁.plain hplain inv (List.mem_of_find?_eq_some (eq_of_found hinv))

theorem asks_getInvitationRowOrThrow (hplain : PlainInvitations s.db) :
    Requests s (getInvitationRowOrThrow token) fun inv ↦ normalizeRole inv.role ≠ .owner := by
  unfold getInvitationRowOrThrow
  refine asks_invitationOf_seq hplain fun inv s₁ _ hrole ↦ ?_
  refine asks_require_seq fun _ ↦ asks_query_seq fun _ _ ↦ ?_
  split
  · exact asks_issue_seq (fun _ _ ↦ trivial) fun _ _ _ ↦ asks_fail
  · exact asks_pure fun _ _ ↦ hrole

theorem asks_answeredInvitation [Unicode] {uid : Uuid} {refusals : Refusals}
    (hplain : PlainInvitations s.db) : Requests s (answeredInvitation uid token refusals) fun inv ↦
      normalizeRole inv.role ≠ .owner := by
  unfold answeredInvitation
  refine asks_invitationOf_seq hplain fun inv s₁ _ hrole ↦ ?_
  refine asks_require_seq fun _ ↦ asks_require_seq fun _ ↦ asks_require_seq fun _ ↦ ?_
  refine asks_query_seq fun _ _ ↦ asks_require_seq fun _ ↦ asks_check_seq fun _ _ _ _ ↦ ?_
  exact asks_require_seq fun _ ↦ asks_pure fun _ _ ↦ hrole

theorem asks_enter [Unicode] (hplain : PlainInvitations s.db) (call : Call) :
    Requests s (enter call) fun _ ↦ True := by
  cases call with
  | addWorkspaceMember userId body => exact asks_addWorkspaceMember
  | removeWorkspaceMember userId targetUserId => exact asks_removeWorkspaceMember
  | changeWorkspaceMemberRole userId targetUserId newRole => exact asks_changeWorkspaceMemberRole
  | createInvitation userId body token => exact asks_createInvitation
  | cancelInvitation userId inviteId =>
      refine asks_callerIn_seq fun caller workspaceId s₁ _ ↦ ?_
      dsimp only
      refine asks_ofExcept_seq fun _ _ ↦ asks_check_seq fun _ _ _ _ ↦ asks_require_seq fun _ ↦ ?_
      exact asks_require_seq fun _ ↦ asks_write (.markCancelled _) fun _ _ ↦ trivial
  | resendInvitation userId inviteId token =>
      refine asks_callerIn_seq fun caller workspaceId s₁ _ ↦ ?_
      dsimp only
      refine asks_ofExcept_seq fun _ _ ↦ asks_check_seq fun _ _ _ _ ↦ asks_require_seq fun _ ↦ ?_
      exact asks_require_seq fun _ ↦ asks_query_seq fun _ _ ↦
        asks_write (.renewToken ..) fun _ _ ↦ trivial
  | listInvitations userId =>
      exact asks_callerIn_seq fun caller workspaceId s₁ _ ↦
        asks_write (.markOverdue workspaceId) fun _ _ ↦ trivial
  | getInvitationByToken token =>
      refine asks_invitationOf_seq hplain fun inv s₁ _ _ ↦ asks_query_seq fun _ _ ↦ ?_
      split
      · exact asks_write (.markExpired _) fun _ _ ↦ trivial
      · exact asks_pure fun _ _ ↦ trivial
  | acceptInvitation userId token =>
      refine asks_ofExcept_seq fun uid _ ↦ ?_
      refine asks_seq .refl .trans (asks_answeredInvitation hplain) fun inv s₁ _ hrole ↦ ?_
      exact asks_write (.commitAccept inv uid) fun _ _ ↦ hrole
  | declineInvitation userId token =>
      refine asks_ofExcept_seq fun uid _ ↦ ?_
      refine asks_seq .refl .trans (asks_answeredInvitation hplain) fun inv s₁ _ _ ↦ ?_
      exact asks_issue_seq (fun _ _ ↦ trivial) fun _ _ _ ↦ asks_require fun _ _ _ ↦ trivial
  | registerFromInvitation token credentials =>
      refine asks_seq .refl .trans (asks_getInvitationRowOrThrow hplain) fun inv s₁ _ hrole ↦ ?_
      refine asks_ofExcept_seq fun _ _ ↦ asks_query_seq fun _ _ ↦ asks_require_seq fun _ ↦ ?_
      exact asks_issue_seq (fun _ _ ↦ hrole) fun _ _ _ ↦ asks_pure fun _ _ ↦ trivial
  | elapse time => exact asks_write (.elapse time) fun _ _ ↦ trivial

end Asking

/-! ## One write -/

section Step

variable {s : Shared} {w : Write} {organizationId : Uuid}

theorem PlainInvitations.updated {db db' : Db} (h : PlainInvitations db) {p : Invitation → Bool}
    {f : Invitation → Invitation} (hrows : db.invitations.UpdatedRows db'.invitations p f)
    (hf : ∀ i, (f i).role = i.role) : PlainInvitations db' := by
  intro i hi
  rcases hrows.mem_iff.mp hi with ⟨hi, -⟩ | ⟨i', hi', -, rfl⟩
  · exact h i hi
  · intro howner
    rw [hf] at howner
    exact h i' hi' howner

theorem plainInvitations_perform (h : PlainInvitations s.db) (hlegal : Legal s w) :
    PlainInvitations (Service.after (perform w) s).db := by
  cases w with
  | setActiveOrganization | deleteMember | setMemberRole | elapse => exact h
  | markExpired id => exact h.updated rfl fun _ ↦ rfl
  | markOverdue organizationId => exact h.updated rfl fun _ ↦ rfl
  | markCancelled id => exact h.updated rfl fun _ ↦ rfl
  | markDeclined id => exact h.updated rfl fun _ ↦ rfl
  | upsertUser email =>
      refine db_after_attempt h fun uid db' hok ↦ ?_
      obtain ⟨users, uuids, rfl⟩ := upsertUser_eq_ok hok
      exact h
  | upsertMember caller o u role =>
      refine db_after_attempt_ h fun db' hok ↦ ?_
      obtain rfl := upsertMember_eq_ok hok
      exact h
  | insertInvitation caller o email role token expiresAt projectIds =>
      refine db_after_attempt_ h fun db' hok ↦ ?_
      obtain ⟨row, hrole, -, invitations, uuids, hinsert, rfl⟩ := insertInvitation_eq_ok hok
      intro i hi
      rcases (Table.mem_insert hinsert).mp hi with hi | rfl
      · exact h i hi
      · rw [hrole, normalizeRole_text]
        exact hlegal
  | renewToken id token expiresAt =>
      refine db_after_attempt_ h fun db' hok ↦ ?_
      obtain rfl := renewToken_eq_ok hok
      exact h.updated rfl fun _ ↦ rfl
  | commitAccept inv uid =>
      refine db_after_attempt_ h fun db' hok ↦ ?_
      exact h.updated (congrArg Table.rows (commitAccept_eq_ok hok).2) fun _ ↦ rfl
  | commitRegister inv =>
      refine db_after_attempt h fun uid db' hok ↦ ?_
      exact h.updated (congrArg Table.rows (commitRegister_eq_ok hok).2) fun _ ↦ rfl

/-- A row a legal write puts among the members is not an owner's. -/
theorem not_owner_of_puts {db : Db} {m : OrganizationMember} (hlegal : Legal s w)
    (hputs : Puts db m w) : normalizeRole m.role ≠ .owner := by
  cases w with
  | upsertMember caller o u role =>
      rw [show m = ⟨o, u, role.text⟩ from hputs, normalizeRole_text]
      exact hlegal
  | setMemberRole caller o u role =>
      rw [show m = ⟨o, u, role.text⟩ from hputs, normalizeRole_text]
      exact hlegal.2.1
  | commitAccept inv uid =>
      rw [show m = ⟨inv.organizationId, uid, inv.role⟩ from hputs]
      exact hlegal
  | commitRegister inv =>
      rw [hputs.1]
      exact hlegal
  | _ => exact hputs.elim

theorem unpromoted_perform (h : PlainInvitations s.db) (hlegal : Legal s w) :
    Unpromoted s (Service.after (perform w) s) := by
  refine ⟨fun _ ↦ plainInvitations_perform h hlegal, fun m hm howner ↦ ?_⟩
  rcases (membersMove_perform w s).mem_or_puts m hm with hm | hputs
  · exact hm
  · exact absurd howner (not_owner_of_puts hlegal hputs)

theorem hasOwner_perform (h : HasOwner organizationId s.db) (hlegal : Legal s w)
    (hguard : Guarded organizationId s w) :
    HasOwner organizationId (Service.after (perform w) s).db := by
  have hmoves := membersMove_perform w s
  obtain ⟨m, hm, rfl, howner⟩ := h
  rcases hmoves.mem_or_replaces m hm with hkept | hreplaced
  · exact ⟨m, hkept, rfl, howner⟩
  cases w with
  | upsertMember caller o u role => exact absurd howner (hguard hreplaced.1.symm m hm hreplaced).1
  | setMemberRole caller o u role => exact absurd howner (hlegal.2.2 m hm hreplaced)
  | commitAccept inv uid => exact absurd howner (hguard hreplaced.1.symm m hm hreplaced)
  | deleteMember caller o u =>
      obtain ⟨m', hm', ho, hu, howner'⟩ := hguard hreplaced.1.symm ⟨m, hm, hreplaced, howner⟩
      refine ⟨m', ?_, ho.trans hreplaced.1.symm, howner'⟩
      exact (hmoves.mem_or_replaces m' hm').resolve_right fun hat ↦ hu hat.2
  | _ => exact hreplaced.elim

theorem keepsRole_self {db : Db} {p : OrganizationMember → Prop} :
    KeepsRole organizationId p db db := by
  intro m hm _ _ m' hm' hat
  have hrow : m' = m := Table.eq_of_key hm' hm (by rw [hat.1, hat.2])
  rw [hrow]

/-- What a write puts in a member's place, when it is not the member's own row. -/
theorem puts_of_ne {m m' : OrganizationMember} (hm : m ∈ s.db.organizationMembers)
    (hm' : m' ∈ (Service.after (perform w) s).db.organizationMembers)
    (hat : At m.organizationId m.userId m') :
    normalizeRole m'.role = normalizeRole m.role ∨ Puts s.db m' w := by
  rcases (membersMove_perform w s).mem_or_puts m' hm' with hmem | hputs
  · have hrow : m' = m := Table.eq_of_key hmem hm (by rw [hat.1, hat.2])
    exact .inl (hrow ▸ rfl)
  · exact .inr hputs

theorem keepsOwners_perform (hlegal : Legal s w) (hguard : Guarded organizationId s w) :
    KeepsRole organizationId (fun m ↦ normalizeRole m.role = .owner) s.db
      (Service.after (perform w) s).db := by
  rintro m hm rfl howner m' hm' hat
  rcases puts_of_ne hm hm' hat with hrole | hputs
  · exact hrole
  exfalso
  cases w with
  | upsertMember caller o u role =>
      obtain rfl := hputs
      exact (hguard hat.1 m hm ⟨hat.1.symm, hat.2.symm⟩).1 howner
  | setMemberRole caller o u role =>
      obtain rfl := hputs
      exact hlegal.2.2 m hm ⟨hat.1.symm, hat.2.symm⟩ howner
  | commitAccept inv uid =>
      obtain rfl := hputs
      exact hguard hat.1 m hm ⟨hat.1.symm, hat.2.symm⟩ howner
  | commitRegister inv => exact hputs.2 m hm ⟨hat.1.symm, hat.2.symm⟩
  | _ => exact hputs

theorem keepsRanks_perform {caller : Caller} (hlegal : Legal s w)
    (hguard : Guarded organizationId s w) (hcaller : caller ∈ callerOf w)
    (hmanager : caller.role = .manager) :
    KeepsRole organizationId (AboveManager caller.uid) s.db (Service.after (perform w) s).db := by
  rintro m hm rfl habove m' hm' hat
  rcases puts_of_ne hm hm' hat with hrole | hputs
  · exact hrole
  exfalso
  cases w with
  | upsertMember caller' o u role =>
      obtain rfl := Option.some.inj hcaller
      obtain rfl := hputs
      obtain ⟨hnot, hself⟩ := hguard hat.1 m hm ⟨hat.1.symm, hat.2.symm⟩
      rcases habove with howner | ⟨hrole, hother⟩
      · exact hnot howner
      · exact hother (hat.2.symm.trans (hself hmanager hrole))
  | setMemberRole caller' o u role =>
      obtain rfl := Option.some.inj hcaller
      have howner : caller'.role = .owner := hlegal.1
      rw [hmanager] at howner
      cases howner
  | _ => first | exact hputs | cases hcaller

end Step

/-! ## Runs -/

/-- In an interleaving whose writes meet their condition the workspace always has an owner, no owner
loses the role, and a manager changes neither an owner's role nor another manager's. -/
theorem hasOwner_always_ranked [Unicode] [TokenHash] {organizationId : Uuid} {db : Db} {moves : List (Move Call)}
    (howner : HasOwner organizationId db) (hplain : PlainInvitations db)
    (hguard : Along step (AtWrite (Guarded organizationId)) (.idle ⟨db, []⟩) moves) :
    Always step (fun c ↦ HasOwner organizationId c.shared.db) (.idle ⟨db, []⟩) moves ∧
      Along step (Ranked organizationId) (.idle ⟨db, []⟩) moves := by
  let I : Shared → Prop := fun s ↦ HasOwner organizationId s.db ∧ PlainInvitations s.db
  let J : ℕ → Shared → Procedure Unit → Prop := fun _ s p ↦
    Asks Unpromoted Legal (fun _ _ ↦ True) s p
  have hmove : ∀ (c : Run) m, c.Inv I J → AtWrite (Guarded organizationId) c m →
      (step c m).Inv I J ∧ Ranked organizationId c m := by
    intro c m hc hm
    refine ⟨inv_move .refl .trans (fun s r hI ↦ asks_enter hI.2 r) ?_ hc hm, ?_⟩
    · intro w s hI hlegal hg
      exact ⟨⟨hasOwner_perform hI.1 hlegal hg, plainInvitations_perform hI.2 hlegal⟩,
        unpromoted_perform hI.2 hlegal⟩
    · unfold Ranked
      rcases step_cases c m with ⟨hnone, hsame⟩ | ⟨w, hw, hafter⟩
      · rw [hsame, hnone]
        exact ⟨keepsRole_self, fun w hw ↦ by cases hw⟩
      · have hlegal : Legal c.shared w := legal_of_moving hc (.refl _) hw
        rw [hafter, hw]
        refine ⟨keepsOwners_perform hlegal (hm w hw), ?_⟩
        intro w' hw' caller hcaller hmanager
        obtain rfl := Option.some.inj hw'
        exact keepsRanks_perform hlegal (hm w hw) hcaller hmanager
  have hstart : (Config.idle ⟨db, []⟩ : Run).Inv I J := .idle ⟨howner, hplain⟩
  obtain ⟨halways, halong⟩ := Along.invariant hmove hstart hguard
  exact ⟨halways.mono fun c hc ↦ hc.1.1, halong⟩

/-- The manager, and then the owner, adds a member. -/
def managerAdds (targetUserId : Uuid) : Call :=
  .addWorkspaceMember (some 2) ⟨.undefined, .value (.canonical targetUserId), .undefined⟩

def ownerAdds (targetUserId : Uuid) (role : String) : Call :=
  .addWorkspaceMember (some 1) ⟨.undefined, .value (.canonical targetUserId), .value role⟩

def runs (k : ℕ) (call : Call) : List (Move Call) :=
  [.enter k call, .advance k, .advance k, .advance k]

/-- Members come and change their role while a manager adds one. -/
theorem hasOwner_always_office :
    Always (@step asciiCase plainHash) (fun c ↦ HasOwner 10 c.shared.db) (.idle ⟨office, []⟩)
        (runs 0 (managerAdds 4) ++ runs 1 (ownerAdds 4 "manager")) ∧
      Along (@step asciiCase plainHash) (@Ranked asciiCase plainHash 10) (.idle ⟨office, []⟩)
        (runs 0 (managerAdds 4) ++ runs 1 (ownerAdds 4 "manager")) :=
  @hasOwner_always_ranked asciiCase plainHash 10 office _ (by decide) (by decide) (by decide)

/-- The workspace with a second owner. -/
def twoOwners : Db :=
  { office with
    organizationMembers := ⟨[⟨10, 1, "owner"⟩, ⟨10, 4, "owner"⟩], by decide⟩
    users := ⟨[⟨1, "owner@x.io", some 10⟩, ⟨4, "new@x.io", some 10⟩], by decide⟩ }

def removes (caller target : Uuid) : Call :=
  .removeWorkspaceMember (some caller) (.canonical target)

/-- A manager who adds the owner takes the role from them, and with it the workspace its owner; two
owners who remove each other leave none. -/
theorem not_hasOwner_managerAdds :
    (¬ Always (@step asciiCase plainHash) (fun c ↦ HasOwner 10 c.shared.db) (.idle ⟨office, []⟩)
      (runs 0 (managerAdds 1))) ∧
    ¬ Always (@step asciiCase plainHash) (fun c ↦ HasOwner 10 c.shared.db) (.idle ⟨twoOwners, []⟩)
      [.enter 0 (removes 1 4), .enter 1 (removes 4 1), .advance 0, .advance 0, .advance 0,
        .advance 1, .advance 1, .advance 1, .advance 0, .advance 1] := by
  decide

end Tesbo.Ownership
