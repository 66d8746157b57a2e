import Tesbo.Team

/-!
# What becomes of an invitation

The status of an invitation is read in one statement and written in another.  Declining repeats
the condition on the status in its update; accepting, registering, cancelling and expiring do not.
-/

namespace Tesbo.InvitationOutcomes

open Reasoning Proc Team

/-- How the invitation was settled, in order. -/
def outcomesOf (id : Uuid) (settlements : List Settlement) : List Settlement :=
  settlements.filter fun e ↦ e.invitationId = id

/-- The invitation is settled at most once, has the status of its outcome, and one that granted a
membership is accepted. -/
structure SettlesOnce (id : Uuid) (s : Shared) : Prop where
  once : (outcomesOf id s.settlements).length ≤ 1
  status : ∀ e ∈ outcomesOf id s.settlements, ∀ i ∈ s.db.invitations, i.id = id →
    i.status = e.outcome.status
  granted : ∀ e ∈ outcomesOf id s.settlements, e.member.isSome = true →
    ∀ i ∈ s.db.invitations, i.id = id → i.status = "accepted"

instance (id : Uuid) (s : Shared) : Decidable (SettlesOnce id s) :=
  decidable_of_iff
    ((outcomesOf id s.settlements).length ≤ 1 ∧
      (∀ e ∈ outcomesOf id s.settlements, ∀ i ∈ s.db.invitations, i.id = id →
        i.status = e.outcome.status) ∧
      ∀ e ∈ outcomesOf id s.settlements, e.member.isSome = true →
        ∀ i ∈ s.db.invitations, i.id = id → i.status = "accepted")
    ⟨fun ⟨h, h', h''⟩ ↦ ⟨h, h', h''⟩, fun h ↦ ⟨h.once, h.status, h.granted⟩⟩

/-- No outcome is recorded yet. -/
def IsOpen (id : Uuid) (db : Db) : Prop :=
  ∀ i ∈ db.invitations, i.id = id → i.status ∉ ["accepted", "declined", "cancelled"]

instance (id : Uuid) (db : Db) : Decidable (IsOpen id db) :=
  inferInstanceAs (Decidable (∀ i ∈ db.invitations, i.id = id → _))

/-- What a write of the status must meet where it does not ask for it itself. -/
def FindsOpen (id : Uuid) (s : Shared) : Write → Prop
  | .commitAccept inv _ | .commitRegister inv => inv.id = id → IsOpen id s.db
  | .markCancelled i | .markExpired i => i = id → IsOpen id s.db
  | _ => True

instance (id : Uuid) (s : Shared) : ∀ w, Decidable (FindsOpen id s w)
  | .commitAccept .. | .commitRegister .. | .markCancelled .. | .markExpired .. =>
      inferInstanceAs (Decidable (_ = id → IsOpen id s.db))
  | .setActiveOrganization .. | .upsertUser .. | .upsertMember .. | .deleteMember ..
  | .setMemberRole .. | .insertInvitation .. | .markOverdue .. | .renewToken .. | .markDeclined ..
  | .elapse .. => instDecidableTrue

/-! ## One write -/

section Step

variable {id : Uuid} {s : Shared} {db : Db}

theorem outcomesOf_append (es es' : List Settlement) :
    outcomesOf id (es ++ es') = outcomesOf id es ++ outcomesOf id es' := List.filter_append ..

/-- The invitation is there, and settled at most once. -/
def Tracked (id : Uuid) (s : Shared) : Prop :=
  (∃ i ∈ s.db.invitations, i.id = id) ∧ SettlesOnce id s

theorem Outcome.status_mem (o : Outcome) : o.status ∈ ["accepted", "declined", "cancelled"] := by
  cases o <;> decide

/-- An invitation whose status is none of an outcome has none. -/
theorem Tracked.outcomes_eq_nil (h : Tracked id s) (hopen : IsOpen id s.db) :
    outcomesOf id s.settlements = [] := by
  obtain ⟨⟨i, hi, hid⟩, hs⟩ := h
  rw [List.eq_nil_iff_forall_not_mem]
  intro e he
  refine hopen i hi hid ?_
  rw [hs.status e he i hi hid]
  exact Outcome.status_mem e.outcome

/-- Statuses that stay, for as long as there is an outcome, keep the invitation settled once. -/
theorem Tracked.keep (h : Tracked id s) {p : Invitation → Bool} {f : Invitation → Invitation}
    (hrows : s.db.invitations.UpdatedRows db.invitations p f) (hf : ∀ i, (f i).id = i.id)
    (hstatus : ∀ i ∈ s.db.invitations, i.id = id → p i = true →
      (f i).status = i.status ∨ outcomesOf id s.settlements = []) :
    Tracked id ⟨db, s.settlements⟩ := by
  obtain ⟨⟨i, hi, hid⟩, hs⟩ := h
  have hback : ∀ i' ∈ db.invitations, i'.id = id → ∃ i ∈ s.db.invitations, i.id = id ∧
      (i'.status = i.status ∨ outcomesOf id s.settlements = []) := by
    intro i' hi' hid'
    rcases hrows.mem_iff.mp hi' with ⟨hi', -⟩ | ⟨i, hi, hp, rfl⟩
    · exact ⟨i', hi', hid', .inl rfl⟩
    · rw [hf] at hid'
      exact ⟨i, hi, hid', hstatus i hi hid' hp⟩
  refine ⟨?_, hs.once, ?_, ?_⟩
  · cases hp : p i with
    | false => exact ⟨i, hrows.mem_iff.mpr (.inl ⟨hi, hp⟩), hid⟩
    | true => exact ⟨f i, hrows.mem_iff.mpr (.inr ⟨i, hi, hp, rfl⟩), by rw [hf, hid]⟩
  · intro e he i' hi' hid'
    obtain ⟨i, hi, hid, hsame | hnone⟩ := hback i' hi' hid'
    · rw [hsame]
      exact hs.status e he i hi hid
    · rw [hnone] at he
      cases he
  · intro e he hmember i' hi' hid'
    obtain ⟨i, hi, hid, hsame | hnone⟩ := hback i' hi' hid'
    · rw [hsame]
      exact hs.granted e he hmember i hi hid
    · rw [hnone] at he
      cases he

theorem Tracked.of_invitations (h : Tracked id s) (hsame : db.invitations = s.db.invitations) :
    Tracked id ⟨db, s.settlements⟩ := by
  refine ⟨?_, ?_⟩
  · rw [hsame]
    exact h.1
  · exact ⟨h.2.once, fun e he i hi ↦ h.2.status e he i (hsame ▸ hi),
      fun e he hm i hi ↦ h.2.granted e he hm i (hsame ▸ hi)⟩

theorem Tracked.insert (h : Tracked id s) {row : Invitation}
    {invitations : Table Invitation.id} {uuids : ℕ → Uuid}
    (hinsert : s.db.invitations.insert row = some invitations) :
    Tracked id ⟨{ s.db with invitations := invitations, uuids := uuids }, s.settlements⟩ := by
  obtain ⟨⟨i, hi, hid⟩, hs⟩ := h
  have hold : ∀ i' ∈ invitations, i'.id = id → i' ∈ s.db.invitations := by
    intro i' hi' hid'
    rcases (Table.mem_insert hinsert).mp hi' with hi' | rfl
    · exact hi'
    · exact absurd (hid.trans hid'.symm) ((Table.insert_eq_some hinsert).2 i hi)
  exact ⟨⟨i, (Table.mem_insert hinsert).mpr (.inl hi), hid⟩, hs.once,
    fun e he i' hi' hid' ↦ hs.status e he i' (hold i' hi' hid') hid',
    fun e he hm i' hi' hid' ↦ hs.granted e he hm i' (hold i' hi' hid') hid'⟩

/-- A write that settles some invitation, and gives it the status of the outcome: another one, or
this one when it has no outcome yet. -/
theorem Tracked.settle (h : Tracked id s) {e : Settlement} {p : Invitation → Bool}
    {f : Invitation → Invitation} (hrows : s.db.invitations.UpdatedRows db.invitations p f)
    (hf : ∀ i, (f i).id = i.id) (hp : ∀ i ∈ s.db.invitations, p i = true → i.id = e.invitationId)
    (hhit : ∀ i ∈ s.db.invitations, i.id = id → e.invitationId = id → p i = true)
    (hstatus : ∀ i, (f i).status = e.outcome.status)
    (hmember : e.member.isSome = true → e.outcome.status = "accepted")
    (hopen : e.invitationId = id → outcomesOf id s.settlements = []) :
    Tracked id ⟨db, s.settlements ++ [e]⟩ := by
  by_cases he : e.invitationId = id
  · have hone : outcomesOf id (s.settlements ++ [e]) = [e] := by
      rw [outcomesOf_append, hopen he, List.nil_append]
      unfold outcomesOf
      rw [List.filter_cons_of_pos (by simpa using he), List.filter_nil]
    have hall : ∀ i' ∈ db.invitations, i'.id = id → i'.status = e.outcome.status := by
      intro i' hi' hid'
      rcases hrows.mem_iff.mp hi' with ⟨hi', hnot⟩ | ⟨i, hi, -, rfl⟩
      · rw [hhit i' hi' hid' he] at hnot
        cases hnot
      · exact hstatus i
    obtain ⟨⟨i, hi, hid⟩, -⟩ := h
    refine ⟨⟨f i, hrows.mem_iff.mpr (.inr ⟨i, hi, hhit i hi hid he, rfl⟩), by rw [hf, hid]⟩, ?_, ?_, ?_⟩
    · rw [hone]
      exact le_refl 1
    · rw [hone]
      intro e' he' i' hi' hid'
      obtain rfl := List.mem_singleton.mp he'
      exact hall i' hi' hid'
    · rw [hone]
      intro e' he' hm i' hi' hid'
      obtain rfl := List.mem_singleton.mp he'
      rw [hall i' hi' hid', hmember hm]
  · have hsame : outcomesOf id (s.settlements ++ [e]) = outcomesOf id s.settlements := by
      rw [outcomesOf_append]
      unfold outcomesOf
      rw [List.filter_cons_of_neg (by simpa using he), List.filter_nil, List.append_nil]
    have hkept := h.keep hrows hf fun i hi hid hpi ↦ absurd ((hp i hi hpi).symm.trans hid) he
    exact ⟨hkept.1, hsame ▸ hkept.2.once, hsame ▸ hkept.2.status, hsame ▸ hkept.2.granted⟩

theorem Tracked.expire (h : Tracked id s) {p : Invitation → Bool}
    (hp : ∀ i ∈ s.db.invitations, i.id = id → p i = true → IsOpen id s.db)
    (hrows : s.db.invitations.UpdatedRows db.invitations p fun i ↦ { i with status := "expired" }) :
    Tracked id ⟨db, s.settlements⟩ :=
  h.keep hrows (fun _ ↦ rfl) fun i hi hid hpi ↦ .inr (h.outcomes_eq_nil (hp i hi hid hpi))

theorem isOpen_of_pending {i : Invitation} (hi : i ∈ s.db.invitations) (hid : i.id = id)
    (hpending : i.status = "pending") : IsOpen id s.db := by
  intro i' hi' hid'
  rw [Table.eq_of_key hi' hi (hid'.trans hid.symm), hpending]
  decide

theorem pendingInvitation_iff : pendingInvitation id db = true ↔
    ∃ i ∈ db.invitations, i.id = id ∧ i.status = "pending" := by
  unfold pendingInvitation
  rw [Option.any_eq_true]
  constructor
  · rintro ⟨i, hfind, hstatus⟩
    obtain ⟨hi, hid⟩ := Table.find_eq_some.mp hfind
    exact ⟨i, hi, hid, decide_eq_true_eq.mp hstatus⟩
  · rintro ⟨i, hi, hid, hstatus⟩
    exact ⟨i, Table.find_eq_some.mpr ⟨hi, hid⟩, decide_eq_true hstatus⟩

theorem tracked_perform {w : Write} (h : Tracked id s) (hopen : FindsOpen id s w) :
    Tracked id (Service.after (perform w) s) := by
  cases w with
  | setActiveOrganization | deleteMember | setMemberRole | elapse => exact h.of_invitations rfl
  | upsertUser email =>
      refine after_attempt h fun uid db' hok ↦ ?_
      obtain ⟨users, uuids, rfl⟩ := upsertUser_eq_ok hok
      rw [List.append_nil]
      exact h.of_invitations rfl
  | upsertMember caller o u role =>
      refine after_attempt_ h fun db' hok ↦ ?_
      obtain rfl := upsertMember_eq_ok hok
      rw [List.append_nil]
      exact h.of_invitations rfl
  | insertInvitation caller o email role token expiresAt projectIds =>
      refine after_attempt_ h fun db' hok ↦ ?_
      obtain ⟨row, -, -, invitations, uuids, hinsert, rfl⟩ := insertInvitation_eq_ok hok
      rw [List.append_nil]
      exact h.insert hinsert
  | renewToken id' token expiresAt =>
      refine after_attempt_ h fun db' hok ↦ ?_
      obtain rfl := renewToken_eq_ok hok
      rw [List.append_nil]
      exact h.keep rfl (fun _ ↦ rfl) fun _ _ _ _ ↦ .inl rfl
  | markExpired id' =>
      exact h.expire (fun i _ hid hp ↦ hopen ((decide_eq_true_eq.mp hp).symm.trans hid)) rfl
  | markOverdue organizationId =>
      exact h.expire (fun i hi hid hp ↦ isOpen_of_pending hi hid (decide_eq_true_eq.mp hp).2.1) rfl
  | markCancelled id' =>
      refine after_attempt_ h fun db' hok ↦ ?_
      obtain rfl := Except.ok.inj hok
      refine h.settle rfl (fun _ ↦ rfl) (fun i _ hp ↦ decide_eq_true_eq.mp hp)
        (fun i _ hid he ↦ decide_eq_true (hid.trans he.symm)) (fun _ ↦ rfl)
        (fun hm ↦ by cases hm) fun he ↦ h.outcomes_eq_nil (hopen he)
  | commitAccept inv uid =>
      refine after_attempt_ h fun db' hok ↦ ?_
      refine h.settle (congrArg Table.rows (commitAccept_eq_ok hok).2) (fun _ ↦ rfl)
        (fun i _ hp ↦ decide_eq_true_eq.mp hp)
        (fun i _ hid he ↦ decide_eq_true (hid.trans he.symm)) (fun _ ↦ rfl) (fun _ ↦ rfl)
        fun he ↦ h.outcomes_eq_nil (hopen he)
  | commitRegister inv =>
      refine after_attempt h fun uid db' hok ↦ ?_
      refine h.settle (congrArg Table.rows (commitRegister_eq_ok hok).2) (fun _ ↦ rfl)
        (fun i _ hp ↦ decide_eq_true_eq.mp hp)
        (fun i _ hid he ↦ decide_eq_true (hid.trans he.symm)) (fun _ ↦ rfl) (fun _ ↦ rfl)
        fun he ↦ h.outcomes_eq_nil (hopen he)
  | markDeclined id' =>
      refine after_attempt h fun hit db' hok ↦ ?_
      obtain ⟨rfl, rfl⟩ := Prod.mk.inj (Except.ok.inj hok)
      cases hpending : pendingInvitation id' s.db with
      | false =>
          rw [if_neg Bool.false_ne_true, List.append_nil]
          refine h.keep rfl (fun _ ↦ rfl) fun i hi _ hp ↦ ?_
          have htrue := pendingInvitation_iff.mpr ⟨i, hi, decide_eq_true_eq.mp hp⟩
          rw [htrue] at hpending
          cases hpending
      | true =>
          rw [if_pos rfl]
          obtain ⟨i, hi, hid, hstatus⟩ := pendingInvitation_iff.mp hpending
          refine h.settle rfl (fun _ ↦ rfl) (fun i' _ hp ↦ (decide_eq_true_eq.mp hp).1) ?_
            (fun _ ↦ rfl) (fun hm ↦ by cases hm) fun he ↦
              h.outcomes_eq_nil (isOpen_of_pending hi (hid.trans he) hstatus)
          intro i' hi' hid' he
          obtain rfl := Table.eq_of_key hi' hi (hid'.trans (hid.trans he).symm)
          exact decide_eq_true ⟨hid, hstatus⟩

end Step

/-! ## Runs -/

/-- In an interleaving in which nobody writes over an outcome, the invitation is settled once, for
good, and has granted a membership only if it is accepted. -/
theorem settlesOnce_always [Unicode] [TokenHash] {id : Uuid} {db : Db} {moves : List (Move Call)}
    (hinvited : ∃ i ∈ db.invitations, i.id = id)
    (hopen : Along step (AtWrite (FindsOpen id)) (.idle ⟨db, []⟩) moves) :
    Always step (fun c ↦ SettlesOnce id c.shared) (.idle ⟨db, []⟩) moves := by
  let I : Run → Prop := fun c ↦ Tracked id c.shared
  have hmove : ∀ c m, I c → AtWrite (FindsOpen id) c m → I (step c m) ∧ True := by
    intro c m hc hm
    refine ⟨?_, trivial⟩
    show Tracked id (step c m).shared
    rcases step_cases c m with ⟨-, hsame⟩ | ⟨w, hw, hafter⟩
    · rw [hsame]
      exact hc
    · rw [hafter]
      exact tracked_perform hc (hm w hw)
  have hstart : I (.idle ⟨db, []⟩) :=
    ⟨hinvited, Nat.zero_le 1, fun e he ↦ (List.not_mem_nil he).elim,
      fun e he ↦ (List.not_mem_nil he).elim⟩
  exact (Along.invariant hmove hstart hopen).1.mono fun c hc ↦ hc.2

def accepts : Call := .acceptInvitation (some 4) "t"

def declines : Call := .declineInvitation (some 4) "t"

def cancels : Call := .cancelInvitation (some 1) (.canonical 50)

/-- An acceptance and a decline overlap, the acceptance first. -/
theorem settlesOnce_acceptDecline :
    Always (@step asciiCase plainHash) (fun c ↦ SettlesOnce 50 c.shared) (.idle ⟨office, []⟩)
      [.enter 0 accepts, .enter 1 declines, .advance 0, .advance 1, .advance 0, .advance 1,
        .advance 0, .advance 1, .advance 0, .advance 1, .advance 1] :=
  @settlesOnce_always asciiCase plainHash 50 office _ (by decide) (by decide)

/-- A cancellation that read the invitation before it was accepted is written over the acceptance:
both succeed, and the member the invitation granted stays. -/
theorem not_settlesOnce_acceptCancel :
    (office.invitations.find 50).map Invitation.status = some "pending" ∧
    ¬ Always (@step asciiCase plainHash) (fun c ↦ SettlesOnce 50 c.shared) (.idle ⟨office, []⟩)
      [.enter 0 accepts, .enter 1 cancels, .advance 0, .advance 0, .advance 0, .advance 1,
        .advance 1, .advance 0, .advance 1] := by
  decide

end Tesbo.InvitationOutcomes
