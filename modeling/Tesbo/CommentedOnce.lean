import Tesbo.TicketComments

/-!
# One comment a save and ticket

Whoever claims a comment may post it, once: the claim is made by inserting the row, or by taking it
from `failed` back to `pending`.  What undoes this is an accepted comment whose row is not told so.
-/

namespace Tesbo.TicketComments

open Reasoning Proc

/-! ## Calls -/

inductive Call where
  | queueZyraTicketComments (projectId uid taskId saveEventId : Uuid) (rows : List SavedRow)
      (actions : List Action)
  | deliverNext (place : ℕ)
  | zyraRetryTicketComment (userId : Option Uuid) (projectId taskId commentId : IdText)
  | elapse (time : Time)

abbrev Run := Config Shared (Procedure Unit)

section Machine

variable [TicketText]

def enter : Call → Procedure Unit
  | .queueZyraTicketComments projectId uid taskId saveEventId rows actions =>
      TicketComments.queueZyraTicketComments projectId uid taskId saveEventId rows actions
  | .deliverNext place => TicketComments.deliverNext place
  | .zyraRetryTicketComment userId projectId taskId commentId =>
      TicketComments.zyraRetryTicketComment userId projectId taskId commentId
  | .elapse time => ask (.elapse time)

def step (c : Run) (m : Move Call) : Run := c.move enter (fun _ ↦ Proc.exec perform) m

end Machine

/-! ## The property and its condition -/

/-- The comments the provider has accepted for a save and a ticket. -/
def accepted (key : TicketKey) (s : Shared) : List Uuid :=
  s.posts.filter fun id ↦ (s.comments.find id).any fun r ↦ r.key = key

/-- At most one comment is accepted, and its row says so as soon as its delivery has gone on. -/
def CommentedOnce (s : Shared) : Prop :=
  ∀ row ∈ s.comments, (accepted row.key s).length ≤ 1 ∧
    (accepted row.key s ≠ [] → row.status = .posted ∨ row.id ∈ s.unrecorded)

instance (s : Shared) : Decidable (CommentedOnce s) :=
  inferInstanceAs (Decidable (∀ row ∈ s.comments, _ ∧ (_ → _)))

/-- A comment goes out in one request, and the statement that records it goes through. -/
def Recording (s : Shared) : Write → Prop
  | .post _ index => index = 0
  | .markPosted _ _ => (s.outcomes 0).isOk = true
  | _ => True

instance (s : Shared) (w : Write) : Decidable (Recording s w) := by
  cases w with
  | post claimId index => exact inferInstanceAs (Decidable (index = 0))
  | markPosted id remoteCommentId => exact inferInstanceAs (Decidable (_ = true))
  | _ => exact instDecidableTrue

/-- No comment has gone out, and the rows are as the `UNIQUE` constraint has them. -/
structure Fresh (s : Shared) : Prop where
  posts : s.posts = []
  unrecorded : s.unrecorded = []
  outbox : s.outbox = []
  unique : ∀ r ∈ s.comments, ∀ r' ∈ s.comments, r.key = r'.key → r = r'

/-! ## What the calls ask for -/

/-- What a call has in hand: a claim it has not posted, or one whose comment was accepted and that it
has yet to record.  A call that has left the condition is `astray`. -/
inductive Phase where
  | idle
  | claimed (id : Uuid)
  | accepted (id : Uuid)
  | astray
deriving DecidableEq

def Phase.holds : Phase → Uuid → Prop
  | .claimed id', id | .accepted id', id => id' = id
  | _, _ => False

def turnFrom (t : Phase) : (w : Write) → Reply w → Phase
  | .claim _ _ _ status _ _, .ok (some id) => if status = .pending then .claimed id else t
  | .reclaim _ _ _ _, .ok (some row) => .claimed row.id
  | .spawn _, _ => .idle
  | .take _, some d => .claimed d.claimId
  | .post id 0, .ok _ => .accepted id
  | .post _ (_ + 1), _ => .astray
  | .markPosted _ _, .ok _ => .idle
  | .markPosted _ _, .error _ => .astray
  | .markFailed _ _, _ => .idle
  | _, _ => t

def turn (t : Phase) (w : Write) (r : Reply w) : Phase :=
  if t = .astray then .astray else turnFrom t w r

/-- A claim is made with empty hands, and given up by whoever has it. -/
def LegalFrom (t : Phase) : Write → Prop
  | .claim _ _ _ _ _ _ | .reclaim _ _ _ _ | .take _ => t = .idle
  | .spawn d => t = .claimed d.claimId
  | .post id index => index = 0 → t = .claimed id
  | .markPosted id _ => t = .accepted id
  | .markFailed id _ => t = .claimed id
  | _ => True

def Legal (t : Phase) (_ : Shared) (w : Write) : Prop := t = .astray ∨ LegalFrom t w

def Anything (_ _ : Shared) : Prop := True

section Calls

variable {s : Shared} {t : Phase} {α β : Type}

abbrev Keeps (t : Phase) (s : Shared) (Q : α → Phase → Prop) (p : Procedure α) : Prop :=
  Follows turn Anything Legal (fun a t' _ ↦ Q a t') t s p

/-- Nothing is asked of a call that is astray. -/
theorem keeps_astray {Q : α → Phase → Prop} (hQ : ∀ a, Q a .astray) (p : Procedure α) :
    Keeps .astray s Q p := by
  have htrivial : Asks Anything (fun _ _ ↦ True) (fun _ _ ↦ True) s p := by
    induction p generalizing s with
    | done outcome =>
        cases outcome with
        | ok a => exact asks_pure fun _ _ ↦ trivial
        | error e => exact asks_fail
    | read next ih => exact asks_read_iff.mpr fun s' _ ↦ ih s'
    | write w next ih => exact asks_write_iff.mpr ⟨fun _ _ ↦ trivial, fun r s' _ ↦ ih r⟩
  have hfollows : Follows turn Anything Legal (fun _ t' _ ↦ t' = Phase.astray ∧ True) .astray s p :=
    htrivial.follows fun s w _ ↦ ⟨.inl rfl, fun r ↦ rfl⟩
  exact hfollows.mono fun a t' _ h ↦ h.1 ▸ hQ a

theorem keeps_seq {P : α → Phase → Prop} {Q : β → Phase → Prop} {p : Procedure α}
    {f : α → Procedure β} (hp : Keeps t s P p) (hf : ∀ a t' s', P a t' → Keeps t' s' Q (f a)) :
    Keeps t s Q (p >>= f) :=
  follows_seq (fun _ ↦ trivial) (fun _ _ _ _ _ ↦ trivial) hp fun a t' s' _ h ↦ hf a t' s' h

/-- A statement that claims nothing and posts nothing. -/
theorem keeps_reading {f : Shared → α} (ht : t ≠ .astray) :
    Keeps t s (fun _ t' ↦ t' = t) (reading f) := by
  unfold reading
  refine follows_issue_seq (fun _ _ ↦ .inr trivial) fun reached s₁ _ ↦ ?_
  have hstay : turn t .reach reached = t := if_neg ht
  rw [hstay]
  cases reached with
  | error e => exact follows_pure fun _ _ ↦ rfl
  | ok _ => exact follows_query_seq fun s₂ _ ↦ follows_pure fun _ _ ↦ rfl

/-- The claim of a call is in hand until a request is accepted. -/
theorem keeps_postRequests {claimId : Uuid} {first : Option String} {n : ℕ} :
    Keeps (.claimed claimId) s
      (fun r t' ↦ t' = .astray ∨
        t' = (if r.isOk then Phase.accepted claimId else .claimed claimId))
      (postRequests claimId 0 first (n + 1)) := by
  unfold postRequests
  refine follows_issue_seq (fun _ _ ↦ .inr fun _ ↦ rfl) fun created s₁ _ ↦ ?_
  cases created with
  | error e => exact follows_pure fun _ _ ↦ .inr rfl
  | ok id =>
      cases n with
      | zero =>
          unfold postRequests
          exact follows_pure fun _ _ ↦ .inr rfl
      | succ n =>
          unfold postRequests
          refine follows_issue_seq (fun _ _ ↦ .inr fun h ↦ by cases h) fun created s₂ _ ↦ ?_
          exact keeps_astray (fun _ ↦ .inl rfl) _

theorem keeps_postComment {d : Delivery} :
    Keeps (.claimed d.claimId) s
      (fun r t' ↦ t' = .astray ∨
        t' = (if r.isOk then Phase.accepted d.claimId else .claimed d.claimId))
      (postComment d) := by
  unfold postComment
  refine keeps_seq (keeps_reading Phase.noConfusion) fun connected t₁ s₁ ht₁ ↦ ?_
  subst ht₁
  cases connected with
  | error e => exact follows_pure fun _ _ ↦ .inr rfl
  | ok connected =>
      dsimp only
      split
      · exact keeps_postRequests
      · exact follows_pure fun _ _ ↦ .inr rfl

/-- What is in hand after a delivery. -/
def Done (t : Phase) : Prop := t = .idle ∨ t = .astray

theorem keeps_recordFailure {d : Delivery} {e : Fault} :
    Keeps (.claimed d.claimId) s (fun _ t' ↦ Done t') (recordFailure d e) := by
  unfold recordFailure
  refine follows_issue_seq (fun _ _ ↦ .inr rfl) fun _ s₁ _ ↦ ?_
  exact follows_pure fun _ _ ↦ .inl rfl

theorem keeps_deliverZyraTicketComment {d : Delivery} :
    Keeps (.claimed d.claimId) s (fun _ t' ↦ Done t') (deliverZyraTicketComment d) := by
  unfold deliverZyraTicketComment
  refine keeps_seq keeps_postComment fun sent t₁ s₁ ht₁ ↦ ?_
  rcases ht₁ with rfl | rfl
  · exact keeps_astray (fun _ ↦ .inr rfl) _
  · cases sent with
    | error e => exact keeps_recordFailure
    | ok remoteId =>
        refine follows_issue_seq (fun _ _ ↦ .inr rfl) fun recorded s₂ _ ↦ ?_
        cases recorded with
        | error e => exact keeps_astray (fun _ ↦ .inr rfl) _
        | ok _ => exact follows_pure fun _ _ ↦ .inl rfl

theorem keeps_checkConnected {projectId : Uuid} {enabled : Bool} {connected : Connected}
    {provider : Provider} :
    Keeps .idle s (fun _ t' ↦ t' = .idle) (checkConnected projectId enabled connected provider) := by
  unfold checkConnected
  split
  · refine keeps_seq (keeps_reading Phase.noConfusion) fun answer t₁ s₁ ht₁ ↦ ?_
    subst ht₁
    exact follows_pure fun _ _ ↦ rfl
  · exact follows_pure fun _ _ ↦ rfl

theorem keeps_deliverNext {place : ℕ} :
    Keeps .idle s (fun _ _ ↦ True) (TicketComments.deliverNext place) := by
  unfold TicketComments.deliverNext
  refine follows_issue_seq (fun _ _ ↦ .inr rfl) fun taken s₁ _ ↦ ?_
  cases taken with
  | none => exact follows_pure fun _ _ ↦ trivial
  | some d => exact keeps_deliverZyraTicketComment.mono fun _ _ _ _ ↦ trivial

theorem keeps_refuseRetry {id projectId generationRequestId : Uuid} :
    Keeps .idle s (fun _ _ ↦ True) (refuseRetry id projectId generationRequestId) := by
  unfold refuseRetry
  refine keeps_seq (keeps_reading Phase.noConfusion) fun existing t₁ s₁ _ ↦ ?_
  refine follows_ofExcept_seq fun existing _ ↦ ?_
  cases existing with
  | none => exact follows_fail
  | some status => exact follows_fail

section Text

variable [TicketText] {projectId uid taskId saveEventId : Uuid} {settings : Provider → Bool}

/-- A ticket whose comment is claimed has its delivery begun at once. -/
theorem keeps_queueTicket {connected : Connected} {group : (Provider × String) × List Entry} :
    Keeps .idle s (fun _ t' ↦ t' = .idle)
      (queueTicket projectId uid taskId saveEventId settings connected group) := by
  unfold queueTicket
  obtain ⟨⟨provider, issueKey⟩, entries⟩ := group
  refine keeps_seq keeps_checkConnected fun checked t₁ s₁ ht₁ ↦ ?_
  subst ht₁
  cases checked with
  | error e => exact follows_pure fun _ _ ↦ rfl
  | ok connected =>
      refine follows_issue_seq (fun _ _ ↦ .inr rfl) fun claimed s₂ _ ↦ ?_
      cases claimed with
      | error e => exact follows_pure fun _ _ ↦ rfl
      | ok claim =>
          cases claim with
          | none => exact follows_pure fun _ _ ↦ rfl
          | some claimId =>
              by_cases hstatus : commentStatus (settings provider) connected provider = .pending
              · simp only [turn, turnFrom, hstatus, if_true]
                refine follows_issue_seq (fun _ _ ↦ .inr rfl) fun _ s₃ _ ↦ ?_
                exact follows_pure fun _ _ ↦ rfl
              · simp only [turn, turnFrom, hstatus, if_false]
                exact follows_pure fun _ _ ↦ rfl

theorem keeps_queueTickets {connected : Connected} {groups : Groups} :
    Keeps .idle s (fun _ t' ↦ t' = .idle)
      (queueTickets projectId uid taskId saveEventId settings connected groups) := by
  induction groups generalizing s connected with
  | nil => exact follows_pure fun _ _ ↦ rfl
  | cons group groups ih =>
      unfold queueTickets
      refine keeps_seq keeps_queueTicket fun connected t₁ s₁ ht₁ ↦ ?_
      subst ht₁
      exact ih

theorem keeps_queueZyraTicketComments {rows : List SavedRow} {actions : List Action} :
    Keeps .idle s (fun _ _ ↦ True)
      (TicketComments.queueZyraTicketComments projectId uid taskId saveEventId rows actions) := by
  unfold TicketComments.queueZyraTicketComments
  dsimp only
  split
  · exact follows_pure fun _ _ ↦ trivial
  · refine keeps_seq (keeps_reading Phase.noConfusion) fun project t₁ s₁ ht₁ ↦ ?_
    subst ht₁
    split
    · exact keeps_queueTickets.mono fun _ _ _ _ ↦ trivial
    · exact follows_pure fun _ _ ↦ trivial

theorem keeps_resend {row : TicketComment} :
    Keeps (.claimed row.id) s (fun _ t' ↦ Done t') (resend row) := by
  unfold resend
  refine keeps_seq (keeps_reading Phase.noConfusion) fun testcases t₁ s₁ ht₁ ↦ ?_
  subst ht₁
  refine follows_ofExcept_seq fun testcases _ ↦ ?_
  split
  · refine follows_issue_seq (fun _ _ ↦ .inr rfl) fun marked s₂ _ ↦ ?_
    cases marked with
    | error e => exact follows_fail
    | ok _ => exact follows_pure fun _ _ ↦ .inl rfl
  · refine follows_issue_seq (fun _ _ ↦ .inr trivial) fun saved s₂ _ ↦ ?_
    refine follows_ofExcept_seq fun _ _ ↦ ?_
    exact @keeps_deliverZyraTicketComment _ ⟨row.projectId, row.id, _, _, _⟩

theorem keeps_zyraRetryTicketComment {userId : Option Uuid}
    {projectId taskId commentId : IdText} :
    Keeps .idle s (fun _ _ ↦ True)
      (TicketComments.zyraRetryTicketComment userId projectId taskId commentId) := by
  unfold TicketComments.zyraRetryTicketComment Steps.requireUser
  refine follows_ofExcept_seq fun uid _ ↦ ?_
  have haccess : Keeps .idle s (fun _ t' ↦ t' = .idle)
      (Steps.requireProjectAccess (some uid) projectId : Procedure ProjectAccess) := by
    have hasks : Asks Anything (fun _ w ↦ ∃ uid organizationId,
        w = Write.setActiveOrganization uid organizationId) _ s
        (Steps.requireProjectAccess (some uid) projectId : Procedure ProjectAccess) :=
      Steps.asks_requireProjectAccess (fun _ ↦ trivial) (fun _ _ _ _ _ ↦ trivial)
        fun _ uid organizationId ↦ ⟨uid, organizationId, rfl⟩
    have hlegal : ∀ s w, (∃ uid organizationId, w = Write.setActiveOrganization uid organizationId) →
        Legal .idle s w ∧ ∀ r, turn .idle w r = .idle := by
      rintro s w ⟨uid, organizationId, rfl⟩
      exact ⟨.inr trivial, fun _ ↦ rfl⟩
    exact (hasks.follows hlegal).mono fun _ _ _ h ↦ h.1
  refine keeps_seq haccess fun access t₁ s₁ ht₁ ↦ ?_
  subst ht₁
  refine follows_require_seq fun _ ↦ follows_ofExcept_seq fun taskId _ ↦ ?_
  refine follows_ofExcept_seq fun commentId _ ↦ ?_
  refine follows_issue_seq (fun _ _ ↦ .inr rfl) fun claimed s₂ _ ↦ ?_
  cases claimed with
  | error e => exact follows_fail
  | ok claimed =>
      refine follows_ofExcept_seq fun claimed' hclaimed ↦ ?_
      obtain rfl := Except.ok.inj hclaimed
      cases claimed with
      | none => exact keeps_refuseRetry
      | some row =>
          refine keeps_seq keeps_resend fun _ t₃ s₃ ht₃ ↦ ?_
          rcases ht₃ with rfl | rfl
          · refine keeps_seq (keeps_reading Phase.noConfusion) fun fresh t₄ s₄ _ ↦ ?_
            exact follows_ofExcept_seq fun _ _ ↦ follows_pure fun _ _ ↦ trivial
          · exact keeps_astray (fun _ ↦ trivial) _

theorem keeps_enter (call : Call) : Keeps .idle s (fun _ _ ↦ True) (enter call) := by
  cases call with
  | queueZyraTicketComments projectId uid taskId saveEventId rows actions =>
      exact keeps_queueZyraTicketComments
  | deliverNext place => exact keeps_deliverNext
  | zyraRetryTicketComment userId projectId taskId commentId => exact keeps_zyraRetryTicketComment
  | elapse time =>
      exact follows_issue (w := Write.elapse time) (fun _ _ _ _ _ ↦ trivial)
        (fun _ _ ↦ .inr trivial) fun _ _ _ ↦ trivial

end Text

end Calls

/-! ## What the writes leave -/

/-- The row of a claim that is still to be posted. -/
def Waiting (id : Uuid) (s : Shared) : Prop :=
  (∃ r ∈ s.comments, r.id = id ∧ r.status = .pending) ∧ id ∉ s.posts

def queued (s : Shared) : List Uuid := s.outbox.map Delivery.claimId

/-- Every claim is in one place: with a call, or with a delivery that waits to begin. -/
structure Held (s : Shared) (phase : ℕ → Phase) : Prop where
  sane : ∀ k, phase k ≠ .astray
  unique : ∀ r ∈ s.comments, ∀ r' ∈ s.comments, r.key = r'.key → r = r'
  known : ∀ id ∈ s.posts, ∃ r ∈ s.comments, r.id = id
  nodup : (queued s).Nodup
  apart : ∀ j k id, (phase j).holds id → (phase k).holds id → j = k
  away : ∀ k id, (phase k).holds id → id ∉ queued s
  waiting : ∀ id ∈ queued s, Waiting id s
  claimed : ∀ k id, phase k = .claimed id → Waiting id s
  accepted : ∀ k id, phase k = .accepted id → id ∈ s.unrecorded
  unrecorded : ∀ id ∈ s.unrecorded, ∃ r ∈ s.comments, r.id = id ∧ r.status = .pending
  once : ∀ r ∈ s.comments, s.posts.count r.id ≤ 1 ∧
    (r.id ∈ s.posts → r.status = .posted ∨ r.id ∈ s.unrecorded)

section Writes

variable {s s' : Shared} {phase : ℕ → Phase} {k : ℕ} {id : Uuid}

/-- A write of columns nothing here depends on. -/
theorem Held.same (h : Held s phase) (hcomments : s'.comments = s.comments)
    (hposts : s'.posts = s.posts) (houtbox : s'.outbox = s.outbox)
    (hunrecorded : s'.unrecorded = s.unrecorded) : Held s' phase := by
  obtain ⟨db, comments, autoComment, connected, outbox, outcomes, posts, unrecorded⟩ := s'
  dsimp only at hcomments hposts houtbox hunrecorded
  subst hcomments hposts houtbox hunrecorded
  exact ⟨h.sane, h.unique, h.known, h.nodup, h.apart, h.away, h.waiting, h.claimed, h.accepted,
    h.unrecorded, h.once⟩

theorem Held.next (h : Held s phase) : Held s.next phase := h.same rfl rfl rfl rfl

theorem Held.stay (h : Held s phase) : Held s (Function.update phase k (phase k)) := by
  rw [Function.update_eq_self]
  exact h

/-- Two rows of one claim are one. -/
theorem Held.row_eq {r r' : TicketComment} (hr : r ∈ s.comments) (hr' : r' ∈ s.comments)
    (hid : r.id = r'.id) : r = r' := Table.eq_of_key hr hr' hid

/-- A phase of the updated ones is the new one or an old one. -/
theorem update_cases {t : Phase} {j : ℕ} {P : Phase → Prop} (h : P (Function.update phase k t j)) :
    (j = k ∧ P t) ∨ (j ≠ k ∧ P (phase j)) := by
  by_cases hjk : j = k
  · subst hjk
    rw [Function.update_self] at h
    exact .inl ⟨rfl, h⟩
  · rw [Function.update_of_ne hjk] at h
    exact .inr ⟨hjk, h⟩

/-- What a call had in hand is given up. -/
theorem Held.release (h : Held s phase) : Held s (Function.update phase k .idle) := by
  refine ⟨fun j hj ↦ ?_, h.unique, h.known, h.nodup, fun i j id hi hj ↦ ?_, fun j id hj ↦ ?_,
    h.waiting, fun j id hj ↦ ?_, fun j id hj ↦ ?_, h.unrecorded, h.once⟩
  · rcases update_cases (P := fun t ↦ t = .astray) hj with ⟨-, hj⟩ | ⟨-, hj⟩
    · cases hj
    · exact h.sane j hj
  · rcases update_cases (P := fun t ↦ t.holds id) hi with ⟨-, hi⟩ | ⟨-, hi⟩
    · exact hi.elim
    · rcases update_cases (P := fun t ↦ t.holds id) hj with ⟨-, hj⟩ | ⟨-, hj⟩
      · exact hj.elim
      · exact h.apart i j id hi hj
  · rcases update_cases (P := fun t ↦ t.holds id) hj with ⟨-, hj⟩ | ⟨-, hj⟩
    · exact hj.elim
    · exact h.away j id hj
  · rcases update_cases (P := fun t ↦ t = .claimed id) hj with ⟨-, hj⟩ | ⟨-, hj⟩
    · cases hj
    · exact h.claimed j id hj
  · rcases update_cases (P := fun t ↦ t = .accepted id) hj with ⟨-, hj⟩ | ⟨-, hj⟩
    · cases hj
    · exact h.accepted j id hj

/-- After a call has given up a claim no call has it. -/
theorem Held.not_holds (h : Held s phase) (hk : (phase k).holds id) (j : ℕ) :
    ¬ (Function.update phase k .idle j).holds id := by
  intro hj
  rcases update_cases (P := fun t ↦ t.holds id) hj with ⟨-, hj⟩ | ⟨hjk, hj⟩
  · exact hj
  · exact hjk (h.apart j k id hj hk)

/-- A claim no one has is made by a call with empty hands. -/
theorem Held.acquire (h : Held s phase) (hwaiting : Waiting id s)
    (hfree : ∀ j, ¬ (phase j).holds id) (hqueued : id ∉ queued s) :
    Held s (Function.update phase k (.claimed id)) := by
  refine ⟨fun j hj ↦ ?_, h.unique, h.known, h.nodup, fun i j id' hi hj ↦ ?_, fun j id' hj ↦ ?_,
    h.waiting, fun j id' hj ↦ ?_, fun j id' hj ↦ ?_, h.unrecorded, h.once⟩
  · rcases update_cases (P := fun t ↦ t = .astray) hj with ⟨-, hj⟩ | ⟨-, hj⟩
    · cases hj
    · exact h.sane j hj
  · rcases update_cases (P := fun t ↦ t.holds id') hi with ⟨hik, hi⟩ | ⟨-, hi⟩
    · rcases update_cases (P := fun t ↦ t.holds id') hj with ⟨hjk, -⟩ | ⟨-, hj⟩
      · exact hik.trans hjk.symm
      · obtain rfl : id = id' := hi
        exact absurd hj (hfree j)
    · rcases update_cases (P := fun t ↦ t.holds id') hj with ⟨-, hj⟩ | ⟨-, hj⟩
      · obtain rfl : id = id' := hj
        exact absurd hi (hfree i)
      · exact h.apart i j id' hi hj
  · rcases update_cases (P := fun t ↦ t.holds id') hj with ⟨-, hj⟩ | ⟨-, hj⟩
    · obtain rfl : id = id' := hj
      exact hqueued
    · exact h.away j id' hj
  · rcases update_cases (P := fun t ↦ t = .claimed id') hj with ⟨-, hj⟩ | ⟨-, hj⟩
    · obtain rfl := Phase.claimed.inj hj
      exact hwaiting
    · exact h.claimed j id' hj
  · rcases update_cases (P := fun t ↦ t = .accepted id') hj with ⟨-, hj⟩ | ⟨-, hj⟩
    · cases hj
    · exact h.accepted j id' hj

/-- The rows after a statement that changes their status as `status` says. -/
structure Revised (s s' : Shared) (status : TicketComment → Status) : Prop where
  forth : ∀ r ∈ s.comments, ∃ r' ∈ s'.comments,
    r'.id = r.id ∧ r'.key = r.key ∧ r'.status = status r
  back : ∀ r' ∈ s'.comments, ∃ r ∈ s.comments,
    r'.id = r.id ∧ r'.key = r.key ∧ r'.status = status r

theorem revised_of_updatedRows {p : TicketComment → Bool} {f : TicketComment → TicketComment}
    (hrows : Table.UpdatedRows s.comments s'.comments p f)
    (hf : ∀ r, (f r).id = r.id ∧ (f r).key = r.key) :
    Revised s s' fun r ↦ if p r then (f r).status else r.status := by
  constructor
  · intro r hr
    by_cases hp : p r = true
    · refine ⟨f r, hrows.mem_iff.mpr (.inr ⟨r, hr, hp, rfl⟩), (hf r).1, (hf r).2, ?_⟩
      rw [if_pos hp]
    · refine ⟨r, hrows.mem_iff.mpr (.inl ⟨hr, ?_⟩), rfl, rfl, ?_⟩
      · exact Bool.eq_false_iff.mpr hp
      · rw [if_neg hp]
  · intro r' hr'
    rcases hrows.mem_iff.mp hr' with ⟨hr, hp⟩ | ⟨r, hr, hp, rfl⟩
    · refine ⟨r', hr, rfl, rfl, ?_⟩
      rw [hp]
      exact (if_neg Bool.false_ne_true).symm
    · refine ⟨r, hr, (hf r).1, (hf r).2, ?_⟩
      rw [if_pos hp]

/-- Rows that are someone's stay pending, and an accepted comment is recorded or in hand. -/
theorem Held.revise {status : TicketComment → Status} (h : Held s phase)
    (hrows : Revised s s' status) (hposts : s'.posts = s.posts) (houtbox : s'.outbox = s.outbox)
    (hunrecorded : ∀ id ∈ s'.unrecorded, id ∈ s.unrecorded)
    (haccepted : ∀ k id, phase k = .accepted id → id ∈ s'.unrecorded)
    (hstay : ∀ r ∈ s.comments, r.status = .pending → r.id ∈ s'.unrecorded ∨ r.id ∈ queued s ∨
      (∃ k, phase k = .claimed r.id) → status r = .pending)
    (honce : ∀ r ∈ s.comments, r.id ∈ s.posts → r.status = .posted ∨ r.id ∈ s.unrecorded →
      status r = .posted ∨ r.id ∈ s'.unrecorded) : Held s' phase := by
  have hqueued : queued s' = queued s := congrArg (List.map Delivery.claimId) houtbox
  have hwaiting : ∀ id, id ∈ queued s ∨ (∃ k, phase k = .claimed id) → Waiting id s → Waiting id s' := by
    rintro id hid ⟨⟨r, hr, rfl, hpending⟩, hnot⟩
    obtain ⟨r', hr', hsame, -, hstatus⟩ := hrows.forth r hr
    refine ⟨⟨r', hr', hsame, ?_⟩, hposts ▸ hnot⟩
    rw [hstatus]
    exact hstay r hr hpending (.inr hid)
  refine ⟨h.sane, ?_, ?_, hqueued ▸ h.nodup, h.apart, hqueued ▸ h.away, ?_, ?_, haccepted, ?_, ?_⟩
  · intro r₁' hr₁' r₂' hr₂' hkey
    obtain ⟨r₁, hr₁, hid₁, hkey₁, -⟩ := hrows.back r₁' hr₁'
    obtain ⟨r₂, hr₂, hid₂, hkey₂, -⟩ := hrows.back r₂' hr₂'
    have hsame : r₁ = r₂ := h.unique r₁ hr₁ r₂ hr₂ (by rw [← hkey₁, hkey, hkey₂])
    exact Held.row_eq hr₁' hr₂' (by rw [hid₁, hid₂, hsame])
  · intro id hid
    obtain ⟨r, hr, rfl⟩ := h.known id (hposts ▸ hid)
    obtain ⟨r', hr', hsame, -⟩ := hrows.forth r hr
    exact ⟨r', hr', hsame⟩
  · intro id hid
    rw [hqueued] at hid
    exact hwaiting id (.inl hid) (h.waiting id hid)
  · exact fun k id hk ↦ hwaiting id (.inr ⟨k, hk⟩) (h.claimed k id hk)
  · intro id hid
    obtain ⟨r, hr, rfl, hpending⟩ := h.unrecorded id (hunrecorded id hid)
    obtain ⟨r', hr', hsame, -, hstatus⟩ := hrows.forth r hr
    exact ⟨r', hr', hsame, hstatus.trans (hstay r hr hpending (.inl hid))⟩
  · intro r' hr'
    obtain ⟨r, hr, hsame, -, hstatus⟩ := hrows.back r' hr'
    obtain ⟨hcount, hrecorded⟩ := h.once r hr
    rw [hposts, hsame, hstatus]
    exact ⟨hcount, fun hin ↦ honce r hr hin (hrecorded hin)⟩

/-! ### Statement by statement -/

/-- A call that has nothing in hand. -/
theorem Held.idle (h : Held s phase) (hk : phase k = .idle) :
    Held s (Function.update phase k .idle) := by
  rw [← hk]
  exact h.stay

theorem Held.exists_of_holds (h : Held s phase) (hk : (phase k).holds id) :
    ∃ r ∈ s.comments, r.id = id ∧ r.status = .pending := by
  cases hp : phase k with
  | idle => rw [hp] at hk; exact hk.elim
  | astray => rw [hp] at hk; exact hk.elim
  | claimed id' =>
      rw [hp] at hk
      obtain rfl : id' = id := hk
      exact (h.claimed k id' hp).1
  | accepted id' =>
      rw [hp] at hk
      obtain rfl : id' = id := hk
      exact h.unrecorded id' (h.accepted k id' hp)

/-- A new row of a new key is no one's, and nothing was posted for it. -/
theorem Held.insert (h : Held s phase) {row : TicketComment} {comments : Table TicketComment.id}
    (hinsert : s.comments.insert row = some comments) (hkey : ∀ r ∈ s.comments, r.key ≠ row.key)
    (hcomments : s'.comments = comments) (hposts : s'.posts = s.posts)
    (houtbox : s'.outbox = s.outbox) (hunrecorded : s'.unrecorded = s.unrecorded) :
    Held s' phase ∧ (∀ j, ¬ (phase j).holds row.id) ∧ row.id ∉ queued s' ∧ row.id ∉ s'.posts := by
  obtain ⟨-, hfresh⟩ := Table.insert_eq_some hinsert
  have hold : ∀ r ∈ s.comments, r ∈ s'.comments := by
    rw [hcomments]
    exact fun r hr ↦ (Table.mem_insert hinsert).mpr (.inl hr)
  have hcases : ∀ r ∈ s'.comments, r ∈ s.comments ∨ r = row := by
    rw [hcomments]
    exact fun r hr ↦ (Table.mem_insert hinsert).mp hr
  have hqueued : queued s' = queued s := congrArg (List.map Delivery.claimId) houtbox
  have hunposted : row.id ∉ s.posts := by
    intro hin
    obtain ⟨r, hr, hid⟩ := h.known row.id hin
    exact hfresh r hr hid
  have hwaiting : ∀ id, Waiting id s → Waiting id s' := by
    rintro id ⟨⟨r, hr, hrow⟩, hnot⟩
    exact ⟨⟨r, hold r hr, hrow⟩, hposts ▸ hnot⟩
  refine ⟨⟨h.sane, ?_, ?_, hqueued ▸ h.nodup, h.apart, hqueued ▸ h.away, ?_, ?_, ?_, ?_, ?_⟩,
    ?_, ?_, hposts ▸ hunposted⟩
  · intro r hr r' hr' hsame
    rcases hcases r hr with hr | rfl
    · rcases hcases r' hr' with hr' | rfl
      · exact h.unique r hr r' hr' hsame
      · exact absurd hsame (hkey r hr)
    · rcases hcases r' hr' with hr' | rfl
      · exact absurd hsame.symm (hkey r' hr')
      · rfl
  · intro id hid
    obtain ⟨r, hr, hrow⟩ := h.known id (hposts ▸ hid)
    exact ⟨r, hold r hr, hrow⟩
  · exact fun id hid ↦ hwaiting id (h.waiting id (hqueued ▸ hid))
  · exact fun j id hj ↦ hwaiting id (h.claimed j id hj)
  · rw [hunrecorded]
    exact h.accepted
  · intro id hid
    obtain ⟨r, hr, hrow⟩ := h.unrecorded id (hunrecorded ▸ hid)
    exact ⟨r, hold r hr, hrow⟩
  · intro r hr
    rw [hposts, hunrecorded]
    rcases hcases r hr with hr | rfl
    · exact h.once r hr
    · exact ⟨(List.count_eq_zero.mpr hunposted).trans_le (Nat.zero_le 1),
        fun hin ↦ absurd hin hunposted⟩
  · intro j hj
    obtain ⟨r, hr, hid, -⟩ := h.exists_of_holds hj
    exact hfresh r hr hid
  · rw [hqueued]
    intro hin
    obtain ⟨⟨r, hr, hid, -⟩, -⟩ := h.waiting row.id hin
    exact hfresh r hr hid

theorem Held.claim (h : Held s phase) (hk : phase k = .idle) (projectId : Uuid) (key : TicketKey)
    (testcaseIds : List Uuid) (status : Status) (commentText : String) (postedBy : Uuid) :
    Held (claim projectId key testcaseIds status commentText postedBy s).2
      (Function.update phase k (turnFrom .idle
        (.claim projectId key testcaseIds status commentText postedBy)
        (.ok (claim projectId key testcaseIds status commentText postedBy s).1))) := by
  unfold TicketComments.claim
  split
  · exact h.idle hk
  · rename_i hnew
    dsimp only
    split
    · exact h.idle hk
    · rename_i comments hinsert
      let s' : Shared := { s with
        db := { s.db with uuids := fun n ↦ s.db.uuids (n + 1) }, comments := comments }
      have hcomments : s'.comments = comments := rfl
      obtain ⟨hheld, hfree, hqueued, hunposted⟩ := h.insert hinsert
        (fun r hr heq ↦ hnew ⟨r, hr, heq⟩) hcomments rfl rfl rfl
      simp only [turnFrom]
      split
      · rename_i hstatus
        refine hheld.acquire ⟨⟨_, (Table.mem_insert hinsert).mpr (.inr rfl), rfl, hstatus⟩, hunposted⟩
          hfree hqueued
      · exact hheld.idle hk

/-- The row of a failed comment was posted for by no one, and is no one's. -/
theorem Held.reclaim (h : Held s phase) (hk : phase k = .idle)
    (id projectId generationRequestId postedBy : Uuid) :
    Held (reclaim id projectId generationRequestId postedBy s).2
      (Function.update phase k (turnFrom .idle (.reclaim id projectId generationRequestId postedBy)
        (.ok (reclaim id projectId generationRequestId postedBy s).1))) := by
  let p := retryable id projectId generationRequestId
  let s' := (TicketComments.reclaim id projectId generationRequestId postedBy s).2
  have hrows : Table.UpdatedRows s.comments s'.comments p (reclaimed postedBy s.db.now) := rfl
  have hfailed : ∀ r, p r = true → r.status = .failed := fun r hr ↦ (of_decide_eq_true hr).2.2.2
  have hrevised := revised_of_updatedRows hrows fun _ ↦ ⟨rfl, rfl⟩
  have hunposted : ∀ r ∈ s.comments, p r = true → r.id ∉ s.posts := by
    intro r hr hp hin
    rcases (h.once r hr).2 hin with hposted | hunrecorded
    · rw [hfailed r hp] at hposted
      cases hposted
    · obtain ⟨r', hr', hid, hpending⟩ := h.unrecorded r.id hunrecorded
      rw [Held.row_eq hr' hr hid, hfailed r hp] at hpending
      cases hpending
  have hheld : Held s' phase := by
    refine h.revise hrevised rfl rfl (fun _ hid ↦ hid) h.accepted ?_ ?_
    · intro r _ hpending _
      by_cases hp : p r = true
      · rw [if_pos hp]
        rfl
      · rw [if_neg hp]
        exact hpending
    · intro r hr hin hrecorded
      rw [if_neg fun hp ↦ hunposted r hr hp hin]
      exact hrecorded
  cases hfind : s.comments.rows.find? p with
  | none =>
      have hnone : (TicketComments.reclaim id projectId generationRequestId postedBy s).1 = none :=
        Option.map_eq_none_iff.mpr hfind
      rw [hnone]
      exact hheld.idle hk
  | some row =>
      have hsome : (TicketComments.reclaim id projectId generationRequestId postedBy s).1 =
          some (reclaimed postedBy s.db.now row) := by
        exact (congrArg (Option.map (reclaimed postedBy s.db.now)) hfind)
      rw [hsome]
      have hp : p row = true := List.find?_some hfind
      have hrow : row ∈ s.comments := List.mem_of_find?_eq_some hfind
      have hnotPending : ∀ r ∈ s.comments, r.id = row.id → r.status ≠ .pending := by
        intro r hr hid hpending
        rw [Held.row_eq hr hrow hid, hfailed row hp] at hpending
        cases hpending
      refine hheld.acquire ⟨?_, hunposted row hrow hp⟩ ?_ ?_
      · exact ⟨reclaimed postedBy s.db.now row, hrows.mem_iff.mpr (.inr ⟨row, hrow, hp, rfl⟩), rfl, rfl⟩
      · intro j hj
        obtain ⟨r, hr, hid, hpending⟩ := h.exists_of_holds hj
        exact hnotPending r hr hid hpending
      · intro hin
        obtain ⟨⟨r, hr, hid, hpending⟩, -⟩ := h.waiting _ hin
        exact hnotPending r hr hid hpending

/-- The claim goes from the call to a delivery of its own. -/
theorem Held.spawn (h : Held s phase) {d : Delivery} (hk : phase k = .claimed d.claimId) :
    Held { s with outbox := s.outbox ++ [d] } (Function.update phase k .idle) := by
  have hholds : (phase k).holds d.claimId := by
    rw [hk]
    exact rfl
  have hheld : Held s (Function.update phase k .idle) := h.release
  have hqueued : queued { s with outbox := s.outbox ++ [d] } = queued s ++ [d.claimId] := by
    unfold queued
    rw [List.map_append]
    rfl
  refine ⟨hheld.sane, hheld.unique, hheld.known, ?_, hheld.apart, ?_, ?_, hheld.claimed,
    hheld.accepted, hheld.unrecorded, hheld.once⟩
  · rw [hqueued]
    exact h.nodup.append (List.nodup_singleton _)
      (List.disjoint_singleton.mpr (h.away k d.claimId hholds))
  · intro j id hj
    rw [hqueued, List.mem_append, List.mem_singleton]
    rintro (hin | rfl)
    · exact hheld.away j id hj hin
    · exact h.not_holds hholds j hj
  · intro id hid
    rw [hqueued, List.mem_append, List.mem_singleton] at hid
    rcases hid with hid | rfl
    · exact h.waiting id hid
    · exact h.claimed k d.claimId hk

/-- A delivery begins with the claim that was left to it. -/
theorem Held.take (h : Held s phase) (hk : phase k = .idle) (place : ℕ) :
    Held (take place s).2
      (Function.update phase k (turnFrom .idle (.take place) (take place s).1)) := by
  have hqueued : queued (TicketComments.take place s).2 = (queued s).eraseIdx place :=
    (List.eraseIdx_map ..).symm
  have hsub : ∀ id ∈ queued (TicketComments.take place s).2, id ∈ queued s := by
    rw [hqueued]
    exact fun id hid ↦ List.mem_of_mem_eraseIdx hid
  have hheld : Held (TicketComments.take place s).2 phase := by
    refine ⟨h.sane, h.unique, h.known, ?_, h.apart, ?_, ?_, h.claimed, h.accepted, h.unrecorded,
      h.once⟩
    · rw [hqueued]
      exact h.nodup.eraseIdx place
    · exact fun j id hj hin ↦ h.away j id hj (hsub id hin)
    · exact fun id hid ↦ h.waiting id (hsub id hid)
  unfold turnFrom
  cases hplace : s.outbox[place]? with
  | none =>
      have hnone : (TicketComments.take place s).1 = none := hplace
      rw [hnone]
      exact hheld.idle hk
  | some d =>
      have hsome : (TicketComments.take place s).1 = some d := hplace
      rw [hsome]
      have hin : d.claimId ∈ queued s :=
        List.mem_map_of_mem (List.mem_of_getElem? hplace)
      refine hheld.acquire (h.waiting d.claimId hin) (fun j hj ↦ h.away j d.claimId hj hin) ?_
      rw [hqueued]
      intro hstill
      have hget : (queued s)[place]? = some d.claimId := by
        unfold queued
        rw [List.getElem?_map, hplace]
        rfl
      obtain ⟨i, hne, hi⟩ := List.mem_eraseIdx_iff_getElem?.mp hstill
      obtain ⟨hlt, -⟩ := List.getElem?_eq_some_iff.mp hi
      exact hne ((List.getElem?_inj hlt h.nodup).mp (hi.trans hget.symm))

/-- The provider accepts the comment of a claim. -/
theorem Held.post (h : Held s phase) (hk : phase k = .claimed id) :
    Held (post id s) (Function.update phase k (.accepted id)) := by
  have hholds : (phase k).holds id := by
    rw [hk]
    exact rfl
  obtain ⟨⟨row, hrow, rfl, hpending⟩, hunposted⟩ := h.claimed k id hk
  have hheld : Held s (Function.update phase k .idle) := h.release
  have hwaiting : ∀ id', id' ≠ row.id → Waiting id' s → Waiting id' (TicketComments.post row.id s) :=
    fun id' hne hw ↦ ⟨hw.1, fun hin ↦ (List.mem_cons.mp hin).elim hne hw.2⟩
  refine ⟨fun j hj ↦ ?_, h.unique, fun id' hid' ↦ ?_, h.nodup, fun i j id' hi hj ↦ ?_,
    fun j id' hj ↦ ?_, fun id' hid' ↦ ?_, fun j id' hj ↦ ?_, fun j id' hj ↦ ?_, fun id' hid' ↦ ?_,
    fun r hr ↦ ?_⟩
  · rcases update_cases (P := fun t ↦ t = .astray) hj with ⟨-, hj⟩ | ⟨-, hj⟩
    · cases hj
    · exact h.sane j hj
  · rcases List.mem_cons.mp hid' with rfl | hid'
    · exact ⟨row, hrow, rfl⟩
    · exact h.known id' hid'
  · rcases update_cases (P := fun t ↦ t.holds id') hi with ⟨hik, hi⟩ | ⟨hik, hi⟩
    · obtain rfl : row.id = id' := hi
      rcases update_cases (P := fun t ↦ t.holds row.id) hj with ⟨hjk, -⟩ | ⟨-, hj⟩
      · exact hik.trans hjk.symm
      · exact hik.trans (h.apart j k row.id hj hholds).symm
    · rcases update_cases (P := fun t ↦ t.holds id') hj with ⟨hjk, hj⟩ | ⟨-, hj⟩
      · obtain rfl : row.id = id' := hj
        exact (h.apart i k row.id hi hholds).trans hjk.symm
      · exact h.apart i j id' hi hj
  · rcases update_cases (P := fun t ↦ t.holds id') hj with ⟨-, hj⟩ | ⟨-, hj⟩
    · obtain rfl : row.id = id' := hj
      exact h.away k row.id hholds
    · exact h.away j id' hj
  · refine hwaiting id' ?_ (h.waiting id' hid')
    rintro rfl
    exact h.away k row.id hholds hid'
  · rcases update_cases (P := fun t ↦ t = .claimed id') hj with ⟨-, hj⟩ | ⟨hjk, hj⟩
    · cases hj
    · refine hwaiting id' ?_ (h.claimed j id' hj)
      rintro rfl
      refine hjk (h.apart j k row.id ?_ hholds)
      rw [hj]
      exact rfl
  · rcases update_cases (P := fun t ↦ t = .accepted id') hj with ⟨-, hj⟩ | ⟨-, hj⟩
    · exact List.mem_cons.mpr (.inl (Phase.accepted.inj hj).symm)
    · exact List.mem_cons_of_mem _ (h.accepted j id' hj)
  · rcases List.mem_cons.mp hid' with rfl | hid'
    · exact ⟨row, hrow, rfl, hpending⟩
    · exact h.unrecorded id' hid'
  · obtain ⟨hcount, hrecorded⟩ := h.once r hr
    by_cases hid : r.id = row.id
    · refine ⟨?_, fun _ ↦ .inr (List.mem_cons.mpr (.inl hid))⟩
      have hzero : s.posts.count row.id = 0 := List.count_eq_zero.mpr hunposted
      change (row.id :: s.posts).count r.id ≤ 1
      rw [hid, List.count_cons_self, hzero]
    · have hsame : (row.id :: s.posts).count r.id = s.posts.count r.id :=
        List.count_cons_of_ne fun heq ↦ hid heq.symm
      refine ⟨hsame.trans_le hcount, fun hin ↦ ?_⟩
      rcases List.mem_cons.mp hin with heq | hin
      · exact absurd heq hid
      · exact (hrecorded hin).imp_right (List.mem_cons_of_mem _)

/-- The delivery of a claim has come to its last statement: it gives the claim up with it. -/
theorem Held.finish (h : Held s phase) (hk : (phase k).holds id)
    {status : TicketComment → Status} (hrows : Revised s s' status) (hposts : s'.posts = s.posts)
    (houtbox : s'.outbox = s.outbox) (hunrecorded : s'.unrecorded = s.unrecorded.filter (· ≠ id))
    (hothers : ∀ r ∈ s.comments, r.id ≠ id → status r = r.status)
    (hposted : ∀ r ∈ s.comments, r.id = id → r.id ∈ s.posts → status r = .posted) :
    Held s' (Function.update phase k .idle) := by
  have hheld : Held s (Function.update phase k .idle) := h.release
  have hleft : ∀ id', id' ∈ s'.unrecorded ↔ id' ∈ s.unrecorded ∧ id' ≠ id := by
    intro id'
    rw [hunrecorded, List.mem_filter, decide_eq_true_eq]
  have hnotHolds := fun j ↦ h.not_holds hk j
  refine hheld.revise hrows hposts houtbox (fun id' hid' ↦ ((hleft id').mp hid').1) ?_ ?_ ?_
  · intro j id' hj
    refine (hleft id').mpr ⟨hheld.accepted j id' hj, ?_⟩
    rintro rfl
    refine hnotHolds j ?_
    rw [hj]
    exact rfl
  · intro r hr hpending hin
    refine (hothers r hr ?_).trans hpending
    intro heq
    rcases hin with hin | hin | ⟨j, hj⟩
    · exact ((hleft r.id).mp hin).2 heq
    · exact h.away k id hk (heq ▸ hin)
    · refine hnotHolds j ?_
      rw [hj]
      exact heq
  · intro r hr hin hrecorded
    by_cases heq : r.id = id
    · exact .inl (hposted r hr heq hin)
    · rw [hothers r hr heq]
      exact hrecorded.imp_right fun hun ↦ (hleft r.id).mpr ⟨hun, heq⟩

theorem revised_refl (h : s'.comments = s.comments) : Revised s s' TicketComment.status := by
  constructor
  · exact fun r hr ↦ ⟨r, h ▸ hr, rfl, rfl, rfl⟩
  · exact fun r' hr' ↦ ⟨r', h ▸ hr', rfl, rfl, rfl⟩

/-- What was not posted for has nothing to record. -/
theorem Held.fail (h : Held s phase) (hk : phase k = .claimed id)
    {status : TicketComment → Status} (hrows : Revised s s' status) (hposts : s'.posts = s.posts)
    (houtbox : s'.outbox = s.outbox) (hunrecorded : s'.unrecorded = s.unrecorded.filter (· ≠ id))
    (hothers : ∀ r ∈ s.comments, r.id ≠ id → status r = r.status) :
    Held s' (Function.update phase k .idle) := by
  have hholds : (phase k).holds id := by
    rw [hk]
    exact rfl
  refine h.finish hholds hrows hposts houtbox hunrecorded hothers ?_
  rintro r hr rfl hin
  exact absurd hin (h.claimed k r.id hk).2

open Service in
theorem wp_attempt {α : Type} {f : Option String → Shared → α × Shared}
    {Q : Except Fault α → Shared → Prop} {E : Failure → Shared → Prop}
    (herror : ∀ e, s.outcomes 0 = .error e → Q (.error e) s.next)
    (hok : ∀ id, s.outcomes 0 = .ok id → Q (.ok (f id s.next).1) (f id s.next).2) :
    wp (attempt f) Q E s := by
  have hanswer : ∀ r s', attempt f s = (.ok r, s') → Q r s' → wp (attempt f) Q E s := by
    intro r s' hs hQ
    have hsame : attempt f s = returning (fun _ ↦ .ok (r, s')) s := hs
    rw [wp_congr hsame]
    refine wp_returning.mpr ⟨fun r' s'' heq ↦ ?_, fun _ heq ↦ by cases heq⟩
    obtain ⟨rfl, rfl⟩ := Prod.mk.inj (Except.ok.inj heq)
    exact hQ
  cases hout : s.outcomes 0 with
  | error e =>
      refine hanswer _ _ ?_ (herror e hout)
      unfold attempt
      rw [hout]
  | ok id =>
      refine hanswer _ _ ?_ (hok id hout)
      unfold attempt
      rw [hout]

theorem turn_eq {t : Phase} (ht : t ≠ .astray) (w : Write) (r : Reply w) :
    turn t w r = turnFrom t w r := if_neg ht

open Service in
/-- Each statement the calls can ask for leaves every claim in one place, under its condition. -/
theorem held_perform {w : Write} (h : Held s phase) (hlegal : Legal (phase k) s w)
    (hrecording : Recording s w) :
    wp (perform w) (fun r s' ↦ Held s' (Function.update phase k (turn (phase k) w r)))
      (fun _ s' ↦ Held s' phase) s := by
  have hlegal := hlegal.resolve_left (h.sane k)
  simp only [turn_eq (h.sane k)]
  cases w with
  | setActiveOrganization uid organizationId =>
      exact (wp_write _).mpr (Held.stay (h.same rfl rfl rfl rfl))
  | reach =>
      refine wp_attempt ?_ ?_
      · exact fun e _ ↦ h.next.stay
      · exact fun _ _ ↦ h.next.stay
  | claim projectId key testcaseIds status commentText postedBy =>
      have hidle : phase k = .idle := hlegal
      rw [hidle]
      refine wp_attempt (fun e _ ↦ h.next.idle hidle) fun id _ ↦ ?_
      exact h.next.claim hidle projectId key testcaseIds status commentText postedBy
  | reclaim id projectId generationRequestId postedBy =>
      have hidle : phase k = .idle := hlegal
      rw [hidle]
      refine wp_attempt (fun e _ ↦ h.next.idle hidle) fun _ _ ↦ ?_
      exact h.next.reclaim hidle id projectId generationRequestId postedBy
  | setCommentText id commentText =>
      change wp (attempt fun _ s ↦ ((), setCommentText id commentText s)) _ _ s
      refine wp_attempt ?_ ?_
      · exact fun e _ ↦ h.next.stay
      intro _ _
      refine Held.stay ?_
      have hrows : Table.UpdatedRows s.next.comments (setCommentText id commentText s.next).comments
        (fun r ↦ r.id = id) (fun r ↦ { r with commentText := commentText }) := rfl
      have hrevised := revised_of_updatedRows hrows fun _ ↦ ⟨rfl, rfl⟩
      refine h.next.revise hrevised rfl rfl (fun _ hid ↦ hid) h.next.accepted ?_ ?_
      · intro r _ hpending _
        exact (ite_self _).trans hpending
      · intro r _ _ hrecorded
        rw [ite_self]
        exact hrecorded
  | post id index =>
      have hindex : index = 0 := hrecording
      subst hindex
      have hclaimed : phase k = .claimed id := hlegal rfl
      change wp (attempt fun remote s ↦ (remote, TicketComments.post id s)) _ _ s
      refine wp_attempt ?_ ?_
      · exact fun e _ ↦ h.next.stay
      · exact fun _ _ ↦ h.next.post hclaimed
  | markPosted id remoteCommentId =>
      have haccepted : phase k = .accepted id := hlegal
      have hholds : (phase k).holds id := by
        rw [haccepted]
        exact rfl
      refine (wp_bind _ _).mpr ((wp_write _).mpr (wp_attempt ?_ ?_))
      · intro e herror
        have hok : (s.outcomes 0).isOk = true := hrecording
        have herror : s.outcomes 0 = .error e := herror
        rw [herror] at hok
        cases hok
      · intro remote _
        let s' := markPosted id remoteCommentId (settle id s).next
        have hrows : Table.UpdatedRows s.comments s'.comments (fun r ↦ r.id = id)
          (fun r ↦ { r with
            status := .posted, remoteCommentId := remoteCommentId, postedAt := some s.db.now,
            updatedAt := s.db.now }) := rfl
        refine h.finish hholds (revised_of_updatedRows hrows fun _ ↦ ⟨rfl, rfl⟩) rfl rfl rfl ?_ ?_
        · exact fun r _ hne ↦ if_neg fun heq ↦ hne (of_decide_eq_true heq)
        · exact fun r _ heq _ ↦ if_pos (decide_eq_true heq)
  | markFailed id reason =>
      have hclaimed : phase k = .claimed id := hlegal
      refine (wp_bind _ _).mpr ((wp_write _).mpr (wp_attempt ?_ ?_))
      · intro e _
        have hrows : Revised s (settle id s).next TicketComment.status := revised_refl rfl
        exact h.fail hclaimed hrows rfl rfl rfl fun _ _ _ ↦ rfl
      · intro _ _
        let s' := markFailed id reason (settle id s).next
        have hrows : Table.UpdatedRows s.comments s'.comments (fun r ↦ r.id = id)
          (fun r ↦ { r with
            status := .failed, reason := some reason, updatedAt := s.db.now }) := rfl
        refine h.fail hclaimed (revised_of_updatedRows hrows fun _ ↦ ⟨rfl, rfl⟩) rfl rfl rfl ?_
        exact fun r _ hne ↦ if_neg fun heq ↦ hne (of_decide_eq_true heq)
  | spawn d => exact (wp_write _).mpr (h.spawn hlegal)
  | take place =>
      have hidle : phase k = .idle := hlegal
      rw [hidle]
      change wp (returning fun s ↦ .ok (take place s)) _ _ s
      refine wp_returning.mpr ⟨fun d s' hs ↦ ?_, fun _ hs ↦ by cases hs⟩
      obtain ⟨rfl, rfl⟩ := Prod.mk.inj (Except.ok.inj hs)
      exact h.take hidle place
  | elapse time => exact (wp_write _).mpr (Held.stay (h.same rfl rfl rfl rfl))

end Writes

/-! ## Runs -/

section Runs

variable {s : Shared} {phase : ℕ → Phase}

/-- A key has one row, so what is accepted for the key is what is posted for the row. -/
theorem accepted_eq_filter (h : Held s phase) {row : TicketComment} (hrow : row ∈ s.comments) :
    accepted row.key s = s.posts.filter (· = row.id) := by
  refine List.filter_congr fun id hid ↦ ?_
  obtain ⟨r, hr, rfl⟩ := h.known id hid
  have hfind : s.comments.find r.id = some r := Table.find_eq_some.mpr ⟨hr, rfl⟩
  rw [hfind]
  refine decide_eq_decide.mpr ⟨fun hkey ↦ ?_, fun hsame ↦ ?_⟩
  · rw [h.unique r hr row hrow hkey]
  · rw [Held.row_eq hr hrow hsame]

theorem Held.commentedOnce (h : Held s phase) : CommentedOnce s := by
  intro row hrow
  obtain ⟨hcount, hrecorded⟩ := h.once row hrow
  rw [accepted_eq_filter h hrow]
  refine ⟨?_, fun hne ↦ hrecorded ?_⟩
  · have hlength : (s.posts.filter (· = row.id)).length = s.posts.count row.id := by
      rw [List.count_eq_length_filter]
      rfl
    exact hlength.trans_le hcount
  · obtain ⟨id, hid⟩ := List.exists_mem_of_ne_nil _ hne
    obtain ⟨hid, heq⟩ := List.mem_filter.mp hid
    exact of_decide_eq_true heq ▸ hid

theorem Fresh.held (h : Fresh s) : Held s fun _ ↦ .idle := by
  have hqueued : queued s = [] := congrArg (List.map Delivery.claimId) h.outbox
  refine ⟨fun _ ↦ Phase.noConfusion, h.unique, ?_, hqueued ▸ List.nodup_nil,
    fun _ _ _ hj ↦ hj.elim, fun _ _ hk ↦ hk.elim, ?_, fun _ _ hk ↦ (by cases hk),
    fun _ _ hk ↦ (by cases hk), ?_, fun r _ ↦ ?_⟩
  · rw [h.posts]
    exact fun _ hid ↦ absurd hid List.not_mem_nil
  · rw [hqueued]
    exact fun _ hid ↦ absurd hid List.not_mem_nil
  · rw [h.unrecorded]
    exact fun _ hid ↦ absurd hid List.not_mem_nil
  · rw [h.posts]
    exact ⟨Nat.zero_le 1, fun hin ↦ absurd hin List.not_mem_nil⟩

variable [TicketText]

def Inv (c : Run) : Prop := Phased turn Held Anything Legal (fun _ _ _ ↦ True) c

theorem Inv.step {c : Run} {m : Move Call} (h : Inv c) (hm : AtWrite Recording c m) :
    Inv (step c m) := by
  refine Phased.move (fun _ ↦ trivial) (fun _ _ _ _ _ ↦ trivial) ?_ ?_ h hm
  · exact fun s phase k call hI ↦ ⟨.idle, hI.release, keeps_enter call⟩
  · exact fun s phase k w hI hlegal hrecording ↦ ⟨held_perform hI hlegal hrecording, trivial⟩

/-- Where every comment goes out in one request, and the statement after it goes through, a save
comments on a ticket at most once, and the row of an accepted comment says so. -/
theorem commentedOnce_always {s : Shared} {ms : List (Move Call)} (hs : Fresh s)
    (h : Along step (AtWrite Recording) (Config.idle s) ms) :
    Always step (fun c ↦ CommentedOnce c.shared) (Config.idle s) ms := by
  have hinv : Inv (Config.idle s) := Phased.idle hs.held
  have hall := (Along.invariant (Q := fun _ _ ↦ True) (fun c m hc hm ↦ ⟨hc.step hm, trivial⟩)
    hinv h).1
  exact hall.mono fun c ⟨phase, hc, _⟩ ↦ hc.commentedOnce

end Runs

/-! ## A comment that is sent twice -/

@[reducible] def plainText : TicketText where
  zyraTicketCommentContent _ _ issueKey _ := ⟨issueKey, 0⟩
  rebuild row _ := ⟨row.commentText, 0⟩

abbrev plainStep : Run → Move Call → Run := @step plainText

/-- A project whose Jira tickets are commented on, with one test case. -/
def office (outcomes : ℕ → Except Fault (Option String)) : Shared where
  db := { Db.empty with
    uuids := fun n ↦ 1000 + n
    users := .singleton ⟨1, "ann@one.test", some 10⟩
    organizations := .singleton ⟨10, 0⟩
    organizationMembers := .singleton ⟨10, 1, "owner"⟩
    projects := .singleton ⟨100, some 10, "ONE", "", none⟩
    projectMembers := .singleton ⟨100, 1, "owner"⟩
    testcases := ⟨[⟨500, 100, none, "TC-1", fun _ ↦ none, [], none, none, none, 0, none, none⟩],
      by decide⟩ }
  comments := .empty
  autoComment _ _ := true
  connected _ _ := true
  outbox := []
  outcomes := outcomes
  posts := []
  unrecorded := []

theorem fresh_office (outcomes : ℕ → Except Fault (Option String)) : Fresh (office outcomes) :=
  ⟨rfl, rfl, rfl, fun _ hr ↦ absurd hr List.not_mem_nil⟩

/-- All goes through but the statement of this number. -/
def failing (n : ℕ) : ℕ → Except Fault (Option String) := fun i ↦
  if i = n then .error ⟨none, "Connection terminated"⟩ else .ok (some "10001")

def whole (k : ℕ) (call : Call) : List (Move Call) := .enter k call :: List.replicate 16 (.advance k)

/-- A save that touched the test case, its delivery, and a retry. -/
def savedAndRetried : List (Move Call) :=
  whole 0 (.queueZyraTicketComments 100 1 7 70 [⟨some 500, some "QA-1", none, none⟩] [.add]) ++
    whole 1 (.deliverNext 0) ++
    whole 2 (.zyraRetryTicketComment (some 1) (.canonical 100) (.canonical 7) (.canonical 1000))

/-- Statement 5 is the one that records the accepted comment. -/
theorem not_commentedOnce_unrecorded :
    ¬ Always plainStep (fun c ↦ CommentedOnce c.shared) (Config.idle (office (failing 5)))
      savedAndRetried := by
  decide +kernel

/-- A request that fails is retried, and the comment goes out once. -/
theorem commentedOnce_always_retried :
    (savedAndRetried.foldl plainStep (Config.idle (office (failing 4)))).shared.posts = [1000] ∧
      Always plainStep (fun c ↦ CommentedOnce c.shared) (Config.idle (office (failing 4)))
        savedAndRetried :=
  ⟨by decide +kernel, @commentedOnce_always plainText _ savedAndRetried (fresh_office (failing 4))
    (by decide +kernel)⟩

end Tesbo.TicketComments
