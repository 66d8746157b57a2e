import Tesbo.Signup

/-!
# Whose signup a code is

A code and a pending signup are found by the email alone, the newest of each.  The two are of one
start call as long as, when a verify call looks for what is pending, the newest row is the one its
code was sent for.
-/

namespace Tesbo.Signup

open Reasoning Proc

/-! ## Calls -/

inductive Call where
  | startSelfServeSignup (person : Person) (rawEmail password : Arg String) (salt code : String)
  | startInviteRegistration (token : String) (person : Person) (password : Arg String)
      (salt code : String)
  | startInviteOtpRegistration (token : String) (person : Person) (code : String)
  | verifySelfServeSignup (rawEmail : Arg String) (code : Option String)
      (allowed : Except Failure Unit)
  | completeInviteVerification (token : String) (code : Option String)
      (allowed : Except Failure Unit)
  | requestLoginOtp (email : Option String) (allowed : Except Failure Unit) (code : String)
  | verifyLoginOtp (email code : Option String) (allowed : Except Failure Unit)
  | elapse (time : Time)

abbrev Run := Config Shared (Procedure Unit)

section Machine

variable [Unicode] [Letters] [CodeHash] [PasswordHash] [Team.TokenHash]

def enter : Call → Procedure Unit
  | .startSelfServeSignup person rawEmail password salt code =>
      Signup.startSelfServeSignup person rawEmail password salt code
  | .startInviteRegistration token person password salt code =>
      Signup.startInviteRegistration token person password salt code
  | .startInviteOtpRegistration token person code =>
      Signup.startInviteOtpRegistration token person code
  | .verifySelfServeSignup rawEmail code allowed =>
      Signup.verifySelfServeSignup rawEmail code allowed
  | .completeInviteVerification token code allowed =>
      Signup.completeInviteVerification token code allowed
  | .requestLoginOtp email allowed code => Signup.requestLoginOtp email allowed code
  | .verifyLoginOtp email code allowed => Signup.verifyLoginOtp email code allowed
  | .elapse time => ask (.elapse time)

def step (c : Run) (m : Move Call) : Run := c.move enter (fun _ ↦ Proc.exec perform) m

end Machine

/-! ## The property and its condition -/

/-- The code was sent by the call that stored the pending signup. -/
def IssuedFor (codeId pendingId : Uuid) (s : Shared) : Prop :=
  ∃ c ∈ s.otpCodes, c.id = codeId ∧ c.issuedFor = some pendingId

instance (codeId pendingId : Uuid) (s : Shared) : Decidable (IssuedFor codeId pendingId s) :=
  inferInstanceAs (Decidable (∃ c ∈ s.otpCodes, _))

/-- A user a verify call has created has what the call that had its code sent was given. -/
def BelongsToCode (s : Shared) : Prop :=
  ∀ v ∈ s.verified, ∃ pending ∈ s.pendingSignups, IssuedFor v.codeId pending.id s ∧
    ∃ profile ∈ s.profiles, profile.userId = v.userId ∧ profile.details = pending.details

instance (s : Shared) : Decidable (BelongsToCode s) :=
  inferInstanceAs (Decidable (∀ v ∈ s.verified, ∃ pending ∈ s.pendingSignups, _ ∧
    ∃ profile ∈ s.profiles, _))

/-- What is pending for the email is what the presented code was sent for. -/
def Matched (s : Shared) : Write → Prop
  | .findPendingSignup email invitationId codeId =>
      ∀ pending ∈ findPendingSignup email invitationId s, IssuedFor codeId pending.id s
  | _ => True

instance (s : Shared) (w : Write) : Decidable (Matched s w) := by
  cases w with
  | findPendingSignup email invitationId codeId =>
      exact inferInstanceAs (Decidable (∀ pending ∈ findPendingSignup email invitationId s, _))
  | _ => exact instDecidableTrue

/-! ## What the calls ask for -/

/-- The code a verify call was presented with, and what it has found for it. -/
abbrev Phase := Option (Uuid × PendingSignup)

def turn (found : Phase) : (w : Write) → Reply w → Phase
  | .findPendingSignup _ _ codeId, pending => pending.map fun p ↦ (codeId, p)
  | _, _ => found

/-- A user is created from what was found for the code. -/
def Legal (found : Phase) (_ : Shared) : Write → Prop
  | .createUser codeId pending | .registerInvited codeId _ pending => found = some (codeId, pending)
  | _ => True

/-- Between two statements of a call anything may happen. -/
def Anything (_ _ : Shared) : Prop := True

section Calls

variable {s : Shared} {t : Phase}

abbrev Keeps {α : Type} (t : Phase) (s : Shared) (p : Procedure α) : Prop :=
  Follows turn Anything Legal (fun _ _ _ ↦ True) t s p

theorem keeps_seq {α β : Type} {p : Procedure α} {f : α → Procedure β} (hp : Keeps t s p)
    (hf : ∀ a t' s', Keeps t' s' (f a)) : Keeps t s (p >>= f) :=
  follows_seq (fun _ ↦ trivial) (fun _ _ _ _ _ ↦ trivial) hp fun a t' s' _ _ ↦ hf a t' s'

theorem keeps_issue {w : Write} (hw : ∀ s, Legal t s w) : Keeps t s (ask w) :=
  follows_issue (fun _ _ _ _ _ ↦ trivial) (fun s' _ ↦ hw s') fun _ _ _ ↦ trivial

theorem keeps_getInvitationRowOrThrow [Team.TokenHash] {token : String} :
    Keeps t s (getInvitationRowOrThrow token) := by
  unfold getInvitationRowOrThrow
  refine follows_check_seq fun s₁ _ inv _ ↦ follows_require_seq fun _ ↦ ?_
  refine follows_query_seq fun s₂ _ ↦ ?_
  split
  · exact follows_issue_seq (fun _ _ ↦ trivial) fun _ _ _ ↦ follows_fail
  · exact follows_pure fun _ _ ↦ trivial

theorem keeps_assertEmailNotTaken {email error : String} :
    Keeps t s (assertEmailNotTaken email error) := by
  unfold assertEmailNotTaken
  exact follows_query_seq fun s₁ _ ↦ follows_require fun _ _ _ ↦ trivial

theorem keeps_findOrCreateUser {email : String} : Keeps t s (findOrCreateUser email) := by
  unfold findOrCreateUser
  refine follows_query_seq fun s₁ _ ↦ ?_
  split
  · exact follows_pure fun _ _ ↦ trivial
  · exact keeps_issue (w := .insertLoginUser email _) fun _ ↦ trivial

section Codes

variable [Unicode] [CodeHash]

theorem keeps_requestOtp {rawEmail code : String} {issuedFor : Option Uuid} :
    Keeps t s (requestOtp rawEmail code issuedFor) := by
  unfold requestOtp
  dsimp only
  split
  · exact follows_pure fun _ _ ↦ trivial
  · refine follows_query_seq fun s₁ _ ↦ follows_issue_seq (fun _ _ ↦ trivial) fun _ _ _ ↦ ?_
    exact follows_pure fun _ _ ↦ trivial

theorem keeps_sendOtp {email code : String} {issuedFor : Option Uuid} :
    Keeps t s (sendOtp email code issuedFor) := by
  unfold sendOtp
  refine keeps_seq keeps_requestOtp fun sent t₁ s₁ ↦ ?_
  cases sent with
  | error e => exact follows_fail
  | ok sent => exact follows_require fun _ _ _ ↦ trivial

theorem keeps_verifyOtpCode {rawEmail : String} {code : Option String} :
    Keeps t s (verifyOtpCode rawEmail code) := by
  unfold verifyOtpCode
  dsimp only
  split
  · exact follows_pure fun _ _ ↦ trivial
  · refine follows_issue_seq (fun _ _ ↦ trivial) fun live s₁ _ ↦ ?_
    cases live.find? fun c ↦ c.codeHash = CodeHash.hash (jsTrim (code.getD "")) with
    | none => exact follows_pure fun _ _ ↦ trivial
    | some c =>
        refine follows_issue_seq (fun _ _ ↦ trivial) fun first s₂ _ ↦ ?_
        exact follows_pure fun _ _ ↦ trivial

theorem keeps_verifyCodeOrFail {email : String} {code : Option String}
    {allowed : Except Failure Unit} : Keeps t s (verifyCodeOrFail email code allowed) := by
  unfold verifyCodeOrFail
  refine follows_ofExcept_seq fun _ _ ↦ keeps_seq keeps_verifyOtpCode fun verified t₁ s₁ ↦ ?_
  exact follows_check fun _ _ _ _ _ _ ↦ trivial

theorem keeps_startPending {email code : String} {details : Details}
    {invitationId : Option Uuid} : Keeps t s (startPending email details invitationId code) := by
  unfold startPending
  refine follows_query_seq fun s₁ _ ↦ follows_issue_seq (fun _ _ ↦ trivial) fun id s₂ _ ↦ ?_
  exact keeps_sendOtp

theorem keeps_verifySelfServeSignup {rawEmail : Arg String} {code : Option String}
    {allowed : Except Failure Unit} :
    Keeps t s (Signup.verifySelfServeSignup rawEmail code allowed) := by
  unfold Signup.verifySelfServeSignup
  refine follows_ofExcept_seq fun email _ ↦ follows_require_seq fun _ ↦ ?_
  refine keeps_seq keeps_verifyCodeOrFail fun codeId t₁ s₁ ↦ ?_
  refine follows_issue_seq (fun _ _ ↦ trivial) fun pending s₂ _ ↦ ?_
  cases pending with
  | none => exact follows_fail
  | some pending =>
      -- what was found is what the user is created from
      exact follows_issue_seq (fun _ _ ↦ rfl) fun _ s₃ _ ↦ follows_pure fun _ _ ↦ trivial

theorem keeps_completeInviteVerification [Team.TokenHash] {token : String} {code : Option String}
    {allowed : Except Failure Unit} :
    Keeps t s (Signup.completeInviteVerification token code allowed) := by
  unfold Signup.completeInviteVerification
  refine keeps_seq keeps_getInvitationRowOrThrow fun inv t₁ s₁ ↦ follows_require_seq fun _ ↦ ?_
  refine keeps_seq keeps_verifyCodeOrFail fun codeId t₂ s₂ ↦ ?_
  refine follows_issue_seq (fun _ _ ↦ trivial) fun pending s₃ _ ↦ ?_
  cases pending with
  | none => exact follows_fail
  | some pending =>
      exact follows_issue_seq (fun _ _ ↦ rfl) fun _ s₄ _ ↦ follows_pure fun _ _ ↦ trivial

end Codes

theorem keeps_enter [Unicode] [Letters] [CodeHash] [PasswordHash] [Team.TokenHash] (call : Call) :
    Keeps t s (enter call) := by
  cases call with
  | startSelfServeSignup person rawEmail password salt code =>
      unfold enter Signup.startSelfServeSignup
      refine follows_ofExcept_seq fun email _ ↦ follows_ofExcept_seq fun details _ ↦ ?_
      refine follows_ofExcept_seq fun _ _ ↦ ?_
      refine keeps_seq keeps_assertEmailNotTaken fun _ t₁ s₁ ↦ follows_ofExcept_seq fun hash _ ↦ ?_
      exact keeps_startPending
  | startInviteRegistration token person password salt code =>
      unfold enter Signup.startInviteRegistration
      refine keeps_seq keeps_getInvitationRowOrThrow fun inv t₁ s₁ ↦ ?_
      refine follows_ofExcept_seq fun details _ ↦ follows_ofExcept_seq fun _ _ ↦ ?_
      refine keeps_seq keeps_assertEmailNotTaken fun _ t₂ s₂ ↦ follows_ofExcept_seq fun hash _ ↦ ?_
      exact keeps_startPending
  | startInviteOtpRegistration token person code =>
      unfold enter Signup.startInviteOtpRegistration
      refine keeps_seq keeps_getInvitationRowOrThrow fun inv t₁ s₁ ↦ ?_
      refine follows_ofExcept_seq fun details _ ↦ ?_
      exact keeps_seq keeps_assertEmailNotTaken fun _ t₂ s₂ ↦ keeps_startPending
  | verifySelfServeSignup rawEmail code allowed => exact keeps_verifySelfServeSignup
  | completeInviteVerification token code allowed => exact keeps_completeInviteVerification
  | requestLoginOtp email allowed code =>
      unfold enter Signup.requestLoginOtp
      exact follows_require_seq fun _ ↦ follows_ofExcept_seq fun _ _ ↦ keeps_sendOtp
  | verifyLoginOtp email code allowed =>
      unfold enter Signup.verifyLoginOtp
      refine follows_require_seq fun _ ↦ follows_ofExcept_seq fun _ _ ↦ ?_
      refine keeps_seq keeps_verifyOtpCode fun verified t₁ s₁ ↦ follows_require_seq fun _ ↦ ?_
      exact keeps_findOrCreateUser
  | elapse time => exact keeps_issue (w := .elapse time) fun _ ↦ trivial

end Calls

/-! ## What the writes leave -/

/-- No row goes, and nothing of one that says whose it is changes. -/
structure KeepsRows (s s' : Shared) : Prop where
  codes : ∀ c ∈ s.otpCodes, ∃ c' ∈ s'.otpCodes, c'.id = c.id ∧ c'.issuedFor = c.issuedFor
  pending : ∀ p ∈ s.pendingSignups, ∃ p' ∈ s'.pendingSignups, p'.id = p.id ∧ p'.details = p.details
  profiles : ∀ p ∈ s.profiles, p ∈ s'.profiles

/-- What a call has found is stored, and its code was sent for it. -/
def Found (codeId : Uuid) (pending : PendingSignup) (s : Shared) : Prop :=
  IssuedFor codeId pending.id s ∧
    ∃ p ∈ s.pendingSignups, p.id = pending.id ∧ p.details = pending.details

structure Held (s : Shared) (phase : ℕ → Phase) : Prop where
  belongs : BelongsToCode s
  found : ∀ k codeId pending, phase k = some (codeId, pending) → Found codeId pending s

section Writes

variable {s s' : Shared} {phase : ℕ → Phase} {k : ℕ} {uid codeId : Uuid} {pending : PendingSignup}

theorem KeepsRows.refl (s : Shared) : KeepsRows s s :=
  ⟨fun c hc ↦ ⟨c, hc, rfl, rfl⟩, fun p hp ↦ ⟨p, hp, rfl, rfl⟩, fun _ hp ↦ hp⟩

theorem IssuedFor.later {pendingId : Uuid} (h : IssuedFor codeId pendingId s)
    (hs : KeepsRows s s') : IssuedFor codeId pendingId s' := by
  obtain ⟨c, hc, hid, hfor⟩ := h
  obtain ⟨c', hc', hid', hfor'⟩ := hs.codes c hc
  exact ⟨c', hc', hid'.trans hid, hfor'.trans hfor⟩

theorem Found.later (h : Found codeId pending s) (hs : KeepsRows s s') :
    Found codeId pending s' := by
  obtain ⟨hissued, p, hp, hid, hdetails⟩ := h
  obtain ⟨p', hp', hid', hdetails'⟩ := hs.pending p hp
  exact ⟨hissued.later hs, p', hp', hid'.trans hid, hdetails'.trans hdetails⟩

theorem BelongsToCode.later (h : BelongsToCode s) (hs : KeepsRows s s')
    (hverified : s'.verified = s.verified) : BelongsToCode s' := by
  intro v hv
  obtain ⟨p, hp, hissued, profile, hprofile, huser, hdetails⟩ := h v (hverified ▸ hv)
  obtain ⟨p', hp', hid', hdetails'⟩ := hs.pending p hp
  refine ⟨p', hp', ?_, profile, hs.profiles profile hprofile, huser, hdetails.trans hdetails'.symm⟩
  rw [hid']
  exact hissued.later hs

theorem Held.later (h : Held s phase) (hs : KeepsRows s s') (hverified : s'.verified = s.verified) :
    Held s' phase :=
  ⟨h.belongs.later hs hverified, fun j codeId pending hj ↦ (h.found j codeId pending hj).later hs⟩

/-- A write that looks for nothing leaves its call in its phase. -/
theorem Held.stay (h : Held s phase) : Held s (Function.update phase k (phase k)) := by
  rw [Function.update_eq_self]
  exact h

theorem keepsRows_insertPendingSignup {email : String} {details : Details}
    {invitationId : Option Uuid} {expiresAt : Time} {id : Uuid}
    (h : insertPendingSignup email details invitationId expiresAt s = .ok (id, s')) :
    KeepsRows s s' ∧ s'.verified = s.verified := by
  unfold insertPendingSignup at h
  obtain ⟨email, _, h⟩ := except_bind_eq_ok.mp h
  obtain ⟨name, _, h⟩ := except_bind_eq_ok.mp h
  obtain ⟨_, _, h⟩ := except_bind_eq_ok.mp h
  dsimp only at h
  split at h
  · cases h
  · rename_i rows hrows
    obtain ⟨-, rfl⟩ := Prod.mk.inj (Except.ok.inj h)
    refine ⟨⟨fun c hc ↦ ⟨c, hc, rfl, rfl⟩, fun p hp ↦ ?_, fun _ hp ↦ hp⟩, rfl⟩
    exact ⟨p, (Table.mem_insert hrows).mpr (.inl hp), rfl, rfl⟩

theorem keepsRows_issueCode {email codeHash : String} {expiresAt : Time} {issuedFor : Option Uuid}
    {id : Uuid} (h : issueCode email codeHash expiresAt issuedFor s = .ok (id, s')) :
    KeepsRows s s' ∧ s'.verified = s.verified := by
  unfold issueCode at h
  split at h
  · cases h
  · obtain ⟨stored, _, h⟩ := except_bind_eq_ok.mp h
    dsimp only at h
    split at h
    · cases h
    · rename_i codes hcodes
      obtain ⟨-, rfl⟩ := Prod.mk.inj (Except.ok.inj h)
      have hretired : Table.UpdatedRows s.otpCodes (retireCodes email s)
        (fun c ↦ c.email = email ∧ c.usedAt = none) (fun c ↦ { c with usedAt := some s.db.now }) := rfl
      refine ⟨⟨fun c hc ↦ ?_, fun p hp ↦ ⟨p, hp, rfl, rfl⟩, fun _ hp ↦ hp⟩, rfl⟩
      obtain ⟨c', hc', hsame⟩ := hretired.exists_of_mem
        (Q := fun c' ↦ c'.id = c.id ∧ c'.issuedFor = c.issuedFor) hc (fun _ ↦ ⟨rfl, rfl⟩)
        fun _ ↦ ⟨rfl, rfl⟩
      exact ⟨c', (Table.mem_insert hcodes).mpr (.inl hc'), hsame⟩

/-- A statement that changes columns of the codes no one is told apart by. -/
theorem keepsRows_updateCodes {codes : Table OtpCode.id} {p : OtpCode → Bool}
    {f : OtpCode → OtpCode} (hrows : Table.UpdatedRows s.otpCodes codes p f)
    (hf : ∀ c, (f c).id = c.id ∧ (f c).issuedFor = c.issuedFor) :
    KeepsRows s { s with otpCodes := codes } := by
  refine ⟨fun c hc ↦ ?_, fun p hp ↦ ⟨p, hp, rfl, rfl⟩, fun _ hp ↦ hp⟩
  exact hrows.exists_of_mem (Q := fun c' ↦ c'.id = c.id ∧ c'.issuedFor = c.issuedFor) hc
    (fun _ ↦ ⟨rfl, rfl⟩) fun _ ↦ hf c

theorem insertProfile_eq_ok {email : String} {details : Details} {completedAt : Option Time}
    (h : insertProfile email details completedAt s = .ok (uid, s')) :
    ∃ db profiles, s.profiles.insert ⟨uid, details, completedAt⟩ = some profiles ∧
      s' = { s with db := db, profiles := profiles } := by
  unfold insertProfile at h
  obtain ⟨⟨uid', db⟩, _, h⟩ := except_bind_eq_ok.mp h
  dsimp only at h
  split at h
  · cases h
  · rename_i profiles hprofiles
    obtain ⟨rfl, rfl⟩ := Prod.mk.inj (Except.ok.inj h)
    exact ⟨db, profiles, hprofiles, rfl⟩

theorem insertUser_eq_ok (h : insertUser pending s = .ok (uid, s')) :
    ∃ db profiles, s.profiles.insert ⟨uid, pending.details, some s.db.now⟩ = some profiles ∧
      s' = { s with db := db, profiles := profiles } := by
  unfold insertUser at h
  split at h
  · cases h
  · rename_i r hr
    obtain rfl := Except.ok.inj h
    exact insertProfile_eq_ok hr

/-- What both kinds of verify call do where they succeed. -/
def Created (pending : PendingSignup) (uid : Uuid) (s s' : Shared) : Prop :=
  ∃ db profiles, s.profiles.insert ⟨uid, pending.details, some s.db.now⟩ = some profiles ∧
    s' = consume pending.id { s with db := db, profiles := profiles }

theorem createUserFromPending_eq_ok (h : createUserFromPending pending s = .ok (uid, s')) :
    Created pending uid s s' := by
  obtain ⟨⟨uid', s₁⟩, huser, h⟩ := except_bind_eq_ok.mp h
  obtain ⟨db, profiles, hinsert, rfl⟩ := insertUser_eq_ok huser
  obtain ⟨rfl, rfl⟩ := Prod.mk.inj (Except.ok.inj h)
  exact ⟨db, profiles, hinsert, rfl⟩

theorem completeInviteRegistration_eq_ok {inv : Invitation}
    (h : completeInviteRegistration inv pending s = .ok (uid, s')) : Created pending uid s s' := by
  obtain ⟨⟨uid', s₁⟩, huser, h⟩ := except_bind_eq_ok.mp h
  obtain ⟨db₁, profiles, hinsert, rfl⟩ := insertUser_eq_ok huser
  obtain ⟨db₂, _, h⟩ := except_bind_eq_ok.mp h
  obtain ⟨rfl, rfl⟩ := Prod.mk.inj (Except.ok.inj h)
  exact ⟨db₂, profiles, hinsert, rfl⟩

theorem Created.keepsRows (h : Created pending uid s s') : KeepsRows s s' := by
  obtain ⟨db, profiles, hinsert, rfl⟩ := h
  have hrows : Table.UpdatedRows s.pendingSignups
      (consume pending.id { s with db := db, profiles := profiles }).pendingSignups
      (fun p ↦ p.id = pending.id) (fun p ↦ { p with consumedAt := some db.now }) := rfl
  refine ⟨fun c hc ↦ ⟨c, hc, rfl, rfl⟩, fun p hp ↦ ?_, fun p hp ↦ ?_⟩
  · exact hrows.exists_of_mem (Q := fun p' ↦ p'.id = p.id ∧ p'.details = p.details) hp
      (fun _ ↦ ⟨rfl, rfl⟩) fun _ ↦ ⟨rfl, rfl⟩
  · exact (Table.mem_insert hinsert).mpr (.inl hp)

/-- A user who is created from what the presented code was sent for. -/
theorem Held.record {f : Shared → Except Failure (Uuid × Shared)}
    (hf : ∀ uid s', f s = .ok (uid, s') → Created pending uid s s') (h : Held s phase)
    (hfound : Found codeId pending s) (hs : recording codeId f s = .ok (uid, s')) :
    Held s' phase := by
  obtain ⟨⟨uid', s₁⟩, hcreated, hs⟩ := except_bind_eq_ok.mp hs
  obtain ⟨rfl, rfl⟩ := Prod.mk.inj (Except.ok.inj hs)
  have hcreated := hf _ _ hcreated
  have hkeeps := hcreated.keepsRows
  obtain ⟨db, profiles, hinsert, rfl⟩ := hcreated
  have hold := h.later hkeeps rfl
  refine ⟨fun v hv ↦ ?_, hold.found⟩
  rcases List.mem_append.mp hv with hv | hv
  · exact hold.belongs v hv
  · obtain rfl := List.mem_singleton.mp hv
    obtain ⟨hissued, p, hp, hid, hdetails⟩ := hfound.later hkeeps
    refine ⟨p, hp, ?_, ⟨uid', pending.details, some s.db.now⟩,
      (Table.mem_insert hinsert).mpr (.inr rfl), rfl, hdetails.symm⟩
    rw [hid]
    exact hissued

theorem keepsRows_insertLoginUser {email name : String}
    (h : insertLoginUser email name s = .ok s') :
    KeepsRows s s' ∧ s'.verified = s.verified := by
  unfold insertLoginUser at h
  split at h
  · obtain rfl := Except.ok.inj h
    exact ⟨.refl s, rfl⟩
  · obtain ⟨⟨uid, s₁⟩, hprofile, h⟩ := except_bind_eq_ok.mp h
    obtain ⟨db, profiles, hinsert, rfl⟩ := insertProfile_eq_ok hprofile
    obtain rfl := Except.ok.inj h
    refine ⟨⟨fun c hc ↦ ⟨c, hc, rfl, rfl⟩, fun p hp ↦ ⟨p, hp, rfl, rfl⟩, fun p hp ↦ ?_⟩, rfl⟩
    exact (Table.mem_insert hinsert).mpr (.inl hp)

/-- The newest row that is pending is a row. -/
theorem mem_of_findPendingSignup {email : String} {invitationId : Option Uuid}
    (h : findPendingSignup email invitationId s = some pending) : pending ∈ s.pendingSignups :=
  (Table.mem_select.mp (List.argmax_mem h)).1

open Service in
theorem held_perform {w : Write} (h : Held s phase) (hlegal : Legal (phase k) s w)
    (hmatched : Matched s w) :
    wp (perform w) (fun r s' ↦ Held s' (Function.update phase k (turn (phase k) w r)))
      (fun _ s' ↦ Held s' phase) s := by
  cases w with
  | markExpired id =>
      refine (wp_write _).mpr (Held.stay ?_)
      exact h.later ⟨fun c hc ↦ ⟨c, hc, rfl, rfl⟩, fun p hp ↦ ⟨p, hp, rfl, rfl⟩, fun _ hp ↦ hp⟩ rfl
  | insertPendingSignup email details invitationId expiresAt =>
      refine wp_returning.mpr ⟨fun id s' hs ↦ ?_, fun _ _ ↦ h⟩
      obtain ⟨hkeeps, hverified⟩ := keepsRows_insertPendingSignup hs
      exact (h.later hkeeps hverified).stay
  | issueCode email codeHash expiresAt issuedFor =>
      refine (wp_savepoint _).mpr (wp_returning.mpr ⟨fun id s' hs ↦ ?_, fun _ _ ↦ h.stay⟩)
      obtain ⟨hkeeps, hverified⟩ := keepsRows_issueCode hs
      exact (h.later hkeeps hverified).stay
  | spendAttempt email =>
      change wp (returning fun s ↦ .ok (spendAttempt email s)) _ _ s
      refine wp_returning.mpr ⟨fun live s' hs ↦ ?_, fun _ _ ↦ h⟩
      obtain ⟨-, rfl⟩ := Prod.mk.inj (Except.ok.inj hs)
      have hrows : Table.UpdatedRows s.otpCodes (spendAttempt email s).2.otpCodes
        (fun c ↦ c.live email s.db.now) (fun c ↦ { c with attempts := c.attempts + 1 }) := rfl
      exact (h.later (keepsRows_updateCodes hrows fun _ ↦ ⟨rfl, rfl⟩) rfl).stay
  | markOtpUsed id =>
      change wp (returning fun s ↦ .ok (unused id s, markOtpUsed id s)) _ _ s
      refine wp_returning.mpr ⟨fun first s' hs ↦ ?_, fun _ _ ↦ h⟩
      obtain ⟨-, rfl⟩ := Prod.mk.inj (Except.ok.inj hs)
      have hrows : Table.UpdatedRows s.otpCodes (markOtpUsed id s).otpCodes
        (fun c ↦ c.id = id ∧ c.usedAt = none) (fun c ↦ { c with usedAt := some s.db.now }) := rfl
      exact (h.later (keepsRows_updateCodes hrows fun _ ↦ ⟨rfl, rfl⟩) rfl).stay
  | findPendingSignup email invitationId codeId =>
      refine (wp_query _).mpr ⟨h.belongs, fun j codeId' pending hj ↦ ?_⟩
      by_cases hjk : j = k
      · rw [hjk, Function.update_self] at hj
        obtain ⟨p, hp, hpair⟩ := Option.map_eq_some_iff.mp hj
        obtain ⟨rfl, rfl⟩ := Prod.mk.inj hpair
        exact ⟨hmatched p hp, p, mem_of_findPendingSignup hp, rfl, rfl⟩
      · rw [Function.update_of_ne hjk] at hj
        exact h.found j codeId' pending hj
  | createUser codeId pending =>
      refine wp_returning.mpr ⟨fun uid s' hs ↦ Held.stay ?_, fun _ _ ↦ h⟩
      exact h.record (fun _ _ ↦ createUserFromPending_eq_ok) (h.found k codeId pending hlegal) hs
  | registerInvited codeId inv pending =>
      refine wp_returning.mpr ⟨fun uid s' hs ↦ Held.stay ?_, fun _ _ ↦ h⟩
      exact h.record (fun _ _ ↦ completeInviteRegistration_eq_ok)
        (h.found k codeId pending hlegal) hs
  | insertLoginUser email name =>
      refine wp_exec.mpr ⟨fun s' hs ↦ ?_, fun _ _ ↦ h⟩
      obtain ⟨hkeeps, hverified⟩ := keepsRows_insertLoginUser hs
      exact (h.later hkeeps hverified).stay
  | elapse time =>
      refine (wp_write _).mpr (Held.stay ?_)
      exact h.later ⟨fun c hc ↦ ⟨c, hc, rfl, rfl⟩, fun p hp ↦ ⟨p, hp, rfl, rfl⟩, fun _ hp ↦ hp⟩ rfl

end Writes

/-! ## Runs -/

section Runs

variable [Unicode] [Letters] [CodeHash] [PasswordHash] [Team.TokenHash]

def Inv (c : Run) : Prop := Phased turn Held Anything Legal (fun _ _ _ ↦ True) c

theorem Inv.step {c : Run} {m : Move Call} (h : Inv c) (hm : AtWrite Matched c m) :
    Inv (step c m) := by
  refine Phased.move (fun _ ↦ trivial) (fun _ _ _ _ _ ↦ trivial) ?_ ?_ h hm
  · intro s phase k call hI
    exact ⟨phase k, hI.stay, keeps_enter call⟩
  · intro s phase k w hI hlegal hmatched
    exact ⟨held_perform hI hlegal hmatched, trivial⟩

/-- Where the pending row a verify call finds is always the one its code was sent for, every user
has what the call that had the code sent was given. -/
theorem belongsToCode_always {s : Shared} {ms : List (Move Call)} (hs : s.verified = [])
    (h : Along step (AtWrite Matched) (Config.idle s) ms) :
    Always step (fun c ↦ BelongsToCode c.shared) (Config.idle s) ms := by
  have hheld : Held s fun _ ↦ none := by
    refine ⟨fun v hv ↦ ?_, fun k codeId pending hk ↦ by cases hk⟩
    rw [hs] at hv
    exact absurd hv List.not_mem_nil
  have hinv : Inv (Config.idle s) := Phased.idle hheld
  have hall := (Along.invariant (Q := fun _ _ ↦ True) (fun c m hc hm ↦ ⟨hc.step hm, trivial⟩)
    hinv h).1
  exact hall.mono fun c ⟨phase, hc, _⟩ ↦ hc.belongs

end Runs

/-! ## Two people, one email -/

@[reducible] def anyLetter : Letters := ⟨fun c ↦ c.isAlpha⟩

@[reducible] def plainCode : CodeHash := ⟨fun code ↦ code⟩

@[reducible] def plainPassword : PasswordHash := ⟨fun password salt ↦ salt ++ password⟩

abbrev plainStep : Run → Move Call → Run :=
  @step asciiCase anyLetter plainCode plainPassword Team.plainHash

def starts (firstName password code : String) : Call :=
  .startSelfServeSignup ⟨.value firstName, .value "Doe", .undefined⟩ (.value "ann@one.test")
    (.value password) "salt" code

def verifies (code : String) : Call :=
  .verifySelfServeSignup (.value "ann@one.test") (some code) (.ok ())

def whole (k : ℕ) (call : Call) : List (Move Call) := .enter k call :: List.replicate 8 (.advance k)

/-- Another start call comes between the two halves of Ann's. -/
def overtaken : List (Move Call) :=
  .enter 0 (starts "Ann" "Password1" "111111") :: List.replicate 3 (.advance 0) ++
    whole 1 (.elapse 1) ++ whole 1 (starts "Eve" "Password2" "222222") ++
    List.replicate 5 (.advance 0) ++ whole 2 (verifies "111111")

/-- Ann signs up alone, and Eve later, for the same email. -/
def inTurn : List (Move Call) :=
  whole 0 (starts "Ann" "Password1" "111111") ++ whole 0 (verifies "111111") ++
    whole 1 (starts "Eve" "Password2" "222222")

theorem not_belongsToCode_overtaken :
    ¬ Always plainStep (fun c ↦ BelongsToCode c.shared) (Config.idle Shared.empty) overtaken := by
  decide +kernel

theorem belongsToCode_always_inTurn :
    (inTurn.foldl plainStep (Config.idle Shared.empty)).shared.verified ≠ [] ∧
      Always plainStep (fun c ↦ BelongsToCode c.shared) (Config.idle Shared.empty) inTurn :=
  ⟨by decide +kernel, @belongsToCode_always asciiCase anyLetter plainCode plainPassword Team.plainHash
    Shared.empty inTurn rfl (by decide +kernel)⟩

end Tesbo.Signup
