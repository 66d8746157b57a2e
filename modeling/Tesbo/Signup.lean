import Tesbo.Reasoning.Phases
import Tesbo.Team

/-!
# Signing up with a code

A start call stores what the person gave in `pending_signups` and has a code sent; a verify call
makes a user of what is pending for the email once the code is right.  The codes are those of the
login as well.  Mail, sessions and the counters of failures per address are left out: where one of
these may refuse a call, its answer is an argument.
-/

namespace Tesbo.Signup

open Reasoning

/-- The columns a pending signup hands on to the user. -/
structure Details where
  name : String
  firstName : Option String
  lastName : Option String
  mobileNumber : Option String
  passwordHash : Option String
deriving DecidableEq, Repr

/-- The columns of `users` beside those of `User`. -/
structure Profile where
  userId : Uuid
  details : Details
  profileCompletedAt : Option Time
deriving DecidableEq, Repr

structure PendingSignup where
  id : Uuid
  email : String
  details : Details
  invitationId : Option Uuid
  expiresAt : Time
  consumedAt : Option Time
  createdAt : Time
deriving DecidableEq, Repr

/-- `issuedFor` is the pending signup the call that had the code sent has stored, none for a login.
No statement reads it. -/
structure OtpCode where
  id : Uuid
  email : String
  codeHash : String
  expiresAt : Time
  usedAt : Option Time
  attempts : ℕ
  createdAt : Time
  issuedFor : Option Uuid
deriving DecidableEq, Repr

/-- A user a verify call has created, and the code it was presented with. -/
structure Verified where
  userId : Uuid
  codeId : Uuid
deriving DecidableEq, Repr

/-- The database, and which codes users were created with so far; no handler reads the latter. -/
structure Shared where
  db : Db
  profiles : Table Profile.userId
  pendingSignups : Table PendingSignup.id
  otpCodes : Table OtpCode.id
  verified : List Verified

def Shared.empty : Shared := ⟨.empty, .empty, .empty, .empty, []⟩

/-! ## Writes -/

inductive Write where
  | markExpired (invitationId : Uuid)
  | insertPendingSignup (email : String) (details : Details) (invitationId : Option Uuid)
      (expiresAt : Time)
  | issueCode (email codeHash : String) (expiresAt : Time) (issuedFor : Option Uuid)
  | spendAttempt (email : String)
  | markOtpUsed (id : Uuid)
  /-- A read, of what is pending for an email: it is a step of its own for what is said of it. -/
  | findPendingSignup (email : String) (invitationId : Option Uuid) (codeId : Uuid)
  | createUser (codeId : Uuid) (pending : PendingSignup)
  | registerInvited (codeId : Uuid) (invitation : Invitation) (pending : PendingSignup)
  | insertLoginUser (email name : String)
  | elapse (time : Time)

@[reducible] def Reply : Write → Type
  | .insertPendingSignup _ _ _ _ | .createUser _ _ | .registerInvited _ _ _ => Uuid
  | .issueCode _ _ _ _ => Except Failure Uuid
  | .spendAttempt _ => List OtpCode
  | .markOtpUsed _ => Bool
  | .findPendingSignup _ _ _ => Option PendingSignup
  | _ => Unit

/-! ### Pending signups -/

/-- The row takes the next id. -/
def insertPendingSignup (email : String) (details : Details) (invitationId : Option Uuid)
    (expiresAt : Time) (s : Shared) : Except Failure (Uuid × Shared) := do
  let email ← varchar 255 email
  let name ← varchar 255 details.name
  references? invitationId s.db.invitations.find "pending_signups_invitation_id_fkey"
  let id := s.db.uuids 0
  match s.pendingSignups.insert
      ⟨id, email, { details with name := name }, invitationId, expiresAt, none, s.db.now⟩ with
  | none => .error (.unique "pending_signups_pkey")
  | some rows =>
      .ok (id, { s with
        db := { s.db with uuids := fun n ↦ s.db.uuids (n + 1) }, pendingSignups := rows })

/-- `email = $1 AND invitation_id IS NOT DISTINCT FROM $2 AND consumed_at IS NULL AND
expires_at > now() ORDER BY created_at DESC LIMIT 1` -/
def findPendingSignup (email : String) (invitationId : Option Uuid) (s : Shared) :
    Option PendingSignup :=
  (s.pendingSignups.select fun p ↦ p.email = email ∧ p.invitationId = invitationId ∧
    p.consumedAt = none ∧ s.db.now < p.expiresAt).argmax PendingSignup.createdAt

def consume (id : Uuid) (s : Shared) : Shared :=
  { s with
    pendingSignups := s.pendingSignups.updateWhere (fun p ↦ p.id = id)
      (fun p ↦ { p with consumedAt := some s.db.now }) fun _ ↦ rfl }

/-! ### Codes -/

def maxVerifyAttempts : ℕ := 5

def maxRequestsPerHour : ℕ := 20

def maxCodeLength : ℕ := 64

/-- Times are in milliseconds. -/
def hour : Time := 3600000

def otpExpiry : Time := 600000

def otpRateLimited : Failure := .tooManyRequests "otp_rate_limited"

def recentCodes (email : String) (s : Shared) : ℕ :=
  (s.otpCodes.select fun c ↦ c.email = email ∧ s.db.now < c.createdAt + hour).length

def retireCodes (email : String) (s : Shared) : Table OtpCode.id :=
  s.otpCodes.updateWhere (fun c ↦ c.email = email ∧ c.usedAt = none)
    (fun c ↦ { c with usedAt := some s.db.now }) fun _ ↦ rfl

/-- The transaction of `requestOtp`.  It holds the lock of the email throughout. -/
def issueCode (email codeHash : String) (expiresAt : Time) (issuedFor : Option Uuid) (s : Shared) :
    Except Failure (Uuid × Shared) :=
  if maxRequestsPerHour ≤ recentCodes email s then .error otpRateLimited
  else do
    let stored ← varchar 255 email
    let id := s.db.uuids 0
    match (retireCodes email s).insert
        ⟨id, stored, codeHash, expiresAt, none, 0, s.db.now, issuedFor⟩ with
    | none => .error (.unique "otp_codes_pkey")
    | some codes =>
        .ok (id, { s with
          db := { s.db with uuids := fun n ↦ s.db.uuids (n + 1) }, otpCodes := codes })

def OtpCode.live (c : OtpCode) (email : String) (now : Time) : Bool :=
  c.email = email && c.usedAt = none && decide (now < c.expiresAt) &&
    decide (c.attempts < maxVerifyAttempts)

/-- An attempt is spent before anything is compared. -/
def spendAttempt (email : String) (s : Shared) : List OtpCode × Shared :=
  (s.otpCodes.select fun c ↦ c.live email s.db.now, { s with
    otpCodes := s.otpCodes.updateWhere (fun c ↦ c.live email s.db.now)
      (fun c ↦ { c with attempts := c.attempts + 1 }) fun _ ↦ rfl })

/-- Whether the code was still unused. -/
def unused (id : Uuid) (s : Shared) : Bool :=
  (s.otpCodes.find id).any fun c ↦ c.usedAt = none

def markOtpUsed (id : Uuid) (s : Shared) : Shared :=
  { s with
    otpCodes := s.otpCodes.updateWhere (fun c ↦ c.id = id ∧ c.usedAt = none)
      (fun c ↦ { c with usedAt := some s.db.now }) fun _ ↦ rfl }

/-! ### Users -/

/-- `INSERT INTO users`, all columns. -/
def insertProfile (email : String) (details : Details) (completedAt : Option Time) (s : Shared) :
    Except Failure (Uuid × Shared) := do
  let (uid, db) ← Team.insertUser email s.db
  match s.profiles.insert ⟨uid, details, completedAt⟩ with
  | none => .error (.unique "users_pkey")
  | some profiles => .ok (uid, { s with db := db, profiles := profiles })

def accountExists : Failure :=
  .conflict "An account with this email already exists. Please sign in instead."

/-- A unique violation, whichever the constraint. -/
def uniqueViolation : Failure → Bool
  | .sqlState code _ => code = "23505"
  | _ => false

def insertUser (pending : PendingSignup) (s : Shared) : Except Failure (Uuid × Shared) :=
  match insertProfile pending.email pending.details (some s.db.now) s with
  | .error e => .error (if uniqueViolation e then accountExists else e)
  | .ok r => .ok r

def createUserFromPending (pending : PendingSignup) (s : Shared) :
    Except Failure (Uuid × Shared) := do
  let (uid, s) ← insertUser pending s
  .ok (uid, consume pending.id s)

/-- What the invitation brings: the membership, the projects, and that it is accepted. -/
def join (inv : Invitation) (uid : Uuid) (db : Db) : Except Failure Db := do
  Team.memberReferences inv.organizationId uid db
  match db.organizationMembers.insert ⟨inv.organizationId, uid, inv.role⟩ with
  | none => .error (.unique "organization_members_organization_id_user_id_key")
  | some organizationMembers =>
      let db := setActiveOrganization uid inv.organizationId
        { db with organizationMembers := organizationMembers }
      let db ← inv.projectIds.foldlM (Team.upsertProjectMember false uid inv.role) db
      .ok (Team.markAccepted inv.id db)

def completeInviteRegistration (inv : Invitation) (pending : PendingSignup) (s : Shared) :
    Except Failure (Uuid × Shared) := do
  let (uid, s) ← insertUser pending s
  let db ← join inv uid s.db
  .ok (uid, consume pending.id { s with db := db })

/-- `INSERT INTO users (email, name) … ON CONFLICT (email) DO NOTHING`. -/
def insertLoginUser (email name : String) (s : Shared) : Except Failure Shared :=
  if (Team.findUserByEmail email s.db).isSome then .ok s
  else do
    let (_, s) ← insertProfile email ⟨name, none, none, none, none⟩ none s
    .ok s

/-! ### What a write does -/

/-- The id of a user a verify call has created is kept with its code. -/
def recording (codeId : Uuid) (f : Shared → Except Failure (Uuid × Shared)) (s : Shared) :
    Except Failure (Uuid × Shared) := do
  let (uid, s) ← f s
  .ok (uid, { s with verified := s.verified ++ [⟨uid, codeId⟩] })

open Service in
def perform : (w : Write) → Service Failure Shared (Reply w)
  | .markExpired id => write fun s ↦ { s with db := Team.markExpired id s.db }
  | .insertPendingSignup email details invitationId expiresAt =>
      returning (insertPendingSignup email details invitationId expiresAt)
  | .issueCode email codeHash expiresAt issuedFor =>
      savepoint (returning (issueCode email codeHash expiresAt issuedFor))
  | .spendAttempt email => returning fun s ↦ .ok (spendAttempt email s)
  | .markOtpUsed id => returning fun s ↦ .ok (unused id s, markOtpUsed id s)
  | .findPendingSignup email invitationId _ => query (findPendingSignup email invitationId)
  | .createUser codeId pending => returning (recording codeId (createUserFromPending pending))
  | .registerInvited codeId inv pending =>
      returning (recording codeId (completeInviteRegistration inv pending))
  | .insertLoginUser email name => exec (insertLoginUser email name)
  | .elapse time => write fun s ↦ { s with db := { s.db with now := s.db.now + time } }

/-! ## Procedures -/

/-- The digest a code is stored under. -/
class CodeHash where
  hash : String → String

/-- The digest of a password with its salt. -/
class PasswordHash where
  pbkdf2 : String → String → String

/-- The letters and marks of Unicode, `\p{L}` and `\p{M}`. -/
class Letters where
  letterOrMark : Char → Bool

abbrev Procedure (α : Type) := Proc Shared Reply Failure α

open Proc

abbrev ask (w : Write) : Procedure (Reply w) := issue w

def select {α : Type} (f : Db → α) : Procedure α := query fun s ↦ f s.db

/-! ### What a person gives -/

/-- `(raw ?? "").trim()` -/
def trimmed (raw : Arg String) : String := jsTrim (raw.nullish.getD "")

def validatePersonName [Letters] (raw : Arg String) (fieldLabel : String) (maxLength : ℕ) :
    Except Failure String :=
  let name := trimmed raw
  if name = "" then .error (.badRequest s!"{fieldLabel} is required")
  else if maxLength < jsLength name
  then .error (.badRequest s!"{fieldLabel} must be at most {maxLength} characters")
  else if name.toList.all fun c ↦ Letters.letterOrMark c || [' ', '\'', '.', '-'].contains c
  then .ok name
  else .error (.badRequest
    s!"{fieldLabel} can only contain letters, spaces, hyphens, apostrophes, and periods")

/-- `/^\+[1-9]\d{6,14}$/` -/
def mobileNumber (text : String) : Bool :=
  match text.toList with
  | '+' :: d :: ds =>
      '1' ≤ d && d ≤ '9' && ds.all Char.isDigit && decide (6 ≤ ds.length ∧ ds.length ≤ 14)
  | _ => false

def validateMobileNumber (raw : Arg String) : Except Failure (Option String) :=
  let text := trimmed raw
  if text = "" then .ok none
  else if mobileNumber text then .ok (some text)
  else .error (.badRequest "Mobile number must include a country code, e.g. +14155551234")

def assertValidPassword (password : String) : Except Failure Unit :=
  if jsLength password < 8 then .error (.badRequest "Password must be at least 8 characters")
  else if 16 < jsLength password
  then .error (.badRequest "Password must be at most 16 characters")
  else if !password.toList.any Char.isLower
  then .error (.badRequest "Password must include at least one lowercase letter")
  else if !password.toList.any Char.isUpper
  then .error (.badRequest "Password must include at least one uppercase letter")
  else if !password.toList.any Char.isDigit
  then .error (.badRequest "Password must include at least one number")
  else .ok ()

/-- `salt` is the text `randomBytes` yields. -/
def hashPassword [PasswordHash] (password salt : String) : Except Failure String := do
  assertValidPassword password
  .ok s!"pbkdf2_sha256$210000${salt}${PasswordHash.pbkdf2 password salt}"

def validateEmail [Unicode] (rawEmail : Arg String) : Except Failure String :=
  let email := Unicode.toLowerCase (trimmed rawEmail)
  if email = "" ∨ !Team.validEmail email then .error (.badRequest "invalid email address")
  else if 255 < jsLength email
  then .error (.badRequest "Email must be at most 255 characters")
  else .ok email

/-- The names and the number a person gives. -/
structure Person where
  firstName : Arg String
  lastName : Arg String
  mobileNumber : Arg String

/-- The checks the start calls make, in their order. -/
def Person.details [Letters] (person : Person) : Except Failure Details := do
  let firstName ← validatePersonName person.firstName "First name" 50
  let lastName ← validatePersonName person.lastName "Last name" 50
  let mobile ← validateMobileNumber person.mobileNumber
  .ok ⟨s!"{firstName} {lastName}", some firstName, some lastName, mobile, none⟩

/-! ### The codes -/

/-- `code` is the text `generateOtp` yields. -/
def requestOtp [Unicode] [CodeHash] (rawEmail code : String) (issuedFor : Option Uuid) :
    Procedure (Except Failure Bool) := do
  let email := Unicode.toLowerCase (jsTrim rawEmail)
  if email = "" then pure (.ok false)
  else do
    let now ← select Db.now
    let issued ← ask (.issueCode email (CodeHash.hash code) (now + otpExpiry) issuedFor)
    pure (issued.map fun _ ↦ true)

def sendOtp [Unicode] [CodeHash] (email code : String) (issuedFor : Option Uuid) :
    Procedure Unit := do
  let sent ← requestOtp email code issuedFor
  match sent with
  | .error e =>
      fail (if e = otpRateLimited then e else .serviceUnavailable "otp_delivery_failed")
  | .ok sent => require (sent = true) (.badRequest "email required")

/-- The code the guess was, when it could still be used; `none` for a code that is not a text. -/
def verifyOtpCode [Unicode] [CodeHash] (rawEmail : String) (code : Option String) :
    Procedure (Option Uuid) := do
  let email := Unicode.toLowerCase (jsTrim rawEmail)
  let guess := jsTrim (code.getD "")
  if guess = "" ∨ maxCodeLength < jsLength guess then pure none
  else do
    let live ← ask (.spendAttempt email)
    match live.find? fun c ↦ c.codeHash = CodeHash.hash guess with
    | none => pure none
    | some c => do
        let first ← ask (.markOtpUsed c.id)
        pure (if first then some c.id else none)

/-- Where the insert meets the user another call has just inserted, that user is read. -/
def findOrCreateUser (email : String) : Procedure Unit := do
  let existing ← select (Team.findUserByEmail email)
  if existing.isSome then pure ()
  else ask (.insertLoginUser email (String.ofList (email.toList.takeWhile (· ≠ '@'))))

/-- `requestOtp` of the login; `allowed` is the answer of the lockout and of the rate limit. -/
def requestLoginOtp [Unicode] [CodeHash] (email : Option String) (allowed : Except Failure Unit)
    (code : String) : Procedure Unit := do
  let email := email.getD ""
  require (email ≠ "") (.badRequest "email required")
  ofExcept allowed
  sendOtp email code none

/-- `verifyOtp` of the login. -/
def verifyLoginOtp [Unicode] [CodeHash] (email code : Option String)
    (allowed : Except Failure Unit) : Procedure Unit := do
  let email := email.getD ""
  require (email ≠ "" ∧ code.getD "" ≠ "") (.badRequest "email and code required")
  ofExcept allowed
  let verified ← verifyOtpCode (jsTrim email) code
  require verified.isSome (.unauthorized "invalid_or_expired_otp")
  findOrCreateUser (Unicode.toLowerCase (jsTrim email))

/-! ### Start calls -/

def startPending [Unicode] [CodeHash] (email : String) (details : Details)
    (invitationId : Option Uuid) (code : String) : Procedure Unit := do
  let now ← select Db.now
  let id ← ask (.insertPendingSignup email details invitationId (now + otpExpiry))
  sendOtp email code (some id)

def assertEmailNotTaken (email error : String) : Procedure Unit := do
  let existing ← select (Team.findUserByEmail email)
  require (existing.isNone) (.badRequest error)

def startSelfServeSignup [Unicode] [Letters] [CodeHash] [PasswordHash] (person : Person)
    (rawEmail password : Arg String) (salt code : String) : Procedure Unit := do
  let email ← ofExcept (validateEmail rawEmail)
  let details ← ofExcept person.details
  let password := password.nullish.getD ""
  ofExcept (assertValidPassword password)
  assertEmailNotTaken email "An account with this email already exists. Please sign in instead."
  let passwordHash ← ofExcept (hashPassword (jsTrim password) salt)
  startPending email { details with passwordHash := some passwordHash } none code

/-- The invitation of the token when it can be used; one that is overdue is marked so. -/
def getInvitationRowOrThrow [Team.TokenHash] (token : String) : Procedure Invitation := do
  let inv ← check fun s ↦ (Team.findInvitation token s.db).elim
    (.error (.notFound "Invitation not found or token is invalid")) .ok
  require (inv.status = "pending")
    (.badRequest s!"Invitation is {inv.status} and can no longer be used")
  let now ← select Db.now
  if inv.expiresAt < now then do
    ask (.markExpired inv.id)
    fail (.badRequest "This invitation has expired. Ask the sender to resend it.")
  else pure inv

def takenByInvite : String :=
  "An account with this email already exists. Please sign in and accept the invite."

def startInviteRegistration [Unicode] [Letters] [CodeHash] [PasswordHash] [Team.TokenHash]
    (token : String) (person : Person) (password : Arg String) (salt code : String) :
    Procedure Unit := do
  let inv ← getInvitationRowOrThrow token
  let details ← ofExcept person.details
  let password := password.nullish.getD ""
  ofExcept (assertValidPassword password)
  assertEmailNotTaken inv.email takenByInvite
  let passwordHash ← ofExcept (hashPassword (jsTrim password) salt)
  startPending inv.email { details with passwordHash := some passwordHash } (some inv.id) code

def startInviteOtpRegistration [Unicode] [Letters] [CodeHash] [Team.TokenHash] (token : String)
    (person : Person) (code : String) : Procedure Unit := do
  let inv ← getInvitationRowOrThrow token
  let details ← ofExcept person.details
  assertEmailNotTaken inv.email takenByInvite
  startPending inv.email details (some inv.id) code

/-! ### Verify calls -/

def verifyCodeOrFail [Unicode] [CodeHash] (email : String) (code : Option String)
    (allowed : Except Failure Unit) : Procedure Uuid := do
  ofExcept allowed
  let verified ← verifyOtpCode email code
  check fun _ ↦ verified.elim (.error (.unauthorized "invalid_or_expired_otp")) .ok

def verifySelfServeSignup [Unicode] [CodeHash] (rawEmail : Arg String) (code : Option String)
    (allowed : Except Failure Unit) : Procedure Unit := do
  let email ← ofExcept (validateEmail rawEmail)
  require (jsTrim (code.getD "") ≠ "") (.badRequest "code is required")
  let codeId ← verifyCodeOrFail email code allowed
  let pending ← ask (.findPendingSignup email none codeId)
  match pending with
  | none => fail (.badRequest "No pending signup found for this email. Please start again.")
  | some pending => do
      let _ ← ask (.createUser codeId pending)
      pure ()

def completeInviteVerification [Unicode] [CodeHash] [Team.TokenHash] (token : String)
    (code : Option String) (allowed : Except Failure Unit) : Procedure Unit := do
  let inv ← getInvitationRowOrThrow token
  require (jsTrim (code.getD "") ≠ "") (.badRequest "code is required")
  let codeId ← verifyCodeOrFail inv.email code allowed
  let pending ← ask (.findPendingSignup inv.email (some inv.id) codeId)
  match pending with
  | none => fail (.badRequest "No pending registration found for this invite. Please start again.")
  | some pending => do
      let _ ← ask (.registerInvited codeId inv pending)
      pure ()

end Tesbo.Signup
