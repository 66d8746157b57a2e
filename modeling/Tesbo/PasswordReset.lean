import Tesbo.ApiTokens
import Tesbo.LoginLockout
import Tesbo.Sessions

/-!
# Resetting a password

A reset link works once.  The link is looked up, the password set and the link used up by one statement
each, and each of them can fail.
-/

namespace Tesbo.PasswordReset

open Reasoning Proc
open Otp (Digest)
open LoginLockout (RateLimit)
open Sessions (Session)
open ApiTokens (ApiToken)

structure ResetToken where
  id : Uuid
  userId : Uuid
  tokenHash : String
  expiresAt : Time
  usedAt : Option Time
deriving DecidableEq, Repr

/-- The tables, and whether the next statement fails.  Of the calls: those that have set a password,
with their link; those of them that have not used it up and are still running; those that have
answered with the user; and those that threw after setting a password, leaving a link that works. -/
structure Data where
  users : Table LoginLockout.User.id
  resetTokens : Table ResetToken.id
  sessions : Table Session.tokenHash
  apiTokens : Table ApiToken.id
  rateLimits : Table RateLimit.email
  now : Time
  fails : Bool
  set : List (ℕ × Uuid)
  pending : List (ℕ × Uuid)
  succeeded : List ℕ
  broken : List ℕ

def usable (now : Time) (t : ResetToken) : Bool := now < t.expiresAt && t.usedAt = none

/-- The link of this id works. -/
def Data.works (d : Data) (id : Uuid) : Bool := (d.resetTokens.find id).any (usable d.now)

/-- The link of this id has not been used up. -/
def Data.unused (d : Data) (id : Uuid) : Bool := (d.resetTokens.find id).any fun t ↦ t.usedAt = none

inductive Statement where
  | selectToken (tokenHash : String)
  | setPassword (tokenId userId : Uuid) (passwordHash : String)
  | useToken (tokenId : Uuid)
  | deleteSessions (userId : Uuid)
  | deleteApiTokens (userId : Uuid)
  | selectEmail (userId : Uuid)
  | clearLockout (key : String)

/-- A statement of a call, which may fail; its answer; the passing of time. -/
inductive Write where
  | query (caller : ℕ) (statement : Statement)
  | respond (caller : ℕ) (answer : Option Uuid)
  | elapse (time : Time)

abbrev Answer : Statement → Type
  | .selectToken _ => Option (Uuid × Uuid)
  | .selectEmail _ => Option String
  | _ => Unit

abbrev Reply : Write → Type
  | .query _ statement => Except Failure (Answer statement)
  | _ => Unit

/-- A statement that succeeds. -/
def run (caller : ℕ) : (s : Statement) → Data → Answer s × Data
  | .selectToken tokenHash, d =>
      (((d.resetTokens.select fun t ↦ t.tokenHash = tokenHash && usable d.now t).head?).map
        fun t ↦ (t.id, t.userId), d)
  | .setPassword tokenId userId passwordHash, d =>
      ((), { d with
        users := d.users.updateWhere (fun u ↦ u.id = userId)
          (fun u ↦ { u with passwordHash := some passwordHash }) fun _ ↦ rfl
        set := d.set ++ [(caller, tokenId)]
        pending := d.pending ++ [(caller, tokenId)] })
  | .useToken tokenId, d =>
      ((), { d with
        resetTokens := d.resetTokens.updateWhere (fun t ↦ t.id = tokenId)
          (fun t ↦ { t with usedAt := some d.now }) fun _ ↦ rfl
        pending := d.pending.filter fun p ↦ p.1 ≠ caller })
  | .deleteSessions userId, d =>
      ((), { d with sessions := d.sessions.deleteWhere fun s ↦ s.userId = userId })
  | .deleteApiTokens userId, d =>
      ((), { d with apiTokens := d.apiTokens.deleteWhere fun t ↦ t.userId = some userId })
  | .selectEmail userId, d => ((d.users.find userId).map LoginLockout.User.email, d)
  | .clearLockout key, d =>
      ((), { d with rateLimits := d.rateLimits.deleteWhere fun r ↦ r.email = key })

/-- A statement that fails ends its call. -/
def Data.thrown (d : Data) (caller : ℕ) : Data :=
  { d with
    pending := d.pending.filter fun p ↦ p.1 ≠ caller
    broken :=
      if d.set.any fun p ↦ p.1 = caller && d.works p.2 then d.broken ++ [caller] else d.broken }

/-- What a statement that fails throws; which error it is makes no difference. -/
def connectionLost : Failure := .sqlState "08006" ""

def perform : (w : Write) → Service Failure Data (Reply w)
  | .query caller statement => fun d ↦
      if d.fails then (.ok (.error connectionLost), d.thrown caller)
      else (.ok (.ok (run caller statement d).1), (run caller statement d).2)
  | .respond caller answer => Service.write fun d ↦
      if answer.isSome then { d with succeeded := d.succeeded ++ [caller] } else d
  | .elapse time => Service.write fun d ↦ { d with now := d.now + time }

abbrev Procedure (α : Type) := Proc Data Reply Failure α

def statement (caller : ℕ) (s : Statement) : Procedure (Answer s) := do
  let outcome : Except Failure (Answer s) ← issue (Write.query caller s)
  ofExcept outcome

/-! ## The service -/

section Service

variable [Unicode] [Digest]

/-- PBKDF2 with a salt of its own. -/
class HashPassword where
  hash (password : String) : String

def minLength : ℕ := 8

def maxLength : ℕ := 16

def assertValidPassword (value : String) : Except Failure Unit :=
  if jsLength value < minLength then
    .error (.badRequest s!"Password must be at least {minLength} characters")
  else if maxLength < jsLength value then
    .error (.badRequest s!"Password must be at most {maxLength} characters")
  else if ¬ value.toList.any fun c ↦ 'a' ≤ c && c ≤ 'z' then
    .error (.badRequest "Password must include at least one lowercase letter")
  else if ¬ value.toList.any fun c ↦ 'A' ≤ c && c ≤ 'Z' then
    .error (.badRequest "Password must include at least one uppercase letter")
  else if ¬ value.toList.any fun c ↦ '0' ≤ c && c ≤ '9' then
    .error (.badRequest "Password must include at least one number")
  else .ok ()

variable [HashPassword]

def hashPassword (password : String) : Except Failure String := do
  assertValidPassword password
  pure (HashPassword.hash password)

/-- The link is there for the record of what the call has done. -/
def setPassword (caller : ℕ) (tokenId userId : Uuid) (newPassword : String) : Procedure Unit := do
  let passwordHash ← ofExcept (hashPassword newPassword)
  statement caller (.setPassword tokenId userId passwordHash)

def findValidToken (caller : ℕ) (rawToken : String) : Procedure (Option (Uuid × Uuid)) :=
  let token := jsTrim rawToken
  if token = "" then pure none
  else statement caller (.selectToken (Digest.hash token))

/-- The cache of the sessions is left out: it swallows its errors. -/
def resetPassword (caller : ℕ) (rawToken newPassword : String) : Procedure (Option Uuid) := do
  let row : Option (Uuid × Uuid) ← findValidToken caller rawToken
  match row with
  | none => pure none
  | some (id, userId) => do
      setPassword caller id userId newPassword
      statement caller (.useToken id)
      statement caller (.deleteSessions userId)
      statement caller (.deleteApiTokens userId)
      let email : Option String ← statement caller (.selectEmail userId)
      match email.filter (· ≠ "") with
      | none => pure (some userId)
      | some email => do
          statement caller (.clearLockout (LoginLockout.key email))
          pure (some userId)

inductive Request where
  | resetPassword (rawToken newPassword : String)
  | elapse (time : Time)

def Request.run (caller : ℕ) : Request → Procedure Unit
  | .resetPassword rawToken newPassword => do
      let answer ← PasswordReset.resetPassword caller rawToken newPassword
      issue (Write.respond caller answer)
  | .elapse time => issue (Write.elapse time)

abbrev Requests := Config Data (Procedure Unit)

/-- The tables there are, and the calls that will come. -/
def start (users : Table LoginLockout.User.id) (resetTokens : Table ResetToken.id)
    (sessions : Table Session.tokenHash) (apiTokens : Table ApiToken.id)
    (rateLimits : Table RateLimit.email) (now : Time) (calls : ℕ → Option Request) : Requests :=
  ⟨⟨users, resetTokens, sessions, apiTokens, rateLimits, now, false, [], [], [], []⟩,
    fun k ↦ (calls k).map (Request.run k)⟩

end Service

/-- No statement waits for another call. -/
def waits (_ : Data) (_ : Write) : Bool := false

/-- The next step of a call, and whether its statement fails. -/
structure Event where
  caller : ℕ
  fails : Bool

/-- The database is as it is, but for whether it fails the next statement. -/
def failing (c : Requests) (fails : Bool) : Requests := { c with shared.fails := fails }

def step (c : Requests) (e : Event) : Requests :=
  proceed perform waits (failing c e.fails) e.caller

end Tesbo.PasswordReset
