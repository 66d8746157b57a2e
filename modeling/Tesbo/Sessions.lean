import Tesbo.OtpCodes

/-!
# Sessions and their cache

A session is a row of the database; a cache in front of it saves the lookup.  A call that has read the
row fills the cache later, when the session may have been revoked in between.
-/

namespace Tesbo.Sessions

open Reasoning Proc
open Otp (Digest)

structure Session where
  tokenHash : String
  userId : Uuid
  expiresAt : Time
deriving DecidableEq, Repr

/-- What a key of the cache holds, and until when. -/
structure Cached (α : Type) where
  value : α
  expires : Time

def Cached.read {α : Type} (now : Time) (entry : Option (Cached α)) : Option α :=
  (entry.filter fun e ↦ now < e.expires).map Cached.value

/-- A call of `invalidateAllSessions` that has read the index and not cleared it yet. -/
structure Listing where
  caller : ℕ
  userId : Uuid
  members : List String
deriving DecidableEq

/-- The sessions, those there ever were, and the keys `session:` (`none` is the sentinel) and
`user-sessions:`.  Of the calls: the sessions that one which has returned has revoked, those between
their two commands, the calls that started after their session was revoked, and the answers. -/
structure Data where
  sessions : Table Session.tokenHash
  issued : List Session
  now : Time
  cache : String → Option (Cached (Option Uuid))
  index : Uuid → Option (Cached (List String))
  revoked : List String
  listing : List Listing
  late : List ℕ
  resolved : List (ℕ × Option Uuid)

def positiveTtlSeconds : ℕ := 60

def negativeTtlSeconds : ℕ := 15

def userIndexTtlSeconds : ℕ := 120

/-- Times are in milliseconds. -/
def seconds (n : ℕ) : Time := 1000 * n

def day : Time := 86400000

/-- The statements and the commands, of which none fails.  A `MULTI` is one command. -/
inductive Write where
  | start (caller : ℕ) (tokenHash : String)
  | get (tokenHash : String)
  | selectSession (tokenHash : String)
  | setValid (tokenHash : String) (userId : Uuid) (ttl : ℕ)
  | setInvalid (tokenHash : String)
  | resolve (caller : ℕ) (answer : Option Uuid)
  | insertSession (row : Session)
  | deleteSession (tokenHash : String)
  | del (tokenHash : String) (gone : List String)
  | deleteAll (userId : Uuid)
  | smembers (caller : ℕ) (userId : Uuid)
  | exec (caller : ℕ) (userId : Uuid) (gone members : List String)
  | returned (gone : List String)
  | elapse (time : Time)

abbrev Reply : Write → Type
  | .get _ => Option (Option Uuid)
  | .selectSession _ => Option Session
  | .deleteSession _ | .deleteAll _ | .smembers _ _ => List String
  | _ => Unit

/-- The tokens of the sessions there ever were. -/
def Data.tokens (d : Data) (p : Session → Bool) : List String :=
  (d.issued.filter p).map Session.tokenHash

def Data.members (d : Data) (userId : Uuid) : List String :=
  (Cached.read d.now (d.index userId)).getD []

def perform : (w : Write) → Service Failure Data (Reply w)
  | .start caller tokenHash => Service.write fun d ↦
      if tokenHash ∈ d.revoked then { d with late := d.late ++ [caller] } else d
  | .get tokenHash => Service.query fun d ↦ Cached.read d.now (d.cache tokenHash)
  | .selectSession tokenHash => Service.query fun d ↦
      (d.sessions.find tokenHash).filter fun s ↦ d.now < s.expiresAt
  | .setValid tokenHash userId ttl => Service.write fun d ↦
      { d with
        cache := Function.update d.cache tokenHash (some ⟨some userId, d.now + seconds ttl⟩)
        index := Function.update d.index userId
          (some ⟨tokenHash :: d.members userId, d.now + seconds userIndexTtlSeconds⟩) }
  | .setInvalid tokenHash => Service.write fun d ↦
      { d with
        cache := Function.update d.cache tokenHash
          (some ⟨none, d.now + seconds negativeTtlSeconds⟩) }
  | .resolve caller answer => Service.write fun d ↦
      { d with resolved := d.resolved ++ [(caller, answer)] }
  | .insertSession row => fun d ↦
      match d.sessions.insert row with
      | none => (.error (.conflict "duplicate key value"), d)
      | some sessions => (.ok (), { d with sessions := sessions, issued := d.issued ++ [row] })
  | .deleteSession tokenHash => fun d ↦
      (.ok (d.tokens fun s ↦ s.tokenHash = tokenHash),
        { d with sessions := d.sessions.deleteWhere fun s ↦ s.tokenHash = tokenHash })
  | .del tokenHash gone => Service.write fun d ↦
      { d with
        cache := Function.update d.cache tokenHash none
        revoked := d.revoked ++ gone }
  | .deleteAll userId => fun d ↦
      (.ok (d.tokens fun s ↦ s.userId = userId),
        { d with sessions := d.sessions.deleteWhere fun s ↦ s.userId = userId })
  | .smembers caller userId => fun d ↦
      (.ok (d.members userId),
        { d with listing := d.listing ++ [⟨caller, userId, d.members userId⟩] })
  | .exec caller userId gone members => Service.write fun d ↦
      { d with
        cache := fun tokenHash ↦ if tokenHash ∈ members then none else d.cache tokenHash
        index := Function.update d.index userId none
        revoked := d.revoked ++ gone
        listing := d.listing.filter fun l ↦ l.caller ≠ caller }
  | .returned gone => Service.write fun d ↦ { d with revoked := d.revoked ++ gone }
  | .elapse time => Service.write fun d ↦ { d with now := d.now + time }

abbrev Procedure (α : Type) := Proc Data Reply Failure α

/-! ## The service -/

section Service

variable [Digest] (sessionCacheEnabled : Bool)

/-- `token` is what `randomBytes` gives; the login record is left out. -/
def createSession (userId : Uuid) (token : String) (sessionDays : ℕ) : Procedure String := do
  let expiresAt : Time ← query fun d ↦ d.now + sessionDays * day
  issue (Write.insertSession ⟨Digest.hash token, userId, expiresAt⟩)
  pure token

def setValid (tokenHash : String) (userId : Uuid) (expiresAt : Time) : Procedure Unit :=
  if sessionCacheEnabled then do
    let remainingSeconds : ℕ ← query fun d ↦ (expiresAt - d.now) / 1000
    let ttl := min positiveTtlSeconds remainingSeconds
    if ttl = 0 then pure ()
    else issue (Write.setValid tokenHash userId ttl)
  else pure ()

def setInvalid (tokenHash : String) : Procedure Unit :=
  if sessionCacheEnabled then issue (Write.setInvalid tokenHash) else pure ()

/-- `none` is `undefined`, a miss. -/
def get (tokenHash : String) : Procedure (Option (Option Uuid)) :=
  if sessionCacheEnabled then issue (Write.get tokenHash) else pure none

def resolveSession (sessionToken : String) : Procedure (Option Uuid) :=
  if jsTrim sessionToken = "" then pure none
  else do
    let tokenHash := Digest.hash sessionToken
    let cached ← get sessionCacheEnabled tokenHash
    match cached with
    | some answer => pure answer
    | none => do
        let row : Option Session ← issue (Write.selectSession tokenHash)
        match row with
        | none => do
            setInvalid sessionCacheEnabled tokenHash
            pure none
        | some row => do
            setValid sessionCacheEnabled tokenHash row.userId row.expiresAt
            pure (some row.userId)

/-- `gone` are the tokens of the sessions the call revokes. -/
def invalidateToken (tokenHash : String) (gone : List String) : Procedure Unit :=
  if sessionCacheEnabled then issue (Write.del tokenHash gone) else issue (Write.returned gone)

def invalidateSession (sessionToken : String) : Procedure Unit :=
  if jsTrim sessionToken = "" then pure ()
  else do
    let tokenHash := Digest.hash sessionToken
    let gone : List String ← issue (Write.deleteSession tokenHash)
    invalidateToken sessionCacheEnabled tokenHash gone

def invalidateAllForUser (caller : ℕ) (userId : Uuid) (gone : List String) : Procedure Unit :=
  if sessionCacheEnabled then do
    let tokenHashes : List String ← issue (Write.smembers caller userId)
    issue (Write.exec caller userId gone tokenHashes)
  else issue (Write.returned gone)

def invalidateAllSessions (caller : ℕ) (userId : Uuid) : Procedure Unit := do
  let gone : List String ← issue (Write.deleteAll userId)
  invalidateAllForUser sessionCacheEnabled caller userId gone

inductive Request where
  | createSession (userId : Uuid) (token : String) (sessionDays : ℕ)
  | resolveSession (sessionToken : String)
  | invalidateSession (sessionToken : String)
  | invalidateAllSessions (userId : Uuid)
  | elapse (time : Time)

def Request.run (caller : ℕ) : Request → Procedure Unit
  | .createSession userId token sessionDays => do
      let _ ← Sessions.createSession userId token sessionDays
      pure ()
  | .resolveSession sessionToken => do
      issue (Write.start caller (Digest.hash sessionToken))
      let answer ← Sessions.resolveSession sessionCacheEnabled sessionToken
      issue (Write.resolve caller answer)
  | .invalidateSession sessionToken =>
      Sessions.invalidateSession sessionCacheEnabled sessionToken
  | .invalidateAllSessions userId =>
      Sessions.invalidateAllSessions sessionCacheEnabled caller userId
  | .elapse time => issue (Write.elapse time)

abbrev Requests := Config Data (Procedure Unit)

/-- The sessions there are, an empty cache, and the calls that will come. -/
def start (sessions : Table Session.tokenHash) (now : Time) (calls : ℕ → Option Request) : Requests :=
  ⟨⟨sessions, sessions.rows, now, fun _ ↦ none, fun _ ↦ none, [], [], [], []⟩,
    fun k ↦ (calls k).map (Request.run sessionCacheEnabled k)⟩

end Service

/-- No statement and no command waits. -/
def waits (_ : Data) (_ : Write) : Bool := false

def step (c : Requests) (k : ℕ) : Requests := proceed perform waits c k

end Tesbo.Sessions
