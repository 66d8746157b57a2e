import Tesbo.OtpCodes
import Tesbo.Reasoning.Groups

/-!
# The budget of password guesses

After five failures an email is locked for a day.  The lock is looked up, the password compared and the
failure recorded one after the other, so calls that overlap can all find the email free.
-/

namespace Tesbo.LoginLockout

open Reasoning Proc
open Otp (normalizeEmail)

structure User where
  id : Uuid
  email : String
  passwordHash : Option String

/-- A row of `otp_rate_limit`. -/
structure RateLimit where
  email : String
  attemptCount : ℕ
  lockedUntil : Option Time

/-- The tables.  Of the calls, by the key of their email: those that will compare a password and those
that have compared one and not recorded it; the comparisons in the window, which ends with a login or
with a lock; and the keys of the comparisons that were made while there was a lock. -/
structure Data where
  users : Table User.email
  rateLimits : Table RateLimit.email
  now : Time
  checked : String → Finset ℕ
  compared : String → Finset ℕ
  tries : String → ℕ
  triedLocked : List String

def maxFailedAttempts : ℕ := 5

def lockoutMinutes : ℕ := 24 * 60

def minutes (n : ℕ) : Time := 60000 * n

def key (email : String) [Unicode] : String := "login:" ++ normalizeEmail email

/-- The statements on `otp_rate_limit`, and the comparison.  `compares` says that the account has a
password to compare with. -/
inductive Write where
  | getActiveLock (caller : ℕ) (key : String) (compares : Bool)
  | verifyPassword (caller : ℕ) (key : String)
  | recordFailedAttempt (caller : ℕ) (key : String)
  | clear (caller : ℕ) (key : String)
  | elapse (time : Time)

abbrev Reply : Write → Type
  | .getActiveLock _ _ _ => Option Time
  | _ => Unit

def Data.activeLock (d : Data) (key : String) : Option Time :=
  ((d.rateLimits.find key).bind RateLimit.lockedUntil).filter fun t ↦ d.now < t

/-- One failure more: after a lock that has expired, the first. -/
def RateLimit.failed (now : Time) (r : RateLimit) : RateLimit :=
  if r.lockedUntil.any (· ≤ now) then
    { r with
      attemptCount := 1
      lockedUntil := if maxFailedAttempts ≤ 1 then some (now + minutes lockoutMinutes) else none }
  else { r with
    attemptCount := r.attemptCount + 1
    lockedUntil :=
      if maxFailedAttempts ≤ r.attemptCount + 1 then some (now + minutes lockoutMinutes)
      else r.lockedUntil }

theorem RateLimit.email_failed (now : Time) (r : RateLimit) : (r.failed now).email = r.email := by
  unfold RateLimit.failed
  split
  · rfl
  · rfl

def perform : (w : Write) → Service Failure Data (Reply w)
  | .getActiveLock caller key compares => fun d ↦
      (.ok (d.activeLock key),
        if d.activeLock key = none ∧ compares = true then
          { d with checked := Function.update d.checked key (insert caller (d.checked key)) }
        else d)
  | .verifyPassword caller key => Service.write fun d ↦
      { d with
        checked := Function.update d.checked key ((d.checked key).erase caller)
        compared := Function.update d.compared key (insert caller (d.compared key))
        tries := Function.update d.tries key (d.tries key + 1)
        triedLocked := if d.activeLock key = none then d.triedLocked else d.triedLocked ++ [key] }
  | .recordFailedAttempt caller key => Service.write fun d ↦
      { d with
        rateLimits := d.rateLimits.upsert ⟨key, 1, none⟩ (RateLimit.failed d.now)
          (RateLimit.email_failed d.now)
        compared := Function.update d.compared key ((d.compared key).erase caller) }
  | .clear caller key => Service.write fun d ↦
      { d with
        rateLimits := d.rateLimits.deleteWhere fun r ↦ r.email = key
        compared := Function.update d.compared key ((d.compared key).erase caller)
        tries := Function.update d.tries key 0 }
  | .elapse time => Service.write fun d ↦
      { d with
        now := d.now + time
        tries := fun key ↦
          if d.activeLock key ≠ none ∧ ({ d with now := d.now + time } : Data).activeLock key = none
          then 0 else d.tries key }

abbrev Procedure (α : Type) := Proc Data Reply Failure α

/-! ## The service -/

/-- PBKDF2 with the parameters of the stored hash. -/
class Pbkdf2 where
  verify (password iterations salt expected : String) : Bool

section Service

variable [Unicode] [Pbkdf2]

def verifyPassword (password storedHash : String) : Bool :=
  match (storedHash.toList.splitOn '$').map String.ofList with
  | [algorithm, iterations, salt, expected] =>
      algorithm = "pbkdf2_sha256" && Pbkdf2.verify password iterations salt expected
  | _ => false

inductive Outcome where
  | ok (userId : Uuid)
  | notFound
  | invalidPassword
  | locked (lockedUntil : Time)
deriving DecidableEq, Repr

def verifyLogin (caller : ℕ) (rawEmail password : String) : Procedure Outcome :=
  if jsTrim rawEmail = "" ∨ jsTrim password = "" then pure .invalidPassword
  else do
    let email := normalizeEmail rawEmail
    let row : Option User ← query fun d ↦ d.users.find email
    match row with
    | none => pure .notFound
    | some row => do
        -- an empty hash is none
        let passwordHash := row.passwordHash.filter (· ≠ "")
        let activeLock : Option Time ←
          issue (Write.getActiveLock caller (key email) passwordHash.isSome)
        match activeLock, passwordHash with
        | some lockedUntil, _ => pure (.locked lockedUntil)
        | none, none => pure .invalidPassword
        | none, some passwordHash => do
            issue (Write.verifyPassword caller (key email))
            if verifyPassword password passwordHash then do
              issue (Write.clear caller (key email))
              pure (.ok row.id)
            else do
              issue (Write.recordFailedAttempt caller (key email))
              pure .invalidPassword

inductive Request where
  | verifyLogin (rawEmail password : String)
  | elapse (time : Time)

def Request.run (caller : ℕ) : Request → Procedure Outcome
  | .verifyLogin rawEmail password => LoginLockout.verifyLogin caller rawEmail password
  | .elapse time => do
      issue (Write.elapse time)
      pure .notFound

abbrev Requests := Config Data (Procedure Outcome)

/-- The accounts, of which none has failed yet, and the calls that will come. -/
def start (users : Table User.email) (now : Time) (calls : ℕ → Option Request) : Requests :=
  ⟨⟨users, Table.empty, now, fun _ ↦ ∅, fun _ ↦ ∅, fun _ ↦ 0, []⟩,
    fun k ↦ (calls k).map (Request.run k)⟩

end Service

/-- No statement waits for another call. -/
def waits (_ : Data) (_ : Write) : Bool := false

def step (c : Requests) (k : ℕ) : Requests := proceed perform waits c k

/-! ## What bounds an attacker -/

/-- The failures of the streak that counts towards the next lock. -/
def Data.streak (d : Data) (key : String) : ℕ :=
  match d.rateLimits.find key with
  | none => 0
  | some r => if r.lockedUntil.any (· ≤ d.now) then 0 else r.attemptCount

/-- Comparisons there were and will be, as far as the calls have come. -/
def Data.guesses (d : Data) (key : String) : ℕ :=
  d.streak key + (d.checked key).card + (d.compared key).card

def WithinBudget (d : Data) : Prop :=
  (∀ key, d.tries key ≤ maxFailedAttempts) ∧ d.triedLocked = []

/-- The condition of a step: a call that finds the email free finds that the failures, and the calls
that have found it free and not recorded theirs, are fewer than five. -/
def Spare (_ : ℕ) (d : Data) : Write → Prop
  | .getActiveLock _ key compares =>
      d.activeLock key = none → compares = true → d.guesses key < maxFailedAttempts
  | _ => True

/-! ### How far a call has come -/

inductive Stage where
  | free
  | checked (key : String)
  | compared (key : String)
deriving DecidableEq

structure Phase where
  caller : ℕ
  stage : Stage

def nextStage : Stage → (w : Write) → Reply w → Stage
  | .free, .getActiveLock _ key compares, lock =>
      if lock = none ∧ compares = true then .checked key else .free
  | .checked key, .verifyPassword _ _, _ => .compared key
  | .compared _, .recordFailedAttempt _ _, _ | .compared _, .clear _ _, _ => .free
  | stage, _, _ => stage

def turn (t : Phase) (w : Write) (r : Reply w) : Phase :=
  { t with stage := nextStage t.stage w r }

/-- What a call may ask for. -/
inductive Legal : Phase → Write → Prop where
  | check {k key compares} : Legal ⟨k, .free⟩ (.getActiveLock k key compares)
  | compare {k key} : Legal ⟨k, .checked key⟩ (.verifyPassword k key)
  | record {k key} : Legal ⟨k, .compared key⟩ (.recordFailedAttempt k key)
  | clear {k key} : Legal ⟨k, .compared key⟩ (.clear k key)
  | elapse {k time} : Legal ⟨k, .free⟩ (.elapse time)

theorem passes_run [Unicode] [Pbkdf2] (k : ℕ) (request : Request) :
    Passes turn Legal (fun _ t ↦ t = ⟨k, .free⟩) (fun _ t ↦ t = ⟨k, .free⟩) ⟨k, .free⟩
      (request.run k) := by
  cases request with
  | verifyLogin rawEmail password =>
      show Passes _ _ _ _ _ (verifyLogin k rawEmail password)
      unfold verifyLogin
      split
      · exact passes_pure rfl
      apply passes_query_seq
      intro d
      cases d.users.find (normalizeEmail rawEmail) with
      | none => exact passes_pure rfl
      | some row =>
          apply passes_issue_seq
          · exact .check
          intro lock
          cases lock with
          | some lockedUntil => exact passes_pure rfl
          | none =>
              cases row.passwordHash.filter (· ≠ "") with
              | none => exact passes_pure rfl
              | some passwordHash =>
                  apply passes_issue_seq
                  · exact .compare
                  intro _
                  split
                  · apply passes_issue_seq
                    · exact .clear
                    · exact fun _ ↦ passes_pure rfl
                  · apply passes_issue_seq
                    · exact .record
                    · exact fun _ ↦ passes_pure rfl
  | elapse time =>
      apply passes_issue_seq
      · exact .elapse
      · exact fun _ ↦ passes_pure rfl

/-! ### What holds of the calls together -/

structure Sound (d : Data) (phase : ℕ → Phase) : Prop where
  callers : ∀ k, (phase k).caller = k
  checked : ∀ k key, k ∈ d.checked key ↔ (phase k).stage = .checked key
  compared : ∀ k key, k ∈ d.compared key ↔ (phase k).stage = .compared key
  guesses : ∀ key, d.guesses key ≤ maxFailedAttempts
  tries : ∀ key, d.tries key ≤ d.streak key + (d.compared key).card
  locks : ∀ r ∈ d.rateLimits, r.lockedUntil = none ∨ maxFailedAttempts ≤ r.attemptCount
  triedLocked : d.triedLocked = []

section Sound

variable {d d' : Data} {phase : ℕ → Phase} {k : ℕ} {key : String} {s : Stage}

theorem Sound.withinBudget (h : Sound d phase) : WithinBudget d := by
  refine ⟨fun key ↦ ?_, h.triedLocked⟩
  have htries := h.tries key
  have hguesses := h.guesses key
  unfold Data.guesses at hguesses
  omega

/-- While there is a lock, nobody is about to compare a password. -/
theorem Sound.activeLock_eq_none (h : Sound d phase) (hcalls : d.streak key < maxFailedAttempts) :
    d.activeLock key = none := by
  unfold Data.streak at hcalls
  unfold Data.activeLock
  cases hfind : d.rateLimits.find key with
  | none => rfl
  | some r =>
      rw [hfind] at hcalls
      rw [Option.bind_some]
      rcases h.locks r (Table.find_eq_some.mp hfind).1 with hnone | hmany
      · rw [hnone]
        rfl
      · cases hlock : r.lockedUntil with
        | none => rfl
        | some t =>
            by_cases hpast : t ≤ d.now
            · rw [Option.filter_some, if_neg]
              simp only [decide_eq_true_eq, not_lt]
              exact hpast
            · -- a lock that is on counts five failures
              dsimp only at hcalls
              rw [hlock] at hcalls
              simp only [Option.any_some, decide_eq_true_eq, if_neg hpast] at hcalls
              omega

theorem Sound.mem_checked (h : Sound d phase) (hk : phase k = ⟨k, s⟩) :
    k ∈ d.checked key ↔ s = .checked key := by
  rw [h.checked k key, hk]

theorem Sound.mem_compared (h : Sound d phase) (hk : phase k = ⟨k, s⟩) :
    k ∈ d.compared key ↔ s = .compared key := by
  rw [h.compared k key, hk]

/-- The rule for a statement: the sets of calls are those of the phases, and the rest is about
numbers. -/
theorem Sound.update (h : Sound d phase) {s' : Stage}
    (hchecked : ∀ key, (∀ j, j ≠ k → (j ∈ d'.checked key ↔ j ∈ d.checked key)) ∧
      (k ∈ d'.checked key ↔ s' = .checked key))
    (hcompared : ∀ key, (∀ j, j ≠ k → (j ∈ d'.compared key ↔ j ∈ d.compared key)) ∧
      (k ∈ d'.compared key ↔ s' = .compared key))
    (hguesses : ∀ key, d'.guesses key ≤ maxFailedAttempts)
    (htries : ∀ key, d'.tries key ≤ d'.streak key + (d'.compared key).card)
    (hlocks : ∀ r ∈ d'.rateLimits, r.lockedUntil = none ∨ maxFailedAttempts ≤ r.attemptCount)
    (htriedLocked : d'.triedLocked = []) : Sound d' (Function.update phase k ⟨k, s'⟩) := by
  refine ⟨?_, ?_, ?_, hguesses, htries, hlocks, htriedLocked⟩
  · intro j
    by_cases hj : j = k
    · subst hj
      rw [Function.update_self]
    · rw [Function.update_of_ne hj]
      exact h.callers j
  · intro j key
    by_cases hj : j = k
    · subst hj
      rw [Function.update_self]
      exact (hchecked key).2
    · rw [Function.update_of_ne hj, (hchecked key).1 j hj]
      exact h.checked j key
  · intro j key
    by_cases hj : j = k
    · subst hj
      rw [Function.update_self]
      exact (hcompared key).2
    · rw [Function.update_of_ne hj, (hcompared key).1 j hj]
      exact h.compared j key

/-! #### The failures of a key -/

theorem not_past (now : Time) {later : Time} (h : 0 < later) :
    ¬ (some (now + later)).any (· ≤ now) = true := by
  simp only [Option.any_some, decide_eq_true_eq]
  exact Nat.not_le.mpr (Nat.lt_add_of_pos_right h)

/-- A failure that is recorded is one more of the streak. -/
theorem streak_record (d : Data) (key key' : String) :
    (Service.after (perform (.recordFailedAttempt k key)) d).streak key' =
      d.streak key' + if key' = key then 1 else 0 := by
  show (match (d.rateLimits.upsert ⟨key, 1, none⟩ (RateLimit.failed d.now) _).find key' with
    | none => 0
    | some r => if r.lockedUntil.any (· ≤ d.now) then 0 else r.attemptCount) = _
  rw [Table.find_upsert]
  unfold Data.streak
  by_cases hkey : key' = key
  · subst hkey
    rw [if_pos rfl, if_pos rfl]
    cases hfind : d.rateLimits.find key' with
    | none => rfl
    | some r =>
        dsimp only [Option.elim_some]
        unfold RateLimit.failed
        by_cases hpast : r.lockedUntil.any (· ≤ d.now) = true
        · rw [if_pos hpast, if_pos hpast, if_neg (by decide : ¬ maxFailedAttempts ≤ 1)]
          rfl
        · rw [if_neg hpast, if_neg hpast]
          dsimp only
          by_cases hmany : maxFailedAttempts ≤ r.attemptCount + 1
          · have hlater : 0 < minutes lockoutMinutes := by norm_num [minutes, lockoutMinutes]
            rw [if_pos hmany, if_neg (not_past d.now hlater)]
          · rw [if_neg hmany, if_neg hpast]
  · rw [if_neg fun h ↦ hkey h.symm, if_neg hkey]
    rfl

theorem streak_clear (d : Data) (key key' : String) :
    (Service.after (perform (.clear k key)) d).streak key' =
      if key' = key then 0 else d.streak key' := by
  show (match (d.rateLimits.deleteWhere fun r ↦ r.email = key).find key' with
    | none => 0
    | some r => if r.lockedUntil.any (· ≤ d.now) then 0 else r.attemptCount) = _
  rw [Table.find_deleteKey]
  by_cases hkey : key' = key
  · rw [if_pos hkey, if_pos hkey]
  · rw [if_neg hkey, if_neg hkey]
    rfl

/-- With the time a lock expires, and the streak with it. -/
theorem streak_elapse (d : Data) (key : String) (time : Time) :
    let d' : Data := { d with now := d.now + time }
    d'.streak key ≤ d.streak key ∧
      (¬ (d.activeLock key ≠ none ∧ d'.activeLock key = none) → d'.streak key = d.streak key) := by
  intro d'
  unfold Data.streak Data.activeLock
  show (match d.rateLimits.find key with
      | none => 0
      | some r => if r.lockedUntil.any (· ≤ d.now + time) then 0 else r.attemptCount) ≤
        (match d.rateLimits.find key with
          | none => 0
          | some r => if r.lockedUntil.any (· ≤ d.now) then 0 else r.attemptCount) ∧ _
  cases hfind : d.rateLimits.find key with
  | none => exact ⟨le_rfl, fun _ ↦ rfl⟩
  | some r =>
      show (if r.lockedUntil.any (· ≤ d.now + time) then 0 else r.attemptCount) ≤
          (if r.lockedUntil.any (· ≤ d.now) then 0 else r.attemptCount) ∧
        (¬ (r.lockedUntil.filter (fun t ↦ d.now < t) ≠ none ∧
            r.lockedUntil.filter (fun t ↦ d.now + time < t) = none) →
          (if r.lockedUntil.any (· ≤ d.now + time) then 0 else r.attemptCount) =
            if r.lockedUntil.any (· ≤ d.now) then 0 else r.attemptCount)
      cases r.lockedUntil with
      | none => exact ⟨le_rfl, fun _ ↦ rfl⟩
      | some t =>
          simp only [Option.any_some, decide_eq_true_eq, Option.filter_some]
          by_cases hpast : t ≤ d.now
          · have hpast' : t ≤ d.now + time := Nat.le_add_right_of_le hpast
            rw [if_pos hpast, if_pos hpast']
            exact ⟨le_rfl, fun _ ↦ rfl⟩
          · by_cases hnext : t ≤ d.now + time
            · -- it expires now
              rw [if_pos hnext]
              refine ⟨Nat.zero_le _, fun hno ↦ absurd ⟨?_, ?_⟩ hno⟩
              · rw [if_pos (not_le.mp hpast)]
                exact Option.some_ne_none t
              · rw [if_neg (not_lt.mpr hnext)]
            · rw [if_neg hpast, if_neg hnext]
              exact ⟨le_rfl, fun _ ↦ rfl⟩

/-! #### One statement -/

theorem Sound.check (h : Sound d phase) (hk : phase k = ⟨k, .free⟩)
    (hroom : d.guesses key < maxFailedAttempts) :
    Sound { d with checked := Function.update d.checked key (insert k (d.checked key)) }
      (Function.update phase k ⟨k, .checked key⟩) := by
  have hnot : k ∉ d.checked key := fun hno ↦ Stage.noConfusion ((h.mem_checked hk).mp hno)
  apply h.update
  · intro key'
    refine ⟨fun j hj ↦ ?_, ?_⟩
    · exact mem_insert_at_of_ne hj
    · rw [mem_insert_at, h.mem_checked hk]
      constructor
      · rintro (hno | ⟨-, rfl⟩)
        · cases hno
        · rfl
      · intro hkey
        cases hkey
        exact .inr ⟨rfl, rfl⟩
  · intro key'
    refine ⟨fun _ _ ↦ Iff.rfl, ?_⟩
    rw [h.mem_compared hk]
    exact iff_of_false nofun nofun
  · intro key'
    have hguesses := h.guesses key'
    unfold Data.guesses at hguesses hroom ⊢
    rw [card_insert_at hnot]
    show d.streak key' + _ + (d.compared key').card ≤ maxFailedAttempts
    by_cases hkey : key' = key
    · subst hkey
      rw [if_pos rfl]
      omega
    · rw [if_neg hkey]
      omega
  · exact h.tries
  · exact h.locks
  · exact h.triedLocked

theorem Sound.compare (h : Sound d phase) (hk : phase k = ⟨k, .checked key⟩) :
    Sound (Service.after (perform (.verifyPassword k key)) d)
      (Function.update phase k ⟨k, .compared key⟩) := by
  have hchecked : k ∈ d.checked key := (h.mem_checked hk).mpr rfl
  have hnot : k ∉ d.compared key := fun hno ↦ Stage.noConfusion ((h.mem_compared hk).mp hno)
  have hfree : d.activeLock key = none := by
    apply h.activeLock_eq_none
    have hguesses := h.guesses key
    have hcard : 0 < (d.checked key).card := Finset.card_pos.mpr ⟨k, hchecked⟩
    unfold Data.guesses at hguesses
    omega
  apply h.update
  · intro key'
    refine ⟨fun j hj ↦ ?_, ?_⟩
    · exact mem_erase_at_of_ne hj
    · show k ∈ Function.update d.checked key _ key' ↔ _
      rw [mem_erase_at, h.mem_checked hk]
      apply iff_of_false
      · rintro ⟨hsame, hno⟩
        cases hsame
        exact hno ⟨rfl, rfl⟩
      · exact nofun
  · intro key'
    refine ⟨fun j hj ↦ ?_, ?_⟩
    · exact mem_insert_at_of_ne hj
    · show k ∈ Function.update d.compared key _ key' ↔ _
      rw [mem_insert_at, h.mem_compared hk]
      constructor
      · rintro (hno | ⟨-, rfl⟩)
        · cases hno
        · rfl
      · intro hkey
        cases hkey
        exact .inr ⟨rfl, rfl⟩
  · intro key'
    have hguesses := h.guesses key'
    have hcard := card_erase_at hchecked key'
    unfold Data.guesses at hguesses ⊢
    show d.streak key' + (Function.update d.checked key _ key').card +
      (Function.update d.compared key _ key').card ≤ maxFailedAttempts
    rw [card_insert_at hnot]
    omega
  · intro key'
    have htries := h.tries key'
    show Function.update d.tries key (d.tries key + 1) key' ≤
      d.streak key' + (Function.update d.compared key _ key').card
    rw [card_insert_at hnot]
    by_cases hkey : key' = key
    · subst hkey
      rw [Function.update_self, if_pos rfl]
      omega
    · rw [Function.update_of_ne hkey, if_neg hkey]
      omega
  · exact h.locks
  · show (if d.activeLock key = none then d.triedLocked else _) = []
    rw [if_pos hfree]
    exact h.triedLocked

/-- A comparison is over: its caller is no longer among those of the key. -/
theorem Sound.conclude (h : Sound d phase) (hk : phase k = ⟨k, .compared key⟩)
    (hchecked : d'.checked = d.checked)
    (hcompared : d'.compared = Function.update d.compared key ((d.compared key).erase k))
    (hstreak : ∀ key', d'.streak key' ≤ d.streak key' + if key' = key then 1 else 0)
    (htries : ∀ key', d'.tries key' ≤ d'.streak key' + (d'.compared key').card)
    (hlocks : ∀ r ∈ d'.rateLimits, r.lockedUntil = none ∨ maxFailedAttempts ≤ r.attemptCount)
    (htriedLocked : d'.triedLocked = d.triedLocked) :
    Sound d' (Function.update phase k ⟨k, .free⟩) := by
  have hmem : k ∈ d.compared key := (h.mem_compared hk).mpr rfl
  apply h.update
  · intro key'
    rw [hchecked]
    refine ⟨fun _ _ ↦ Iff.rfl, ?_⟩
    rw [h.mem_checked hk]
    exact iff_of_false nofun nofun
  · intro key'
    rw [hcompared]
    refine ⟨fun j hj ↦ ?_, ?_⟩
    · exact mem_erase_at_of_ne hj
    · rw [mem_erase_at, h.mem_compared hk]
      apply iff_of_false
      · rintro ⟨hsame, hno⟩
        cases hsame
        exact hno ⟨rfl, rfl⟩
      · exact nofun
  · intro key'
    have hguesses := h.guesses key'
    have hcard := card_erase_at hmem key'
    have hless := hstreak key'
    unfold Data.guesses at hguesses ⊢
    rw [hchecked, hcompared]
    omega
  · exact htries
  · exact hlocks
  · rw [htriedLocked]
    exact h.triedLocked

theorem locks_failed {now : Time} {r : RateLimit}
    (h : r.lockedUntil = none ∨ maxFailedAttempts ≤ r.attemptCount) :
    (r.failed now).lockedUntil = none ∨ maxFailedAttempts ≤ (r.failed now).attemptCount := by
  unfold RateLimit.failed
  by_cases hpast : r.lockedUntil.any (· ≤ now) = true
  · rw [if_pos hpast, if_neg (by decide : ¬ maxFailedAttempts ≤ 1)]
    exact .inl rfl
  · rw [if_neg hpast]
    by_cases hmany : maxFailedAttempts ≤ r.attemptCount + 1
    · exact .inr hmany
    · rw [if_neg hmany]
      rcases h with hnone | hcount
      · exact .inl hnone
      · exact absurd (Nat.le_succ_of_le hcount) hmany

theorem Sound.record (h : Sound d phase) (hk : phase k = ⟨k, .compared key⟩) :
    Sound (Service.after (perform (.recordFailedAttempt k key)) d)
      (Function.update phase k ⟨k, .free⟩) := by
  have hmem : k ∈ d.compared key := (h.mem_compared hk).mpr rfl
  apply h.conclude hk
  · rfl
  · rfl
  · intro key'
    rw [streak_record]
  · intro key'
    have htries := h.tries key'
    have hcard := card_erase_at hmem key'
    rw [streak_record]
    show d.tries key' ≤ _ + (Function.update d.compared key _ key').card
    omega
  · intro r hr
    rcases Table.mem_upsert.mp hr with ⟨hr, -⟩ | ⟨rfl, -⟩ | ⟨r₀, hr₀, -, rfl⟩
    · exact h.locks r hr
    · exact .inl rfl
    · exact locks_failed (h.locks r₀ hr₀)
  · rfl

theorem Sound.clear (h : Sound d phase) (hk : phase k = ⟨k, .compared key⟩) :
    Sound (Service.after (perform (.clear k key)) d) (Function.update phase k ⟨k, .free⟩) := by
  apply h.conclude hk
  · rfl
  · rfl
  · intro key'
    rw [streak_clear]
    split
    · exact Nat.zero_le _
    · exact Nat.le_add_right _ _
  · intro key'
    rw [streak_clear]
    show Function.update d.tries key 0 key' ≤
      _ + (Function.update d.compared key ((d.compared key).erase k) key').card
    by_cases hkey : key' = key
    · subst hkey
      rw [Function.update_self]
      exact Nat.zero_le _
    · rw [Function.update_of_ne hkey, Function.update_of_ne hkey, if_neg hkey]
      exact h.tries key'
  · exact fun r hr ↦ h.locks r (Table.mem_deleteWhere.mp hr).1
  · rfl

theorem Sound.elapse (h : Sound d phase) {time : Time} (hk : phase k = ⟨k, s⟩) :
    Sound (Service.after (perform (.elapse time)) d) (Function.update phase k ⟨k, s⟩) := by
  apply h.update
  · exact fun key ↦ ⟨fun _ _ ↦ Iff.rfl, h.mem_checked hk⟩
  · exact fun key ↦ ⟨fun _ _ ↦ Iff.rfl, h.mem_compared hk⟩
  · intro key
    have hguesses := h.guesses key
    have hless := (streak_elapse d key time).1
    unfold Data.guesses at hguesses ⊢
    exact le_trans (Nat.add_le_add_right (Nat.add_le_add_right hless _) _) hguesses
  · intro key
    show (if _ then 0 else d.tries key) ≤ _
    split
    · exact Nat.zero_le _
    · rename_i hstays
      have hsame := (streak_elapse d key time).2 hstays
      have htries := h.tries key
      rw [← hsame] at htries
      exact htries
  · exact h.locks
  · exact h.triedLocked

/-- Every statement that meets its condition keeps the invariant. -/
theorem Sound.perform (h : Sound d phase) {w : Write} (hlegal : Legal (phase k) w)
    (hspare : Spare k d w) :
    Service.wp (perform w) (fun r d' ↦ Sound d' (Function.update phase k (turn (phase k) w r)))
      (fun _ _ ↦ False) d := by
  have hcaller := h.callers k
  obtain ⟨t, ht⟩ : ∃ t, phase k = t := ⟨_, rfl⟩
  rw [ht] at hlegal hcaller ⊢
  cases hlegal with
  | @check j key compares =>
      obtain rfl := hcaller
      unfold Service.wp LoginLockout.perform
      dsimp only [turn, nextStage]
      by_cases hfree : d.activeLock key = none ∧ compares = true
      · rw [if_pos hfree, if_pos hfree]
        exact h.check ht (hspare hfree.1 hfree.2)
      · rw [if_neg hfree, if_neg hfree, ← ht, Function.update_eq_self]
        exact h
  | compare =>
      obtain rfl := hcaller
      apply (Service.wp_write _).mpr
      exact h.compare ht
  | record =>
      obtain rfl := hcaller
      apply (Service.wp_write _).mpr
      exact h.record ht
  | clear =>
      obtain rfl := hcaller
      apply (Service.wp_write _).mpr
      exact h.clear ht
  | elapse =>
      obtain rfl := hcaller
      apply (Service.wp_write _).mpr
      exact h.elapse ht

end Sound

/-! ### Runs -/

section Runs

variable [Unicode] [Pbkdf2]

theorem withinBudget_always (users : Table User.email) (now : Time) (calls : ℕ → Option Request)
    (ks : List ℕ) (hks : Along step (fun c k ↦ AtProceed waits Spare c k) (start users now calls) ks) :
    Always step (fun c ↦ WithinBudget c.shared) (start users now calls) ks := by
  have hsound : Concluding turn Sound Legal (fun t ↦ t.stage = .free) (start users now calls) := by
    refine ⟨fun k ↦ ⟨k, .free⟩, ?_, fun k ↦ ?_⟩
    · refine ⟨fun _ ↦ rfl, ?_, ?_, ?_, fun _ ↦ Nat.zero_le _, nofun, rfl⟩
      · exact fun k key ↦ iff_of_false (Finset.notMem_empty k) nofun
      · exact fun k key ↦ iff_of_false (Finset.notMem_empty k) nofun
      · exact fun _ ↦ Nat.zero_le _
    · have hpc : (start users now calls).pc k = (calls k).map (Request.run k) := rfl
      rw [hpc]
      cases calls k with
      | none => rfl
      | some request =>
          apply (passes_run k request).mono
          · rintro _ _ rfl
            rfl
          · rintro _ _ rfl
            rfl
  have halways := hsound.always
    (fun d phase k w hsound hlegal _ hspare ↦ hsound.perform hlegal hspare) hks
  apply halways.mono
  rintro c ⟨phase, hsound, -⟩
  exact hsound.withinBudget

end Runs

/-! ### A burst -/

instance (k : ℕ) (d : Data) (w : Write) : Decidable (Spare k d w) :=
  match w with
  | .getActiveLock _ key compares => inferInstanceAs (Decidable (d.activeLock key = none →
      compares = true → d.guesses key < maxFailedAttempts))
  | .verifyPassword _ _ | .recordFailedAttempt _ _ | .clear _ _ | .elapse _ => instDecidableTrue

/-- The one password that is right. -/
abbrev oneRight : Pbkdf2 := ⟨fun password _ _ _ ↦ password = "right"⟩

def account : Table User.email := ⟨[⟨1, "a", some "pbkdf2_sha256$1$s$h"⟩], by decide⟩

def wrongGuesses : ℕ → Option Request := fun _ ↦ some (.verifyLogin "a" "wrong")

/-- Six calls find the email free before one of them has recorded its failure. -/
def burst : List ℕ := List.range 6 ++ List.range 6 ++ List.range 6

theorem six_tries :
    letI := asciiCase
    letI := oneRight
    ¬ Always step (fun c ↦ WithinBudget c.shared) (start account 0 wrongGuesses) burst := by
  let _ := asciiCase
  let _ := oneRight
  intro h
  have htries : Always step (fun c ↦ c.shared.tries "login:a" ≤ maxFailedAttempts)
      (start account 0 wrongGuesses) burst := h.mono fun _ hc ↦ hc.1 "login:a"
  revert htries
  decide +kernel

def oneMistake : ℕ → Option Request
  | 0 => some (.verifyLogin "a" "wrong")
  | 1 => some (.verifyLogin "a" "right")
  | _ => none

/-- One after the other. -/
def inTurn : List ℕ := [0, 0, 0, 0, 0, 1, 1, 1, 1, 1]

theorem withinBudget_inTurn :
    letI := asciiCase
    letI := oneRight
    Along step (fun c k ↦ AtProceed waits Spare c k) (start account 0 oneMistake) inTurn ∧
      Always step (fun c ↦ WithinBudget c.shared) (start account 0 oneMistake) inTurn := by
  let _ := asciiCase
  let _ := oneRight
  have hks : Along step (fun c k ↦ AtProceed waits Spare c k) (start account 0 oneMistake)
      inTurn := by
    decide +kernel
  exact ⟨hks, withinBudget_always account 0 oneMistake inTurn hks⟩

end Tesbo.LoginLockout
