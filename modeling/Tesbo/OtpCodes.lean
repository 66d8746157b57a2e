import Tesbo.Reasoning.Calls
import Tesbo.Reasoning.Fresh
import Tesbo.Text

/-!
# The guess budget of login codes

A six-digit code can be guessed, so each one is compared with few guesses and few are issued in an
hour.  Any number of calls ask for codes and verify them at once.
-/

namespace Tesbo.Otp

open Reasoning Proc

/-- A row of `otp_codes`.  Ids are handed out in the order in which codes are committed. -/
structure OtpCode where
  id : Uuid
  email : String
  codeHash : String
  expiresAt : Time
  usedAt : Option Time
  attempts : ℕ
  createdAt : Time
deriving DecidableEq, Repr

/-- The table; who holds the advisory lock of a key; the codes guesses were compared with, one entry
for each comparison; the calls that return `true`, each with its code. -/
structure Data where
  otpCodes : Table OtpCode.id
  now : Time
  locks : ℤ → Option ℕ
  compared : List Uuid
  verdicts : List (ℕ × Uuid)

/-- Postgres' `hashtext`, of which nothing is used. -/
class HashText where
  hashtext : String → ℤ

/-- The service's `hash`, SHA-256 in base64url, of which nothing is used. -/
class Digest where
  hash : String → String

def maxVerifyAttempts : ℕ := 5

def maxRequestsPerHour : ℕ := 20

def maxCodeLength : ℕ := 64

/-- Times are in milliseconds. -/
def hour : Time := 3600000

/-- `otpExpiryMinutes` in milliseconds, a setting. -/
abbrev Expiry := ℕ

section Statements

variable [HashText]

def lockKey (email : String) : ℤ := HashText.hashtext ("otp:" ++ email)

/-- `created_at > now() - interval '1 hour'`, where `now()` is when the transaction started. -/
def recent (codes : Table OtpCode.id) (email : String) (startedAt : Time) : List OtpCode :=
  codes.select fun c ↦ c.email = email ∧ startedAt < c.createdAt + hour

/-- The statements.  Those of a transaction are seen when it commits; its row locks are left out, which
allows for more orders and not for fewer. -/
inductive Write where
  | lockEmail (caller : ℕ) (email : String)
  | countRecent (email : String) (startedAt : Time)
  | commit (caller : ℕ) (email codeHash : String) (startedAt expiresAt : Time)
  | rollback (caller : ℕ) (email : String)
  | spendAttempt (email : String)
  | markOtpUsed (caller : ℕ) (id : Uuid)
  | elapse (time : Time)

abbrev Reply : Write → Type
  | .countRecent _ _ => ℕ
  | .spendAttempt _ => List OtpCode
  | .markOtpUsed _ _ => Bool
  | _ => Unit

def Data.unlock (d : Data) (caller : ℕ) (email : String) : Data :=
  { d with
    locks := fun key ↦
      if key = lockKey email ∧ d.locks key = some caller then none else d.locks key }

/-- The older codes of the email are used up, and the new one is there. -/
def Data.issue (d : Data) (email codeHash : String) (startedAt expiresAt : Time) : Data :=
  let codes := d.otpCodes.updateWhere (fun c ↦ c.email = email ∧ c.usedAt = none)
    (fun c ↦ { c with usedAt := some startedAt }) fun _ ↦ rfl
  { d with
    otpCodes := codes.push ⟨codes.newKey, email, codeHash, expiresAt, none, 0, startedAt⟩ rfl }

def spendable (d : Data) (email : String) (c : OtpCode) : Bool :=
  c.email = email ∧ c.usedAt = none ∧ d.now < c.expiresAt ∧ c.attempts < maxVerifyAttempts

def perform : (w : Write) → Service Failure Data (Reply w)
  | .lockEmail caller email => Service.write fun d ↦
      { d with locks := Function.update d.locks (lockKey email) (some caller) }
  | .countRecent email startedAt => Service.query fun d ↦
      (recent d.otpCodes email startedAt).length
  | .commit caller email codeHash startedAt expiresAt => Service.write fun d ↦
      (d.issue email codeHash startedAt expiresAt).unlock caller email
  | .rollback caller email => Service.write fun d ↦ d.unlock caller email
  | .spendAttempt email => fun d ↦
      let codes := d.otpCodes.updateWhere (spendable d email)
        (fun c ↦ { c with attempts := c.attempts + 1 }) fun _ ↦ rfl
      let live := (d.otpCodes.select (spendable d email)).map fun c ↦
        { c with attempts := c.attempts + 1 }
      (.ok live, { d with otpCodes := codes, compared := d.compared ++ live.map OtpCode.id })
  | .markOtpUsed caller id => fun d ↦
      if (d.otpCodes.find id).any fun c ↦ c.usedAt = none then
        (.ok true, { d with
          otpCodes := d.otpCodes.updateWhere (fun c ↦ c.id = id ∧ c.usedAt = none)
            (fun c ↦ { c with usedAt := some d.now }) fun _ ↦ rfl
          verdicts := d.verdicts ++ [(caller, id)] })
      else (.ok false, d)
  | .elapse time => Service.write fun d ↦ { d with now := d.now + time }

/-- Another call has the lock. -/
def waits (d : Data) : Write → Bool
  | .lockEmail caller email => d.locks (lockKey email) ≠ none ∧ d.locks (lockKey email) ≠ some caller
  | _ => false

abbrev Procedure (α : Type) := Proc Data Reply Failure α

variable [Unicode] [Digest]

def normalizeEmail (rawEmail : String) : String := Unicode.toLowerCase (jsTrim rawEmail)

/-- `plainCode` is what `generateOtp` returns; the mail is left out. -/
def requestOtp (expiry : Expiry) (caller : ℕ) (rawEmail plainCode : String) : Procedure Bool := do
  let email := normalizeEmail rawEmail
  if email = "" then pure false
  else do
    let expiresAt : Time ← query fun d ↦ d.now + expiry
    let startedAt : Time ← query fun d ↦ d.now
    issue (Write.lockEmail caller email)
    let n : ℕ ← issue (Write.countRecent email startedAt)
    if maxRequestsPerHour ≤ n then do
      issue (Write.rollback caller email)
      fail (.tooManyRequests "otp_rate_limited")
    else do
      issue (Write.commit caller email (Digest.hash plainCode) startedAt expiresAt)
      pure true

/-- A code that is no text is `none`.  Every live row the guess is compared with is in `compared`;
`find` stops at the one that matches. -/
def verifyOtpCode (caller : ℕ) (rawEmail : String) (code : Option String) : Procedure Bool := do
  let email := normalizeEmail rawEmail
  match code with
  | none => pure false
  | some code => do
      let guess := jsTrim code
      if guess = "" ∨ maxCodeLength < jsLength guess then pure false
      else do
        let live : List OtpCode ← issue (Write.spendAttempt email)
        match live.find? fun row ↦ row.codeHash = Digest.hash guess with
        | none => pure false
        | some row => issue (Write.markOtpUsed caller row.id)

inductive Request where
  | requestOtp (rawEmail plainCode : String)
  | verifyOtpCode (rawEmail : String) (code : Option String)
  | elapse (time : Time)

def Request.run (expiry : Expiry) (caller : ℕ) : Request → Procedure Bool
  | .requestOtp rawEmail plainCode => Otp.requestOtp expiry caller rawEmail plainCode
  | .verifyOtpCode rawEmail code => Otp.verifyOtpCode caller rawEmail code
  | .elapse time => do
      issue (Write.elapse time)
      pure true

abbrev Requests := Config Data (Procedure Bool)

/-- No code yet, and the calls that will come. -/
def start (expiry : Expiry) (now : Time) (calls : ℕ → Option Request) : Requests :=
  ⟨⟨⟨[], List.nodup_nil⟩, now, fun _ ↦ none, [], []⟩,
    fun k ↦ (calls k).map (Request.run expiry k)⟩

def step (c : Requests) (k : ℕ) : Requests := proceed perform waits c k

end Statements

/-! ## What the table and the comparisons say of each other -/

/-- Issued in the hour after `s`. -/
def inHour (email : String) (s : Time) (c : OtpCode) : Bool :=
  c.email = email ∧ s < c.createdAt ∧ c.createdAt ≤ s + hour

def timesCompared (d : Data) (id : Uuid) : ℕ := d.compared.count id

def timesTrue (d : Data) (id : Uuid) : ℕ := d.verdicts.countP fun v ↦ v.2 = id

structure Ledger (d : Data) : Prop where
  newest : ∀ c ∈ d.otpCodes, c.usedAt = none → ∀ c' ∈ d.otpCodes, c'.email = c.email → c'.id ≤ c.id
  guesses : ∀ c ∈ d.otpCodes, timesCompared d c.id ≤ c.attempts ∧ c.attempts ≤ maxVerifyAttempts
  once : ∀ c ∈ d.otpCodes, timesTrue d c.id ≤ 1 ∧ (c.usedAt = none → timesTrue d c.id = 0)
  known : (∀ id ∈ d.compared, ∃ c ∈ d.otpCodes, c.id = id) ∧
    ∀ v ∈ d.verdicts, ∃ c ∈ d.otpCodes, c.id = v.2
  perHour : ∀ email s, d.otpCodes.rows.countP (inHour email s) ≤ maxRequestsPerHour

section Ledger

variable {d d' : Data}

theorem ledger_of_same (h : Ledger d) (hcodes : d'.otpCodes = d.otpCodes)
    (hcompared : d'.compared = d.compared) (hverdicts : d'.verdicts = d.verdicts) : Ledger d' := by
  obtain ⟨codes, now, locks, compared, verdicts⟩ := d
  obtain ⟨codes', now', locks', compared', verdicts'⟩ := d'
  simp only at hcodes hcompared hverdicts
  subst hcodes hcompared hverdicts
  exact ⟨h.newest, h.guesses, h.once, h.known, h.perHour⟩

/-- An update that keeps the id, the email and the time of a code, and gives none back its use. -/
structure Updates (f : OtpCode → OtpCode) : Prop where
  id : ∀ c, (f c).id = c.id
  email : ∀ c, (f c).email = c.email
  createdAt : ∀ c, (f c).createdAt = c.createdAt
  usedAt : ∀ c, (f c).usedAt = none → c.usedAt = none

theorem Updates.newest {f : OtpCode → OtpCode} (hf : Updates f) (h : Ledger d)
    (hrows : d'.otpCodes.rows = d.otpCodes.rows.map f) :
    ∀ c ∈ d'.otpCodes, c.usedAt = none → ∀ c' ∈ d'.otpCodes, c'.email = c.email → c'.id ≤ c.id := by
  intro c hc hunused c' hc' hemail
  rw [Table.mem_def, hrows] at hc hc'
  obtain ⟨c₀, hc₀, rfl⟩ := List.mem_map.mp hc
  obtain ⟨c₁, hc₁, rfl⟩ := List.mem_map.mp hc'
  rw [hf.email, hf.email] at hemail
  rw [hf.id, hf.id]
  exact h.newest c₀ hc₀ (hf.usedAt c₀ hunused) c₁ hc₁ hemail

theorem Updates.countP {f : OtpCode → OtpCode} (hf : Updates f) (rows : List OtpCode)
    {p : OtpCode → Bool} (hp : ∀ c c', c'.email = c.email → c'.createdAt = c.createdAt → p c' = p c) :
    (rows.map f).countP p = rows.countP p := by
  rw [List.countP_map]
  apply List.countP_congr
  intro c _
  show p (f c) = true ↔ p c = true
  rw [hp c (f c) (hf.email c) (hf.createdAt c)]

theorem inHour_congr (email : String) (s : Time) (c c' : OtpCode) (hemail : c'.email = c.email)
    (hcreated : c'.createdAt = c.createdAt) : inHour email s c' = inHour email s c := by
  unfold inHour
  rw [hemail, hcreated]

/-- The row a row of an updated table was. -/
theorem exists_of_updated {f : OtpCode → OtpCode} (hf : Updates f)
    (hrows : d'.otpCodes.rows = d.otpCodes.rows.map f) {id : Uuid}
    (h : ∃ c ∈ d.otpCodes, c.id = id) : ∃ c ∈ d'.otpCodes, c.id = id := by
  obtain ⟨c, hc, rfl⟩ := h
  refine ⟨f c, ?_, hf.id c⟩
  rw [Table.mem_def, hrows]
  exact List.mem_map_of_mem hc

/-! ### A new code -/

section Issue

variable {email codeHash : String} {startedAt expiresAt : Time}

/-- What becomes of an older code. -/
def retired (email : String) (startedAt : Time) (c : OtpCode) : OtpCode :=
  if c.email = email ∧ c.usedAt = none then { c with usedAt := some startedAt } else c

theorem updates_retired : Updates (retired email startedAt) := by
  have hcases : ∀ c, retired email startedAt c = { c with usedAt := some startedAt } ∨
      retired email startedAt c = c := by
    intro c
    unfold retired
    by_cases h : c.email = email ∧ c.usedAt = none
    · rw [if_pos h]
      exact .inl rfl
    · rw [if_neg h]
      exact .inr rfl
  constructor
  · intro c
    rcases hcases c with h | h
    · rw [h]
    · rw [h]
  · intro c
    rcases hcases c with h | h
    · rw [h]
    · rw [h]
  · intro c
    rcases hcases c with h | h
    · rw [h]
    · rw [h]
  · intro c
    rcases hcases c with h | h
    · rw [h]
      exact nofun
    · rw [h]
      exact fun hunused ↦ hunused

theorem attempts_retired (c : OtpCode) : (retired email startedAt c).attempts = c.attempts := by
  unfold retired
  by_cases h : c.email = email ∧ c.usedAt = none
  · rw [if_pos h]
  · rw [if_neg h]

theorem unused_retired {c : OtpCode} (h : (retired email startedAt c).usedAt = none) :
    c.usedAt = none ∧ c.email ≠ email := by
  have hunused := updates_retired.usedAt c h
  refine ⟨hunused, fun hemail ↦ ?_⟩
  unfold retired at h
  rw [if_pos ⟨hemail, hunused⟩] at h
  cases h

def newCode (d : Data) (email codeHash : String) (startedAt expiresAt : Time) : OtpCode :=
  ⟨d.otpCodes.newKey, email, codeHash, expiresAt, none, 0, startedAt⟩

theorem rows_issue : (d.issue email codeHash startedAt expiresAt).otpCodes.rows =
    d.otpCodes.rows.map (retired email startedAt) ++
      [newCode d email codeHash startedAt expiresAt] := by
  unfold Data.issue newCode
  show (d.otpCodes.rows.map _) ++ [_] = _
  rw [Table.newKey_updateWhere]
  congr 1
  apply List.map_congr_left
  intro c _
  unfold retired
  simp only [decide_eq_true_eq]

theorem mem_issue {c : OtpCode} : c ∈ (d.issue email codeHash startedAt expiresAt).otpCodes ↔
    (∃ c₀ ∈ d.otpCodes, retired email startedAt c₀ = c) ∨
      c = newCode d email codeHash startedAt expiresAt := by
  rw [Table.mem_def, rows_issue, List.mem_append, List.mem_map, List.mem_singleton]
  exact Iff.rfl

/-- The code that has been counted under the lock is one more than there were. -/
theorem ledger_issue (h : Ledger d)
    (hrecent : (recent d.otpCodes email startedAt).length < maxRequestsPerHour) :
    Ledger (d.issue email codeHash startedAt expiresAt) := by
  have hretired : Updates (retired email startedAt) := updates_retired
  have hnew : ∀ c ∈ d.otpCodes, c.id < d.otpCodes.newKey := fun c hc ↦
    lt_unused (List.mem_map_of_mem hc)
  constructor
  · intro c hc hunused c' hc' hemail
    rcases mem_issue.mp hc with ⟨c₀, hc₀, rfl⟩ | rfl
    · obtain ⟨hunused₀, hother⟩ := unused_retired hunused
      rw [hretired.email] at hemail
      rcases mem_issue.mp hc' with ⟨c₁, hc₁, rfl⟩ | rfl
      · rw [hretired.email] at hemail
        rw [hretired.id, hretired.id]
        exact h.newest c₀ hc₀ hunused₀ c₁ hc₁ hemail
      · exact absurd hemail.symm hother
    · rcases mem_issue.mp hc' with ⟨c₁, hc₁, rfl⟩ | rfl
      · rw [hretired.id]
        exact le_of_lt (hnew c₁ hc₁)
      · exact le_rfl
  · intro c hc
    rcases mem_issue.mp hc with ⟨c₀, hc₀, rfl⟩ | rfl
    · rw [hretired.id, attempts_retired]
      exact h.guesses c₀ hc₀
    · -- no guess has been compared with a code that was not there
      have hnone : timesCompared d d.otpCodes.newKey = 0 := by
        apply List.count_eq_zero.mpr
        intro hmem
        obtain ⟨c, hc, hid⟩ := h.known.1 _ hmem
        exact absurd hid (ne_of_lt (hnew c hc))
      exact ⟨le_of_eq hnone, Nat.zero_le _⟩
  · intro c hc
    rcases mem_issue.mp hc with ⟨c₀, hc₀, rfl⟩ | rfl
    · rw [hretired.id]
      obtain ⟨honce, hzero⟩ := h.once c₀ hc₀
      exact ⟨honce, fun hunused ↦ hzero (hretired.usedAt c₀ hunused)⟩
    · have hnone : timesTrue d d.otpCodes.newKey = 0 := by
        apply List.countP_eq_zero.mpr
        intro v hv
        obtain ⟨c, hc, hid⟩ := h.known.2 v hv
        have hlt : v.2 < d.otpCodes.newKey := hid ▸ hnew c hc
        simp only [decide_eq_true_eq]
        exact ne_of_lt hlt
      exact ⟨le_trans (le_of_eq hnone) (Nat.zero_le 1), fun _ ↦ hnone⟩
  · have hkept : ∀ id, (∃ c ∈ d.otpCodes, c.id = id) →
        ∃ c ∈ (d.issue email codeHash startedAt expiresAt).otpCodes, c.id = id := by
      rintro id ⟨c, hc, rfl⟩
      exact ⟨_, mem_issue.mpr (.inl ⟨c, hc, rfl⟩), hretired.id c⟩
    exact ⟨fun id hid ↦ hkept id (h.known.1 id hid), fun v hv ↦ hkept v.2 (h.known.2 v hv)⟩
  · intro email' s
    rw [rows_issue, List.countP_append, hretired.countP _ (inHour_congr email' s)]
    by_cases hin : inHour email' s (newCode d email codeHash startedAt expiresAt) = true
    · -- the others of this hour were there to be counted
      obtain ⟨hemail, hs, ht⟩ := of_decide_eq_true hin
      have hemail' : email = email' := hemail
      have hs' : s < startedAt := hs
      have ht' : startedAt ≤ s + hour := ht
      have hothers : d.otpCodes.rows.countP (inHour email' s) ≤
          (recent d.otpCodes email startedAt).length := by
        show _ ≤ (d.otpCodes.rows.filter _).length
        rw [← List.countP_eq_length_filter]
        apply List.countP_mono_left
        intro c _ hc
        obtain ⟨hc₁, hc₂, hc₃⟩ := of_decide_eq_true hc
        apply decide_eq_true
        have hbefore : startedAt < c.createdAt + hour := by
          have hafter : s + hour < c.createdAt + hour := Nat.add_lt_add_right hc₂ hour
          exact lt_of_le_of_lt ht' hafter
        exact ⟨hc₁.trans hemail'.symm, hbefore⟩
      rw [List.countP_singleton, if_pos hin]
      omega
    · rw [List.countP_singleton, if_neg hin]
      exact h.perHour email' s

end Issue

/-! ### A guess -/

section Spend

variable {email : String}

/-- What a guess leaves of a code. -/
def spent (d : Data) (email : String) (c : OtpCode) : OtpCode :=
  if spendable d email c then { c with attempts := c.attempts + 1 } else c

theorem updates_spent : Updates (spent d email) := by
  have hcases : ∀ c, spent d email c = { c with attempts := c.attempts + 1 } ∨
      spent d email c = c := by
    intro c
    unfold spent
    by_cases h : spendable d email c = true
    · rw [if_pos h]
      exact .inl rfl
    · rw [if_neg h]
      exact .inr rfl
  constructor
  · intro c
    rcases hcases c with h | h
    · rw [h]
    · rw [h]
  · intro c
    rcases hcases c with h | h
    · rw [h]
    · rw [h]
  · intro c
    rcases hcases c with h | h
    · rw [h]
    · rw [h]
  · intro c hunused
    rcases hcases c with h | h
    · rw [h] at hunused
      exact hunused
    · rw [h] at hunused
      exact hunused

/-- The codes a guess is compared with. -/
def guessed (d : Data) (email : String) : List Uuid :=
  (d.otpCodes.select (spendable d email)).map OtpCode.id

theorem mem_guessed {c : OtpCode} (hc : c ∈ d.otpCodes) :
    c.id ∈ guessed d email ↔ spendable d email c = true := by
  unfold guessed
  rw [List.mem_map]
  constructor
  · intro h
    obtain ⟨c', hc', hid⟩ := h
    obtain ⟨hmem, hlive⟩ := Table.mem_select.mp hc'
    obtain rfl := Table.eq_of_key hmem hc hid
    exact hlive
  · intro h
    exact ⟨c, Table.mem_select.mpr ⟨hc, h⟩, rfl⟩

/-- A guess is compared with a code once, and takes an attempt from it. -/
theorem count_guessed {c : OtpCode} (hc : c ∈ d.otpCodes) :
    (guessed d email).count c.id + c.attempts = (spent d email c).attempts := by
  have hnodup : (guessed d email).Nodup := d.otpCodes.nodup.sublist (List.filter_sublist.map _)
  unfold spent
  by_cases hlive : spendable d email c = true
  · rw [if_pos hlive, List.count_eq_one_of_mem hnodup ((mem_guessed hc).mpr hlive)]
    exact Nat.add_comm 1 c.attempts
  · rw [if_neg hlive, List.count_eq_zero.mpr (mt (mem_guessed hc).mp hlive)]
    exact Nat.zero_add c.attempts

theorem attempts_spent {c : OtpCode} (h : c.attempts ≤ maxVerifyAttempts) :
    (spent d email c).attempts ≤ maxVerifyAttempts := by
  unfold spent
  by_cases hlive : spendable d email c = true
  · rw [if_pos hlive]
    exact (of_decide_eq_true hlive).2.2.2
  · rw [if_neg hlive]
    exact h

theorem ledger_spend (h : Ledger d)
    (hrows : d'.otpCodes.rows = d.otpCodes.rows.map (spent d email))
    (hcompared : d'.compared = d.compared ++ guessed d email) (hverdicts : d'.verdicts = d.verdicts) :
    Ledger d' := by
  have hspent : Updates (spent d email) := updates_spent
  have hmem : ∀ c ∈ d'.otpCodes, ∃ c₀ ∈ d.otpCodes, spent d email c₀ = c := by
    intro c hc
    rw [Table.mem_def, hrows] at hc
    exact List.mem_map.mp hc
  constructor
  · exact hspent.newest h hrows
  · intro c hc
    obtain ⟨c₀, hc₀, rfl⟩ := hmem c hc
    obtain ⟨hguesses, hmax⟩ := h.guesses c₀ hc₀
    refine ⟨?_, attempts_spent hmax⟩
    unfold timesCompared at hguesses ⊢
    rw [hcompared, List.count_append, hspent.id, ← count_guessed hc₀]
    omega
  · intro c hc
    obtain ⟨c₀, hc₀, rfl⟩ := hmem c hc
    obtain ⟨honce, hzero⟩ := h.once c₀ hc₀
    unfold timesTrue at honce hzero ⊢
    rw [hverdicts, hspent.id]
    exact ⟨honce, fun hunused ↦ hzero (hspent.usedAt c₀ hunused)⟩
  · constructor
    · intro id hid
      rw [hcompared] at hid
      apply exists_of_updated hspent hrows
      rcases List.mem_append.mp hid with hid | hid
      · exact h.known.1 id hid
      · obtain ⟨c, hc, hid⟩ := List.mem_map.mp hid
        exact ⟨c, (Table.mem_select.mp hc).1, hid⟩
    · intro v hv
      rw [hverdicts] at hv
      exact exists_of_updated hspent hrows (h.known.2 v hv)
  · intro email' s
    rw [hrows, hspent.countP _ (inHour_congr email' s)]
    exact h.perHour email' s

end Spend

/-! ### A code that is used -/

section Mark

variable {caller : ℕ} {id : Uuid}

/-- What becomes of a code when the one of this id is marked as used. -/
def marked (d : Data) (id : Uuid) (c : OtpCode) : OtpCode :=
  if c.id = id ∧ c.usedAt = none then { c with usedAt := some d.now } else c

theorem updates_marked : Updates (marked d id) := by
  have hcases : ∀ c, marked d id c = { c with usedAt := some d.now } ∨ marked d id c = c := by
    intro c
    unfold marked
    by_cases h : c.id = id ∧ c.usedAt = none
    · rw [if_pos h]
      exact .inl rfl
    · rw [if_neg h]
      exact .inr rfl
  constructor
  · intro c
    rcases hcases c with h | h
    · rw [h]
    · rw [h]
  · intro c
    rcases hcases c with h | h
    · rw [h]
    · rw [h]
  · intro c
    rcases hcases c with h | h
    · rw [h]
    · rw [h]
  · intro c hunused
    rcases hcases c with h | h
    · rw [h] at hunused
      cases hunused
    · rw [h] at hunused
      exact hunused

theorem attempts_marked (c : OtpCode) : (marked d id c).attempts = c.attempts := by
  unfold marked
  by_cases h : c.id = id ∧ c.usedAt = none
  · rw [if_pos h]
  · rw [if_neg h]

theorem ne_of_marked {c : OtpCode} (h : (marked d id c).usedAt = none) : c.id ≠ id := by
  have hunused := updates_marked.usedAt c h
  intro hid
  unfold marked at h
  rw [if_pos ⟨hid, hunused⟩] at h
  cases h

theorem ledger_mark (h : Ledger d)
    (hrows : d'.otpCodes.rows = d.otpCodes.rows.map (marked d id))
    (hcompared : d'.compared = d.compared) (hverdicts : d'.verdicts = d.verdicts ++ [(caller, id)])
    (hunused : ∃ c ∈ d.otpCodes, c.id = id ∧ c.usedAt = none) : Ledger d' := by
  have hmarked : Updates (marked d id) := updates_marked
  have hmem : ∀ c ∈ d'.otpCodes, ∃ c₀ ∈ d.otpCodes, marked d id c₀ = c := by
    intro c hc
    rw [Table.mem_def, hrows] at hc
    exact List.mem_map.mp hc
  obtain ⟨code, hcode, hid, hfirst⟩ := hunused
  constructor
  · exact hmarked.newest h hrows
  · intro c hc
    obtain ⟨c₀, hc₀, rfl⟩ := hmem c hc
    unfold timesCompared
    rw [hcompared, hmarked.id, attempts_marked]
    exact h.guesses c₀ hc₀
  · intro c hc
    obtain ⟨c₀, hc₀, rfl⟩ := hmem c hc
    obtain ⟨honce, hzero⟩ := h.once c₀ hc₀
    unfold timesTrue at honce hzero ⊢
    rw [hverdicts, List.countP_append, List.countP_singleton, hmarked.id]
    by_cases hsame : c₀.id = id
    · -- the first verdict on this code
      obtain rfl := Table.eq_of_key hc₀ hcode (hsame.trans hid.symm)
      rw [hzero hfirst]
      constructor
      · simp only [Nat.zero_add]
        split
        · exact le_rfl
        · exact Nat.zero_le 1
      · exact fun hno ↦ absurd hsame (ne_of_marked hno)
    · have hother : ¬ decide ((caller, id).2 = c₀.id) = true := by
        simp only [decide_eq_true_eq]
        exact fun h ↦ hsame h.symm
      rw [if_neg hother]
      exact ⟨honce, fun hno ↦ hzero (hmarked.usedAt c₀ hno)⟩
  · constructor
    · intro id' hid'
      rw [hcompared] at hid'
      exact exists_of_updated hmarked hrows (h.known.1 id' hid')
    · intro v hv
      rw [hverdicts] at hv
      apply exists_of_updated hmarked hrows
      rcases List.mem_append.mp hv with hv | hv
      · exact h.known.2 v hv
      · obtain rfl := List.mem_singleton.mp hv
        exact ⟨code, hcode, hid⟩
  · intro email s
    rw [hrows, hmarked.countP _ (inHour_congr email s)]
    exact h.perHour email s

end Mark

end Ledger

/-! ## How far a call has come -/

section Phases

variable [HashText]

/-- `holding` and `counted` are inside the transaction of `requestOtp`. -/
inductive Stage where
  | free
  | holding (email : String)
  | counted (email : String) (startedAt : Time)

structure Phase where
  caller : ℕ
  stage : Stage

def nextStage : Stage → (w : Write) → Reply w → Stage
  | .free, .lockEmail _ email, _ => .holding email
  | .holding email, .countRecent _ startedAt, n =>
      if maxRequestsPerHour ≤ n then .holding email else .counted email startedAt
  | .holding _, .rollback _ _, _ => .free
  | .counted _ _, .commit _ _ _ _ _, _ => .free
  | stage, _, _ => stage

def turn (t : Phase) (w : Write) (r : Reply w) : Phase :=
  { t with stage := nextStage t.stage w r }

/-- What a call may ask for. -/
inductive Legal : Phase → Write → Prop where
  | lock {k email} : Legal ⟨k, .free⟩ (.lockEmail k email)
  | count {k email startedAt} : Legal ⟨k, .holding email⟩ (.countRecent email startedAt)
  | rollback {k email} : Legal ⟨k, .holding email⟩ (.rollback k email)
  | commit {k email codeHash startedAt expiresAt} :
      Legal ⟨k, .counted email startedAt⟩ (.commit k email codeHash startedAt expiresAt)
  | spend {k email} : Legal ⟨k, .free⟩ (.spendAttempt email)
  | mark {k id} : Legal ⟨k, .free⟩ (.markOtpUsed k id)
  | elapse {k time} : Legal ⟨k, .free⟩ (.elapse time)

omit [HashText] in
theorem passes_run [Unicode] [Digest] (expiry : Expiry) (k : ℕ) (request : Request) :
    Passes turn Legal (fun _ t ↦ t = ⟨k, .free⟩) (fun _ t ↦ t = ⟨k, .free⟩) ⟨k, .free⟩
      (request.run expiry k) := by
  cases request with
  | requestOtp rawEmail plainCode =>
      show Passes _ _ _ _ _ (requestOtp expiry k rawEmail plainCode)
      unfold requestOtp
      dsimp only
      by_cases hempty : normalizeEmail rawEmail = ""
      · rw [if_pos hempty]
        exact passes_pure rfl
      · rw [if_neg hempty]
        apply passes_query_seq
        intro d
        apply passes_query_seq
        intro d'
        apply passes_issue_seq
        · exact .lock
        intro _
        apply passes_issue_seq
        · exact .count
        intro n
        dsimp only [turn, nextStage]
        by_cases hmany : maxRequestsPerHour ≤ n
        · rw [if_pos hmany, if_pos hmany]
          apply passes_issue_seq
          · exact .rollback
          · exact fun _ ↦ passes_fail rfl
        · rw [if_neg hmany, if_neg hmany]
          apply passes_issue_seq
          · exact .commit
          · exact fun _ ↦ passes_pure rfl
  | verifyOtpCode rawEmail code =>
      show Passes _ _ _ _ _ (verifyOtpCode k rawEmail code)
      unfold verifyOtpCode
      dsimp only
      cases code with
      | none => exact passes_pure rfl
      | some code =>
          dsimp only
          split
          · exact passes_pure rfl
          · apply passes_issue_seq
            · exact .spend
            intro live
            split
            · exact passes_pure rfl
            · apply passes_issue (w := Write.markOtpUsed k _)
              · exact .mark
              · exact fun _ ↦ rfl
  | elapse time =>
      apply passes_issue_seq
      · exact .elapse
      · exact fun _ ↦ passes_pure rfl

/-! ## What holds of the calls together -/

/-- The email a call has the lock of. -/
def Stage.email : Stage → Option String
  | .free => none
  | .holding email | .counted email _ => some email

structure Sound (d : Data) (phase : ℕ → Phase) : Prop where
  callers : ∀ k, (phase k).caller = k
  locked : ∀ k email, (phase k).stage.email = some email → d.locks (lockKey email) = some k
  counted : ∀ k email startedAt, (phase k).stage = .counted email startedAt →
    (recent d.otpCodes email startedAt).length < maxRequestsPerHour
  ledger : Ledger d

variable {d d' : Data} {phase : ℕ → Phase} {k : ℕ} {s s' : Stage}

/-- What a statement of one call leaves to the others. -/
structure Leaves (k : ℕ) (d d' : Data) : Prop where
  locks : ∀ j key, j ≠ k → d.locks key = some j → d'.locks key = some j
  recent : ∀ email startedAt, d.locks (lockKey email) ≠ some k →
    (recent d'.otpCodes email startedAt).length = (recent d.otpCodes email startedAt).length

theorem Sound.update (h : Sound d phase) (hd : Leaves k d d') (hledger : Ledger d')
    (hlocked : ∀ email, s.email = some email → d'.locks (lockKey email) = some k)
    (hcounted : ∀ email startedAt, s = .counted email startedAt →
      (recent d'.otpCodes email startedAt).length < maxRequestsPerHour) :
    Sound d' (Function.update phase k ⟨k, s⟩) := by
  constructor
  · intro j
    by_cases hj : j = k
    · subst hj
      rw [Function.update_self]
    · rw [Function.update_of_ne hj]
      exact h.callers j
  · intro j email
    by_cases hj : j = k
    · subst hj
      rw [Function.update_self]
      exact hlocked email
    · rw [Function.update_of_ne hj]
      exact fun hemail ↦ hd.locks j _ hj (h.locked j email hemail)
  · intro j email startedAt
    by_cases hj : j = k
    · subst hj
      rw [Function.update_self]
      exact hcounted email startedAt
    · rw [Function.update_of_ne hj]
      intro hstage
      have hlock : d.locks (lockKey email) = some j := by
        apply h.locked j email
        rw [hstage]
        rfl
      have hother : d.locks (lockKey email) ≠ some k := by
        rw [hlock]
        exact fun hno ↦ hj (Option.some.inj hno)
      rw [hd.recent email startedAt hother]
      exact h.counted j email startedAt hstage
  · exact hledger

theorem leaves_same (hlocks : d'.locks = d.locks) (hcodes : d'.otpCodes = d.otpCodes) :
    Leaves k d d' where
  locks j key _ hlock := by rw [hlocks, hlock]
  recent email startedAt _ := by rw [hcodes]

omit [HashText] in
theorem recent_length (codes : Table OtpCode.id) (email : String) (startedAt : Time) :
    (recent codes email startedAt).length =
      codes.rows.countP fun c ↦ c.email = email ∧ startedAt < c.createdAt + hour := by
  rw [List.countP_eq_length_filter]
  rfl

theorem Updates.leaves {f : OtpCode → OtpCode} (hf : Updates f) (hlocks : d'.locks = d.locks)
    (hrows : d'.otpCodes.rows = d.otpCodes.rows.map f) : Leaves k d d' where
  locks j key _ hlock := by rw [hlocks, hlock]
  recent email startedAt _ := by
    rw [recent_length, recent_length, hrows, hf.countP]
    intro c c' hemail hcreated
    rw [hemail, hcreated]

theorem leaves_locked {key : ℤ} (hfree : d.locks key = none ∨ d.locks key = some k) :
    Leaves k d { d with locks := Function.update d.locks key (some k) } where
  locks j key' hj hlock := by
    have hkey : key' ≠ key := by
      rintro rfl
      rcases hfree with hnone | hown
      · rw [hnone] at hlock
        cases hlock
      · rw [hown] at hlock
        exact hj (Option.some.inj hlock).symm
    show Function.update d.locks key (some k) key' = some j
    rw [Function.update_of_ne hkey]
    exact hlock
  recent _ _ _ := rfl

theorem unlock_of_ne {email : String} {j : ℕ} {key : ℤ} (hj : j ≠ k) (hlock : d.locks key = some j) :
    (d.unlock k email).locks key = some j := by
  have hnot : ¬ (key = lockKey email ∧ d.locks key = some k) := by
    intro h
    rw [hlock] at h
    exact hj (Option.some.inj h.2)
  show (if key = lockKey email ∧ d.locks key = some k then none else d.locks key) = some j
  rw [if_neg hnot]
  exact hlock

theorem leaves_unlocked {email : String} : Leaves k d (d.unlock k email) where
  locks _ _ hj hlock := unlock_of_ne hj hlock
  recent _ _ _ := rfl

/-- Nobody else has counted the codes of this email. -/
theorem leaves_issued {email codeHash : String} {startedAt expiresAt : Time}
    (hlock : d.locks (lockKey email) = some k) :
    Leaves k d ((d.issue email codeHash startedAt expiresAt).unlock k email) where
  locks _ _ hj hlock' := unlock_of_ne hj hlock'
  recent email' startedAt' hother := by
    have hemail : email ≠ email' := by
      rintro rfl
      exact hother hlock
    have hnew : ¬ (fun c : OtpCode ↦ decide (c.email = email' ∧ startedAt' < c.createdAt + hour))
        (newCode d email codeHash startedAt expiresAt) = true := by
      intro hno
      exact hemail (of_decide_eq_true hno).1
    show (recent (d.issue email codeHash startedAt expiresAt).otpCodes _ _).length = _
    rw [recent_length, recent_length, rows_issue, List.countP_append, List.countP_singleton,
      if_neg hnew, updates_retired.countP]
    · rfl
    · intro c c' hsame hcreated
      rw [hsame, hcreated]

/-- Every statement that has not to wait keeps the invariant. -/
theorem Sound.perform (h : Sound d phase) {w : Write} (hlegal : Legal (phase k) w)
    (hwaits : waits d w = false) :
    Service.wp (perform w) (fun r d' ↦ Sound d' (Function.update phase k (turn (phase k) w r)))
      (fun _ _ ↦ False) d := by
  have hcaller := h.callers k
  obtain ⟨t, ht⟩ : ∃ t, phase k = t := ⟨_, rfl⟩
  have hsame : Leaves k d d := leaves_same rfl rfl
  rw [ht] at hlegal hcaller ⊢
  cases hlegal with
  | @lock j email =>
      obtain rfl := hcaller
      apply (Service.wp_write _).mpr
      have hfree : d.locks (lockKey email) = none ∨ d.locks (lockKey email) = some j := by
        by_contra hno
        have hheld : waits d (.lockEmail j email) = true := decide_eq_true (not_or.mp hno)
        rw [hwaits] at hheld
        cases hheld
      apply h.update (leaves_locked hfree)
      · exact ledger_of_same h.ledger rfl rfl rfl
      · intro email' hemail
        obtain rfl := Option.some.inj hemail
        exact Function.update_self _ _ _
      · exact nofun
  | @count j email startedAt =>
      obtain rfl := hcaller
      apply (Service.wp_query _).mpr
      have hlocked : ∀ email', some email = some email' → d.locks (lockKey email') = some j := by
        intro email' hemail
        obtain rfl := Option.some.inj hemail
        apply h.locked j
        rw [ht]
        rfl
      by_cases hmany : maxRequestsPerHour ≤ (recent d.otpCodes email startedAt).length
      · have hturn : turn ⟨j, .holding email⟩ (.countRecent email startedAt)
            (recent d.otpCodes email startedAt).length = ⟨j, .holding email⟩ := by
          simp only [turn, nextStage, if_pos hmany]
        rw [hturn]
        exact h.update (s := .holding email) hsame h.ledger hlocked nofun
      · have hturn : turn ⟨j, .holding email⟩ (.countRecent email startedAt)
            (recent d.otpCodes email startedAt).length = ⟨j, .counted email startedAt⟩ := by
          simp only [turn, nextStage, if_neg hmany]
        rw [hturn]
        apply h.update (s := .counted email startedAt) hsame h.ledger hlocked
        intro email' startedAt' hstage
        cases hstage
        exact not_le.mp hmany
  | rollback =>
      obtain rfl := hcaller
      apply (Service.wp_write _).mpr
      apply h.update leaves_unlocked
      · exact ledger_of_same h.ledger rfl rfl rfl
      · exact nofun
      · exact nofun
  | @commit j email codeHash startedAt expiresAt =>
      obtain rfl := hcaller
      apply (Service.wp_write _).mpr
      apply h.update
      · apply leaves_issued
        apply h.locked j
        rw [ht]
        rfl
      · have hissued : Ledger (d.issue email codeHash startedAt expiresAt) :=
          ledger_issue h.ledger (h.counted j email startedAt (by rw [ht]))
        exact ledger_of_same hissued rfl rfl rfl
      · exact nofun
      · exact nofun
  | @spend j email =>
      obtain rfl := hcaller
      unfold Service.wp
      apply h.update
      · exact updates_spent.leaves rfl rfl
      · have hrows : d.otpCodes.rows.map (fun c ↦
            if spendable d email c then { c with attempts := c.attempts + 1 } else c) =
              d.otpCodes.rows.map (spent d email) := rfl
        apply ledger_spend h.ledger hrows
        · show d.compared ++ ((d.otpCodes.select _).map _).map OtpCode.id = _
          rw [List.map_map]
          rfl
        · rfl
      · exact nofun
      · exact nofun
  | @mark j id =>
      obtain rfl := hcaller
      unfold Service.wp Otp.perform
      dsimp only
      by_cases hunused : ((d.otpCodes.find id).any fun c ↦ c.usedAt = none) = true
      · rw [if_pos hunused]
        obtain ⟨c, hfind, hnone⟩ := (Option.any_eq_true _ _).mp hunused
        obtain ⟨hc, hid⟩ := Table.find_eq_some.mp hfind
        have hrows : d.otpCodes.rows.map (fun c ↦
            if (decide (c.id = id ∧ c.usedAt = none)) then { c with usedAt := some d.now } else c) =
              d.otpCodes.rows.map (marked d id) := by
          apply List.map_congr_left
          intro c _
          unfold marked
          simp only [decide_eq_true_eq]
        apply h.update
        · exact updates_marked.leaves rfl hrows
        · exact ledger_mark h.ledger hrows rfl rfl ⟨c, hc, hid, of_decide_eq_true hnone⟩
        · exact nofun
        · exact nofun
      · rw [if_neg hunused]
        exact h.update hsame h.ledger nofun nofun
  | elapse =>
      obtain rfl := hcaller
      apply (Service.wp_write _).mpr
      apply h.update
      · exact leaves_same rfl rfl
      · exact ledger_of_same h.ledger rfl rfl rfl
      · exact nofun
      · exact nofun

end Phases

/-! ## Runs -/

/-- What bounds a blind attacker. -/
structure GuessBudget (d : Data) : Prop where
  oneLive : ∀ email, (d.otpCodes.select fun c ↦ c.email = email ∧ c.usedAt = none).length ≤ 1
  fewGuesses : ∀ id, timesCompared d id ≤ maxVerifyAttempts
  usedOnce : ∀ id, timesTrue d id ≤ 1
  perHour : ∀ email s, d.otpCodes.rows.countP (inHour email s) ≤ maxRequestsPerHour

/-- A verdict is on a code after which none of its email has been committed. -/
def JudgesNewest (d d' : Data) : Prop :=
  ∀ v ∈ d'.verdicts, v ∈ d.verdicts ∨ ∃ code ∈ d.otpCodes, code.id = v.2 ∧
    ∀ other ∈ d.otpCodes, other.email = code.email → other.id ≤ code.id

theorem Ledger.guessBudget {d : Data} (h : Ledger d) : GuessBudget d where
  oneLive email := by
    have hnodup : (d.otpCodes.select fun c ↦ c.email = email ∧ c.usedAt = none).Nodup :=
      (d.otpCodes.nodup.of_map).filter _
    -- two of them would each be the newer one
    have hone : ∀ c ∈ d.otpCodes.select (fun c ↦ c.email = email ∧ c.usedAt = none),
        ∀ c' ∈ d.otpCodes.select (fun c ↦ c.email = email ∧ c.usedAt = none), c = c' := by
      intro c hc c' hc'
      obtain ⟨hmem, hlive⟩ := Table.mem_select.mp hc
      obtain ⟨hmem', hlive'⟩ := Table.mem_select.mp hc'
      obtain ⟨hemail, hunused⟩ := of_decide_eq_true hlive
      obtain ⟨hemail', hunused'⟩ := of_decide_eq_true hlive'
      apply Table.eq_of_key hmem hmem'
      apply le_antisymm
      · exact h.newest c' hmem' hunused' c hmem (hemail.trans hemail'.symm)
      · exact h.newest c hmem hunused c' hmem' (hemail'.trans hemail.symm)
    generalize d.otpCodes.select (fun c ↦ c.email = email ∧ c.usedAt = none) = live at hnodup hone
    match live with
    | [] => exact Nat.zero_le 1
    | [_] => exact le_rfl
    | a :: b :: live =>
        have hab := hone a List.mem_cons_self b (List.mem_cons_of_mem a List.mem_cons_self)
        subst hab
        exact absurd List.mem_cons_self (List.nodup_cons.mp hnodup).1
  fewGuesses id := by
    by_cases hid : id ∈ d.compared
    · obtain ⟨c, hc, rfl⟩ := h.known.1 id hid
      obtain ⟨hguesses, hmax⟩ := h.guesses c hc
      exact le_trans hguesses hmax
    · show d.compared.count id ≤ maxVerifyAttempts
      rw [List.count_eq_zero.mpr hid]
      exact Nat.zero_le _
  usedOnce id := by
    by_cases hid : ∃ c ∈ d.otpCodes, c.id = id
    · obtain ⟨c, hc, rfl⟩ := hid
      exact (h.once c hc).1
    · have hnone : timesTrue d id = 0 := by
        apply List.countP_eq_zero.mpr
        intro v hv hsame
        exact hid (of_decide_eq_true hsame ▸ h.known.2 v hv)
      rw [hnone]
      exact Nat.zero_le 1
  perHour := h.perHour

section Runs

variable [HashText] [Unicode] [Digest] {expiry : Expiry} {now : Time} {calls : ℕ → Option Request}

/-- The calls and the codes keep the invariant. -/
abbrev Guarded (c : Requests) : Prop :=
  Concluding turn Sound Legal (fun t ↦ t.stage = .free) c

theorem guarded_start : Guarded (start expiry now calls) := by
  refine ⟨fun k ↦ ⟨k, .free⟩, ?_, ?_⟩
  · constructor
    · exact fun _ ↦ rfl
    · exact nofun
    · exact nofun
    · constructor
      · exact nofun
      · exact nofun
      · exact nofun
      · exact ⟨nofun, nofun⟩
      · exact fun _ _ ↦ Nat.zero_le _
  · intro k
    have hpc : (start expiry now calls).pc k = (calls k).map (Request.run expiry k) := rfl
    rw [hpc]
    cases calls k with
    | none => rfl
    | some request =>
        apply (passes_run expiry k request).mono
        · rintro _ _ rfl
          rfl
        · rintro _ _ rfl
          rfl

omit [Unicode] [Digest] in
theorem judgesNewest_perform {d : Data} (h : Ledger d) (w : Write) :
    JudgesNewest d (Service.after (perform w) d) := by
  cases w with
  | markOtpUsed caller id =>
      intro v hv
      unfold Service.after perform at hv
      dsimp only at hv
      by_cases hunused : ((d.otpCodes.find id).any fun c ↦ c.usedAt = none) = true
      · rw [if_pos hunused] at hv
        obtain ⟨c, hfind, hnone⟩ := (Option.any_eq_true _ _).mp hunused
        obtain ⟨hc, hid⟩ := Table.find_eq_some.mp hfind
        rcases List.mem_append.mp hv with hv | hv
        · exact .inl hv
        · obtain rfl := List.mem_singleton.mp hv
          exact .inr ⟨c, hc, hid, h.newest c hc (of_decide_eq_true hnone)⟩
      · rw [if_neg hunused] at hv
        exact .inl hv
  | lockEmail | countRecent | commit | rollback | spendAttempt | elapse => exact fun v hv ↦ .inl hv

omit [Unicode] [Digest] in
theorem judgesNewest_step {c : Requests} (hc : Guarded c) (k : ℕ) :
    JudgesNewest c.shared (step c k).shared := by
  obtain ⟨phase, hsound, -⟩ := hc
  rcases proceed_cases perform waits c k with hsame | ⟨w, -, -, -, -, hafter⟩
  · show JudgesNewest c.shared (proceed perform waits c k).shared
    rw [hsame]
    exact fun v hv ↦ .inl hv
  · show JudgesNewest c.shared (proceed perform waits c k).shared
    rw [hafter]
    exact judgesNewest_perform hsound.ledger w

theorem guessBudget_always (expiry : Expiry) (now : Time) (calls : ℕ → Option Request)
    (ks : List ℕ) :
    Always step (fun c ↦ GuessBudget c.shared ∧ ∀ k, JudgesNewest c.shared (step c k).shared)
      (start expiry now calls) ks := by
  have hguarded : Always step Guarded (start expiry now calls) ks := by
    apply Concluding.always (P := fun _ _ _ ↦ True)
    · exact fun d phase k w hsound hlegal hwaits _ ↦ hsound.perform hlegal hwaits
    · exact guarded_start
    · exact (along_true _ ks).mono fun _ _ _ ↦ atProceed_true
  refine hguarded.mono fun c hc ↦ ⟨?_, judgesNewest_step hc⟩
  obtain ⟨phase, hsound, -⟩ := hc
  exact hsound.ledger.guessBudget

end Runs

end Tesbo.Otp
