import Tesbo.Reasoning.Calls
import Tesbo.Reasoning.Fresh
import Tesbo.Reasoning.Groups
import Tesbo.Text

/-!
# API tokens and their cap

A project has at most 25 active tokens.  The count is inside the insert, which sees the tokens that have
been committed when it starts.
-/

namespace Tesbo.ApiTokens

open Reasoning Proc

structure ApiToken where
  id : Uuid
  userId : Option Uuid
  projectId : Option Uuid
  name : String
  tokenHash : String
  scopes : String
  lastUsedAt : Option Time
  createdAt : Time
  expiresAt : Option Time
deriving DecidableEq, Repr

structure ApiTokenSummary where
  id : Uuid
  name : String
  scopes : List String
  tokenPrefix : String
  lastUsedAt : Option Time
  createdAt : Time
  expiresAt : Option Time
deriving DecidableEq, Repr

/-- The table, and the calls whose insert has started and is not committed, by project. -/
structure Data where
  apiTokens : Table ApiToken.id
  now : Time
  inFlight : Uuid → Finset ℕ

def tokenPrefix : String := "tsbo_"

def defaultTokenTtlDays : ℕ := 90

def maxTokenTtlDays : ℕ := 365

def maxActiveTokensPerProject : ℕ := 25

def maxTokenNameLength : ℕ := 128

/-- Times are in milliseconds. -/
def day : Time := 86400000

/-- `expires_at IS NULL OR expires_at > now()` -/
def ApiToken.active (now : Time) (t : ApiToken) : Bool := t.expiresAt.all (now < ·)

def Data.activeTokens (d : Data) (projectId : Uuid) : List ApiToken :=
  d.apiTokens.select fun t ↦ t.projectId = some projectId && t.active d.now

/-- The statements.  An insert is two of them: it starts, with what is committed then, and it commits. -/
inductive Write where
  | startInsert (caller : ℕ) (projectId : Uuid)
  | commitInsert (caller : ℕ) (userId : Option Uuid) (projectId : Uuid) (name tokenHash scopes : String)
      (ttlDays : ℕ) (startedAt : Time)
  | revoke (projectId tokenId : Uuid)
  | elapse (time : Time)

/-- When the insert has started, if there is room. -/
abbrev Reply : Write → Type
  | .startInsert _ _ => Option Time
  | .commitInsert _ _ _ _ _ _ _ _ => ApiToken
  | .revoke _ _ => Bool
  | .elapse _ => Unit

/-- The row an insert leaves. -/
def Data.newToken (d : Data) (userId : Option Uuid) (projectId : Uuid) (name tokenHash scopes : String)
    (ttlDays : ℕ) (startedAt : Time) : ApiToken :=
  ⟨d.apiTokens.newKey, userId, some projectId, name, tokenHash, scopes, none, startedAt,
    some (startedAt + ttlDays * day)⟩

def perform : (w : Write) → Service Failure Data (Reply w)
  | .startInsert caller projectId => fun d ↦
      if (d.activeTokens projectId).length < maxActiveTokensPerProject then
        (.ok (some d.now), { d with
          inFlight := Function.update d.inFlight projectId (insert caller (d.inFlight projectId)) })
      else (.ok none, d)
  | .commitInsert caller userId projectId name tokenHash scopes ttlDays startedAt => fun d ↦
      let token := d.newToken userId projectId name tokenHash scopes ttlDays startedAt
      (.ok token, { d with
        apiTokens := d.apiTokens.push token rfl
        inFlight := Function.update d.inFlight projectId ((d.inFlight projectId).erase caller) })
  | .revoke projectId tokenId => fun d ↦
      let gone : ApiToken → Bool := fun t ↦ t.id = tokenId && t.projectId = some projectId
      (.ok (d.apiTokens.select gone ≠ []),
        { d with apiTokens := d.apiTokens.deleteWhere gone })
  | .elapse time => Service.write fun d ↦ { d with now := d.now + time }

abbrev Procedure (α : Type) := Proc Data Reply Failure α

/-! ## The service -/

/-- What `String` makes of the scopes in a request: of each item of an array, or of the whole. -/
inductive ScopesInput where
  | items (scopes : List String)
  | text (scopes : String)

/-- The days in a request: none are asked for, or what `Number` makes of them (`none` is `NaN`). -/
inductive DaysInput where
  | default
  | number (days : Option ℚ)

def commaPieces (s : String) : List String := (s.toList.splitOn ',').map String.ofList

section Service

variable [Unicode] [Sha256]

def hashToken (rawToken : String) : String := Sha256.hex rawToken

def normalizeScopes (input : ScopesInput) : Except Failure (List String) :=
  let requested := match input with
    | .items scopes => scopes
    | .text scopes => commaPieces scopes
  let named := (requested.map fun s ↦ Unicode.toLowerCase (jsTrim s)).filter (· ≠ "")
  if named = [] then .ok ["read", "write"]
  else
    let unknown := named.filter fun s ↦ s ∉ ["read", "write"]
    let names := String.intercalate ", " unknown
    if unknown ≠ [] then
      .error (.badRequest s!"Unknown scope: {names}. Valid scopes are read and write.")
    else .ok named.eraseDups

def normalizeTtlDays : DaysInput → Except Failure ℕ
  | .default => .ok defaultTokenTtlDays
  | .number days =>
      match days with
      | some q =>
          if q.den = 1 ∧ 1 ≤ q ∧ q ≤ maxTokenTtlDays then .ok q.num.toNat
          else .error (.badRequest s!"expiresInDays must be a whole number from 1 to {maxTokenTtlDays}")
      | none =>
          .error (.badRequest s!"expiresInDays must be a whole number from 1 to {maxTokenTtlDays}")

def toSummary (row : ApiToken) : ApiTokenSummary where
  id := row.id
  name := row.name
  scopes := ((commaPieces row.scopes).map jsTrim).filter (· ≠ "")
  tokenPrefix := tokenPrefix ++ "…" ++ String.ofList (row.tokenHash.toList.reverse.take 6).reverse
  lastUsedAt := row.lastUsedAt
  createdAt := row.createdAt
  expiresAt := row.expiresAt

/-- `rawToken` is what `generateRawToken` gives. -/
def issueToken (caller : ℕ) (userId : Option Uuid) (projectId : Uuid) (name : String)
    (scopesInput : ScopesInput) (expiresInDays : DaysInput) (rawToken : String) :
    Procedure (ApiTokenSummary × String) := do
  require (jsLength name ≤ maxTokenNameLength)
    (.badRequest s!"name must be at most {maxTokenNameLength} characters")
  let scopes ← ofExcept (normalizeScopes scopesInput)
  let ttlDays ← ofExcept (normalizeTtlDays expiresInDays)
  let tokenHash := hashToken rawToken
  let started : Option Time ← issue (Write.startInsert caller projectId)
  match started with
  | none =>
      fail (.conflict
        s!"This project already has {maxActiveTokensPerProject} active API tokens. Revoke one before creating another.")
  | some startedAt => do
      let row : ApiToken ← issue (Write.commitInsert caller userId projectId name tokenHash
        (String.intercalate "," scopes) ttlDays startedAt)
      pure (toSummary row, rawToken)

def revokeToken (projectId tokenId : Uuid) : Procedure Bool := issue (Write.revoke projectId tokenId)

inductive Request where
  | issueToken (userId : Option Uuid) (projectId : Uuid) (name : String) (scopesInput : ScopesInput)
      (expiresInDays : DaysInput) (rawToken : String)
  | revokeToken (projectId tokenId : Uuid)
  | elapse (time : Time)

def Request.run (caller : ℕ) : Request → Procedure Unit
  | .issueToken userId projectId name scopesInput expiresInDays rawToken => do
      let _ ← ApiTokens.issueToken caller userId projectId name scopesInput expiresInDays rawToken
      pure ()
  | .revokeToken projectId tokenId => do
      let _ ← ApiTokens.revokeToken projectId tokenId
      pure ()
  | .elapse time => issue (Write.elapse time)

abbrev Requests := Config Data (Procedure Unit)

/-- The tokens there are, and the calls that will come. -/
def start (apiTokens : Table ApiToken.id) (now : Time) (calls : ℕ → Option Request) : Requests :=
  ⟨⟨apiTokens, now, fun _ ↦ ∅⟩, fun k ↦ (calls k).map (Request.run k)⟩

end Service

/-- Read committed: nobody waits for an insert. -/
def waits (_ : Data) (_ : Write) : Bool := false

def step (c : Requests) (k : ℕ) : Requests := proceed perform waits c k

/-! ## The cap -/

/-- The active tokens of a user, whatever their project. -/
def Data.held (d : Data) (userId : Uuid) : List ApiToken :=
  d.apiTokens.select fun t ↦ t.userId = some userId && t.active d.now

def WithinCap (d : Data) (projectId : Uuid) : Prop :=
  (d.activeTokens projectId).length ≤ maxActiveTokensPerProject

/-- An insert that finds room finds it also when the inserts that it does not see are counted. -/
def Room (_ : ℕ) (d : Data) : Write → Prop
  | .startInsert _ projectId =>
      (d.activeTokens projectId).length < maxActiveTokensPerProject →
        (d.activeTokens projectId).length + (d.inFlight projectId).card < maxActiveTokensPerProject
  | _ => True

/-! ### How far a call has come -/

inductive Stage where
  | free
  | started (projectId : Uuid)

structure Phase where
  caller : ℕ
  stage : Stage

def nextStage : Stage → (w : Write) → Reply w → Stage
  | .free, .startInsert _ projectId, some _ => .started projectId
  | .started _, .commitInsert _ _ _ _ _ _ _ _, _ => .free
  | stage, _, _ => stage

def turn (t : Phase) (w : Write) (r : Reply w) : Phase :=
  { t with stage := nextStage t.stage w r }

/-- What a call may ask for. -/
inductive Legal : Phase → Write → Prop where
  | start {k projectId} : Legal ⟨k, .free⟩ (.startInsert k projectId)
  | commit {k userId projectId name tokenHash scopes ttlDays startedAt} :
      Legal ⟨k, .started projectId⟩
        (.commitInsert k userId projectId name tokenHash scopes ttlDays startedAt)
  | revoke {k projectId tokenId} : Legal ⟨k, .free⟩ (.revoke projectId tokenId)
  | elapse {k time} : Legal ⟨k, .free⟩ (.elapse time)

theorem passes_run [Unicode] [Sha256] (k : ℕ) (request : Request) :
    Passes turn Legal (fun _ t ↦ t = ⟨k, .free⟩) (fun _ t ↦ t = ⟨k, .free⟩) ⟨k, .free⟩
      (request.run k) := by
  cases request with
  | issueToken userId projectId name scopesInput expiresInDays rawToken =>
      apply passes_seq (P := fun _ t ↦ t = ⟨k, .free⟩)
      · unfold issueToken
        apply passes_require_seq
        · exact fun _ ↦ rfl
        intro _
        apply passes_ofExcept_seq
        · exact fun _ _ ↦ rfl
        intro scopes _
        apply passes_ofExcept_seq
        · exact fun _ _ ↦ rfl
        intro ttlDays _
        apply passes_issue_seq
        · exact .start
        intro started
        cases started with
        | none => exact passes_fail rfl
        | some startedAt =>
            apply passes_issue_seq
            · exact .commit
            · exact fun _ ↦ passes_pure rfl
      · rintro _ _ rfl
        exact passes_pure rfl
  | revokeToken projectId tokenId =>
      apply passes_issue_seq
      · exact .revoke
      · exact fun _ ↦ passes_pure rfl
  | elapse time =>
      apply passes_issue (w := Write.elapse time)
      · exact .elapse
      · exact fun _ ↦ rfl

/-! ### What holds of the calls together -/

structure Sound (projectId : Uuid) (d : Data) (phase : ℕ → Phase) : Prop where
  callers : ∀ k, (phase k).caller = k
  inFlight : ∀ k p, k ∈ d.inFlight p ↔ (phase k).stage = .started p
  cap : (d.activeTokens projectId).length + (d.inFlight projectId).card ≤ maxActiveTokensPerProject

section Sound

variable {projectId : Uuid} {d d' : Data} {phase : ℕ → Phase} {k : ℕ} {s : Stage}

theorem Sound.update (h : Sound projectId d phase)
    (hinFlight : ∀ p, (∀ j, j ≠ k → (j ∈ d'.inFlight p ↔ j ∈ d.inFlight p)) ∧
      (k ∈ d'.inFlight p ↔ s = .started p))
    (hcap : (d'.activeTokens projectId).length + (d'.inFlight projectId).card ≤
      maxActiveTokensPerProject) : Sound projectId d' (Function.update phase k ⟨k, s⟩) := by
  refine ⟨?_, ?_, hcap⟩
  · intro j
    by_cases hj : j = k
    · subst hj
      rw [Function.update_self]
    · rw [Function.update_of_ne hj]
      exact h.callers j
  · intro j p
    by_cases hj : j = k
    · subst hj
      rw [Function.update_self]
      exact (hinFlight p).2
    · rw [Function.update_of_ne hj, (hinFlight p).1 j hj]
      exact h.inFlight j p

/-- A statement that leaves no more active tokens. -/
theorem Sound.fewer (h : Sound projectId d phase) (hk : phase k = ⟨k, s⟩)
    (hinFlight : d'.inFlight = d.inFlight)
    (hfewer : (d'.activeTokens projectId).length ≤ (d.activeTokens projectId).length) :
    Sound projectId d' (Function.update phase k ⟨k, s⟩) := by
  apply h.update
  · intro p
    rw [hinFlight]
    refine ⟨fun _ _ ↦ Iff.rfl, ?_⟩
    rw [h.inFlight k p, hk]
  · rw [hinFlight]
    exact le_trans (Nat.add_le_add_right hfewer _) h.cap

theorem Sound.start (h : Sound projectId d phase) (hk : phase k = ⟨k, .free⟩) {p : Uuid}
    (hroom : (d.activeTokens p).length + (d.inFlight p).card < maxActiveTokensPerProject) :
    Sound projectId { d with inFlight := Function.update d.inFlight p (insert k (d.inFlight p)) }
      (Function.update phase k ⟨k, .started p⟩) := by
  have hnot : ∀ p, k ∉ d.inFlight p := by
    intro p hno
    have hstage := (h.inFlight k p).mp hno
    rw [hk] at hstage
    cases hstage
  apply h.update
  · intro q
    refine ⟨fun j hj ↦ mem_insert_at_of_ne hj, ?_⟩
    rw [mem_insert_at]
    constructor
    · rintro (hno | ⟨-, rfl⟩)
      · exact absurd hno (hnot q)
      · rfl
    · intro hstage
      cases hstage
      exact .inr ⟨rfl, rfl⟩
  · rw [card_insert_at (hnot p)]
    show (d.activeTokens projectId).length + _ ≤ _
    have hcap := h.cap
    by_cases hp : projectId = p
    · subst hp
      rw [if_pos rfl]
      omega
    · rw [if_neg hp]
      omega

/-- The token that is committed is one of those in flight before. -/
theorem Sound.commit (h : Sound projectId d phase) {p : Uuid} (hk : phase k = ⟨k, .started p⟩)
    {token : ApiToken} (hkey : token.id = d.apiTokens.newKey) (hproject : token.projectId = some p) :
    Sound projectId { d with
      apiTokens := d.apiTokens.push token hkey
      inFlight := Function.update d.inFlight p ((d.inFlight p).erase k) }
      (Function.update phase k ⟨k, .free⟩) := by
  have hmem : k ∈ d.inFlight p := by
    rw [h.inFlight k p, hk]
  apply h.update
  · intro q
    refine ⟨fun j hj ↦ mem_erase_at_of_ne hj, ?_⟩
    rw [mem_erase_at, h.inFlight k q, hk]
    apply iff_of_false
    · rintro ⟨hsame, hno⟩
      cases hsame
      exact hno ⟨rfl, rfl⟩
    · exact nofun
  · have hcap := h.cap
    have hcard := card_erase_at hmem projectId
    have hlength : (({ d with apiTokens := d.apiTokens.push token hkey } : Data).activeTokens
        projectId).length ≤ (d.activeTokens projectId).length + if projectId = p then 1 else 0 := by
      unfold Data.activeTokens
      rw [Table.select_push, List.length_append]
      apply Nat.add_le_add_left
      by_cases hp : projectId = p
      · rw [if_pos hp]
        split
        · exact le_rfl
        · exact Nat.zero_le 1
      · have hother : ¬ (decide (token.projectId = some projectId) && token.active d.now) = true := by
          rw [hproject, Bool.and_eq_true, decide_eq_true_eq]
          exact fun hno ↦ hp (Option.some.inj hno.1).symm
        rw [if_neg hother]
        exact Nat.zero_le _
    show (({ d with apiTokens := d.apiTokens.push token hkey } : Data).activeTokens projectId).length +
      (Function.update d.inFlight p ((d.inFlight p).erase k) projectId).card ≤ _
    omega

theorem Sound.perform (h : Sound projectId d phase) {w : Write} (hlegal : Legal (phase k) w)
    (hroom : Room k d w) :
    Service.wp (perform w)
      (fun r d' ↦ Sound projectId d' (Function.update phase k (turn (phase k) w r)))
      (fun _ _ ↦ False) d := by
  have hcaller := h.callers k
  obtain ⟨t, ht⟩ : ∃ t, phase k = t := ⟨_, rfl⟩
  rw [ht] at hlegal hcaller ⊢
  cases hlegal with
  | @start j p =>
      obtain rfl := hcaller
      unfold Service.wp ApiTokens.perform
      dsimp only
      by_cases hfew : (d.activeTokens p).length < maxActiveTokensPerProject
      · rw [if_pos hfew]
        exact h.start ht (hroom hfew)
      · rw [if_neg hfew]
        exact h.fewer ht rfl le_rfl
  | commit =>
      obtain rfl := hcaller
      unfold Service.wp
      exact h.commit ht rfl rfl
  | revoke =>
      obtain rfl := hcaller
      unfold Service.wp
      apply h.fewer ht
      · rfl
      · exact (List.filter_sublist.filter _).length_le
  | @elapse j time =>
      obtain rfl := hcaller
      apply (Service.wp_write _).mpr
      apply h.fewer ht
      · rfl
      · -- with the time a token expires, and none becomes active
        show (d.apiTokens.rows.filter _).length ≤ (d.apiTokens.rows.filter _).length
        apply List.Sublist.length_le
        apply List.monotone_filter_right
        intro t hactive
        rw [Bool.and_eq_true] at hactive ⊢
        refine ⟨hactive.1, ?_⟩
        unfold ApiToken.active at hactive ⊢
        cases hexpires : t.expiresAt with
        | none => rfl
        | some expires =>
            rw [hexpires] at hactive
            have hlater : d.now + time < expires := of_decide_eq_true hactive.2
            exact decide_eq_true (lt_of_le_of_lt (Nat.le_add_right _ _) hlater)

end Sound

/-! ### Runs -/

section Runs

variable [Unicode] [Sha256]

end Runs

/-! ### A user of two projects -/

instance (k : ℕ) (d : Data) (w : Write) : Decidable (Room k d w) :=
  match w with
  | .startInsert _ projectId => inferInstanceAs (Decidable
      ((d.activeTokens projectId).length < maxActiveTokensPerProject →
        (d.activeTokens projectId).length + (d.inFlight projectId).card < maxActiveTokensPerProject))
  | .commitInsert _ _ _ _ _ _ _ _ | .revoke _ _ | .elapse _ => instDecidableTrue

instance (projectId : Uuid) : DecidablePred fun d ↦ WithinCap d projectId := fun _ ↦
  inferInstanceAs (Decidable (_ ≤ _))

/-- A digest that can be computed. -/
abbrev plainHash : Sha256 := ⟨id, Function.injective_id⟩

def tokenOf (projectId id : ℕ) : ApiToken :=
  ⟨id, some 1, some projectId, "ci", "", "read", none, 0, some day⟩

/-- The project has all the tokens it may have, and all are of one user. -/
def fullProject : Table ApiToken.id := ⟨(List.range 25).map (tokenOf 7), by decide⟩

/-- The user asks for a token of another project. -/
def otherProject : ℕ → Option Request
  | 0 => some (.issueToken (some 1) 8 "ci" (.text "read") .default "secret")
  | _ => none

end Tesbo.ApiTokens
