import Tesbo.Sessions

/-!
# A revoked session stays revoked

It does where no call fills the cache with a session that a call which has returned has revoked.  A call
that reads the row before the revocation and fills the cache after it does just that.
-/

namespace Tesbo.Sessions

open Reasoning Proc
open Otp (Digest)

/-! ## How far a call has come -/

/-- `running`, `found` and `valid` are of `resolveSession`, the last two with an answer; `deleted`,
`deletedAll` and `listed` are of a revocation that has not returned. -/
inductive Stage where
  | free
  | running (tokenHash : String)
  | found (tokenHash : String) (userId : Uuid)
  | valid
  | answered
  | deleted (tokenHash : String) (gone : List String)
  | deletedAll (userId : Uuid) (gone : List String)
  | listed (userId : Uuid) (gone members : List String)

structure Phase where
  caller : ℕ
  stage : Stage

def nextStage : Stage → (w : Write) → Reply w → Stage
  | .free, .start _ tokenHash, _ => .running tokenHash
  | .running _, .get _, some (some _) => .valid
  | .running tokenHash, .selectSession _, some row => .found tokenHash row.userId
  | .running _, .resolve _ _, _ | .found _ _, .resolve _ _, _ | .valid, .resolve _ _, _ => .answered
  | .free, .deleteSession tokenHash, gone => .deleted tokenHash gone
  | .deleted _ _, .del _ _, _ | .deleted _ _, .returned _, _ => .free
  | .free, .deleteAll userId, gone => .deletedAll userId gone
  | .deletedAll userId gone, .smembers _ _, members => .listed userId gone members
  | .deletedAll _ _, .returned _, _ | .listed _ _ _, .exec _ _ _ _, _ => .free
  | stage, _, _ => stage

def turn (t : Phase) (w : Write) (r : Reply w) : Phase :=
  { t with stage := nextStage t.stage w r }

/-- What a call may ask for. -/
inductive Legal (sessionCacheEnabled : Bool) : Phase → Write → Prop where
  | start {k h} : Legal sessionCacheEnabled ⟨k, .free⟩ (.start k h)
  | get {k h} : Legal sessionCacheEnabled ⟨k, .running h⟩ (.get h)
  | select {k h} : Legal sessionCacheEnabled ⟨k, .running h⟩ (.selectSession h)
  | fill {k h userId ttl} (henabled : sessionCacheEnabled = true) (httl : ttl ≤ positiveTtlSeconds) :
      Legal sessionCacheEnabled ⟨k, .found h userId⟩ (.setValid h userId ttl)
  | deny {k h} (henabled : sessionCacheEnabled = true) :
      Legal sessionCacheEnabled ⟨k, .running h⟩ (.setInvalid h)
  | resolve {k stage answer}
      (hanswer : ∀ userId, answer = some userId → stage = .valid ∨ ∃ h, stage = .found h userId)
      (hstage : stage = .valid ∨ (∃ h, stage = .running h) ∨ ∃ h u, stage = .found h u) :
      Legal sessionCacheEnabled ⟨k, stage⟩ (.resolve k answer)
  | insert {k row} : Legal sessionCacheEnabled ⟨k, .free⟩ (.insertSession row)
  | delete {k h} : Legal sessionCacheEnabled ⟨k, .free⟩ (.deleteSession h)
  | del {k h gone} : Legal sessionCacheEnabled ⟨k, .deleted h gone⟩ (.del h gone)
  | deleteAll {k userId} : Legal sessionCacheEnabled ⟨k, .free⟩ (.deleteAll userId)
  | smembers {k userId gone} :
      Legal sessionCacheEnabled ⟨k, .deletedAll userId gone⟩ (.smembers k userId)
  | exec {k userId gone members} :
      Legal sessionCacheEnabled ⟨k, .listed userId gone members⟩ (.exec k userId gone members)
  | returned {k h gone} (hdisabled : sessionCacheEnabled = false) :
      Legal sessionCacheEnabled ⟨k, .deleted h gone⟩ (.returned gone)
  | returnedAll {k userId gone} (hdisabled : sessionCacheEnabled = false) :
      Legal sessionCacheEnabled ⟨k, .deletedAll userId gone⟩ (.returned gone)
  | elapse {k time} : Legal sessionCacheEnabled ⟨k, .free⟩ (.elapse time)

section Passing

variable [Digest] {sessionCacheEnabled : Bool} {k : ℕ}

/-- The phase an answer is given in. -/
def Answers (k : ℕ) (h : String) (answer : Option Uuid) (t : Phase) : Prop :=
  match answer with
  | none => t = ⟨k, .running h⟩
  | some userId => t = ⟨k, .valid⟩ ∨ t = ⟨k, .found h userId⟩

/-- The phase after the cache has been asked. -/
def Looked (k : ℕ) (h : String) : Option (Option Uuid) → Phase → Prop
  | some answer, t => Answers k h answer t
  | none, t => t = ⟨k, .running h⟩

theorem passes_resolveSession (sessionToken : String) :
    Passes turn (Legal sessionCacheEnabled) (Answers k (Digest.hash sessionToken))
      (fun _ _ ↦ False) ⟨k, .running (Digest.hash sessionToken)⟩
      (resolveSession sessionCacheEnabled sessionToken) := by
  unfold resolveSession
  by_cases hempty : jsTrim sessionToken = ""
  · rw [if_pos hempty]
    exact passes_pure rfl
  rw [if_neg hempty]
  apply passes_seq (P := Looked k (Digest.hash sessionToken))
  · unfold get
    split
    · apply passes_issue (w := Write.get _)
      · exact .get
      · intro cached
        cases cached with
        | none => rfl
        | some answer =>
            cases answer with
            | none => rfl
            | some userId => exact .inl rfl
    · exact passes_pure rfl
  intro cached t ht
  cases cached with
  | some answer => exact passes_pure ht
  | none =>
      obtain rfl : t = _ := ht
      apply passes_issue_seq
      · exact .select
      intro row
      cases row with
      | none =>
          apply passes_seq (P := fun _ t ↦ t = ⟨k, .running (Digest.hash sessionToken)⟩)
          · unfold setInvalid
            split
            · rename_i henabled
              apply passes_issue (w := Write.setInvalid _)
              · exact .deny henabled
              · exact fun _ ↦ rfl
            · exact passes_pure rfl
          · rintro _ _ rfl
            exact passes_pure rfl
      | some row =>
          apply passes_seq (P := fun _ t ↦ t = ⟨k, .found (Digest.hash sessionToken) row.userId⟩)
          · unfold setValid
            split
            · rename_i henabled
              apply passes_query_seq
              intro d
              dsimp only
              split
              · exact passes_pure rfl
              · apply passes_issue (w := Write.setValid _ _ _)
                · exact .fill henabled (min_le_left _ _)
                · exact fun _ ↦ rfl
            · exact passes_pure rfl
          · rintro _ _ rfl
            exact passes_pure (.inr rfl)

theorem passes_run (request : Request) : Passes turn (Legal sessionCacheEnabled) (fun _ _ ↦ True)
    (fun _ _ ↦ True) ⟨k, .free⟩ (request.run sessionCacheEnabled k) := by
  cases request with
  | createSession userId token sessionDays =>
      apply passes_seq (P := fun _ _ ↦ True)
      · unfold createSession
        apply passes_query_seq
        intro d
        apply passes_issue_seq
        · exact .insert
        · exact fun _ ↦ passes_pure trivial
      · exact fun _ _ _ ↦ passes_pure trivial
  | resolveSession sessionToken =>
      apply passes_issue_seq
      · exact .start
      intro _
      apply passes_seq ((passes_resolveSession sessionToken).mono (fun _ _ h ↦ h) fun _ _ ↦ False.elim)
      intro answer t ht
      apply passes_issue (w := Write.resolve k answer)
      · cases answer with
        | none =>
            obtain rfl : t = _ := ht
            exact .resolve nofun (.inr (.inl ⟨_, rfl⟩))
        | some userId =>
            rcases ht with rfl | rfl
            · exact .resolve (fun _ _ ↦ .inl rfl) (.inl rfl)
            · apply Legal.resolve
              · intro userId' huser
                obtain rfl := Option.some.inj huser
                exact .inr ⟨_, rfl⟩
              · exact .inr (.inr ⟨_, _, rfl⟩)
      · exact fun _ ↦ trivial
  | invalidateSession sessionToken =>
      show Passes _ _ _ _ _ (invalidateSession sessionCacheEnabled sessionToken)
      unfold invalidateSession
      split
      · exact passes_pure trivial
      · apply passes_issue_seq
        · exact .delete
        intro gone
        unfold invalidateToken
        split
        · apply passes_issue (w := Write.del _ _)
          · exact .del
          · exact fun _ ↦ trivial
        · rename_i hdisabled
          apply passes_issue (w := Write.returned _)
          · exact .returned (Bool.eq_false_of_not_eq_true hdisabled)
          · exact fun _ ↦ trivial
  | invalidateAllSessions userId =>
      apply passes_issue_seq
      · exact .deleteAll
      intro gone
      unfold invalidateAllForUser
      split
      · apply passes_issue_seq
        · exact .smembers
        intro members
        apply passes_issue (w := Write.exec _ _ _ _)
        · exact .exec
        · exact fun _ ↦ trivial
      · rename_i hdisabled
        apply passes_issue (w := Write.returned _)
        · exact .returnedAll (Bool.eq_false_of_not_eq_true hdisabled)
        · exact fun _ ↦ trivial
  | elapse time =>
      apply passes_issue (w := Write.elapse time)
      · exact .elapse
      · exact fun _ ↦ trivial

end Passing

/-! ## What the sessions and the cache say of each other -/

/-- The cache says that the session is this user's. -/
def Data.Live (d : Data) (tokenHash : String) (userId : Uuid) : Prop :=
  ∃ expires, d.cache tokenHash = some ⟨some userId, expires⟩ ∧ d.now < expires

def Data.IssuedTo (d : Data) (tokenHash : String) (userId : Uuid) : Prop :=
  ∃ s ∈ d.issued, s.tokenHash = tokenHash ∧ s.userId = userId

/-- A session there was, of which the row has been deleted. -/
def Data.Ended (d : Data) (tokenHash : String) : Prop :=
  (∃ s ∈ d.issued, s.tokenHash = tokenHash) ∧ ∀ s ∈ d.sessions, s.tokenHash ≠ tokenHash

/-- The index of its user has the token, for as long as the entry is valid. -/
def Data.Indexed (d : Data) (tokenHash : String) (userId : Uuid) (expires : Time) : Prop :=
  ∃ members limit, d.index userId = some ⟨members, limit⟩ ∧ tokenHash ∈ members ∧
    expires ≤ limit

structure Store (sessionCacheEnabled : Bool) (d : Data) : Prop where
  rows : ∀ s ∈ d.sessions, s ∈ d.issued
  unique : ∀ s ∈ d.issued, ∀ s' ∈ d.issued, s.tokenHash = s'.tokenHash → s = s'
  ended : ∀ tokenHash ∈ d.revoked, d.Ended tokenHash ∧ ∀ userId, ¬ d.Live tokenHash userId
  indexed : ∀ tokenHash userId expires, d.cache tokenHash = some ⟨some userId, expires⟩ →
    d.now < expires → d.IssuedTo tokenHash userId ∧
      expires ≤ d.now + seconds positiveTtlSeconds ∧ d.Indexed tokenHash userId expires
  disabled : sessionCacheEnabled = false → ∀ tokenHash, d.cache tokenHash = none

/-- What a stage says of the session it is about. -/
def Stage.Fits (d : Data) (k : ℕ) : Stage → Prop
  | found tokenHash userId => d.IssuedTo tokenHash userId
  | deleted tokenHash gone => ∀ g ∈ gone, g = tokenHash ∧ d.Ended g
  | deletedAll userId gone => ∀ g ∈ gone, d.IssuedTo g userId ∧ d.Ended g
  | listed userId gone members => (∀ g ∈ gone, d.IssuedTo g userId ∧ d.Ended g) ∧
      ⟨k, userId, members⟩ ∈ d.listing ∧ ∀ tokenHash, d.Live tokenHash userId → tokenHash ∈ members
  | _ => True

/-- What holds of one call. -/
structure Own (d : Data) (t : Phase) : Prop where
  fits : t.stage.Fits d t.caller
  late : t.caller ∈ d.late → t.stage = .answered ∨ ∃ h ∈ d.revoked, t.stage = .running h
  answered : ∀ answer, (t.caller, answer) ∈ d.resolved → t.stage = .answered

/-- A call that starts after its session has been revoked does not find it valid. -/
def StaysRevoked (d : Data) : Prop :=
  ∀ call ∈ d.resolved, call.1 ∈ d.late → call.2 = none

instance : DecidablePred StaysRevoked := fun d ↦
  inferInstanceAs (Decidable (∀ call ∈ d.resolved, call.1 ∈ d.late → call.2 = none))

structure Sound (sessionCacheEnabled : Bool) (d : Data) (phase : ℕ → Phase) : Prop where
  callers : ∀ k, (phase k).caller = k
  own : ∀ k, Own d (phase k)
  store : Store sessionCacheEnabled d
  staysRevoked : StaysRevoked d

section Sound

variable {sessionCacheEnabled : Bool} {d d' : Data} {phase : ℕ → Phase} {k : ℕ} {s : Stage}
  {t : Phase}

/-- What a statement of one call leaves to the others. -/
structure Leaves (k : ℕ) (d d' : Data) : Prop where
  issued : ∀ s ∈ d.issued, s ∈ d'.issued
  ended : ∀ h, d.Ended h → d'.Ended h
  revoked : ∀ h ∈ d.revoked, h ∈ d'.revoked
  late : ∀ j, j ≠ k → j ∈ d'.late → j ∈ d.late
  resolved : ∀ j answer, j ≠ k → (j, answer) ∈ d'.resolved → (j, answer) ∈ d.resolved
  listing : ∀ l ∈ d.listing, l.caller ≠ k → l ∈ d'.listing
  live : ∀ l ∈ d.listing, l.caller ≠ k → ∀ h, d'.Live h l.userId → d.Live h l.userId ∨ h ∈ l.members

theorem Leaves.issuedTo (hd : Leaves k d d') {h : String} {userId : Uuid}
    (hissued : d.IssuedTo h userId) : d'.IssuedTo h userId := by
  obtain ⟨s, hs, hsame⟩ := hissued
  exact ⟨s, hd.issued s hs, hsame⟩

theorem Own.left (h : Own d t) (hd : Leaves k d d') (ht : t.caller ≠ k) : Own d' t where
  fits := by
    have hfits := h.fits
    obtain ⟨j, stage⟩ := t
    cases stage with
    | found tokenHash userId => exact hd.issuedTo hfits
    | deleted tokenHash gone => exact fun g hg ↦ ⟨(hfits g hg).1, hd.ended g (hfits g hg).2⟩
    | deletedAll userId gone =>
        exact fun g hg ↦ ⟨hd.issuedTo (hfits g hg).1, hd.ended g (hfits g hg).2⟩
    | listed userId gone members =>
        obtain ⟨hgone, hlisting, hmembers⟩ := hfits
        refine ⟨?_, hd.listing _ hlisting ht, ?_⟩
        · exact fun g hg ↦ ⟨hd.issuedTo (hgone g hg).1, hd.ended g (hgone g hg).2⟩
        · intro tokenHash hlive
          rcases hd.live _ hlisting ht tokenHash hlive with hbefore | hmember
          · exact hmembers tokenHash hbefore
          · exact hmember
    | free | running | valid | answered => trivial
  late hlate := by
    rcases h.late (hd.late _ ht hlate) with hanswered | ⟨tokenHash, hrevoked, hrunning⟩
    · exact .inl hanswered
    · exact .inr ⟨tokenHash, hd.revoked _ hrevoked, hrunning⟩
  answered answer hresolved := h.answered answer (hd.resolved _ answer ht hresolved)

theorem Sound.update (h : Sound sessionCacheEnabled d phase) (hd : Leaves k d d')
    (hown : Own d' ⟨k, s⟩) (hstore : Store sessionCacheEnabled d') (hstays : StaysRevoked d') :
    Sound sessionCacheEnabled d' (Function.update phase k ⟨k, s⟩) := by
  constructor
  · intro j
    by_cases hj : j = k
    · subst hj
      rw [Function.update_self]
    · rw [Function.update_of_ne hj]
      exact h.callers j
  · intro j
    by_cases hj : j = k
    · subst hj
      rw [Function.update_self]
      exact hown
    · rw [Function.update_of_ne hj]
      apply (h.own j).left hd
      rw [h.callers j]
      exact hj
  · exact hstore
  · exact hstays

/-! ### A statement that adds nothing to the cache -/

/-- Nothing is added to the sessions, nor to the cache. -/
structure Shrinks (d d' : Data) : Prop where
  issued : d'.issued = d.issued
  rows : ∀ s ∈ d'.sessions, s ∈ d.sessions
  cache : ∀ h userId expires, d'.cache h = some ⟨some userId, expires⟩ →
    d.cache h = some ⟨some userId, expires⟩
  now : d.now ≤ d'.now

theorem Shrinks.live (hd : Shrinks d d') {h : String} {userId : Uuid} (hlive : d'.Live h userId) :
    d.Live h userId := by
  obtain ⟨expires, hcache, hexpires⟩ := hlive
  exact ⟨expires, hd.cache h userId expires hcache, lt_of_le_of_lt hd.now hexpires⟩

theorem Shrinks.ended (hd : Shrinks d d') {h : String} (hended : d.Ended h) : d'.Ended h := by
  refine ⟨?_, fun s hs ↦ hended.2 s (hd.rows s hs)⟩
  rw [hd.issued]
  exact hended.1

theorem Shrinks.leaves (hd : Shrinks d d') (hrevoked : ∀ h ∈ d.revoked, h ∈ d'.revoked)
    (hlate : ∀ j, j ≠ k → j ∈ d'.late → j ∈ d.late)
    (hresolved : ∀ j answer, j ≠ k → (j, answer) ∈ d'.resolved → (j, answer) ∈ d.resolved)
    (hlisting : ∀ l ∈ d.listing, l.caller ≠ k → l ∈ d'.listing) : Leaves k d d' where
  issued _ hs := hd.issued ▸ hs
  ended _ := hd.ended
  revoked := hrevoked
  late := hlate
  resolved := hresolved
  listing := hlisting
  live _ _ _ _ hlive := .inl (hd.live hlive)

theorem Shrinks.store (hd : Shrinks d d') (h : Store sessionCacheEnabled d)
    (hindex : ∀ tokenHash userId expires, d'.cache tokenHash = some ⟨some userId, expires⟩ →
      d.Indexed tokenHash userId expires → d'.Indexed tokenHash userId expires)
    (hrevoked : ∀ g ∈ d'.revoked,
      g ∈ d.revoked ∨ (d'.Ended g ∧ ∀ userId, ¬ d'.Live g userId))
    (hdisabled : sessionCacheEnabled = false → ∀ tokenHash, d'.cache tokenHash = none) :
    Store sessionCacheEnabled d' where
  rows s hs := hd.issued ▸ h.rows s (hd.rows s hs)
  unique := by
    rw [hd.issued]
    exact h.unique
  ended g hg := by
    rcases hrevoked g hg with hg | hg
    · obtain ⟨hended, hlive⟩ := h.ended g hg
      exact ⟨hd.ended hended, fun userId hno ↦ hlive userId (hd.live hno)⟩
    · exact hg
  indexed tokenHash userId expires hcache hexpires := by
    obtain ⟨⟨s, hs, hsame⟩, httl, hindexed⟩ := h.indexed tokenHash userId expires
      (hd.cache _ _ _ hcache) (lt_of_le_of_lt hd.now hexpires)
    refine ⟨⟨s, hd.issued ▸ hs, hsame⟩, ?_, hindex _ _ _ hcache hindexed⟩
    exact le_trans httl (Nat.add_le_add_right hd.now _)
  disabled := hdisabled

/-! ### One statement -/

/-- A call that goes on without an answer. -/
theorem Own.goOn {s' : Stage} (h : Own d ⟨k, s⟩) (hlate : d'.late = d.late)
    (hrevoked : ∀ g ∈ d.revoked, g ∈ d'.revoked) (hresolved : d'.resolved = d.resolved)
    (hs : s ≠ .answered) (hrunning : ∀ tokenHash, s = .running tokenHash →
      s' = .running tokenHash ∨ tokenHash ∉ d.revoked) (hfits : s'.Fits d' k) :
    Own d' ⟨k, s'⟩ where
  fits := hfits
  late hmem := by
    rw [hlate] at hmem
    rcases h.late hmem with hanswered | ⟨tokenHash, hgone, hstage⟩
    · exact absurd hanswered hs
    · rcases hrunning tokenHash hstage with hsame | hno
      · exact .inr ⟨tokenHash, hrevoked _ hgone, hsame⟩
      · exact absurd hgone hno
  answered answer hmem := by
    rw [hresolved] at hmem
    exact absurd (h.answered answer hmem) hs

theorem shrinks_same (hissued : d'.issued = d.issued) (hrows : d'.sessions = d.sessions)
    (hcache : d'.cache = d.cache) (hnow : d'.now = d.now) : Shrinks d d' where
  issued := hissued
  rows _ hs := hrows ▸ hs
  cache _ _ _ h := hcache ▸ h
  now := le_of_eq hnow.symm

theorem mem_tokens {p : Session → Bool} {g : String} (hg : g ∈ d.tokens p) :
    ∃ s ∈ d.issued, p s = true ∧ s.tokenHash = g := by
  obtain ⟨s, hs, htoken⟩ := List.mem_map.mp hg
  obtain ⟨hissued, hp⟩ := List.mem_filter.mp hs
  exact ⟨s, hissued, hp, htoken⟩

theorem indexed_same (hindex : d'.index = d.index) {tokenHash : String} {userId : Uuid}
    {expires : Time} (h : d.Indexed tokenHash userId expires) :
    d'.Indexed tokenHash userId expires := by
  unfold Data.Indexed
  rw [hindex]
  exact h

/-- A key of the cache is cleared, or says that there is no session. -/
theorem shrinks_key {tokenHash : String} {entry : Option (Cached (Option Uuid))}
    (hentry : ∀ userId expires, entry ≠ some ⟨some userId, expires⟩) (hissued : d'.issued = d.issued)
    (hrows : d'.sessions = d.sessions) (hcache : d'.cache = Function.update d.cache tokenHash entry)
    (hnow : d'.now = d.now) : Shrinks d d' where
  issued := hissued
  rows _ hs := hrows ▸ hs
  cache h userId expires hh := by
    rw [hcache] at hh
    by_cases hsame : h = tokenHash
    · subst hsame
      rw [Function.update_self] at hh
      exact absurd hh (hentry userId expires)
    · rw [Function.update_of_ne hsame] at hh
      exact hh
  now := le_of_eq hnow.symm

/-- The rows a condition selects are deleted. -/
theorem shrinks_delete (p : Session → Bool) :
    Shrinks d { d with sessions := d.sessions.deleteWhere p } where
  issued := rfl
  rows _ hs := (Table.mem_deleteWhere.mp hs).1
  cache _ _ _ h := h
  now := le_rfl

theorem ended_delete {p : Session → Bool} (hstore : Store sessionCacheEnabled d) {g : Session}
    (hg : g ∈ d.issued) (hp : p g = true) :
    ({ d with sessions := d.sessions.deleteWhere p } : Data).Ended g.tokenHash := by
  refine ⟨⟨g, hg, rfl⟩, fun s hs hsame ↦ ?_⟩
  obtain ⟨hmem, hkept⟩ := Table.mem_deleteWhere.mp hs
  obtain rfl := hstore.unique s (hstore.rows s hmem) g hg hsame
  rw [hp] at hkept
  cases hkept

/-- The statements that leave the store as it is, or with less of it. -/
theorem Sound.shrink (h : Sound sessionCacheEnabled d phase) {s' : Stage}
    (hk : phase k = ⟨k, s⟩) (hs : s ≠ .answered) (hd : Shrinks d d')
    (hlate : d'.late = d.late) (hresolved : d'.resolved = d.resolved)
    (hrevoked : ∀ g ∈ d.revoked, g ∈ d'.revoked)
    (hlisting : ∀ l ∈ d.listing, l.caller ≠ k → l ∈ d'.listing)
    (hrunning : ∀ tokenHash, s = .running tokenHash →
      s' = .running tokenHash ∨ tokenHash ∉ d.revoked)
    (hfits : s.Fits d k → s'.Fits d' k)
    (hstore : s.Fits d k → Store sessionCacheEnabled d') :
    Sound sessionCacheEnabled d' (Function.update phase k ⟨k, s'⟩) := by
  have hown := h.own k
  rw [hk] at hown
  apply h.update
  · apply hd.leaves hrevoked
    · intro j _ hj
      exact hlate ▸ hj
    · intro j answer _ hj
      exact hresolved ▸ hj
    · exact hlisting
  · exact hown.goOn hlate hrevoked hresolved hs hrunning (hfits hown.fits)
  · exact hstore hown.fits
  · intro call hcall hj
    rw [hresolved] at hcall
    rw [hlate] at hj
    exact h.staysRevoked call hcall hj

/-- The condition of a step: a session is filled in only where no call that has returned has revoked
it, and every call that is clearing the cache of its user has it on its list; a token is new. -/
def Fills (_ : ℕ) (d : Data) : Write → Prop
  | .setValid tokenHash userId _ => tokenHash ∉ d.revoked ∧
      ∀ l ∈ d.listing, l.userId = userId → tokenHash ∈ l.members
  | .insertSession row => ∀ s ∈ d.issued, s.tokenHash ≠ row.tokenHash
  | _ => True

instance (k : ℕ) (d : Data) (w : Write) : Decidable (Fills k d w) :=
  match w with
  | .setValid tokenHash userId _ => inferInstanceAs (Decidable (tokenHash ∉ d.revoked ∧
      ∀ l ∈ d.listing, l.userId = userId → tokenHash ∈ l.members))
  | .insertSession row => inferInstanceAs (Decidable (∀ s ∈ d.issued, s.tokenHash ≠ row.tokenHash))
  | .start _ _ | .get _ | .selectSession _ | .setInvalid _ | .resolve _ _ | .deleteSession _
  | .del _ _ | .deleteAll _ | .smembers _ _ | .exec _ _ _ _ | .returned _ | .elapse _ =>
      instDecidableTrue

theorem read_eq_some {α : Type} {now : Time} {entry : Option (Cached α)} {value : α} :
    Cached.read now entry = some value ↔ ∃ expires, entry = some ⟨value, expires⟩ ∧ now < expires := by
  unfold Cached.read
  cases entry with
  | none => exact iff_of_false nofun nofun
  | some e =>
      obtain ⟨v, expires⟩ := e
      rw [Option.map_eq_some_iff]
      constructor
      · rintro ⟨e', he', rfl⟩
        obtain ⟨hsame, hlive⟩ := Option.filter_eq_some_iff.mp he'
        obtain rfl := Option.some.inj hsame
        exact ⟨expires, rfl, of_decide_eq_true hlive⟩
      · rintro ⟨expires', hsame, hlive⟩
        cases hsame
        exact ⟨_, Option.filter_eq_some_iff.mpr ⟨rfl, decide_eq_true hlive⟩, rfl⟩

theorem mem_members {tokenHash : String} {userId : Uuid} {expires : Time} (hnow : d.now < expires)
    (h : d.Indexed tokenHash userId expires) : tokenHash ∈ d.members userId := by
  obtain ⟨members, limit, hindex, hmem, hlimit⟩ := h
  have hread : Cached.read d.now (d.index userId) = some members :=
    read_eq_some.mpr ⟨limit, hindex, lt_of_lt_of_le hnow hlimit⟩
  unfold Data.members
  rw [hread]
  exact hmem

theorem Store.same (h : Store sessionCacheEnabled d) (hd : Shrinks d d') (hcache : d'.cache = d.cache)
    (hindex : d'.index = d.index) (hrevoked : d'.revoked = d.revoked) :
    Store sessionCacheEnabled d' := by
  apply hd.store h
  · exact fun _ _ _ _ ↦ indexed_same hindex
  · exact fun g hg ↦ .inl (hrevoked ▸ hg)
  · intro hdisabled
    rw [hcache]
    exact h.disabled hdisabled

theorem Sound.setValid (h : Sound sessionCacheEnabled d phase) {tokenHash : String} {userId : Uuid}
    {ttl : ℕ} (hk : phase k = ⟨k, .found tokenHash userId⟩) (henabled : sessionCacheEnabled = true)
    (httl : ttl ≤ positiveTtlSeconds) (hfills : Fills k d (.setValid tokenHash userId ttl)) :
    Sound sessionCacheEnabled (Service.after (perform (.setValid tokenHash userId ttl)) d)
      (Function.update phase k ⟨k, .found tokenHash userId⟩) := by
  obtain ⟨hnotRevoked, hlisted⟩ := hfills
  have hown := h.own k
  rw [hk] at hown
  have hissued : d.IssuedTo tokenHash userId := hown.fits
  have hbound : d.now + seconds ttl ≤ d.now + seconds positiveTtlSeconds :=
    Nat.add_le_add_left (Nat.mul_le_mul_left 1000 httl) d.now
  have hlimit : d.now + seconds positiveTtlSeconds ≤ d.now + seconds userIndexTtlSeconds :=
    Nat.add_le_add_left (by decide) d.now
  -- what another key holds is what it held
  have hlive : ∀ h u, (Service.after (perform (.setValid tokenHash userId ttl)) d).Live h u →
      d.Live h u ∨ (h = tokenHash ∧ u = userId) := by
    rintro h u ⟨expires, hcache, hnow⟩
    by_cases hh : h = tokenHash
    · subst hh
      have hentry : Function.update d.cache h (some ⟨some userId, d.now + seconds ttl⟩) h =
          some ⟨some u, expires⟩ := hcache
      rw [Function.update_self] at hentry
      cases hentry
      exact .inr ⟨rfl, rfl⟩
    · have hentry : Function.update d.cache tokenHash (some ⟨some userId, d.now + seconds ttl⟩) h =
          some ⟨some u, expires⟩ := hcache
      rw [Function.update_of_ne hh] at hentry
      exact .inl ⟨expires, hentry, hnow⟩
  apply h.update
  · refine ⟨fun _ hs ↦ hs, fun _ he ↦ he, fun _ hg ↦ hg, fun _ _ hj ↦ hj, fun _ _ _ hj ↦ hj,
      fun _ hl _ ↦ hl, ?_⟩
    intro l hl _ h hafter
    rcases hlive h l.userId hafter with hbefore | ⟨rfl, huser⟩
    · exact .inl hbefore
    · exact .inr (hlisted l hl huser)
  · exact hown.goOn rfl (fun _ hg ↦ hg) rfl nofun nofun hissued
  · constructor
    · exact h.store.rows
    · exact h.store.unique
    · intro g hg
      obtain ⟨hended, hnot⟩ := h.store.ended g hg
      refine ⟨hended, fun u hafter ↦ ?_⟩
      rcases hlive g u hafter with hbefore | ⟨rfl, -⟩
      · exact hnot u hbefore
      · exact hnotRevoked hg
    · intro h' u expires hcache hnow
      by_cases hh : h' = tokenHash
      · subst hh
        have hentry : Function.update d.cache h' (some ⟨some userId, d.now + seconds ttl⟩) h' =
            some ⟨some u, expires⟩ := hcache
        rw [Function.update_self] at hentry
        cases hentry
        refine ⟨hissued, hbound, _, _, Function.update_self _ _ _, List.mem_cons_self, ?_⟩
        exact le_trans hbound hlimit
      · have hentry : Function.update d.cache tokenHash
            (some ⟨some userId, d.now + seconds ttl⟩) h' = some ⟨some u, expires⟩ := hcache
        rw [Function.update_of_ne hh] at hentry
        obtain ⟨hissued', httl', hindexed⟩ := h.store.indexed h' u expires hentry hnow
        refine ⟨hissued', httl', ?_⟩
        by_cases hu : u = userId
        · subst hu
          refine ⟨_, _, Function.update_self _ _ _, ?_, le_trans httl' hlimit⟩
          exact List.mem_cons_of_mem _ (mem_members hnow hindexed)
        · obtain ⟨members, limit, hindex, hrest⟩ := hindexed
          refine ⟨members, limit, ?_, hrest⟩
          show Function.update d.index userId _ u = _
          rw [Function.update_of_ne hu]
          exact hindex
    · rw [henabled]
      exact nofun
  · exact h.staysRevoked

theorem Sound.insert (h : Sound sessionCacheEnabled d phase) {row : Session}
    {sessions : Table Session.tokenHash} (hk : phase k = ⟨k, .free⟩)
    (hinsert : d.sessions.insert row = some sessions) (hfills : Fills k d (.insertSession row)) :
    Sound sessionCacheEnabled { d with sessions := sessions, issued := d.issued ++ [row] }
      (Function.update phase k ⟨k, .free⟩) := by
  have hown := h.own k
  rw [hk] at hown
  have hkept : ∀ s ∈ d.issued, s ∈ d.issued ++ [row] := fun s hs ↦ List.mem_append_left _ hs
  have hended : ∀ g, d.Ended g →
      ({ d with sessions := sessions, issued := d.issued ++ [row] } : Data).Ended g := by
    rintro g ⟨⟨s, hs, rfl⟩, hnone⟩
    refine ⟨⟨s, hkept s hs, rfl⟩, fun s' hs' ↦ ?_⟩
    rcases (Table.mem_insert hinsert).mp hs' with hs' | rfl
    · exact hnone s' hs'
    · exact fun hsame ↦ hfills s hs hsame.symm
  apply h.update
  · exact ⟨hkept, hended, fun _ hg ↦ hg, fun _ _ hj ↦ hj, fun _ _ _ hj ↦ hj, fun _ hl _ ↦ hl,
      fun _ _ _ _ hlive ↦ .inl hlive⟩
  · exact hown.goOn rfl (fun _ hg ↦ hg) rfl nofun nofun trivial
  · constructor
    · intro s hs
      rcases (Table.mem_insert hinsert).mp hs with hs | rfl
      · exact hkept s (h.store.rows s hs)
      · exact List.mem_append_right _ (List.mem_singleton_self _)
    · intro s hs s' hs' hsame
      rcases List.mem_append.mp hs with hold | hnew
      · rcases List.mem_append.mp hs' with hold' | hnew'
        · exact h.store.unique s hold s' hold' hsame
        · rw [List.mem_singleton.mp hnew'] at hsame
          exact absurd hsame (hfills s hold)
      · rw [List.mem_singleton.mp hnew] at hsame ⊢
        rcases List.mem_append.mp hs' with hold' | hnew'
        · exact absurd hsame.symm (hfills s' hold')
        · exact (List.mem_singleton.mp hnew').symm
    · intro g hg
      exact ⟨hended g (h.store.ended g hg).1, (h.store.ended g hg).2⟩
    · intro h' u expires hcache hnow
      obtain ⟨⟨s, hs, hsame⟩, hrest⟩ := h.store.indexed h' u expires hcache hnow
      exact ⟨⟨s, hkept s hs, hsame⟩, hrest⟩
    · exact h.store.disabled
  · exact h.staysRevoked

/-- The list is of every valid entry of the user there is. -/
theorem Sound.exec (h : Sound sessionCacheEnabled d phase) {userId : Uuid}
    {gone members : List String} (hk : phase k = ⟨k, .listed userId gone members⟩) :
    Sound sessionCacheEnabled (Service.after (perform (.exec k userId gone members)) d)
      (Function.update phase k ⟨k, .free⟩) := by
  have hcache : ∀ h u expires,
      (Service.after (perform (.exec k userId gone members)) d).cache h = some ⟨some u, expires⟩ →
        d.cache h = some ⟨some u, expires⟩ ∧ h ∉ members := by
    intro h u expires hentry
    have hentry' : (if h ∈ members then none else d.cache h) = some ⟨some u, expires⟩ := hentry
    by_cases hmem : h ∈ members
    · rw [if_pos hmem] at hentry'
      cases hentry'
    · rw [if_neg hmem] at hentry'
      exact ⟨hentry', hmem⟩
  have hd : Shrinks d (Service.after (perform (.exec k userId gone members)) d) :=
    ⟨rfl, fun _ hs ↦ hs, fun h u expires hentry ↦ (hcache h u expires hentry).1, le_rfl⟩
  apply h.shrink hk nofun hd rfl rfl
  · exact fun g hg ↦ List.mem_append_left _ hg
  · intro l hl hcaller
    exact List.mem_filter.mpr ⟨hl, decide_eq_true hcaller⟩
  · exact nofun
  · exact fun _ ↦ trivial
  · rintro ⟨hgone, -, hmembers⟩
    refine ⟨h.store.rows, h.store.unique, ?_, ?_, ?_⟩
    · intro g hg
      rcases List.mem_append.mp hg with hg | hg
      · obtain ⟨hended, hlive⟩ := h.store.ended g hg
        exact ⟨hended, fun u hno ↦ hlive u (hd.live hno)⟩
      · refine ⟨(hgone g hg).2, ?_⟩
        rintro u ⟨expires, hentry, hnow⟩
        obtain ⟨hbefore, hnot⟩ := hcache g u expires hentry
        -- the session is of this user, and of no other
        obtain ⟨s, hs, hsame, huser⟩ := (hgone g hg).1
        obtain ⟨⟨s', hs', hsame', huser'⟩, -⟩ := h.store.indexed g u expires hbefore hnow
        obtain rfl := h.store.unique s hs s' hs' (hsame.trans hsame'.symm)
        obtain rfl : u = userId := huser'.symm.trans huser
        exact hnot (hmembers g ⟨expires, hbefore, hnow⟩)
    · intro h' u expires hentry hnow
      obtain ⟨hbefore, hnot⟩ := hcache h' u expires hentry
      obtain ⟨hissued, httl, limit⟩ := h.store.indexed h' u expires hbefore hnow
      have hu : u ≠ userId := by
        rintro rfl
        exact hnot (hmembers h' ⟨expires, hbefore, hnow⟩)
      obtain ⟨ms, limit, hindex, hrest⟩ := limit
      refine ⟨hissued, httl, ms, limit, ?_, hrest⟩
      show Function.update d.index userId none u = _
      rw [Function.update_of_ne hu]
      exact hindex
    · intro hdisabled h'
      show (if h' ∈ members then none else d.cache h') = none
      rw [h.store.disabled hdisabled h']
      exact ite_self none

/-- Without a cache the deleted rows are all there is. -/
theorem Sound.returned (h : Sound sessionCacheEnabled d phase) {gone : List String}
    (hk : phase k = ⟨k, s⟩) (hs : s ≠ .answered) (hdisabled : sessionCacheEnabled = false)
    (hrunning : ∀ tokenHash, s ≠ .running tokenHash)
    (hgone : s.Fits d k → ∀ g ∈ gone, d.Ended g) :
    Sound sessionCacheEnabled { d with revoked := d.revoked ++ gone }
      (Function.update phase k ⟨k, .free⟩) := by
  have hd : Shrinks d { d with revoked := d.revoked ++ gone } := shrinks_same rfl rfl rfl rfl
  apply h.shrink hk hs hd rfl rfl (fun _ hg ↦ List.mem_append_left _ hg) (fun _ hl _ ↦ hl)
  · exact fun tokenHash hno ↦ absurd hno (hrunning tokenHash)
  · exact fun _ ↦ trivial
  · intro hfits
    apply hd.store h.store
    · exact fun _ _ _ _ ↦ indexed_same rfl
    · intro g hg
      rcases List.mem_append.mp hg with hg | hg
      · exact .inl hg
      · refine .inr ⟨hgone hfits g hg, ?_⟩
        rintro userId ⟨expires, hentry, -⟩
        have hnone : d.cache g = some ⟨some userId, expires⟩ := hentry
        rw [h.store.disabled hdisabled g] at hnone
        cases hnone
    · exact h.store.disabled

/-- Every statement that meets its condition keeps the invariant. -/
theorem Sound.perform (h : Sound sessionCacheEnabled d phase) {w : Write}
    (hlegal : Legal sessionCacheEnabled (phase k) w) (hfills : Fills k d w) :
    Service.wp (perform w)
      (fun r d' ↦ Sound sessionCacheEnabled d' (Function.update phase k (turn (phase k) w r)))
      (fun _ _ ↦ False) d := by
  have hcaller := h.callers k
  have hown := h.own k
  obtain ⟨t, ht⟩ : ∃ t, phase k = t := ⟨_, rfl⟩
  have hsame : Shrinks d d := shrinks_same rfl rfl rfl rfl
  rw [ht] at hlegal hcaller hown ⊢
  cases hlegal with
  | @start j tokenHash =>
      obtain rfl := hcaller
      apply (Service.wp_write _).mpr
      have hfree : j ∉ d.late := by
        intro hmem
        rcases hown.late hmem with hno | ⟨_, _, hno⟩
        · cases hno
        · cases hno
      by_cases hrevoked : tokenHash ∈ d.revoked
      · rw [if_pos hrevoked]
        have hd : Shrinks d { d with late := d.late ++ [j] } := shrinks_same rfl rfl rfl rfl
        apply h.update
        · apply hd.leaves
          · exact fun _ hg ↦ hg
          · intro i hi hmem
            rcases List.mem_append.mp hmem with hmem | hmem
            · exact hmem
            · exact absurd (List.mem_singleton.mp hmem) hi
          · exact fun _ _ _ hmem ↦ hmem
          · exact fun _ hl _ ↦ hl
        · refine ⟨trivial, fun _ ↦ .inr ⟨tokenHash, hrevoked, rfl⟩, ?_⟩
          exact fun answer hmem ↦ by cases hown.answered answer hmem
        · exact h.store.same hd rfl rfl rfl
        · rintro ⟨i, answer⟩ hmem hi
          rcases List.mem_append.mp hi with hi | hi
          · exact h.staysRevoked _ hmem hi
          · obtain rfl : i = j := List.mem_singleton.mp hi
            cases hown.answered answer hmem
      · rw [if_neg hrevoked]
        apply h.shrink ht nofun hsame rfl rfl
        · exact fun _ hg ↦ hg
        · exact fun _ hl _ ↦ hl
        · exact nofun
        · exact fun _ ↦ trivial
        · exact fun _ ↦ h.store
  | @get j tokenHash =>
      obtain rfl := hcaller
      apply (Service.wp_query _).mpr
      cases hread : Cached.read d.now (d.cache tokenHash) with
      | none =>
          apply h.shrink ht nofun hsame rfl rfl (fun _ hg ↦ hg) (fun _ hl _ ↦ hl)
          · intro h' hh'
            cases hh'
            exact .inl rfl
          · exact fun _ ↦ trivial
          · exact fun _ ↦ h.store
      | some answer =>
          cases answer with
          | none =>
              apply h.shrink ht nofun hsame rfl rfl (fun _ hg ↦ hg) (fun _ hl _ ↦ hl)
              · intro h' hh'
                cases hh'
                exact .inl rfl
              · exact fun _ ↦ trivial
              · exact fun _ ↦ h.store
          | some userId =>
              apply h.shrink ht nofun hsame rfl rfl (fun _ hg ↦ hg) (fun _ hl _ ↦ hl)
              · -- a revoked session is not in the cache
                intro h' hh'
                cases hh'
                exact .inr fun hrevoked ↦
                  (h.store.ended tokenHash hrevoked).2 userId (read_eq_some.mp hread)
              · exact fun _ ↦ trivial
              · exact fun _ ↦ h.store
  | @select j tokenHash =>
      obtain rfl := hcaller
      apply (Service.wp_query _).mpr
      cases hrow : (d.sessions.find tokenHash).filter fun s ↦ d.now < s.expiresAt with
      | none =>
          apply h.shrink ht nofun hsame rfl rfl (fun _ hg ↦ hg) (fun _ hl _ ↦ hl)
          · intro h' hh'
            cases hh'
            exact .inl rfl
          · exact fun _ ↦ trivial
          · exact fun _ ↦ h.store
      | some row =>
          obtain ⟨hmem, htoken⟩ := Table.find_eq_some.mp (Option.filter_eq_some_iff.mp hrow).1
          apply h.shrink ht nofun hsame rfl rfl (fun _ hg ↦ hg) (fun _ hl _ ↦ hl)
          · -- nor in the table
            intro h' hh'
            cases hh'
            exact .inr fun hrevoked ↦ (h.store.ended tokenHash hrevoked).1.2 row hmem htoken
          · exact fun _ ↦ ⟨row, h.store.rows row hmem, htoken, rfl⟩
          · exact fun _ ↦ h.store
  | @fill j tokenHash userId ttl henabled httl =>
      obtain rfl := hcaller
      apply (Service.wp_write _).mpr
      exact h.setValid ht henabled httl hfills
  | @deny j tokenHash henabled =>
      obtain rfl := hcaller
      apply (Service.wp_write _).mpr
      have hd : Shrinks d (Service.after (Sessions.perform (.setInvalid tokenHash)) d)  := by
        refine shrinks_key ?_ rfl rfl rfl rfl
        exact nofun
      apply h.shrink ht nofun hd rfl rfl (fun _ hg ↦ hg) (fun _ hl _ ↦ hl)
      · intro h' hh'
        cases hh'
        exact .inl rfl
      · exact fun _ ↦ trivial
      · intro _
        apply hd.store h.store
        · exact fun _ _ _ _ ↦ indexed_same rfl
        · exact fun _ hg ↦ .inl hg
        · rw [henabled]
          exact nofun
  | @resolve j stage answer hanswer hstage =>
      obtain rfl := hcaller
      apply (Service.wp_write _).mpr
      have hnext : nextStage stage (.resolve j answer) () = .answered := by
        rcases hstage with rfl | ⟨_, rfl⟩ | ⟨_, _, rfl⟩
        · rfl
        · rfl
        · rfl
      have hturn : turn ⟨j, stage⟩ (.resolve j answer) () = ⟨j, .answered⟩ := by
        simp only [turn, hnext]
      have hd : Shrinks d { d with resolved := d.resolved ++ [(j, answer)] } :=
        shrinks_same rfl rfl rfl rfl
      show Sound _ _ (Function.update phase _ (turn ⟨j, stage⟩ (.resolve j answer) ()))
      rw [hturn]
      apply h.update
      · apply hd.leaves
        · exact fun _ hg ↦ hg
        · exact fun _ _ hmem ↦ hmem
        · intro i answer' hi hmem
          rcases List.mem_append.mp hmem with hmem | hmem
          · exact hmem
          · cases List.mem_singleton.mp hmem
            exact absurd rfl hi
        · exact fun _ hl _ ↦ hl
      · exact ⟨trivial, fun _ ↦ .inl rfl, fun _ _ ↦ rfl⟩
      · exact h.store.same hd rfl rfl rfl
      · rintro ⟨i, answer'⟩ hmem hi
        rcases List.mem_append.mp hmem with hmem | hmem
        · exact h.staysRevoked _ hmem hi
        · -- a call that is late is still without an answer
          cases List.mem_singleton.mp hmem
          cases answer with
          | none => rfl
          | some userId =>
              have hvalid := hanswer userId rfl
              rcases hown.late hi with rfl | ⟨_, _, rfl⟩
              · rcases hvalid with hno | ⟨_, hno⟩
                · cases hno
                · cases hno
              · rcases hvalid with hno | ⟨_, hno⟩
                · cases hno
                · cases hno
  | @insert j row =>
      obtain rfl := hcaller
      unfold Service.wp Sessions.perform
      dsimp only
      cases hinsert : d.sessions.insert row with
      | none =>
          obtain ⟨s, hs, hsame⟩ := Table.insert_eq_none hinsert
          exact hfills s (h.store.rows s hs) hsame
      | some sessions => exact h.insert ht hinsert hfills
  | @delete j tokenHash =>
      obtain rfl := hcaller
      unfold Service.wp
      apply h.shrink ht nofun (shrinks_delete _) rfl rfl (fun _ hg ↦ hg) (fun _ hl _ ↦ hl) nofun
      · intro _ g hg
        obtain ⟨s, hs, hp, rfl⟩ := mem_tokens hg
        exact ⟨of_decide_eq_true hp, ended_delete h.store hs hp⟩
      · exact fun _ ↦ h.store.same (shrinks_delete _) rfl rfl rfl
  | @deleteAll j userId =>
      obtain rfl := hcaller
      unfold Service.wp
      apply h.shrink ht nofun (shrinks_delete _) rfl rfl (fun _ hg ↦ hg) (fun _ hl _ ↦ hl) nofun
      · intro _ g hg
        obtain ⟨s, hs, hp, rfl⟩ := mem_tokens hg
        exact ⟨⟨s, hs, rfl, of_decide_eq_true hp⟩, ended_delete h.store hs hp⟩
      · exact fun _ ↦ h.store.same (shrinks_delete _) rfl rfl rfl
  | @del j tokenHash gone =>
      obtain rfl := hcaller
      apply (Service.wp_write _).mpr
      have hd : Shrinks d (Service.after (Sessions.perform (.del tokenHash gone)) d)  := by
        refine shrinks_key ?_ rfl rfl rfl rfl
        exact nofun
      apply h.shrink ht nofun hd rfl rfl (fun _ hg ↦ List.mem_append_left _ hg)
        (fun _ hl _ ↦ hl) nofun
      · exact fun _ ↦ trivial
      · intro hgone
        apply hd.store h.store
        · exact fun _ _ _ _ ↦ indexed_same rfl
        · intro g hg
          rcases List.mem_append.mp hg with hg | hg
          · exact .inl hg
          · obtain ⟨rfl, hended⟩ := hgone g hg
            refine .inr ⟨hd.ended hended, ?_⟩
            rintro userId ⟨expires, hentry, -⟩
            have hnone : Function.update d.cache g none g = some ⟨some userId, expires⟩ := hentry
            rw [Function.update_self] at hnone
            cases hnone
        · intro hdisabled h'
          show Function.update d.cache tokenHash none h' = none
          by_cases hh : h' = tokenHash
          · rw [hh, Function.update_self]
          · rw [Function.update_of_ne hh]
            exact h.store.disabled hdisabled h'
  | @smembers j userId gone =>
      obtain rfl := hcaller
      unfold Service.wp
      have hd : Shrinks d { d with listing := d.listing ++ [⟨j, userId, d.members userId⟩] } :=
        shrinks_same rfl rfl rfl rfl
      apply h.shrink ht nofun hd rfl rfl (fun _ hg ↦ hg)
        (fun _ hl _ ↦ List.mem_append_left _ hl) nofun
      · intro hgone
        refine ⟨hgone, List.mem_append_right _ (List.mem_singleton_self _), ?_⟩
        rintro tokenHash ⟨expires, hentry, hnow⟩
        exact mem_members hnow (h.store.indexed tokenHash userId expires hentry hnow).2.2
      · exact fun _ ↦ h.store.same hd rfl rfl rfl
  | @exec j userId gone members =>
      obtain rfl := hcaller
      apply (Service.wp_write _).mpr
      exact h.exec ht
  | @returned j tokenHash gone hdisabled =>
      obtain rfl := hcaller
      apply (Service.wp_write _).mpr
      apply h.returned ht nofun hdisabled nofun
      exact fun hgone g hg ↦ (hgone g hg).2
  | @returnedAll j userId gone hdisabled =>
      obtain rfl := hcaller
      apply (Service.wp_write _).mpr
      apply h.returned ht nofun hdisabled nofun
      exact fun hgone g hg ↦ (hgone g hg).2
  | @elapse j time =>
      obtain rfl := hcaller
      apply (Service.wp_write _).mpr
      have hd : Shrinks d { d with now := d.now + time } :=
        ⟨rfl, fun _ hs ↦ hs, fun _ _ _ hh ↦ hh, Nat.le_add_right _ _⟩
      apply h.shrink ht nofun hd rfl rfl (fun _ hg ↦ hg) (fun _ hl _ ↦ hl) nofun
      · exact fun _ ↦ trivial
      · exact fun _ ↦ h.store.same hd rfl rfl rfl

end Sound

/-! ## Runs -/

section Runs

variable [Digest] {sessionCacheEnabled : Bool} {sessions : Table Session.tokenHash} {now : Time}
  {calls : ℕ → Option Request}

theorem sound_start : Sound sessionCacheEnabled
    (start sessionCacheEnabled sessions now calls).shared fun k ↦ ⟨k, .free⟩ := by
  refine ⟨fun _ ↦ rfl, fun k ↦ ⟨trivial, nofun, nofun⟩, ?_, nofun⟩
  refine ⟨fun _ hs ↦ hs, ?_, nofun, nofun, fun _ _ ↦ rfl⟩
  exact fun s hs s' hs' hsame ↦ Table.eq_of_key hs hs' hsame

/-- A run of any calls on any sessions. -/
theorem staysRevoked_always (sessionCacheEnabled : Bool) (sessions : Table Session.tokenHash)
    (now : Time) (calls : ℕ → Option Request) (ks : List ℕ)
    (hks : Along step (fun c k ↦ AtProceed waits Fills c k)
      (start sessionCacheEnabled sessions now calls) ks) :
    Always step (fun c ↦ StaysRevoked c.shared) (start sessionCacheEnabled sessions now calls) ks := by
  have hsound : Concluding turn (Sound sessionCacheEnabled) (Legal sessionCacheEnabled)
      (fun _ ↦ True) (start sessionCacheEnabled sessions now calls) := by
    refine ⟨fun k ↦ ⟨k, .free⟩, sound_start, fun k ↦ ?_⟩
    have hpc : (start sessionCacheEnabled sessions now calls).pc k =
        (calls k).map (Request.run sessionCacheEnabled k) := rfl
    rw [hpc]
    cases calls k with
    | none => exact trivial
    | some request => exact passes_run request
  have halways := hsound.always
    (fun d phase k w hsound hlegal _ hfills ↦ hsound.perform hlegal hfills) hks
  apply halways.mono
  intro c hc
  obtain ⟨phase, hsound, -⟩ := hc
  exact hsound.staysRevoked

end Runs

/-! ### The race -/

/-- A digest that can be computed. -/
abbrev plainDigest : Digest := ⟨id⟩

/-- One session, for an hour. -/
def signedIn : Table Session.tokenHash := ⟨[⟨"token", 1, 3600000⟩], by decide⟩

/-- A request with the token, the sign-out, and another request. -/
def signingOut : ℕ → Option Request
  | 0 | 2 => some (.resolveSession "token")
  | 1 => some (.invalidateSession "token")
  | _ => none

/-- The first request has read the row when the session is revoked, and fills the cache after it. -/
def fillsLate : List ℕ := [0, 0, 0, 1, 1, 0, 0, 0, 2, 2, 2]

theorem returned_though_revoked :
    letI := plainDigest
    ¬ Always step (fun c ↦ StaysRevoked c.shared) (start true signedIn 0 signingOut) fillsLate := by
  let _ := plainDigest
  decide +kernel

/-- The sign-out comes once the cache has been filled. -/
def fillsInTime : List ℕ := [0, 0, 0, 0, 0, 0, 1, 1, 2, 2, 2, 2, 2]

theorem staysRevoked_signingOut :
    letI := plainDigest
    Along step (fun c k ↦ AtProceed waits Fills c k) (start true signedIn 0 signingOut) fillsInTime ∧
      Always step (fun c ↦ StaysRevoked c.shared) (start true signedIn 0 signingOut) fillsInTime := by
  let _ := plainDigest
  have hks : Along step (fun c k ↦ AtProceed waits Fills c k) (start true signedIn 0 signingOut)
      fillsInTime := by
    decide +kernel
  exact ⟨hks, staysRevoked_always true signedIn 0 signingOut fillsInTime hks⟩

end Tesbo.Sessions
