import Tesbo.PasswordReset

/-!
# A reset link works once

It does where a call that sets the password finds the link unused and nobody else between setting a
password and using the link up, and where the statement that uses it up does not fail.
-/

namespace Tesbo.PasswordReset

open Reasoning Proc
open Otp (Digest)

/-! ## How far a call has come -/

/-- `set` is between the statement that sets the password and the one that uses the link up. -/
inductive Stage where
  | free
  | found (id : Uuid)
  | set (id : Uuid)
  | consumed (id : Uuid)
  | succeeded (id : Uuid)
  | failed

structure Phase where
  caller : ℕ
  stage : Stage

def afterStatement : Stage → (s : Statement) → Answer s → Stage
  | .free, .selectToken _, some (id, _) => .found id
  | .found id, .setPassword _ _ _, _ => .set id
  | .set id, .useToken _, _ => .consumed id
  | stage, _, _ => stage

def Stage.answer : Stage → Stage
  | .consumed id => .succeeded id
  | stage => stage

def nextStage (stage : Stage) : (w : Write) → Reply w → Stage
  | .query _ s, .ok a => afterStatement stage s a
  | .query _ _, .error _ => .failed
  | .respond _ _, _ => stage.answer
  | .elapse _, _ => stage

def turn (t : Phase) (w : Write) (r : Reply w) : Phase :=
  { t with stage := nextStage t.stage w r }

/-- What follows once the link is used up. -/
def Statement.revokes : Statement → Bool
  | .deleteSessions _ | .deleteApiTokens _ | .selectEmail _ | .clearLockout _ => true
  | _ => false

/-- What a call may ask for. -/
inductive Legal : Phase → Write → Prop where
  | select {k tokenHash} : Legal ⟨k, .free⟩ (.query k (.selectToken tokenHash))
  | set {k id userId hash} : Legal ⟨k, .found id⟩ (.query k (.setPassword id userId hash))
  | use {k id} : Legal ⟨k, .set id⟩ (.query k (.useToken id))
  | revoke {k id s} (hs : s.revokes = true) : Legal ⟨k, .consumed id⟩ (.query k s)
  | refuse {k} : Legal ⟨k, .free⟩ (.respond k none)
  | succeed {k id userId} : Legal ⟨k, .consumed id⟩ (.respond k (some userId))
  | elapse {k time} : Legal ⟨k, .free⟩ (.elapse time)

section Passing

variable {k : ℕ} {t : Phase}

/-- A statement that fails ends the call. -/
theorem passes_statement {s : Statement} (hlegal : Legal t (.query k s)) :
    Passes turn Legal (fun a t' ↦ t' = turn t (.query k s) (.ok a)) (fun _ _ ↦ True) t
      (statement k s) := by
  unfold statement
  apply passes_issue_seq hlegal
  intro outcome
  cases outcome with
  | error e => exact passes_fail trivial
  | ok a => exact passes_pure rfl

theorem passes_statement_seq {β : Type} {s : Statement} {Q : β → Phase → Prop}
    {f : Answer s → Procedure β} (hlegal : Legal t (.query k s))
    (hf : ∀ a, Passes turn Legal Q (fun _ _ ↦ True) (turn t (.query k s) (.ok a)) (f a)) :
    Passes turn Legal Q (fun _ _ ↦ True) t (statement k s >>= f) := by
  apply passes_seq (passes_statement hlegal)
  rintro a _ rfl
  exact hf a

variable [Unicode] [Digest] [HashPassword]

/-- The phase an answer is given in. -/
def Answers (k : ℕ) (answer : Option Uuid) (t : Phase) : Prop :=
  match answer with
  | none => t = ⟨k, .free⟩
  | some _ => ∃ id, t = ⟨k, .consumed id⟩

/-- The phase after the token has been looked up. -/
def Looked (k : ℕ) : Option (Uuid × Uuid) → Phase → Prop
  | none, t => t = ⟨k, .free⟩
  | some (id, _), t => t = ⟨k, .found id⟩

theorem passes_resetPassword (rawToken newPassword : String) :
    Passes turn Legal (Answers k) (fun _ _ ↦ True) ⟨k, .free⟩
      (resetPassword k rawToken newPassword) := by
  unfold resetPassword
  apply passes_seq (P := Looked k)
  · unfold findValidToken
    dsimp only
    split
    · exact passes_pure rfl
    · apply (passes_statement .select).mono
      · rintro row _ rfl
        cases row with
        | none => rfl
        | some found => rfl
      · exact fun _ _ h ↦ h
  intro row t ht
  cases row with
  | none => exact passes_pure ht
  | some found =>
      obtain ⟨id, userId⟩ := found
      obtain rfl : t = _ := ht
      apply passes_seq (P := fun _ t ↦ t = ⟨k, .set id⟩)
      · unfold setPassword
        apply passes_ofExcept_seq
        · exact fun _ _ ↦ trivial
        intro passwordHash _
        apply (passes_statement .set).mono
        · rintro _ _ rfl
          rfl
        · exact fun _ _ h ↦ h
      rintro _ _ rfl
      apply passes_statement_seq .use
      intro _
      apply passes_statement_seq (.revoke rfl)
      intro _
      apply passes_statement_seq (.revoke rfl)
      intro _
      apply passes_statement_seq (.revoke rfl)
      intro email
      dsimp only
      split
      · exact passes_pure ⟨id, rfl⟩
      · apply passes_statement_seq (.revoke rfl)
        intro _
        exact passes_pure ⟨id, rfl⟩

theorem passes_run (request : Request) : Passes turn Legal (fun _ _ ↦ True) (fun _ _ ↦ True)
    ⟨k, .free⟩ (request.run k) := by
  cases request with
  | resetPassword rawToken newPassword =>
      apply passes_seq (passes_resetPassword rawToken newPassword)
      intro answer t ht
      apply passes_issue (w := Write.respond k answer)
      · cases answer with
        | none =>
            obtain rfl : t = _ := ht
            exact .refuse
        | some userId =>
            obtain ⟨id, rfl⟩ := ht
            exact .succeed
      · exact fun _ ↦ trivial
  | elapse time =>
      apply passes_issue (w := Write.elapse time)
      · exact .elapse
      · exact fun _ ↦ trivial

end Passing

/-! ## What holds of the calls together -/

/-- At most one call sets a password with a link and succeeds, and one that throws after setting a
password leaves no link that works. -/
def WorksOnce (d : Data) : Prop :=
  (∀ p ∈ d.set, ∀ q ∈ d.set, p.2 = q.2 → p.1 ∈ d.succeeded → q.1 ∈ d.succeeded → p.1 = q.1) ∧
    d.broken = []

/-- The condition of a step. -/
def Unused (_ : ℕ) (d : Data) : Write → Prop
  | .query _ (.setPassword id _ _) =>
      d.fails = false → d.unused id = true ∧ ∀ p ∈ d.pending, p.2 ≠ id
  | .query _ (.useToken id) => d.fails = true → d.works id = false
  | _ => True

namespace Stage

/-- The link of a call that has used it up. -/
def won : Stage → Option Uuid
  | consumed id | succeeded id => some id
  | _ => none

/-- A call in this stage may have set a password with the link. -/
def MaySet (id : Uuid) : Stage → Prop
  | set id' | consumed id' | succeeded id' => id' = id
  | failed => True
  | free | found _ => False

end Stage

structure Sound (d : Data) (phase : ℕ → Phase) : Prop where
  callers : ∀ k, (phase k).caller = k
  set : ∀ p ∈ d.set, (phase p.1).stage.MaySet p.2
  pending : ∀ k id, (k, id) ∈ d.pending ↔ (phase k).stage = .set id
  onePending : ∀ p ∈ d.pending, ∀ q ∈ d.pending, p.2 = q.2 → p.1 = q.1
  unused : ∀ p ∈ d.pending, d.unused p.2 = true
  won : ∀ k id, (phase k).stage.won = some id → d.unused id = false
  oneWinner : ∀ j k id, (phase j).stage.won = some id → (phase k).stage.won = some id → j = k
  succeeded : ∀ k ∈ d.succeeded, ∃ id, (phase k).stage = .succeeded id
  broken : d.broken = []

section Sound

variable {d d' : Data} {phase : ℕ → Phase} {k : ℕ} {s s' : Stage} {id : Uuid}

theorem Sound.worksOnce (h : Sound d phase) : WorksOnce d := by
  refine ⟨fun p hp q hq hid hp' hq' ↦ ?_, h.broken⟩
  obtain ⟨i, hi⟩ := h.succeeded p.1 hp'
  obtain ⟨j, hj⟩ := h.succeeded q.1 hq'
  have hmay := h.set p hp
  have hmay' := h.set q hq
  rw [hi] at hmay
  rw [hj] at hmay'
  obtain rfl : i = p.2 := hmay
  obtain rfl : j = q.2 := hmay'
  apply h.oneWinner p.1 q.1 p.2
  · rw [hi]
    rfl
  · rw [hj, hid]
    rfl

/-- The rule for a statement: what the others are in is left, and the rest is about its own call. -/
theorem Sound.update (h : Sound d phase)
    (hset : ∀ p ∈ d'.set, (p.1 ≠ k → p ∈ d.set) ∧ (p.1 = k → s'.MaySet p.2))
    (hpending : (∀ j id, j ≠ k → ((j, id) ∈ d'.pending ↔ (j, id) ∈ d.pending)) ∧
      ∀ id, (k, id) ∈ d'.pending ↔ s' = .set id)
    (honePending : ∀ p ∈ d'.pending, ∀ q ∈ d'.pending, p.2 = q.2 → p.1 = q.1)
    (hunused : ∀ p ∈ d'.pending, d'.unused p.2 = true)
    (hwon : (∀ id, d.unused id = false → d'.unused id = false) ∧
      ∀ id, s'.won = some id → d'.unused id = false ∧ ∀ j, j ≠ k → (phase j).stage.won ≠ some id)
    (hsucceeded : ∀ j ∈ d'.succeeded, (j ≠ k → j ∈ d.succeeded) ∧
      (j = k → ∃ id, s' = .succeeded id)) (hbroken : d'.broken = []) :
    Sound d' (Function.update phase k ⟨k, s'⟩) := by
  have hown : (Function.update phase k ⟨k, s'⟩ k).stage = s' := by rw [Function.update_self]
  have hother : ∀ j, j ≠ k → (Function.update phase k ⟨k, s'⟩ j).stage = (phase j).stage := by
    intro j hj
    rw [Function.update_of_ne hj]
  refine ⟨?_, ?_, ?_, honePending, hunused, ?_, ?_, ?_, hbroken⟩
  · intro j
    by_cases hj : j = k
    · subst hj
      rw [Function.update_self]
    · rw [Function.update_of_ne hj]
      exact h.callers j
  · intro p hp
    by_cases hj : p.1 = k
    · rw [hj, hown]
      exact (hset p hp).2 hj
    · rw [hother _ hj]
      exact h.set p ((hset p hp).1 hj)
  · intro j id
    by_cases hj : j = k
    · subst hj
      rw [hown]
      exact hpending.2 id
    · rw [hother _ hj, hpending.1 j id hj]
      exact h.pending j id
  · intro j id
    by_cases hj : j = k
    · subst hj
      rw [hown]
      exact fun hid ↦ (hwon.2 id hid).1
    · rw [hother _ hj]
      exact fun hid ↦ hwon.1 id (h.won j id hid)
  · intro i j id hi hj
    by_cases hik : i = k
    · by_cases hjk : j = k
      · exact hik.trans hjk.symm
      · subst hik
        rw [hown] at hi
        rw [hother _ hjk] at hj
        exact absurd hj ((hwon.2 id hi).2 j hjk)
    · by_cases hjk : j = k
      · subst hjk
        rw [hown] at hj
        rw [hother _ hik] at hi
        exact absurd hi ((hwon.2 id hj).2 i hik)
      · rw [hother _ hik] at hi
        rw [hother _ hjk] at hj
        exact h.oneWinner i j id hi hj
  · intro j hj
    by_cases hjk : j = k
    · subst hjk
      rw [hown]
      exact (hsucceeded j hj).2 rfl
    · rw [hother _ hjk]
      exact h.succeeded j ((hsucceeded j hj).1 hjk)

theorem Sound.mem_pending (h : Sound d phase) (hk : phase k = ⟨k, s⟩) :
    (k, id) ∈ d.pending ↔ s = .set id := by
  rw [h.pending k id, hk]

/-- A call that has used the link up is the only one. -/
theorem Sound.won_of (h : Sound d phase) (hk : phase k = ⟨k, s⟩) (hwon : s.won = some id) :
    d.unused id = false ∧ ∀ j, j ≠ k → (phase j).stage.won ≠ some id := by
  have hown : (phase k).stage.won = some id := by rw [hk]; exact hwon
  exact ⟨h.won k id hown, fun j hj hno ↦ hj (h.oneWinner j k id hno hown)⟩

theorem Sound.not_succeeded (h : Sound d phase) (hk : phase k = ⟨k, s⟩)
    (hs : ∀ id, s ≠ .succeeded id) : k ∉ d.succeeded := by
  intro hno
  obtain ⟨id, hid⟩ := h.succeeded k hno
  rw [hk] at hid
  exact hs id hid

/-- The links are as they were, and so is what is known of the call. -/
theorem Sound.quiet (h : Sound d phase) (hk : phase k = ⟨k, s⟩) (hset : d'.set = d.set)
    (hpending : d'.pending = d.pending) (hunused : ∀ id, d'.unused id = d.unused id)
    (hsucceeded : ∀ j ∈ d'.succeeded, j ∈ d.succeeded ∨ (j = k ∧ ∃ id, s' = .succeeded id))
    (hbroken : d'.broken = d.broken) (hwon : s'.won = s.won)
    (hstage : ∀ id, s' = .set id ↔ s = .set id) (hmay : ∀ id, s.MaySet id → s'.MaySet id)
    (hnot : ∀ id, s ≠ .succeeded id) : Sound d' (Function.update phase k ⟨k, s'⟩) := by
  apply h.update
  · intro p hp
    rw [hset] at hp
    refine ⟨fun _ ↦ hp, fun hkp ↦ ?_⟩
    have hown := h.set p hp
    rw [hkp, hk] at hown
    exact hmay _ hown
  · rw [hpending]
    refine ⟨fun _ _ _ ↦ Iff.rfl, fun id ↦ ?_⟩
    rw [h.mem_pending hk]
    exact (hstage id).symm
  · rw [hpending]
    exact h.onePending
  · intro p hp
    rw [hpending] at hp
    rw [hunused]
    exact h.unused p hp
  · refine ⟨fun id hid ↦ (hunused id).trans hid, fun id hid ↦ ?_⟩
    rw [hunused]
    rw [hwon] at hid
    exact h.won_of hk hid
  · intro j hj
    rcases hsucceeded j hj with hj | ⟨rfl, hid⟩
    · refine ⟨fun _ ↦ hj, fun hjk ↦ ?_⟩
      subst hjk
      exact absurd hj (h.not_succeeded hk hnot)
    · exact ⟨fun hno ↦ absurd rfl hno, fun _ ↦ hid⟩
  · rw [hbroken]
    exact h.broken

theorem unused_of_works (hworks : d.works id = true) : d.unused id = true := by
  unfold Data.works at hworks
  unfold Data.unused
  obtain ⟨t, ht, husable⟩ := (Option.any_eq_true _ _).mp hworks
  rw [ht]
  unfold usable at husable
  exact (Bool.and_eq_true _ _ ▸ husable).2

/-- The call is over, and it leaves no link that works. -/
theorem Sound.throw (h : Sound d phase) (hk : phase k = ⟨k, s⟩)
    (hworks : ∀ id, s.MaySet id → d.works id = false) (hnot : ∀ id, s ≠ .succeeded id) :
    Sound (d.thrown k) (Function.update phase k ⟨k, .failed⟩) := by
  have hpending : ∀ p, p ∈ (d.thrown k).pending ↔ p ∈ d.pending ∧ p.1 ≠ k := by
    intro p
    show p ∈ d.pending.filter (fun p ↦ p.1 ≠ k) ↔ _
    rw [List.mem_filter, decide_eq_true_eq]
  apply h.update
  · exact fun p hp ↦ ⟨fun _ ↦ hp, fun _ ↦ trivial⟩
  · constructor
    · intro j id hj
      rw [hpending]
      exact and_iff_left hj
    · intro id
      rw [hpending]
      exact iff_of_false (fun hno ↦ hno.2 rfl) nofun
  · intro p hp q hq
    exact h.onePending p ((hpending p).mp hp).1 q ((hpending q).mp hq).1
  · exact fun p hp ↦ h.unused p ((hpending p).mp hp).1
  · exact ⟨fun _ hid ↦ hid, nofun⟩
  · intro j hj
    refine ⟨fun _ ↦ hj, fun hjk ↦ ?_⟩
    subst hjk
    exact absurd hj (h.not_succeeded hk hnot)
  · have hnone : (d.set.any fun p ↦ p.1 = k && d.works p.2) = false := by
      rw [List.any_eq_false]
      intro p hp hno
      rw [Bool.and_eq_true, decide_eq_true_eq] at hno
      have hown := h.set p hp
      rw [hno.1, hk] at hown
      rw [hworks p.2 hown] at hno
      cases hno.2
    show (if (d.set.any fun p ↦ p.1 = k && d.works p.2) = true then _ else d.broken) = []
    rw [hnone, if_neg Bool.false_ne_true]
    exact h.broken

/-- The link is unused, so nobody has used it up. -/
theorem Sound.setPassword (h : Sound d phase) (hk : phase k = ⟨k, .found id⟩) {userId : Uuid}
    {hash : String} (hunused : d.unused id = true) (hfree : ∀ p ∈ d.pending, p.2 ≠ id) :
    Sound (run k (.setPassword id userId hash) d).2 (Function.update phase k ⟨k, .set id⟩) := by
  have hmem : ∀ {p : ℕ × Uuid} {l : List (ℕ × Uuid)}, p ∈ l ++ [(k, id)] ↔ p ∈ l ∨ p = (k, id) := by
    intro p l
    rw [List.mem_append, List.mem_singleton]
  have hout : ∀ p ∈ d.pending, p.1 ≠ k := by
    rintro ⟨j, i⟩ hp rfl
    have hno := (h.mem_pending hk).mp hp
    cases hno
  apply h.update
  · intro p hp
    rcases hmem.mp hp with hp | rfl
    · refine ⟨fun _ ↦ hp, fun hkp ↦ ?_⟩
      have hown := h.set p hp
      rw [hkp, hk] at hown
      exact hown.elim
    · exact ⟨fun hno ↦ absurd rfl hno, fun _ ↦ rfl⟩
  · constructor
    · intro j i hj
      show (j, i) ∈ d.pending ++ [(k, id)] ↔ _
      rw [hmem]
      apply or_iff_left
      intro hno
      exact hj (congrArg Prod.fst hno)
    · intro i
      show (k, i) ∈ d.pending ++ [(k, id)] ↔ _
      rw [hmem]
      constructor
      · rintro (hno | hsame)
        · exact absurd rfl (hout _ hno)
        · rw [Prod.mk.injEq] at hsame
          rw [hsame.2]
      · intro hsame
        cases hsame
        exact .inr rfl
  · intro p hp q hq hid
    rcases hmem.mp hp with hp | rfl
    · rcases hmem.mp hq with hq | rfl
      · exact h.onePending p hp q hq hid
      · exact absurd hid (hfree p hp)
    · rcases hmem.mp hq with hq | rfl
      · exact absurd hid.symm (hfree q hq)
      · rfl
  · intro p hp
    rcases hmem.mp hp with hp | rfl
    · exact h.unused p hp
    · exact hunused
  · exact ⟨fun _ hid ↦ hid, nofun⟩
  · intro j hj
    refine ⟨fun _ ↦ hj, fun hjk ↦ ?_⟩
    subst hjk
    exact absurd hj (h.not_succeeded hk nofun)
  · exact h.broken

theorem unused_useToken (i : Uuid) :
    (run k (.useToken id) d).2.unused i = if i = id then false else d.unused i := by
  have hrows : Table.UpdatedRows d.resetTokens (run k (.useToken id) d).2.resetTokens
      (fun t ↦ t.id = id) (fun t ↦ { t with usedAt := some d.now }) := rfl
  unfold Data.unused
  rw [hrows.find fun _ ↦ rfl]
  cases hfind : d.resetTokens.find i with
  | none =>
      split
      · rfl
      · rfl
  | some t =>
      have hid : t.id = i := (Table.find_eq_some.mp hfind).2
      rw [Option.map_some]
      by_cases hi : i = id
      · rw [if_pos hi, if_pos (decide_eq_true (hid.trans hi))]
        rfl
      · rw [if_neg hi, if_neg]
        rw [decide_eq_true_eq, hid]
        exact hi

/-- Nobody else is between setting a password and using this link up. -/
theorem Sound.useToken (h : Sound d phase) (hk : phase k = ⟨k, .set id⟩) :
    Sound (run k (.useToken id) d).2 (Function.update phase k ⟨k, .consumed id⟩) := by
  have hown : (k, id) ∈ d.pending := (h.mem_pending hk).mpr rfl
  have hpending : ∀ p, p ∈ (run k (.useToken id) d).2.pending ↔ p ∈ d.pending ∧ p.1 ≠ k := by
    intro p
    show p ∈ d.pending.filter (fun p ↦ p.1 ≠ k) ↔ _
    rw [List.mem_filter, decide_eq_true_eq]
  apply h.update
  · intro p hp
    refine ⟨fun _ ↦ hp, fun hkp ↦ ?_⟩
    have hmay := h.set p hp
    rw [hkp, hk] at hmay
    exact hmay
  · constructor
    · intro j i hj
      rw [hpending]
      exact and_iff_left hj
    · intro i
      rw [hpending]
      exact iff_of_false (fun hno ↦ hno.2 rfl) nofun
  · intro p hp q hq
    exact h.onePending p ((hpending p).mp hp).1 q ((hpending q).mp hq).1
  · intro p hp
    obtain ⟨hp, hkp⟩ := (hpending p).mp hp
    have hother : p.2 ≠ id := fun hid ↦ hkp (h.onePending p hp (k, id) hown hid)
    rw [unused_useToken, if_neg hother]
    exact h.unused p hp
  · constructor
    · intro i hi
      rw [unused_useToken]
      split
      · rfl
      · exact hi
    · intro i hi
      obtain rfl : id = i := Option.some.inj hi
      refine ⟨?_, fun j _ hno ↦ ?_⟩
      · rw [unused_useToken, if_pos rfl]
      · have hused := h.won j id hno
        rw [h.unused (k, id) hown] at hused
        cases hused
  · intro j hj
    refine ⟨fun _ ↦ hj, fun hjk ↦ ?_⟩
    subst hjk
    exact absurd hj (h.not_succeeded hk nofun)
  · exact h.broken

theorem unused_revoke {st : Statement} (hs : st.revokes = true) :
    (run k st d).2.resetTokens = d.resetTokens ∧ (run k st d).2.set = d.set ∧
      (run k st d).2.pending = d.pending ∧ (run k st d).2.succeeded = d.succeeded ∧
      (run k st d).2.broken = d.broken := by
  cases st with
  | deleteSessions | deleteApiTokens | selectEmail | clearLockout => exact ⟨rfl, rfl, rfl, rfl, rfl⟩
  | selectToken | setPassword | useToken => cases hs

/-- A statement, whether it fails or not. -/
theorem wp_query {st : Statement} {Q : Reply (.query k st) → Data → Prop}
    (hok : d.fails = false → Q (.ok (run k st d).1) (run k st d).2)
    (herror : d.fails = true → Q (.error connectionLost) (d.thrown k)) :
    Service.wp (perform (.query k st)) Q (fun _ _ ↦ False) d := by
  unfold Service.wp perform
  dsimp only
  cases hfails : d.fails with
  | false =>
      rw [if_neg Bool.false_ne_true]
      exact hok hfails
  | true =>
      rw [if_pos rfl]
      exact herror hfails

/-- Every statement that meets its condition keeps the invariant. -/
theorem Sound.perform (h : Sound d phase) {w : Write} (hlegal : Legal (phase k) w)
    (hunused : Unused k d w) :
    Service.wp (perform w) (fun r d' ↦ Sound d' (Function.update phase k (turn (phase k) w r)))
      (fun _ _ ↦ False) d := by
  have hcaller := h.callers k
  obtain ⟨t, ht⟩ : ∃ t, phase k = t := ⟨_, rfl⟩
  rw [ht] at hlegal hcaller ⊢
  cases hlegal with
  | @select j tokenHash =>
      obtain rfl := hcaller
      apply wp_query
      · intro _
        have hquiet : ∀ s', s'.won = none → (∀ id, s' ≠ .set id) →
            Sound d (Function.update phase j ⟨j, s'⟩) := by
          intro s' hwon hset
          apply h.quiet ht rfl rfl (fun _ ↦ rfl) (fun _ hj ↦ .inl hj) rfl hwon
          · exact fun id ↦ iff_of_false (hset id) nofun
          · exact fun _ ↦ False.elim
          · exact nofun
        show Sound d (Function.update phase j ⟨j, afterStatement .free (.selectToken tokenHash)
          (run j (.selectToken tokenHash) d).1⟩)
        cases (run j (.selectToken tokenHash) d).1 with
        | none => exact hquiet .free rfl nofun
        | some row => exact hquiet (.found row.1) rfl nofun
      · exact fun _ ↦ h.throw ht (fun _ ↦ False.elim) nofun
  | @set j id userId hash =>
      obtain rfl := hcaller
      apply wp_query
      · intro hfails
        obtain ⟨hlink, hfree⟩ := hunused hfails
        exact h.setPassword ht hlink hfree
      · exact fun _ ↦ h.throw ht (fun _ ↦ False.elim) nofun
  | @use j id =>
      obtain rfl := hcaller
      apply wp_query
      · exact fun _ ↦ h.useToken ht
      · intro hfails
        apply h.throw ht
        · rintro _ rfl
          exact hunused hfails
        · exact nofun
  | @revoke j id st hs =>
      obtain rfl := hcaller
      obtain ⟨htokens, hset, hpending, hsucceeded, hbroken⟩ := unused_revoke (d := d) (k := j) hs
      apply wp_query
      · intro _
        have hstage : afterStatement (.consumed id) st (run j st d).1 = .consumed id := by
          cases st with
          | deleteSessions | deleteApiTokens | selectEmail | clearLockout => rfl
          | selectToken | setPassword | useToken => cases hs
        have hturn : turn ⟨j, .consumed id⟩ (.query j st) (.ok (run j st d).1) =
            ⟨j, .consumed id⟩ := by
          show (⟨j, afterStatement (.consumed id) st (run j st d).1⟩ : Phase) = _
          rw [hstage]
        rw [hturn]
        apply h.quiet ht hset hpending
        · intro i
          unfold Data.unused
          rw [htokens]
        · exact fun i hi ↦ .inl (hsucceeded ▸ hi)
        · exact hbroken
        · rfl
        · exact fun _ ↦ Iff.rfl
        · exact fun _ hmay ↦ hmay
        · exact nofun
      · intro _
        apply h.throw ht
        · rintro _ rfl
          -- the link has been used up
          cases hworks : d.works id with
          | false => rfl
          | true =>
              have hwon : (Stage.consumed id).won = some id := rfl
              have hused := (h.won_of ht hwon).1
              rw [unused_of_works hworks] at hused
              cases hused
        · exact nofun
  | refuse =>
      obtain rfl := hcaller
      apply (Service.wp_write _).mpr
      apply h.quiet ht rfl rfl (fun _ ↦ rfl) (fun _ hj ↦ .inl hj) rfl rfl
      · exact fun id ↦ iff_of_false nofun nofun
      · exact fun _ ↦ False.elim
      · exact nofun
  | @succeed j id userId =>
      obtain rfl := hcaller
      apply (Service.wp_write _).mpr
      have hsucceeded : ∀ i ∈ d.succeeded ++ [j], i ∈ d.succeeded ∨
          (i = j ∧ ∃ id', Stage.succeeded id = .succeeded id') := by
        intro i hi
        rcases List.mem_append.mp hi with hi | hi
        · exact .inl hi
        · exact .inr ⟨List.mem_singleton.mp hi, id, rfl⟩
      show Sound (Service.after (PasswordReset.perform (.respond j (some userId))) d)
        (Function.update phase j ⟨j, .succeeded id⟩)
      apply h.quiet ht
      · rfl
      · rfl
      · exact fun _ ↦ rfl
      · exact hsucceeded
      · rfl
      · rfl
      · exact fun _ ↦ iff_of_false nofun nofun
      · exact fun _ hmay ↦ hmay
      · exact nofun
  | @elapse j time =>
      obtain rfl := hcaller
      apply (Service.wp_write _).mpr
      show Sound (Service.after (PasswordReset.perform (.elapse time)) d)
        (Function.update phase j ⟨j, .free⟩)
      apply h.quiet ht
      · rfl
      · rfl
      · exact fun _ ↦ rfl
      · exact fun _ hj ↦ .inl hj
      · rfl
      · rfl
      · exact fun id ↦ iff_of_false nofun nofun
      · exact fun _ ↦ False.elim
      · exact nofun

end Sound

/-! ## Runs -/

/-- The condition on a step of a run. -/
def InOrder (c : Requests) (e : Event) : Prop :=
  AtProceed waits Unused (failing c e.fails) e.caller

section Runs

variable {c : Requests}

theorem concluding_failing {Z : Phase → Prop} (hc : Concluding turn Sound Legal Z c) (fails : Bool) :
    Concluding turn Sound Legal Z (failing c fails) := by
  obtain ⟨phase, h, hcalls⟩ := hc
  exact ⟨phase, ⟨h.callers, h.set, h.pending, h.onePending, h.unused, h.won, h.oneWinner, h.succeeded,
    h.broken⟩, hcalls⟩

variable [Unicode] [Digest] [HashPassword]

theorem worksOnce_always (users : Table LoginLockout.User.id) (resetTokens : Table ResetToken.id)
    (sessions : Table Sessions.Session.tokenHash) (apiTokens : Table ApiTokens.ApiToken.id)
    (rateLimits : Table LoginLockout.RateLimit.email) (now : Time) (calls : ℕ → Option Request)
    (es : List Event)
    (hes : Along step InOrder
      (start users resetTokens sessions apiTokens rateLimits now calls) es) :
    Always step (fun c ↦ WorksOnce c.shared)
      (start users resetTokens sessions apiTokens rateLimits now calls) es := by
  have hsound : Concluding turn Sound Legal (fun _ ↦ True)
      (start users resetTokens sessions apiTokens rateLimits now calls) := by
    refine ⟨fun k ↦ ⟨k, .free⟩, ?_, fun k ↦ ?_⟩
    · exact ⟨fun _ ↦ rfl, nofun, fun _ _ ↦ iff_of_false nofun nofun, nofun, nofun, nofun, nofun,
        nofun, rfl⟩
    · have hpc : (start users resetTokens sessions apiTokens rateLimits now calls).pc k =
          (calls k).map (Request.run k) := rfl
      rw [hpc]
      cases calls k with
      | none => exact trivial
      | some request => exact passes_run request
  have hstep : ∀ (c : Requests) (e : Event), Concluding turn Sound Legal (fun _ ↦ True) c →
      InOrder c e → Concluding turn Sound Legal (fun _ ↦ True) (step c e) ∧ True := by
    intro c e hc he
    refine ⟨?_, trivial⟩
    apply Concluding.step (P := Unused)
    · exact fun d phase k w hsound hlegal _ hunused ↦ hsound.perform hlegal hunused
    · exact concluding_failing hc e.fails
    · exact he
  apply (Along.invariant hstep hsound hes).1.mono
  rintro c ⟨phase, hsound, -⟩
  exact hsound.worksOnce

end Runs

/-! ### Two tabs -/

instance (k : ℕ) (d : Data) (w : Write) : Decidable (Unused k d w) :=
  match w with
  | .query _ (.setPassword id _ _) => inferInstanceAs (Decidable
      (d.fails = false → d.unused id = true ∧ ∀ p ∈ d.pending, p.2 ≠ id))
  | .query _ (.useToken id) => inferInstanceAs (Decidable (d.fails = true → d.works id = false))
  | .query _ (.selectToken _) | .query _ (.deleteSessions _) | .query _ (.deleteApiTokens _)
  | .query _ (.selectEmail _) | .query _ (.clearLockout _) | .respond _ _ | .elapse _ =>
      instDecidableTrue

instance (c : Requests) (e : Event) : Decidable (InOrder c e) :=
  inferInstanceAs (Decidable (AtProceed waits Unused (failing c e.fails) e.caller))

instance : DecidablePred WorksOnce := fun _ ↦ inferInstanceAs (Decidable (_ ∧ _))

/-- A hash that can be computed. -/
abbrev plainPassword : HashPassword := ⟨id⟩

abbrev plainDigest : Digest := ⟨id⟩

/-- A link that works for an hour. -/
def link : Table ResetToken.id := ⟨[⟨5, 1, "token", 3600000, none⟩], by decide⟩

def owner : Table LoginLockout.User.id := ⟨[⟨1, "a", some "old"⟩], by decide⟩

def twoTabs : ℕ → Option Request
  | 0 => some (.resetPassword "token" "Password1")
  | 1 => some (.resetPassword "token" "Password2")
  | _ => none

def startTabs : Requests :=
  letI := asciiCase
  letI := plainDigest
  letI := plainPassword
  start owner link Table.empty Table.empty Table.empty 0 twoTabs

def going (k n : ℕ) : List Event := List.replicate n ⟨k, false⟩

/-- Both have looked the link up when one of them sets its password. -/
def overlapping : List Event := going 0 1 ++ going 1 1 ++ going 0 10 ++ going 1 10

theorem both_succeed : ¬ Always step (fun c ↦ WorksOnce c.shared) startTabs overlapping := by
  decide +kernel

/-- One after the other. -/
def inTurn : List Event := going 0 10 ++ going 1 10

theorem worksOnce_inTurn : Along step InOrder startTabs inTurn ∧
    Always step (fun c ↦ WorksOnce c.shared) startTabs inTurn := by
  let _ := asciiCase
  let _ := plainDigest
  let _ := plainPassword
  have hes : Along step InOrder startTabs inTurn := by
    decide +kernel
  exact ⟨hes, worksOnce_always owner link Table.empty Table.empty Table.empty 0 twoTabs inTurn hes⟩

end Tesbo.PasswordReset
