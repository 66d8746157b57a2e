import Mathlib.Tactic

/-!
# Runs: properties of every step and of every state of a run

A run feeds a list of events to a total step function.  `Along` says something of every step
(the state before it and its event), `Always` of every state.  The rules below turn a fact about
one step into a fact about a whole run.  The second half is the same for several sequential
procedures that share one state and are interleaved at their atomic steps.
-/

namespace Tesbo.Reasoning

variable {σ ε : Type*} {step : σ → ε → σ}

/-- `P` holds at every step of the run from `s`, of the state before the step and its event. -/
def Along (step : σ → ε → σ) (P : σ → ε → Prop) : σ → List ε → Prop
  | _, [] => True
  | s, e :: es => P s e ∧ Along step P (step s e) es

/-- `I` holds in every state of the run from `s`, the first and the last included. -/
def Always (step : σ → ε → σ) (I : σ → Prop) : σ → List ε → Prop
  | s, [] => I s
  | s, e :: es => I s ∧ Always step I (step s e) es

instance {P : σ → ε → Prop} [∀ s e, Decidable (P s e)] :
    ∀ s es, Decidable (Along step P s es)
  | _, [] => instDecidableTrue
  | s, e :: es =>
      have : Decidable (Along step P (step s e) es) := instDecidableAlong (step s e) es
      inferInstanceAs (Decidable (P s e ∧ Along step P (step s e) es))

instance {I : σ → Prop} [DecidablePred I] : ∀ s es, Decidable (Always step I s es)
  | s, [] => inferInstanceAs (Decidable (I s))
  | s, e :: es =>
      have : Decidable (Always step I (step s e) es) := instDecidableAlwaysOfDecidablePred (step s e) es
      inferInstanceAs (Decidable (I s ∧ Always step I (step s e) es))

theorem Always.head {I : σ → Prop} {s : σ} {es : List ε} (h : Always step I s es) : I s := by
  cases es with
  | nil => exact h
  | cons e es => exact h.1

/-- A property of every state is a property of the first state and of the state after each step. -/
theorem always_iff_along {I : σ → Prop} {s : σ} {es : List ε} :
    Always step I s es ↔ I s ∧ Along step (fun s e ↦ I (step s e)) s es := by
  induction es generalizing s with
  | nil => simp only [Always, Along, and_true]
  | cons e es ih =>
      simp only [Always, Along]
      rw [ih]

theorem along_true (s : σ) (es : List ε) : Along step (fun _ _ ↦ True) s es := by
  induction es generalizing s with
  | nil => exact True.intro
  | cons e es ih => exact ⟨True.intro, ih (step s e)⟩

theorem Along.mono {P Q : σ → ε → Prop} (h : ∀ s e, P s e → Q s e) {s : σ} {es : List ε}
    (hp : Along step P s es) : Along step Q s es := by
  induction es generalizing s with
  | nil => trivial
  | cons e es ih => exact ⟨h s e hp.1, ih hp.2⟩

theorem Always.mono {I J : σ → Prop} (h : ∀ s, I s → J s) {s : σ} {es : List ε}
    (hi : Always step I s es) : Always step J s es := by
  induction es generalizing s with
  | nil => exact h s hi
  | cons e es ih => exact ⟨h s hi.1, ih hi.2⟩

/-- The invariant rule: what holds at first and is kept by every step the run takes under its
condition holds always, and at each step it may be used. -/
theorem Along.invariant {P Q : σ → ε → Prop} {I : σ → Prop}
    (hstep : ∀ s e, I s → P s e → I (step s e) ∧ Q s e) {s : σ} {es : List ε} (hi : I s)
    (hp : Along step P s es) : Always step I s es ∧ Along step Q s es := by
  induction es generalizing s with
  | nil => exact ⟨hi, trivial⟩
  | cons e es ih =>
      obtain ⟨hnext, hq⟩ := hstep s e hi hp.1
      obtain ⟨hall, hrest⟩ := ih hnext hp.2
      exact ⟨⟨hi, hall⟩, hq, hrest⟩

/-- The exactness rule: where, in invariant states, the condition `P` is equivalent to the
property `Q` of the step, and a step with the property keeps the invariant, the conditions hold
all along a run exactly when the properties do. -/
theorem Along.congr_of_invariant {P Q : σ → ε → Prop} {I : σ → Prop}
    (heq : ∀ s e, I s → (P s e ↔ Q s e)) (hkeep : ∀ s e, I s → Q s e → I (step s e))
    {s : σ} {es : List ε} (hi : I s) : Along step P s es ↔ Along step Q s es := by
  induction es generalizing s with
  | nil => exact Iff.rfl
  | cons e es ih =>
      simp only [Along]
      constructor
      · rintro ⟨hp, hps⟩
        have hq := (heq s e hi).mp hp
        exact ⟨hq, (ih (hkeep s e hi hq)).mp hps⟩
      · rintro ⟨hq, hqs⟩
        exact ⟨(heq s e hi).mpr hq, (ih (hkeep s e hi hq)).mpr hqs⟩

/-! ## Procedures interleaved at their atomic steps -/

section Interleaving

variable {π ρ : Type*}

/-- A shared state and, for each call in flight, what is left of it. -/
structure Config (σ π : Type*) where
  shared : σ
  pc : ℕ → Option π

/-- A call is entered under a number, or the call of that number takes its next atomic step. -/
inductive Move (ρ : Type*) where
  | enter (k : ℕ) (request : ρ)
  | advance (k : ℕ)

/-- One move of the interleaving.  `exec k` is one atomic step of the call numbered `k`: the shared
state it leaves, and what is left of the call, `none` when it has ended.  A number in use cannot be
entered under. -/
def Config.move (enter : ρ → π) (exec : ℕ → σ → π → σ × Option π) (c : Config σ π) :
    Move ρ → Config σ π
  | .enter k request =>
      if (c.pc k).isSome then c
      else { c with pc := Function.update c.pc k (some (enter request)) }
  | .advance k =>
      match c.pc k with
      | none => c
      | some p => ⟨(exec k c.shared p).1, Function.update c.pc k (exec k c.shared p).2⟩

variable {enter : ρ → π} {exec : ℕ → σ → π → σ × Option π}

/-- The condition of a move, given by a condition `P` on the atomic step it takes. -/
def AtStep (P : σ → π → Prop) (c : Config σ π) : Move ρ → Prop
  | .enter _ _ => True
  | .advance k => ∀ p ∈ c.pc k, P c.shared p

instance {P : σ → π → Prop} [∀ s p, Decidable (P s p)] (c : Config σ π) :
    ∀ m : Move ρ, Decidable (AtStep P c m)
  | .enter _ _ => instDecidableTrue
  | .advance k => inferInstanceAs (Decidable (∀ p ∈ c.pc k, P c.shared p))

/-- An invariant of the shared state together with one of every call in flight. -/
def Config.Inv (I : σ → Prop) (J : ℕ → σ → π → Prop) (c : Config σ π) : Prop :=
  I c.shared ∧ ∀ k p, c.pc k = some p → J k c.shared p

/-- No call in flight. -/
def Config.idle (s : σ) : Config σ π := ⟨s, fun _ ↦ none⟩

theorem Config.Inv.idle {I : σ → Prop} {J : ℕ → σ → π → Prop} {s : σ} (h : I s) :
    (Config.idle s : Config σ π).Inv I J := ⟨h, fun _ _ hp ↦ by cases hp⟩

/-- The invariant of an interleaving is kept by a move when a new call satisfies its part, an
atomic step keeps the shared part and its own, and no atomic step disturbs the part of another
call in flight. -/
theorem Config.Inv.move {I : σ → Prop} {J : ℕ → σ → π → Prop} {P : σ → π → Prop}
    (henter : ∀ k s r, I s → J k s (enter r))
    (hexec : ∀ k s p, I s → J k s p → P s p →
      I (exec k s p).1 ∧ ∀ p', (exec k s p).2 = some p' → J k (exec k s p).1 p')
    (hother : ∀ k j s p q, j ≠ k → I s → J k s p → P s p → J j s q → J j (exec k s p).1 q)
    {c : Config σ π} {m : Move ρ} (hc : c.Inv I J) (hm : AtStep P c m) :
    (c.move enter exec m).Inv I J := by
  obtain ⟨hI, hJ⟩ := hc
  cases m with
  | enter k r =>
      unfold Config.move
      dsimp only
      split
      · exact ⟨hI, hJ⟩
      · refine ⟨hI, fun j p hj ↦ ?_⟩
        by_cases hjk : j = k
        · subst hjk
          have hp : enter r = p := by simpa only [Function.update_self, Option.some.injEq] using hj
          exact hp ▸ henter _ _ r hI
        · simp only [Function.update_of_ne hjk] at hj
          exact hJ j p hj
  | advance k =>
      cases hk : c.pc k with
      | none =>
          have hstay : c.move enter exec (.advance k) = c := by simp only [Config.move, hk]
          rw [hstay]
          exact ⟨hI, hJ⟩
      | some p =>
          have hstep : c.move enter exec (.advance k) =
              ⟨(exec k c.shared p).1, Function.update c.pc k (exec k c.shared p).2⟩ := by
            simp only [Config.move, hk]
          rw [hstep]
          have hp := hm p hk
          obtain ⟨hI', hown⟩ := hexec k _ p hI (hJ k p hk) hp
          refine ⟨hI', fun j q hj ↦ ?_⟩
          by_cases hjk : j = k
          · subst hjk
            simp only [Function.update_self] at hj
            exact hown q hj
          · simp only [Function.update_of_ne hjk] at hj
            exact hother k j _ p q hjk hI (hJ k p hk) hp (hJ j q hj)

/-- The same where the calls in flight need no part of their own. -/
theorem Config.shared_move {I : σ → Prop} {P : σ → π → Prop}
    (hexec : ∀ k s p, I s → P s p → I (exec k s p).1) {c : Config σ π} {m : Move ρ}
    (hc : I c.shared) (hm : AtStep P c m) : I (c.move enter exec m).shared := by
  have hinv : c.Inv I fun _ _ _ ↦ True := ⟨hc, fun _ _ _ ↦ trivial⟩
  exact (hinv.move (fun _ _ _ _ ↦ trivial)
    (fun k s p hI _ hP ↦ ⟨hexec k s p hI hP, fun _ _ ↦ trivial⟩)
    (fun _ _ _ _ _ _ _ _ _ _ ↦ trivial) hm).1

end Interleaving

end Tesbo.Reasoning
