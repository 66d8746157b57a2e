import Tesbo.Reasoning.Phases

/-!
# Any number of calls, some of which wait

The calls are all there from the start; one that has not come yet has taken no step.  A statement that
waits, for a lock or for another one to end, is not carried out: the call is where it was.
-/

namespace Tesbo.Reasoning.Proc

variable {σ κ ε α φ : Type} {Reply : κ → Type}

/-- The call asks for a write that has to wait. -/
def waiting (waits : σ → κ → Bool) (c : Config σ (Proc σ Reply ε α)) (k : ℕ) : Bool :=
  (moving c (.advance k : Move Empty)).any (waits c.shared)

/-- The next statement of a call, unless it has to wait. -/
def proceed (perform : (w : κ) → Service ε σ (Reply w)) (waits : σ → κ → Bool)
    (c : Config σ (Proc σ Reply ε α)) (k : ℕ) : Config σ (Proc σ Reply ε α) :=
  if waiting waits c k then c
  else c.move (fun none : Empty ↦ none.elim) (fun _ ↦ Proc.exec perform) (.advance k)

/-- The condition of a step, given by a condition on the write that is carried out. -/
def AtProceed (waits : σ → κ → Bool) (P : ℕ → σ → κ → Prop) (c : Config σ (Proc σ Reply ε α))
    (k : ℕ) : Prop :=
  waiting waits c k = false → ∀ w, moving c (.advance k : Move Empty) = some w → P k c.shared w

instance {waits : σ → κ → Bool} {P : ℕ → σ → κ → Prop} [∀ k s w, Decidable (P k s w)]
    (c : Config σ (Proc σ Reply ε α)) (k : ℕ) : Decidable (AtProceed waits P c k) :=
  match h : moving c (.advance k : Move Empty) with
  | none => isTrue fun _ w hw ↦ by
      rw [h] at hw
      cases hw
  | some w => decidable_of_iff (waiting waits c k = false → P k c.shared w) (by
      constructor
      · intro hp hwaiting w' hw
        rw [h] at hw
        obtain rfl := Option.some.inj hw
        exact hp hwaiting
      · exact fun hp hwaiting ↦ hp hwaiting w h)

section Rules

variable {perform : (w : κ) → Service ε σ (Reply w)} {waits : σ → κ → Bool}
  {turn : φ → (w : κ) → Reply w → φ} {I I' : σ → (ℕ → φ) → Prop} {L : φ → κ → Prop}
  {Z : φ → Prop} {P : ℕ → σ → κ → Prop} {c : Config σ (Proc σ Reply ε α)} {k : ℕ}

theorem not_waits (hwaiting : waiting waits c k = false) {w : κ}
    (hw : moving c (.advance k : Move Empty) = some w) : waits c.shared w = false := by
  unfold waiting at hwaiting
  rw [hw] at hwaiting
  exact hwaiting

theorem atProceed_true : AtProceed waits (fun _ _ _ ↦ True) c k := fun _ _ _ ↦ trivial

/-- A step leaves the shared state alone, or carries out a write that has not to wait. -/
theorem proceed_cases (perform : (w : κ) → Service ε σ (Reply w)) (waits : σ → κ → Bool)
    (c : Config σ (Proc σ Reply ε α)) (k : ℕ) :
    (proceed perform waits c k).shared = c.shared ∨
      ∃ w, waiting waits c k = false ∧ moving c (.advance k : Move Empty) = some w ∧
        waits c.shared w = false ∧
        proceed perform waits c k =
          c.move (fun none : Empty ↦ none.elim) (fun _ ↦ Proc.exec perform) (.advance k) ∧
        (proceed perform waits c k).shared = Service.after (perform w) c.shared := by
  unfold proceed
  cases hwaiting : waiting waits c k with
  | true => exact .inl rfl
  | false =>
      rw [if_neg Bool.false_ne_true]
      rcases @move_cases _ _ _ _ _ perform Empty (fun none ↦ none.elim) c (.advance k) with
        ⟨-, hsame⟩ | ⟨w, hw, hafter⟩
      · exact .inl hsame
      · exact .inr ⟨w, rfl, hw, not_waits hwaiting hw, rfl, hafter⟩

/-- The invariant rule: each write that has not to wait is answered, and keeps the invariant where it
meets its condition. -/
theorem Concluding.step
    (hperform : ∀ s phase k w, I s phase → L (phase k) w → waits s w = false → P k s w →
      Service.wp (perform w) (fun r s' ↦ I s' (Function.update phase k (turn (phase k) w r)))
        (fun _ _ ↦ False) s)
    (hc : Concluding turn I L Z c) (hm : AtProceed waits P c k) :
    Concluding turn I L Z (proceed perform waits c k) := by
  unfold proceed
  cases hwaiting : waiting waits c k with
  | true => exact hc
  | false =>
      rw [if_neg Bool.false_ne_true]
      cases hw : moving c (.advance k : Move Empty) with
      | some w =>
          apply hc.advance_write hw
          intro phase hI hlegal
          exact hperform _ _ _ _ hI hlegal (not_waits hwaiting hw) (hm hwaiting w hw)
      | none =>
          -- nothing is written: no condition is needed
          apply Concluding.advance (P := fun _ _ ↦ False) (fun _ _ _ _ _ _ hno ↦ hno.elim) hc
          intro w hw'
          rw [hw] at hw'
          cases hw'

/-- The run rule. -/
theorem Concluding.always
    (hperform : ∀ s phase k w, I s phase → L (phase k) w → waits s w = false → P k s w →
      Service.wp (perform w) (fun r s' ↦ I s' (Function.update phase k (turn (phase k) w r)))
        (fun _ _ ↦ False) s)
    (hc : Concluding turn I L Z c) {ks : List ℕ}
    (hks : Along (proceed perform waits) (AtProceed waits P) c ks) :
    Always (proceed perform waits) (fun c ↦ Concluding turn I L Z c) c ks := by
  have hstep : ∀ (c : Config σ (Proc σ Reply ε α)) k, Concluding turn I L Z c →
      AtProceed waits P c k → Concluding turn I L Z (proceed perform waits c k) ∧ True :=
    fun c k hc hm ↦ ⟨hc.step hperform hm, trivial⟩
  exact (Along.invariant hstep hc hks).1

end Rules

end Tesbo.Reasoning.Proc
