import Tesbo.Reasoning.Phases

/-!
# One procedure whose statements may fail, and what others do between them

The others are left to `others`, any of them may come at any time.  A statement that fails leaves the
state alone: a read ends the procedure, a write is answered by `refused`.
-/

namespace Tesbo.Reasoning

/-- The state, and what is left of the procedure. -/
structure Underway (σ : Type) {κ : Type} (Reply : κ → Type) (ε α : Type) where
  state : σ
  rest : Proc σ Reply ε α

/-- Others change the state, or the procedure comes to its next statement, which may fail. -/
inductive Happening (φ ε : Type) where
  | other (f : φ)
  | next (failure : Option ε)

namespace Proc

variable {σ κ ε α β t : Type} {Reply : κ → Type}

def failed : Proc σ Reply ε α → Bool
  | done (.error _) => true
  | _ => false

/-- After a write answered as `goesOn` says of the phase it is made in, the procedure does not end
with an error before its next statement. -/
def Steady (turn : t → (w : κ) → Reply w → t) (goesOn : t → (w : κ) → Reply w → Prop) :
    t → Proc σ Reply ε α → Prop
  | _, done _ => True
  | p, read next => ∀ s, Steady turn goesOn p (next s)
  | p, write w next => ∀ r, (goesOn p w r → (next r).failed = false) ∧
      Steady turn goesOn (turn p w r) (next r)

section Steady

variable {turn : t → (w : κ) → Reply w → t} {goesOn : t → (w : κ) → Reply w → Prop} {p : t}

/-- What comes after a steady procedure is steady and does not fail at once. -/
theorem Steady.seq {q : Proc σ Reply ε α} {f : α → Proc σ Reply ε β}
    (hq : Steady turn goesOn p q) (hf : ∀ a p', Steady turn goesOn p' (f a))
    (hnot : ∀ a, (f a).failed = false) : Steady turn goesOn p (q >>= f) := by
  induction q generalizing p with
  | done outcome =>
      cases outcome with
      | ok a => exact hf a p
      | error e => exact trivial
  | read next ih => exact fun s ↦ ih s (hq s)
  | write w next ih =>
      intro r
      obtain ⟨hgoes, hrest⟩ := hq r
      refine ⟨fun hr ↦ ?_, ih r hrest⟩
      have hnext := hgoes hr
      show (Proc.bind (next r) f).failed = false
      cases hr' : next r with
      | done outcome =>
          rw [hr'] at hnext
          cases outcome with
          | ok a => exact hnot a
          | error e => cases hnext
      | read next' => rfl
      | write w' next' => rfl

/-- What comes after a procedure whose writes leave the phase, and may be followed by an error. -/
theorem Asks.steady_seq {R : σ → σ → Prop} {L : σ → κ → Prop} {P : α → σ → Prop} {s : σ}
    (hrefl : ∀ a, R a a) {q : Proc σ Reply ε α} {f : α → Proc σ Reply ε β} (hq : Asks R L P s q)
    (hall : ∀ a b, R a b) (hL : ∀ s w r, L s w → ¬ goesOn p w r ∧ turn p w r = p)
    (hf : ∀ a s, P a s → Steady turn goesOn p (f a)) : Steady turn goesOn p (q >>= f) := by
  induction q generalizing s with
  | done outcome =>
      cases outcome with
      | ok a => exact hf a s (asks_done_iff.mp hq s (hrefl s))
      | error e => exact trivial
  | read next ih => exact fun s' ↦ ih s' (asks_read_iff.mp hq s' (hall s s'))
  | write w next ih =>
      obtain ⟨hw, hnext⟩ := asks_write_iff.mp hq
      intro r
      obtain ⟨hnot, hphase⟩ := hL s w r (hw s (hrefl s))
      refine ⟨fun hgoes ↦ absurd hgoes hnot, ?_⟩
      rw [hphase]
      exact ih r (hnext r s (hrefl s))

theorem steady_check_seq {g : σ → Except ε α} {f : α → Proc σ Reply ε β}
    (hf : ∀ s a, g s = .ok a → Steady turn goesOn p (f a)) :
    Steady turn goesOn p (check g >>= f) := by
  intro s
  show Steady turn goesOn p (Proc.bind (done (g s)) f)
  cases hg : g s with
  | ok a => exact hf s a hg
  | error e => exact trivial

theorem steady_query_seq {g : σ → α} {f : α → Proc σ Reply ε β}
    (hf : ∀ s, Steady turn goesOn p (f (g s))) : Steady turn goesOn p (query g >>= f) := hf

end Steady

end Proc

namespace Underway

open Proc

variable {σ κ ε α φ t : Type} {Reply : κ → Type} (others : φ → σ → σ)
  (perform : (w : κ) → σ → Reply w × σ) (refused : (w : κ) → ε → Reply w)

/-- What a write is answered, and the state it leaves. -/
def answer (w : κ) (s : σ) : Option ε → Reply w × σ
  | none => perform w s
  | some e => (refused w e, s)

def step (c : Underway σ Reply ε α) : Happening φ ε → Underway σ Reply ε α
  | .other f => { c with state := others f c.state }
  | .next failure =>
      match c.rest with
      | .done _ => c
      | .read next =>
          match failure with
          | none => { c with rest := next c.state }
          | some e => { c with rest := .done (.error e) }
      | .write w next =>
          let answered := answer perform refused w c.state failure
          ⟨answered.2, next answered.1⟩

/-- The condition of a step: a read may fail or refuse where the state is `clean`, a write is carried
out, or fails, as `Allowed` says. -/
def Meets (clean : σ → Prop) (Allowed : (w : κ) → Option ε → σ → Prop)
    (c : Underway σ Reply ε α) : Happening φ ε → Prop
  | .other _ => True
  | .next failure =>
      match c.rest with
      | .done _ => True
      | .read next => failure.isSome = true ∨ (next c.state).failed = true → clean c.state
      | .write w _ => Allowed w failure c.state

instance {clean : σ → Prop} {Allowed : (w : κ) → Option ε → σ → Prop} [DecidablePred clean]
    [∀ w failure s, Decidable (Allowed w failure s)] :
    ∀ (c : Underway σ Reply ε α) (happening : Happening φ ε),
      Decidable (c.Meets clean Allowed happening)
  | _, .other _ => instDecidableTrue
  | ⟨_, .done _⟩, .next _ => instDecidableTrue
  | ⟨s, .read next⟩, .next failure =>
      inferInstanceAs
        (Decidable (failure.isSome = true ∨ (next s).failed = true → clean s))
  | ⟨s, .write w _⟩, .next failure => inferInstanceAs (Decidable (Allowed w failure s))

section Rules

variable {others perform refused} {turn : t → (w : κ) → Reply w → t}
  {goesOn : t → (w : κ) → Reply w → Prop} {Q : α → t → Prop} {I : t → σ → Prop} {clean : σ → Prop}
  {Allowed : (w : κ) → Option ε → σ → Prop} {c : Underway σ Reply ε α}

/-- The procedure is in a phase of the state, goes on from there as it should, and has failed in a
clean state only. -/
structure Orderly (turn : t → (w : κ) → Reply w → t) (goesOn : t → (w : κ) → Reply w → Prop)
    (Q : α → t → Prop) (I : t → σ → Prop) (clean : σ → Prop) (c : Underway σ Reply ε α) :
    Prop where
  phase : ∃ p, I p c.state ∧ Steady turn goesOn p c.rest ∧
    Follows turn (fun _ _ ↦ True) (fun _ _ _ ↦ True) (fun a p _ ↦ Q a p) p c.state c.rest
  failed : c.rest.failed = true → clean c.state

/-- What the procedure answers holds of the phase it ends in. -/
theorem Orderly.of_done {a : α} (h : Orderly turn goesOn Q I clean c) (hc : c.rest = .done (.ok a)) :
    ∃ p, I p c.state ∧ Q a p := by
  obtain ⟨p, hp, _, hfollows⟩ := h.phase
  rw [hc] at hfollows
  exact ⟨p, hp, follows_done_iff.mp hfollows c.state trivial⟩

theorem Orderly.of_failed {e : ε} (h : Orderly turn goesOn Q I clean c)
    (hc : c.rest = .done (.error e)) : clean c.state := by
  apply h.failed
  rw [hc]
  rfl

/-- The step lemma: others keep the phase and what is clean; a write moves the phase, and goes on or
leaves a clean state. -/
theorem Orderly.step (hothers : ∀ f p s, I p s → I p (others f s))
    (hclean : ∀ f s, clean s → clean (others f s))
    (hwrite : ∀ w failure p s, I p s → Allowed w failure s →
      I (turn p w (answer perform refused w s failure).1) (answer perform refused w s failure).2 ∧
        (goesOn p w (answer perform refused w s failure).1 ∨
          clean (answer perform refused w s failure).2))
    (h : Orderly turn goesOn Q I clean c) {happening : Happening φ ε}
    (hmeets : c.Meets clean Allowed happening) :
    Orderly turn goesOn Q I clean (c.step others perform refused happening) := by
  obtain ⟨⟨p, hp, hsteady, hfollows⟩, hfailed⟩ := h
  have htrans : ∀ a b c : σ, True → True → True := fun _ _ _ _ _ ↦ trivial
  cases happening with
  | other f =>
      exact ⟨⟨p, hothers f p c.state hp, hsteady, hfollows.later htrans trivial⟩,
        fun h ↦ hclean f _ (hfailed h)⟩
  | next failure =>
      obtain ⟨s, rest⟩ := c
      cases rest with
      | done outcome => exact ⟨⟨p, hp, hsteady, hfollows⟩, hfailed⟩
      | read next =>
          have hnext := follows_read_iff.mp hfollows
          cases failure with
          | none => exact ⟨⟨p, hp, hsteady s, hnext s trivial⟩, fun h ↦ hmeets (.inr h)⟩
          | some e => exact ⟨⟨p, hp, trivial, follows_fail⟩, fun _ ↦ hmeets (.inl rfl)⟩
      | write w next =>
          obtain ⟨hI, hafter⟩ := hwrite w failure p s hp hmeets
          obtain ⟨hgoes, hsteady'⟩ := hsteady (answer perform refused w s failure).1
          have hnext := (follows_write_iff.mp hfollows).2
          refine ⟨⟨_, hI, hsteady', hnext _ _ trivial⟩, fun hfail ↦ ?_⟩
          rcases hafter with hgoes' | hclean'
          · have hnot := hgoes hgoes'
            exact absurd (hfail.symm.trans hnot) (by decide)
          · exact hclean'

/-- The run lemma. -/
theorem Orderly.always (hothers : ∀ f p s, I p s → I p (others f s))
    (hclean : ∀ f s, clean s → clean (others f s))
    (hwrite : ∀ w failure p s, I p s → Allowed w failure s →
      I (turn p w (answer perform refused w s failure).1) (answer perform refused w s failure).2 ∧
        (goesOn p w (answer perform refused w s failure).1 ∨
          clean (answer perform refused w s failure).2))
    (h : Orderly turn goesOn Q I clean c) {happenings : List (Happening φ ε)}
    (hmeets : Along (Underway.step others perform refused) (Meets clean Allowed) c happenings) :
    Always (Underway.step others perform refused) (Orderly turn goesOn Q I clean) c happenings := by
  have hstep : ∀ (c : Underway σ Reply ε α) (happening : Happening φ ε),
      Orderly turn goesOn Q I clean c → c.Meets clean Allowed happening →
        Orderly turn goesOn Q I clean (c.step others perform refused happening) ∧ True :=
    fun c happening h hm ↦ ⟨h.step hothers hclean hwrite hm, trivial⟩
  exact (Along.invariant hstep h hmeets).1

end Rules

end Underway

end Tesbo.Reasoning
