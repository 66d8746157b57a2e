import Tesbo.Reasoning.Runs
import Tesbo.Reasoning.Service

/-!
# Procedures that reach a shared state by single statements

A procedure reads the shared state, or asks for a write of some kind, and goes on with the answer.
Every read and every write is atomic; between them other procedures may come.  What a write does is
left to `perform`, so that a run can be judged by the writes that are pending in it.
-/

namespace Tesbo.Reasoning

/-- What is left of a procedure: its outcome, a read, or a write of kind `κ` with what follows. -/
inductive Proc (σ : Type) {κ : Type} (Reply : κ → Type) (ε α : Type) where
  | done (outcome : Except ε α)
  | read (next : σ → Proc σ Reply ε α)
  | write (w : κ) (next : Reply w → Proc σ Reply ε α)

namespace Proc

variable {σ κ ε α β : Type} {Reply : κ → Type}

def bind : Proc σ Reply ε α → (α → Proc σ Reply ε β) → Proc σ Reply ε β
  | done (.ok a), f => f a
  | done (.error e), _ => done (.error e)
  | read next, f => read fun s ↦ (next s).bind f
  | write w next, f => write w fun r ↦ (next r).bind f

instance : Monad (Proc σ Reply ε) where
  pure a := done (.ok a)
  bind := bind

def fail (e : ε) : Proc σ Reply ε α := done (.error e)

def ofExcept (r : Except ε α) : Proc σ Reply ε α := done r

def query (f : σ → α) : Proc σ Reply ε α := read fun s ↦ done (.ok (f s))

/-- A read that may refuse. -/
def check (f : σ → Except ε α) : Proc σ Reply ε α := read fun s ↦ done (f s)

def require (p : Prop) [Decidable p] (e : ε) : Proc σ Reply ε Unit :=
  if p then done (.ok ()) else done (.error e)

def issue (w : κ) : Proc σ Reply ε (Reply w) := write w fun r ↦ done (.ok r)

/-- `try … catch`: an error is an answer. -/
def attempt : Proc σ Reply ε α → Proc σ Reply ε (Except ε α)
  | done outcome => done (.ok outcome)
  | read next => read fun s ↦ (next s).attempt
  | write w next => write w fun r ↦ (next r).attempt

/-- A procedure whose writes are among those of a larger kind. -/
def lift {κ' : Type} {Reply' : κ' → Type} (f : κ → κ') (g : ∀ w, Reply' (f w) → Reply w) :
    Proc σ Reply ε α → Proc σ Reply' ε α
  | done outcome => done outcome
  | read next => read fun s ↦ (next s).lift f g
  | write w next => write (f w) fun r ↦ (next (g w r)).lift f g

/-- An error passes over what would have followed. -/
theorem attempt_bind (p : Proc σ Reply ε α) (f : α → Proc σ Reply ε β) :
    (p >>= f).attempt = p.attempt >>= fun r ↦
      match r with
      | .ok a => (f a).attempt
      | .error e => done (.ok (.error e)) := by
  induction p with
  | done outcome =>
      cases outcome with
      | ok a => rfl
      | error e => rfl
  | read next ih => exact congrArg read (funext ih)
  | write w next ih => exact congrArg (write w) (funext ih)

/-! ## The writes a procedure can come to

`Asks R L Q s p`: from the state `s`, where between the statements of `p` the state moves along `R`,
every write `p` asks for is one of `L` in the state it finds, and an answer of `p` satisfies `Q`. -/

def Asks (R : σ → σ → Prop) (L : σ → κ → Prop) (Q : α → σ → Prop) :
    σ → Proc σ Reply ε α → Prop
  | s, done (.ok a) => ∀ s', R s s' → Q a s'
  | _, done (.error _) => True
  | s, read next => ∀ s', R s s' → Asks R L Q s' (next s')
  | s, write w next => (∀ s', R s s' → L s' w) ∧ ∀ r s', R s s' → Asks R L Q s' (next r)

section Asks

variable {R : σ → σ → Prop} {L : σ → κ → Prop} {P : α → σ → Prop} {Q : β → σ → Prop} {s : σ}

/-- What others do before the next statement is allowed for. -/
theorem Asks.later (htrans : ∀ a b c, R a b → R b c → R a c) {p : Proc σ Reply ε β}
    (h : Asks R L Q s p) {s' : σ} (hs : R s s') : Asks R L Q s' p := by
  cases p with
  | done outcome =>
      cases outcome with
      | ok a => exact fun s₁ h₁ ↦ h s₁ (htrans s s' s₁ hs h₁)
      | error e => exact trivial
  | read next => exact fun s₁ h₁ ↦ h s₁ (htrans s s' s₁ hs h₁)
  | write w next =>
      exact ⟨fun s₁ h₁ ↦ h.1 s₁ (htrans s s' s₁ hs h₁),
        fun r s₁ h₁ ↦ h.2 r s₁ (htrans s s' s₁ hs h₁)⟩

theorem Asks.mono {Q' : β → σ → Prop} {p : Proc σ Reply ε β} (h : Asks R L Q s p)
    (hQ : ∀ a s, Q a s → Q' a s) : Asks R L Q' s p := by
  induction p generalizing s with
  | done outcome =>
      cases outcome with
      | ok a => exact fun s' hs ↦ hQ a s' (h s' hs)
      | error e => exact trivial
  | read next ih => exact fun s' hs ↦ ih s' (h s' hs)
  | write w next ih => exact ⟨h.1, fun r s' hs ↦ ih r (h.2 r s' hs)⟩

theorem asks_done_iff {a : β} :
    Asks R L Q s (done (.ok a) : Proc σ Reply ε β) ↔ ∀ s', R s s' → Q a s' := Iff.rfl

theorem asks_read_iff {next : σ → Proc σ Reply ε β} :
    Asks R L Q s (read next) ↔ ∀ s', R s s' → Asks R L Q s' (next s') := Iff.rfl

theorem asks_write_iff {w : κ} {next : Reply w → Proc σ Reply ε β} :
    Asks R L Q s (write w next) ↔
      (∀ s', R s s' → L s' w) ∧ ∀ r s', R s s' → Asks R L Q s' (next r) := Iff.rfl

theorem asks_pure {a : β} (h : ∀ s', R s s' → Q a s') :
    Asks R L Q s (pure a : Proc σ Reply ε β) := h

theorem asks_fail {e : ε} : Asks R L Q s (fail e : Proc σ Reply ε β) := trivial

/-- The procedure's own specification, then the rest. -/
theorem asks_seq (hrefl : ∀ a, R a a) (htrans : ∀ a b c, R a b → R b c → R a c)
    {p : Proc σ Reply ε α} {f : α → Proc σ Reply ε β} (hp : Asks R L P s p)
    (hf : ∀ a s', R s s' → P a s' → Asks R L Q s' (f a)) : Asks R L Q s (p >>= f) := by
  induction p generalizing s with
  | done outcome =>
      cases outcome with
      | ok a => exact hf a s (hrefl s) (hp s (hrefl s))
      | error e => exact trivial
  | read next ih =>
      exact fun s₁ h₁ ↦ ih s₁ (hp s₁ h₁) fun a s₂ h₂ ↦ hf a s₂ (htrans s s₁ s₂ h₁ h₂)
  | write w next ih =>
      exact ⟨hp.1, fun r s₁ h₁ ↦ ih r (hp.2 r s₁ h₁) fun a s₂ h₂ ↦ hf a s₂ (htrans s s₁ s₂ h₁ h₂)⟩

theorem asks_query_seq {g : σ → α} {f : α → Proc σ Reply ε β}
    (hf : ∀ s', R s s' → Asks R L Q s' (f (g s'))) : Asks R L Q s (query g >>= f) := hf

theorem asks_check_seq {g : σ → Except ε α} {f : α → Proc σ Reply ε β}
    (hf : ∀ s', R s s' → ∀ a, g s' = .ok a → Asks R L Q s' (f a)) :
    Asks R L Q s (check g >>= f) := by
  intro s' hs
  change Asks R L Q s' (Proc.bind (done (g s')) f)
  cases hg : g s' with
  | ok a => exact hf s' hs a hg
  | error e => exact trivial

theorem asks_query {g : σ → β} (h : ∀ s', R s s' → ∀ s'', R s' s'' → Q (g s') s'') :
    Asks R L Q s (query g : Proc σ Reply ε β) := h

theorem asks_check {g : σ → Except ε β}
    (h : ∀ s', R s s' → ∀ a, g s' = .ok a → ∀ s'', R s' s'' → Q a s'') :
    Asks R L Q s (check g : Proc σ Reply ε β) := by
  intro s' hs
  change Asks R L Q s' (done (g s'))
  cases hg : g s' with
  | ok a => exact h s' hs a hg
  | error e => exact trivial

theorem asks_ofExcept_seq {r : Except ε α} {f : α → Proc σ Reply ε β}
    (hf : ∀ a, r = .ok a → Asks R L Q s (f a)) : Asks R L Q s (ofExcept r >>= f) := by
  cases r with
  | ok a => exact hf a rfl
  | error e => exact trivial

theorem asks_require_seq {p : Prop} [Decidable p] {e : ε} {f : Unit → Proc σ Reply ε β}
    (hf : p → Asks R L Q s (f ())) : Asks R L Q s (require p e >>= f) := by
  unfold require
  by_cases hp : p
  · rw [if_pos hp]
    exact hf hp
  · rw [if_neg hp]
    exact trivial

theorem asks_require {p : Prop} [Decidable p] {e : ε} {Q : Unit → σ → Prop}
    (h : p → ∀ s', R s s' → Q () s') : Asks R L Q s (require p e : Proc σ Reply ε Unit) := by
  unfold require
  by_cases hp : p
  · rw [if_pos hp]
    exact h hp
  · rw [if_neg hp]
    exact trivial

theorem asks_write {w : κ} {next : Reply w → Proc σ Reply ε β} (hw : ∀ s', R s s' → L s' w)
    (hnext : ∀ r s', R s s' → Asks R L Q s' (next r)) : Asks R L Q s (write w next) := ⟨hw, hnext⟩

theorem asks_issue_seq {w : κ} {f : Reply w → Proc σ Reply ε β} (hw : ∀ s', R s s' → L s' w)
    (hf : ∀ r s', R s s' → Asks R L Q s' (f r)) : Asks R L Q s (issue w >>= f) := ⟨hw, hf⟩

theorem asks_issue (htrans : ∀ a b c, R a b → R b c → R a c) {w : κ} {Q : Reply w → σ → Prop}
    (hw : ∀ s', R s s' → L s' w) (hQ : ∀ r s', R s s' → Q r s') :
    Asks R L Q s (issue w : Proc σ Reply ε (Reply w)) :=
  ⟨hw, fun r s₁ h₁ s₂ h₂ ↦ hQ r s₂ (htrans s s₁ s₂ h₁ h₂)⟩

end Asks

/-! ## What may still be answered once a write of a kind has been made -/

/-- No run of the procedure ends in an error of the kind. -/
def Never (bad : ε → Prop) : Proc σ Reply ε α → Prop
  | done (.ok _) => True
  | done (.error e) => ¬ bad e
  | read next => ∀ s, Never bad (next s)
  | write _ next => ∀ r, Never bad (next r)

/-- After a write of `W` the procedure no longer ends in an error of the kind. -/
def Commits (W : κ → Prop) (bad : ε → Prop) : Proc σ Reply ε α → Prop
  | done _ => True
  | read next => ∀ s, Commits W bad (next s)
  | write w next => ∀ r, Commits W bad (next r) ∧ (W w → Never bad (next r))

theorem Never.seq {bad : ε → Prop} {p : Proc σ Reply ε α} {f : α → Proc σ Reply ε β}
    (hp : p.Never bad) (hf : ∀ a, (f a).Never bad) : (p >>= f).Never bad := by
  induction p with
  | done outcome =>
      cases outcome with
      | ok a => exact hf a
      | error e => exact hp
  | read next ih => exact fun s ↦ ih s (hp s)
  | write w next ih => exact fun r ↦ ih r (hp r)

section Commits

variable {W : κ → Prop} {bad : ε → Prop}

/-- A procedure that asks for no write of `W`, from any state. -/
def Spares (W : κ → Prop) (p : Proc σ Reply ε α) : Prop :=
  ∀ s, Asks (fun _ _ ↦ True) (fun _ w ↦ ¬ W w) (fun _ _ ↦ True) s p

theorem Spares.commits_seq [Nonempty σ] {p : Proc σ Reply ε α} {f : α → Proc σ Reply ε β} (hp : Spares W p)
    (hf : ∀ a, Commits W bad (f a)) : Commits W bad (p >>= f) := by
  induction p with
  | done outcome =>
      cases outcome with
      | ok a => exact hf a
      | error e => exact trivial
  | read next ih =>
      intro s
      exact ih s fun s' ↦ (hp s s trivial).later (fun _ _ _ _ _ ↦ trivial) trivial
  | write w next ih =>
      obtain ⟨s₀⟩ := ‹Nonempty σ›
      exact fun r ↦ ⟨ih r fun s ↦ (hp s).2 r s trivial,
        fun hw ↦ absurd hw ((hp s₀).1 s₀ trivial)⟩

theorem Commits.seq {p : Proc σ Reply ε α} {f : α → Proc σ Reply ε β} (hp : Commits W bad p)
    (hf : ∀ a, Commits W bad (f a) ∧ (f a).Never bad) : Commits W bad (p >>= f) := by
  induction p with
  | done outcome =>
      cases outcome with
      | ok a => exact (hf a).1
      | error e => exact trivial
  | read next ih => exact fun s ↦ ih s (hp s)
  | write w next ih => exact fun r ↦ ⟨ih r (hp r).1, fun hw ↦ ((hp r).2 hw).seq fun a ↦ (hf a).2⟩

theorem commits_query_seq {g : σ → α} {f : α → Proc σ Reply ε β}
    (hf : ∀ a, Commits W bad (f a)) : Commits W bad (query g >>= f) := fun s ↦ hf (g s)

theorem commits_ofExcept_seq {r : Except ε α} {f : α → Proc σ Reply ε β}
    (hf : ∀ a, r = .ok a → Commits W bad (f a)) : Commits W bad (ofExcept r >>= f) := by
  cases r with
  | ok a => exact hf a rfl
  | error e => exact trivial

theorem commits_issue {w : κ} : Commits W bad (issue w : Proc σ Reply ε (Reply w)) :=
  fun _ ↦ ⟨trivial, fun _ ↦ trivial⟩

end Commits

/-! ## Execution -/

variable (perform : (w : κ) → Service ε σ (Reply w))

/-- One atomic step: the state it leaves, and what is left of the procedure. -/
def exec (s : σ) : Proc σ Reply ε α → σ × Option (Proc σ Reply ε α)
  | done _ => (s, none)
  | read next => (s, some (next s))
  | write w next =>
      match perform w s with
      | (.ok r, s') => (s', some (next r))
      | (.error _, s') => (s', none)

/-- The procedure with nothing between its statements. -/
def run : Proc σ Reply ε α → Service ε σ α
  | done outcome => Service.ofExcept outcome
  | read next => Service.query id >>= fun s ↦ (next s).run
  | write w next => perform w >>= fun r ↦ (next r).run

/-- The write the procedure asks for next, when it asks for one. -/
def pending : Proc σ Reply ε α → Option κ
  | done _ | read _ => none
  | write w _ => some w

/-- Uninterrupted, a procedure is a sequential computation. -/
theorem run_bind (p : Proc σ Reply ε α) (f : α → Proc σ Reply ε β) (s : σ) :
    (p >>= f).run perform s = (p.run perform >>= fun a ↦ (f a).run perform) s := by
  induction p generalizing s with
  | done outcome =>
      cases outcome with
      | ok a => rfl
      | error e => rfl
  | read next ih => exact ih s s
  | write w next ih =>
      change (perform w >>= fun r ↦ (next r >>= f).run perform) s =
        ((perform w >>= fun r ↦ (next r).run perform) >>= fun a ↦ (f a).run perform) s
      rw [Service.bind_apply, Service.bind_apply, Service.bind_apply]
      rcases perform w s with ⟨_ | r, s'⟩
      · rfl
      · exact ih r s'

theorem run_check (f : σ → Except ε α) (s : σ) :
    (check f : Proc σ Reply ε α).run perform s = (f s, s) := rfl

theorem run_issue (w : κ) (s : σ) :
    (issue w : Proc σ Reply ε (Reply w)).run perform s = perform w s := by
  change (perform w >>= fun r ↦ (done (.ok r)).run perform) s = _
  rw [Service.bind_apply]
  rcases perform w s with ⟨_ | r, s'⟩
  · rfl
  · rfl

section Sequential

open Service

variable {perform : (w : κ) → Service ε σ (Reply w)} {Q : β → σ → Prop} {E : ε → σ → Prop} {s : σ}

/-- A part's own specification, then the rest. -/
theorem wp_run_seq {p : Proc σ Reply ε α} {f : α → Proc σ Reply ε β} {P : α → σ → Prop}
    (hp : wp (p.run perform) P E s) (hf : ∀ a s', P a s' → wp ((f a).run perform) Q E s') :
    wp ((p >>= f).run perform) Q E s := by
  rw [wp_congr (run_bind perform p f s)]
  exact wp_seq hp hf

theorem wp_run_ofExcept_seq {r : Except ε α} {f : α → Proc σ Reply ε β} (hE : ∀ e, E e s)
    (hf : ∀ a, r = .ok a → wp ((f a).run perform) Q E s) :
    wp ((ofExcept r >>= f).run perform) Q E s := by
  rw [wp_congr (run_bind perform (ofExcept r) f s)]
  exact wp_ofExcept_seq hE hf

theorem wp_run_require_seq {c : Prop} [Decidable c] {e : ε} {f : Unit → Proc σ Reply ε β}
    (hE : E e s) (hf : c → wp ((f ()).run perform) Q E s) :
    wp ((require c e >>= f).run perform) Q E s := by
  unfold require
  by_cases hc : c
  · rw [if_pos hc]
    exact hf hc
  · rw [if_neg hc]
    exact (wp_fail e).mpr hE

theorem wp_run_require {c : Prop} [Decidable c] {e : ε} {Q : Unit → σ → Prop} (hE : ¬ c → E e s)
    (hQ : c → Q () s) : wp ((require c e : Proc σ Reply ε Unit).run perform) Q E s := by
  unfold require
  by_cases hc : c
  · rw [if_pos hc]
    exact (wp_pure ()).mpr (hQ hc)
  · rw [if_neg hc]
    exact (wp_fail e).mpr (hE hc)

theorem wp_run_query_seq {g : σ → α} {f : α → Proc σ Reply ε β}
    (hf : wp ((f (g s)).run perform) Q E s) : wp ((query g >>= f).run perform) Q E s := by
  rw [wp_congr (run_bind perform (query g) f s)]
  exact wp_query_seq hf

theorem wp_run_check_seq {g : σ → Except ε α} {f : α → Proc σ Reply ε β} (hE : ∀ e, E e s)
    (hf : ∀ a, g s = .ok a → wp ((f a).run perform) Q E s) :
    wp ((check g >>= f).run perform) Q E s := by
  rw [wp_congr (run_bind perform (check g) f s)]
  exact wp_check_seq hE hf

/-- What is caught is an answer, where the statements themselves are all answered. -/
theorem wp_run_attempt_seq {p : Proc σ Reply ε α} {f : Except ε α → Proc σ Reply ε β}
    {P : α → σ → Prop} {E' : ε → σ → Prop}
    (htotal : ∀ w s, wp (perform w) (fun _ _ ↦ True) (fun _ _ ↦ False) s)
    (hp : wp (p.run perform) P E' s)
    (hok : ∀ a s', P a s' → wp ((f (.ok a)).run perform) Q E s')
    (herror : ∀ e s', E' e s' → wp ((f (.error e)).run perform) Q E s') :
    wp ((p.attempt >>= f).run perform) Q E s := by
  rw [wp_congr (run_bind perform p.attempt f s)]
  induction p generalizing s with
  | done outcome =>
      cases outcome with
      | ok a => exact hok a s (((wp_ofExcept _).mp hp).1 a rfl)
      | error e => exact herror e s (((wp_ofExcept _).mp hp).2 e rfl)
  | read next ih =>
      have hnext : wp ((next s).run perform) P E' s := (wp_query _).mp ((wp_bind _ _).mp hp)
      show wp ((Service.query id >>= fun s ↦ (next s).attempt.run perform) >>=
        fun a ↦ (f a).run perform) Q E s
      rw [wp_bind, wp_bind, wp_query]
      exact (wp_bind _ _).mp (ih s hnext)
  | write w next ih =>
      have hw : wp (perform w) (fun r s' ↦ wp ((next r).run perform) P E' s') E' s :=
        (wp_bind _ _).mp hp
      show wp ((perform w >>= fun r ↦ (next r).attempt.run perform) >>=
        fun a ↦ (f a).run perform) Q E s
      rw [wp_bind, wp_bind]
      apply wp_mono (wp_and hw (htotal w s))
      · rintro r s' ⟨hnext, -⟩
        exact (wp_bind _ _).mp (ih r hnext)
      · rintro e s' ⟨-, hno⟩
        exact hno.elim

theorem wp_run_issue {w : κ} {Q : Reply w → σ → Prop} (hw : wp (perform w) Q E s) :
    wp ((issue w : Proc σ Reply ε (Reply w)).run perform) Q E s :=
  (wp_congr (run_issue perform w s)).mpr hw

end Sequential

/-- A step leaves the state alone, or as the pending write leaves it. -/
theorem exec_cases (s : σ) (p : Proc σ Reply ε α) :
    (p.pending = none ∧ (p.exec perform s).1 = s) ∨
      ∃ w, p.pending = some w ∧ (p.exec perform s).1 = Service.after (perform w) s := by
  cases p with
  | done outcome => exact .inl ⟨rfl, rfl⟩
  | read next => exact .inl ⟨rfl, rfl⟩
  | write w next =>
      refine .inr ⟨w, rfl, ?_⟩
      simp only [exec, Service.after]
      rcases perform w s with ⟨_ | _, _⟩
      · rfl
      · rfl

variable {perform}

section Step

variable {R : σ → σ → Prop} {L : σ → κ → Prop} {Q : α → σ → Prop} {s : σ} {p : Proc σ Reply ε α}

theorem Asks.pending (h : Asks R L Q s p) (hs : R s s) {w : κ} (hw : p.pending = some w) :
    L s w := by
  cases p with
  | done outcome => cases hw
  | read next => cases hw
  | write w' next =>
      obtain rfl := Option.some.inj hw
      exact h.1 s hs

/-- What is left after a step asks for no write the procedure could not have asked for. -/
theorem Asks.exec (h : Asks R L Q s p) (hs : R s (p.exec perform s).1) {p' : Proc σ Reply ε α}
    (hp' : (p.exec perform s).2 = some p') : Asks R L Q (p.exec perform s).1 p' := by
  cases p with
  | done outcome => cases hp'
  | read next =>
      obtain rfl := Option.some.inj hp'
      exact h s hs
  | write w next =>
      simp only [Proc.exec] at hp' hs ⊢
      rcases hperform : perform w s with ⟨_ | r, s'⟩
      · rw [hperform] at hp'
        cases hp'
      · rw [hperform] at hp' hs
        obtain rfl := Option.some.inj hp'
        exact h.2 r s' hs

theorem Commits.exec {W : κ → Prop} {bad : ε → Prop} (h : Commits W bad p)
    {p' : Proc σ Reply ε α} (hp' : (p.exec perform s).2 = some p') : Commits W bad p' := by
  cases p with
  | done outcome => cases hp'
  | read next =>
      obtain rfl := Option.some.inj hp'
      exact h s
  | write w next =>
      simp only [Proc.exec] at hp'
      rcases hperform : perform w s with ⟨_ | r, s'⟩
      · rw [hperform] at hp'
        cases hp'
      · rw [hperform] at hp'
        obtain rfl := Option.some.inj hp'
        exact (h r).1

theorem Never.exec {bad : ε → Prop} (h : p.Never bad) {p' : Proc σ Reply ε α}
    (hp' : (p.exec perform s).2 = some p') : p'.Never bad := by
  cases p with
  | done outcome => cases hp'
  | read next =>
      obtain rfl := Option.some.inj hp'
      exact h s
  | write w next =>
      simp only [Proc.exec] at hp'
      rcases hperform : perform w s with ⟨_ | r, s'⟩
      · rw [hperform] at hp'
        cases hp'
      · rw [hperform] at hp'
        obtain rfl := Option.some.inj hp'
        exact h r

/-- A write that goes through leaves the rest of the procedure, and none of its errors. -/
theorem Commits.never {W : κ → Prop} {bad : ε → Prop} (h : Commits W bad p) {w : κ}
    (hw : p.pending = some w) (hW : W w) {r : Reply w} (hr : (perform w s).1 = .ok r) :
    ∃ p', (p.exec perform s).2 = some p' ∧ p'.Never bad := by
  cases p with
  | done outcome => cases hw
  | read next => cases hw
  | write w' next =>
      obtain rfl := Option.some.inj hw
      refine ⟨next r, ?_, (h r).2 hW⟩
      simp only [Proc.exec]
      rcases hperform : perform w' s with ⟨_ | r', s'⟩
      · rw [hperform] at hr
        cases hr
      · rw [hperform] at hr
        rw [Except.ok.inj hr]

end Step

/-! ## How long a procedure takes -/

/-- The procedure has ended after `n` steps, whatever it finds and is answered. -/
def Within : ℕ → Proc σ Reply ε α → Prop
  | 0, _ => False
  | _ + 1, done _ => True
  | n + 1, read next => ∀ s, Within n (next s)
  | n + 1, write _ next => ∀ r, Within n (next r)

theorem Within.exec {n : ℕ} {s : σ} {p p' : Proc σ Reply ε α} (h : Within (n + 1) p)
    (hp' : (p.exec perform s).2 = some p') : Within n p' := by
  cases p with
  | done outcome => cases hp'
  | read next =>
      obtain rfl := Option.some.inj hp'
      exact h s
  | write w next =>
      simp only [Proc.exec] at hp'
      rcases hperform : perform w s with ⟨_ | r, s'⟩
      · rw [hperform] at hp'
        cases hp'
      · rw [hperform] at hp'
        obtain rfl := Option.some.inj hp'
        exact h r

theorem Within.succ {n : ℕ} {p : Proc σ Reply ε α} (h : Within n p) : Within (n + 1) p := by
  induction n generalizing p with
  | zero => exact h.elim
  | succ n ih =>
      cases p with
      | done outcome => exact trivial
      | read next => exact fun s ↦ ih (h s)
      | write w next => exact fun r ↦ ih (h r)

theorem Within.mono {n m : ℕ} {p : Proc σ Reply ε α} (h : Within n p) (hnm : n ≤ m) :
    Within m p := by
  induction hnm with
  | refl => exact h
  | step _ ih => exact ih.succ

/-! ## Interleaving -/

section Interleaving

variable {ρ : Type} {enter : ρ → Proc σ Reply ε α}

/-- The write a move carries out. -/
def moving (c : Config σ (Proc σ Reply ε α)) : Move ρ → Option κ
  | .enter _ _ => none
  | .advance k => (c.pc k).bind pending

/-- The condition of a move, given by a condition on the write it carries out. -/
def AtWrite (P : σ → κ → Prop) (c : Config σ (Proc σ Reply ε α)) (m : Move ρ) : Prop :=
  ∀ w ∈ moving c m, P c.shared w

instance {P : σ → κ → Prop} [∀ s w, Decidable (P s w)] (c : Config σ (Proc σ Reply ε α))
    (m : Move ρ) : Decidable (AtWrite P c m) :=
  inferInstanceAs (Decidable (∀ w ∈ moving c m, _))

/-- What a move does to the shared state: nothing, or what its write does. -/
theorem move_cases (c : Config σ (Proc σ Reply ε α)) (m : Move ρ) :
    (moving c m = none ∧ (c.move enter (fun _ ↦ Proc.exec perform) m).shared = c.shared) ∨
      ∃ w, moving c m = some w ∧
        (c.move enter (fun _ ↦ Proc.exec perform) m).shared = Service.after (perform w) c.shared := by
  cases m with
  | enter k r =>
      refine .inl ⟨rfl, ?_⟩
      unfold Config.move
      dsimp only
      split <;> rfl
  | advance k =>
      cases hk : c.pc k with
      | none =>
          refine .inl ⟨?_, ?_⟩
          · simp only [moving, hk]
            rfl
          · simp only [Config.move, hk]
      | some p =>
          have hmoving : moving c (.advance k : Move ρ) = p.pending := by
            simp only [moving, hk, Option.bind_some]
          have hshared : (c.move enter (fun _ ↦ Proc.exec perform) (.advance k)).shared =
              (p.exec perform c.shared).1 := by
            simp only [Config.move, hk]
          rw [hmoving, hshared]
          exact exec_cases perform c.shared p

variable {I : σ → Prop} {R : σ → σ → Prop} {L P : σ → κ → Prop} {Q : α → σ → Prop}

/-- A write that is carried out is one the procedures can ask for. -/
theorem legal_of_moving {c : Config σ (Proc σ Reply ε α)} {m : Move ρ}
    (hc : c.Inv I fun _ s p ↦ Asks R L Q s p) (hrefl : R c.shared c.shared) {w : κ}
    (hw : moving c m = some w) : L c.shared w := by
  cases m with
  | enter k r => cases hw
  | advance k =>
      obtain ⟨p, hp, hpending⟩ := Option.bind_eq_some_iff.mp hw
      exact (hc.2 k p hp).pending hrefl hpending

/-- The invariant rule: procedures that ask for writes of `L` only, each of which keeps `I` and
moves along `R` where it meets its condition `P`. -/
theorem inv_move (hrefl : ∀ s, R s s) (htrans : ∀ a b c, R a b → R b c → R a c)
    (henter : ∀ s r, I s → Asks R L Q s (enter r))
    (hperform : ∀ w s, I s → L s w → P s w →
      I (Service.after (perform w) s) ∧ R s (Service.after (perform w) s))
    {c : Config σ (Proc σ Reply ε α)} {m : Move ρ} (hc : c.Inv I fun _ s p ↦ Asks R L Q s p)
    (hm : AtWrite P c m) :
    (c.move enter (fun _ ↦ Proc.exec perform) m).Inv I fun _ s p ↦ Asks R L Q s p := by
  have hstep : ∀ s (p : Proc σ Reply ε α), I s → Asks R L Q s p → (∀ w ∈ p.pending, P s w) →
      I (p.exec perform s).1 ∧ R s (p.exec perform s).1 := by
    intro s p hI hp hP
    rcases exec_cases perform s p with ⟨-, hs⟩ | ⟨w, hw, hs⟩
    · rw [hs]
      exact ⟨hI, hrefl s⟩
    · rw [hs]
      exact hperform w s hI (hp.pending (hrefl s) hw) (hP w hw)
  refine hc.move (P := fun s p ↦ ∀ w ∈ p.pending, P s w) (fun _ s r hI ↦ henter s r hI) ?_ ?_ ?_
  · intro k s p hI hp hP
    obtain ⟨hI', hR⟩ := hstep s p hI hp hP
    exact ⟨hI', fun p' hp' ↦ hp.exec hR hp'⟩
  · intro k j s p q _ hI hp hP hq
    exact hq.later htrans (hstep s p hI hp hP).2
  · cases m with
    | enter k r => exact trivial
    | advance k =>
        intro p hp w hw
        exact hm w (Option.bind_eq_some_iff.mpr ⟨p, hp, hw⟩)

/-- What a move leaves of the call it advances. -/
theorem pc_advance {c : Config σ (Proc σ Reply ε α)} {k : ℕ} {p : Proc σ Reply ε α}
    (hk : c.pc k = some p) :
    (c.move enter (fun _ ↦ Proc.exec perform) (.advance k)).pc k = (p.exec perform c.shared).2 := by
  simp only [Config.move, hk, Function.update_self]

/-- A call that has been given its steps has ended. -/
theorem ended_of_count {n k : ℕ} (ks : List ℕ) {c : Config σ (Proc σ Reply ε α)}
    (hc : ∀ p, c.pc k = some p → Within n p) (hks : n ≤ ks.count k) :
    (ks.foldl (fun c k ↦ c.move enter (fun _ ↦ Proc.exec perform) (.advance k)) c).pc k = none := by
  induction ks generalizing n c with
  | nil =>
      obtain rfl := Nat.le_zero.mp hks
      cases hk : c.pc k with
      | none => exact hk
      | some p => exact (hc p hk).elim
  | cons j ks ih =>
      rw [List.foldl_cons]
      by_cases hj : j = k
      · subst hj
        rw [List.count_cons_self] at hks
        cases n with
        | zero =>
            apply ih (n := 0) _ (Nat.zero_le _)
            intro p hp
            cases hk : c.pc j with
            | none =>
                have hstay : c.move enter (fun _ ↦ Proc.exec perform) (.advance j) = c := by
                  simp only [Config.move, hk]
                rw [hstay, hk] at hp
                cases hp
            | some q => exact (hc q hk).elim
        | succ n =>
            apply ih (n := n) _ (by omega)
            intro p hp
            cases hk : c.pc j with
            | none =>
                have hstay : c.move enter (fun _ ↦ Proc.exec perform) (.advance j) = c := by
                  simp only [Config.move, hk]
                rw [hstay, hk] at hp
                cases hp
            | some q =>
                rw [pc_advance hk] at hp
                exact (hc q hk).exec hp
      · rw [List.count_cons_of_ne hj] at hks
        apply ih (n := n) _ hks
        intro p hp
        have hother : (c.move enter (fun _ ↦ Proc.exec perform) (.advance j)).pc k = c.pc k := by
          unfold Config.move
          dsimp only
          split
          · rfl
          · exact Function.update_of_ne (Ne.symm hj) _ _
        rw [hother] at hp
        exact hc p hp

/-- Calls that commit when they are entered commit wherever they have got to. -/
theorem commits_move {W : κ → Prop} {bad : ε → Prop} (henter : ∀ r, Commits W bad (enter r))
    {c : Config σ (Proc σ Reply ε α)} {m : Move ρ}
    (hc : c.Inv (fun _ ↦ True) fun _ _ p ↦ Commits W bad p) :
    (c.move enter (fun _ ↦ Proc.exec perform) m).Inv (fun _ ↦ True) fun _ _ p ↦ Commits W bad p := by
  refine hc.move (P := fun _ _ ↦ True) (fun _ _ r _ ↦ henter r) ?_ ?_ ?_
  · intro k s p _ hp _
    exact ⟨trivial, fun p' hp' ↦ hp.exec hp'⟩
  · intro k j s p q _ _ _ _ hq
    exact hq
  · cases m with
    | enter k r => exact trivial
    | advance k => exact fun _ _ ↦ trivial

/-- Calls that end in no error of a kind when they are entered end in none wherever they have got
to. -/
theorem never_move {bad : ε → Prop} (henter : ∀ r, (enter r).Never bad)
    {c : Config σ (Proc σ Reply ε α)} {m : Move ρ}
    (hc : c.Inv (fun _ ↦ True) fun _ _ p ↦ p.Never bad) :
    (c.move enter (fun _ ↦ Proc.exec perform) m).Inv (fun _ ↦ True) fun _ _ p ↦ p.Never bad := by
  refine hc.move (P := fun _ _ ↦ True) (fun _ _ r _ ↦ henter r) ?_ ?_ ?_
  · intro k s p _ hp _
    exact ⟨trivial, fun p' hp' ↦ hp.exec hp'⟩
  · intro k j s p q _ _ _ _ hq
    exact hq
  · cases m with
    | enter k r => exact trivial
    | advance k => exact fun _ _ ↦ trivial

end Interleaving

-- from here on what a procedure asks for is found by the rules above only
attribute [irreducible] Asks

end Proc

end Tesbo.Reasoning
