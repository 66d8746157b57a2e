import Tesbo.Reasoning.Procedures

/-!
# Procedures that go through phases

What a procedure may ask for can depend on what it was answered before: a handle it was given and
has not passed on, a lock it holds.  The phase it is in says so, and moves with its writes only.
The phases of several procedures are theirs alone, so an invariant can set them against each other.
-/

namespace Tesbo.Reasoning.Proc

variable {σ κ ε α β φ : Type} {Reply : κ → Type}

/-- `Asks` for a procedure in a phase: `turn` is the phase a write leaves when it is answered. -/
def Follows (turn : φ → (w : κ) → Reply w → φ) (R : σ → σ → Prop) (L : φ → σ → κ → Prop)
    (Q : α → φ → σ → Prop) : φ → σ → Proc σ Reply ε α → Prop
  | t, s, done (.ok a) => ∀ s', R s s' → Q a t s'
  | _, _, done (.error _) => True
  | t, s, read next => ∀ s', R s s' → Follows turn R L Q t s' (next s')
  | t, s, write w next =>
      (∀ s', R s s' → L t s' w) ∧ ∀ r s', R s s' → Follows turn R L Q (turn t w r) s' (next r)

section Rules

variable {turn : φ → (w : κ) → Reply w → φ} {R : σ → σ → Prop} {L : φ → σ → κ → Prop}
  {P : α → φ → σ → Prop} {Q : β → φ → σ → Prop} {t : φ} {s : σ}

theorem follows_done_iff {b : β} :
    Follows turn R L Q t s (done (.ok b) : Proc σ Reply ε β) ↔ ∀ s', R s s' → Q b t s' := Iff.rfl

theorem follows_read_iff {next : σ → Proc σ Reply ε β} :
    Follows turn R L Q t s (read next) ↔ ∀ s', R s s' → Follows turn R L Q t s' (next s') := Iff.rfl

theorem follows_write_iff {w : κ} {next : Reply w → Proc σ Reply ε β} :
    Follows turn R L Q t s (write w next) ↔
      (∀ s', R s s' → L t s' w) ∧
        ∀ r s', R s s' → Follows turn R L Q (turn t w r) s' (next r) := Iff.rfl

/-- What others do before the next statement is allowed for. -/
theorem Follows.later (htrans : ∀ a b c, R a b → R b c → R a c) {p : Proc σ Reply ε β}
    (h : Follows turn R L Q t s p) {s' : σ} (hs : R s s') : Follows turn R L Q t s' p := by
  cases p with
  | done outcome =>
      cases outcome with
      | ok a => exact fun s₁ h₁ ↦ h s₁ (htrans s s' s₁ hs h₁)
      | error e => exact trivial
  | read next => exact fun s₁ h₁ ↦ h s₁ (htrans s s' s₁ hs h₁)
  | write w next =>
      exact ⟨fun s₁ h₁ ↦ h.1 s₁ (htrans s s' s₁ hs h₁),
        fun r s₁ h₁ ↦ h.2 r s₁ (htrans s s' s₁ hs h₁)⟩

theorem Follows.mono {Q' : β → φ → σ → Prop} {p : Proc σ Reply ε β} (h : Follows turn R L Q t s p)
    (hQ : ∀ a t s, Q a t s → Q' a t s) : Follows turn R L Q' t s p := by
  induction p generalizing t s with
  | done outcome =>
      cases outcome with
      | ok a => exact fun s' hs ↦ hQ a t s' (h s' hs)
      | error e => exact trivial
  | read next ih => exact fun s' hs ↦ ih s' (h s' hs)
  | write w next ih => exact ⟨h.1, fun r s' hs ↦ ih r (h.2 r s' hs)⟩

theorem follows_pure {a : β} (h : ∀ s', R s s' → Q a t s') :
    Follows turn R L Q t s (pure a : Proc σ Reply ε β) := h

theorem follows_fail {e : ε} : Follows turn R L Q t s (fail e : Proc σ Reply ε β) := trivial

theorem follows_seq (hrefl : ∀ a, R a a) (htrans : ∀ a b c, R a b → R b c → R a c)
    {p : Proc σ Reply ε α} {f : α → Proc σ Reply ε β} (hp : Follows turn R L P t s p)
    (hf : ∀ a t' s', R s s' → P a t' s' → Follows turn R L Q t' s' (f a)) :
    Follows turn R L Q t s (p >>= f) := by
  induction p generalizing t s with
  | done outcome =>
      cases outcome with
      | ok a => exact hf a t s (hrefl s) (hp s (hrefl s))
      | error e => exact trivial
  | read next ih =>
      exact fun s₁ h₁ ↦ ih s₁ (hp s₁ h₁) fun a t₂ s₂ h₂ ↦ hf a t₂ s₂ (htrans s s₁ s₂ h₁ h₂)
  | write w next ih =>
      refine ⟨hp.1, fun r s₁ h₁ ↦ ih r (hp.2 r s₁ h₁) fun a t₂ s₂ h₂ ↦ ?_⟩
      exact hf a t₂ s₂ (htrans s s₁ s₂ h₁ h₂)

theorem follows_query_seq {g : σ → α} {f : α → Proc σ Reply ε β}
    (hf : ∀ s', R s s' → Follows turn R L Q t s' (f (g s'))) :
    Follows turn R L Q t s (query g >>= f) := hf

theorem follows_check_seq {g : σ → Except ε α} {f : α → Proc σ Reply ε β}
    (hf : ∀ s', R s s' → ∀ a, g s' = .ok a → Follows turn R L Q t s' (f a)) :
    Follows turn R L Q t s (check g >>= f) := by
  intro s' hs
  change Follows turn R L Q t s' (Proc.bind (done (g s')) f)
  cases hg : g s' with
  | ok a => exact hf s' hs a hg
  | error e => exact trivial

theorem follows_check {g : σ → Except ε β}
    (h : ∀ s', R s s' → ∀ a, g s' = .ok a → ∀ s'', R s' s'' → Q a t s'') :
    Follows turn R L Q t s (check g : Proc σ Reply ε β) := by
  intro s' hs
  change Follows turn R L Q t s' (done (g s'))
  cases hg : g s' with
  | ok a => exact h s' hs a hg
  | error e => exact trivial

theorem follows_ofExcept_seq {r : Except ε α} {f : α → Proc σ Reply ε β}
    (hf : ∀ a, r = .ok a → Follows turn R L Q t s (f a)) :
    Follows turn R L Q t s (ofExcept r >>= f) := by
  cases r with
  | ok a => exact hf a rfl
  | error e => exact trivial

theorem follows_require_seq {p : Prop} [Decidable p] {e : ε} {f : Unit → Proc σ Reply ε β}
    (hf : p → Follows turn R L Q t s (f ())) : Follows turn R L Q t s (require p e >>= f) := by
  unfold require
  by_cases hp : p
  · rw [if_pos hp]
    exact hf hp
  · rw [if_neg hp]
    exact trivial

theorem follows_require {p : Prop} [Decidable p] {e : ε} {Q : Unit → φ → σ → Prop}
    (h : p → ∀ s', R s s' → Q () t s') :
    Follows turn R L Q t s (require p e : Proc σ Reply ε Unit) := by
  unfold require
  by_cases hp : p
  · rw [if_pos hp]
    exact h hp
  · rw [if_neg hp]
    exact trivial

theorem follows_write {w : κ} {next : Reply w → Proc σ Reply ε β} (hw : ∀ s', R s s' → L t s' w)
    (hf : ∀ r s', R s s' → Follows turn R L Q (turn t w r) s' (next r)) :
    Follows turn R L Q t s (.write w next) := ⟨hw, hf⟩

theorem follows_issue_seq {w : κ} {f : Reply w → Proc σ Reply ε β} (hw : ∀ s', R s s' → L t s' w)
    (hf : ∀ r s', R s s' → Follows turn R L Q (turn t w r) s' (f r)) :
    Follows turn R L Q t s (issue w >>= f) := ⟨hw, hf⟩

theorem follows_issue (htrans : ∀ a b c, R a b → R b c → R a c) {w : κ}
    {Q : Reply w → φ → σ → Prop} (hw : ∀ s', R s s' → L t s' w)
    (hf : ∀ r s', R s s' → Q r (turn t w r) s') :
    Follows turn R L Q t s (issue w : Proc σ Reply ε (Reply w)) :=
  ⟨hw, fun r s₁ h₁ s₂ h₂ ↦ hf r s₂ (htrans s s₁ s₂ h₁ h₂)⟩

/-- A procedure whose writes leave every phase as it is, and may be asked for in this one. -/
theorem Asks.follows {L' : σ → κ → Prop} {P : β → σ → Prop} {p : Proc σ Reply ε β}
    (hL : ∀ s w, L' s w → L t s w ∧ ∀ r, turn t w r = t) (h : Asks R L' P s p) :
    Follows turn R L (fun a t' s ↦ t' = t ∧ P a s) t s p := by
  induction p generalizing s with
  | done outcome =>
      cases outcome with
      | ok a => exact fun s' hs ↦ ⟨rfl, asks_done_iff.mp h s' hs⟩
      | error e => exact trivial
  | read next ih => exact fun s' hs ↦ ih s' (asks_read_iff.mp h s' hs)
  | write w next ih =>
      obtain ⟨hw, hnext⟩ := asks_write_iff.mp h
      refine ⟨fun s' hs ↦ (hL s' w (hw s' hs)).1, fun r s' hs ↦ ?_⟩
      rw [(hL s' w (hw s' hs)).2 r]
      exact ih r (hnext r s' hs)

/-! ### What a procedure leaves with an error

`Follows` says nothing of an error.  Where one is caught, what it leaves is said of `attempt`. -/

/-- `Q` holds with an answer and `E` with an error. -/
def Ends (turn : φ → (w : κ) → Reply w → φ) (R : σ → σ → Prop) (L : φ → σ → κ → Prop)
    (Q : β → φ → σ → Prop) (E : ε → φ → σ → Prop) (t : φ) (s : σ) (p : Proc σ Reply ε β) : Prop :=
  Follows turn R L (fun r t s ↦ (∀ b, r = .ok b → Q b t s) ∧ ∀ e, r = .error e → E e t s) t s
    p.attempt

section Ends

variable {E : ε → φ → σ → Prop}

theorem ends_pure {b : β} (h : ∀ s', R s s' → Q b t s') :
    Ends turn R L Q E t s (pure b : Proc σ Reply ε β) := by
  refine fun s' hs ↦ ⟨fun b' hb ↦ ?_, fun e he ↦ by cases he⟩
  obtain rfl := Except.ok.inj hb
  exact h s' hs

theorem ends_fail {e : ε} (h : ∀ s', R s s' → E e t s') :
    Ends turn R L Q E t s (fail e : Proc σ Reply ε β) := by
  refine fun s' hs ↦ ⟨fun b' hb ↦ (by cases hb), fun e' he ↦ ?_⟩
  obtain rfl := Except.error.inj he
  exact h s' hs

theorem ends_ofExcept {r : Except ε β} (hok : ∀ b, r = .ok b → ∀ s', R s s' → Q b t s')
    (herror : ∀ e, r = .error e → ∀ s', R s s' → E e t s') :
    Ends turn R L Q E t s (ofExcept r : Proc σ Reply ε β) := by
  cases r with
  | ok b => exact ends_pure (hok b rfl)
  | error e => exact ends_fail (herror e rfl)

theorem ends_seq (hrefl : ∀ a, R a a) (htrans : ∀ a b c, R a b → R b c → R a c)
    {p : Proc σ Reply ε α} {f : α → Proc σ Reply ε β} (hp : Ends turn R L P E t s p)
    (hE : ∀ e t' s' s'', E e t' s' → R s' s'' → E e t' s'')
    (hf : ∀ a t' s', R s s' → P a t' s' → Ends turn R L Q E t' s' (f a)) :
    Ends turn R L Q E t s (p >>= f) := by
  unfold Ends
  rw [attempt_bind]
  refine follows_seq hrefl htrans hp fun r t' s' hs h ↦ ?_
  cases r with
  | ok a => exact hf a t' s' hs (h.1 a rfl)
  | error e =>
      refine fun s'' hs' ↦ ⟨fun b hb ↦ (by cases hb), fun e' he ↦ ?_⟩
      obtain rfl := Except.error.inj he
      exact hE e t' s' s'' (h.2 e rfl) hs'

theorem ends_query_seq {g : σ → α} {f : α → Proc σ Reply ε β}
    (hf : ∀ s', R s s' → Ends turn R L Q E t s' (f (g s'))) :
    Ends turn R L Q E t s (query g >>= f) := hf

theorem ends_issue_seq {w : κ} {f : Reply w → Proc σ Reply ε β} (hw : ∀ s', R s s' → L t s' w)
    (hf : ∀ r s', R s s' → Ends turn R L Q E (turn t w r) s' (f r)) :
    Ends turn R L Q E t s (issue w >>= f) := ⟨hw, hf⟩

theorem ends_issue (htrans : ∀ a b c, R a b → R b c → R a c) {w : κ} {Q : Reply w → φ → σ → Prop}
    {E : ε → φ → σ → Prop} (hw : ∀ s', R s s' → L t s' w)
    (hf : ∀ r s', R s s' → Q r (turn t w r) s') :
    Ends turn R L Q E t s (issue w : Proc σ Reply ε (Reply w)) := by
  refine ⟨hw, fun r s₁ h₁ s₂ h₂ ↦ ⟨fun b hb ↦ ?_, fun e he ↦ (by cases he)⟩⟩
  obtain rfl := Except.ok.inj hb
  exact hf r s₂ (htrans s s₁ s₂ h₁ h₂)

theorem Ends.mono {Q' : β → φ → σ → Prop} {E' : ε → φ → σ → Prop} {p : Proc σ Reply ε β}
    (h : Ends turn R L Q E t s p) (hQ : ∀ a t s, Q a t s → Q' a t s)
    (hE : ∀ e t s, E e t s → E' e t s) : Ends turn R L Q' E' t s p := by
  refine Follows.mono h fun r t s hr ↦ ?_
  exact ⟨fun b hb ↦ hQ b t s (hr.1 b hb), fun e he ↦ hE e t s (hr.2 e he)⟩

/-- An error that is not caught ends the procedure. -/
theorem Ends.follows {p : Proc σ Reply ε β} (h : Ends turn R L Q E t s p) :
    Follows turn R L Q t s p := by
  induction p generalizing t s with
  | done outcome =>
      cases outcome with
      | ok b => exact fun s' hs ↦ (h s' hs).1 b rfl
      | error e => exact trivial
  | read next ih => exact fun s' hs ↦ ih s' (h s' hs)
  | write w next ih => exact ⟨h.1, fun r s' hs ↦ ih r (h.2 r s' hs)⟩

/-- What is caught is an answer. -/
theorem ends_attempt {p : Proc σ Reply ε β} (h : Ends turn R L Q E t s p) {E' : ε → φ → σ → Prop} :
    Ends turn R L (fun r t s ↦ (∀ b, r = .ok b → Q b t s) ∧ ∀ e, r = .error e → E e t s) E' t s
      p.attempt := by
  induction p generalizing t s with
  | done outcome =>
      refine fun s' hs ↦ ⟨fun r hr ↦ ?_, fun e he ↦ by cases he⟩
      obtain rfl := Except.ok.inj hr
      exact h s' hs
  | read next ih => exact fun s' hs ↦ ih s' (h s' hs)
  | write w next ih => exact ⟨h.1, fun r s' hs ↦ ih r (h.2 r s' hs)⟩

/-- Going on after an error that is caught. -/
theorem follows_attempt_seq (hrefl : ∀ a, R a a) (htrans : ∀ a b c, R a b → R b c → R a c)
    {p : Proc σ Reply ε α} {f : Except ε α → Proc σ Reply ε β} (hp : Ends turn R L P E t s p)
    (hok : ∀ a t' s', R s s' → P a t' s' → Follows turn R L Q t' s' (f (.ok a)))
    (herror : ∀ e t' s', R s s' → E e t' s' → Follows turn R L Q t' s' (f (.error e))) :
    Follows turn R L Q t s (p.attempt >>= f) := by
  refine follows_seq hrefl htrans hp fun r t' s' hs h ↦ ?_
  cases r with
  | ok a => exact hok a t' s' hs (h.1 a rfl)
  | error e => exact herror e t' s' hs (h.2 e rfl)

end Ends

/-- In a phase in which all is allowed, and which no write leaves, a procedure may do anything. -/
theorem follows_anything {p : Proc σ Reply ε β} (hL : ∀ s w, L t s w) (hturn : ∀ w r, turn t w r = t)
    (hQ : ∀ b s, Q b t s) : Follows turn R L Q t s p := by
  induction p generalizing s with
  | done outcome =>
      cases outcome with
      | ok b => exact fun s' _ ↦ hQ b s'
      | error e => exact trivial
  | read next ih => exact fun s' _ ↦ ih s'
  | write w next ih =>
      refine ⟨fun s' _ ↦ hL s' w, fun r s' _ ↦ ?_⟩
      rw [hturn w r]
      exact ih r

theorem ends_anything {E : ε → φ → σ → Prop} {p : Proc σ Reply ε β} (hL : ∀ s w, L t s w)
    (hturn : ∀ w r, turn t w r = t) (hQ : ∀ b s, Q b t s) (hE : ∀ e s, E e t s) :
    Ends turn R L Q E t s p :=
  follows_anything hL hturn fun _ s ↦ ⟨fun b _ ↦ hQ b s, fun e _ ↦ hE e s⟩

end Rules

/-! ### Phases alone

Where nothing that is read says what may be asked for, the state is left to the invariant. -/

/-- Any change of the state. -/
def Freely (_ _ : σ) : Prop := True

theorem freely_refl (s : σ) : Freely s s := trivial

theorem freely_trans (a b c : σ) (_ : Freely a b) (_ : Freely b c) : Freely a c := trivial

/-- `Ends` whatever the state is. -/
def Passes (turn : φ → (w : κ) → Reply w → φ) (L : φ → κ → Prop) (Q : β → φ → Prop)
    (E : ε → φ → Prop) (t : φ) (p : Proc σ Reply ε β) : Prop :=
  ∀ s, Ends turn Freely (fun t _ w ↦ L t w) (fun b t _ ↦ Q b t) (fun e t _ ↦ E e t) t s p

section Passes

variable {turn : φ → (w : κ) → Reply w → φ} {L : φ → κ → Prop} {P : α → φ → Prop}
  {Q : β → φ → Prop} {E : ε → φ → Prop} {t : φ}

theorem passes_pure {b : β} (h : Q b t) : Passes turn L Q E t (pure b : Proc σ Reply ε β) :=
  fun _ ↦ ends_pure fun _ _ ↦ h

theorem passes_fail {e : ε} (h : E e t) : Passes turn L Q E t (fail e : Proc σ Reply ε β) :=
  fun _ ↦ ends_fail fun _ _ ↦ h

theorem passes_seq {p : Proc σ Reply ε α} {f : α → Proc σ Reply ε β} (hp : Passes turn L P E t p)
    (hf : ∀ a t', P a t' → Passes turn L Q E t' (f a)) : Passes turn L Q E t (p >>= f) :=
  fun s ↦ ends_seq freely_refl freely_trans (hp s) (fun _ _ _ _ h _ ↦ h)
    fun a t' s' _ h ↦ hf a t' h s'

theorem passes_query_seq {g : σ → α} {f : α → Proc σ Reply ε β}
    (hf : ∀ s, Passes turn L Q E t (f (g s))) : Passes turn L Q E t (query g >>= f) :=
  fun _ ↦ ends_query_seq fun s' _ ↦ hf s' s'

theorem passes_issue_seq {w : κ} {f : Reply w → Proc σ Reply ε β} (hw : L t w)
    (hf : ∀ r, Passes turn L Q E (turn t w r) (f r)) : Passes turn L Q E t (issue w >>= f) :=
  fun _ ↦ ends_issue_seq (fun _ _ ↦ hw) fun r s' _ ↦ hf r s'

theorem passes_issue {w : κ} {Q : Reply w → φ → Prop} (hw : L t w) (hQ : ∀ r, Q r (turn t w r)) :
    Passes turn L Q E t (issue w : Proc σ Reply ε (Reply w)) :=
  fun _ ↦ ends_issue freely_trans (fun _ _ ↦ hw) fun r _ _ ↦ hQ r

theorem passes_ofExcept_seq {r : Except ε α} {f : α → Proc σ Reply ε β}
    (hE : ∀ e, r = .error e → E e t) (hf : ∀ a, r = .ok a → Passes turn L Q E t (f a)) :
    Passes turn L Q E t (ofExcept r >>= f) := by
  cases r with
  | ok a => exact hf a rfl
  | error e => exact passes_fail (hE e rfl)

theorem passes_check_seq {g : σ → Except ε α} {f : α → Proc σ Reply ε β}
    (hE : ∀ s e, g s = .error e → E e t)
    (hf : ∀ s a, g s = .ok a → Passes turn L Q E t (f a)) :
    Passes turn L Q E t (check g >>= f) := by
  intro _ s' _
  have hrest : Passes turn L Q E t (ofExcept (g s') >>= f) :=
    passes_ofExcept_seq (fun e h ↦ hE s' e h) fun a h ↦ hf s' a h
  exact hrest s'

theorem passes_require_seq {p : Prop} [Decidable p] {e : ε} {f : Unit → Proc σ Reply ε β}
    (hE : ¬ p → E e t) (hf : p → Passes turn L Q E t (f ())) :
    Passes turn L Q E t (require p e >>= f) := by
  unfold require
  by_cases hp : p
  · rw [if_pos hp]
    exact hf hp
  · rw [if_neg hp]
    exact passes_fail (hE hp)

theorem passes_attempt_seq {E' : ε → φ → Prop} {p : Proc σ Reply ε α}
    {f : Except ε α → Proc σ Reply ε β} (hp : Passes turn L P E t p)
    (hok : ∀ a t', P a t' → Passes turn L Q E' t' (f (.ok a)))
    (herror : ∀ e t', E e t' → Passes turn L Q E' t' (f (.error e))) :
    Passes turn L Q E' t (p.attempt >>= f) := by
  refine fun s ↦ ends_seq freely_refl freely_trans (ends_attempt (hp s))
    (fun _ _ _ _ h _ ↦ h) fun r t' s' _ h ↦ ?_
  cases r with
  | ok a => exact hok a t' (h.1 a rfl) s'
  | error e => exact herror e t' (h.2 e rfl) s'

theorem Passes.mono {Q' : β → φ → Prop} {E' : ε → φ → Prop} {p : Proc σ Reply ε β}
    (h : Passes turn L Q E t p) (hQ : ∀ b t, Q b t → Q' b t) (hE : ∀ e t, E e t → E' e t) :
    Passes turn L Q' E' t p :=
  fun s ↦ (h s).mono (fun b t _ ↦ hQ b t) fun e t _ ↦ hE e t

/-- In a phase in which all is allowed, and which no write leaves. -/
theorem passes_anything {p : Proc σ Reply ε β} (hL : ∀ w, L t w) (hturn : ∀ w r, turn t w r = t)
    (hQ : ∀ b, Q b t) (hE : ∀ e, E e t) : Passes turn L Q E t p :=
  fun _ ↦ ends_anything (fun _ w ↦ hL w) hturn (fun b _ ↦ hQ b) fun e _ ↦ hE e

/-- The errors it can end in, wherever it ends in them. -/
theorem Passes.never {bad : ε → Prop} {p : Proc σ Reply ε β} (h : Passes turn L Q E t p)
    (hbad : ∀ e t, E e t → ¬ bad e) [Nonempty σ] : p.Never bad := by
  induction p generalizing t with
  | done outcome =>
      cases outcome with
      | ok b => exact trivial
      | error e =>
          obtain ⟨s⟩ := ‹Nonempty σ›
          exact hbad e t ((h s s trivial).2 e rfl)
  | read next ih =>
      intro s
      exact ih s fun s' ↦ (h s s trivial).later freely_trans trivial
  | write w next ih =>
      intro r
      exact ih r fun s ↦ (h s).2 r s trivial

theorem Passes.follows {p : Proc σ Reply ε β} (h : Passes turn L Q E t p) (s : σ) :
    Follows turn Freely (fun t _ w ↦ L t w) (fun b t _ ↦ Q b t) t s p := Ends.follows (h s)

end Passes

/-! ## Interleaving -/

section Interleaving

variable {ρ : Type} {perform : (w : κ) → Service ε σ (Reply w)} {enter : ρ → Proc σ Reply ε α}
  {turn : φ → (w : κ) → Reply w → φ} {I : σ → (ℕ → φ) → Prop} {R : σ → σ → Prop}
  {L : φ → σ → κ → Prop} {P : σ → κ → Prop} {Q : α → φ → σ → Prop}

/-- Every call in flight is in a phase, and the invariant holds of the shared state and these. -/
def Phased (turn : φ → (w : κ) → Reply w → φ) (I : σ → (ℕ → φ) → Prop) (R : σ → σ → Prop)
    (L : φ → σ → κ → Prop) (Q : α → φ → σ → Prop) (c : Config σ (Proc σ Reply ε α)) : Prop :=
  ∃ phase : ℕ → φ, I c.shared phase ∧
    ∀ k p, c.pc k = some p → Follows turn R L Q (phase k) c.shared p

theorem Phased.idle {s : σ} {phase : ℕ → φ} (h : I s phase) :
    Phased turn I R L Q (Config.idle s : Config σ (Proc σ Reply ε α)) :=
  ⟨phase, h, fun _ _ hp ↦ by cases hp⟩

/-- A write that a call carries out is one it can ask for in its phase. -/
theorem Phased.legal_advance {c : Config σ (Proc σ Reply ε α)} {k : ℕ}
    (hc : Phased turn I R L Q c) (hrefl : R c.shared c.shared) {w : κ}
    (hw : moving c (.advance k : Move ρ) = some w) :
    ∃ phase, I c.shared phase ∧ L (phase k) c.shared w := by
  obtain ⟨phase, hI, hcalls⟩ := hc
  obtain ⟨p, hp, hpending⟩ := Option.bind_eq_some_iff.mp hw
  refine ⟨phase, hI, ?_⟩
  have hfollows := hcalls k p hp
  cases p with
  | done outcome => cases hpending
  | read next => cases hpending
  | write w' next =>
      obtain rfl := Option.some.inj hpending
      exact hfollows.1 c.shared hrefl

theorem Phased.legal {c : Config σ (Proc σ Reply ε α)} {m : Move ρ}
    (hc : Phased turn I R L Q c) (hrefl : R c.shared c.shared) {w : κ} (hw : moving c m = some w) :
    ∃ phase k, I c.shared phase ∧ L (phase k) c.shared w := by
  cases m with
  | enter k r => cases hw
  | advance k =>
      obtain ⟨phase, hI, hlegal⟩ := hc.legal_advance hrefl hw
      exact ⟨phase, k, hI, hlegal⟩

/-- What a write leaves, and the phase its call is in then. -/
def Turns (perform : (w : κ) → Service ε σ (Reply w)) (turn : φ → (w : κ) → Reply w → φ)
    (I : σ → (ℕ → φ) → Prop) (phase : ℕ → φ) (k : ℕ) (w : κ) (s : σ) : Prop :=
  Service.wp (perform w) (fun r s' ↦ I s' (Function.update phase k (turn (phase k) w r)))
    (fun _ s' ↦ I s' phase) s

/-- The invariant rule: a call that is entered starts in a phase of its own, and each write the calls
can ask for in theirs keeps the invariant where it meets its condition. -/
theorem Phased.move (hrefl : ∀ s, R s s) (htrans : ∀ a b c, R a b → R b c → R a c)
    (henter : ∀ s phase k r, I s phase → ∃ t, I s (Function.update phase k t) ∧
      Follows turn R L Q t s (enter r))
    (hperform : ∀ s phase k w, I s phase → L (phase k) s w → P s w →
      Turns perform turn I phase k w s ∧ R s (Service.after (perform w) s))
    {c : Config σ (Proc σ Reply ε α)} {m : Move ρ} (hc : Phased turn I R L Q c)
    (hm : AtWrite P c m) :
    Phased turn I R L Q (c.move enter (fun _ ↦ Proc.exec perform) m) := by
  obtain ⟨phase, hI, hcalls⟩ := hc
  cases m with
  | enter k r =>
      unfold Config.move
      dsimp only
      split
      · exact ⟨phase, hI, hcalls⟩
      · obtain ⟨t, hI', hr⟩ := henter c.shared phase k r hI
        refine ⟨Function.update phase k t, hI', fun j p hj ↦ ?_⟩
        by_cases hjk : j = k
        · subst hjk
          simp only [Function.update_self, Option.some.injEq] at hj ⊢
          exact hj ▸ hr
        · simp only [Function.update_of_ne hjk] at hj ⊢
          exact hcalls j p hj
  | advance k =>
      cases hk : c.pc k with
      | none =>
          have hstay : c.move enter (fun _ ↦ Proc.exec perform) (.advance k) = c := by
            simp only [Config.move, hk]
          rw [hstay]
          exact ⟨phase, hI, hcalls⟩
      | some p =>
          have hstep : c.move enter (fun _ ↦ Proc.exec perform) (.advance k) =
              ⟨(p.exec perform c.shared).1,
                Function.update c.pc k (p.exec perform c.shared).2⟩ := by
            simp only [Config.move, hk]
          rw [hstep]
          have hp := hcalls k p hk
          -- the other calls stay in their phases
          have hothers : ∀ s' t pc, R c.shared s' → (∀ p', pc = some p' →
              Follows turn R L Q t s' p') → ∀ j q, Function.update c.pc k pc j = some q →
                Follows turn R L Q (Function.update phase k t j) s' q := by
            intro s' t pc hs hown j q hj
            by_cases hjk : j = k
            · subst hjk
              simp only [Function.update_self] at hj ⊢
              exact hown q hj
            · simp only [Function.update_of_ne hjk] at hj ⊢
              exact (hcalls j q hj).later htrans hs
          cases p with
          | done outcome =>
              refine ⟨Function.update phase k (phase k), ?_, ?_⟩
              · rw [Function.update_eq_self]
                exact hI
              · exact hothers _ _ _ (hrefl _) fun _ h ↦ by cases h
          | read next =>
              refine ⟨Function.update phase k (phase k), ?_, ?_⟩
              · rw [Function.update_eq_self]
                exact hI
              · refine hothers _ _ _ (hrefl _) fun p' h ↦ ?_
                obtain rfl := Option.some.inj h
                exact hp _ (hrefl _)
          | write w next =>
              have hw : moving c (.advance k : Move ρ) = some w := by
                simp only [moving, hk, Option.bind_some]
                rfl
              obtain ⟨hturns, hR⟩ := hperform c.shared phase k w hI (hp.1 _ (hrefl _)) (hm w hw)
              unfold Turns Service.wp at hturns
              unfold Service.after at hR
              simp only [Proc.exec]
              rcases hdone : perform w c.shared with ⟨_ | r, s'⟩
              · rw [hdone] at hturns hR
                refine ⟨Function.update phase k (phase k), ?_, ?_⟩
                · rw [Function.update_eq_self]
                  exact hturns
                · exact hothers _ _ _ hR fun _ h ↦ by cases h
              · rw [hdone] at hturns hR
                refine ⟨Function.update phase k (turn (phase k) w r), hturns, ?_⟩
                refine hothers _ _ _ hR fun p' h ↦ ?_
                obtain rfl := Option.some.inj h
                exact hp.2 r s' hR

/-! ### Procedures that end in their last phase -/

/-- Every call in flight is in a phase and will end in one of `Z`; one that is not in flight is in such
a phase. -/
def Concluding (turn : φ → (w : κ) → Reply w → φ) (I : σ → (ℕ → φ) → Prop) (L : φ → κ → Prop)
    (Z : φ → Prop) (c : Config σ (Proc σ Reply ε α)) : Prop :=
  ∃ phase : ℕ → φ, I c.shared phase ∧ ∀ k,
    match c.pc k with
    | some p => Passes turn L (fun _ t ↦ Z t) (fun _ t ↦ Z t) (phase k) p
    | none => Z (phase k)

/-- The calls after one of them has come to a new phase. -/
theorem Concluding.update {L : φ → κ → Prop} {Z : φ → Prop}
    {c : Config σ (Proc σ Reply ε α)} {phase : ℕ → φ} {k : ℕ} {s : σ} {t : φ}
    {pc : Option (Proc σ Reply ε α)} (hI : I s (Function.update phase k t))
    (hcalls : ∀ j, match c.pc j with
      | some p => Passes turn L (fun _ t ↦ Z t) (fun _ t ↦ Z t) (phase j) p
      | none => Z (phase j))
    (hown : match pc with
      | some p => Passes turn L (fun _ t ↦ Z t) (fun _ t ↦ Z t) t p
      | none => Z t) : Concluding turn I L Z ⟨s, Function.update c.pc k pc⟩ := by
  refine ⟨Function.update phase k t, hI, fun j ↦ ?_⟩
  dsimp only
  by_cases hjk : j = k
  · subst hjk
    rw [Function.update_self, Function.update_self]
    exact hown
  · rw [Function.update_of_ne hjk, Function.update_of_ne hjk]
    exact hcalls j

/-- What a write that is answered leaves. -/
theorem Concluding.advance_write {I' : σ → (ℕ → φ) → Prop} {L : φ → κ → Prop} {Z : φ → Prop}
    {c : Config σ (Proc σ Reply ε α)} {k : ℕ} {w : κ} (hc : Concluding turn I L Z c)
    (hw : moving c (.advance k : Move ρ) = some w)
    (hperform : ∀ phase, I c.shared phase → L (phase k) w →
      Service.wp (perform w) (fun r s' ↦ I' s' (Function.update phase k (turn (phase k) w r)))
        (fun _ _ ↦ False) c.shared) :
    Concluding turn I' L Z (c.move enter (fun _ ↦ Proc.exec perform) (.advance k)) := by
  obtain ⟨phase, hI, hcalls⟩ := hc
  obtain ⟨p, hk, hpending⟩ := Option.bind_eq_some_iff.mp hw
  have hstep : c.move enter (fun _ ↦ Proc.exec perform) (.advance k) =
      ⟨(p.exec perform c.shared).1, Function.update c.pc k (p.exec perform c.shared).2⟩ := by
    simp only [Config.move, hk]
  have hp := hcalls k
  rw [hk] at hp
  dsimp only at hp
  cases p with
  | done outcome => cases hpending
  | read next => cases hpending
  | write w' next =>
      obtain rfl := Option.some.inj hpending
      have hlegal := (hp c.shared).1 c.shared trivial
      have hwp := hperform phase hI hlegal
      unfold Service.wp at hwp
      rw [hstep]
      simp only [Proc.exec]
      rcases hdone : perform w' c.shared with ⟨_ | r, s'⟩
      · rw [hdone] at hwp
        exact hwp.elim
      · rw [hdone] at hwp
        exact Concluding.update hwp hcalls fun s ↦ (hp c.shared).2 r s trivial

/-- The invariant rule: each write the calls can ask for is answered, and keeps the invariant where it
meets its condition. -/
theorem Concluding.advance {L : φ → κ → Prop} {Z : φ → Prop}
    (hperform : ∀ s phase k w, I s phase → L (phase k) w → P s w →
      Service.wp (perform w) (fun r s' ↦ I s' (Function.update phase k (turn (phase k) w r)))
        (fun _ _ ↦ False) s)
    {c : Config σ (Proc σ Reply ε α)} (hc : Concluding turn I L Z c) {k : ℕ}
    (hm : AtWrite P c (.advance k : Move ρ)) :
    Concluding turn I L Z (c.move enter (fun _ ↦ Proc.exec perform) (.advance k)) := by
  cases hw : moving c (.advance k : Move ρ) with
  | some w => exact hc.advance_write hw fun phase hI hlegal ↦ hperform _ _ _ _ hI hlegal (hm w hw)
  | none =>
      obtain ⟨phase, hI, hcalls⟩ := hc
      cases hk : c.pc k with
      | none =>
          have hstay : c.move enter (fun _ ↦ Proc.exec perform) (.advance k) = c := by
            simp only [Config.move, hk]
          rw [hstay]
          exact ⟨phase, hI, hcalls⟩
      | some p =>
          have hstep : c.move enter (fun _ ↦ Proc.exec perform) (.advance k) =
              ⟨(p.exec perform c.shared).1,
                Function.update c.pc k (p.exec perform c.shared).2⟩ := by
            simp only [Config.move, hk]
          have hp := hcalls k
          rw [hk] at hp
          dsimp only at hp
          have hI' : I c.shared (Function.update phase k (phase k)) := by
            rw [Function.update_eq_self]
            exact hI
          rw [hstep]
          cases p with
          | done outcome =>
              apply Concluding.update hI' hcalls
              have hends := hp c.shared c.shared trivial
              cases outcome with
              | ok a => exact hends.1 a rfl
              | error e => exact hends.2 e rfl
          | read next =>
              apply Concluding.update hI' hcalls
              exact fun _ ↦ (hp c.shared c.shared trivial).later freely_trans trivial
          | write w next =>
              simp only [moving, hk, Option.bind_some] at hw
              cases hw

end Interleaving

-- from here on what a procedure does is found by the rules above only
attribute [irreducible] Follows Ends

end Tesbo.Reasoning.Proc
