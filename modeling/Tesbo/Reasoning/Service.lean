import Mathlib.Tactic

/-!
# Computations over a database that outlives a failure

A handler reads and writes a state and may fail; what it wrote before failing stays unless a
transaction takes it back.  `wp m Q E s` says that `m`, run from `s`, ends in `Q` with an answer
or in `E` with a failure; the `simp` rules below push it through the operations a handler is
made of.
-/

namespace Tesbo.Reasoning

theorem except_bind_eq_ok {ε α β : Type} {x : Except ε α} {f : α → Except ε β} {b : β} :
    x >>= f = .ok b ↔ ∃ a, x = .ok a ∧ f a = .ok b := by
  cases x with
  | error e => exact ⟨fun h ↦ (by cases h), fun ⟨a, h, _⟩ ↦ (by cases h)⟩
  | ok a =>
      refine ⟨fun h ↦ ⟨a, rfl, h⟩, ?_⟩
      rintro ⟨a', ha, h⟩
      rw [Except.ok.inj ha]
      exact h

theorem except_bind_eq_error {ε α β : Type} {x : Except ε α} {f : α → Except ε β} {e : ε} :
    x >>= f = .error e ↔ x = .error e ∨ ∃ a, x = .ok a ∧ f a = .error e := by
  cases x with
  | error e' =>
      refine ⟨fun h ↦ .inl (congrArg Except.error (Except.error.inj h)), ?_⟩
      rintro (h | ⟨a, h, -⟩)
      · cases h
        rfl
      · cases h
  | ok a =>
      refine ⟨fun h ↦ .inr ⟨a, rfl, h⟩, ?_⟩
      rintro (h | ⟨a', ha, h⟩)
      · cases h
      · rw [Except.ok.inj ha]
        exact h

/-- What was found where nothing is refused. -/
theorem eq_some_of_found {ε α : Type} {o : Option α} {e : ε} {a : α}
    (h : o.elim (.error e) Except.ok = .ok a) : o = some a := by
  cases o with
  | none => cases h
  | some a' => exact congrArg some (Except.ok.inj h)

/-- A traversal that succeeds has succeeded at each element, in order. -/
theorem forall₂_of_mapM {ε α β : Type} {f : α → Except ε β} {as : List α} {bs : List β}
    (h : as.mapM f = .ok bs) : List.Forall₂ (fun a b ↦ f a = .ok b) as bs := by
  induction as generalizing bs with
  | nil =>
      obtain rfl := Except.ok.inj h
      exact .nil
  | cons a as ih =>
      rw [List.mapM_cons] at h
      cases ha : f a with
      | error e => rw [ha] at h; cases h
      | ok b =>
          cases has : as.mapM f with
          | error e => rw [ha, has] at h; cases h
          | ok bs' =>
              rw [ha, has] at h
              obtain rfl := Except.ok.inj h
              exact .cons ha (ih has)

/-- What is related in order is related element by element. -/
theorem exists_of_forall₂ {α β : Type} {R : α → β → Prop} {as : List α} {bs : List β}
    (h : List.Forall₂ R as bs) {a : α} (ha : a ∈ as) : ∃ b ∈ bs, R a b := by
  induction h with
  | nil => cases ha
  | cons hab _ ih =>
      rcases List.mem_cons.mp ha with rfl | ha
      · exact ⟨_, List.mem_cons_self, hab⟩
      · obtain ⟨b, hb, hr⟩ := ih ha
        exact ⟨b, List.mem_cons_of_mem _ hb, hr⟩

theorem exists_of_mem_mapM {ε α β : Type} {f : α → Except ε β} {as : List α} {bs : List β}
    (h : as.mapM f = .ok bs) {b : β} (hb : b ∈ bs) : ∃ a ∈ as, f a = .ok b :=
  exists_of_forall₂ (forall₂_of_mapM h).flip hb

theorem exists_image_of_mapM {ε α β : Type} {f : α → Except ε β} {as : List α} {bs : List β}
    (h : as.mapM f = .ok bs) {a : α} (ha : a ∈ as) : ∃ b ∈ bs, f a = .ok b :=
  exists_of_forall₂ (forall₂_of_mapM h) ha

/-- A fold that succeeds keeps what each of its steps keeps. -/
theorem inv_of_foldlM {ε α β : Type} {f : β → α → Except ε β} {P : β → Prop}
    (hstep : ∀ a b b', f b a = .ok b' → P b → P b') {as : List α} {b b' : β}
    (h : as.foldlM f b = .ok b') (hb : P b) : P b' := by
  induction as generalizing b with
  | nil =>
      obtain rfl := Except.ok.inj h
      exact hb
  | cons a as ih =>
      rw [List.foldlM_cons] at h
      cases ha : f b a with
      | error e => rw [ha] at h; cases h
      | ok b₁ =>
          rw [ha] at h
          exact ih h (hstep a b b₁ ha hb)

/-- A handler: an answer or a failure, and the state it leaves in either case. -/
def Service (ε σ α : Type) : Type := σ → Except ε α × σ

namespace Service

variable {ε σ α β : Type}

instance : Monad (Service ε σ) where
  pure a := fun s ↦ (.ok a, s)
  bind m f := fun s ↦
    match m s with
    | (.ok a, s') => f a s'
    | (.error e, s') => (.error e, s')

theorem bind_apply (m : Service ε σ α) (f : α → Service ε σ β) (s : σ) :
    (m >>= f) s = match m s with
      | (.ok a, s') => f a s'
      | (.error e, s') => (.error e, s') := rfl

def fail (e : ε) : Service ε σ α := fun s ↦ (.error e, s)

/-- A read of the state; it cannot fail. -/
def query (f : σ → α) : Service ε σ α := fun s ↦ (.ok (f s), s)

/-- A read that may refuse, leaving the state alone. -/
def check (f : σ → Except ε α) : Service ε σ α := fun s ↦ (f s, s)

/-- A pure computation that may refuse. -/
def ofExcept (r : Except ε α) : Service ε σ α := fun s ↦ (r, s)

def write (f : σ → σ) : Service ε σ Unit := fun s ↦ (.ok (), f s)

/-- A statement that changes the state or fails without changing it. -/
def exec (f : σ → Except ε σ) : Service ε σ Unit := fun s ↦
  match f s with
  | .ok s' => (.ok (), s')
  | .error e => (.error e, s)

/-- The same for a write that returns something. -/
def returning (f : σ → Except ε (α × σ)) : Service ε σ α := fun s ↦
  match f s with
  | .ok (a, s') => (.ok a, s')
  | .error e => (.error e, s)

/-- `require p e`: go on when `p` holds, else fail with `e`. -/
def require (p : Prop) [Decidable p] (e : ε) : Service ε σ Unit := if p then pure () else fail e

/-- A step for the value, when there is one. -/
def whenSome (o : Option α) (f : α → Service ε σ Unit) : Service ε σ Unit :=
  match o with
  | none => pure ()
  | some a => f a

/-- All or nothing: a failure inside takes every write inside back. -/
def transaction (m : Service ε σ α) : Service ε σ α := fun s ↦
  match m s with
  | (.ok a, s') => (.ok a, s')
  | (.error e, _) => (.error e, s)

/-- A savepoint: a failure inside takes the writes inside back and becomes an answer. -/
def savepoint (m : Service ε σ α) : Service ε σ (Except ε α) := fun s ↦
  match m s with
  | (.ok a, s') => (.ok (.ok a), s')
  | (.error e, _) => (.ok (.error e), s)

/-- A statement that may fail, `ok` says when: its failure is an answer, and leaves what `skip`
leaves. -/
def perhaps (ok : σ → Bool) (e : ε) (f : σ → α × σ) (skip : σ → σ) : Service ε σ (Except ε α) :=
  fun s ↦ if ok s then (.ok (.ok (f s).1), (f s).2) else (.ok (.error e), skip s)

/-- The handler for each element in turn, up to the first failure. -/
def forEach (f : α → Service ε σ Unit) : List α → Service ε σ Unit
  | [] => pure ()
  | a :: as => do
      f a
      forEach f as

/-- The state a handler leaves, whatever it answers. -/
def after (m : Service ε σ α) (s : σ) : σ := (m s).2

def wp (m : Service ε σ α) (Q : α → σ → Prop) (E : ε → σ → Prop) (s : σ) : Prop :=
  match m s with
  | (.ok a, s') => Q a s'
  | (.error e, s') => E e s'

variable {Q : α → σ → Prop} {E : ε → σ → Prop} {s : σ}

@[simp] theorem wp_pure (a : α) : wp (pure a : Service ε σ α) Q E s ↔ Q a s := Iff.rfl

@[simp] theorem wp_fail (e : ε) : wp (fail e : Service ε σ α) Q E s ↔ E e s := Iff.rfl

@[simp] theorem wp_bind (m : Service ε σ α) (f : α → Service ε σ β) {Q : β → σ → Prop} :
    wp (m >>= f) Q E s ↔ wp m (fun a s' ↦ wp (f a) Q E s') E s := by
  change (match (match m s with
    | (.ok a, s') => f a s'
    | (.error e, s') => (.error e, s')) with
    | (.ok a, s') => Q a s'
    | (.error e, s') => E e s') ↔ _
  unfold wp
  rcases m s with ⟨r, s'⟩
  cases r with
  | error e => exact Iff.rfl
  | ok a => exact Iff.rfl

@[simp] theorem wp_query (f : σ → α) : wp (query f : Service ε σ α) Q E s ↔ Q (f s) s := Iff.rfl

@[simp] theorem wp_write (f : σ → σ) {Q : Unit → σ → Prop} :
    wp (write f : Service ε σ Unit) Q E s ↔ Q () (f s) := Iff.rfl

theorem wp_check {f : σ → Except ε α} :
    wp (check f) Q E s ↔ (∀ a, f s = .ok a → Q a s) ∧ ∀ e, f s = .error e → E e s := by
  unfold wp check
  cases f s with
  | error e => simp
  | ok a => simp

@[simp] theorem wp_ofExcept (r : Except ε α) :
    wp (ofExcept r) Q E s ↔ (∀ a, r = .ok a → Q a s) ∧ ∀ e, r = .error e → E e s := by
  unfold wp ofExcept
  cases r with
  | error e => simp
  | ok a => simp

theorem wp_exec {f : σ → Except ε σ} {Q : Unit → σ → Prop} :
    wp (exec f) Q E s ↔ (∀ s', f s = .ok s' → Q () s') ∧ ∀ e, f s = .error e → E e s := by
  unfold wp exec
  cases f s with
  | error e => simp
  | ok a => simp

theorem wp_returning {f : σ → Except ε (α × σ)} :
    wp (returning f) Q E s ↔ (∀ a s', f s = .ok (a, s') → Q a s') ∧
      ∀ e, f s = .error e → E e s := by
  unfold wp returning
  cases f s with
  | error e => simp
  | ok r =>
      constructor
      · intro h
        refine ⟨fun a s' hr ↦ ?_, fun e he ↦ by cases he⟩
        obtain rfl := Except.ok.inj hr
        exact h
      · exact fun h ↦ h.1 r.1 r.2 rfl

@[simp] theorem wp_require (p : Prop) [Decidable p] (e : ε) {Q : Unit → σ → Prop} :
    wp (require p e : Service ε σ Unit) Q E s ↔ (p → Q () s) ∧ (¬ p → E e s) := by
  unfold require
  by_cases hp : p
  · simp [hp]
  · simp [hp]

@[simp] theorem wp_whenSome (o : Option α) (f : α → Service ε σ Unit) {Q : Unit → σ → Prop} :
    wp (whenSome o f) Q E s ↔ (o = none → Q () s) ∧ ∀ a, o = some a → wp (f a) Q E s := by
  cases o with
  | none => simp [whenSome]
  | some a => simp [whenSome]

@[simp] theorem wp_transaction (m : Service ε σ α) :
    wp (transaction m) Q E s ↔ wp m Q (fun e _ ↦ E e s) s := by
  unfold wp transaction
  rcases m s with ⟨r, s'⟩
  cases r with
  | error e => exact Iff.rfl
  | ok a => exact Iff.rfl

theorem wp_savepoint (m : Service ε σ α) {Q : Except ε α → σ → Prop} :
    wp (savepoint m) Q E s ↔ wp m (fun a s' ↦ Q (.ok a) s') (fun e _ ↦ Q (.error e) s) s := by
  unfold wp savepoint
  rcases m s with ⟨r, s'⟩
  cases r with
  | error e => exact Iff.rfl
  | ok a => exact Iff.rfl

/-- Only what the computation does in this state matters. -/
theorem wp_perhaps {ok : σ → Bool} {e : ε} {f : σ → α × σ} {skip : σ → σ}
    {Q : Except ε α → σ → Prop} (hok : ok s = true → Q (.ok (f s).1) (f s).2)
    (herror : ok s = false → Q (.error e) (skip s)) : wp (perhaps ok e f skip) Q E s := by
  unfold wp perhaps
  cases hs : ok s with
  | true =>
      simp only [if_true]
      exact hok hs
  | false =>
      simp only [Bool.false_eq_true, if_false]
      exact herror hs

/-- Nothing is asked of a step whose answer does not matter. -/
theorem wp_any (m : Service ε σ α) (s : σ) : wp m (fun _ _ ↦ True) (fun _ _ ↦ True) s := by
  unfold wp
  split <;> trivial

theorem wp_congr {m m' : Service ε σ α} (h : m s = m' s) : wp m Q E s ↔ wp m' Q E s := by
  unfold wp
  rw [h]

/-- The rule of consequence. -/
theorem wp_mono {m : Service ε σ α} {Q' : α → σ → Prop} {E' : ε → σ → Prop}
    (h : wp m Q E s) (hQ : ∀ a s', Q a s' → Q' a s') (hE : ∀ e s', E e s' → E' e s') :
    wp m Q' E' s := by
  unfold wp at h ⊢
  generalize m s = outcome at h ⊢
  obtain ⟨r, s'⟩ := outcome
  cases r with
  | error e => exact hE e s' h
  | ok a => exact hQ a s' h

theorem wp_and {m : Service ε σ α} {Q' : α → σ → Prop} {E' : ε → σ → Prop} (h : wp m Q E s)
    (h' : wp m Q' E' s) : wp m (fun a s ↦ Q a s ∧ Q' a s) (fun e s ↦ E e s ∧ E' e s) s := by
  unfold wp at *
  generalize m s = outcome at *
  obtain ⟨r, s'⟩ := outcome
  cases r with
  | error e => exact ⟨h, h'⟩
  | ok a => exact ⟨h, h'⟩

/-- `Q` holds with an answer; nothing is said of a failure. -/
def onAnswer (m : Service ε σ α) (Q : α → σ → Prop) (s : σ) : Prop :=
  match m s with
  | (.ok a, s') => Q a s'
  | (.error _, _) => True

instance {m : Service ε σ α} {Q : α → σ → Prop} [∀ a s', Decidable (Q a s')] {s : σ} :
    Decidable (onAnswer m Q s) :=
  match h : m s with
  | (.ok a, s') => decidable_of_iff (Q a s') (by unfold onAnswer; rw [h])
  | (.error _, _) => isTrue (by unfold onAnswer; rw [h]; trivial)

theorem onAnswer_iff {m : Service ε σ α} : onAnswer m Q s ↔ wp m Q (fun _ _ ↦ True) s := Iff.rfl

/-! ### Rules to go through a handler from the top -/

section Steps

variable {f : α → Service ε σ β} {Q : β → σ → Prop}

/-- The step's own specification, then the rest. -/
theorem wp_seq {m : Service ε σ α} {P : α → σ → Prop} (hm : wp m P E s)
    (hf : ∀ a s', P a s' → wp (f a) Q E s') : wp (m >>= f) Q E s :=
  (wp_bind m f).mpr (wp_mono hm hf fun _ _ h ↦ h)

theorem wp_ofExcept_seq {r : Except ε α} (hE : ∀ e, E e s)
    (hf : ∀ a, r = .ok a → wp (f a) Q E s) : wp (ofExcept r >>= f) Q E s := by
  rw [wp_bind, wp_ofExcept]
  exact ⟨hf, fun e _ ↦ hE e⟩

theorem wp_check_seq {g : σ → Except ε α} (hE : ∀ e, E e s)
    (hf : ∀ a, g s = .ok a → wp (f a) Q E s) : wp (check g >>= f) Q E s := by
  rw [wp_bind, wp_check]
  exact ⟨hf, fun e _ ↦ hE e⟩

theorem wp_require_seq {p : Prop} [Decidable p] {e : ε} {f : Unit → Service ε σ β} (hE : E e s)
    (hf : p → wp (f ()) Q E s) : wp (require p e >>= f) Q E s := by
  rw [wp_bind, wp_require]
  exact ⟨hf, fun _ ↦ hE⟩

theorem wp_whenSome_seq {γ : Type} {o : Option γ} {g : γ → Service ε σ Unit}
    {f : Unit → Service ε σ β} (hnone : o = none → wp (f ()) Q E s)
    (hsome : ∀ c, o = some c → wp (g c) (fun _ s' ↦ wp (f ()) Q E s') E s) :
    wp (whenSome o g >>= f) Q E s := by
  rw [wp_bind, wp_whenSome]
  exact ⟨hnone, hsome⟩

theorem wp_query_seq {g : σ → α} (hf : wp (f (g s)) Q E s) : wp (query g >>= f) Q E s := hf

end Steps

/-- The loop rule: an invariant every pass keeps, also when it fails, holds at the end. -/
theorem wp_forEach {f : α → Service ε σ Unit} {as : List α} {I : σ → Prop}
    (hstep : ∀ a ∈ as, ∀ s, I s → wp (f a) (fun _ s' ↦ I s') (fun _ s' ↦ I s') s) (hs : I s) :
    wp (forEach f as) (fun _ s' ↦ I s') (fun _ s' ↦ I s') s := by
  induction as generalizing s with
  | nil => exact hs
  | cons a as ih =>
      rw [forEach, wp_bind]
      refine wp_mono (hstep a List.mem_cons_self s hs) (fun _ s' hs' ↦ ?_) (fun _ _ h ↦ h)
      exact ih (fun b hb ↦ hstep b (List.mem_cons_of_mem a hb)) hs'

/-- The loop rule with an invariant of what is still to come. -/
theorem wp_forEach_rest {f : α → Service ε σ Unit} {as : List α} {I : List α → σ → Prop}
    {J : σ → Prop} (hstep : ∀ a as s, I (a :: as) s →
      wp (f a) (fun _ s' ↦ I as s') (fun _ s' ↦ J s') s) (hs : I as s) :
    wp (forEach f as) (fun _ s' ↦ I [] s') (fun _ s' ↦ J s') s := by
  induction as generalizing s with
  | nil => exact hs
  | cons a as ih =>
      rw [forEach, wp_bind]
      exact wp_mono (hstep a as s hs) (fun _ s' hs' ↦ ih hs') fun _ _ h ↦ h

/-- A specification, read off an outcome. -/
theorem of_wp {m : Service ε σ α} (h : wp m Q E s) :
    (∀ a s', m s = (.ok a, s') → Q a s') ∧ ∀ e s', m s = (.error e, s') → E e s' := by
  unfold wp at h
  constructor
  · intro a s' hm
    rw [hm] at h
    exact h
  · intro e s' hm
    rw [hm] at h
    exact h

/-- The outcome itself, as a specification. -/
theorem wp_outcome (m : Service ε σ α) (s : σ) :
    wp m (fun a s' ↦ m s = (.ok a, s')) (fun e s' ↦ m s = (.error e, s')) s := by
  unfold wp
  rcases m s with ⟨r, s'⟩
  cases r with
  | error e => rfl
  | ok a => rfl

/-- What holds of the end state with an answer and with a failure holds of `after`. -/
theorem after_of_wp {m : Service ε σ α} {P : σ → Prop}
    (h : wp m (fun _ s' ↦ P s') (fun _ s' ↦ P s') s) : P (after m s) := by
  unfold wp at h
  unfold after
  rcases hm : m s with ⟨r, s'⟩
  rw [hm] at h
  cases r with
  | error e => exact h
  | ok a => exact h

-- from here on a specification is taken apart by the rules above only
attribute [irreducible] wp

end Service

end Tesbo.Reasoning
