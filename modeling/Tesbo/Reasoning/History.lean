import Mathlib.Tactic

/-!
# Histories, and what a copy of an old state still shows

The states a store has had, newest first, each with the caller who left it.  A copy of what a view
showed once may be handed out later.  It is good enough for whoever knows that some callers are done
when it is no older than what those callers changed.
-/

namespace Tesbo.Reasoning

/-- A state, and the caller who left it, where there is one to name. -/
structure Mark (δ : Type*) where
  caller : Option ℕ
  state : δ

variable {δ ν : Type*} {view : δ → ν} {h older : List (Mark δ)} {m : Mark δ} {v : ν} {n c : ℕ}
  {since : List ℕ}

/-- What the view shows differs from what it showed just before. -/
def Changes (view : δ → ν) (m : Mark δ) : List (Mark δ) → Prop
  | [] => True
  | before :: _ => view m.state ≠ view before.state

/-- `v` was shown in a state that is not older than the `n`-th. -/
def ShownSince (view : δ → ν) (n : ℕ) (v : ν) : List (Mark δ) → Prop
  | [] => False
  | m :: older => (view m.state = v ∧ n ≤ older.length + 1) ∨ ShownSince view n v older

/-- Every change the caller made is among the first `n` states. -/
def Settled (view : δ → ν) (c n : ℕ) : List (Mark δ) → Prop
  | [] => True
  | m :: older =>
      (m.caller = some c → Changes view m older → older.length + 1 ≤ n) ∧ Settled view c n older

/-- `v` was shown in a state that has every change the callers made. -/
def Includes (view : δ → ν) (since : List ℕ) (v : ν) : List (Mark δ) → Prop
  | [] => False
  | m :: older => view m.state = v ∨
      (¬ ((∃ c ∈ since, m.caller = some c) ∧ Changes view m older) ∧ Includes view since v older)

instance [DecidableEq ν] (m : Mark δ) : ∀ h, Decidable (Changes view m h)
  | [] => instDecidableTrue
  | before :: _ => inferInstanceAs (Decidable (view m.state ≠ view before.state))

instance decidableShownSince [DecidableEq ν] : ∀ h, Decidable (ShownSince view n v h)
  | [] => instDecidableFalse
  | m :: older =>
      have : Decidable (ShownSince view n v older) := decidableShownSince older
      inferInstanceAs (Decidable ((view m.state = v ∧ n ≤ older.length + 1) ∨ _))

instance decidableIncludes [DecidableEq ν] : ∀ h, Decidable (Includes view since v h)
  | [] => instDecidableFalse
  | m :: older =>
      have : Decidable (Includes view since v older) := decidableIncludes older
      inferInstanceAs (Decidable (view m.state = v ∨ (¬ ((∃ c ∈ since, _) ∧ _) ∧ _)))

theorem ShownSince.push (hv : ShownSince view n v h) (m : Mark δ) : ShownSince view n v (m :: h) :=
  .inr hv

theorem ShownSince.le_length (hv : ShownSince view n v h) : n ≤ h.length := by
  induction h with
  | nil => exact hv.elim
  | cons m older ih =>
      rcases hv with ⟨-, hn⟩ | hv
      · exact hn
      · have hle := ih hv
        rw [List.length_cons]
        omega

/-- A caller who has left no state. -/
theorem settled_of_not_caller (hc : ∀ m ∈ h, m.caller ≠ some c) : Settled view c n h := by
  induction h with
  | nil => exact trivial
  | cons m older ih =>
      refine ⟨fun hm ↦ absurd hm (hc m List.mem_cons_self), ?_⟩
      exact ih fun m' hm' ↦ hc m' (List.mem_cons_of_mem m hm')

theorem settled_of_length_le (hn : h.length ≤ n) : Settled view c n h := by
  induction h with
  | nil => exact trivial
  | cons m older ih =>
      rw [List.length_cons] at hn
      exact ⟨fun _ _ ↦ hn, ih (by omega)⟩

theorem Settled.push (hs : Settled view c n h)
    (hm : m.caller = some c → Changes view m h → h.length + 1 ≤ n) : Settled view c n (m :: h) :=
  ⟨hm, hs⟩

theorem Includes.push (hv : Includes view since v h) (hm : ∀ c ∈ since, m.caller ≠ some c) :
    Includes view since v (m :: h) := by
  refine .inr ⟨?_, hv⟩
  rintro ⟨⟨c, hc, hcaller⟩, -⟩
  exact hm c hc hcaller

/-- What later callers have left takes nothing away. -/
theorem Includes.append {newer : List (Mark δ)} (hv : Includes view since v h)
    (hnewer : ∀ m ∈ newer, ∀ c ∈ since, m.caller ≠ some c) :
    Includes view since v (newer ++ h) := by
  induction newer with
  | nil => exact hv
  | cons m newer ih =>
      refine Includes.push (ih fun m' hm' ↦ hnewer m' (List.mem_cons_of_mem m hm')) ?_
      exact hnewer m List.mem_cons_self

/-- A copy no older than the `n`-th state is good enough for who knows of callers whose changes are
all among the first `n`. -/
theorem ShownSince.includes (hv : ShownSince view n v h)
    (hs : ∀ c ∈ since, Settled view c n h) : Includes view since v h := by
  induction h with
  | nil => exact hv.elim
  | cons m older ih =>
      rcases hv with ⟨hv, -⟩ | hv
      · exact .inl hv
      · refine .inr ⟨?_, ih hv fun c hc ↦ (hs c hc).2⟩
        rintro ⟨⟨c, hc, hcaller⟩, hchanges⟩
        -- the change would be newer than the copy
        have hlate := (hs c hc).1 hcaller hchanges
        have hle := hv.le_length
        omega

end Tesbo.Reasoning
