import Mathlib.Tactic

/-!
# Scanning a text

A scan looks for a match at each place of a text in turn and goes on after it; a match may be written
anew.  What a matcher takes is found again in front of what it leaves.
-/

namespace Tesbo.Reasoning.Scans

variable {β γ δ : Type}

/-! ## Scans -/

/-- The letters outside the matches and the matches, in their order.  A matcher answers with what a
text begins with and what is left after it; `skip` letters are still part of the last match. -/
def scanFrom (m : List β → Option (γ × List β)) : ℕ → List β → List (β ⊕ γ)
  | _, [] => []
  | skip + 1, _ :: l => scanFrom m skip l
  | 0, b :: l =>
      match m (b :: l) with
      | none => .inl b :: scanFrom m 0 l
      | some (found, rest) => .inr found :: scanFrom m (l.length - rest.length) l

def scan (m : List β → Option (γ × List β)) (l : List β) : List (β ⊕ γ) := scanFrom m 0 l

/-- A match takes something. -/
def Advances (m : List β → Option (γ × List β)) : Prop :=
  ∀ b l found rest, m (b :: l) = some (found, rest) → rest <:+ l

variable {m : List β → Option (γ × List β)}

theorem scanFrom_eq_drop (skip : ℕ) (l : List β) : scanFrom m skip l = scan m (l.drop skip) := by
  induction l generalizing skip with
  | nil => cases skip <;> rfl
  | cons b l ih =>
      cases skip with
      | zero => rfl
      | succ skip => exact ih skip

theorem scan_cons_none {b : β} {l : List β} (h : m (b :: l) = none) :
    scan m (b :: l) = .inl b :: scan m l := by
  rw [scan, scanFrom, h]
  rfl

theorem scan_cons_some {b : β} {l rest : List β} {found : γ} (h : m (b :: l) = some (found, rest))
    (hrest : rest <:+ l) : scan m (b :: l) = .inr found :: scan m rest := by
  rw [scan, scanFrom, h]
  dsimp only
  rw [scanFrom_eq_drop]
  obtain ⟨taken, rfl⟩ := hrest
  rw [List.length_append, Nat.add_sub_cancel, List.drop_left]

/-- A text with its matches written anew. -/
def replaceAll (m : List β → Option (γ × List β)) (keep : β → List δ) (write : γ → List δ)
    (l : List β) : List δ :=
  (scan m l).flatMap (Sum.elim keep write)

theorem replaceAll_cons_none {keep : β → List δ} {write : γ → List δ} {b : β} {l : List β}
    (h : m (b :: l) = none) :
    replaceAll m keep write (b :: l) = keep b ++ replaceAll m keep write l := by
  unfold replaceAll
  rw [scan_cons_none h, List.flatMap_cons, Sum.elim_inl]

theorem replaceAll_cons_some {keep : β → List δ} {write : γ → List δ} {b : β} {l rest : List β}
    {found : γ} (h : m (b :: l) = some (found, rest)) (hrest : rest <:+ l) :
    replaceAll m keep write (b :: l) = write found ++ replaceAll m keep write rest := by
  unfold replaceAll
  rw [scan_cons_some h hrest, List.flatMap_cons, Sum.elim_inr]

/-- Letters at none of which a match begins. -/
theorem scan_append_of_none {letters rest : List β}
    (h : ∀ first others, letters = first ++ others → others ≠ [] → m (others ++ rest) = none) :
    scan m (letters ++ rest) = letters.map .inl ++ scan m rest := by
  induction letters with
  | nil => rfl
  | cons a letters ih =>
      have hnone : m (a :: (letters ++ rest)) = none := h [] (a :: letters) rfl (List.cons_ne_nil _ _)
      rw [List.cons_append, scan_cons_none hnone, ih, List.map_cons, List.cons_append]
      intro first others hletters hothers
      exact h (a :: first) others (by rw [hletters, List.cons_append]) hothers

theorem replaceAll_append_of_none {keep : β → List δ} {write : γ → List δ}
    {letters rest : List β}
    (h : ∀ first others, letters = first ++ others → others ≠ [] → m (others ++ rest) = none) :
    replaceAll m keep write (letters ++ rest) = letters.flatMap keep ++ replaceAll m keep write rest := by
  unfold replaceAll
  rw [scan_append_of_none h, List.flatMap_append, List.flatMap_map]
  rfl

/-! ## What matchers are made of -/

section Matchers

variable [DecidableEq β]

/-- What is left after a word. -/
def after : List β → List β → Option (List β)
  | [], l => some l
  | _ :: _, [] => none
  | a :: word, b :: l => if a = b then after word l else none

/-- The shortest beginning before a word, without a letter to stop at, and what is left after the
word. -/
def untilWord (stop : β → Bool) (word : List β) : List β → Option (List β × List β)
  | [] => none
  | b :: l =>
      match after word (b :: l) with
      | some rest => some ([], rest)
      | none =>
          if stop b then none
          else (untilWord stop word l).map fun r ↦ (b :: r.1, r.2)

/-- What stands between two words: at least one letter, as few as there can be. -/
def delimited (stop : β → Bool) (word : List β) (l : List β) : Option (List β × List β) :=
  match after word l with
  | none | some [] => none
  | some (b :: l) =>
      if stop b then none
      else (untilWord stop word l).map fun r ↦ (b :: r.1, r.2)

theorem of_after {word l rest : List β} (h : after word l = some rest) : l = word ++ rest := by
  induction word generalizing l with
  | nil => exact Option.some.inj h
  | cons a word ih =>
      cases l with
      | nil => cases h
      | cons b l =>
          rw [after] at h
          split at h
          · rename_i hb
            rw [hb, ih h, List.cons_append]
          · cases h

theorem suffix_of_after {word l rest : List β} (h : after word l = some rest) : rest <:+ l :=
  ⟨word, (of_after h).symm⟩

/-- A text up to the first letter that is not of a kind, and the word it stops at. -/
theorem takeWhile_append_of_after {p : β → Bool} {word l rest : List β}
    (h : after word (l.dropWhile p) = some rest) : l = l.takeWhile p ++ (word ++ rest) := by
  rw [← of_after h, List.takeWhile_append_dropWhile]

theorem of_untilWord {stop : β → Bool} {word l body rest : List β}
    (h : untilWord stop word l = some (body, rest)) : l = body ++ (word ++ rest) := by
  induction l generalizing body with
  | nil => cases h
  | cons b l ih =>
      rw [untilWord] at h
      split at h
      · rename_i hafter
        cases h
        rw [List.nil_append]
        exact of_after hafter
      · split at h
        · cases h
        · obtain ⟨r, hr, heq⟩ := Option.map_eq_some_iff.mp h
          cases heq
          rw [ih hr, List.cons_append]

theorem of_delimited {stop : β → Bool} {word l body rest : List β}
    (h : delimited stop word l = some (body, rest)) : l = word ++ (body ++ (word ++ rest)) := by
  unfold delimited at h
  split at h
  · cases h
  · cases h
  · rename_i c l' hafter
    split at h
    · cases h
    · obtain ⟨r, hr, heq⟩ := Option.map_eq_some_iff.mp h
      cases heq
      rw [of_after hafter, of_untilWord hr, List.cons_append]

theorem advances_delimited (stop : β → Bool) (a : β) (word : List β) :
    Advances (delimited stop (a :: word)) := by
  intro b l body rest h
  have hl := of_delimited h
  rw [List.cons_append] at hl
  rw [(List.cons.inj hl).2]
  exact ⟨word ++ (body ++ a :: word), by simp⟩

end Matchers

end Tesbo.Reasoning.Scans
