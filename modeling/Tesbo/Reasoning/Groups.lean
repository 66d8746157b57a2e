import Mathlib.Data.Finset.Card
import Mathlib.Tactic

/-!
# Calls grouped by a key

The calls that are at some point of their work, by the key they work on.  A call joins the group of its
key and leaves it again.
-/

namespace Tesbo.Reasoning

variable {γ ι : Type} [DecidableEq γ] [DecidableEq ι] {f : γ → Finset ι} {key key' : γ} {k j : ι}

theorem mem_insert_at : j ∈ Function.update f key (insert k (f key)) key' ↔
    j ∈ f key' ∨ (j = k ∧ key' = key) := by
  by_cases hkey : key' = key
  · subst hkey
    rw [Function.update_self, Finset.mem_insert]
    tauto
  · rw [Function.update_of_ne hkey]
    tauto

theorem mem_erase_at : j ∈ Function.update f key ((f key).erase k) key' ↔
    j ∈ f key' ∧ ¬ (j = k ∧ key' = key) := by
  by_cases hkey : key' = key
  · subst hkey
    rw [Function.update_self, Finset.mem_erase]
    tauto
  · rw [Function.update_of_ne hkey]
    tauto

theorem card_insert_at (hk : k ∉ f key) :
    (Function.update f key (insert k (f key)) key').card =
      (f key').card + if key' = key then 1 else 0 := by
  by_cases hkey : key' = key
  · subst hkey
    rw [Function.update_self, Finset.card_insert_of_notMem hk, if_pos rfl]
  · rw [Function.update_of_ne hkey, if_neg hkey]
    rfl

theorem card_erase_at (hk : k ∈ f key) (key' : γ) :
    (Function.update f key ((f key).erase k) key').card + (if key' = key then 1 else 0) =
      (f key').card := by
  by_cases hkey : key' = key
  · subst hkey
    rw [Function.update_self, if_pos rfl]
    exact Finset.card_erase_add_one hk
  · rw [Function.update_of_ne hkey, if_neg hkey]
    rfl

/-- The others of a group, when one joins. -/
theorem mem_insert_at_of_ne (hj : j ≠ k) :
    j ∈ Function.update f key (insert k (f key)) key' ↔ j ∈ f key' := by
  rw [mem_insert_at]
  exact or_iff_left fun hno ↦ hj hno.1

theorem mem_erase_at_of_ne (hj : j ≠ k) :
    j ∈ Function.update f key ((f key).erase k) key' ↔ j ∈ f key' := by
  rw [mem_erase_at]
  exact and_iff_left fun hno ↦ hj hno.1

end Tesbo.Reasoning
