import Mathlib.Data.List.Basic
import Mathlib.Tactic

/-!
# Lists taken in batches

A list is handed over in batches of `k`, and what comes back for each batch is written one after
the other.  `Aligned` says that what stands at a place of the whole is what that place's own batch
was to give it.
-/

namespace Tesbo.Reasoning

variable {α β : Type}

/-! ## Batches -/

def inBatches (k : ℕ) (l : List α) : List (List α) :=
  (List.range ((l.length + (k - 1)) / k)).map fun i ↦ (l.drop (i * k)).take k

variable {k : ℕ} {l : List α}

theorem inBatches_nil (hk : 0 < k) : inBatches k ([] : List α) = [] := by
  unfold inBatches
  rw [List.length_nil, Nat.div_eq_of_lt (by omega)]
  rfl

theorem inBatches_of_ne_nil (hk : 0 < k) (hl : l ≠ []) :
    inBatches k l = l.take k :: inBatches k (l.drop k) := by
  have hpos := List.length_pos_of_ne_nil hl
  -- the first batch apart, there are as many as in what is left
  have hcount : (l.length + (k - 1)) / k = ((l.drop k).length + (k - 1)) / k + 1 := by
    rw [List.length_drop]
    by_cases hle : l.length ≤ k
    · rw [show l.length + (k - 1) = l.length - 1 + k by omega, Nat.add_div_right _ hk,
        Nat.div_eq_of_lt (by omega), Nat.div_eq_of_lt (by omega)]
    · rw [← Nat.add_div_right _ hk]
      congr 1
      omega
  unfold inBatches
  rw [hcount, List.range_succ_eq_map, List.map_cons, List.map_map, Nat.zero_mul, List.drop_zero]
  refine congrArg (l.take k :: ·) (List.map_congr_left fun i _ ↦ ?_)
  rw [Function.comp_apply, List.drop_drop, Nat.succ_mul, Nat.add_comm]

theorem flatten_inBatches (hk : 0 < k) : (inBatches k l).flatten = l := by
  have htake : ∀ n, ((List.range n).map fun i ↦ (l.drop (i * k)).take k).flatten =
      l.take (n * k) := by
    intro n
    induction n with
    | zero => rw [Nat.zero_mul]; rfl
    | succ n ih =>
        rw [List.range_succ, List.map_append, List.flatten_append, ih, List.map_singleton,
          List.flatten_singleton, Nat.succ_mul, List.take_add]
  unfold inBatches
  rw [htake]
  refine List.take_of_length_le ?_
  have := Nat.lt_div_mul_add hk (a := l.length + (k - 1))
  omega

/-- Where an element of the list stands in its batch. -/
theorem getElem?_of_inBatches {batch : List α} {b i : ℕ} (h : (inBatches k l)[b]? = some batch)
    (hi : i < k) : batch[i]? = l[b * k + i]? := by
  unfold inBatches at h
  rw [List.getElem?_map, Option.map_eq_some_iff] at h
  obtain ⟨b', hb, rfl⟩ := h
  obtain ⟨-, rfl⟩ := List.getElem?_eq_some_iff.mp hb
  rw [List.getElem_range, List.getElem?_take_of_lt hi, List.getElem?_drop]

/-! ## Answers put together -/

/-- Each of `n` places has an element, one that batch number `b + j / k` owes its place `j % k`. -/
def Aligned (own : ℕ → ℕ → β → Prop) (k n b : ℕ) (answers : List β) : Prop :=
  ∀ j < n, ∃ v, answers[j]? = some v ∧ own (b + j / k) (j % k) v

variable {own : ℕ → ℕ → β → Prop} {n b : ℕ} {answer rest : List β}

/-- The only batch: whatever comes after the places that are asked for is not looked at. -/
theorem aligned_of_le (hn : n ≤ k) :
    Aligned own k n b answer ↔ ∀ j < n, ∃ v, answer[j]? = some v ∧ own b j v := by
  refine forall₂_congr fun j hj ↦ ?_
  rw [Nat.div_eq_of_lt (by omega), Nat.mod_eq_of_lt (by omega), Nat.add_zero]

/-- A batch that others follow has to answer each of its places and nothing more. -/
theorem aligned_append (hk : 0 < k) (hn : k < n)
    (hanswer : ∀ v ∈ answer, ∀ b' j, own b' j v → b' = b)
    (hrest : ∀ v ∈ rest, ∀ b' j, own b' j v → b < b') :
    Aligned own k n b (answer ++ rest) ↔
      answer.length = k ∧ Aligned own k k b answer ∧ Aligned own k (n - k) (b + 1) rest := by
  constructor
  · intro h
    have hlong : k ≤ answer.length := by
      by_contra hshort
      obtain ⟨v, hv, hown⟩ := h answer.length (by omega)
      rw [List.getElem?_append_right le_rfl] at hv
      rw [Nat.div_eq_of_lt (by omega)] at hown
      exact absurd (hrest v (List.mem_of_getElem? hv) _ _ hown) (lt_irrefl b)
    have hshort : answer.length ≤ k := by
      by_contra hlonger
      obtain ⟨v, hv, hown⟩ := h k hn
      rw [List.getElem?_append_left (by omega)] at hv
      rw [Nat.div_self hk] at hown
      have := hanswer v (List.mem_of_getElem? hv) _ _ hown
      omega
    have hlength := Nat.le_antisymm hshort hlong
    refine ⟨hlength, fun j hj ↦ ?_, fun j hj ↦ ?_⟩
    · obtain ⟨v, hv, hown⟩ := h j (by omega)
      rw [List.getElem?_append_left (by omega)] at hv
      exact ⟨v, hv, hown⟩
    · obtain ⟨v, hv, hown⟩ := h (j + k) (by omega)
      rw [List.getElem?_append_right (by omega), hlength, Nat.add_sub_cancel] at hv
      rw [Nat.add_div_right j hk, Nat.add_mod_right] at hown
      exact ⟨v, hv, by rwa [show b + 1 + j / k = b + (j / k).succ by omega]⟩
  · intro ⟨hlength, hown, hothers⟩ j hj
    by_cases hlt : j < k
    · rw [List.getElem?_append_left (by omega)]
      exact hown j hlt
    · obtain ⟨v, hv, hv'⟩ := hothers (j - k) (by omega)
      refine ⟨v, ?_, ?_⟩
      · rw [List.getElem?_append_right (by omega), hlength]
        exact hv
      · have hj' : j - k + k = j := by omega
        rw [← hj', Nat.add_div_right _ hk, Nat.add_mod_right]
        rwa [show b + ((j - k) / k + 1) = b + 1 + (j - k) / k by omega]

end Tesbo.Reasoning
