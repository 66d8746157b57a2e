import Mathlib.Data.List.Sort
import Mathlib.Order.Compare

/-!
# Sorted lists read in pages

A statement that asks for an order gets some arrangement of its rows in which no row comes after one
it should precede.  Where the order tells all rows apart there is one such arrangement.
-/

namespace Tesbo.Reasoning

variable {α : Type}

/-- An order of a key of the rows. -/
theorem transCmp_key {β : Type} {cmp : β → β → Ordering} [Std.TransCmp cmp] (key : α → β) :
    Std.TransCmp fun a b ↦ cmp (key a) (key b) := by
  refine @Std.TransCmp.mk _ _ ⟨?_⟩ ?_
  · intro a b
    exact Std.OrientedCmp.eq_swap
  · intro a b c hab hbc
    exact Std.TransCmp.isLE_trans hab hbc

/-! ## Arrangements -/

section Arrangements

variable {cmp : α → α → Ordering} {plan plan' : List α → List α}

/-- What a sort may do with the rows it is given. -/
structure Arranges (cmp : α → α → Ordering) (plan : List α → List α) : Prop where
  perm : ∀ rows, (plan rows).Perm rows
  sorted : ∀ rows, (plan rows).Pairwise fun a b ↦ cmp a b ≠ .gt

/-- Rows an order tells apart are arranged in one way. -/
theorem Arranges.unique [Std.OrientedCmp cmp] (h : Arranges cmp plan) (h' : Arranges cmp plan')
    {rows : List α} (htotal : ∀ a ∈ rows, ∀ b ∈ rows, cmp a b = .eq → a = b) :
    plan rows = plan' rows := by
  have hperm : (plan rows).Perm (plan' rows) := (h.perm rows).trans (h'.perm rows).symm
  apply List.Perm.eq_of_pairwise _ (h.sorted rows) (h'.sorted rows) hperm
  intro a b ha hb hab hba
  apply htotal a ((h.perm rows).subset ha) b ((h'.perm rows).subset hb)
  rw [@Std.OrientedCmp.eq_swap _ cmp] at hba
  cases hcmp : cmp a b with
  | lt =>
      rw [hcmp] at hba
      exact absurd rfl hba
  | eq => rfl
  | gt => exact absurd hcmp hab

/-- Insertion sort is such a sort. -/
theorem arranges_insertionSort [Std.TransCmp cmp] :
    Arranges cmp fun rows ↦ rows.insertionSort fun a b ↦ cmp a b ≠ .gt := by
  have hle (a b : α) : cmp a b ≠ .gt ↔ (cmp a b).isLE = true := Ordering.isLE_iff_ne_gt.symm
  have htotal : Std.Total fun a b ↦ cmp a b ≠ .gt := by
    constructor
    intro a b
    by_cases h : cmp a b = .gt
    · right
      rw [Std.OrientedCmp.gt_iff_lt.mp h]
      exact fun h ↦ nomatch h
    · exact .inl h
  have htrans : IsTrans α fun a b ↦ cmp a b ≠ .gt := by
    constructor
    intro a b c hab hbc
    rw [hle] at hab hbc ⊢
    exact Std.TransCmp.isLE_trans hab hbc
  constructor
  · exact fun rows ↦ List.perm_insertionSort _ rows
  · exact fun rows ↦ List.pairwise_insertionSort _ rows

end Arrangements

/-! ## Pages -/

/-- The page numbered `n`, from 0. -/
def page (limit n : ℕ) (rows : List α) : List α := (rows.drop (n * limit)).take limit

/-- The first pages, one after another, are the first rows. -/
theorem flatMap_page (limit n : ℕ) (rows : List α) :
    (List.range n).flatMap (fun k ↦ page limit k rows) = rows.take (n * limit) := by
  induction n with
  | zero => rw [Nat.zero_mul, List.take_zero]; rfl
  | succ n ih =>
      rw [List.range_succ, List.flatMap_append, ih, Nat.succ_mul, List.take_add]
      simp [page]

end Tesbo.Reasoning
