import Mathlib.Data.Rat.Floor
import Mathlib.Tactic

/-!
# Rounded arithmetic

Numbers of a fixed precision stand for rationals, and an operation on them gives the exact result,
rounded.  What is used of the rounding is that it is monotone and leaves small binary fractions as they
are; overflow is not modelled.
-/

namespace Tesbo.Reasoning

structure Rounding (D : Type) [LinearOrder D] where
  val : D → ℚ
  rnd : ℚ → D
  le_iff : ∀ x y : D, x ≤ y ↔ val x ≤ val y
  rnd_mono : Monotone rnd
  rnd_val : ∀ x, rnd (val x) = x
  val_rnd : ∀ (m : ℤ) (k : ℕ), |m| ≤ 2 ^ 53 → k ≤ 1074 → val (rnd (m / 2 ^ k)) = m / 2 ^ k

namespace Rounding

variable {D : Type} [LinearOrder D] (R : Rounding D)

def add (x y : D) : D := R.rnd (R.val x + R.val y)

def mul (x y : D) : D := R.rnd (R.val x * R.val y)

def div (x y : D) : D := R.rnd (R.val x / R.val y)

def sum (xs : List D) : D := xs.foldl R.add (R.rnd 0)

variable {R} {x y z : D} {q : ℚ}

/-! ## Rounding against numbers -/

theorem rnd_le (h : q ≤ R.val x) : R.rnd q ≤ x := by
  rw [← R.rnd_val x]
  exact R.rnd_mono h

theorem val_injective : Function.Injective R.val := fun x y h ↦ by
  rw [← R.rnd_val x, ← R.rnd_val y, h]

theorem val_rnd_int {n : ℤ} (hn : |n| ≤ 2 ^ 53) : R.val (R.rnd n) = n := by
  have h := R.val_rnd n 0 hn (by omega)
  rwa [pow_zero, div_one] at h

theorem val_zero : R.val (R.rnd 0) = 0 := by
  have h := @val_rnd_int D _ R 0 (by norm_num)
  exact_mod_cast h

theorem val_one : R.val (R.rnd 1) = 1 := by
  have h := @val_rnd_int D _ R 1 (by norm_num)
  exact_mod_cast h

theorem val_half : R.val (R.rnd (1 / 2)) = 1 / 2 := by
  have h := R.val_rnd 1 1 (by norm_num) (by omega)
  norm_num at h
  norm_num [h]

theorem val_mono (h : x ≤ y) : R.val x ≤ R.val y := (R.le_iff x y).mp h

theorem val_rnd_nonneg (h : 0 ≤ q) : 0 ≤ R.val (R.rnd q) := by
  rw [← @val_zero D _ R]
  exact val_mono (R.rnd_mono h)

theorem val_rnd_le_one (h : q ≤ 1) : R.val (R.rnd q) ≤ 1 := by
  rw [← @val_one D _ R]
  exact val_mono (R.rnd_mono h)

theorem one_le_val_rnd (h : 1 ≤ q) : 1 ≤ R.val (R.rnd q) := by
  rw [← @val_one D _ R]
  exact val_mono (R.rnd_mono h)

/-! ## Operations -/

theorem add_mono {x' y' : D} (hx : x ≤ x') (hy : y ≤ y') : R.add x y ≤ R.add x' y' :=
  R.rnd_mono (add_le_add (val_mono hx) (val_mono hy))

/-- A part of a number that is not negative. -/
theorem mul_le_left (hx : 0 ≤ R.val x) (hy : R.val y ≤ 1) : R.mul x y ≤ x :=
  rnd_le (mul_le_of_le_one_right hx hy)

theorem val_mul_nonneg (hx : 0 ≤ R.val x) (hy : 0 ≤ R.val y) : 0 ≤ R.val (R.mul x y) :=
  val_rnd_nonneg (mul_nonneg hx hy)

theorem val_add_nonneg (hx : 0 ≤ R.val x) (hy : 0 ≤ R.val y) : 0 ≤ R.val (R.add x y) :=
  val_rnd_nonneg (add_nonneg hx hy)

theorem div_unit (hx : 0 ≤ R.val x) (hy : 0 < R.val y) (hle : x ≤ y) :
    0 ≤ R.val (R.div x y) ∧ R.val (R.div x y) ≤ 1 :=
  ⟨val_rnd_nonneg (div_nonneg hx hy.le), val_rnd_le_one (div_le_one_of_le₀ (val_mono hle) hy.le)⟩

/-! ## Sums -/

section Sums

variable {β : Type} {f g : β → D}

theorem foldl_add_mono {l : List β} (h : ∀ b ∈ l, f b ≤ g b) (hx : x ≤ y) :
    (l.map f).foldl R.add x ≤ (l.map g).foldl R.add y := by
  induction l generalizing x y with
  | nil => exact hx
  | cons b l ih =>
      rw [List.map_cons, List.map_cons, List.foldl_cons, List.foldl_cons]
      exact ih (fun c hc ↦ h c (List.mem_cons_of_mem _ hc))
        (add_mono hx (h b List.mem_cons_self))

theorem foldl_add_nonneg {xs : List D} (h : ∀ d ∈ xs, 0 ≤ R.val d) (hx : 0 ≤ R.val x) :
    0 ≤ R.val (xs.foldl R.add x) := by
  induction xs generalizing x with
  | nil => exact hx
  | cons d xs ih =>
      rw [List.foldl_cons]
      exact ih (fun c hc ↦ h c (List.mem_cons_of_mem _ hc))
        (val_add_nonneg hx (h d List.mem_cons_self))

/-- A weighted mean of numbers up to 1, where some weight is left. -/
theorem weightedMean_unit {l : List β} {weight value : β → D}
    (hweight : ∀ b ∈ l, 0 ≤ R.val (weight b))
    (hvalue : ∀ b ∈ l, 0 ≤ R.val (value b) ∧ R.val (value b) ≤ 1)
    (hne : R.sum (l.map weight) ≠ R.rnd 0) :
    let mean := R.div (R.sum (l.map fun b ↦ R.mul (weight b) (value b))) (R.sum (l.map weight))
    0 ≤ R.val mean ∧ R.val mean ≤ 1 := by
  have hzero : 0 ≤ R.val (R.rnd 0) := val_zero.ge
  have hsum : 0 ≤ R.val (R.sum (l.map weight)) := by
    refine foldl_add_nonneg (fun d hd ↦ ?_) hzero
    obtain ⟨b, hb, rfl⟩ := List.mem_map.mp hd
    exact hweight b hb
  have hpos : 0 < R.val (R.sum (l.map weight)) := by
    refine lt_of_le_of_ne hsum fun heq ↦ hne (@val_injective D _ R _ _ ?_)
    rw [val_zero, ← heq]
  refine div_unit ?_ hpos ?_
  · refine foldl_add_nonneg (fun d hd ↦ ?_) hzero
    obtain ⟨b, hb, rfl⟩ := List.mem_map.mp hd
    exact val_mul_nonneg (hweight b hb) (hvalue b hb).1
  · exact foldl_add_mono (fun b hb ↦ mul_le_left (hweight b hb) (hvalue b hb).2) le_rfl

end Sums

end Rounding

end Tesbo.Reasoning
