import Mathlib.Data.Int.Log
import Mathlib.Data.Rat.Floor
import Mathlib.Tactic

/-!
# Doubles

The double nearest to a number that is not negative, ties going to the even one.  A result is off by
at most one part in 2⁵³; numbers too large or too small for a double are not met.
-/

namespace Tesbo.Reasoning.Doubles

def halfEven (x : ℚ) : ℤ :=
  if x - ⌊x⌋ < 1 / 2 then ⌊x⌋
  else if 1 / 2 < x - ⌊x⌋ then ⌊x⌋ + 1
  else if ⌊x⌋ % 2 = 0 then ⌊x⌋ else ⌊x⌋ + 1

/-- The distance between the doubles next to a number is the inverse of this. -/
def scale (q : ℚ) : ℚ := 2 ^ (52 - Int.log 2 q)

def double (q : ℚ) : ℚ := if q ≤ 0 then 0 else halfEven (q * scale q) / scale q

theorem abs_halfEven_sub_le (x : ℚ) : |(halfEven x : ℚ) - x| ≤ 1 / 2 := by
  have hlow := Int.floor_le x
  have hhigh := Int.lt_floor_add_one x
  unfold halfEven
  split
  · rw [abs_le]
    constructor
    · linarith
    · linarith
  split
  · push_cast
    rw [abs_le]
    constructor
    · linarith
    · linarith
  · -- in the middle both neighbours are as near
    have hmiddle : x - ⌊x⌋ = 1 / 2 := by linarith
    split
    · rw [abs_le]
      constructor
      · linarith
      · linarith
    · push_cast
      rw [abs_le]
      constructor
      · linarith
      · linarith

theorem scale_pos (q : ℚ) : 0 < scale q := zpow_pos (by norm_num) _

theorem one_le_mul_scale {q : ℚ} (hq : 0 < q) : 2 ^ 52 ≤ q * scale q := by
  have hlog : (2 : ℚ) ^ Int.log 2 q ≤ q := Int.zpow_log_le_self (by norm_num) hq
  have hprod : (2 : ℚ) ^ 52 = 2 ^ Int.log 2 q * scale q := by
    unfold scale
    rw [← zpow_add₀ (by norm_num)]
    norm_num
  rw [hprod]
  exact mul_le_mul_of_nonneg_right hlog (scale_pos q).le

/-- A double is off by at most one part in 2⁵³. -/
theorem abs_double_sub_le {q : ℚ} (hq : 0 ≤ q) : |double q - q| ≤ q / 2 ^ 53 := by
  unfold double
  split
  · next hle =>
      rw [le_antisymm hle hq]
      norm_num
  · next hlt =>
      have hpos : 0 < q := lt_of_not_ge hlt
      have hscale := scale_pos q
      have hround := abs_halfEven_sub_le (q * scale q)
      have hone := one_le_mul_scale hpos
      have hsub : (halfEven (q * scale q) : ℚ) / scale q - q =
          ((halfEven (q * scale q) : ℚ) - q * scale q) / scale q := by
        field_simp
      rw [hsub, abs_div, abs_of_pos hscale, div_le_iff₀ hscale]
      calc |(halfEven (q * scale q) : ℚ) - q * scale q| ≤ 1 / 2 := hround
        _ = 2 ^ 52 / 2 ^ 53 := by norm_num
        _ ≤ q * scale q / 2 ^ 53 := by gcongr
        _ = q / 2 ^ 53 * scale q := by ring

theorem double_le {q : ℚ} (hq : 0 ≤ q) : double q ≤ q * (1 + 1 / 2 ^ 53) := by
  have h := (abs_le.mp (abs_double_sub_le hq)).2
  linarith

theorem le_double {q : ℚ} (hq : 0 ≤ q) : q * (1 - 1 / 2 ^ 53) ≤ double q := by
  have h := (abs_le.mp (abs_double_sub_le hq)).1
  linarith

theorem double_nonneg {q : ℚ} (hq : 0 ≤ q) : 0 ≤ double q := by
  refine le_trans ?_ (le_double hq)
  apply mul_nonneg hq
  norm_num

end Tesbo.Reasoning.Doubles
