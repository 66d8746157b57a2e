import Tesbo.Text

/-!
# Slices of texts

`slice(0, n)` counts UTF-16 code units, and so do the bounds on texts that are made of slices.
-/

namespace Tesbo

/-- The UTF-16 code units of a character. -/
def charUnits (c : Char) : ℕ := if c.toNat < 0x10000 then 1 else 2

def unitsOf (cs : List Char) : ℕ := (cs.map charUnits).sum

theorem jsLength_eq (s : String) : jsLength s = unitsOf s.toList := rfl

theorem unitsOf_append (cs ds : List Char) : unitsOf (cs ++ ds) = unitsOf cs + unitsOf ds := by
  unfold unitsOf
  rw [List.map_append, List.sum_append]

theorem unitsOf_cons (c : Char) (cs : List Char) : unitsOf (c :: cs) = charUnits c + unitsOf cs :=
  rfl

theorem jsLength_append (s t : String) : jsLength (s ++ t) = jsLength s + jsLength t := by
  rw [jsLength_eq, String.toList_append, unitsOf_append]
  rfl

theorem charUnits_pos (c : Char) : 0 < charUnits c := by
  unfold charUnits
  split <;> omega

/-- The three ways a slice goes on: the text is over, or the next character fits, or half of it. -/
theorem sliceChars_cons (n : ℕ) (c : Char) (cs : List Char) :
    sliceChars n (c :: cs) =
      if charUnits c ≤ n then c :: sliceChars (n - charUnits c) cs
      else if n = 0 then [] else [Char.ofNat 0xFFFD] := by
  unfold charUnits
  cases n with
  | zero => split <;> rfl
  | succ n =>
      by_cases hc : c.toNat < 0x10000
      · rw [if_pos hc, if_pos (by omega : 1 ≤ n + 1), sliceChars, if_pos hc]
        rfl
      · rw [if_neg hc, sliceChars, if_neg hc]
        by_cases hn : n = 0
        · rw [if_pos hn, hn]
          rfl
        · rw [if_neg hn, if_pos (by omega)]
          rfl

theorem unitsOf_sliceChars (n : ℕ) (cs : List Char) :
    unitsOf (sliceChars n cs) = min n (unitsOf cs) := by
  induction cs generalizing n with
  | nil =>
      cases n <;> exact (Nat.min_zero _).symm
  | cons c cs ih =>
      rw [sliceChars_cons, unitsOf_cons]
      have hpos := charUnits_pos c
      by_cases hc : charUnits c ≤ n
      · rw [if_pos hc, unitsOf_cons, ih]
        omega
      · have htwo : charUnits c ≤ 2 := by
          unfold charUnits
          split <;> omega
        rw [if_neg hc]
        by_cases hn : n = 0
        · rw [if_pos hn, hn, Nat.zero_min]
          rfl
        · rw [if_neg hn, show unitsOf [Char.ofNat 0xFFFD] = 1 by decide]
          omega

theorem jsLength_jsSlice (n : ℕ) (s : String) : jsLength (jsSlice n s) = min n (jsLength s) := by
  rw [jsLength_eq, jsSlice, String.toList_ofList, unitsOf_sliceChars]
  rfl

theorem sliceChars_of_le {n : ℕ} {cs : List Char} (h : unitsOf cs ≤ n) : sliceChars n cs = cs := by
  induction cs generalizing n with
  | nil => cases n <;> rfl
  | cons c cs ih =>
      rw [unitsOf_cons] at h
      rw [sliceChars_cons, if_pos (by omega), ih (by omega)]

theorem jsSlice_of_le {n : ℕ} {s : String} (h : jsLength s ≤ n) : jsSlice n s = s := by
  rw [jsSlice, sliceChars_of_le h, String.ofList_toList]

theorem sliceChars_append_of_le {n : ℕ} {cs : List Char} (ds : List Char) (h : n ≤ unitsOf cs) :
    sliceChars n (cs ++ ds) = sliceChars n cs := by
  induction cs generalizing n with
  | nil =>
      obtain rfl := Nat.le_zero.mp h
      cases ds <;> rfl
  | cons c cs ih =>
      rw [unitsOf_cons] at h
      rw [List.cons_append, sliceChars_cons, sliceChars_cons]
      by_cases hc : charUnits c ≤ n
      · rw [if_pos hc, if_pos hc, ih (by omega)]
      · rw [if_neg hc, if_neg hc]

theorem jsSlice_append_of_le {n : ℕ} {s : String} (t : String) (h : n ≤ jsLength s) :
    jsSlice n (s ++ t) = jsSlice n s := by
  rw [jsSlice, String.toList_append, sliceChars_append_of_le _ h]
  rfl

theorem sliceChars_append_of_ge {n : ℕ} {cs : List Char} (ds : List Char) (h : unitsOf cs ≤ n) :
    sliceChars n (cs ++ ds) = cs ++ sliceChars (n - unitsOf cs) ds := by
  induction cs generalizing n with
  | nil => rfl
  | cons c cs ih =>
      rw [unitsOf_cons] at h ⊢
      rw [List.cons_append, sliceChars_cons, if_pos (by omega), ih (by omega), List.cons_append,
        Nat.sub_sub]

theorem jsSlice_append_of_ge {n : ℕ} {s : String} (t : String) (h : jsLength s ≤ n) :
    jsSlice n (s ++ t) = s ++ jsSlice (n - jsLength s) t := by
  rw [jsSlice, String.toList_append, sliceChars_append_of_ge _ h, String.ofList_append,
    String.ofList_toList]
  rfl

theorem sliceChars_sliceChars {m n : ℕ} (h : m ≤ n) (cs : List Char) :
    sliceChars m (sliceChars n cs) = sliceChars m cs := by
  induction cs generalizing m n with
  | nil => cases n <;> rfl
  | cons c cs ih =>
      rw [sliceChars_cons n, sliceChars_cons m]
      by_cases hn : charUnits c ≤ n
      · rw [if_pos hn, sliceChars_cons]
        by_cases hm : charUnits c ≤ m
        · rw [if_pos hm, if_pos hm, ih (by omega)]
        · rw [if_neg hm, if_neg hm]
      · have htwo : charUnits c ≤ 2 := by
          unfold charUnits
          split <;> omega
        rw [if_neg hn, if_neg (by omega : ¬ charUnits c ≤ m)]
        by_cases hzero : n = 0
        · obtain rfl := hzero
          obtain rfl := Nat.le_zero.mp h
          rfl
        · rw [if_neg hzero]
          -- half a character, of which nothing or all is left
          obtain rfl | rfl : m = 0 ∨ m = 1 := by omega
          · rfl
          · rfl

theorem jsSlice_jsSlice {m n : ℕ} (h : m ≤ n) (s : String) :
    jsSlice m (jsSlice n s) = jsSlice m s := by
  rw [jsSlice, jsSlice, String.toList_ofList, sliceChars_sliceChars h]
  rfl

end Tesbo
