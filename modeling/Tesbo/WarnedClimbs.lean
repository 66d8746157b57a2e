import Tesbo.StorageWarnings
import Tesbo.Reasoning.Runs

/-!
# Warnings along a climb

Whatever the uploads and deletions of a workspace, its row has the highest threshold the last upload
reached.  Usage that has fallen under a threshold and climbs over it again is to be warned about again.
-/

namespace Tesbo.StorageWarnings

open Reasoning
open Reasoning.Doubles
open Knowledge (storageLimitBytes kilobyte)

/-! ## The property and its condition -/

/-- The highest threshold that usage has reached. -/
def reached (limit used : ℕ) : Option ℕ :=
  storageWarnThresholds.find? fun t ↦ t * limit ≤ 100 * used

def Rises (before after : Option ℕ) : Prop := before.getD 0 < after.getD 0

def Workspace.limit (w : Workspace) : ℕ := storageLimitBytes w.effectivePlan

/-- What an upload that fits is to do. -/
structure Right (cfg : Config) (w : Workspace) (bytes : ℕ) : Prop where
  recorded : (step cfg w (.upload bytes)).storageWarnedPct =
    reached w.limit (w.usedBytes + bytes)
  sent : (occur cfg w (.upload bytes)).2.isSome ↔
    Rises w.storageWarnedPct (step cfg w (.upload bytes)).storageWarnedPct
  /-- Usage that climbs over a threshold is warned about, for the first time or again. -/
  climbed : Rises (reached w.limit w.usedBytes) (reached w.limit (w.usedBytes + bytes)) →
    (occur cfg w (.upload bytes)).2.isSome

def RightAt (cfg : Config) (w : Workspace) : Event → Prop
  | .upload bytes => w.usedBytes + bytes ≤ w.limit → Right cfg w bytes
  | .delete _ => True

/-- A threshold that an upload climbs over was not reached by the usage the last accepted upload
left, `seen`: no deletion in between has gone under it unseen. -/
def NoneUnseen (limit : ℕ) : ℕ → ℕ → List Event → Prop
  | _, _, [] => True
  | seen, used, .delete bytes :: es => NoneUnseen limit seen (used - bytes) es
  | seen, used, .upload bytes :: es =>
      if used + bytes ≤ limit then
        (Rises (reached limit used) (reached limit (used + bytes)) →
            Rises (reached limit seen) (reached limit (used + bytes))) ∧
          NoneUnseen limit (used + bytes) (used + bytes) es
      else NoneUnseen limit seen used es

instance decidableRises (before after : Option ℕ) : Decidable (Rises before after) :=
  inferInstanceAs (Decidable (before.getD 0 < after.getD 0))

instance decidableNoneUnseen (limit : ℕ) :
    ∀ seen used es, Decidable (NoneUnseen limit seen used es)
  | _, _, [] => .isTrue trivial
  | seen, used, .delete bytes :: es => decidableNoneUnseen limit seen (used - bytes) es
  | seen, used, .upload bytes :: es =>
      have := decidableNoneUnseen limit (used + bytes) (used + bytes) es
      have := decidableNoneUnseen limit seen used es
      inferInstanceAs (Decidable (if used + bytes ≤ limit then _ ∧ _ else _))

def Workspace.fresh (w : Workspace) : Workspace := { w with usedBytes := 0, storageWarnedPct := none }

/-! ## Per cent in doubles -/

/-- The thresholds are met exactly, however the division is rounded. -/
theorem double_threshold {t : ℕ} (ht : t ∈ storageWarnThresholds) :
    double (double (t / 100) * 100) = t := by
  have hcases : t = 100 ∨ t = 95 ∨ t = 80 := by simpa [storageWarnThresholds] using ht
  rcases hcases with rfl | rfl | rfl
  · decide +kernel
  · decide +kernel
  · decide +kernel

theorem threshold_pos {t : ℕ} (ht : t ∈ storageWarnThresholds) : 0 < t ∧ t ≤ 100 := by
  revert t
  decide

/-- Limits are small enough for one byte to be more than an error of rounding. -/
theorem le_pctOf_iff {t used limit : ℕ} (ht : t ∈ storageWarnThresholds) (hpos : 0 < limit)
    (hsmall : limit ≤ 2 ^ 40) : (t : ℤ) ≤ pctOf used limit ↔ t * limit ≤ 100 * used := by
  have hlimit : (0 : ℚ) < limit := by exact_mod_cast hpos
  have hsmall' : (limit : ℚ) ≤ 2 ^ 40 := by exact_mod_cast hsmall
  have hunit : (1 : ℚ) / 2 ^ 40 ≤ 1 / limit := one_div_le_one_div_of_le hlimit hsmall'
  have hhundred : (t : ℚ) ≤ 100 := by exact_mod_cast (threshold_pos ht).2
  let q : ℚ := used / limit
  have hq : 0 ≤ q := div_nonneg (Nat.cast_nonneg _) hlimit.le
  have hq' : 0 ≤ double q * 100 := mul_nonneg (double_nonneg hq) (by norm_num)
  unfold pctOf
  rw [if_pos hpos, Int.le_floor, Int.cast_natCast]
  change (t : ℚ) ≤ double (double q * 100) ↔ _
  rcases lt_trichotomy (t * limit) (100 * used) with hlt | heq | hgt
  · -- at least a byte over the threshold
    refine iff_of_true ?_ hlt.le
    have hbyte : (t : ℚ) * limit + 1 ≤ 100 * used := by exact_mod_cast hlt
    have hover : (t : ℚ) + 1 / limit ≤ 100 * q := by
      change (t : ℚ) + 1 / limit ≤ 100 * (used / limit)
      rw [← sub_nonneg]
      have hsub : 100 * ((used : ℚ) / limit) - (t + 1 / limit) =
          (100 * used - (t * limit + 1)) / limit := by
        field_simp
      rw [hsub]
      exact div_nonneg (by linarith) hlimit.le
    have hfirst := le_double hq
    have hsecond := le_double hq'
    have hgap : (t : ℚ) + 1 / 2 ^ 40 ≤ 100 * q := le_trans (by linarith) hover
    norm_num at hfirst hsecond hgap ⊢
    linarith
  · refine iff_of_true ?_ heq.le
    have hexact : q = t / 100 := by
      change (used : ℚ) / limit = t / 100
      rw [div_eq_div_iff hlimit.ne' (by norm_num)]
      have hcast : (t : ℚ) * limit = 100 * used := by exact_mod_cast heq
      linarith
    rw [hexact, double_threshold ht]
  · -- at least a byte under it
    refine iff_of_false ?_ (Nat.not_le.mpr hgt)
    have hbyte : (100 : ℚ) * used + 1 ≤ t * limit := by exact_mod_cast hgt
    have hunder : 100 * q ≤ t - 1 / limit := by
      change 100 * ((used : ℚ) / limit) ≤ t - 1 / limit
      rw [← sub_nonneg]
      have hsub : (t : ℚ) - 1 / limit - 100 * ((used : ℚ) / limit) =
          (t * limit - (100 * used + 1)) / limit := by
        field_simp
        ring
      rw [hsub]
      exact div_nonneg (by linarith) hlimit.le
    have hfirst := double_le hq
    have hsecond := double_le hq'
    have hgap : 100 * q ≤ t - 1 / 2 ^ 40 := le_trans hunder (by linarith)
    norm_num at hfirst hsecond hgap ⊢
    linarith

theorem limit_bounds (w : Workspace) : 0 < w.limit ∧ w.limit ≤ 2 ^ 40 := by
  unfold Workspace.limit
  cases w.effectivePlan with
  | launch => decide
  | pro => decide

/-- The code finds the threshold that is reached. -/
theorem find_pctOf (w : Workspace) (used : ℕ) :
    (storageWarnThresholds.find? fun t : ℕ ↦ t ≤ pctOf used w.limit) = reached w.limit used := by
  obtain ⟨hpos, hsmall⟩ := limit_bounds w
  unfold reached
  apply List.find?_congr
  intro t ht
  rw [decide_eq_decide]
  exact le_pctOf_iff ht hpos hsmall

theorem pos_of_reached {limit used t : ℕ} (h : reached limit used = some t) : 0 < t :=
  (threshold_pos (List.mem_of_find?_eq_some h)).1

/-! ## One upload -/

/-- The row gets the threshold that is reached, and a warning goes out if that is more than it had. -/
theorem maybeWarnStorage_spec (cfg : Config) (w : Workspace) (used : ℕ) (isPro : Bool) :
    (maybeWarnStorage cfg w used w.limit isPro).1 =
        { w with storageWarnedPct := reached w.limit used } ∧
      ((maybeWarnStorage cfg w used w.limit isPro).2.isSome ↔
        Rises w.storageWarnedPct (reached w.limit used)) := by
  have hsilent : ¬ (none : Option StorageWarning).isSome = true := Bool.false_ne_true
  unfold maybeWarnStorage
  rw [find_pctOf]
  cases hreached : reached w.limit used with
  | none => exact ⟨rfl, iff_of_false hsilent (Nat.not_lt_zero _)⟩
  | some crossed =>
      have hpos := pos_of_reached hreached
      dsimp only
      rw [if_neg w.owner_ne]
      by_cases hclaimed : w.storageWarnedPct.all (· < crossed) = true
      · have hrises : Rises w.storageWarnedPct (some crossed) := by
          cases hwarned : w.storageWarnedPct with
          | none => exact hpos
          | some v =>
              rw [hwarned] at hclaimed
              have hlt : v < crossed := of_decide_eq_true hclaimed
              exact hlt
        rw [if_pos hclaimed]
        exact ⟨rfl, iff_of_true rfl hrises⟩
      · cases hwarned : w.storageWarnedPct with
        | none =>
            rw [hwarned] at hclaimed
            exact absurd rfl hclaimed
        | some v =>
            rw [hwarned] at hclaimed
            have hge : ¬ v < crossed := by
              intro hlt
              apply hclaimed
              show decide (v < crossed) = true
              exact decide_eq_true hlt
            rw [if_neg hclaimed]
            by_cases hgt : crossed < v
            · rw [if_pos (show Option.any (crossed < ·) (some v) = true from decide_eq_true hgt)]
              exact ⟨rfl, iff_of_false hsilent hge⟩
            · obtain rfl : v = crossed := by omega
              rw [if_neg (show ¬ Option.any (v < ·) (some v) = true by simp)]
              refine ⟨?_, iff_of_false hsilent hge⟩
              rw [← hwarned]

section Billing

variable {cfg : Config} (hbilling : cfg.isStripeBillingEnabled = true)

include hbilling

theorem occur_upload {w : Workspace} {bytes : ℕ} (hfits : w.usedBytes + bytes ≤ w.limit) :
    step cfg w (.upload bytes) = { w with
        storageWarnedPct := reached w.limit (w.usedBytes + bytes)
        usedBytes := w.usedBytes + bytes } ∧
      ((occur cfg w (.upload bytes)).2.isSome ↔
        Rises w.storageWarnedPct (reached w.limit (w.usedBytes + bytes))) := by
  obtain ⟨hrow, hsent⟩ := maybeWarnStorage_spec cfg w (w.usedBytes + bytes)
    (decide (w.effectivePlan = .pro))
  have hcheck : checkStorageAvailable cfg w bytes =
      ((maybeWarnStorage cfg w (w.usedBytes + bytes) w.limit (w.effectivePlan = .pro)).1,
        (maybeWarnStorage cfg w (w.usedBytes + bytes) w.limit (w.effectivePlan = .pro)).2,
        ⟨true, none, w.usedBytes, w.limit⟩) := by
    unfold checkStorageAvailable
    rw [if_neg (not_not_intro hbilling)]
    exact if_neg (Nat.not_lt.mpr hfits)
  unfold step occur
  dsimp only
  rw [hcheck]
  dsimp only
  rw [if_pos rfl, hrow]
  exact ⟨rfl, hsent⟩

theorem step_refused {w : Workspace} {bytes : ℕ} (hfull : ¬ w.usedBytes + bytes ≤ w.limit) :
    step cfg w (.upload bytes) = w := by
  have hcheck : (checkStorageAvailable cfg w bytes).1 = w ∧
      (checkStorageAvailable cfg w bytes).2.2.allowed = false := by
    unfold checkStorageAvailable
    rw [if_neg (not_not_intro hbilling)]
    dsimp only
    rw [if_pos (show storageLimitBytes w.effectivePlan < _ from Nat.lt_of_not_le hfull)]
    exact ⟨rfl, rfl⟩
  unfold step occur
  dsimp only
  rw [hcheck.1, hcheck.2]
  exact if_neg Bool.false_ne_true

/-- An upload does what it is to do when the row is lower wherever it climbs. -/
theorem right_iff {w : Workspace} {bytes : ℕ} (hfits : w.usedBytes + bytes ≤ w.limit) :
    Right cfg w bytes ↔
      (Rises (reached w.limit w.usedBytes) (reached w.limit (w.usedBytes + bytes)) →
        Rises w.storageWarnedPct (reached w.limit (w.usedBytes + bytes))) := by
  obtain ⟨hrow, hsent⟩ := occur_upload hbilling hfits
  constructor
  · intro h hrises
    exact hsent.mp (h.climbed hrises)
  · intro h
    refine ⟨?_, ?_, fun hrises ↦ hsent.mpr (h hrises)⟩
    · rw [hrow]
    · rw [hrow]
      exact hsent

/-! ## Runs -/

/-- From a row that has what the last accepted upload reached. -/
theorem along_iff {w : Workspace} (seen : ℕ) (hseen : w.storageWarnedPct = reached w.limit seen)
    (es : List Event) : Along (step cfg) (RightAt cfg) w es ↔
      NoneUnseen w.limit seen w.usedBytes es := by
  induction es generalizing w seen with
  | nil => exact Iff.rfl
  | cons e es ih =>
      cases e with
      | delete bytes =>
          have hrest := ih (w := step cfg w (.delete bytes)) seen hseen
          unfold Along NoneUnseen
          rw [hrest]
          exact and_iff_right trivial
      | upload bytes =>
          by_cases hfits : w.usedBytes + bytes ≤ w.limit
          · obtain ⟨hrow, -⟩ := occur_upload hbilling hfits
            have hrest := ih (w := step cfg w (.upload bytes)) (w.usedBytes + bytes)
              (by rw [hrow]; rfl)
            unfold Along NoneUnseen
            rw [hrest, hrow, if_pos hfits, ← hseen, ← right_iff hbilling hfits]
            exact and_congr_left' ⟨fun h ↦ h hfits, fun h _ ↦ h⟩
          · have hrow := step_refused hbilling hfits
            have hrest := ih (w := step cfg w (.upload bytes)) seen
              (by rw [hrow]; exact hseen)
            unfold Along NoneUnseen
            rw [hrest, hrow, if_neg hfits]
            exact and_iff_right fun h ↦ absurd h hfits

/-- Every upload of a workspace does what it is to do exactly when no threshold is gone under
unseen. -/
theorem warned_run_iff (w : Workspace) (es : List Event) :
    Along (step cfg) (RightAt cfg) w.fresh es ↔ NoneUnseen w.limit 0 0 es := by
  have hnone : reached w.limit 0 = none := by
    unfold reached
    rw [List.find?_eq_none]
    intro t ht
    have hpos := Nat.mul_pos (threshold_pos ht).1 (limit_bounds w).1
    simp only [decide_eq_true_eq]
    omega
  exact along_iff hbilling (w := w.fresh) 0 hnone.symm es

end Billing

/-- The hosted service. -/
def hosted : Config := ⟨true, "https://app.tesbo.example", "support@tesbo.example"⟩

def studio : Workspace := ⟨"Studio", "ada@tesbo.example", by decide, .launch, 0, none⟩

/-- A workspace that climbs over 80 per cent, clears space, uploads a little, and climbs again. -/
theorem seen_drop_right :
    Along (step hosted) (RightAt hosted) studio.fresh
      [.upload 450000000, .delete 250000000, .upload 1000, .upload 250000000] :=
  (@warned_run_iff hosted rfl studio _).mpr (by decide)

/-- Without the little upload nobody is told of the second climb. -/
theorem second_climb_not_warned :
    ¬ Along (step hosted) (RightAt hosted) studio.fresh
      [.upload 450000000, .delete 250000000, .upload 250000000] := by
  have hnone : studio.fresh.storageWarnedPct = reached studio.fresh.limit 0 := by decide
  rw [@along_iff hosted rfl _ 0 hnone]
  decide

end Tesbo.StorageWarnings
