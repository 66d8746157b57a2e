import Tesbo.CaseDifferences
import Tesbo.Reasoning.Ranked
import Tesbo.Reasoning.Rounding

/-!
# Exact duplicates among the findings

Pairs of cases are proposed twice, by their fingerprint and by their words, and looked at once; what is
found of them is sorted and cut.
-/

namespace Tesbo.ReviewBoard

open Reasoning

section Analyse

variable [Runtime]

/-- What is found, before it is cut. -/
def allFindings (cases : List ComparableCase) : List Finding :=
  (consider [] (proposals cases)).mergeSort Finding.before

/-- The arithmetic of the runtime is rounded; what is divided by is not zero, and nothing overflows. -/
structure Ieee (R : Rounding Double) : Prop where
  literal : ∀ q, Runtime.literal q = R.rnd q
  add : ∀ x y, Runtime.add x y = R.add x y
  mul : ∀ x y, Runtime.mul x y = R.mul x y
  div : ∀ x y, R.val y ≠ 0 → Runtime.div x y = R.div x y
  round : ∀ x, Runtime.round x = ⌊R.val x + 1 / 2⌋

/-- The finding is of these two cases. -/
def Finding.Of (f : Finding) (x y : ComparableCase) : Prop :=
  (f.aId = x.id ∧ f.bId = y.id) ∨ (f.aId = y.id ∧ f.bId = x.id)

instance (f : Finding) (x y : ComparableCase) : Decidable (f.Of x y) :=
  inferInstanceAs (Decidable (_ ∨ _))

/-- The same content, with steps on both sides. -/
structure Duplicates (x y : ComparableCase) : Prop where
  fingerprint : x.fingerprint = y.fingerprint
  left : x.steps ≠ []
  right : y.steps ≠ []

/-- Every pair of duplicates is found once as such; a pair is found once at most, the smaller id
first, with a similarity between the threshold and 1; duplicates come first, and none of them is cut
off as long as anything else is kept. -/
structure DuplicatesFirst (cases : List ComparableCase) : Prop where
  complete : ∀ x ∈ cases, ∀ y ∈ cases, x.id ≠ y.id → Duplicates x y →
    ((allFindings cases).filter fun f ↦
      f.Of x y ∧ f.classification = .exactDuplicate).length = 1
  ordered : ∀ f ∈ allFindings cases, f.aId < f.bId
  once : ((allFindings cases).map fun f ↦ (f.aId, f.bId)).Nodup
  scored : ∀ f ∈ allFindings cases, f.classification = .similar →
    similarThreshold ≤ f.similarity ∧ f.similarity ≤ Runtime.literal 1
  first : (allFindings cases).Pairwise fun p q ↦
    q.classification = .exactDuplicate → p.classification = .exactDuplicate
  cut : ∃ dropped, allFindings cases = (analyse cases).findings ++ dropped ∧
    ((∃ f ∈ dropped, f.classification = .exactDuplicate) →
      ∀ f ∈ (analyse cases).findings, f.classification = .exactDuplicate)

/-! ## Scores -/

section Scores

variable {R : Rounding Double} (ieee : Ieee R)

include ieee

theorem val_literal_nonneg {q : ℚ} (hq : 0 ≤ q) : 0 ≤ R.val (Runtime.literal q) := by
  rw [ieee.literal]
  exact Rounding.val_rnd_nonneg hq

theorem val_literal_int {n : ℤ} (hn : |n| ≤ 2 ^ 53) : R.val (Runtime.literal n) = n := by
  rw [ieee.literal]
  exact Rounding.val_rnd_int hn

theorem val_literal_natCast_pos {n : ℕ} (hn : 0 < n) : 0 < R.val (Runtime.literal n) := by
  rw [ieee.literal]
  exact lt_of_lt_of_le one_pos (Rounding.one_le_val_rnd (by exact_mod_cast hn))

/-- The quotient of two sizes, the first one no greater. -/
theorem quotient_unit {m n : ℕ} (hle : m ≤ n) (hn : 0 < n) :
    0 ≤ R.val (Runtime.div (Runtime.literal m) (Runtime.literal n)) ∧
      R.val (Runtime.div (Runtime.literal m) (Runtime.literal n)) ≤ 1 := by
  have hpos := val_literal_natCast_pos ieee hn
  rw [ieee.div _ _ hpos.ne']
  refine Rounding.div_unit (val_literal_nonneg ieee (Nat.cast_nonneg m)) hpos ?_
  · rw [ieee.literal, ieee.literal]
    exact R.rnd_mono (by exact_mod_cast hle)

theorem dice_unit (a b : List String) : 0 ≤ R.val (dice a b) ∧ R.val (dice a b) ≤ 1 := by
  unfold dice
  split
  · rw [ieee.literal, Rounding.val_one]
    norm_num
  · split
    · rw [ieee.literal, Rounding.val_zero]
      norm_num
    · rename_i hboth hany
      have ha : 0 < a.length := by
        refine List.length_pos_of_ne_nil fun hnil ↦ hany (.inl ?_)
        rw [hnil]
        rfl
      refine quotient_unit ieee ?_ (by omega)
      have hcount : ∀ small large : List String, shared small large ≤ small.length :=
        fun small large ↦ List.countP_le_length
      split
      · have := hcount a b
        omega
      · have := hcount b a
        omega

theorem weight_nonneg (field : ScoredField) : 0 ≤ R.val (field.weight) := by
  cases field <;> exact val_literal_nonneg ieee (by norm_num)

theorem sumDoubles_eq (ds : List Double) : sumDoubles ds = R.sum ds := by
  unfold sumDoubles Rounding.sum
  rw [ieee.literal, funext₂ ieee.add]

theorem wordingScore_unit (a b : ComparableCase) :
    0 ≤ R.val (wordingScore a b) ∧ R.val (wordingScore a b) ≤ 1 := by
  have hparts : ∀ p ∈ parts a b, 0 ≤ R.val p.2 ∧ R.val p.2 ≤ 1 := by
    intro p hp
    obtain ⟨field, -, hfield⟩ := List.mem_filterMap.mp hp
    dsimp only at hfield
    split at hfield
    · cases hfield
    · rw [← Option.some.inj hfield]
      exact dice_unit ieee _ _
  unfold wordingScore
  dsimp only
  rw [sumDoubles_eq ieee, sumDoubles_eq ieee, ieee.literal]
  split
  · rw [Rounding.val_zero]
    norm_num
  · rename_i hne
    have hmean := Rounding.weightedMean_unit (fun p _ ↦ weight_nonneg ieee p.1) hparts hne
    have hval : R.val (R.sum ((parts a b).map fun p ↦ p.1.weight)) ≠ 0 := fun hzero ↦
      hne (Rounding.val_injective (hzero.trans Rounding.val_zero.symm))
    rw [ieee.div _ _ hval, List.map_congr_left fun p _ ↦ ieee.mul p.1.weight p.2]
    exact hmean

theorem pairScore_unit (a b : ComparableCase) :
    0 ≤ R.val (pairScore a b) ∧ R.val (pairScore a b) ≤ 1 := by
  have hwording := wordingScore_unit ieee a b
  unfold pairScore blendedScore
  split
  · exact hwording
  · rename_i htotal
    have hidentical : (stepAgreement a b).identical ≤ (stepAgreement a b).total := by
      have hsub : ((b.steps.map stepKey).bagInter (a.steps.map stepKey)).Sublist
          (b.steps.map stepKey) := List.bagInter_sublist_left
      have hlength := hsub.length_le
      rw [List.length_map] at hlength
      exact hlength.trans (le_max_right _ _)
    have hagreement := quotient_unit ieee hidentical (Nat.pos_of_ne_zero htotal)
    have hhalf : R.val (Runtime.literal (1 / 2)) = 1 / 2 := by
      rw [ieee.literal, Rounding.val_half]
    -- half of each, and both together
    have hpart : ∀ x : Double, 0 ≤ R.val x ∧ R.val x ≤ 1 →
        0 ≤ R.val (R.mul (Runtime.literal (1 / 2)) x) ∧
          R.val (R.mul (Runtime.literal (1 / 2)) x) ≤ 1 / 2 := by
      intro x hx
      refine ⟨Rounding.val_mul_nonneg (by rw [hhalf]; norm_num) hx.1, ?_⟩
      exact (Rounding.val_mono (Rounding.mul_le_left (by rw [hhalf]; norm_num) hx.2)).trans
        hhalf.le
    have hleft := hpart _ hwording
    have hright := hpart _ hagreement
    rw [ieee.add, ieee.mul, ieee.mul]
    exact ⟨Rounding.val_add_nonneg hleft.1 hright.1,
      Rounding.val_rnd_le_one (by linarith [hleft.2, hright.2])⟩

/-- A score from the threshold on, rounded to three places, is between the threshold and 1. -/
theorem similarity_bounds {a b : ComparableCase} (h : similarThreshold ≤ pairScore a b) :
    similarThreshold ≤ (similarFinding a b).similarity ∧
      (similarFinding a b).similarity ≤ Runtime.literal 1 := by
  have hthousand : R.val (Runtime.literal 1000) = 1000 := by
    have hint := @val_literal_int _ R ieee 1000 (by norm_num)
    exact_mod_cast hint
  have hunit := pairScore_unit ieee a b
  -- 0.6 is rounded to no less than 614/1024, whose thousandfold is above 599.5
  have hscore : 614 / 2 ^ 10 ≤ R.val (pairScore a b) := by
    have hbinary := R.val_rnd 614 10 (by norm_num) (by norm_num)
    rw [Int.cast_ofNat] at hbinary
    unfold similarThreshold at h
    rw [ieee.literal] at h
    calc (614 / 2 ^ 10 : ℚ) = R.val (R.rnd (614 / 2 ^ 10)) := hbinary.symm
      _ ≤ R.val (R.rnd (6 / 10)) := Rounding.val_mono (R.rnd_mono (by norm_num))
      _ ≤ R.val (pairScore a b) := Rounding.val_mono h
  have hlow : 1199 / 2 ≤ R.val (Runtime.mul (pairScore a b) (Runtime.literal 1000)) := by
    have hbinary := R.val_rnd 1199 1 (by norm_num) (by norm_num)
    rw [Int.cast_ofNat, pow_one] at hbinary
    rw [ieee.mul, Rounding.mul, hthousand]
    calc (1199 / 2 : ℚ) = R.val (R.rnd (1199 / 2)) := hbinary.symm
      _ ≤ R.val (R.rnd (R.val (pairScore a b) * 1000)) :=
          Rounding.val_mono (R.rnd_mono (by linarith))
  have hhigh : R.val (Runtime.mul (pairScore a b) (Runtime.literal 1000)) ≤ 1000 := by
    rw [ieee.mul, Rounding.mul, hthousand, ← hthousand]
    exact Rounding.val_mono (Rounding.rnd_le (by rw [hthousand]; linarith [hunit.2]))
  have hround := ieee.round (Runtime.mul (pairScore a b) (Runtime.literal 1000))
  generalize hplaces : Runtime.round (Runtime.mul (pairScore a b) (Runtime.literal 1000)) = places
    at hround
  have hfloor : 600 ≤ places ∧ places ≤ 1000 := by
    rw [hround]
    constructor
    · rw [Int.le_floor]
      push_cast
      linarith
    · rw [← Int.lt_add_one_iff, Int.floor_lt]
      push_cast
      linarith
  have hval : R.val (Runtime.literal places) = places :=
    val_literal_int ieee (by rw [abs_of_nonneg (by omega)]; omega)
  have hsimilarity : (similarFinding a b).similarity = R.rnd (places / 1000) := by
    unfold similarFinding
    dsimp only
    rw [hplaces, ieee.div _ _ (by rw [hthousand]; norm_num), Rounding.div, hval, hthousand]
  have hplacesLow : (600 : ℚ) ≤ places := by exact_mod_cast hfloor.1
  have hplacesHigh : (places : ℚ) ≤ 1000 := by exact_mod_cast hfloor.2
  rw [hsimilarity, similarThreshold, ieee.literal, ieee.literal]
  exact ⟨R.rnd_mono (by linarith), R.rnd_mono (by linarith)⟩

end Scores

/-! ## What is proposed -/

omit [Runtime] in
theorem mem_pairsOf {l : List ComparableCase} {x y : ComparableCase} :
    (x, y) ∈ pairsOf l ↔ Before x y l := by
  induction l with
  | nil =>
      constructor
      · intro h
        cases h
      · intro h
        cases h.mem.1
  | cons c l ih =>
      rw [pairsOf, List.mem_append, before_cons, ih, or_comm]
      refine or_congr Iff.rfl ?_
      constructor
      · intro h
        obtain ⟨z, hz, heq⟩ := List.mem_map.mp h
        cases heq
        exact ⟨rfl, hz⟩
      · intro ⟨hx, hy⟩
        exact List.mem_map.mpr ⟨y, hy, by rw [hx]⟩

omit [Runtime] in
theorem byFingerprint_eq (cases : List ComparableCase) : byFingerprint cases =
    Assoc.groupBy ComparableCase.fingerprint (cases.filter fun c ↦ c.steps ≠ []) := rfl

/-- Two of the cases, with different ids. -/
def PairIn (cases : List ComparableCase) (pair : CasePair) : Prop :=
  pair.1 ∈ cases ∧ pair.2 ∈ cases ∧ pair.1.id ≠ pair.2.id

omit [Runtime] in
theorem pairIn_of_before {cases : List ComparableCase} (hnodup : (cases.map ComparableCase.id).Nodup)
    {x y : ComparableCase} (h : Before x y cases) : PairIn cases (x, y) := by
  have hids : ([x, y].map ComparableCase.id).Nodup := (List.Sublist.map _ h).nodup hnodup
  refine ⟨h.mem.1, h.mem.2, ?_⟩
  simpa using hids

omit [Runtime] in
theorem pairIn_exactPairs {cases : List ComparableCase}
    (hnodup : (cases.map ComparableCase.id).Nodup) {pair : CasePair} (h : pair ∈ exactPairs cases) :
    PairIn cases pair := by
  obtain ⟨group, hgroup, hpair⟩ := List.mem_flatMap.mp h
  rw [byFingerprint_eq] at hgroup
  have hsub : group.2.Sublist cases := by
    rw [Assoc.mem_groupBy hgroup]
    exact List.filter_sublist.trans List.filter_sublist
  exact pairIn_of_before hnodup ((mem_pairsOf.mp hpair).trans hsub)

omit [Runtime] in
theorem pairIn_similarPairs {cases : List ComparableCase}
    (hnodup : (cases.map ComparableCase.id).Nodup) {pair : CasePair}
    (h : pair ∈ similarPairs cases) : PairIn cases pair := by
  obtain ⟨⟨x, i⟩, hx, hpair⟩ := List.mem_flatMap.mp h
  obtain ⟨c, hc, hy⟩ := List.mem_filterMap.mp hpair
  obtain ⟨y, hget, rfl⟩ := Option.map_eq_some_iff.mp hy
  have hlater : i < c.index := by
    have hmem := (List.mergeSort_perm _ _).mem_iff.mp (List.mem_of_mem_take hc)
    obtain ⟨⟨z, j⟩, -, hz⟩ := List.mem_filterMap.mp hmem
    dsimp only at hz
    split at hz
    · rename_i hcond
      rw [← Option.some.inj hz]
      exact hcond.1
    · cases hz
  have hxi : cases[i]? = some x := List.mem_zipIdx_iff_getElem?.mp hx
  refine ⟨List.mem_of_getElem? hxi, List.mem_of_getElem? hget, fun hid ↦ ?_⟩
  have hlength : c.index < (cases.map ComparableCase.id).length := by
    rw [List.length_map]
    exact (List.getElem?_eq_some_iff.mp hget).1
  refine List.nodup_iff_getElem?_ne_getElem?.mp hnodup i c.index hlater hlength ?_
  rw [List.getElem?_map, List.getElem?_map, hxi, hget, Option.map_some, Option.map_some]
  exact congrArg some hid

omit [Runtime] in
/-- Duplicates are proposed, in one order or the other. -/
theorem mem_exactPairs {cases : List ComparableCase} {x y : ComparableCase} (hx : x ∈ cases)
    (hy : y ∈ cases) (hne : x ≠ y) (h : Duplicates x y) :
    (x, y) ∈ exactPairs cases ∨ (y, x) ∈ exactPairs cases := by
  let key := ComparableCase.fingerprint
  let withSteps := cases.filter fun c ↦ c.steps ≠ []
  have hmem : ∀ c ∈ cases, c.steps ≠ [] → key c = key x →
      c ∈ withSteps.filter fun c ↦ key c = key x := by
    intro c hc hsteps hkey
    exact List.mem_filter.mpr ⟨List.mem_filter.mpr ⟨hc, decide_eq_true hsteps⟩,
      decide_eq_true hkey⟩
  have hxs := hmem x hx h.left rfl
  have hys := hmem y hy h.right h.fingerprint.symm
  have hgroup : (key x, withSteps.filter fun c ↦ key c = key x) ∈ byFingerprint cases := by
    rw [byFingerprint_eq]
    refine Assoc.mem_of_get ?_
    have hget := @Assoc.getD_groupBy _ _ _ key withSteps (key x)
    cases hfound : (Assoc.groupBy key withSteps).get (key x) with
    | none =>
        rw [hfound, Option.getD_none] at hget
        rw [← hget] at hxs
        cases hxs
    | some group =>
        rw [hfound, Option.getD_some] at hget
        rw [hget]
  rcases before_or hxs hys hne with hbefore | hbefore
  · exact .inl (List.mem_flatMap.mpr ⟨_, hgroup, mem_pairsOf.mpr hbefore⟩)
  · exact .inr (List.mem_flatMap.mpr ⟨_, hgroup, mem_pairsOf.mpr hbefore⟩)

/-! ## What is found of a pair -/

theorem buildFinding_comm {x y : ComparableCase} (h : x.id ≠ y.id) :
    buildFinding x y = buildFinding y x := by
  unfold buildFinding
  by_cases hlt : x.id < y.id
  · rw [if_pos hlt, if_pos hlt, if_neg hlt.not_gt, if_neg hlt.not_gt]
  · have hgt : y.id < x.id := lt_of_le_of_ne (not_lt.mp hlt) h.symm
    rw [if_neg hlt, if_neg hlt, if_pos hgt, if_pos hgt]

theorem rescorePair_comm {x y : ComparableCase} (h : x.id = y.id → x = y) :
    rescorePair x y = rescorePair y x := by
  by_cases heq : x.id = y.id
  · rw [h heq]
  · unfold rescorePair
    by_cases hlt : x.id < y.id
    · rw [if_pos hlt, if_pos hlt, if_neg hlt.not_gt, if_neg hlt.not_gt]
    · have hgt : y.id < x.id := lt_of_le_of_ne (not_lt.mp hlt) (Ne.symm heq)
      rw [if_neg hlt, if_neg hlt, if_pos hgt, if_pos hgt]

/-- The ids of a finding. -/
def Finding.key (f : Finding) : Uuid × Uuid := (f.aId, f.bId)

theorem buildFinding_cases {x y : ComparableCase} {f : Finding} (hf : buildFinding x y = some f) :
    ∃ a b, (a.id, b.id) = pairKey (x, y) ∧ ((a = x ∧ b = y) ∨ (a = y ∧ b = x)) ∧
      ((isExact a b = true ∧ f = exactFinding a b) ∨
        (isExact a b = false ∧ similarThreshold ≤ pairScore a b ∧ f = similarFinding a b)) := by
  refine ⟨if x.id < y.id then x else y, if x.id < y.id then y else x, ?_, ordered_cases x y, ?_⟩
  · unfold pairKey
    split <;> rfl
  · unfold buildFinding at hf
    generalize (if x.id < y.id then x else y) = a at hf ⊢
    generalize (if x.id < y.id then y else x) = b at hf ⊢
    dsimp only at hf
    cases hab : isExact a b with
    | true =>
        rw [hab, if_pos rfl] at hf
        exact .inl ⟨rfl, (Option.some.inj hf).symm⟩
    | false =>
        rw [hab, if_neg Bool.false_ne_true] at hf
        split at hf
        · cases hf
        · rename_i hscore
          exact .inr ⟨rfl, not_lt.mp hscore, (Option.some.inj hf).symm⟩

theorem buildFinding_duplicates {x y : ComparableCase} (h : Duplicates x y) :
    ∃ f, buildFinding x y = some f ∧ f.Of x y ∧ f.classification = .exactDuplicate := by
  unfold buildFinding
  by_cases hlt : x.id < y.id
  · rw [if_pos hlt, if_pos hlt]
    have hexact : isExact x y = true := decide_eq_true ⟨h.fingerprint, h.left, h.right⟩
    exact ⟨exactFinding x y, if_pos hexact, .inl ⟨rfl, rfl⟩, rfl⟩
  · rw [if_neg hlt, if_neg hlt]
    have hexact : isExact y x = true := decide_eq_true ⟨h.fingerprint.symm, h.right, h.left⟩
    exact ⟨exactFinding y x, if_pos hexact, .inr ⟨rfl, rfl⟩, rfl⟩

theorem key_of_buildFinding {pair : CasePair} {f : Finding}
    (hf : buildFinding pair.1 pair.2 = some f) : f.key = pairKey pair := by
  obtain ⟨a, b, hkey, -, ⟨-, rfl⟩ | ⟨-, -, rfl⟩⟩ := buildFinding_cases hf
  · exact hkey
  · exact hkey

omit [Runtime] in
theorem pairKey_lt {pair : CasePair} (h : pair.1.id ≠ pair.2.id) :
    (pairKey pair).1 < (pairKey pair).2 := by
  unfold pairKey
  split
  · assumption
  · rename_i hlt
    exact lt_of_le_of_ne (not_lt.mp hlt) h.symm

omit [Runtime] in
theorem pairKey_swap {x y : ComparableCase} (h : x.id ≠ y.id) : pairKey (x, y) = pairKey (y, x) := by
  unfold pairKey
  dsimp only
  by_cases hlt : x.id < y.id
  · rw [if_pos hlt, if_neg hlt.not_gt]
  · rw [if_neg hlt, if_pos (lt_of_le_of_ne (not_lt.mp hlt) h.symm)]

omit [Runtime] in
/-- Pairs of one key are of the same two cases. -/
theorem pair_of_pairKey {cases : List ComparableCase}
    (hnodup : (cases.map ComparableCase.id).Nodup) {pair pair' : CasePair}
    (hpair : PairIn cases pair) (hpair' : PairIn cases pair') (h : pairKey pair = pairKey pair') :
    pair' = pair ∨ pair' = (pair.2, pair.1) := by
  have hsame : ∀ {c d : ComparableCase}, c ∈ cases → d ∈ cases → c.id = d.id → c = d :=
    fun hc hd hid ↦ List.inj_on_of_nodup_map hnodup hc hd hid
  obtain ⟨x, y⟩ := pair
  obtain ⟨x', y'⟩ := pair'
  unfold pairKey at h
  dsimp only at h
  split at h <;> split at h <;> simp only [Prod.mk.injEq] at h
  · exact .inl (Prod.ext (hsame hpair'.1 hpair.1 h.1.symm) (hsame hpair'.2.1 hpair.2.1 h.2.symm))
  · exact .inr (Prod.ext (hsame hpair'.1 hpair.2.1 h.2.symm) (hsame hpair'.2.1 hpair.1 h.1.symm))
  · exact .inr (Prod.ext (hsame hpair'.1 hpair.2.1 h.1.symm) (hsame hpair'.2.1 hpair.1 h.2.symm))
  · exact .inl (Prod.ext (hsame hpair'.1 hpair.1 h.2.symm) (hsame hpair'.2.1 hpair.2.1 h.1.symm))

/-! ## One look at each pair -/

theorem mem_consider {seen : List (Uuid × Uuid)} {pairs : List CasePair} {f : Finding}
    (h : f ∈ consider seen pairs) :
    ∃ pair ∈ pairs, pairKey pair ∉ seen ∧ buildFinding pair.1 pair.2 = some f := by
  induction pairs generalizing seen with
  | nil => cases h
  | cons pair pairs ih =>
      rw [consider] at h
      split at h
      · obtain ⟨p, hp, hseen, hf⟩ := ih h
        exact ⟨p, List.mem_cons_of_mem _ hp, hseen, hf⟩
      · rename_i hnew
        rcases List.mem_append.mp h with h | h
        · exact ⟨pair, List.mem_cons_self, hnew, Option.mem_toList.mp h⟩
        · obtain ⟨p, hp, hseen, hf⟩ := ih h
          exact ⟨p, List.mem_cons_of_mem _ hp, fun hmem ↦ hseen (List.mem_cons_of_mem _ hmem), hf⟩

theorem nodup_keys_consider (seen : List (Uuid × Uuid)) (pairs : List CasePair) :
    ((consider seen pairs).map Finding.key).Nodup := by
  induction pairs generalizing seen with
  | nil => exact List.nodup_nil
  | cons pair pairs ih =>
      rw [consider]
      split
      · exact ih seen
      · rw [List.map_append, List.nodup_append']
        refine ⟨?_, ih _, ?_⟩
        · cases buildFinding pair.1 pair.2 with
          | none => exact List.nodup_nil
          | some f => exact List.nodup_singleton _
        · -- whatever is found later is of another pair
          intro key hkey hlater
          obtain ⟨f, hf, rfl⟩ := List.mem_map.mp hkey
          obtain ⟨g, hg, hsame⟩ := List.mem_map.mp hlater
          obtain ⟨p, -, hseen, hbuild⟩ := mem_consider hg
          apply hseen
          rw [← key_of_buildFinding hbuild, hsame, key_of_buildFinding (Option.mem_toList.mp hf)]
          exact List.mem_cons_self

/-- The first pair of a key is looked at. -/
theorem consider_complete {seen : List (Uuid × Uuid)} {pairs : List CasePair} {pair : CasePair}
    (hpair : pair ∈ pairs) (hseen : pairKey pair ∉ seen) :
    ∃ first ∈ pairs, pairKey first = pairKey pair ∧
      ∀ f, buildFinding first.1 first.2 = some f → f ∈ consider seen pairs := by
  induction pairs generalizing seen with
  | nil => cases hpair
  | cons p pairs ih =>
      by_cases hkey : pairKey p = pairKey pair
      · refine ⟨p, List.mem_cons_self, hkey, fun f hf ↦ ?_⟩
        rw [consider, if_neg (hkey ▸ hseen), hf]
        exact List.mem_append_left _ List.mem_cons_self
      · have hrest : pair ∈ pairs := by
          rcases List.mem_cons.mp hpair with rfl | h
          · exact absurd rfl hkey
          · exact h
        rw [consider]
        split
        · obtain ⟨first, hfirst, hsame, hbuild⟩ := ih hrest hseen
          exact ⟨first, List.mem_cons_of_mem _ hfirst, hsame, hbuild⟩
        · have hunseen : pairKey pair ∉ pairKey p :: seen := by
            rw [List.mem_cons, not_or]
            exact ⟨Ne.symm hkey, hseen⟩
          obtain ⟨first, hfirst, hsame, hbuild⟩ := ih hrest hunseen
          exact ⟨first, List.mem_cons_of_mem _ hfirst, hsame, fun f hf ↦
            List.mem_append_right _ (hbuild f hf)⟩

/-! ## Sorted findings -/

/-- The order of the findings, spelt out. -/
theorem before_iff {p q : Finding} : p.before q = true ↔
    (p.classification ≠ q.classification ∧ p.classification = .exactDuplicate) ∨
    (p.classification = q.classification ∧
      (q.similarity < p.similarity ∨ (p.similarity = q.similarity ∧
        (p.aId < q.aId ∨ (p.aId = q.aId ∧ p.bId ≤ q.bId))))) := by
  unfold Finding.before
  by_cases hclass : p.classification = q.classification
  · by_cases hsimilarity : p.similarity = q.similarity
    · simp [hclass, hsimilarity]
    · simp [hclass, hsimilarity]
  · simp [hclass]

theorem before_total (p q : Finding) : (p.before q || q.before p) = true := by
  rw [Bool.or_eq_true, before_iff, before_iff]
  by_cases hclass : p.classification = q.classification
  · rcases lt_trichotomy p.similarity q.similarity with hlt | heq | hgt
    · exact .inr (.inr ⟨hclass.symm, .inl hlt⟩)
    · have hids : (p.aId < q.aId ∨ (p.aId = q.aId ∧ p.bId ≤ q.bId)) ∨
          (q.aId < p.aId ∨ (q.aId = p.aId ∧ q.bId ≤ p.bId)) := by
        rcases lt_trichotomy p.aId q.aId with h | h | h
        · exact .inl (.inl h)
        · exact (le_total p.bId q.bId).imp (fun hle ↦ .inr ⟨h, hle⟩) fun hle ↦ .inr ⟨h.symm, hle⟩
        · exact .inr (.inl h)
      rcases hids with h | h
      · exact .inl (.inr ⟨hclass, .inr ⟨heq, h⟩⟩)
      · exact .inr (.inr ⟨hclass.symm, .inr ⟨heq.symm, h⟩⟩)
    · exact .inl (.inr ⟨hclass, .inl hgt⟩)
  · cases hp : p.classification with
    | exactDuplicate => exact .inl (.inl ⟨hp ▸ hclass, rfl⟩)
    | similar =>
        cases hq : q.classification with
        | exactDuplicate => exact .inr (.inl ⟨by simp, rfl⟩)
        | similar => exact absurd (hp.trans hq.symm) hclass

theorem before_trans (p q r : Finding) (hpq : p.before q = true) (hqr : q.before r = true) :
    p.before r = true := by
  rw [before_iff] at hpq hqr ⊢
  rcases hpq with ⟨hpq, hp⟩ | ⟨hpq, hids⟩
  · rcases hqr with ⟨-, hq⟩ | ⟨hqr, -⟩
    · exact absurd (hp.trans hq.symm) hpq
    · exact .inl ⟨hqr ▸ hpq, hp⟩
  · rcases hqr with ⟨hqr, hq⟩ | ⟨hqr, hids'⟩
    · exact .inl ⟨hpq ▸ hqr, hpq.trans hq⟩
    · refine .inr ⟨hpq.trans hqr, ?_⟩
      rcases hids with hlt | ⟨heq, hids⟩
      · rcases hids' with hlt' | ⟨heq', -⟩
        · exact .inl (hlt'.trans hlt)
        · exact .inl (heq' ▸ hlt)
      · rcases hids' with hlt' | ⟨heq', hids'⟩
        · exact .inl (heq ▸ hlt')
        · refine .inr ⟨heq.trans heq', ?_⟩
          rcases hids with hlt | ⟨hid, hle⟩
          · exact .inl (hids'.elim hlt.trans fun h ↦ h.1 ▸ hlt)
          · exact hids'.imp (fun h ↦ hid ▸ h) fun h ↦ ⟨hid.trans h.1, hle.trans h.2⟩

theorem pairwise_allFindings (cases : List ComparableCase) :
    (allFindings cases).Pairwise fun p q ↦ p.before q = true :=
  List.pairwise_mergeSort before_trans before_total _

theorem mem_allFindings {cases : List ComparableCase} {f : Finding} :
    f ∈ allFindings cases ↔ f ∈ consider [] (proposals cases) :=
  (List.mergeSort_perm _ _).mem_iff

theorem nodup_keys_allFindings (cases : List ComparableCase) :
    ((allFindings cases).map Finding.key).Nodup :=
  ((List.mergeSort_perm _ _).map _).nodup_iff.mpr (nodup_keys_consider [] (proposals cases))

/-- What comes after a similar pair is no exact duplicate. -/
theorem exact_of_before {p q : Finding} (h : p.before q = true)
    (hq : q.classification = .exactDuplicate) : p.classification = .exactDuplicate := by
  rcases before_iff.mp h with ⟨-, hp⟩ | ⟨hclass, -⟩
  · exact hp
  · exact hclass.trans hq

/-! ## The findings of a run -/

section Findings

variable {cases : List ComparableCase} (hnodup : (cases.map ComparableCase.id).Nodup)

include hnodup

omit [Runtime] in
theorem pairIn_proposals {pair : CasePair} (h : pair ∈ proposals cases) : PairIn cases pair := by
  rcases List.mem_append.mp h with h | h
  · exact pairIn_exactPairs hnodup h
  · exact pairIn_similarPairs hnodup h

theorem ordered_allFindings {f : Finding} (h : f ∈ allFindings cases) : f.aId < f.bId := by
  obtain ⟨pair, hpair, -, hf⟩ := mem_consider (mem_allFindings.mp h)
  have hlt := pairKey_lt (pairIn_proposals hnodup hpair).2.2
  rwa [← key_of_buildFinding hf] at hlt

/-- Duplicates are found, whichever of the two lists proposed them first. -/
theorem exact_mem_allFindings {x y : ComparableCase} (hx : x ∈ cases) (hy : y ∈ cases)
    (hne : x.id ≠ y.id) (h : Duplicates x y) :
    ∃ f ∈ allFindings cases, f.Of x y ∧ f.classification = .exactDuplicate := by
  have hproposed : ∃ pair ∈ proposals cases, pairKey pair = pairKey (x, y) := by
    rcases mem_exactPairs hx hy (fun heq ↦ hne (congrArg ComparableCase.id heq)) h with hmem | hmem
    · exact ⟨_, List.mem_append_left _ hmem, rfl⟩
    · exact ⟨_, List.mem_append_left _ hmem, (pairKey_swap hne).symm⟩
  obtain ⟨pair, hpair, hkey⟩ := hproposed
  obtain ⟨first, hfirst, hsame, hbuild⟩ :=
    @consider_complete _ [] _ _ hpair List.not_mem_nil
  obtain ⟨f, hf, hof, hclass⟩ := buildFinding_duplicates h
  refine ⟨f, mem_allFindings.mpr (hbuild f ?_), hof, hclass⟩
  rcases pair_of_pairKey hnodup ⟨hx, hy, hne⟩ (pairIn_proposals hnodup hfirst)
    (hkey.symm.trans hsame.symm) with rfl | rfl
  · exact hf
  · rw [buildFinding_comm (Ne.symm hne)]
    exact hf

/-- Two findings of one pair of cases have one key. -/
theorem key_eq_of_of {x y : ComparableCase} {f g : Finding} (hf : f ∈ allFindings cases)
    (hg : g ∈ allFindings cases) (hfx : f.Of x y) (hgx : g.Of x y) : f.key = g.key := by
  have hfLt := ordered_allFindings hnodup hf
  have hgLt := ordered_allFindings hnodup hg
  unfold Finding.key
  rcases hfx with ⟨hfa, hfb⟩ | ⟨hfa, hfb⟩ <;> rcases hgx with ⟨hga, hgb⟩ | ⟨hga, hgb⟩ <;>
    rw [hfa, hfb] at hfLt ⊢ <;> rw [hga, hgb] at hgLt ⊢
  · exact absurd hfLt hgLt.not_gt
  · exact absurd hfLt hgLt.not_gt

theorem complete_allFindings {x y : ComparableCase} (hx : x ∈ cases) (hy : y ∈ cases)
    (hne : x.id ≠ y.id) (h : Duplicates x y) : ((allFindings cases).filter fun f ↦
      f.Of x y ∧ f.classification = .exactDuplicate).length = 1 := by
  obtain ⟨f, hf, hof, hclass⟩ := exact_mem_allFindings hnodup hx hy hne h
  generalize hfound : ((allFindings cases).filter fun f ↦
    f.Of x y ∧ f.classification = .exactDuplicate) = found
  have hkeys : (found.map Finding.key).Nodup := by
    rw [← hfound]
    exact (List.filter_sublist.map _).nodup (nodup_keys_allFindings cases)
  have hmem : ∀ g ∈ found, g ∈ allFindings cases ∧ g.Of x y := by
    intro g hg
    rw [← hfound] at hg
    obtain ⟨hall, hprop⟩ := List.mem_filter.mp hg
    exact ⟨hall, (of_decide_eq_true hprop).1⟩
  have hall : ∀ key ∈ found.map Finding.key, key = f.key := by
    intro key hkey
    obtain ⟨g, hg, rfl⟩ := List.mem_map.mp hkey
    exact key_eq_of_of hnodup (hmem g hg).1 hf (hmem g hg).2 hof
  have hle : found.length ≤ 1 := by
    rw [List.eq_replicate_of_mem hall, List.nodup_replicate, List.length_map] at hkeys
    exact hkeys
  have hpos : f ∈ found := by
    rw [← hfound]
    exact List.mem_filter.mpr ⟨hf, decide_eq_true ⟨hof, hclass⟩⟩
  exact le_antisymm hle (List.length_pos_of_mem hpos)

end Findings

/-- What is kept of the findings, and what is cut off. -/
theorem analyse_findings (cases : List ComparableCase) :
    ∃ dropped, allFindings cases = (analyse cases).findings ++ dropped := by
  unfold analyse allFindings
  dsimp only
  split
  · exact ⟨_, (List.take_append_drop _ _).symm⟩
  · exact ⟨[], (List.append_nil _).symm⟩

end Analyse

/-- Exact arithmetic rounds nothing. -/
def exactRounding : Rounding ℚ where
  val := id
  rnd := id
  le_iff _ _ := Iff.rfl
  rnd_mono := monotone_id
  rnd_val _ := rfl
  val_rnd _ _ _ _ := rfl

theorem ieee_exactRounding : @Ieee asciiRuntime exactRounding :=
  @Ieee.mk asciiRuntime exactRounding (fun _ ↦ rfl) (fun _ _ ↦ rfl) (fun _ _ ↦ rfl)
    (fun _ _ _ ↦ rfl) fun _ ↦ rfl

end Tesbo.ReviewBoard
