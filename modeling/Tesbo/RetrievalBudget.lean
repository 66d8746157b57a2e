import Tesbo.Retrieval

/-!
# What retrieval passes on

The items keep to the number of sources and, but for an ellipsis, to the budget, and what they say
are passages of their own sources.  One cut may be followed by another: a source whose passages are
too long is cut and given its ellipsis, and cut again where the budget ends within that ellipsis.
-/

namespace Tesbo.Rag.Retrieval

open Reasoning

/-! ## One source -/

/-- A text of at most a passage, or one with an ellipsis after it. -/
def WithinPassage (content : String) : Prop :=
  ∃ text, jsLength text ≤ ragPassageChars ∧ (content = text ∨ content = text ++ "...")

/-- The passages one after the other, or their beginning with dots after it. -/
def MadeOf (content : String) (passages : List String) : Prop :=
  ∃ (n : ℕ) (dots : String), (∀ c ∈ dots.toList, c = '.') ∧
    content = jsSlice n ("\n...\n".intercalate passages) ++ dots

/-- How long an item is when the budget has room for it. -/
def sizeOf (source : FusedSource) : ℕ :=
  if ragPassageChars < jsLength (joined source) then ragPassageChars + 3
  else jsLength (joined source)

variable {source : FusedSource} {remaining used charBudget : ℕ} {sources : List FusedSource}

theorem jsLength_ellipsis : jsLength "..." = 3 := by decide

/-- What is left of the passages of a source before the budget is looked at. -/
def clipped (source : FusedSource) : String :=
  if ragPassageChars < jsLength (joined source) then
    jsSlice ragPassageChars (joined source) ++ "..."
  else joined source

theorem trimmed_eq : trimmed source remaining =
    if remaining < jsLength (clipped source) then jsSlice remaining (clipped source) ++ "..."
    else clipped source := rfl

theorem jsLength_clipped : jsLength (clipped source) = sizeOf source := by
  unfold clipped sizeOf
  by_cases hlong : ragPassageChars < jsLength (joined source)
  · rw [if_pos hlong, if_pos hlong, jsLength_append, jsLength_jsSlice, jsLength_ellipsis]
    omega
  · rw [if_neg hlong, if_neg hlong]

theorem jsLength_trimmed (source : FusedSource) (remaining : ℕ) :
    jsLength (trimmed source remaining) =
      if remaining < sizeOf source then remaining + 3 else sizeOf source := by
  rw [trimmed_eq, jsLength_clipped]
  by_cases hcut : remaining < sizeOf source
  · rw [if_pos hcut, if_pos hcut, jsLength_append, jsLength_jsSlice, jsLength_clipped,
      jsLength_ellipsis]
    omega
  · rw [if_neg hcut, if_neg hcut, jsLength_clipped]

/-- Only a cut within an ellipsis leaves too much. -/
theorem withinPassage_trimmed : WithinPassage (trimmed source remaining) ↔
    ¬ (ragPassageChars < jsLength (joined source) ∧
      (remaining = ragPassageChars + 1 ∨ remaining = ragPassageChars + 2)) := by
  have hlength := jsLength_trimmed source remaining
  constructor
  · intro ⟨text, htext, hcontent⟩ ⟨hlong, hremaining⟩
    have hsize : sizeOf source = ragPassageChars + 3 := if_pos hlong
    rw [hsize, if_pos (by omega)] at hlength
    rcases hcontent with rfl | hcontent
    · omega
    · rw [hcontent, jsLength_append, jsLength_ellipsis] at hlength
      omega
  · intro honce
    rw [trimmed_eq, jsLength_clipped]
    unfold sizeOf clipped
    by_cases hlong : ragPassageChars < jsLength (joined source)
    · rw [if_pos hlong, if_pos hlong]
      have hsliced : jsLength (jsSlice ragPassageChars (joined source)) = ragPassageChars := by
        rw [jsLength_jsSlice]
        omega
      by_cases hcut : remaining < ragPassageChars + 3
      · have hle : remaining ≤ ragPassageChars := by omega
        rw [if_pos hcut]
        refine ⟨_, ?_, .inr rfl⟩
        rw [jsLength_jsSlice]
        exact (Nat.min_le_left _ _).trans hle
      · rw [if_neg hcut]
        exact ⟨_, hsliced.le, .inr rfl⟩
    · rw [if_neg hlong, if_neg hlong]
      by_cases hcut : remaining < jsLength (joined source)
      · rw [if_pos hcut]
        refine ⟨_, ?_, .inr rfl⟩
        rw [jsLength_jsSlice]
        omega
      · rw [if_neg hcut]
        exact ⟨_, not_lt.mp hlong, .inl rfl⟩

theorem dots_append {dots dots' : String} (h : ∀ c ∈ dots.toList, c = '.')
    (h' : ∀ c ∈ dots'.toList, c = '.') : ∀ c ∈ (dots ++ dots').toList, c = '.' := by
  rw [String.toList_append]
  intro c hc
  exact (List.mem_append.mp hc).elim (h c) (h' c)

theorem dots_ellipsis : ∀ c ∈ "...".toList, c = '.' := by decide

theorem dots_slice {n : ℕ} (hn : n ≤ 3) : ∀ c ∈ (jsSlice n "...").toList, c = '.' := by
  interval_cases n <;> decide

/-- Whatever is cut off, what is there are the passages. -/
theorem madeOf_trimmed :
    MadeOf (trimmed source remaining) (source.chunks.map Passage.content) := by
  have hjoined : joined source = "\n...\n".intercalate (source.chunks.map Passage.content) := rfl
  unfold MadeOf
  rw [← hjoined, trimmed_eq, jsLength_clipped]
  unfold sizeOf clipped
  by_cases hlong : ragPassageChars < jsLength (joined source)
  · rw [if_pos hlong, if_pos hlong]
    have hsliced : jsLength (jsSlice ragPassageChars (joined source)) = ragPassageChars := by
      rw [jsLength_jsSlice]
      omega
    by_cases hcut : remaining < ragPassageChars + 3
    · rw [if_pos hcut]
      by_cases hle : remaining ≤ ragPassageChars
      · refine ⟨remaining, "...", dots_ellipsis, ?_⟩
        rw [jsSlice_append_of_le _ (hle.trans hsliced.ge), jsSlice_jsSlice hle]
      · -- cut within its own ellipsis
        refine ⟨ragPassageChars, jsSlice (remaining - ragPassageChars) "..." ++ "...",
          dots_append (dots_slice (by omega)) dots_ellipsis, ?_⟩
        rw [jsSlice_append_of_ge _ (by omega), hsliced, String.append_assoc]
    · rw [if_neg hcut]
      exact ⟨ragPassageChars, "...", dots_ellipsis, rfl⟩
  · rw [if_neg hlong, if_neg hlong]
    by_cases hcut : remaining < jsLength (joined source)
    · rw [if_pos hcut]
      exact ⟨remaining, "...", dots_ellipsis, rfl⟩
    · rw [if_neg hcut]
      refine ⟨remaining, "", fun c hc ↦ (by cases hc), ?_⟩
      rw [jsSlice_of_le (not_lt.mp hcut), String.append_empty]

/-! ## All sources -/

/-- No source is cut within its own ellipsis. -/
def NoSecondCut (charBudget used : ℕ) (sources : List FusedSource) : Prop :=
  ∀ before source after, sources = before ++ source :: after →
    ragPassageChars < jsLength (joined source) →
    used + (before.map sizeOf).sum + ragPassageChars + 1 ≠ charBudget ∧
      used + (before.map sizeOf).sum + ragPassageChars + 2 ≠ charBudget

theorem noSecondCut_of_le (h : charBudget ≤ used) : NoSecondCut charBudget used sources :=
  fun before _ _ _ _ ↦ ⟨by omega, by omega⟩

theorem noSecondCut_cons : NoSecondCut charBudget used (source :: sources) ↔
    (ragPassageChars < jsLength (joined source) →
      used + ragPassageChars + 1 ≠ charBudget ∧ used + ragPassageChars + 2 ≠ charBudget) ∧
    NoSecondCut charBudget (used + sizeOf source) sources := by
  constructor
  · intro h
    refine ⟨fun hlong ↦ h [] source sources rfl hlong, fun before source' after heq hlong ↦ ?_⟩
    have hlater := h (source :: before) source' after (by rw [heq]; rfl) hlong
    rwa [List.map_cons, List.sum_cons, ← Nat.add_assoc] at hlater
  · intro ⟨hfirst, hrest⟩ before source' after heq hlong
    cases before with
    | nil =>
        obtain ⟨rfl, rfl⟩ := List.cons.inj heq
        exact hfirst hlong
    | cons source₀ before =>
        obtain ⟨rfl, hsources⟩ := List.cons.inj heq
        rw [List.map_cons, List.sum_cons, ← Nat.add_assoc]
        exact hrest before source' after hsources hlong

theorem withinPassage_budgetFrom :
    (∀ item ∈ budgetFrom charBudget used sources, WithinPassage item.content) ↔
      NoSecondCut charBudget used sources := by
  induction sources generalizing used with
  | nil =>
      refine ⟨fun _ before source after h ↦ ?_, fun _ _ h ↦ (by cases h)⟩
      exact absurd h.symm (by simp)
  | cons source sources ih =>
      unfold budgetFrom
      by_cases hout : charBudget ≤ used
      · rw [if_pos hout]
        exact ⟨fun _ ↦ noSecondCut_of_le hout, fun _ _ h ↦ (by cases h)⟩
      · rw [if_neg hout, List.forall_mem_cons, noSecondCut_cons, ih]
        refine and_congr ?_ ?_
        · dsimp only
          rw [withinPassage_trimmed]
          omega
        · rw [jsLength_trimmed]
          split
          · -- the budget is used up here
            exact iff_of_true (noSecondCut_of_le (by omega)) (noSecondCut_of_le (by omega))
          · exact Iff.rfl

/-- Together they come to the budget and one ellipsis at most. -/
theorem sum_budgetFrom : ((budgetFrom charBudget used sources).map fun item ↦
    jsLength item.content).sum ≤ charBudget - used + 3 := by
  induction sources generalizing used with
  | nil => exact Nat.zero_le _
  | cons source sources ih =>
      unfold budgetFrom
      by_cases hout : charBudget ≤ used
      · rw [if_pos hout]
        exact Nat.zero_le _
      · rw [if_neg hout, List.map_cons, List.sum_cons]
        dsimp only
        have hlength := jsLength_trimmed source (charBudget - used)
        by_cases hcut : charBudget - used < sizeOf source
        · rw [if_pos hcut] at hlength
          have hover : charBudget ≤ used + jsLength (trimmed source (charBudget - used)) := by omega
          have hnothing : budgetFrom charBudget
              (used + jsLength (trimmed source (charBudget - used))) sources = [] := by
            cases sources with
            | nil => rfl
            | cons source' sources =>
                unfold budgetFrom
                rw [if_pos hover]
          rw [hnothing, hlength]
          exact le_rfl
        · rw [if_neg hcut] at hlength
          have hrest := @ih (used + jsLength (trimmed source (charBudget - used)))
          omega

/-- Each item is one of the sources, in their order. -/
theorem forall₂_budgetFrom (charBudget used : ℕ) (sources : List FusedSource) :
    ∃ told rest, sources = told ++ rest ∧
    List.Forall₂ (fun item source ↦ item.key = source.key ∧
      ∃ remaining, item.content = trimmed source remaining)
      (budgetFrom charBudget used sources) told := by
  induction sources generalizing used with
  | nil => exact ⟨[], [], rfl, .nil⟩
  | cons source sources ih =>
      unfold budgetFrom
      by_cases hout : charBudget ≤ used
      · rw [if_pos hout]
        exact ⟨[], source :: sources, rfl, .nil⟩
      · rw [if_neg hout]
        obtain ⟨told, rest, heq, hall⟩ :=
          ih (used + jsLength (trimmed source (charBudget - used)))
        refine ⟨source :: told, rest, congrArg (source :: ·) heq, List.forall₂_cons.mpr ⟨?_, hall⟩⟩
        refine ⟨rfl, charBudget - used, ?_⟩
        dsimp only

end Tesbo.Rag.Retrieval
