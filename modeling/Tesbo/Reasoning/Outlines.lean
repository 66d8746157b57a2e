import Mathlib.Tactic

/-!
# The outline of a document

Headings have a level and a title.  The ones that enclose a place are the last heading before it and,
above each, the last one before it of a smaller level.  A reader may keep them in a stack with a
place for each level instead, where a level that was skipped leaves a hole.
-/

namespace Tesbo.Reasoning.Outlines

variable {α : Type}

/-- Headings that were read, the last first, as they enclose a heading of the level. -/
def above : ℕ → List (ℕ × α) → List (ℕ × α)
  | _, [] => []
  | level, h :: earlier =>
      if h.1 < level then above h.1 earlier ++ [h] else above level earlier

/-- The headings that enclose what comes after these. -/
def enclosing (headings : List (ℕ × α)) : List (ℕ × α) :=
  match headings.reverse with
  | [] => []
  | h :: earlier => above h.1 earlier ++ [h]

/-- No level is skipped on the way down. -/
def Unskipped (chain : List (ℕ × α)) : Prop := chain.map Prod.fst = List.range' 1 chain.length

/-- The stack of a heading: the levels above it are kept, and filled up. -/
def push (hole : α) (stack : List α) (h : ℕ × α) : List α :=
  let kept := stack.take (h.1 - 1)
  kept ++ List.replicate (h.1 - 1 - kept.length) hole ++ [h.2]

/-- The titles of headings at their levels, over a level. -/
def fill (hole : α) : ℕ → List (ℕ × α) → List α
  | _, [] => []
  | level, h :: chain => List.replicate (h.1 - level - 1) hole ++ h.2 :: fill hole h.1 chain

/-- Each heading is deeper than the one before. -/
def Descends : ℕ → List (ℕ × α) → Prop
  | _, [] => True
  | level, h :: chain => level < h.1 ∧ Descends h.1 chain

/-! ## What encloses a heading -/

theorem lt_of_mem_above {level : ℕ} {earlier : List (ℕ × α)} {h : ℕ × α}
    (hmem : h ∈ above level earlier) : h.1 < level := by
  induction earlier generalizing level with
  | nil => cases hmem
  | cons h' earlier ih =>
      unfold above at hmem
      split at hmem
      · next hlt =>
          rcases List.mem_append.mp hmem with hmem | hmem
          · exact lt_trans (ih hmem) hlt
          · rw [List.mem_singleton.mp hmem]
            exact hlt
      · exact ih hmem

/-- A smaller level has fewer headings above it. -/
theorem above_eq_filter {level level' : ℕ} (hle : level ≤ level') (earlier : List (ℕ × α)) :
    above level earlier = (above level' earlier).filter fun h ↦ h.1 < level := by
  induction earlier generalizing level level' with
  | nil => rfl
  | cons h earlier ih =>
      by_cases hlt : h.1 < level
      · have hall : (above h.1 earlier).filter (fun h' ↦ h'.1 < level) = above h.1 earlier := by
          rw [List.filter_eq_self]
          intro h' hmem
          exact decide_eq_true (lt_trans (lt_of_mem_above hmem) hlt)
        rw [above, above, if_pos hlt, if_pos (by omega), List.filter_append, hall]
        simp [hlt]
      · by_cases hlt' : h.1 < level'
        · rw [above, above, if_neg hlt, if_pos hlt', List.filter_append,
            ih (Nat.le_of_not_lt hlt)]
          simp [hlt]
        · rw [above, above, if_neg hlt, if_neg hlt']
          exact ih hle

/-- A new heading closes those of its level, and the deeper ones. -/
theorem enclosing_append_singleton (headings : List (ℕ × α)) (h : ℕ × α) :
    enclosing (headings ++ [h]) = (enclosing headings).filter (fun h' ↦ h'.1 < h.1) ++ [h] := by
  have hleft : enclosing (headings ++ [h]) = above h.1 headings.reverse ++ [h] := by
    unfold enclosing
    rw [List.reverse_append, List.reverse_singleton, List.singleton_append]
  rw [hleft]
  congr 1
  unfold enclosing
  cases headings.reverse with
  | nil => rfl
  | cons h' earlier =>
      -- of a level below both, what is above is the chain of the last heading
      have hchain : above (h'.1 + 1 + h.1) (h' :: earlier) = above h'.1 earlier ++ [h'] := by
        rw [above, if_pos (by omega)]
      dsimp only
      rw [← hchain]
      exact above_eq_filter (by omega) _

theorem descends_mono {level level' : ℕ} {chain : List (ℕ × α)} (hle : level' ≤ level)
    (h : Descends level chain) : Descends level' chain := by
  cases chain with
  | nil => trivial
  | cons h' chain => exact ⟨by have := h.1; omega, h.2⟩

theorem lt_of_descends {level : ℕ} {chain : List (ℕ × α)} (h : Descends level chain) :
    ∀ e ∈ chain, level < e.1 := by
  induction chain generalizing level with
  | nil => exact fun e he ↦ (by cases he)
  | cons h' chain ih =>
      intro e he
      rcases List.mem_cons.mp he with rfl | he
      · exact h.1
      · exact lt_trans h.1 (ih h.2 e he)

theorem descends_filter {level bound : ℕ} {chain : List (ℕ × α)} {h : ℕ × α}
    (hchain : Descends level chain) (hlevel : level < h.1) (hbound : bound = h.1) :
    Descends level (chain.filter (fun e ↦ e.1 < bound) ++ [h]) := by
  induction chain generalizing level with
  | nil => exact ⟨hlevel, trivial⟩
  | cons e chain ih =>
      rw [List.filter_cons]
      split
      · next hlt =>
          have hlt' : e.1 < bound := of_decide_eq_true hlt
          exact ⟨hchain.1, ih hchain.2 (by omega)⟩
      · exact ih (descends_mono (le_of_lt hchain.1) hchain.2) hlevel

theorem descends_enclosing {headings : List (ℕ × α)} (h : ∀ e ∈ headings, 1 ≤ e.1) :
    Descends 0 (enclosing headings) := by
  induction headings using List.reverseRecOn with
  | nil => trivial
  | append_singleton headings e ih =>
      rw [enclosing_append_singleton]
      have he := h e (List.mem_append_right _ (List.mem_singleton_self e))
      exact descends_filter (ih fun e' he' ↦ h e' (List.mem_append_left _ he')) (by omega) rfl

/-! ## The stack -/

/-- A push over the titles at their levels. -/
theorem push_fill (hole : α) {level : ℕ} {chain : List (ℕ × α)} {h : ℕ × α}
    (hchain : Descends level chain) (hlevel : level < h.1) :
    (fill hole level chain).take (h.1 - 1 - level) ++
        List.replicate (h.1 - 1 - level - ((fill hole level chain).take (h.1 - 1 - level)).length)
          hole ++ [h.2] =
      fill hole level (chain.filter (fun e ↦ e.1 < h.1) ++ [h]) := by
  induction chain generalizing level with
  | nil =>
      have hlen : h.1 - 1 - level = h.1 - level - 1 := by omega
      simp [fill, hlen]
  | cons e chain ih =>
      have he := hchain.1
      by_cases hlt : e.1 < h.1
      · have hrest := ih hchain.2 hlt
        have hsplit : h.1 - 1 - level = (e.1 - level - 1) + (h.1 - 1 - e.1 + 1) := by omega
        have htake : (fill hole level (e :: chain)).take (h.1 - 1 - level) =
            List.replicate (e.1 - level - 1) hole ++
              e.2 :: (fill hole e.1 chain).take (h.1 - 1 - e.1) := by
          rw [fill, hsplit, List.take_append, List.length_replicate, Nat.add_sub_cancel_left,
            List.take_succ_cons, List.take_of_length_le (by simp)]
        have hgap : h.1 - 1 - level - (List.replicate (e.1 - level - 1) hole ++
              e.2 :: (fill hole e.1 chain).take (h.1 - 1 - e.1)).length =
            h.1 - 1 - e.1 - ((fill hole e.1 chain).take (h.1 - 1 - e.1)).length := by
          rw [List.length_append, List.length_replicate, List.length_cons]
          omega
        rw [htake, hgap, List.filter_cons, if_pos (decide_eq_true hlt), List.cons_append, fill,
          ← hrest]
        simp
      · -- the heading closes all of the chain
        have hnone : (e :: chain).filter (fun e' ↦ e'.1 < h.1) = [] := by
          rw [List.filter_eq_nil_iff]
          intro e' he' hlt'
          have hlt' : e'.1 < h.1 := of_decide_eq_true hlt'
          rcases List.mem_cons.mp he' with rfl | he'
          · exact hlt hlt'
          · have := lt_of_descends hchain.2 e' he'
            omega
        have htake : (fill hole level (e :: chain)).take (h.1 - 1 - level) =
            List.replicate (h.1 - 1 - level) hole := by
          rw [fill, List.take_append_of_le_length (by rw [List.length_replicate]; omega),
            List.take_replicate, Nat.min_eq_left (by omega)]
        have hlen : h.1 - 1 - level = h.1 - level - 1 := by omega
        rw [htake, hnone]
        simp [fill, hlen]

/-- The stack after headings holds the ones that enclose what follows, each at its level. -/
theorem foldl_push (hole : α) {headings : List (ℕ × α)} (h : ∀ e ∈ headings, 1 ≤ e.1) :
    headings.foldl (push hole) [] = fill hole 0 (enclosing headings) := by
  induction headings using List.reverseRecOn with
  | nil => rfl
  | append_singleton headings e ih =>
      have hrest : ∀ e' ∈ headings, 1 ≤ e'.1 := fun e' he' ↦ h e' (List.mem_append_left _ he')
      have he := h e (List.mem_append_right _ (List.mem_singleton_self e))
      rw [List.foldl_append, List.foldl_cons, List.foldl_nil, ih hrest,
        enclosing_append_singleton, ← push_fill hole (descends_enclosing hrest) (by omega)]
      rfl

/-! ## Holes -/

theorem length_le_fill (hole : α) (level : ℕ) (chain : List (ℕ × α)) :
    chain.length ≤ (fill hole level chain).length := by
  induction chain generalizing level with
  | nil => exact Nat.zero_le _
  | cons h chain ih =>
      have hrest := ih h.1
      simp only [fill, List.length_append, List.length_replicate, List.length_cons]
      omega

/-- Without a hole the levels follow one another. -/
theorem length_fill_iff (hole : α) {level : ℕ} {chain : List (ℕ × α)} (h : Descends level chain) :
    (fill hole level chain).length = chain.length ↔
      chain.map Prod.fst = List.range' (level + 1) chain.length := by
  induction chain generalizing level with
  | nil => simp [fill]
  | cons e chain ih =>
      have hle := length_le_fill hole e.1 chain
      have hlt := h.1
      simp only [fill, List.length_append, List.length_replicate, List.length_cons, List.map_cons,
        List.range'_succ, List.cons.injEq]
      constructor
      · intro hlen
        have he : e.1 = level + 1 := by omega
        refine ⟨he, ?_⟩
        rw [← he]
        exact (ih h.2).mp (by omega)
      · rintro ⟨he, hrest⟩
        rw [← he] at hrest
        have := (ih h.2).mpr hrest
        omega

/-- What the holes add can be counted with any weight that gives them none. -/
theorem sum_fill (hole : α) (weight : α → ℕ) (hhole : weight hole = 0) (level : ℕ)
    (chain : List (ℕ × α)) :
    ((fill hole level chain).map weight).sum = (chain.map fun h ↦ weight h.2).sum := by
  induction chain generalizing level with
  | nil => rfl
  | cons h chain ih => simp [fill, ih, hhole]

/-- With no hole there are only the titles. -/
theorem fill_of_range (hole : α) {level : ℕ} {chain : List (ℕ × α)}
    (h : chain.map Prod.fst = List.range' (level + 1) chain.length) :
    fill hole level chain = chain.map Prod.snd := by
  induction chain generalizing level with
  | nil => rfl
  | cons e chain ih =>
      rw [List.map_cons, List.length_cons, List.range'_succ, List.cons.injEq] at h
      obtain ⟨he, hrest⟩ := h
      have hgap : e.1 - level - 1 = 0 := by omega
      rw [fill, hgap, ih (by rw [he]; exact hrest)]
      rfl

end Tesbo.Reasoning.Outlines
