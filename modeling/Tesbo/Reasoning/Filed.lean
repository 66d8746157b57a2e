import Tesbo.Reasoning.Assoc
import Tesbo.Reasoning.Coverings

/-!
# Texts filed under labels

Texts are put into a map one after another, each under a label and after what is filed there.  What
stands under a label in the end is its texts joined, and nothing of them is lost.
-/

namespace Tesbo.Reasoning.Filed

open Coverings (infix_joined joined_append_singleton)

variable {κ α : Type} [DecidableEq κ]

def textUnder (m : Assoc κ (List α)) (label : κ) : List α := (m.get label).getD []

/-- One more text under a label, glued to what is there unless that is empty. -/
def file (glue : List α) (m : Assoc κ (List α)) (label : κ) (text : List α) : Assoc κ (List α) :=
  let existing := textUnder m label
  m.set label (if existing ≠ [] then existing ++ glue ++ text else text)

def fileAll (glue : List α) (m : Assoc κ (List α)) (entries : List (κ × List α)) :
    Assoc κ (List α) :=
  entries.foldl (fun m e ↦ file glue m e.1 e.2) m

/-- The texts of a label, from the first that is not empty. -/
def textsOf (entries : List (κ × List α)) (label : κ) : List (List α) :=
  ((entries.filter fun e ↦ e.1 = label).map Prod.snd).dropWhile fun t ↦ t = []

def filed (glue : List α) (entries : List (κ × List α)) (label : κ) : List α :=
  joined glue (textsOf entries label)

variable {glue : List α} {entries : List (κ × List α)} {label : κ}

theorem textUnder_file (m : Assoc κ (List α)) (label label' : κ) (text : List α) :
    textUnder (file glue m label text) label' =
      if label' = label then
        if textUnder m label ≠ [] then textUnder m label ++ glue ++ text else text
      else textUnder m label' := by
  unfold textUnder file
  dsimp only
  rw [Assoc.get_set]
  by_cases hlabel : label' = label
  · rw [if_pos hlabel, if_pos hlabel]
    rfl
  · rw [if_neg hlabel, if_neg hlabel]

theorem textsOf_append_other {e : κ × List α} (h : e.1 ≠ label) :
    textsOf (entries ++ [e]) label = textsOf entries label := by
  unfold textsOf
  rw [List.filter_append, List.filter_singleton, decide_eq_false h]
  simp

theorem filed_append_same (text : List α) :
    filed glue (entries ++ [(label, text)]) label =
      if filed glue entries label ≠ [] then filed glue entries label ++ glue ++ text else text := by
  unfold filed textsOf
  rw [List.filter_append, List.filter_singleton, decide_eq_true rfl, cond_true, List.map_append,
    List.map_singleton]
  generalize (entries.filter fun e ↦ decide (e.1 = label)).map Prod.snd = texts
  rw [List.dropWhile_append]
  by_cases hempty : texts.dropWhile (fun t ↦ decide (t = [])) = []
  · rw [hempty, List.isEmpty_nil, if_pos rfl, joined, if_neg (fun h ↦ h rfl)]
    by_cases htext : text = []
    · simp [htext, joined]
    · simp [htext, joined]
  · obtain ⟨first, rest, hfirst⟩ := List.exists_cons_of_ne_nil hempty
    have hne : first ≠ [] := by
      have h := List.dropWhile_get_zero_not (p := fun t ↦ decide (t = [])) texts
        (by rw [hfirst]; exact Nat.succ_pos _)
      simpa [hfirst] using h
    have hjoined : joined glue (first :: rest) ≠ [] := by
      cases rest with
      | nil => exact hne
      | cons r rest => simp [joined, hne]
    rw [hfirst, List.isEmpty_cons, if_neg Bool.false_ne_true,
      joined_append_singleton (List.cons_ne_nil first rest), if_pos hjoined, List.append_assoc]

/-- What stands under a label is what was filed there. -/
theorem textUnder_fileAll (entries : List (κ × List α)) (label : κ) :
    textUnder (fileAll glue [] entries) label = filed glue entries label := by
  induction entries using List.reverseRecOn with
  | nil => rfl
  | append_singleton entries e ih =>
      have hfold : fileAll glue [] (entries ++ [e]) =
          file glue (fileAll glue [] entries) e.1 e.2 := by
        simp only [fileAll, List.foldl_append, List.foldl_cons, List.foldl_nil]
      obtain ⟨label', text⟩ := e
      rw [hfold, textUnder_file]
      by_cases hlabel : label = label'
      · subst hlabel
        rw [if_pos rfl, ih, filed_append_same]
      · rw [if_neg hlabel, ih]
        unfold filed
        rw [textsOf_append_other (Ne.symm hlabel)]

omit [DecidableEq κ] in
theorem mem_dropWhile_of_ne {texts : List (List α)} {t : List α} (ht : t ∈ texts) (hne : t ≠ []) :
    t ∈ texts.dropWhile fun t ↦ t = [] := by
  induction texts with
  | nil => cases ht
  | cons t' texts ih =>
      rw [List.dropWhile_cons]
      rcases List.mem_cons.mp ht with rfl | ht
      · rw [if_neg (by simp [hne])]
        exact List.mem_cons_self
      · split
        · exact ih ht
        · exact List.mem_cons_of_mem t' ht

/-- Nothing that is filed is lost. -/
theorem infix_filed {text : List α} (h : (label, text) ∈ entries) :
    text <:+: filed glue entries label := by
  by_cases hnil : text = []
  · rw [hnil]
    exact List.nil_infix
  · refine infix_joined (mem_dropWhile_of_ne ?_ hnil)
    refine List.mem_map.mpr ⟨(label, text), List.mem_filter.mpr ⟨h, decide_eq_true rfl⟩, rfl⟩

/-! ## The labels under which two maps differ -/

section Changed

variable [DecidableEq α]

def noteChange (old new : Assoc κ (List α)) (changed : List κ) (label : κ) : List κ :=
  if textUnder old label = textUnder new label ∨ label ∈ changed then changed
  else changed ++ [label]

/-- The labels of the two maps, where the texts under them differ, each once. -/
def changedLabels (old new : Assoc κ (List α)) : List κ :=
  (new.map Prod.fst ++ old.map Prod.fst).foldl (noteChange old new) []

omit [DecidableEq α] in
theorem textUnder_of_not_mem {m : Assoc κ (List α)} (h : label ∉ m.map Prod.fst) :
    textUnder m label = [] := by
  unfold textUnder
  cases hget : m.get label with
  | none => rfl
  | some v => exact absurd (List.mem_map_of_mem (f := Prod.fst) (Assoc.mem_of_get hget)) h

theorem mem_changedLabels {old new : Assoc κ (List α)} :
    label ∈ changedLabels old new ↔ textUnder old label ≠ textUnder new label := by
  have hfold : ∀ (labels changed : List κ),
      label ∈ labels.foldl (noteChange old new) changed ↔
        label ∈ changed ∨ label ∈ labels ∧ textUnder old label ≠ textUnder new label := by
    intro labels
    induction labels with
    | nil => simp
    | cons first labels ih =>
        intro changed
        rw [List.foldl_cons, ih]
        unfold noteChange
        by_cases hskip : textUnder old first = textUnder new first ∨ first ∈ changed
        · rw [if_pos hskip]
          by_cases hfirst : label = first
          · subst hfirst
            simp only [List.mem_cons, true_or, true_and]
            tauto
          · simp only [List.mem_cons, hfirst, false_or]
        · rw [if_neg hskip]
          by_cases hfirst : label = first
          · subst hfirst
            simp only [List.mem_append, List.mem_cons, true_or, or_true, true_and]
            tauto
          · simp only [List.mem_append, List.mem_cons, hfirst, List.not_mem_nil, or_false,
              false_or]
  unfold changedLabels
  rw [hfold]
  constructor
  · rintro (h | ⟨-, h⟩)
    · cases h
    · exact h
  · intro h
    refine .inr ⟨?_, h⟩
    by_contra hnot
    rw [List.mem_append, not_or] at hnot
    exact h ((textUnder_of_not_mem hnot.2).trans (textUnder_of_not_mem hnot.1).symm)

end Changed

end Tesbo.Reasoning.Filed
