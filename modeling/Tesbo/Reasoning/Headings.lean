import Tesbo.Reasoning.Assoc
import Tesbo.Reasoning.Pieces

/-!
# Lines under headings

A text of lines, some of which are headings and some of which name a thing.  A reader goes through
them once and keeps, for each name, the heading it last stood under.
-/

namespace Tesbo.Reasoning

/-- What a line is read as. -/
inductive LineMark (α κ : Type) where
  | heading (a : α)
  | item (k : κ)
deriving DecidableEq, Repr

namespace LineMark

variable {α κ : Type}

def heading? : LineMark α κ → Option α
  | heading a => some a
  | item _ => none

/-- The heading in force at the end. -/
def lastHeading (marks : List (LineMark α κ)) : Option α := (marks.filterMap heading?).getLast?

theorem lastHeading_heading (marks : List (LineMark α κ)) (a : α) :
    lastHeading (marks ++ [heading a]) = some a := by
  simp [lastHeading, heading?]

theorem lastHeading_item (marks : List (LineMark α κ)) (k : κ) :
    lastHeading (marks ++ [item k]) = lastHeading marks := by
  simp [lastHeading, heading?]

/-- The last line that names the thing stands under the heading. -/
def Under (marks : List (LineMark α κ)) (k : κ) (a : α) : Prop :=
  ∃ before after, marks = before ++ item k :: after ∧ item k ∉ after ∧ lastHeading before = some a

theorem not_under_nil (k : κ) (a : α) : ¬ Under ([] : List (LineMark α κ)) k a := by
  rintro ⟨before, after, h, -⟩
  cases before <;> cases h

/-- A last line that does not name the thing changes nothing for it. -/
theorem under_append_of_ne {marks : List (LineMark α κ)} {m : LineMark α κ} {k : κ} {a : α}
    (hm : m ≠ item k) : Under (marks ++ [m]) k a ↔ Under marks k a := by
  constructor
  · rintro ⟨before, after, h, hafter, hheading⟩
    rcases List.eq_nil_or_concat after with rfl | ⟨rest, last, rfl⟩
    · exact absurd (List.append_inj_right' h rfl) (by simpa using hm)
    · rw [List.concat_eq_append, ← List.cons_append, ← List.append_assoc] at h
      rw [List.concat_eq_append] at hafter
      obtain ⟨hmarks, -⟩ := List.append_inj' h rfl
      exact ⟨before, rest, hmarks, fun hmem ↦ hafter (List.mem_append_left _ hmem), hheading⟩
  · rintro ⟨before, after, rfl, hafter, hheading⟩
    refine ⟨before, after ++ [m], by simp, fun hmem ↦ ?_, hheading⟩
    rcases List.mem_append.mp hmem with hmem | hmem
    · exact hafter hmem
    · exact hm (List.mem_singleton.mp hmem).symm

/-- A last line that names the thing stands under the heading in force. -/
theorem under_append_item {marks : List (LineMark α κ)} {k : κ} {a : α} :
    Under (marks ++ [item k]) k a ↔ lastHeading marks = some a := by
  constructor
  · rintro ⟨before, after, h, hafter, hheading⟩
    rcases List.eq_nil_or_concat after with rfl | ⟨rest, last, rfl⟩
    · rw [(List.append_inj' h rfl).1]
      exact hheading
    · rw [List.concat_eq_append, ← List.cons_append, ← List.append_assoc] at h
      rw [List.concat_eq_append] at hafter
      obtain ⟨-, hlast⟩ := List.append_inj' h rfl
      obtain rfl := List.singleton_inj.mp hlast
      exact absurd (List.mem_append_right _ (List.mem_singleton_self _)) hafter
  · intro h
    exact ⟨marks, [], rfl, List.not_mem_nil, h⟩

/-- What is not headed at all stands under nothing. -/
theorem not_under_of_unheaded {marks : List (LineMark α κ)} (h : lastHeading marks = none) (k : κ)
    (a : α) : ¬ Under marks k a := by
  rintro ⟨before, after, rfl, -, hheading⟩
  unfold lastHeading at h hheading
  rw [List.getLast?_eq_none_iff, List.filterMap_append, List.append_eq_nil_iff] at h
  rw [h.1] at hheading
  cases hheading

section Scan

variable [DecidableEq κ]

/-- One line of the reader: the heading in force, and the names with theirs. -/
def scanMark (s : Option α × Assoc κ α) : LineMark α κ → Option α × Assoc κ α
  | heading a => (some a, s.2)
  | item k => (s.1, (s.1.map fun a ↦ s.2.set k a).getD s.2)

def scan (marks : List (LineMark α κ)) : Option α × Assoc κ α := marks.foldl scanMark (none, [])

theorem scan_append_singleton (marks : List (LineMark α κ)) (m : LineMark α κ) :
    scan (marks ++ [m]) = scanMark (scan marks) m := by
  unfold scan
  rw [List.foldl_append]
  rfl

theorem scan_heading (marks : List (LineMark α κ)) : (scan marks).1 = lastHeading marks := by
  induction marks using List.reverseRecOn with
  | nil => rfl
  | append_singleton marks m ih =>
      rw [scan_append_singleton]
      cases m with
      | heading a => exact (lastHeading_heading marks a).symm
      | item k => exact ih.trans (lastHeading_item marks k).symm

/-- The reader ends with a name under a heading exactly when its last line stands there. -/
theorem get_scan {marks : List (LineMark α κ)} {k : κ} {a : α} :
    (scan marks).2.get k = some a ↔ Under marks k a := by
  induction marks using List.reverseRecOn with
  | nil => exact iff_of_false (fun h ↦ (by cases h)) (not_under_nil k a)
  | append_singleton marks m ih =>
      rw [scan_append_singleton]
      cases m with
      | heading b =>
          rw [under_append_of_ne (by simp)]
          exact ih
      | item k' =>
          have hheading := scan_heading marks
          unfold scanMark
          dsimp only
          cases hcurrent : (scan marks).1 with
          | none =>
              have hunheaded := hheading.symm.trans hcurrent
              have hlast : lastHeading (marks ++ [item k']) = none := by
                rw [lastHeading_item, hunheaded]
              refine (ih.trans ?_)
              exact iff_of_false (not_under_of_unheaded hunheaded k a)
                (not_under_of_unheaded hlast k a)
          | some b =>
              rw [Option.map_some, Option.getD_some, Assoc.get_set]
              by_cases hk : k = k'
              · subst hk
                rw [if_pos rfl, under_append_item, ← hheading, hcurrent]
              · rw [if_neg hk, under_append_of_ne fun heq ↦ hk (by cases heq; rfl)]
                exact ih

end Scan

/-! ## The lines of a text -/

section Lines

variable {γ : Type} [DecidableEq γ] (newline : γ) (read : List γ → Option (LineMark α κ))

/-- What the lines of a text are read as, but for those that are read as nothing. -/
def marksOf (text : List γ) : List (LineMark α κ) := (text.splitOn newline).filterMap read

variable {newline read}

theorem marksOf_append (before after : List γ) :
    marksOf newline read (before ++ newline :: after) =
      marksOf newline read before ++ marksOf newline read after := by
  unfold marksOf
  rw [List.splitOn_append_cons_self, List.filterMap_append]

theorem marksOf_singleton {line : List γ} (h : newline ∉ line) :
    marksOf newline read line = (read line).toList := by
  unfold marksOf
  rw [List.splitOn_eq_singleton h]
  cases hread : read line <;> simp [hread]

variable (hempty : read [] = none)

include hempty

theorem marksOf_nil : marksOf newline read [] = [] := by
  rw [marksOf_singleton List.not_mem_nil, hempty]
  rfl

/-- Lines that are joined by one newline, or by more, are read one by one. -/
theorem marksOf_joined (n : ℕ) (texts : List (List γ)) :
    marksOf newline read (joined (List.replicate (n + 1) newline) texts) =
      texts.flatMap (marksOf newline read) := by
  have hglue : ∀ (n : ℕ) (before after : List γ),
      marksOf newline read (before ++ List.replicate (n + 1) newline ++ after) =
        marksOf newline read before ++ marksOf newline read after := by
    intro n before after
    induction n generalizing before with
    | zero => rw [List.append_assoc]; exact marksOf_append before after
    | succ n ih =>
        rw [List.append_assoc, List.replicate_succ, List.cons_append, marksOf_append]
        have hrest := ih []
        rw [List.nil_append, marksOf_nil hempty, List.nil_append] at hrest
        rw [hrest]
  induction texts with
  | nil => exact marksOf_nil hempty
  | cons text texts ih =>
      cases texts with
      | nil => rw [joined, List.flatMap_cons, List.flatMap_nil, List.append_nil]
      | cons next texts =>
          rw [joined, hglue, ih]
          rfl

end Lines

end LineMark

end Tesbo.Reasoning
