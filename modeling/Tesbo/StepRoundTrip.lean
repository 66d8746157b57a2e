import Tesbo.Text

/-!
# Test steps through a file

The steps of a test case in the columns of an exported file, and read back from these columns.
-/

namespace Tesbo

open Reasoning

/-- A stored step: a text, or an object with these fields. -/
inductive StoredStep where
  | plain (text : String)
  | fields (action step description expectedResult expected : Option String)
deriving DecidableEq

/-- The columns of an exported row that hold its steps. -/
structure StepCells where
  steps : String
  action : String
  expectedResult : String
deriving DecidableEq

/-- `a || b || … || ""` -/
def firstTruthy (choices : List (Option String)) : String :=
  ((choices.filterMap fun c ↦ c.filter fun s ↦ s ≠ "").head?).getD ""

/-- `texts.filter(Boolean).join(glue)` -/
def joinTruthy (glue : String) (texts : List String) : String :=
  String.ofList (joined glue.toList ((texts.filter fun s ↦ s ≠ "").map String.toList))

def StoredStep.text : StoredStep → String
  | plain text => text
  | fields action step description expectedResult expected =>
      joinTruthy " => "
        [firstTruthy [action, step, description], firstTruthy [expectedResult, expected]]

/-- The columns `exportTestCases` writes. -/
def exportSteps : List StoredStep → StepCells
  | [.fields action step description expectedResult expected] =>
      { steps := ""
        action := firstTruthy [action, step, description]
        expectedResult := firstTruthy [expectedResult, expected] }
  | parsedSteps => { steps := joinTruthy " | " (parsedSteps.map StoredStep.text)
                     action := "", expectedResult := "" }

/-- `\s*token\s*` at the front of a text: how long it is, 0 where it is not there. -/
def spaced (token cs : List Char) : ℕ :=
  let rest := cs.dropWhile jsSpace
  if token.isPrefixOf rest
  then (cs.takeWhile jsSpace).length + token.length +
    ((rest.drop token.length).takeWhile jsSpace).length
  else 0

/-- `\r?\n|(?:\s*\|\s*)` -/
def stepBreak (cs : List Char) : ℕ :=
  if ['\r', '\n'].isPrefixOf cs then 2
  else if ['\n'].isPrefixOf cs then 1
  else spaced ['|'] cs

/-- `\s*=>\s*` -/
def arrow : List Char → ℕ := spaced ['=', '>']

/-- `parts.join(" => ").trim()` -/
def rejoin (parts : List (List Char)) : List Char :=
  trimChars (joined [' ', '=', '>', ' '] parts)

/-- One segment of the Steps column. -/
def readStep (part : List Char) : Step :=
  let segments := splitMatches arrow part
  { action := String.ofList (trimChars (segments.headD []))
    expectedResult := String.ofList (rejoin segments.tail) }

/-- The steps `handleImport` reads from the columns of a row. -/
def importSteps (cells : StepCells) : List Step :=
  let stepsText := jsTrim cells.steps
  let actionText := jsTrim cells.action
  if stepsText ≠ "" then
    ((splitMatches stepBreak stepsText.toList).map readStep).filter fun step ↦ step.action ≠ ""
  else if actionText ≠ "" then [⟨actionText, jsTrim cells.expectedResult⟩]
  else []

namespace StepRoundTrip

/-- A step as the program stores it. -/
def stored (s : Step) : StoredStep := .fields (some s.action) none none (some s.expectedResult) none

/-- Trimmed texts, and an action that is not empty. -/
structure Tidy (s : Step) : Prop where
  action_ne : s.action.toList ≠ []
  action : Trimmed jsSpace s.action.toList
  expectedResult : Trimmed jsSpace s.expectedResult.toList

/-- Neither a bar nor a line break is in the text. -/
def Unbroken (cs : List Char) : Prop := ∀ c ∈ cs, c ≠ '|' ∧ c ≠ '\n'

/-- No text has a bar or a line break, the action has no arrow, and every arrow of the expected
result stands between single spaces. -/
structure Unambiguous (s : Step) : Prop where
  action : Unbroken s.action.toList
  expectedResult : Unbroken s.expectedResult.toList
  no_arrow : ¬ ['=', '>'] <:+: s.action.toList
  arrows : rejoin (splitMatches arrow s.expectedResult.toList) = s.expectedResult.toList

/-! ## The pattern around a token -/

section Spaced

variable {token : List Char}

/-- The pattern begins where a text has the token after white space. -/
theorem spaced_eq_zero {cs : List Char} (htoken : token ≠ []) :
    spaced token cs = 0 ↔ ¬ token <+: cs.dropWhile jsSpace := by
  unfold spaced
  simp only [List.isPrefixOf_iff_prefix]
  split
  · rename_i h
    have hpos := List.length_pos_of_ne_nil htoken
    exact iff_of_false (by omega) (not_not_intro h)
  · rename_i h
    exact iff_of_true rfl h

/-- The token between single blanks, before other text. -/
theorem spaced_glue {rest : List Char} (htoken : token ≠ []) (hsolid : Trimmed jsSpace token)
    (hrest : ∀ c ∈ rest.head?, jsSpace c = false) :
    spaced token (' ' :: token ++ [' '] ++ rest) = (' ' :: token ++ [' ']).length := by
  obtain ⟨t, token', rfl⟩ := List.exists_cons_of_ne_nil htoken
  have ht : jsSpace t = false := hsolid.1 t rfl
  have hblank : jsSpace ' ' = true := by decide
  have hdrop : (' ' :: (t :: token') ++ [' '] ++ rest).dropWhile jsSpace =
      (t :: token') ++ ' ' :: rest := by
    simp [hblank, ht]
  have htake : (' ' :: (t :: token') ++ [' '] ++ rest).takeWhile jsSpace = [' '] := by
    simp [hblank, ht]
  have hafter : (' ' :: rest).takeWhile jsSpace = [' '] := by
    rw [List.takeWhile_cons, if_pos hblank]
    cases rest with
    | nil => rfl
    | cons c rest => rw [List.takeWhile_cons, if_neg (by rw [hrest c rfl]; decide)]
  unfold spaced
  simp only [hdrop, htake, List.isPrefixOf_iff_prefix, List.prefix_append, if_true,
    List.drop_left, hafter]
  simp
  omega

end Spaced

/-- The end of a trimmed text still has a character that is no space. -/
theorem dropWhile_end {x y : List Char} (h : Trimmed jsSpace (x ++ y)) (hy : y ≠ [])
    (l : List Char) : ∃ d z, y.dropWhile jsSpace = d :: z ∧
      (y ++ l).dropWhile jsSpace = d :: (z ++ l) := by
  have hlast : jsSpace (y.getLast hy) = false := by
    refine h.2 _ ?_
    rw [List.getLast?_append, List.getLast?_eq_some_getLast hy]
    rfl
  have hne : y.dropWhile jsSpace ≠ [] := by
    intro hnil
    rw [List.dropWhile_eq_nil_iff.mp hnil _ (List.getLast_mem hy)] at hlast
    cases hlast
  obtain ⟨d, z, hd⟩ := List.exists_cons_of_ne_nil hne
  refine ⟨d, z, hd, ?_⟩
  rw [List.dropWhile_append, hd]
  rfl

/-! ## The bars between the steps -/

theorem stepBreak_none {x y : List Char} (h : Trimmed jsSpace (x ++ y))
    (hbroken : Unbroken (x ++ y)) (hy : y ≠ []) (l : List Char) : stepBreak (y ++ l) = 0 := by
  have hin : ∀ c ∈ y, c ≠ '|' ∧ c ≠ '\n' := fun c hc ↦ hbroken c (List.mem_append_right x hc)
  obtain ⟨d, z, hd, hdrop⟩ := dropWhile_end h hy l
  obtain ⟨c, y, rfl⟩ := List.exists_cons_of_ne_nil hy
  have hreturn : ¬ ['\r', '\n'] <+: c :: y ++ l := by
    rw [List.cons_append, List.cons_prefix_cons]
    rintro ⟨rfl, hnext⟩
    -- A carriage return is a space, so it is not the last character.
    cases y with
    | nil =>
        have hspace := h.2 '\r' (by rw [List.getLast?_append]; rfl)
        exact absurd hspace (by decide)
    | cons e y =>
        rw [List.cons_append, List.cons_prefix_cons] at hnext
        exact (hin e (by simp)).2 hnext.1.symm
  have hline : ¬ ['\n'] <+: c :: y ++ l := by
    rw [List.cons_append, List.cons_prefix_cons]
    exact fun hprefix ↦ (hin c List.mem_cons_self).2 hprefix.1.symm
  have hbar : spaced ['|'] (c :: y ++ l) = 0 := by
    rw [spaced_eq_zero (List.cons_ne_nil _ _), hdrop, List.cons_prefix_cons]
    have hmem : d ∈ c :: y :=
      (List.dropWhile_suffix jsSpace).subset (hd ▸ List.mem_cons_self)
    exact fun hprefix ↦ (hin d hmem).1 hprefix.1.symm
  unfold stepBreak
  simp only [List.isPrefixOf_iff_prefix, if_neg hreturn, if_neg hline, hbar]

theorem stepBreak_glue {rest : List Char} (hrest : ∀ c ∈ rest.head?, jsSpace c = false) :
    stepBreak ([' ', '|', ' '] ++ rest) = [' ', '|', ' '].length := by
  have hspaced : spaced ['|'] ([' ', '|', ' '] ++ rest) = [' ', '|', ' '].length :=
    spaced_glue (List.cons_ne_nil _ _) (trimmed_of_solid (by decide)) hrest
  have hreturn : ¬ ['\r', '\n'] <+: [' ', '|', ' '] ++ rest := by
    rw [List.cons_append, List.cons_prefix_cons]
    exact fun h ↦ absurd h.1 (by decide)
  have hline : ¬ ['\n'] <+: [' ', '|', ' '] ++ rest := by
    rw [List.cons_append, List.cons_prefix_cons]
    exact fun h ↦ absurd h.1 (by decide)
  unfold stepBreak
  simp only [List.isPrefixOf_iff_prefix, if_neg hreturn, if_neg hline, hspaced]

/-- Steps without bars and line breaks are told apart. -/
theorem splitMatches_joined {parts : List (List Char)} (hne : parts ≠ [])
    (h : ∀ part ∈ parts, part ≠ [] ∧ Trimmed jsSpace part ∧ Unbroken part) :
    splitMatches stepBreak (joined [' ', '|', ' '] parts) = parts := by
  induction parts with
  | nil => exact absurd rfl hne
  | cons a rest ih =>
      obtain ⟨ha, htrimmed, hbroken⟩ := h a List.mem_cons_self
      have hnone : ∀ l x y, a = x ++ y → y ≠ [] → stepBreak (y ++ l) = 0 := by
        rintro l x y rfl hy
        exact stepBreak_none htrimmed hbroken hy l
      cases rest with
      | nil =>
          have hsplit := splitMatches_append (hnone [])
          rw [List.append_nil] at hsplit
          rw [joined, hsplit]
          exact congrArg (· :: []) (List.append_nil a)
      | cons b rest =>
          have hrest : ∀ part ∈ b :: rest, part ≠ [] ∧ Trimmed jsSpace part ∧ Unbroken part :=
            fun part hpart ↦ h part (List.mem_cons_of_mem a hpart)
          have hhead := (@trimmed_joined Char jsSpace [' ', '|', ' '] (b :: rest)
            fun part hpart ↦ ⟨(hrest part hpart).1, (hrest part hpart).2.1⟩).1
          rw [joined, List.append_assoc, splitMatches_append (hnone _),
            splitMatches_of_match (stepBreak_glue hhead) (List.cons_ne_nil _ _),
            ih (List.cons_ne_nil b rest) hrest]
          exact congrArg (· :: b :: rest) (List.append_nil a)

/-- No text between two breaks has a bar or a line break. -/
theorem unbroken_of_mem_split {l part : List Char} (h : part ∈ splitMatches stepBreak l) :
    Unbroken part := by
  refine forall_mem_splitMatches (fun c hc ↦ (by cases hc)) (fun c a l hnone _ ha ↦ ?_) h
  rintro d (_ | ⟨_, hd⟩)
  · constructor
    · rintro rfl
      have hbar : spaced ['|'] ('|' :: l) ≠ 0 := by
        rw [Ne, spaced_eq_zero (List.cons_ne_nil _ _), not_not,
          List.dropWhile_cons_of_neg (by decide)]
        exact ⟨l, rfl⟩
      refine hbar ?_
      simpa [stepBreak] using hnone
    · rintro rfl
      simp [stepBreak] at hnone
  · exact ha d hd

/-! ## The arrow inside a step -/

theorem arrow_eq_zero {cs : List Char} :
    arrow cs = 0 ↔ ¬ ['=', '>'] <+: cs.dropWhile jsSpace :=
  spaced_eq_zero (List.cons_ne_nil _ _)

theorem arrow_none {x y : List Char} (h : Trimmed jsSpace (x ++ y))
    (harrow : ¬ ['=', '>'] <:+: x ++ y) (hy : y ≠ []) {l : List Char}
    (hl : '>' ∉ l.head?) : arrow (y ++ l) = 0 := by
  obtain ⟨d, z, hd, hdrop⟩ := dropWhile_end h hy l
  rw [arrow_eq_zero, hdrop, List.cons_prefix_cons]
  rintro ⟨rfl, hnext⟩
  cases z with
  | nil =>
      cases l with
      | nil => exact absurd (List.prefix_nil.mp hnext) (List.cons_ne_nil _ _)
      | cons c l =>
          rw [List.nil_append, List.cons_prefix_cons] at hnext
          exact hl (congrArg some hnext.1.symm)
  | cons e z =>
      rw [List.cons_append, List.cons_prefix_cons] at hnext
      obtain ⟨rfl, -⟩ := hnext
      refine harrow (List.IsInfix.trans ?_ (List.suffix_append x y).isInfix)
      have hsuffix : '=' :: '>' :: z <:+ y := hd ▸ List.dropWhile_suffix jsSpace
      exact List.IsInfix.trans ⟨[], z, rfl⟩ hsuffix.isInfix

/-- An action without an arrow is read up to the arrow written after it. -/
theorem splitMatches_arrow {a e : List Char} (ha : Trimmed jsSpace a)
    (harrow : ¬ ['=', '>'] <:+: a) (he : Trimmed jsSpace e) :
    splitMatches arrow (a ++ ([' ', '=', '>', ' '] ++ e)) = a :: splitMatches arrow e := by
  have hglue : arrow ([' ', '=', '>', ' '] ++ e) = [' ', '=', '>', ' '].length :=
    spaced_glue (List.cons_ne_nil _ _) (trimmed_of_solid (by decide)) he.1
  rw [splitMatches_append, splitMatches_of_match hglue (List.cons_ne_nil _ _)]
  · exact congrArg (· :: splitMatches arrow e) (List.append_nil a)
  · rintro x y rfl hy
    exact arrow_none ha harrow hy fun h ↦ absurd (Option.some.inj h) (by decide)

theorem splitMatches_no_arrow {a : List Char} (ha : Trimmed jsSpace a)
    (harrow : ¬ ['=', '>'] <:+: a) : splitMatches arrow a = [a] := by
  have hsplit := @splitMatches_append Char arrow a [] fun x y hxy hy ↦ by
    subst hxy
    exact arrow_none ha harrow hy fun h ↦ absurd h (by decide)
  rw [List.append_nil] at hsplit
  rw [hsplit]
  exact congrArg (· :: []) (List.append_nil a)

/-- No text between two arrows has an arrow. -/
theorem no_arrow_of_mem_split {l part : List Char} (h : part ∈ splitMatches arrow l) :
    ¬ ['=', '>'] <:+: part := by
  refine forall_mem_splitMatches (P := fun part ↦ ¬ ['=', '>'] <:+: part) (fun hin ↦ ?_)
    (fun c a l hnone hal ha hin ↦ ?_) h
  · exact absurd (List.infix_nil.mp hin) (List.cons_ne_nil _ _)
  · rcases List.infix_cons_iff.mp hin with hfront | hin
    · obtain ⟨rfl, hnext⟩ := List.cons_prefix_cons.mp hfront
      rw [arrow_eq_zero, List.dropWhile_cons_of_neg (by decide), List.cons_prefix_cons] at hnone
      exact hnone ⟨rfl, hnext.trans hal⟩
    · exact ha hin

/-! ## The two layouts -/

/-- The segment of a step in the Steps column. -/
def segment (s : Step) : List Char :=
  if s.expectedResult = "" then s.action.toList
  else s.action.toList ++ ([' ', '=', '>', ' '] ++ s.expectedResult.toList)

theorem firstTruthy_some (x : String) (rest : List (Option String)) (h : ∀ c ∈ rest, c = none) :
    firstTruthy (some x :: rest) = x := by
  have hrest : rest.filterMap (fun c ↦ c.filter fun s ↦ s ≠ "") = [] := by
    refine List.filterMap_eq_nil_iff.mpr fun c hc ↦ ?_
    rw [h c hc]
    rfl
  unfold firstTruthy
  rw [List.filterMap_cons, hrest]
  by_cases hx : x = ""
  · subst hx
    rfl
  · rw [Option.filter_some, if_pos (by simpa using hx)]
    rfl

theorem text_stored {s : Step} (h : Tidy s) : (stored s).text.toList = segment s := by
  have haction : s.action ≠ "" := fun hempty ↦ h.action_ne (hempty ▸ rfl)
  have h₁ : firstTruthy [some s.action, none, none] = s.action :=
    firstTruthy_some s.action _ (by simp)
  have h₂ : firstTruthy [some s.expectedResult, none] = s.expectedResult :=
    firstTruthy_some s.expectedResult _ (by simp)
  unfold stored StoredStep.text segment joinTruthy
  simp only [h₁, h₂, String.toList_ofList]
  by_cases hempty : s.expectedResult = ""
  · simp [haction, hempty, joined]
  · simp [haction, hempty, joined]

theorem segment_tidy {s : Step} (h : Tidy s) : segment s ≠ [] ∧ Trimmed jsSpace (segment s) := by
  unfold segment
  split
  · exact ⟨h.action_ne, h.action⟩
  · rename_i hne
    have hexpected : s.expectedResult.toList ≠ [] := fun hnil ↦ hne (String.toList_eq_nil_iff.mp hnil)
    refine ⟨by simp, ?_⟩
    rw [← List.append_assoc]
    exact h.action.append h.expectedResult h.action_ne hexpected

theorem segment_unbroken {s : Step} (haction : Unbroken s.action.toList)
    (hexpected : Unbroken s.expectedResult.toList) : Unbroken (segment s) := by
  unfold segment
  split
  · exact haction
  · intro c hc
    rcases List.mem_append.mp hc with hc | hc
    · exact haction c hc
    · rcases List.mem_append.mp hc with hc | hc
      · exact (by decide : ∀ c ∈ [' ', '=', '>', ' '], c ≠ '|' ∧ c ≠ '\n') c hc
      · exact hexpected c hc

/-- A step whose action has no arrow comes back with its expected result rejoined. -/
theorem readStep_segment {s : Step} (h : Tidy s) (harrow : ¬ ['=', '>'] <:+: s.action.toList) :
    readStep (segment s) =
      ⟨s.action, String.ofList (rejoin (splitMatches arrow s.expectedResult.toList))⟩ := by
  have hsplit : splitMatches arrow (segment s) = s.action.toList ::
      (if s.expectedResult = "" then [] else splitMatches arrow s.expectedResult.toList) := by
    unfold segment
    split
    · exact splitMatches_no_arrow h.action harrow
    · exact splitMatches_arrow h.action harrow h.expectedResult
  have haction : trimChars s.action.toList = s.action.toList := h.action.trim_eq
  unfold readStep
  simp only [hsplit, List.headD_cons, haction, String.ofList_toList, List.tail_cons]
  split
  · rename_i hempty
    rw [hempty]
    rfl
  · rfl

/-- What is read from the Steps column has no bar, no line break and no arrow in an action. -/
theorem readStep_spec {l part : List Char} (h : part ∈ splitMatches stepBreak l) :
    Unbroken (readStep part).action.toList ∧ Unbroken (readStep part).expectedResult.toList ∧
      ¬ ['=', '>'] <:+: (readStep part).action.toList := by
  have hpart := unbroken_of_mem_split h
  obtain ⟨first, others, hsplit⟩ :=
    List.exists_cons_of_ne_nil (splitMatches_ne_nil (m := arrow) part)
  have hsub : ∀ segment ∈ first :: others, Unbroken segment := fun segment hin c hc ↦
    hpart c (subset_of_mem_splitMatches (hsplit ▸ hin) hc)
  unfold readStep
  simp only [hsplit, List.headD_cons, List.tail_cons, String.toList_ofList]
  refine ⟨fun c hc ↦ ?_, fun c hc ↦ ?_, fun hin ↦ ?_⟩
  · exact hsub first List.mem_cons_self c ((isInfix_trim first).subset hc)
  · rcases mem_of_mem_joined ((isInfix_trim _).subset hc) with hc | ⟨segment, hin, hc⟩
    · exact (by decide : ∀ c ∈ [' ', '=', '>', ' '], c ≠ '|' ∧ c ≠ '\n') c hc
    · exact hsub segment (List.mem_cons_of_mem first hin) c hc
  · exact no_arrow_of_mem_split (hsplit.symm ▸ List.mem_cons_self) (hin.trans (isInfix_trim first))

/-- Two or more steps, read from the Steps column. -/
theorem importSteps_many {steps : List Step} (h : ∀ s ∈ steps, Tidy s)
    (hlen : 2 ≤ steps.length) : importSteps (exportSteps (steps.map stored)) =
      ((splitMatches stepBreak (joined [' ', '|', ' '] (steps.map segment))).map readStep).filter
        fun step ↦ step.action ≠ "" := by
  have hparts : ∀ part ∈ steps.map segment, part ≠ [] ∧ Trimmed jsSpace part := by
    intro part hpart
    obtain ⟨s, hs, rfl⟩ := List.mem_map.mp hpart
    exact segment_tidy (h s hs)
  have hne : steps.map segment ≠ [] := by
    rintro hnil
    rw [List.map_eq_nil_iff.mp hnil] at hlen
    exact absurd hlen (by decide)
  have hcells : exportSteps (steps.map stored) =
      ⟨String.ofList (joined [' ', '|', ' '] (steps.map segment)), "", ""⟩ := by
    have htexts : (steps.map stored).map StoredStep.text =
        (steps.map segment).map String.ofList := by
      rw [List.map_map, List.map_map]
      refine List.map_congr_left fun s hs ↦ ?_
      exact (String.ofList_toList).symm.trans (congrArg String.ofList (text_stored (h s hs)))
    have hkept : ((steps.map segment).map String.ofList).filter (fun s ↦ s ≠ "") =
        (steps.map segment).map String.ofList := by
      refine List.filter_eq_self.mpr fun text htext ↦ ?_
      obtain ⟨part, hpart, rfl⟩ := List.mem_map.mp htext
      refine decide_eq_true fun hempty ↦ (hparts part hpart).1 ?_
      simpa using congrArg String.toList hempty
    have hsteps : exportSteps (steps.map stored) =
        ⟨joinTruthy " | " ((steps.map stored).map StoredStep.text), "", ""⟩ :=
      match steps, hlen with
      | _ :: _ :: _, _ => rfl
    have hback : ((steps.map segment).map String.ofList).map String.toList =
        steps.map segment := by
      rw [List.map_map]
      exact (List.map_congr_left fun part _ ↦ String.toList_ofList).trans (List.map_id _)
    rw [hsteps, htexts]
    unfold joinTruthy
    rw [hkept, hback]
    rfl
  generalize hjoined : joined [' ', '|', ' '] (steps.map segment) = cell at hcells
  have htrim : jsTrim (String.ofList cell) = String.ofList cell := by
    refine jsTrim_eq ?_
    rw [String.toList_ofList, ← hjoined]
    exact trimmed_joined hparts
  have hnonempty : String.ofList cell ≠ "" := by
    intro hempty
    have hnil : cell = [] := by simpa using congrArg String.toList hempty
    exact joined_ne_nil hne (fun part hpart ↦ (hparts part hpart).1) (hjoined.trans hnil)
  rw [hcells]
  unfold importSteps
  simp only [htrim, ne_eq, hnonempty, not_false_eq_true, if_true, String.toList_ofList]

/-- One step, read from its own two columns. -/
theorem importSteps_single {s : Step} (h : Tidy s) :
    importSteps (exportSteps [stored s]) = [s] := by
  have haction : s.action ≠ "" := fun hempty ↦ h.action_ne (hempty ▸ rfl)
  have hcells : exportSteps [stored s] = ⟨"", s.action, s.expectedResult⟩ := by
    have h₁ : firstTruthy [some s.action, none, none] = s.action :=
      firstTruthy_some s.action _ (by simp)
    have h₂ : firstTruthy [some s.expectedResult, none] = s.expectedResult :=
      firstTruthy_some s.expectedResult _ (by simp)
    unfold stored exportSteps
    simp only [h₁, h₂]
  rw [hcells]
  unfold importSteps
  have hblank : jsTrim "" = "" := rfl
  simp only [hblank, jsTrim_eq h.action, jsTrim_eq h.expectedResult, ne_eq, not_true_eq_false,
    if_false, haction, not_false_eq_true, if_true]

/-- The step with the arrows of its expected result written anew. -/
def rejoined (s : Step) : Step :=
  ⟨s.action, String.ofList (rejoin (splitMatches arrow s.expectedResult.toList))⟩

theorem readSteps_of_unbroken {steps : List Step} (h : ∀ s ∈ steps, Tidy s) (hne : steps ≠ [])
    (hclear : ∀ s ∈ steps, Unbroken s.action.toList ∧ Unbroken s.expectedResult.toList ∧
      ¬ ['=', '>'] <:+: s.action.toList) :
    ((splitMatches stepBreak (joined [' ', '|', ' '] (steps.map segment))).map readStep).filter
      (fun step ↦ step.action ≠ "") = steps.map rejoined := by
  have hsplit : splitMatches stepBreak (joined [' ', '|', ' '] (steps.map segment)) =
      steps.map segment := by
    refine splitMatches_joined (by simpa using hne) fun part hpart ↦ ?_
    obtain ⟨s, hs, rfl⟩ := List.mem_map.mp hpart
    obtain ⟨haction, hexpected, -⟩ := hclear s hs
    exact ⟨(segment_tidy (h s hs)).1, (segment_tidy (h s hs)).2,
      segment_unbroken haction hexpected⟩
  have hread : (steps.map segment).map readStep = steps.map rejoined := by
    rw [List.map_map]
    exact List.map_congr_left fun s hs ↦ readStep_segment (h s hs) (hclear s hs).2.2
  rw [hsplit, hread, List.filter_eq_self]
  intro step hstep
  obtain ⟨s, hs, rfl⟩ := List.mem_map.mp hstep
  exact decide_eq_true fun hempty : s.action = "" ↦ (h s hs).action_ne (hempty ▸ rfl)

theorem rejoined_eq_self {s : Step} : rejoined s = s ↔
    rejoin (splitMatches arrow s.expectedResult.toList) = s.expectedResult.toList := by
  unfold rejoined
  constructor
  · intro h
    have hexpected := congrArg (fun s : Step ↦ s.expectedResult.toList) h
    rwa [String.toList_ofList] at hexpected
  · intro h
    rw [h, String.ofList_toList]

/-- Steps come back unchanged when there is at most one, or none is ambiguous. -/
theorem importSteps_exportSteps_iff {steps : List Step} (h : ∀ s ∈ steps, Tidy s) :
    importSteps (exportSteps (steps.map stored)) = steps ↔
      steps.length ≤ 1 ∨ ∀ s ∈ steps, Unambiguous s := by
  rcases Nat.lt_or_ge steps.length 2 with hlen | hlen
  · refine iff_of_true ?_ (.inl (Nat.le_of_lt_succ hlen))
    match steps, hlen with
    | [], _ => rfl
    | [s], _ => exact importSteps_single (h s List.mem_cons_self)
  have hne : steps ≠ [] := by
    rintro rfl
    exact absurd hlen (by decide)
  rw [importSteps_many h hlen]
  constructor
  · intro hback
    have hclear : ∀ s ∈ steps, Unbroken s.action.toList ∧ Unbroken s.expectedResult.toList ∧
        ¬ ['=', '>'] <:+: s.action.toList := by
      intro s hs
      rw [← hback] at hs
      obtain ⟨part, hpart, rfl⟩ := List.mem_map.mp (List.mem_of_mem_filter hs)
      exact readStep_spec hpart
    rw [readSteps_of_unbroken h hne hclear] at hback
    refine .inr fun s hs ↦ ?_
    have hself : rejoined s = s := List.map_inj_left.mp (hback.trans (List.map_id steps).symm) s hs
    obtain ⟨haction, hexpected, harrow⟩ := hclear s hs
    exact ⟨haction, hexpected, harrow, rejoined_eq_self.mp hself⟩
  · rintro (hlen' | hclear)
    · omega
    · rw [readSteps_of_unbroken h hne fun s hs ↦
        ⟨(hclear s hs).action, (hclear s hs).expectedResult, (hclear s hs).no_arrow⟩]
      exact (List.map_congr_left fun s hs ↦ rejoined_eq_self.mpr (hclear s hs).arrows).trans
        (List.map_id steps)

/-- Two steps, one without an expected result. -/
def signIn : List Step := [⟨"Open the page", ""⟩, ⟨"Sign in", "Greeting => shown"⟩]

theorem importSteps_exportSteps_signIn :
    importSteps (exportSteps (signIn.map stored)) = signIn ↔
      signIn.length ≤ 1 ∨ ∀ s ∈ signIn, Unambiguous s :=
  importSteps_exportSteps_iff <| List.forall_mem_cons.mpr
    ⟨⟨by decide, by decide, by decide⟩, List.forall_mem_singleton.mpr
      ⟨by decide, by decide, by decide⟩⟩

/-- A bar in an action makes two steps of it, and an arrow an expected result. -/
theorem not_importSteps_exportSteps :
    importSteps (exportSteps ([⟨"Type a|b", ""⟩, ⟨"Submit", "ok"⟩].map stored)) =
      [⟨"Type a", ""⟩, ⟨"b", ""⟩, ⟨"Submit", "ok"⟩] ∧
    importSteps (exportSteps ([⟨"Write x=>x", ""⟩, ⟨"Submit", "a=>b"⟩].map stored)) =
      [⟨"Write x", "x"⟩, ⟨"Submit", "a => b"⟩] := by
  decide +kernel

end StepRoundTrip

end Tesbo
