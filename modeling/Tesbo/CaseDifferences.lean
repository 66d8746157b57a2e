import Tesbo.ReviewAnalysis
import Tesbo.SpreadsheetSafe

/-!
# The differences of two test cases

Two cases are compared field by field, their steps as joined lines; the fingerprint is a digest of the
same fields with the steps pair by pair.
-/

namespace Tesbo.ReviewBoard

open Reasoning

/-! ## Lines of normalised text -/

section Lines

variable [Runtime]

theorem mem_spaceOut {cs : List Char} {c : Char} (h : c ∈ spaceOut cs) :
    Runtime.isLetterOrNumber c = true ∨ c = ' ' := by
  induction cs using spaceOut.induct with
  | case1 => cases h
  | case2 d hd =>
      rw [spaceOut, if_pos hd] at h
      exact .inl (List.mem_singleton.mp h ▸ hd)
  | case3 d hd =>
      rw [spaceOut, if_neg hd] at h
      exact .inr (List.mem_singleton.mp h)
  | case4 d e cs hd ih =>
      rw [spaceOut, if_pos hd] at h
      rcases List.mem_cons.mp h with rfl | h
      · exact .inl hd
      · exact ih h
  | case5 d e cs hd he ih =>
      rw [spaceOut, if_neg hd, if_pos he] at h
      rcases List.mem_cons.mp h with rfl | h
      · exact .inr rfl
      · exact ih h
  | case6 d e cs hd he ih =>
      rw [spaceOut, if_neg hd, if_neg he] at h
      exact ih h

theorem newline_not_mem_normalizeText (hnewline : Runtime.isLetterOrNumber '\n' = false)
    (value : String) : '\n' ∉ (normalizeText value).toList := by
  intro h
  unfold normalizeText jsTrim at h
  rw [String.toList_ofList, String.toList_ofList] at h
  rcases mem_spaceOut ((isInfix_trim _).subset h) with hletter | heq
  · rw [hnewline] at hletter
    cases hletter
  · exact absurd heq (by decide)

omit [Runtime] in
/-- As many lines joined to one text are the same lines. -/
theorem joinLines_inj {lines lines' : List String} (hlength : lines.length = lines'.length)
    (hlines : ∀ line ∈ lines, '\n' ∉ line.toList) (hlines' : ∀ line ∈ lines', '\n' ∉ line.toList)
    (h : joinLines lines = joinLines lines') : lines = lines' := by
  have hsplit : ∀ {texts : List String}, (∀ text ∈ texts, '\n' ∉ text.toList) → texts ≠ [] →
      (joinLines texts).toList.splitOn '\n' = texts.map String.toList := by
    intro texts htexts hne
    rw [joinLines, String.toList_intercalate]
    refine List.splitOn_intercalate '\n' (fun part hpart ↦ ?_) (by simpa using hne)
    obtain ⟨text, htext, rfl⟩ := List.mem_map.mp hpart
    exact htexts text htext
  by_cases hnil : lines = []
  · rw [hnil] at hlength
    rw [hnil, List.length_eq_zero_iff.mp hlength.symm]
  · have hnil' : lines' ≠ [] := by
      rintro rfl
      exact hnil (List.length_eq_zero_iff.mp hlength)
    refine List.map_injective_iff.mpr (fun _ _ ↦ String.toList_inj.mp) ?_
    rw [← hsplit hlines hnil, ← hsplit hlines' hnil', h]

end Lines

/-! ## The differences -/

section Differences

variable [Runtime]

/-- The compared content of a case, as its fingerprint sees it. -/
def contentOf (source : TestcaseSource) : Content :=
  ⟨normalizeText (source.title.getD ""), normalizeText (source.preconditions.getD ""),
    normalizeText (source.postconditions.getD ""), normalizeText (source.testData.getD ""),
    (parseSteps source.steps).map fun s ↦ (normalizeText s.action, normalizeText s.expected)⟩

theorem fingerprint_toComparable (source : TestcaseSource) :
    (toComparable source).fingerprint = Runtime.contentDigest (contentOf source) := rfl

omit [Runtime] in
theorem differing_eq_nil {differs : Prop} [Decidable differs] {field : DiffField} {a b : String} :
    differing differs field a b = [] ↔ ¬ differs := by
  unfold differing
  split <;> simp_all

omit [Runtime] in
/-- Nothing differs if no field does, joined steps being compared with their number. -/
theorem diffCases_eq_nil {a b : ComparableCase} : diffCases a b = [] ↔
    a.norm = b.norm ∧ a.steps.length = b.steps.length := by
  unfold diffCases
  simp only [List.append_eq_nil_iff, differing_eq_nil, not_or, not_not]
  constructor
  · rintro ⟨⟨⟨⟨⟨htitle, hpreconditions⟩, hactions, hlength⟩, hexpected⟩, htestData⟩, hpostconditions⟩
    refine ⟨?_, hlength⟩
    cases hb : b.norm
    cases ha : a.norm
    simp_all
  · rintro ⟨hnorm, hlength⟩
    rw [hnorm]
    exact ⟨⟨⟨⟨⟨rfl, rfl⟩, rfl, hlength⟩, rfl⟩, rfl⟩, rfl⟩

omit [Runtime] in
/-- The normal form of a content. -/
def normOf (c : Content) : Norm :=
  ⟨c.title, c.preconditions, c.postconditions, c.testData, joinLines (c.steps.map Prod.fst),
    joinLines (c.steps.map Prod.snd)⟩

theorem norm_toComparable (source : TestcaseSource) :
    (toComparable source).norm = normOf (contentOf source) := by
  unfold normOf contentOf
  rw [List.map_map, List.map_map]
  rfl

theorem length_steps_toComparable (source : TestcaseSource) :
    (toComparable source).steps.length = (contentOf source).steps.length :=
  (List.length_map _).symm

omit [Runtime] in
/-- A content without line breaks in its steps is told by its normal form and their number. -/
theorem content_inj {c c' : Content}
    (hlines : ∀ s ∈ c.steps, '\n' ∉ s.1.toList ∧ '\n' ∉ s.2.toList)
    (hlines' : ∀ s ∈ c'.steps, '\n' ∉ s.1.toList ∧ '\n' ∉ s.2.toList)
    (hnorm : normOf c = normOf c') (hlength : c.steps.length = c'.steps.length) : c = c' := by
  simp only [normOf, Norm.mk.injEq] at hnorm
  obtain ⟨htitle, hpreconditions, hpostconditions, htestData, hactions, hexpected⟩ := hnorm
  have hmap : ∀ {read : String × String → String} {steps : List (String × String)},
      (∀ s ∈ steps, '\n' ∉ (read s).toList) → ∀ line ∈ steps.map read, '\n' ∉ line.toList := by
    intro read steps hsteps line hline
    obtain ⟨s, hs, rfl⟩ := List.mem_map.mp hline
    exact hsteps s hs
  have hfst : c.steps.map Prod.fst = c'.steps.map Prod.fst :=
    joinLines_inj (by simpa using hlength) (hmap fun s hs ↦ (hlines s hs).1)
      (hmap fun s hs ↦ (hlines' s hs).1) hactions
  have hsnd : c.steps.map Prod.snd = c'.steps.map Prod.snd :=
    joinLines_inj (by simpa using hlength) (hmap fun s hs ↦ (hlines s hs).2)
      (hmap fun s hs ↦ (hlines' s hs).2) hexpected
  have hsteps : c.steps = c'.steps :=
    (List.zip_of_prod hfst hsnd).trans (List.zip_of_prod rfl rfl).symm
  cases c
  cases c'
  simp_all

theorem lines_contentOf (hnewline : Runtime.isLetterOrNumber '\n' = false)
    (source : TestcaseSource) :
    ∀ s ∈ (contentOf source).steps, '\n' ∉ s.1.toList ∧ '\n' ∉ s.2.toList := by
  intro s hs
  obtain ⟨step, -, rfl⟩ := List.mem_map.mp hs
  exact ⟨newline_not_mem_normalizeText hnewline _, newline_not_mem_normalizeText hnewline _⟩

theorem diffCases_eq_nil_iff (hdigest : Function.Injective (Runtime.contentDigest : Content → String))
    (hnewline : Runtime.isLetterOrNumber '\n' = false) (source source' : TestcaseSource) :
    diffCases (toComparable source) (toComparable source') = [] ↔
      (toComparable source).fingerprint = (toComparable source').fingerprint := by
  rw [diffCases_eq_nil, norm_toComparable, norm_toComparable, length_steps_toComparable,
    length_steps_toComparable, fingerprint_toComparable, fingerprint_toComparable]
  constructor
  · rintro ⟨hnorm, hlength⟩
    rw [content_inj (lines_contentOf hnewline source) (lines_contentOf hnewline source') hnorm
      hlength]
  · intro h
    rw [hdigest h]
    exact ⟨rfl, rfl⟩

/-- A finding of two cases, by the analysis or by a reviewer's edit. -/
def FoundOf (a b : ComparableCase) (f : Finding) : Prop :=
  buildFinding a b = some f ∨ rescorePair a b = f

omit [Runtime] in
theorem ordered_cases (x y : ComparableCase) :
    ((if x.id < y.id then x else y) = x ∧ (if x.id < y.id then y else x) = y) ∨
      ((if x.id < y.id then x else y) = y ∧ (if x.id < y.id then y else x) = x) := by
  by_cases h : x.id < y.id
  · exact .inl ⟨if_pos h, if_pos h⟩
  · exact .inr ⟨if_neg h, if_neg h⟩

/-- What is found of a pair is an exact duplicate or not, with the differences of the two. -/
theorem found_cases {x y : ComparableCase} {f : Finding} (h : FoundOf x y f) :
    ∃ a b, ((a = x ∧ b = y) ∨ (a = y ∧ b = x)) ∧
      ((isExact a b = true ∧ f = exactFinding a b) ∨
        (isExact a b = false ∧ f = similarFinding a b)) := by
  refine ⟨if x.id < y.id then x else y, if x.id < y.id then y else x, ordered_cases x y, ?_⟩
  unfold FoundOf buildFinding rescorePair at h
  generalize (if x.id < y.id then x else y) = a at h ⊢
  generalize (if x.id < y.id then y else x) = b at h ⊢
  dsimp only at h
  cases hab : isExact a b with
  | true =>
      rw [hab, if_pos rfl, if_pos rfl] at h
      refine .inl ⟨rfl, ?_⟩
      rcases h with h | h
      · exact (Option.some.inj h).symm
      · exact h.symm
  | false =>
      rw [hab, if_neg Bool.false_ne_true, if_neg Bool.false_ne_true] at h
      refine .inr ⟨rfl, ?_⟩
      rcases h with h | h
      · split at h
        · cases h
        · exact (Option.some.inj h).symm
      · exact h.symm

omit [Runtime] in
theorem fingerprint_of_isExact {a b : ComparableCase} (h : isExact a b = true) :
    a.fingerprint = b.fingerprint :=
  (of_decide_eq_true h).1

/-- The list of differing fields is complete: it is empty exactly for cases of one content, so a
similar pair of different contents names a field and an exact duplicate names none. -/
theorem differences_complete (hdigest : Function.Injective (Runtime.contentDigest : Content → String))
    (hnewline : Runtime.isLetterOrNumber '\n' = false) (source source' : TestcaseSource) :
    (diffCases (toComparable source) (toComparable source') = [] ↔
      (toComparable source).fingerprint = (toComparable source').fingerprint) ∧
    ∀ f, FoundOf (toComparable source) (toComparable source') f →
      (f.classification = .similar →
        (toComparable source).fingerprint ≠ (toComparable source').fingerprint →
        f.differences ≠ []) ∧
      (f.classification = .exactDuplicate → f.differences = []) := by
  refine ⟨diffCases_eq_nil_iff hdigest hnewline source source', fun f hf ↦ ?_⟩
  obtain ⟨a, b, hab, hfound⟩ := found_cases hf
  have hiff : diffCases a b = [] ↔
      (toComparable source).fingerprint = (toComparable source').fingerprint := by
    rcases hab with ⟨rfl, rfl⟩ | ⟨rfl, rfl⟩
    · exact diffCases_eq_nil_iff hdigest hnewline source source'
    · exact (diffCases_eq_nil_iff hdigest hnewline source' source).trans eq_comm
  have hsame : a.fingerprint = b.fingerprint ↔
      (toComparable source).fingerprint = (toComparable source').fingerprint := by
    rcases hab with ⟨rfl, rfl⟩ | ⟨rfl, rfl⟩
    · exact Iff.rfl
    · exact eq_comm
  rcases hfound with ⟨hexact, rfl⟩ | ⟨-, rfl⟩
  · refine ⟨fun hclass ↦ (by cases hclass), fun _ ↦ hiff.mpr ?_⟩
    exact hsame.mp (fingerprint_of_isExact hexact)
  · exact ⟨fun _ hne hnil ↦ hne (hiff.mp hnil), fun hclass ↦ (by cases hclass)⟩

end Differences

/-! ## A digest that tells contents apart -/

/-- The compared content, as a table. -/
def contentTable (c : Content) : Format.Records Char :=
  [c.title.toList, c.preconditions.toList, c.postconditions.toList, c.testData.toList] ::
    c.steps.map fun s ↦ [s.1.toList, s.2.toList]

theorem contentTable_injective : Function.Injective contentTable := by
  intro c c' h
  simp only [contentTable, List.cons.injEq, String.toList_inj, and_true] at h
  obtain ⟨⟨htitle, hpreconditions, hpostconditions, htestData⟩, hsteps⟩ := h
  have hinjective : Function.Injective fun s : String × String ↦ [s.1.toList, s.2.toList] := by
    intro s s' heq
    simp only [List.cons.injEq, String.toList_inj, and_true] at heq
    exact Prod.ext heq.1 heq.2
  have hsame : c.steps = c'.steps := List.map_injective_iff.mpr hinjective hsteps
  cases c
  cases c'
  simp_all

theorem written_contentTable (c : Content) :
    (contentTable c).map Format.written = contentTable c := by
  refine (List.map_congr_left fun record hrecord ↦ ?_).trans (List.map_id _)
  refine if_neg fun hnil ↦ ?_
  rcases List.mem_cons.mp hrecord with rfl | hrecord
  · cases hnil
  · obtain ⟨s, -, rfl⟩ := List.mem_map.mp hrecord
    cases hnil

/-- ASCII text, digested as the file of its table. -/
@[reducible] def tableRuntime : Runtime :=
  { asciiRuntime with
    contentDigest := fun c ↦ String.ofList (SpreadsheetSafe.csv.write (contentTable c)) }

theorem contentDigest_injective : Function.Injective tableRuntime.contentDigest := by
  intro c c' h
  have hread : ∀ c : Content, SpreadsheetSafe.csv.read .start
      (SpreadsheetSafe.csv.write (contentTable c)) = some (contentTable c) := by
    intro c
    rw [contentTable, Format.read_write, ← contentTable, written_contentTable]
  have hwrite := String.ofList_injective h
  refine contentTable_injective (Option.some.inj ?_)
  rw [← hread c, ← hread c', hwrite]

/-- A case of one step. -/
def stepCase (id : Uuid) (step : String) : TestcaseSource where
  id := id
  externalId := "A-TC-1"
  title := some "Log in"
  preconditions := none
  postconditions := none
  testData := none
  steps := .array [.scalar (.text step)]
  description := none
  status := none
  suiteId := none
  priority := none
  severity := none
  type := none
  component := none
  ownerId := none
  jiraIssueKey := none
  linearIssueKey := none
  notionPageId := none

theorem differences_complete_step :
    diffCases (@toComparable tableRuntime (stepCase 1 "Open the page"))
      (@toComparable tableRuntime (stepCase 2 "Open the form")) ≠ [] := fun h ↦
  absurd ((@differences_complete tableRuntime contentDigest_injective rfl
    (stepCase 1 "Open the page") (stepCase 2 "Open the form")).1.mp h) (by decide +kernel)

end Tesbo.ReviewBoard
