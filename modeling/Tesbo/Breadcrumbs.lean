import Tesbo.ChunkVectors
import Tesbo.Reasoning.Outlines

/-!
# The heading paths of chunks

A chunk is to cite its section by the headings that enclose it.  The sections of a text are the runs
of its lines between headings, and a chunk comes out of one of them.
-/

namespace Tesbo.Rag.Breadcrumbs

open Reasoning
open Reasoning.Outlines
open ChunkVectors

/-! ## The property and its condition -/

/-- A heading by its level and its title. -/
abbrev Heading := ℕ × String

/-- A section and all the headings before it, in their order. -/
structure Placed where
  headings : List Heading
  text : List Char
deriving DecidableEq

def isHeading (line : List Char) : Bool := (headingOf line).isSome

def place (headings : List Heading) (run : List (List Char)) : Placed :=
  ⟨headings, trimChars (['\n'].intercalate run)⟩

/-- The runs of lines between headings that are not blank; a text without any is one section. -/
def sectionsUnder (text : List Char) : List Placed :=
  let lines := text.splitOn '\n'
  let sections :=
    ((lines.filterMap headingOf).inits.zipWith place (lines.splitOnP isHeading)).filter
      fun p ↦ p.text ≠ []
  if sections = [] then [⟨[], text⟩] else sections

/-- The headings before the section each chunk comes from. -/
def headingsOver (rawText : String) : List (List Heading) :=
  let text := trimChars rawText.toList
  if text = [] then []
  else
    let pieces := (sectionsUnder text).flatMap fun part ↦
      (splitSection part.text).map fun piece ↦ (part.headings, piece)
    ((pieces.filter fun e ↦ ragChunkMinChars ≤ textLength (trimChars e.2)).take
      ragMaxChunksPerSource).map Prod.fst

def breadcrumb (headings : List Heading) : Option String :=
  if headings = [] then none else some (" > ".intercalate ((enclosing headings).map Prod.snd))

/-- Each chunk has the titles of the headings that enclose its section. -/
def Cited (rawText : String) : Prop :=
  List.Forall₂ (fun c headings ↦ c.headingPath = breadcrumb headings)
    (chunk rawText) (headingsOver rawText)

/-- The headings that enclose the section of a chunk have the levels 1, 2, 3 and so on. -/
def LevelsInTurn (rawText : String) : Prop :=
  ∀ headings ∈ headingsOver rawText, Unskipped (enclosing headings)

/-! ## The path out of the stack -/

def stackOf (headings : List Heading) : List String := headings.foldl (push "") []

def stackPath (headings : List Heading) : Option String :=
  if stackOf headings = [] then none else some (" > ".intercalate (stackOf headings))

theorem stackOf_append (headings : List Heading) (h : Heading) :
    stackOf (headings ++ [h]) = push "" (stackOf headings) h := by
  unfold stackOf
  rw [List.foldl_append, List.foldl_cons, List.foldl_nil]

theorem stackOf_eq_nil_iff (headings : List Heading) : stackOf headings = [] ↔ headings = [] := by
  induction headings using List.reverseRecOn with
  | nil => exact iff_of_true rfl rfl
  | append_singleton headings h _ =>
      rw [stackOf_append]
      simp [push]

theorem level_headingOf {line : List Char} {h : Heading} (hline : headingOf line = some h) :
    1 ≤ h.1 := by
  unfold headingOf at hline
  dsimp only at hline
  split at hline
  · next hlevel =>
      rw [← Option.some.inj hline]
      exact hlevel.1
  · cases hline

/-! ## The sections that are read -/

def Placed.section (p : Placed) : Section := ⟨stackPath p.headings, p.text⟩

theorem modifyHead_nil_append (runs : List (List (List Char))) :
    runs.modifyHead (([] : List (List Char)) ++ ·) = runs := by
  cases runs with
  | nil => rfl
  | cons run runs => rfl

theorem sections_flush {r : Reading} {headings : List Heading} (h : r.stack = stackOf headings) :
    r.flush.sections = r.sections ++
      ([place headings r.current.reverse].filter fun p ↦ p.text ≠ []).map Placed.section := by
  unfold Reading.flush
  dsimp only
  by_cases hbody : trimChars (['\n'].intercalate r.current.reverse) = []
  · rw [if_pos hbody]
    simp [place, hbody]
  · rw [if_neg hbody, h]
    simp [place, hbody, Placed.section, stackPath]

/-- Reading lines puts what is between the headings into sections, under the headings before. -/
theorem sections_foldl (lines : List (List Char)) {r : Reading} (headings : List Heading)
    (h : r.stack = stackOf headings) :
    (lines.foldl Reading.line r).flush.sections = r.sections ++
      (((lines.filterMap headingOf).inits.zipWith (fun later run ↦ place (headings ++ later) run)
        ((lines.splitOnP isHeading).modifyHead (r.current.reverse ++ ·))).filter
          fun p ↦ p.text ≠ []).map Placed.section := by
  induction lines generalizing r headings with
  | nil =>
      rw [List.foldl_nil, sections_flush h]
      simp
  | cons line lines ih =>
      rw [List.foldl_cons, List.splitOnP_cons_eq_if_modifyHead]
      cases hline : headingOf line with
      | none =>
          have hread : r.line line = { r with current := line :: r.current } := by
            unfold Reading.line
            rw [hline]
          rw [hread, ih (r := { r with current := line :: r.current }) headings h,
            List.filterMap_cons_none hline, if_neg (by simp [isHeading, hline]),
            List.modifyHead_modifyHead]
          simp [Function.comp_def]
      | some heading =>
          have hread : r.line line = { r.flush with stack := push "" r.stack heading } := by
            unfold Reading.line
            rw [hline]
            rfl
          have hstack : push "" r.stack heading = stackOf (headings ++ [heading]) := by
            rw [stackOf_append, h]
          rw [hread, ih (r := { r.flush with stack := push "" r.stack heading }) _ hstack,
            List.filterMap_cons_some hline, if_pos (by simp [isHeading, hline]),
            sections_flush h, List.inits_cons]
          have hcurrent : (r.flush).current = [] := rfl
          dsimp only
          rw [hcurrent, List.reverse_nil, modifyHead_nil_append, List.modifyHead_cons, List.append_nil,
            List.zipWith_cons_cons, List.append_nil, List.zipWith_map_left, List.append_assoc,
            ← List.map_append, ← List.filter_append, List.singleton_append]
          simp only [List.append_assoc, List.singleton_append]

/-- A section has the path of the stack after the headings before it. -/
theorem splitByHeadings_eq (text : List Char) :
    splitByHeadings text = (sectionsUnder text).map Placed.section := by
  have hread := sections_foldl (text.splitOn '\n') (r := ⟨[], [], []⟩) [] rfl
  dsimp only at hread
  rw [List.reverse_nil, modifyHead_nil_append, List.nil_append] at hread
  simp only [List.nil_append] at hread
  unfold splitByHeadings sectionsUnder
  dsimp only
  rw [hread]
  by_cases hnone : (((text.splitOn '\n').filterMap headingOf).inits.zipWith place
      ((text.splitOn '\n').splitOnP isHeading)).filter (fun p ↦ p.text ≠ []) = []
  · rw [hnone]
    rfl
  · rw [if_neg hnone, if_neg]
    rw [List.map_eq_nil_iff]
    exact hnone

theorem exists_of_mem_zipWith {α β γ : Type} {f : α → β → γ} {as : List α} {bs : List β} {c : γ}
    (h : c ∈ as.zipWith f bs) : ∃ a ∈ as, ∃ b, f a b = c := by
  rw [← List.map_uncurry_zip_eq_zipWith] at h
  obtain ⟨pair, hpair, rfl⟩ := List.mem_map.mp h
  exact ⟨pair.1, (List.of_mem_zip hpair).1, pair.2, rfl⟩

theorem sectionsUnder_levels {text : List Char} {p : Placed} (hp : p ∈ sectionsUnder text) :
    ∀ h ∈ p.headings, 1 ≤ h.1 := by
  unfold sectionsUnder at hp
  dsimp only at hp
  split at hp
  · rw [List.mem_singleton.mp hp]
    exact fun h hh ↦ (by cases hh)
  · obtain ⟨headings, hheadings, run, rfl⟩ :=
      exists_of_mem_zipWith (List.mem_of_mem_filter hp)
    intro h hh
    have hmem := (List.mem_inits _ _).mp hheadings |>.subset hh
    obtain ⟨line, -, hline⟩ := List.mem_filterMap.mp hmem
    exact level_headingOf hline

/-! ## The chunks -/

/-- A section's pieces, under what stands over it. -/
def piecesOf {β : Type} (label : β) (text : List Char) : List (β × List Char) :=
  (splitSection text).map fun piece ↦ (label, piece)

theorem map_piecesOf {β γ : Type} (f : β → γ) (label : β) (text : List Char) :
    (piecesOf label text).map (Prod.map f id) = piecesOf (f label) text := by
  unfold piecesOf
  rw [List.map_map]
  rfl

def keptOf {β : Type} (pieces : List (β × List Char)) : List (β × List Char) :=
  (pieces.filter fun e ↦ ragChunkMinChars ≤ textLength (trimChars e.2)).take ragMaxChunksPerSource

/-- Which pieces are kept does not depend on their labels. -/
theorem map_keptOf {β γ : Type} (f : β → γ) (pieces : List (β × List Char)) :
    (keptOf pieces).map (Prod.map f id) = keptOf (pieces.map (Prod.map f id)) := by
  unfold keptOf
  rw [List.map_take, List.filter_map]
  rfl

theorem chunk_eq {rawText : String} (h : trimChars rawText.toList ≠ []) :
    (chunk rawText).map RagChunk.headingPath =
      (keptOf ((splitByHeadings (trimChars rawText.toList)).flatMap fun part ↦
        piecesOf part.headingPath part.text)).map Prod.fst := by
  unfold chunk
  dsimp only
  rw [if_neg h]
  apply List.ext_getElem?
  intro i
  rw [List.getElem?_map, List.getElem?_mapIdx, Option.map_map, List.getElem?_map]
  rfl

/-- Each chunk has the path of the stack after the headings over it. -/
theorem headingPath_chunk (rawText : String) :
    (chunk rawText).map RagChunk.headingPath = (headingsOver rawText).map stackPath := by
  by_cases hblank : trimChars rawText.toList = []
  · unfold chunk headingsOver
    dsimp only
    rw [if_pos hblank, if_pos hblank]
    rfl
  · have hright : headingsOver rawText = (keptOf ((sectionsUnder (trimChars rawText.toList)).flatMap
        fun part ↦ piecesOf part.headings part.text)).map Prod.fst := by
      unfold headingsOver
      dsimp only
      rw [if_neg hblank]
      rfl
    have hpieces : (splitByHeadings (trimChars rawText.toList)).flatMap
          (fun part ↦ piecesOf part.headingPath part.text) =
        ((sectionsUnder (trimChars rawText.toList)).flatMap
          fun part ↦ piecesOf part.headings part.text).map (Prod.map stackPath id) := by
      rw [splitByHeadings_eq, List.flatMap_map, List.map_flatMap]
      congr 1
      funext part
      exact (map_piecesOf stackPath part.headings part.text).symm
    rw [chunk_eq hblank, hright, hpieces, ← map_keptOf, List.map_map, List.map_map]
    rfl

theorem headingsOver_levels {rawText : String} {headings : List Heading}
    (h : headings ∈ headingsOver rawText) : ∀ e ∈ headings, 1 ≤ e.1 := by
  unfold headingsOver at h
  dsimp only at h
  split at h
  · cases h
  · obtain ⟨pair, hpair, rfl⟩ := List.mem_map.mp h
    obtain ⟨part, hpart, hmem⟩ :=
      List.mem_flatMap.mp (List.mem_of_mem_filter (List.mem_of_mem_take hpair))
    obtain ⟨piece, -, rfl⟩ := List.mem_map.mp hmem
    exact sectionsUnder_levels hpart

/-! ## Holes in a path -/

theorem length_intercalate (separator : String) (titles : List String) :
    (separator.intercalate titles).length =
      (titles.map String.length).sum + separator.length * (titles.length - 1) := by
  induction titles with
  | nil => simp
  | cons title titles ih =>
      cases titles with
      | nil => simp
      | cons title' titles =>
          rw [String.intercalate_cons_cons, String.length_append, String.length_append, ih]
          simp only [List.map_cons, List.sum_cons, List.length_cons, Nat.add_sub_cancel]
          ring

/-- A path is the breadcrumb when the stack has no hole: one adds a separator. -/
theorem stackPath_eq_iff {headings : List Heading} (h : ∀ e ∈ headings, 1 ≤ e.1) :
    stackPath headings = breadcrumb headings ↔ Unskipped (enclosing headings) := by
  unfold stackPath breadcrumb
  rw [if_congr (stackOf_eq_nil_iff headings) rfl rfl]
  by_cases hnone : headings = []
  · subst hnone
    exact iff_of_true rfl rfl
  · rw [if_neg hnone, if_neg hnone, Option.some.injEq]
    unfold stackOf
    rw [foldl_push "" h]
    constructor
    · intro heq
      have hlen := congrArg String.length heq
      rw [length_intercalate, length_intercalate, sum_fill "" String.length rfl, List.map_map,
        List.length_map] at hlen
      have hsep : " > ".length = 3 := rfl
      rw [hsep] at hlen
      have hle := length_le_fill "" 0 (enclosing headings)
      have hne : (enclosing headings).length ≠ 0 := by
        rw [← List.dropLast_append_getLast hnone, enclosing_append_singleton]
        simp
      have hfill : (fill "" 0 (enclosing headings)).length = (enclosing headings).length := by
        unfold Function.comp at hlen
        omega
      exact (length_fill_iff "" (descends_enclosing h)).mp hfill
    · intro hlevels
      rw [fill_of_range "" hlevels]

theorem forall₂_map_eq_iff {α β : Type} {f : α → Option String} {g g' : β → Option String}
    {as : List α} {bs : List β} (h : as.map f = bs.map g) :
    List.Forall₂ (fun a b ↦ f a = g' b) as bs ↔ ∀ b ∈ bs, g b = g' b := by
  induction bs generalizing as with
  | nil =>
      rw [List.map_nil, List.map_eq_nil_iff] at h
      subst h
      exact iff_of_true .nil fun b hb ↦ (by cases hb)
  | cons b bs ih =>
      cases as with
      | nil => cases h
      | cons a as =>
          rw [List.map_cons, List.map_cons, List.cons.injEq] at h
          rw [List.forall₂_cons, List.forall_mem_cons, ih h.2, h.1]

/-- A document is cited right when it skips no level above a chunk. -/
theorem cited_iff (rawText : String) : Cited rawText ↔ LevelsInTurn rawText := by
  unfold Cited LevelsInTurn
  rw [forall₂_map_eq_iff (headingPath_chunk rawText)]
  constructor
  · intro h headings hmem
    exact (stackPath_eq_iff (headingsOver_levels hmem)).mp (h headings hmem)
  · intro h headings hmem
    exact (stackPath_eq_iff (headingsOver_levels hmem)).mpr (h headings hmem)

/-- A document that goes from the first level to the third. -/
def skipping : String := "# A\n### B\nLog in with the code."

theorem headingsOver_skipping : headingsOver skipping = [[(1, "A"), (3, "B")]] := by
  decide +kernel

/-- Its chunk is cited as `A >  > B`. -/
theorem skipped_level_not_cited : ¬ Cited skipping := by
  unfold Cited
  rw [forall₂_map_eq_iff (headingPath_chunk skipping), headingsOver_skipping]
  intro h
  have hpath := h _ (List.mem_singleton_self _)
  rw [stackPath_eq_iff (by decide)] at hpath
  revert hpath
  unfold Unskipped
  decide

end Tesbo.Rag.Breadcrumbs
