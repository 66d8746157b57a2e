import Tesbo.CodeUnits
import Tesbo.Reasoning.Coverings

/-!
# The chunks of a text

A text is cut into chunks for its embeddings: by its headings into sections, and each section by a
cascade of separators into pieces that fit, which are put together again up to the size of a chunk.
-/

namespace Tesbo.Rag.LosslessChunks

open Reasoning
open Reasoning.Coverings
open CodeUnits

def ragChunkTargetChars : ℕ := 1600

def ragChunkOverlapChars : ℕ := 240

def ragChunkMinChars : ℕ := 20

def ragMaxChunksPerSource : ℕ := 500

structure Section where
  headingPath : Option Text
  text : Text
deriving DecidableEq, Repr

structure RagChunk where
  chunkIndex : ℕ
  headingPath : Option Text
  content : Text
  tokenCount : ℕ
deriving DecidableEq, Repr

/-! ## Sections -/

/-- `/^(#{1,6})\s+(.*)$/`: the level of a heading, and its title. -/
def headingOf (line : Text) : Option (ℕ × Text) :=
  match headingLine line with
  | some (level, title) =>
      if 1 ≤ level ∧ level ≤ 6 then some (level, trim isSpace title) else none
  | none => none

/-- The headings over the place a text has been read to, the sections before it, and the lines of
the section it is in. -/
structure Reading where
  stack : List Text
  sections : List Section
  current : List Text

def Reading.flush (r : Reading) : Reading :=
  let body := trim isSpace (joined [newline] r.current)
  let headingPath := if r.stack = [] then none else some (joined (literal [' ', '>', ' ']) r.stack)
  { r with
    sections := if body = [] then r.sections else r.sections ++ [⟨headingPath, body⟩]
    current := [] }

def Reading.line (r : Reading) (line : Text) : Reading :=
  match headingOf line with
  | some (level, title) =>
      let stack := r.stack.take (level - 1)
      -- a level that is skipped leaves a hole, which `join` writes as nothing
      { r.flush with stack := stack ++ List.replicate (level - 1 - stack.length) [] ++ [title] }
  | none => { r with current := r.current ++ [line] }

def splitByHeadings (text : Text) : List Section :=
  let sections := ((text.splitOn newline).foldl Reading.line ⟨[], [], []⟩).flush.sections
  if sections = [] then [⟨none, text⟩] else sections

/-! ## Pieces -/

def hardCut (text : Text) : List Text :=
  if text.length ≤ ragChunkTargetChars then [text] else inBatches ragChunkTargetChars text

def recursiveSplit (text : Text) : List Text → List Text
  | [] => hardCut text
  | sep :: rest =>
      if text.length ≤ ragChunkTargetChars then hardCut text
      else
        let parts := (splitAtEach sep text).filter fun part ↦ part ≠ []
        if parts.length ≤ 1 then recursiveSplit text rest
        else parts.flatMap fun part ↦
          if ragChunkTargetChars < part.length then recursiveSplit part rest else [part]

/-- `["\n\n", "\n", ". "]` -/
def separators : List Text := [[newline, newline], [newline], literal ['.', ' ']]

/-- The chunks that are done, and the buffer. -/
def mergePiece (state : List Text × Text) (piece : Text) : List Text × Text :=
  let (merged, buffer) := state
  let candidate := if buffer ≠ [] then buffer ++ newline :: piece else piece
  if candidate.length ≤ ragChunkTargetChars ∨ buffer = [] then (merged, candidate)
  else
    let overlap := buffer.drop (buffer.length - ragChunkOverlapChars)
    (merged ++ [buffer], overlap ++ newline :: piece)

def splitSection (text : Text) : List Text :=
  let (merged, buffer) := (recursiveSplit text separators).foldl mergePiece ([], [])
  if buffer ≠ [] then merged ++ [buffer] else merged

/-! ## Chunks -/

/-- The loop over the pieces of all sections: short ones are left out, and there is a limit. -/
def pushChunks (chunks : List RagChunk) : List (Option Text × Text) → List RagChunk
  | [] => chunks
  | (headingPath, piece) :: rest =>
      if (trim isSpace piece).length < ragChunkMinChars then pushChunks chunks rest
      else
        let pushed := chunks ++
          [⟨chunks.length, headingPath, trim isSpace piece, (piece.length + 3) / 4⟩]
        if ragMaxChunksPerSource ≤ pushed.length then pushed else pushChunks pushed rest

def chunk (rawText : Text) : List RagChunk :=
  let text := trim isSpace rawText
  if text = [] then []
  else pushChunks [] ((splitByHeadings text).flatMap fun section_ ↦
    (splitSection section_.text).map fun piece ↦ (section_.headingPath, piece))

/-! ## The sections are not empty -/

theorem sections_flush {r : Reading} (h : ∀ s ∈ r.sections, s.text ≠ []) :
    ∀ s ∈ r.flush.sections, s.text ≠ [] := by
  unfold Reading.flush
  dsimp only
  split
  · exact h
  · rename_i hbody
    intro s hs
    rcases List.mem_append.mp hs with hs | hs
    · exact h s hs
    · rw [List.mem_singleton.mp hs]
      exact hbody

theorem sections_line {r : Reading} (h : ∀ s ∈ r.sections, s.text ≠ []) (line : Text) :
    ∀ s ∈ (r.line line).sections, s.text ≠ [] := by
  unfold Reading.line
  split
  · exact sections_flush h
  · exact h

theorem text_ne_nil_of_mem_splitByHeadings {text : Text} (hne : text ≠ []) :
    ∀ s ∈ splitByHeadings text, s.text ≠ [] := by
  have hread : ∀ (lines : List Text) (r : Reading), (∀ s ∈ r.sections, s.text ≠ []) →
      ∀ s ∈ (lines.foldl Reading.line r).sections, s.text ≠ [] := by
    intro lines
    induction lines with
    | nil => exact fun r h ↦ h
    | cons line lines ih => exact fun r h ↦ ih _ (sections_line h line)
  unfold splitByHeadings
  dsimp only
  split
  · intro s hs
    rw [List.mem_singleton.mp hs]
    exact hne
  · exact sections_flush (hread _ ⟨[], [], []⟩ fun s hs ↦ by cases hs)

/-! ## The pieces -/

/-- A piece fits, and is not empty. -/
def Fits (piece : Text) : Prop := piece ≠ [] ∧ piece.length ≤ ragChunkTargetChars

theorem fits_inBatches (text : Text) : ∀ p ∈ inBatches ragChunkTargetChars text, Fits p := by
  induction hlen : text.length using Nat.strong_induction_on generalizing text with
  | _ n ih =>
      have hpos : 0 < ragChunkTargetChars := by decide
      by_cases htext : text = []
      · rw [htext, inBatches_nil hpos]
        exact fun p hp ↦ by cases hp
      · rw [inBatches_of_ne_nil hpos htext]
        have htextPos := List.length_pos_of_ne_nil htext
        intro p hp
        rcases List.mem_cons.mp hp with rfl | hp
        · refine ⟨?_, List.length_take_le _ _⟩
          apply List.ne_nil_of_length_pos
          rw [List.length_take]
          omega
        · refine ih _ ?_ _ rfl p hp
          rw [List.length_drop]
          omega

theorem fits_hardCut {text : Text} (hne : text ≠ []) : ∀ p ∈ hardCut text, Fits p := by
  unfold hardCut
  split
  · rename_i hle
    intro p hp
    rw [List.mem_singleton.mp hp]
    exact ⟨hne, hle⟩
  · exact fits_inBatches text

theorem covers_hardCut (seps : List Text) (text : Text) : Covers seps (hardCut text) text := by
  unfold hardCut
  split
  · exact .single text
  · have h : Covers seps _ _ := Covers.flatten (inBatches ragChunkTargetChars text)
    rwa [flatten_inBatches (by decide)] at h

/-- The pieces of a text fit, whatever separators are left. -/
theorem fits_recursiveSplit (seps : List Text) {text : Text} (hne : text ≠ []) :
    ∀ p ∈ recursiveSplit text seps, Fits p := by
  induction seps generalizing text with
  | nil => exact fits_hardCut hne
  | cons sep rest ih =>
      unfold recursiveSplit
      dsimp only
      split
      · exact fits_hardCut hne
      · split
        · exact ih hne
        · intro p hp
          obtain ⟨part, hpart, hp⟩ := List.mem_flatMap.mp hp
          have hpartNe : part ≠ [] := by simpa using (List.mem_filter.mp hpart).2
          split at hp
          · exact ih hpartNe p hp
          · rename_i hle
            rw [List.mem_singleton.mp hp]
            exact ⟨hpartNe, not_lt.mp hle⟩

/-- The pieces cover the text, whatever separators are left. -/
theorem covers_recursiveSplit {seps : List Text} (hseps : ∀ sep ∈ seps, sep ≠ []) (text : Text) :
    Covers seps (recursiveSplit text seps) text := by
  induction seps generalizing text with
  | nil => exact covers_hardCut [] text
  | cons sep rest ih =>
      have ih' := fun text ↦ (ih (fun s hs ↦ hseps s (List.mem_cons_of_mem sep hs)) text).mono
        (List.subset_cons_self sep rest)
      unfold recursiveSplit
      dsimp only
      split
      · exact covers_hardCut _ text
      · split
        · exact ih' text
        · apply Covers.flatMap
          · exact covers_splitAtEach List.mem_cons_self (hseps sep List.mem_cons_self) text
          · intro part _
            split
            · exact ih' part
            · exact .single part

/-! ## The chunks of a section -/

def maxChunkChars : ℕ := ragChunkTargetChars + ragChunkOverlapChars + 1

abbrev sectionChunks (groups : List (List Text)) : List Text :=
  chunksOf newline ragChunkOverlapChars groups

/-- What the loop over the pieces has when it has read `pieces`: the chunks of some groups, and in
the buffer the pieces of one more, under the end of the chunk before. -/
structure Merged (pieces : List Text) (state : List Text × Text) : Prop where
  groups : ∃ groups group, pieces = groups.flatten ++ group ∧ group ≠ [] ∧
    (∀ g ∈ groups, g ≠ []) ∧ state.1 = sectionChunks groups ∧
      state.2 = lead newline ragChunkOverlapChars state.1.getLast? ++ joined [newline] group
  nonempty : state.2 ≠ []
  bounded : state.2.length ≤ maxChunkChars ∧ ∀ c ∈ state.1, c.length ≤ maxChunkChars

theorem merged_first {piece : Text} (h : Fits piece) :
    Merged [piece] (mergePiece ([], []) piece) := by
  have hstate : mergePiece ([], []) piece = ([], piece) := by simp [mergePiece]
  rw [hstate]
  refine ⟨⟨[], [piece], rfl, List.cons_ne_nil _ _, fun g hg ↦ (by cases hg), rfl, rfl⟩, h.1, ?_, ?_⟩
  · have := h.2
    unfold maxChunkChars
    dsimp only
    omega
  · exact fun c hc ↦ by cases hc

theorem Merged.step {pieces : List Text} {state : List Text × Text} (hm : Merged pieces state)
    {piece : Text} (h : Fits piece) : Merged (pieces ++ [piece]) (mergePiece state piece) := by
  obtain ⟨merged, buffer⟩ := state
  obtain ⟨⟨groups, group, hpieces, hgroup, hgroups, hmerged, hbuffer⟩, hne, hbound, hbounds⟩ := hm
  dsimp only at *
  unfold mergePiece
  dsimp only
  rw [if_pos hne]
  by_cases hfits : (buffer ++ newline :: piece).length ≤ ragChunkTargetChars
  · -- the piece joins the group of the buffer
    rw [if_pos (.inl hfits)]
    refine ⟨⟨groups, group ++ [piece], ?_, by simp, hgroups, hmerged, ?_⟩, by simp, ?_, hbounds⟩
    · rw [hpieces, List.append_assoc]
    · rw [joined_append_singleton hgroup, hbuffer]
      simp
    · unfold maxChunkChars
      dsimp only
      omega
  · -- the buffer is done, and the piece begins a group of its own
    rw [if_neg (not_or.mpr ⟨hfits, hne⟩)]
    refine ⟨⟨groups ++ [group], [piece], ?_, List.cons_ne_nil _ _, ?_, ?_, ?_⟩, by simp, ?_, ?_⟩
    · rw [hpieces, List.flatten_append, List.flatten_singleton]
    · intro g hg
      rcases List.mem_append.mp hg with hg | hg
      · exact hgroups g hg
      · rw [List.mem_singleton.mp hg]
        exact hgroup
    · rw [sectionChunks, chunksOf_append_singleton, follow, ← sectionChunks, ← hmerged, ← hbuffer]
    · simp [lead, joined]
    · have := h.2
      unfold maxChunkChars
      simp only [List.length_append, List.length_cons, List.length_drop]
      omega
    · intro c hc
      rcases List.mem_append.mp hc with hc | hc
      · exact hbounds c hc
      · rw [List.mem_singleton.mp hc]
        exact hbound

theorem merged_foldl {rest : List Text} (hrest : ∀ p ∈ rest, Fits p) {pieces : List Text}
    {state : List Text × Text} (hm : Merged pieces state) :
    Merged (pieces ++ rest) (rest.foldl mergePiece state) := by
  induction rest generalizing pieces state with
  | nil => rwa [List.append_nil]
  | cons p rest ih =>
      have hstep := hm.step (hrest p List.mem_cons_self)
      have hall := ih (fun q hq ↦ hrest q (List.mem_cons_of_mem p hq)) hstep
      rwa [List.append_assoc] at hall

/-- What a section is cut into: its pieces cover it, each in one of the chunks, and the chunks are
the pieces in groups, each chunk after the first under an end of the one before. -/
structure Lossless (text : Text) : Prop where
  covered : Covers separators (recursiveSplit text separators) text
  kept : ∀ piece ∈ recursiveSplit text separators, ∃ c ∈ splitSection text, piece <:+: c
  grouped : ∃ groups, groups.flatten = recursiveSplit text separators ∧ (∀ g ∈ groups, g ≠ []) ∧
    splitSection text = sectionChunks groups
  overlapping : (splitSection text).IsChain (Overlaps newline ragChunkOverlapChars)

theorem separators_ne_nil : ∀ sep ∈ separators, sep ≠ [] := by decide

theorem splitSection_spec {text : Text} (hne : text ≠ []) :
    (∃ groups, groups.flatten = recursiveSplit text separators ∧ (∀ g ∈ groups, g ≠ []) ∧
      splitSection text = sectionChunks groups) ∧
      ∀ c ∈ splitSection text, c.length ≤ maxChunkChars := by
  have hfits := fits_recursiveSplit separators hne
  unfold splitSection
  cases hpieces : recursiveSplit text separators with
  | nil => exact ⟨⟨[], rfl, fun g hg ↦ (by cases hg), rfl⟩, fun c hc ↦ (by cases hc)⟩
  | cons first rest =>
      rw [hpieces] at hfits
      have hm : Merged (first :: rest) (rest.foldl mergePiece (mergePiece ([], []) first)) :=
        merged_foldl (fun p hp ↦ hfits p (List.mem_cons_of_mem first hp))
          (merged_first (hfits first List.mem_cons_self))
      rw [List.foldl_cons]
      generalize rest.foldl mergePiece (mergePiece ([], []) first) = state at hm
      obtain ⟨merged, buffer⟩ := state
      obtain ⟨⟨groups, group, hall, hgroup, hgroups, hmerged, hbuffer⟩, hne', hbound, hbounds⟩ := hm
      dsimp only at *
      rw [if_pos hne']
      constructor
      · refine ⟨groups ++ [group], ?_, ?_, ?_⟩
        · rw [List.flatten_append, List.flatten_singleton, hall]
        · intro g hg
          rcases List.mem_append.mp hg with hg | hg
          · exact hgroups g hg
          · rw [List.mem_singleton.mp hg]
            exact hgroup
        · rw [sectionChunks, chunksOf_append_singleton, follow, ← sectionChunks, ← hmerged,
            ← hbuffer]
      · intro c hc
        rcases List.mem_append.mp hc with hc | hc
        · exact hbounds c hc
        · rw [List.mem_singleton.mp hc]
          exact hbound

theorem lossless_of_ne_nil {text : Text} (hne : text ≠ []) : Lossless text := by
  obtain ⟨⟨groups, hflatten, hgroups, hchunks⟩, -⟩ := splitSection_spec hne
  refine ⟨covers_recursiveSplit separators_ne_nil text, ?_, ⟨groups, hflatten, hgroups, hchunks⟩, ?_⟩
  · intro piece hpiece
    rw [hchunks]
    exact exists_infix_chunksOf (by rwa [hflatten])
  · rw [hchunks]
    exact isChain_chunksOf

/-! ## The chunks of a text -/

/-- What the chunks that are pushed satisfy, whatever is left to push. -/
structure Bounded (chunks : List RagChunk) : Prop where
  count : chunks.length ≤ ragMaxChunksPerSource
  indices : chunks.map (·.chunkIndex) = List.range chunks.length
  lengths : ∀ c ∈ chunks, c.content.length ≤ maxChunkChars

theorem Bounded.push {chunks : List RagChunk} (h : Bounded chunks)
    (hcount : chunks.length < ragMaxChunksPerSource) (headingPath : Option Text) {content : Text}
    (hcontent : content.length ≤ maxChunkChars) (tokenCount : ℕ) :
    Bounded (chunks ++ [⟨chunks.length, headingPath, content, tokenCount⟩]) := by
  refine ⟨?_, ?_, ?_⟩
  · rw [List.length_append, List.length_singleton]
    omega
  · rw [List.map_append, h.indices, List.length_append, List.length_singleton, List.range_succ]
    rfl
  · intro c hc
    rcases List.mem_append.mp hc with hc | hc
    · exact h.lengths c hc
    · rw [List.mem_singleton.mp hc]
      exact hcontent

theorem length_trim_le (l : Text) : (trim isSpace l).length ≤ l.length :=
  (isInfix_trim l).length_le

theorem bounded_pushChunks {pieces : List (Option Text × Text)}
    (hpieces : ∀ p ∈ pieces, p.2.length ≤ maxChunkChars) {chunks : List RagChunk}
    (h : Bounded chunks) (hcount : chunks.length < ragMaxChunksPerSource) :
    Bounded (pushChunks chunks pieces) := by
  induction pieces generalizing chunks with
  | nil => exact h
  | cons p pieces ih =>
      obtain ⟨headingPath, piece⟩ := p
      have hrest := fun q hq ↦ hpieces q (List.mem_cons_of_mem _ hq)
      have hlength := hpieces _ List.mem_cons_self
      unfold pushChunks
      dsimp only at hlength ⊢
      split
      · exact ih hrest h hcount
      · have hpushed := h.push hcount headingPath (le_trans (length_trim_le piece) hlength)
          ((piece.length + 3) / 4)
        split
        · exact hpushed
        · rename_i hmore
          exact ih hrest hpushed (not_le.mp hmore)

theorem bounded_chunk (rawText : Text) : Bounded (chunk rawText) := by
  have hnil : Bounded [] := ⟨Nat.zero_le _, rfl, fun c hc ↦ by cases hc⟩
  unfold chunk
  dsimp only
  split
  · exact hnil
  · rename_i hne
    refine bounded_pushChunks ?_ hnil (by decide)
    intro p hp
    obtain ⟨s, hs, hp⟩ := List.mem_flatMap.mp hp
    obtain ⟨piece, hpiece, rfl⟩ := List.mem_map.mp hp
    have hsection := text_ne_nil_of_mem_splitByHeadings hne s hs
    exact (splitSection_spec hsection).2 piece hpiece

/-- For every text there are at most 500 chunks, numbered in order, none longer than a target and an
overlap with the line break between them; and every section of it, as every text that is not empty,
is cut without a loss. -/
theorem chunks_bounded_and_lossless (rawText : Text) :
    Bounded (chunk rawText) ∧
      (∀ s ∈ splitByHeadings (trim isSpace rawText), trim isSpace rawText ≠ [] → Lossless s.text) ∧
      ∀ text, text ≠ [] → Lossless text := by
  refine ⟨bounded_chunk rawText, ?_, fun text hne ↦ lossless_of_ne_nil hne⟩
  intro s hs hne
  exact lossless_of_ne_nil (text_ne_nil_of_mem_splitByHeadings hne s hs)

end Tesbo.Rag.LosslessChunks
