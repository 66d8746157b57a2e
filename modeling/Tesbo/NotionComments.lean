import Tesbo.CodeUnits
import Tesbo.Reasoning.Pieces
import Tesbo.Reasoning.Batches

/-!
# Comments on Notion pages

The markdown of a comment becomes rich text, in segments of a bounded length and bodies of a bounded
number of segments.  A line that would take too many segments goes out as it is written.
-/

namespace Tesbo.NotionComments

open Reasoning
open CodeUnits

/-- `NotionTextSegment`: its `annotations` hold `bold` or nothing. -/
structure Segment where
  content : Text
  bold : Bool
  link : Option Text
deriving DecidableEq, Repr

/-! ## The pattern -/

/-- What comes after the beginning, where the text begins so. -/
def after (beginning text : Text) : Option Text :=
  if beginning.isPrefixOf text then some (text.drop beginning.length) else none

/-- `.*?` before `\*\*` -/
def untilStars : Text → Option Text
  | [] => none
  | c :: cs =>
      if (literal ['*', '*']).isPrefixOf (c :: cs) then some []
      else if isLineTerminator c then none
      else (untilStars cs).map (c :: ·)

/-- `\*\*(.+?)\*\*` at the beginning of a text, with the length of the match. -/
def boldAt (text : Text) : Option (Segment × ℕ) :=
  match after (literal ['*', '*']) text with
  | some (c :: cs) =>
      if isLineTerminator c then none
      else (untilStars cs).map fun rest ↦ (⟨c :: rest, true, none⟩, (c :: rest).length + 4)
  | _ => none

/-- `https?:\/\/` -/
def afterScheme (text : Text) : Option Text := do
  let rest ← after (literal ['h', 't', 't', 'p']) text
  after (literal [':', '/', '/']) ((after [unit 's'] rest).getD rest)

/-- `\[([^\]]+)\]\((https?:\/\/[^\s)]+)\)` at the beginning of a text, with the length of the match. -/
def linkAt (text : Text) : Option (Segment × ℕ) := do
  let inner ← after [unit '['] text
  let label := inner.takeWhile (· != unit ']')
  let target ← after (literal [']', '(']) (inner.drop label.length)
  let address ← afterScheme target
  let path := address.takeWhile fun c ↦ !isSpace c && c != unit ')'
  let url := target.take (target.length - address.length + path.length)
  if label ≠ [] ∧ path ≠ [] ∧ (target.drop url.length).head? = some (unit ')')
  then some (⟨label, false, some url⟩, label.length + url.length + 4) else none

def matchAt (text : Text) : Option (Segment × ℕ) := (boldAt text).or (linkAt text)

def plain (content : Text) : List Segment := if content = [] then [] else [⟨content, false, none⟩]

/-- The loop over `matchAll`, before the segments are cut: `pending` is the plain text from `last`
on, and `skip` code units are still part of the last match. -/
def spans : ℕ → Text → Text → List Segment
  | _, pending, [] => plain pending
  | skip + 1, pending, _ :: cs => spans skip pending cs
  | 0, pending, c :: cs =>
      match matchAt (c :: cs) with
      | none => spans 0 (pending ++ [c]) cs
      | some (segment, length) => plain pending ++ segment :: spans (length - 1) [] cs

/-! ## Segments and bodies -/

def chunkText (text : Text) (limit : ℕ) : List Text := inBatches limit text

def cut (limit : ℕ) (segment : Segment) : List Segment :=
  (chunkText segment.content limit).map fun chunk ↦ { segment with content := chunk }

/-- The segments of a text with its markers removed. -/
def formatted (markdown : Text) (limit : ℕ) : List Segment :=
  (spans 0 [] markdown).flatMap (cut limit)

def markdownToNotionRichText (markdown : Text) (limit maxElements : ℕ) : List Segment :=
  let segments := formatted markdown limit
  if segments.length ≤ maxElements then segments
  else (chunkText markdown limit).map fun content ↦ ⟨content, false, none⟩

structure Building where
  bodies : List (List Segment)
  current : List Segment

def lineBreak : Segment := ⟨[newline], false, none⟩

def flush (b : Building) : Building :=
  -- the newline that joined the lines is not content of the last line of a comment
  let kept :=
    if (b.current.getLast?.map (·.content)) = some [newline] then b.current.dropLast else b.current
  ⟨if kept = [] then b.bodies else b.bodies ++ [kept], []⟩

def addLine (limit maxElements : ℕ) (b : Building) (line : Text) : Building :=
  let segments := markdownToNotionRichText line limit maxElements
  let b :=
    if b.current ≠ [] ∧ maxElements < b.current.length + segments.length + 1 then flush b else b
  if maxElements < segments.length then
    ⟨(flush b).bodies ++ inBatches maxElements segments, []⟩
  else ⟨b.bodies, b.current ++ segments ++ [lineBreak]⟩

def markdownToNotionCommentBodies (markdown : Text) (limit maxElements : ℕ) :
    List (List Segment) :=
  let lines := markdown.splitOn newline
  let b := flush (lines.foldl (addLine limit maxElements) ⟨[], []⟩)
  if b.bodies = [] then [[⟨[], false, none⟩]] else b.bodies

/-! ## The property -/

/-- A text without the markers of the pattern. -/
def unmarked : ℕ → Text → Text
  | _, [] => []
  | skip + 1, _ :: cs => unmarked skip cs
  | 0, c :: cs =>
      match matchAt (c :: cs) with
      | none => c :: unmarked 0 cs
      | some (segment, length) => segment.content ++ unmarked (length - 1) cs

/-- A line that takes too many segments is rendered as it is. -/
def renderedLine (limit maxElements : ℕ) (line : Text) : Text :=
  if (formatted line limit).length ≤ maxElements then unmarked 0 line else line

def rendered (markdown : Text) (limit maxElements : ℕ) : Text :=
  joined [newline] ((markdown.splitOn newline).map (renderedLine limit maxElements))

def contentOf (body : List Segment) : Text := body.flatMap (·.content)

/-- The text is these parts in their order, with line breaks between them only. -/
def AtJoints : List Text → Text → Prop
  | [], text => text = []
  | [part], text => text = part
  | part :: next :: parts, text => ∃ count rest,
      text = part ++ List.replicate count newline ++ rest ∧ AtJoints (next :: parts) rest

/-- The text is these parts in their order, after at most one line break and with at most two between
each two parts. -/
inductive Apart : List Text → Text → Prop where
  | nil : Apart [] []
  | concat {parts : List Text} {text : Text} (rest : Apart parts text) (count : ℕ)
      (few : count ≤ if parts = [] then 1 else 2) (part : Text) :
      Apart (parts ++ [part]) (text ++ List.replicate count newline ++ part)

/-- A line break at the end of a text may be lost too: the second line is blank. -/
theorem break_lost_at_end :
    ¬ ∀ markdown limit maxElements, 1 ≤ limit → 2 ≤ maxElements →
      AtJoints ((markdownToNotionCommentBodies markdown limit maxElements).map contentOf)
        (rendered markdown limit maxElements) := by
  intro h
  have hbodies : markdownToNotionCommentBodies [unit 'a', newline] 2000 2 =
      [[⟨[unit 'a'], false, none⟩]] := by decide
  have hrendered : rendered [unit 'a', newline] 2000 2 = [unit 'a', newline] := by decide
  have hjoint := h [unit 'a', newline] 2000 2 (by decide) (by decide)
  rw [hbodies, hrendered] at hjoint
  exact absurd (show [unit 'a', newline] = [unit 'a'] from hjoint) (by decide)

/-! ## The segments of a line -/

@[simp] theorem contentOf_append (a b : List Segment) :
    contentOf (a ++ b) = contentOf a ++ contentOf b := List.flatMap_append

@[simp] theorem contentOf_nil : contentOf [] = [] := rfl

theorem contentOf_cons (s : Segment) (body : List Segment) :
    contentOf (s :: body) = s.content ++ contentOf body := rfl

theorem contentOf_plain (content : Text) : contentOf (plain content) = content := by
  unfold plain
  split
  · rename_i hnil
    rw [hnil]
    rfl
  · simp [contentOf]

theorem contentOf_spans (skip : ℕ) (pending text : Text) :
    contentOf (spans skip pending text) = pending ++ unmarked skip text := by
  induction text generalizing skip pending with
  | nil =>
      rw [spans, unmarked, contentOf_plain, List.append_nil]
  | cons c cs ih =>
      cases skip with
      | succ skip => rw [spans, unmarked, ih]
      | zero =>
          rw [spans, unmarked]
          cases hmatch : matchAt (c :: cs) with
          | none =>
              dsimp only
              rw [ih, List.append_assoc, List.singleton_append]
          | some found =>
              obtain ⟨segment, length⟩ := found
              dsimp only
              rw [contentOf_append, contentOf_plain, contentOf_cons, ih, List.nil_append]

variable {limit maxElements : ℕ}

/-- Segments that are made of texts. -/
theorem contentOf_map {segmentOf : Text → Segment} (h : ∀ t, (segmentOf t).content = t)
    (ts : List Text) : contentOf (ts.map segmentOf) = ts.flatten := by
  induction ts with
  | nil => rfl
  | cons t ts ih => rw [List.map_cons, contentOf_cons, ih, h, List.flatten_cons]

theorem contentOf_cut (hlimit : 1 ≤ limit) (segment : Segment) :
    contentOf (cut limit segment) = segment.content := by
  unfold cut chunkText
  rw [contentOf_map fun t ↦ rfl]
  exact flatten_inBatches hlimit

theorem contentOf_formatted (hlimit : 1 ≤ limit) (line : Text) :
    contentOf (formatted line limit) = unmarked 0 line := by
  have hcut : ∀ segments, contentOf (segments.flatMap (cut limit)) = contentOf segments := by
    intro segments
    induction segments with
    | nil => rfl
    | cons s segments ih => rw [List.flatMap_cons, contentOf_append, ih, contentOf_cut hlimit]; rfl
  rw [formatted, hcut, contentOf_spans, List.nil_append]

/-- The segments of a line have its rendered text. -/
theorem contentOf_richText (hlimit : 1 ≤ limit) (line : Text) :
    contentOf (markdownToNotionRichText line limit maxElements) =
      renderedLine limit maxElements line := by
  unfold markdownToNotionRichText renderedLine
  dsimp only
  split
  · exact contentOf_formatted hlimit line
  · unfold chunkText
    rw [contentOf_map fun t ↦ rfl]
    exact flatten_inBatches hlimit

theorem length_le_of_mem_inBatches {α : Type} {k : ℕ} {l batch : List α}
    (h : batch ∈ inBatches k l) : batch.length ≤ k := by
  obtain ⟨i, -, rfl⟩ := List.mem_map.mp h
  exact List.length_take_le _ _

/-- Every segment of a line fits. -/
theorem length_content_le (line : Text) :
    ∀ s ∈ markdownToNotionRichText line limit maxElements, s.content.length ≤ limit := by
  intro s hs
  unfold markdownToNotionRichText at hs
  dsimp only at hs
  split at hs
  · obtain ⟨segment, -, hs⟩ := List.mem_flatMap.mp hs
    obtain ⟨chunk, hchunk, rfl⟩ := List.mem_map.mp hs
    exact length_le_of_mem_inBatches hchunk
  · obtain ⟨chunk, hchunk, rfl⟩ := List.mem_map.mp hs
    exact length_le_of_mem_inBatches hchunk

/-! ## Building the bodies -/

/-- No body is empty, or has too many segments, or one that is too long. -/
def Fit (limit maxElements : ℕ) (bodies : List (List Segment)) : Prop :=
  ∀ body ∈ bodies, 1 ≤ body.length ∧ body.length ≤ maxElements ∧
    ∀ s ∈ body, s.content.length ≤ limit

/-- The line breaks that may be lost after the bodies when nothing is pending. -/
def settled (bodies : List (List Segment)) : ℕ := if bodies = [] then 0 else 1

/-- A text is in the bodies, but for the line breaks that are lost between them and `owed` after. -/
structure Sent (limit maxElements : ℕ) (text : Text) (bodies : List (List Segment)) (owed : ℕ) :
    Prop where
  fit : Fit limit maxElements bodies
  parts : ∃ sent, text = sent ++ List.replicate owed newline ∧ Apart (bodies.map contentOf) sent
  few : owed ≤ settled bodies + 1

/-- A text, whose lines all end in a line break, is in the bodies and in what is pending. -/
structure Built (limit maxElements : ℕ) (text : Text) (b : Building) : Prop where
  sent : ∃ before owed, text = before ++ contentOf b.current ∧
    Sent limit maxElements before b.bodies owed ∧
      (b.current = [] → owed = settled b.bodies) ∧
      (b.current = [lineBreak] → owed ≤ settled b.bodies)
  fit : ∀ s ∈ b.current, s.content.length ≤ limit
  lines : b.current ≠ [] → ∃ segments, b.current = segments ++ [lineBreak] ∧
    segments.length ≤ maxElements

theorem flush_concat (bodies : List (List Segment)) (segments : List Segment) :
    flush ⟨bodies, segments ++ [lineBreak]⟩ =
      ⟨if segments = [] then bodies else bodies ++ [segments], []⟩ := by
  unfold flush
  rw [List.getLast?_append, List.dropLast_concat]
  rfl

theorem flush_nil (bodies : List (List Segment)) : flush ⟨bodies, []⟩ = ⟨bodies, []⟩ := rfl

theorem Fit.append {bodies bodies' : List (List Segment)} (h : Fit limit maxElements bodies)
    (h' : Fit limit maxElements bodies') : Fit limit maxElements (bodies ++ bodies') := by
  intro body hbody
  rcases List.mem_append.mp hbody with hbody | hbody
  · exact h body hbody
  · exact h' body hbody

theorem settled_concat (bodies : List (List Segment)) (body : List Segment) :
    settled (bodies ++ [body]) = 1 := by simp [settled]

/-- One more body. -/
theorem Sent.concat {text : Text} {bodies : List (List Segment)} {owed : ℕ} {body : List Segment}
    (h : Sent limit maxElements text bodies owed) (hpos : 1 ≤ body.length)
    (hmax : body.length ≤ maxElements) (hfit : ∀ s ∈ body, s.content.length ≤ limit) :
    Sent limit maxElements (text ++ contentOf body) (bodies ++ [body]) 0 := by
  obtain ⟨sent, rfl, hapart⟩ := h.parts
  refine ⟨h.fit.append fun b hb ↦ ?_, ⟨_, (List.append_nil _).symm, ?_⟩, Nat.zero_le _⟩
  · rw [List.mem_singleton.mp hb]
    exact ⟨hpos, hmax, hfit⟩
  · rw [List.map_append, List.map_singleton]
    refine .concat hapart owed ?_ (contentOf body)
    have hfew := h.few
    unfold settled at hfew
    by_cases hnil : bodies = []
    · rw [if_pos hnil] at hfew
      rw [if_pos (List.map_eq_nil_iff.mpr hnil)]
      exact hfew
    · rw [if_neg hnil] at hfew
      rw [if_neg (hnil ∘ List.map_eq_nil_iff.mp)]
      exact hfew

/-- A line break that is lost after the last body. -/
theorem Sent.lose {text : Text} {bodies : List (List Segment)} {owed : ℕ}
    (h : Sent limit maxElements text bodies owed) (hfew : owed ≤ settled bodies) :
    Sent limit maxElements (text ++ [newline]) bodies (owed + 1) := by
  obtain ⟨sent, rfl, hapart⟩ := h.parts
  refine ⟨h.fit, ⟨sent, ?_, hapart⟩, by omega⟩
  rw [List.append_assoc, List.replicate_succ']

/-- What a flush leaves of a text: a body, or one line break less. -/
theorem Built.flush {text : Text} {b : Building} (h : Built limit maxElements text b) :
    ∃ owed, Sent limit maxElements text (flush b).bodies owed ∧
      (owed = settled (NotionComments.flush b).bodies ∨ b.current = [lineBreak] ∧ 1 ≤ owed) := by
  obtain ⟨bodies, current⟩ := b
  obtain ⟨⟨before, owed, rfl, hsent, hnil, hbreak⟩, hfit, hlines⟩ := h
  dsimp only at *
  by_cases hcurrent : current = []
  · subst hcurrent
    rw [flush_nil, contentOf_nil, List.append_nil]
    exact ⟨owed, hsent, .inl (hnil rfl)⟩
  · obtain ⟨segments, rfl, hlength⟩ := hlines hcurrent
    rw [flush_concat, contentOf_append, ← List.append_assoc]
    have hbreakContent : contentOf [lineBreak] = [newline] := rfl
    rw [hbreakContent]
    dsimp only
    by_cases hsegments : segments = []
    · subst hsegments
      rw [if_pos rfl, contentOf_nil, List.append_nil]
      exact ⟨owed + 1, hsent.lose (hbreak rfl), .inr ⟨rfl, Nat.le_add_left 1 owed⟩⟩
    · rw [if_neg hsegments]
      have hpos := List.length_pos_of_ne_nil hsegments
      have hbody := hsent.concat hpos hlength fun s hs ↦ hfit s (List.mem_append_left _ hs)
      refine ⟨1, hbody.lose (Nat.zero_le _), .inl ?_⟩
      rw [settled_concat]

/-- The batches of a line that is too big, each a body of its own. -/
theorem Sent.batches (hmax : 1 ≤ maxElements) {text : Text} {bodies : List (List Segment)}
    {owed : ℕ} (h : Sent limit maxElements text bodies owed) {segments : List Segment}
    (hne : segments ≠ []) (hfit : ∀ s ∈ segments, s.content.length ≤ limit) :
    Sent limit maxElements (text ++ contentOf segments)
        (bodies ++ inBatches maxElements segments) 0 ∧
      settled (bodies ++ inBatches maxElements segments) = 1 := by
  induction hlength : segments.length using Nat.strong_induction_on generalizing segments text bodies owed with
  | _ n ih =>
      have hpos := List.length_pos_of_ne_nil hne
      have htake := List.length_take_le maxElements segments
      have hfirst : 1 ≤ (segments.take maxElements).length := by
        rw [List.length_take]
        omega
      have hbody := h.concat hfirst htake fun s hs ↦ hfit s (List.mem_of_mem_take hs)
      rw [inBatches_of_ne_nil hmax hne, ← List.singleton_append, ← List.append_assoc]
      have hcontent : contentOf segments =
          contentOf (segments.take maxElements) ++ contentOf (segments.drop maxElements) := by
        rw [← contentOf_append, List.take_append_drop]
      rw [hcontent, ← List.append_assoc]
      by_cases hrest : segments.drop maxElements = []
      · rw [hrest, inBatches_nil hmax, List.append_nil, contentOf_nil, List.append_nil]
        exact ⟨hbody, settled_concat bodies _⟩
      · refine ih _ ?_ hbody hrest (fun s hs ↦ hfit s (List.mem_of_mem_drop hs)) rfl
        rw [List.length_drop]
        omega

/-- A line that joins what is pending. -/
theorem Sent.push {text : Text} {bodies : List (List Segment)} {owed : ℕ}
    {current segments : List Segment} (h : Sent limit maxElements text bodies owed)
    (hfit : ∀ s ∈ current ++ segments, s.content.length ≤ limit) (hlimit : 1 ≤ limit)
    (hlength : (current ++ segments).length ≤ maxElements)
    (hfew : current ++ segments = [] → owed ≤ settled bodies) :
    Built limit maxElements (text ++ contentOf current ++ contentOf segments ++ [newline])
      ⟨bodies, current ++ segments ++ [lineBreak]⟩ := by
  refine ⟨⟨text, owed, ?_, h, ?_, ?_⟩, ?_, ?_⟩
  · simp only [contentOf_append, List.append_assoc]
    rfl
  · intro hnil
    simp at hnil
  · intro hbreak
    exact hfew (List.append_left_eq_self.mp hbreak)
  · intro s hs
    rcases List.mem_append.mp hs with hs | hs
    · exact hfit s hs
    · rw [List.mem_singleton.mp hs]
      exact hlimit
  · exact fun _ ↦ ⟨current ++ segments, rfl, hlength⟩

/-- A line that is too big leaves nothing pending. -/
theorem Sent.big (hmax : 2 ≤ maxElements) {text : Text} {bodies : List (List Segment)} {owed : ℕ}
    (h : Sent limit maxElements text bodies owed) {segments : List Segment}
    (hbig : maxElements < segments.length) (hfit : ∀ s ∈ segments, s.content.length ≤ limit) :
    Built limit maxElements (text ++ contentOf segments ++ [newline])
      ⟨bodies ++ inBatches maxElements segments, []⟩ := by
  have hne := List.ne_nil_of_length_pos (show 0 < segments.length by omega)
  obtain ⟨hsent, hsettled⟩ := h.batches (by omega) hne hfit
  refine ⟨⟨_, 1, (List.append_nil _).symm, hsent.lose (Nat.zero_le _), ?_, ?_⟩, ?_, ?_⟩
  · exact fun _ ↦ hsettled.symm
  · exact fun hbreak ↦ absurd hbreak (List.cons_ne_nil _ _).symm
  · exact fun s hs ↦ absurd hs List.not_mem_nil
  · exact fun hnot ↦ absurd rfl hnot

/-- One line more. -/
theorem Built.addLine (hlimit : 1 ≤ limit) (hmax : 2 ≤ maxElements) {text : Text} {b : Building}
    (h : Built limit maxElements text b) (line : Text) :
    Built limit maxElements (text ++ renderedLine limit maxElements line ++ [newline])
      (addLine limit maxElements b line) := by
  have hfits := @length_content_le limit maxElements line
  rw [← contentOf_richText hlimit line]
  unfold NotionComments.addLine
  dsimp only
  generalize markdownToNotionRichText line limit maxElements = segments at hfits
  obtain ⟨owed, hsent, howed⟩ := h.flush
  by_cases hbig : maxElements < segments.length
  · -- whether the first flush is made or not, the second leaves the same
    have hflush : NotionComments.flush
        (if b.current ≠ [] ∧ maxElements < b.current.length + segments.length + 1
          then NotionComments.flush b else b) = NotionComments.flush b := by
      split <;> rfl
    rw [if_pos hbig, hflush]
    exact hsent.big hmax hbig hfits
  · rw [if_neg hbig]
    by_cases hfull : b.current ≠ [] ∧ maxElements < b.current.length + segments.length + 1
    · rw [if_pos hfull]
      have hpush := @Sent.push limit maxElements text _ owed [] segments hsent hfits hlimit (not_lt.mp hbig) ?_
      · rwa [contentOf_nil, List.append_nil] at hpush
      · intro hnil
        rcases howed with howed | ⟨hbreak, -⟩
        · exact le_of_eq howed
        · -- a line break that is flushed alone makes room for a line that is not blank
          rw [List.nil_append] at hnil
          rw [hbreak, hnil] at hfull
          simp only [List.length_singleton, List.length_nil] at hfull
          omega
    · rw [if_neg hfull]
      obtain ⟨before, owed, rfl, hbefore, hnil, -⟩ := h.sent
      apply hbefore.push
      · intro s hs
        rcases List.mem_append.mp hs with hs | hs
        · exact h.fit s hs
        · exact hfits s hs
      · exact hlimit
      · rw [List.length_append]
        by_cases hcurrent : b.current = []
        · rw [hcurrent, List.length_nil]
          omega
        · have hroom := not_and.mp hfull hcurrent
          omega
      · intro hblank
        exact le_of_eq (hnil (List.append_eq_nil_iff.mp hblank).1)

/-- The rendered lines, each with a line break after it. -/
def brokenLines (limit maxElements : ℕ) (lines : List Text) : Text :=
  lines.flatMap fun line ↦ renderedLine limit maxElements line ++ [newline]

theorem built_foldl (hlimit : 1 ≤ limit) (hmax : 2 ≤ maxElements) (lines : List Text) :
    Built limit maxElements (brokenLines limit maxElements lines)
      (lines.foldl (addLine limit maxElements) ⟨[], []⟩) := by
  induction lines using List.reverseRecOn with
  | nil =>
      refine ⟨⟨[], 0, rfl, ⟨fun body hbody ↦ absurd hbody List.not_mem_nil, ⟨[], rfl, .nil⟩,
        Nat.zero_le _⟩, fun _ ↦ rfl, fun _ ↦ Nat.zero_le _⟩, ?_, ?_⟩
      · exact fun s hs ↦ absurd hs List.not_mem_nil
      · exact fun hnot ↦ absurd rfl hnot
  | append_singleton lines line ih =>
      have hstep := ih.addLine hlimit hmax line
      rw [List.foldl_append, List.foldl_cons, List.foldl_nil]
      unfold brokenLines at hstep ⊢
      rw [List.flatMap_append, List.flatMap_singleton, ← List.append_assoc]
      exact hstep

theorem joined_append_newline (lines : List Text) (hne : lines ≠ []) :
    joined [newline] (lines.map (renderedLine limit maxElements)) ++ [newline] =
      brokenLines limit maxElements lines := by
  induction lines with
  | nil => exact absurd rfl hne
  | cons line lines ih =>
      cases lines with
      | nil => simp [joined, brokenLines]
      | cons next rest =>
          have hrest := ih (List.cons_ne_nil next rest)
          rw [List.map_cons, List.map_cons] at *
          unfold brokenLines at hrest ⊢
          rw [joined, List.flatMap_cons, ← hrest]
          simp only [List.append_assoc]

theorem apart_nil {text : Text} (h : Apart [] text) : text = [] := by
  generalize hparts : ([] : List Text) = parts at h
  cases h with
  | nil => rfl
  | concat => simp at hparts

/-- Each body has between one and the most segments there may be, each segment fits, and the bodies
have the rendered lines of the text in their order: besides line breaks at the joints, at most two at
each, one line break may be lost at the beginning and one at the end. -/
theorem bodies_keep_lines (markdown : Text) (limit maxElements : ℕ) (hlimit : 1 ≤ limit)
    (hmax : 2 ≤ maxElements) :
    Fit limit maxElements (markdownToNotionCommentBodies markdown limit maxElements) ∧
      ∃ sent count, count ≤ 1 ∧
        rendered markdown limit maxElements = sent ++ List.replicate count newline ∧
        Apart ((markdownToNotionCommentBodies markdown limit maxElements).map contentOf) sent := by
  obtain ⟨owed, hsent, howed⟩ := (built_foldl hlimit hmax (markdown.splitOn newline)).flush
  have hlines := @joined_append_newline limit maxElements (markdown.splitOn newline)
    (List.splitOn_ne_nil newline markdown)
  unfold markdownToNotionCommentBodies rendered
  dsimp only
  rw [← hlines] at hsent
  generalize (flush ((markdown.splitOn newline).foldl (addLine limit maxElements) ⟨[], []⟩)).bodies
    = bodies at hsent howed
  obtain ⟨hfit, ⟨sent, htext, hapart⟩, hfew⟩ := hsent
  -- the line break after the last line is lost, and it is not one of the text
  have hlast : 1 ≤ owed := by
    by_contra hnone
    obtain rfl : owed = 0 := by omega
    have hnil : bodies = [] := by
      by_contra hne
      simp [settled, hne] at howed
    rw [hnil] at hapart
    rw [apart_nil hapart] at htext
    simp at htext
  obtain ⟨count, rfl⟩ : ∃ count, owed = count + 1 := ⟨owed - 1, by omega⟩
  rw [List.replicate_succ', ← List.append_assoc] at htext
  have hrendered := List.append_cancel_right htext
  by_cases hnil : bodies = []
  · subst hnil
    obtain rfl : count = 0 := by
      simp only [settled, if_true] at hfew
      omega
    rw [if_pos rfl]
    constructor
    · intro body hbody
      rw [List.mem_singleton.mp hbody]
      refine ⟨le_refl 1, by rw [List.length_singleton]; omega, fun s hs ↦ ?_⟩
      rw [List.mem_singleton.mp hs]
      exact Nat.zero_le _
    · rw [apart_nil hapart] at hrendered
      exact ⟨[], 0, Nat.zero_le 1, hrendered, .concat .nil 0 (Nat.zero_le _) []⟩
  · rw [if_neg hnil]
    refine ⟨hfit, sent, count, ?_, hrendered, hapart⟩
    simp only [settled, if_neg hnil] at hfew
    omega

/-- A text of two lines in bodies of two segments: the blank line at its end is lost. -/
theorem bodies_keep_two_lines :
    Fit 2000 2 [[⟨[unit 'a'], false, none⟩]] ∧
      ∃ sent count, count ≤ 1 ∧ [unit 'a', newline] = sent ++ List.replicate count newline ∧
        Apart [[unit 'a']] sent := by
  have hkept := bodies_keep_lines [unit 'a', newline] 2000 2 (by decide) (by decide)
  have hbodies : markdownToNotionCommentBodies [unit 'a', newline] 2000 2 =
      [[⟨[unit 'a'], false, none⟩]] := by decide
  have hrendered : rendered [unit 'a', newline] 2000 2 = [unit 'a', newline] := by decide
  rw [hbodies, hrendered] at hkept
  exact hkept

end Tesbo.NotionComments
