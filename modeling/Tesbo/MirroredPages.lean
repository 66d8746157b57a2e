import Tesbo.SafeMarkdown

/-!
# The page of a mirrored ticket has no markup of the ticket

The builder of the mirrored document escapes each line by itself and then marks it up with passes of
its own.  What it writes is made of the same pieces.
-/

namespace Tesbo.TicketMarkup

open Reasoning
open CodeUnits
open Markdown (OnPage Piece inLine_delimitedPass inLine_strong inLine_strongEnd inLine_em inLine_emEnd
  letters_escapeHtml onPage_linkPass onPage_tag onPage_between headingTag_mem isMark)

theorem onPage_inlineHtml (text : Text) : OnPage (inlineHtml text) := by
  have hstars : [unit '*', unit '*'].all isMark = true := by decide
  have hbold := inLine_delimitedPass hstars inLine_strong inLine_strongEnd
    (letters_escapeHtml text).inLine
  have hunderscore : [unit '_'].all isMark = true := by decide
  have hemphasised := inLine_delimitedPass hunderscore inLine_em inLine_emEnd hbold
  exact onPage_linkPass hemphasised

theorem level_of_headingOf {line heading : Text} {level : ℕ}
    (h : headingOf line = some (level, heading)) : 1 ≤ level ∧ level ≤ 6 := by
  unfold headingOf at h
  split at h
  · split at h
    · rename_i hlevel
      cases h
      exact hlevel
    · cases h
  · cases h

variable {o : Output}

/-- The list goes on the page in full, with its tags around it. -/
theorem onPage_flushList (h : OnPage o.out) : OnPage (flushList o).out := by
  unfold flushList
  split
  · exact h
  · have hlist : OnPage listTag := onPage_tag (by decide)
    have hitems : OnPage (o.listBuffer.flatMap fun item ↦ itemTag ++ inlineHtml item ++ itemEndTag) :=
      Composed.flatMap fun item _ ↦ onPage_between (by decide) (onPage_inlineHtml item) (by decide)
    have hend : OnPage listEndTag := onPage_tag (by decide)
    exact ((h.append hlist).append hitems).append hend

/-- A block after the list before it. -/
theorem onPage_block (h : OnPage o.out) {openTag endTag text : Text}
    (hblock : OnPage (openTag ++ text ++ endTag)) :
    OnPage ((flushList o).out ++ openTag ++ text ++ endTag) := by
  have hpage := (onPage_flushList h).append hblock
  rwa [← List.append_assoc, ← List.append_assoc] at hpage

theorem onPage_pushLine (h : OnPage o.out) (line : Text) : OnPage (pushLine o line).out := by
  unfold pushLine
  dsimp only
  split
  · exact h
  · split
    · rename_i level heading hheading
      have hlevel := headingTag_mem (level_of_headingOf hheading)
      exact onPage_block h (onPage_between hlevel.1 (onPage_inlineHtml heading) hlevel.2)
    · split
      · exact h
      · exact onPage_block h (onPage_between (by decide) (onPage_inlineHtml _) (by decide))

theorem onPage_foldl (h : OnPage o.out) (lines : List Text) : OnPage (lines.foldl pushLine o).out := by
  induction lines generalizing o with
  | nil => exact h
  | cons line lines ih => exact ih (onPage_pushLine h line)

/-- A mirrored ticket is made of pieces, whatever it says. -/
theorem mirrored_is_safe (sections : List Text) :
    ∃ pieces : List Piece, toHtml sections = pieces.flatMap Piece.html :=
  onPage_flushList (onPage_foldl Composed.nil _)

end Tesbo.TicketMarkup
