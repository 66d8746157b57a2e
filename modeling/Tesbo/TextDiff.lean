import Tesbo.CodeUnits
import Tesbo.Reasoning.Filed
import Tesbo.Reasoning.Sections

/-!
# What changed between two versions of a text

The change history tells by label what changed in a document.  A text is grouped under the headings
in it, all the text of one label together, and the labels of two texts are compared.
-/

namespace Tesbo.TextDiff

open Reasoning
open Reasoning.Filed
open Reasoning.Coverings (splitAtEach)
open CodeUnits

def excerptMaxChars : ℕ := 4000

def summaryLabelMax : ℕ := 3

def summaryMaxChars : ℕ := 140

def detailsLabel : Text := literal ['D', 'e', 't', 'a', 'i', 'l', 's']

def titleLabel : Text := literal ['T', 'i', 't', 'l', 'e']

def commentsLabel : Text := literal ['C', 'o', 'm', 'm', 'e', 'n', 't', 's']

/-- `"\n\n"` -/
def blankLine : Text := [newline, newline]

structure ChangedField where
  label : Text
  oldExcerpt : Text
  newExcerpt : Text
  oldLength : ℕ
  newLength : ℕ
  truncated : Bool
deriving DecidableEq, Repr

structure TextChangeSummary where
  summary : Text
  fields : List ChangedField
deriving DecidableEq, Repr

def excerptOf (text : Text) : Text × Bool :=
  if text.length ≤ excerptMaxChars then (text, false) else (text.take excerptMaxChars, true)

/-! ## Blocks -/

/-- `\d` -/
def isDigit (c : UInt16) : Bool := unit '0' ≤ c && c ≤ unit '9'

/-- `\d{4}-\d{2}-\d{2}` -/
def isDate : Text → Bool
  | [y₁, y₂, y₃, y₄, s, m₁, m₂, s', d₁, d₂] =>
      [y₁, y₂, y₃, y₄, m₁, m₂, d₁, d₂].all isDigit && s == unit '-' && s' == unit '-'
  | _ => false

/-- `/^.+\s+—\s+\d{4}-\d{2}-\d{2}$/` -/
def isCommentHeading (text : Text) : Bool :=
  let beforeDate := text.take (text.length - 10)
  let author := beforeDate.rdropWhile isSpace
  isDate (text.drop (text.length - 10)) && author.length < beforeDate.length &&
    author.getLast? == some (unit '—') &&
      (List.range author.dropLast.length).any fun n ↦ 0 < n &&
        (author.dropLast.take n).all (!isLineTerminator ·) && (author.dropLast.drop n).all isSpace

/-- A block of a text: a title, the heading of a section, or neither. -/
inductive Block where
  | title (text : Text)
  | heading (label rest : Text)
  | text (block : Text)
deriving DecidableEq, Repr

/-- `block.replace(/^[^\n]*\n?/, "")` -/
def bodyAfterHeading (block : Text) : Text := (block.dropWhile (· != newline)).drop 1

def readBlock (block : Text) : Block :=
  let firstLine := trim isSpace (block.takeWhile (· != newline))
  let rest := bodyAfterHeading block
  match headingLine firstLine with
  | none => .text block
  | some (hashes, heading) =>
      let text := trim isSpace heading
      if hashes = 1 then .title (if rest ≠ [] then rest else text)
      else if 2 ≤ hashes ∧ hashes ≤ 6 then
        .heading (if isCommentHeading text then commentsLabel
          else if text ≠ [] then text else detailsLabel) rest
      else .text block

/-! ## Sections -/

structure Grouping where
  sections : Assoc Text Text
  activeLabel : Text
  buffer : List Text

def Grouping.flush (g : Grouping) : Grouping :=
  if g.buffer = [] then g
  else { g with
    sections := file blankLine g.sections g.activeLabel (joined blankLine g.buffer)
    buffer := [] }

def Grouping.block (g : Grouping) (block : Text) : Grouping :=
  match readBlock block with
  | .title text => { g.flush with
      sections := file blankLine g.flush.sections titleLabel text
      activeLabel := detailsLabel }
  | .heading label rest => { g.flush with
      activeLabel := label
      buffer := if rest ≠ [] then [rest] else [] }
  | .text block => { g with buffer := g.buffer ++ [block] }

def blocksOf (content : Text) : List Text := splitAtEach blankLine content

def groupSections (content : Text) : Assoc Text Text :=
  ((blocksOf content).foldl Grouping.block ⟨[], detailsLabel, []⟩).flush.sections

/-! ## Fields -/

def changedField (label oldText newText : Text) : ChangedField where
  label := label
  oldExcerpt := (excerptOf oldText).1
  newExcerpt := (excerptOf newText).1
  oldLength := oldText.length
  newLength := newText.length
  truncated := (excerptOf oldText).2 || (excerptOf newText).2

/-- `labels` and `seen` are the labels of the fields there are. -/
def consider (oldSections newSections : Assoc Text Text) (fields : List ChangedField)
    (label : Text) : List ChangedField :=
  let oldText := textUnder oldSections label
  let newText := textUnder newSections label
  if oldText = newText ∨ label ∈ fields.map (·.label) then fields
  else fields ++ [changedField label oldText newText]

/-- The labels of the new sections in their order, then those of the old. -/
def fieldsOf (oldSections newSections : Assoc Text Text) : List ChangedField :=
  (newSections.map Prod.fst ++ oldSections.map Prod.fst).foldl
    (consider oldSections newSections) []

def summaryOf (labels : List Text) : Text :=
  let shown := labels.take summaryLabelMax
  let rest := labels.length - shown.length
  let more := if 0 < rest
    then literal [' ', '+'] ++ literal (toString rest).toList ++ literal [' ', 'm', 'o', 'r', 'e']
    else []
  let summary := joined (literal [',', ' ']) shown ++ more ++
    literal [' ', 'u', 'p', 'd', 'a', 't', 'e', 'd', '.']
  if summaryMaxChars < summary.length then summary.take (summaryMaxChars - 1) ++ [unit '…']
  else summary

def summarizeTextChange (oldContent : Option Text) (newContent addedMessage noChangeMessage : Text) :
    TextChangeSummary :=
  match oldContent with
  | none => ⟨addedMessage, []⟩
  | some oldContent =>
      let fields := fieldsOf (groupSections oldContent) (groupSections newContent)
      if fields = [] then ⟨noChangeMessage, []⟩
      else ⟨summaryOf (fields.map (·.label)), fields⟩

structure Document where
  title : Text
  contentText : Option Text
deriving DecidableEq, Repr

/-- `` `# ${d.title}\n\n${d.contentText || ""}` `` -/
def wrap (d : Document) : Text :=
  literal ['#', ' '] ++ d.title ++ blankLine ++ d.contentText.getD []

def summarizeDocumentChange (oldDoc newDoc : Document) : TextChangeSummary :=
  summarizeTextChange (some (wrap oldDoc)) (wrap newDoc)
    (literal ['A', 'd', 'd', 'e', 'd', '.'])
    (literal ['U', 'p', 'd', 'a', 't', 'e', 'd', '.'])

/-! ## What is filed -/

/-- The texts of a document with their labels, as they come: a title's own, and the blocks that are
not headings in runs, each under the heading above it. -/
def runsFrom (label : Text) (run : List Text) : List Text → List (Text × Text)
  | [] => if run = [] then [] else [(label, joined blankLine run)]
  | block :: blocks =>
      let closed := if run = [] then [] else [(label, joined blankLine run)]
      match readBlock block with
      | .title text => closed ++ (titleLabel, text) :: runsFrom detailsLabel [] blocks
      | .heading label' rest => closed ++ runsFrom label' (if rest ≠ [] then [rest] else []) blocks
      | .text block => runsFrom label (run ++ [block]) blocks

def runsOf (content : Text) : List (Text × Text) := runsFrom detailsLabel [] (blocksOf content)

/-- The text of a document under a label. -/
def filedUnder (d : Document) (label : Text) : Text := filed blankLine (runsOf (wrap d)) label

/-- The text of a block that is no heading: all of it, or what is glued to its heading. -/
def plainText (block : Text) : Option Text :=
  match readBlock block with
  | .title _ => if bodyAfterHeading block ≠ [] then some (bodyAfterHeading block) else none
  | .heading _ rest => if rest ≠ [] then some rest else none
  | .text block => some block

theorem sections_flush (g : Grouping) :
    g.flush.sections = fileAll blankLine g.sections
      (if g.buffer = [] then [] else [(g.activeLabel, joined blankLine g.buffer)]) := by
  unfold Grouping.flush
  split <;> rfl

theorem sections_foldl (blocks : List Text) (g : Grouping) :
    (blocks.foldl Grouping.block g).flush.sections =
      fileAll blankLine g.sections (runsFrom g.activeLabel g.buffer blocks) := by
  induction blocks generalizing g with
  | nil => exact sections_flush g
  | cons block blocks ih =>
      rw [List.foldl_cons, ih, runsFrom]
      unfold Grouping.block
      dsimp only
      cases readBlock block with
      | title text =>
          dsimp only
          rw [sections_flush]
          unfold fileAll
          rw [List.foldl_append, List.foldl_cons]
          congr 1
          unfold Grouping.flush
          split
          · simp_all
          · rfl
      | heading label rest =>
          dsimp only
          rw [sections_flush]
          unfold fileAll
          rw [List.foldl_append]
      | text block => rfl

/-- What `groupSections` has under a label. -/
theorem textUnder_groupSections (content label : Text) :
    textUnder (groupSections content) label = filed blankLine (runsOf content) label := by
  rw [groupSections, sections_foldl]
  exact textUnder_fileAll _ label

theorem labels_fieldsOf (oldSections newSections : Assoc Text Text) :
    (fieldsOf oldSections newSections).map (·.label) = changedLabels oldSections newSections := by
  have hfold : ∀ (labels : List Text) (fields : List ChangedField),
      (labels.foldl (consider oldSections newSections) fields).map (·.label) =
        labels.foldl (noteChange oldSections newSections) (fields.map (·.label)) := by
    intro labels
    induction labels with
    | nil => exact fun fields ↦ rfl
    | cons label labels ih =>
        intro fields
        rw [List.foldl_cons, List.foldl_cons, ih]
        unfold consider noteChange
        by_cases hskip : textUnder oldSections label = textUnder newSections label ∨
            label ∈ fields.map (·.label)
        · rw [if_pos hskip, if_pos hskip]
        · rw [if_neg hskip, if_neg hskip, List.map_append]
          rfl
  exact hfold _ []

end Tesbo.TextDiff
