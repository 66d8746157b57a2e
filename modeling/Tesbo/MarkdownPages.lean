import Tesbo.TicketMarkup

/-!
# Markdown as HTML

The renderer of the frontend.  A text is escaped as a whole; its lines are taken in turn, each block as
many of them as belong to it, and what a block shows is marked up by one pass after the other.
-/

namespace Tesbo.Markdown

open Reasoning
open Reasoning.Scans
open CodeUnits
open TicketMarkup (escapeHtml boldAt linkAt strongTag strongEndTag emTag emEndTag anchorTag
  anchorAttributes anchorEndTag headingTag headingEndTag listTag listEndTag itemTag itemEndTag
  paragraphTag paragraphEndTag)

/-! ## Within a line -/

def backtick : UInt16 := unit (Char.ofNat 96)

/-- ``/`([^`]+)`/`` -/
def codeAt (text : Text) : Option (Text × Text) :=
  match after [backtick] text with
  | none => none
  | some inner =>
      match after [backtick] (inner.dropWhile (· != backtick)) with
      | none => none
      | some rest =>
          if (inner.takeWhile (· != backtick)).isEmpty then none
          else some (inner.takeWhile (· != backtick), rest)

/-- `/\*(.+?)\*/` -/
def starredAt (text : Text) : Option (Text × Text) :=
  delimited isLineTerminator (literal ['*']) text

/-- `[A-Za-z0-9_]` -/
def isWordUnit (c : UInt16) : Bool :=
  (unit 'A' ≤ c && c ≤ unit 'Z') || (unit 'a' ≤ c && c ≤ unit 'z') || (unit '0' ≤ c && c ≤ unit '9') ||
    c == unit '_'

/-- `_([^_]+?)_(?![A-Za-z0-9_])` -/
def underscoredAt (text : Text) : Option (Text × Text) :=
  match after [unit '_'] text with
  | none => none
  | some inner =>
      match after [unit '_'] (inner.dropWhile (· != unit '_')) with
      | none => none
      | some rest =>
          if (inner.takeWhile (· != unit '_')).isEmpty ∨ rest.head?.any isWordUnit then none
          else some (inner.takeWhile (· != unit '_'), rest)

/-- The same after `[^A-Za-z0-9_]`. -/
def ledUnderscoredAt (text : Text) : Option ((UInt16 × Text) × Text) :=
  match text with
  | [] => none
  | lead :: text =>
      if isWordUnit lead then none
      else (underscoredAt text).map fun r ↦ ((lead, r.1), r.2)

/-- `<code class="inline-code">` -/
def codeTag : Text :=
  literal ['<', 'c', 'o', 'd', 'e', ' ', 'c', 'l', 'a', 's', 's', '=', '"', 'i', 'n', 'l', 'i', 'n', 'e',
    '-', 'c', 'o', 'd', 'e', '"', '>']

def codeEndTag : Text := literal ['<', '/', 'c', 'o', 'd', 'e', '>']

/-- The pass for underscores: the beginning of the text (`^`) is looked at first. -/
def underscored (text : Text) : Text :=
  let write := fun (body : Text) ↦ emTag ++ body ++ emEndTag
  let pass := replaceAll ledUnderscoredAt (fun c ↦ [c]) fun r ↦ r.1 :: write r.2
  match underscoredAt text with
  | none => pass text
  | some (body, rest) => write body ++ pass rest

def mdInline (s : Text) : Text :=
  let code := replaceAll codeAt (fun c ↦ [c]) (fun body ↦ codeTag ++ body ++ codeEndTag) s
  let bold := replaceAll boldAt (fun c ↦ [c]) (fun body ↦ strongTag ++ body ++ strongEndTag) code
  let starred := replaceAll starredAt (fun c ↦ [c]) (fun body ↦ emTag ++ body ++ emEndTag) bold
  replaceAll linkAt (fun c ↦ [c])
    (fun link ↦ anchorTag ++ link.2 ++ unit '"' :: anchorAttributes ++ link.1 ++ anchorEndTag)
    (underscored starred)

/-! ## Tables -/

def bar : UInt16 := unit '|'

/-- `/^\|[\s\-:|]+\|$/` -/
def isSep (line : Text) : Bool :=
  let t := trim isSpace line
  match t with
  | [] => false
  | c :: inner =>
      c == bar && inner.getLast? == some bar && !inner.dropLast.isEmpty &&
        inner.dropLast.all fun u ↦ isSpace u || u == unit '-' || u == unit ':' || u == bar

def cells (line : Text) : List Text :=
  let t := trim isSpace line
  let opened := if t.head? = some bar then t.tail else t
  let closed := if opened.getLast? = some bar then opened.dropLast else opened
  (closed.splitOn bar).map (trim isSpace)

/-- `<div class="zyra-md-table-wrap">` -/
def wrapTag : Text :=
  literal ['<', 'd', 'i', 'v', ' ', 'c', 'l', 'a', 's', 's', '=', '"', 'z', 'y', 'r', 'a', '-', 'm', 'd'] ++
    literal ['-', 't', 'a', 'b', 'l', 'e', '-', 'w', 'r', 'a', 'p', '"', '>']

/-- `<table class="zyra-md-table">` -/
def tableTag : Text :=
  literal ['<', 't', 'a', 'b', 'l', 'e', ' ', 'c', 'l', 'a', 's', 's', '=', '"', 'z', 'y', 'r', 'a'] ++
    literal ['-', 'm', 'd', '-', 't', 'a', 'b', 'l', 'e', '"', '>']

/-- `</table></div>` -/
def tableEndTag : Text :=
  literal ['<', '/', 't', 'a', 'b', 'l', 'e', '>', '<', '/', 'd', 'i', 'v', '>']

/-- `<thead><tr>` -/
def headTag : Text := literal ['<', 't', 'h', 'e', 'a', 'd', '>', '<', 't', 'r', '>']

def headEndTag : Text := literal ['<', '/', 't', 'r', '>', '<', '/', 't', 'h', 'e', 'a', 'd', '>']

def bodyTag : Text := literal ['<', 't', 'b', 'o', 'd', 'y', '>']

def bodyEndTag : Text := literal ['<', '/', 't', 'b', 'o', 'd', 'y', '>']

def rowTag : Text := literal ['<', 't', 'r', '>']

def rowEndTag : Text := literal ['<', '/', 't', 'r', '>']

def headCellTag : Text := literal ['<', 't', 'h', '>']

def headCellEndTag : Text := literal ['<', '/', 't', 'h', '>']

def cellTag : Text := literal ['<', 't', 'd', '>']

def cellEndTag : Text := literal ['<', '/', 't', 'd', '>']

def mdTable (lines : List Text) : Text :=
  match lines.filter (!isSep ·) with
  | [] => []
  | hdr :: rows =>
      let thead := headTag ++ ((cells hdr).flatMap fun h ↦ headCellTag ++ mdInline h ++ headCellEndTag) ++
        headEndTag
      let tbody := bodyTag ++ (rows.flatMap fun r ↦
        rowTag ++ ((cells r).flatMap fun c ↦ cellTag ++ mdInline c ++ cellEndTag) ++ rowEndTag) ++
          bodyEndTag
      wrapTag ++ tableTag ++ thead ++ tbody ++ tableEndTag

/-! ## Blocks -/

def fence : Text := [backtick, backtick, backtick]

/-- ``/^```\s*$/`` -/
def closesFence (line : Text) : Bool :=
  let t := trim isSpace line
  fence.isPrefixOf t && (t.drop 3).all isSpace

/-- `(?:\s+#+)?$` -/
def closesHeading (text : Text) : Bool :=
  text.isEmpty ||
    (text.head?.any isSpace && !(text.dropWhile isSpace).isEmpty &&
      (text.dropWhile isSpace).all (· == unit '#'))

/-- `(.*?)(?:\s+#+)?$` -/
def headingText : Text → Option Text
  | [] => some []
  | c :: text =>
      if closesHeading (c :: text) then some []
      else if isLineTerminator c then none
      else (headingText text).map (c :: ·)

/-- `/^(#{1,6})\s+(.*?)(?:\s+#+)?$/` -/
def headingOf (t : Text) : Option (ℕ × Text) :=
  let level := (t.takeWhile (· == unit '#')).length
  let spaced := t.drop level
  if 1 ≤ level ∧ level ≤ 6 ∧ spaced.head?.any isSpace then
    (headingText (spaced.dropWhile isSpace)).map fun text ↦ (level, text)
  else none

/-- `/^---+$/` -/
def isRule (t : Text) : Bool := 3 ≤ t.length && t.all (· == unit '-')

def quoteMark : Text := literal ['&', 'g', 't', ';']

/-- `/^&gt; ?/` -/
def isQuote (line : Text) : Bool := quoteMark.isPrefixOf (trim isSpace line)

def unquoted (line : Text) : Text :=
  let text := (trim isSpace line).drop 4
  if text.head? = some (unit ' ') then text.tail else text

def isTableLine (line : Text) : Bool := (trim isSpace line).head? == some bar

def isDigit (c : UInt16) : Bool := unit '0' ≤ c && c ≤ unit '9'

/-- `/^(\d+)\. /`: the digits, and the item. -/
def orderedItem (line : Text) : Option (Text × Text) :=
  let t := trim isSpace line
  let digits := t.takeWhile isDigit
  if digits.isEmpty then none
  else (after (literal ['.', ' ']) (t.dropWhile isDigit)).map fun item ↦ (digits, item)

/-- `/^[-*] /` -/
def bulletItem (line : Text) : Option Text :=
  match trim isSpace line with
  | [] => none
  | c :: text => if c = unit '-' ∨ c = unit '*' then after [unit ' '] text else none

/-- `<pre class="code-block"><code>` -/
def preTag : Text :=
  literal ['<', 'p', 'r', 'e', ' ', 'c', 'l', 'a', 's', 's', '=', '"', 'c', 'o', 'd', 'e', '-', 'b', 'l'] ++
    literal ['o', 'c', 'k', '"', '>', '<', 'c', 'o', 'd', 'e', '>']

/-- `</code></pre>` -/
def preEndTag : Text :=
  literal ['<', '/', 'c', 'o', 'd', 'e', '>', '<', '/', 'p', 'r', 'e', '>']

def ruleTag : Text := literal ['<', 'h', 'r', '/', '>']

def breakTag : Text := literal ['<', 'b', 'r', '/', '>']

/-- `<blockquote><p>` -/
def quoteTag : Text :=
  literal ['<', 'b', 'l', 'o', 'c', 'k', 'q', 'u', 'o', 't', 'e', '>', '<', 'p', '>']

def quoteEndTag : Text :=
  literal ['<', '/', 'p', '>', '<', '/', 'b', 'l', 'o', 'c', 'k', 'q', 'u', 'o', 't', 'e', '>']

/-- `<ol start="` -/
def startTag : Text := literal ['<', 'o', 'l', ' ', 's', 't', 'a', 'r', 't', '=', '"']

def orderedTag : Text := literal ['<', 'o', 'l', '>']

def orderedEndTag : Text := literal ['<', '/', 'o', 'l', '>']

section

variable (numberText : Text → Text)

/-- `<ol>` with its `start`; `numberText` is the text of the number some digits are read as. -/
def openOrdered (digits : Text) : Text :=
  if numberText digits = literal ['1'] then orderedTag
  else startTag ++ numberText digits ++ literal ['"', '>']

def listItems (items : List Text) : Text :=
  items.flatMap fun item ↦ itemTag ++ mdInline item ++ itemEndTag

/-- One block, and the lines left after it. -/
def block (line : Text) (rest : List Text) : Text × List Text :=
  let t := trim isSpace line
  if fence.isPrefixOf t then
    -- a fence that is not closed takes all lines left
    (preTag ++ joined [newline] (rest.takeWhile (!closesFence ·)) ++ preEndTag,
      (rest.dropWhile (!closesFence ·)).tail)
  else
    match headingOf t with
    | some (level, text) => (headingTag level ++ mdInline text ++ headingEndTag level, rest)
    | none =>
        if isRule t then (ruleTag, rest)
        else if isQuote line then
          let quoted := (line :: rest.takeWhile isQuote).map fun l ↦ mdInline (unquoted l)
          (quoteTag ++ joined breakTag quoted ++ quoteEndTag, rest.dropWhile isQuote)
        else if isTableLine line then
          (mdTable (line :: rest.takeWhile isTableLine), rest.dropWhile isTableLine)
        else
          match orderedItem line with
          | some (digits, _) =>
              -- the numbers of the later items are dropped
              let items := (line :: rest.takeWhile fun l ↦ (orderedItem l).isSome).filterMap fun l ↦
                (orderedItem l).map Prod.snd
              (openOrdered numberText digits ++ listItems items ++ orderedEndTag,
                rest.dropWhile fun l ↦ (orderedItem l).isSome)
          | none =>
              if (bulletItem line).isSome then
                let items := (line :: rest.takeWhile fun l ↦ (bulletItem l).isSome).filterMap bulletItem
                (listTag ++ listItems items ++ listEndTag,
                  rest.dropWhile fun l ↦ (bulletItem l).isSome)
              else if t = [] then (breakTag, rest)
              else (paragraphTag ++ mdInline t ++ paragraphEndTag, rest)

/-- A block takes its first line at least. -/
theorem suffix_block (line : Text) (rest : List Text) : (block numberText line rest).2 <:+ rest := by
  unfold block
  dsimp only
  split
  · exact (List.tail_suffix _).trans (List.dropWhile_suffix _)
  · split
    · exact List.suffix_refl rest
    · split
      · exact List.suffix_refl rest
      · split
        · exact List.dropWhile_suffix _
        · split
          · exact List.dropWhile_suffix _
          · split
            · exact List.dropWhile_suffix _
            · split
              · exact List.dropWhile_suffix _
              · split
                · exact List.suffix_refl rest
                · exact List.suffix_refl rest

/-- The loop over the lines. -/
def blocks : List Text → Text
  | [] => []
  | line :: rest => (block numberText line rest).1 ++ blocks (block numberText line rest).2
termination_by lines => lines.length
decreasing_by
  exact Nat.lt_succ_of_le (suffix_block numberText line rest).length_le

def renderMarkdown (text : Text) : Text :=
  blocks numberText ((escapeHtml text).splitOn newline)

end

end Tesbo.Markdown
