import Tesbo.CodeUnits
import Tesbo.Reasoning.Pieces
import Tesbo.Reasoning.Scans

/-!
# The markup of a mirrored ticket

The document of a ticket is shown as HTML: headings, lists and paragraphs.  Each line is escaped, and
then its bold and emphasised text and its links are marked up, one pass after the other.
-/

namespace Tesbo.TicketMarkup

open Reasoning
open Reasoning.Scans
open CodeUnits

/-! ## Escaping -/

/-- `text.replace(/c/g, entity)` -/
def replaceUnit (c : UInt16) (entity text : Text) : Text :=
  text.flatMap fun u ↦ if u = c then entity else [u]

def ampEntity : Text := literal ['&', 'a', 'm', 'p', ';']

def ltEntity : Text := literal ['&', 'l', 't', ';']

def gtEntity : Text := literal ['&', 'g', 't', ';']

def quotEntity : Text := literal ['&', 'q', 'u', 'o', 't', ';']

def escapeHtml (value : Text) : Text :=
  replaceUnit (unit '"') quotEntity (replaceUnit (unit '>') gtEntity
    (replaceUnit (unit '<') ltEntity (replaceUnit (unit '&') ampEntity value)))

def escapeUnit (c : UInt16) : Text :=
  if c = unit '&' then ampEntity
  else if c = unit '<' then ltEntity
  else if c = unit '>' then gtEntity
  else if c = unit '"' then quotEntity
  else [c]

/-- No replacement meets what another wrote. -/
theorem escapeHtml_eq (text : Text) : escapeHtml text = text.flatMap escapeUnit := by
  unfold escapeHtml replaceUnit
  rw [List.flatMap_assoc, List.flatMap_assoc, List.flatMap_assoc]
  apply List.flatMap_congr
  intro c _
  unfold escapeUnit
  by_cases hamp : c = unit '&'
  · subst hamp
    decide
  · by_cases hlt : c = unit '<'
    · subst hlt
      decide
    · by_cases hgt : c = unit '>'
      · subst hgt
        decide
      · simp [hamp, hlt, hgt]

/-! ## The passes over a line -/

/-- `https?:\/\/`, and what is left after it. -/
def afterScheme (l : Text) : Option Text :=
  match after (literal ['h', 't', 't', 'p']) l with
  | none => none
  | some rest => after (literal [':', '/', '/']) ((after [unit 's'] rest).getD rest)

/-- What `[^\s)]` does not match. -/
def endsUrl (c : UInt16) : Bool := isSpace c || c == unit ')'

/-- `\[([^\]]+)\]\((https?:\/\/[^\s)]+)\)`: the label and the url a text begins with. -/
def linkAt (l : Text) : Option ((Text × Text) × Text) :=
  match after [unit '['] l with
  | none => none
  | some inner =>
      let label := inner.takeWhile (· != unit ']')
      match after (literal [']', '(']) (inner.dropWhile (· != unit ']')) with
      | none => none
      | some target =>
          match afterScheme target with
          | none => none
          | some address =>
              let path := address.takeWhile (!endsUrl ·)
              let end_ := address.dropWhile (!endsUrl ·)
              match after [unit ')'] end_ with
              | none => none
              | some rest =>
                  if label.isEmpty || path.isEmpty then none
                  else some ((label, target.take (target.length - end_.length)), rest)

/-- `/\*\*(.+?)\*\*/` -/
def boldAt (text : Text) : Option (Text × Text) :=
  delimited isLineTerminator (literal ['*', '*']) text

/-- `/_(.+?)_/` -/
def emphasisAt (text : Text) : Option (Text × Text) :=
  delimited isLineTerminator (literal ['_']) text

def strongTag : Text := literal ['<', 's', 't', 'r', 'o', 'n', 'g', '>']

def strongEndTag : Text := literal ['<', '/', 's', 't', 'r', 'o', 'n', 'g', '>']

def emTag : Text := literal ['<', 'e', 'm', '>']

def emEndTag : Text := literal ['<', '/', 'e', 'm', '>']

/-- `<a href="` -/
def anchorTag : Text := literal ['<', 'a', ' ', 'h', 'r', 'e', 'f', '=', '"']

/-- `" target="_blank" rel="noopener noreferrer">`, without its first quote. -/
def anchorAttributes : Text :=
  literal [' ', 't', 'a', 'r', 'g', 'e', 't', '=', '"', '_', 'b', 'l', 'a', 'n', 'k', '"'] ++
    literal [' ', 'r', 'e', 'l', '=', '"', 'n', 'o', 'o', 'p', 'e', 'n', 'e', 'r'] ++
      literal [' ', 'n', 'o', 'r', 'e', 'f', 'e', 'r', 'r', 'e', 'r', '"', '>']

def anchorEndTag : Text := literal ['<', '/', 'a', '>']

/-- `this.inline(text)` -/
def inlineHtml (text : Text) : Text :=
  let bold := replaceAll boldAt (fun c ↦ [c]) (fun body ↦ strongTag ++ body ++ strongEndTag)
    (escapeHtml text)
  let emphasised := replaceAll emphasisAt (fun c ↦ [c]) (fun body ↦ emTag ++ body ++ emEndTag) bold
  replaceAll linkAt (fun c ↦ [c])
    (fun link ↦ anchorTag ++ link.2 ++ unit '"' :: anchorAttributes ++ link.1 ++ anchorEndTag)
    emphasised

/-! ## The document -/

/-- `/^(#{1,6})\s+(.*)$/` -/
def headingOf (line : Text) : Option (ℕ × Text) :=
  match headingLine line with
  | some (level, heading) => if 1 ≤ level ∧ level ≤ 6 then some (level, heading) else none
  | none => none

/-- A level is one digit. -/
def headingTag (level : ℕ) : Text := literal ['<', 'h', Nat.digitChar level, '>']

def headingEndTag (level : ℕ) : Text := literal ['<', '/', 'h', Nat.digitChar level, '>']

def listTag : Text := literal ['<', 'u', 'l', '>']

def listEndTag : Text := literal ['<', '/', 'u', 'l', '>']

def itemTag : Text := literal ['<', 'l', 'i', '>']

def itemEndTag : Text := literal ['<', '/', 'l', 'i', '>']

def paragraphTag : Text := literal ['<', 'p', '>']

def paragraphEndTag : Text := literal ['<', '/', 'p', '>']

structure Output where
  out : Text
  listBuffer : List Text

def flushList (o : Output) : Output :=
  if o.listBuffer = [] then o
  else ⟨o.out ++ listTag ++ (o.listBuffer.flatMap fun item ↦ itemTag ++ inlineHtml item ++ itemEndTag) ++
    listEndTag, []⟩

def pushLine (o : Output) (line : Text) : Output :=
  let trimmed := trim isSpace line
  if trimmed = [] then o
  else
    match headingOf trimmed with
    | some (level, heading) =>
        ⟨(flushList o).out ++ headingTag level ++ inlineHtml heading ++ headingEndTag level, []⟩
    | none =>
        if (literal ['-', ' ']).isPrefixOf trimmed then
          { o with listBuffer := o.listBuffer ++ [trimmed.drop 2] }
        else ⟨(flushList o).out ++ paragraphTag ++ inlineHtml trimmed ++ paragraphEndTag, []⟩

def toHtml (sections : List Text) : Text :=
  (flushList ((sections.flatMap (·.splitOn newline)).foldl pushLine ⟨[], []⟩)).out

example : inlineHtml (literal ['a', '*', '*', '<', '*', '*']) =
    literal ['a'] ++ strongTag ++ ltEntity ++ strongEndTag := by decide

end Tesbo.TicketMarkup
