import Mathlib

/-!
# Texts as UTF-16 code units

The strings of the source as it indexes, slices and matches them: a regular expression without the
`u` flag, `length` and `slice` all count code units, and may part the two halves of a character.
-/

namespace Tesbo.CodeUnits

abbrev Text := List UInt16

/-- A character of the basic plane. -/
def unit (c : Char) : UInt16 := UInt16.ofNat c.toNat

def literal (cs : List Char) : Text := cs.map unit

def newline : UInt16 := 10

/-- `\s` -/
def isSpace (c : UInt16) : Bool :=
  (9 ≤ c && c ≤ 13) || c == 0x20 || c == 0xA0 || c == 0x1680 || (0x2000 ≤ c && c ≤ 0x200A) ||
    c == 0x2028 || c == 0x2029 || c == 0x202F || c == 0x205F || c == 0x3000 || c == 0xFEFF

/-- What `.` does not match. -/
def isLineTerminator (c : UInt16) : Bool := c == 10 || c == 13 || c == 0x2028 || c == 0x2029

/-- `^(#+)\s+(.*)$`: the number of hashes, and the rest of the line. -/
def headingLine (line : Text) : Option (ℕ × Text) :=
  let hashes := (line.takeWhile (· == unit '#')).length
  let spaced := line.drop hashes
  let heading := spaced.dropWhile isSpace
  if spaced.head?.any isSpace ∧ heading.all (!isLineTerminator ·) then some (hashes, heading) else none

theorem eq_false_of_any {p : UInt16 → Bool} {t : Text} (h : t.any p = false) :
    ∀ c ∈ t, p c = false := by
  simpa using h

end Tesbo.CodeUnits
