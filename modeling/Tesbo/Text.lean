import Tesbo.Schema
import Tesbo.Reasoning.Pieces

/-!
# Texts

The string operations of the two languages the program is written in: `trim`, `\s` and `length`
of JavaScript, and the width of a `VARCHAR` column.  Letter case is taken from `Unicode`.
-/

namespace Tesbo

/- There are too many characters to go through for one that is in a list. -/
instance (priority := 1100) decidableAllChars (p : Char → Prop) [DecidablePred p]
    (cs : List Char) : Decidable (∀ c ∈ cs, p c) := List.decidableBAll p cs

instance (priority := 1100) decidableAnyChar (p : Char → Prop) [DecidablePred p]
    (cs : List Char) : Decidable (∃ c ∈ cs, p c) := List.decidableBEx p cs

/-- The code points JavaScript's `\s` and `trim` treat as white space. -/
def jsSpace (c : Char) : Bool :=
  let n := c.toNat
  (9 ≤ n && n ≤ 13) || n = 0x20 || n = 0xA0 || n = 0x1680 || (0x2000 ≤ n && n ≤ 0x200A) ||
    n = 0x2028 || n = 0x2029 || n = 0x202F || n = 0x205F || n = 0x3000 || n = 0xFEFF

def trimChars (cs : List Char) : List Char := (cs.dropWhile jsSpace).rdropWhile jsSpace

def jsTrim (s : String) : String := String.ofList (trimChars s.toList)

open Reasoning in
theorem trimmed_jsTrim (s : String) : Trimmed jsSpace (jsTrim s).toList := by
  unfold jsTrim
  rw [String.toList_ofList]
  exact trimmed_trim s.toList

open Reasoning in
theorem jsTrim_eq {s : String} (h : Trimmed jsSpace s.toList) : jsTrim s = s := by
  unfold jsTrim
  rw [show trimChars s.toList = s.toList from h.trim_eq, String.ofList_toList]

/-- `length` of a JavaScript string, in UTF-16 code units. -/
def jsLength (s : String) : ℕ := (s.toList.map fun c ↦ if c.toNat < 0x10000 then 1 else 2).sum

/-- `slice(0, n)`, in UTF-16 code units.  Half a character is U+FFFD once it is written as UTF-8. -/
def sliceChars : ℕ → List Char → List Char
  | _, [] => []
  | 0, _ :: _ => []
  | n + 1, c :: cs =>
      if c.toNat < 0x10000 then c :: sliceChars n cs
      else if n = 0 then [Char.ofNat 0xFFFD] else c :: sliceChars (n - 1) cs

def jsSlice (n : ℕ) (s : String) : String := String.ofList (sliceChars n s.toList)

/-- `replace(/\s+/g, " ")` -/
def squeezeSpaces : List Char → List Char
  | [] => []
  | [c] => if jsSpace c then [' '] else [c]
  | c :: d :: cs =>
      if jsSpace c && jsSpace d then squeezeSpaces (d :: cs)
      else (if jsSpace c then ' ' else c) :: squeezeSpaces (d :: cs)

/-- Two texts with one digest are the same. -/
class Sha256 where
  hex : String → String
  injective : Function.Injective hex

/-- Letter case: JavaScript's two mappings and Postgres' `lower`.  On ASCII text `lower` is the
ASCII mapping. -/
class Unicode where
  toLowerCase : String → String
  toUpperCase : String → String
  lower : String → String
  lower_ascii : ∀ s : String, (∀ c ∈ s.toList, c.toNat < 128) →
    lower s = String.ofList (s.toList.map Char.toLower)

/-- Letter case for programs that only meet ASCII text. -/
@[reducible] def asciiCase : Unicode where
  toLowerCase s := String.ofList (s.toList.map Char.toLower)
  toUpperCase s := String.ofList (s.toList.map Char.toUpper)
  lower s := String.ofList (s.toList.map Char.toLower)
  lower_ascii _ _ := rfl

/-- The assignment cast to `VARCHAR(max)`: excess blanks are cut, any other excess is refused. -/
def varchar (max : ℕ) (s : String) : Except Failure String :=
  if (s.toList.drop max).all (· = ' ') then .ok (String.ofList (s.toList.take max))
  else .error (.sqlState "22001" "")

/-- `VARCHAR(max)`, for a value that may be null. -/
def varchar? (max : ℕ) : Option String → Except Failure (Option String)
  | none => .ok none
  | some text => (varchar max text).map some

theorem varchar_of_length_le {max : ℕ} {s : String} (h : s.toList.length ≤ max) :
    varchar max s = .ok s := by
  unfold varchar
  rw [List.drop_of_length_le h, List.take_of_length_le h, String.ofList_toList]
  rfl

/-- Measured on the trimmed value; an absent one passes. -/
def validateBoundedField (value : Option String) (label : String) (max : ℕ) :
    Except Failure Unit :=
  match value with
  | none => .ok ()
  | some text =>
      if max < jsLength (jsTrim text)
      then .error (.badRequest s!"{label} must be at most {max} characters")
      else .ok ()

/-- `INTEGER` columns. -/
def int4 (n : ℤ) : Except Failure ℤ :=
  if -2147483648 ≤ n ∧ n ≤ 2147483647 then .ok n else .error .outOfRange

end Tesbo
