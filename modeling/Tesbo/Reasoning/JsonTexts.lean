import Mathlib.Tactic

/-!
# JSON texts

JSON values and the text `JSON.stringify` writes for them.  A number is kept by its text.  Two values
with one text are the same: what a value is followed by never runs into it.
-/

namespace Tesbo.Reasoning.JsonTexts

def digit (c : Char) : Bool := '0' ≤ c && c ≤ '9'

def numberStart (c : Char) : Bool := digit c || c = '-'

def numberChar (c : Char) : Bool := numberStart c || c = '+' || c = '.' || c = 'e'

/-- A finite number as JavaScript writes it. -/
structure Number where
  text : List Char
  start : text.head?.any numberStart = true
  plain : text.all numberChar = true
deriving DecidableEq

inductive Json where
  | null
  | boolean (b : Bool)
  | number (x : Number)
  | text (s : String)
  | list (items : List Json)
  | object (fields : List (String × Json))

def hexDigit (n : ℕ) : Char := if n < 10 then Char.ofNat (48 + n) else Char.ofNat (87 + n)

def escape (c : Char) : List Char :=
  if c = '"' then ['\\', '"']
  else if c = '\\' then ['\\', '\\']
  else if c = '\x08' then ['\\', 'b']
  else if c = '\x0c' then ['\\', 'f']
  else if c = '\n' then ['\\', 'n']
  else if c = '\r' then ['\\', 'r']
  else if c = '\t' then ['\\', 't']
  else if c.toNat < 0x20 then
    ['\\', 'u', '0', '0', hexDigit (c.toNat / 16), hexDigit (c.toNat % 16)]
  else [c]

def quote (s : String) : List Char := '"' :: s.toList.flatMap escape ++ ['"']

mutual

def write : Json → List Char
  | .null => ['n', 'u', 'l', 'l']
  | .boolean true => ['t', 'r', 'u', 'e']
  | .boolean false => ['f', 'a', 'l', 's', 'e']
  | .number x => x.text
  | .text s => quote s
  | .list [] => ['[', ']']
  | .list (j :: items) => '[' :: write j ++ writeItems items
  | .object [] => ['{', '}']
  | .object ((k, j) :: fields) => '{' :: quote k ++ ':' :: write j ++ writeFields fields

/-- The later items of a list, and its end. -/
def writeItems : List Json → List Char
  | [] => [']']
  | j :: items => ',' :: write j ++ writeItems items

def writeFields : List (String × Json) → List Char
  | [] => ['}']
  | (k, j) :: fields => ',' :: quote k ++ ':' :: write j ++ writeFields fields

end

def stringify (j : Json) : String := String.ofList (write j)

/-! ## Texts in quotes -/

def hexValue (c : Char) : ℕ := if digit c then c.toNat - 48 else c.toNat - 87

/-- The first character of an escaped text, and what comes after it. -/
def unescape : List Char → Option (Char × List Char)
  | [] => none
  | '\\' :: 'u' :: _ :: _ :: a :: b :: rest =>
      some (Char.ofNat (16 * hexValue a + hexValue b), rest)
  | '\\' :: c :: rest =>
      some (if c = 'b' then '\x08' else if c = 'f' then '\x0c' else if c = 'n' then '\n'
        else if c = 'r' then '\r' else if c = 't' then '\t' else c, rest)
  | c :: rest => some (c, rest)

theorem hexValue_hexDigit : ∀ n < 16, hexValue (hexDigit n) = n := by decide

theorem unescape_escape (c : Char) (rest : List Char) :
    unescape (escape c ++ rest) = some (c, rest) := by
  unfold escape
  split
  · next h => subst h; rfl
  split
  · next h => subst h; rfl
  split
  · next h => subst h; rfl
  split
  · next h => subst h; rfl
  split
  · next h => subst h; rfl
  split
  · next h => subst h; rfl
  split
  · next h => subst h; rfl
  split
  · next hsmall =>
      have hvalue : 16 * hexValue (hexDigit (c.toNat / 16)) + hexValue (hexDigit (c.toNat % 16)) =
          c.toNat := by
        rw [hexValue_hexDigit _ (by omega), hexValue_hexDigit _ (by omega)]
        omega
      have hread : unescape (['\\', 'u', '0', '0', hexDigit (c.toNat / 16),
          hexDigit (c.toNat % 16)] ++ rest) = some (Char.ofNat (16 * hexValue (hexDigit
            (c.toNat / 16)) + hexValue (hexDigit (c.toNat % 16))), rest) := rfl
      rw [hread, hvalue, Char.ofNat_toNat]
  · next hslash _ _ _ _ _ _ =>
      -- a character that stands for itself is not a backslash
      rw [List.singleton_append]
      unfold unescape
      split
      · cases ‹_ = []›
      · next heq => exact absurd (List.cons.inj heq).1 hslash
      · next heq => exact absurd (List.cons.inj heq).1 hslash
      · next heq =>
          obtain ⟨rfl, rfl⟩ := List.cons.inj heq
          rfl

theorem escape_unique {c c' : Char} {t t' : List Char} (h : escape c ++ t = escape c' ++ t') :
    c = c' ∧ t = t' := by
  have hread := congrArg unescape h
  rw [unescape_escape, unescape_escape] at hread
  exact Prod.mk.inj (Option.some.inj hread)

theorem escape_ne_quote (c : Char) (t t' : List Char) : escape c ++ t ≠ '"' :: t' := by
  unfold escape
  split
  · simp
  split
  · simp
  split
  · simp
  split
  · simp
  split
  · simp
  split
  · simp
  split
  · simp
  split
  · simp
  · next hquote _ _ _ _ _ _ _ => simp [hquote]

theorem escaped_unique {s s' : List Char} {t t' : List Char}
    (h : s.flatMap escape ++ '"' :: t = s'.flatMap escape ++ '"' :: t') : s = s' ∧ t = t' := by
  induction s generalizing s' with
  | nil =>
      cases s' with
      | nil => exact ⟨rfl, (List.cons.inj h).2⟩
      | cons c' s' =>
          rw [List.flatMap_cons, List.append_assoc] at h
          exact absurd h.symm (escape_ne_quote c' _ _)
  | cons c s ih =>
      cases s' with
      | nil =>
          rw [List.flatMap_cons, List.append_assoc] at h
          exact absurd h (escape_ne_quote c _ _)
      | cons c' s' =>
          rw [List.flatMap_cons, List.flatMap_cons, List.append_assoc, List.append_assoc] at h
          obtain ⟨rfl, hrest⟩ := escape_unique h
          obtain ⟨rfl, ht⟩ := ih hrest
          exact ⟨rfl, ht⟩

theorem quote_unique {s s' : String} {t t' : List Char} (h : quote s ++ t = quote s' ++ t') :
    s = s' ∧ t = t' := by
  unfold quote at h
  rw [List.cons_append, List.cons_append, List.append_assoc, List.append_assoc] at h
  obtain ⟨hs, ht⟩ := escaped_unique (List.cons.inj h).2
  exact ⟨String.toList_inj.mp hs, ht⟩

/-! ## Values -/

/-- What a number can be followed by. -/
def Delimited (t : List Char) : Prop := ∀ c ∈ t.head?, numberChar c = false

theorem delimited_items (items : List Json) (t : List Char) : Delimited (writeItems items ++ t) := by
  intro c hc
  cases items with
  | nil =>
      unfold writeItems at hc
      obtain rfl : ']' = c := Option.some.inj hc
      decide
  | cons j items =>
      unfold writeItems at hc
      obtain rfl : ',' = c := Option.some.inj hc
      decide

theorem delimited_fields (fields : List (String × Json)) (t : List Char) :
    Delimited (writeFields fields ++ t) := by
  intro c hc
  cases fields with
  | nil =>
      unfold writeFields at hc
      obtain rfl : '}' = c := Option.some.inj hc
      decide
  | cons e fields =>
      obtain ⟨k, j⟩ := e
      unfold writeFields at hc
      obtain rfl : ',' = c := Option.some.inj hc
      decide

theorem takeWhile_number (x : Number) {t : List Char} (ht : Delimited t) :
    (x.text ++ t).takeWhile numberChar = x.text := by
  rw [List.takeWhile_append_of_pos (List.all_eq_true.mp x.plain)]
  cases t with
  | nil => simp
  | cons c t => rw [List.takeWhile_cons_of_neg (by rw [ht c rfl]; decide), List.append_nil]

theorem number_unique {x x' : Number} {t t' : List Char} (ht : Delimited t) (ht' : Delimited t')
    (h : x.text ++ t = x'.text ++ t') : x = x' ∧ t = t' := by
  have htake := congrArg (List.takeWhile numberChar) h
  rw [takeWhile_number x ht, takeWhile_number x' ht'] at htake
  obtain ⟨text, hstart, hplain⟩ := x
  obtain ⟨text', hstart', hplain'⟩ := x'
  obtain rfl : text = text' := htake
  exact ⟨rfl, List.append_cancel_left h⟩

def shape : Json → ℕ
  | .null => 0
  | .boolean _ => 1
  | .number _ => 2
  | .text _ => 3
  | .list _ => 4
  | .object _ => 5

/-- The first character tells what a value is. -/
def shapeOf (c : Char) : ℕ :=
  if c = 'n' then 0 else if c = 't' ∨ c = 'f' then 1 else if numberStart c then 2
  else if c = '"' then 3 else if c = '[' then 4 else if c = '{' then 5 else 6

theorem head_write (j : Json) : ∃ c rest, write j = c :: rest ∧ shapeOf c = shape j := by
  cases j with
  | null => exact ⟨_, _, by unfold write; rfl, rfl⟩
  | boolean b =>
      cases b with
      | false => exact ⟨_, _, by unfold write; rfl, rfl⟩
      | true => exact ⟨_, _, by unfold write; rfl, rfl⟩
  | number x =>
      obtain ⟨text, hstart, -⟩ := x
      cases text with
      | nil => cases hstart
      | cons c rest =>
          have hc : numberStart c = true := hstart
          refine ⟨c, rest, by unfold write; rfl, ?_⟩
          unfold shapeOf
          rw [if_neg, if_neg, if_pos hc]
          · rfl
          · rintro (rfl | rfl)
            · cases hc
            · cases hc
          · rintro rfl
            cases hc
  | text s => exact ⟨_, _, by unfold write quote; rfl, rfl⟩
  | list items =>
      cases items with
      | nil => exact ⟨_, _, by unfold write; rfl, rfl⟩
      | cons j items => exact ⟨_, _, by unfold write; rfl, rfl⟩
  | object fields =>
      cases fields with
      | nil => exact ⟨_, _, by unfold write; rfl, rfl⟩
      | cons e fields =>
          obtain ⟨k, j⟩ := e
          exact ⟨_, _, by unfold write; rfl, rfl⟩

theorem shape_unique {j j' : Json} {t t' : List Char} (h : write j ++ t = write j' ++ t') :
    shape j = shape j' := by
  obtain ⟨c, rest, hj, hc⟩ := head_write j
  obtain ⟨c', rest', hj', hc'⟩ := head_write j'
  rw [hj, hj', List.cons_append, List.cons_append] at h
  rw [← hc, ← hc', (List.cons.inj h).1]

/-- A value does not start as a list ends. -/
theorem write_ne_close (j : Json) (t t' : List Char) : write j ++ t ≠ ']' :: t' := by
  intro h
  obtain ⟨c, rest, hj, hc⟩ := head_write j
  rw [hj, List.cons_append] at h
  rw [(List.cons.inj h).1] at hc
  cases j with
  | null => cases hc
  | boolean b => cases hc
  | number x => cases hc
  | text s => cases hc
  | list items => cases hc
  | object fields => cases hc

theorem write_object_append (k : String) (j : Json) (fields : List (String × Json))
    (t : List Char) : write (.object ((k, j) :: fields)) ++ t =
      '{' :: (quote k ++ ':' :: (write j ++ (writeFields fields ++ t))) := by
  rw [write]
  simp

theorem writeFields_append (k : String) (j : Json) (fields : List (String × Json))
    (t : List Char) : writeFields ((k, j) :: fields) ++ t =
      ',' :: (quote k ++ ':' :: (write j ++ (writeFields fields ++ t))) := by
  rw [writeFields]
  simp

mutual

/-- A value is told by its text, whatever comes after it. -/
theorem write_unique (j j' : Json) {t t' : List Char} (ht : Delimited t) (ht' : Delimited t')
    (h : write j ++ t = write j' ++ t') : j = j' ∧ t = t' := by
  have hshape := shape_unique h
  cases j with
  | null =>
      cases j' with
      | null => exact ⟨rfl, List.append_cancel_left h⟩
      | _ => cases hshape
  | boolean b =>
      cases j' with
      | boolean b' =>
          cases b with
          | false =>
              cases b' with
              | false => exact ⟨rfl, List.append_cancel_left h⟩
              | true =>
                  unfold write at h
                  cases h
          | true =>
              cases b' with
              | false =>
                  unfold write at h
                  cases h
              | true => exact ⟨rfl, List.append_cancel_left h⟩
      | _ => cases hshape
  | number x =>
      cases j' with
      | number x' =>
          unfold write at h
          obtain ⟨rfl, rfl⟩ := number_unique ht ht' h
          exact ⟨rfl, rfl⟩
      | _ => cases hshape
  | text s =>
      cases j' with
      | text s' =>
          unfold write at h
          obtain ⟨rfl, rfl⟩ := quote_unique h
          exact ⟨rfl, rfl⟩
      | _ => cases hshape
  | list items =>
      cases j' with
      | list items' =>
          cases items with
          | nil =>
              cases items' with
              | nil => exact ⟨rfl, List.append_cancel_left h⟩
              | cons i' items' =>
                  rw [write, write, List.cons_append, List.cons_append, List.append_assoc] at h
                  exact absurd (List.cons.inj h).2.symm (write_ne_close i' _ _)
          | cons i items =>
              cases items' with
              | nil =>
                  rw [write, write, List.cons_append, List.cons_append, List.append_assoc] at h
                  exact absurd (List.cons.inj h).2 (write_ne_close i _ _)
              | cons i' items' =>
                  rw [write, write, List.cons_append, List.cons_append, List.append_assoc,
                    List.append_assoc] at h
                  obtain ⟨rfl, hrest⟩ := write_unique i i' (delimited_items items t)
                    (delimited_items items' t') (List.cons.inj h).2
                  obtain ⟨rfl, rfl⟩ := items_unique items items' hrest
                  exact ⟨rfl, rfl⟩
      | _ => cases hshape
  | object fields =>
      cases j' with
      | object fields' =>
          cases fields with
          | nil =>
              cases fields' with
              | nil => exact ⟨rfl, List.append_cancel_left h⟩
              | cons e' fields' =>
                  obtain ⟨k', i'⟩ := e'
                  rw [write, write] at h
                  unfold quote at h
                  cases h
          | cons e fields =>
              obtain ⟨k, i⟩ := e
              cases fields' with
              | nil =>
                  rw [write, write] at h
                  unfold quote at h
                  cases h
              | cons e' fields' =>
                  obtain ⟨k', i'⟩ := e'
                  rw [write_object_append, write_object_append] at h
                  obtain ⟨rfl, hvalue⟩ := quote_unique (List.cons.inj h).2
                  obtain ⟨rfl, hrest⟩ := write_unique i i' (delimited_fields fields t)
                    (delimited_fields fields' t') (List.cons.inj hvalue).2
                  obtain ⟨rfl, rfl⟩ := fields_unique fields fields' hrest
                  exact ⟨rfl, rfl⟩
      | _ => cases hshape

theorem items_unique (items items' : List Json) {t t' : List Char}
    (h : writeItems items ++ t = writeItems items' ++ t') : items = items' ∧ t = t' := by
  cases items with
  | nil =>
      cases items' with
      | nil => exact ⟨rfl, List.append_cancel_left h⟩
      | cons i' items' =>
          rw [writeItems, writeItems] at h
          cases h
  | cons i items =>
      cases items' with
      | nil =>
          rw [writeItems, writeItems] at h
          cases h
      | cons i' items' =>
          rw [writeItems, writeItems, List.cons_append, List.cons_append, List.append_assoc,
            List.append_assoc] at h
          obtain ⟨rfl, hrest⟩ := write_unique i i' (delimited_items items t)
            (delimited_items items' t') (List.cons.inj h).2
          obtain ⟨rfl, rfl⟩ := items_unique items items' hrest
          exact ⟨rfl, rfl⟩

theorem fields_unique (fields fields' : List (String × Json)) {t t' : List Char}
    (h : writeFields fields ++ t = writeFields fields' ++ t') : fields = fields' ∧ t = t' := by
  cases fields with
  | nil =>
      cases fields' with
      | nil => exact ⟨rfl, List.append_cancel_left h⟩
      | cons e' fields' =>
          obtain ⟨k', i'⟩ := e'
          rw [writeFields, writeFields] at h
          cases h
  | cons e fields =>
      obtain ⟨k, i⟩ := e
      cases fields' with
      | nil =>
          rw [writeFields, writeFields] at h
          cases h
      | cons e' fields' =>
          obtain ⟨k', i'⟩ := e'
          rw [writeFields_append, writeFields_append] at h
          obtain ⟨rfl, hvalue⟩ := quote_unique (List.cons.inj h).2
          obtain ⟨rfl, hrest⟩ := write_unique i i' (delimited_fields fields t)
            (delimited_fields fields' t') (List.cons.inj hvalue).2
          obtain ⟨rfl, rfl⟩ := fields_unique fields fields' hrest
          exact ⟨rfl, rfl⟩

end

theorem stringify_injective : Function.Injective stringify := by
  intro j j' h
  have htext : write j ++ [] = write j' ++ [] := by
    rw [List.append_nil, List.append_nil]
    exact String.ofList_injective h
  exact (write_unique j j' (fun _ hc ↦ by cases hc) (fun _ hc ↦ by cases hc) htext).1

end Tesbo.Reasoning.JsonTexts
