import Tesbo.CodeUnits

/-!
# The syntax of JSON

A reader of JSON texts and the trees they are written from.  A tree has the layout of its text, so every
text the reader accepts is the text of a tree, and the reader reads the text of a tree as its value.
-/

namespace Tesbo.Reasoning.JsonSyntax

open CodeUnits

/-! ## Leaves -/

def isBlank (c : UInt16) : Bool := c == 0x20 || c == 0x09 || c == 0x0A || c == 0x0D

def skipBlank (t : Text) : Text := t.dropWhile isBlank

/-- What a number or a literal may be made of. -/
def scalarUnit (c : UInt16) : Bool :=
  !isBlank c && !(literal ['{', '}', '[', ']', ',', ':', '"']).contains c

def isDigit (c : UInt16) : Bool := unit '0' ≤ c && c ≤ unit '9'

def isHexDigit (c : UInt16) : Bool :=
  isDigit c || (unit 'a' ≤ c && c ≤ unit 'f') || (unit 'A' ≤ c && c ≤ unit 'F')

/-- What is left after `\d+`. -/
def afterDigits : Text → Option Text
  | [] => none
  | c :: t => if isDigit c then some (t.dropWhile isDigit) else none

/-- What is left after `0|[1-9]\d*`. -/
def afterInteger : Text → Option Text
  | [] => none
  | c :: t => if c = unit '0' then some t else afterDigits (c :: t)

/-- What is left after `(\.\d+)?`. -/
def afterFraction : Text → Option Text
  | [] => some []
  | c :: t => if c = unit '.' then afterDigits t else some (c :: t)

/-- What is left after `([eE][+-]?\d+)?`. -/
def afterExponent : Text → Option Text
  | [] => some []
  | c :: t =>
      if c = unit 'e' ∨ c = unit 'E' then
        afterDigits (if t.head? = some (unit '+') ∨ t.head? = some (unit '-') then t.tail else t)
      else some (c :: t)

def isNumber (t : Text) : Bool :=
  let unsigned := if t.head? = some (unit '-') then t.tail else t
  ((afterInteger unsigned).bind afterFraction).bind afterExponent == some []

def isScalar (t : Text) : Bool :=
  t.all scalarUnit && !t.isEmpty &&
    (t == literal ['t', 'r', 'u', 'e'] || t == literal ['f', 'a', 'l', 's', 'e'] ||
      t == literal ['n', 'u', 'l', 'l'] || isNumber t)

/-- Where in a string a reader is. -/
inductive Mode where
  | plain
  | escape
  | hex (left : ℕ)
deriving DecidableEq, Repr

/-- After one more unit, where a string may go on with it. -/
def Mode.next (c : UInt16) : Mode → Option Mode
  | plain =>
      if c = unit '"' ∨ c < 0x20 then none
      else if c = unit '\\' then some escape
      else some plain
  | escape =>
      if c = unit 'u' then some (hex 3)
      else if (literal ['"', '\\', '/', 'b', 'f', 'n', 'r', 't']).contains c then some plain
      else none
  | hex left => if isHexDigit c then some (if left = 0 then plain else hex (left - 1)) else none

theorem Mode.of_next_plain {c : UInt16} {m : Mode} (h : Mode.plain.next c = some m) :
    c ≠ unit '"' ∧ m = if c = unit '\\' then .escape else .plain := by
  unfold Mode.next at h
  dsimp only at h
  split_ifs at h with hclose hslash
  · cases h
    exact ⟨fun heq ↦ hclose (.inl heq), by rw [if_pos hslash]⟩
  · cases h
    exact ⟨fun heq ↦ hclose (.inl heq), by rw [if_neg hslash]⟩

theorem Mode.of_next_escape {c : UInt16} {m : Mode} (h : Mode.escape.next c = some m) :
    m ≠ .escape := by
  unfold Mode.next at h
  dsimp only at h
  split_ifs at h
  · cases h
    exact Mode.noConfusion
  · cases h
    exact Mode.noConfusion

theorem Mode.of_next_hex {left : ℕ} {c : UInt16} {m : Mode} (h : (Mode.hex left).next c = some m) :
    isHexDigit c = true ∧ m ≠ .escape := by
  unfold Mode.next at h
  dsimp only at h
  split_ifs at h with hdigit hlast
  · cases h
    exact ⟨hdigit, Mode.noConfusion⟩
  · cases h
    exact ⟨hdigit, Mode.noConfusion⟩

/-- Whether a text can stand before the end of a string. -/
def isBody : Mode → Text → Bool
  | m, [] => m == .plain
  | m, c :: t =>
      match m.next c with
      | none => false
      | some m => isBody m t

/-- A string up to its closing quote, and what is left after it. -/
def closeString : Mode → Text → Option (Text × Text)
  | _, [] => none
  | m, c :: t =>
      if m = .plain ∧ c = unit '"' then some ([], t)
      else
        match m.next c with
        | none => none
        | some m => (closeString m t).map fun r ↦ (c :: r.1, r.2)

theorem closeString_body {m : Mode} {raw : Text} (h : isBody m raw = true) (rest : Text) :
    closeString m (raw ++ unit '"' :: rest) = some (raw, rest) := by
  induction raw generalizing m with
  | nil =>
      have hm : m = .plain := by simpa [isBody] using h
      rw [List.nil_append, closeString, if_pos ⟨hm, rfl⟩]
  | cons c raw ih =>
      rw [List.cons_append, closeString]
      rw [isBody] at h
      cases hnext : m.next c with
      | none =>
          rw [hnext] at h
          cases h
      | some m' =>
          rw [hnext] at h
          have hgo : ¬ (m = .plain ∧ c = unit '"') := by
            rintro ⟨rfl, rfl⟩
            cases hnext
          rw [if_neg hgo]
          dsimp only
          rw [ih h]
          rfl

theorem of_closeString {m : Mode} {t raw rest : Text} (h : closeString m t = some (raw, rest)) :
    t = raw ++ unit '"' :: rest ∧ isBody m raw = true := by
  induction t generalizing m raw with
  | nil => cases h
  | cons c t ih =>
      rw [closeString] at h
      split at h
      · rename_i hclose
        cases h
        rw [hclose.1, hclose.2]
        exact ⟨rfl, rfl⟩
      · cases hnext : m.next c with
        | none =>
            rw [hnext] at h
            cases h
        | some m' =>
            rw [hnext] at h
            obtain ⟨r, hr, heq⟩ := Option.map_eq_some_iff.mp h
            cases heq
            obtain ⟨rfl, hbody⟩ := ih hr
            rw [isBody, hnext]
            exact ⟨rfl, hbody⟩

/-! ## Reading -/

/-- What a text stands for, with its numbers and strings as they are written. -/
inductive Value where
  | scalar (t : Text)
  | string (raw : Text)
  | array (items : List Value)
  | object (fields : List (Text × Value))

/-- A key, and what is left after its colon. -/
def readKey (t : Text) : Option (Text × Text) :=
  match skipBlank t with
  | [] => none
  | c :: rest =>
      if c = unit '"' then
        match closeString .plain rest with
        | none => none
        | some (key, rest) =>
            match skipBlank rest with
            | [] => none
            | c :: rest => if c = unit ':' then some (key, rest) else none
      else none

mutual

def readValue : ℕ → Text → Option (Value × Text)
  | 0, _ => none
  | fuel + 1, t =>
      match skipBlank t with
      | [] => none
      | c :: rest =>
          if c = unit '{' then
            if (skipBlank rest).head? = some (unit '}') then
              some (.object [], (skipBlank rest).tail)
            else (readFields fuel rest).map fun r ↦ (.object r.1, r.2)
          else if c = unit '[' then
            if (skipBlank rest).head? = some (unit ']') then
              some (.array [], (skipBlank rest).tail)
            else (readItems fuel rest).map fun r ↦ (.array r.1, r.2)
          else if c = unit '"' then (closeString .plain rest).map fun r ↦ (.string r.1, r.2)
          else if isScalar ((c :: rest).takeWhile scalarUnit) then
            some (.scalar ((c :: rest).takeWhile scalarUnit), (c :: rest).dropWhile scalarUnit)
          else none

/-- The items of an array after its bracket, and what is left after the closing one. -/
def readItems : ℕ → Text → Option (List Value × Text)
  | 0, _ => none
  | fuel + 1, t =>
      match readValue fuel t with
      | none => none
      | some (v, rest) =>
          match skipBlank rest with
          | [] => none
          | c :: rest =>
              if c = unit ']' then some ([v], rest)
              else if c = unit ',' then (readItems fuel rest).map fun r ↦ (v :: r.1, r.2)
              else none

def readFields : ℕ → Text → Option (List (Text × Value) × Text)
  | 0, _ => none
  | fuel + 1, t =>
      match readKey t with
      | none => none
      | some (key, rest) =>
          match readValue fuel rest with
          | none => none
          | some (v, rest) =>
              match skipBlank rest with
              | [] => none
              | c :: rest =>
                  if c = unit '}' then some ([(key, v)], rest)
                  else if c = unit ',' then
                    (readFields fuel rest).map fun r ↦ ((key, v) :: r.1, r.2)
                  else none

end

/-- `JSON.parse` -/
def parse (t : Text) : Option Value :=
  match readValue t.length t with
  | none => none
  | some (v, rest) => if skipBlank rest = [] then some v else none

/-! ## Trees -/

abbrev Blank := { w : Text // w.all isBlank = true }

abbrev Scalar := { t : Text // isScalar t = true }

abbrev Body := { raw : Text // isBody .plain raw = true }

/-- A key up to its colon. -/
structure Key where
  before : Blank
  raw : Body
  behind : Blank

mutual

/-- A value with its layout. -/
inductive Tree where
  | scalar (t : Scalar)
  | string (raw : Body)
  | emptyArray (inside : Blank)
  | array (items : Items)
  | emptyObject (inside : Blank)
  | object (fields : Fields)

inductive Items where
  | last (before : Blank) (t : Tree) (behind : Blank)
  | cons (before : Blank) (t : Tree) (behind : Blank) (rest : Items)

inductive Fields where
  | last (key : Key) (before : Blank) (t : Tree) (behind : Blank)
  | cons (key : Key) (before : Blank) (t : Tree) (behind : Blank) (rest : Fields)

end

def quoted (raw : Body) : Text := unit '"' :: (raw.1 ++ [unit '"'])

def Key.text (key : Key) : Text := key.before.1 ++ (quoted key.raw ++ (key.behind.1 ++ [unit ':']))

mutual

def Tree.text : Tree → Text
  | .scalar t => t.1
  | .string raw => quoted raw
  | .emptyArray inside => unit '[' :: (inside.1 ++ [unit ']'])
  | .array items => unit '[' :: (items.text ++ [unit ']'])
  | .emptyObject inside => unit '{' :: (inside.1 ++ [unit '}'])
  | .object fields => unit '{' :: (fields.text ++ [unit '}'])

def Items.text : Items → Text
  | .last before t behind => before.1 ++ (t.text ++ behind.1)
  | .cons before t behind rest => before.1 ++ (t.text ++ (behind.1 ++ unit ',' :: rest.text))

def Fields.text : Fields → Text
  | .last key before t behind => key.text ++ (before.1 ++ (t.text ++ behind.1))
  | .cons key before t behind rest =>
      key.text ++ (before.1 ++ (t.text ++ (behind.1 ++ unit ',' :: rest.text)))

end

mutual

def Tree.value : Tree → Value
  | .scalar t => .scalar t.1
  | .string raw => .string raw.1
  | .emptyArray _ => .array []
  | .array items => .array items.values
  | .emptyObject _ => .object []
  | .object fields => .object fields.values

def Items.values : Items → List Value
  | .last _ t _ => [t.value]
  | .cons _ t _ rest => t.value :: rest.values

def Fields.values : Fields → List (Text × Value)
  | .last key _ t _ => [(key.raw.1, t.value)]
  | .cons key _ t _ rest => (key.raw.1, t.value) :: rest.values

end

mutual

/-- The fuel a reader needs. -/
def Tree.size : Tree → ℕ
  | .scalar _ | .string _ | .emptyArray _ | .emptyObject _ => 1
  | .array items => items.size + 1
  | .object fields => fields.size + 1

def Items.size : Items → ℕ
  | .last _ t _ => t.size + 1
  | .cons _ t _ rest => t.size + rest.size + 1

def Fields.size : Fields → ℕ
  | .last _ _ t _ => t.size + 1
  | .cons _ _ t _ rest => t.size + rest.size + 1

end

/-! ## The reader reads the text of a tree -/

/-- What a value may be followed by. -/
def Ends (rest : Text) : Prop := ∀ c ∈ rest.head?, scalarUnit c = false

theorem skipBlank_append (w : Blank) {c : UInt16} {rest : Text} (hc : isBlank c = false) :
    skipBlank (w.1 ++ c :: rest) = c :: rest := by
  unfold skipBlank
  rw [List.dropWhile_append_of_pos (List.all_eq_true.mp w.2), List.dropWhile_cons_of_neg]
  simp [hc]

theorem ends_append (w : Blank) {c : UInt16} {rest : Text} (hc : scalarUnit c = false) :
    Ends (w.1 ++ c :: rest) := by
  intro d hd
  cases hw : w.1 with
  | nil =>
      rw [hw] at hd
      obtain rfl := Option.some.inj hd
      exact hc
  | cons e es =>
      rw [hw] at hd
      obtain rfl := Option.some.inj hd
      have hblank := List.all_eq_true.mp w.2 e (by rw [hw]; exact List.mem_cons_self)
      simp [scalarUnit, hblank]

theorem Scalar.exists_cons (t : Scalar) : ∃ c rest, t.1 = c :: rest ∧ ∀ d ∈ t.1, scalarUnit d = true := by
  have h := t.2
  unfold isScalar at h
  rw [Bool.and_eq_true, Bool.and_eq_true] at h
  obtain ⟨⟨hall, hne⟩, -⟩ := h
  have hfilled : t.1 ≠ [] := by
    intro hnil
    rw [hnil] at hne
    cases hne
  obtain ⟨c, rest, hcons⟩ := List.exists_cons_of_ne_nil hfilled
  exact ⟨c, rest, hcons, List.all_eq_true.mp hall⟩

theorem ne_of_scalarUnit {c d : UInt16} (hc : scalarUnit c = true) (hd : scalarUnit d = false) :
    c ≠ d := by
  rintro rfl
  rw [hc] at hd
  cases hd

theorem isBlank_of_scalarUnit {c : UInt16} (hc : scalarUnit c = true) : isBlank c = false := by
  unfold scalarUnit at hc
  rw [Bool.and_eq_true] at hc
  simpa using hc.1

/-- A value begins with something other than a blank or a closing bracket. -/
theorem Tree.exists_cons (t : Tree) :
    ∃ c rest, t.text = c :: rest ∧ isBlank c = false ∧ c ≠ unit ']' := by
  cases t with
  | scalar t =>
      obtain ⟨c, rest, hcons, hall⟩ := t.exists_cons
      have hc := hall c (by rw [hcons]; exact List.mem_cons_self)
      exact ⟨c, rest, hcons, isBlank_of_scalarUnit hc, ne_of_scalarUnit hc (by decide)⟩
  | string raw => exact ⟨_, _, rfl, by decide, by decide⟩
  | emptyArray inside => exact ⟨_, _, rfl, by decide, by decide⟩
  | array items => exact ⟨_, _, rfl, by decide, by decide⟩
  | emptyObject inside => exact ⟨_, _, rfl, by decide, by decide⟩
  | object fields => exact ⟨_, _, rfl, by decide, by decide⟩

theorem Items.exists_cons (items : Items) :
    ∃ (w : Blank) (c : UInt16) (rest : Text), items.text = w.1 ++ c :: rest ∧ isBlank c = false ∧
      c ≠ unit ']' := by
  cases items with
  | last before t behind =>
      obtain ⟨c, rest, hcons, hc⟩ := t.exists_cons
      exact ⟨before, c, rest ++ behind.1, by rw [Items.text, hcons, List.cons_append], hc⟩
  | cons before t behind more =>
      obtain ⟨c, rest, hcons, hc⟩ := t.exists_cons
      exact ⟨before, c, _, by rw [Items.text, hcons, List.cons_append], hc⟩

theorem Key.exists_cons (key : Key) (more : Text) :
    ∃ rest, key.text ++ more = key.before.1 ++ unit '"' :: rest := by
  rw [Key.text, List.append_assoc]
  exact ⟨_, rfl⟩

theorem Fields.exists_cons (fields : Fields) :
    ∃ (w : Blank) (rest : Text), fields.text = w.1 ++ unit '"' :: rest := by
  cases fields with
  | last key before t behind => exact ⟨key.before, key.exists_cons _⟩
  | cons key before t behind more => exact ⟨key.before, key.exists_cons _⟩

theorem readKey_text (key : Key) (rest : Text) :
    readKey (key.text ++ rest) = some (key.raw.1, rest) := by
  have htext : key.text ++ rest = key.before.1 ++ unit '"' ::
      (key.raw.1 ++ unit '"' :: (key.behind.1 ++ unit ':' :: rest)) := by
    simp [Key.text, quoted]
  unfold readKey
  rw [htext, skipBlank_append key.before (by decide)]
  dsimp only
  rw [if_pos rfl, closeString_body key.raw.2]
  dsimp only
  rw [skipBlank_append key.behind (by decide)]
  exact if_pos rfl

theorem Tree.size_pos (t : Tree) : 0 < t.size := by
  cases t <;> simp [Tree.size]

mutual

theorem readValue_tree (t : Tree) {fuel : ℕ} (hfuel : t.size ≤ fuel) (before : Blank) {rest : Text}
    (hrest : Ends rest) : readValue fuel (before.1 ++ (t.text ++ rest)) = some (t.value, rest) := by
  obtain ⟨fuel, rfl⟩ : ∃ n, fuel = n + 1 := Nat.exists_eq_add_one.mpr (t.size_pos.trans_le hfuel)
  cases t with
  | scalar t =>
      obtain ⟨c, cs, hcons, hall⟩ := t.exists_cons
      have hc := hall c (by rw [hcons]; exact List.mem_cons_self)
      have htake : (t.1 ++ rest).takeWhile scalarUnit = t.1 := by
        rw [List.takeWhile_append_of_pos hall]
        cases rest with
        | nil => exact List.append_nil _
        | cons d rest => rw [List.takeWhile_cons_of_neg (by simp [hrest d rfl]), List.append_nil]
      have hdrop : (t.1 ++ rest).dropWhile scalarUnit = rest := by
        rw [List.dropWhile_append_of_pos hall]
        cases rest with
        | nil => rfl
        | cons d rest => rw [List.dropWhile_cons_of_neg (by simp [hrest d rfl])]
      have hscalar := t.2
      rw [Tree.text, Tree.value, readValue]
      rw [hcons] at htake hdrop hscalar ⊢
      rw [List.cons_append] at htake hdrop ⊢
      rw [skipBlank_append before (isBlank_of_scalarUnit hc)]
      dsimp only
      rw [if_neg (ne_of_scalarUnit hc (by decide)), if_neg (ne_of_scalarUnit hc (by decide)),
        if_neg (ne_of_scalarUnit hc (by decide)), htake, hdrop, if_pos hscalar]
  | string raw =>
      rw [Tree.text, Tree.value, quoted, List.cons_append, List.append_assoc, readValue,
        skipBlank_append before (by decide)]
      dsimp only
      rw [if_neg (by decide), if_neg (by decide), if_pos rfl, List.singleton_append,
        closeString_body raw.2]
      rfl
  | emptyArray inside =>
      rw [Tree.text, Tree.value, List.cons_append, List.append_assoc, readValue,
        skipBlank_append before (by decide)]
      dsimp only
      rw [if_neg (by decide), if_pos rfl, List.singleton_append,
        skipBlank_append inside (by decide)]
      exact if_pos rfl
  | array items =>
      rw [Tree.size] at hfuel
      obtain ⟨w, c, cs, hcons, hblank, hc⟩ := items.exists_cons
      have hopen : (skipBlank (items.text ++ unit ']' :: rest)).head? ≠ some (unit ']') := by
        rw [hcons, List.append_assoc, List.cons_append, skipBlank_append w hblank]
        exact fun heq ↦ hc (Option.some.inj heq)
      rw [Tree.text, Tree.value, List.cons_append, List.append_assoc, readValue,
        skipBlank_append before (by decide)]
      dsimp only
      rw [if_neg (by decide), if_pos rfl, List.singleton_append, if_neg hopen,
        readItems_items items (Nat.le_of_succ_le_succ hfuel)]
      rfl
  | emptyObject inside =>
      rw [Tree.text, Tree.value, List.cons_append, List.append_assoc, readValue,
        skipBlank_append before (by decide)]
      dsimp only
      rw [if_pos rfl, List.singleton_append, skipBlank_append inside (by decide)]
      exact if_pos rfl
  | object fields =>
      rw [Tree.size] at hfuel
      obtain ⟨w, cs, hcons⟩ := fields.exists_cons
      have hopen : (skipBlank (fields.text ++ unit '}' :: rest)).head? ≠ some (unit '}') := by
        rw [hcons, List.append_assoc, List.cons_append, skipBlank_append w (by decide)]
        exact fun heq ↦ absurd (Option.some.inj heq) (by decide)
      rw [Tree.text, Tree.value, List.cons_append, List.append_assoc, readValue,
        skipBlank_append before (by decide)]
      dsimp only
      rw [if_pos rfl, List.singleton_append, if_neg hopen,
        readFields_fields fields (Nat.le_of_succ_le_succ hfuel)]
      rfl

theorem readItems_items (items : Items) {fuel : ℕ} (hfuel : items.size ≤ fuel) {rest : Text} :
    readItems fuel (items.text ++ unit ']' :: rest) = some (items.values, rest) := by
  cases items with
  | last before t behind =>
      rw [Items.size] at hfuel
      obtain ⟨fuel, rfl⟩ : ∃ n, fuel = n + 1 :=
        Nat.exists_eq_add_one.mpr (Nat.zero_lt_of_lt hfuel)
      rw [Items.text, Items.values, List.append_assoc, List.append_assoc, readItems,
        readValue_tree t (Nat.le_of_succ_le_succ hfuel) before (ends_append behind (by decide))]
      dsimp only
      rw [skipBlank_append behind (by decide)]
      exact if_pos rfl
  | cons before t behind more =>
      rw [Items.size] at hfuel
      obtain ⟨fuel, rfl⟩ : ∃ n, fuel = n + 1 :=
        Nat.exists_eq_add_one.mpr (Nat.zero_lt_of_lt hfuel)
      rw [Items.text, Items.values, List.append_assoc, List.append_assoc, List.append_assoc,
        List.cons_append, readItems,
        readValue_tree t (by omega) before (ends_append behind (by decide))]
      dsimp only
      rw [skipBlank_append behind (by decide)]
      dsimp only
      rw [if_neg (by decide), if_pos rfl, readItems_items more (by omega)]
      rfl

theorem readFields_fields (fields : Fields) {fuel : ℕ} (hfuel : fields.size ≤ fuel) {rest : Text} :
    readFields fuel (fields.text ++ unit '}' :: rest) = some (fields.values, rest) := by
  cases fields with
  | last key before t behind =>
      rw [Fields.size] at hfuel
      obtain ⟨fuel, rfl⟩ : ∃ n, fuel = n + 1 :=
        Nat.exists_eq_add_one.mpr (Nat.zero_lt_of_lt hfuel)
      rw [Fields.text, Fields.values, List.append_assoc, List.append_assoc, List.append_assoc,
        readFields, readKey_text]
      dsimp only
      rw [readValue_tree t (Nat.le_of_succ_le_succ hfuel) before (ends_append behind (by decide))]
      dsimp only
      rw [skipBlank_append behind (by decide)]
      exact if_pos rfl
  | cons key before t behind more =>
      rw [Fields.size] at hfuel
      obtain ⟨fuel, rfl⟩ : ∃ n, fuel = n + 1 :=
        Nat.exists_eq_add_one.mpr (Nat.zero_lt_of_lt hfuel)
      rw [Fields.text, Fields.values, List.append_assoc, List.append_assoc, List.append_assoc,
        List.append_assoc, List.cons_append, readFields, readKey_text]
      dsimp only
      rw [readValue_tree t (by omega) before (ends_append behind (by decide))]
      dsimp only
      rw [skipBlank_append behind (by decide)]
      dsimp only
      rw [if_neg (by decide), if_pos rfl, readFields_fields more (by omega)]
      rfl

end

/-! ### A text is fuel enough for reading it -/

mutual

theorem Tree.size_le (t : Tree) : t.size ≤ t.text.length := by
  cases t with
  | scalar t =>
      obtain ⟨c, cs, hcons, -⟩ := t.exists_cons
      simp [Tree.size, Tree.text, hcons]
  | string raw => simp [Tree.size, Tree.text, quoted]
  | emptyArray inside => simp [Tree.size, Tree.text]
  | array items =>
      have h := items.size_le
      simp only [Tree.size, Tree.text, List.length_cons, List.length_append, List.length_nil]
      omega
  | emptyObject inside => simp [Tree.size, Tree.text]
  | object fields =>
      have h := fields.size_le
      simp only [Tree.size, Tree.text, List.length_cons, List.length_append, List.length_nil]
      omega

theorem Items.size_le (items : Items) : items.size ≤ items.text.length + 1 := by
  cases items with
  | last before t behind =>
      have h := t.size_le
      simp only [Items.size, Items.text, List.length_append]
      omega
  | cons before t behind rest =>
      have h := t.size_le
      have hrest := rest.size_le
      simp only [Items.size, Items.text, List.length_append, List.length_cons]
      omega

theorem Fields.size_le (fields : Fields) : fields.size ≤ fields.text.length + 1 := by
  cases fields with
  | last key before t behind =>
      have h := t.size_le
      simp only [Fields.size, Fields.text, List.length_append]
      omega
  | cons key before t behind rest =>
      have h := t.size_le
      have hrest := rest.size_le
      simp only [Fields.size, Fields.text, List.length_append, List.length_cons]
      omega

end

theorem skipBlank_blank (w : Blank) : skipBlank w.1 = [] :=
  List.dropWhile_eq_nil_iff.mpr (List.all_eq_true.mp w.2)

theorem ends_blank (w : Blank) : Ends w.1 := by
  intro c hc
  have hblank := List.all_eq_true.mp w.2 c (List.mem_of_mem_head? hc)
  simp [scalarUnit, hblank]

/-- The text of a tree, with any blanks around it, is read as its value. -/
theorem parse_text (before : Blank) (t : Tree) (behind : Blank) :
    parse (before.1 ++ (t.text ++ behind.1)) = some t.value := by
  have hsize : t.size ≤ (before.1 ++ (t.text ++ behind.1)).length := by
    have h := t.size_le
    rw [List.length_append, List.length_append]
    omega
  unfold parse
  rw [readValue_tree t hsize before (ends_blank behind)]
  dsimp only
  rw [skipBlank_blank, if_pos rfl]

/-! ## What is read is the text of a tree -/

theorem exists_blank (t : Text) : ∃ w : Blank, t = w.1 ++ skipBlank t :=
  ⟨⟨t.takeWhile isBlank, List.all_eq_true.mpr fun _ hc ↦ List.mem_takeWhile_imp hc⟩,
    List.takeWhile_append_dropWhile.symm⟩

theorem of_readKey {t key rest : Text} (h : readKey t = some (key, rest)) :
    ∃ k : Key, t = k.text ++ rest ∧ k.raw.1 = key := by
  unfold readKey at h
  obtain ⟨before, ht⟩ := exists_blank t
  split at h
  · cases h
  · rename_i c inner hskip
    split at h
    · rename_i hc
      subst hc
      split at h
      · cases h
      · rename_i raw behind hclose
        obtain ⟨rfl, hbody⟩ := of_closeString hclose
        obtain ⟨w, hbehind⟩ := exists_blank behind
        split at h
        · cases h
        · rename_i d last hlast
          split at h
          · rename_i hd
            subst hd
            cases h
            refine ⟨⟨before, ⟨_, hbody⟩, w⟩, ?_, rfl⟩
            rw [hlast] at hbehind
            rw [ht, hskip, hbehind]
            simp [Key.text, quoted]
          · cases h
    · cases h

/-- What the readers accept with some fuel. -/
structure Reads (fuel : ℕ) : Prop where
  value : ∀ t v rest, readValue fuel t = some (v, rest) →
    ∃ (before : Blank) (tree : Tree), t = before.1 ++ (tree.text ++ rest) ∧ tree.value = v
  items : ∀ t vs rest, readItems fuel t = some (vs, rest) →
    ∃ items : Items, t = items.text ++ unit ']' :: rest ∧ items.values = vs
  fields : ∀ t vs rest, readFields fuel t = some (vs, rest) →
    ∃ fields : Fields, t = fields.text ++ unit '}' :: rest ∧ fields.values = vs

theorem exists_tail_of_head? {t : Text} {c : UInt16} (h : t.head? = some c) : t = c :: t.tail := by
  cases t with
  | nil => cases h
  | cons d t =>
      obtain rfl := Option.some.inj h
      rfl

theorem Reads.value_succ {fuel : ℕ} (h : Reads fuel) {t : Text} {v : Value} {rest : Text}
    (hread : readValue (fuel + 1) t = some (v, rest)) :
    ∃ (before : Blank) (tree : Tree), t = before.1 ++ (tree.text ++ rest) ∧ tree.value = v := by
  rw [readValue] at hread
  obtain ⟨before, ht⟩ := exists_blank t
  split at hread
  · cases hread
  · rename_i c inner hskip
    rw [hskip] at ht
    refine ⟨before, ?_⟩
    rw [ht]
    split at hread
    · rename_i hc
      subst hc
      obtain ⟨inside, hinner⟩ := exists_blank inner
      split at hread
      · rename_i hclose
        cases hread
        refine ⟨.emptyObject inside, ?_, rfl⟩
        rw [exists_tail_of_head? hclose] at hinner
        have htext := congrArg (unit '{' :: ·) hinner
        rw [htext]
        simp [Tree.text]
      · obtain ⟨r, hr, heq⟩ := Option.map_eq_some_iff.mp hread
        cases heq
        obtain ⟨fields, rfl, hvalues⟩ := h.fields inner r.1 r.2 hr
        refine ⟨.object fields, ?_, ?_⟩
        · simp [Tree.text]
        · rw [Tree.value, hvalues]
    · split at hread
      · rename_i hc
        subst hc
        obtain ⟨inside, hinner⟩ := exists_blank inner
        split at hread
        · rename_i hclose
          cases hread
          refine ⟨.emptyArray inside, ?_, rfl⟩
          rw [exists_tail_of_head? hclose] at hinner
          have htext := congrArg (unit '[' :: ·) hinner
          rw [htext]
          simp [Tree.text]
        · obtain ⟨r, hr, heq⟩ := Option.map_eq_some_iff.mp hread
          cases heq
          obtain ⟨items, rfl, hvalues⟩ := h.items inner r.1 r.2 hr
          refine ⟨.array items, ?_, ?_⟩
          · simp [Tree.text]
          · rw [Tree.value, hvalues]
      · split at hread
        · rename_i hc
          subst hc
          obtain ⟨r, hr, heq⟩ := Option.map_eq_some_iff.mp hread
          cases heq
          obtain ⟨rfl, hbody⟩ := of_closeString hr
          refine ⟨.string ⟨r.1, hbody⟩, ?_, rfl⟩
          simp [Tree.text, quoted]
        · split at hread
          · rename_i hscalar
            cases hread
            refine ⟨.scalar ⟨_, hscalar⟩, ?_, rfl⟩
            rw [Tree.text, List.takeWhile_append_dropWhile]
          · cases hread

theorem Reads.items_succ {fuel : ℕ} (h : Reads fuel) {t : Text} {vs : List Value} {rest : Text}
    (hread : readItems (fuel + 1) t = some (vs, rest)) :
    ∃ items : Items, t = items.text ++ unit ']' :: rest ∧ items.values = vs := by
  rw [readItems] at hread
  split at hread
  · cases hread
  · rename_i v more hvalue
    obtain ⟨before, tree, rfl, rfl⟩ := h.value t v more hvalue
    obtain ⟨behind, hmore⟩ := exists_blank more
    split at hread
    · cases hread
    · rename_i c last hlast
      rw [hlast] at hmore
      split at hread
      · rename_i hc
        subst hc
        cases hread
        refine ⟨.last before tree behind, ?_, rfl⟩
        rw [Items.text, hmore]
        simp
      · split at hread
        · rename_i hc
          subst hc
          obtain ⟨r, hr, heq⟩ := Option.map_eq_some_iff.mp hread
          cases heq
          obtain ⟨items, rfl, hvalues⟩ := h.items last r.1 r.2 hr
          refine ⟨.cons before tree behind items, ?_, ?_⟩
          · rw [Items.text, hmore]
            simp
          · rw [Items.values, hvalues]
        · cases hread

theorem Reads.fields_succ {fuel : ℕ} (h : Reads fuel) {t : Text} {vs : List (Text × Value)}
    {rest : Text} (hread : readFields (fuel + 1) t = some (vs, rest)) :
    ∃ fields : Fields, t = fields.text ++ unit '}' :: rest ∧ fields.values = vs := by
  rw [readFields] at hread
  split at hread
  · cases hread
  · rename_i key inner hkey
    obtain ⟨k, rfl, rfl⟩ := of_readKey hkey
    split at hread
    · cases hread
    · rename_i v more hvalue
      obtain ⟨before, tree, rfl, rfl⟩ := h.value inner v more hvalue
      obtain ⟨behind, hmore⟩ := exists_blank more
      split at hread
      · cases hread
      · rename_i c last hlast
        rw [hlast] at hmore
        split at hread
        · rename_i hc
          subst hc
          cases hread
          refine ⟨.last k before tree behind, ?_, rfl⟩
          rw [Fields.text, hmore]
          simp
        · split at hread
          · rename_i hc
            subst hc
            obtain ⟨r, hr, heq⟩ := Option.map_eq_some_iff.mp hread
            cases heq
            obtain ⟨fields, rfl, hvalues⟩ := h.fields last r.1 r.2 hr
            refine ⟨.cons k before tree behind fields, ?_, ?_⟩
            · rw [Fields.text, hmore]
              simp
            · rw [Fields.values, hvalues]
          · cases hread

theorem reads (fuel : ℕ) : Reads fuel := by
  induction fuel with
  | zero =>
      constructor
      · intro t v rest h
        cases h
      · intro t vs rest h
        cases h
      · intro t vs rest h
        cases h
  | succ fuel ih =>
      exact ⟨fun _ _ _ h ↦ ih.value_succ h, fun _ _ _ h ↦ ih.items_succ h,
        fun _ _ _ h ↦ ih.fields_succ h⟩

/-- A text that is read is the text of a tree, with blanks around it. -/
theorem of_parse {t : Text} {v : Value} (h : parse t = some v) :
    ∃ (before : Blank) (tree : Tree) (behind : Blank),
      t = before.1 ++ (tree.text ++ behind.1) ∧ tree.value = v := by
  unfold parse at h
  split at h
  · cases h
  · rename_i v' rest hread
    split at h
    · rename_i hend
      cases h
      obtain ⟨before, tree, ht, rfl⟩ := (reads _).value t v rest hread
      obtain ⟨behind, hrest⟩ := exists_blank rest
      rw [hend, List.append_nil] at hrest
      exact ⟨before, tree, behind, by rw [← hrest]; exact ht, rfl⟩
    · cases h

end Tesbo.Reasoning.JsonSyntax
