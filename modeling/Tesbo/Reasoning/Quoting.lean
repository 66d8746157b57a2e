import Mathlib.Tactic

/-!
# Records of fields with quoting

A table is written with separators between the fields of a record and breaks between records.  A
field in which a reserved mark stands is written between quotes, with the quotes in it doubled.
-/

namespace Tesbo.Reasoning

/-- The marks of such a format; a field in which none of the reserved ones stands is written as it
is. -/
structure Format (α : Type) where
  quote : α
  separator : α
  lineBreak : α
  reserved : α → Bool
  quote_reserved : reserved quote = true
  separator_reserved : reserved separator = true
  break_reserved : reserved lineBreak = true
  separator_ne_quote : separator ≠ quote
  break_ne_quote : lineBreak ≠ quote
  break_ne_separator : lineBreak ≠ separator

namespace Format

variable {α : Type}

/-! ## Records -/

abbrev Records (α : Type) := List (List (List α))

/-- The text continues the first field, ends it, or ends its record. -/
def push (c : α) : Records α → Records α
  | (field :: fields) :: records => ((c :: field) :: fields) :: records
  | records => records

def endField : Records α → Records α
  | fields :: records => ([] :: fields) :: records
  | [] => []

def endRecord (records : Records α) : Records α := [[]] :: records

/-- A record of no fields is written as one of an empty field. -/
def written (record : List (List α)) : List (List α) := if record = [] then [[]] else record

/-- Text before the first field. -/
def before (field : List α) : Records α → Records α
  | (first :: fields) :: records => ((field ++ first) :: fields) :: records
  | records => records

theorem push_before (c : α) (field : List α) (records : Records α) :
    push c (before field records) = before (c :: field) records := by
  match records with
  | [] => rfl
  | [] :: _ => rfl
  | (_ :: _) :: _ => rfl

theorem before_nil (records : Records α) : before [] records = records := by
  match records with
  | [] => rfl
  | [] :: _ => rfl
  | (_ :: _) :: _ => rfl

theorem map_before_nil (records : Option (Records α)) : records.map (before []) = records := by
  cases records with
  | none => rfl
  | some records => exact congrArg some (before_nil records)

variable [DecidableEq α] (fmt : Format α)

/-! ## Writing -/

def doubled (field : List α) : List α :=
  field.flatMap fun c ↦ if c = fmt.quote then [c, c] else [c]

def escape (field : List α) : List α :=
  if field.any fmt.reserved then fmt.quote :: fmt.doubled field ++ [fmt.quote] else field

/-! ## Reading -/

/-- Where the reader stands: at the start of a field, in one without quotes, between the quotes of
one, or after a quote there. -/
inductive Place where
  | start | plain | quoted | closing
deriving DecidableEq, Repr

/-- The records of a text, if it is well formed: a quote stands only around a field or doubled in a
quoted one, a reserved mark only between quotes, and every quote is closed. -/
def read : Place → List α → Option (Records α)
  | .quoted, [] => none
  | _, [] => some [[[]]]
  | .quoted, c :: cs =>
      if c = fmt.quote then read .closing cs else (read .quoted cs).map (push c)
  | place, c :: cs =>
      if c = fmt.quote then
        match place with
        | .start => read .quoted cs
        | .closing => (read .quoted cs).map (push c)
        | _ => none
      else if c = fmt.separator then (read .start cs).map endField
      else if c = fmt.lineBreak then (read .start cs).map endRecord
      else if fmt.reserved c || place = .closing then none
      else (read .plain cs).map (push c)

/-! ## What was written is read -/

/-- The text ends, or goes on where a field ends. -/
inductive FieldEnds : List α → Prop
  | text : FieldEnds []
  | separator (cs : List α) : FieldEnds (fmt.separator :: cs)
  | lineBreak (cs : List α) : FieldEnds (fmt.lineBreak :: cs)

variable {fmt}

/-- Where a field ends nothing depends on how it was written. -/
theorem FieldEnds.read_eq {rest : List α} (h : fmt.FieldEnds rest) {place : Place}
    (hplace : place ≠ .quoted) : fmt.read place rest = fmt.read .start rest := by
  cases h with
  | text => cases place <;> first | rfl | exact absurd rfl hplace
  | separator cs =>
      cases place <;>
        first | exact absurd rfl hplace | simp [read, fmt.separator_ne_quote]
  | lineBreak cs =>
      cases place <;>
        first
          | exact absurd rfl hplace
          | simp [read, fmt.break_ne_quote, fmt.break_ne_separator]

omit [DecidableEq α] in
theorem ne_of_not_reserved {c d : α} (hc : fmt.reserved c = false)
    (hd : fmt.reserved d = true) : c ≠ d := by
  intro h
  rw [h, hd] at hc
  cases hc

/-- A character that is not reserved belongs to a field without quotes. -/
theorem read_unreserved {c : α} {place : Place} (hplace : place = .start ∨ place = .plain)
    (hc : fmt.reserved c = false) (rest : List α) :
    fmt.read place (c :: rest) = (fmt.read .plain rest).map (push c) := by
  have hquote := ne_of_not_reserved hc fmt.quote_reserved
  have hseparator := ne_of_not_reserved hc fmt.separator_reserved
  have hbreak := ne_of_not_reserved hc fmt.break_reserved
  rcases hplace with rfl | rfl <;>
    simp [read, hquote, hseparator, hbreak, hc]

theorem read_plain {field rest : List α} (hfield : ∀ c ∈ field, fmt.reserved c = false)
    (hrest : fmt.FieldEnds rest) {place : Place} (hplace : place = .start ∨ place = .plain) :
    fmt.read place (field ++ rest) = (fmt.read .start rest).map (before field) := by
  induction field generalizing place with
  | nil =>
      rw [List.nil_append, hrest.read_eq (by rcases hplace with rfl | rfl <;> simp)]
      exact (map_before_nil _).symm
  | cons c field ih =>
      rw [List.cons_append, read_unreserved hplace (hfield c List.mem_cons_self),
        ih (fun d hd ↦ hfield d (List.mem_cons_of_mem _ hd)) (.inr rfl), Option.map_map]
      exact congrArg (Option.map · _) (funext fun records ↦ push_before c field records)

/-- Up to the closing quote. -/
theorem read_doubled (field rest : List α) :
    fmt.read .quoted (fmt.doubled field ++ fmt.quote :: rest) =
      (fmt.read .closing rest).map (before field) := by
  induction field with
  | nil =>
      show fmt.read .quoted (fmt.quote :: rest) = _
      rw [read, if_pos rfl, map_before_nil]
  | cons c field ih =>
      have hpush : ((fmt.read .closing rest).map (before field)).map (push c) =
          (fmt.read .closing rest).map (before (c :: field)) := by
        rw [Option.map_map]
        exact congrArg (Option.map · _) (funext fun records ↦ push_before c field records)
      unfold doubled at ih ⊢
      rw [List.flatMap_cons]
      by_cases hc : c = fmt.quote
      · rw [if_pos hc, List.append_assoc, List.cons_append, List.cons_append, List.nil_append]
        rw [read, if_pos hc, read, if_pos hc, ih]
        exact hpush
      · rw [if_neg hc, List.append_assoc, List.cons_append, List.nil_append]
        rw [read, if_neg hc, ih]
        exact hpush

theorem read_escape (field : List α) {rest : List α} (hrest : fmt.FieldEnds rest) :
    fmt.read .start (fmt.escape field ++ rest) = (fmt.read .start rest).map (before field) := by
  unfold escape
  by_cases h : field.any fmt.reserved = true
  · rw [if_pos h, List.append_assoc, List.cons_append]
    show fmt.read .start (fmt.quote :: (fmt.doubled field ++ fmt.quote :: rest)) = _
    rw [read, if_pos rfl, read_doubled, hrest.read_eq (by simp)]
  · rw [if_neg h]
    refine read_plain (fun c hc ↦ ?_) hrest (.inl rfl)
    rw [List.any_eq_true] at h
    exact Bool.eq_false_iff.mpr fun hreserved ↦ h ⟨c, hc, hreserved⟩

/-! ## Tables -/

variable (fmt)

def line (record : List (List α)) : List α :=
  [fmt.separator].intercalate (record.map fmt.escape)

def write (records : Records α) : List α := [fmt.lineBreak].intercalate (records.map fmt.line)

/-- The records after the end of a line. -/
def following : List α → Option (Records α)
  | [] => some []
  | _ :: more => fmt.read .start more

variable {fmt}

theorem line_written (record : List (List α)) : fmt.line (written record) = fmt.line record := by
  cases record with
  | nil => simp [written, line, escape]
  | cons field fields => simp [written]

/-- At the end of a line the record has an empty field left. -/
theorem read_lineEnd {rest : List α} (hrest : rest = [] ∨ ∃ more, rest = fmt.lineBreak :: more) :
    fmt.read .start rest = (fmt.following rest).map ([[]] :: ·) := by
  rcases hrest with rfl | ⟨more, rfl⟩
  · rfl
  · rw [read, if_neg fmt.break_ne_quote, if_neg fmt.break_ne_separator, if_pos rfl]
    rfl

omit [DecidableEq α] in
theorem fieldEnds_of_lineEnd {rest : List α}
    (hrest : rest = [] ∨ ∃ more, rest = fmt.lineBreak :: more) : fmt.FieldEnds rest := by
  rcases hrest with rfl | ⟨more, rfl⟩
  · exact .text
  · exact .lineBreak more

theorem read_separator (rest : List α) :
    fmt.read .start (fmt.separator :: rest) = (fmt.read .start rest).map endField := by
  rw [read, if_neg fmt.separator_ne_quote, if_pos rfl]

theorem read_line (field : List α) (fields : List (List α)) {rest : List α}
    (hrest : rest = [] ∨ ∃ more, rest = fmt.lineBreak :: more) :
    fmt.read .start (fmt.line (field :: fields) ++ rest) =
      (fmt.following rest).map ((field :: fields) :: ·) := by
  induction fields generalizing field with
  | nil =>
      rw [show fmt.line [field] = fmt.escape field by simp [line],
        read_escape field (fieldEnds_of_lineEnd hrest), read_lineEnd hrest, Option.map_map]
      exact congrArg (Option.map · _) (funext fun records ↦ by simp [before])
  | cons next fields ih =>
      have hline : fmt.line (field :: next :: fields) ++ rest =
          fmt.escape field ++ fmt.separator :: (fmt.line (next :: fields) ++ rest) := by
        simp [line, List.intercalate_cons_cons]
      rw [hline, read_escape field (.separator _), read_separator, ih next, Option.map_map,
        Option.map_map]
      exact congrArg (Option.map · _) (funext fun records ↦ by simp [before, endField])

/-- A table of at least one record is read back. -/
theorem read_write (record : List (List α)) (records : Records α) :
    fmt.read .start (fmt.write (record :: records)) =
      some ((record :: records).map written) := by
  induction records generalizing record with
  | nil =>
      obtain ⟨field, fields, hwritten⟩ : ∃ field fields, written record = field :: fields := by
        cases record <;> simp [written]
      have hread := @read_line α _ fmt field fields [] (.inl rfl)
      rw [List.append_nil, ← hwritten, line_written] at hread
      rw [show fmt.write [record] = fmt.line record by simp [write], hread]
      rfl
  | cons next records ih =>
      obtain ⟨field, fields, hwritten⟩ : ∃ field fields, written record = field :: fields := by
        cases record <;> simp [written]
      have hread := @read_line α _ fmt field fields _ (.inr ⟨fmt.write (next :: records), rfl⟩)
      rw [← hwritten, line_written] at hread
      have hwrite : fmt.write (record :: next :: records) =
          fmt.line record ++ fmt.lineBreak :: fmt.write (next :: records) := by
        simp [write, List.intercalate_cons_cons]
      rw [hwrite, hread]
      show (fmt.read .start _).map _ = _
      rw [ih next]
      rfl

end Format

end Tesbo.Reasoning
