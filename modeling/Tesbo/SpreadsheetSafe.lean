import Tesbo.ImportedLines
import Tesbo.Reasoning.Quoting

/-!
# Exported tables

What is written into a CSV is kept from being read as a formula, by a quote in front of it, and the
importer takes that quote off again.
-/

namespace Tesbo.SpreadsheetSafe

open Reasoning ImportedLines

/-! ## `neutralizeFormula` -/

/-- `FORMULA_START`: a mark of a formula, behind any number of quotes. -/
def formulaStart (cs : List Char) : Bool :=
  (cs.dropWhile (· = quoteMark)).head?.any (· ∈ formulaMarks)

/-- What follows `[+-]?`. -/
def unsigned : List Char → List Char
  | [] => []
  | c :: cs => if c = '+' ∨ c = '-' then cs else c :: cs

/-- `(?:[eE][+-]?\d+)?$` -/
def exponent : List Char → Bool
  | [] => true
  | c :: cs => (c = 'e' || c = 'E') && unsigned cs ≠ [] && (unsigned cs).all Char.isDigit

/-- `PLAIN_NUMBER`: digits with an optional point among them, behind an optional sign. -/
def plainNumber (cs : List Char) : Bool :=
  match (unsigned cs).takeWhile Char.isDigit, (unsigned cs).dropWhile Char.isDigit with
  | [], '.' :: fraction =>
      fraction.head?.any Char.isDigit && exponent (fraction.dropWhile Char.isDigit)
  | [], _ => false
  | _ :: _, '.' :: fraction => exponent (fraction.dropWhile Char.isDigit)
  | _ :: _, rest => exponent rest

def neutralizeFormula (text : String) : String :=
  if formulaStart text.toList && !plainNumber text.toList
  then String.ofList (quoteMark :: text.toList) else text

/-! ## `rowsToCsv` -/

/-- A row, read by `row[header]`; `null` and `undefined` are none. -/
abbrev Row (Cell : Type) := String → Option Cell

/-- The marks of a CSV, where a field is quoted if it matches `/[",\r\n]/`. -/
def csv : Format Char where
  quote := doubleQuote
  separator := ','
  lineBreak := '\n'
  reserved c := c ∈ [doubleQuote, ',', '\r', '\n']
  quote_reserved := by decide
  separator_reserved := by decide
  break_reserved := by decide
  separator_ne_quote := by decide
  break_ne_quote := by decide
  break_ne_separator := by decide

section Write

variable {Cell : Type} [ToString Cell]

/-- `String(value ?? "")` -/
def cellText (value : Option Cell) : String := (value.map toString).getD ""

def csvEscape (value : Option Cell) : String :=
  let text := neutralizeFormula (cellText value)
  if text.toList.any (· ∈ [doubleQuote, ',', '\r', '\n']) then
    String.ofList (doubleQuote ::
      (text.toList.flatMap fun c ↦ if c = doubleQuote then [c, c] else [c]) ++ [doubleQuote])
  else text

def rowsToCsv (headers : List String) (rows : List (Row Cell)) : String :=
  String.intercalate "\n"
    (String.intercalate "," (headers.map fun header ↦ csvEscape (some header)) ::
      rows.map fun row ↦ String.intercalate "," (headers.map fun header ↦ csvEscape (row header)))

/-! ## The table in the file -/

/-- The neutralised values, record by record. -/
def table (headers : List String) (rows : List (Row Cell)) : List (List String) :=
  headers.map neutralizeFormula ::
    rows.map fun row ↦ headers.map fun header ↦ neutralizeFormula (cellText (row header))

end Write

/-- The fields of a text, without their quoting. -/
def readCsv (text : String) : Option (List (List String)) :=
  (csv.read .start text.toList).map fun records ↦ records.map fun fields ↦ fields.map String.ofList

/-- A spreadsheet takes the field for a number or for text. -/
def Harmless (field : String) : Prop :=
  plainNumber field.toList = true ∨ ∀ c ∈ field.toList.head?, c ∉ formulaMarks

/-- A line always has a field: a record of none is read as one of an empty field. -/
def asLine (fields : List String) : List String := if fields = [] then [""] else fields

def GivesBack {Cell : Type} [ToString Cell] (headers : List String) (rows : List (Row Cell)) :
    Prop :=
  readCsv (rowsToCsv headers rows) = some (table headers rows)

instance {Cell : Type} [ToString Cell] (headers : List String) (rows : List (Row Cell)) :
    Decidable (GivesBack headers rows) :=
  inferInstanceAs (Decidable (readCsv (rowsToCsv headers rows) = some (table headers rows)))

/-! ## One value -/

theorem neutralized_eq (cs : List Char) :
    neutralized cs = (cs.head? = some quoteMark && formulaStart cs) := rfl

theorem formulaStart_quote (cs : List Char) : formulaStart (quoteMark :: cs) = formulaStart cs := by
  unfold formulaStart
  rw [List.dropWhile_cons, if_pos (by simp)]

/-- A number has no quote in front of it. -/
theorem head?_of_plainNumber {cs : List Char} (h : plainNumber cs = true) :
    cs.head? ≠ some quoteMark := by
  intro hhead
  obtain ⟨rest, rfl⟩ : ∃ rest, cs = quoteMark :: rest := by
    cases cs with
    | nil => cases hhead
    | cons c rest => exact ⟨rest, by rw [Option.some.inj hhead]⟩
  have hunsigned : unsigned (quoteMark :: rest) = quoteMark :: rest := by
    rw [unsigned, if_neg (by decide)]
  have htake : (quoteMark :: rest).takeWhile Char.isDigit = [] := by
    rw [List.takeWhile_cons, if_neg (by decide)]
  have hdrop : (quoteMark :: rest).dropWhile Char.isDigit = quoteMark :: rest := by
    rw [List.dropWhile_cons, if_neg (by decide)]
  unfold plainNumber at h
  rw [hunsigned, htake, hdrop] at h
  split at h
  · rename_i hpoint
    exact absurd (List.cons.inj hpoint).1 (by decide)
  · cases h
  · rename_i hnil _
    cases hnil
  · rename_i hnil _
    cases hnil

theorem restoreNeutralized_neutralizeFormula (text : String) :
    restoreNeutralized (neutralizeFormula text) = text := by
  unfold neutralizeFormula
  split
  · rename_i h
    have hstart := (Bool.and_eq_true _ _ ▸ h).1
    have hneutralized : neutralized (quoteMark :: text.toList) = true := by
      rw [neutralized_eq, formulaStart_quote, hstart]
      simp
    unfold restoreNeutralized
    rw [String.toList_ofList, if_pos hneutralized]
    exact String.ofList_toList
  · rename_i h
    have hneutralized : neutralized text.toList ≠ true := by
      intro hneutralized
      rw [neutralized_eq, Bool.and_eq_true, decide_eq_true_eq] at hneutralized
      apply h
      rw [hneutralized.2]
      by_cases hnumber : plainNumber text.toList = true
      · exact absurd hneutralized.1 (head?_of_plainNumber hnumber)
      · simp [hnumber]
    unfold restoreNeutralized
    rw [if_neg hneutralized]

theorem neutralizeFormula_injective : Function.Injective neutralizeFormula :=
  Function.LeftInverse.injective restoreNeutralized_neutralizeFormula

theorem formulaStart_of_head {cs : List Char} {c : Char} (hhead : c ∈ cs.head?)
    (hc : c ∈ formulaMarks) : formulaStart cs = true := by
  have hne : c ≠ quoteMark := by
    rintro rfl
    exact absurd hc (by decide)
  cases cs with
  | nil => cases hhead
  | cons d cs =>
      cases Option.some.inj hhead
      unfold formulaStart
      rw [List.dropWhile_cons, if_neg (by simpa using hne)]
      simpa using hc

theorem harmless_neutralizeFormula (text : String) : Harmless (neutralizeFormula text) := by
  unfold neutralizeFormula
  split
  · -- the quote in front is no mark of a formula
    refine .inr fun c hc ↦ ?_
    rw [String.toList_ofList] at hc
    cases Option.some.inj hc
    decide
  · rename_i h
    by_cases hnumber : plainNumber text.toList = true
    · exact .inl hnumber
    · refine .inr fun c hc hmark ↦ h ?_
      rw [formulaStart_of_head hc hmark]
      simp [hnumber]

theorem harmless_empty : Harmless "" := .inr fun _ hc ↦ by cases hc

/-! ## The file -/

section File

variable {Cell : Type} [ToString Cell]

theorem toList_csvEscape (value : Option Cell) :
    (csvEscape value).toList = csv.escape (neutralizeFormula (cellText value)).toList := by
  unfold csvEscape Format.escape
  dsimp only
  split
  · rw [String.toList_ofList, if_pos (by assumption)]
    rfl
  · rw [if_neg (by assumption)]

theorem toList_line (values : List (Option Cell)) :
    (String.intercalate "," (values.map csvEscape)).toList =
      csv.line (values.map fun value ↦ (neutralizeFormula (cellText value)).toList) := by
  rw [String.toList_intercalate, List.map_map, Format.line, List.map_map]
  exact congrArg [csv.separator].intercalate
    (List.map_congr_left fun value _ ↦ toList_csvEscape value)

theorem toList_rowsToCsv (headers : List String) (rows : List (Row Cell)) :
    (rowsToCsv headers rows).toList =
      csv.write ((table headers rows).map fun fields ↦ fields.map String.toList) := by
  have hheaders : (String.intercalate "," (headers.map fun header ↦ csvEscape (some header))).toList
      = csv.line ((headers.map neutralizeFormula).map String.toList) := by
    have h := toList_line (headers.map some)
    rw [List.map_map, List.map_map] at h
    rw [List.map_map]
    exact h
  have hrow : ∀ row : Row Cell,
      (String.intercalate "," (headers.map fun header ↦ csvEscape (row header))).toList =
        csv.line ((headers.map fun header ↦ neutralizeFormula (cellText (row header))).map
          String.toList) := by
    intro row
    have h := toList_line (headers.map row)
    rw [List.map_map, List.map_map] at h
    rw [List.map_map]
    exact h
  unfold rowsToCsv table Format.write
  rw [String.toList_intercalate, List.map_cons, List.map_cons, List.map_cons, hheaders,
    List.map_map, List.map_map, List.map_map, List.map_map]
  exact congrArg (fun lines ↦ [csv.lineBreak].intercalate (_ :: lines))
    (List.map_congr_left fun row _ ↦ hrow row)

theorem map_asLine (fields : List String) :
    (Format.written (fields.map String.toList)).map String.ofList = asLine fields := by
  cases fields with
  | nil => rfl
  | cons field fields => simp [Format.written, asLine]

theorem readCsv_rowsToCsv (headers : List String) (rows : List (Row Cell)) :
    readCsv (rowsToCsv headers rows) = some ((table headers rows).map asLine) := by
  have hread : csv.read .start (rowsToCsv headers rows).toList = some
      (((table headers rows).map fun fields ↦ fields.map String.toList).map Format.written) := by
    rw [toList_rowsToCsv]
    exact Format.read_write _ _
  unfold readCsv
  rw [hread, Option.map_some, List.map_map, List.map_map]
  exact congrArg some (List.map_congr_left fun fields _ ↦ map_asLine fields)

theorem harmless_of_mem_table {headers : List String} {rows : List (Row Cell)}
    {fields : List String} (hfields : fields ∈ table headers rows) {field : String}
    (hfield : field ∈ asLine fields) : Harmless field := by
  unfold asLine at hfield
  split at hfield
  · rw [List.mem_singleton.mp hfield]
    exact harmless_empty
  · rcases List.mem_cons.mp hfields with rfl | hrow
    · obtain ⟨header, -, rfl⟩ := List.mem_map.mp hfield
      exact harmless_neutralizeFormula header
    · obtain ⟨row, -, rfl⟩ := List.mem_map.mp hrow
      obtain ⟨header, -, rfl⟩ := List.mem_map.mp hfield
      exact harmless_neutralizeFormula _

end File

/-- Neutralised values are restored and told apart, and the file gives them back line by line, none
of them a formula. -/
theorem neutralization_exact :
    (∀ text, restoreNeutralized (neutralizeFormula text) = text) ∧
    Function.Injective neutralizeFormula ∧
    ∀ (Cell : Type) [ToString Cell] (headers : List String) (rows : List (Row Cell)),
      readCsv (rowsToCsv headers rows) = some ((table headers rows).map asLine) ∧
      (headers ≠ [] → GivesBack headers rows) ∧
      ∀ records, readCsv (rowsToCsv headers rows) = some records →
        ∀ fields ∈ records, ∀ field ∈ fields, Harmless field := by
  refine ⟨restoreNeutralized_neutralizeFormula, neutralizeFormula_injective,
    fun Cell _ headers rows ↦ ⟨readCsv_rowsToCsv headers rows, fun hheaders ↦ ?_, ?_⟩⟩
  · unfold GivesBack
    rw [readCsv_rowsToCsv]
    congr 1
    refine (List.map_congr_left fun fields hfields ↦ ?_).trans (List.map_id _)
    refine if_neg fun hnil ↦ hheaders ?_
    rcases List.mem_cons.mp hfields with rfl | hrow
    · exact List.map_eq_nil_iff.mp hnil
    · obtain ⟨row, -, rfl⟩ := List.mem_map.mp hrow
      exact List.map_eq_nil_iff.mp hnil
  · intro records hrecords fields hmem field hfield
    rw [readCsv_rowsToCsv] at hrecords
    cases hrecords
    obtain ⟨record, hrecord, rfl⟩ := List.mem_map.mp hmem
    exact harmless_of_mem_table hrecord hfield

theorem givesBack_oneColumn : GivesBack ["Title"] [fun _ ↦ some "=SUM(1)"] :=
  (neutralization_exact.2.2 String ["Title"] [fun _ ↦ some "=SUM(1)"]).2.1 (by decide)

/-- A table without columns reads as one with a single empty column: their texts are the same. -/
theorem not_givesBack_noHeaders :
    ¬ GivesBack [] ([] : List (Row String)) ∧
      rowsToCsv [] ([] : List (Row String)) = rowsToCsv [""] ([] : List (Row String)) := by
  decide +kernel

end Tesbo.SpreadsheetSafe
