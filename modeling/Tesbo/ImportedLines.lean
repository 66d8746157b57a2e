import Tesbo.ImportTestCases

/-!
# The row numbers of an import

A worksheet is read line by line, blank lines are dropped, and what is left below the header is
numbered; the result of the import names its errors by these numbers, and the error report goes back
from a number to the cells of its row.
-/

namespace Tesbo.ImportedLines

open Reasoning Service

/-- The cells of a line, as texts. -/
abbrev Cells := List String

/-- A worksheet: its lines, each as wide as the sheet. -/
structure Worksheet where
  width : ℕ
  lines : List Cells
  length_eq : ∀ line ∈ lines, line.length = width

/-! ## `parseWorkbook` -/

def quoteMark : Char := Char.ofNat 39

def doubleQuote : Char := Char.ofNat 34

/-- The marks of a formula: `=`, `+`, `-`, `@`, tab and carriage return. -/
def formulaMarks : List Char := ['=', '+', '-', '@', '\t', '\r']

/-- One or more quotes in front of a mark. -/
def neutralized (cs : List Char) : Bool :=
  cs.head? = some quoteMark && (cs.dropWhile (· = quoteMark)).head?.any (· ∈ formulaMarks)

def restoreNeutralized (text : String) : String :=
  if neutralized text.toList then String.ofList (text.toList.drop 1) else text

def readCell (isCsv : Bool) (cell : String) : String :=
  jsTrim (if isCsv then restoreNeutralized cell else cell)

/-- `row.some(Boolean)` -/
def hasCell (row : Cells) : Bool := row.any (· ≠ "")

/-- `sheet_to_json` without blank lines: the others, in order. -/
def sheetToJson (sheet : Worksheet) : List Cells := sheet.lines.filter hasCell

/-- Letters and numbers of any script, `\p{L}` and `\p{N}`. -/
class Letters extends Unicode where
  isLetterOrNumber : Char → Bool

structure ParsedSheet where
  headers : List String
  rows : List Cells
  headerRowIndex : ℕ

def ParsedSheet.totalRows (sheet : ParsedSheet) : ℕ := sheet.rows.length

section Parse

variable [Letters]

def normalizeHeader (value : String) : String :=
  String.ofList (((Unicode.toLowerCase value).toList.map fun c ↦ if c = 'ё' then 'е' else c).filter
    Letters.isLetterOrNumber)

def isHeader (row : Cells) : Bool :=
  row.any fun cell ↦
    normalizeHeader cell ∈ ["title", "testcasetitle", "testcase", "summary", "name"]

/-- The lines that are left, their cells read. -/
def readRows (isCsv : Bool) (sheet : Worksheet) : List Cells :=
  ((sheetToJson sheet).map fun row ↦ row.map (readCell isCsv)).filter hasCell

/-- The first row with a header, else the first row. -/
def effectiveHeaderIndex (rows : List Cells) : ℕ := (rows.findIdx? isHeader).getD 0

def parseSheet (isCsv : Bool) (sheet : Worksheet) : ParsedSheet :=
  let rows := readRows isCsv sheet
  let header := effectiveHeaderIndex rows
  { headers := (rows[header]?.getD []).mapIdx fun index cell ↦
      if cell = "" then s!"Column {index + 1}" else cell
    rows := (rows.drop (header + 1)).filter hasCell
    headerRowIndex := header }

end Parse

/-! ## `handleImport` -/

/-- The number a data row is given. -/
def rowNumber (sheet : ParsedSheet) (index : ℕ) : ℤ := sheet.headerRowIndex + index + 2

/-- What the mapping of the columns makes of a row: an error found here, or a row of the request. -/
abbrev Conversion := Cells → Except String ImportRow

/-- The errors found here and the rows to be sent, each with the number of its row. -/
def numberRows (convert : Conversion) (sheet : ParsedSheet) : List (ℤ × String) × List ImportRow :=
  let outcomes := sheet.rows.mapIdx fun index row ↦ (rowNumber sheet index, convert row)
  (outcomes.filterMap fun
      | (number, .error message) => some (number, message)
      | (_, .ok _) => none,
    outcomes.filterMap fun
      | (number, .ok row) => some { row with rowNumber := some number }
      | (_, .error _) => none)

/-- The answer of the server; nothing is sent where no row is left. -/
def sendRows [Unicode] (userId : Option Uuid) (projectId : IdText) (defaultSuiteId : Arg IdText)
    (rows : List ImportRow) : Handler ImportResult :=
  if rows = [] then pure ⟨0, 0, [], []⟩
  else importTestCases userId projectId ⟨rows, defaultSuiteId, .undefined⟩

/-- The result of an import, with the errors in the order of their rows. -/
def handleImport [Unicode] (userId : Option Uuid) (projectId : IdText)
    (defaultSuiteId : Arg IdText) (convert : Conversion) (sheet : ParsedSheet) :
    Handler ImportResult := do
  let (localErrors, rows) := numberRows convert sheet
  let server ← sendRows userId projectId defaultSuiteId rows
  pure ⟨server.imported, sheet.totalRows,
    (localErrors ++ server.errors).mergeSort fun a b ↦ a.1 ≤ b.1, server.expandSuiteIds⟩

/-! ## `downloadErrorReport` -/

/-- A cell between quotes, its own doubled. -/
def escapeCsvCell (value : String) : String :=
  String.ofList (doubleQuote :: (value.toList.flatMap fun c ↦
    if c = doubleQuote then [doubleQuote, doubleQuote] else [c]) ++ [doubleQuote])

def csvLine (cells : List String) : String := String.intercalate "," (cells.map escapeCsvCell)

/-- The row with a number; `[]` where there is none. -/
def originalRow (sheet : ParsedSheet) (number : ℤ) : Cells :=
  let index := number - sheet.headerRowIndex - 2
  if 0 ≤ index then sheet.rows[index.toNat]?.getD [] else []

/-- The line for an error: the row's cells under the file's headers, and the message. -/
def reportLine (sheet : ParsedSheet) (error : ℤ × String) : String :=
  csvLine ((sheet.headers.mapIdx fun index _ ↦ (originalRow sheet error.1)[index]?.getD "") ++
    [error.2])

def errorReport (sheet : ParsedSheet) (errors : List (ℤ × String)) : String :=
  String.intercalate "\r\n" (csvLine (sheet.headers ++ ["Import Error"]) ::
    errors.map (reportLine sheet))

/-! ## What a row number should be -/

/-- The line is kept by the reader, and again once its cells are read. -/
def isLeft (isCsv : Bool) (line : Cells) : Bool :=
  hasCell line && hasCell (line.map (readCell isCsv))

/-- The lines that are left from a line on, each with its place in the sheet. -/
def keptFrom (isCsv : Bool) : ℕ → List Cells → List (Cells × ℕ)
  | _, [] => []
  | place, line :: lines =>
      if isLeft isCsv line
      then (line.map (readCell isCsv), place) :: keptFrom isCsv (place + 1) lines
      else keptFrom isCsv (place + 1) lines

/-- The `index`-th data row, and its line in the user's spreadsheet; lines are counted from 1. -/
def DataRow [Letters] (isCsv : Bool) (sheet : Worksheet) (index : ℕ) (row : Cells) (line : ℕ) :
    Prop :=
  (keptFrom isCsv 1 sheet.lines)[(parseSheet isCsv sheet).headerRowIndex + 1 + index]? =
    some (row, line)

/-- Nothing is left of the line once its cells are read. -/
def BlankLine (isCsv : Bool) (line : Cells) : Prop := ∀ cell ∈ line, readCell isCsv cell = ""

/-- Each data row is numbered by its line, each error of an import is shown with the line of a data
row, of the row it is about where it was found here, and the report has that row's cells. -/
def NumbersLines [Letters] (isCsv : Bool) (sheet : Worksheet) : Prop :=
  let parsed := parseSheet isCsv sheet
  (∀ index row line, DataRow isCsv sheet index row line →
    parsed.rows[index]? = some row ∧ rowNumber parsed index = line) ∧
  ∀ userId projectId defaultSuiteId convert db,
    onAnswer (handleImport userId projectId defaultSuiteId convert parsed) (fun result _ ↦
      ∀ error ∈ result.errors, ∃ index row line, DataRow isCsv sheet index row line ∧
        error.1 = line ∧ (∀ message, convert row = .error message → error.2 = message) ∧
        reportLine parsed error = csvLine (row ++ [error.2])) db

/-- No blank line stands above a data row. -/
def Compact [Letters] (isCsv : Bool) (sheet : Worksheet) : Prop :=
  ∀ index row line, DataRow isCsv sheet index row line →
    ∀ above ∈ sheet.lines.take (line - 1), ¬ BlankLine isCsv above

/-! ## Places among the lines that are left -/

section Places

variable {isCsv : Bool}

@[simp] theorem readCell_empty : readCell isCsv "" = "" := by
  cases isCsv <;> decide

theorem hasCell_iff {row : Cells} : hasCell row = true ↔ ∃ cell ∈ row, cell ≠ "" := by
  simp [hasCell]

theorem isLeft_iff {line : Cells} : isLeft isCsv line = true ↔ ¬ BlankLine isCsv line := by
  rw [isLeft, Bool.and_eq_true, hasCell_iff, hasCell_iff]
  constructor
  · rintro ⟨_, read, hread, hne⟩ h
    obtain ⟨cell, hcell, rfl⟩ := List.mem_map.mp hread
    exact hne (h cell hcell)
  · intro h
    simp only [BlankLine, not_forall] at h
    obtain ⟨cell, hcell, hne⟩ := h
    refine ⟨⟨cell, hcell, ?_⟩, readCell isCsv cell, List.mem_map_of_mem hcell, hne⟩
    rintro rfl
    exact hne readCell_empty

/-- A line that is left is read from the line at its place, and comes after as many lines that are
left as its index says. -/
theorem kept_at {lines : List Cells} {start m : ℕ} {row : Cells} {place : ℕ}
    (h : (keptFrom isCsv start lines)[m]? = some (row, place)) :
    ∃ i line, place = start + i ∧ lines[i]? = some line ∧ row = line.map (readCell isCsv) ∧
      (lines.take i).countP (isLeft isCsv) = m := by
  induction lines generalizing start m with
  | nil => simp [keptFrom] at h
  | cons line lines ih =>
      rw [keptFrom] at h
      split at h
      · rename_i hkept
        cases m with
        | zero =>
            obtain ⟨rfl, rfl⟩ := Prod.mk.inj (Option.some.inj h)
            exact ⟨0, line, rfl, rfl, rfl, rfl⟩
        | succ m =>
            obtain ⟨i, l, rfl, hl, hrow, hcount⟩ := ih h
            refine ⟨i + 1, l, by omega, hl, hrow, ?_⟩
            rw [List.take_succ_cons, List.countP_cons_of_pos hkept, hcount]
      · rename_i hblank
        obtain ⟨i, l, rfl, hl, hrow, hcount⟩ := ih h
        refine ⟨i + 1, l, by omega, hl, hrow, ?_⟩
        rw [List.take_succ_cons, List.countP_cons_of_neg hblank, hcount]

theorem map_keptFrom (start : ℕ) (lines : List Cells) :
    (keptFrom isCsv start lines).map Prod.fst =
      (((lines.filter hasCell).map fun row ↦ row.map (readCell isCsv)).filter hasCell) := by
  induction lines generalizing start with
  | nil => rfl
  | cons line lines ih =>
      rw [keptFrom, isLeft]
      cases hline : hasCell line with
      | false =>
          rw [List.filter_cons_of_neg (by simp [hline]), Bool.false_and, if_neg (by simp)]
          exact ih (start + 1)
      | true =>
          rw [List.filter_cons_of_pos hline, List.map_cons, Bool.true_and]
          cases hrow : hasCell (line.map (readCell isCsv)) with
          | false =>
              rw [List.filter_cons_of_neg (by simp [hrow]), if_neg (by simp)]
              exact ih (start + 1)
          | true =>
              rw [List.filter_cons_of_pos hrow, if_pos rfl, List.map_cons, ih (start + 1)]

theorem length_of_kept {lines : List Cells} {start width : ℕ}
    (hwidth : ∀ line ∈ lines, line.length = width) {kept : Cells × ℕ}
    (h : kept ∈ keptFrom isCsv start lines) : kept.1.length = width := by
  obtain ⟨m, hm⟩ := List.mem_iff_getElem?.mp h
  obtain ⟨row, place⟩ := kept
  obtain ⟨i, line, _, hline, hrow, _⟩ := kept_at hm
  show row.length = width
  rw [hrow, List.length_map]
  exact hwidth line (List.mem_of_getElem? hline)

end Places

/-! ## The data rows of a sheet -/

section Sheet

variable [Letters] {isCsv : Bool} {sheet : Worksheet}

omit [Letters] in
theorem readRows_eq : readRows isCsv sheet = (keptFrom isCsv 1 sheet.lines).map Prod.fst :=
  (map_keptFrom 1 sheet.lines).symm

/-- Every row that is left has a cell, so none is dropped below the header. -/
theorem rows_eq : (parseSheet isCsv sheet).rows =
    (readRows isCsv sheet).drop ((parseSheet isCsv sheet).headerRowIndex + 1) := by
  apply List.filter_eq_self.mpr
  intro row hrow
  exact List.of_mem_filter (List.mem_of_mem_drop hrow)

theorem row_of_dataRow {index line : ℕ} {row : Cells} (h : DataRow isCsv sheet index row line) :
    (parseSheet isCsv sheet).rows[index]? = some row := by
  rw [rows_eq, List.getElem?_drop, readRows_eq, List.getElem?_map, h]
  rfl

/-- Every row that is numbered is a data row. -/
theorem dataRow_of_row {index : ℕ} {row : Cells}
    (h : (parseSheet isCsv sheet).rows[index]? = some row) :
    ∃ line, DataRow isCsv sheet index row line := by
  rw [rows_eq, List.getElem?_drop, readRows_eq, List.getElem?_map] at h
  obtain ⟨⟨row', line⟩, hkept, rfl⟩ := Option.map_eq_some_iff.mp h
  exact ⟨line, hkept⟩

/-- The number of a data row is its line if and only if no line above it is blank. -/
theorem rowNumber_eq_iff {index line : ℕ} {row : Cells} (h : DataRow isCsv sheet index row line) :
    rowNumber (parseSheet isCsv sheet) index = line ↔
      ∀ above ∈ sheet.lines.take (line - 1), ¬ BlankLine isCsv above := by
  obtain ⟨i, l, rfl, hl, _, hcount⟩ := kept_at h
  have hi : i < sheet.lines.length := (List.getElem?_eq_some_iff.mp hl).1
  have hlength : (sheet.lines.take i).length = i := List.length_take_of_le hi.le
  have hall : (sheet.lines.take i).countP (isLeft isCsv) = (sheet.lines.take i).length ↔
      ∀ above ∈ sheet.lines.take i, ¬ BlankLine isCsv above := by
    rw [List.countP_eq_length]
    simp only [isLeft_iff]
  rw [Nat.add_sub_cancel_left, ← hall, hcount, hlength, rowNumber]
  omega

omit [Letters] in
theorem length_of_mem_readRows {row : Cells} (h : row ∈ readRows isCsv sheet) :
    row.length = sheet.width := by
  rw [readRows_eq] at h
  obtain ⟨kept, hkept, rfl⟩ := List.mem_map.mp h
  exact length_of_kept sheet.length_eq hkept

/-- A sheet with a data row has as many headers as the row has cells. -/
theorem length_headers {index line : ℕ} {row : Cells} (h : DataRow isCsv sheet index row line) :
    (parseSheet isCsv sheet).headers.length = row.length := by
  have hrow := length_of_kept sheet.length_eq (List.mem_of_getElem? h)
  have hlt := (List.getElem?_eq_some_iff.mp h).1
  have hheader : (parseSheet isCsv sheet).headerRowIndex < (readRows isCsv sheet).length := by
    rw [readRows_eq, List.length_map]
    omega
  calc (parseSheet isCsv sheet).headers.length
      = ((readRows isCsv sheet)[(parseSheet isCsv sheet).headerRowIndex]?.getD []).length :=
        List.length_mapIdx
    _ = sheet.width := by
        rw [List.getElem?_eq_getElem hheader, Option.getD_some]
        exact length_of_mem_readRows (List.getElem_mem hheader)
    _ = row.length := hrow.symm

/-- The report finds the row of a number again. -/
theorem originalRow_rowNumber {index : ℕ} {row : Cells}
    (h : (parseSheet isCsv sheet).rows[index]? = some row) :
    originalRow (parseSheet isCsv sheet) (rowNumber (parseSheet isCsv sheet) index) = row := by
  have hindex : rowNumber (parseSheet isCsv sheet) index -
      (parseSheet isCsv sheet).headerRowIndex - 2 = (index : ℤ) := by
    rw [rowNumber]
    omega
  simp only [originalRow, hindex, Int.natCast_nonneg, if_true, Int.toNat_natCast, h,
    Option.getD_some]

/-- And writes all of its cells. -/
theorem reportLine_rowNumber {index line : ℕ} {row : Cells} (message : String)
    (h : DataRow isCsv sheet index row line) :
    reportLine (parseSheet isCsv sheet) (rowNumber (parseSheet isCsv sheet) index, message) =
      csvLine (row ++ [message]) := by
  have hcells : ((parseSheet isCsv sheet).headers.mapIdx fun i _ ↦ row[i]?.getD "") = row := by
    apply List.ext_getElem
    · rw [List.length_mapIdx, length_headers h]
    · intro i _ hi
      rw [List.getElem_mapIdx, List.getElem?_eq_getElem hi, Option.getD_some]
  rw [reportLine, originalRow_rowNumber (row_of_dataRow h), hcells]

end Sheet

/-! ## The numbers of an import's errors -/

section Server

variable [Unicode] {P : ℤ → Prop}

/-- The numbers of the errors so far. -/
def ErrorsIn (P : ℤ → Prop) (errors : List (ℤ × String)) : Prop := ∀ error ∈ errors, P error.1

omit [Unicode] in
theorem ErrorsIn.append {errors errors' : List (ℤ × String)} (h : ErrorsIn P errors)
    (h' : ErrorsIn P errors') : ErrorsIn P (errors ++ errors') := fun error he ↦
  (List.mem_append.mp he).elim (h error) (h' error)

/-- A row is refused or prepared under its own number. -/
theorem prepareImportRow_number (raw : ImportRow) (index : ℕ) (titles inFile : List String) :
    let prepared := prepareImportRow raw index titles inFile
    prepared.1 = raw.rowNumber.getD (index + 1) ∧
      ∀ row, prepared.2.1 = .ok row → row.rowNumber = raw.rowNumber.getD (index + 1) := by
  unfold prepareImportRow
  dsimp only
  split
  · exact ⟨rfl, nofun⟩
  · split
    · exact ⟨rfl, nofun⟩
    · split
      · exact ⟨rfl, nofun⟩
      · split
        · exact ⟨rfl, nofun⟩
        · split
          · exact ⟨rfl, nofun⟩
          · split
            · exact ⟨rfl, nofun⟩
            · refine ⟨rfl, fun row hrow ↦ ?_⟩
              cases hrow
              rfl

theorem prepareImportRows_numbers {rows : List ImportRow}
    (hrows : ∀ raw ∈ rows, ∃ n, raw.rowNumber = some n ∧ P n) (titles inFile : List String)
    (index : ℕ) :
    let prepared := prepareImportRows titles inFile index rows
    ErrorsIn P prepared.1 ∧ ∀ row ∈ prepared.2.1, P row.rowNumber := by
  induction rows generalizing inFile index with
  | nil => exact ⟨fun _ h ↦ absurd h List.not_mem_nil, fun _ h ↦ absurd h List.not_mem_nil⟩
  | cons raw rows ih =>
      obtain ⟨n, hn, hP⟩ := hrows raw List.mem_cons_self
      obtain ⟨hnumber, hprepared⟩ := prepareImportRow_number raw index titles inFile
      rw [hn, Option.getD_some] at hnumber hprepared
      unfold prepareImportRows
      generalize prepareImportRow raw index titles inFile = first at hnumber hprepared ⊢
      obtain ⟨number, outcome, inFile'⟩ := first
      have hrest := ih (fun raw h ↦ hrows raw (List.mem_cons_of_mem _ h)) inFile' (index + 1)
      dsimp only at hnumber hprepared hrest ⊢
      generalize prepareImportRows titles inFile' (index + 1) rows = others at hrest ⊢
      obtain ⟨errors, prepared, _⟩ := others
      cases outcome with
      | error message =>
          refine ⟨fun error he ↦ ?_, hrest.2⟩
          rcases List.mem_cons.mp he with rfl | he
          · exact hnumber ▸ hP
          · exact hrest.1 error he
      | ok first =>
          refine ⟨hrest.1, fun row hrow ↦ ?_⟩
          rcases List.mem_cons.mp hrow with rfl | hrow
          · rw [hprepared row rfl]
            exact hP
          · exact hrest.2 row hrow

/-- A replay reports the rows that fail under their numbers. -/
theorem insertImportRowsIndividually_errors (snapshot : Db) (ctx : ImportContext)
    {prepared : List PreparedImportRow} (hprepared : ∀ row ∈ prepared, P row.rowNumber)
    (nextNumber : ℕ) {st : ImportState} (hst : ErrorsIn P st.errors) (db : Db) :
    wp (insertImportRowsIndividually snapshot ctx prepared nextNumber st)
      (fun st' _ ↦ ErrorsIn P st'.errors) (fun _ _ ↦ True) db := by
  induction prepared generalizing nextNumber st db with
  | nil =>
      rw [insertImportRowsIndividually, wp_pure]
      exact hst
  | cons row prepared ih =>
      have hrest : ∀ row ∈ prepared, P row.rowNumber := fun r hr ↦
        hprepared r (List.mem_cons_of_mem _ hr)
      rw [insertImportRowsIndividually]
      apply wp_seq (wp_any _ db)
      intro outcome db' _
      cases outcome with
      | ok cache =>
          apply ih hrest (nextNumber + 1) _ db'
          exact hst
      | error e =>
          apply ih hrest nextNumber _ db'
          apply hst.append
          intro error he
          rw [List.mem_singleton.mp he]
          exact hprepared row List.mem_cons_self

theorem writeImportChunk_errors (snapshot : Db) (ctx : ImportContext)
    {prepared : List PreparedImportRow} (hprepared : ∀ row ∈ prepared, P row.rowNumber)
    {st : ImportState} (hst : ErrorsIn P st.errors) (db : Db) :
    wp (writeImportChunk snapshot ctx prepared st)
      (fun st' _ ↦ ErrorsIn P st'.errors) (fun _ _ ↦ True) db := by
  rw [writeImportChunk, wp_transaction]
  apply wp_seq (wp_any _ db)
  intro maxNumber db₁ _
  apply wp_seq (wp_any _ db₁)
  intro outcome db₂ _
  cases outcome with
  | ok answer =>
      rw [wp_pure]
      exact hst
  | error e => exact insertImportRowsIndividually_errors snapshot ctx hprepared _ hst db₂

theorem importChunkList_errors (ctx : ImportContext) (titles : List String)
    {chunks : List (ℕ × List ImportRow)}
    (hchunks : ∀ chunk ∈ chunks, ∀ raw ∈ chunk.2, ∃ n, raw.rowNumber = some n ∧ P n)
    {st : ImportState} (hst : ErrorsIn P st.errors) (db : Db) :
    wp (importChunkList ctx titles chunks st)
      (fun st' _ ↦ ErrorsIn P st'.errors) (fun _ _ ↦ True) db := by
  induction chunks generalizing st db with
  | nil =>
      rw [importChunkList, wp_pure]
      exact hst
  | cons chunk chunks ih =>
      obtain ⟨start, rows⟩ := chunk
      obtain ⟨herrors, hrows⟩ := prepareImportRows_numbers (hchunks _ List.mem_cons_self) titles
        st.titlesInFile start
      have hprepared : ErrorsIn P (prepareChunk titles start rows st).2.errors :=
        hst.append herrors
      have hchunk : wp (importChunk ctx titles start rows st)
          (fun st' _ ↦ ErrorsIn P st'.errors) (fun _ _ ↦ True) db := by
        show wp (if (prepareChunk titles start rows st).1 = [] then _ else _) _ _ db
        split
        · rw [wp_pure]
          exact hprepared
        · apply wp_query_seq
          exact writeImportChunk_errors _ ctx hrows hprepared db
      rw [importChunkList]
      apply wp_seq hchunk
      intro st' db' hst'
      exact ih (fun chunk h ↦ hchunks chunk (List.mem_cons_of_mem _ h)) hst' db'

/-- The errors of an import are those of rows it was sent. -/
theorem importTestCases_errors (userId : Option Uuid) (projectId : IdText) {body : ImportBody}
    (hrows : ∀ raw ∈ body.rows, ∃ n, raw.rowNumber = some n ∧ P n) (db : Db) :
    wp (importTestCases userId projectId body)
      (fun result _ ↦ ErrorsIn P result.errors) (fun _ _ ↦ True) db := by
  have hopen : wp (openImport userId projectId body)
      (fun opened _ ↦ opened.2.2.errors = []) (fun _ _ ↦ True) db := by
    unfold openImport
    apply wp_seq (wp_any _ db)
    intro uid db₁ _
    apply wp_seq (wp_any _ db₁)
    intro access db₂ _
    apply wp_seq (wp_any _ db₂)
    intro _ db₃ _
    apply wp_seq (wp_any _ db₃)
    intro _ db₄ _
    apply wp_seq (wp_any _ db₄)
    intro _ db₅ _
    apply wp_query_seq
    apply wp_query_seq
    rw [wp_pure]
  have hchunks : ∀ chunk ∈ importChunks body.rows, ∀ raw ∈ chunk.2,
      ∃ n, raw.rowNumber = some n ∧ P n := by
    intro chunk hchunk raw hraw
    obtain ⟨k, _, rfl⟩ := List.mem_map.mp hchunk
    exact hrows raw (List.mem_of_mem_drop (List.mem_of_mem_take hraw))
  unfold importTestCases
  apply wp_seq hopen
  rintro ⟨ctx, titles, st⟩ db₁ hst
  have hst : ErrorsIn P st.errors := fun error he ↦ absurd (hst ▸ he) List.not_mem_nil
  apply wp_seq (importChunkList_errors ctx titles hchunks hst db₁)
  intro st' db₂ hst'
  rw [wp_pure]
  exact fun error he ↦ hst' error ((List.mergeSort_perm _ _).mem_iff.mp he)

end Server

/-! ## An import of a sheet -/

section Import

variable [Letters] {isCsv : Bool} {sheet : Worksheet}

omit [Letters] in
/-- An error found here is that of a row, under the row's number. -/
theorem local_error {convert : Conversion} {parsed : ParsedSheet} {error : ℤ × String}
    (h : error ∈ (numberRows convert parsed).1) :
    ∃ index row, parsed.rows[index]? = some row ∧ error.1 = rowNumber parsed index ∧
      convert row = .error error.2 := by
  obtain ⟨⟨number, outcome⟩, hmem, herror⟩ := List.mem_filterMap.mp h
  obtain ⟨index, hlt, heq⟩ := List.mem_mapIdx.mp hmem
  obtain ⟨rfl, rfl⟩ := Prod.mk.inj heq
  refine ⟨index, parsed.rows[index], List.getElem?_eq_getElem hlt, ?_⟩
  cases hrow : convert parsed.rows[index] with
  | ok raw =>
      rw [hrow] at herror
      cases herror
  | error message =>
      rw [hrow] at herror
      cases herror
      exact ⟨rfl, rfl⟩

omit [Letters] in
/-- A row that is sent was found right here, and carries its number. -/
theorem sent_row {convert : Conversion} {parsed : ParsedSheet} {raw : ImportRow}
    (h : raw ∈ (numberRows convert parsed).2) :
    ∃ index row, parsed.rows[index]? = some row ∧
      raw.rowNumber = some (rowNumber parsed index) ∧ ∀ message, convert row ≠ .error message := by
  obtain ⟨⟨number, outcome⟩, hmem, hsent⟩ := List.mem_filterMap.mp h
  obtain ⟨index, hlt, heq⟩ := List.mem_mapIdx.mp hmem
  obtain ⟨rfl, rfl⟩ := Prod.mk.inj heq
  refine ⟨index, parsed.rows[index], List.getElem?_eq_getElem hlt, ?_⟩
  cases hrow : convert parsed.rows[index] with
  | ok row =>
      rw [hrow] at hsent
      cases hsent
      exact ⟨rfl, nofun⟩
  | error message =>
      rw [hrow] at hsent
      cases hsent

/-- Every error of an import has the number of a row, and the message found here for that row if one
was. -/
theorem handleImport_errors (userId : Option Uuid) (projectId : IdText)
    (defaultSuiteId : Arg IdText) (convert : Conversion) (parsed : ParsedSheet) (db : Db) :
    onAnswer (handleImport userId projectId defaultSuiteId convert parsed) (fun result _ ↦
      ∀ error ∈ result.errors, ∃ index row, parsed.rows[index]? = some row ∧
        error.1 = rowNumber parsed index ∧
          ∀ message, convert row = .error message → error.2 = message) db := by
  let P : ℤ → Prop := fun number ↦ ∃ index row, parsed.rows[index]? = some row ∧
    number = rowNumber parsed index ∧ ∀ message, convert row ≠ .error message
  have hsent : ∀ raw ∈ (numberRows convert parsed).2, ∃ n, raw.rowNumber = some n ∧ P n := by
    intro raw hraw
    obtain ⟨index, row, hrow, hnumber, hok⟩ := sent_row hraw
    exact ⟨_, hnumber, index, row, hrow, rfl, hok⟩
  rw [onAnswer_iff]
  have hserver : wp (sendRows userId projectId defaultSuiteId (numberRows convert parsed).2)
      (fun result _ ↦ ErrorsIn P result.errors) (fun _ _ ↦ True) db := by
    unfold sendRows
    split
    · rw [wp_pure]
      exact fun _ h ↦ absurd h List.not_mem_nil
    · exact importTestCases_errors userId projectId hsent db
  apply wp_seq hserver
  intro server db' hserver
  rw [wp_pure]
  intro error herror
  rcases List.mem_append.mp ((List.mergeSort_perm _ _).mem_iff.mp herror) with h | h
  · obtain ⟨index, row, hrow, hnumber, hmessage⟩ := local_error h
    refine ⟨index, row, hrow, hnumber, fun message hm ↦ ?_⟩
    rw [hmessage] at hm
    exact Except.error.inj hm
  · obtain ⟨index, row, hrow, hnumber, hok⟩ := hserver error h
    exact ⟨index, row, hrow, hnumber, fun message hm ↦ absurd hm (hok message)⟩

/-- The row numbers of an import point at the lines of the sheet if and only if no blank line stands
above a data row. -/
theorem numbersLines_iff (isCsv : Bool) (sheet : Worksheet) :
    NumbersLines isCsv sheet ↔ Compact isCsv sheet := by
  constructor
  · intro h index row line hdata
    exact (rowNumber_eq_iff hdata).mp (h.1 index row line hdata).2
  · intro hcompact
    refine ⟨fun index row line hdata ↦ ⟨row_of_dataRow hdata,
      (rowNumber_eq_iff hdata).mpr (hcompact index row line hdata)⟩, ?_⟩
    intro userId projectId defaultSuiteId convert db
    have herrors := onAnswer_iff.mp (handleImport_errors userId projectId defaultSuiteId convert
      (parseSheet isCsv sheet) db)
    rw [onAnswer_iff]
    apply wp_mono herrors
    · intro result _ h error he
      obtain ⟨index, row, hrow, hnumber, hmessage⟩ := h error he
      obtain ⟨line, hdata⟩ := dataRow_of_row hrow
      have hline := (rowNumber_eq_iff hdata).mpr (hcompact index row line hdata)
      refine ⟨index, row, line, hdata, hnumber.trans hline, hmessage, ?_⟩
      have hreport := reportLine_rowNumber error.2 hdata
      rw [← hnumber] at hreport
      exact hreport
    · exact fun _ _ h ↦ h

end Import

@[reducible] def asciiLetters : Letters where
  toUnicode := asciiCase
  isLetterOrNumber := Char.isAlphanum

/-- A title, a blank line and a test case. -/
def gap : Worksheet := ⟨1, [["Title"], [" "], ["Log in"]], by decide⟩

/-- The test case stands in line 3 and is numbered 2. -/
theorem not_numbersLines_gap : ¬ @NumbersLines asciiLetters false gap := by
  let := asciiLetters
  intro h
  have hdata : DataRow false gap 0 ["Log in"] 3 := by
    unfold DataRow
    decide
  have hnumber := (h.1 0 ["Log in"] 3 hdata).2
  exact absurd hnumber (by decide)

end Tesbo.ImportedLines
