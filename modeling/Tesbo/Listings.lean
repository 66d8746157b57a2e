import Tesbo.TestCases

/-!
# What the two lists show

`listSuitesUncached` and `listTestCasesUncached` as functions of the database: the filters of a query,
the order, the page and the total, and which queries `isNoFilterTestcasesQuery` takes to have no filter.
-/

namespace Tesbo

open Reasoning

/-! ## What is listed -/

/-- What a test case's line shows that is not in `testcases` here: `source_refs`, and the joined
custom field values and custom tags. -/
structure Details where
  sourceRefs : List String
  customFieldValues : List (Uuid × String)
  customTags : List (Uuid × String)
deriving DecidableEq, Repr

def Details.blank : Details := ⟨[], [], []⟩

/-- The database, with the columns of a test case that only the lists read. -/
structure Data where
  db : Db
  details : Uuid → Details
  createdAt : Uuid → Time

/-- A test case with all its columns. -/
structure Entry where
  row : Testcase
  details : Details
  createdAt : Time

def Data.entries (d : Data) : List Entry :=
  d.db.testcases.rows.map fun t ↦ ⟨t, d.details t.id, d.createdAt t.id⟩

structure SuiteRow where
  id : Uuid
  parentId : Option Uuid
  name : String
  description : String
  preconditions : String
  position : ℤ
  testCaseCount : ℕ
  recursiveTestCaseCount : ℕ
deriving DecidableEq, Repr

structure PageRow where
  id : Uuid
  externalId : String
  text : List (TextColumn × Option String)
  suiteId : Option Uuid
  ownerId : Option Uuid
  updatedAt : Time
  details : Details
deriving DecidableEq, Repr

structure Page where
  rows : List PageRow
  total : ℕ
deriving DecidableEq, Repr

/-! ## Suites -/

def Testcase.archived (t : Testcase) : Bool := t.text .status = some "Archived"

/-- `countedTestcase` -/
def Testcase.counted (t : Testcase) : Bool := t.live && !t.archived

/-- How many counted test cases are filed in the suites. -/
def countFiled (suites : List Uuid) (db : Db) : ℕ :=
  (db.testcases.select fun t ↦ t.suiteId.any (· ∈ suites) && t.counted).length

/-- The order `position, name`. -/
def suiteOrder (a b : Suite) : Prop := a.position < b.position ∨ a.position = b.position ∧ a.name ≤ b.name

instance : DecidableRel suiteOrder := fun a b ↦
  inferInstanceAs (Decidable (a.position < b.position ∨ a.position = b.position ∧ a.name ≤ b.name))

def listSuitesUncached (projectId : Uuid) (d : Data) : List SuiteRow :=
  ((d.db.suites.select (Suite.liveIn projectId)).insertionSort suiteOrder).map fun s ↦ {
    id := s.id, parentId := s.parentId, name := s.name, description := s.description,
    preconditions := s.preconditions, position := s.position,
    testCaseCount := countFiled [s.id] d.db,
    recursiveTestCaseCount := countFiled (suiteSubtree projectId s.id d.db) d.db }

/-! ## The query of the test case list -/

/-- A parameter of a query string: left out, one text, repeated, or with names in brackets (as the
JSON the driver binds). -/
inductive Param where
  | absent
  | text (s : String)
  | many (parts : List String)
  | object (json : String)
deriving DecidableEq, Repr

namespace Param

/-- `!!x` -/
def truthy : Param → Bool
  | absent => false
  | text s => s ≠ ""
  | many _ | object _ => true

/-- `String(x ?? "")` -/
def string : Param → String
  | absent => ""
  | text s => s
  | many parts => ",".intercalate parts
  | object _ => "[object Object]"

def quoted (s : String) : String :=
  "\"" ++ String.ofList (s.toList.flatMap fun c ↦ if c = '\\' ∨ c = '"' then ['\\', c] else [c]) ++ "\""

/-- The text a statement gets for a parameter: the driver writes an array as a Postgres array. -/
def bound : Param → String
  | absent => ""
  | text s => s
  | many parts => "\x7b" ++ ",".intercalate (parts.map quoted) ++ "\x7d"
  | object json => json

end Param

/-- Equal to a word in lower case ASCII letters, whatever the case. -/
def isWord (word s : String) : Bool := s.toList.map Char.toLower = word.toList

/-- `limit` and `offset` as `Number` and `Math.trunc` read them, `none` when that is not finite. -/
structure TestcasesQuery where
  limit : Option ℤ
  offset : Option ℤ
  suiteId : Param
  includeDescendants : Param
  status : Param
  priority : Param
  type : Param
  automationStatus : Param
  jiraIssueKey : Param
  linearIssueKey : Param
  notionPageId : Param
  search : Param
  customFieldFilters : Param
  sortBy : Param
  sortDir : Param
  customTagIds : Param
  ids : Param
  includeArchived : Param

namespace TestcasesQuery

/-- The query without parameters. -/
def plain : TestcasesQuery where
  limit := none
  offset := none
  suiteId := .absent
  includeDescendants := .absent
  status := .absent
  priority := .absent
  type := .absent
  automationStatus := .absent
  jiraIssueKey := .absent
  linearIssueKey := .absent
  notionPageId := .absent
  search := .absent
  customFieldFilters := .absent
  sortBy := .absent
  sortDir := .absent
  customTagIds := .absent
  ids := .absent
  includeArchived := .absent

end TestcasesQuery

def pageNumber (value : Option ℤ) (fallback min max : ℤ) : ℤ := Min.min (Max.max (value.getD fallback) min) max

def maxSafeInteger : ℤ := 9007199254740991

def TestcasesQuery.pageLimit (query : TestcasesQuery) : ℕ := (pageNumber query.limit 100 0 500).toNat

def TestcasesQuery.pageOffset (query : TestcasesQuery) : ℕ :=
  (pageNumber query.offset 0 0 maxSafeInteger).toNat

/-- `split(",")` -/
def splitCommas (cs : List Char) : List (List Char) := cs.splitOn ','

def parseCommaSeparatedIdsParam (raw : Param) : List String :=
  let parts := match raw with
    | .absent => []
    | .text s => [s]
    | .many parts => parts
    | .object _ => ["[object Object]"]
  ((parts.flatMap fun p ↦ (splitCommas p.toList).map fun cs ↦ jsTrim (String.ofList cs)).filter
    (· ≠ "")).dedup

def isNoFilterTestcasesQuery (query : TestcasesQuery) : Bool :=
  !query.suiteId.truthy && !query.includeDescendants.truthy && !query.status.truthy &&
    !query.priority.truthy && !query.type.truthy && !query.automationStatus.truthy &&
    !query.jiraIssueKey.truthy && !query.linearIssueKey.truthy && !query.notionPageId.truthy &&
    !query.search.truthy && !query.customFieldFilters.truthy && !query.sortBy.truthy &&
    (parseCommaSeparatedIdsParam query.customTagIds).length = 0 &&
    (parseCommaSeparatedIdsParam query.ids).length = 0 &&
    !isWord "true" query.includeArchived.string

/-! ## Filters -/

/-- A condition of the `WHERE`. -/
abbrev Filter := Entry → Bool

/-- What is not read here: which uuid a text is, and the SQL the custom field filters become. -/
class QueryTexts where
  idText : String → IdText
  fieldFilter : Uuid → Param → Except Failure Filter

/-- `LIKE`, with its wildcards and its escape character. -/
def like : List Char → List Char → Bool
  | [], [] => true
  | [], _ :: _ => false
  | '%' :: pattern, [] => like pattern []
  | '%' :: pattern, c :: cs => like pattern (c :: cs) || like ('%' :: pattern) cs
  | '_' :: pattern, _ :: cs => like pattern cs
  | '\\' :: p :: pattern, c :: cs => p = c && like pattern cs
  | p :: pattern, c :: cs => p = c && like pattern cs
  | _ :: _, [] => false
termination_by pattern cs => pattern.length + cs.length

section Query

variable [Unicode] [QueryTexts]

/-- A filter that is only there when its parameter is. -/
def when (c : Bool) (filter : Filter) : List Filter := if c then [filter] else []

/-- `column = $n` -/
def columnFilter (column : TextColumn) (param : Param) : List Filter :=
  when param.truthy fun e ↦ e.row.text column = some param.bound

def searchFilter (search : Param) : List Filter :=
  let pattern := ("%" ++ Unicode.toLowerCase search.string ++ "%").toList
  when search.truthy fun e ↦
    like pattern (Unicode.lower ((e.row.text .title).getD "")).toList ||
      like pattern (Unicode.lower ((e.row.text .description).getD "")).toList ||
      like pattern (Unicode.lower e.row.externalId).toList ||
      like pattern (Unicode.lower ((e.row.text .type).getD "")).toList

/-- `$n::uuid[]`, for ids that have been looked at. -/
def readIds (param : Param) (error : String) : Except Failure (List Uuid) := do
  let ids := (parseCommaSeparatedIdsParam param).map QueryTexts.idText
  if ids.all IdText.isUuid then ids.mapM readUuid else .error (.badRequest error)

/-- The suite a query asks for: none, no suite at all, one, or one and what lies below it. -/
def suiteFilter (projectId : Uuid) (query : TestcasesQuery) (db : Db) :
    Except Failure (List Filter) :=
  let suite := query.suiteId.string
  let wantsUnfiled := isWord "none" suite
  let wantsSubtree := isWord "true" query.includeDescendants.string && suite ≠ "" && !wantsUnfiled
  if wantsUnfiled then .ok [fun e ↦ e.row.suiteId.isNone]
  else if suite ≠ "" && !(QueryTexts.idText suite).isUuid then
    .error (.badRequest "suiteId must be a valid id")
  else if wantsSubtree then do
    let id ← readUuid (QueryTexts.idText suite)
    pure [fun e ↦ e.row.suiteId.any (· ∈ suiteSubtree projectId id db)]
  else if query.suiteId.truthy then do
    let id ← readUuid (QueryTexts.idText query.suiteId.bound)
    pure [fun e ↦ e.row.suiteId = some id]
  else .ok []

def archivedFilter (query : TestcasesQuery) : List Filter :=
  when (!(isWord "archived" (jsTrim query.status.string) ||
    isWord "true" query.includeArchived.string)) fun e ↦ !e.row.archived

def customTagFilter (query : TestcasesQuery) : Except Failure (List Filter) := do
  let ids ← readIds query.customTagIds "customTagIds must be valid ids"
  pure (when (ids ≠ []) fun e ↦ e.details.customTags.any fun tag ↦ tag.1 ∈ ids)

def idsFilter (query : TestcasesQuery) : Except Failure (List Filter) := do
  let ids ← readIds query.ids "ids must be valid ids"
  pure (when (ids ≠ []) fun e ↦ e.row.id ∈ ids)

def customFieldFilter (projectId : Uuid) (query : TestcasesQuery) : Except Failure (List Filter) :=
  if query.customFieldFilters.truthy then
    (QueryTexts.fieldFilter projectId query.customFieldFilters).map fun filter ↦ [filter]
  else .ok []

def buildTestcaseFilterFragments (projectId : Uuid) (query : TestcasesQuery) (db : Db) :
    Except Failure (List Filter) := do
  let suite ← suiteFilter projectId query db
  let customTags ← customTagFilter query
  let ids ← idsFilter query
  let customFields ← customFieldFilter projectId query
  let inProject : Filter := fun e ↦ e.row.projectId = projectId && e.row.live
  pure ([inProject] ++ suite ++ archivedFilter query ++
    columnFilter .status query.status ++ columnFilter .priority query.priority ++
    when query.type.truthy (fun e ↦
      (e.row.text .type).map Unicode.lower = some (Unicode.lower query.type.bound)) ++
    columnFilter .automationStatus query.automationStatus ++
    columnFilter .jiraIssueKey query.jiraIssueKey ++
    columnFilter .linearIssueKey query.linearIssueKey ++
    columnFilter .notionPageId query.notionPageId ++
    searchFilter query.search ++ customTags ++ ids ++ customFields)

/-! ## Order -/

/-- `ASC` or `DESC` -/
def directed {α : Type} [Ord α] (desc : Bool) (a b : α) : Ordering :=
  if desc then compare b a else compare a b

/-- The same for a value that may be null, nulls last. -/
def directedNullsLast {α : Type} [Ord α] (desc : Bool) : Option α → Option α → Ordering
  | some a, some b => directed desc a b
  | some _, none => .lt
  | none, some _ => .gt
  | none, none => .eq

def priorityRank (priority : Option String) : ℕ :=
  match priority with
  | some "P0" => 0
  | some "P1" => 1
  | some "P2" => 2
  | some "P3" => 3
  | _ => 4

def noPriority (priority : Option String) : ℕ :=
  if priority = none ∨ priority = some "" ∨ priority = some "Not set" then 1 else 0

def buildTestcaseOrderBy (query : TestcasesQuery) (a b : Entry) : Ordering :=
  let desc := isWord "desc" query.sortDir.string
  if query.sortBy = .text "id" then
    ((directedNullsLast desc (trailingNumber a.row.externalId) (trailingNumber b.row.externalId)).then
      (directed desc a.row.externalId b.row.externalId)).then (directed desc a.row.id b.row.id)
  else if query.sortBy = .text "title" then
    (directed desc (Unicode.lower ((a.row.text .title).getD ""))
      (Unicode.lower ((b.row.text .title).getD ""))).then (directed desc a.row.id b.row.id)
  else if query.sortBy = .text "priority" then
    (((compare (noPriority (a.row.text .priority)) (noPriority (b.row.text .priority))).then
      (directed desc (priorityRank (a.row.text .priority)) (priorityRank (b.row.text .priority)))).then
      (directedNullsLast desc (a.row.text .priority) (b.row.text .priority))).then
      (directed desc a.row.id b.row.id)
  else (directed true a.createdAt b.createdAt).then (directed true a.row.id b.row.id)

/-! ## The page -/

def listedColumns : List TextColumn := [
  .title, .priority, .type, .automationStatus, .automationTags, .status, .jiraIssueKey, .jiraUrl,
  .linearIssueKey, .linearUrl, .notionPageId, .notionUrl, .severity, .component]

def pageRow (e : Entry) : PageRow where
  id := e.row.id
  externalId := e.row.externalId
  text := listedColumns.map fun c ↦ (c, e.row.text c)
  suiteId := e.row.suiteId
  ownerId := e.row.ownerId
  updatedAt := e.row.updatedAt
  details := e.details

def maxInt8 : ℕ := 9223372036854775807

/-- The test cases the filters leave, in the order asked for. -/
def matching (projectId : Uuid) (query : TestcasesQuery) (d : Data) :
    Except Failure (List Entry) := do
  let filters ← buildTestcaseFilterFragments projectId query d.db
  let rows := d.entries.filter fun e ↦ filters.all fun filter ↦ filter e
  -- the numbers of the ids are cast to BIGINT
  if query.sortBy = .text "id" && rows.any fun e ↦ (trailingNumber e.row.externalId).any (maxInt8 < ·)
  then .error .outOfRange
  else pure (rows.insertionSort fun a b ↦ buildTestcaseOrderBy query a b ≠ .gt)

/-- `LIMIT` and `OFFSET` -/
def pageOf {α : Type} (limit offset : ℕ) (rows : List α) : List α := (rows.drop offset).take limit

/-- The first statement: the page, and the total that comes with its rows. -/
def selectPage (projectId : Uuid) (query : TestcasesQuery) (limit offset : ℕ) (d : Data) :
    Except Failure Page := do
  let all ← matching projectId query d
  let rows := pageOf limit offset all
  pure ⟨rows.map pageRow, if rows = [] then 0 else all.length⟩

/-- The second statement, for a page with no rows that is not the first. -/
def countMatching (projectId : Uuid) (query : TestcasesQuery) (d : Data) : Except Failure ℕ :=
  (matching projectId query d).map List.length

def needsCount (offset : ℕ) (page : Page) : Bool := page.rows = [] && 0 < offset

/-- Both, with nothing between them. -/
def listTestCasesUncached (projectId : Uuid) (query : TestcasesQuery) (limit offset : ℕ)
    (d : Data) : Except Failure Page := do
  let page ← selectPage projectId query limit offset d
  if needsCount offset page then do
    let total ← countMatching projectId query d
    pure { page with total := total }
  else pure page

end Query

/-! ## The queries without a filter -/

/-- A parameter left out or empty. -/
def Param.Silent (p : Param) : Prop := p = .absent ∨ p = .text ""

theorem Param.silent_of_not_truthy {p : Param} (h : p.truthy = false) : p.Silent := by
  cases p with
  | absent => exact .inl rfl
  | text s =>
      have hs : s = "" := by simpa only [truthy, decide_eq_false_iff_not, not_not] using h
      exact .inr (congrArg text hs)
  | many parts => cases h
  | object json => cases h

theorem Param.Silent.string_eq {p : Param} (h : p.Silent) : p.string = "" := by
  rcases h with rfl | rfl
  · rfl
  · rfl

theorem Param.Silent.truthy_eq {p : Param} (h : p.Silent) : p.truthy = false := by
  rcases h with rfl | rfl
  · rfl
  · rfl

/-- Every parameter the filters and the order look at says nothing. -/
structure TestcasesQuery.Unfiltered (query : TestcasesQuery) : Prop where
  suiteId : query.suiteId.Silent
  status : query.status.Silent
  priority : query.priority.Silent
  type : query.type.Silent
  automationStatus : query.automationStatus.Silent
  jiraIssueKey : query.jiraIssueKey.Silent
  linearIssueKey : query.linearIssueKey.Silent
  notionPageId : query.notionPageId.Silent
  search : query.search.Silent
  customFieldFilters : query.customFieldFilters.Silent
  sortBy : query.sortBy.Silent
  customTagIds : parseCommaSeparatedIdsParam query.customTagIds = []
  ids : parseCommaSeparatedIdsParam query.ids = []
  includeArchived : isWord "true" query.includeArchived.string = false

theorem unfiltered_of_isNoFilter {query : TestcasesQuery}
    (h : isNoFilterTestcasesQuery query = true) : query.Unfiltered := by
  unfold isNoFilterTestcasesQuery at h
  simp only [Bool.and_eq_true, Bool.not_eq_true', decide_eq_true_eq] at h
  obtain ⟨⟨⟨⟨⟨⟨⟨⟨⟨⟨⟨⟨⟨⟨hsuite, -⟩, hstatus⟩, hpriority⟩, htype⟩, hautomation⟩, hjira⟩, hlinear⟩,
    hnotion⟩, hsearch⟩, hfields⟩, hsort⟩, htags⟩, hids⟩, harchived⟩ := h
  exact {
    suiteId := Param.silent_of_not_truthy hsuite
    status := Param.silent_of_not_truthy hstatus
    priority := Param.silent_of_not_truthy hpriority
    type := Param.silent_of_not_truthy htype
    automationStatus := Param.silent_of_not_truthy hautomation
    jiraIssueKey := Param.silent_of_not_truthy hjira
    linearIssueKey := Param.silent_of_not_truthy hlinear
    notionPageId := Param.silent_of_not_truthy hnotion
    search := Param.silent_of_not_truthy hsearch
    customFieldFilters := Param.silent_of_not_truthy hfields
    sortBy := Param.silent_of_not_truthy hsort
    customTagIds := List.length_eq_zero_iff.mp htags
    ids := List.length_eq_zero_iff.mp hids
    includeArchived := harchived }

theorem isNoFilterTestcasesQuery_plain : isNoFilterTestcasesQuery .plain = true := by
  decide

section Unfiltered

variable [Unicode] [QueryTexts] {query : TestcasesQuery}

omit [Unicode] [QueryTexts] in
theorem columnFilter_silent {column : TextColumn} {p : Param} (h : p.Silent) :
    columnFilter column p = [] := by
  unfold columnFilter
  rw [h.truthy_eq]
  rfl

omit [Unicode] in
theorem suiteFilter_silent (h : query.suiteId.Silent) (projectId : Uuid) (db : Db) :
    suiteFilter projectId query db = .ok [] := by
  have hnone : isWord "none" "" = false := by decide
  unfold suiteFilter
  rw [h.string_eq, h.truthy_eq]
  dsimp only
  rw [hnone]
  simp

omit [Unicode] in
theorem readIds_nil {p : Param} (h : parseCommaSeparatedIdsParam p = []) (error : String) :
    readIds p error = .ok [] := by
  unfold readIds
  rw [h]
  rfl

/-- What a query without a filter asks for: the project's live test cases that are not archived. -/
theorem fragments_of_unfiltered (h : query.Unfiltered) (projectId : Uuid) (db : Db) :
    buildTestcaseFilterFragments projectId query db =
      .ok [fun e ↦ e.row.projectId = projectId && e.row.live, fun e ↦ !e.row.archived] := by
  have harchived : isWord "archived" (jsTrim query.status.string) = false := by
    rw [h.status.string_eq]
    decide
  have hsearch : searchFilter query.search = [] := by
    unfold searchFilter
    rw [h.search.truthy_eq]
    rfl
  have htags : customTagFilter query = .ok [] := by
    unfold customTagFilter
    rw [readIds_nil h.customTagIds]
    rfl
  have hids : idsFilter query = .ok [] := by
    unfold idsFilter
    rw [readIds_nil h.ids]
    rfl
  have hfields : customFieldFilter projectId query = .ok [] := by
    unfold customFieldFilter
    rw [h.customFieldFilters.truthy_eq]
    rfl
  unfold buildTestcaseFilterFragments archivedFilter
  rw [suiteFilter_silent h.suiteId, htags, hids, hfields, columnFilter_silent h.status,
    columnFilter_silent h.priority, columnFilter_silent h.automationStatus,
    columnFilter_silent h.jiraIssueKey, columnFilter_silent h.linearIssueKey,
    columnFilter_silent h.notionPageId, hsearch, h.type.truthy_eq, harchived, h.includeArchived]
  rfl

omit [QueryTexts] in
/-- And the newest first. -/
theorem orderBy_of_unfiltered (h : query.Unfiltered) (a b : Entry) :
    buildTestcaseOrderBy query a b =
      (directed true a.createdAt b.createdAt).then (directed true a.row.id b.row.id) := by
  unfold buildTestcaseOrderBy
  rcases h.sortBy with hsort | hsort
  · rw [hsort]
    rfl
  · rw [hsort]
    rfl

/-- The test of `listTestCases` misses no parameter: a query it takes to have no filter selects what
the query without parameters selects. -/
theorem matching_of_isNoFilter (h : isNoFilterTestcasesQuery query = true) (projectId : Uuid)
    (d : Data) : matching projectId query d = matching projectId .plain d := by
  have hquery := unfiltered_of_isNoFilter h
  have hplain := unfiltered_of_isNoFilter isNoFilterTestcasesQuery_plain
  have hsort : (query.sortBy = .text "id") = False := by
    rcases hquery.sortBy with hsort | hsort
    · rw [hsort]
      exact eq_false (by decide)
    · rw [hsort]
      exact eq_false (by decide)
  have horder : buildTestcaseOrderBy query = buildTestcaseOrderBy .plain := by
    funext a b
    rw [orderBy_of_unfiltered hquery, orderBy_of_unfiltered hplain]
  unfold matching
  rw [fragments_of_unfiltered hquery, fragments_of_unfiltered hplain, horder]
  simp only [hsort]
  rfl

theorem selectPage_of_isNoFilter (h : isNoFilterTestcasesQuery query = true) (projectId : Uuid)
    (limit offset : ℕ) (d : Data) :
    selectPage projectId query limit offset d = selectPage projectId .plain limit offset d := by
  unfold selectPage
  rw [matching_of_isNoFilter h]

theorem listTestCasesUncached_of_isNoFilter (h : isNoFilterTestcasesQuery query = true)
    (projectId : Uuid) (limit offset : ℕ) (d : Data) :
    listTestCasesUncached projectId query limit offset d =
      listTestCasesUncached projectId .plain limit offset d := by
  unfold listTestCasesUncached countMatching
  rw [selectPage_of_isNoFilter h, matching_of_isNoFilter h]

end Unfiltered

/-! ## What the lists of a project depend on -/

/-- Two test cases agree in every column. -/
def Testcase.Same (t t' : Testcase) : Prop :=
  (t.id = t'.id ∧ t.projectId = t'.projectId ∧ t.suiteId = t'.suiteId ∧
    t.externalId = t'.externalId ∧ (∀ c ∈ TextColumn.all, t.text c = t'.text c)) ∧
  (t.steps = t'.steps ∧ t.ownerId = t'.ownerId ∧ t.createdBy = t'.createdBy ∧
    t.updatedBy = t'.updatedBy ∧ t.updatedAt = t'.updatedAt ∧ t.deletedAt = t'.deletedAt ∧
    t.deletedBy = t'.deletedBy)

instance (t t' : Testcase) : Decidable (t.Same t') :=
  inferInstanceAs (Decidable ((_ ∧ _ ∧ _ ∧ _ ∧ _) ∧ _ ∧ _ ∧ _ ∧ _ ∧ _ ∧ _ ∧ _))

theorem TextColumn.mem_all (c : TextColumn) : c ∈ TextColumn.all := by
  cases c <;> decide

theorem Testcase.same_iff {t t' : Testcase} : t.Same t' ↔ t = t' := by
  constructor
  · cases t
    cases t'
    rintro ⟨⟨rfl, rfl, rfl, rfl, htext⟩, rfl, rfl, rfl, rfl, rfl, rfl, rfl⟩
    have htext := funext fun c ↦ htext c (TextColumn.mem_all c)
    simp only at htext
    rw [htext]
  · rintro rfl
    exact ⟨⟨rfl, rfl, rfl, rfl, fun _ _ ↦ rfl⟩, rfl, rfl, rfl, rfl, rfl, rfl, rfl⟩

instance : DecidableEq Testcase := fun t t' ↦ decidable_of_iff (t.Same t') Testcase.same_iff

deriving instance DecidableEq for Entry

/-- The suites and the test cases of the other projects, and what is filed in their suites. -/
def elsewhere (projectId : Uuid) (d : Data) : List Suite × List Entry × List Testcase :=
  (d.db.suites.select fun s ↦ s.projectId ≠ projectId,
    d.entries.filter fun e ↦ e.row.projectId ≠ projectId,
    d.db.testcases.select fun t ↦ t.suiteId.any fun id ↦
      (d.db.suites.find id).any fun s ↦ s.projectId ≠ projectId)

section Elsewhere

variable {P Q : Uuid} {d d' : Data}

/-- The part of a list one looks at, in a larger part of it. -/
theorem filter_eq_of_imp {α : Type} {p q : α → Bool} {l l' : List α} (hpq : ∀ a, p a = true → q a = true)
    (h : l.filter q = l'.filter q) : l.filter p = l'.filter p := by
  have hsplit : ∀ k : List α, k.filter p = (k.filter q).filter p := by
    intro k
    rw [List.filter_filter]
    refine List.filter_congr fun a _ ↦ ?_
    cases hp : p a with
    | false => rfl
    | true => rw [hpq a hp]; rfl
  rw [hsplit l, hsplit l', h]

theorem select_liveIn_of_elsewhere (h : elsewhere P d' = elsewhere P d) (hQ : Q ≠ P) :
    d'.db.suites.select (Suite.liveIn Q) = d.db.suites.select (Suite.liveIn Q) := by
  refine filter_eq_of_imp (fun s hs ↦ ?_) (Prod.ext_iff.mp h).1
  exact decide_eq_true ((Suite.liveIn_iff.mp hs).1 ▸ hQ)

theorem mem_suites_of_elsewhere (h : elsewhere P d' = elsewhere P d) (hQ : Q ≠ P) {s : Suite}
    (hs : s.liveIn Q = true) : s ∈ d'.db.suites ↔ s ∈ d.db.suites := by
  have hselect := select_liveIn_of_elsewhere h hQ
  have hmem : ∀ db : Db, s ∈ db.suites ↔ s ∈ db.suites.select (Suite.liveIn Q) := fun db ↦
    ⟨fun hm ↦ Table.mem_select.mpr ⟨hm, hs⟩, fun hm ↦ (Table.mem_select.mp hm).1⟩
  rw [hmem, hmem, hselect]

theorem mem_suiteSubtree_of_elsewhere (h : elsewhere P d' = elsewhere P d) (hQ : Q ≠ P)
    (id x : Uuid) : x ∈ suiteSubtree Q id d'.db ↔ x ∈ suiteSubtree Q id d.db := by
  have hlive : ∀ y, LiveSuite d'.db Q y ↔ LiveSuite d.db Q y := by
    intro y
    constructor
    · rintro ⟨s, hs, hid, hl⟩
      exact ⟨s, (mem_suites_of_elsewhere h hQ hl).mp hs, hid, hl⟩
    · rintro ⟨s, hs, hid, hl⟩
      exact ⟨s, (mem_suites_of_elsewhere h hQ hl).mpr hs, hid, hl⟩
  have hchild : ChildSuite d'.db Q = ChildSuite d.db Q := by
    funext a b
    refine propext ⟨?_, ?_⟩
    · rintro ⟨s, hs, hid, hparent, hl⟩
      exact ⟨s, (mem_suites_of_elsewhere h hQ hl).mp hs, hid, hparent, hl⟩
    · rintro ⟨s, hs, hid, hparent, hl⟩
      exact ⟨s, (mem_suites_of_elsewhere h hQ hl).mpr hs, hid, hparent, hl⟩
  rw [mem_suiteSubtree, mem_suiteSubtree, hlive, hchild]

/-- What is counted in the suites of another project is filed in one of its suites. -/
theorem countFiled_of_elsewhere (h : elsewhere P d' = elsewhere P d) (hQ : Q ≠ P)
    {suites suites' : List Uuid} (hsame : ∀ x, x ∈ suites' ↔ x ∈ suites)
    (hlive : ∀ x ∈ suites, LiveSuite d.db Q x) :
    countFiled suites' d'.db = countFiled suites d.db := by
  have hpred : (fun t : Testcase ↦ t.suiteId.any (· ∈ suites') && t.counted) =
      fun t ↦ t.suiteId.any (· ∈ suites) && t.counted := by
    funext t
    simp only [hsame]
  have helse : ∀ e : Data, (∀ x ∈ suites, LiveSuite e.db Q x) → ∀ t : Testcase,
      (t.suiteId.any (· ∈ suites) && t.counted) = true →
      (t.suiteId.any fun id ↦ (e.db.suites.find id).any fun s ↦ s.projectId ≠ P) = true := by
    intro e he t ht
    obtain ⟨hfiled, -⟩ := Bool.and_eq_true_iff.mp ht
    obtain ⟨x, hx, hmem⟩ := (Option.any_eq_true _ _).mp hfiled
    obtain ⟨s, hs, rfl, hl⟩ := he x (of_decide_eq_true hmem)
    refine (Option.any_eq_true _ _).mpr ⟨s.id, hx, ?_⟩
    rw [Table.find_eq_some.mpr ⟨hs, rfl⟩]
    exact decide_eq_true ((Suite.liveIn_iff.mp hl).1 ▸ hQ)
  have hlive' : ∀ x ∈ suites, LiveSuite d'.db Q x := by
    intro x hx
    obtain ⟨s, hs, hid, hl⟩ := hlive x hx
    exact ⟨s, (mem_suites_of_elsewhere h hQ hl).mpr hs, hid, hl⟩
  have hfiled := (Prod.ext_iff.mp (Prod.ext_iff.mp h).2).2
  unfold countFiled
  rw [hpred]
  -- on both sides a part of the same list
  have hpart : ∀ e : Data, (∀ x ∈ suites, LiveSuite e.db Q x) →
      (e.db.testcases.select fun t ↦ t.suiteId.any (· ∈ suites) && t.counted) =
        ((elsewhere P e).2.2).filter fun t ↦ t.suiteId.any (· ∈ suites) && t.counted := by
    intro e he
    unfold elsewhere Table.select
    rw [List.filter_filter]
    refine List.filter_congr fun t _ ↦ ?_
    cases ht : (t.suiteId.any (· ∈ suites) && t.counted) with
    | false => rfl
    | true => rw [helse e he t ht]; rfl
  rw [hpart d' hlive', hpart d hlive, h]

theorem listSuitesUncached_of_elsewhere (h : elsewhere P d' = elsewhere P d) (hQ : Q ≠ P) :
    listSuitesUncached Q d' = listSuitesUncached Q d := by
  unfold listSuitesUncached
  rw [select_liveIn_of_elsewhere h hQ]
  refine List.map_congr_left fun s hs ↦ ?_
  have hmem : s ∈ d.db.suites.select (Suite.liveIn Q) :=
    (List.perm_insertionSort suiteOrder _).mem_iff.mp hs
  have hs : LiveSuite d.db Q s.id := ⟨s, (Table.mem_select.mp hmem).1, rfl, (Table.mem_select.mp hmem).2⟩
  have hone : countFiled [s.id] d'.db = countFiled [s.id] d.db :=
    countFiled_of_elsewhere h hQ (fun _ ↦ Iff.rfl) fun x hx ↦ List.mem_singleton.mp hx ▸ hs
  have hbelow : countFiled (suiteSubtree Q s.id d'.db) d'.db =
      countFiled (suiteSubtree Q s.id d.db) d.db :=
    countFiled_of_elsewhere h hQ (mem_suiteSubtree_of_elsewhere h hQ s.id)
      fun _ hx ↦ liveSuite_of_mem_suiteSubtree hx
  rw [hone, hbelow]

section Query

variable [Unicode] [QueryTexts] {query : TestcasesQuery}

theorem fragments_of_elsewhere (h : elsewhere P d' = elsewhere P d) (hQ : Q ≠ P) :
    buildTestcaseFilterFragments Q query d'.db = buildTestcaseFilterFragments Q query d.db := by
  have hsuite : suiteFilter Q query d'.db = suiteFilter Q query d.db := by
    unfold suiteFilter
    simp only [mem_suiteSubtree_of_elsewhere h hQ]
  unfold buildTestcaseFilterFragments
  rw [hsuite]

/-- Whatever else a query asks for, it asks for test cases of the project. -/
theorem inProject_of_fragments {filters : List Filter} {db : Db} {e : Entry}
    (h : buildTestcaseFilterFragments Q query db = .ok filters)
    (he : (filters.all fun filter ↦ filter e) = true) : e.row.projectId = Q := by
  unfold buildTestcaseFilterFragments at h
  obtain ⟨suite, -, h⟩ := except_bind_eq_ok.mp h
  obtain ⟨customTags, -, h⟩ := except_bind_eq_ok.mp h
  obtain ⟨ids, -, h⟩ := except_bind_eq_ok.mp h
  obtain ⟨customFields, -, h⟩ := except_bind_eq_ok.mp h
  obtain rfl := Except.ok.inj h
  have hfirst := List.all_eq_true.mp he (fun e ↦ e.row.projectId = Q && e.row.live) (by simp)
  exact of_decide_eq_true (Bool.and_eq_true_iff.mp hfirst).1

theorem matching_of_elsewhere (h : elsewhere P d' = elsewhere P d) (hQ : Q ≠ P) :
    matching Q query d' = matching Q query d := by
  unfold matching
  rw [fragments_of_elsewhere h hQ]
  cases hfilters : buildTestcaseFilterFragments Q query d.db with
  | error e => rfl
  | ok filters =>
      have hrows : (d'.entries.filter fun e ↦ filters.all fun filter ↦ filter e) =
          d.entries.filter fun e ↦ filters.all fun filter ↦ filter e := by
        refine filter_eq_of_imp (fun e he ↦ ?_) (Prod.ext_iff.mp (Prod.ext_iff.mp h).2).1
        exact decide_eq_true ((inProject_of_fragments hfilters he) ▸ hQ)
      change (if _ then _ else _) = (if _ then _ else _)
      rw [hrows]

theorem listTestCasesUncached_of_elsewhere (h : elsewhere P d' = elsewhere P d) (hQ : Q ≠ P)
    (limit offset : ℕ) :
    listTestCasesUncached Q query limit offset d' = listTestCasesUncached Q query limit offset d := by
  unfold listTestCasesUncached selectPage countMatching
  rw [matching_of_elsewhere h hQ]

end Query

end Elsewhere

end Tesbo
