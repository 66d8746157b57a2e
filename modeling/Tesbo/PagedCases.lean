import Tesbo.FieldRoundTrip
import Tesbo.Listings
import Tesbo.StepRoundTrip
import Tesbo.Reasoning.Paging

/-!
# The repository page by page

The list and the export of test cases with the order left to the database, where a query leaves it
open: what the pages show one after another, and what the export writes.
-/

namespace Tesbo.PagedCases

open Reasoning

/-! ## What an export reads -/

/-- A value of a stored step: falsy, or what `String` makes of it (`none` where that throws). -/
inductive StepValue where
  | falsy
  | truthy (text : Option String)
deriving DecidableEq

/-- An element of the stored steps, as `stripZyraNulDeep` leaves it.  A number, a boolean or an array
has none of the fields. -/
inductive StepElement where
  | null
  | text (s : String)
  | fields (action step description expectedResult expected : StepValue)
deriving DecidableEq

/-- The column `steps`: a list, a text (as `JSON.parse` reads it, where it is a list), or neither. -/
inductive StoredSteps where
  | list (steps : List StepElement)
  | encoded (parsed : Option (List StepElement))
  | other
deriving DecidableEq

/-- `a || b || … || ""` -/
def firstTruthy (choices : List StepValue) : StepValue :=
  (choices.find? (· ≠ .falsy)).getD .falsy

/-- The object with `action` and `expectedResult` under their own names. -/
def StepElement.normalized : StepElement → StepElement
  | null => null
  | text s => text s
  | fields action step description expectedResult expected =>
      fields (firstTruthy [action, step, description]) step description
        (firstTruthy [expectedResult, expected]) expected

def safeSteps (value : StoredSteps) : List StepElement :=
  let steps := match value with
    | .list steps => steps
    | .encoded parsed => parsed.getD []
    | .other => []
  steps.map StepElement.normalized

/-- `[…].filter(Boolean).join(" => ")` -/
def joinFields (values : List StepValue) : Option String := do
  let texts ← (values.filter (· ≠ .falsy)).mapM fun value ↦
    match value with
    | .falsy => some ""
    | .truthy text => text
  pure (String.ofList (joined " => ".toList (texts.map String.toList)))

/-- The text of a step in the column of steps; `none` where this throws. -/
def StepElement.line : StepElement → Option String
  | null => none
  | text s => some s
  | fields action step description expectedResult expected =>
      joinFields [firstTruthy [action, step, description], firstTruthy [expectedResult, expected]]

/-- The columns of an exported row that hold its steps. -/
structure ExportedSteps where
  steps : String
  action : StepValue
  expectedResult : StepValue
deriving DecidableEq

/-- `none` is a `TypeError`. -/
def exportSteps : List StepElement → Option ExportedSteps
  | [.fields action step description expectedResult expected] =>
      some ⟨"", firstTruthy [action, step, description], firstTruthy [expectedResult, expected]⟩
  | parsedSteps => do
      let lines ← parsedSteps.mapM StepElement.line
      pure ⟨joinTruthy " | " lines, .falsy, .falsy⟩

/-- A definition as `exportTestCases` is given it. -/
structure ExportDefinition (ν : Type) where
  id : Uuid
  key : String
  definition : FieldDefinition ν

/-- The database, with what only the export reads: the stored steps and the values of the custom
fields. -/
structure Repository (ν : Type) where
  data : Data
  steps : Uuid → StoredSteps
  fieldValues : Uuid → Uuid → Option (FieldValue ν)

structure ExportRow where
  externalId : String
  title : String
  description : String
  preconditions : String
  steps : ExportedSteps
  testData : String
  priority : String
  severity : String
  type : String
  status : String
  suite : String
  component : String
  customFields : List (String × String)

inductive ExportError where
  | refused (e : Failure)
  | typeError

/-- The name of the suite, where it is not deleted. -/
def suiteName (suiteId : Option Uuid) (db : Db) : String :=
  ((suiteId.bind db.suites.find).filter Suite.live).elim "" Suite.name

def exportRow {ν : Type} [JsNumber ν] (definitions : List (ExportDefinition ν)) (r : Repository ν)
    (e : Entry) : Except ExportError ExportRow :=
  let column (c : TextColumn) := (e.row.text c).getD ""
  match exportSteps (safeSteps (r.steps e.row.id)) with
  | none => .error .typeError
  | some steps => .ok {
      externalId := e.row.externalId
      title := column .title
      description := column .description
      preconditions := column .preconditions
      steps := steps
      testData := column .testData
      priority := column .priority
      severity := column .severity
      type := column .type
      status := column .status
      suite := suiteName e.row.suiteId r.data.db
      component := column .component
      customFields := definitions.map fun d ↦
        (s!"cf_{d.key}", formatCustomFieldExportValue d.definition (r.fieldValues e.row.id d.id)) }

/-! ## The statements -/

section Statements

variable [Unicode] [QueryTexts]

/-- The rows the conditions leave. -/
def kept (filters : List Filter) (d : Data) : List Entry :=
  d.entries.filter fun e ↦ filters.all fun filter ↦ filter e

/-- How a sort may arrange the rows. -/
def Sorts (query : TestcasesQuery) (plan : List Entry → List Entry) : Prop :=
  Arranges (buildTestcaseOrderBy query) plan

/-- The rows in an order the database chooses; the numbers of the ids are cast to `BIGINT`. -/
def orderedBy (plan : List Entry → List Entry) (projectId : Uuid) (query : TestcasesQuery)
    (d : Data) : Except Failure (List Entry) := do
  let filters ← buildTestcaseFilterFragments projectId query d.db
  let rows := kept filters d
  if query.sortBy = .text "id" && rows.any fun e ↦ (trailingNumber e.row.externalId).any (maxInt8 < ·)
  then .error .outOfRange
  else pure (plan rows)

def listTestCasesUncached (plan : List Entry → List Entry) (projectId : Uuid)
    (query : TestcasesQuery) (limit offset : ℕ) (d : Data) : Except Failure Page := do
  let all ← orderedBy plan projectId query d
  let rows := pageOf limit offset all
  if rows = [] ∧ 0 < offset then do
    let filters ← buildTestcaseFilterFragments projectId query d.db
    pure ⟨[], (kept filters d).length⟩
  else pure ⟨rows.map pageRow, if rows = [] then 0 else all.length⟩

def exportTestCases {ν : Type} [JsNumber ν] (plan : List Entry → List Entry) (projectId : Uuid)
    (definitions : List (ExportDefinition ν)) (query : TestcasesQuery) (r : Repository ν) :
    Except ExportError (List ExportRow) := do
  let rows ← (orderedBy plan projectId query r.data).mapError .refused
  rows.mapM (exportRow definitions r)

end Statements

/-! ## The property and its condition -/

section Definitions

variable [Unicode] [QueryTexts] {ν : Type} [JsNumber ν]

/-- Every test case the conditions leave, once. -/
structure ListsAll (filters : List Filter) (d : Data) (entries : List Entry) : Prop where
  nodup : (entries.map fun e ↦ e.row.id).Nodup
  mem_iff : ∀ e, e ∈ entries ↔ e ∈ kept filters d

/-- No call fails; the pages, one after another, list each test case the conditions leave, in the
order of the export, and the total on each is their number.  Each statement may be planned in its own
way. -/
def PagesAgree (plans : ℕ → List Entry → List Entry) (exportPlan : List Entry → List Entry)
    (projectId : Uuid) (definitions : List (ExportDefinition ν)) (query : TestcasesQuery)
    (filters : List Filter) (limit : ℕ) (r : Repository ν) : Prop :=
  ∃ (entries : List Entry) (rows : List ExportRow) (pages : ℕ → Page),
    ListsAll filters r.data entries ∧
    exportTestCases exportPlan projectId definitions query r = .ok rows ∧
    List.Forall₂ (fun e row ↦ exportRow definitions r e = .ok row) entries rows ∧
    (∀ n, listTestCasesUncached (plans n) projectId query limit (n * limit) r.data =
      .ok (pages n)) ∧
    (∀ n, (pages n).total = entries.length) ∧
    ∀ n, (List.range n).flatMap (fun k ↦ (pages k).rows) =
      (entries.map pageRow).take (n * limit)

/-- The number at the end of the id, if any, is a `BIGINT`. -/
def FitsBigint (externalId : String) : Prop := ∀ n, trailingNumber externalId = some n → n ≤ maxInt8

/-- There is one object, or each step has a text. -/
def Writable (steps : StoredSteps) : Prop :=
  (∃ action step description expectedResult expected,
    safeSteps steps = [.fields action step description expectedResult expected]) ∨
  ∀ step ∈ safeSteps steps, step.line.isSome = true

end Definitions

/-! ## The order -/

section Order

theorem transCmp_directed {α : Type} [Ord α] [Std.TransOrd α] (desc : Bool) :
    Std.TransCmp (directed desc : α → α → Ordering) := by
  cases desc with
  | false => exact (inferInstance : Std.TransCmp (compare : α → α → Ordering))
  | true => exact (inferInstance : Std.TransCmp fun a b : α ↦ compare b a)

theorem transCmp_directedNullsLast {α : Type} [Ord α] [Std.TransOrd α] (desc : Bool) :
    Std.TransCmp (directedNullsLast desc : Option α → Option α → Ordering) := by
  have htrans : Std.TransCmp (directed desc : α → α → Ordering) := transCmp_directed desc
  refine @Std.TransCmp.mk _ _ ⟨?_⟩ ?_
  · intro a b
    cases a with
    | none => cases b <;> rfl
    | some a =>
        cases b with
        | none => rfl
        | some b =>
            show directed desc a b = (directed desc b a).swap
            exact Std.OrientedCmp.eq_swap
  · intro a b c hab hbc
    cases a with
    | none =>
        cases b with
        | none => exact hbc
        | some b => cases hab
    | some a =>
        cases c with
        | none => rfl
        | some c =>
            cases b with
            | none => cases hbc
            | some b =>
                show (directed desc a c).isLE = true
                exact htrans.isLE_trans hab hbc

theorem transCmp_then {α : Type} {cmp cmp' : α → α → Ordering} (h : Std.TransCmp cmp)
    (h' : Std.TransCmp cmp') : Std.TransCmp fun a b ↦ (cmp a b).then (cmp' a b) :=
  inferInstanceAs (Std.TransCmp (compareLex cmp cmp'))

variable [Unicode]

instance transCmp_buildTestcaseOrderBy (query : TestcasesQuery) :
    Std.TransCmp (buildTestcaseOrderBy query) := by
  have hdirected {α : Type} [Ord α] [Std.TransOrd α] (desc : Bool) (key : Entry → α) :
      Std.TransCmp fun a b ↦ directed desc (key a) (key b) :=
    @transCmp_key _ _ _ (transCmp_directed desc) key
  have hnulls {α : Type} [Ord α] [Std.TransOrd α] (desc : Bool) (key : Entry → Option α) :
      Std.TransCmp fun a b ↦ directedNullsLast desc (key a) (key b) :=
    @transCmp_key _ _ _ (transCmp_directedNullsLast desc) key
  unfold buildTestcaseOrderBy
  dsimp only
  split
  · exact transCmp_then (transCmp_then (hnulls _ _) (hdirected _ _)) (hdirected _ _)
  · split
    · exact transCmp_then (hdirected _ _) (hdirected _ _)
    · split
      · exact transCmp_then (transCmp_then (transCmp_then (transCmp_key _) (hdirected _ _))
          (hnulls _ _)) (hdirected _ _)
      · exact transCmp_then (hdirected _ _) (hdirected _ _)

/-- Every order ends with the id. -/
theorem id_eq_of_order_eq {query : TestcasesQuery} {a b : Entry}
    (h : buildTestcaseOrderBy query a b = .eq) : a.row.id = b.row.id := by
  have hid : ∀ desc, directed desc a.row.id b.row.id = .eq → a.row.id = b.row.id := by
    intro desc h
    cases desc with
    | false => exact Std.LawfulEqOrd.eq_of_compare h
    | true => exact (Std.LawfulEqOrd.eq_of_compare h).symm
  unfold buildTestcaseOrderBy at h
  dsimp only at h
  split at h
  · exact hid _ (Ordering.then_eq_eq.mp h).2
  · split at h
    · exact hid _ (Ordering.then_eq_eq.mp h).2
    · split at h
      · exact hid _ (Ordering.then_eq_eq.mp h).2
      · exact hid _ (Ordering.then_eq_eq.mp h).2

end Order

/-! ## The rows and their arrangements -/

section Rows

variable [Unicode] [QueryTexts] {filters : List Filter} {d : Data} {query : TestcasesQuery}
  {plan plan' : List Entry → List Entry} {projectId : Uuid}

omit [Unicode] [QueryTexts] in
theorem nodup_entries : (d.entries.map fun e ↦ e.row.id).Nodup := by
  unfold Data.entries
  rw [List.map_map]
  exact d.db.testcases.nodup

omit [Unicode] [QueryTexts] in
theorem nodup_kept : ((kept filters d).map fun e ↦ e.row.id).Nodup :=
  nodup_entries.sublist (List.filter_sublist.map _)

omit [QueryTexts] in
/-- Every statement arranges the rows in the same way. -/
theorem plan_eq (h : Sorts query plan) (h' : Sorts query plan') :
    plan (kept filters d) = plan' (kept filters d) := by
  apply Arranges.unique h h'
  intro a ha b hb heq
  exact List.inj_on_of_nodup_map nodup_kept ha hb (id_eq_of_order_eq heq)

omit [QueryTexts] in
theorem listsAll_plan (h : Sorts query plan) : ListsAll filters d (plan (kept filters d)) where
  nodup := ((h.perm _).map _).nodup_iff.mpr nodup_kept
  mem_iff _ := (h.perm _).mem_iff

variable (hvalid : buildTestcaseFilterFragments projectId query d.db = .ok filters)

include hvalid

/-- A statement with the order goes through where the numbers fit. -/
theorem orderedBy_eq_ok (hfits : query.sortBy = .text "id" →
      ∀ e ∈ kept filters d, FitsBigint e.row.externalId) :
    orderedBy plan projectId query d = .ok (plan (kept filters d)) := by
  unfold orderedBy
  rw [hvalid]
  show (if _ then _ else _) = _
  rw [if_neg]
  · rfl
  · intro h
    rw [Bool.and_eq_true, decide_eq_true_eq, List.any_eq_true] at h
    obtain ⟨hsort, e, he, hlarge⟩ := h
    rw [Option.any_eq_true] at hlarge
    obtain ⟨n, hn, hlt⟩ := hlarge
    exact absurd (hfits hsort e he n hn) (Nat.not_le.mpr (of_decide_eq_true hlt))

/-- And only there. -/
theorem fits_of_orderedBy_eq_ok {entries : List Entry}
    (h : orderedBy plan projectId query d = .ok entries) (hsort : query.sortBy = .text "id") :
    ∀ e ∈ kept filters d, FitsBigint e.row.externalId := by
  unfold orderedBy at h
  rw [hvalid] at h
  change (if _ then _ else _) = _ at h
  split at h
  · cases h
  · rename_i hnot
    intro e he n hn
    by_contra hlt
    apply hnot
    rw [Bool.and_eq_true, decide_eq_true_eq, List.any_eq_true]
    refine ⟨hsort, e, he, ?_⟩
    rw [hn]
    exact decide_eq_true (Nat.not_le.mp hlt)

end Rows

/-! ## The sort of the list, the steps of the other export -/

section Agreement

variable [Unicode] [QueryTexts] {projectId : Uuid} {query : TestcasesQuery} {limit offset : ℕ}
  {d : Data}

theorem filters_of_matching {all : List Entry}
    (h : matching projectId query d = .ok all) :
    ∃ filters, buildTestcaseFilterFragments projectId query d.db = .ok filters ∧
      all.length = (kept filters d).length := by
  unfold matching at h
  cases hvalid : buildTestcaseFilterFragments projectId query d.db with
  | error e =>
      rw [hvalid] at h
      cases h
  | ok filters =>
      rw [hvalid] at h
      change (if _ then _ else _) = _ at h
      split at h
      · cases h
      · cases h
        exact ⟨filters, rfl, List.length_insertionSort _ _⟩

/-- The list as the caches have it is the list with one of the plans. -/
theorem listTestCasesUncached_insertionSort :
    listTestCasesUncached
        (fun rows ↦ rows.insertionSort fun a b ↦ buildTestcaseOrderBy query a b ≠ .gt)
        projectId query limit offset d =
      Tesbo.listTestCasesUncached projectId query limit offset d := by
  have hordered : orderedBy
      (fun rows ↦ rows.insertionSort fun a b ↦ buildTestcaseOrderBy query a b ≠ .gt)
      projectId query d = matching projectId query d := rfl
  unfold listTestCasesUncached Tesbo.listTestCasesUncached selectPage countMatching
  rw [hordered]
  cases hmatching : matching projectId query d with
  | error e => rfl
  | ok all =>
      obtain ⟨filters, hvalid, hlength⟩ := filters_of_matching hmatching
      rw [hvalid]
      show (if pageOf limit offset all = [] ∧ 0 < offset then
          (.ok ⟨[], (kept filters d).length⟩ : Except Failure Page)
        else .ok ⟨(pageOf limit offset all).map pageRow,
          if pageOf limit offset all = [] then 0 else all.length⟩) =
        if needsCount offset ⟨(pageOf limit offset all).map pageRow,
          if pageOf limit offset all = [] then 0 else all.length⟩ = true
        then .ok ⟨(pageOf limit offset all).map pageRow, all.length⟩
        else .ok ⟨(pageOf limit offset all).map pageRow,
          if pageOf limit offset all = [] then 0 else all.length⟩
      have hneeds : ∀ total : ℕ,
          needsCount offset ⟨(pageOf limit offset all).map pageRow, total⟩ = true ↔
            pageOf limit offset all = [] ∧ 0 < offset := by
        intro total
        unfold needsCount
        rw [Bool.and_eq_true, decide_eq_true_eq, decide_eq_true_eq, List.map_eq_nil_iff]
      by_cases hempty : pageOf limit offset all = [] ∧ 0 < offset
      · rw [if_pos hempty, if_pos ((hneeds _).mpr hempty), hempty.1, hlength]
        rfl
      · rw [if_neg hempty, if_neg (mt (hneeds _).mp hempty)]

end Agreement

/-! ## The steps of a row -/

section Steps

theorem isSome_mapM_iff {α β : Type} {f : α → Option β} {as : List α} :
    (as.mapM f).isSome = true ↔ ∀ a ∈ as, (f a).isSome = true := by
  induction as with
  | nil => exact iff_of_true rfl fun _ h ↦ absurd h List.not_mem_nil
  | cons a as ih =>
      rw [List.mapM_cons, List.forall_mem_cons, ← ih]
      cases f a with
      | none => exact iff_of_false Bool.false_ne_true fun h ↦ Bool.false_ne_true h.1
      | some b =>
          cases as.mapM f with
          | none => exact iff_of_false Bool.false_ne_true fun h ↦ Bool.false_ne_true h.2
          | some bs => exact iff_of_true rfl ⟨rfl, rfl⟩

theorem exists_mapM_eq_ok {ε α β : Type} {f : α → Except ε β} {as : List α}
    (h : ∀ a ∈ as, ∃ b, f a = .ok b) : ∃ bs, as.mapM f = .ok bs := by
  induction as with
  | nil => exact ⟨[], rfl⟩
  | cons a as ih =>
      obtain ⟨b, hb⟩ := h a List.mem_cons_self
      obtain ⟨bs, hbs⟩ := ih fun a ha ↦ h a (List.mem_cons_of_mem _ ha)
      rw [List.mapM_cons, hb, hbs]
      exact ⟨b :: bs, rfl⟩

theorem exportSteps_isSome_iff {value : StoredSteps} :
    (exportSteps (safeSteps value)).isSome = true ↔ Writable value := by
  unfold Writable
  generalize safeSteps value = steps
  unfold exportSteps
  split
  · exact iff_of_true rfl (.inl ⟨_, _, _, _, _, rfl⟩)
  · rename_i hseveral
    have hlines : ∀ lines : Option (List String),
        (lines >>= fun lines ↦ pure (⟨joinTruthy " | " lines, .falsy, .falsy⟩ : ExportedSteps)).isSome =
          lines.isSome := by
      intro lines
      cases lines <;> rfl
    rw [hlines, isSome_mapM_iff]
    constructor
    · exact .inr
    · rintro (⟨action, step, description, expectedResult, expected, h⟩ | h)
      · exact absurd h (hseveral _ _ _ _ _)
      · exact h

variable {ν : Type} [JsNumber ν] {definitions : List (ExportDefinition ν)} {r : Repository ν}

/-- A row is written where the steps can be. -/
theorem exists_exportRow_iff {e : Entry} :
    (∃ row, exportRow definitions r e = .ok row) ↔ Writable (r.steps e.row.id) := by
  rw [← exportSteps_isSome_iff]
  unfold exportRow
  cases exportSteps (safeSteps (r.steps e.row.id)) with
  | none => exact iff_of_false (fun ⟨_, h⟩ ↦ nomatch h) Bool.false_ne_true
  | some steps => exact iff_of_true ⟨_, rfl⟩ rfl

end Steps

/-! ## The pages -/

section Pages

variable [Unicode] [QueryTexts] {filters : List Filter} {d : Data} {query : TestcasesQuery}
  {plan : List Entry → List Entry} {projectId : Uuid} {limit : ℕ}

/-- A page has its share of the rows, and the number of all of them, also past the end. -/
theorem listTestCasesUncached_eq_ok (hsorts : Sorts query plan) (hlimit : 0 < limit)
    (hvalid : buildTestcaseFilterFragments projectId query d.db = .ok filters)
    (hfits : query.sortBy = .text "id" → ∀ e ∈ kept filters d, FitsBigint e.row.externalId)
    (n : ℕ) :
    listTestCasesUncached plan projectId query limit (n * limit) d =
      .ok ⟨(page limit n (plan (kept filters d))).map pageRow, (plan (kept filters d)).length⟩ := by
  have hlength : (plan (kept filters d)).length = (kept filters d).length :=
    (hsorts.perm _).length_eq
  unfold listTestCasesUncached
  rw [orderedBy_eq_ok hvalid hfits, hvalid]
  show (if page limit n (plan (kept filters d)) = [] ∧ 0 < n * limit then
      (.ok ⟨[], (kept filters d).length⟩ : Except Failure Page)
    else .ok ⟨(page limit n (plan (kept filters d))).map pageRow,
      if page limit n (plan (kept filters d)) = [] then 0
      else (plan (kept filters d)).length⟩) = _
  split
  · rename_i hpast
    rw [hpast.1, hlength]
    rfl
  · rename_i hnot
    split
    · rename_i hnone
      have hfirst : n = 0 := by
        by_contra hn
        exact hnot ⟨hnone, Nat.mul_pos (Nat.pos_of_ne_zero hn) hlimit⟩
      -- the first page is empty where there is nothing to list
      have hempty : (plan (kept filters d)).length = 0 := by
        rw [hfirst] at hnone
        unfold page at hnone
        rw [Nat.zero_mul, List.drop_zero, List.take_eq_nil_iff] at hnone
        rcases hnone with hzero | hnil
        · exact absurd hzero (Nat.pos_iff_ne_zero.mp hlimit)
        · rw [hnil, List.length_nil]
      rw [hempty]
    · rfl

theorem orderedBy_of_listTestCasesUncached {offset : ℕ} {result : Page}
    (h : listTestCasesUncached plan projectId query limit offset d = .ok result) :
    ∃ entries, orderedBy plan projectId query d = .ok entries := by
  unfold listTestCasesUncached at h
  cases hordered : orderedBy plan projectId query d with
  | error e =>
      rw [hordered] at h
      cases h
  | ok entries => exact ⟨entries, rfl⟩

end Pages

@[reducible] def wordTexts : QueryTexts where
  idText text := .word text
  fieldFilter _ _ := .ok fun _ ↦ true

/-- A live test case. -/
def oneCase (externalId : String) : Testcase where
  id := 7
  projectId := 1
  suiteId := none
  externalId := externalId
  text
    | .title => some "Pays by card"
    | .priority => some "P1"
    | .status => some "Draft"
    | _ => none
  steps := []
  ownerId := none
  createdBy := none
  updatedBy := none
  updatedAt := 0
  deletedAt := none
  deletedBy := none

def oneCaseRepository (externalId : String) (steps : StoredSteps) : Repository ℕ where
  data :=
    { db := { Db.empty with testcases := ⟨[oneCase externalId], List.nodup_singleton _⟩ }
      details := fun _ ↦ .blank
      createdAt := fun _ ↦ 0 }
  steps _ := steps
  fieldValues _ _ := none

/-- The repository sorted by id. -/
def byId : TestcasesQuery := { TestcasesQuery.plain with sortBy := .text "id" }

def byIdPlan (rows : List Entry) : List Entry :=
  rows.insertionSort fun a b ↦ @buildTestcaseOrderBy asciiCase byId a b ≠ .gt

/-- The project, without what is archived. -/
def byIdFilters : List Filter :=
  [fun e ↦ e.row.projectId = 1 && e.row.live, fun e ↦ !e.row.archived]

/-- The pages of ten and the export of a repository sorted by id. -/
def ByIdPagesAgree (r : Repository ℕ) : Prop :=
  @PagesAgree asciiCase wordTexts ℕ _ (fun _ ↦ byIdPlan) byIdPlan 1 [] byId byIdFilters 10 r

theorem sorts_byIdPlan : @Sorts asciiCase byId byIdPlan :=
  @arranges_insertionSort _ _ (@transCmp_buildTestcaseOrderBy asciiCase byId)

/-- An id the rename accepts. -/
def longId : String := "SHOP-TC-9223372036854775808"

end Tesbo.PagedCases
