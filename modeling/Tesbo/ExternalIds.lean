import Tesbo.Access
import Tesbo.Text

/-!
# The readable ids of test cases

`<KEY>-TC-<n>`: the key comes from the request, the project's settings or the project's key, the
number is one more than the largest trailing number under that prefix.
-/

namespace Tesbo

open Reasoning Service

section Prefix

variable [Unicode]

/-- `[A-Z0-9]` -/
def upperOrDigit (c : Char) : Bool := c.isUpper || c.isDigit

def normalizeTestcaseIdPrefix (value : String) : String :=
  String.ofList
    (((Unicode.toUpperCase (jsTrim value)).toList.filter upperOrDigit).take 3)

/-- The first text that is not empty. -/
def firstNonEmpty : List String → String
  | [] => ""
  | s :: rest => if s = "" then firstNonEmpty rest else s

/-- The `<KEY>` half of the id. -/
def idPrefix (requested : Option String) (project : Option Project) : String :=
  firstNonEmpty [
    normalizeTestcaseIdPrefix (requested.getD ""),
    normalizeTestcaseIdPrefix ((project.map Project.testcaseIdPrefix).getD ""),
    normalizeTestcaseIdPrefix ((project.map Project.key).getD ""),
    "TC"]

def externalIdPrefix (projectId : Uuid) (requested : Option String) : Handler String :=
  query fun db ↦ idPrefix requested (db.projects.find projectId)

end Prefix

def externalIdOf (key : String) (n : ℕ) : String := key ++ "-TC-" ++ toString n

/-- `external_id LIKE '<key>-TC-%'` -/
def underPrefix (key externalId : String) : Bool :=
  (key ++ "-TC-").toList.isPrefixOf externalId.toList

/-- `(regexp_match(external_id, '\d+$'))[1]`, as a number. -/
def trailingNumber (externalId : String) : Option ℕ :=
  let digits := externalId.toList.rtakeWhile Char.isDigit
  if digits = [] then none else some (Nat.ofDigitChars 10 digits 0)

/-- The test cases of the project, deleted ones included, whose id is under the prefix. -/
def idsUnderPrefix (projectId : Uuid) (key : String) (db : Db) : List String :=
  (db.testcases.select fun t ↦ t.projectId = projectId && underPrefix key t.externalId).map
    Testcase.externalId

/-- The largest number an `INTEGER` holds. -/
def maxInt4 : ℕ := 2147483647

/-- `COALESCE(MAX(…::int), 0)`: the cast fails as soon as one number is too large. -/
def maxTrailingNumber (ids : List String) : Except Failure ℕ :=
  let numbers := ids.filterMap trailingNumber
  if numbers.all (· ≤ maxInt4) then .ok (numbers.foldr max 0) else .error .outOfRange

def maxExternalIdSeq (projectId : Uuid) (key : String) : Handler ℕ :=
  check fun db ↦ maxTrailingNumber (idsUnderPrefix projectId key db)

def nextExternalId [Unicode] (projectId : Uuid) (requested : Option String) : Handler String := do
  let key ← externalIdPrefix projectId requested
  let n ← maxExternalIdSeq projectId key
  pure (externalIdOf key (n + 1))

/-! ## Numbers and texts -/

theorem toList_externalIdOf (key : String) (n : ℕ) :
    (externalIdOf key n).toList = (key ++ "-TC-").toList ++ Nat.toDigits 10 n := by
  unfold externalIdOf
  rw [String.toList_append]
  exact congrArg _ (Nat.toList_repr)

theorem underPrefix_externalIdOf (key : String) (n : ℕ) :
    underPrefix key (externalIdOf key n) = true := by
  unfold underPrefix
  rw [List.isPrefixOf_iff_prefix, toList_externalIdOf]
  exact List.prefix_append _ _

/-- The digits after a text that ends in none are all that is read. -/
theorem rtakeWhile_append_digits {pre digits : List Char} {c : Char} (hc : c.isDigit = false)
    (hdigits : ∀ d ∈ digits, d.isDigit = true) :
    (pre ++ [c] ++ digits).rtakeWhile Char.isDigit = digits := by
  have hrev : (pre ++ [c] ++ digits).reverse = digits.reverse ++ c :: pre.reverse := by simp
  unfold List.rtakeWhile
  rw [hrev, List.takeWhile_append_of_pos fun d hd ↦ hdigits d (List.mem_reverse.mp hd),
    List.takeWhile_cons_of_neg (by rw [hc]; exact Bool.false_ne_true), List.append_nil,
    List.reverse_reverse]

/-- The number at the end of an id is read back. -/
theorem trailingNumber_externalIdOf (key : String) (n : ℕ) :
    trailingNumber (externalIdOf key n) = some n := by
  have hsplit : (externalIdOf key n).toList = (key ++ "-TC").toList ++ ['-'] ++ Nat.toDigits 10 n := by
    rw [toList_externalIdOf]
    congr 1
    rw [String.toList_append, String.toList_append, List.append_assoc]
    rfl
  have hdigits : (externalIdOf key n).toList.rtakeWhile Char.isDigit = Nat.toDigits 10 n := by
    rw [hsplit]
    exact rtakeWhile_append_digits rfl fun d hd ↦ Nat.isDigit_of_mem_toDigits (by decide) (by decide) hd
  unfold trailingNumber
  simp only [hdigits, Nat.toDigits_ne_nil, if_false]
  rw [Nat.ofDigitChars_ten_toDigits]

/-- The ids of `n` numbers in a row. -/
def idBlock (key : String) (start n : ℕ) : List String :=
  (List.range n).map fun i ↦ externalIdOf key (start + i)

theorem mem_idBlock {key : String} {start n : ℕ} {id : String} :
    id ∈ idBlock key start n ↔ ∃ i < n, externalIdOf key (start + i) = id := by
  unfold idBlock
  simp only [List.mem_map, List.mem_range]

/-- The largest trailing number of the ids, 0 when they have none. -/
def largestNumber (ids : List String) : ℕ := (ids.filterMap trailingNumber).foldr max 0

theorem le_foldr_max {numbers : List ℕ} {n : ℕ} (h : n ∈ numbers) : n ≤ numbers.foldr max 0 := by
  induction numbers with
  | nil => cases h
  | cons m numbers ih =>
      rw [List.foldr_cons]
      rcases List.mem_cons.mp h with rfl | h
      · exact le_max_left _ _
      · exact (ih h).trans (le_max_right _ _)

theorem foldr_max_le {numbers : List ℕ} {b : ℕ} (h : ∀ n ∈ numbers, n ≤ b) :
    numbers.foldr max 0 ≤ b := by
  induction numbers with
  | nil => exact Nat.zero_le b
  | cons m numbers ih =>
      rw [List.foldr_cons]
      exact max_le (h m List.mem_cons_self) (ih fun n hn ↦ h n (List.mem_cons_of_mem m hn))

theorem le_largestNumber {ids : List String} {id : String} {n : ℕ} (h : id ∈ ids)
    (hn : trailingNumber id = some n) : n ≤ largestNumber ids :=
  le_foldr_max (List.mem_filterMap.mpr ⟨id, h, hn⟩)

/-- The trailing numbers all fit an `INTEGER`. -/
def NumbersFit (ids : List String) : Prop := ∀ id ∈ ids, ∀ n ∈ trailingNumber id, n ≤ maxInt4

instance (ids : List String) : Decidable (NumbersFit ids) :=
  inferInstanceAs (Decidable (∀ id ∈ ids, ∀ n ∈ trailingNumber id, n ≤ maxInt4))

/-- The query answers exactly when the numbers fit. -/
theorem maxTrailingNumber_eq_ok {ids : List String} {m : ℕ} :
    maxTrailingNumber ids = .ok m ↔ NumbersFit ids ∧ largestNumber ids = m := by
  have hfit : (ids.filterMap trailingNumber).all (· ≤ maxInt4) = true ↔ NumbersFit ids := by
    rw [List.all_eq_true]
    constructor
    · intro h id hid n hn
      exact decide_eq_true_eq.mp (h n (List.mem_filterMap.mpr ⟨id, hid, hn⟩))
    · intro h n hn
      obtain ⟨id, hid, hid'⟩ := List.mem_filterMap.mp hn
      exact decide_eq_true (h id hid n hid')
  unfold maxTrailingNumber
  dsimp only
  split
  · rename_i hall
    rw [Except.ok.injEq]
    exact (and_iff_right (hfit.mp hall)).symm
  · rename_i hall
    exact ⟨fun h ↦ (by cases h), fun h ↦ absurd (hfit.mpr h.1) hall⟩

theorem largestNumber_le {ids : List String} (h : NumbersFit ids) : largestNumber ids ≤ maxInt4 := by
  apply foldr_max_le
  intro n hn
  obtain ⟨id, hid, hn⟩ := List.mem_filterMap.mp hn
  exact h id hid n hn

/-! ## Keys -/

/-- The shape of a `<KEY>`. -/
def IsKey (key : String) : Prop :=
  key.toList.length ≤ 3 ∧ ∀ c ∈ key.toList, upperOrDigit c = true

section Keys

variable [Unicode]

theorem isKey_normalize (value : String) : IsKey (normalizeTestcaseIdPrefix value) := by
  unfold IsKey normalizeTestcaseIdPrefix
  rw [String.toList_ofList]
  refine ⟨List.length_take_le _ _, fun c hc ↦ ?_⟩
  exact (List.mem_filter.mp (List.mem_of_mem_take hc)).2

theorem isKey_idPrefix (requested : Option String) (project : Option Project) :
    IsKey (idPrefix requested project) := by
  have hTC : IsKey "TC" := by
    unfold IsKey
    decide
  unfold idPrefix firstNonEmpty
  split
  · unfold firstNonEmpty
    split
    · unfold firstNonEmpty
      split
      · exact hTC
      · exact isKey_normalize _
    · exact isKey_normalize _
  · exact isKey_normalize _

end Keys

/-- An id with a number of at most eleven digits fits its column. -/
theorem varchar_externalIdOf {key : String} (hkey : IsKey key) {n : ℕ} (hn : n < 10 ^ 11) :
    varchar 32 (externalIdOf key n) = .ok (externalIdOf key n) := by
  apply varchar_of_length_le
  have hdigits : (Nat.toDigits 10 n).length ≤ 11 := Nat.toDigits_length 10 n 11 (by decide) hn
  have hlen := hkey.1
  rw [toList_externalIdOf, List.length_append, String.toList_append, List.length_append]
  have htc : "-TC-".toList.length = 4 := rfl
  omega

section Lower

variable [Unicode]

end Lower

end Tesbo
