import Tesbo.Text
import Tesbo.Reasoning.Assoc

/-!
# The analysis behind the Review Board

Test cases are compared over the fields that say what they do.  Cases of one content are exact
duplicates, and an inverted index over title and actions proposes the pairs that may be similar.
-/

namespace Tesbo.ReviewBoard

open Reasoning

/-! ## Rows -/

/-- A value in a step: none (`undefined` or `null`), text, a number as it is printed, or anything
else. -/
inductive Scalar where
  | absent
  | text (s : String)
  | number (s : String)
  | other
deriving DecidableEq, Repr

/-- An entry of the steps of a case. -/
inductive StepItem where
  | object (action step description expectedResult expected : Scalar)
  | scalar (value : Scalar)
deriving DecidableEq, Repr

/-- `testcases.steps`, as it is decoded: an array, a text, or anything else. -/
inductive StepsColumn where
  | array (items : List StepItem)
  | text (s : String)
  | other
deriving DecidableEq, Repr

/-- The columns of `testcases` a case is compared and judged by. -/
structure TestcaseSource where
  id : Uuid
  externalId : String
  title : Option String
  preconditions : Option String
  postconditions : Option String
  testData : Option String
  steps : StepsColumn
  description : Option String
  status : Option String
  suiteId : Option Uuid
  priority : Option String
  severity : Option String
  type : Option String
  component : Option String
  ownerId : Option Uuid
  jiraIssueKey : Option String
  linearIssueKey : Option String
  notionPageId : Option String
deriving DecidableEq, Repr

structure Step where
  action : String
  expected : String
deriving DecidableEq, Repr

/-- The compared content of a case, normalised. -/
structure Content where
  title : String
  preconditions : String
  postconditions : String
  testData : String
  steps : List (String × String)
deriving DecidableEq, Repr

/-- What is judged of a case besides its content. -/
structure StateDetails where
  description : String
  texts : List String
  suiteId : Option Uuid
  ownerId : Option Uuid
deriving DecidableEq, Repr

/-- What the runtime supplies: its Unicode tables, `JSON.parse`, the digests, and the doubles as they
are ordered without NaN, which no score is. -/
class Runtime extends Unicode where
  nfkc : String → String
  isLetterOrNumber : Char → Bool
  /-- `JSON.parse`, `none` where it throws. -/
  decodeJson : String → Option StepsColumn
  contentDigest : Content → String
  stateDigest : StateDetails → String
  Double : Type
  order : LinearOrder Double
  /-- The double nearest to a number. -/
  literal : ℚ → Double
  add : Double → Double → Double
  mul : Double → Double → Double
  div : Double → Double → Double
  /-- `Math.round` -/
  round : Double → ℤ

/-- A runtime for programs that meet ASCII text only and decode nothing: a digest is the text it is of,
and the arithmetic is exact. -/
@[reducible] def asciiRuntime : Runtime where
  toUnicode := asciiCase
  nfkc := id
  isLetterOrNumber := Char.isAlphanum
  decodeJson _ := none
  contentDigest c := String.intercalate "\n"
    ([c.title, c.preconditions, c.postconditions, c.testData] ++
      c.steps.map fun s ↦ s.1 ++ "\t" ++ s.2)
  stateDigest s := String.intercalate "\n"
    (s.description :: s.texts ++ [toString s.suiteId, toString s.ownerId])
  Double := ℚ
  order := inferInstance
  literal q := q
  add x y := x + y
  mul x y := x * y
  div x y := x / y
  round x := ⌊x + 1 / 2⌋

abbrev Double [Runtime] : Type := Runtime.Double

instance [Runtime] : LinearOrder Double := Runtime.order

structure Norm where
  title : String
  preconditions : String
  postconditions : String
  testData : String
  actions : String
  expected : String
deriving DecidableEq, Repr

structure ComparableCase where
  id : Uuid
  externalId : String
  title : String
  description : String
  preconditions : String
  postconditions : String
  testData : String
  steps : List Step
  fingerprint : String
  stateFingerprint : String
  norm : Norm
deriving DecidableEq, Repr

section Comparing

variable [Runtime]

/-! ## Normal forms -/

/-- `replace(/[^\p{L}\p{N}]+/gu, " ")` -/
def spaceOut : List Char → List Char
  | [] => []
  | [c] => if Runtime.isLetterOrNumber c then [c] else [' ']
  | c :: d :: cs =>
      if Runtime.isLetterOrNumber c then c :: spaceOut (d :: cs)
      else if Runtime.isLetterOrNumber d then ' ' :: spaceOut (d :: cs)
      else spaceOut (d :: cs)

def normalizeText (value : String) : String :=
  jsTrim (String.ofList (spaceOut (Unicode.toLowerCase (Runtime.nfkc value)).toList))

def scalarText : Scalar → String
  | .text s => jsTrim s
  | .number s => s
  | .absent | .other => ""

/-- `a || b` of texts. -/
def orText (a b : String) : String := if a = "" then b else a

def readStep : StepItem → Option Step
  | .object action step description expectedResult expected =>
      let action := orText (scalarText action) (orText (scalarText step) (scalarText description))
      let expected := orText (scalarText expectedResult) (scalarText expected)
      if action = "" ∧ expected = "" then none else some ⟨action, expected⟩
  | .scalar value =>
      let action := scalarText value
      if action = "" then none else some ⟨action, ""⟩

/-- One step, unless it has no text. -/
def oneStep (action : String) : List Step := if action = "" then [] else [⟨action, ""⟩]

def parseSteps : StepsColumn → List Step
  | .array items => items.filterMap readStep
  | .other => []
  | .text raw =>
      let text := jsTrim raw
      if text = "" then []
      else
        match Runtime.decodeJson text with
        | some (.array items) => items.filterMap readStep
        | some (.text inner) =>
            match Runtime.decodeJson (jsTrim inner) with
            | some (.array items) => items.filterMap readStep
            | _ => oneStep (jsTrim inner)
        | _ => oneStep text

def plain (value : Option String) : String := jsTrim (value.getD "")

def stateFingerprintOf (source : TestcaseSource) : String :=
  Runtime.stateDigest {
    description := normalizeText (source.description.getD "")
    texts := [plain source.status, plain source.priority, plain source.severity, plain source.type,
      plain source.component, plain source.jiraIssueKey, plain source.linearIssueKey,
      plain source.notionPageId]
    suiteId := source.suiteId
    ownerId := source.ownerId }

def joinLines (lines : List String) : String := String.intercalate "\n" lines

def toComparable (source : TestcaseSource) : ComparableCase :=
  let steps := parseSteps source.steps
  let norm : Norm := {
    title := normalizeText (source.title.getD "")
    preconditions := normalizeText (source.preconditions.getD "")
    postconditions := normalizeText (source.postconditions.getD "")
    testData := normalizeText (source.testData.getD "")
    actions := joinLines (steps.map fun s ↦ normalizeText s.action)
    expected := joinLines (steps.map fun s ↦ normalizeText s.expected) }
  { id := source.id
    externalId := source.externalId
    title := source.title.getD ""
    description := source.description.getD ""
    preconditions := source.preconditions.getD ""
    postconditions := source.postconditions.getD ""
    testData := source.testData.getD ""
    steps := steps
    fingerprint := Runtime.contentDigest ⟨norm.title, norm.preconditions, norm.postconditions,
      norm.testData, steps.map fun s ↦ (normalizeText s.action, normalizeText s.expected)⟩
    stateFingerprint := stateFingerprintOf source
    norm := norm }

/-! ## Scores -/

/-- The words of a text, each once: `new Set(text.split(/\s+/).filter(Boolean))`. -/
def tokens (text : String) : List String :=
  (((text.toList.splitOnP jsSpace).filter fun word ↦ !word.isEmpty).map String.ofList).dedup

def shared (small large : List String) : ℕ := small.countP fun t ↦ t ∈ large

def dice (a b : List String) : Double :=
  if a.isEmpty ∧ b.isEmpty then Runtime.literal 1
  else if a.isEmpty ∨ b.isEmpty then Runtime.literal 0
  else
    let common := if a.length ≤ b.length then shared a b else shared b a
    Runtime.div (Runtime.literal (2 * common : ℕ)) (Runtime.literal (a.length + b.length : ℕ))

inductive ScoredField where
  | title | steps | expectedResults | preconditions | testData
deriving DecidableEq, Repr

namespace ScoredField

def all : List ScoredField := [title, steps, expectedResults, preconditions, testData]

def weight : ScoredField → Double
  | title => Runtime.literal (25 / 100)
  | steps => Runtime.literal (30 / 100)
  | expectedResults => Runtime.literal (25 / 100)
  | preconditions => Runtime.literal (10 / 100)
  | testData => Runtime.literal (10 / 100)

omit [Runtime] in
def label : ScoredField → String
  | title => "title"
  | steps => "steps"
  | expectedResults => "expected results"
  | preconditions => "preconditions"
  | testData => "test data"

omit [Runtime] in
def read (norm : Norm) : ScoredField → String
  | title => norm.title
  | steps => norm.actions
  | expectedResults => norm.expected
  | preconditions => norm.preconditions
  | testData => norm.testData

end ScoredField

/-- The fields that are not empty on both sides, each with its similarity. -/
def parts (a b : ComparableCase) : List (ScoredField × Double) :=
  ScoredField.all.filterMap fun field ↦
    let x := field.read a.norm
    let y := field.read b.norm
    if jsTrim x = "" ∧ jsTrim y = "" then none else some (field, dice (tokens x) (tokens y))

def sumDoubles (ds : List Double) : Double := ds.foldl Runtime.add (Runtime.literal 0)

def wordingScore (a b : ComparableCase) : Double :=
  let weighted := sumDoubles ((parts a b).map fun p ↦ Runtime.mul p.1.weight p.2)
  let weight := sumDoubles ((parts a b).map fun p ↦ p.1.weight)
  if weight = Runtime.literal 0 then Runtime.literal 0 else Runtime.div weighted weight

structure StepAgreement where
  identical : ℕ
  total : ℕ
deriving DecidableEq, Repr

def stepKey (s : Step) : String := normalizeText s.action ++ "\u0001" ++ normalizeText s.expected

/-- The steps both cases have, matched as multisets. -/
def stepAgreement (a b : ComparableCase) : StepAgreement where
  identical := (b.steps.map stepKey).bagInter (a.steps.map stepKey) |>.length
  total := max a.steps.length b.steps.length

def blendedScore (wording : Double) (agreement : StepAgreement) : Double :=
  if agreement.total = 0 then wording
  else Runtime.add (Runtime.mul (Runtime.literal (1 / 2)) wording)
    (Runtime.mul (Runtime.literal (1 / 2))
      (Runtime.div (Runtime.literal agreement.identical) (Runtime.literal agreement.total)))

/-! ## Differences -/

inductive DiffField where
  | title | description | preconditions | steps | expectedResults | testData | postconditions
deriving DecidableEq, Repr

def DiffField.label : DiffField → String
  | title => "title"
  | description => "description"
  | preconditions => "preconditions"
  | steps => "steps"
  | expectedResults => "expected results"
  | testData => "test data"
  | postconditions => "postconditions"

structure Difference where
  field : DiffField
  a : String
  b : String
deriving DecidableEq, Repr

def diffTextCap : ℕ := 1000

def clip (text : String) : String :=
  if diffTextCap < jsLength text then jsSlice diffTextCap text ++ "…" else text

def numbered (lines : List String) : String :=
  clip (joinLines (lines.zipIdx.map fun l ↦ s!"{l.2 + 1}. {l.1}"))

/-- A difference, where there is one. -/
def differing (differs : Prop) [Decidable differs] (field : DiffField) (a b : String) :
    List Difference :=
  if differs then [⟨field, a, b⟩] else []

def diffCases (a b : ComparableCase) : List Difference :=
  differing (a.norm.title ≠ b.norm.title) .title (clip a.title) (clip b.title) ++
  differing (a.norm.preconditions ≠ b.norm.preconditions) .preconditions
    (clip a.preconditions) (clip b.preconditions) ++
  differing (a.norm.actions ≠ b.norm.actions ∨ a.steps.length ≠ b.steps.length) .steps
    (numbered (a.steps.map Step.action)) (numbered (b.steps.map Step.action)) ++
  differing (a.norm.expected ≠ b.norm.expected) .expectedResults
    (numbered (a.steps.map Step.expected)) (numbered (b.steps.map Step.expected)) ++
  differing (a.norm.testData ≠ b.norm.testData) .testData (clip a.testData) (clip b.testData) ++
  differing (a.norm.postconditions ≠ b.norm.postconditions) .postconditions
    (clip a.postconditions) (clip b.postconditions)

/-! ## Findings -/

inductive Classification where
  | exactDuplicate
  | similar
deriving DecidableEq, Repr

structure Finding where
  aId : Uuid
  bId : Uuid
  classification : Classification
  similarity : Double
  explanation : String
  differences : List Difference
  fingerprintA : String
  fingerprintB : String
  stateFingerprintA : String
  stateFingerprintB : String

def similarThreshold : Double := Runtime.literal (6 / 10)

def percent (d : Double) : ℤ := Runtime.round (Runtime.mul d (Runtime.literal 100))

def pct (d : Double) : String := s!"{percent d}%"

def breakdown (a b : ComparableCase) : String :=
  String.intercalate ", " (((parts a b).filter fun p ↦ 1 < percent p.2).map fun p ↦
    s!"{p.1.label} {pct p.2}")

def explain (a b : ComparableCase) (score : Double) : String :=
  if a.fingerprint = b.fingerprint then
    "Identical title and details, but at least one of the two has no steps, so their behaviour cannot be compared. Not treated as an exact duplicate."
  else
    let agreement := stepAgreement a b
    let plural := if agreement.total = 1 then "" else "s"
    let clauses :=
      (if 0 < agreement.total then
        [s!"{agreement.identical} of {agreement.total} step{plural} identical"]
      else []) ++
      if breakdown a b = "" then [] else [s!"wording similarity: {breakdown a b}"]
    let details := if clauses.isEmpty then "" else " (" ++ String.intercalate "; " clauses ++ ")"
    let fields := String.intercalate ", " ((diffCases a b).map fun d ↦ d.field.label)
    s!"{pct score} match{details}. Differs in: {fields}."

def isExact (a b : ComparableCase) : Bool :=
  a.fingerprint = b.fingerprint ∧ a.steps ≠ [] ∧ b.steps ≠ []

def pairScore (a b : ComparableCase) : Double :=
  blendedScore (wordingScore a b) (stepAgreement a b)

def exactFinding (a b : ComparableCase) : Finding where
  aId := a.id
  bId := b.id
  classification := .exactDuplicate
  similarity := Runtime.literal 1
  explanation := "Title, preconditions, steps, expected results, test data and postconditions are identical once case, spacing and punctuation are ignored."
  differences := diffCases a b
  fingerprintA := a.fingerprint
  fingerprintB := b.fingerprint
  stateFingerprintA := a.stateFingerprint
  stateFingerprintB := b.stateFingerprint

def similarFinding (a b : ComparableCase) : Finding where
  aId := a.id
  bId := b.id
  classification := .similar
  similarity := Runtime.div
    (Runtime.literal (Runtime.round (Runtime.mul (pairScore a b) (Runtime.literal 1000))))
    (Runtime.literal 1000)
  explanation := explain a b (pairScore a b)
  differences := diffCases a b
  fingerprintA := a.fingerprint
  fingerprintB := b.fingerprint
  stateFingerprintA := a.stateFingerprint
  stateFingerprintB := b.stateFingerprint

/-- `orderedPair`, and what is found of the two. -/
def buildFinding (x y : ComparableCase) : Option Finding :=
  let a := if x.id < y.id then x else y
  let b := if x.id < y.id then y else x
  if isExact a b then some (exactFinding a b)
  else if pairScore a b < similarThreshold then none
  else some (similarFinding a b)

/-- The pair as it is now: `buildFinding` with a cut-off of 0, which no score is below. -/
def rescorePair (x y : ComparableCase) : Finding :=
  let a := if x.id < y.id then x else y
  let b := if x.id < y.id then y else x
  if isExact a b then exactFinding a b else similarFinding a b

/-! ## The pairs that are compared -/

abbrev CasePair := ComparableCase × ComparableCase

omit [Runtime] in
/-- The pairs of a list, the earlier one first. -/
def pairsOf : List ComparableCase → List CasePair
  | [] => []
  | x :: rest => rest.map (fun y ↦ (x, y)) ++ pairsOf rest

omit [Runtime] in
/-- The cases that have steps, by their content: the `Map` in its order. -/
def byFingerprint (cases : List ComparableCase) : Assoc String (List ComparableCase) :=
  (cases.filter fun c ↦ c.steps ≠ []).foldl
    (fun groups c ↦ groups.set c.fingerprint ((groups.get c.fingerprint).getD [] ++ [c])) []

omit [Runtime] in
def exactPairs (cases : List ComparableCase) : List CasePair :=
  (byFingerprint cases).flatMap fun group ↦ pairsOf group.2

omit [Runtime] in
def indexTokens (c : ComparableCase) : List String := tokens (c.norm.title ++ " " ++ c.norm.actions)

omit [Runtime] in
/-- In how many cases a word is. -/
def documentFrequency (cases : List ComparableCase) (t : String) : ℕ :=
  cases.countP fun c ↦ t ∈ indexTokens c

omit [Runtime] in
def dfCap (cases : List ComparableCase) : ℕ := max 30 (cases.length / 10)

omit [Runtime] in
/-- The words of a case that are in another one, those too common left out. -/
def sharedTokens (cases : List ComparableCase) (x y : ComparableCase) : ℕ :=
  ((indexTokens x).filter fun t ↦ documentFrequency cases t ≤ dfCap cases).countP fun t ↦
    t ∈ indexTokens y

def maxCandidatesPerCase : ℕ := 25

/-- A later case, with the words it shares. -/
structure Candidate where
  index : ℕ
  count : ℕ
deriving DecidableEq, Repr

/-- `q[1] - p[1] || p[0] - q[0]` -/
def Candidate.before (p q : Candidate) : Bool :=
  q.count < p.count ∨ (p.count = q.count ∧ p.index ≤ q.index)

omit [Runtime] in
/-- The later cases that share two words with the `i`th, in the order they are tried. -/
def candidates (cases : List ComparableCase) (i : ℕ) (x : ComparableCase) : List Candidate :=
  ((cases.zipIdx.filterMap fun (y, j) ↦
    if i < j ∧ 2 ≤ sharedTokens cases x y then some (⟨j, sharedTokens cases x y⟩ : Candidate)
    else none).mergeSort Candidate.before).take maxCandidatesPerCase

omit [Runtime] in
def similarPairs (cases : List ComparableCase) : List CasePair :=
  cases.zipIdx.flatMap fun (x, i) ↦
    (candidates cases i x).filterMap fun c ↦ cases[c.index]?.map fun y ↦ (x, y)

omit [Runtime] in
/-- The pairs that are compared, in order. -/
def proposals (cases : List ComparableCase) : List CasePair :=
  exactPairs cases ++ similarPairs cases

omit [Runtime] in
def pairKey (pair : CasePair) : Uuid × Uuid :=
  if pair.1.id < pair.2.id then (pair.1.id, pair.2.id) else (pair.2.id, pair.1.id)

/-- What is left to compare of some pairs, where others have been `seen`. -/
def consider (seen : List (Uuid × Uuid)) : List CasePair → List Finding
  | [] => []
  | pair :: pairs =>
      if pairKey pair ∈ seen then consider seen pairs
      else (buildFinding pair.1 pair.2).toList ++
        consider (pairKey pair :: seen) pairs

/-- Exact duplicates first, then the more similar pairs, then by the ids of the two. -/
def Finding.before (p q : Finding) : Bool :=
  if p.classification ≠ q.classification then p.classification = .exactDuplicate
  else if p.similarity ≠ q.similarity then q.similarity < p.similarity
  else p.aId < q.aId ∨ (p.aId = q.aId ∧ p.bId ≤ q.bId)

def maxPairsPerRun : ℕ := 2000

structure Analysis where
  findings : List Finding
  truncated : Bool

def analyse (cases : List ComparableCase) : Analysis :=
  let findings := (consider [] (proposals cases)).mergeSort Finding.before
  let truncated := maxPairsPerRun < findings.length
  ⟨if truncated then findings.take maxPairsPerRun else findings, truncated⟩

end Comparing

end Tesbo.ReviewBoard
