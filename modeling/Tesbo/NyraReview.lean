import Tesbo.Text
import Tesbo.Reasoning.Assoc
import Tesbo.Reasoning.JsonTexts

/-!
# The document of a product

What a person has approved of NYRA's findings becomes one document of the knowledge base: the
findings of a kind in their order, some of them in groups, each with the values that its kind shows.
A value that is too long is cut, and the document says so.
-/

namespace Tesbo.NyraReview

open Reasoning
open Reasoning.JsonTexts

/-- `localeCompare`, a total order that only ties equal texts. -/
class Collation where
  localeCompare : String → String → Ordering
  transCmp : Std.TransCmp localeCompare
  eqCmp : Std.LawfulEqCmp localeCompare

/-- The order of the code points. -/
@[reducible] def byCodePoints : Collation := ⟨compare, inferInstance, inferInstance⟩

instance transCmp_localeCompare [Collation] : Std.TransCmp Collation.localeCompare :=
  Collation.transCmp

instance eqCmp_localeCompare [Collation] : Std.LawfulEqCmp Collation.localeCompare :=
  Collation.eqCmp

inductive DocKind where
  | screen
  | feature
  | workflow
  | businessRule
  | form
  | tech
deriving DecidableEq, Repr

structure Item where
  kind : DocKind
  title : String
  data : Json

def valueMax : ℕ := 2000

def headingMax : ℕ := 300

structure DocBlock where
  heading : String
  facts : List (String × String)
  steps : List String
deriving DecidableEq, Repr

structure DocGroup where
  heading : Option String
  blocks : List DocBlock
deriving DecidableEq, Repr

structure DocSection where
  id : String
  heading : String
  groups : List DocGroup
deriving DecidableEq, Repr

structure ProductDocument where
  title : String
  intro : List String
  sections : List DocSection
  counts : DocKind → ℕ
  clipped : Bool

/-! ## Values -/

def field (j : Json) (key : String) : Option Json :=
  match j with
  | .object fields => fields.lookup key
  | _ => none

def str : Option Json → String
  | some (.text s) => s
  | _ => ""

def strs : Option Json → List String
  | some (.list items) => items.map fun
      | .text s => s
      | j => stringify j
  | _ => []

def truthy : Option Json → Bool
  | none | some .null => false
  | some (.boolean b) => b
  | some (.number x) => x.text ≠ ['0']
  | some (.text s) => s ≠ ""
  | some (.list _) | some (.object _) => true

/-- `a || b` on texts. -/
def orElse (a b : String) : String := if a = "" then b else a

/-- `Object.keys` of an object or a list, and of nothing else. -/
def keys : Option Json → List String
  | some (.object fields) => fields.map Prod.fst
  | some (.list items) => (List.range items.length).map toString
  | _ => []

def formField (f : Json) : String :=
  orElse (orElse (str (field f "label")) (str (field f "name"))) "field" ++
    (if truthy (field f "required") then " (required)" else "")

def formFields : Option Json → List String
  | some (.list items) => items.map formField
  | _ => []

/-- What is shown of a finding, blank values included. -/
def factsOf [Unicode] (kind : DocKind) (d : Json) : List (String × String) :=
  match kind with
  | .screen =>
      [("Address", orElse (str (field d "example_url")) (str (field d "url_pattern"))),
        ("Purpose", str (field d "purpose")),
        ("Headings", " · ".intercalate (strs (field d "headings")))]
  | .feature =>
      [("Description", str (field d "description")),
        ("Screens", ", ".intercalate (strs (field d "screens")))]
  | .workflow =>
      [("Goal", str (field d "goal")),
        ("Screens", ", ".intercalate (strs (field d "screens")))]
  | .businessRule =>
      [("Confidence", str (field d "confidence")),
        ("Area", str (field d "area")),
        ("Why", orElse (str (field d "explanation")) (str (field d "evidence"))),
        ("Screens", ", ".intercalate (strs (field d "screens")))]
  | .form =>
      [("Submits", jsTrim (Unicode.toUpperCase (str (field d "method")) ++ " " ++
          str (field d "action"))),
        ("Screens", orElse (", ".intercalate (strs (field d "screens"))) (str (field d "screen"))),
        ("Fields", ", ".intercalate (formFields (field d "fields")))]
  | .tech =>
      [("Frameworks", ", ".intercalate (keys (field d "frameworks"))),
        ("Missing security headers",
          ", ".intercalate (strs (field d "missing_security_headers")))]

def stepsOf (kind : DocKind) (d : Json) : List String :=
  match kind with
  | .workflow => strs (field d "steps")
  | _ => []

def headingOf (title : String) : String := orElse (jsTrim title) "Untitled"

/-! ## Cutting -/

/-- A value cut to fit. -/
def cutTo (v : String) (max : ℕ) : String :=
  if jsLength v ≤ max then v else jsSlice (max - 1) v ++ "…"

/-- Whether a value was cut is kept in the state. -/
def clip (v : String) (max : ℕ) : StateM Bool String := do
  if ¬ jsLength v ≤ max then set true
  return cutTo v max

def clipFact (fact : String × String) : StateM Bool (String × String) := do
  return (fact.1, ← clip (jsTrim fact.2) valueMax)

def blockOf [Unicode] (kind : DocKind) (item : Item) : StateM Bool DocBlock := do
  let facts ← ((factsOf kind item.data).filter fun fact ↦ jsTrim fact.2 ≠ "").mapM clipFact
  let steps ← (stepsOf kind item.data).mapM fun step ↦ clip step valueMax
  let heading ← clip (headingOf item.title) headingMax
  return ⟨heading, facts, steps⟩

/-! ## The document -/

def byTitle [Collation] : Item → Item → Ordering :=
  compareLex (fun a b ↦ Collation.localeCompare a.title b.title)
    (fun a b ↦ Collation.localeCompare (stringify a.data) (stringify b.data))

/-- Findings of one title come by their data. -/
example : @byTitle byCodePoints ⟨.screen, "Cart", .null⟩ ⟨.screen, "Cart", .boolean true⟩ = .lt := by
  decide +kernel

def sorted [Collation] (list : List Item) : List Item :=
  list.mergeSort fun a b ↦ (byTitle a b).isLE

def byKind (k : DocKind) (items : List Item) : List Item := items.filter fun i ↦ i.kind = k

/-- `replace(/[_-]+/g, " ")` -/
def spaced : List Char → List Char
  | [] => []
  | [c] => if c = '_' ∨ c = '-' then [' '] else [c]
  | c :: d :: cs =>
      if (c = '_' ∨ c = '-') ∧ (d = '_' ∨ d = '-') then spaced (d :: cs)
      else (if c = '_' ∨ c = '-' then ' ' else c) :: spaced (d :: cs)

/-- The first half of a character of two units has no upper case. -/
def upperFirst [Unicode] : List Char → String
  | [] => ""
  | c :: cs =>
      (if c.toNat < 0x10000 then Unicode.toUpperCase (String.singleton c)
        else String.singleton c) ++ String.ofList cs

def humanize [Unicode] (v : String) : String := upperFirst (trimChars (spaced v.toList))

/-- The groups come by their headings, the one for the rest last. -/
def byHeading [Collation] (last : String) : String → String → Ordering :=
  compareLex (fun a b ↦ compare (if a = last then 1 else 0) (if b = last then 1 else 0))
    Collation.localeCompare

def grouped [Unicode] [Collation] (items : List Item) (kind : DocKind)
    (groupOf : Item → StateM Bool String) (last : String) : StateM Bool (List DocGroup) := do
  let entries ← (sorted (byKind kind items)).mapM fun i ↦ do
    let g ← groupOf i
    return (g, ← blockOf kind i)
  let groups := Assoc.groupBy Prod.fst entries
  return (groups.mergeSort fun a b ↦ (byHeading last a.1 b.1).isLE).map fun g ↦
    ⟨some g.1, g.2.map Prod.snd⟩

def flat [Unicode] [Collation] (items : List Item) (kind : DocKind) :
    StateM Bool (List DocGroup) := do
  let blocks ← (sorted (byKind kind items)).mapM (blockOf kind)
  return if blocks = [] then [] else [⟨none, blocks⟩]

def moduleOf [Unicode] (i : Item) : String := orElse (humanize (str (field i.data "module"))) "General"

def categoryOf [Unicode] (i : Item) : String :=
  orElse (humanize (str (field i.data "category"))) "Other"

def sectionsOf [Unicode] [Collation] (items : List Item) : StateM Bool (List DocSection) := do
  let features ← grouped items .feature (fun i ↦ clip (moduleOf i) headingMax) "General"
  let journeys ← flat items .workflow
  let screens ← flat items .screen
  let rules ← grouped items .businessRule (fun i ↦ pure (categoryOf i)) "Other"
  let forms ← flat items .form
  let tech ← flat items .tech
  return [⟨"features", "Features", features⟩, ⟨"journeys", "Journeys", journeys⟩,
    ⟨"screens", "Screens", screens⟩, ⟨"rules", "Business rules", rules⟩,
    ⟨"forms", "Appendix: forms", forms⟩,
    DocSection.mk "tech" "Appendix: technical profile" tech].filter fun s ↦ s.groups ≠ []

def countOf (items : List Item) (k : DocKind) : ℕ := items.countP fun i ↦ i.kind = k

/-- The kinds of the summary with their plural and their singular. -/
def parts : List (DocKind × String × String) :=
  [(.screen, "screens", "screen"), (.feature, "features", "feature"),
    (.workflow, "journeys", "journey"), (.businessRule, "business rules", "business rule")]

def summaryOf (counts : DocKind → ℕ) : List String :=
  (parts.filter fun part ↦ counts part.1 ≠ 0).map fun part ↦
    toString (counts part.1) ++ " " ++ (if counts part.1 = 1 then part.2.2 else part.2.1)

def appOf (appUrl : Option String) : StateM Bool String :=
  if appUrl.getD "" = "" then pure "the app" else clip (appUrl.getD "") headingMax

def introOf (projectName : String) (appUrl : Option String) (counts : DocKind → ℕ) :
    StateM Bool (List String) := do
  let name ← clip projectName headingMax
  let app ← appOf appUrl
  let summary := summaryOf counts
  return ["What " ++ name ++ " is and how it behaves, from NYRA's exploration of " ++ app ++
      ". A person reviewed every finding in this document and marked it correct, or corrected it.",
    if summary = [] then "" else "Contents: " ++ ", ".intercalate summary ++ "."].filter (· ≠ "")

def kbTitle (projectName : String) : String :=
  jsSlice 512 ("NYRA · " ++ projectName ++ " · Product knowledge")

def documentParts [Unicode] [Collation] (projectName : String) (appUrl : Option String)
    (items : List Item) : StateM Bool (List DocSection × List String) := do
  let sections ← sectionsOf items
  return (sections, ← introOf projectName appUrl (countOf items))

def buildProductDocument [Unicode] [Collation] (projectName : String) (appUrl : Option String)
    (items : List Item) : ProductDocument :=
  let built := (documentParts projectName appUrl items).run false
  ⟨kbTitle projectName, built.1.2, built.1.1, countOf items, built.2⟩

/-! ## Rendering -/

def escChar (c : Char) : List Char :=
  if c = '&' then "&amp;".toList else if c = '<' then "&lt;".toList
  else if c = '>' then "&gt;".toList else if c = '"' then "&quot;".toList else [c]

def esc (s : String) : String := String.ofList (s.toList.flatMap escChar)

def blockText (level : ℕ) (b : DocBlock) : List String :=
  (String.ofList (List.replicate level '#') ++ " " ++ b.heading) ::
    b.facts.map (fun fact ↦ fact.1 ++ ": " ++ fact.2) ++
    (if b.steps = [] then []
      else "Steps:" :: b.steps.mapIdx fun i s ↦ toString (i + 1) ++ ". " ++ s) ++ [""]

def tag (name inner : String) : String := "<" ++ name ++ ">" ++ inner ++ "</" ++ name ++ ">"

def blockHtml (level : ℕ) (b : DocBlock) : List String :=
  tag ("h" ++ toString level) (esc b.heading) ::
    b.facts.map (fun fact ↦ tag "p" (tag "strong" (esc fact.1 ++ ":") ++ " " ++ esc fact.2)) ++
    (if b.steps = [] then []
      else [tag "p" (tag "strong" "Steps:") ++
        tag "ol" (String.join (b.steps.map fun s ↦ tag "li" (esc s)))])

/-- A group with a heading of its own has its blocks one level lower. -/
def DocGroup.level (group : DocGroup) : ℕ := if group.heading.getD "" = "" then 3 else 4

def groupText (group : DocGroup) : List String :=
  (if group.heading.getD "" = "" then [] else ["### " ++ group.heading.getD "", ""]) ++
    group.blocks.flatMap (blockText group.level)

def groupHtml (group : DocGroup) : List String :=
  (if group.heading.getD "" = "" then [] else [tag "h3" (esc (group.heading.getD ""))]) ++
    group.blocks.flatMap (blockHtml group.level)

structure Rendered where
  text : String
  html : String
deriving DecidableEq, Repr

def renderDocument (doc : ProductDocument) : Rendered :=
  let text := ["## Overview"] ++ doc.intro ++ [""] ++ doc.sections.flatMap fun s ↦
    ["## " ++ s.heading, ""] ++ s.groups.flatMap groupText
  let html := [tag "h2" "Overview"] ++ doc.intro.map (fun l ↦ tag "p" (esc l)) ++
    doc.sections.flatMap fun s ↦ tag "h2" (esc s.heading) :: s.groups.flatMap groupHtml
  ⟨String.ofList (("\n".intercalate text).toList.rdropWhile jsSpace), String.join html⟩

end Tesbo.NyraReview
