import Tesbo.PlaywrightReporter
import Tesbo.TicketComments
import Tesbo.Reasoning.Headings

/-!
# The wording of a ticket comment

A comment lists its test cases under what was done to them.  Where it is sent again, what was done
is read back from the text.
-/

namespace Tesbo.TicketComments

open Reasoning LineMark

/-! ## `zyraTicketCommentContent` -/

def hexDigit (c : Char) : Bool := c.isDigit || ('a' ≤ c.toLower && c.toLower ≤ 'f')

/-- `[0-9a-f-]`, in any case of letters -/
def idChar (c : Char) : Bool := hexDigit c || c = '-'

/-- `/^[0-9a-f]{8}-[0-9a-f]{4}-[0-9a-f]{4}-[0-9a-f]{4}-[0-9a-f]{12}$/i` -/
def isUuid (s : String) : Bool :=
  s.toList.length = 36 &&
    s.toList.zipIdx.all fun (c, i) ↦ if i ∈ [8, 13, 18, 23] then c = '-' else hexDigit c

/-- The id of a test case, as the database writes it. -/
structure CaseId where
  text : String
  uuid : isUuid text = true
  lower : text.toList.map Char.toLower = text.toList

instance : DecidableEq CaseId := fun i j ↦
  if h : i.text = j.text then .isTrue (by cases i; cases j; cases h; rfl)
  else .isFalse fun heq ↦ h (congrArg CaseId.text heq)

structure CaseRow where
  id : CaseId
  externalId : String
  title : String
deriving DecidableEq

structure Listed where
  row : CaseRow
  action : Action
deriving DecidableEq

def zyraTicketCommentMaxItems : ℕ := 100

/-- An item of a section, with the address of its test case where that can be reached. -/
structure Item where
  externalId : String
  title : String
  url : Option String

structure Section where
  label : String
  items : List Item

/-- An inline text of the Atlassian Document Format: strong, or a link. -/
inductive Inline where
  | plain (text : String)
  | strong (text : String)
  | link (text href : String)

inductive Block where
  | paragraph (content : List Inline)
  | bulletList (items : List (List Inline))

structure Wording where
  markdown : String
  adf : List Block

def sectionLabel : Action → String
  | .add => "Added"
  | .update => "Updated"
  | .archive => "Archived"

/-- `base` is the externally reachable address of the app, where it has one. -/
def zyraTestcaseKbUrl (base : Option String) (projectId : String) (testcaseId : CaseId) :
    Option String :=
  base.map fun base ↦ s!"{base}/projects/{projectId}/testcases/{testcaseId.text}"

def itemOf (base : Option String) (projectId : String) (row : CaseRow) : Item where
  externalId := jsTrim row.externalId
  title := if jsTrim row.title = "" then "Untitled test case" else jsTrim row.title
  url := zyraTestcaseKbUrl base projectId row.id

/-- The sections of the actions, each with what the budget leaves of its entries. -/
def sections (base : Option String) (projectId : String) (entries : List Listed) :
    ℕ → List Action → List Section
  | _, [] => []
  | budget, action :: actions =>
      let all := entries.filter fun e ↦ e.action = action
      let shown := all.take budget
      ⟨s!"{sectionLabel action} ({all.length})", shown.map fun e ↦ itemOf base projectId e.row⟩ ::
        sections base projectId entries (budget - shown.length) actions

/-- `text.replace(/([\[\]\\])/g, "\\$1")` -/
def escapeLinkText (text : String) : String :=
  String.ofList (text.toList.flatMap fun c ↦
    if c = '[' ∨ c = ']' ∨ c = '\\' then ['\\', c] else [c])

def markdownItem (item : Item) : String :=
  let label := if item.externalId = "" then item.title else item.externalId
  let head :=
    match item.url with
    | some url => s!"[{escapeLinkText label}]({url})"
    | none => label
  if item.externalId = "" then s!"- {head}" else s!"- {head} — {item.title}"

def adfItem (item : Item) : List Inline :=
  let inline (text : String) : Inline :=
    match item.url with
    | some url => .link text url
    | none => .plain text
  if item.externalId = "" then [inline item.title]
  else [inline item.externalId, .plain s!" — {item.title}"]

def sectionText (s : Section) : List Char :=
  joined ['\n'] (s!"**{s.label}**".toList :: s.items.map fun item ↦ (markdownItem item).toList)

def heading : String := "Generated by Tesbo Test Manager"

def summary (total : ℕ) (ticketLabel : String) : String :=
  let plural := if total = 1 then "" else "s"
  s!"Zyra saved {total} test case{plural} for {ticketLabel} in Tesbo."

def zyraTicketCommentContent (base : Option String) (projectId ticketLabel : String)
    (entries : List Listed) : Wording :=
  let sections := (sections base projectId entries zyraTicketCommentMaxItems
    [.add, .update, .archive]).filter fun s ↦ !s.items.isEmpty
  let total := entries.length
  let hidden := total - (sections.map fun s ↦ s.items.length).sum
  let overflow := if 0 < hidden then [s!"…and {hidden} more in Tesbo."] else []
  { markdown := String.ofList (joined ['\n', '\n'] (s!"**{heading}**".toList ::
      (summary total ticketLabel).toList :: (sections.map sectionText ++ overflow.map String.toList)))
    adf := .paragraph [.strong heading] :: .paragraph [.plain (summary total ticketLabel)] ::
      (sections.flatMap fun s ↦
        [.paragraph [.strong s.label], .bulletList (s.items.map adfItem)]) ++
      overflow.map fun text ↦ .paragraph [.plain text] }

/-! ## `zyraTicketCommentActions` -/

/-- `/^\*\*(Added|Updated|Archived) \(\d+\)\*\*$/` -/
def headingOf (line : List Char) : Option Action :=
  [Action.add, .update, .archive].find? fun action ↦
    let front := s!"**{sectionLabel action} (".toList
    let digits := (line.drop front.length).takeWhile Char.isDigit
    digits ≠ [] && line = front ++ digits ++ ")**".toList

/-- `/\/testcases\/([0-9a-f-]{36})\)/i` -/
def linkedId : List Char → Option (List Char)
  | [] => none
  | c :: line =>
      let front := "/testcases/".toList
      let rest := (c :: line).drop front.length
      if ((c :: line).take front.length).map Char.toLower = front ∧
        (rest.take 36).length = 36 ∧ (rest.take 36).all idChar ∧ (rest.drop 36).head? = some ')'
      then some (rest.take 36) else linkedId line

/-- `[^\s[\]]` -/
def plainChar (c : Char) : Bool := !jsSpace c && c ≠ '[' && c ≠ ']'

/-- `/^- ([^\s[\]]+) — /` -/
def plainId : List Char → Option (List Char)
  | '-' :: ' ' :: rest =>
      let word := rest.takeWhile plainChar
      if word ≠ [] ∧ " — ".toList.isPrefixOf (rest.drop word.length) then some word else none
  | _ => none

abbrev Actions := Assoc String Action

section Reading

variable [Unicode]

/-- `.toLowerCase()` -/
def lowerKey (cs : List Char) : String := Unicode.toLowerCase (String.ofList cs)

def externalKey (externalId : String) : String := "ext:" ++ Unicode.toLowerCase externalId

/-- The loop over the lines. -/
def actionsLine (s : Option Action × Actions) (line : List Char) : Option Action × Actions :=
  match headingOf (trimChars line) with
  | some action => (some action, s.2)
  | none =>
      match s.1 with
      | none => s
      | some current =>
          match linkedId line with
          | some id => (s.1, s.2.set (lowerKey id) current)
          | none =>
              match plainId (trimChars line) with
              | some id => (s.1, s.2.set (externalKey (String.ofList id)) current)
              | none => s

def zyraTicketCommentActions (markdown : String) : Actions :=
  ((markdown.toList.splitOn '\n').foldl actionsLine (none, [])).2

/-! ## `rebuildZyraTicketCommentContent` -/

/-- The action a test case was listed under, or `add`. -/
def recoveredAction (actions : Actions) (row : CaseRow) : Action :=
  ((actions.get (Unicode.toLowerCase row.id.text)).or
    (actions.get (externalKey row.externalId))).getD .add

/-- `byId` is what is left in the project of the test cases. -/
def rebuildZyraTicketCommentContent (base : Option String) (projectId ticketLabel : String)
    (testcaseIds : List CaseId) (commentText : String) (byId : CaseId → Option CaseRow) :
    Option Wording :=
  let actions := zyraTicketCommentActions commentText
  let entries := (testcaseIds.filter fun id ↦ isUuid id.text).filterMap fun id ↦
    (byId id).map fun row ↦
      (⟨⟨id, row.externalId, row.title⟩, recoveredAction actions row⟩ : Listed)
  if entries = [] then none
  else some (zyraTicketCommentContent base projectId ticketLabel entries)

/-! ## What a comment remembers -/

/-- The key a test case is listed by. -/
def CaseRow.key (base : Option String) (row : CaseRow) : String :=
  match base with
  | some _ => row.id.text
  | none => externalKey row.externalId

/-- The actions are read back, and a comment on the same test cases is worded the same. -/
structure Remembers (base : Option String) (projectId ticketLabel : String)
    (entries : List Listed) : Prop where
  listed : ∀ e ∈ entries, (zyraTicketCommentActions
    (zyraTicketCommentContent base projectId ticketLabel entries).markdown).get (e.row.key base) =
      some e.action
  recovered : ∀ e ∈ entries, recoveredAction (zyraTicketCommentActions
    (zyraTicketCommentContent base projectId ticketLabel entries).markdown) e.row = e.action
  rebuilt : ∀ byId : CaseId → Option CaseRow, (∀ e ∈ entries, byId e.row.id = some e.row) →
    rebuildZyraTicketCommentContent base projectId ticketLabel (entries.map fun e ↦ e.row.id)
      (zyraTicketCommentContent base projectId ticketLabel entries).markdown byId =
        some (zyraTicketCommentContent base projectId ticketLabel entries)

/-- What a line is taken for: a heading, the line of a test case, or neither. -/
def readLine (line : List Char) : Option (LineMark Action String) :=
  ((headingOf (trimChars line)).map LineMark.heading).or
    (((linkedId line).map fun id ↦ LineMark.item (lowerKey id)).or
      ((plainId (trimChars line)).map fun id ↦ LineMark.item (externalKey (String.ofList id))))

/-- What the lines of an entry are taken for. -/
def entryMarks (base : Option String) (projectId : String) (e : Listed) :
    List (LineMark Action String) :=
  marksOf '\n' readLine (markdownItem (itemOf base projectId e.row)).toList

def sectionMarks (base : Option String) (projectId : String) (entries : List Listed)
    (action : Action) : List (LineMark Action String) :=
  let all := entries.filter fun e ↦ e.action = action
  if all = [] then [] else .heading action :: all.flatMap (entryMarks base projectId)

/-- The headings and the names of a comment, those in its summary and its titles included. -/
def commentMarks (base : Option String) (projectId ticketLabel : String) (entries : List Listed) :
    List (LineMark Action String) :=
  marksOf '\n' readLine (summary entries.length ticketLabel).toList ++
    [Action.add, .update, .archive].flatMap (sectionMarks base projectId entries)

/-- The last line that names the test case stands under its action; and so does the last one with
its id, if it is listed by its external id. -/
structure Filed (base : Option String) (projectId ticketLabel : String) (entries : List Listed)
    (e : Listed) : Prop where
  named : Under (commentMarks base projectId ticketLabel entries) (e.row.key base) e.action
  unmistaken : base = none → ∀ action, Under (commentMarks base projectId ticketLabel entries)
    e.row.id.text action → action = e.action

end Reading

/-! ## Reading -/

section Lines

variable [Unicode]

/-- A line of the loop is taken for what it is read as. -/
theorem actionsLine_eq (s : Option Action × Actions) (line : List Char) :
    actionsLine s line = ((readLine line).map (scanMark s)).getD s := by
  obtain ⟨current, actions⟩ := s
  unfold actionsLine readLine
  cases headingOf (trimChars line) with
  | some action => rfl
  | none =>
      cases linkedId line with
      | some id => cases current <;> rfl
      | none =>
          cases plainId (trimChars line) with
          | some id => cases current <;> rfl
          | none => cases current <;> rfl

theorem zyraTicketCommentActions_eq (markdown : String) :
    zyraTicketCommentActions markdown = (scan (marksOf '\n' readLine markdown.toList)).2 := by
  unfold zyraTicketCommentActions scan marksOf
  rw [List.foldl_filterMap]
  congr 1
  refine List.foldl_ext _ _ _ fun s line _ ↦ ?_
  rw [actionsLine_eq]
  cases readLine line <;> rfl

theorem readLine_nil : readLine [] = none := rfl

theorem readLine_title : readLine s!"**{heading}**".toList = none := by
  have hheading : headingOf (trimChars s!"**{heading}**".toList) = none := by decide +kernel
  have hlinked : linkedId s!"**{heading}**".toList = none := by decide +kernel
  have hplain : plainId (trimChars s!"**{heading}**".toList) = none := by decide +kernel
  unfold readLine
  rw [hheading, hlinked, hplain]
  rfl

end Lines

theorem toNat_lt_of_hexDigit {c : Char} (h : hexDigit c = true) : c.toNat < 128 := by
  unfold hexDigit at h
  rcases Bool.or_eq_true_iff.mp h with hdigit | hletter
  · unfold Char.isDigit at hdigit
    simp only [ge_iff_le, Bool.and_eq_true, decide_eq_true_eq, UInt32.le_iff_toNat_le] at hdigit
    exact lt_of_le_of_lt hdigit.2 (by decide)
  · rw [Bool.and_eq_true, decide_eq_true_eq, decide_eq_true_eq] at hletter
    by_contra hlarge
    have hsame : c.toLower = c := by
      unfold Char.toLower
      rw [dif_neg]
      intro hupper
      exact hlarge (lt_of_le_of_lt (UInt32.le_iff_toNat_le.mp hupper.2) (by decide))
    rw [hsame] at hletter
    have hle : c.toNat ≤ 'f'.toNat := UInt32.le_iff_toNat_le.mp hletter.2
    exact hlarge (lt_of_le_of_lt hle (by decide))

/-! ### The headings of the sections -/

def headingFront (action : Action) : List Char := s!"**{sectionLabel action} (".toList

theorem toList_heading (action : Action) (n : ℕ) :
    ("**" ++ s!"{sectionLabel action} ({n})" ++ "**").toList =
      headingFront action ++ Nat.toDigits 10 n ++ ")**".toList := by
  change ("**" ++ (sectionLabel action ++ " (" ++ n.repr ++ ")") ++ "**").toList =
    ("**" ++ sectionLabel action ++ " (").toList ++ Nat.toDigits 10 n ++ ")**".toList
  simp [String.toList_append]

theorem headingFront_injective {action other : Action} {rest rest' : List Char}
    (h : headingFront action ++ rest = headingFront other ++ rest') : action = other := by
  have htake : ∀ a : Action, ∀ l, (headingFront a ++ l).take 4 = (headingFront a).take 4 :=
    fun a l ↦ List.take_append_of_le_length (by cases a <;> decide)
  have hfront : (headingFront action).take 4 = (headingFront other).take 4 := by
    rw [← htake action rest, h, htake]
  revert hfront
  cases action <;> cases other <;> decide

theorem headingOf_heading (action : Action) (n : ℕ) :
    headingOf (headingFront action ++ Nat.toDigits 10 n ++ ")**".toList) = some action := by
  have hdigits : (Nat.toDigits 10 n ++ ")**".toList).takeWhile Char.isDigit =
      Nat.toDigits 10 n := by
    rw [List.takeWhile_append_of_pos fun c hc ↦
      Nat.isDigit_of_mem_toDigits (by decide) (by decide) hc]
    exact List.append_nil _
  have hpos : Nat.toDigits 10 n ≠ [] := List.ne_nil_of_length_pos Nat.length_toDigits_pos
  have hself : (let front := headingFront action
      let digits := ((headingFront action ++ Nat.toDigits 10 n ++ ")**".toList).drop
        front.length).takeWhile Char.isDigit
      (digits ≠ [] && headingFront action ++ Nat.toDigits 10 n ++ ")**".toList =
        front ++ digits ++ ")**".toList : Bool)) = true := by
    dsimp only
    rw [List.append_assoc, List.drop_left, hdigits, decide_eq_true hpos,
      decide_eq_true (List.append_assoc _ _ _).symm]
    rfl
  unfold headingOf
  rw [List.find?_eq_some_iff_append]
  refine ⟨hself, ?_⟩
  have hother : ∀ other : Action, other ≠ action →
      (let front := headingFront other
      let digits := ((headingFront action ++ Nat.toDigits 10 n ++ ")**".toList).drop
        front.length).takeWhile Char.isDigit
      (digits ≠ [] && headingFront action ++ Nat.toDigits 10 n ++ ")**".toList =
        front ++ digits ++ ")**".toList : Bool)) = false := by
    intro other hne
    rw [Bool.and_eq_false_iff]
    right
    rw [decide_eq_false_iff_not, List.append_assoc, List.append_assoc]
    exact fun heq ↦ hne (headingFront_injective heq).symm
  cases action with
  | add => exact ⟨[], [.update, .archive], rfl, fun other h ↦ (by cases h)⟩
  | update =>
      refine ⟨[.add], [.archive], rfl, fun other h ↦ ?_⟩
      obtain rfl := List.mem_singleton.mp h
      exact Bool.not_eq_true' _ ▸ hother .add (by decide)
  | archive =>
      refine ⟨[.add, .update], [], rfl, fun other h ↦ ?_⟩
      rcases List.mem_pair.mp h with rfl | rfl
      · exact Bool.not_eq_true' _ ▸ hother .add (by decide)
      · exact Bool.not_eq_true' _ ▸ hother .update (by decide)

/-! ### The sections -/

section Sections

variable {base : Option String} {projectId ticketLabel : String} {entries : List Listed}

def listedUnder (entries : List Listed) (action : Action) : List Listed :=
  entries.filter fun e ↦ e.action = action

/-- A section without a limit. -/
def fullSection (base : Option String) (projectId : String) (entries : List Listed)
    (action : Action) : Section :=
  ⟨s!"{sectionLabel action} ({(listedUnder entries action).length})",
    (listedUnder entries action).map fun e ↦ itemOf base projectId e.row⟩

theorem sections_eq_map {actions : List Action} {budget : ℕ}
    (h : (actions.map fun a ↦ (listedUnder entries a).length).sum ≤ budget) :
    sections base projectId entries budget actions =
      actions.map (fullSection base projectId entries) := by
  induction actions generalizing budget with
  | nil => rfl
  | cons action actions ih =>
      rw [List.map_cons, List.sum_cons] at h
      have hshown : (listedUnder entries action).take budget = listedUnder entries action :=
        List.take_of_length_le (by omega)
      unfold listedUnder at hshown
      rw [sections, hshown, ih (by unfold listedUnder at h ⊢; omega)]
      rfl

/-- Every entry stands in one of the three sections. -/
theorem length_listedUnder (entries : List Listed) :
    (listedUnder entries .add).length + (listedUnder entries .update).length +
      (listedUnder entries .archive).length = entries.length := by
  unfold listedUnder
  induction entries with
  | nil => rfl
  | cons e entries ih =>
      rw [List.filter_cons, List.filter_cons, List.filter_cons, List.length_cons]
      cases haction : e.action <;> simp [← ih] <;> omega

theorem sum_filter_items (sections : List Section) :
    ((sections.filter fun s ↦ !s.items.isEmpty).map fun s ↦ s.items.length).sum =
      (sections.map fun s ↦ s.items.length).sum := by
  induction sections with
  | nil => rfl
  | cons s sections ih =>
      rw [List.filter_cons, List.map_cons, List.sum_cons, ← ih]
      cases hitems : s.items with
      | nil => simp
      | cons item items => simp [hitems]

/-- A comment of at most a hundred entries lists them all. -/
theorem markdown_eq (h : entries.length ≤ zyraTicketCommentMaxItems) :
    (zyraTicketCommentContent base projectId ticketLabel entries).markdown.toList =
      joined ['\n', '\n'] (s!"**{heading}**".toList :: (summary entries.length ticketLabel).toList ::
        ((([Action.add, .update, .archive].map (fullSection base projectId entries)).filter
          fun s ↦ !s.items.isEmpty).map sectionText)) := by
  have hlength := length_listedUnder entries
  have hsum : ([Action.add, .update, .archive].map fun a ↦ (listedUnder entries a).length).sum =
      entries.length := by
    rw [List.map_cons, List.map_cons, List.map_cons, List.map_nil, List.sum_cons, List.sum_cons,
      List.sum_cons, List.sum_nil]
    omega
  have hsections := @sections_eq_map base projectId _ _ _ (hsum.trans_le h)
  have hhidden : entries.length - ((([Action.add, .update, .archive].map
      (fullSection base projectId entries)).filter fun s ↦ !s.items.isEmpty).map
        fun s ↦ s.items.length).sum = 0 := by
    rw [sum_filter_items, List.map_map, Nat.sub_eq_zero_iff_le, ← hsum]
    refine le_of_eq (congrArg List.sum (List.map_congr_left fun a _ ↦ ?_))
    exact (List.length_map _).symm
  unfold zyraTicketCommentContent
  dsimp only
  rw [hsections, hhidden, if_neg (Nat.lt_irrefl 0), List.map_nil, List.append_nil,
    String.toList_ofList]

variable [Unicode]

theorem marksOf_section (action : Action) :
    marksOf '\n' readLine (sectionText (fullSection base projectId entries action)) =
      .heading action :: (listedUnder entries action).flatMap (entryMarks base projectId) := by
  have hheading : marksOf '\n' readLine
      s!"**{(fullSection base projectId entries action).label}**".toList =
        [LineMark.heading action] := by
    let n := (listedUnder entries action).length
    change marksOf '\n' readLine ("**" ++ s!"{sectionLabel action} ({n})" ++ "**").toList = _
    rw [toList_heading]
    have hnewline : '\n' ∉ headingFront action ++
        Nat.toDigits 10 (listedUnder entries action).length ++ ")**".toList := by
      intro hmem
      rcases List.mem_append.mp hmem with hmem | hmem
      · rcases List.mem_append.mp hmem with hmem | hmem
        · revert hmem
          cases action <;> decide
        · have hdigit := Nat.isDigit_of_mem_toDigits (by decide) (by decide) hmem
          exact absurd hdigit (by decide)
      · revert hmem
        decide
    have htrimmed : trimChars (headingFront action ++
        Nat.toDigits 10 (listedUnder entries action).length ++ ")**".toList) =
          headingFront action ++ Nat.toDigits 10 (listedUnder entries action).length ++
            ")**".toList := by
      apply Trimmed.trim_eq
      constructor
      · intro c hc
        have hstar : (headingFront action).head? = some '*' := by cases action <;> decide
        rw [List.append_assoc, List.head?_append, hstar] at hc
        cases hc
        decide
      · intro c hc
        rw [List.getLast?_append] at hc
        cases hc
        decide
    rw [marksOf_singleton hnewline]
    unfold readLine
    rw [htrimmed, headingOf_heading]
    rfl
  have hjoined := @marksOf_joined Action String Char _ '\n' readLine readLine_nil 0
    (s!"**{(fullSection base projectId entries action).label}**".toList ::
      (fullSection base projectId entries action).items.map fun item ↦ (markdownItem item).toList)
  refine hjoined.trans ?_
  rw [List.flatMap_cons, hheading, List.flatMap_map]
  unfold fullSection
  rw [List.flatMap_map]
  rfl

/-- The lines of a comment are those of its summary and its sections. -/
theorem marksOf_markdown (h : entries.length ≤ zyraTicketCommentMaxItems) :
    marksOf '\n' readLine
      (zyraTicketCommentContent base projectId ticketLabel entries).markdown.toList =
        commentMarks base projectId ticketLabel entries := by
  have htitle : marksOf '\n' readLine s!"**{heading}**".toList = [] := by
    rw [marksOf_singleton (by decide +kernel), readLine_title]
    rfl
  have hsections : ∀ actions : List Action, (((actions.map
      (fullSection base projectId entries)).filter fun s ↦ !s.items.isEmpty).map
        sectionText).flatMap (marksOf '\n' readLine) =
      actions.flatMap (sectionMarks base projectId entries) := by
    intro actions
    induction actions with
    | nil => rfl
    | cons action actions ih =>
        rw [List.map_cons, List.filter_cons, List.flatMap_cons, ← ih]
        by_cases hempty : listedUnder entries action = []
        · have hitems : (!(fullSection base projectId entries action).items.isEmpty) = false := by
            unfold fullSection
            rw [hempty]
            rfl
          have hnone : sectionMarks base projectId entries action = [] := if_pos hempty
          rw [hitems, hnone, List.nil_append]
          rfl
        · have hitems : (!(fullSection base projectId entries action).items.isEmpty) = true := by
            unfold fullSection
            simpa using hempty
          have hsome : sectionMarks base projectId entries action = .heading action ::
              (listedUnder entries action).flatMap (entryMarks base projectId) := if_neg hempty
          rw [if_pos hitems, List.map_cons, List.flatMap_cons, marksOf_section, hsome]
  have hjoined := @marksOf_joined Action String Char _ '\n' readLine readLine_nil 1
  rw [markdown_eq h]
  refine (hjoined _).trans ?_
  unfold commentMarks
  rw [List.flatMap_cons, htitle, List.flatMap_cons, hsections, List.nil_append]

end Sections

/-! ## What is read back -/

section Remembering

variable [LetterCase] {base : Option String} {projectId ticketLabel : String} {entries : List Listed}

theorem lower_caseId (id : CaseId) : Unicode.toLowerCase id.text = id.text := by
  have hascii : ∀ c ∈ id.text.toList, c.toNat < 128 := by
    intro c hc
    have huuid := id.uuid
    unfold isUuid at huuid
    rw [Bool.and_eq_true, List.all_eq_true] at huuid
    rw [← List.zipIdx_map_fst 0 id.text.toList] at hc
    obtain ⟨⟨c', i⟩, hmem, rfl⟩ := List.mem_map.mp hc
    have hpos := huuid.2 _ hmem
    dsimp only at hpos ⊢
    split at hpos
    · rw [of_decide_eq_true hpos]
      decide
    · exact toNat_lt_of_hexDigit hpos
  rw [LetterCase.toLowerCase_ascii _ hascii, id.lower, String.ofList_toList]

/-- The comment's actions are what its lines say. -/
theorem get_actions (h : entries.length ≤ zyraTicketCommentMaxItems) {key : String}
    {action : Action} :
    (zyraTicketCommentActions
      (zyraTicketCommentContent base projectId ticketLabel entries).markdown).get key = some action ↔
        Under (commentMarks base projectId ticketLabel entries) key action := by
  rw [zyraTicketCommentActions_eq, marksOf_markdown h]
  exact get_scan

/-- The action of an entry that is filed is recovered, and only then. -/
theorem filed_iff (h : entries.length ≤ zyraTicketCommentMaxItems) {e : Listed} :
    Filed base projectId ticketLabel entries e ↔
      (zyraTicketCommentActions (zyraTicketCommentContent base projectId ticketLabel
        entries).markdown).get (e.row.key base) = some e.action ∧
      recoveredAction (zyraTicketCommentActions (zyraTicketCommentContent base projectId ticketLabel
        entries).markdown) e.row = e.action := by
  unfold recoveredAction
  rw [lower_caseId]
  cases base with
  | some base =>
      constructor
      · intro hfiled
        have hget := (get_actions h).mpr hfiled.named
        refine ⟨hget, ?_⟩
        change Assoc.get _ e.row.id.text = _ at hget
        rw [hget]
        rfl
      · intro hget
        exact ⟨(get_actions h).mp hget.1, fun hnone ↦ (by cases hnone)⟩
  | none =>
      constructor
      · intro hfiled
        have hget := (get_actions h).mpr hfiled.named
        refine ⟨hget, ?_⟩
        cases hid : (zyraTicketCommentActions (zyraTicketCommentContent none projectId ticketLabel
          entries).markdown).get e.row.id.text with
        | none =>
            change Assoc.get _ (externalKey e.row.externalId) = _ at hget
            rw [hget]
            rfl
        | some action => exact hfiled.unmistaken rfl action ((get_actions h).mp hid)
      · rintro ⟨hget, hrecovered⟩
        refine ⟨(get_actions h).mp hget, fun _ action hunder ↦ ?_⟩
        rw [(get_actions h).mpr hunder] at hrecovered
        exact hrecovered

/-- Where every action is recovered, the same entries are listed again. -/
theorem rebuilt_of_recovered (hne : entries ≠ []) {markdown : String}
    (hrecovered : ∀ e ∈ entries,
      recoveredAction (zyraTicketCommentActions markdown) e.row = e.action)
    {byId : CaseId → Option CaseRow} (hbyId : ∀ e ∈ entries, byId e.row.id = some e.row) :
    rebuildZyraTicketCommentContent base projectId ticketLabel (entries.map fun e ↦ e.row.id)
      markdown byId = some (zyraTicketCommentContent base projectId ticketLabel entries) := by
  have hids : ((entries.map fun e ↦ e.row.id).filter fun id ↦ isUuid id.text) =
      entries.map fun e ↦ e.row.id :=
    List.filter_eq_self.mpr fun id _ ↦ id.uuid
  have hentries : ((entries.map fun e ↦ e.row.id).filterMap fun id ↦ (byId id).map fun row ↦
      (⟨⟨id, row.externalId, row.title⟩,
        recoveredAction (zyraTicketCommentActions markdown) row⟩ : Listed)) = entries := by
    rw [List.filterMap_map]
    have hsame : ∀ e ∈ entries, ((byId e.row.id).map fun row ↦
        (⟨⟨e.row.id, row.externalId, row.title⟩,
          recoveredAction (zyraTicketCommentActions markdown) row⟩ : Listed)) = some e := by
      intro e he
      rw [hbyId e he, Option.map_some, hrecovered e he]
    exact (List.filterMap_congr hsame).trans List.filterMap_some
  unfold rebuildZyraTicketCommentContent
  dsimp only
  rw [hids, hentries, if_neg hne]

theorem remembers_iff (base : Option String) (projectId ticketLabel : String)
    (entries : List Listed) (h : entries.length ≤ zyraTicketCommentMaxItems) :
    Remembers base projectId ticketLabel entries ↔
      entries ≠ [] ∧ ∀ e ∈ entries, Filed base projectId ticketLabel entries e := by
  constructor
  · intro hremembers
    refine ⟨?_, fun e he ↦
      (filed_iff h).mpr ⟨hremembers.listed e he, hremembers.recovered e he⟩⟩
    rintro rfl
    have hrebuilt := hremembers.rebuilt (fun _ ↦ none) fun e he ↦ (by cases he)
    cases hrebuilt
  · rintro ⟨hne, hfiled⟩
    have hrecovered : ∀ e ∈ entries, recoveredAction (zyraTicketCommentActions
        (zyraTicketCommentContent base projectId ticketLabel entries).markdown) e.row = e.action :=
      fun e he ↦ ((filed_iff h).mp (hfiled e he)).2
    exact ⟨fun e he ↦ ((filed_iff h).mp (hfiled e he)).1, hrecovered,
      fun byId hbyId ↦ rebuilt_of_recovered hne hrecovered hbyId⟩

end Remembering

/-! ## A title of two lines -/

def login : CaseRow where
  id := ⟨"0a000000-0000-4000-8000-000000000001", by decide +kernel, by decide +kernel⟩
  externalId := "TC-1"
  title := "Log in"

/-- A title with a line that looks like a heading. -/
def pasted : CaseRow := { login with title := "Log in\n**Archived (1)**\nas before" }

def logout : CaseRow where
  id := ⟨"0a000000-0000-4000-8000-000000000002", by decide +kernel, by decide +kernel⟩
  externalId := "TC-2"
  title := "Log out"

/-- The second of two added test cases is taken for an archived one. -/
theorem not_remembers_pasted :
    letI := asciiLetters
    (zyraTicketCommentActions (zyraTicketCommentContent none "p" "QA-1"
      [⟨pasted, .add⟩, ⟨logout, .add⟩]).markdown).get (logout.key none) = some .archive ∧
      ¬ Remembers none "p" "QA-1" [⟨pasted, .add⟩, ⟨logout, .add⟩] := by
  let _ := asciiLetters
  have hget : (zyraTicketCommentActions (zyraTicketCommentContent none "p" "QA-1"
      [⟨pasted, .add⟩, ⟨logout, .add⟩]).markdown).get (logout.key none) = some .archive := by
    decide +kernel
  refine ⟨hget, fun h ↦ ?_⟩
  have hlisted := h.listed ⟨logout, .add⟩ (List.mem_cons_of_mem _ List.mem_cons_self)
  cases hget.symm.trans hlisted

theorem remembers_iff_login :
    letI := asciiLetters
    Remembers (some "https://tests.example.org") "p" "QA-1" [⟨login, .add⟩, ⟨logout, .archive⟩] ↔
      [(⟨login, .add⟩ : Listed), ⟨logout, .archive⟩] ≠ [] ∧
        ∀ e ∈ [(⟨login, .add⟩ : Listed), ⟨logout, .archive⟩],
          Filed (some "https://tests.example.org") "p" "QA-1" [⟨login, .add⟩, ⟨logout, .archive⟩] e :=
  @remembers_iff asciiLetters (some "https://tests.example.org") "p" "QA-1" [⟨login, .add⟩, ⟨logout, .archive⟩]
    (by decide)

end Tesbo.TicketComments
