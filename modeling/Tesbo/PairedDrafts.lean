import Tesbo.ZyraSave

/-!
# Drafts paired with linked test cases

A draft that is written against a ticket rewrites a test case already linked to that ticket, while
there is one no draft of the same save has taken.  The tickets' lists may overlap: one position a
ticket and one set of taken rows go through them together.
-/

namespace Tesbo

inductive TicketProvider where
  | jira
  | linear
  | notion
deriving DecidableEq, Repr

namespace TicketProvider

def all : List TicketProvider := [.jira, .linear, .notion]

def label : TicketProvider → String
  | .jira => "jira"
  | .linear => "linear"
  | .notion => "notion"

/-- The column of a test case that names its ticket. -/
def column : TicketProvider → TextColumn
  | .jira => .jiraIssueKey
  | .linear => .linearIssueKey
  | .notion => .notionPageId

end TicketProvider

namespace PairedDrafts

open Reasoning

/-! ## The lists of a save -/

/-- The list of a ticket. -/
def listName (provider : TicketProvider) (key : String) : String := provider.label ++ (":" ++ key)

/-- The lists a test case is put in, where the task names these tickets. -/
def poolsOf (keys : TicketProvider → List String) (t : Testcase) : List String :=
  TicketProvider.all.flatMap fun provider ↦
    ((t.text provider.column).filter fun key ↦ key ≠ "" ∧ key ∈ keys provider).toList.map
      (listName provider)

/-- The live test cases of the project linked to a ticket of the task, `ORDER BY updated_at ASC`. -/
def linkedTestcases (projectId : Uuid) (keys : TicketProvider → List String) (db : Db) :
    List Testcase :=
  (db.testcases.rows.filter fun t ↦ t.projectId = projectId && t.live &&
    TicketProvider.all.any fun provider ↦
      (t.text provider.column).any (· ∈ keys provider)).mergeSort
        fun a b ↦ a.updatedAt ≤ b.updatedAt

/-- The columns of a test case a save reads. -/
def linkedRow (t : Testcase) : LinkedRow := ⟨t.id, t.text .severity, t.text .component⟩

/-- A row at the end of a list. -/
def addTo (row : LinkedRow) (pools : Assoc String (List LinkedRow)) (pool : String) :
    Assoc String (List LinkedRow) :=
  pools.set pool ((pools.get pool).getD [] ++ [row])

/-- Each row goes to the end of each of its lists. -/
def existingLinkedByTicket (keys : TicketProvider → List String) (linked : List Testcase) :
    Assoc String (List LinkedRow) :=
  linked.foldl (fun pools t ↦ (poolsOf keys t).foldl (addTo (linkedRow t)) pools) []

section Pools

variable {keys : TicketProvider → List String}

theorem getD_foldl_addTo (row : LinkedRow) (pools : Assoc String (List LinkedRow))
    (names : List String) (key : String) :
    ((names.foldl (addTo row) pools).get key).getD [] =
      (pools.get key).getD [] ++ List.replicate (names.count key) row := by
  induction names generalizing pools with
  | nil => exact (List.append_nil _).symm
  | cons name names ih =>
      rw [List.foldl_cons, ih, addTo, Assoc.get_set]
      by_cases hkey : key = name
      · subst hkey
        rw [if_pos rfl, Option.getD_some, List.count_cons_self, List.replicate_succ,
          List.append_assoc, List.singleton_append]
      · rw [if_neg hkey, List.count_cons_of_ne (Ne.symm hkey)]

/-- The list of a ticket has each row as often as the row names the list. -/
theorem getD_existingLinkedByTicket (linked : List Testcase) (name : String) :
    ((existingLinkedByTicket keys linked).get name).getD [] =
      linked.flatMap fun t ↦ List.replicate ((poolsOf keys t).count name) (linkedRow t) := by
  induction linked using List.reverseRecOn with
  | nil => rfl
  | append_singleton linked t ih =>
      rw [existingLinkedByTicket, List.foldl_append, List.flatMap_append, ← ih]
      exact (getD_foldl_addTo _ _ _ _).trans (by rw [List.flatMap_singleton]; rfl)

theorem listName_inj {p p' : TicketProvider} {k k' : String} :
    listName p k = listName p' k' ↔ p = p' ∧ k = k' := by
  constructor
  · intro h
    have h := congrArg String.toList h
    simp only [listName, String.toList_append] at h
    cases p <;> cases p' <;> simp [TicketProvider.label] at h ⊢ <;> exact String.toList_inj.mp h
  · rintro ⟨rfl, rfl⟩
    rfl

/-- What one link of a test case adds to the number of times it names a list. -/
theorem count_listName {provider p : TicketProvider} {key : String} (hkey : key ∈ keys provider)
    (hne : key ≠ "") (link : Option String) :
    ((link.filter fun key ↦ key ≠ "" ∧ key ∈ keys p).toList.map (listName p)).count
      (listName provider key) = if p = provider ∧ link = some key then 1 else 0 := by
  by_cases h : p = provider ∧ link = some key
  · obtain ⟨rfl, rfl⟩ := h
    simp [hkey, hne, Option.filter]
  · rw [if_neg h, List.count_eq_zero, List.mem_map]
    rintro ⟨own, hown, hname⟩
    obtain ⟨rfl, rfl⟩ := listName_inj.mp hname
    rw [Option.mem_toList] at hown
    exact h ⟨rfl, (Option.filter_eq_some_iff.mp hown).1⟩

/-- A test case names the list of a ticket of the task once where it is linked to it. -/
theorem count_poolsOf {provider : TicketProvider} {key : String} (hkey : key ∈ keys provider)
    (hne : key ≠ "") (t : Testcase) :
    (poolsOf keys t).count (listName provider key) =
      if t.text provider.column = some key then 1 else 0 := by
  rw [poolsOf, List.count_flatMap]
  simp only [TicketProvider.all, List.map_cons, List.map_nil, Function.comp,
    count_listName hkey hne]
  cases provider <;> simp

/-- The list of a ticket of the task has the rows linked to it, in the order they were read. -/
theorem pool_existingLinkedByTicket (linked : List Testcase) {provider : TicketProvider}
    {key : String} (hkey : key ∈ keys provider) (hne : key ≠ "") :
    ((existingLinkedByTicket keys linked).get (listName provider key)).getD [] =
      (linked.filter fun t ↦ t.text provider.column = some key).map linkedRow := by
  rw [getD_existingLinkedByTicket]
  induction linked with
  | nil => rfl
  | cons t linked ih =>
      rw [List.flatMap_cons, ih, count_poolsOf hkey hne]
      by_cases hlinked : t.text provider.column = some key
      · rw [if_pos hlinked, List.filter_cons_of_pos (by simpa using hlinked)]
        rfl
      · rw [if_neg hlinked, List.filter_cons_of_neg (by simpa using hlinked)]
        rfl

end Pools

/-! ## The drafts of a save, one after the other -/

variable (ctx : ZyraSaveEntryContext)

/-- The list of the ticket a draft is written against. -/
def poolKey (draft : ZyraDraft) : Option String :=
  poolKeyOf (ticketKey draft.jiraIssueKey ctx.jiraIssueKey)
    (ticketKey draft.linearIssueKey ctx.linearIssueKey)
    (ticketKey draft.notionPageId ctx.notionPageId)

/-- The rows linked to a ticket, oldest first. -/
def pool (key : String) : List LinkedRow := (ctx.existingLinkedByTicket.get key).getD []

/-- What a save keeps after these drafts. -/
def stateAfter (drafts : List ZyraDraft) : LinkState :=
  drafts.foldl (fun st draft ↦ (zyraDraftTicketLink ctx st draft).2) .start

/-- The row a draft is given that comes after the drafts `before`. -/
def given (before : List ZyraDraft) (draft : ZyraDraft) : Option LinkedRow :=
  (zyraDraftTicketLink ctx (stateAfter ctx before) draft).1.existingLinkedRow

/-- One of the drafts `before` was given the row. -/
def Taken (before : List ZyraDraft) (id : Uuid) : Prop :=
  ∃ earlier draft later row, before = earlier ++ draft :: later ∧
    given ctx earlier draft = some row ∧ row.id = id

/-! ## One draft -/

/-- How far the save has gone through the list of a ticket. -/
def positionOf (st : LinkState) (key : String) : ℕ := (st.linkedPositions.get key).getD 0

section NextLinked

variable {rows : List LinkedRow} {position : ℕ} {claimed : List Uuid}

theorem drop_length_takeWhile (p : LinkedRow → Bool) (rows : List LinkedRow) :
    rows.drop (rows.takeWhile p).length = rows.dropWhile p := by
  calc rows.drop (rows.takeWhile p).length
      = (rows.takeWhile p ++ rows.dropWhile p).drop (rows.takeWhile p).length := by
        rw [List.takeWhile_append_dropWhile]
    _ = rows.dropWhile p := List.drop_left

/-- The search passes over claimed rows only. -/
theorem claimed_of_passed (h : ∀ row ∈ rows.take position, row.id ∈ claimed) :
    ∀ row ∈ rows.take (nextLinked rows position claimed).1, row.id ∈ claimed := by
  intro row hrow
  rw [nextLinked, List.take_add] at hrow
  rcases List.mem_append.mp hrow with hrow | hrow
  · exact h row hrow
  · rw [← List.prefix_iff_eq_take.mp (List.takeWhile_prefix _)] at hrow
    have hrow := List.mem_takeWhile_imp hrow
    exact of_decide_eq_true hrow

/-- It answers with the row it stops at. -/
theorem getElem?_nextLinked (rows : List LinkedRow) (position : ℕ) (claimed : List Uuid) :
    rows[(nextLinked rows position claimed).1]? = (nextLinked rows position claimed).2 := by
  simp only [nextLinked, List.head?_drop, List.getElem?_drop]

theorem not_claimed_of_nextLinked {row : LinkedRow}
    (h : (nextLinked rows position claimed).2 = some row) : row.id ∉ claimed := by
  simp only [nextLinked, drop_length_takeWhile] at h
  have hnot := List.head?_dropWhile_not (fun row : LinkedRow ↦ row.id ∈ claimed)
    (rows.drop position)
  rw [h] at hnot
  exact of_decide_eq_false hnot

end NextLinked

/-! ## The drafts of a save -/

section Drafts

variable {ctx}

theorem stateAfter_append_singleton (before : List ZyraDraft) (draft : ZyraDraft) :
    stateAfter ctx (before ++ [draft]) =
      (zyraDraftTicketLink ctx (stateAfter ctx before) draft).2 := by
  rw [stateAfter, List.foldl_append]
  rfl

theorem taken_append_singleton {before : List ZyraDraft} {draft : ZyraDraft} {id : Uuid} :
    Taken ctx (before ++ [draft]) id ↔
      Taken ctx before id ∨ (given ctx before draft).map LinkedRow.id = some id := by
  constructor
  · rintro ⟨earlier, d, later, row, hsplit, hgiven, hid⟩
    rcases List.eq_nil_or_concat later with rfl | ⟨later, last, rfl⟩
    · obtain ⟨rfl, hd⟩ := List.append_inj' hsplit rfl
      cases hd
      exact .inr (by rw [hgiven, Option.map_some, hid])
    · rw [List.concat_eq_append, ← List.cons_append, ← List.append_assoc] at hsplit
      exact .inl ⟨earlier, d, later, row, (List.append_inj' hsplit rfl).1, hgiven, hid⟩
  · rintro (⟨earlier, d, later, row, rfl, hgiven, hid⟩ | hid)
    · exact ⟨earlier, d, later ++ [draft], row, by simp, hgiven, hid⟩
    · obtain ⟨row, hgiven, hid⟩ := Option.map_eq_some_iff.mp hid
      exact ⟨before, draft, [], row, rfl, hgiven, hid⟩

/-- A draft without a ticket changes nothing and is given nothing. -/
theorem link_of_poolKey_none (st : LinkState) {draft : ZyraDraft} (h : poolKey ctx draft = none) :
    (zyraDraftTicketLink ctx st draft).1.existingLinkedRow = none ∧
      (zyraDraftTicketLink ctx st draft).2 = st := by
  unfold poolKey at h
  simp only [zyraDraftTicketLink, h, and_self]

/-- A draft with a ticket is given the next row of the ticket's list. -/
theorem link_of_poolKey_some (st : LinkState) {draft : ZyraDraft} {key : String}
    (h : poolKey ctx draft = some key) :
    let next := nextLinked (pool ctx key) (positionOf st key) st.claimedLinkedIds
    (zyraDraftTicketLink ctx st draft).1.existingLinkedRow = next.2 ∧
      (zyraDraftTicketLink ctx st draft).2 = ⟨st.linkedPositions.set key (next.1 + 1),
        (next.2.map LinkedRow.id).toList ++ st.claimedLinkedIds⟩ := by
  unfold poolKey at h
  simp only [zyraDraftTicketLink, h, pool, positionOf, and_self]

/-- The set a save keeps is that of the rows its drafts were given. -/
theorem mem_claimedLinkedIds (drafts : List ZyraDraft) (id : Uuid) :
    id ∈ (stateAfter ctx drafts).claimedLinkedIds ↔ Taken ctx drafts id := by
  induction drafts using List.reverseRecOn with
  | nil =>
      constructor
      · exact fun h ↦ absurd h List.not_mem_nil
      · rintro ⟨earlier, draft, later, _, hnil, _⟩
        simp at hnil
  | append_singleton before draft ih =>
      rw [taken_append_singleton, stateAfter_append_singleton, ← ih, given]
      cases hkey : poolKey ctx draft with
      | none =>
          obtain ⟨hrow, hst⟩ := link_of_poolKey_none (stateAfter ctx before) hkey
          rw [hrow, hst]
          simp
      | some key =>
          obtain ⟨hrow, hst⟩ := link_of_poolKey_some (stateAfter ctx before) hkey
          rw [hrow, hst, List.mem_append, Option.mem_toList, or_comm]

/-- Every row before the position of a list has been taken. -/
theorem taken_of_passed (drafts : List ZyraDraft) (key : String) :
    ∀ row ∈ (pool ctx key).take (positionOf (stateAfter ctx drafts) key),
      row.id ∈ (stateAfter ctx drafts).claimedLinkedIds := by
  induction drafts using List.reverseRecOn with
  | nil => exact fun row hrow ↦ absurd hrow List.not_mem_nil
  | append_singleton before draft ih =>
      rw [stateAfter_append_singleton]
      cases hkey : poolKey ctx draft with
      | none =>
          rw [(link_of_poolKey_none (stateAfter ctx before) hkey).2]
          exact ih
      | some own =>
          rw [(link_of_poolKey_some (stateAfter ctx before) hkey).2]
          intro row hrow
          rw [positionOf, Assoc.get_set] at hrow
          rw [List.mem_append]
          by_cases hown : key = own
          · -- the draft's own list: the rows passed, and then the row given
            subst hown
            rw [if_pos rfl, Option.getD_some, List.take_add_one, List.mem_append,
              getElem?_nextLinked] at hrow
            rcases hrow with hrow | hrow
            · exact .inr (claimed_of_passed ih row hrow)
            · rw [Option.mem_toList.mp hrow]
              exact .inl (by simp)
          · rw [if_neg hown] at hrow
            exact .inr (ih row hrow)

/-- The row a draft is given, in terms of the drafts before it. -/
theorem given_of_poolKey (before : List ZyraDraft) {draft : ZyraDraft} {key : String}
    (hkey : poolKey ctx draft = some key) :
    ∃ position, given ctx before draft = (pool ctx key)[position]? ∧
      (∀ row ∈ (pool ctx key).take position, Taken ctx before row.id) ∧
        ∀ row, given ctx before draft = some row → ¬ Taken ctx before row.id := by
  have hgiven := (link_of_poolKey_some (stateAfter ctx before) hkey).1
  refine ⟨_, hgiven.trans (getElem?_nextLinked _ _ _).symm, ?_, ?_⟩
  · intro row hrow
    rw [← mem_claimedLinkedIds]
    exact claimed_of_passed (taken_of_passed before key) row hrow
  · intro row hrow htaken
    rw [← mem_claimedLinkedIds] at htaken
    exact not_claimed_of_nextLinked (hgiven.symm.trans hrow) htaken

theorem given_of_poolKey_none {before : List ZyraDraft} {draft : ZyraDraft}
    (hkey : poolKey ctx draft = none) : given ctx before draft = none :=
  (link_of_poolKey_none _ hkey).1

theorem not_taken_of_given {before : List ZyraDraft} {draft : ZyraDraft} {row : LinkedRow}
    (hrow : given ctx before draft = some row) : ¬ Taken ctx before row.id := by
  cases hkey : poolKey ctx draft with
  | none => exact absurd (hrow.symm.trans (given_of_poolKey_none hkey)) (by simp)
  | some key =>
      obtain ⟨_, _, _, hnot⟩ := given_of_poolKey before hkey
      exact hnot row hrow

end Drafts

/-- A row given to a draft is in the list of the draft's ticket, has not been taken, and comes after
taken rows only; a draft with a ticket that is given none finds all rows of its list taken; and no
two drafts of a save are given one row. -/
theorem given_fair (before : List ZyraDraft) (draft : ZyraDraft) :
    (∀ row, given ctx before draft = some row →
      ∃ key, poolKey ctx draft = some key ∧
        ∃ older newer, pool ctx key = older ++ row :: newer ∧ ¬ Taken ctx before row.id ∧
          ∀ passed ∈ older, Taken ctx before passed.id) ∧
    (∀ key, poolKey ctx draft = some key → given ctx before draft = none →
      ∀ row ∈ pool ctx key, Taken ctx before row.id) ∧
    ∀ row later last row', given ctx before draft = some row →
      given ctx (before ++ draft :: later) last = some row' → row.id ≠ row'.id := by
  refine ⟨?_, ?_, ?_⟩
  · intro row hrow
    cases hkey : poolKey ctx draft with
    | none => exact absurd (hrow.symm.trans (given_of_poolKey_none hkey)) (by simp)
    | some key =>
        obtain ⟨position, hat, hpassed, hnot⟩ := given_of_poolKey before hkey
        rw [hrow] at hat
        obtain ⟨hlt, hat⟩ := List.getElem?_eq_some_iff.mp hat.symm
        refine ⟨key, rfl, (pool ctx key).take position, (pool ctx key).drop (position + 1), ?_,
          hnot row hrow, hpassed⟩
        rw [← hat, List.cons_getElem_drop_succ, List.take_append_drop]
  · intro key hkey hnone row hrow
    obtain ⟨position, hat, hpassed, _⟩ := given_of_poolKey before hkey
    rw [hnone] at hat
    have hend : (pool ctx key).length ≤ position := List.getElem?_eq_none_iff.mp hat.symm
    rw [List.take_of_length_le hend] at hpassed
    exact hpassed row hrow
  · intro row later last row' hrow hrow' hid
    apply not_taken_of_given hrow'
    exact ⟨before, draft, later, row, rfl, hrow, hid⟩

/-! ## A save -/

def draftOf : ZyraEntry → Option ZyraDraft
  | .change .. => none
  | .create draft _ => some draft

/-- The linked test case an entry of the answer is about. -/
def linkedIdOf : Touched → Option Uuid
  | .row .. => none
  | .linked id .. => some id

/-- The rows the drafts of a save are given from a state on. -/
def givenFrom (ctx : ZyraSaveEntryContext) : LinkState → List ZyraDraft → List LinkedRow
  | _, [] => []
  | st, draft :: drafts =>
      (zyraDraftTicketLink ctx st draft).1.existingLinkedRow.toList ++
        givenFrom ctx (zyraDraftTicketLink ctx st draft).2 drafts

/-- The rows given after some drafts are given once, and to none of those drafts. -/
theorem nodup_givenFrom (ctx : ZyraSaveEntryContext) (before drafts : List ZyraDraft) :
    ((givenFrom ctx (stateAfter ctx before) drafts).map LinkedRow.id).Nodup ∧
      ∀ row ∈ givenFrom ctx (stateAfter ctx before) drafts, ¬ Taken ctx before row.id := by
  -- on the drafts to come: each joins those before, and so does the row it is given
  induction drafts generalizing before with
  | nil => exact ⟨List.nodup_nil, fun _ h ↦ absurd h List.not_mem_nil⟩
  | cons draft drafts ih =>
      obtain ⟨hnodup, hnot⟩ := ih (before ++ [draft])
      rw [stateAfter_append_singleton] at hnodup hnot
      cases hrow : given ctx before draft with
      | none =>
          have hlink := hrow
          rw [given] at hlink
          rw [givenFrom, hlink]
          exact ⟨hnodup, fun row h htaken ↦ hnot row h (taken_append_singleton.mpr (.inl htaken))⟩
      | some first =>
          have hlink := hrow
          rw [given] at hlink
          rw [givenFrom, hlink]
          constructor
          · apply List.nodup_cons.mpr ⟨?_, hnodup⟩
            rw [List.mem_map]
            rintro ⟨row, h, hid⟩
            apply hnot row h
            rw [taken_append_singleton, hrow, Option.map_some, hid]
            exact .inr rfl
          · intro row h htaken
            rcases List.mem_cons.mp h with rfl | h
            · exact not_taken_of_given hrow htaken
            · exact hnot row h (taken_append_singleton.mpr (.inl htaken))

section Save

open Service

variable [Unicode] {ctx : ZyraSaveEntryContext}

omit [Unicode] in
/-- A change of a test case answers with its row. -/
theorem processChange_row (archive : Bool) (testcaseId : Uuid) (fields : PatchFields)
    (reason : Arg String) (s : SaveDb) :
    wp (processChange ctx archive testcaseId fields reason)
      (fun touched _ ↦ linkedIdOf touched = none) (fun _ _ ↦ True) s := by
  unfold processChange
  apply wp_seq (wp_any _ s)
  intro _ s₁ _
  apply wp_query_seq
  apply wp_seq (wp_any _ s₁)
  intro row s₂ _
  apply wp_query_seq
  apply wp_seq (wp_any _ s₂)
  intro _ s₃ _
  rw [wp_pure]
  rfl

omit [Unicode] in
/-- The draft of a linked test case answers with that test case. -/
theorem processLinked_linked (draft : ZyraDraft) (link : DraftLink) (payload : ZyraPayload)
    (linkedId : Uuid) (s : SaveDb) :
    wp (processLinked ctx draft link payload linkedId)
      (fun touched _ ↦ linkedIdOf touched = some linkedId) (fun _ _ ↦ True) s := by
  unfold processLinked
  apply wp_seq (wp_any _ s)
  intro _ s₁ _
  apply wp_query_seq
  apply wp_seq (wp_any _ s₁)
  intro _ s₂ _
  apply wp_seq (wp_any _ s₂)
  intro _ s₃ _
  apply wp_seq (wp_any _ s₃)
  intro row s₄ _
  rw [wp_pure]
  rfl

/-- The linked test cases a save rewrites are the rows its drafts are given, in this order. -/
theorem linked_of_sequentialFrom (ctx : ZyraSaveEntryContext) (st : LinkState)
    (selected : List ZyraEntry) (s : SaveDb) :
    onAnswer (sequentialFrom ctx st selected) (fun result _ ↦
      result.touched.filterMap linkedIdOf =
        (givenFrom ctx st (selected.filterMap draftOf)).map LinkedRow.id) s := by
  rw [onAnswer_iff]
  induction selected generalizing st s with
  | nil =>
      rw [sequentialFrom, wp_pure]
      rfl
  | cons entry rest ih =>
      cases entry with
      | change archive testcaseId fields reason =>
          -- a change leaves the state of the links as it is
          apply wp_seq (processChange_row archive testcaseId fields reason s)
          intro touched s₁ htouched
          apply wp_seq (ih st s₁)
          intro result s₂ hresult
          rw [wp_pure]
          show (touched :: result.touched).filterMap linkedIdOf = _
          rw [List.filterMap_cons_none htouched, hresult]
          rfl
      | create draft reason =>
          apply wp_seq (wp_any _ s)
          intro payload s₁ _
          cases hrow : (zyraDraftTicketLink ctx st draft).1.existingLinkedRow with
          | some linked =>
              apply wp_seq (processLinked_linked draft _ payload linked.id s₁)
              intro touched s₂ htouched
              apply wp_seq (ih _ s₂)
              intro result s₃ hresult
              rw [wp_pure]
              show (touched :: result.touched).filterMap linkedIdOf = _
              rw [List.filterMap_cons_some htouched, hresult]
              simp [draftOf, givenFrom, hrow]
          | none =>
              -- no row left under its ticket: a new test case
              apply wp_seq (wp_any _ s₁)
              intro row s₂ _
              apply wp_seq (wp_any _ s₂)
              intro _ s₃ _
              apply wp_seq (ih _ s₃)
              intro result s₄ hresult
              rw [wp_pure]
              show (Touched.row row.1 row.2 :: result.touched).filterMap linkedIdOf = _
              rw [List.filterMap_cons_none rfl, hresult]
              simp [draftOf, givenFrom, hrow]

/-- A save rewrites no linked test case twice. -/
theorem nodup_linked_of_save (selected : List ZyraEntry) (s : SaveDb) :
    onAnswer (processZyraSaveEntriesSequential ctx selected)
      (fun result _ ↦ (result.touched.filterMap linkedIdOf).Nodup) s := by
  rw [onAnswer_iff]
  have hrun := onAnswer_iff.mp (linked_of_sequentialFrom ctx .start selected s)
  apply wp_mono hrun
  · intro result _ h
    rw [h]
    exact (nodup_givenFrom ctx [] _).1
  · exact fun _ _ h ↦ h

end Save

end PairedDrafts

end Tesbo
