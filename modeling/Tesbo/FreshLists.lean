import Tesbo.ListCaches

/-!
# A list read after a write shows the write

Every writer clears the caches of its project once it has committed, so what a cache holds is never
older than its last clearing.  Two things break this: rows that were read before a write and are
stored after its clearing, and a page stored while the index of its project is being cleared, which
no later clearing finds.
-/

namespace Tesbo.ListCaches

open Reasoning Proc

/-! ## Calls -/

inductive Call where
  | listSuites (projectId : Uuid)
  | listTestCases (projectId : Uuid) (query : TestcasesQuery)
  | elapse (time : Time)
  | createSuite (projectId : Uuid) (body : SuiteBody)
  | createSuiteForUser (userId : Option Uuid) (projectId : IdText) (body : SuiteBody)
  | updateSuite (userId : Option Uuid) (suiteId : IdText) (body : SuiteBody)
  | deleteSuite (userId : Option Uuid) (suiteId : IdText) (mode : DeleteMode)
  | createTestCaseForUser (userId : Option Uuid) (projectId : IdText) (body : TestcaseBody)
      (details : Details)
  | bulkCreateTestCasesForUser (userId : Option Uuid) (projectId : IdText)
      (incoming : List TestcaseBody) (testcaseIdPrefix : Arg String) (details : List Details)
  | importTestCases (userId : Option Uuid) (projectId : IdText) (body : ImportBody)
  | updateTestCaseForUser (userId : Option Uuid) (projectId testcaseId : IdText)
      (body : TestcaseBody) (details : Details → Details)
  | duplicateTestCaseForUser (userId : Option Uuid) (projectId testcaseId : IdText)
      (related : Except Failure Unit)
  | deleteTestCaseForUser (userId : Option Uuid) (projectId testcaseId : IdText)
  | bulkUpdateTestCases (userId : Option Uuid) (projectId : IdText) (testcaseIds : List IdText)
      (body : TestcaseBody)
  | bulkDeleteTestCases (userId : Option Uuid) (projectId : IdText) (testcaseIds : List IdText)
  | saveTestCases (projectId : Uuid) (tx : Service Failure Data Unit)

abbrev Run := Config Shared (Procedure Unit)

/-- A write call, under the number it is given. -/
def numbered (body : ℕ → Procedure Unit) : Procedure Unit := do
  let call ← ask .begin
  body call
  ask (.returned call)

section Machine

variable [Unicode] [QueryTexts] [Serialized]

def enter : Call → Procedure Unit
  | .listSuites projectId => listSuites projectId
  | .listTestCases projectId query => listTestCases projectId query
  | .elapse time => ask (.elapse time)
  | .createSuite projectId body => numbered fun call ↦ createSuite call projectId body
  | .createSuiteForUser userId projectId body =>
      numbered fun call ↦ createSuiteForUser call userId projectId body
  | .updateSuite userId suiteId body => numbered fun call ↦ updateSuite call userId suiteId body
  | .deleteSuite userId suiteId mode => numbered fun call ↦ deleteSuite call userId suiteId mode
  | .createTestCaseForUser userId projectId body details =>
      numbered fun call ↦ createTestCaseForUser call userId projectId body details
  | .bulkCreateTestCasesForUser userId projectId incoming testcaseIdPrefix details =>
      numbered fun call ↦
        bulkCreateTestCasesForUser call userId projectId incoming testcaseIdPrefix details
  | .importTestCases userId projectId body =>
      numbered fun call ↦ importTestCases call userId projectId body
  | .updateTestCaseForUser userId projectId testcaseId body details =>
      numbered fun call ↦ updateTestCaseForUser call userId projectId testcaseId body details
  | .duplicateTestCaseForUser userId projectId testcaseId related =>
      numbered fun call ↦ duplicateTestCaseForUser call userId projectId testcaseId related
  | .deleteTestCaseForUser userId projectId testcaseId =>
      numbered fun call ↦ deleteTestCaseForUser call userId projectId testcaseId
  | .bulkUpdateTestCases userId projectId testcaseIds body =>
      numbered fun call ↦ bulkUpdateTestCases call userId projectId testcaseIds body
  | .bulkDeleteTestCases userId projectId testcaseIds =>
      numbered fun call ↦ bulkDeleteTestCases call userId projectId testcaseIds
  | .saveTestCases projectId tx => numbered fun call ↦ saveTestCases call projectId tx

def step (c : Run) (m : Move Call) : Run := c.move enter (fun _ ↦ Proc.exec perform) m

end Machine

/-! ## The property and its condition -/

section Property

variable [Unicode] [QueryTexts]

/-- The answer is the list of its own query in a state that has every change made by the write calls
that had returned when the list call began. -/
def Answer.Fresh (a : Answer) : Prop :=
  Includes a.listing.view a.since (.ok a.shown) a.history

def ShowsWrites (s : Shared) : Prop := ∀ a ∈ s.answers, a.Fresh

instance instDecidableEqAnswer {ε α : Type} [DecidableEq ε] [DecidableEq α] :
    DecidableEq (Except ε α)
  | .ok a, .ok b => decidable_of_iff (a = b) ⟨congrArg Except.ok, Except.ok.inj⟩
  | .error e, .error f => decidable_of_iff (e = f) ⟨congrArg Except.error, Except.error.inj⟩
  | .ok _, .error _ => isFalse fun h ↦ by cases h
  | .error _, .ok _ => isFalse fun h ↦ by cases h

instance : DecidablePred Answer.Fresh := fun a ↦
  inferInstanceAs (Decidable (Includes a.listing.view a.since (.ok a.shown) a.history))

instance : DecidablePred ShowsWrites := fun s ↦
  inferInstanceAs (Decidable (∀ a ∈ s.answers, a.Fresh))

/-- The condition of a step.  A statement changes rows of the project whose caches its call clears
and of no other.  What is stored was listed no earlier than the last clearing of its cache.  A
clearing takes every page the index names.  A page that had no rows still has none when its total is
counted. -/
def Timely (s : Shared) : Write → Prop
  | .statement _ projectId tx =>
      Service.onAnswer tx (fun _ d ↦ elsewhere projectId d = elsewhere projectId s.data) s.data
  | .importChunk _ projectId tx =>
      Service.onAnswer tx (fun _ d ↦ elsewhere projectId d = elsewhere projectId s.data) s.data
  | .deletePages projectId keys => ∀ key ∈ s.pageKeys projectId, key ∈ keys
  | .storeSuites projectId rows =>
      ShownSince (Listing.suites projectId).view (s.suitesCleared projectId) (.ok (.suites rows))
        s.history
  | .storePage projectId limit offset page =>
      ShownSince (Listing.testcases projectId .plain limit offset).view (s.pagesCleared projectId)
        (.ok (.page page)) s.history
  | .count projectId query limit offset page =>
      (selectPage projectId query limit offset s.data).map Page.rows = .ok page.rows
  | _ => True

instance (s : Shared) (w : Write) : Decidable (Timely s w) := by
  cases w with
  | statement call projectId tx => exact inferInstanceAs (Decidable (Service.onAnswer tx _ s.data))
  | importChunk call projectId tx => exact inferInstanceAs (Decidable (Service.onAnswer tx _ s.data))
  | deletePages projectId keys =>
      exact inferInstanceAs (Decidable (∀ key ∈ s.pageKeys projectId, key ∈ keys))
  | storeSuites projectId rows => exact inferInstanceAs (Decidable (ShownSince _ _ _ s.history))
  | storePage projectId limit offset page =>
      exact inferInstanceAs (Decidable (ShownSince _ _ _ s.history))
  | count projectId query limit offset page =>
      exact inferInstanceAs (Decidable ((selectPage projectId query limit offset s.data).map _ = _))
  | _ => exact instDecidableTrue

end Property

/-- The program has just been started: nothing is cached and no call has been made. -/
def started (d : Data) : Shared where
  data := d
  suites _ := none
  pages _ := none
  pageKeys _ := []
  history := [⟨none, d⟩]
  calls := 0
  returned := []
  suitesCleared _ := 0
  pagesCleared _ := 0
  answers := []

/-! ## What the calls ask for -/

/-- Where a call is: the number it writes under, the projects whose caches it has yet to clear, and
for a list call the write calls that had returned when it began and the page it has counted. -/
structure Phase where
  call : Option ℕ
  suites : List Uuid
  pages : List Uuid
  since : List ℕ
  counted : Option (Listing × Shown)

def Phase.blank : Phase := ⟨none, [], [], [], none⟩

/-- A write call with nothing to clear. -/
def Phase.clean (call : ℕ) : Phase := ⟨some call, [], [], [], none⟩

/-- One that has changed the project. -/
def Phase.owing (call : ℕ) (projectId : Uuid) : Phase := ⟨some call, [projectId], [projectId], [], none⟩

/-- The cache the list is in is yet to be cleared. -/
def Phase.Owes (t : Phase) : Listing → Prop
  | .suites projectId => projectId ∈ t.suites
  | .testcases projectId _ _ _ => projectId ∈ t.pages

def turn (t : Phase) : (w : Write) → Reply w → Phase
  | .begin, call => .clean call
  | .returned _, _ => { t with call := none }
  | .statement _ projectId _, .ok _ | .importChunk _ projectId _, .ok _ =>
      { t with suites := projectId :: t.suites, pages := projectId :: t.pages }
  | .deleteSuites projectId, _ => { t with suites := t.suites.filter (· ≠ projectId) }
  | .deletePages projectId _, _ => { t with pages := t.pages.filter (· ≠ projectId) }
  | .listing since, _ => { t with since := since, counted := none }
  | .count projectId query limit offset page, total =>
      { t with counted := some (.testcases projectId query limit offset,
          .page { page with total := total }) }
  | _, _ => t

section Calls

variable [Unicode] [QueryTexts]

/-- The answer has what it must have, at the time. -/
def Covers (s : Shared) (listing : Listing) (since : List ℕ) (shown : Shown) : Prop :=
  Includes listing.view since (.ok shown) s.history

/-- A call writes under its own number, returns when it has cleared what it changed, and answers what
it has read since it began. -/
def Legal (t : Phase) (s : Shared) : Write → Prop
  | .statement call _ _ | .importChunk call _ _ => t.call = some call
  | .returned call => t.call = some call ∧ t.suites = [] ∧ t.pages = []
  | .listing since => since ⊆ s.returned
  | .count _ _ _ offset page => needsCount offset page = true
  | .answer listing since shown =>
      t.since = since ∧ (Covers s listing since shown ∨ t.counted = some (listing, shown))
  | _ => True

/-- What holds of the caches whatever the calls are at. -/
structure Cached (s : Shared) : Prop where
  current : ∃ caller older, s.history = ⟨caller, s.data⟩ :: older
  suites : ∀ projectId rows, s.suites projectId = some rows →
    ShownSince (Listing.suites projectId).view (s.suitesCleared projectId) (.ok (.suites rows))
      s.history
  pages : ∀ projectId limit offset page, s.pages (projectId, limit, offset) = some page →
    (limit, offset) ∈ s.pageKeys projectId ∧
      ShownSince (Listing.testcases projectId .plain limit offset).view (s.pagesCleared projectId)
        (.ok (.page page)) s.history
  settled : ∀ call ∈ s.returned, ∀ listing : Listing,
    Settled listing.view call (s.cleared listing) s.history

/-- What one state allows a later one to be. -/
structure Later (s s' : Shared) : Prop where
  returned : s.returned ⊆ s'.returned
  grown : ∃ newer, s'.history = newer ++ s.history ∧
    ∀ m ∈ newer, ∀ call ∈ s.returned, m.caller ≠ some call
  cached : Cached s → Cached s'

theorem Later.refl (s : Shared) : Later s s :=
  ⟨List.Subset.refl _, ⟨[], rfl, fun _ hm ↦ by cases hm⟩, fun h ↦ h⟩

theorem Later.trans (s₁ s₂ s₃ : Shared) (h : Later s₁ s₂) (h' : Later s₂ s₃) : Later s₁ s₃ := by
  obtain ⟨newer, hnewer, hcallers⟩ := h.grown
  obtain ⟨newer', hnewer', hcallers'⟩ := h'.grown
  refine ⟨List.Subset.trans h.returned h'.returned, ⟨newer' ++ newer, ?_, ?_⟩, fun hc ↦ h'.cached (h.cached hc)⟩
  · rw [hnewer', hnewer, List.append_assoc]
  · intro m hm call hcall
    rcases List.mem_append.mp hm with hm | hm
    · exact hcallers' m hm call (h.returned hcall)
    · exact hcallers m hm call hcall

/-- What covers the write calls that had returned goes on covering them. -/
theorem Covers.later {s s' : Shared} {listing : Listing} {since : List ℕ} {shown : Shown}
    (h : Covers s listing since shown) (hsince : since ⊆ s.returned) (hs : Later s s') :
    Covers s' listing since shown := by
  obtain ⟨newer, hnewer, hcallers⟩ := hs.grown
  unfold Covers
  rw [hnewer]
  exact Includes.append h fun m hm call hcall ↦ hcallers m hm call (hsince hcall)

/-- What the database has now covers whatever has been written. -/
theorem Cached.covers {s : Shared} (h : Cached s) {listing : Listing} {shown : Shown}
    (hview : listing.view s.data = .ok shown) (since : List ℕ) : Covers s listing since shown := by
  obtain ⟨caller, older, hhistory⟩ := h.current
  unfold Covers
  rw [hhistory]
  exact .inl hview

theorem view_plain {projectId : Uuid} {query : TestcasesQuery} {limit offset : ℕ}
    (h : isNoFilterTestcasesQuery query = true) :
    (Listing.testcases projectId query limit offset).view =
      (Listing.testcases projectId .plain limit offset).view := by
  funext d
  simp only [Listing.view, listTestCasesUncached_of_isNoFilter h]

abbrev Keeps {α : Type} (t : Phase) (s : Shared) (Q : α → Phase → Shared → Prop)
    (p : Procedure α) : Prop := Follows turn Later Legal Q t s p

theorem keeps_seq {α β : Type} {t : Phase} {s : Shared} {P : α → Phase → Shared → Prop}
    {Q : β → Phase → Shared → Prop} {p : Procedure α} {f : α → Procedure β} (hp : Keeps t s P p)
    (hf : ∀ a t' s', Later s s' → P a t' s' → Keeps t' s' Q (f a)) : Keeps t s Q (p >>= f) :=
  follows_seq Later.refl Later.trans hp hf

/-- What every call is entered with. -/
abbrev Ends {α : Type} (t : Phase) (s : Shared) (p : Procedure α) : Prop :=
  Keeps t s (fun _ _ _ ↦ True) p

theorem keeps_ask {t : Phase} {s : Shared} (w : Write) {Q : Reply w → Phase → Shared → Prop}
    (hw : ∀ s', Later s s' → Legal t s' w) (hQ : ∀ r s', Later s s' → Q r (turn t w r) s') :
    Keeps t s Q (ask w) := follows_issue Later.trans hw hQ

theorem ends_ask {t : Phase} {s : Shared} (w : Write) (hw : ∀ s', Later s s' → Legal t s' w) :
    Ends t s (ask w) := keeps_ask w hw fun _ _ _ ↦ trivial

/-! ### The lists -/

section Lists

variable [Serialized] {s : Shared} {since : List ℕ}

/-- A list call that knows of the write calls `since`. -/
def Phase.listing (since : List ℕ) : Phase := ⟨none, [], [], since, none⟩

/-- The rows read cover the write calls known of, now or since they were counted. -/
def Reads (listing : Listing) (since : List ℕ) (shown : Shown) (t : Phase) (s : Shared) : Prop :=
  t.since = since ∧ (Covers s listing since shown ∨ t.counted = some (listing, shown))

theorem keeps_readSuites {projectId : Uuid} (hcached : Cached s) (hsince : since ⊆ s.returned) :
    Keeps (.listing since) s
      (fun rows t s' ↦ Reads (.suites projectId) since (.suites rows) t s') (readSuites projectId) := by
  unfold readSuites
  refine follows_query_seq fun s₁ h₁ ↦ ?_
  have hcached₁ := h₁.cached hcached
  have hsince₁ := List.Subset.trans hsince h₁.returned
  cases hhit : s₁.suites projectId with
  | some rows =>
      have hcovers : Covers s₁ (.suites projectId) since (.suites rows) :=
        (hcached₁.suites projectId rows hhit).includes fun call hcall ↦
          hcached₁.settled call (hsince₁ hcall) (.suites projectId)
      exact follows_pure fun s₂ h₂ ↦ ⟨rfl, .inl (hcovers.later hsince₁ h₂)⟩
  | none =>
      refine follows_query_seq fun s₂ h₂ ↦ ?_
      have hsince₂ := List.Subset.trans hsince₁ h₂.returned
      have hcovers : Covers s₂ (.suites projectId) since
          (.suites (listSuitesUncached projectId s₂.data)) := (h₂.cached hcached₁).covers rfl since
      split
      · refine follows_issue_seq (fun _ _ ↦ trivial) fun _ s₃ h₃ ↦ follows_pure fun s₄ h₄ ↦ ?_
        exact ⟨rfl, .inl (hcovers.later hsince₂ (Later.trans s₂ s₃ s₄ h₃ h₄))⟩
      · exact follows_pure fun s₃ h₃ ↦ ⟨rfl, .inl (hcovers.later hsince₂ h₃)⟩

omit [Serialized] in
theorem listTestCasesUncached_of_page {projectId : Uuid} {query : TestcasesQuery}
    {limit offset : ℕ} {d : Data} {page : Page}
    (hpage : selectPage projectId query limit offset d = .ok page)
    (hcount : needsCount offset page = false) :
    listTestCasesUncached projectId query limit offset d = .ok page := by
  unfold listTestCasesUncached
  rw [hpage]
  change (if needsCount offset page = true then _ else _) = _
  rw [hcount]
  rfl

omit [Serialized] in
theorem keeps_selectTestCases {projectId : Uuid} {query : TestcasesQuery} {limit offset : ℕ}
    (hcached : Cached s) (hsince : since ⊆ s.returned) :
    Keeps (.listing since) s
      (fun page t s' ↦ Reads (.testcases projectId query limit offset) since (.page page) t s')
      (selectTestCases projectId query limit offset) := by
  unfold selectTestCases
  refine follows_check_seq fun s₁ h₁ page hpage ↦ ?_
  have hsince₁ := List.Subset.trans hsince h₁.returned
  split
  · next hcount =>
      refine follows_issue_seq (fun _ _ ↦ hcount) fun total s₂ _ ↦ ?_
      exact follows_pure fun _ _ ↦ ⟨rfl, .inr rfl⟩
  · next hcount =>
      have hview : (Listing.testcases projectId query limit offset).view s₁.data = .ok (.page page) := by
        simp only [Listing.view]
        rw [listTestCasesUncached_of_page hpage (Bool.eq_false_iff.mpr hcount)]
        rfl
      have hcovers := (h₁.cached hcached).covers hview since
      exact follows_pure fun s₂ h₂ ↦ ⟨rfl, .inl (hcovers.later hsince₁ h₂)⟩

omit [Serialized] in
theorem Reads.later {listing : Listing} {shown : Shown} {t : Phase} {s' : Shared}
    (h : Reads listing since shown t s) (hsince : since ⊆ s.returned) (hs : Later s s') :
    Reads listing since shown t s' := by
  refine ⟨h.1, ?_⟩
  rcases h.2 with hcovers | hcounted
  · exact .inl (hcovers.later hsince hs)
  · exact .inr hcounted

theorem keeps_readTestCases {projectId : Uuid} {q : TestcasesQuery} (hcached : Cached s)
    (hsince : since ⊆ s.returned) :
    Keeps (.listing since) s
      (fun page t s' ↦ Reads (.testcases projectId q q.pageLimit q.pageOffset) since (.page page) t s')
      (readTestCases projectId q) := by
  unfold readTestCases
  dsimp only
  split
  · next hplain =>
      refine follows_query_seq fun s₁ h₁ ↦ ?_
      have hcached₁ := h₁.cached hcached
      have hsince₁ := List.Subset.trans hsince h₁.returned
      cases hhit : s₁.pages (projectId, q.pageLimit, q.pageOffset) with
      | some page =>
          obtain ⟨-, hshown⟩ := hcached₁.pages projectId _ _ page hhit
          -- the page was stored for the query without parameters
          have hcovers : Covers s₁ (.testcases projectId q q.pageLimit q.pageOffset) since
              (.page page) := by
            unfold Covers
            rw [view_plain hplain]
            exact hshown.includes fun call hcall ↦ hcached₁.settled call (hsince₁ hcall)
              (.testcases projectId .plain q.pageLimit q.pageOffset)
          exact follows_pure fun s₂ h₂ ↦ ⟨rfl, .inl (hcovers.later hsince₁ h₂)⟩
      | none =>
          refine keeps_seq (keeps_selectTestCases hcached₁ hsince₁) fun page t₂ s₂ h₂ hread ↦ ?_
          have hsince₂ := List.Subset.trans hsince₁ h₂.returned
          split
          · refine follows_issue_seq (fun _ _ ↦ trivial) fun _ s₃ h₃ ↦ follows_pure fun s₄ h₄ ↦ ?_
            exact hread.later hsince₂ (Later.trans s₂ s₃ s₄ h₃ h₄)
          · exact follows_pure fun s₃ h₃ ↦ hread.later hsince₂ h₃
  · exact keeps_selectTestCases hcached hsince

theorem keeps_listSuites {projectId : Uuid} (hcached : Cached s) :
    Ends .blank s (listSuites projectId) := by
  unfold listSuites
  refine follows_query_seq fun s₁ h₁ ↦ ?_
  refine follows_issue_seq (fun _ h ↦ h.returned) fun _ s₂ h₂ ↦ ?_
  refine keeps_seq (keeps_readSuites (h₂.cached (h₁.cached hcached)) h₂.returned)
    fun rows t s₃ h₃ hread ↦ ?_
  have hsince := List.Subset.trans h₂.returned h₃.returned
  exact ends_ask (.answer (.suites projectId) s₁.returned (.suites rows)) fun _ h₄ ↦
    hread.later hsince h₄

theorem keeps_listTestCases {projectId : Uuid} {q : TestcasesQuery} (hcached : Cached s) :
    Ends .blank s (listTestCases projectId q) := by
  unfold listTestCases
  refine follows_query_seq fun s₁ h₁ ↦ ?_
  refine follows_issue_seq (fun _ h ↦ h.returned) fun _ s₂ h₂ ↦ ?_
  refine keeps_seq (keeps_readTestCases (h₂.cached (h₁.cached hcached)) h₂.returned)
    fun page t s₃ h₃ hread ↦ ?_
  have hsince := List.Subset.trans h₂.returned h₃.returned
  exact ends_ask (.answer (.testcases projectId q q.pageLimit q.pageOffset) s₁.returned
    (.page page)) fun _ h₄ ↦ hread.later hsince h₄

end Lists

/-! ### The writers -/

section Writers

variable {s : Shared} {call : ℕ} {projectId : Uuid}

/-- A part of a write call that has cleared what it has changed when it ends. -/
abbrev Clears {α : Type} (s : Shared) (call : ℕ) (p : Procedure α) : Prop :=
  Keeps (.clean call) s (fun _ t _ ↦ t = .clean call) p

theorem clears_seq {α β : Type} {p : Procedure α} {f : α → Procedure β} (hp : Clears s call p)
    (hf : ∀ a s', Clears s' call (f a)) : Clears s call (p >>= f) := by
  refine keeps_seq hp fun a t s' _ ht ↦ ?_
  subst ht
  exact hf a s'

theorem clears_pure {α : Type} (a : α) : Clears s call (pure a) := follows_pure fun _ _ ↦ rfl

/-- What is done with the checks of `Access` is no write of the call. -/
theorem clears_of_asks {α : Type} {p : Procedure α} {Q : α → Shared → Prop}
    (h : Asks Later (fun _ w ↦ ∃ uid organizationId, w = .setActiveOrganization uid organizationId)
      Q s p) : Clears s call p := by
  have hlegal : ∀ s w, (∃ uid organizationId, w = Write.setActiveOrganization uid organizationId) →
      Legal (.clean call) s w ∧ ∀ r, turn (.clean call) w r = .clean call := by
    rintro s w ⟨uid, organizationId, rfl⟩
    exact ⟨trivial, fun _ ↦ rfl⟩
  exact (h.follows hlegal).mono fun _ _ _ h ↦ h.1

theorem clears_requireProjectAccess {userId : Option Uuid} {projectId : IdText} :
    Clears s call (Steps.requireProjectAccess userId projectId : Procedure ProjectAccess) :=
  clears_of_asks (Steps.asks_requireProjectAccess Later.refl Later.trans
    fun _ uid organizationId ↦ ⟨uid, organizationId, rfl⟩)

theorem clears_check {α : Type} (f : Shared → Except Failure α) :
    Clears s call (check f : Procedure α) := follows_check fun _ _ _ _ _ _ ↦ rfl

theorem clears_ofExcept {α : Type} (r : Except Failure α) :
    Clears s call (ofExcept r : Procedure α) := by
  cases r with
  | ok a => exact clears_pure a
  | error e => exact follows_fail

theorem clears_require (p : Prop) [Decidable p] (e : Failure) :
    Clears s call (require p e : Procedure Unit) := follows_require fun _ _ _ ↦ rfl

theorem clears_query {α : Type} (f : Shared → α) : Clears s call (query f : Procedure α) :=
  follows_query_seq (f := fun a ↦ pure a) fun _ _ ↦ clears_pure _

theorem clears_found {α : Type} (f : Db → Option α) (e : Failure) :
    Clears s call (Steps.found f e : Procedure α) := clears_check _

theorem clears_select {α : Type} (f : Db → α) : Clears s call (Steps.select f : Procedure α) :=
  clears_query _

theorem clears_requireUser (userId : Option Uuid) :
    Clears s call (Steps.requireUser userId : Procedure Uuid) := clears_ofExcept _

/-- The two invalidations leave nothing of the project to clear. -/
theorem keeps_invalidate :
    Keeps (.owing call projectId) s (fun _ t _ ↦ t = .clean call) (invalidate projectId) := by
  unfold invalidate
  refine follows_issue_seq (fun _ _ ↦ trivial) fun _ s₁ _ ↦ ?_
  refine follows_query_seq fun s₂ _ ↦ ?_
  have hdone : turn (turn (.owing call projectId) (.deleteSuites projectId) ())
      (.deletePages projectId (s₂.pageKeys projectId)) () = .clean call := by
    simp [turn, Phase.owing, Phase.clean]
  exact keeps_ask (.deletePages projectId (s₂.pageKeys projectId)) (fun _ _ ↦ trivial)
    fun _ _ _ ↦ hdone

/-- A transaction, then the invalidations of its project. -/
theorem clears_write_invalidate {tx : Service Failure Data Unit} :
    Clears s call (write call projectId tx >>= fun _ ↦ invalidate projectId) := by
  have hwrite : Keeps (.clean call) s (fun _ t _ ↦ t = .owing call projectId)
      (write call projectId tx) := by
    unfold write attempt
    refine follows_issue_seq (fun _ _ ↦ rfl) fun r s₁ _ ↦ ?_
    cases r with
    | ok _ => exact follows_pure fun _ _ ↦ rfl
    | error e => exact follows_fail
  refine keeps_seq hwrite fun _ t s₁ _ ht ↦ ?_
  subst ht
  exact keeps_invalidate

theorem clears_if {α : Type} {c : Prop} [Decidable c] {p q : Procedure α} (hp : Clears s call p)
    (hq : Clears s call q) : Clears s call (if c then p else q) := by
  split
  · exact hp
  · exact hq

theorem clears_checkParent {parentId : Option IdText} :
    Clears s call (checkParent projectId parentId) := by
  cases parentId with
  | none => exact clears_pure ()
  | some suiteId => exact clears_check _

theorem clears_createSuite {body : SuiteBody} :
    Clears s call (createSuite call projectId body) := by
  unfold createSuite
  refine clears_seq (clears_require _ _) fun _ _ ↦ ?_
  refine clears_seq (clears_ofExcept _) fun _ _ ↦ ?_
  refine clears_seq (clears_ofExcept _) fun description _ ↦ ?_
  refine clears_seq (clears_ofExcept _) fun preconditions _ ↦ ?_
  refine clears_seq clears_checkParent fun _ _ ↦ ?_
  exact clears_write_invalidate

theorem clears_createSuiteForUser {userId : Option Uuid} {projectId : IdText} {body : SuiteBody} :
    Clears s call (createSuiteForUser call userId projectId body) :=
  clears_seq clears_requireProjectAccess fun _ _ ↦ clears_createSuite

theorem clears_requireSuiteAccess {userId : Option Uuid} {suiteId : IdText} :
    Clears s call (requireSuiteAccess userId suiteId) := by
  unfold requireSuiteAccess
  refine clears_seq (clears_requireUser _) fun uid _ ↦ ?_
  refine clears_seq (clears_require _ _) fun _ _ ↦ ?_
  refine clears_seq (clears_ofExcept _) fun id _ ↦ ?_
  refine clears_seq (clears_found _ _) fun suite _ ↦ ?_
  exact clears_seq clears_requireProjectAccess fun _ _ ↦ clears_pure _

theorem clears_updateSuite {userId : Option Uuid} {suiteId : IdText} {body : SuiteBody} :
    Clears s call (updateSuite call userId suiteId body) := by
  unfold updateSuite
  refine clears_seq clears_requireSuiteAccess fun projectId _ ↦ ?_
  refine clears_seq (clears_ofExcept _) fun _ _ ↦ ?_
  refine clears_seq (clears_ofExcept _) fun description _ ↦ ?_
  refine clears_seq (clears_ofExcept _) fun preconditions _ ↦ ?_
  refine clears_seq clears_checkParent fun _ _ ↦ ?_
  exact clears_write_invalidate

theorem clears_deleteSuite {userId : Option Uuid} {suiteId : IdText} {mode : DeleteMode} :
    Clears s call (deleteSuite call userId suiteId mode) := by
  unfold deleteSuite
  refine clears_seq (clears_requireUser _) fun uid _ ↦ ?_
  refine clears_seq clears_requireSuiteAccess fun projectId _ ↦ ?_
  exact clears_write_invalidate

/-- Attempts that fail change nothing; the one that does not leaves the project to be cleared. -/
theorem keeps_createAttempts {uid : Uuid} {body : TestcaseBody} {details : Details} {retries : ℕ} :
    Keeps (.clean call) s (fun _ t _ ↦ t = .owing call projectId)
      (createAttempts call projectId uid body details retries) := by
  induction retries generalizing s with
  | zero =>
      unfold createAttempts attempt
      refine follows_issue_seq (fun _ _ ↦ rfl) fun r s₁ _ ↦ ?_
      cases r with
      | ok _ => exact follows_pure fun _ _ ↦ rfl
      | error e => exact follows_fail
  | succ retries ih =>
      unfold createAttempts attempt
      refine follows_issue_seq (fun _ _ ↦ rfl) fun r s₁ _ ↦ ?_
      cases r with
      | ok _ => exact follows_pure fun _ _ ↦ rfl
      | error e =>
          dsimp only
          split
          · exact ih
          · exact follows_fail

theorem clears_createTestCaseForUser {userId : Option Uuid} {projectId : IdText}
    {body : TestcaseBody} {details : Details} :
    Clears s call (createTestCaseForUser call userId projectId body details) := by
  unfold createTestCaseForUser
  refine clears_seq clears_requireProjectAccess fun access _ ↦ ?_
  refine clears_seq (clears_requireUser _) fun uid _ ↦ ?_
  refine clears_seq (clears_ofExcept _) fun _ _ ↦ ?_
  refine keeps_seq keeps_createAttempts fun _ t s₁ _ ht ↦ ?_
  subst ht
  exact keeps_invalidate

theorem clears_bulkCreateTestCasesForUser {userId : Option Uuid} {projectId : IdText}
    {incoming : List TestcaseBody} {testcaseIdPrefix : Arg String} {details : List Details} :
    Clears s call
      (bulkCreateTestCasesForUser call userId projectId incoming testcaseIdPrefix details) := by
  unfold bulkCreateTestCasesForUser
  refine clears_seq clears_requireProjectAccess fun access _ ↦ ?_
  exact clears_if (clears_pure ()) clears_write_invalidate

theorem clears_importChunkList {ctx : ImportContext} {titles : List String}
    {chunks : List (ℕ × List ImportRow)} {st : ImportState} :
    Clears s call (importChunkList call ctx titles chunks st) := by
  induction chunks generalizing s st with
  | nil => exact clears_pure ()
  | cons chunk chunks ih =>
      obtain ⟨start, chunk⟩ := chunk
      unfold importChunkList
      dsimp only
      refine clears_if ih (clears_seq (clears_select _) fun snapshot _ ↦ ?_)
      refine follows_issue_seq (fun _ _ ↦ rfl) fun r s₁ _ ↦ ?_
      cases r with
      | error e => exact follows_fail
      | ok _ =>
          refine follows_ofExcept_seq fun st' _ ↦ ?_
          have hcleared : Keeps (.owing call ctx.projectId) s₁ (fun _ t _ ↦ t = .clean call)
              (invalidate ctx.projectId) := keeps_invalidate
          refine keeps_seq hcleared fun _ t s₂ _ ht ↦ ?_
          subst ht
          exact ih

theorem clears_importTestCases {userId : Option Uuid} {projectId : IdText} {body : ImportBody} :
    Clears s call (importTestCases call userId projectId body) := by
  unfold importTestCases
  refine clears_seq (clears_requireUser _) fun uid _ ↦ ?_
  refine clears_seq clears_requireProjectAccess fun access _ ↦ ?_
  refine clears_seq (clears_require _ _) fun _ _ ↦ ?_
  refine clears_seq (clears_require _ _) fun _ _ ↦ ?_
  refine clears_seq (clears_check _) fun defaultSuiteId _ ↦ ?_
  refine clears_seq (clears_select _) fun titles _ ↦ ?_
  refine clears_seq (clears_select _) fun suiteIdByKey _ ↦ ?_
  exact clears_importChunkList

theorem clears_requireTestCaseAccess {userId : Option Uuid} {projectId testcaseId : IdText} :
    Clears s call (requireTestCaseAccess userId projectId testcaseId) := by
  unfold requireTestCaseAccess
  refine clears_seq (clears_requireUser _) fun uid _ ↦ ?_
  refine clears_seq clears_requireProjectAccess fun access _ ↦ ?_
  refine clears_seq (clears_require _ _) fun _ _ ↦ ?_
  refine clears_seq (clears_ofExcept _) fun id _ ↦ ?_
  exact clears_seq (clears_found _ _) fun _ _ ↦ clears_pure _

theorem clears_readTestcase {testcaseId : IdText} : Clears s call (readTestcase testcaseId) :=
  clears_seq (clears_ofExcept _) fun _ _ ↦ clears_found _ _

theorem clears_updateTestCaseForUser {userId : Option Uuid} {projectId testcaseId : IdText}
    {body : TestcaseBody} {details : Details → Details} :
    Clears s call (updateTestCaseForUser call userId projectId testcaseId body details) := by
  unfold updateTestCaseForUser
  refine clears_seq clears_requireTestCaseAccess fun access _ ↦ ?_
  refine clears_seq (clears_require _ _) fun _ _ ↦ ?_
  refine clears_seq (clears_requireUser _) fun uid _ ↦ ?_
  refine clears_seq (clears_ofExcept _) fun _ _ ↦ ?_
  refine clears_seq clears_readTestcase fun before _ ↦ ?_
  exact clears_write_invalidate

theorem clears_duplicateTestCaseForUser {userId : Option Uuid} {projectId testcaseId : IdText}
    {related : Except Failure Unit} :
    Clears s call (duplicateTestCaseForUser call userId projectId testcaseId related) := by
  unfold duplicateTestCaseForUser
  refine clears_seq clears_requireTestCaseAccess fun access _ ↦ ?_
  refine clears_seq (clears_requireUser _) fun uid _ ↦ ?_
  refine clears_seq clears_readTestcase fun src _ ↦ ?_
  refine clears_seq (clears_check _) fun externalId _ ↦ ?_
  exact clears_write_invalidate

theorem clears_deleteTestCaseForUser {userId : Option Uuid} {projectId testcaseId : IdText} :
    Clears s call (deleteTestCaseForUser call userId projectId testcaseId) := by
  unfold deleteTestCaseForUser
  refine clears_seq clears_requireTestCaseAccess fun access _ ↦ ?_
  refine clears_seq (clears_requireUser _) fun uid _ ↦ ?_
  refine clears_seq clears_readTestcase fun before _ ↦ ?_
  exact clears_write_invalidate

theorem clears_bulkUpdateTestCases {userId : Option Uuid} {projectId : IdText}
    {testcaseIds : List IdText} {body : TestcaseBody} :
    Clears s call (bulkUpdateTestCases call userId projectId testcaseIds body) := by
  unfold bulkUpdateTestCases
  refine clears_seq (clears_requireUser _) fun uid _ ↦ ?_
  refine clears_seq clears_requireProjectAccess fun access _ ↦ ?_
  refine clears_if (clears_pure ()) (clears_seq (clears_ofExcept _) fun _ _ ↦ ?_)
  exact clears_write_invalidate

theorem clears_bulkDeleteTestCases {userId : Option Uuid} {projectId : IdText}
    {testcaseIds : List IdText} :
    Clears s call (bulkDeleteTestCases call userId projectId testcaseIds) := by
  unfold bulkDeleteTestCases
  refine clears_seq (clears_requireUser _) fun uid _ ↦ ?_
  refine clears_seq clears_requireProjectAccess fun access _ ↦ ?_
  exact clears_if (clears_pure ()) clears_write_invalidate

/-- A write call returns when it has cleared what it changed. -/
theorem ends_numbered {t : Phase} {body : ℕ → Procedure Unit}
    (hbody : ∀ call s, Clears s call (body call)) : Ends t s (numbered body) := by
  unfold numbered
  refine follows_issue_seq (fun _ _ ↦ trivial) fun call s₁ _ ↦ ?_
  refine keeps_seq (hbody call s₁) fun _ t' s₂ _ ht' ↦ ?_
  subst ht'
  exact ends_ask (.returned call) fun _ _ ↦ ⟨rfl, rfl, rfl⟩

end Writers

theorem ends_enter [Serialized] {s : Shared} (hcached : Cached s) (c : Call) :
    Ends .blank s (enter c) := by
  cases c with
  | listSuites projectId => exact keeps_listSuites hcached
  | listTestCases projectId query => exact keeps_listTestCases hcached
  | elapse time => exact ends_ask (.elapse time) fun _ _ ↦ trivial
  | createSuite => exact ends_numbered fun _ _ ↦ clears_createSuite
  | createSuiteForUser => exact ends_numbered fun _ _ ↦ clears_createSuiteForUser
  | updateSuite => exact ends_numbered fun _ _ ↦ clears_updateSuite
  | deleteSuite => exact ends_numbered fun _ _ ↦ clears_deleteSuite
  | createTestCaseForUser => exact ends_numbered fun _ _ ↦ clears_createTestCaseForUser
  | bulkCreateTestCasesForUser => exact ends_numbered fun _ _ ↦ clears_bulkCreateTestCasesForUser
  | importTestCases => exact ends_numbered fun _ _ ↦ clears_importTestCases
  | updateTestCaseForUser => exact ends_numbered fun _ _ ↦ clears_updateTestCaseForUser
  | duplicateTestCaseForUser => exact ends_numbered fun _ _ ↦ clears_duplicateTestCaseForUser
  | deleteTestCaseForUser => exact ends_numbered fun _ _ ↦ clears_deleteTestCaseForUser
  | bulkUpdateTestCases => exact ends_numbered fun _ _ ↦ clears_bulkUpdateTestCases
  | bulkDeleteTestCases => exact ends_numbered fun _ _ ↦ clears_bulkDeleteTestCases
  | saveTestCases => exact ends_numbered fun _ _ ↦ clears_write_invalidate

/-! ## What every step keeps -/

/-- The record agrees with where a call is. -/
structure InPhase (s : Shared) (t : Phase) : Prop where
  writing : ∀ call, t.call = some call → call < s.calls ∧ call ∉ s.returned
  settled : ∀ call, t.call = some call → ∀ listing : Listing, ¬ t.Owes listing →
    Settled listing.view call (s.cleared listing) s.history
  since : t.since ⊆ s.returned
  counted : ∀ listing shown, t.counted = some (listing, shown) → Covers s listing t.since shown

structure Kept (s : Shared) (phase : ℕ → Phase) : Prop where
  cached : Cached s
  fresh : ShowsWrites s
  numbered : ∀ m ∈ s.history, ∀ call, m.caller = some call → call < s.calls
  returned : ∀ call ∈ s.returned, call < s.calls
  distinct : ∀ j k call, (phase j).call = some call → (phase k).call = some call → j = k
  phases : ∀ k, InPhase s (phase k)

section Steps

variable {s s' : Shared} {phase : ℕ → Phase} {k : ℕ} {t : Phase}

theorem inPhase_blank : InPhase s .blank where
  writing _ h := by cases h
  settled _ h := by cases h
  since := List.nil_subset _
  counted _ _ h := by cases h

/-- One call goes on to a phase, the others stay in theirs. -/
theorem Kept.turned (h : Kept s phase) (hcached : Cached s') (hfresh : ShowsWrites s')
    (hnumbered : ∀ m ∈ s'.history, ∀ call, m.caller = some call → call < s'.calls)
    (hreturned : ∀ call ∈ s'.returned, call < s'.calls)
    (hcall : ∀ call, t.call = some call → ∀ j, j ≠ k → (phase j).call ≠ some call)
    (hothers : ∀ j, j ≠ k → InPhase s' (phase j)) (hown : InPhase s' t) :
    Kept s' (Function.update phase k t) := by
  have hself : Function.update phase k t k = t := Function.update_self ..
  have hstay : ∀ j, j ≠ k → Function.update phase k t j = phase j := fun j hj ↦
    Function.update_of_ne hj ..
  refine ⟨hcached, hfresh, hnumbered, hreturned, ?_, ?_⟩
  · intro i j call hi hj
    by_cases hik : i = k
    · by_cases hjk : j = k
      · rw [hik, hjk]
      · rw [hik, hself] at hi
        rw [hstay j hjk] at hj
        exact absurd hj (hcall call hi j hjk)
    · rw [hstay i hik] at hi
      by_cases hjk : j = k
      · rw [hjk, hself] at hj
        exact absurd hi (hcall call hj i hik)
      · rw [hstay j hjk] at hj
        exact h.distinct i j call hi hj
  · intro j
    by_cases hj : j = k
    · rw [hj, hself]
      exact hown
    · rw [hstay j hj]
      exact hothers j hj

/-- The number of a call in its phase is not another's. -/
theorem Kept.other (h : Kept s phase) (ht : t.call = (phase k).call) :
    ∀ call, t.call = some call → ∀ j, j ≠ k → (phase j).call ≠ some call := by
  intro call hcall j hj hother
  exact hj (h.distinct j k call hother (ht ▸ hcall))

/-! ### A state is left -/

theorem Cached.not_changes (h : Cached s) {caller : Option ℕ} {d : Data} {listing : Listing}
    (hview : listing.view d = listing.view s.data) :
    ¬ Changes listing.view ⟨caller, d⟩ s.history := by
  obtain ⟨caller', older, hhistory⟩ := h.current
  rw [hhistory]
  exact fun hchanges ↦ hchanges hview

theorem Cached.left (h : Cached s) {caller : Option ℕ} {d : Data}
    (hcaller : ∀ call ∈ s.returned, caller ≠ some call) : Cached (s.left caller d) where
  current := ⟨caller, s.history, rfl⟩
  suites projectId rows hrows := (h.suites projectId rows hrows).push _
  pages projectId limit offset page hpage :=
    ⟨(h.pages projectId limit offset page hpage).1,
      (h.pages projectId limit offset page hpage).2.push _⟩
  settled call hcall listing :=
    (h.settled call hcall listing).push fun hm ↦ absurd hm (hcaller call hcall)

theorem later_left {caller : Option ℕ} {d : Data}
    (hcaller : ∀ call ∈ s.returned, caller ≠ some call) : Later s (s.left caller d) where
  returned := List.Subset.refl _
  grown := by
    refine ⟨[⟨caller, d⟩], rfl, fun m hm call hcall ↦ ?_⟩
    rw [List.mem_singleton.mp hm]
    exact hcaller call hcall
  cached hcached := hcached.left hcaller

theorem InPhase.left (h : InPhase s t) (hcached : Cached s) {caller : Option ℕ} {d : Data}
    (hcaller : ∀ call ∈ s.returned, caller ≠ some call)
    (hown : ∀ call, t.call = some call → caller = some call → ∀ listing : Listing,
      ¬ t.Owes listing → listing.view d = listing.view s.data) : InPhase (s.left caller d) t where
  writing := h.writing
  settled call hcall listing howes := by
    refine (h.settled call hcall listing howes).push fun hm hchanges ↦ ?_
    exact absurd hchanges (hcached.not_changes (hown call hcall hm listing howes))
  since := h.since
  counted listing shown hcounted := by
    refine (h.counted listing shown hcounted).push fun call hcall ↦ ?_
    exact hcaller call (h.since hcall)

/-- A change no write call makes. -/
theorem Kept.unnamed (h : Kept s phase) (d : Data) :
    Kept (s.left none d) (Function.update phase k (phase k)) ∧ Later s (s.left none d) := by
  have hnone : ∀ call ∈ s.returned, (none : Option ℕ) ≠ some call := fun _ _ hc ↦ by cases hc
  have hphase : ∀ j, InPhase (s.left none d) (phase j) := fun j ↦
    (h.phases j).left h.cached hnone fun _ _ hc ↦ by cases hc
  refine ⟨h.turned (h.cached.left hnone) h.fresh ?_ h.returned (h.other rfl) (fun j _ ↦ hphase j)
    (hphase k), later_left hnone⟩
  intro m hm call hcall
  rcases List.mem_cons.mp hm with rfl | hm
  · cases hcall
  · exact h.numbered m hm call hcall

theorem listing_view_of_elsewhere {P : Uuid} {d d' : Data} (h : elsewhere P d' = elsewhere P d)
    {listing : Listing} (hne : listing.projectId ≠ P) : listing.view d' = listing.view d := by
  cases listing with
  | suites projectId =>
      have hQ : projectId ≠ P := hne
      simp only [Listing.view, listSuitesUncached_of_elsewhere h hQ]
  | testcases projectId query limit offset =>
      have hQ : projectId ≠ P := hne
      simp only [Listing.view, listTestCasesUncached_of_elsewhere h hQ]

/-- The state a transaction leaves: its call has the project to clear. -/
theorem Kept.committed (h : Kept s phase) {call : ℕ} {projectId : Uuid} {d : Data}
    (hcall : (phase k).call = some call) (hd : elsewhere projectId d = elsewhere projectId s.data) :
    Kept (s.left (some call) d) (Function.update phase k
      { phase k with suites := projectId :: (phase k).suites, pages := projectId :: (phase k).pages }) ∧
      Later s (s.left (some call) d) := by
  have hmine := h.phases k
  have hcaller : ∀ c ∈ s.returned, some call ≠ some c := by
    rintro c hc heq
    obtain rfl := Option.some.inj heq
    exact (hmine.writing call hcall).2 hc
  have howing : InPhase s { phase k with
      suites := projectId :: (phase k).suites, pages := projectId :: (phase k).pages } := by
    refine ⟨hmine.writing, fun c hc listing howes ↦ hmine.settled c hc listing fun hold ↦ ?_,
      hmine.since, hmine.counted⟩
    cases listing with
    | suites P => exact howes (List.mem_cons_of_mem _ hold)
    | testcases P query limit offset => exact howes (List.mem_cons_of_mem _ hold)
  refine ⟨h.turned (h.cached.left hcaller) h.fresh ?_ h.returned (h.other rfl) ?_ ?_,
    later_left hcaller⟩
  · intro m hm c hc
    rcases List.mem_cons.mp hm with rfl | hm
    · obtain rfl := Option.some.inj hc
      exact (hmine.writing call hcall).1
    · exact h.numbered m hm c hc
  · intro j hj
    refine (h.phases j).left h.cached hcaller fun c hc heq ↦ ?_
    obtain rfl := Option.some.inj heq
    exact absurd (h.distinct j k call hc hcall) hj
  · refine howing.left h.cached hcaller fun c _ _ listing howes ↦ ?_
    -- a list the call does not owe is of another project
    refine listing_view_of_elsewhere hd fun hP ↦ howes ?_
    subst hP
    cases listing with
    | suites P => exact List.mem_cons_self
    | testcases P query limit offset => exact List.mem_cons_self

/-! ### Numbers, clearings and copies -/

theorem later_of_eq (h : Cached s') (hreturned : s.returned ⊆ s'.returned)
    (hhistory : s'.history = s.history) : Later s s' :=
  ⟨hreturned, ⟨[], hhistory, fun _ hm ↦ by cases hm⟩, fun _ ↦ h⟩

/-- A new write call has left no state. -/
theorem Kept.begins (h : Kept s phase) :
    Kept { s with calls := s.calls + 1 } (Function.update phase k (.clean s.calls)) ∧
      Later s { s with calls := s.calls + 1 } := by
  have hcached : Cached { s with calls := s.calls + 1 } :=
    ⟨h.cached.current, h.cached.suites, h.cached.pages, h.cached.settled⟩
  refine ⟨h.turned hcached h.fresh (fun m hm call hc ↦ ?_) (fun call hc ↦ ?_) ?_ ?_ ?_,
    later_of_eq hcached (List.Subset.refl _) rfl⟩
  · exact Nat.lt_succ_of_lt (h.numbered m hm call hc)
  · exact Nat.lt_succ_of_lt (h.returned call hc)
  · intro call hcall j _ hj
    obtain rfl := Option.some.inj hcall
    exact absurd ((h.phases j).writing _ hj).1 (Nat.lt_irrefl _)
  · intro j _
    have hj := h.phases j
    exact ⟨fun call hc ↦ ⟨Nat.lt_succ_of_lt (hj.writing call hc).1, (hj.writing call hc).2⟩,
      hj.settled, hj.since, hj.counted⟩
  · refine ⟨fun call hcall ↦ ?_, fun call hcall listing _ ↦ ?_, List.nil_subset _, fun _ _ hc ↦ ?_⟩
    · obtain rfl := Option.some.inj hcall
      exact ⟨Nat.lt_succ_self _, fun hc ↦ Nat.lt_irrefl _ (h.returned _ hc)⟩
    · obtain rfl := Option.some.inj hcall
      exact settled_of_not_caller fun m hm hc ↦ Nat.lt_irrefl _ (h.numbered m hm _ hc)
    · cases hc

/-- A call that returns has cleared what it changed. -/
theorem Kept.returns (h : Kept s phase) {call : ℕ} (hcall : (phase k).call = some call)
    (hsuites : (phase k).suites = []) (hpages : (phase k).pages = []) :
    Kept { s with returned := call :: s.returned }
      (Function.update phase k { phase k with call := none }) ∧
      Later s { s with returned := call :: s.returned } := by
  have hmine := h.phases k
  have howes : ∀ listing, ¬ (phase k).Owes listing := by
    intro listing
    cases listing with
    | suites P =>
        intro hmem
        unfold Phase.Owes at hmem
        rw [hsuites] at hmem
        cases hmem
    | testcases P query limit offset =>
        intro hmem
        unfold Phase.Owes at hmem
        rw [hpages] at hmem
        cases hmem
  have hcached : Cached { s with returned := call :: s.returned } := by
    refine ⟨h.cached.current, h.cached.suites, h.cached.pages, fun c hc listing ↦ ?_⟩
    rcases List.mem_cons.mp hc with rfl | hc
    · exact hmine.settled c hcall listing (howes listing)
    · exact h.cached.settled c hc listing
  refine ⟨h.turned hcached h.fresh h.numbered (fun c hc ↦ ?_) (fun _ hc ↦ ?_) ?_ ?_,
    later_of_eq hcached (List.subset_cons_self _ _) rfl⟩
  · rcases List.mem_cons.mp hc with rfl | hc
    · exact (hmine.writing c hcall).1
    · exact h.returned c hc
  · cases hc
  · intro j hj
    have hphase := h.phases j
    refine ⟨fun c hc ↦ ⟨(hphase.writing c hc).1, fun hmem ↦ ?_⟩, hphase.settled,
      List.subset_cons_of_subset _ hphase.since, hphase.counted⟩
    rcases List.mem_cons.mp hmem with rfl | hmem
    · exact hj (h.distinct j k c hc hcall)
    · exact (hphase.writing c hc).2 hmem
  · refine ⟨fun _ hc ↦ ?_, fun _ hc ↦ ?_, List.subset_cons_of_subset _ hmine.since, hmine.counted⟩
    · cases hc
    · cases hc

/-- A clearing settles what has been changed so far. -/
theorem InPhase.cleared (h : InPhase s t) {t' : Phase} (hcalls : s'.calls = s.calls)
    (hreturned : s'.returned = s.returned) (hhistory : s'.history = s.history)
    (hcall : t'.call = t.call) (hsince : t'.since = t.since) (hcounted : t'.counted = t.counted)
    (hcleared : ∀ listing, s'.cleared listing = s.history.length ∨
      s'.cleared listing = s.cleared listing ∧ (¬ t'.Owes listing → ¬ t.Owes listing)) :
    InPhase s' t' := by
  refine ⟨?_, fun call hc listing howes ↦ ?_, ?_, ?_⟩
  · rw [hcall, hcalls, hreturned]
    exact h.writing
  · rw [hhistory]
    rcases hcleared listing with hnow | ⟨hsame, hless⟩
    · exact settled_of_length_le hnow.ge
    · rw [hsame]
      exact h.settled call (hcall ▸ hc) listing (hless howes)
  · rw [hsince, hreturned]
    exact h.since
  · unfold Covers
    rw [hcounted, hsince, hhistory]
    exact h.counted

theorem Kept.deletesSuites (h : Kept s phase) (projectId : Uuid) :
    let s' : Shared := { s with
      suites := Function.update s.suites projectId none
      suitesCleared := Function.update s.suitesCleared projectId s.history.length }
    Kept s' (Function.update phase k { phase k with
      suites := (phase k).suites.filter (· ≠ projectId) }) ∧ Later s s' := by
  intro s'
  have hcleared : ∀ listing, s'.cleared listing = s.history.length ∨
      s'.cleared listing = s.cleared listing ∧ listing ≠ .suites projectId := by
    intro listing
    cases listing with
    | testcases P query limit offset => exact .inr ⟨rfl, fun heq ↦ by cases heq⟩
    | suites P =>
        by_cases hP : P = projectId
        · subst hP
          exact .inl (Function.update_self ..)
        · refine .inr ⟨Function.update_of_ne hP .., fun heq ↦ ?_⟩
          cases heq
          exact hP rfl
  have hcached : Cached s' := by
    refine ⟨h.cached.current, fun P rows hrows ↦ ?_, h.cached.pages, fun call hc listing ↦ ?_⟩
    · by_cases hP : P = projectId
      · subst hP
        have hnone : s'.suites P = none := Function.update_self ..
        rw [hnone] at hrows
        cases hrows
      · have hsame : s'.suites P = s.suites P := Function.update_of_ne hP ..
        have hsince : s'.suitesCleared P = s.suitesCleared P := Function.update_of_ne hP ..
        rw [hsince]
        exact h.cached.suites P rows (hsame ▸ hrows)
    · rcases hcleared listing with hnow | ⟨hsame, -⟩
      · exact settled_of_length_le hnow.ge
      · rw [hsame]
        exact h.cached.settled call hc listing
  refine ⟨h.turned hcached h.fresh h.numbered h.returned (h.other rfl) (fun j _ ↦ ?_) ?_,
    later_of_eq hcached (List.Subset.refl _) rfl⟩
  · refine (h.phases j).cleared rfl rfl rfl rfl rfl rfl fun listing ↦ ?_
    exact (hcleared listing).imp_right fun hsame ↦ ⟨hsame.1, fun howes ↦ howes⟩
  · refine (h.phases k).cleared rfl rfl rfl rfl rfl rfl fun listing ↦ ?_
    refine (hcleared listing).imp_right fun hsame ↦ ⟨hsame.1, fun howes hold ↦ howes ?_⟩
    cases listing with
    | testcases P query limit offset => exact hold
    | suites P =>
        refine List.mem_filter.mpr ⟨hold, decide_eq_true fun hP ↦ hsame.2 ?_⟩
        rw [hP]

theorem Kept.deletesPages (h : Kept s phase) {projectId : Uuid} {keys : List (ℕ × ℕ)}
    (hkeys : ∀ key ∈ s.pageKeys projectId, key ∈ keys) :
    let s' : Shared := { s with
      pages := fun key ↦ if key.1 = projectId ∧ key.2 ∈ keys then none else s.pages key
      pageKeys := Function.update s.pageKeys projectId []
      pagesCleared := Function.update s.pagesCleared projectId s.history.length }
    Kept s' (Function.update phase k { phase k with
      pages := (phase k).pages.filter (· ≠ projectId) }) ∧ Later s s' := by
  intro s'
  have hcleared : ∀ listing, s'.cleared listing = s.history.length ∨
      s'.cleared listing = s.cleared listing ∧
        ∀ query limit offset, listing ≠ .testcases projectId query limit offset := by
    intro listing
    cases listing with
    | suites P => exact .inr ⟨rfl, fun _ _ _ heq ↦ by cases heq⟩
    | testcases P query limit offset =>
        by_cases hP : P = projectId
        · subst hP
          exact .inl (Function.update_self ..)
        · refine .inr ⟨Function.update_of_ne hP .., fun _ _ _ heq ↦ ?_⟩
          cases heq
          exact hP rfl
  have hcached : Cached s' := by
    refine ⟨h.cached.current, h.cached.suites, fun P limit offset page hpage ↦ ?_,
      fun call hc listing ↦ ?_⟩
    · have hkept : ¬ (P = projectId ∧ (limit, offset) ∈ keys) ∧
          s.pages (P, limit, offset) = some page := by
        by_cases hgone : P = projectId ∧ (limit, offset) ∈ keys
        · have hnone : s'.pages (P, limit, offset) = none := if_pos hgone
          rw [hnone] at hpage
          cases hpage
        · have hsame : s'.pages (P, limit, offset) = s.pages (P, limit, offset) := if_neg hgone
          exact ⟨hgone, hsame ▸ hpage⟩
      obtain ⟨hkey, hshown⟩ := h.cached.pages P limit offset page hkept.2
      -- a page of the project that is left would be one the index did not name
      have hP : P ≠ projectId := fun hP ↦ hkept.1 ⟨hP, hkeys _ (hP ▸ hkey)⟩
      have hindex : s'.pageKeys P = s.pageKeys P := Function.update_of_ne hP ..
      have hsince : s'.pagesCleared P = s.pagesCleared P := Function.update_of_ne hP ..
      rw [hindex, hsince]
      exact ⟨hkey, hshown⟩
    · rcases hcleared listing with hnow | ⟨hsame, -⟩
      · exact settled_of_length_le hnow.ge
      · rw [hsame]
        exact h.cached.settled call hc listing
  refine ⟨h.turned hcached h.fresh h.numbered h.returned (h.other rfl) (fun j _ ↦ ?_) ?_,
    later_of_eq hcached (List.Subset.refl _) rfl⟩
  · refine (h.phases j).cleared rfl rfl rfl rfl rfl rfl fun listing ↦ ?_
    exact (hcleared listing).imp_right fun hsame ↦ ⟨hsame.1, fun howes ↦ howes⟩
  · refine (h.phases k).cleared rfl rfl rfl rfl rfl rfl fun listing ↦ ?_
    refine (hcleared listing).imp_right fun hsame ↦ ⟨hsame.1, fun howes hold ↦ howes ?_⟩
    cases listing with
    | suites P => exact hold
    | testcases P query limit offset =>
        refine List.mem_filter.mpr ⟨hold, decide_eq_true fun hP ↦ hsame.2 query limit offset ?_⟩
        rw [hP]

/-- A step that changes the copies only. -/
theorem Kept.copied (h : Kept s phase) (hcached : Cached s') (hanswers : s'.answers = s.answers)
    (hcalls : s'.calls = s.calls) (hreturned : s'.returned = s.returned)
    (hhistory : s'.history = s.history) (hcleared : ∀ listing, s'.cleared listing = s.cleared listing) :
    Kept s' (Function.update phase k (phase k)) ∧ Later s s' := by
  have hphase : ∀ j, InPhase s' (phase j) := fun j ↦
    (h.phases j).cleared hcalls hreturned hhistory rfl rfl rfl fun listing ↦
      .inr ⟨hcleared listing, fun howes ↦ howes⟩
  refine ⟨h.turned hcached ?_ ?_ ?_ (h.other rfl) (fun j _ ↦ hphase j) (hphase k),
    later_of_eq hcached (hreturned ▸ List.Subset.refl _) hhistory⟩
  · unfold ShowsWrites
    rw [hanswers]
    exact h.fresh
  · rw [hhistory, hcalls]
    exact h.numbered
  · rw [hreturned, hcalls]
    exact h.returned

theorem Kept.storesSuites (h : Kept s phase) {projectId : Uuid} {rows : List SuiteRow}
    (hshown : ShownSince (Listing.suites projectId).view (s.suitesCleared projectId)
      (.ok (.suites rows)) s.history) :
    let s' : Shared := { s with suites := Function.update s.suites projectId (some rows) }
    Kept s' (Function.update phase k (phase k)) ∧ Later s s' := by
  intro s'
  have hcached : Cached s' := by
    refine ⟨h.cached.current, fun P rows' hrows ↦ ?_, h.cached.pages, h.cached.settled⟩
    by_cases hP : P = projectId
    · subst hP
      have hstored : s'.suites P = some rows := Function.update_self ..
      rw [hstored] at hrows
      obtain rfl := Option.some.inj hrows
      exact hshown
    · have hsame : s'.suites P = s.suites P := Function.update_of_ne hP ..
      exact h.cached.suites P rows' (hsame ▸ hrows)
  exact h.copied hcached rfl rfl rfl rfl fun _ ↦ rfl

theorem Kept.storesPage (h : Kept s phase) {projectId : Uuid} {limit offset : ℕ} {page : Page}
    (hshown : ShownSince (Listing.testcases projectId .plain limit offset).view
      (s.pagesCleared projectId) (.ok (.page page)) s.history) :
    let s' : Shared := { s with
      pages := Function.update s.pages (projectId, limit, offset) (some page)
      pageKeys := Function.update s.pageKeys projectId ((limit, offset) :: s.pageKeys projectId) }
    Kept s' (Function.update phase k (phase k)) ∧ Later s s' := by
  intro s'
  have hindex : ∀ P key, key ∈ s.pageKeys P → key ∈ s'.pageKeys P := by
    intro P key hkey
    by_cases hP : P = projectId
    · subst hP
      have hadded : s'.pageKeys P = (limit, offset) :: s.pageKeys P := Function.update_self ..
      rw [hadded]
      exact List.mem_cons_of_mem _ hkey
    · have hsame : s'.pageKeys P = s.pageKeys P := Function.update_of_ne hP ..
      rw [hsame]
      exact hkey
  have hcached : Cached s' := by
    refine ⟨h.cached.current, h.cached.suites, fun P l o page' hpage ↦ ?_, h.cached.settled⟩
    by_cases hkey : (P, l, o) = (projectId, limit, offset)
    · obtain ⟨rfl, rfl, rfl⟩ : P = projectId ∧ l = limit ∧ o = offset := by
        simpa only [Prod.mk.injEq] using hkey
      have hstored : s'.pages (P, l, o) = some page := Function.update_self ..
      have hadded : s'.pageKeys P = (l, o) :: s.pageKeys P := Function.update_self ..
      rw [hstored] at hpage
      obtain rfl := Option.some.inj hpage
      rw [hadded]
      exact ⟨List.mem_cons_self, hshown⟩
    · have hsame : s'.pages (P, l, o) = s.pages (P, l, o) := Function.update_of_ne hkey ..
      obtain ⟨hold, hshown'⟩ := h.cached.pages P l o page' (hsame ▸ hpage)
      exact ⟨hindex P _ hold, hshown'⟩
  exact h.copied hcached rfl rfl rfl rfl fun _ ↦ rfl

/-- What is counted while the page is still empty is the list as it is now. -/
theorem Kept.counts (h : Kept s phase) {projectId : Uuid} {query : TestcasesQuery}
    {limit offset total : ℕ} {page : Page} (hcount : needsCount offset page = true)
    (hpage : (selectPage projectId query limit offset s.data).map Page.rows = .ok page.rows)
    (htotal : countMatching projectId query s.data = .ok total) :
    Kept s (Function.update phase k { phase k with
      counted := some (.testcases projectId query limit offset,
        .page { page with total := total }) }) := by
  have hview : (Listing.testcases projectId query limit offset).view s.data =
      .ok (.page { page with total := total }) := by
    simp only [Listing.view]
    unfold listTestCasesUncached
    cases hselect : selectPage projectId query limit offset s.data with
    | error e => rw [hselect] at hpage; cases hpage
    | ok now =>
        rw [hselect] at hpage
        have hrows : now.rows = page.rows := Except.ok.inj hpage
        have hneeds : needsCount offset now = true := by
          unfold needsCount at hcount ⊢
          rw [hrows]
          exact hcount
        change Except.map Shown.page (if needsCount offset now = true then _ else _) = _
        rw [if_pos hneeds, htotal]
        change Except.ok (Shown.page { now with total := total }) = _
        rw [hrows]
  have hown := h.phases k
  refine h.turned h.cached h.fresh h.numbered h.returned (h.other rfl) (fun j _ ↦ h.phases j) ?_
  refine ⟨hown.writing, hown.settled, hown.since, fun listing shown hc ↦ ?_⟩
  obtain ⟨rfl, rfl⟩ := Prod.mk.inj (Option.some.inj hc)
  exact h.cached.covers hview _

/-- An answer is judged by what its call has read. -/
theorem Kept.answers (h : Kept s phase) {listing : Listing} {since : List ℕ} {shown : Shown}
    (hsince : (phase k).since = since)
    (hread : Covers s listing since shown ∨ (phase k).counted = some (listing, shown)) :
    let s' : Shared := { s with answers := ⟨listing, since, shown, s.history⟩ :: s.answers }
    Kept s' (Function.update phase k (phase k)) ∧ Later s s' := by
  intro s'
  have hcovers : Covers s listing since shown := by
    rcases hread with hcovers | hcounted
    · exact hcovers
    · exact hsince ▸ (h.phases k).counted listing shown hcounted
  have hcached : Cached s' :=
    ⟨h.cached.current, h.cached.suites, h.cached.pages, h.cached.settled⟩
  have hphase : ∀ j, InPhase s' (phase j) := fun j ↦
    ⟨(h.phases j).writing, (h.phases j).settled, (h.phases j).since, (h.phases j).counted⟩
  refine ⟨h.turned hcached ?_ h.numbered h.returned (h.other rfl) (fun j _ ↦ hphase j) (hphase k),
    later_of_eq hcached (List.Subset.refl _) rfl⟩
  intro a ha
  rcases List.mem_cons.mp ha with rfl | ha
  · exact hcovers
  · exact h.fresh a ha

/-! ### The steps -/

theorem kept_commit {α : Type} {call : ℕ} {projectId : Uuid} {tx : Service Failure Data α}
    (h : Kept s phase) (hcall : (phase k).call = some call)
    (htx : Service.onAnswer tx (fun _ d ↦ elsewhere projectId d = elsewhere projectId s.data) s.data)
    {turned : Except Failure α → Phase} (hfailed : ∀ e, turned (.error e) = phase k)
    (hdone : ∀ a, turned (.ok a) = { phase k with
      suites := projectId :: (phase k).suites, pages := projectId :: (phase k).pages }) :
    Service.wp (commit call tx) (fun r s' ↦ Kept s' (Function.update phase k (turned r)))
        (fun _ s' ↦ Kept s' phase) s ∧
      Later s (Service.after (commit call tx) s) := by
  unfold Service.onAnswer at htx
  rcases hrun : tx s.data with ⟨e | a, d⟩
  · have hcommit : commit call tx s = (.ok (.error e), s) := by
      unfold commit
      rw [hrun]
    refine ⟨?_, ?_⟩
    · have hpure : commit call tx s = (pure (.error e) : Service Failure Shared _) s := hcommit
      rw [Service.wp_congr hpure, Service.wp_pure, hfailed, Function.update_eq_self]
      exact h
    · unfold Service.after
      rw [hcommit]
      exact Later.refl s
  · have hcommit : commit call tx s = (.ok (.ok a), s.left (some call) d) := by
      unfold commit
      rw [hrun]
    rw [hrun] at htx
    have hkept := h.committed hcall htx
    refine ⟨?_, ?_⟩
    · unfold Service.wp
      rw [hcommit]
      change Kept (s.left (some call) d) (Function.update phase k (turned (.ok a)))
      rw [hdone]
      exact hkept.1
    · unfold Service.after
      rw [hcommit]
      exact hkept.2

theorem kept_perform (w : Write) (h : Kept s phase) (hlegal : Legal (phase k) s w)
    (htimely : Timely s w) :
    Turns perform turn Kept phase k w s ∧ Later s (Service.after (perform w) s) := by
  unfold Turns
  cases w with
  | setActiveOrganization uid organizationId =>
      exact ⟨(Service.wp_write _).mpr (h.unnamed _).1, (h.unnamed (k := k) _).2⟩
  | elapse time => exact ⟨(Service.wp_write _).mpr (h.unnamed _).1, (h.unnamed (k := k) _).2⟩
  | begin =>
      refine ⟨?_, (h.begins (k := k)).2⟩
      unfold Service.wp
      exact (h.begins (k := k)).1
  | returned call =>
      obtain ⟨hcall, hsuites, hpages⟩ := hlegal
      have hkept := h.returns hcall hsuites hpages
      exact ⟨(Service.wp_write _).mpr hkept.1, hkept.2⟩
  | statement call projectId tx => exact kept_commit h hlegal htimely (fun _ ↦ rfl) fun _ ↦ rfl
  | importChunk call projectId tx => exact kept_commit h hlegal htimely (fun _ ↦ rfl) fun _ ↦ rfl
  | deleteSuites projectId =>
      have hkept := h.deletesSuites (k := k) projectId
      exact ⟨(Service.wp_write _).mpr hkept.1, hkept.2⟩
  | deletePages projectId keys =>
      have hkept := h.deletesPages (k := k) htimely
      exact ⟨(Service.wp_write _).mpr hkept.1, hkept.2⟩
  | storeSuites projectId rows =>
      have hkept := h.storesSuites (k := k) htimely
      exact ⟨(Service.wp_write _).mpr hkept.1, hkept.2⟩
  | storePage projectId limit offset page =>
      have hkept := h.storesPage (k := k) htimely
      exact ⟨(Service.wp_write _).mpr hkept.1, hkept.2⟩
  | count projectId query limit offset page =>
      have hstate : Service.after (perform (.count projectId query limit offset page)) s = s := rfl
      refine ⟨Service.wp_check.mpr ⟨fun total htotal ↦ ?_, fun _ _ ↦ h⟩, ?_⟩
      · exact h.counts hlegal htimely htotal
      · rw [hstate]
        exact Later.refl s
  | listing since =>
      have hstate : Service.after (perform (.listing since)) s = s := rfl
      have hown := h.phases k
      refine ⟨(Service.wp_write _).mpr ?_, ?_⟩
      · refine h.turned h.cached h.fresh h.numbered h.returned (h.other rfl) (fun j _ ↦ h.phases j) ?_
        exact ⟨hown.writing, hown.settled, hlegal, fun _ _ hc ↦ by cases hc⟩
      · rw [hstate]
        exact Later.refl s
  | answer listing since shown =>
      have hkept := h.answers hlegal.1 hlegal.2
      exact ⟨(Service.wp_write _).mpr hkept.1, hkept.2⟩

theorem kept_started (d : Data) : Kept (started d) fun _ ↦ .blank where
  cached := by
    refine ⟨⟨none, [], rfl⟩, fun _ _ h ↦ ?_, fun _ _ _ _ h ↦ ?_, fun _ h ↦ ?_⟩
    · cases h
    · cases h
    · cases h
  fresh _ h := by cases h
  numbered m hm call hc := by
    rw [List.mem_singleton.mp hm] at hc
    cases hc
  returned _ h := by cases h
  distinct _ _ _ h := by cases h
  phases _ := inPhase_blank

/-- What every move of a run keeps. -/
theorem phased_step [Serialized] {c : Run} {m : Move Call}
    (hc : Phased turn Kept Later Legal (fun _ _ _ ↦ True) c) (hm : AtWrite Timely c m) :
    Phased turn Kept Later Legal (fun _ _ _ ↦ True) (step c m) := by
  refine hc.move Later.refl Later.trans (fun s phase k call hkept ↦ ?_)
    (fun s phase k w hkept hlegal htimely ↦ kept_perform w hkept hlegal htimely) hm
  refine ⟨.blank, ?_, ends_enter hkept.cached call⟩
  refine hkept.turned hkept.cached hkept.fresh hkept.numbered hkept.returned (fun _ hc ↦ ?_)
    (fun j _ ↦ hkept.phases j) inPhase_blank
  cases hc

end Steps

end Calls

/-- Every answer of a list call shows what the write calls that had returned before it began have
changed, in any run whose statements keep to the project whose caches are cleared, and in which
nothing is stored that is older than the last clearing or that a clearing under way has not seen. -/
theorem showsWrites_always [Unicode] [QueryTexts] [Serialized] (d : Data) (moves : List (Move Call))
    (h : Along step (AtWrite Timely) (Config.idle (started d)) moves) :
    Always step (fun c : Run ↦ ShowsWrites c.shared) (Config.idle (started d)) moves := by
  have hstart : Phased turn Kept Later Legal (fun _ _ _ ↦ True) (Config.idle (started d) : Run) :=
    Phased.idle (kept_started d)
  have hall := (Along.invariant (fun c m hc hm ↦ ⟨phased_step hc hm, trivial⟩) hstart h).1
  exact hall.mono fun c ⟨_, hkept, _⟩ ↦ hkept.fresh

/-! ## A list stored after the write it does not show -/

/-- A project of one member and nothing in it. -/
def emptyProject : Data where
  db := { Db.empty with
    uuids := fun n ↦ 1000 + n
    users := .singleton ⟨1, "ann@one.test", some 10⟩
    organizations := .singleton ⟨10, 0⟩
    organizationMembers := .singleton ⟨10, 1, "owner"⟩
    projects := .singleton ⟨100, some 10, "ONE", "", none⟩
    projectMembers := .singleton ⟨100, 1, "owner"⟩ }
  details _ := .blank
  createdAt _ := 0

@[reducible] def plainTexts : QueryTexts where
  idText text := .word text
  fieldFilter _ _ := .ok fun _ ↦ true

@[reducible] def countedRows : Serialized where
  bytes
    | .suites rows => rows.length
    | .page page => page.rows.length

def namedSuite (name : String) : SuiteBody := ⟨.value name, .undefined, .undefined, .undefined, .undefined⟩

/-- A list call reads, a suite is created from beginning to end, and what was read is stored.  The
list call that comes after shows no suite. -/
def overtaken : List (Move Call) :=
  [.enter 0 (.listSuites 100)] ++ List.replicate 4 (.advance 0) ++
    [.enter 1 (.createSuite 100 (namedSuite "Web"))] ++ List.replicate 9 (.advance 1) ++
    List.replicate 3 (.advance 0) ++
    [.enter 2 (.listSuites 100)] ++ List.replicate 6 (.advance 2)

theorem not_showsWrites_overtaken :
    ¬ Always (@step asciiCase plainTexts countedRows)
      (fun c ↦ @ShowsWrites asciiCase plainTexts c.shared) (Config.idle (started emptyProject))
      overtaken := by
  decide +kernel

/-- The same calls, each after the other has ended, and the list of test cases. -/
def inOrder : List (Move Call) :=
  [.enter 0 (.listSuites 100)] ++ List.replicate 7 (.advance 0) ++
    [.enter 1 (.createSuite 100 (namedSuite "Web"))] ++ List.replicate 9 (.advance 1) ++
    [.enter 2 (.listSuites 100)] ++ List.replicate 6 (.advance 2) ++
    [.enter 3 (.listTestCases 100 .plain)] ++ List.replicate 7 (.advance 3)

theorem showsWrites_always_inOrder :
    Always (@step asciiCase plainTexts countedRows)
      (fun c ↦ @ShowsWrites asciiCase plainTexts c.shared) (Config.idle (started emptyProject))
      inOrder :=
  @showsWrites_always asciiCase plainTexts countedRows emptyProject inOrder (by decide +kernel)

end Tesbo.ListCaches
