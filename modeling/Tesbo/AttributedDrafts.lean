import Tesbo.PairedDrafts

/-!
# Drafts attributed to the tickets they cite

A task that names several tickets is generated in one call; which ticket a draft belongs to follows
from the labels it cites.  The labels of the three providers and of the knowledge base share one map,
in which a label belongs to the ticket it was given to last.
-/

namespace Tesbo.AttributedDrafts

open Reasoning

structure Ticket where
  provider : TicketProvider
  issueKey : String
deriving DecidableEq, Repr

/-- The tickets a task names, the labels of the knowledge base and the display keys of its pages. -/
structure Task where
  jiraIssueKeys : List String
  linearIssueKeys : List String
  notionPageIds : List String
  knowledgeLabels : Assoc String Ticket
  notionKeys : Assoc String String

/-- An entry of `sourceRefs`: a label, an object with its `id` as text, or anything else. -/
inductive DraftRef where
  | raw (label : String)
  | resolved (id : Option String)
  | other
deriving DecidableEq, Repr

/-- A draft, by its citations and by `jiraIssueKey`, `linearIssueKey` and `notionPageId`. -/
structure Draft where
  sourceRefs : List DraftRef
  key : TicketProvider → Option String

def DraftRef.label : DraftRef → String
  | .raw label => label
  | .resolved id => id.getD ""
  | .other => ""

namespace Task

def keys (task : Task) : TicketProvider → List String
  | .jira => task.jiraIssueKeys
  | .linear => task.linearIssueKeys
  | .notion => task.notionPageIds

def size (task : Task) : ℕ :=
  task.jiraIssueKeys.length + task.linearIssueKeys.length + task.notionPageIds.length

end Task

section Model

variable [Unicode]

/-- `text.trim().toLowerCase()` -/
def folded (text : String) : String := Unicode.toLowerCase (jsTrim text)

/-- The key a page is shown by. -/
def displayKey (task : Task) (pageId : String) : String :=
  ((task.notionKeys.get pageId).filter fun key ↦ key ≠ "").getD (notionPageKey pageId)

/-- The ticket of the task a knowledge item is the mirror of. -/
def ownTicket (task : Task) (ticket : Ticket) : Option Ticket :=
  (((task.keys ticket.provider).find? fun key ↦ folded key = folded ticket.issueKey).filter
    fun key ↦ key ≠ "").map fun key ↦ ⟨ticket.provider, key⟩

/-- The labels in the order in which they are given to tickets. -/
def labelled (task : Task) : List (String × Ticket) :=
  (task.jiraIssueKeys.map fun key ↦ (folded key, ⟨.jira, key⟩)) ++
    (task.linearIssueKeys.map fun key ↦ (folded key, ⟨.linear, key⟩)) ++
    (task.notionPageIds.map fun id ↦ (Unicode.toLowerCase (displayKey task id), ⟨.notion, id⟩)) ++
    task.knowledgeLabels.filterMap fun (label, ticket) ↦
      (ownTicket task ticket).map fun own ↦ (label, own)

def byLabel (task : Task) : Assoc String Ticket := Assoc.ofList (labelled task)

/-- The tickets a draft's citations match. -/
def cited (task : Task) (draft : Draft) : List Ticket :=
  draft.sourceRefs.filterMap fun ref ↦ (byLabel task).get (folded ref.label)

/-- The element of a set of one. -/
def only : List String → Option String
  | [key] => some key
  | _ => none

def citedKey (tickets : List Ticket) (provider : TicketProvider) : Option String :=
  only ((tickets.filter fun t ↦ t.provider = provider).map Ticket.issueKey).dedup

/-- `!draft.jiraIssueKey && !draft.linearIssueKey && !draft.notionPageId` -/
def Draft.unattributed (draft : Draft) : Bool :=
  (draft.key .jira).all (· = "") && (draft.key .linear).all (· = "") &&
    (draft.key .notion).all (· = "")

/-- The drafts with their keys, and how many of them have none. -/
def zyraAttributeDraftsToTickets (task : Task) (drafts : List Draft) : List Draft × ℕ :=
  if task.size ≤ 1 then (drafts, 0)
  else
    let attributed := drafts.map fun draft ↦ { draft with key := citedKey (cited task draft) }
    (attributed, attributed.countP Draft.unattributed)

/-! ## What a citation means -/

/-- A label, in lower case and trimmed, is one of the ticket's: its key or its page's display key, or
that of a knowledge item which mirrors it. -/
def Names (task : Task) (label : String) (t : Ticket) : Prop :=
  t.issueKey ∈ task.keys t.provider ∧
    ((t.provider ≠ .notion ∧ label = folded t.issueKey) ∨
      (t.provider = .notion ∧ (label = Unicode.toLowerCase (displayKey task t.issueKey) ∨
        label = folded (displayKey task t.issueKey))) ∨
      ∃ mirrored, (label, mirrored) ∈ task.knowledgeLabels ∧ mirrored.provider = t.provider ∧
        folded mirrored.issueKey = folded t.issueKey)

/-- The draft cites a label of the ticket. -/
def Cites (task : Task) (draft : Draft) (t : Ticket) : Prop :=
  ∃ ref ∈ draft.sourceRefs, Names task (folded ref.label) t

/-- The ticket is the last one the label was given to. -/
def Keeps (task : Task) (label : String) (t : Ticket) : Prop :=
  ∃ earlier later, labelled task = earlier ++ (label, t) :: later ∧ ∀ e ∈ later, e.1 ≠ label

/-- The draft cites a label the ticket keeps. -/
def CitesKept (task : Task) (draft : Draft) (t : Ticket) : Prop :=
  ∃ ref ∈ draft.sourceRefs, Keeps task (folded ref.label) t

/-- The one element with a property. -/
def Only {α : Type} (P : α → Prop) (a : α) : Prop := P a ∧ ∀ b, P b → b = a

/-- The draft has no key at all; an empty text is no key. -/
def WithoutKey (draft : Draft) : Prop :=
  ∀ provider ∈ TicketProvider.all, draft.key provider = none ∨ draft.key provider = some ""

instance (draft : Draft) : Decidable (WithoutKey draft) := by
  unfold WithoutKey
  infer_instance

/-- A draft has a provider's key if its citations name exactly one ticket of the provider, that
ticket's; and the drafts without a key are counted. -/
def Attributes (task : Task) (drafts : List Draft) : Prop :=
  let (attributed, unattributed) := zyraAttributeDraftsToTickets task drafts
  List.Forall₂ (fun draft result ↦ ∀ provider key, result.key provider = some key ↔
    Only (fun key ↦ Cites task draft ⟨provider, key⟩) key) drafts attributed ∧
  unattributed = attributed.countP fun draft ↦ WithoutKey draft

/-- Of the tickets of the provider that the draft names, each keeps a label the draft cites, or two
keep one, or none does and they are not one ticket. -/
def LabelsKept (task : Task) (draft : Draft) (provider : TicketProvider) : Prop :=
  (∀ key, Cites task draft ⟨provider, key⟩ → CitesKept task draft ⟨provider, key⟩) ∨
    (∃ key key', key ≠ key' ∧ CitesKept task draft ⟨provider, key⟩ ∧
      CitesKept task draft ⟨provider, key'⟩) ∨
    ((∀ key, ¬ CitesKept task draft ⟨provider, key⟩) ∧
      ¬ ∃ key, Only (fun key ↦ Cites task draft ⟨provider, key⟩) key)

end Model

theorem unattributed_iff (draft : Draft) : draft.unattributed = true ↔ WithoutKey draft := by
  have hall : ∀ key : Option String, key.all (· = "") = true ↔ key = none ∨ key = some "" := by
    intro key
    cases key <;> simp
  simp [Draft.unattributed, WithoutKey, TicketProvider.all, hall, and_assoc]

/-! ## Sets of one element -/

theorem only_dedup_eq_some {keys : List String} {key : String} :
    only keys.dedup = some key ↔ Only (· ∈ keys) key := by
  have hsingle : only keys.dedup = some key ↔ keys.dedup = [key] := by
    unfold only
    split
    · rename_i own hown
      rw [hown, Option.some_inj, List.singleton_inj]
    · rename_i hother
      simpa using hother key
  rw [hsingle]
  constructor
  · intro h
    have hmem : ∀ k, k ∈ keys ↔ k = key := fun k ↦ by
      rw [← List.mem_dedup, h, List.mem_singleton]
    exact ⟨(hmem key).mpr rfl, fun k hk ↦ (hmem k).mp hk⟩
  · rintro ⟨hkey, hall⟩
    apply List.perm_singleton.mp
    rw [List.perm_ext_iff_of_nodup (List.nodup_dedup keys) (List.nodup_singleton key)]
    intro k
    rw [List.mem_dedup, List.mem_singleton]
    exact ⟨hall k, fun hk ↦ hk ▸ hkey⟩

/-- When the one element of a set is also that of a larger one. -/
theorem only_iff_only {α : Type} {N K : α → Prop} (hsub : ∀ a, K a → N a) :
    (∀ a, Only K a ↔ Only N a) ↔
      (∀ a, N a → K a) ∨ (∃ a b, a ≠ b ∧ K a ∧ K b) ∨ ((∀ a, ¬ K a) ∧ ¬ ∃ a, Only N a) := by
  constructor
  · intro h
    by_cases htwo : ∃ a b, a ≠ b ∧ K a ∧ K b
    · exact .inr (.inl htwo)
    by_cases hsome : ∃ a, K a
    · -- one element is left in the smaller set, so it is all there is in the larger one
      obtain ⟨a, ha⟩ := hsome
      have honly : Only K a :=
        ⟨ha, fun b hb ↦ by_contra fun hne ↦ htwo ⟨b, a, hne, hb, ha⟩⟩
      exact .inl fun b hb ↦ ((h a).mp honly).2 b hb ▸ ha
    · refine .inr (.inr ⟨fun a ha ↦ hsome ⟨a, ha⟩, ?_⟩)
      rintro ⟨a, ha⟩
      exact hsome ⟨a, ((h a).mpr ha).1⟩
  · rintro (hall | ⟨b, c, hne, hb, hc⟩ | ⟨hnone, hnot⟩) a
    · have heq : ∀ b, K b ↔ N b := fun b ↦ ⟨hsub b, hall b⟩
      simp only [Only, heq]
    · constructor
      · exact fun h ↦ absurd ((h.2 b hb).trans (h.2 c hc).symm) hne
      · exact fun h ↦ absurd ((h.2 b (hsub b hb)).trans (h.2 c (hsub c hc)).symm) hne
    · exact ⟨fun h ↦ absurd h.1 (hnone a), fun h ↦ absurd ⟨a, h⟩ hnot⟩

/-! ## The map of labels -/

section Attribution

variable [Unicode]

theorem get_byLabel {task : Task} {label : String} {t : Ticket} :
    (byLabel task).get label = some t ↔ Keeps task label t := Assoc.get_ofList

/-- A label is only given to a ticket it names. -/
theorem names_of_labelled {task : Task} {label : String} {t : Ticket}
    (h : (label, t) ∈ labelled task) : Names task label t := by
  unfold labelled at h
  simp only [List.mem_append, List.mem_map, List.mem_filterMap, Option.map_eq_some_iff,
    Prod.mk.injEq] at h
  rcases h with ((⟨key, hkey, rfl, rfl⟩ | ⟨key, hkey, rfl, rfl⟩) | ⟨id, hid, rfl, rfl⟩) |
    ⟨e, he, own, hown, rfl, rfl⟩
  · exact ⟨hkey, .inl ⟨nofun, rfl⟩⟩
  · exact ⟨hkey, .inl ⟨nofun, rfl⟩⟩
  · exact ⟨hid, .inr (.inl ⟨rfl, .inl rfl⟩)⟩
  · obtain ⟨key, hfind, rfl⟩ := Option.map_eq_some_iff.mp hown
    have hfind := (Option.filter_eq_some_iff.mp hfind).1
    have hsame := List.find?_some hfind
    exact ⟨List.mem_of_find?_eq_some hfind,
      .inr (.inr ⟨e.2, he, rfl, (of_decide_eq_true hsame).symm⟩)⟩

theorem names_of_keeps {task : Task} {label : String} {t : Ticket} (h : Keeps task label t) :
    Names task label t := by
  obtain ⟨earlier, later, hsplit, _⟩ := h
  exact names_of_labelled (hsplit ▸ List.mem_append_right _ List.mem_cons_self)

/-! ## The keys of a draft -/

theorem mem_cited {task : Task} {draft : Draft} {t : Ticket} :
    t ∈ cited task draft ↔ CitesKept task draft t := by
  simp only [cited, List.mem_filterMap, get_byLabel, CitesKept]

theorem citedKey_eq_some {task : Task} {draft : Draft} {provider : TicketProvider} {key : String} :
    citedKey (cited task draft) provider = some key ↔
      Only (fun key ↦ CitesKept task draft ⟨provider, key⟩) key := by
  have hmem : ∀ key, key ∈ ((cited task draft).filter fun t ↦ t.provider = provider).map
      Ticket.issueKey ↔ CitesKept task draft ⟨provider, key⟩ := by
    intro key
    rw [← mem_cited, List.mem_map]
    constructor
    · rintro ⟨t, ht, rfl⟩
      obtain ⟨ht, hprovider⟩ := List.mem_filter.mp ht
      rw [← of_decide_eq_true hprovider]
      exact ht
    · exact fun h ↦ ⟨_, List.mem_filter.mpr ⟨h, decide_eq_true rfl⟩, rfl⟩
  rw [citedKey, only_dedup_eq_some]
  simp only [Only, hmem]

theorem keys_right_iff {task : Task} {draft : Draft} {provider : TicketProvider} :
    (∀ key, citedKey (cited task draft) provider = some key ↔
      Only (fun key ↦ Cites task draft ⟨provider, key⟩) key) ↔ LabelsKept task draft provider := by
  simp only [citedKey_eq_some]
  apply only_iff_only
  rintro key ⟨ref, href, hkeeps⟩
  exact ⟨ref, href, names_of_keeps hkeeps⟩

/-- In a task with several tickets each draft has the keys of the tickets it cites if and only if its
citations have not lost a ticket to another one of the same label, as far as that matters. -/
theorem attributes_iff (task : Task) (drafts : List Draft) (h : 1 < task.size) :
    Attributes task drafts ↔
      ∀ draft ∈ drafts, ∀ provider, LabelsKept task draft provider := by
  have hcount : ∀ results : List Draft,
      results.countP Draft.unattributed = results.countP fun draft ↦ WithoutKey draft := by
    intro results
    apply List.countP_congr
    simp only [unattributed_iff, decide_eq_true_eq, implies_true]
  simp only [Attributes, zyraAttributeDraftsToTickets, if_neg (Nat.not_le.mpr h), hcount, and_true,
    List.forall₂_map_right_iff, List.forall₂_same, keys_right_iff]

end Attribution

/-- Two tickets of one project, and a draft that cites the first. -/
def twoTickets : Task := ⟨["ABC-1", "ABC-2"], [], [], [], []⟩

def citesFirst : Draft := ⟨[.raw " abc-1"], fun _ ↦ none⟩

theorem attributes_twoTickets : @Attributes asciiCase twoTickets [citesFirst] := by
  let := asciiCase
  apply (attributes_iff twoTickets [citesFirst] (by decide)).mpr
  intro draft hdraft provider
  cases List.mem_singleton.mp hdraft
  refine .inl fun key ⟨ref, href, hkey, hnames⟩ ↦ ⟨ref, href, ?_⟩
  cases List.mem_singleton.mp href
  cases provider with
  | linear => exact absurd hkey List.not_mem_nil
  | notion => exact absurd hkey List.not_mem_nil
  | jira =>
      rcases List.mem_pair.mp hkey with rfl | rfl
      · exact ⟨[], [("abc-2", ⟨.jira, "ABC-2"⟩)], by decide, by decide⟩
      · rcases hnames with ⟨_, hlabel⟩ | ⟨hprovider, _⟩ | ⟨_, hmirrored, _⟩
        · exact absurd hlabel (by decide)
        · cases hprovider
        · exact absurd hmirrored List.not_mem_nil

/-- One key on two providers, and a draft that cites it. -/
def sameKey : Task := ⟨["ABC-1"], ["ABC-1"], [], [], []⟩

/-- The draft names one Jira ticket and is given no Jira key. -/
theorem not_attributes_sameKey :
    1 < sameKey.size ∧ ¬ @Attributes asciiCase sameKey [citesFirst] := by
  let := asciiCase
  refine ⟨by decide, fun h ↦ ?_⟩
  cases h.1 with
  | cons hdraft _ =>
      have honly : Only (fun key ↦ Cites sameKey citesFirst ⟨.jira, key⟩) "ABC-1" := by
        refine ⟨⟨.raw " abc-1", by decide, by decide, .inl ⟨nofun, by decide⟩⟩, ?_⟩
        rintro key ⟨_, _, hkey, _⟩
        exact List.mem_singleton.mp hkey
      have hgiven := (hdraft .jira "ABC-1").mpr honly
      exact absurd hgiven (by decide)

end Tesbo.AttributedDrafts
