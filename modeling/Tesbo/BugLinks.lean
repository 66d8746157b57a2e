import Tesbo.Bugs
import Tesbo.Requests
import Tesbo.Reasoning.Runs

/-!
# The links of a bug stay in its project

The links of a body are checked against the project of the bug before they replace what is there;
the ids of `addBugLink` are not.  Two live links of one bug never name the same test case and run,
whichever path wrote them.
-/

namespace Tesbo

open Reasoning Service

/-! ## Calls -/

inductive BugCall where
  | createBug (projectId : Uuid) (userId : Option Uuid) (body : BugBody)
  | updateBug (userId : Option Uuid) (bugId : IdText) (body : BugBody)
  | addBugLink (userId : Option Uuid) (bugId : IdText) (body : LinkBody)
  | removeBugLink (userId : Option Uuid) (bugId linkId : IdText)

/-- A call and when it is made. -/
structure BugRequest where
  now : Time
  call : BugCall

section Machine

variable [Unicode] [UtcCalendar]

def BugCall.run : BugCall → Handler BugView
  | .createBug projectId userId body => Tesbo.createBug projectId userId body
  | .updateBug userId bugId body => Tesbo.updateBug userId bugId body
  | .addBugLink userId bugId body => Tesbo.addBugLink userId bugId body
  | .removeBugLink userId bugId linkId => Tesbo.removeBugLink userId bugId linkId

def bugStep (db : Db) (r : BugRequest) : Db := after r.call.run { db with now := r.now }

end Machine

/-! ## The property and its condition -/

/-- What the link names is there, and is of the project. -/
def OfProject (db : Db) (projectId : Uuid) (t : LinkTarget) : Prop :=
  (∀ id ∈ t.testcaseId, ∃ row ∈ db.testcases.find id, row.projectId = projectId) ∧
    (∀ id ∈ t.cycleId, ∃ row ∈ db.cycles.find id, row.projectId = projectId) ∧
    ∀ id ∈ t.executionId, ∃ row ∈ db.executions.find id,
      ∃ cycle ∈ row.cycle db, cycle.projectId = projectId

instance (db : Db) (projectId : Uuid) (t : LinkTarget) : Decidable (OfProject db projectId t) :=
  inferInstanceAs (Decidable (_ ∧ _ ∧ _))

/-- Every live link is one of a bug, and to the project of that bug. -/
def LinksInProject (db : Db) : Prop :=
  ∀ l ∈ db.bugLinks, l.live = true →
    ∃ b ∈ db.bugs, b.id = l.bugId ∧ OfProject db b.projectId l.target

instance (db : Db) : Decidable (LinksInProject db) :=
  inferInstanceAs (Decidable (∀ l ∈ db.bugLinks, l.live = true → ∃ b ∈ db.bugs, _))

/-- The live links of a bug are told apart by their keys, `NULL` and `NULL` being equal. -/
def OneLinkEach (db : Db) : Prop :=
  ∀ l ∈ db.bugLinks, ∀ l' ∈ db.bugLinks, l.live = true → l'.live = true → l.bugId = l'.bugId →
    l.target.key = l'.target.key → l = l'

/-- What `getBug` shows of the links is from the project of the bug. -/
def ShownInProject (db : Db) : Prop :=
  ∀ bugId, onAnswer (getBug bugId) (fun view _ ↦ ∀ l ∈ view.links,
    (∀ title ∈ l.testcaseTitle, ∃ t ∈ db.testcases,
      t.projectId = view.bug.projectId ∧ t.text .title = some title) ∧
    ∀ name ∈ l.cycleName, ∃ c ∈ db.cycles,
      c.projectId = view.bug.projectId ∧ c.shownName = name) db

structure LinksSound (db : Db) : Prop where
  inProject : LinksInProject db
  oneEach : OneLinkEach db
  shown : ShownInProject db

/-- The ids of the body, as far as they can be read. -/
def LinkBody.target (body : LinkBody) : Option LinkTarget := do
  let testcaseId ← (readUuid? body.testcaseId.truthy).toOption
  let cycleId ← (readUuid? body.cycleId.truthy).toOption
  let executionId ← (readUuid? body.executionId.truthy).toOption
  some ⟨testcaseId, cycleId, executionId⟩

/-- Nothing the link names is outside the project; an id of nothing is refused by its foreign
key. -/
def NotElsewhere (db : Db) (projectId : Uuid) (t : LinkTarget) : Prop :=
  (∀ id ∈ t.testcaseId, ∀ row ∈ db.testcases.find id, row.projectId = projectId) ∧
    (∀ id ∈ t.cycleId, ∀ row ∈ db.cycles.find id, row.projectId = projectId) ∧
    ∀ id ∈ t.executionId, ∀ row ∈ db.executions.find id,
      ∃ cycle ∈ row.cycle db, cycle.projectId = projectId

instance (db : Db) (projectId : Uuid) (t : LinkTarget) : Decidable (NotElsewhere db projectId t) :=
  inferInstanceAs (Decidable (_ ∧ _ ∧ _))

/-- A link a member of the project adds to a live bug names nothing outside the project. -/
def BugCall.AddsInProject (db : Db) : BugCall → Prop
  | .addBugLink userId bugId body =>
      ∀ id ∈ bugId.uuid, ∀ b ∈ db.bugs.find id, b.live = true →
        (∃ uid ∈ userId, IsMember db b.projectId uid) →
          ∀ t ∈ body.target, NotElsewhere db b.projectId t
  | .createBug _ _ _ | .updateBug _ _ _ | .removeBugLink _ _ _ => True

instance (db : Db) : ∀ call : BugCall, Decidable (call.AddsInProject db)
  | .addBugLink userId bugId _ =>
      inferInstanceAs (Decidable (∀ id ∈ bugId.uuid, ∀ b ∈ db.bugs.find id, b.live = true →
        (∃ uid ∈ userId, IsMember db b.projectId uid) → _))
  | .createBug _ _ _ | .updateBug _ _ _ | .removeBugLink _ _ _ => instDecidableTrue

/-! ## The tables the links refer to -/

section Tables

variable {db db' : Db} {projectId : Uuid} {t : LinkTarget}

/-- Cases and runs are as before; results are where they were, bugs in the project they were in. -/
structure Kept (db db' : Db) : Prop where
  testcases : db'.testcases = db.testcases
  cycles : db'.cycles = db.cycles
  cycleItems : db'.cycleItems = db.cycleItems
  executions : ∀ e ∈ db.executions, ∃ e' ∈ db'.executions,
    e'.id = e.id ∧ e'.cycleItemId = e.cycleItemId
  bugs : ∀ b ∈ db.bugs, ∃ b' ∈ db'.bugs, b'.id = b.id ∧ b'.projectId = b.projectId

theorem Kept.refl (db : Db) : Kept db db :=
  ⟨rfl, rfl, rfl, fun e he ↦ ⟨e, he, rfl, rfl⟩, fun b hb ↦ ⟨b, hb, rfl, rfl⟩⟩

theorem OfProject.kept (h : OfProject db projectId t) (hk : Kept db db') :
    OfProject db' projectId t := by
  obtain ⟨htestcase, hcycle, hexecution⟩ := h
  refine ⟨?_, ?_, fun id hid ↦ ?_⟩
  · rw [hk.testcases]
    exact htestcase
  · rw [hk.cycles]
    exact hcycle
  · obtain ⟨e, hfind, cycle, hc, hproject⟩ := hexecution id hid
    obtain ⟨hmem, hkey⟩ := Table.find_eq_some.mp hfind
    obtain ⟨e', hmem', hid', hitem⟩ := hk.executions e hmem
    have hcycle' : e'.cycle db' = e.cycle db := by
      unfold Execution.cycle
      rw [hk.cycles, hk.cycleItems, hitem]
    refine ⟨e', Table.find_eq_some.mpr ⟨hmem', hid'.trans hkey⟩, cycle, ?_, hproject⟩
    rw [hcycle']
    exact hc

theorem OfProject.notElsewhere (h : OfProject db projectId t) : NotElsewhere db projectId t := by
  obtain ⟨htestcase, hcycle, hexecution⟩ := h
  refine ⟨fun id hid row hrow ↦ ?_, fun id hid row hrow ↦ ?_, fun id hid row hrow ↦ ?_⟩
  · obtain ⟨row', hrow', hproject⟩ := htestcase id hid
    obtain rfl := Option.some.inj (hrow.symm.trans hrow')
    exact hproject
  · obtain ⟨row', hrow', hproject⟩ := hcycle id hid
    obtain rfl := Option.some.inj (hrow.symm.trans hrow')
    exact hproject
  · obtain ⟨row', hrow', hproject⟩ := hexecution id hid
    obtain rfl := Option.some.inj (hrow.symm.trans hrow')
    exact hproject

/-- What the foreign keys let through is of the project when nothing of it is elsewhere. -/
theorem NotElsewhere.ofProject {bugId : Uuid} (h : NotElsewhere db projectId t)
    (hrefs : linkReferences bugId t db = .ok ()) : OfProject db projectId t := by
  unfold linkReferences at hrefs
  obtain ⟨_, -, hrefs⟩ := except_bind_eq_ok.mp hrefs
  obtain ⟨_, htestcase, hrefs⟩ := except_bind_eq_ok.mp hrefs
  obtain ⟨_, hcycle, hexecution⟩ := except_bind_eq_ok.mp hrefs
  refine ⟨fun id hid ↦ ?_, fun id hid ↦ ?_, fun id hid ↦ ?_⟩
  · obtain ⟨row, hrow⟩ := references?_eq_ok htestcase id hid
    exact ⟨row, hrow, h.1 id hid row hrow⟩
  · obtain ⟨row, hrow⟩ := references?_eq_ok hcycle id hid
    exact ⟨row, hrow, h.2.1 id hid row hrow⟩
  · obtain ⟨row, hrow⟩ := references?_eq_ok hexecution id hid
    exact ⟨row, hrow, h.2.2 id hid row hrow⟩

end Tables

/-! ## The statements on links -/

section Statements

variable {db db' : Db}

/-- The two laws of the table. -/
def LinksOk (db : Db) : Prop := LinksInProject db ∧ OneLinkEach db

theorem LinksOk.kept (h : LinksOk db) (hk : Kept db db') (hlinks : db'.bugLinks = db.bugLinks) :
    LinksOk db' := by
  constructor
  · intro l hl hlive
    rw [hlinks] at hl
    obtain ⟨b, hb, hid, hproject⟩ := h.1 l hl hlive
    obtain ⟨b', hb', hid', hproject'⟩ := hk.bugs b hb
    refine ⟨b', hb', hid'.trans hid, ?_⟩
    rw [hproject']
    exact hproject.kept hk
  · unfold OneLinkEach
    rw [hlinks]
    exact h.2

/-- Links changed in place are still told apart when each live one after the change was live before,
of the same bug and key. -/
theorem OneLinkEach.updateWhere (h : OneLinkEach db) (p : BugLink → Bool) (f : BugLink → BugLink)
    (hid : ∀ l, (f l).id = l.id)
    (hf : ∀ l ∈ db.bugLinks, p l = true → (f l).live = true →
      l.live = true ∧ (f l).bugId = l.bugId ∧ (f l).target.key = l.target.key) :
    OneLinkEach { db with bugLinks := db.bugLinks.updateWhere p f hid } := by
  have hbefore : ∀ l ∈ db.bugLinks.updateWhere p f hid, l.live = true → ∃ l₀ ∈ db.bugLinks,
      l₀.live = true ∧ l.bugId = l₀.bugId ∧ l.target.key = l₀.target.key ∧ l.id = l₀.id := by
    intro l hl hlive
    rcases Table.mem_updateWhere_cases.mp hl with ⟨hl, -⟩ | ⟨l₀, hl₀, hp, rfl⟩
    · exact ⟨l, hl, hlive, rfl, rfl, rfl⟩
    · obtain ⟨hlive₀, hbug, hkey⟩ := hf l₀ hl₀ hp hlive
      exact ⟨l₀, hl₀, hlive₀, hbug, hkey, hid l₀⟩
  intro l hl l' hl' hlive hlive' hbug hkey
  obtain ⟨l₀, hl₀, hlive₀, hbug₀, hkey₀, hid₀⟩ := hbefore l hl hlive
  obtain ⟨l₀', hl₀', hlive₀', hbug₀', hkey₀', hid₀'⟩ := hbefore l' hl' hlive'
  have hsame : l₀ = l₀' := h l₀ hl₀ l₀' hl₀' hlive₀ hlive₀' (hbug₀ ▸ hbug₀' ▸ hbug)
    (hkey₀ ▸ hkey₀' ▸ hkey)
  exact Table.eq_of_key hl hl' (hid₀.trans (hsame ▸ hid₀'.symm))

/-- Deleting links keeps both laws. -/
theorem LinksOk.delete (h : LinksOk db) (p : BugLink → Bool) (time : Time) (uid : Option Uuid) :
    LinksOk { db with
      bugLinks := db.bugLinks.updateWhere p
        (fun l ↦ { l with deletedAt := some time, deletedBy := uid }) fun _ ↦ rfl } := by
  constructor
  · intro l hl hlive
    change l ∈ db.bugLinks.updateWhere p
      (fun l ↦ { l with deletedAt := some time, deletedBy := uid }) fun _ ↦ rfl at hl
    rcases Table.mem_updateWhere_cases.mp hl with ⟨hl, -⟩ | ⟨l₀, -, -, rfl⟩
    · exact h.1 l hl hlive
    · cases hlive
  · exact h.2.updateWhere p (fun l ↦ { l with deletedAt := some time, deletedBy := uid })
      (fun _ ↦ rfl) fun l _ _ hlive ↦ by cases hlive

/-- Another result for a link keeps both laws where that result is of the project of the bug. -/
theorem LinksOk.setExecution {id : Uuid} {executionId : Option Uuid} (h : LinksOk db)
    (hproject : ∀ l ∈ db.bugLinks, l.id = id → ∀ b ∈ db.bugs, b.id = l.bugId →
      ∀ e ∈ executionId, ∀ row ∈ db.executions.find e,
        ∃ cycle ∈ row.cycle db, cycle.projectId = b.projectId)
    (hok : setLinkExecution id executionId db = .ok db') :
    LinksOk db' ∧ OnlyLinks db db' ∧ ∀ l ∈ db'.bugLinks, ∃ l₀ ∈ db.bugLinks, l₀.id = l.id ∧
      l₀.live = l.live ∧ l₀.bugId = l.bugId ∧ l₀.target.key = l.target.key := by
  unfold setLinkExecution at hok
  obtain ⟨_, hrefs, hok⟩ := except_bind_eq_ok.mp hok
  obtain rfl := Except.ok.inj hok
  refine ⟨⟨fun l hl hlive ↦ ?_, ?_⟩, ⟨_, rfl⟩, fun l hl ↦ ?_⟩
  · change l ∈ db.bugLinks.updateWhere (fun l ↦ l.id = id)
      (fun l ↦ { l with executionId := executionId }) fun _ ↦ rfl at hl
    rcases Table.mem_updateWhere_cases.mp hl with ⟨hl, -⟩ | ⟨l₀, hl₀, hp, rfl⟩
    · exact h.1 l hl hlive
    · obtain ⟨b, hb, hid, htestcase, hcycle, -⟩ := h.1 l₀ hl₀ hlive
      refine ⟨b, hb, hid, htestcase, hcycle, fun e he ↦ ?_⟩
      obtain ⟨row, hrow⟩ := references?_eq_ok hrefs e he
      exact ⟨row, hrow, hproject l₀ hl₀ (of_decide_eq_true hp) b hb hid e he row hrow⟩
  · exact h.2.updateWhere (fun l ↦ l.id = id) (fun l ↦ { l with executionId := executionId })
      (fun _ ↦ rfl) fun l _ _ hlive ↦ ⟨hlive, rfl, rfl⟩
  · change l ∈ db.bugLinks.updateWhere (fun l ↦ l.id = id)
      (fun l ↦ { l with executionId := executionId }) fun _ ↦ rfl at hl
    rcases Table.mem_updateWhere_cases.mp hl with ⟨hl, -⟩ | ⟨l₀, hl₀, -, rfl⟩
    · exact ⟨l, hl, rfl, rfl, rfl, rfl⟩
    · exact ⟨l₀, hl₀, rfl, rfl, rfl, rfl⟩

/-- A new link keeps both laws where it is to the project of the bug and no live link of the bug has
its key. -/
theorem LinksOk.insert {bugId id : Uuid} {t : LinkTarget} (h : LinksOk db)
    (hproject : ∀ b ∈ db.bugs, b.id = bugId → NotElsewhere db b.projectId t)
    (hnew : ∀ l ∈ db.bugLinks, l.live = true → l.bugId = bugId → l.target.key ≠ t.key)
    (hok : insertBugLink bugId t id db = .ok db') :
    LinksOk db' ∧ OnlyLinks db db' ∧ ∀ l ∈ db'.bugLinks, l ∈ db.bugLinks ∨
      l.bugId = bugId ∧ l.target.key = t.key := by
  unfold insertBugLink at hok
  split at hok
  · obtain rfl := Except.ok.inj hok
    exact ⟨h, ⟨db.bugLinks, rfl⟩, fun l hl ↦ .inl hl⟩
  · obtain ⟨_, hrefs, hok⟩ := except_bind_eq_ok.mp hok
    split at hok
    · cases hok
    · rename_i bugLinks hinsert
      obtain rfl := Except.ok.inj hok
      have hmem : ∀ l, l ∈ bugLinks ↔ l ∈ db.bugLinks ∨ _ := fun l ↦ Table.mem_insert hinsert
      refine ⟨⟨fun l hl hlive ↦ ?_, fun l hl l' hl' hlive hlive' hbug hkey ↦ ?_⟩,
        ⟨bugLinks, rfl⟩, fun l hl ↦ ?_⟩
      · rcases (hmem l).mp hl with hl | rfl
        · exact h.1 l hl hlive
        · have hbug : references (db.bugs.find bugId) "bug_links_bug_id_fkey" = .ok () := by
            unfold linkReferences at hrefs
            obtain ⟨_, hbug, -⟩ := except_bind_eq_ok.mp hrefs
            exact hbug
          obtain ⟨b, hb⟩ := references_eq_ok hbug
          obtain ⟨hb, hid⟩ := Table.find_eq_some.mp hb
          exact ⟨b, hb, hid, (hproject b hb hid).ofProject hrefs⟩
      · rcases (hmem l).mp hl with hl | rfl
        · rcases (hmem l').mp hl' with hl' | rfl
          · exact h.2 l hl l' hl' hlive hlive' hbug hkey
          · exact absurd hkey (hnew l hl hlive hbug)
        · rcases (hmem l').mp hl' with hl' | rfl
          · exact absurd hkey.symm (hnew l' hl' hlive' hbug.symm)
          · rfl
      · rcases (hmem l).mp hl with hl | rfl
        · exact .inl hl
        · exact .inr ⟨rfl, rfl⟩

end Statements

/-! ## The links of one bug -/

section OneBug

variable {db db' : Db} {bugId projectId : Uuid}

theorem keepId_eq_some {valid : Uuid → Bool} {text : Arg IdText} {id : Uuid}
    (h : keepId valid text = some id) : valid id = true := by
  unfold keepId at h
  split at h
  · split at h
    · rename_i hvalid
      exact Option.some.inj h ▸ hvalid
    · cases h
  · cases h

theorem ofProject_of_mem_sanitizeBugLinks {links : List LinkBody} {t : LinkTarget}
    (h : t ∈ sanitizeBugLinks projectId links db) : OfProject db projectId t := by
  unfold sanitizeBugLinks at h
  obtain ⟨l, -, rfl⟩ := List.mem_map.mp (List.mem_filter.mp h).1
  refine ⟨fun id hid ↦ ?_, fun id hid ↦ ?_, fun id hid ↦ ?_⟩
  · have hvalid := keepId_eq_some hid
    obtain ⟨row, hrow, hproject⟩ := (Option.any_eq_true _ _).mp hvalid
    rw [Bool.and_eq_true, decide_eq_true_eq] at hproject
    exact ⟨row, hrow, hproject.1⟩
  · have hvalid := keepId_eq_some hid
    obtain ⟨row, hrow, hproject⟩ := (Option.any_eq_true _ _).mp hvalid
    rw [Bool.and_eq_true, decide_eq_true_eq] at hproject
    exact ⟨row, hrow, hproject.1⟩
  · have hvalid := keepId_eq_some hid
    obtain ⟨row, hrow, hproject⟩ := (Option.any_eq_true _ _).mp hvalid
    rw [Bool.and_eq_true] at hproject
    obtain ⟨cycle, hcycle, hsame⟩ := (Option.any_eq_true _ _).mp hproject.2
    exact ⟨row, hrow, cycle, hcycle, of_decide_eq_true hsame⟩

/-- What the loop keeps: the links still to be placed are of the project and of different keys, and
`existing` has every live link of the bug with one of these keys, and rows of the bug only. -/
structure Placing (bugId projectId : Uuid) (existing : Assoc (Option Uuid × Option Uuid) BugLink)
    (rest : List ((Option Uuid × Option Uuid) × LinkTarget)) (db : Db) : Prop where
  ok : LinksOk db
  bug : ∀ b ∈ db.bugs, b.id = bugId → b.projectId = projectId
  targets : ∀ e ∈ rest, e.1 = e.2.key ∧ OfProject db projectId e.2
  nodup : (rest.map Prod.fst).Nodup
  known : ∀ l ∈ db.bugLinks, l.live = true → l.bugId = bugId → l.target.key ∈ rest.map Prod.fst →
    (existing.get l.target.key).isSome = true
  rows : ∀ key l₀, existing.get key = some l₀ → ∀ l ∈ db.bugLinks, l.id = l₀.id → l.bugId = bugId

variable {existing : Assoc (Option Uuid × Option Uuid) BugLink}
  {rest : List ((Option Uuid × Option Uuid) × LinkTarget)}

theorem placeLink_spec {e : (Option Uuid × Option Uuid) × LinkTarget}
    (h : Placing bugId projectId existing (e :: rest) db) :
    wp (placeLink bugId existing e.2) (fun _ db' ↦ Placing bugId projectId existing rest db')
      (fun _ _ ↦ True) db := by
  obtain ⟨hkey, hproject⟩ := h.targets e List.mem_cons_self
  have hnodup := List.nodup_cons.mp h.nodup
  have hsub : ∀ key, key ∈ rest.map Prod.fst → key ∈ (e :: rest).map Prod.fst :=
    fun key hin ↦ List.mem_cons_of_mem _ hin
  have htargets : ∀ e' ∈ rest, e'.1 = e'.2.key ∧ OfProject db projectId e'.2 :=
    fun e' he' ↦ h.targets e' (List.mem_cons_of_mem e he')
  have hstay : Placing bugId projectId existing rest db :=
    ⟨h.ok, h.bug, htargets, hnodup.2, fun l hl hlive hbug hin ↦
      h.known l hl hlive hbug (hsub _ hin), h.rows⟩
  unfold placeLink
  cases hget : existing.get e.2.key with
  | some l₀ =>
      dsimp only
      split
      · rw [wp_exec]
        refine ⟨fun db' hok ↦ ?_, fun _ _ ↦ trivial⟩
        have hsame : ∀ l ∈ db.bugLinks, l.id = l₀.id → ∀ b ∈ db.bugs, b.id = l.bugId →
            ∀ x ∈ e.2.executionId, ∀ row ∈ db.executions.find x,
              ∃ cycle ∈ row.cycle db, cycle.projectId = b.projectId := by
          intro l hl hid b hb hbug x hx row hrow
          rw [h.bug b hb (hbug.trans (h.rows _ l₀ hget l hl hid))]
          exact hproject.notElsewhere.2.2 x hx row hrow
        obtain ⟨hlinks, ⟨bugLinks, rfl⟩, hbefore⟩ := h.ok.setExecution hsame hok
        refine ⟨hlinks, h.bug, htargets, hnodup.2, ?_, ?_⟩
        · intro l hl hlive hbug hin
          obtain ⟨l', hl', -, hlive', hbug', hkey'⟩ := hbefore l hl
          rw [← hkey'] at hin ⊢
          exact h.known l' hl' (hlive'.trans hlive) (hbug'.trans hbug) (hsub _ hin)
        · intro key l₁ hget₁ l hl hid
          obtain ⟨l', hl', hid', -, hbug', -⟩ := hbefore l hl
          exact hbug'.symm.trans (h.rows key l₁ hget₁ l' hl' (hid'.trans hid))
      · exact (wp_pure _).mpr hstay
  | none =>
      simp only [wp_bind, wp_genUuid, wp_exec]
      refine ⟨fun db' hok ↦ ?_, fun _ _ ↦ trivial⟩
      -- a live link of the bug with this key would be in `existing`
      have hnew : ∀ l ∈ db.bugLinks, l.live = true → l.bugId = bugId →
          l.target.key ≠ e.2.key := by
        intro l hl hlive hbug hsame
        have hin := h.known l hl hlive hbug (by rw [hsame, ← hkey]; exact List.mem_cons_self)
        rw [hsame, hget] at hin
        cases hin
      have hok₁ : LinksOk { db with uuids := fun n ↦ db.uuids (n + 1) } := h.ok
      obtain ⟨hlinks, ⟨bugLinks, rfl⟩, hafter⟩ := hok₁.insert
        (fun b hb hid ↦ h.bug b hb hid ▸ hproject.notElsewhere) hnew hok
      refine ⟨hlinks, h.bug, htargets, hnodup.2, ?_, ?_⟩
      · intro l hl hlive hbug hin
        rcases hafter l hl with hl | ⟨-, hsame⟩
        · exact h.known l hl hlive hbug (hsub _ hin)
        · rw [hsame, ← hkey] at hin
          exact absurd hin hnodup.1
      · intro key l₁ hget₁ l hl hid
        rcases hafter l hl with hl | ⟨hbug, -⟩
        · exact h.rows key l₁ hget₁ l hl hid
        · exact hbug

theorem replaceBugLinks_spec {uid : Option Uuid} {links : List LinkTarget} (h : LinksOk db)
    (hbug : ∀ b ∈ db.bugs, b.id = bugId → b.projectId = projectId)
    (hlinks : ∀ t ∈ links, OfProject db projectId t) :
    wp (replaceBugLinks bugId uid links) (fun _ db' ↦ LinksOk db') (fun _ _ ↦ True) db := by
  unfold replaceBugLinks
  refine wp_query_seq ?_
  simp only [wp_bind, wp_write]
  refine wp_mono (wp_forEach_rest (I := Placing bugId projectId _) (J := fun _ ↦ True)
    (fun e rest s hs ↦ placeLink_spec hs) ?_) (fun _ _ h ↦ h.ok) fun _ _ h ↦ h
  have hold : ∀ ids, ∀ l ∈ (deleteLinks ids uid db).bugLinks, ∃ l₀ ∈ db.bugLinks,
      l₀.id = l.id ∧ l₀.bugId = l.bugId ∧ l₀.target = l.target ∧
        (l.live = true → l₀.live = true) := by
    intro ids l hl
    change l ∈ db.bugLinks.updateWhere (fun l ↦ l.id ∈ ids ∧ l.live)
      (fun l ↦ { l with deletedAt := some db.now, deletedBy := uid }) fun _ ↦ rfl at hl
    rcases Table.mem_updateWhere_cases.mp hl with ⟨hl, -⟩ | ⟨l₀, hl₀, -, rfl⟩
    · exact ⟨l, hl, rfl, rfl, rfl, id⟩
    · exact ⟨l₀, hl₀, rfl, rfl, rfl, fun hlive ↦ by cases hlive⟩
  refine ⟨h.delete _ db.now uid, hbug, fun e he ↦ ?_, Assoc.nodup_ofList _, ?_, ?_⟩
  · obtain ⟨t, ht, rfl⟩ := List.mem_map.mp (Assoc.mem_ofList he)
    exact ⟨rfl, hlinks t ht⟩
  · intro l hl hlive hbugId _
    obtain ⟨l₀, hl₀, -, hbug₀, htarget₀, hlive₀⟩ := hold _ l hl
    have hin : l₀ ∈ liveLinks bugId db := by
      unfold liveLinks
      rw [Table.mem_select, hlive₀ hlive, hbug₀, hbugId]
      exact ⟨hl₀, by simp⟩
    rw [← htarget₀]
    exact Assoc.get_ofList_isSome (e := (l₀.target.key, l₀))
      (List.mem_map_of_mem (f := fun l : BugLink ↦ (l.target.key, l)) hin)
  · intro key l₁ hget l hl hid
    obtain ⟨l₀, hl₀, hid₀, hbug₀, -, -⟩ := hold _ l hl
    obtain ⟨l₂, hl₂, heq⟩ := List.mem_map.mp (Assoc.mem_ofList (Assoc.mem_of_get hget))
    obtain ⟨-, rfl⟩ := Prod.mk.inj heq
    unfold liveLinks at hl₂
    rw [Table.mem_select, Bool.and_eq_true, decide_eq_true_eq] at hl₂
    obtain rfl := Table.eq_of_key hl₀ hl₂.1 (hid₀.trans hid)
    exact hbug₀.symm.trans hl₂.2.1

end OneBug

/-! ## The handlers -/

section Handlers

variable {db db' : Db}

theorem LinksOk.onlyUsers (h : LinksOk db) (honly : OnlyUsers db db') : LinksOk db' := by
  obtain ⟨users, rfl⟩ := honly
  exact h

theorem linksOk_failLinkedExecutions {projectId : Uuid} {actorId : Option Uuid}
    {executionIds : List IdText} (h : LinksOk db) :
    wp (failLinkedExecutions projectId actorId executionIds) (fun _ db' ↦ LinksOk db')
      (fun _ db' ↦ LinksOk db') db := by
  unfold failLinkedExecutions
  refine wp_ofExcept_seq (fun _ ↦ h) fun ids _ ↦ wp_query_seq ?_
  refine wp_forEach (fun e _ s hs ↦ ?_) h
  rw [wp_write]
  refine hs.kept ⟨rfl, rfl, rfl, fun r hr ↦ ?_, fun b hb ↦ ⟨b, hb, rfl, rfl⟩⟩ rfl
  refine Table.exists_updateWhere ?_ hr (fun _ ↦ ?_) fun _ ↦ ?_
  · exact fun _ ↦ rfl
  · exact ⟨rfl, rfl⟩
  · exact ⟨rfl, rfl⟩

theorem linksOk_getBug {bugId : Uuid} (h : LinksOk db) :
    wp (getBug bugId) (fun _ db' ↦ LinksOk db') (fun _ db' ↦ LinksOk db') db := by
  unfold getBug
  rw [wp_check]
  exact ⟨fun _ _ ↦ h, fun _ _ ↦ h⟩

section Create

theorem storeBug_kept {new : NewBug} {id : Uuid} {externalId : String}
    (h : storeBug new id externalId db = .ok db') :
    Kept db db' ∧ db'.bugLinks = db.bugLinks ∧
      ∀ b ∈ db'.bugs, b.id = id → b.projectId = new.projectId := by
  obtain ⟨externalId', text, bugs, hinsert, rfl⟩ := storeBug_eq_ok h
  have hmem : ∀ b, b ∈ bugs ↔ b ∈ db.bugs ∨ _ := fun b ↦ Table.mem_insert hinsert
  refine ⟨⟨rfl, rfl, rfl, fun e he ↦ ⟨e, he, rfl, rfl⟩, fun b hb ↦ ?_⟩, rfl, fun b hb hid ↦ ?_⟩
  · exact ⟨b, (hmem b).mpr (.inl hb), rfl, rfl⟩
  · rcases (hmem b).mp hb with hb | rfl
    · exact absurd hid ((Table.insert_eq_some hinsert).2 b hb)
    · rfl

variable [Unicode]

theorem insertBug_spec {new : NewBug} {uid : Option Uuid} (h : LinksOk db)
    (hlinks : ∀ t ∈ new.links, OfProject db new.projectId t) :
    wp (insertBug new uid) (fun _ db' ↦ LinksOk db') (fun _ _ ↦ True) db := by
  unfold insertBug nextBugExternalId externalIdPrefix
  simp only [wp_bind, wp_query, wp_check, wp_pure, wp_genUuid, wp_exec]
  refine ⟨fun n _ ↦ ⟨fun db₁ hstore ↦ ?_, fun _ _ ↦ trivial⟩, fun _ _ ↦ trivial⟩
  obtain ⟨hkept, hsame, hbug⟩ := storeBug_kept hstore
  have hok : LinksOk { db with uuids := fun n ↦ db.uuids (n + 1) } := h
  refine replaceBugLinks_spec (hok.kept hkept hsame) hbug fun t ht ↦ ?_
  have hproject : OfProject { db with uuids := fun n ↦ db.uuids (n + 1) } new.projectId t :=
    hlinks t ht
  exact hproject.kept hkept

theorem insertBugAttempts_spec {new : NewBug} {uid : Option Uuid} (h : LinksOk db)
    (hlinks : ∀ t ∈ new.links, OfProject db new.projectId t) (retries : ℕ) :
    wp (insertBugAttempts new uid retries) (fun _ db' ↦ LinksOk db') (fun _ db' ↦ LinksOk db')
      db := by
  induction retries with
  | zero =>
      unfold insertBugAttempts
      rw [wp_transaction]
      exact wp_mono (insertBug_spec h hlinks) (fun _ _ h ↦ h) fun _ _ _ ↦ h
  | succ retries ih =>
      unfold insertBugAttempts
      rw [wp_bind, wp_savepoint]
      refine wp_mono (insertBug_spec h hlinks) (fun id db' hok ↦ (wp_pure id).mpr hok) ?_
      intro e db' _
      dsimp only
      split
      · exact ih
      · exact (wp_fail e).mpr h

variable [UtcCalendar]

theorem linksOk_createBug {projectId : Uuid} {userId : Option Uuid} {body : BugBody}
    (h : LinksOk db) :
    wp (createBug projectId userId body) (fun _ db' ↦ LinksOk db') (fun _ db' ↦ LinksOk db')
      db := by
  have hE : ∀ _ : Failure, LinksOk db := fun _ ↦ h
  unfold createBug
  refine wp_ofExcept_seq hE fun _ _ ↦ wp_ofExcept_seq hE fun _ _ ↦ wp_query_seq ?_
  refine wp_ofExcept_seq hE fun severity _ ↦ wp_ofExcept_seq hE fun priority _ ↦ ?_
  refine wp_seq (wp_mono parseAssignee_spec (fun _ _ h ↦ h) fun _ _ heq ↦ heq ▸ h) ?_
  rintro assigneeId db ⟨rfl, -⟩
  refine wp_ofExcept_seq hE fun dueDate _ ↦ wp_check_seq hE fun _ _ ↦ ?_
  refine wp_seq (insertBugAttempts_spec h
    (fun t ht ↦ ofProject_of_mem_sanitizeBugLinks ht) 4) fun bugId db₁ h₁ ↦ ?_
  exact wp_seq (linksOk_failLinkedExecutions h₁) fun _ db₂ h₂ ↦ linksOk_getBug h₂

end Create

section Update

theorem storeBugChange_kept {id : Uuid} {c : BugChange} (h : storeBugChange id c db = .ok db') :
    Kept db db' ∧ db'.bugLinks = db.bugLinks := by
  rcases storeBugChange_eq_ok h with rfl | ⟨b, b', hb, rfl, happly, rfl⟩
  · exact ⟨.refl _, rfl⟩
  · have hproject : b'.projectId = b.projectId := (BugChange.apply_eq_ok happly).2.1
    refine ⟨⟨rfl, rfl, rfl, fun e he ↦ ⟨e, he, rfl, rfl⟩, fun r hr ↦ ?_⟩, rfl⟩
    refine Table.exists_updateWhere ?_ hr (fun _ ↦ ⟨rfl, rfl⟩) fun hp ↦ ⟨rfl, ?_⟩
    · exact fun _ ↦ rfl
    · rw [Table.eq_of_key hr hb (of_decide_eq_true hp)]
      exact hproject

theorem linksOk_updateBugLinks {bugId uid : Uuid} {links : Option (List LinkBody)}
    (h : LinksOk db) :
    wp (updateBugLinks bugId uid links) (fun _ db' ↦ LinksOk db') (fun _ db' ↦ LinksOk db') db := by
  unfold updateBugLinks
  rw [wp_whenSome]
  refine ⟨fun _ ↦ h, fun links _ ↦ wp_query_seq ?_⟩
  rw [wp_transaction]
  cases hfind : db.bugs.find bugId with
  | none =>
      have hnone : ∀ b ∈ db.bugs, b.id = bugId → b.projectId = 0 :=
        fun b hb hid ↦ absurd hid (Table.find_eq_none.mp hfind b hb)
      exact wp_mono (replaceBugLinks_spec h hnone fun t ht ↦ by cases ht) (fun _ _ h ↦ h)
        fun _ _ _ ↦ h
  | some b =>
      obtain ⟨hb, hid⟩ := Table.find_eq_some.mp hfind
      have hbug : ∀ b' ∈ db.bugs, b'.id = bugId → b'.projectId = b.projectId :=
        fun b' hb' hid' ↦ congrArg Bug.projectId (Table.eq_of_key hb' hb (hid'.trans hid.symm))
      exact wp_mono (replaceBugLinks_spec h hbug fun t ht ↦ ofProject_of_mem_sanitizeBugLinks ht)
        (fun _ _ h ↦ h) fun _ _ _ ↦ h

variable [Unicode] [UtcCalendar]

theorem linksOk_updateBug {userId : Option Uuid} {bugId : IdText} {body : BugBody}
    (h : LinksOk db) :
    wp (updateBug userId bugId body) (fun _ db' ↦ LinksOk db') (fun _ db' ↦ LinksOk db') db := by
  have hE : ∀ _ : Failure, LinksOk db := fun _ ↦ h
  unfold updateBug
  refine wp_requireUser_seq hE fun uid _ ↦ ?_
  refine wp_seq (wp_mono requireBugAccess_spec (fun _ _ h ↦ h) fun _ _ ho ↦ h.onlyUsers ho) ?_
  rintro projectId db₁ ⟨honly, -⟩
  have h₁ := h.onlyUsers honly
  have hE₁ : ∀ _ : Failure, LinksOk db₁ := fun _ ↦ h₁
  refine wp_castUuid_seq hE₁ fun id _ ↦ wp_ofExcept_seq hE₁ fun severity _ ↦ ?_
  refine wp_ofExcept_seq hE₁ fun _ _ ↦ wp_ofExcept_seq hE₁ fun _ _ ↦ ?_
  refine wp_ofExcept_seq hE₁ fun priority _ ↦ ?_
  refine wp_seq (wp_mono parseAssignee_spec (fun _ _ h ↦ h) fun _ _ heq ↦ heq ▸ h₁) ?_
  rintro assigneeId db₂ ⟨rfl, -⟩
  refine wp_ofExcept_seq hE₁ fun dueDate _ ↦ ?_
  refine wp_seq (linksOk_getBug h₁) fun before db₃ h₃ ↦ ?_
  refine wp_check_seq (fun _ ↦ h₃) fun _ _ ↦ ?_
  rw [wp_bind, wp_exec]
  refine ⟨fun db₄ hstore ↦ ?_, fun _ _ ↦ h₃⟩
  obtain ⟨hkept, hsame⟩ := storeBugChange_kept hstore
  exact wp_seq (linksOk_updateBugLinks (h₃.kept hkept hsame)) fun _ db₅ h₅ ↦ linksOk_getBug h₅

end Update

section Add

theorem mem_liveLinks {bugId : Uuid} {l : BugLink} :
    l ∈ liveLinks bugId db ↔ l ∈ db.bugLinks ∧ l.bugId = bugId ∧ l.live = true := by
  unfold liveLinks
  rw [Table.mem_select, Bool.and_eq_true, decide_eq_true_eq]

theorem LinkBody.target_eq {body : LinkBody} {t : LinkTarget}
    (htestcase : body.testcaseId.truthy.map IdText.uuid = t.testcaseId.map some)
    (hcycle : body.cycleId.truthy.map IdText.uuid = t.cycleId.map some)
    (hexecution : body.executionId.truthy.map IdText.uuid = t.executionId.map some) :
    body.target = some t := by
  unfold LinkBody.target
  rw [readUuid?_eq_ok.mpr htestcase, readUuid?_eq_ok.mpr hcycle, readUuid?_eq_ok.mpr hexecution]
  rfl

theorem linksOk_addBugLink {userId : Option Uuid} {bugId : IdText} {body : LinkBody}
    (h : LinksOk db) (hin : (BugCall.addBugLink userId bugId body).AddsInProject db) :
    wp (addBugLink userId bugId body) (fun _ db' ↦ LinksOk db') (fun _ db' ↦ LinksOk db') db := by
  unfold addBugLink
  refine wp_seq (wp_mono requireBugAccess_spec (fun _ _ h ↦ h) fun _ _ ho ↦ h.onlyUsers ho) ?_
  rintro projectId db₁ ⟨⟨users, rfl⟩, b, hb, hbugId, hlive, rfl, hmember⟩
  have h₁ : LinksOk { db with users := users } := h
  have hE : ∀ _ : Failure, LinksOk { db with users := users } := fun _ ↦ h₁
  refine wp_castUuid_seq hE fun id hid ↦ wp_require_seq h₁ fun _ ↦ ?_
  obtain rfl : b.id = id := Option.some.inj (hbugId.symm.trans hid)
  refine wp_castUuid?_seq hE fun testcaseId htestcase ↦ wp_castUuid?_seq hE fun cycleId hcycle ↦ ?_
  refine wp_query_seq (wp_castUuid?_seq hE fun executionId hexecution ↦ ?_)
  have hproject : NotElsewhere { db with users := users } b.projectId
      ⟨testcaseId, cycleId, executionId⟩ :=
    hin b.id hbugId b (Table.find_eq_some.mpr ⟨hb, rfl⟩) hlive hmember _
      (LinkBody.target_eq htestcase hcycle hexecution)
  have hsame : ∀ b' ∈ db.bugs, b'.id = b.id → b' = b := fun b' hb' hid' ↦
    Table.eq_of_key hb' hb hid'
  have hrest : ∀ db₂, LinksOk db₂ →
      wp (do
        failLinkedExecutions b.projectId userId body.executionId.nullish.toList
        getBug b.id) (fun _ db' ↦ LinksOk db') (fun _ db' ↦ LinksOk db') db₂ :=
    fun db₂ h₂ ↦ wp_seq (linksOk_failLinkedExecutions h₂) fun _ db₃ h₃ ↦ linksOk_getBug h₃
  dsimp only
  split
  · rename_i l hhead
    have hl := List.mem_of_mem_head? hhead
    rw [List.mem_filter, mem_liveLinks, decide_eq_true_eq] at hl
    split
    · rw [wp_bind, wp_exec]
      refine ⟨fun db₂ hok ↦ hrest db₂ ?_, fun _ _ ↦ h₁⟩
      refine (h₁.setExecution (fun l' hl' hid' b' hb' hbug e he row hrow ↦ ?_) hok).1
      obtain rfl := Table.eq_of_key hl' hl.1.1 hid'
      rw [hsame b' hb' (hbug.trans hl.1.2.1)]
      exact hproject.2.2 e he row hrow
    · exact hrest _ h₁
  · rename_i hhead
    rw [List.head?_eq_none_iff, List.filter_eq_nil_iff] at hhead
    simp only [wp_bind, wp_genUuid, wp_exec]
    refine ⟨fun db₂ hok ↦ ?_, fun _ _ ↦ h₁⟩
    have h₂ : LinksOk { db with users := users, uuids := fun n ↦ db.uuids (n + 1) } := h
    have h₃ := h₂.insert (t := ⟨testcaseId, cycleId, executionId⟩)
      (fun b' hb' hid' ↦ hsame b' hb' hid' ▸ hproject)
      (fun l hl hlive hbug hkey ↦ hhead l (mem_liveLinks.mpr ⟨hl, hbug, hlive⟩)
        (decide_eq_true hkey)) hok
    have hrest₂ := hrest db₂ h₃.1
    simp only [wp_bind] at hrest₂
    exact hrest₂

theorem linksOk_removeBugLink {userId : Option Uuid} {bugId linkId : IdText} (h : LinksOk db) :
    wp (removeBugLink userId bugId linkId) (fun _ db' ↦ LinksOk db') (fun _ db' ↦ LinksOk db')
      db := by
  unfold removeBugLink
  refine wp_requireUser_seq (fun _ ↦ h) fun uid _ ↦ ?_
  refine wp_seq (wp_mono requireBugAccess_spec (fun _ _ h ↦ h) fun _ _ ho ↦ h.onlyUsers ho) ?_
  rintro projectId db₁ ⟨honly, -⟩
  have h₁ := h.onlyUsers honly
  refine wp_castUuid_seq (fun _ ↦ h₁) fun id _ ↦ wp_castUuid_seq (fun _ ↦ h₁) fun linkId _ ↦ ?_
  rw [wp_bind, wp_write]
  exact linksOk_getBug (h₁.delete _ db₁.now (some uid))

end Add

end Handlers

/-! ## What is shown -/

/-- Where the links are in the project of their bug, so is what `getBug` shows of them. -/
theorem LinksInProject.shown {db : Db} (h : LinksInProject db) : ShownInProject db := by
  intro bugId
  rw [onAnswer_iff]
  unfold getBug
  rw [wp_check]
  refine ⟨fun view hview ↦ ?_, fun _ _ ↦ trivial⟩
  have hbug := eq_some_of_found hview
  unfold bugView at hbug
  simp only [bind, Option.bind_eq_some_iff] at hbug
  obtain ⟨b, hfind, hbug⟩ := hbug
  obtain rfl := Option.some.inj hbug
  rw [Option.filter_eq_some_iff] at hfind
  obtain ⟨hb, rfl⟩ := Table.find_eq_some.mp hfind.1
  intro v hv
  obtain ⟨l, hl, rfl⟩ := List.mem_map.mp hv
  obtain ⟨hl, hbugId, hlive⟩ := mem_liveLinks.mp hl
  obtain ⟨b', hb', hid', htestcase, hcycle, -⟩ := h l hl hlive
  obtain rfl := Table.eq_of_key hb' hb (hid'.trans hbugId)
  constructor
  · intro title htitle
    obtain ⟨t, ht, htext⟩ := Option.bind_eq_some_iff.mp htitle
    obtain ⟨id, hid, hfind⟩ := Option.bind_eq_some_iff.mp ht
    obtain ⟨row, hrow, hproject⟩ := htestcase id hid
    obtain rfl := Option.some.inj (hfind.symm.trans hrow)
    exact ⟨t, (Table.find_eq_some.mp hfind).1, hproject, htext⟩
  · intro name hname
    obtain ⟨c, hc, hshown⟩ := Option.map_eq_some_iff.mp hname
    obtain ⟨id, hid, hfind⟩ := Option.bind_eq_some_iff.mp hc
    obtain ⟨row, hrow, hproject⟩ := hcycle id hid
    obtain rfl := Option.some.inj (hfind.symm.trans hrow)
    exact ⟨c, (Table.find_eq_some.mp hfind).1, hproject, hshown⟩

/-! ## Runs -/

section Runs

variable [Unicode] [UtcCalendar] {db : Db}

theorem linksOk_bugStep {r : BugRequest} (h : LinksOk db) (hin : r.call.AddsInProject db) :
    LinksOk (bugStep db r) := by
  obtain ⟨now, call⟩ := r
  have hnow : LinksOk { db with now := now } := h
  refine after_of_wp ?_
  cases call with
  | createBug projectId userId body => exact linksOk_createBug hnow
  | updateBug userId bugId body => exact linksOk_updateBug hnow
  | addBugLink userId bugId body => exact linksOk_addBugLink hnow hin
  | removeBugLink userId bugId linkId => exact linksOk_removeBugLink hnow

/-- The links stay in the project of their bug, one for each case and run, in every run in which no
call adds a link to something of another project. -/
theorem linksSound_always (h : LinksOk db) {requests : List BugRequest}
    (hin : Along bugStep (fun db r ↦ r.call.AddsInProject db) db requests) :
    Always bugStep LinksSound db requests := by
  have hrun := Along.invariant (Q := fun _ _ ↦ True)
    (fun _ _ h hin ↦ ⟨linksOk_bugStep h hin, trivial⟩) h hin
  exact hrun.1.mono fun _ h ↦ ⟨h.1, h.2, h.1.shown⟩

end Runs

/-! ## A link to a case of another workspace -/

/-- Ann's project has a bug; a project of another workspace has a case. -/
def foreignCase : Db :=
  { Db.empty with
    uuids := fun n ↦ 1000 + n
    users := .singleton ⟨1, "ann@one.test", some 10⟩
    organizations := twoTenants.organizations
    organizationMembers := .singleton ⟨10, 1, "owner"⟩
    projects := twoTenants.projects
    projectMembers := .singleton ⟨100, 1, "owner"⟩
    testcases := ⟨[⟨5, 100, none, "ONE-TC-1", fun _ ↦ some "Login", [], none, none, none, 0, none,
        none⟩,
      ⟨7, 200, none, "TWO-TC-1", fun _ ↦ some "Payroll", [], none, none, none, 0, none, none⟩],
      by simp⟩
    bugs := ⟨[⟨50, 100, "ONE-BUG-1", none, none, none, fun _ ↦ none, some 1, none, none, 0, none⟩],
      by simp⟩ }

@[reducible] def utcYesterday : UtcCalendar := ⟨fun _ ↦ newYear⟩

/-- Ann links the case to the bug. -/
def linksCase (testcaseId : Uuid) : BugRequest :=
  ⟨1, .addBugLink (some 1) (.canonical 50) ⟨.value (.canonical testcaseId), .undefined, .undefined⟩⟩

theorem not_linksSound_foreignCase :
    letI := asciiCase
    letI := utcYesterday
    ¬ Always bugStep LinksSound foreignCase [linksCase 7] := by
  intro h
  have hlinks := h.2.inProject
  revert hlinks
  decide +kernel

theorem linksSound_ownCase :
    letI := asciiCase
    letI := utcYesterday
    Always bugStep LinksSound foreignCase [linksCase 5, linksCase 5] :=
  have hstart : LinksOk foreignCase :=
    ⟨fun l hl ↦ (by cases hl), fun l hl ↦ (by cases hl)⟩
  @linksSound_always asciiCase utcYesterday foreignCase hstart _ (by decide +kernel)

end Tesbo
