import Tesbo.DueReminders

/-!
# Reminders miss nothing and repeat nothing

The window of the two queries is in UTC days and the phase in the workspace's own, which is at most a
day away: every open item that is due is loaded.  Whatever passes overlap, and whatever due dates
change meanwhile, a user is told of an item, due date and phase once, and only of a due date the item
had since the pass began.
-/

namespace Tesbo.DueReminders

/-! ## What is open -/

/-- The project and the workspace of an item: the project is not archived. -/
structure Home (db : Db) (projectId : Uuid) (p : Project) (o : Organization) : Prop where
  project : p ∈ db.projects
  ofItem : p.id = projectId
  live : p.archivedAt = none
  organization : o ∈ db.organizations
  ofProject : p.organizationId = some o.id

/-- A run that is not Completed; a plan that has no runs, or has a run that is not Completed. -/
inductive OpenItem (db : Db) : DueItem → Prop where
  | run {c : Cycle} {due : Day} {p : Project} {o : Organization} (row : c ∈ db.cycles)
      (live : c.deletedAt = none) (unfinished : c.status ≠ "Completed")
      (isDue : c.dueDate = some due) (home : Home db c.projectId p o) :
      OpenItem db (runItem c due (p, o))
  | plan {pl : Plan} {due : Day} {p : Project} {o : Organization} (row : pl ∈ db.plans)
      (live : pl.deletedAt = none)
      (unfinished : runsOf db pl.id = [] ∨ ∃ r ∈ runsOf db pl.id, r.status ≠ "Completed")
      (isDue : pl.dueDate = some due) (home : Home db pl.projectId p o) :
      OpenItem db (planItem (runsOf db pl.id) pl due (p, o))

theorem mem_homes {db : Db} {projectId : Uuid} {p : Project} {o : Organization} :
    (p, o) ∈ homes db projectId ↔ Home db projectId p o := by
  simp only [homes, List.mem_flatMap, List.mem_filter, List.mem_map, decide_eq_true_eq,
    Prod.mk.injEq]
  constructor
  · rintro ⟨p', ⟨hp, hid, hlive⟩, o', ⟨ho, hof⟩, rfl, rfl⟩
    exact ⟨hp, hid, hlive, ho, hof⟩
  · intro h
    exact ⟨p, ⟨h.project, h.ofItem, h.live⟩, o, ⟨h.organization, h.ofProject⟩, rfl, rfl⟩

theorem mem_loadOpenRuns {db : Db} {now : Instant} {item : DueItem} :
    item ∈ loadOpenRuns db now ↔
      ∃ c ∈ db.cycles, c.deletedAt = none ∧ c.status ≠ "Completed" ∧
        ∃ due, c.dueDate = some due ∧ InWindow now due ∧
          ∃ p o, Home db c.projectId p o ∧ item = runItem c due (p, o) := by
  simp only [loadOpenRuns, List.mem_flatMap, List.mem_filter, List.mem_map, decide_eq_true_eq,
    Option.mem_toList, Prod.exists]
  constructor
  · rintro ⟨c, ⟨hc, hlive, hopen⟩, due, ⟨hdue, hin⟩, p, o, hhome, rfl⟩
    exact ⟨c, hc, hlive, hopen, due, hdue, hin, p, o, mem_homes.mp hhome, rfl⟩
  · rintro ⟨c, hc, hlive, hopen, due, hdue, hin, p, o, hhome, rfl⟩
    exact ⟨c, ⟨hc, hlive, hopen⟩, due, ⟨hdue, hin⟩, p, o, mem_homes.mpr hhome, rfl⟩

/-- A plan with runs, not one of which is unfinished, is the only plan left out. -/
theorem unfinished_plan_iff {runs : List Cycle} :
    ¬ ((∃ r ∈ runs, True) ∧ ¬ ∃ r ∈ runs, r.status ≠ "Completed") ↔
      runs = [] ∨ ∃ r ∈ runs, r.status ≠ "Completed" := by
  cases runs with
  | nil => simp
  | cons r rs =>
      have hsome : ∃ r' ∈ r :: rs, True := ⟨r, List.mem_cons_self, trivial⟩
      simp only [hsome, true_and, not_not, reduceCtorEq, false_or]

theorem mem_loadOpenPlans {db : Db} {now : Instant} {item : DueItem} :
    item ∈ loadOpenPlans db now ↔
      ∃ pl ∈ db.plans, pl.deletedAt = none ∧
        (runsOf db pl.id = [] ∨ ∃ r ∈ runsOf db pl.id, r.status ≠ "Completed") ∧
          ∃ due, pl.dueDate = some due ∧ InWindow now due ∧
            ∃ p o, Home db pl.projectId p o ∧ item = planItem (runsOf db pl.id) pl due (p, o) := by
  simp only [loadOpenPlans, List.mem_flatMap, List.mem_filter, List.mem_map, decide_eq_true_eq,
    Option.mem_toList, Prod.exists, unfinished_plan_iff]
  constructor
  · rintro ⟨pl, ⟨hpl, hlive, hopen⟩, due, ⟨hdue, hin⟩, p, o, hhome, rfl⟩
    exact ⟨pl, hpl, hlive, hopen, due, hdue, hin, p, o, mem_homes.mp hhome, rfl⟩
  · rintro ⟨pl, hpl, hlive, hopen, due, hdue, hin, p, o, hhome, rfl⟩
    exact ⟨pl, ⟨hpl, hlive, hopen⟩, due, ⟨hdue, hin⟩, p, o, mem_homes.mpr hhome, rfl⟩

/-- What is loaded is open, and is in the window. -/
theorem mem_loadOpenItems {db : Db} {now : Instant} {item : DueItem} :
    item ∈ loadOpenItems db now ↔ OpenItem db item ∧ InWindow now item.dueDate := by
  rw [loadOpenItems, List.mem_append, mem_loadOpenRuns, mem_loadOpenPlans]
  constructor
  · rintro (⟨c, hc, hlive, hopen, due, hdue, hin, p, o, hhome, rfl⟩ |
      ⟨pl, hpl, hlive, hopen, due, hdue, hin, p, o, hhome, rfl⟩)
    · exact ⟨.run hc hlive hopen hdue hhome, hin⟩
    · exact ⟨.plan hpl hlive hopen hdue hhome, hin⟩
  · rintro ⟨hopen, hin⟩
    cases hopen with
    | run hc hlive hopen hdue hhome =>
        exact .inl ⟨_, hc, hlive, hopen, _, hdue, hin, _, _, hhome, rfl⟩
    | plan hpl hlive hopen hdue hhome =>
        exact .inr ⟨_, hpl, hlive, hopen, _, hdue, hin, _, _, hhome, rfl⟩

/-! ## The window -/

/-- The day of a workspace is the UTC day, the one before or the one after. -/
theorem todayIn_near [Intl] (zone : String) (now : Instant) :
    utcToday now - 1 ≤ todayIn zone now ∧ todayIn zone now ≤ utcToday now + 1 := by
  have hoffset := (Intl.offsetAt (resolvedZone zone) now).bounds
  unfold utcToday todayIn localClock
  unfold hourMs at hoffset
  unfold dayMs hourMs
  omega

theorem announced_bounds {due : Day} {today : ℤ} {phase : DuePhase}
    (h : announced due today = some phase) :
    today - 14 ≤ due.sinceEpoch ∧ due.sinceEpoch ≤ today + 1 := by
  unfold announced duePhase addDays dueDateOverdueCatchupDays dueSoonLeadDays at h
  dsimp only at h
  by_cases hover : due.sinceEpoch < today
  · rw [if_pos hover] at h
    dsimp only at h
    split at h
    · cases h
    · omega
  · rw [if_neg hover] at h
    by_cases hsoon : due.sinceEpoch ≤ today + 1
    · omega
    · rw [if_neg (show ¬ due.sinceEpoch = today by omega), if_neg hsoon] at h
      cases h

theorem inWindow_of_announced [Intl] {zone : String} {now : Instant} {due : Day}
    {phase : DuePhase} (h : announced due (todayIn zone now) = some phase) : InWindow now due := by
  have hbounds := announced_bounds h
  have hnear := todayIn_near zone now
  unfold InWindow addDays dueDateOverdueCatchupDays
  omega

/-! ## The unique index -/

theorem Inbox.insert_rows (inbox : Inbox) (n : Notification) :
    ∃ new, (inbox.insert n).rows = inbox.rows ++ new ∧ ∀ m ∈ new, m = n := by
  unfold Inbox.insert
  split
  · exact ⟨[], (List.append_nil _).symm, fun m hm ↦ absurd hm List.not_mem_nil⟩
  · exact ⟨[n], rfl, fun m hm ↦ List.mem_singleton.mp hm⟩

theorem Inbox.insertAll_rows (inbox : Inbox) (ns : List Notification) :
    ∃ new, (inbox.insertAll ns).rows = inbox.rows ++ new ∧ ∀ m ∈ new, m ∈ ns := by
  induction ns generalizing inbox with
  | nil => exact ⟨[], (List.append_nil _).symm, fun m hm ↦ absurd hm List.not_mem_nil⟩
  | cons n ns ih =>
      obtain ⟨first, hfirst, hmem⟩ := inbox.insert_rows n
      obtain ⟨rest, hrest, hmem'⟩ := ih (inbox.insert n)
      refine ⟨first ++ rest, ?_, ?_⟩
      · change ((inbox.insert n).insertAll ns).rows = _
        rw [hrest, hfirst, List.append_assoc]
      · intro m hm
        rcases List.mem_append.mp hm with hm | hm
        · rw [hmem m hm]
          exact List.mem_cons_self
        · exact List.mem_cons_of_mem n (hmem' m hm)

/-- The rows of one user under one key. -/
def Inbox.keyed (inbox : Inbox) (u : Uuid) (key : DedupeKey) : List Notification :=
  inbox.rows.filter fun n ↦ n.userId = u ∧ n.dedupeKey = some key

theorem Inbox.length_keyed_le (inbox : Inbox) (u : Uuid) (key : DedupeKey) :
    (inbox.keyed u key).length ≤ 1 := by
  have hunique : (inbox.keyed u key).Pairwise fun a b ↦ ¬ a.SameAs b := inbox.unique.filter _
  have hkeyed : ∀ n ∈ inbox.keyed u key, n.userId = u ∧ n.dedupeKey = some key := fun n hn ↦ by
    simpa only [decide_eq_true_eq] using (List.mem_filter.mp hn).2
  rcases hrows : inbox.keyed u key with _ | ⟨a, _ | ⟨b, rest⟩⟩
  · exact Nat.zero_le 1
  · exact le_refl 1
  · rw [hrows] at hunique hkeyed
    obtain ⟨hau, hak⟩ := hkeyed a List.mem_cons_self
    obtain ⟨hbu, hbk⟩ := hkeyed b (List.mem_cons_of_mem a List.mem_cons_self)
    -- two rows of one user under one key are what the index refuses
    have hsame : a.SameAs b := by
      refine ⟨?_, hau.trans hbu.symm, hak.trans hbk.symm⟩
      rw [hak]
      rfl
    exact absurd hsame (List.rel_of_pairwise_cons hunique List.mem_cons_self)

/-! ## Runs -/

section
variable [Intl]

/-- The rows a step has written. -/
def written (w : World) (e : Event) : List Notification :=
  (step w e).inbox.rows.drop w.inbox.rows.length

theorem runAll_concat (w : World) (es : List Event) (e : Event) :
    runAll w (es ++ [e]) = step (runAll w es) e := by
  simp only [runAll, List.foldl_append, List.foldl_cons, List.foldl_nil]

/-- What one turn may write: reminders of its item, under the phase it is in. -/
theorem turn_rows (db : Db) (inbox : Inbox) (p : Pass) (item : DueItem) (outcome : Outcome) :
    ∃ new, (turn db inbox p item outcome).1.rows = inbox.rows ++ new ∧
      ∀ n ∈ new, ∃ phase, phaseToNotify item p.now = some phase ∧
        n = reminder item phase n.userId := by
  unfold turn
  cases hphase : phaseToNotify item p.now with
  | none => exact ⟨[], (List.append_nil _).symm, fun m hm ↦ absurd hm List.not_mem_nil⟩
  | some phase =>
      cases outcome with
      | recipientsFail | insertFails =>
          exact ⟨[], (List.append_nil _).symm, fun m hm ↦ absurd hm List.not_mem_nil⟩
      | done =>
          obtain ⟨new, hnew, hmem⟩ :=
            inbox.insertAll_rows ((memberRecipients db item).map (reminder item phase))
          refine ⟨new, hnew, fun n hn ↦ ⟨phase, rfl, ?_⟩⟩
          obtain ⟨u, -, rfl⟩ := List.mem_map.mp (hmem n hn)
          rfl

/-- Every step leaves the rows there are, and adds some. -/
theorem step_rows (w : World) (e : Event) :
    (step w e).inbox.rows = w.inbox.rows ++ written w e := by
  have hgrows : ∃ new, (step w e).inbox.rows = w.inbox.rows ++ new := by
    cases e with
    | start k now | loadPlans k =>
        unfold step
        dsimp only
        split <;> exact ⟨[], (List.append_nil _).symm⟩
    | next k outcome =>
        unfold step
        dsimp only
        split
        · obtain ⟨new, hnew, -⟩ := turn_rows w.db w.inbox _ _ outcome
          exact ⟨new, hnew⟩
        · exact ⟨[], (List.append_nil _).symm⟩
    | setDueDate kind id dueDate => exact ⟨[], (List.append_nil _).symm⟩
    | edit db => exact ⟨[], (List.append_nil _).symm⟩
    | notification n =>
        obtain ⟨new, hnew, -⟩ := w.inbox.insert_rows n
        exact ⟨new, hnew⟩
  obtain ⟨new, hnew⟩ := hgrows
  rw [written, hnew, List.drop_left]

theorem runAll_rows (w : World) (es : List Event) :
    w.inbox.rows <+: (runAll w es).inbox.rows := by
  induction es using List.reverseRecOn with
  | nil => exact List.prefix_refl _
  | append_singleton es e ih =>
      rw [runAll_concat, step_rows]
      exact ih.trans (List.prefix_append _ _)

/-- The item was open in a state of the run `es` since the pass `k` began at `now`. -/
def OpenSince (w : World) (es : List Event) (k : ℕ) (now : Instant) (item : DueItem) : Prop :=
  ∃ earlier upTo later, es = earlier ++ .start k now :: (upTo ++ later) ∧
    OpenItem (runAll w (earlier ++ .start k now :: upTo)).db item

/-- Every pass has yet to look at items that have been open since it began. -/
def Traced (w : World) (es : List Event) : Prop :=
  ∀ k p, (runAll w es).passes k = some p →
    (∃ earlier later, es = earlier ++ .start k p.now :: later) ∧
      ∀ item ∈ p.items, OpenSince w es k p.now item

variable {w : World} {es : List Event} {k : ℕ} {now : Instant} {item : DueItem}

theorem OpenSince.concat (h : OpenSince w es k now item) (e : Event) :
    OpenSince w (es ++ [e]) k now item := by
  obtain ⟨earlier, upTo, later, rfl, hopen⟩ := h
  refine ⟨earlier, upTo, later ++ [e], ?_, hopen⟩
  simp only [List.append_assoc, List.cons_append]

/-- The present state is one of those since the pass began. -/
theorem OpenSince.of_open (hbegun : ∃ earlier later, es = earlier ++ .start k now :: later)
    (hopen : OpenItem (runAll w es).db item) : OpenSince w es k now item := by
  obtain ⟨earlier, later, rfl⟩ := hbegun
  exact ⟨earlier, later, [], by rw [List.append_nil], hopen⟩

/-- Where a pass has come from: it has just begun, or it was under way and has at most loaded the
plans. -/
theorem step_passes {w : World} {e : Event} {k : ℕ} {p : Pass} (h : (step w e).passes k = some p) :
    (e = .start k p.now ∧ (step w e).db = w.db ∧ p.items = loadOpenRuns w.db p.now) ∨
      ∃ q, w.passes k = some q ∧ q.now = p.now ∧
        ∀ item ∈ p.items, item ∈ q.items ∨ item ∈ loadOpenPlans w.db p.now := by
  have hsame : w.passes k = some p → ∃ q, w.passes k = some q ∧ q.now = p.now ∧
      ∀ item ∈ p.items, item ∈ q.items ∨ item ∈ loadOpenPlans w.db p.now :=
    fun hp ↦ ⟨p, hp, rfl, fun _ hitem ↦ .inl hitem⟩
  cases e with
  | start j now =>
      cases hj : w.passes j with
      | some q =>
          simp only [step, hj] at h
          exact .inr (hsame h)
      | none =>
          have hdb : (step w (.start j now)).db = w.db := by simp only [step, hj]
          simp only [step, hj] at h
          by_cases hkj : k = j
          · subst hkj
            rw [Function.update_self, Option.some.injEq] at h
            subst h
            exact .inl ⟨rfl, hdb, rfl⟩
          · rw [Function.update_of_ne hkj] at h
            exact .inr (hsame h)
  | loadPlans j =>
      unfold step at h
      dsimp only at h
      split at h
      · rename_i now items summary hj
        dsimp only at h
        by_cases hkj : k = j
        · subst hkj
          rw [Function.update_self, Option.some.injEq] at h
          subst h
          exact .inr ⟨_, hj, rfl, fun item hitem ↦ List.mem_append.mp hitem⟩
        · rw [Function.update_of_ne hkj] at h
          exact .inr (hsame h)
      · exact .inr (hsame h)
  | next j outcome =>
      unfold step at h
      dsimp only at h
      split at h
      · rename_i now item items summary hj
        dsimp only at h
        by_cases hkj : k = j
        · subst hkj
          rw [Function.update_self, Option.some.injEq] at h
          subst h
          exact .inr ⟨_, hj, rfl, fun item' hitem ↦ .inl (List.mem_cons_of_mem item hitem)⟩
        · rw [Function.update_of_ne hkj] at h
          exact .inr (hsame h)
      · exact .inr (hsame h)
  | setDueDate kind id dueDate => exact .inr (hsame h)
  | edit db => exact .inr (hsame h)
  | notification n => exact .inr (hsame h)

theorem Traced.concat (h : Traced w es) (e : Event) : Traced w (es ++ [e]) := by
  intro k p hp
  rw [runAll_concat] at hp
  rcases step_passes hp with ⟨rfl, hdb, hitems⟩ | ⟨q, hq, hnow, hitems⟩
  · refine ⟨⟨es, [], rfl⟩, fun item hitem ↦ OpenSince.of_open ⟨es, [], rfl⟩ ?_⟩
    rw [runAll_concat, hdb]
    rw [hitems] at hitem
    exact (mem_loadOpenItems.mp (List.mem_append_left _ hitem)).1
  · obtain ⟨hbegun, hopen⟩ := h k q hq
    rw [hnow] at hbegun hopen
    constructor
    · obtain ⟨earlier, later, rfl⟩ := hbegun
      exact ⟨earlier, later ++ [e], by simp only [List.append_assoc, List.cons_append]⟩
    · intro item hitem
      apply OpenSince.concat
      rcases hitems item hitem with hitem | hitem
      · exact hopen item hitem
      · -- the plans are read from the state the step finds
        apply OpenSince.of_open hbegun
        exact (mem_loadOpenItems.mp (List.mem_append_right _ hitem)).1

theorem traced (db : Db) (inbox : Inbox) (es : List Event) : Traced (idle db inbox) es := by
  induction es using List.reverseRecOn with
  | nil => exact fun k p hp ↦ by cases hp
  | append_singleton es e ih => exact ih.concat e

theorem resolvedZone_resolvedZone (zone : String) :
    resolvedZone (resolvedZone zone) = resolvedZone zone := by
  unfold resolvedZone
  by_cases hzone : isValidTimezone zone = true
  · rw [if_pos hzone, if_pos hzone]
  · rw [if_neg hzone, ite_self]

/-- The phase that is announced is the one of the item's own day. -/
theorem announced_of_phaseToNotify {phase : DuePhase} (h : phaseToNotify item now = some phase) :
    announced item.dueDate (todayIn item.timezone now) = some phase := by
  unfold phaseToNotify at h
  split at h
  · cases h
  · unfold todayIn localClock at h ⊢
    rwa [resolvedZone_resolvedZone] at h

/-- What a turn of a pass has written: reminders of an item that has been open since the pass began,
with the due date and the phase it had there. -/
theorem written_next (h : Traced w es) {outcome : Outcome} {n : Notification}
    (hn : n ∈ written (runAll w es) (.next k outcome)) :
    ∃ now item phase, OpenSince w es k now item ∧
      announced item.dueDate (todayIn item.timezone now) = some phase ∧
        n = reminder item phase n.userId := by
  have hnone : n ∉ (runAll w es).inbox.rows.drop (runAll w es).inbox.rows.length := by
    rw [List.drop_length]
    exact List.not_mem_nil
  unfold written step at hn
  dsimp only at hn
  split at hn
  · rename_i now item items summary hp
    obtain ⟨new, hnew, hmem⟩ := turn_rows (runAll w es).db (runAll w es).inbox
      ⟨now, true, item :: items, summary⟩ item outcome
    dsimp only at hn
    rw [hnew, List.drop_left] at hn
    obtain ⟨phase, hphase, hrow⟩ := hmem n hn
    have hopen := (h k _ hp).2 item List.mem_cons_self
    exact ⟨now, item, phase, hopen, announced_of_phaseToNotify hphase, hrow⟩
  · exact absurd hn hnone

end

/-- For every state of the tables every open item that is due in its own zone is loaded.  Whatever
passes run, overlapping or not, whatever due dates change and whatever else is written, rows are only
added, each user has at most one row for each item, due date and phase, and each row that a pass
writes is for an item with the due date it has had since the pass began. -/
theorem reminders_miss_and_repeat_nothing [Intl] (db : Db) (inbox : Inbox) (es : List Event) :
    (∀ db now item, OpenItem db item →
        (announced item.dueDate (todayIn item.timezone now)).isSome →
          item ∈ loadOpenItems db now) ∧
      inbox.rows <+: (runAll (idle db inbox) es).inbox.rows ∧
      (∀ u kind id dueDate phase,
        ((runAll (idle db inbox) es).inbox.keyed u (.due kind id dueDate phase)).length ≤ 1) ∧
      ∀ before k outcome after n, es = before ++ .next k outcome :: after →
        n ∈ written (runAll (idle db inbox) before) (.next k outcome) →
          ∃ now item phase, OpenSince (idle db inbox) before k now item ∧
            announced item.dueDate (todayIn item.timezone now) = some phase ∧
              n = reminder item phase n.userId := by
  refine ⟨?_, runAll_rows (idle db inbox) es, ?_, ?_⟩
  · intro db now item hopen hdue
    obtain ⟨phase, hphase⟩ := Option.isSome_iff_exists.mp hdue
    exact mem_loadOpenItems.mpr ⟨hopen, inWindow_of_announced hphase⟩
  · intro u kind id dueDate phase
    exact Inbox.length_keyed_le _ u _
  · intro before k outcome after n _ hn
    exact written_next (traced db inbox before) hn

end Tesbo.DueReminders
