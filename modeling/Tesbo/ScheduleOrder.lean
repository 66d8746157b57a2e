import Tesbo.Schedules

/-!
# No plan or run is due before it starts

The constraint of the two tables judges the row an `UPDATE` makes, whatever the statement that read
the old one saw: two updates that are each in order against what they read cannot combine into a row
that is not.
-/

namespace Tesbo.Schedules

open Reasoning Proc Steps

/-- `start_date <= due_date` whenever both are set. -/
def InOrder (startDate dueDate : Option Day) : Prop :=
  ∀ start ∈ startDate, ∀ due ∈ dueDate, start ≤ due

instance (startDate dueDate : Option Day) : Decidable (InOrder startDate dueDate) :=
  inferInstanceAs (Decidable (∀ start ∈ startDate, ∀ due ∈ dueDate, start ≤ due))

def DatesInOrder (db : Db) : Prop :=
  (∀ p ∈ db.plans, InOrder p.startDate p.dueDate) ∧ ∀ c ∈ db.cycles, InOrder c.startDate c.dueDate

/-- No plan or run loses a start date. -/
def StartsKept (db db' : Db) : Prop :=
  (∀ p ∈ db.plans, p.startDate.isSome = true →
    ∃ p' ∈ db'.plans, p'.id = p.id ∧ p'.startDate.isSome = true) ∧
  ∀ c ∈ db.cycles, c.startDate.isSome = true →
    ∃ c' ∈ db'.cycles, c'.id = c.id ∧ c'.startDate.isSome = true

/-- Every date of every plan and run. -/
def dates (db : Db) : List (Uuid × Option Day × Option Day) × List (Uuid × Option Day × Option Day) :=
  (db.plans.rows.map fun p ↦ (p.id, p.startDate, p.dueDate),
    db.cycles.rows.map fun c ↦ (c.id, c.startDate, c.dueDate))

def IsBadRequest (e : Failure) : Prop :=
  (∃ error, e = .badRequest error) ∨ ∃ error field, e = .invalidField error field

/-- A call that moves a date is not answered with 400: what is left of it ends in no such error,
whatever it reads and is answered. -/
def MovesUnrefused [Calendar] (c : Run) (m : Move Call) : Prop :=
  ∀ k, m = .advance k → dates (step c m).shared ≠ dates c.shared →
    ∃ p, (step c m).pc k = some p ∧ p.Never IsBadRequest

/-! ## What the writes do to the dates -/

section Writes

variable {db db' : Db}

theorem inOrder_of_not_inverted {start due : Option Day} (h : ¬ Inverted start due) :
    InOrder start due :=
  fun s hs d hd ↦ Day.le_of_not_lt fun hlt ↦ h ⟨s, hs, d, hd, hlt⟩

theorem dueNotBeforeStart_eq_ok {constraint : String} {start due : Option Day} {u : Unit}
    (h : dueNotBeforeStart constraint start due = .ok u) : InOrder start due := by
  unfold dueNotBeforeStart at h
  split at h
  · cases h
  · rename_i hinv
    exact inOrder_of_not_inverted hinv

section Rows

variable {ρ : Type} {id : ρ → Uuid} {start due : ρ → Option Day} {t t' : Table id}

def RowsInOrder (start due : ρ → Option Day) (t : Table id) : Prop :=
  ∀ r ∈ t, InOrder (start r) (due r)

def RowsKeepStart (start : ρ → Option Day) (t t' : Table id) : Prop :=
  ∀ r ∈ t, (start r).isSome = true → ∃ r' ∈ t', id r' = id r ∧ (start r').isSome = true

theorem RowsKeepStart.refl (start : ρ → Option Day) (t : Table id) : RowsKeepStart start t t :=
  fun r hr hstart ↦ ⟨r, hr, rfl, hstart⟩

theorem rowsInOrder_insert {row : ρ} (h : t.insert row = some t')
    (hrow : InOrder (start row) (due row)) (ht : RowsInOrder start due t) :
    RowsInOrder start due t' := by
  intro r hr
  rcases (Table.mem_insert h).mp hr with hr | rfl
  · exact ht r hr
  · exact hrow

theorem rowsKeepStart_insert {row : ρ} (h : t.insert row = some t') :
    RowsKeepStart start t t' :=
  fun r hr hstart ↦ ⟨r, (Table.mem_insert h).mpr (.inl hr), rfl, hstart⟩

variable {k : Uuid} {row : ρ} (f : ρ → ρ) (hf : ∀ r, id (f r) = id r)

theorem rowsInOrder_update (h : t.find k = some row)
    (hrow : InOrder (start (f row)) (due (f row))) (ht : RowsInOrder start due t) :
    RowsInOrder start due (t.updateWhere (fun r ↦ id r = k) f hf) := by
  intro r hr
  rcases (Table.mem_updateWhere_key h).mp hr with ⟨hr, -⟩ | rfl
  · exact ht r hr
  · exact hrow

theorem rowsKeepStart_update (h : t.find k = some row)
    (hrow : (start row).isSome = true → (start (f row)).isSome = true) :
    RowsKeepStart start t (t.updateWhere (fun r ↦ id r = k) f hf) := by
  intro r hr hstart
  by_cases hk : id r = k
  · obtain rfl : r = row := Option.some.inj ((Table.find_eq_some.mpr ⟨hr, hk⟩).symm.trans h)
    exact ⟨f r, (Table.mem_updateWhere_key h).mpr (.inr rfl), hf r, hrow hstart⟩
  · exact ⟨r, (Table.mem_updateWhere_key h).mpr (.inl ⟨hr, hk⟩), rfl, hstart⟩

end Rows

theorem storePlan_eq_ok {new : NewPlan} {plan : Plan} (h : storePlan new db = .ok (plan, db')) :
    InOrder plan.startDate plan.dueDate ∧
      ∃ plans uuids, db.plans.insert plan = some plans ∧
        db' = { db with plans := plans, uuids := uuids } := by
  unfold storePlan at h
  obtain ⟨ownerId, -, h⟩ := except_bind_eq_ok.mp h
  obtain ⟨name, -, h⟩ := except_bind_eq_ok.mp h
  obtain ⟨targetRelease, -, h⟩ := except_bind_eq_ok.mp h
  obtain ⟨_, horder, h⟩ := except_bind_eq_ok.mp h
  obtain ⟨_, -, h⟩ := except_bind_eq_ok.mp h
  obtain ⟨_, -, h⟩ := except_bind_eq_ok.mp h
  split at h
  · cases h
  · rename_i plans hinsert
    obtain ⟨rfl, rfl⟩ := Prod.mk.inj (Except.ok.inj h)
    exact ⟨dueNotBeforeStart_eq_ok horder, plans, _, hinsert, rfl⟩

theorem PlanChange.apply_eq_ok {c : PlanChange} {now : Time} {plan plan' : Plan}
    (h : c.apply now plan = .ok plan') :
    InOrder plan'.startDate plan'.dueDate ∧ plan'.id = plan.id ∧
      plan'.startDate = c.dates.start plan.startDate := by
  unfold PlanChange.apply at h
  obtain ⟨name, -, h⟩ := except_bind_eq_ok.mp h
  obtain ⟨targetRelease, -, h⟩ := except_bind_eq_ok.mp h
  obtain ⟨_, horder, h⟩ := except_bind_eq_ok.mp h
  obtain rfl := Except.ok.inj h
  exact ⟨dueNotBeforeStart_eq_ok horder, rfl, rfl⟩

theorem storeCycle_eq_ok {new : NewCycle} {cycle : Cycle}
    (h : storeCycle new db = .ok (cycle, db')) :
    InOrder cycle.startDate cycle.dueDate ∧
      ∃ cycles uuids, db.cycles.insert cycle = some cycles ∧
        db' = { db with cycles := cycles, uuids := uuids } := by
  unfold storeCycle at h
  obtain ⟨planId, -, h⟩ := except_bind_eq_ok.mp h
  obtain ⟨ownerId, -, h⟩ := except_bind_eq_ok.mp h
  obtain ⟨name, -, h⟩ := except_bind_eq_ok.mp h
  obtain ⟨environment, -, h⟩ := except_bind_eq_ok.mp h
  obtain ⟨buildVersion, -, h⟩ := except_bind_eq_ok.mp h
  obtain ⟨releaseName, -, h⟩ := except_bind_eq_ok.mp h
  obtain ⟨_, horder, h⟩ := except_bind_eq_ok.mp h
  obtain ⟨_, -, h⟩ := except_bind_eq_ok.mp h
  obtain ⟨_, -, h⟩ := except_bind_eq_ok.mp h
  obtain ⟨_, -, h⟩ := except_bind_eq_ok.mp h
  split at h
  · cases h
  · rename_i cycles hinsert
    obtain ⟨rfl, rfl⟩ := Prod.mk.inj (Except.ok.inj h)
    exact ⟨dueNotBeforeStart_eq_ok horder, cycles, _, hinsert, rfl⟩

theorem CycleChange.apply_eq_ok {c : CycleChange} {planId : Option Uuid} {now : Time}
    {cycle cycle' : Cycle} (h : c.apply planId now cycle = .ok cycle') :
    InOrder cycle'.startDate cycle'.dueDate ∧ cycle'.startDate = c.dates.start cycle.startDate := by
  unfold CycleChange.apply at h
  obtain ⟨name, -, h⟩ := except_bind_eq_ok.mp h
  obtain ⟨environment, -, h⟩ := except_bind_eq_ok.mp h
  obtain ⟨buildVersion, -, h⟩ := except_bind_eq_ok.mp h
  obtain ⟨releaseName, -, h⟩ := except_bind_eq_ok.mp h
  obtain ⟨status, -, h⟩ := except_bind_eq_ok.mp h
  obtain ⟨_, horder, h⟩ := except_bind_eq_ok.mp h
  obtain rfl := Except.ok.inj h
  exact ⟨dueNotBeforeStart_eq_ok horder, rfl⟩

theorem StartsKept.refl (db : Db) : StartsKept db db :=
  ⟨RowsKeepStart.refl Plan.startDate db.plans, RowsKeepStart.refl Cycle.startDate db.cycles⟩

/-- What a write keeps in order it may go on with: no write removes a start date. -/
def Settled (db db' : Db) : Prop := (DatesInOrder db → DatesInOrder db') ∧ StartsKept db db'

theorem Settled.refl (db : Db) : Settled db db := ⟨fun h ↦ h, .refl db⟩

theorem settled_storePlan {new : NewPlan} {plan : Plan} (h : storePlan new db = .ok (plan, db')) :
    Settled db db' := by
  obtain ⟨horder, plans, uuids, hinsert, rfl⟩ := storePlan_eq_ok h
  exact ⟨fun hdb ↦ ⟨rowsInOrder_insert hinsert horder hdb.1, hdb.2⟩,
    rowsKeepStart_insert hinsert, RowsKeepStart.refl _ _⟩

theorem settled_storeCycle {new : NewCycle} {cycle : Cycle}
    (h : storeCycle new db = .ok (cycle, db')) : Settled db db' := by
  obtain ⟨horder, cycles, uuids, hinsert, rfl⟩ := storeCycle_eq_ok h
  exact ⟨fun hdb ↦ ⟨hdb.1, rowsInOrder_insert hinsert horder hdb.2⟩,
    RowsKeepStart.refl _ _, rowsKeepStart_insert hinsert⟩

theorem settled_storePlanChange {id : Uuid} {c : PlanChange}
    (h : storePlanChange id c db = .ok db') : Settled db db' := by
  unfold storePlanChange at h
  split at h
  · obtain rfl := Except.ok.inj h
    exact .refl db
  · rename_i plan hfind
    obtain ⟨plan', hplan', h⟩ := except_bind_eq_ok.mp h
    obtain rfl := Except.ok.inj h
    obtain ⟨horder, -, hstart⟩ := PlanChange.apply_eq_ok hplan'
    have hkeep : plan.startDate.isSome = true → plan'.startDate.isSome = true := by
      rw [hstart]
      exact DateChange.isSome_start
    let f (p : Plan) : Plan := { plan' with id := p.id }
    exact ⟨fun hdb ↦ ⟨rowsInOrder_update f (fun _ ↦ rfl) hfind horder hdb.1, hdb.2⟩,
      rowsKeepStart_update f (fun _ ↦ rfl) hfind hkeep, RowsKeepStart.refl _ _⟩

theorem settled_storeCycleChange {id : Uuid} {c : CycleChange}
    (h : storeCycleChange id c db = .ok db') : Settled db db' := by
  unfold storeCycleChange at h
  obtain ⟨planId, -, h⟩ := except_bind_eq_ok.mp h
  split at h
  · obtain rfl := Except.ok.inj h
    exact .refl db
  · rename_i cycle hfind
    obtain ⟨cycle', hcycle', h⟩ := except_bind_eq_ok.mp h
    obtain ⟨_, -, h⟩ := except_bind_eq_ok.mp h
    obtain rfl := Except.ok.inj h
    obtain ⟨horder, hstart⟩ := CycleChange.apply_eq_ok hcycle'
    have hkeep : cycle.startDate.isSome = true → cycle'.startDate.isSome = true := by
      rw [hstart]
      exact DateChange.isSome_start
    let f (c : Cycle) : Cycle := { cycle' with id := c.id }
    exact ⟨fun hdb ↦ ⟨hdb.1, rowsInOrder_update f (fun _ ↦ rfl) hfind horder hdb.2⟩,
      RowsKeepStart.refl _ _, rowsKeepStart_update f (fun _ ↦ rfl) hfind hkeep⟩

/-- A write that returns a row goes through, or leaves the database as it was. -/
theorem after_returning {α : Type} {P : Db → Prop} {f : Db → Except Failure (α × Db)} (hdb : P db)
    (hok : ∀ a db', f db = .ok (a, db') → P db') : P (Service.after (Service.returning f) db) := by
  unfold Service.after Service.returning
  cases hf : f db with
  | error e => exact hdb
  | ok r => exact hok r.1 r.2 hf

theorem after_exec {P : Db → Prop} {f : Db → Except Failure Db} (hdb : P db)
    (hok : ∀ db', f db = .ok db' → P db') : P (Service.after (Service.exec f) db) := by
  unfold Service.after Service.exec
  cases hf : f db with
  | error e => exact hdb
  | ok db' => exact hok db' hf

/-- Every write, whatever the statements before it read. -/
theorem settled_perform (w : Write) (db : Db) : Settled db (Service.after (perform w) db) := by
  cases w with
  | setActiveOrganization uid organizationId => exact .refl db
  | insertPlan new => exact after_returning (.refl db) fun _ _ h ↦ settled_storePlan h
  | updatePlan id change => exact after_exec (.refl db) fun _ h ↦ settled_storePlanChange h
  | insertCycle new => exact after_returning (.refl db) fun _ _ h ↦ settled_storeCycle h
  | updateCycle id change => exact after_exec (.refl db) fun _ h ↦ settled_storeCycleChange h
  | elapse time => exact .refl db

end Writes

/-! ## What follows a write of a date -/

def IsDateWrite : Write → Prop
  | .setActiveOrganization _ _ | .elapse _ => False
  | _ => True

theorem dates_of_not_isDateWrite {w : Write} (h : ¬ IsDateWrite w) (db : Db) :
    dates (Service.after (perform w) db) = dates db := by
  cases w with
  | setActiveOrganization uid organizationId => rfl
  | elapse time => rfl
  | insertPlan new => exact absurd trivial h
  | updatePlan id change => exact absurd trivial h
  | insertCycle new => exact absurd trivial h
  | updateCycle id change => exact absurd trivial h

/-- A write that fails leaves the database as it was. -/
theorem after_perform_error {w : Write} {db : Db} {e : Failure} (h : (perform w db).1 = .error e) :
    Service.after (perform w) db = db := by
  have hreturning : ∀ {α : Type} {f : Db → Except Failure (α × Db)},
      (Service.returning f db).1 = .error e → (Service.returning f db).2 = db := by
    intro α f hf
    unfold Service.returning at hf ⊢
    cases hdb : f db with
    | error e => rfl
    | ok r => rw [hdb] at hf; cases hf
  have hexec : ∀ {f : Db → Except Failure Db},
      (Service.exec f db).1 = .error e → (Service.exec f db).2 = db := by
    intro f hf
    unfold Service.exec at hf ⊢
    cases hdb : f db with
    | error e => rfl
    | ok db' => rw [hdb] at hf; cases hf
  cases w with
  | setActiveOrganization uid organizationId => cases h
  | elapse time => cases h
  | insertPlan new => exact hreturning h
  | updatePlan id change => exact hexec h
  | insertCycle new => exact hreturning h
  | updateCycle id change => exact hexec h

instance : Nonempty Db := ⟨.empty⟩

/-- The write of the dates is the last statement of a handler. -/
abbrev LastWrite {α : Type} (p : Procedure α) : Prop := p.Commits IsDateWrite IsBadRequest

theorem spares_requireProjectAccess {userId : Option Uuid} {projectId : IdText} :
    Spares IsDateWrite (Steps.requireProjectAccess userId projectId : Procedure ProjectAccess) :=
  fun _ ↦ (asks_requireProjectAccess (fun _ ↦ trivial) (fun _ _ _ _ _ ↦ trivial)
    fun _ _ _ ↦ id).mono fun _ _ _ ↦ trivial

theorem spares_requireRowAccess {userId : Option Uuid} {id : IdText}
    {project : Uuid → Db → Option Uuid} {missing : Failure} :
    Spares IsDateWrite (requireRowAccess userId id project missing) := by
  intro db
  unfold requireRowAccess
  refine asks_requireUser_seq fun uid _ ↦ asks_require_seq fun _ ↦ asks_ofExcept_seq fun id _ ↦ ?_
  refine asks_found_seq fun s₁ _ projectId _ ↦ ?_
  exact asks_seq (fun _ ↦ trivial) (fun _ _ _ _ _ ↦ trivial) (spares_requireProjectAccess s₁)
    fun _ _ _ _ ↦ asks_pure fun _ _ ↦ trivial

theorem spares_currentDates {startDate dueDate : DateArg}
    {dates : Db → Option (Option Day × Option Day)} :
    Spares IsDateWrite (currentDates startDate dueDate dates) := by
  intro db
  unfold currentDates
  split
  · exact asks_query fun _ _ _ _ ↦ trivial
  · exact asks_pure fun _ _ ↦ trivial

theorem spares_requireItems {id : Uuid} {status : Option String} :
    Spares IsDateWrite (requireItems id status) := by
  intro db
  unfold requireItems
  split
  · exact asks_check fun _ _ _ _ _ _ ↦ trivial
  · exact asks_pure fun _ _ ↦ trivial

theorem LastWrite.answered {α : Type} {p : Procedure α} (h : LastWrite p) :
    LastWrite (answered p) :=
  h.seq fun _ ↦ ⟨trivial, trivial⟩

section Handlers

variable [Calendar]

theorem lastWrite_createPlan {userId : Option Uuid} {projectId : IdText} {body : PlanBody} :
    LastWrite (createPlan userId projectId body) := by
  unfold createPlan
  refine spares_requireProjectAccess.commits_seq fun access ↦ commits_ofExcept_seq fun _ _ ↦ ?_
  refine commits_query_seq fun today ↦ commits_ofExcept_seq fun dates _ ↦ ?_
  exact commits_issue

theorem lastWrite_createCycle {projectId : Uuid} {body : CycleBody} :
    LastWrite (createCycle projectId body) := by
  unfold createCycle
  refine commits_ofExcept_seq fun _ _ ↦ commits_query_seq fun today ↦ ?_
  exact commits_ofExcept_seq fun dates _ ↦ commits_issue

theorem lastWrite_createCycleForUser {userId : Option Uuid} {projectId : IdText}
    {body : CycleBody} : LastWrite (createCycleForUser userId projectId body) := by
  unfold createCycleForUser
  exact spares_requireProjectAccess.commits_seq fun access ↦ lastWrite_createCycle

theorem lastWrite_updatePlan {userId : Option Uuid} {planId : IdText} {body : PlanBody} :
    LastWrite (updatePlan userId planId body) := by
  unfold updatePlan
  refine spares_requireRowAccess.commits_seq fun projectId ↦ commits_ofExcept_seq fun id _ ↦ ?_
  refine commits_ofExcept_seq fun _ _ ↦ spares_currentDates.commits_seq fun current ↦ ?_
  refine commits_query_seq fun today ↦ commits_ofExcept_seq fun dates _ ↦ ?_
  exact commits_issue

theorem lastWrite_updateCycle {userId : Option Uuid} {cycleId : IdText} {body : CycleBody} :
    LastWrite (updateCycle userId cycleId body) := by
  unfold updateCycle
  refine spares_requireRowAccess.commits_seq fun projectId ↦ commits_ofExcept_seq fun id _ ↦ ?_
  refine commits_ofExcept_seq fun _ _ ↦ spares_currentDates.commits_seq fun current ↦ ?_
  refine commits_query_seq fun today ↦ commits_ofExcept_seq fun dates _ ↦ ?_
  exact spares_requireItems.commits_seq fun _ ↦ commits_issue

theorem lastWrite_enter (r : Call) : LastWrite (enter r) := by
  cases r with
  | createPlan userId projectId body => exact lastWrite_createPlan.answered
  | updatePlan userId planId body => exact lastWrite_updatePlan
  | createCycle projectId body => exact lastWrite_createCycle.answered
  | createCycleForUser userId projectId body => exact lastWrite_createCycleForUser.answered
  | updateCycle userId cycleId body => exact lastWrite_updateCycle
  | elapse time => exact commits_issue

end Handlers

/-! ## Runs -/

section Runs

variable [Calendar]

/-- What every move keeps: the dates are in order, and no call has a write of dates before a
check. -/
def Orderly (c : Run) : Prop :=
  DatesInOrder c.shared ∧ c.Inv (fun _ ↦ True) fun _ _ p ↦ LastWrite p

theorem settled_step (c : Run) (m : Move Call) : Settled c.shared (step c m).shared := by
  rcases step_cases c m with ⟨-, h⟩ | ⟨w, -, h⟩
  · rw [h]
    exact .refl c.shared
  · rw [h]
    exact settled_perform w c.shared

theorem movesUnrefused_step {c : Run} (hc : c.Inv (fun _ ↦ True) fun _ _ p ↦ LastWrite p)
    (m : Move Call) : MovesUnrefused c m := by
  rintro k rfl hdates
  cases hk : c.pc k with
  | none =>
      have hstay : step c (.advance k) = c := by simp only [step, Config.move, hk]
      rw [hstay] at hdates
      exact absurd rfl hdates
  | some p =>
      have hpc : (step c (.advance k)).pc k = (p.exec perform c.shared).2 := pc_advance hk
      have hshared : (step c (.advance k)).shared = (p.exec perform c.shared).1 := by
        simp only [step, Config.move, hk]
      rw [hshared] at hdates
      rcases exec_cases perform c.shared p with ⟨-, hs⟩ | ⟨w, hw, hs⟩
      · rw [hs] at hdates
        exact absurd rfl hdates
      · rw [hs] at hdates
        have hdate : IsDateWrite w := by
          by_contra hnot
          exact hdates (dates_of_not_isDateWrite hnot c.shared)
        cases hr : (perform w c.shared).1 with
        | error e =>
            rw [after_perform_error hr] at hdates
            exact absurd rfl hdates
        | ok r =>
            rw [hpc]
            exact (hc.2 k p hk).never hw hdate hr

/-- In every run no plan or run is due before it starts, none loses its start date, and a call that
moves a date is not answered with 400. -/
theorem datesInOrder_always {db : Db} (hdb : DatesInOrder db) (moves : List (Move Call)) :
    Always step (fun c ↦ DatesInOrder c.shared) (.idle db) moves ∧
      Along step (fun c m ↦ StartsKept c.shared (step c m).shared ∧ MovesUnrefused c m) (.idle db)
        moves := by
  have hstep : ∀ (c : Run) (m : Move Call), Orderly c → True →
      Orderly (step c m) ∧ StartsKept c.shared (step c m).shared ∧ MovesUnrefused c m := by
    intro c m hc _
    obtain ⟨hsettled, hstarts⟩ := settled_step c m
    exact ⟨⟨hsettled hc.1, commits_move lastWrite_enter hc.2⟩, hstarts, movesUnrefused_step hc.2 m⟩
  have hidle : Orderly (.idle db) := ⟨hdb, .idle trivial⟩
  have hrun := Along.invariant hstep hidle (along_true _ moves)
  exact ⟨hrun.1.mono fun c hc ↦ hc.1, hrun.2⟩

end Runs

/-! ## Two updates that are each in order -/

def january (day : ℕ) (h : 1 ≤ day ∧ day ≤ 31) : Day :=
  ⟨2026, 1, day, by norm_num, by norm_num, by norm_num, h.1, h.2⟩

@[reducible] def newYear : Calendar := ⟨fun _ _ ↦ january 1 (by decide)⟩

/-- A project with one plan, from the 10th to the 20th. -/
def sprint : Db :=
  { Db.empty with
    users := .singleton ⟨1, "ann@x.io", some 10⟩
    organizations := .singleton ⟨10, 0⟩
    organizationMembers := .singleton ⟨10, 1, "owner"⟩
    projects := .singleton ⟨100, some 10, "ONE", "", none⟩
    projectMembers := .singleton ⟨100, 1, "owner"⟩
    plans := ⟨[⟨7, 100, "Sprint", none, none, none, some (january 10 (by decide)),
      some (january 20 (by decide)), 0, none⟩], by decide⟩ }

def datesOnly (startDate dueDate : DateArg) : PlanBody :=
  ⟨.undefined, .undefined, .undefined, .undefined, startDate, dueDate⟩

/-- One call brings the due date forward to the 12th, the other puts the start off to the 15th; both
read the plan before either writes it. -/
def crossing : List (Move Call) :=
  [.enter 0 (.updatePlan (some 1) (.canonical 7) (datesOnly .undefined (.value (.text "2026-01-12")))),
    .enter 1 (.updatePlan (some 1) (.canonical 7) (datesOnly (.value (.text "2026-01-15")) .undefined))]
    ++ List.replicate 5 (.advance 0) ++ List.replicate 5 (.advance 1)
    ++ [.advance 0, .advance 0, .advance 1]

theorem datesInOrder_crossing :
    letI := newYear
    Always step (fun c ↦ DatesInOrder c.shared) (.idle sprint) crossing ∧
      Along step (fun c m ↦ StartsKept c.shared (step c m).shared ∧ MovesUnrefused c m)
        (.idle sprint) crossing :=
  letI := newYear
  datesInOrder_always ⟨by decide, by decide⟩ crossing

end Tesbo.Schedules
