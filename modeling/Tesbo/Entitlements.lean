import Tesbo.Billing
import Tesbo.Reasoning.Phases

/-!
# What a workspace is entitled to

The plan whose limits apply is worked out from the workspace's row and the clock; a plan granted up to
a date is retired when it is found to have lapsed.  A subscription may be applied to the row in
between.  Of the audit log only the statement is kept, and of the cache the entry of the workspace.
-/

namespace Tesbo.Billing.Entitlements

open Reasoning Proc

structure Entitlement where
  plan : Knowledge.Plan
  effectivePlan : Knowledge.Plan
  inGracePeriod : Bool
  graceEndsAt : Option Time
deriving DecidableEq, Repr

/-- An entitlement as it was worked out: the row and the time at that instant. -/
structure Answer where
  entitlement : Entitlement
  organization : Organization
  now : Time
deriving DecidableEq

/-- The row, the cache and the clock, which each statement puts forward by `elapsed`.  `applied` says
whether a subscription was applied since the row was read, `answer` is what was worked out; nothing
reads these two. -/
structure Data where
  organization : Organization
  cache : Option Entitlement
  now : Time
  elapsed : ℕ → Time
  applied : Bool
  answer : Option Answer

/-! ## Statements -/

inductive Write where
  | getCached
  | select
  /-- What follows from the row at once: nothing yet, where the grant has lapsed. -/
  | settle (row : Organization)
  | expire
  | audit
  /-- What follows once the grant is retired. -/
  | conclude
  | setCached (entitlement : Entitlement)
  | subscribe (cfg : BillingConfig) (sub : Subscription) (current : Organization)
  | invalidate

@[reducible] def Reply : Write → Type
  | .getCached | .settle _ => Option Entitlement
  | .select => Organization
  | .expire => Bool
  | .conclude => Entitlement
  | .audit | .setCached _ | .subscribe _ _ _ | .invalidate => Unit

/-- A plan set by hand, whose end date has come. -/
def overrideLapsed (now : Time) (row : Organization) : Bool :=
  row.planSource = .admin && row.planOverrideExpiresAt.any fun expiresAt ↦ expiresAt ≤ now

def entitlement (plan : Knowledge.Plan) (graceEndsAt : Option Time) (now : Time) : Entitlement :=
  let inGracePeriod := plan = .launch && graceEndsAt.any fun endsAt ↦ now < endsAt
  ⟨plan, if inGracePeriod then .pro else plan, inGracePeriod, graceEndsAt⟩

/-- The row of a grant that is retired; the deadline of a grace period stays. -/
def retired (now : Time) (row : Organization) : Organization :=
  { row with plan := .launch }.standDown now

namespace Data

def tick (s : Data) : Data :=
  { s with now := s.now + s.elapsed 0, elapsed := fun n ↦ s.elapsed (n + 1) }

def settle (row : Organization) (s : Data) : Option Entitlement × Data :=
  if overrideLapsed s.now row then (none, s)
  else
    let e := entitlement row.plan row.planGraceEndsAt s.now
    (some e, { s with answer := some ⟨e, s.organization, s.now⟩ })

/-- Guarded: what has ceased to be a lapsed grant stays as it is. -/
def expire (s : Data) : Bool × Data :=
  if overrideLapsed s.now s.organization
  then (true, { s with organization := retired s.now s.organization })
  else (false, s)

def conclude (s : Data) : Entitlement × Data :=
  let e := entitlement .launch none s.now
  (e, { s with answer := some ⟨e, s.organization, s.now⟩ })

def subscribe (cfg : BillingConfig) (sub : Subscription) (current : Organization) (s : Data) :
    Data :=
  { s with
    organization := Billing.subscribed cfg sub (some current) s.now s.organization
    applied := true }

end Data

def perform : (w : Write) → Service Failure Data (Reply w)
  | .getCached => fun s ↦ (.ok s.cache, s.tick)
  | .select => fun s ↦ (.ok s.organization, { s.tick with applied := false })
  | .settle row => fun s ↦ (.ok (s.tick.settle row).1, (s.tick.settle row).2)
  | .expire => fun s ↦ (.ok s.tick.expire.1, s.tick.expire.2)
  | .audit => Service.write Data.tick
  | .conclude => fun s ↦ (.ok s.tick.conclude.1, s.tick.conclude.2)
  | .setCached e => Service.write fun s ↦ { s.tick with cache := some e }
  | .subscribe cfg sub current => Service.write fun s ↦ s.tick.subscribe cfg sub current
  | .invalidate => Service.write fun s ↦ { s.tick with cache := none }

abbrev Procedure (α : Type) := Proc Data Reply Failure α

abbrev ask (w : Write) : Procedure (Reply w) := issue w

/-! ## The calls -/

def expireAdminOverride : Procedure Unit := do
  let hit ← ask .expire
  if hit then ask .audit else pure ()

def computeEntitlement : Procedure Entitlement := do
  let row ← ask .select
  let settled ← ask (.settle row)
  match settled with
  | some e => pure e
  | none => do
      expireAdminOverride
      ask .conclude

def loadEntitlement : Procedure Unit := do
  let cached ← ask .getCached
  match cached with
  | some _ => pure ()
  | none => do
      let computed ← computeEntitlement
      ask (.setCached computed)

/-- For a subscription of this workspace; what it adds to the history comes after. -/
def applySubscriptionState (cfg : BillingConfig) (sub : Subscription) : Procedure Unit := do
  let current ← query Data.organization
  if Billing.overridden sub (some current) then pure ()
  else do
    ask (.subscribe cfg sub current)
    ask .invalidate

/-! ## One call of each -/

abbrev Run := Config Data (Procedure Unit)

/-- Nothing is cached; number 0 is to work the entitlement out, number 1 to apply the subscription. -/
def start (cfg : BillingConfig) (sub : Subscription) (organization : Organization) (now : Time)
    (elapsed : ℕ → Time) : Run where
  shared := ⟨organization, none, now, elapsed, false, none⟩
  pc k :=
    if k = 0 then some loadEntitlement
    else if k = 1 then some (applySubscriptionState cfg sub)
    else none

/-- The call of the number takes its next step. -/
def step (c : Run) (k : ℕ) : Run :=
  c.move (fun none : Empty ↦ none.elim) (fun _ ↦ Proc.exec perform) (.advance k)

/-- The condition of a step, given by one on the statement it makes. -/
def AtStep (P : Data → Write → Prop) (c : Run) (k : ℕ) : Prop :=
  AtWrite P c (.advance k : Move Empty)

instance (P : Data → Write → Prop) [∀ s w, Decidable (P s w)] (c : Run) (k : ℕ) :
    Decidable (AtStep P c k) := inferInstanceAs (Decidable (AtWrite P c (.advance k : Move Empty)))

/-! ## The property and its condition -/

/-- What a call works out with nothing in between, while the clock stands still. -/
def fresh (now : Time) (organization : Organization) : Except Failure Entitlement :=
  (computeEntitlement.run perform ⟨organization, none, now, fun _ ↦ 0, false, none⟩).1

/-- What was worked out, and cached, is what follows from the row as it was by then. -/
structure Agrees (s : Data) : Prop where
  returned : ∀ a ∈ s.answer, fresh a.now a.organization = .ok a.entitlement
  cached : ∀ e ∈ s.cache, ∃ a ∈ s.answer, a.entitlement = e

/-- No subscription is applied between the reading of a row and what follows from it, unless the row
says `pro` and nothing else; and a grant that is retired leaves no grace period behind. -/
def Undisturbed (s : Data) : Write → Prop
  | .settle row => overrideLapsed (s.now + s.elapsed 0) row = false → s.applied = true →
      row.plan = .pro ∧ row.planGraceEndsAt = none
  | .conclude => s.applied = false ∧ s.organization.planGraceEndsAt = none
  | _ => True

instance (s : Data) (w : Write) : Decidable (Undisturbed s w) := by
  cases w with
  | settle row => exact inferInstanceAs (Decidable (_ → _ → _ ∧ _))
  | conclude => exact inferInstanceAs (Decidable (_ ∧ _))
  | _ => exact instDecidableTrue

theorem fresh_eq (now : Time) (organization : Organization) :
    fresh now organization =
      .ok (if overrideLapsed now organization then entitlement .launch none now
        else entitlement organization.plan organization.planGraceEndsAt now) := by
  unfold fresh computeEntitlement
  rw [run_bind, Service.bind_apply, run_issue]
  dsimp only [perform, Data.tick]
  rw [run_bind, Service.bind_apply, run_issue]
  dsimp only [perform, Data.tick, Data.settle]
  -- the row that was read is the row there is, and the clock has not moved
  by_cases hlapsed : overrideLapsed now organization = true
  · simp only [Nat.add_zero, hlapsed, if_true]
    rw [run_bind, Service.bind_apply]
    unfold expireAdminOverride
    rw [run_bind, Service.bind_apply, run_issue]
    dsimp only [perform, Data.tick, Data.expire]
    simp only [Nat.add_zero, hlapsed, if_true]
    rfl
  · simp only [Nat.add_zero, hlapsed, if_false, Bool.false_eq_true]
    rfl

/-! ## Where a call is -/

/-- The call that works the entitlement out has still to read the row, has read it, has found its
grant lapsed, has retired it, or has its answer; `outside` is any other call. -/
inductive Phase where
  | outside
  | ready
  | read (row : Organization)
  | lapsed (row : Organization)
  | retired
  | answered (entitlement : Entitlement)

def turn : Phase → (w : Write) → Reply w → Phase
  | .ready, .select, row => .read row
  | .read row, .settle _, none => .lapsed row
  | .read _, .settle _, some e => .answered e
  | .lapsed _, .expire, _ => .retired
  | .retired, .conclude, e => .answered e
  | phase, _, _ => phase

def Legal : Phase → Write → Prop
  | .outside, .subscribe _ sub _ => sub.plan = .pro
  | .outside, .invalidate => True
  | .ready, .getCached | .ready, .select => True
  | .read row, .settle row' => row' = row
  | .lapsed _, .expire => True
  | .retired, .audit | .retired, .conclude => True
  | .answered e, .setCached e' => e' = e
  | _, _ => False

theorem passes_computeEntitlement :
    Passes turn Legal (fun e t ↦ t = .answered e) (fun _ _ ↦ True) .ready computeEntitlement := by
  unfold computeEntitlement
  refine passes_issue_seq trivial fun row ↦ ?_
  show Passes turn Legal _ _ (.read row) _
  refine passes_issue_seq rfl fun settled ↦ ?_
  cases settled with
  | some e => exact passes_pure rfl
  | none =>
      have hretires : Passes turn Legal (fun _ t ↦ t = .retired) (fun _ _ ↦ True) (.lapsed row)
          expireAdminOverride := by
        unfold expireAdminOverride
        refine passes_issue_seq trivial fun hit ↦ ?_
        cases hit with
        | true => exact passes_issue_seq trivial fun _ ↦ passes_pure rfl
        | false => exact passes_pure rfl
      refine passes_seq hretires fun _ t ht ↦ ?_
      subst ht
      exact passes_issue_seq trivial fun e ↦ passes_pure rfl

theorem passes_loadEntitlement :
    Passes turn Legal (fun _ _ ↦ True) (fun _ _ ↦ True) .ready loadEntitlement := by
  unfold loadEntitlement
  refine passes_issue_seq trivial fun cached ↦ ?_
  cases cached with
  | some e => exact passes_pure trivial
  | none =>
      refine passes_seq passes_computeEntitlement fun e t ht ↦ ?_
      subst ht
      exact passes_issue_seq rfl fun _ ↦ passes_pure trivial

theorem passes_applySubscriptionState {cfg : BillingConfig} {sub : Subscription}
    (hsub : sub.plan = .pro) : Passes turn Legal (fun _ _ ↦ True) (fun _ _ ↦ True) .outside
      (applySubscriptionState cfg sub) := by
  unfold applySubscriptionState
  refine passes_query_seq fun s ↦ ?_
  split
  · exact passes_pure trivial
  · refine passes_issue_seq hsub fun _ ↦ ?_
    exact passes_issue_seq trivial fun _ ↦ passes_pure trivial

/-! ## The invariant -/

/-- What a paid subscription makes of the row. -/
structure Paying (row : Organization) : Prop where
  plan : row.plan = .pro
  graceEndsAt : row.planGraceEndsAt = none
  source : row.planSource = .stripe

/-- The row that was read is the row there is, or a subscription has been applied. -/
structure Since (s : Data) (row : Organization) : Prop where
  same : s.applied = false → s.organization = row
  paying : s.applied = true → Paying s.organization

def At (s : Data) : Phase → Prop
  | .outside => False
  | .ready => s.answer = none ∧ s.cache = none
  | .read row => s.answer = none ∧ s.cache = none ∧ Since s row
  | .lapsed row => s.answer = none ∧ s.cache = none ∧ Since s row ∧
      overrideLapsed s.now row = true
  | .retired => s.answer = none ∧ s.cache = none ∧ s.organization.planSource = .stripe ∧
      (s.applied = false → s.organization.plan = .launch) ∧
      (s.applied = true → Paying s.organization)
  | .answered e => ∃ a, s.answer = some a ∧ a.entitlement = e

structure Working (s : Data) (phase : ℕ → Phase) : Prop where
  others : ∀ k, k ≠ 0 → phase k = .outside
  own : At s (phase 0)

theorem paying_subscribed {cfg : BillingConfig} {sub : Subscription} (hsub : sub.plan = .pro)
    (current row : Organization) (now : Time) :
    Paying (subscribed cfg sub (some current) now row) := by
  have hdropping : droppingToLaunch sub (some current) = false := by
    simp [droppingToLaunch, hsub]
  refine ⟨hsub, ?_, rfl⟩
  show graceEndsAt cfg sub (some current) now = none
  simp [graceEndsAt, hdropping, hsub]

theorem Paying.not_lapsed {row : Organization} (h : Paying row) (now : Time) :
    overrideLapsed now row = false := by
  simp [overrideLapsed, h.source]

/-- What has lapsed stays so. -/
theorem overrideLapsed_later {now now' : Time} {row : Organization} (hnow : now ≤ now')
    (h : overrideLapsed now row = true) : overrideLapsed now' row = true := by
  unfold overrideLapsed at h ⊢
  cases hexpires : row.planOverrideExpiresAt with
  | none => simp [hexpires] at h
  | some expiresAt =>
      simp only [hexpires, Option.any_some, Bool.and_eq_true, decide_eq_true_eq] at h ⊢
      exact ⟨h.1, h.2.trans hnow⟩

theorem Paying.fresh {row : Organization} (h : Paying row) (now : Time) :
    fresh now row = .ok ⟨.pro, .pro, false, none⟩ := by
  rw [fresh_eq, h.not_lapsed now]
  simp [entitlement, h.plan, h.graceEndsAt]

section Steps

variable {s : Data} {phase : ℕ → Phase} {k : ℕ}

theorem Working.at_own (h : Working s phase) (hk : phase k ≠ .outside) :
    k = 0 ∧ At s (phase k) := by
  have hzero : k = 0 := by
    by_contra hne
    exact hk (h.others k hne)
  subst hzero
  exact ⟨rfl, h.own⟩

/-- The call's own step. -/
theorem Working.moved (h : Working s phase) {s' : Data} {t : Phase} (ht : At s' t) :
    Working s' (Function.update phase 0 t) := by
  constructor
  · intro j hj
    rw [Function.update_of_ne hj]
    exact h.others j hj
  · rw [Function.update_self]
    exact ht

/-- A step of another call. -/
theorem Working.disturbed (h : Working s phase) (hk : phase k = .outside) {s' : Data}
    (hat : ∀ t, At s t → At s' t) : Working s' (Function.update phase k .outside) := by
  have hne : k ≠ 0 := by
    rintro rfl
    have hown := h.own
    rw [hk] at hown
    exact hown
  rw [← hk, Function.update_eq_self]
  exact ⟨h.others, hat (phase 0) h.own⟩

theorem at_tick {t : Phase} (h : At s t) : At s.tick t := by
  cases t with
  | lapsed row =>
      obtain ⟨hanswer, hcache, hsince, hlapsed⟩ := h
      exact ⟨hanswer, hcache, ⟨hsince.same, hsince.paying⟩,
        overrideLapsed_later (Nat.le_add_right _ _) hlapsed⟩
  | read row =>
      obtain ⟨hanswer, hcache, hsince⟩ := h
      exact ⟨hanswer, hcache, hsince.same, hsince.paying⟩
  | _ => exact h

theorem at_subscribe {cfg : BillingConfig} {sub : Subscription} (hsub : sub.plan = .pro)
    {current : Organization} {t : Phase} (h : At s t) : At (s.subscribe cfg sub current) t := by
  have hpaying : Paying (s.subscribe cfg sub current).organization :=
    paying_subscribed hsub current s.organization s.now
  have happlied : (s.subscribe cfg sub current).applied = true := rfl
  cases t with
  | outside => exact h
  | ready => exact h
  | read row => exact ⟨h.1, h.2.1, nofun, fun _ ↦ hpaying⟩
  | lapsed row => exact ⟨h.1, h.2.1, ⟨nofun, fun _ ↦ hpaying⟩, h.2.2.2⟩
  | retired => exact ⟨h.1, h.2.1, hpaying.source, nofun, fun _ ↦ hpaying⟩
  | answered e => exact h

theorem at_invalidate {t : Phase} (h : At s t) : At { s with cache := none } t := by
  cases t with
  | outside => exact h
  | ready => exact ⟨h.1, rfl⟩
  | read row => exact ⟨h.1, rfl, h.2.2.same, h.2.2.paying⟩
  | lapsed row => exact ⟨h.1, rfl, ⟨h.2.2.1.same, h.2.2.1.paying⟩, h.2.2.2⟩
  | retired => exact ⟨h.1, rfl, h.2.2⟩
  | answered e => exact h

/-- A lapsed grant is retired, unless a subscription has been applied by then. -/
theorem at_expire {row : Organization} (h : At s (.lapsed row)) : At s.expire.2 .retired := by
  obtain ⟨hanswer, hcache, hsince, hlapsed⟩ := h
  unfold Data.expire
  cases happlied : s.applied with
  | false =>
      rw [hsince.same happlied, if_pos hlapsed]
      exact ⟨hanswer, hcache, rfl, fun _ ↦ rfl, nofun⟩
  | true =>
      have hpaying := hsince.paying happlied
      rw [if_neg (by rw [hpaying.not_lapsed]; exact Bool.false_ne_true)]
      refine ⟨hanswer, hcache, hpaying.source, fun h ↦ ?_, fun _ ↦ hpaying⟩
      rw [happlied] at h
      cases h

/-- Each statement keeps the invariant. -/
theorem Working.turns (h : Working s phase) {w : Write} (hlegal : Legal (phase k) w) :
    Turns perform turn Working phase k w s := by
  cases hk : phase k with
  | outside =>
      rw [hk] at hlegal
      unfold Turns
      rw [hk]
      cases w with
      | subscribe cfg sub current =>
          refine (Service.wp_write _).mpr ?_
          exact h.disturbed hk fun t ht ↦ at_subscribe hlegal (at_tick ht)
      | invalidate =>
          refine (Service.wp_write _).mpr ?_
          exact h.disturbed hk fun t ht ↦ at_invalidate (at_tick ht)
      | _ => exact hlegal.elim
  | ready =>
      obtain ⟨rfl, hat⟩ := h.at_own (k := k) (by rw [hk]; exact nofun)
      rw [hk] at hlegal hat
      unfold Turns Service.wp
      rw [hk]
      cases w with
      | getCached => exact h.moved (at_tick (t := .ready) hat)
      | select => exact h.moved (t := .read s.organization) ⟨hat.1, hat.2, fun _ ↦ rfl, nofun⟩
      | _ => exact hlegal.elim
  | read row =>
      obtain ⟨rfl, hat⟩ := h.at_own (k := k) (by rw [hk]; exact nofun)
      rw [hk] at hlegal hat
      unfold Turns Service.wp
      rw [hk]
      cases w with
      | settle row' =>
          obtain rfl : row' = row := hlegal
          obtain ⟨hanswer, hcache, hsince⟩ := at_tick (t := .read row') hat
          dsimp only [perform, Data.settle]
          split
          · rename_i hlapsed
            exact h.moved (t := .lapsed row') ⟨hanswer, hcache, hsince, hlapsed⟩
          · exact h.moved (t := .answered _) ⟨_, rfl, rfl⟩
      | _ => exact hlegal.elim
  | lapsed row =>
      obtain ⟨rfl, hat⟩ := h.at_own (k := k) (by rw [hk]; exact nofun)
      rw [hk] at hlegal hat
      unfold Turns Service.wp
      rw [hk]
      cases w with
      | expire => exact h.moved (t := .retired) (at_expire (at_tick hat))
      | _ => exact hlegal.elim
  | retired =>
      obtain ⟨rfl, hat⟩ := h.at_own (k := k) (by rw [hk]; exact nofun)
      rw [hk] at hlegal hat
      unfold Turns
      rw [hk]
      cases w with
      | audit =>
          refine (Service.wp_write _).mpr ?_
          exact h.moved (t := .retired) (at_tick (t := .retired) hat)
      | conclude =>
          unfold Service.wp
          exact h.moved (t := .answered _) ⟨_, rfl, rfl⟩
      | _ => exact hlegal.elim
  | answered e =>
      obtain ⟨rfl, hat⟩ := h.at_own (k := k) (by rw [hk]; exact nofun)
      rw [hk] at hlegal hat
      unfold Turns
      rw [hk]
      cases w with
      | setCached e' =>
          refine (Service.wp_write _).mpr ?_
          exact h.moved (t := .answered e) hat
      | _ => exact hlegal.elim

/-- What has just been worked out follows from the row exactly when nothing has disturbed it. -/
theorem agrees_settle {row : Organization} (h : At s (.read row)) :
    Agrees (s.settle row).2 ↔ (overrideLapsed s.now row = false → s.applied = true →
      row.plan = .pro ∧ row.planGraceEndsAt = none) := by
  obtain ⟨hanswer, hcache, hsince⟩ := h
  unfold Data.settle
  cases hlapsed : overrideLapsed s.now row with
  | true =>
      -- nothing is worked out yet
      refine ⟨fun _ h ↦ (by cases h), fun _ ↦ ⟨fun a ha ↦ ?_, fun e he ↦ ?_⟩⟩
      · rw [if_pos rfl, hanswer] at ha
        cases ha
      · rw [if_pos rfl, hcache] at he
        cases he
  | false =>
      rw [if_neg Bool.false_ne_true]
      have hiff : Agrees { s with
            answer := some ⟨entitlement row.plan row.planGraceEndsAt s.now, s.organization, s.now⟩ } ↔
          fresh s.now s.organization =
            .ok (entitlement row.plan row.planGraceEndsAt s.now) := by
        refine ⟨fun hagrees ↦ hagrees.returned _ rfl, fun hfresh ↦ ⟨fun a ha ↦ ?_, fun e he ↦ ?_⟩⟩
        · obtain rfl := Option.some.inj ha
          exact hfresh
        · rw [hcache] at he
          cases he
      refine hiff.trans ?_
      cases happlied : s.applied with
      | false =>
          rw [hsince.same happlied, fresh_eq, hlapsed]
          simp
      | true =>
          rw [(hsince.paying happlied).fresh]
          refine ⟨fun hsame _ _ ↦ ?_, fun hrow ↦ ?_⟩
          · have hparts := Except.ok.inj hsame
            simp only [entitlement, Entitlement.mk.injEq] at hparts
            exact ⟨hparts.1.symm, hparts.2.2.2.symm⟩
          · obtain ⟨hplan, hgrace⟩ := hrow rfl rfl
            simp [entitlement, hplan, hgrace]

theorem agrees_conclude (h : At s .retired) :
    Agrees s.conclude.2 ↔ s.applied = false ∧ s.organization.planGraceEndsAt = none := by
  obtain ⟨hanswer, hcache, hsource, hsame, hpaying⟩ := h
  have hiff : Agrees s.conclude.2 ↔
      fresh s.now s.organization = .ok (entitlement .launch none s.now) := by
    refine ⟨fun hagrees ↦ hagrees.returned _ rfl, fun hfresh ↦ ⟨fun a ha ↦ ?_, fun e he ↦ ?_⟩⟩
    · obtain rfl := Option.some.inj ha
      exact hfresh
    · have hnone : s.cache = some e := he
      rw [hcache] at hnone
      cases hnone
  refine hiff.trans ?_
  cases happlied : s.applied with
  | false =>
      have hlapsed : overrideLapsed s.now s.organization = false := by
        simp [overrideLapsed, hsource]
      rw [fresh_eq, hlapsed]
      simp only [Bool.false_eq_true, if_false, Except.ok.injEq, true_and]
      rw [hsame happlied]
      refine ⟨fun h ↦ ?_, fun h ↦ by rw [h]⟩
      exact congrArg Entitlement.graceEndsAt h
  | true =>
      rw [(hpaying happlied).fresh]
      simp [entitlement]

/-- A statement after which nothing new is worked out. -/
theorem Agrees.kept (h : Agrees s) {s' : Data} (hanswer : s'.answer = s.answer)
    (hcache : ∀ e ∈ s'.cache, e ∈ s.cache ∨ ∃ a ∈ s.answer, a.entitlement = e) : Agrees s' := by
  refine ⟨fun a ha ↦ h.returned a (hanswer ▸ ha), fun e he ↦ ?_⟩
  rw [hanswer]
  rcases hcache e he with hold | hnew
  · exact h.cached e hold
  · exact hnew

/-- At each statement the condition is what keeps the property. -/
theorem undisturbed_iff (h : Working s phase) (hagrees : Agrees s) {w : Write}
    (hlegal : Legal (phase k) w) :
    Undisturbed s w ↔ Agrees (Service.after (perform w) s) := by
  have hkept : ∀ {s' : Data}, s'.answer = s.answer →
      (∀ e ∈ s'.cache, e ∈ s.cache ∨ ∃ a ∈ s.answer, a.entitlement = e) →
      (True ↔ Agrees s') := fun hanswer hcache ↦ iff_of_true trivial (hagrees.kept hanswer hcache)
  cases w with
  | getCached => exact hkept rfl fun _ he ↦ .inl he
  | select => exact hkept rfl fun _ he ↦ .inl he
  | settle row =>
      cases hk : phase k with
      | read row' =>
          obtain ⟨-, hat⟩ := h.at_own (k := k) (by rw [hk]; exact nofun)
          rw [hk] at hlegal hat
          obtain rfl : row = row' := hlegal
          exact (agrees_settle (at_tick hat)).symm
      | _ =>
          rw [hk] at hlegal
          exact hlegal.elim
  | expire =>
      refine hkept ?_ fun e he ↦ .inl ?_
      · show s.tick.expire.2.answer = s.answer
        unfold Data.expire
        split <;> rfl
      · show e ∈ s.tick.cache
        have hsame : s.tick.expire.2.cache = s.tick.cache := by
          unfold Data.expire
          split <;> rfl
        rw [← hsame]
        exact he
  | audit => exact hkept rfl fun _ he ↦ .inl he
  | conclude =>
      cases hk : phase k with
      | retired =>
          obtain ⟨-, hat⟩ := h.at_own (k := k) (by rw [hk]; exact nofun)
          rw [hk] at hat
          exact (agrees_conclude (at_tick hat)).symm
      | _ =>
          rw [hk] at hlegal
          exact hlegal.elim
  | setCached e =>
      cases hk : phase k with
      | answered e' =>
          obtain ⟨-, hat⟩ := h.at_own (k := k) (by rw [hk]; exact nofun)
          rw [hk] at hlegal hat
          obtain rfl : e = e' := hlegal
          refine hkept rfl fun e' he' ↦ .inr ?_
          obtain rfl := Option.some.inj he'
          exact hat
      | _ =>
          rw [hk] at hlegal
          exact hlegal.elim
  | subscribe cfg sub current => exact hkept rfl fun _ he ↦ .inl he
  | invalidate => exact hkept rfl fun _ he ↦ by cases he

end Steps

/-! ## Whole runs -/

abbrev WorkingRun (c : Run) : Prop :=
  Phased turn Working Freely (fun t _ w ↦ Legal t w) (fun _ _ _ ↦ True) c

theorem WorkingRun.step {c : Run} (hc : WorkingRun c) (k : ℕ) : WorkingRun (step c k) := by
  refine Phased.move (P := fun _ _ ↦ True) freely_refl freely_trans (fun _ _ _ none ↦ none.elim) ?_
    hc fun _ _ ↦ trivial
  exact fun s phase k w h hlegal _ ↦ ⟨h.turns hlegal, trivial⟩

theorem workingRun_start {cfg : BillingConfig} {sub : Subscription} (hsub : sub.plan = .pro)
    (organization : Organization) (now : Time) (elapsed : ℕ → Time) :
    WorkingRun (start cfg sub organization now elapsed) := by
  refine ⟨fun k ↦ if k = 0 then .ready else .outside, ⟨fun k hk ↦ if_neg hk, rfl, rfl⟩,
    fun k p hp ↦ ?_⟩
  unfold start at hp
  dsimp only at hp ⊢
  split at hp
  · rename_i hk
    rw [if_pos hk, ← Option.some.inj hp]
    exact passes_loadEntitlement.follows _
  · rename_i hk
    rw [if_neg hk]
    split at hp
    · rw [← Option.some.inj hp]
      exact (passes_applySubscriptionState hsub).follows _
    · cases hp

theorem atStep_iff {c : Run} (hc : WorkingRun c) (hagrees : Agrees c.shared) (k : ℕ) :
    AtStep Undisturbed c k ↔ Agrees (step c k).shared := by
  rcases @move_cases _ _ _ _ _ perform Empty (fun none ↦ none.elim) c (.advance k) with
    ⟨hmoving, hshared⟩ | ⟨w, hmoving, hshared⟩
  · show (∀ w ∈ moving c (.advance k : Move Empty), _) ↔ Agrees (step c k).shared
    unfold step
    rw [hmoving, hshared]
    exact iff_of_true (fun _ hw ↦ (by cases hw)) hagrees
  · obtain ⟨phase, j, hworking, hlegal⟩ := Phased.legal hc (freely_refl _) hmoving
    show (∀ w ∈ moving c (.advance k : Move Empty), _) ↔ Agrees (step c k).shared
    unfold step
    rw [hmoving, hshared, ← undisturbed_iff hworking hagrees hlegal]
    exact ⟨fun h ↦ h w rfl, fun h w' hw' ↦ Option.some.inj hw' ▸ h⟩

/-- What the call works out is what follows from the row by then exactly when no step of the two
calls comes between. -/
theorem agrees_iff {cfg : BillingConfig} {sub : Subscription} (hsub : sub.plan = .pro)
    (organization : Organization) (now : Time) (elapsed : ℕ → Time) (ks : List ℕ) :
    Always step (fun c ↦ Agrees c.shared) (start cfg sub organization now elapsed) ks ↔
      Along step (AtStep Undisturbed) (start cfg sub organization now elapsed) ks := by
  have hstart : Agrees (start cfg sub organization now elapsed).shared :=
    ⟨fun _ ha ↦ (by cases ha), fun _ he ↦ (by cases he)⟩
  have hexact : Along step (AtStep Undisturbed) (start cfg sub organization now elapsed) ks ↔
      Along step (fun c k ↦ Agrees (step c k).shared)
        (start cfg sub organization now elapsed) ks := by
    apply Along.congr_of_invariant (I := fun c : Run ↦ WorkingRun c ∧ Agrees c.shared)
    · exact fun c k hc ↦ atStep_iff hc.1 hc.2 k
    · exact fun c k hc hagrees ↦ ⟨hc.1.step k, hagrees⟩
    · exact ⟨workingRun_start hsub organization now elapsed, hstart⟩
  rw [always_iff_along, hexact]
  exact ⟨fun h ↦ h.2, fun h ↦ ⟨hstart, h⟩⟩

/-! ## A grant that has lapsed -/

section Example

theorem Agrees.entitlement_eq {s : Data} (h : Agrees s) : ∀ a ∈ s.answer, a.entitlement =
    if overrideLapsed a.now a.organization then entitlement .launch none a.now
    else entitlement a.organization.plan a.organization.planGraceEndsAt a.now := by
  intro a ha
  have hfresh := h.returned a ha
  rw [fresh_eq] at hfresh
  exact (Except.ok.inj hfresh).symm

def granted (graceEndsAt : Option Time) : Organization where
  id := 1
  plan := .pro
  planSource := .admin
  planOverrideBy := some "operator"
  planOverrideAt := some 0
  planOverrideReason := none
  planOverrideExpiresAt := some 5
  billingInterval := none
  billingCurrency := none
  stripeCustomerId := none
  stripeSubscriptionId := none
  subscriptionStatus := none
  currentPeriodEnd := none
  cancelAtPeriodEnd := false
  planGraceEndsAt := graceEndsAt
  paymentFailedAt := none
  graceLockedNotifiedAt := none
  updatedAt := 0

def noPrices : BillingConfig := ⟨none, none, none, none, 30⟩

def paidSubscription : Subscription :=
  ⟨"sub_1", some (.canonical 1), "cus_1", .active, "price_1", some "usd", none, false⟩

def startGranted (graceEndsAt : Option Time) : Run :=
  start noPrices paidSubscription (granted graceEndsAt) 10 fun _ ↦ 0

/-- The entitlement first, and then the subscription. -/
def inTurn : List ℕ := List.replicate 9 0 ++ List.replicate 4 1

/-- The subscription is applied once the grant has been found lapsed. -/
def subscribedMeanwhile : List ℕ := List.replicate 3 0 ++ List.replicate 4 1 ++ List.replicate 6 0

theorem agrees_inTurn :
    (inTurn.foldl step (startGranted none)).shared.answer.isSome = true ∧
      Always step (fun c ↦ Agrees c.shared) (startGranted none) inTurn :=
  ⟨by decide +kernel, (@agrees_iff noPrices paidSubscription rfl (granted none) 10
    (fun _ ↦ 0) inTurn).mpr (by decide +kernel)⟩

/-- A deadline that was left in the row opens a grace period; and a workspace that has just
subscribed is cached as `launch`. -/
theorem not_agrees_lapsed :
    ¬ Agrees (inTurn.foldl step (startGranted (some 20))).shared ∧
      ¬ Agrees (subscribedMeanwhile.foldl step (startGranted none)).shared :=
  ⟨fun h ↦ absurd h.entitlement_eq (by decide +kernel),
    fun h ↦ absurd h.entitlement_eq (by decide +kernel)⟩

end Example

end Tesbo.Billing.Entitlements
