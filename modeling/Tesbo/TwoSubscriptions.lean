import Tesbo.Redelivery

/-!
# A workspace with two subscriptions

The row of a workspace says what the event handled last says of its own subscription, whichever that
is.  One that has ended takes the plan of one that is paid for, when its event comes last; the check of
the billing page then looks at neither.
-/

namespace Tesbo.Billing

open Reasoning Service

/-! ## Deliveries in a row -/

/-- The events go through one after the other, at times of their own. -/
def Processed (cfg : BillingConfig) : Shared → List Event → Shared → Prop
  | s, [], s' => s'.organizations = s.organizations
  | s, e :: es, s' => ∃ now outcomes s₁,
      handleWebhookEvent cfg e (s.again now outcomes) = (.ok (), s₁) ∧ Processed cfg s₁ es s'

/-- The events that are not passed over: each when it comes for the first time. -/
def firstDeliveries : List String → List Event → List Event
  | _, [] => []
  | known, e :: es =>
      if e.id ∈ known then firstDeliveries known es else e :: firstDeliveries (e.id :: known) es

/-- An event about a subscription of the workspace. -/
structure Carries (organizationId : Uuid) (sub : Subscription) (e : Event) : Prop where
  payload : e.payload = .subscription sub
  organizationId : sub.organizationId.bind IdText.uuid = some organizationId

/-- An event that carries an ended state of one subscription, or an active state of the other. -/
def AboutTwo (organizationId : Uuid) (ended live : String) (e : Event) : Prop :=
  ∃ sub, Carries organizationId sub e ∧
    ((sub.id = ended ∧ sub.status.ended = true) ∨ (sub.id = live ∧ sub.status = .active))

theorem mem_of_mem_firstDeliveries {known : List String} {es : List Event} {e : Event}
    (h : e ∈ firstDeliveries known es) : e ∈ es := by
  induction es generalizing known with
  | nil => cases h
  | cons e' es ih =>
      unfold firstDeliveries at h
      split at h
      · exact List.mem_cons_of_mem e' (ih h)
      · rcases List.mem_cons.mp h with rfl | h
        · exact List.mem_cons_self
        · exact List.mem_cons_of_mem e' (ih h)

def Event.subscriptionId (e : Event) : Option String :=
  match e.payload with
  | .subscription sub => some sub.id
  | _ => none

/-- What the row says of the plan. -/
structure Says (organizationId : Uuid) (plan : Knowledge.Plan) (subscriptionId : String)
    (organizations : Table Organization.id) : Prop where
  plan : ∀ o ∈ organizations, o.id = organizationId → o.plan = plan
  subscriptionId : ∀ o ∈ organizations, o.id = organizationId →
    o.stripeSubscriptionId = some subscriptionId

section Rows

variable {cfg : BillingConfig} {s : Shared} {organizationId : Uuid}

/-- The workspace has a row, and Stripe has the say in its plan. -/
def StripeOwned (organizationId : Uuid) (organizations : Table Organization.id) : Prop :=
  ∃ o ∈ organizations, o.id = organizationId ∧ o.planSource = .stripe

/-- With Stripe as the authority, a subscription is written to the row whatever it says. -/
theorem asked_subscription {sub : Subscription} {now : Time}
    {organizations : Table Organization.id}
    (horganization : sub.organizationId.bind IdText.uuid = some organizationId)
    (hs : StripeOwned organizationId organizations) :
    ∃ current, current ∈ organizations ∧ current.id = organizationId ∧
      Table.UpdatedRows organizations (asked cfg (.subscription sub) now organizations)
        (fun o ↦ o.id = organizationId) (subscribed cfg sub (some current) now) := by
  obtain ⟨current, hcurrent, hid, hsource⟩ := hs
  obtain ⟨text, htext, huuid⟩ := Option.bind_eq_some_iff.mp horganization
  have hfind : organizations.find organizationId = some current :=
    Table.find_eq_some.mpr ⟨hcurrent, hid⟩
  have hover : overridden sub (some current) = false := by
    unfold overridden
    rw [Option.any_some, hsource]
    rfl
  refine ⟨current, hcurrent, hid, ?_⟩
  have hasked : asked cfg (.subscription sub) now organizations =
      organizations.updateWhere (fun o ↦ o.id = organizationId)
        (subscribed cfg sub (some current) now) fun _ ↦ rfl := by
    simp only [asked, htext, huuid, Option.bind_some, hfind, hover, setRow]
    rfl
  rw [hasked]
  exact rfl

/-- What an event about the workspace leaves in its row. -/
theorem says_of_asked {sub : Subscription} {now : Time} {organizations : Table Organization.id}
    (horganization : sub.organizationId.bind IdText.uuid = some organizationId)
    (hs : StripeOwned organizationId organizations) :
    StripeOwned organizationId (asked cfg (.subscription sub) now organizations) ∧
      Says organizationId sub.plan sub.id (asked cfg (.subscription sub) now organizations) := by
  obtain ⟨current, hcurrent, hid, hrows⟩ := asked_subscription horganization hs
  have hwritten : ∀ o ∈ asked cfg (.subscription sub) now organizations, o.id = organizationId →
      ∃ r, subscribed cfg sub (some current) now r = o := by
    intro o ho horganization
    rcases hrows.mem_iff.mp ho with ⟨-, hne⟩ | ⟨r, -, -, hr⟩
    · exact absurd horganization (of_decide_eq_false hne)
    · exact ⟨r, hr⟩
  refine ⟨?_, ⟨fun o ho h ↦ ?_, fun o ho h ↦ ?_⟩⟩
  · refine ⟨subscribed cfg sub (some current) now current, hrows.mem_iff.mpr (.inr ?_), hid, rfl⟩
    exact ⟨current, hcurrent, decide_eq_true hid, rfl⟩
  · obtain ⟨r, rfl⟩ := hwritten o ho h
    rfl
  · obtain ⟨r, rfl⟩ := hwritten o ho h
    rfl

end Rows

/-! ## Runs -/

section Runs

variable {cfg : BillingConfig} {organizationId : Uuid} {ended live : String}

/-- After the deliveries the row says what the last event says that was not passed over. -/
theorem says_of_processed {s s' : Shared} {es : List Event}
    (hs : StripeOwned organizationId s.organizations)
    (hes : ∀ e ∈ es, AboutTwo organizationId ended live e) (h : Processed cfg s es s') :
    StripeOwned organizationId s'.organizations ∧
      (firstDeliveries s.events es = [] → s'.organizations = s.organizations) ∧
      ∀ e ∈ (firstDeliveries s.events es).getLast?, ∃ sub, Carries organizationId sub e ∧
        Says organizationId sub.plan sub.id s'.organizations := by
  induction es generalizing s with
  | nil =>
      have hrows : s'.organizations = s.organizations := h
      refine ⟨hrows ▸ hs, fun _ ↦ hrows, fun e he ↦ ?_⟩
      cases he
  | cons e es ih =>
      obtain ⟨now, outcomes, s₁, hstep, hrest⟩ := h
      have hes' : ∀ e ∈ es, AboutTwo organizationId ended live e :=
        fun e' he' ↦ hes e' (List.mem_cons_of_mem e he')
      unfold firstDeliveries
      by_cases hknown : e.id ∈ s.events
      · have hsame := (of_wp (@handleWebhookEvent_recorded cfg e (s.again now outcomes) hknown)).1
          () s₁ hstep
        have hrows : s₁.organizations = s.organizations := hsame.organizations
        have hevents : s₁.events = s.events := hsame.events
        have hlater := ih (hrows ▸ hs) hes' hrest
        rw [hevents, hrows] at hlater
        rw [if_pos hknown]
        exact hlater
      · obtain ⟨hevents, hrows⟩ := (of_wp (@handleWebhookEvent_new cfg e (s.again now outcomes)
          hknown)).1 () s₁ hstep
        have hevents : s₁.events = e.id :: s.events := hevents
        have hrows : s₁.organizations = asked cfg e.payload now s.organizations := hrows
        obtain ⟨sub, hcarries, -⟩ := hes e List.mem_cons_self
        rw [hcarries.payload] at hrows
        obtain ⟨howned, hstated⟩ :=
          @says_of_asked cfg organizationId sub now s.organizations hcarries.organizationId hs
        rw [← hrows] at howned hstated
        obtain ⟨howned', hnone, hlast⟩ := ih howned hes' hrest
        rw [hevents] at hnone hlast
        rw [if_neg hknown]
        refine ⟨howned', fun h ↦ (by cases h), fun e' he' ↦ ?_⟩
        cases hfirst : firstDeliveries (e.id :: s.events) es with
        | nil =>
            rw [hfirst] at he'
            obtain rfl := Option.some.inj he'
            exact ⟨sub, hcarries, hnone hfirst ▸ hstated⟩
        | cons e₁ rest =>
            rw [hfirst, List.getLast?_cons_cons] at he'
            exact hlast e' (hfirst ▸ he')

/-- Where all events go through, and one of the live subscription is among those that are not passed
over, the workspace is left with the plan of the live subscription exactly when the last of them is
about it. -/
theorem says_live_iff {s s' : Shared} {es : List Event} (hne : ended ≠ live)
    (hs : StripeOwned organizationId s.organizations)
    (hes : ∀ e ∈ es, AboutTwo organizationId ended live e)
    (hlive : ∃ e ∈ firstDeliveries s.events es, e.subscriptionId = some live)
    (h : Processed cfg s es s') :
    Says organizationId .pro live s'.organizations ↔
      ∃ e ∈ (firstDeliveries s.events es).getLast?, e.subscriptionId = some live := by
  obtain ⟨⟨o, ho, hid, -⟩, -, hlast⟩ := says_of_processed hs hes h
  obtain ⟨e, he, -⟩ := hlive
  obtain ⟨e, hlaste⟩ : ∃ e, (firstDeliveries s.events es).getLast? = some e :=
    Option.isSome_iff_exists.mp (List.getLast?_isSome.mpr (List.ne_nil_of_mem he))
  obtain ⟨sub, hcarries, hstated⟩ := hlast e hlaste
  have hsub : e.subscriptionId = some sub.id := by
    unfold Event.subscriptionId
    rw [hcarries.payload]
  constructor
  · intro hpro
    refine ⟨e, hlaste, ?_⟩
    have hlivesub := hpro.subscriptionId o ho hid
    rw [hstated.subscriptionId o ho hid] at hlivesub
    rw [hsub, hlivesub]
  · rintro ⟨e', he', hsub'⟩
    obtain rfl : e = e' := Option.some.inj (hlaste.symm.trans he')
    have hid' : sub.id = live := Option.some.inj (hsub.symm.trans hsub')
    have hmem : e ∈ es := mem_of_mem_firstDeliveries (List.mem_of_getLast? hlaste)
    obtain ⟨sub', hcarries', habout⟩ := hes e hmem
    have hsame : sub' = sub := Payload.subscription.inj (hcarries'.payload.symm.trans hcarries.payload)
    subst hsame
    have hplan : sub'.plan = .pro := by
      rcases habout with ⟨hended, -⟩ | ⟨-, hactive⟩
      · exact absurd (hended.symm.trans hid') hne
      · unfold Subscription.plan
        rw [hactive]
        rfl
    rw [hplan, hid'] at hstated
    exact hstated

end Runs

/-! ## The billing page afterwards -/

/-- A workspace that was left without the plan, with the id of the subscription that took it, is not
looked into: the id says that its plan has been decided. -/
theorem reconcileDriftedPlan_of_launch {cfg : BillingConfig} {s : Shared} {organizationId : Uuid}
    {o : Organization} (ho : s.organizations.find organizationId = some o) (hplan : o.plan = .launch)
    (hsub : o.stripeSubscriptionId.isSome = true) :
    wp (reconcileDriftedPlan cfg organizationId) (fun _ s' ↦ SameRows s s')
      (fun _ s' ↦ SameRows s s') s := by
  unfold reconcileDriftedPlan
  refine (wp_bind _ _).mpr (wp_mono selectOrganization_spec ?_ ?_)
  · rintro current s₁ ⟨rfl, -, hcurrent⟩
    have hfound : current = some o := hcurrent.trans ho
    subst hfound
    obtain ⟨subscriptionId, hsubscription⟩ := Option.isSome_iff_exists.mp hsub
    dsimp only
    rw [hplan, hsubscription]
    split
    · exact (wp_pure ()).mpr (.next s)
    · exact (wp_pure ()).mpr (.next s)
  · rintro e s₁ ⟨rfl, -⟩
    exact .next s

/-- A subscription that has ended keeps a plan only until its event comes: where the event of an ended
subscription is the last, the workspace has lost the plan of the other, and its billing page does not
give it back. -/
theorem not_restored_of_ended {cfg : BillingConfig} {s s' : Shared} {es : List Event}
    {organizationId : Uuid} {ended live : String} (hs : StripeOwned organizationId s.organizations)
    (hes : ∀ e ∈ es, AboutTwo organizationId ended live e) (h : Processed cfg s es s')
    {e : Event} {sub : Subscription} (he : (firstDeliveries s.events es).getLast? = some e)
    (hsub : e.payload = .subscription sub) (hended : sub.status.ended = true) :
    Says organizationId .launch sub.id
      (after (reconcileDriftedPlan cfg organizationId) s').organizations := by
  obtain ⟨⟨o, ho, hid, -⟩, -, hlast⟩ := says_of_processed hs hes h
  obtain ⟨sub', hcarries, hstated⟩ := hlast e he
  obtain rfl : sub' = sub := Payload.subscription.inj (hcarries.payload.symm.trans hsub)
  have hplan : sub'.plan = .launch := by
    unfold Subscription.plan
    rw [if_pos hended]
  rw [hplan] at hstated
  -- on Launch with an id there is nothing for the check to do
  have hsubscription : o.stripeSubscriptionId.isSome = true := by
    rw [hstated.subscriptionId o ho hid]
    rfl
  have hsame : SameRows s' (after (reconcileDriftedPlan cfg organizationId) s') :=
    after_of_wp (reconcileDriftedPlan_of_launch (Table.find_eq_some.mpr ⟨ho, hid⟩)
      (hstated.plan o ho hid) hsubscription)
  rw [hsame.organizations]
  exact hstated

/-! ## Two orders of the same two events -/

def cancellation : Event :=
  ⟨"evt_2", .subscription { activeSubscription with id := "sub_0", status := .canceled }⟩

theorem aboutTwo_orders : ∀ e ∈ [activation, cancellation], AboutTwo 10 "sub_0" "sub_1" e := by
  intro e he
  rcases List.mem_cons.mp he with rfl | he
  · exact ⟨activeSubscription, ⟨rfl, rfl⟩, .inr ⟨rfl, rfl⟩⟩
  · rw [List.mem_singleton.mp he]
    exact ⟨_, ⟨rfl, rfl⟩, .inl ⟨rfl, rfl⟩⟩

def deliver (s : Shared) (e : Event) : Shared :=
  after (handleWebhookEvent euroless e) (s.again 2000 fun _ ↦ true)

/-- The new subscription becomes active, then the end of the old one is told. -/
theorem not_says_live_cancelled :
    Processed euroless (launched fun _ ↦ true) [activation, cancellation]
        (deliver (deliver (launched fun _ ↦ true) activation) cancellation) ∧
      ¬ Says 10 .pro "sub_1"
        (deliver (deliver (launched fun _ ↦ true) activation) cancellation).organizations := by
  refine ⟨⟨2000, fun _ ↦ true, _, rfl, 2000, fun _ ↦ true, _, rfl, rfl⟩, fun h ↦ ?_⟩
  have hplan := h.plan
  revert hplan
  decide +kernel

/-- The billing page leaves it at that. -/
theorem not_restored_cancelled : Says 10 .launch "sub_0" (after (reconcileDriftedPlan euroless 10)
    (deliver (deliver (launched fun _ ↦ true) activation) cancellation)).organizations :=
  @not_restored_of_ended euroless (launched fun _ ↦ true) _ [activation, cancellation] 10 "sub_0"
    "sub_1" ⟨_, List.mem_cons_self, rfl, rfl⟩ aboutTwo_orders
    ⟨2000, fun _ ↦ true, _, rfl, 2000, fun _ ↦ true, _, rfl, rfl⟩ cancellation
    { activeSubscription with id := "sub_0", status := .canceled } (by decide +kernel) rfl rfl

/-- The other way round the plan stays. -/
theorem says_live_activated :
    Says 10 .pro "sub_1"
      (deliver (deliver (launched fun _ ↦ true) cancellation) activation).organizations :=
  (@says_live_iff euroless 10 "sub_0" "sub_1" (launched fun _ ↦ true) _ [cancellation, activation]
    (by decide) ⟨_, List.mem_cons_self, rfl, rfl⟩
    (fun e he ↦ aboutTwo_orders e (by
      rcases List.mem_cons.mp he with rfl | he
      · exact List.mem_cons_of_mem _ List.mem_cons_self
      · exact List.mem_singleton.mp he ▸ List.mem_cons_self))
    ⟨activation, by decide +kernel, by decide⟩
    ⟨2000, fun _ ↦ true, _, rfl, 2000, fun _ ↦ true, _, rfl, rfl⟩).mpr
    ⟨activation, by decide +kernel, by decide⟩

end Tesbo.Billing
