import Tesbo.KnowledgeBase

/-!
# Billing

What Stripe tells about the subscription of a workspace, and what becomes of the workspace's row.
Each statement and each request may fail, and what came before it stays.  The wording of the history
and of the e-mails is left out.
-/

namespace Tesbo.Billing

open Reasoning Service

/-! ## Rows and events -/

inductive PlanSource where
  | stripe
  | admin
deriving DecidableEq, Repr

inductive BillingInterval where
  | monthly
  | annual
deriving DecidableEq, Repr

inductive Currency where
  | usd
  | inr
deriving DecidableEq, Repr

inductive SubscriptionStatus where
  | incomplete
  | incompleteExpired
  | trialing
  | active
  | pastDue
  | canceled
  | unpaid
  | paused
deriving DecidableEq, Repr

/-- `ENDED_SUBSCRIPTION_STATUSES` -/
def SubscriptionStatus.ended : SubscriptionStatus → Bool
  | canceled | unpaid | incompleteExpired => true
  | _ => false

/-- `LIVE_SUBSCRIPTION_STATUSES` -/
def SubscriptionStatus.live : SubscriptionStatus → Bool
  | active | trialing | pastDue | unpaid | incomplete => true
  | _ => false

/-- The columns of `organizations` that Stripe has a say in. -/
structure Organization where
  id : Uuid
  plan : Knowledge.Plan
  planSource : PlanSource
  planOverrideBy : Option String
  planOverrideAt : Option Time
  planOverrideReason : Option String
  planOverrideExpiresAt : Option Time
  billingInterval : Option BillingInterval
  billingCurrency : Option Currency
  stripeCustomerId : Option String
  stripeSubscriptionId : Option String
  subscriptionStatus : Option SubscriptionStatus
  currentPeriodEnd : Option Time
  cancelAtPeriodEnd : Bool
  planGraceEndsAt : Option Time
  paymentFailedAt : Option Time
  graceLockedNotifiedAt : Option Time
  updatedAt : Time
deriving DecidableEq

/-- A subscription as Stripe sends it: its workspace is in its metadata, its price, currency and
period (in seconds) are those of its first item. -/
structure Subscription where
  id : String
  organizationId : Option IdText
  customer : String
  status : SubscriptionStatus
  priceId : String
  currency : Option String
  periodEndSeconds : Option ℕ
  cancelAtPeriodEnd : Bool
deriving DecidableEq

structure Invoice where
  organizationId : Option IdText
  customer : Option String
deriving DecidableEq

inductive Payload where
  | checkoutSessionCompleted (organizationId : Option IdText) (subscriptionId : Option String)
  /-- `customer.subscription.created`, `.updated` and `.deleted` -/
  | subscription (subscription : Subscription)
  | invoicePaymentFailed (invoice : Invoice)
  | invoicePaid (invoice : Invoice)
  | other
deriving DecidableEq

structure Event where
  id : String
  payload : Payload
deriving DecidableEq

structure BillingConfig where
  stripePriceIdProMonthly : Option String
  stripePriceIdProMonthlyInr : Option String
  stripePriceIdProAnnual : Option String
  stripePriceIdProAnnualInr : Option String
  planGraceDays : ℤ

/-- `events` are the ids in `stripe_webhook_events`, `subscriptions` are those Stripe has.
`outcomes` says which of the calls to come go through. -/
structure Shared where
  organizations : Table Organization.id
  events : List String
  hasOwner : Uuid → Bool
  subscriptions : List Subscription
  now : Time
  outcomes : ℕ → Bool

abbrev Handler (α : Type) := Service Failure Shared α

/-! ## Calls -/

def Shared.next (s : Shared) : Shared := { s with outcomes := fun n ↦ s.outcomes (n + 1) }

def unavailable : Failure := .sqlState "08006" ""

/-- A statement or a request, which may fail before it does anything. -/
def attempt {α : Type} (m : Handler α) : Handler α := fun s ↦
  if s.outcomes 0 then m s.next else (.error unavailable, s.next)

/-- A request whose answer nothing depends on. -/
def request : Handler Unit := attempt (pure ())

def requestIf (p : Prop) [Decidable p] : Handler Unit := if p then request else pure ()

/-- `INSERT … ON CONFLICT DO NOTHING RETURNING id` -/
def recordEvent (e : Event) : Handler Bool := attempt <| returning fun s ↦
  .ok (if e.id ∈ s.events then (false, s) else (true, { s with events := e.id :: s.events }))

def selectOrganization (organizationId : IdText) : Handler (Option Organization) := attempt do
  let id ← ofExcept (readUuid organizationId)
  query fun s ↦ s.organizations.find id

/-- `UPDATE organizations … WHERE id` -/
def updateOrganization (organizationId : IdText) (f : Time → Organization → Organization)
    (hf : ∀ now o, (f now o).id = o.id) : Handler Unit := attempt do
  let id ← ofExcept (readUuid organizationId)
  write fun s ↦ { s with
    organizations := s.organizations.updateWhere (fun o ↦ o.id = id) (f s.now) (hf s.now) }

/-! ## What becomes of a row -/

/-- Stripe is the authority on the plan. -/
def Organization.standDown (o : Organization) (now : Time) : Organization :=
  { o with
    planSource := .stripe, planOverrideBy := none, planOverrideAt := none,
    planOverrideReason := none, planOverrideExpiresAt := none, updatedAt := now }

def checkedOut (subscriptionId : String) (now : Time) (o : Organization) : Organization :=
  { o with plan := .pro, stripeSubscriptionId := some subscriptionId }.standDown now

/-- No other text has these two as its `toLowerCase`. -/
def asCurrency (value : Option String) : Option Currency :=
  let v := String.ofList ((jsTrim (value.getD "")).toList.map Char.toLower)
  if v = "usd" then some .usd else if v = "inr" then some .inr else none

def BillingConfig.billingInterval (cfg : BillingConfig) (priceId : String) :
    Option BillingInterval :=
  if some priceId ∈ [cfg.stripePriceIdProMonthly, cfg.stripePriceIdProMonthlyInr]
  then some .monthly
  else if some priceId ∈ [cfg.stripePriceIdProAnnual, cfg.stripePriceIdProAnnualInr]
  then some .annual
  else none

def Subscription.plan (sub : Subscription) : Knowledge.Plan :=
  if sub.status.ended then .launch else .pro

def Subscription.periodEnd (sub : Subscription) : Option Time :=
  sub.periodEndSeconds.bind fun seconds ↦ if seconds = 0 then none else some (seconds * 1000)

def wasPro (current : Option Organization) : Bool := current.any fun o ↦ o.plan = .pro

def droppingToLaunch (sub : Subscription) (current : Option Organization) : Bool :=
  wasPro current && sub.plan = .launch

def graceEndsAt (cfg : BillingConfig) (sub : Subscription) (current : Option Organization)
    (now : Time) : Option Time :=
  let held := current.bind Organization.planGraceEndsAt
  if droppingToLaunch sub current then
    some (held.getD (now + (max 0 cfg.planGraceDays).toNat * 24 * 60 * 60 * 1000))
  else if sub.plan = .pro then none
  else held

/-- The row after the state of a subscription is applied; `current` is the row as it was read. -/
def subscribed (cfg : BillingConfig) (sub : Subscription) (current : Option Organization)
    (now : Time) (o : Organization) : Organization :=
  { o with
    plan := sub.plan
    billingInterval := (cfg.billingInterval sub.priceId).or o.billingInterval
    stripeSubscriptionId := some sub.id
    subscriptionStatus := some sub.status
    currentPeriodEnd := sub.periodEnd
    cancelAtPeriodEnd := sub.cancelAtPeriodEnd
    billingCurrency := (asCurrency sub.currency).or o.billingCurrency
    planGraceEndsAt := graceEndsAt cfg sub current now
    paymentFailedAt :=
      if sub.plan = Knowledge.Plan.pro then none else current.bind Organization.paymentFailedAt
    graceLockedNotifiedAt :=
      if sub.plan = Knowledge.Plan.pro then none
      else current.bind Organization.graceLockedNotifiedAt
  }.standDown now

def paymentFailed (now : Time) (o : Organization) : Organization :=
  { o with paymentFailedAt := o.paymentFailedAt.or (some now), updatedAt := now }

def paymentSucceeded (now : Time) (o : Organization) : Organization :=
  { o with paymentFailedAt := none, updatedAt := now }

/-! ## The handlers -/

/-- A plan set by hand is not taken away by a subscription that has ended. -/
def overridden (sub : Subscription) (current : Option Organization) : Bool :=
  (current.any fun o ↦ o.planSource = .admin) && sub.status.ended

/-- The mail to the owner, where there is one. -/
def mailOwner (organizationId : IdText) : Handler Unit := do
  let owner ← attempt (query fun s ↦ organizationId.uuid.any s.hasOwner)
  requestIf (owner = true)

/-- The history: an upgrade or a downgrade, a cancellation that is scheduled or taken back; and the
e-mail about a lost plan. -/
def announce (sub : Subscription) (current : Option Organization) (organizationId : IdText) :
    Handler Unit := do
  requestIf ((wasPro current = false ∧ sub.plan = .pro) ∨ droppingToLaunch sub current = true)
  requestIf (sub.plan = .pro ∧ sub.cancelAtPeriodEnd ≠ current.any Organization.cancelAtPeriodEnd)
  if droppingToLaunch sub current then mailOwner organizationId else pure ()

def applySubscriptionState (cfg : BillingConfig) (sub : Subscription) : Handler Unit :=
  match sub.organizationId with
  | none => pure ()
  | some organizationId => do
      let current ← selectOrganization organizationId
      if overridden sub current then pure ()
      else do
        updateOrganization organizationId (subscribed cfg sub current) fun _ _ ↦ rfl
        request
        announce sub current organizationId

def handleCheckout (organizationId : IdText) (subscriptionId : String) : Handler Unit := do
  let before ← selectOrganization organizationId
  updateOrganization organizationId (checkedOut subscriptionId) fun _ _ ↦ rfl
  request
  requestIf (wasPro before = false)

def organizationIdForInvoice (invoice : Invoice) : Handler (Option IdText) :=
  match invoice.organizationId, invoice.customer with
  | some organizationId, _ => pure (some organizationId)
  | none, none => pure none
  | none, some customer => attempt <| query fun s ↦
      (s.organizations.rows.find? fun o ↦ o.stripeCustomerId = some customer).map fun o ↦
        .canonical o.id

def handleInvoicePaymentFailed (invoice : Invoice) : Handler Unit := do
  let organizationId ← organizationIdForInvoice invoice
  match organizationId with
  | none => pure ()
  | some organizationId => do
      -- the failure time that is returned is the one before the update
      let alreadyNotified ← query fun s ↦
        (organizationId.uuid.bind s.organizations.find).any fun o ↦ o.paymentFailedAt.isSome
      updateOrganization organizationId paymentFailed fun _ _ ↦ rfl
      if alreadyNotified then pure ()
      else do
        request
        mailOwner organizationId

def handleInvoicePaid (invoice : Invoice) : Handler Unit := do
  let organizationId ← organizationIdForInvoice invoice
  match organizationId with
  | none => pure ()
  | some organizationId => do
      updateOrganization organizationId paymentSucceeded fun _ _ ↦ rfl
      request
      mailOwner organizationId

def applyEvent (cfg : BillingConfig) : Payload → Handler Unit
  | .checkoutSessionCompleted (some organizationId) (some subscriptionId) =>
      handleCheckout organizationId subscriptionId
  | .checkoutSessionCompleted _ _ => pure ()
  | .subscription sub => applySubscriptionState cfg sub
  | .invoicePaymentFailed invoice => handleInvoicePaymentFailed invoice
  | .invoicePaid invoice => handleInvoicePaid invoice
  | .other => pure ()

def handleWebhookEvent (cfg : BillingConfig) (e : Event) : Handler Unit := do
  let inserted ← recordEvent e
  if inserted then applyEvent cfg e.payload

/-! ## The drift check of the billing page -/

/-- Whatever fails is logged. -/
def swallow (m : Handler Unit) : Handler Unit := fun s ↦ (.ok (), after m s)

/-- Without a workspace in its metadata, a subscription is the one's that asks. -/
def Subscription.orFor (sub : Subscription) (organizationId : IdText) : Subscription :=
  { sub with organizationId := sub.organizationId.or (some organizationId) }

def retrieveSubscription (id : String) : Handler Subscription :=
  attempt <| check fun s ↦
    (s.subscriptions.find? fun sub ↦ sub.id = id).elim (.error unavailable) .ok

def reconcileDriftedPlan (cfg : BillingConfig) (organizationId : Uuid) : Handler Unit := do
  let row ← selectOrganization (.canonical organizationId)
  match row with
  | none => pure ()
  | some row =>
      if row.planSource = .admin then pure ()
      else match row.plan, row.stripeSubscriptionId, row.stripeCustomerId with
        | .pro, some subscriptionId, _ => swallow do
            let sub ← retrieveSubscription subscriptionId
            if sub.status.ended then
              applySubscriptionState cfg (sub.orFor (.canonical organizationId))
        | .launch, none, some customer => swallow do
            let subs ← attempt <| query fun s ↦
              s.subscriptions.filter fun sub ↦ sub.customer = customer
            match subs.find? fun sub ↦ sub.status.live with
            | none => pure ()
            | some sub => applySubscriptionState cfg (sub.orFor (.canonical organizationId))
        | _, _, _ => pure ()

end Tesbo.Billing
