import Tesbo.Billing

/-!
# Events that are delivered again

The id of an event is recorded before the row is written, by a statement of its own.  Where the row
is not written after that, a second delivery passes the event over.
-/

namespace Tesbo.Billing

open Reasoning Service

/-! ## What an event asks for -/

def setRow (organizationId : IdText) (f : Organization → Organization)
    (hf : ∀ o, (f o).id = o.id) (organizations : Table Organization.id) : Table Organization.id :=
  match organizationId.uuid with
  | none => organizations
  | some id => organizations.updateWhere (fun o ↦ o.id = id) f hf

def invoiceOrganization (invoice : Invoice) (organizations : Table Organization.id) :
    Option IdText :=
  match invoice.organizationId, invoice.customer with
  | some organizationId, _ => some organizationId
  | none, none => none
  | none, some customer =>
      (organizations.rows.find? fun o ↦ o.stripeCustomerId = some customer).map fun o ↦
        .canonical o.id

theorem id_paymentFailed (now : Time) (o : Organization) : (paymentFailed now o).id = o.id := rfl

theorem id_paymentSucceeded (now : Time) (o : Organization) : (paymentSucceeded now o).id = o.id := rfl

/-- The rows after the event is delivered at a time. -/
def asked (cfg : BillingConfig) (p : Payload) (now : Time) (organizations : Table Organization.id) :
    Table Organization.id :=
  match p with
  | .checkoutSessionCompleted (some organizationId) (some subscriptionId) =>
      setRow organizationId (checkedOut subscriptionId now) (fun _ ↦ rfl) organizations
  | .checkoutSessionCompleted _ _ | .other => organizations
  | .subscription sub =>
      match sub.organizationId with
      | none => organizations
      | some organizationId =>
          let current := organizationId.uuid.bind organizations.find
          if overridden sub current then organizations
          else setRow organizationId (subscribed cfg sub current now) (fun _ ↦ rfl) organizations
  | .invoicePaymentFailed invoice =>
      match invoiceOrganization invoice organizations with
      | none => organizations
      | some organizationId =>
          setRow organizationId (paymentFailed now) (id_paymentFailed now) organizations
  | .invoicePaid invoice =>
      match invoiceOrganization invoice organizations with
      | none => organizations
      | some organizationId =>
          setRow organizationId (paymentSucceeded now) (id_paymentSucceeded now) organizations

/-- The number of calls up to the one that writes the row. -/
def callsToWrite : Payload → ℕ
  | .checkoutSessionCompleted (some _) (some _) => 2
  | .subscription sub => if sub.organizationId.isSome then 2 else 0
  | .invoicePaymentFailed invoice | .invoicePaid invoice =>
      if invoice.organizationId.isNone ∧ invoice.customer.isSome then 2 else 1
  | _ => 0

/-- The calls from the `n`-th on all go through until the row is written. -/
def Writes (p : Payload) (n : ℕ) (outcomes : ℕ → Bool) : Prop :=
  ∀ i < callsToWrite p, outcomes (n + i) = true

instance (p : Payload) (n : ℕ) (outcomes : ℕ → Bool) : Decidable (Writes p n outcomes) :=
  inferInstanceAs (Decidable (∀ i < _, _))

/-! ## The calls one by one -/

section Calls

variable {s : Shared} {α β : Type}

theorem wp_attempt {m : Handler α} {Q : α → Shared → Prop} {E : Failure → Shared → Prop} :
    wp (attempt m) Q E s ↔ (s.outcomes 0 = true → wp m Q E s.next) ∧
      (s.outcomes 0 = false → E unavailable s.next) := by
  have hm : attempt m s = if s.outcomes 0 then m s.next else (.error unavailable, s.next) := rfl
  cases hok : s.outcomes 0 with
  | true =>
      have hthrough : attempt m s = m s.next := by rw [hm, if_pos hok]
      have hwp : wp (attempt m) Q E s ↔ wp m Q E s.next := by
        unfold wp
        rw [hthrough]
      rw [hwp]
      exact ⟨fun h ↦ ⟨fun _ ↦ h, fun hfalse ↦ by cases hfalse⟩, fun h ↦ h.1 rfl⟩
  | false =>
      have hthrown : attempt m s = (.error unavailable, s.next) := by
        rw [hm, if_neg (by rw [hok]; exact Bool.false_ne_true)]
      have hwp : wp (attempt m) Q E s ↔ E unavailable s.next := by
        unfold wp
        rw [hthrown]
      rw [hwp]
      exact ⟨fun h ↦ ⟨fun htrue ↦ (by cases htrue), fun _ ↦ h⟩, fun h ↦ h.2 rfl⟩

/-- Nothing but the calls to come has changed. -/
structure SameRows (s s' : Shared) : Prop where
  organizations : s'.organizations = s.organizations
  events : s'.events = s.events
  now : s'.now = s.now

theorem SameRows.refl (s : Shared) : SameRows s s := ⟨rfl, rfl, rfl⟩

theorem SameRows.next (s : Shared) : SameRows s s.next := ⟨rfl, rfl, rfl⟩

theorem SameRows.trans {s₁ s₂ s₃ : Shared} (h : SameRows s₁ s₂) (h' : SameRows s₂ s₃) :
    SameRows s₁ s₃ :=
  ⟨h'.organizations.trans h.organizations, h'.events.trans h.events, h'.now.trans h.now⟩

/-- A handler that writes nothing. -/
def Spares (m : Handler α) : Prop :=
  ∀ s, wp m (fun _ s' ↦ SameRows s s') (fun _ s' ↦ SameRows s s') s

theorem spares_pure (a : α) : Spares (pure a : Handler α) := fun s ↦ (wp_pure a).mpr (.refl s)

theorem spares_request : Spares request := by
  intro s
  refine wp_attempt.mpr ⟨fun _ ↦ ?_, fun _ ↦ .next s⟩
  exact (wp_pure ()).mpr (.next s)

theorem spares_select (f : Shared → α) : Spares (attempt (query f)) := by
  intro s
  refine wp_attempt.mpr ⟨fun _ ↦ ?_, fun _ ↦ .next s⟩
  exact (wp_query f).mpr (.next s)

theorem Spares.seq {m : Handler α} {f : α → Handler β} (hm : Spares m) (hf : ∀ a, Spares (f a)) :
    Spares (m >>= f) := by
  intro s
  refine (wp_bind m f).mpr (wp_mono (hm s) (fun a s₁ h₁ ↦ ?_) fun _ _ h ↦ h)
  exact wp_mono (hf a s₁) (fun _ _ h ↦ h₁.trans h) fun _ _ h ↦ h₁.trans h

theorem spares_requestIf (p : Prop) [Decidable p] : Spares (requestIf p) := by
  unfold requestIf
  by_cases hp : p
  · rw [if_pos hp]
    exact spares_request
  · rw [if_neg hp]
    exact spares_pure ()

theorem spares_mailOwner (organizationId : IdText) : Spares (mailOwner organizationId) := by
  unfold mailOwner
  exact (spares_select _).seq fun owner ↦ spares_requestIf (owner = true)

theorem spares_announce (sub : Subscription) (current : Option Organization)
    (organizationId : IdText) : Spares (announce sub current organizationId) := by
  unfold announce
  refine (spares_requestIf _).seq fun _ ↦ (spares_requestIf _).seq fun _ ↦ ?_
  by_cases hdropping : droppingToLaunch sub current = true
  · rw [if_pos hdropping]
    exact spares_mailOwner organizationId
  · rw [if_neg hdropping]
    exact spares_pure ()

/-- A read of the row, or of nothing when the id is none. -/
theorem selectOrganization_spec {organizationId : IdText} :
    wp (selectOrganization organizationId)
      (fun current s' ↦ s' = s.next ∧ s.outcomes 0 = true ∧
        current = organizationId.uuid.bind s.organizations.find)
      (fun _ s' ↦ s' = s.next ∧ (s.outcomes 0 = true → organizationId.uuid = none)) s := by
  refine wp_attempt.mpr ⟨fun hok ↦ ?_, fun hfails ↦ ⟨rfl, fun hok ↦ ?_⟩⟩
  · rw [wp_bind, wp_ofExcept]
    constructor
    · intro id hid
      have huuid := readUuid_eq_ok.mp hid
      refine (wp_query _).mpr ⟨rfl, hok, ?_⟩
      rw [huuid]
      rfl
    · intro e he
      refine ⟨rfl, fun _ ↦ ?_⟩
      cases huuid : organizationId.uuid with
      | none => rfl
      | some id =>
          have hread : readUuid organizationId = .ok id := readUuid_eq_ok.mpr huuid
          rw [hread] at he
          cases he
  · rw [hfails] at hok
    cases hok

theorem updateOrganization_spec {organizationId : IdText} {f : Time → Organization → Organization}
    {hf : ∀ now o, (f now o).id = o.id} :
    wp (updateOrganization organizationId f hf)
      (fun _ s' ↦ s.outcomes 0 = true ∧ s' = { s.next with
        organizations := setRow organizationId (f s.now) (hf s.now) s.organizations })
      (fun _ s' ↦ s' = s.next ∧ (s.outcomes 0 = true → organizationId.uuid = none)) s := by
  refine wp_attempt.mpr ⟨fun hok ↦ ?_, fun hfails ↦ ⟨rfl, fun hok ↦ ?_⟩⟩
  · rw [wp_bind, wp_ofExcept]
    constructor
    · intro id hid
      refine (wp_write _).mpr ⟨hok, ?_⟩
      unfold setRow
      rw [readUuid_eq_ok.mp hid]
      rfl
    · intro e he
      refine ⟨rfl, fun _ ↦ ?_⟩
      cases huuid : organizationId.uuid with
      | none => rfl
      | some id =>
          rw [readUuid_eq_ok.mpr huuid] at he
          cases he
  · rw [hfails] at hok
    cases hok

end Calls

/-! ## The handlers -/

section Handlers

variable {cfg : BillingConfig} {s : Shared}

/-- The rows are as the event asks. -/
structure Delivered (cfg : BillingConfig) (p : Payload) (s s' : Shared) : Prop where
  organizations : s'.organizations = asked cfg p s.now s.organizations
  events : s'.events = s.events
  now : s'.now = s.now

theorem Delivered.later {p : Payload} {s₁ s₂ : Shared} (h : Delivered cfg p s s₁)
    (h' : SameRows s₁ s₂) : Delivered cfg p s s₂ :=
  ⟨h'.organizations.trans h.organizations, h'.events.trans h.events, h'.now.trans h.now⟩

theorem SameRows.delivered {p : Payload} {s' : Shared} (h : SameRows s s')
    (hp : asked cfg p s.now s.organizations = s.organizations) : Delivered cfg p s s' :=
  ⟨h.organizations.trans hp.symm, h.events, h.now⟩

/-- What a handler leaves: what the event asks for, or where it fails before that, the rows as they
were. -/
def Delivers (cfg : BillingConfig) (p : Payload) (m : Handler Unit) : Prop :=
  ∀ s, wp m (fun _ s' ↦ Delivered cfg p s s')
    (fun _ s' ↦ (Writes p 0 s.outcomes → Delivered cfg p s s') ∧
      (¬ Writes p 0 s.outcomes → SameRows s s')) s

/-- Once the row is written nothing more is. -/
theorem delivers_rest {p : Payload} {m : Handler Unit} {s₁ : Shared} (hm : Spares m)
    (h : Delivered cfg p s s₁) (hwrites : Writes p 0 s.outcomes) :
    wp m (fun _ s' ↦ Delivered cfg p s s')
      (fun _ s' ↦ (Writes p 0 s.outcomes → Delivered cfg p s s') ∧
        (¬ Writes p 0 s.outcomes → SameRows s s')) s₁ := by
  refine wp_mono (hm s₁) (fun _ _ h' ↦ h.later h') fun _ _ h' ↦ ⟨fun _ ↦ h.later h', fun hnot ↦ ?_⟩
  exact absurd hwrites hnot

/-- A row that is not there to be written. -/
theorem setRow_of_none {organizationId : IdText} (h : organizationId.uuid = none)
    {f : Organization → Organization} {hf : ∀ o, (f o).id = o.id}
    {organizations : Table Organization.id} :
    setRow organizationId f hf organizations = organizations := by
  unfold setRow
  rw [h]

theorem writes_two {p : Payload} (hp : callsToWrite p = 2) {outcomes : ℕ → Bool} {n : ℕ} :
    Writes p n outcomes ↔ outcomes n = true ∧ outcomes (n + 1) = true := by
  unfold Writes
  rw [hp]
  constructor
  · exact fun h ↦ ⟨h 0 (by decide), h 1 (by decide)⟩
  · intro h i hi
    interval_cases i
    · exact h.1
    · exact h.2

theorem writes_one {p : Payload} (hp : callsToWrite p = 1) {outcomes : ℕ → Bool} {n : ℕ} :
    Writes p n outcomes ↔ outcomes n = true := by
  unfold Writes
  rw [hp]
  constructor
  · exact fun h ↦ h 0 (by decide)
  · intro h i hi
    interval_cases i
    exact h

theorem delivers_checkout (organizationId : IdText) (subscriptionId : String) :
    Delivers cfg (.checkoutSessionCompleted (some organizationId) (some subscriptionId))
      (handleCheckout organizationId subscriptionId) := by
  intro s
  let p : Payload := .checkoutSessionCompleted (some organizationId) (some subscriptionId)
  have hcalls : callsToWrite p = 2 := rfl
  have hnone : organizationId.uuid = none → asked cfg p s.now s.organizations = s.organizations :=
    fun h ↦ setRow_of_none h
  rw [writes_two hcalls]
  unfold handleCheckout
  refine (wp_bind _ _).mpr (wp_mono selectOrganization_spec ?_ ?_)
  · rintro current s₁ ⟨rfl, hread, -⟩
    refine (wp_bind _ _).mpr (wp_mono updateOrganization_spec ?_ ?_)
    · rintro _ s₂ ⟨hwrite, rfl⟩
      rw [← writes_two hcalls]
      refine delivers_rest (spares_request.seq fun _ ↦ spares_requestIf _)
        ⟨rfl, rfl, rfl⟩ ((writes_two hcalls).mpr ⟨hread, hwrite⟩)
    · rintro e s₂ ⟨rfl, hid⟩
      have hsame : SameRows s s.next.next := (SameRows.next s).trans (.next s.next)
      exact ⟨fun h ↦ hsame.delivered (hnone (hid h.2)), fun _ ↦ hsame⟩
  · rintro e s₁ ⟨rfl, hid⟩
    exact ⟨fun h ↦ (SameRows.next s).delivered (hnone (hid h.1)), fun _ ↦ .next s⟩

theorem delivers_subscription (sub : Subscription) :
    Delivers cfg (.subscription sub) (applySubscriptionState cfg sub) := by
  intro s
  unfold applySubscriptionState
  cases horganization : sub.organizationId with
  | none =>
      have hasked : asked cfg (.subscription sub) s.now s.organizations = s.organizations := by
        simp only [asked, horganization]
      exact (wp_pure ()).mpr ((SameRows.refl s).delivered hasked)
  | some organizationId =>
      have hcalls : callsToWrite (.subscription sub) = 2 := by
        simp only [callsToWrite, horganization, Option.isSome_some, if_true]
      have hasked : asked cfg (.subscription sub) s.now s.organizations =
          if overridden sub (organizationId.uuid.bind s.organizations.find) then s.organizations
          else setRow organizationId
            (subscribed cfg sub (organizationId.uuid.bind s.organizations.find) s.now)
            (fun _ ↦ rfl) s.organizations := by
        simp only [asked, horganization]
      have hnone : organizationId.uuid = none →
          asked cfg (.subscription sub) s.now s.organizations = s.organizations := by
        intro h
        rw [hasked]
        split
        · rfl
        · exact setRow_of_none h
      rw [writes_two hcalls]
      refine (wp_bind _ _).mpr (wp_mono selectOrganization_spec ?_ ?_)
      · rintro current s₁ ⟨rfl, hread, rfl⟩
        by_cases hover :
            overridden sub (organizationId.uuid.bind s.organizations.find) = true
        · rw [if_pos hover]
          refine (wp_pure ()).mpr ((SameRows.next s).delivered ?_)
          rw [hasked, if_pos hover]
        · rw [if_neg hover]
          refine (wp_bind _ _).mpr (wp_mono updateOrganization_spec ?_ ?_)
          · rintro _ s₂ ⟨hwrite, rfl⟩
            rw [← writes_two hcalls]
            refine delivers_rest (spares_request.seq fun _ ↦ spares_announce _ _ _)
              ⟨?_, rfl, rfl⟩ ((writes_two hcalls).mpr ⟨hread, hwrite⟩)
            rw [hasked, if_neg hover]
            rfl
          · rintro e s₂ ⟨rfl, hid⟩
            have hsame : SameRows s s.next.next := (SameRows.next s).trans (.next s.next)
            exact ⟨fun h ↦ hsame.delivered (hnone (hid h.2)), fun _ ↦ hsame⟩
      · rintro e s₁ ⟨rfl, hid⟩
        exact ⟨fun h ↦ (SameRows.next s).delivered (hnone (hid h.1)), fun _ ↦ .next s⟩

/-- What follows the lookup of an invoice's workspace: the update of its row, and no more of one. -/
theorem delivers_invoiceRow {p : Payload} {organizationId : IdText}
    {f : Time → Organization → Organization} {hf : ∀ now o, (f now o).id = o.id}
    {rest : Unit → Handler Unit} (hrest : ∀ a, Spares (rest a)) {s₁ : Shared} (hs : SameRows s s₁)
    (hasked : asked cfg p s.now s.organizations =
      setRow organizationId (f s.now) (hf s.now) s.organizations)
    (hwrites : Writes p 0 s.outcomes ↔ s₁.outcomes 0 = true) :
    wp (updateOrganization organizationId f hf >>= rest) (fun _ s' ↦ Delivered cfg p s s')
      (fun _ s' ↦ (Writes p 0 s.outcomes → Delivered cfg p s s') ∧
        (¬ Writes p 0 s.outcomes → SameRows s s')) s₁ := by
  refine (wp_bind _ _).mpr (wp_mono updateOrganization_spec ?_ ?_)
  · rintro a s₂ ⟨hwrite, rfl⟩
    refine delivers_rest (hrest a) ⟨?_, hs.events, hs.now⟩ (hwrites.mpr hwrite)
    rw [hasked, ← hs.organizations, ← hs.now]
  · rintro e s₂ ⟨rfl, hid⟩
    have hsame : SameRows s s₁.next := hs.trans (.next s₁)
    refine ⟨fun h ↦ hsame.delivered ?_, fun _ ↦ hsame⟩
    rw [hasked]
    exact setRow_of_none (hid (hwrites.mp h))

/-- An invoice finds its workspace in its metadata, or by its customer. -/
theorem delivers_invoice (p : Payload) (invoice : Invoice)
    (f : Time → Organization → Organization) (hf : ∀ now o, (f now o).id = o.id)
    (before : IdText → Shared → Bool) (rest : Bool → IdText → Unit → Handler Unit)
    (hrest : ∀ b organizationId a, Spares (rest b organizationId a))
    (hcalls : callsToWrite p = callsToWrite (.invoicePaid invoice))
    (hasked : ∀ s : Shared, asked cfg p s.now s.organizations =
      match invoiceOrganization invoice s.organizations with
      | none => s.organizations
      | some organizationId => setRow organizationId (f s.now) (hf s.now) s.organizations)
    (m : Handler Unit) (hm : m = organizationIdForInvoice invoice >>= fun organizationId ↦
      match organizationId with
      | none => pure ()
      | some organizationId => query (before organizationId) >>= fun b ↦
          updateOrganization organizationId f hf >>= rest b organizationId) :
    Delivers cfg p m := by
  intro s
  subst hm
  have hfrom := hasked s
  have hfound : ∀ (organizationId : IdText) (s₁ : Shared), SameRows s s₁ →
      invoiceOrganization invoice s.organizations = some organizationId →
      (Writes p 0 s.outcomes ↔ s₁.outcomes 0 = true) →
      wp (query (before organizationId) >>= fun b ↦
          updateOrganization organizationId f hf >>= rest b organizationId)
        (fun _ s' ↦ Delivered cfg p s s')
        (fun _ s' ↦ (Writes p 0 s.outcomes → Delivered cfg p s s') ∧
          (¬ Writes p 0 s.outcomes → SameRows s s')) s₁ := by
    intro organizationId s₁ hs horganization hwrites
    rw [horganization] at hfrom
    exact wp_query_seq (delivers_invoiceRow (hrest _ organizationId) hs hfrom hwrites)
  unfold organizationIdForInvoice
  unfold invoiceOrganization at hfound hfrom
  cases hmetadata : invoice.organizationId with
  | some organizationId =>
      have hone : callsToWrite p = 1 := by
        rw [hcalls]
        simp only [callsToWrite, hmetadata, Option.isNone_some, Bool.false_eq_true, false_and,
          if_false]
      simp only [hmetadata] at hfound
      exact (wp_bind _ _).mpr ((wp_pure _).mpr
        (hfound organizationId s (.refl s) rfl (writes_one hone)))
  | none =>
      cases hcustomer : invoice.customer with
      | none =>
          simp only [hmetadata, hcustomer] at hfrom
          exact (wp_bind _ _).mpr ((wp_pure _).mpr
            ((wp_pure ()).mpr ((SameRows.refl s).delivered hfrom)))
      | some customer =>
          have htwo : callsToWrite p = 2 := by
            rw [hcalls]
            simp only [callsToWrite, hmetadata, hcustomer, Option.isNone_none, Option.isSome_some,
              and_self, if_true]
          simp only [hmetadata, hcustomer] at hfound hfrom
          refine (wp_bind _ _).mpr (wp_attempt.mpr ⟨fun hread ↦ ?_, fun hfails ↦ ?_⟩)
          · refine (wp_query _).mpr ?_
            have hwrites : Writes p 0 s.outcomes ↔ s.next.outcomes 0 = true := by
              rw [writes_two htwo]
              exact ⟨fun h ↦ h.2, fun h ↦ ⟨hread, h⟩⟩
            change wp (match (s.organizations.rows.find? fun o ↦
                o.stripeCustomerId = some customer).map fun o ↦ IdText.canonical o.id with
              | none => pure ()
              | some organizationId => query (before organizationId) >>= fun b ↦
                  updateOrganization organizationId f hf >>= rest b organizationId) _ _ s.next
            cases hrow : s.organizations.rows.find? fun o ↦ o.stripeCustomerId = some customer with
            | none =>
                rw [hrow] at hfrom
                exact (wp_pure ()).mpr ((SameRows.next s).delivered hfrom)
            | some o =>
                refine hfound (.canonical o.id) s.next (.next s) ?_ hwrites
                rw [hrow]
                rfl
          · refine ⟨fun h ↦ ?_, fun _ ↦ .next s⟩
            have hread : s.outcomes 0 = true := ((writes_two htwo).mp h).1
            rw [hfails] at hread
            cases hread

theorem delivers_applyEvent (p : Payload) : Delivers cfg p (applyEvent cfg p) := by
  have hnothing : ∀ p : Payload,
      (∀ s : Shared, asked cfg p s.now s.organizations = s.organizations) →
        Delivers cfg p (pure ()) :=
    fun p hp s ↦ (wp_pure ()).mpr ((SameRows.refl s).delivered (hp s))
  cases p with
  | checkoutSessionCompleted organizationId subscriptionId =>
      cases organizationId with
      | none => exact hnothing _ fun _ ↦ rfl
      | some organizationId =>
          cases subscriptionId with
          | none => exact hnothing _ fun _ ↦ rfl
          | some subscriptionId => exact delivers_checkout organizationId subscriptionId
  | subscription sub => exact delivers_subscription sub
  | invoicePaymentFailed invoice =>
      refine delivers_invoice (.invoicePaymentFailed invoice) invoice paymentFailed (fun _ _ ↦ rfl)
        (fun organizationId s ↦
          (organizationId.uuid.bind s.organizations.find).any fun o ↦ o.paymentFailedAt.isSome)
        (fun alreadyNotified organizationId _ ↦
          if alreadyNotified then pure () else request >>= fun _ ↦ mailOwner organizationId)
        ?_ rfl (fun _ ↦ rfl) (handleInvoicePaymentFailed invoice) rfl
      intro alreadyNotified organizationId _
      cases alreadyNotified with
      | true => exact spares_pure ()
      | false => exact spares_request.seq fun _ ↦ spares_mailOwner organizationId
  | invoicePaid invoice =>
      refine delivers_invoice (.invoicePaid invoice) invoice paymentSucceeded (fun _ _ ↦ rfl)
        (fun _ _ ↦ false)
        (fun _ organizationId _ ↦ request >>= fun _ ↦ mailOwner organizationId)
        ?_ rfl (fun _ ↦ rfl) (handleInvoicePaid invoice) rfl
      exact fun _ organizationId _ ↦ spares_request.seq fun _ ↦ spares_mailOwner organizationId
  | other => exact hnothing _ fun _ ↦ rfl

end Handlers

/-! ## Two deliveries -/

/-- What a first delivery left, when the event comes again. -/
def Shared.again (s : Shared) (now : Time) (outcomes : ℕ → Bool) : Shared :=
  { s with now := now, outcomes := outcomes }

/-- The rows are as the event asks, at a moment between its two deliveries. -/
def AsDelivered (cfg : BillingConfig) (e : Event) (s : Shared) (now : Time)
    (organizations : Table Organization.id) : Prop :=
  ∃ time, s.now ≤ time ∧ time ≤ now ∧ organizations = asked cfg e.payload time s.organizations

/-- The first delivery fails when it records the event, or after it has written the row, or there is
nothing to write. -/
def Survives (cfg : BillingConfig) (e : Event) (s : Shared) (now : Time) : Prop :=
  s.outcomes 0 = false ∨ Writes e.payload 1 s.outcomes ∨
    ∃ time, s.now ≤ time ∧ time ≤ now ∧ asked cfg e.payload time s.organizations = s.organizations

section Deliveries

variable {cfg : BillingConfig} {e : Event} {s : Shared}

/-- An event that is recorded is passed over. -/
theorem handleWebhookEvent_recorded (h : e.id ∈ s.events) :
    wp (handleWebhookEvent cfg e) (fun _ s' ↦ SameRows s s') (fun _ s' ↦ SameRows s s') s := by
  unfold handleWebhookEvent recordEvent
  refine (wp_bind _ _).mpr (wp_attempt.mpr ⟨fun _ ↦ ?_, fun _ ↦ .next s⟩)
  refine wp_returning.mpr ⟨fun inserted s' hs ↦ ?_, fun _ hs ↦ by cases hs⟩
  have hknown : e.id ∈ s.next.events := h
  rw [if_pos hknown] at hs
  obtain ⟨rfl, rfl⟩ := Prod.mk.inj (Except.ok.inj hs)
  exact (wp_pure ()).mpr (.next s)

/-- An event that comes for the first time is recorded, then carried out. -/
theorem handleWebhookEvent_new (h : e.id ∉ s.events) :
    wp (handleWebhookEvent cfg e)
      (fun _ s' ↦ s'.events = e.id :: s.events ∧
        s'.organizations = asked cfg e.payload s.now s.organizations)
      (fun _ s' ↦ (s.outcomes 0 = false ∧ SameRows s s') ∨
        (s.outcomes 0 = true ∧ e.id ∈ s'.events ∧
          (Writes e.payload 1 s.outcomes →
            s'.organizations = asked cfg e.payload s.now s.organizations) ∧
          (¬ Writes e.payload 1 s.outcomes → s'.organizations = s.organizations))) s := by
  unfold handleWebhookEvent recordEvent
  refine (wp_bind _ _).mpr (wp_attempt.mpr ⟨fun hok ↦ ?_, fun hfails ↦ .inl ⟨hfails, .next s⟩⟩)
  refine wp_returning.mpr ⟨fun inserted s' hs ↦ ?_, fun _ hs ↦ by cases hs⟩
  have hnew : e.id ∉ s.next.events := h
  rw [if_neg hnew] at hs
  obtain ⟨rfl, rfl⟩ := Prod.mk.inj (Except.ok.inj hs)
  have hwrites : Writes e.payload 0 s.next.outcomes ↔ Writes e.payload 1 s.outcomes := by
    unfold Writes Shared.next
    simp only [Nat.zero_add, Nat.add_comm 1]
  let recorded : Shared := { s.next with events := e.id :: s.next.events }
  have hrecorded : ∀ s' : Shared, s'.events = recorded.events → e.id ∈ s'.events := by
    intro s' hs'
    rw [hs']
    exact List.mem_cons_self
  refine wp_mono (delivers_applyEvent e.payload recorded) ?_ ?_
  · exact fun _ s' h' ↦ ⟨h'.events, h'.organizations⟩
  · rintro _ s' ⟨hdone, hnot⟩
    by_cases hw : Writes e.payload 1 s.outcomes
    · have h' := hdone (hwrites.mpr hw)
      exact .inr ⟨hok, hrecorded s' h'.events, fun _ ↦ h'.organizations, fun hnw ↦ absurd hw hnw⟩
    · have h' := hnot fun hw' ↦ hw (hwrites.mp hw')
      exact .inr ⟨hok, hrecorded s' h'.events, fun hw' ↦ absurd hw' hw, fun _ ↦ h'.organizations⟩

/-- A delivery that goes through leaves what the event asks for, and one after it changes nothing.
Where the first one throws and the second goes through, the rows are as the event asks exactly where
the first failed before the event was recorded, or after the row was written. -/
theorem asDelivered_iff {now : Time} {outcomes : ℕ → Bool} (hnew : e.id ∉ s.events)
    (hlater : s.now ≤ now) :
    (∀ s₁, handleWebhookEvent cfg e s = (.ok (), s₁) →
      s₁.organizations = asked cfg e.payload s.now s.organizations ∧
        (after (handleWebhookEvent cfg e) (s₁.again now outcomes)).organizations =
          s₁.organizations) ∧
      ∀ error s₁ s₂, handleWebhookEvent cfg e s = (.error error, s₁) →
        handleWebhookEvent cfg e (s₁.again now outcomes) = (.ok (), s₂) →
          (AsDelivered cfg e s now s₂.organizations ↔ Survives cfg e s now) := by
  obtain ⟨hdone, hfailed⟩ := of_wp (@handleWebhookEvent_new cfg e s hnew)
  constructor
  · intro s₁ h₁
    obtain ⟨hevents, hrows⟩ := hdone () s₁ h₁
    refine ⟨hrows, ?_⟩
    have hrecorded : e.id ∈ (s₁.again now outcomes).events := by
      change e.id ∈ s₁.events
      rw [hevents]
      exact List.mem_cons_self
    have hsame : SameRows (s₁.again now outcomes)
        (after (handleWebhookEvent cfg e) (s₁.again now outcomes)) :=
      after_of_wp (handleWebhookEvent_recorded hrecorded)
    exact hsame.organizations
  · intro error s₁ s₂ h₁ h₂
    rcases hfailed error s₁ h₁ with ⟨hfails, hsame⟩ | ⟨hok, hrecorded, hwritten, hkept⟩
    · -- nothing came of the first delivery: the second is a first one
      have hagain : e.id ∉ (s₁.again now outcomes).events := by
        change e.id ∉ s₁.events
        rw [hsame.events]
        exact hnew
      obtain ⟨-, hrows⟩ := (of_wp (@handleWebhookEvent_new cfg e _ hagain)).1 () s₂ h₂
      have hrows : s₂.organizations = asked cfg e.payload now s₁.organizations := hrows
      rw [hsame.organizations] at hrows
      exact ⟨fun _ ↦ .inl hfails, fun _ ↦ ⟨now, hlater, le_refl now, hrows⟩⟩
    · -- the second delivery finds the event recorded
      have hrows : s₂.organizations = s₁.organizations :=
        ((of_wp (@handleWebhookEvent_recorded cfg e (s₁.again now outcomes) hrecorded)).1 ()
          s₂ h₂).organizations
      rw [hrows]
      by_cases hwrites : Writes e.payload 1 s.outcomes
      · exact ⟨fun _ ↦ .inr (.inl hwrites), fun _ ↦ ⟨s.now, le_refl _, hlater, hwritten hwrites⟩⟩
      · rw [hkept hwrites]
        constructor
        · rintro ⟨time, hfrom, hto, h⟩
          exact .inr (.inr ⟨time, hfrom, hto, h.symm⟩)
        · rintro (hfails | hw | ⟨time, hfrom, hto, h⟩)
          · rw [hok] at hfails
            cases hfails
          · exact absurd hw hwrites
          · exact ⟨time, hfrom, hto, h.symm⟩

end Deliveries

/-! ## An event that is lost -/

def euroless : BillingConfig := ⟨some "price_m", none, some "price_a", none, 30⟩

/-- A workspace that has just paid. -/
def launched (outcomes : ℕ → Bool) : Shared where
  organizations := ⟨[{
    id := 10, plan := .launch, planSource := .stripe, planOverrideBy := none,
    planOverrideAt := none, planOverrideReason := none, planOverrideExpiresAt := none,
    billingInterval := none, billingCurrency := none, stripeCustomerId := some "cus_1",
    stripeSubscriptionId := none, subscriptionStatus := none, currentPeriodEnd := none,
    cancelAtPeriodEnd := false, planGraceEndsAt := none, paymentFailedAt := none,
    graceLockedNotifiedAt := none, updatedAt := 5 }], by decide⟩
  events := []
  hasOwner _ := true
  subscriptions := []
  now := 1000
  outcomes := outcomes

def activeSubscription : Subscription :=
  ⟨"sub_1", some (.canonical 10), "cus_1", .active, "price_m", some "usd", some 90000, false⟩

def activation : Event := ⟨"evt_1", .subscription activeSubscription⟩

/-- All goes through but the call of this number. -/
def failing (n : ℕ) : ℕ → Bool := fun i ↦ i ≠ n

abbrev firstDelivery (n : ℕ) : Shared :=
  after (handleWebhookEvent euroless activation) (launched (failing n))

abbrev redelivery (n : ℕ) : Except Failure Unit × Shared :=
  handleWebhookEvent euroless activation ((firstDelivery n).again 1000 fun _ ↦ true)

/-- The read of the row fails: the event is recorded, and its second delivery is passed over. -/
theorem not_asDelivered_lost :
    (handleWebhookEvent euroless activation (launched (failing 1))).1 = .error unavailable ∧
      (redelivery 1).1 = .ok () ∧
      ¬ AsDelivered euroless activation (launched (failing 1)) 1000
        (redelivery 1).2.organizations := by
  refine ⟨by decide +kernel, by decide +kernel, ?_⟩
  rintro ⟨time, hfrom, hto, h⟩
  obtain rfl : time = 1000 := le_antisymm hto hfrom
  have hplan := congrArg (fun t : Table Organization.id ↦ (t.find 10).map Organization.plan) h
  revert hplan
  decide +kernel

/-- The recording itself fails: the second delivery does what the first was to do. -/
theorem asDelivered_again :
    AsDelivered euroless activation (launched (failing 0)) 1000 (redelivery 0).2.organizations :=
  ((@asDelivered_iff euroless activation (launched (failing 0)) 1000 (fun _ ↦ true) (by decide)
    (by decide)).2 unavailable (firstDelivery 0) (redelivery 0).2 rfl rfl).mpr (.inl (by decide))

end Tesbo.Billing
