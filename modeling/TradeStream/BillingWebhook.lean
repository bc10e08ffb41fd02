import TradeStream.KeyedTable

/-! The webhook of the billing service, its five handlers, and the tier that signals are
gated by. -/
namespace TradeStream.BillingWebhook
open TradeStream.KeyedTable

/-- The object of `checkout.session.completed`. `detailsEmail` is the e-mail of the
customer's details, empty where the session has none and `none` for a null. -/
structure CheckoutSession where
  customer : String
  customerEmail : Option String
  detailsEmail : Option String
  telegramChatId : Option String
  deriving DecidableEq

def CheckoutSession.email (session : CheckoutSession) : Option String :=
  match session.customerEmail with
  -- `or` passes over an empty e-mail
  | some email => if email = "" then session.detailsEmail else some email
  | none => session.detailsEmail

/-- The object of the subscription's events, with the tier of its metadata. -/
structure SubscriptionObject where
  id : String
  customer : String
  metadataTier : Option String
  subscriptionStatus : Option String
  currentPeriodStart : Option ℤ
  currentPeriodEnd : Option ℤ
  cancelAtPeriodEnd : Bool
  deriving DecidableEq

def SubscriptionObject.tier (sub : SubscriptionObject) : String := sub.metadataTier.getD "pro"

def SubscriptionObject.status (sub : SubscriptionObject) : String :=
  sub.subscriptionStatus.getD "active"

inductive EventObject where
  | checkoutCompleted (session : CheckoutSession)
  | subscriptionCreated (sub : SubscriptionObject)
  | subscriptionUpdated (sub : SubscriptionObject)
  | subscriptionDeleted (id : String)
  | paymentFailed (subscription : Option String)
  | other (eventType : String)
  deriving DecidableEq

structure StripeEvent where
  id : String
  object : EventObject
  deriving DecidableEq

/-- A row of `billing_customers`. The table is keyed by `stripe_customer_id`, which
stands for the row's own id as well. -/
structure Customer where
  email : String
  telegramChatId : Option String
  deriving DecidableEq

/-- A row of `billing_subscriptions`, keyed by `stripe_subscription_id`. -/
structure Subscription where
  customer : String
  tier : String
  status : String
  currentPeriodStart : ℤ
  currentPeriodEnd : ℤ
  cancelAtPeriodEnd : Bool
  deriving DecidableEq

structure Db where
  customers : Table String Customer
  subscriptions : Table String Subscription
  events : List String

/-- The checks of the table. -/
def Subscription.Storable (row : Subscription) : Prop :=
  row.tier ∈ ["free", "pro", "enterprise"] ∧
    row.status ∈ ["active", "past_due", "cancelled", "trialing", "incomplete"]

instance (row : Subscription) : Decidable row.Storable := inferInstanceAs (Decidable (_ ∧ _))

/-- How far a handler came: it raised before it wrote, or when the customer's row was
there and the subscription's was still to be written, or it returned. -/
inductive Outcome where
  | duplicate
  | failed
  | halfway
  | done
  deriving DecidableEq

/-- What fails in a delivery: the handler before it writes, the handler's write to the
subscriptions, or the record of the event. -/
inductive Fault where
  | none
  | handler
  | subscription
  | record
  deriving DecidableEq

def handleCheckoutCompleted (db : Db) (session : CheckoutSession) : Db × Outcome :=
  match db.customers.lookup session.customer with
  | some _ => (db, .done)
  | none =>
    match session.email with
    | none => (db, .failed)
    | some email =>
      ({ db with customers := db.customers.insert session.customer ⟨email, session.telegramChatId⟩ },
        .done)

def ensureCustomer (db : Db) (id : String) : Db :=
  match db.customers.lookup id with
  | some _ => db
  | none => { db with customers := db.customers.insert id ⟨"", none⟩ }

/-- `ON CONFLICT` leaves the customer and `cancel_at_period_end` as they are. -/
def replaceSubscription (old row : Subscription) : Subscription :=
  { row with customer := old.customer, cancelAtPeriodEnd := old.cancelAtPeriodEnd }

def handleSubscriptionCreated (db : Db) (sub : SubscriptionObject) (fault : Fault) : Db × Outcome :=
  match sub.currentPeriodStart, sub.currentPeriodEnd with
  | some periodStart, some periodEnd =>
    -- the customer's row stays even if the write to the subscriptions then fails
    let db := ensureCustomer db sub.customer
    let row : Subscription := ⟨sub.customer, sub.tier, sub.status, periodStart, periodEnd, false⟩
    if fault = .subscription ∨ ¬ row.Storable then (db, .halfway)
    else
      match db.subscriptions.lookup sub.id with
      | none => ({ db with subscriptions := db.subscriptions.insert sub.id row }, .done)
      | some old =>
        ({ db with
            subscriptions := db.subscriptions.insert sub.id (replaceSubscription old row) }, .done)
  | _, _ => (db, .failed)

/-- `UPDATE billing_subscriptions .. WHERE stripe_subscription_id`. Without a row there is
nothing to do. -/
def updateSubscription (db : Db) (id : String) (set : Subscription → Subscription) : Db × Outcome :=
  match db.subscriptions.lookup id with
  | none => (db, .done)
  | some row =>
    if (set row).Storable then
      ({ db with subscriptions := db.subscriptions.insert id (set row) }, .done)
    else (db, .failed)

def handleSubscriptionUpdated (db : Db) (sub : SubscriptionObject) : Db × Outcome :=
  match sub.currentPeriodStart, sub.currentPeriodEnd with
  | some periodStart, some periodEnd =>
    updateSubscription db sub.id fun row =>
      ⟨row.customer, sub.tier, sub.status, periodStart, periodEnd, sub.cancelAtPeriodEnd⟩
  | _, _ => (db, .failed)

def handleSubscriptionCancelled (db : Db) (id : String) : Db × Outcome :=
  updateSubscription db id fun row => { row with status := "cancelled" }

def handlePaymentFailed (db : Db) (subscription : Option String) : Db × Outcome :=
  match subscription with
  | none => (db, .done)
  | some id =>
    if id = "" then (db, .done)
    else updateSubscription db id fun row => { row with status := "past_due" }

/-- The handler of the event's type, and its faults. -/
def handle (db : Db) (object : EventObject) (fault : Fault) : Db × Outcome :=
  if fault = .handler then (db, .failed)
  else
    match object with
    | .checkoutCompleted session => handleCheckoutCompleted db session
    | .subscriptionCreated sub => handleSubscriptionCreated db sub fault
    | .subscriptionUpdated sub =>
      if fault = .subscription then (db, .failed) else handleSubscriptionUpdated db sub
    | .subscriptionDeleted id =>
      if fault = .subscription then (db, .failed) else handleSubscriptionCancelled db id
    | .paymentFailed subscription =>
      if fault = .subscription then (db, .failed) else handlePaymentFailed db subscription
    | .other _ => (db, .done)

/-- An event is remembered only after it has been handled. -/
def stripeWebhook (db : Db) (event : StripeEvent) (fault : Fault) : Db × Outcome :=
  if event.id ∈ db.events then (db, .duplicate)
  else
    match handle db event.object fault with
    | (db, .done) =>
      -- what the handler wrote stays if the record fails, and Stripe delivers again
      if fault = .record then (db, .done) else ({ db with events := event.id :: db.events }, .done)
    | result => result

theorem events_ensureCustomer (db : Db) (id : String) : (ensureCustomer db id).events = db.events := by
  unfold ensureCustomer
  cases db.customers.lookup id <;> rfl

theorem events_updateSubscription (db : Db) (id : String) (set : Subscription → Subscription) :
    (updateSubscription db id set).1.events = db.events := by
  unfold updateSubscription
  split
  · rfl
  · split_ifs <;> rfl

/-- Handlers do not touch `billing_events`. -/
theorem events_handle (db : Db) (object : EventObject) (fault : Fault) :
    (handle db object fault).1.events = db.events := by
  unfold handle
  split
  · rfl
  cases object with
  | checkoutCompleted session =>
    simp only [handleCheckoutCompleted]
    split
    · rfl
    · split <;> rfl
  | subscriptionCreated sub =>
    simp only [handleSubscriptionCreated]
    split
    · split
      · exact events_ensureCustomer db sub.customer
      · split <;> exact events_ensureCustomer db sub.customer
    · rfl
  | subscriptionUpdated sub =>
    simp only [handleSubscriptionUpdated]
    split
    · rfl
    · split
      · exact events_updateSubscription ..
      · rfl
  | subscriptionDeleted id =>
    simp only [handleSubscriptionCancelled]
    split
    · rfl
    · exact events_updateSubscription ..
  | paymentFailed id =>
    simp only [handlePaymentFailed]
    split
    · rfl
    · split
      · rfl
      · split
        · rfl
        · exact events_updateSubscription ..
  | other eventType => rfl

/-- The tiers of a customer's active subscriptions. -/
def activeTiers (db : Db) (customer : String) : List String :=
  (db.subscriptions.entries.filter fun s =>
    s.2.customer = customer ∧ s.2.status = "active").map fun s => s.2.tier

/-- The left join: `free` where there is no active subscription. -/
def joinedTiers (db : Db) (customer : String) : List String :=
  match activeTiers db customer with
  | [] => ["free"]
  | tiers => tiers

/-- The rows of `get_customer_tier`: a tier and a customer of the chat. -/
def tierRows (db : Db) (telegramChatId : String) : List (String × String) :=
  (db.customers.entries.filter fun c => c.2.telegramChatId = some telegramChatId).flatMap fun c =>
    (joinedTiers db c.1).map fun tier => (tier, c.1)

def getCustomerTier (db : Db) (telegramChatId : String) : String × Option String :=
  match if telegramChatId = "" then [] else tierRows db telegramChatId with
  | [] => ("free", none)
  | (tier, id) :: _ => (tier, some id)

/-- The event is about the customer and the subscription with these ids. -/
def EventObject.RefersTo (customer subscription : String) : EventObject → Prop
  | .checkoutCompleted session => session.customer = customer
  | .subscriptionCreated sub => sub.id = subscription ∧ sub.customer = customer
  | .subscriptionUpdated sub => sub.id = subscription ∧ sub.customer = customer
  | .subscriptionDeleted id => id = subscription
  | .paymentFailed id => ∀ id', id = some id' → id' = subscription
  | .other _ => True

/-- The row that an event inserts where its customer has none. -/
def newCustomer : EventObject → Option Customer
  | .checkoutCompleted session => session.email.map fun email => ⟨email, session.telegramChatId⟩
  | .subscriptionCreated _ => some ⟨"", none⟩
  | _ => none

def givenTier : EventObject → Option String
  | .subscriptionCreated sub => some sub.tier
  | .subscriptionUpdated sub => some sub.tier
  | _ => none

def givenStatus : EventObject → Option String
  | .subscriptionCreated sub => some sub.status
  | .subscriptionUpdated sub => some sub.status
  | .subscriptionDeleted _ => some "cancelled"
  | .paymentFailed (some id) => if id = "" then none else some "past_due"
  | _ => none

def EventObject.isCreated : EventObject → Bool
  | .subscriptionCreated _ => true
  | _ => false

/-- The tier and the status of a subscription. -/
def standing (row : Subscription) : String × String := (row.tier, row.status)

/-- The tier and the status after an event, from those before it. -/
def nextStanding (object : EventObject) (old : Option (String × String)) :
    Option (String × String) :=
  match object with
  | .subscriptionCreated sub => some (sub.tier, sub.status)
  | object => old.map fun s => ((givenTier object).getD s.1, (givenStatus object).getD s.2)

theorem nextStanding_of_isCreated {object : EventObject} (h : object.isCreated = false)
    (old : Option (String × String)) :
    nextStanding object old =
      old.map fun s => ((givenTier object).getD s.1, (givenStatus object).getD s.2) := by
  cases object <;> first | rfl | cases h

theorem nextStanding_of_none {object : EventObject} (h : object.isCreated = false)
    (htier : givenTier object = none) (hstatus : givenStatus object = none)
    (old : Option (String × String)) : nextStanding object old = old := by
  rw [nextStanding_of_isCreated h]
  cases old <;> simp [htier, hstatus]

/-- What a handler does to the rows of the customer and the subscription that its event
is about, and to nothing else. -/
structure Effect (customer subscription : String) (object : EventObject) (db db' : Db)
    (outcome : Outcome) : Prop where
  customers : db'.customers.lookup customer =
    if outcome = .done ∨ outcome = .halfway then
      (db.customers.lookup customer).or (newCustomer object)
    else db.customers.lookup customer
  subscriptions : (db'.subscriptions.lookup subscription).map standing =
    if outcome = .done then nextStanding object ((db.subscriptions.lookup subscription).map standing)
    else (db.subscriptions.lookup subscription).map standing
  owner : ∀ row, db'.subscriptions.lookup subscription = some row → row.customer = customer ∨
    ∃ old, db.subscriptions.lookup subscription = some old ∧ row.customer = old.customer
  otherCustomers : ∀ id ≠ customer, db'.customers.lookup id = db.customers.lookup id
  otherSubscriptions :
    ∀ id ≠ subscription, db'.subscriptions.lookup id = db.subscriptions.lookup id

section
variable {customer subscription : String} {object : EventObject} {db : Db}

/-- An outcome that leaves everything as it is. -/
theorem Effect.refl {outcome : Outcome}
    (hcustomers : outcome = .done ∨ outcome = .halfway →
      (db.customers.lookup customer).or (newCustomer object) = db.customers.lookup customer)
    (hsubscriptions : outcome = .done →
      nextStanding object ((db.subscriptions.lookup subscription).map standing) =
        (db.subscriptions.lookup subscription).map standing) :
    Effect customer subscription object db db outcome where
  customers := by
    split_ifs with h
    · exact (hcustomers h).symm
    · rfl
  subscriptions := by
    split_ifs with h
    · exact (hsubscriptions h).symm
    · rfl
  owner row h := .inr ⟨row, h, rfl⟩
  otherCustomers _ _ := rfl
  otherSubscriptions _ _ := rfl

theorem effect_handleCheckoutCompleted (session : CheckoutSession)
    (h : session.customer = customer) :
    Effect customer subscription (.checkoutCompleted session) db
      (handleCheckoutCompleted db session).1 (handleCheckoutCompleted db session).2 := by
  subst h
  unfold handleCheckoutCompleted
  cases hlookup : db.customers.lookup session.customer with
  | some row =>
    apply Effect.refl
    · simp [hlookup]
    · exact fun _ => nextStanding_of_none rfl rfl rfl _
  | none =>
    cases hemail : session.email with
    | none => apply Effect.refl <;> simp
    | some email =>
      have hsame : ∀ old, nextStanding (.checkoutCompleted session) old = old :=
        nextStanding_of_none rfl rfl rfl
      constructor <;> simp_all [newCustomer]

/-- An event other than `customer.subscription.created` writes to a row that is there. -/
theorem effect_updateSubscription (set : Subscription → Subscription)
    (hcreated : object.isCreated = false) (hcustomer : newCustomer object = none)
    (hset : ∀ row, standing (set row) =
      ((givenTier object).getD row.tier, (givenStatus object).getD row.status))
    (howner : ∀ row, (set row).customer = row.customer) :
    Effect customer subscription object db (updateSubscription db subscription set).1
      (updateSubscription db subscription set).2 := by
  have hnext := nextStanding_of_isCreated hcreated
  unfold updateSubscription
  cases hlookup : db.subscriptions.lookup subscription with
  | none =>
    -- the update of a missing row is a silent no-op, and so is that of its standing
    apply Effect.refl
    · simp [hcustomer]
    · simp [hnext, hlookup]
  | some row =>
    by_cases hstorable : (set row).Storable
    · simp only [hstorable, ↓reduceIte]
      constructor
      · simp [hcustomer]
      · simpa [hnext, hlookup, standing] using hset row
      · simp [howner, hlookup]
      · simp
      · exact fun id hid => AList.lookup_insert_ne hid
    · simp only [hstorable, ↓reduceIte]
      apply Effect.refl <;> simp

theorem effect_handleSubscriptionUpdated (sub : SubscriptionObject) (h : sub.id = subscription) :
    Effect customer subscription (.subscriptionUpdated sub) db
      (handleSubscriptionUpdated db sub).1 (handleSubscriptionUpdated db sub).2 := by
  subst h
  unfold handleSubscriptionUpdated
  split
  · apply effect_updateSubscription
    · rfl
    · rfl
    · exact fun _ => rfl
    · exact fun _ => rfl
  · apply Effect.refl <;> simp

theorem effect_handleSubscriptionCancelled (id : String) (h : id = subscription) :
    Effect customer subscription (.subscriptionDeleted id) db
      (handleSubscriptionCancelled db id).1 (handleSubscriptionCancelled db id).2 := by
  subst h
  apply effect_updateSubscription
  · rfl
  · rfl
  · exact fun _ => rfl
  · exact fun _ => rfl

theorem effect_handlePaymentFailed (id : Option String) (h : ∀ id', id = some id' → id' = subscription) :
    Effect customer subscription (.paymentFailed id) db (handlePaymentFailed db id).1
      (handlePaymentFailed db id).2 := by
  unfold handlePaymentFailed
  cases id with
  | none =>
    apply Effect.refl
    · simp [newCustomer]
    · exact fun _ => nextStanding_of_none rfl rfl rfl _
  | some id =>
    obtain rfl := h id rfl
    by_cases hempty : id = ""
    · simp only [hempty, ↓reduceIte]
      apply Effect.refl
      · simp [newCustomer]
      · exact fun _ => nextStanding_of_none rfl rfl (by simp [givenStatus]) _
    · simp only [hempty, ↓reduceIte]
      apply effect_updateSubscription
      · rfl
      · rfl
      · simp [standing, givenTier, givenStatus, hempty]
      · exact fun _ => rfl

theorem lookup_ensureCustomer (db : Db) (id : String) :
    (ensureCustomer db id).customers.lookup id = (db.customers.lookup id).or (some ⟨"", none⟩) := by
  unfold ensureCustomer
  cases h : db.customers.lookup id <;> simp [h]

theorem lookup_ensureCustomer_ne (db : Db) {id id' : String} (h : id' ≠ id) :
    (ensureCustomer db id).customers.lookup id' = db.customers.lookup id' := by
  unfold ensureCustomer
  cases db.customers.lookup id with
  | some row => rfl
  | none => exact AList.lookup_insert_ne h

theorem ensureCustomer_subscriptions (db : Db) (id : String) :
    (ensureCustomer db id).subscriptions = db.subscriptions := by
  unfold ensureCustomer
  cases db.customers.lookup id <;> rfl

theorem effect_upsert (sub : SubscriptionObject) {row : Subscription}
    (hrow : standing row = (sub.tier, sub.status))
    (howner : row.customer = sub.customer ∨
      ∃ old, db.subscriptions.lookup sub.id = some old ∧ row.customer = old.customer) :
    Effect sub.customer sub.id (.subscriptionCreated sub) db
      { ensureCustomer db sub.customer with
        subscriptions := (ensureCustomer db sub.customer).subscriptions.insert sub.id row }
      .done := by
  have hlookup := lookup_ensureCustomer db sub.customer
  have hsubs := ensureCustomer_subscriptions db sub.customer
  constructor
  · simpa [newCustomer] using hlookup
  · simp [nextStanding, hrow]
  · simpa using howner
  · exact fun id hid => lookup_ensureCustomer_ne db hid
  · intro id hid
    rw [hsubs]
    exact AList.lookup_insert_ne hid

theorem effect_handleSubscriptionCreated (sub : SubscriptionObject) (fault : Fault)
    (h : sub.id = subscription) (hcustomer : sub.customer = customer) :
    Effect customer subscription (.subscriptionCreated sub) db
      (handleSubscriptionCreated db sub fault).1 (handleSubscriptionCreated db sub fault).2 := by
  subst h hcustomer
  have hlookup := lookup_ensureCustomer db sub.customer
  have hsubs := ensureCustomer_subscriptions db sub.customer
  unfold handleSubscriptionCreated
  split
  · next periodStart periodEnd _ _ =>
    simp only
    split_ifs with hfault
    · -- halfway: the customer is there, and the subscription as it was
      constructor
      · simpa [newCustomer] using hlookup
      · simp [hsubs]
      · intro row hrow
        exact .inr ⟨row, by rwa [hsubs] at hrow, rfl⟩
      · exact fun id hid => lookup_ensureCustomer_ne db hid
      · exact fun id _ => by rw [hsubs]
    · -- the row keeps its owner in a conflict, and its standing is the event's either way
      cases hold : (ensureCustomer db sub.customer).subscriptions.lookup sub.id with
      | none => exact effect_upsert sub rfl (.inl rfl)
      | some old =>
        rw [hsubs] at hold
        exact effect_upsert sub rfl (.inr ⟨old, hold, rfl⟩)
  · apply Effect.refl <;> simp

theorem effect_handle (db : Db) (h : object.RefersTo customer subscription) (fault : Fault) :
    Effect customer subscription object db (handle db object fault).1 (handle db object fault).2 := by
  have hfailed : Effect customer subscription object db db .failed := by
    apply Effect.refl <;> simp
  unfold handle
  by_cases hfault : fault = .handler
  · rwa [if_pos hfault]
  rw [if_neg hfault]
  -- one case for each handler, the last for a type of event that has none
  cases object with
  | checkoutCompleted session => exact effect_handleCheckoutCompleted session h
  | subscriptionCreated sub => exact effect_handleSubscriptionCreated sub fault h.1 h.2
  | subscriptionUpdated sub =>
    by_cases hwrite : fault = .subscription
    · simpa only [hwrite, ↓reduceIte] using hfailed
    · simpa only [hwrite, ↓reduceIte] using effect_handleSubscriptionUpdated sub h.1
  | subscriptionDeleted id =>
    by_cases hwrite : fault = .subscription
    · simpa only [hwrite, ↓reduceIte] using hfailed
    · simpa only [hwrite, ↓reduceIte] using effect_handleSubscriptionCancelled id h
  | paymentFailed id =>
    by_cases hwrite : fault = .subscription
    · simpa only [hwrite, ↓reduceIte] using hfailed
    · simpa only [hwrite, ↓reduceIte] using effect_handlePaymentFailed id h
  | other eventType =>
    apply Effect.refl
    · simp [newCustomer]
    · exact fun _ => nextStanding_of_none rfl rfl rfl _

theorem Effect.record {db' : Db} {outcome : Outcome}
    (h : Effect customer subscription object db db' outcome) (events : List String) :
    Effect customer subscription object db { db' with events := events } outcome :=
  ⟨h.customers, h.subscriptions, h.owner, h.otherCustomers, h.otherSubscriptions⟩

theorem effect_stripeWebhook (db : Db) {event : StripeEvent}
    (h : event.object.RefersTo customer subscription) (fault : Fault) :
    Effect customer subscription event.object db (stripeWebhook db event fault).1
      (stripeWebhook db event fault).2 := by
  have heffect := effect_handle db h fault
  unfold stripeWebhook
  split
  · apply Effect.refl <;> simp
  · split
    · next db' hdone =>
      rw [hdone] at heffect
      split
      · exact heffect
      · exact heffect.record _
    · exact heffect

end

/-- An event is recorded by a delivery whose handler returned. -/
theorem mem_events_stripeWebhook {db : Db} {event : StripeEvent} {fault : Fault} {id : String}
    (h : id ∈ (stripeWebhook db event fault).1.events) :
    id ∈ db.events ∨ id = event.id ∧ (stripeWebhook db event fault).2 = .done := by
  have hevents := events_handle db event.object fault
  unfold stripeWebhook at h ⊢
  by_cases hold : event.id ∈ db.events
  · -- a duplicate records nothing
    rw [if_pos hold] at h
    exact .inl h
  rw [if_neg hold] at h ⊢
  cases hhandle : handle db event.object fault with
  | mk db' outcome =>
    rw [hhandle] at h hevents
    simp only at hevents
    cases outcome with
    | done =>
      by_cases hrecord : fault = .record
      · simp only [hrecord, ↓reduceIte] at h
        exact .inl (hevents ▸ h)
      · simp only [hrecord, ↓reduceIte, List.mem_cons] at h ⊢
        rcases h with h | h
        · exact .inr ⟨h, trivial⟩
        · exact .inl (hevents ▸ h)
    | duplicate => exact .inl (hevents ▸ h)
    | failed => exact .inl (hevents ▸ h)
    | halfway => exact .inl (hevents ▸ h)

theorem mem_activeTiers_iff {db : Db} {customer tier : String} :
    tier ∈ activeTiers db customer ↔ ∃ id row, db.subscriptions.lookup id = some row ∧
      row.customer = customer ∧ row.status = "active" ∧ row.tier = tier := by
  simp only [activeTiers, List.mem_map, List.mem_filter, decide_eq_true_eq]
  constructor
  · rintro ⟨⟨id, row⟩, ⟨hmem, hcustomer, hactive⟩, htier⟩
    exact ⟨id, row, AList.mem_lookup_iff.mpr hmem, hcustomer, hactive, htier⟩
  · rintro ⟨id, row, hlookup, hcustomer, hactive, htier⟩
    exact ⟨⟨id, row⟩, ⟨AList.mem_lookup_iff.mp hlookup, hcustomer, hactive⟩, htier⟩

theorem mem_joinedTiers {db : Db} {customer subscription tier : String} {sub : Subscription}
    (hsub : db.subscriptions.lookup subscription = some sub) (howner : sub.customer = customer)
    (hothers : ∀ id row, db.subscriptions.lookup id = some row → row.customer = customer →
      id = subscription) (h : tier ∈ joinedTiers db customer) :
    tier = if sub.status = "active" then sub.tier else "free" := by
  have hmem : ∀ tier' ∈ activeTiers db customer, sub.status = "active" ∧ tier' = sub.tier := by
    intro tier' htier
    obtain ⟨id, row, hlookup, hcustomer, hactive, rfl⟩ := mem_activeTiers_iff.mp htier
    obtain rfl := hothers id row hlookup hcustomer
    obtain rfl : row = sub := by
      rw [hsub] at hlookup
      exact (Option.some.inj hlookup).symm
    exact ⟨hactive, rfl⟩
  unfold joinedTiers at h
  split at h
  · -- no row of an active subscription, so that the one there is is not active
    next hnil =>
    have hactive : sub.status ≠ "active" := by
      intro hactive
      have hin : sub.tier ∈ activeTiers db customer :=
        mem_activeTiers_iff.mpr ⟨subscription, sub, hsub, howner, hactive, rfl⟩
      simp [hnil] at hin
    simpa [hactive] using h
  · obtain ⟨hactive, htier⟩ := hmem tier h
    rw [if_pos hactive, htier]

theorem joinedTiers_ne_nil (db : Db) (customer : String) : joinedTiers db customer ≠ [] := by
  unfold joinedTiers
  split
  · exact List.cons_ne_nil _ _
  · assumption

/-- Where one customer has the chat, and no other subscription is that customer's, the
tier is the one of the subscription while it is active. -/
theorem getCustomerTier_eq {db : Db} {customer subscription chat : String} {row : Customer}
    {sub : Subscription} (hchat : chat ≠ "") (hrow : db.customers.lookup customer = some row)
    (hrowchat : row.telegramChatId = some chat)
    (hother : ∀ id other, db.customers.lookup id = some other →
      other.telegramChatId = some chat → id = customer)
    (hsub : db.subscriptions.lookup subscription = some sub) (howner : sub.customer = customer)
    (hothers : ∀ id other, db.subscriptions.lookup id = some other →
      other.customer = customer → id = subscription) :
    (getCustomerTier db chat).1 = if sub.status = "active" then sub.tier else "free" := by
  have hall : ∀ r ∈ tierRows db chat, r.1 = if sub.status = "active" then sub.tier else "free" := by
    intro r hr
    simp only [tierRows, List.mem_flatMap, List.mem_filter, decide_eq_true_eq, List.mem_map] at hr
    obtain ⟨⟨id, other⟩, ⟨hmem, hotherchat⟩, tier, htier, rfl⟩ := hr
    obtain rfl := hother id other (AList.mem_lookup_iff.mpr hmem) hotherchat
    exact mem_joinedTiers hsub howner hothers htier
  -- the left join gives the customer a row in any case
  have hne : tierRows db chat ≠ [] := by
    obtain ⟨tier, htier⟩ := List.exists_mem_of_ne_nil _ (joinedTiers_ne_nil db customer)
    apply List.ne_nil_of_mem (a := (tier, customer))
    simp only [tierRows, List.mem_flatMap, List.mem_filter, decide_eq_true_eq, List.mem_map]
    exact ⟨⟨customer, row⟩, ⟨AList.mem_lookup_iff.mp hrow, hrowchat⟩, tier, htier, rfl⟩
  rw [getCustomerTier, if_neg hchat]
  cases hrows : tierRows db chat with
  | nil => exact absurd hrows hne
  | cons r rest => exact hall r (by simp [hrows])

end TradeStream.BillingWebhook
