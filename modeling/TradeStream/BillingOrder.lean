import TradeStream.BillingWebhook

/-! The events of one purchase, delivered in any order, again and again, some deliveries
failing, until each has been processed. -/
namespace TradeStream.BillingOrder
open TradeStream.KeyedTable TradeStream.BillingWebhook

structure Delivery where
  event : StripeEvent
  fault : Fault

def deliver (db : Db) (d : Delivery) : Db := (stripeWebhook db d.event d.fault).1

/-- The deliveries with their outcomes. -/
def outcomes : Db → List Delivery → List (EventObject × Outcome)
  | _, [] => []
  | db, d :: rest =>
    (d.event.object, (stripeWebhook db d.event d.fault).2) :: outcomes (deliver db d) rest

/-- The events that a handler has worked on, in order: on the customer's row, -/
def begun (l : List (EventObject × Outcome)) : List EventObject :=
  (l.filter fun o => o.2 = .done ∨ o.2 = .halfway).map Prod.fst

/-- and to its end. -/
def handled (l : List (EventObject × Outcome)) : List EventObject :=
  (l.filter fun o => o.2 = .done).map Prod.fst

/-- A purchase, with its events in the order in which Stripe created them. -/
structure Purchase where
  customer : String
  subscription : String
  session : CheckoutSession
  events : List StripeEvent
  nodup : (events.map StripeEvent.id).Nodup
  checkout_mem : ∃ e ∈ events, e.object = .checkoutCompleted session
  checkout_unique : ∀ e ∈ events, ∀ session', e.object = .checkoutCompleted session' →
    session' = session
  created_mem : ∃ e ∈ events, e.object.isCreated = true
  refersTo : ∀ e ∈ events, e.object.RefersTo customer subscription
  -- `create_checkout` passes a chat id on only if it is not empty
  chat_ne : session.telegramChatId ≠ some ""

/-- The tier and the status of Stripe's last event that gives one. -/
def Purchase.tier (purchase : Purchase) : Option String :=
  ((purchase.events.map StripeEvent.object).filterMap givenTier).getLast?

def Purchase.status (purchase : Purchase) : Option String :=
  ((purchase.events.map StripeEvent.object).filterMap givenStatus).getLast?

/-- Deliveries of a purchase that the tables do not know yet, up to a time when each of
its events has been processed. -/
structure History (purchase : Purchase) where
  before : Db
  deliveries : List Delivery
  customer_new : before.customers.lookup purchase.customer = none
  subscription_new : before.subscriptions.lookup purchase.subscription = none
  owner_new : ∀ id row, before.subscriptions.lookup id = some row →
    row.customer ≠ purchase.customer
  chat_new : ∀ chat, purchase.session.telegramChatId = some chat →
    ∀ id row, before.customers.lookup id = some row → row.telegramChatId ≠ some chat
  events_new : ∀ e ∈ purchase.events, e.id ∉ before.events
  delivers : ∀ d ∈ deliveries, d.event ∈ purchase.events
  processed : ∀ e ∈ purchase.events, e.id ∈ (deliveries.foldl deliver before).events

section
variable {purchase : Purchase}

def History.after (history : History purchase) : Db :=
  history.deliveries.foldl deliver history.before

def History.outcomes (history : History purchase) : List (EventObject × Outcome) :=
  BillingOrder.outcomes history.before history.deliveries

/-- What the purchase should come to. -/
structure Settled (purchase : Purchase) (db : Db) : Prop where
  customer : ∃ row, db.customers.lookup purchase.customer = some row ∧
    some row.email = purchase.session.email ∧ row.telegramChatId = purchase.session.telegramChatId
  subscription : ∃ row, db.subscriptions.lookup purchase.subscription = some row ∧
    some row.tier = purchase.tier ∧ some row.status = purchase.status
  gate : ∀ chat, purchase.session.telegramChatId = some chat →
    some (getCustomerTier db chat).1 =
      if purchase.status = some "active" then purchase.tier else some "free"

/-- An event that inserts the customer's row where it is the first to do so. -/
def opens (object : EventObject) : Bool := (newCustomer object).isSome

def isCheckout : EventObject → Bool
  | .checkoutCompleted _ => true
  | _ => false

/-- From the first `customer.subscription.created` on. -/
def sinceCreated (l : List EventObject) : List EventObject :=
  l.dropWhile fun object => !object.isCreated

/-- The order in which the events are handled does no harm. -/
structure InOrder (purchase : Purchase) (l : List (EventObject × Outcome)) : Prop where
  customer : (∀ object, (begun l).find? opens = some object → isCheckout object = true) ∨
    purchase.session.email = some "" ∧ purchase.session.telegramChatId = none
  tier : ((sinceCreated (handled l)).filterMap givenTier).getLast? = purchase.tier
  status : ((sinceCreated (handled l)).filterMap givenStatus).getLast? = purchase.status

end

theorem findSome?_newCustomer (l : List EventObject) :
    l.findSome? newCustomer = (l.find? opens).bind newCustomer := by
  induction l with
  | nil => rfl
  | cons object l ih =>
    rw [List.findSome?_cons, List.find?_cons]
    cases h : newCustomer object with
    | none => simpa [opens, h] using ih
    | some row => simp [opens, h]

theorem begun_cons (o : EventObject × Outcome) (l : List (EventObject × Outcome)) :
    begun (o :: l) = if o.2 = .done ∨ o.2 = .halfway then o.1 :: begun l else begun l := by
  unfold begun
  rw [List.filter_cons]
  split_ifs <;> simp_all

theorem handled_cons (o : EventObject × Outcome) (l : List (EventObject × Outcome)) :
    handled (o :: l) = if o.2 = .done then o.1 :: handled l else handled l := by
  unfold handled
  rw [List.filter_cons]
  split_ifs <;> simp_all

section
variable {customer subscription : String} {db : Db} {deliveries : List Delivery}

/-- What a run does to the rows of its one customer and one subscription. -/
structure RunEffect (customer subscription : String) (db db' : Db)
    (l : List (EventObject × Outcome)) : Prop where
  customers : db'.customers.lookup customer =
    (db.customers.lookup customer).or ((begun l).findSome? newCustomer)
  subscriptions : (db'.subscriptions.lookup subscription).map standing =
    (handled l).foldl (fun old object => nextStanding object old)
      ((db.subscriptions.lookup subscription).map standing)
  owner : ∀ row, db'.subscriptions.lookup subscription = some row → row.customer = customer ∨
    ∃ old, db.subscriptions.lookup subscription = some old ∧ row.customer = old.customer
  otherCustomers : ∀ id ≠ customer, db'.customers.lookup id = db.customers.lookup id
  otherSubscriptions :
    ∀ id ≠ subscription, db'.subscriptions.lookup id = db.subscriptions.lookup id

theorem runEffect (h : ∀ d ∈ deliveries, d.event.object.RefersTo customer subscription) :
    RunEffect customer subscription db (deliveries.foldl deliver db) (outcomes db deliveries) := by
  induction deliveries generalizing db with
  | nil =>
    exact ⟨by simp [outcomes, begun], by simp [outcomes, handled], fun row hrow => .inr ⟨row, hrow, rfl⟩,
      fun _ _ => rfl, fun _ _ => rfl⟩
  | cons d deliveries ih =>
    have hhead := effect_stripeWebhook db (h d (by simp)) d.fault
    have htail := @ih (deliver db d) fun d' hd' => h d' (by simp [hd'])
    rw [List.foldl_cons]
    constructor
    · -- the first event that inserts a customer decides
      rw [htail.customers, deliver, hhead.customers, outcomes, begun_cons]
      simp only
      split_ifs
      · rw [List.findSome?_cons, Option.or_assoc]
        cases newCustomer d.event.object <;> rfl
      · rfl
    · -- each event that is handled moves the standing on
      rw [htail.subscriptions, deliver, hhead.subscriptions, outcomes, handled_cons]
      simp only
      split_ifs
      · rw [List.foldl_cons]
        rfl
      · rfl
    · intro row hrow
      rcases htail.owner row hrow with howner | ⟨old, hold, howner⟩
      · exact .inl howner
      · rw [howner]
        exact hhead.owner old hold
    · exact fun id hid => (htail.otherCustomers id hid).trans (hhead.otherCustomers id hid)
    · exact fun id hid => (htail.otherSubscriptions id hid).trans (hhead.otherSubscriptions id hid)

/-- An event that is recorded has been handled. -/
theorem mem_events_run {id : String} (h : id ∈ (deliveries.foldl deliver db).events) :
    id ∈ db.events ∨ ∃ d ∈ deliveries, d.event.id = id ∧
      d.event.object ∈ handled (outcomes db deliveries) := by
  induction deliveries generalizing db with
  | nil => exact .inl h
  | cons d deliveries ih =>
    rw [List.foldl_cons] at h
    rcases ih h with hbefore | ⟨d', hd', hid, hmem⟩
    · rcases mem_events_stripeWebhook hbefore with hbefore | ⟨hid, hdone⟩
      · exact .inl hbefore
      · exact .inr ⟨d, by simp, hid.symm, by simp [outcomes, handled, hdone]⟩
    · refine .inr ⟨d', by simp [hd'], hid, ?_⟩
      rw [outcomes, handled_cons]
      split_ifs
      · exact List.mem_cons_of_mem _ hmem
      · exact hmem

end

theorem sinceCreated_concat (l : List EventObject) (object : EventObject) :
    sinceCreated (l ++ [object]) =
      if sinceCreated l = [] then if object.isCreated then [object] else []
      else sinceCreated l ++ [object] := by
  unfold sinceCreated
  rw [List.dropWhile_append]
  by_cases h : l.dropWhile (fun object => !object.isCreated) = []
  · cases hc : object.isCreated <;> simp [h, hc]
  · simp [h]

theorem foldl_nextStanding_eq_none_iff (l : List EventObject) :
    l.foldl (fun old object => nextStanding object old) none = none ↔ sinceCreated l = [] := by
  induction l using List.reverseRecOn with
  | nil => simp [sinceCreated]
  | append_singleton l object ih =>
    rw [List.foldl_append, List.foldl_cons, List.foldl_nil, sinceCreated_concat]
    cases hc : object.isCreated with
    | true =>
      have hnext : nextStanding object (l.foldl (fun old object => nextStanding object old) none) ≠
          none := by
        cases object <;> first | exact Option.some_ne_none _ | cases hc
      simp only [hnext, ↓reduceIte, false_iff]
      split_ifs <;> simp
    | false =>
      rw [nextStanding_of_isCreated hc, Option.map_eq_none_iff, ih]
      by_cases hnil : sinceCreated l = [] <;> simp [hnil]

/-- One column of a subscription after a list of events: the last that was given it since
the row was created. The induction is on the list from its end. -/
theorem foldl_nextStanding {proj : String × String → String} {given : EventObject → Option String}
    (hcreated : ∀ object, object.isCreated = true → ∀ old,
      ∃ s, nextStanding object old = some s ∧ given object = some (proj s))
    (hstep : ∀ object, object.isCreated = false → ∀ s,
      (nextStanding object (some s)).map proj = some ((given object).getD (proj s)))
    (l : List EventObject) :
    (l.foldl (fun old object => nextStanding object old) none).map proj =
      ((sinceCreated l).filterMap given).getLast? := by
  induction l using List.reverseRecOn with
  | nil => simp [sinceCreated]
  | append_singleton l object ih =>
    rw [List.foldl_append, List.foldl_cons, List.foldl_nil, sinceCreated_concat]
    cases hc : object.isCreated with
    | true =>
      -- it gives the column whether or not there was a row
      obtain ⟨s, hs, hgiven⟩ := hcreated object hc
        (l.foldl (fun old object => nextStanding object old) none)
      rw [hs]
      by_cases hnil : sinceCreated l = []
      · simp [hnil, hgiven]
      · simp [hnil, hgiven]
    | false =>
      have hnone := foldl_nextStanding_eq_none_iff l
      cases hold : l.foldl (fun old object => nextStanding object old) none with
      | none =>
        -- no row yet, so that the event is lost
        rw [if_pos (hnone.mp hold), nextStanding_of_isCreated hc]
        simp
      | some s =>
        have hnil : sinceCreated l ≠ [] := fun hnil => by
          rw [hnone.mpr hnil] at hold
          cases hold
        rw [hold, Option.map_some] at ih
        rw [if_neg hnil, List.filterMap_append, hstep object hc s]
        cases hgiven : given object with
        | none => simpa [hgiven] using ih
        | some value => simp [hgiven]

theorem map_standing_fst (l : List EventObject) :
    (l.foldl (fun old object => nextStanding object old) none).map Prod.fst =
      ((sinceCreated l).filterMap givenTier).getLast? := by
  refine foldl_nextStanding ?_ ?_ l
  · intro object hcreated old
    cases object <;> first | exact ⟨_, rfl, rfl⟩ | cases hcreated
  · intro object hcreated s
    rw [nextStanding_of_isCreated hcreated]
    rfl

theorem map_standing_snd (l : List EventObject) :
    (l.foldl (fun old object => nextStanding object old) none).map Prod.snd =
      ((sinceCreated l).filterMap givenStatus).getLast? := by
  refine foldl_nextStanding ?_ ?_ l
  · intro object hcreated old
    cases object <;> first | exact ⟨_, rfl, rfl⟩ | cases hcreated
  · intro object hcreated s
    rw [nextStanding_of_isCreated hcreated]
    rfl

section
variable {purchase : Purchase} (history : History purchase)

theorem History.refersTo : ∀ d ∈ history.deliveries,
    d.event.object.RefersTo purchase.customer purchase.subscription :=
  fun d hd => purchase.refersTo d.event (history.delivers d hd)

theorem History.runEffect : RunEffect purchase.customer purchase.subscription history.before
    history.after history.outcomes := BillingOrder.runEffect history.refersTo

theorem eq_of_id_eq {e e' : StripeEvent} (he : e ∈ purchase.events) (he' : e' ∈ purchase.events)
    (h : e.id = e'.id) : e = e' :=
  List.inj_on_of_nodup_map purchase.nodup he he' h

/-- Every event of the purchase has been handled. -/
theorem History.mem_handled {e : StripeEvent} (he : e ∈ purchase.events) :
    e.object ∈ handled history.outcomes := by
  rcases mem_events_run (history.processed e he) with hbefore | ⟨d, hd, hid, hmem⟩
  · exact absurd hbefore (history.events_new e he)
  · rwa [eq_of_id_eq (history.delivers d hd) he hid] at hmem

theorem handled_subset_begun (l : List (EventObject × Outcome)) : handled l ⊆ begun l := by
  intro object hmem
  simp only [handled, begun, List.mem_map, List.mem_filter, decide_eq_true_eq] at hmem ⊢
  obtain ⟨o, ⟨ho, hdone⟩, rfl⟩ := hmem
  exact ⟨o, ⟨ho, .inl hdone⟩, rfl⟩

theorem mem_of_mem_begun {deliveries : List Delivery} {db : Db} {object : EventObject}
    (h : object ∈ begun (outcomes db deliveries)) : ∃ d ∈ deliveries, d.event.object = object := by
  induction deliveries generalizing db with
  | nil => simp [outcomes, begun] at h
  | cons d deliveries ih =>
    rw [outcomes, begun_cons] at h
    have htail (h : object ∈ begun (outcomes (deliver db d) deliveries)) :
        ∃ d' ∈ d :: deliveries, d'.event.object = object := by
      obtain ⟨d', hd', hobject⟩ := ih h
      exact ⟨d', by simp [hd'], hobject⟩
    split_ifs at h
    · rcases List.mem_cons.mp h with rfl | h
      · exact ⟨d, by simp, rfl⟩
      · exact htail h
    · exact htail h

/-- The row of the customer is the one of the checkout session, if that came first or
says nothing. -/
theorem History.customer_iff :
    (∃ row, history.after.customers.lookup purchase.customer = some row ∧
      some row.email = purchase.session.email ∧
      row.telegramChatId = purchase.session.telegramChatId) ↔
    ((∀ object, (begun history.outcomes).find? opens = some object → isCheckout object = true) ∨
      purchase.session.email = some "" ∧ purchase.session.telegramChatId = none) := by
  have hrow := history.runEffect.customers
  rw [history.customer_new, Option.none_or, findSome?_newCustomer] at hrow
  obtain ⟨created, hcreated, hiscreated⟩ := purchase.created_mem
  cases hfind : (begun history.outcomes).find? opens with
  | none =>
    -- the created event has been handled, and it opens
    have hopens := List.find?_eq_none.mp hfind created.object
      (handled_subset_begun _ (history.mem_handled hcreated))
    cases hobject : created.object <;> simp_all [EventObject.isCreated, opens, newCustomer]
  | some object =>
    rw [hfind, Option.bind_some] at hrow
    obtain ⟨d, hd, hobject⟩ := mem_of_mem_begun (List.mem_of_find?_eq_some hfind)
    have hopens : opens object = true := List.find?_some hfind
    cases object with
    | checkoutCompleted session =>
      obtain rfl := purchase.checkout_unique d.event (history.delivers d hd) session hobject
      cases hemail : purchase.session.email with
      | none => simp [opens, newCustomer, hemail] at hopens
      | some email => simp [hrow, newCustomer, hemail, isCheckout]
    | subscriptionCreated sub =>
      -- an empty e-mail and no chat, which is right only for a session that says the same
      simp only [hrow, newCustomer, Option.some.injEq, exists_eq_left', forall_eq', isCheckout,
        Bool.false_eq_true, false_or]
      exact and_congr eq_comm eq_comm
    | _ => simp [opens, newCustomer] at hopens

/-- The subscription's row has the tier and the status that were given last since it was
created. -/
theorem History.subscription_iff :
    (∃ row, history.after.subscriptions.lookup purchase.subscription = some row ∧
      some row.tier = purchase.tier ∧ some row.status = purchase.status) ↔
    ((sinceCreated (handled history.outcomes)).filterMap givenTier).getLast? = purchase.tier ∧
      ((sinceCreated (handled history.outcomes)).filterMap givenStatus).getLast? =
        purchase.status := by
  have hrow := history.runEffect.subscriptions
  rw [history.subscription_new, Option.map_none] at hrow
  rw [← map_standing_fst, ← map_standing_snd, ← hrow]
  obtain ⟨created, hcreated, hiscreated⟩ := purchase.created_mem
  cases hlookup : history.after.subscriptions.lookup purchase.subscription with
  | none =>
    -- there is a row, as the created event has been handled
    rw [hlookup, Option.map_none] at hrow
    have hnil := (foldl_nextStanding_eq_none_iff _).mp hrow.symm
    have hnot := List.dropWhile_eq_nil_iff.mp hnil _ (history.mem_handled hcreated)
    simp [hiscreated] at hnot
  | some row => simp [standing]

/-- Of the tables' other rows none has the chat or is the customer's. -/
theorem History.getCustomerTier_eq {row : Customer} {sub : Subscription} {chat : String}
    (hrow : history.after.customers.lookup purchase.customer = some row)
    (hrowchat : row.telegramChatId = purchase.session.telegramChatId)
    (hsub : history.after.subscriptions.lookup purchase.subscription = some sub)
    (hchat : purchase.session.telegramChatId = some chat) :
    (getCustomerTier history.after chat).1 =
      if sub.status = "active" then sub.tier else "free" := by
  have heffect := history.runEffect
  apply BillingWebhook.getCustomerTier_eq ?_ hrow (hrowchat.trans hchat) ?_ hsub ?_ ?_
  · rintro rfl
    exact purchase.chat_ne hchat
  · intro id other hother hotherchat
    by_contra hne
    rw [heffect.otherCustomers id hne] at hother
    exact history.chat_new chat hchat id other hother hotherchat
  · -- the row was created by an event of this customer
    rcases heffect.owner sub hsub with howner | ⟨old, hold, -⟩
    · exact howner
    · rw [history.subscription_new] at hold
      cases hold
  · intro id other hother howner
    by_contra hne
    rw [heffect.otherSubscriptions id hne] at hother
    exact history.owner_new id other hother howner

/-- Once every event has been processed, the purchase is settled if and only if the order
of the deliveries did no harm. -/
theorem settled_iff : Settled purchase history.after ↔ InOrder purchase history.outcomes := by
  constructor
  · intro h
    have hsub := history.subscription_iff.mp h.subscription
    exact ⟨history.customer_iff.mp h.customer, hsub.1, hsub.2⟩
  · intro h
    have hcustomer := history.customer_iff.mpr h.customer
    have hsubscription := history.subscription_iff.mpr ⟨h.tier, h.status⟩
    refine ⟨hcustomer, hsubscription, ?_⟩
    intro chat hchat
    obtain ⟨row, hrow, -, hrowchat⟩ := hcustomer
    obtain ⟨sub, hsub, htier, hstatus⟩ := hsubscription
    rw [history.getCustomerTier_eq hrow hrowchat hsub hchat, ← htier, ← hstatus]
    by_cases hactive : sub.status = "active" <;> simp [hactive]

end

def proSession : CheckoutSession := ⟨"cus_1", some "trader@example.com", "", some "42"⟩

def proSubscription : SubscriptionObject :=
  ⟨"sub_1", "cus_1", some "pro", some "active", some 0, some 2592000, false⟩

def proPurchase : Purchase where
  customer := "cus_1"
  subscription := "sub_1"
  session := proSession
  events := [⟨"evt_1", .checkoutCompleted proSession⟩, ⟨"evt_2", .subscriptionCreated proSubscription⟩]
  nodup := by decide
  checkout_mem := ⟨_, List.mem_cons_self, rfl⟩
  checkout_unique := by simp
  created_mem := ⟨⟨"evt_2", .subscriptionCreated proSubscription⟩, by simp, rfl⟩
  refersTo := by simp [EventObject.RefersTo, proSession, proSubscription]
  chat_ne := by decide

/-- The subscription's event comes first. -/
def lateCheckout : History proPurchase where
  before := ⟨∅, ∅, []⟩
  deliveries := [⟨⟨"evt_2", .subscriptionCreated proSubscription⟩, .none⟩,
    ⟨⟨"evt_1", .checkoutCompleted proSession⟩, .none⟩]
  customer_new := rfl
  subscription_new := rfl
  owner_new := by simp
  chat_new := by simp
  events_new := by simp
  delivers := by simp [proPurchase]
  processed := by decide +kernel

/-- The customer's row has neither the e-mail nor the chat, and a paying customer is
gated as `free`. -/
theorem lateCheckout_not_settled :
    getCustomerTier lateCheckout.after "42" = ("free", none) ∧
      ¬ Settled proPurchase lateCheckout.after := by
  have hgate : getCustomerTier lateCheckout.after "42" = ("free", none) := by decide +kernel
  refine ⟨hgate, fun h => ?_⟩
  have hpro := h.gate "42" rfl
  rw [hgate] at hpro
  exact absurd hpro (by decide +kernel)

end TradeStream.BillingOrder
