import TradeStream.BillingWebhook
import TradeStream.Interleaving
import TradeStream.RunSteps

/-! The gate of signal delivery, with the daily quota of a free customer, for any number of
calls at the same time. -/
namespace TradeStream.SignalQuota
open TradeStream.BillingWebhook TradeStream.KeyedTable TradeStream.Interleaving
open TradeStream.RunSteps

/-- `signalsPerDay` is `none` for no limit. -/
structure Plan where
  tier : String
  signalsPerDay : Option ℕ
  realtime : Bool
  deriving DecidableEq

def freePlan : Plan := ⟨"free", some 3, false⟩

def proPlan : Plan := ⟨"pro", none, true⟩

def enterprisePlan : Plan := ⟨"enterprise", none, true⟩

def plans : List Plan := [freePlan, proPlan, enterprisePlan]

def getPlan (tier : String) : Plan := (plans.find? fun plan => plan.tier = tier).getD freePlan

def signalDelaySecondsFree : ℕ := 900

def freeTierMinGrades : List String := ["A", "B"]

/-- The tables of the accounts. `api_key` is a column of `billing_customers`. -/
structure Accounts where
  db : Db
  apiKeys : Table String String

/-- The arguments of `should_deliver_signal`, and the date on which it is called. -/
structure Call where
  telegramChatId : Option String
  apiKey : Option String
  qualityGrade : Option String
  date : ℤ
  deriving DecidableEq

structure Answer where
  deliver : Bool
  tier : String
  delaySeconds : ℕ
  reason : Option String
  deriving DecidableEq

/-- `signal_count` by customer and date. -/
abbrev Usage := Table (String × ℤ) ℕ

def apiKeyRows (accounts : Accounts) (apiKey : String) : List (String × String) :=
  (accounts.db.customers.entries.filter fun c =>
      accounts.apiKeys.lookup c.1 = some apiKey).flatMap fun c =>
    (joinedTiers accounts.db c.1).map fun tier => (tier, c.1)

/-- The rows that `get_customer_tier` takes the first of. The key counts only without a
chat. -/
def Call.tierRows (accounts : Accounts) (call : Call) : List (String × String) :=
  if call.telegramChatId.getD "" ≠ "" then
    BillingWebhook.tierRows accounts.db (call.telegramChatId.getD "")
  else if call.apiKey.getD "" ≠ "" then apiKeyRows accounts (call.apiKey.getD "")
  else []

def customerTier (accounts : Accounts) (call : Call) : String × Option String :=
  match call.tierRows accounts with
  | [] => ("free", none)
  | (tier, id) :: _ => (tier, some id)

/-- The tier of a customer who is registered. -/
def registeredTier (db : Db) (customer : String) : String :=
  ((joinedTiers db customer).head?).getD "free"

def currentCount (usage : Usage) (customer : String) (date : ℤ) : ℕ :=
  (usage.lookup (customer, date)).getD 0

structure Quota where
  allowed : Bool
  remaining : Option ℕ
  limit : Option ℕ
  deriving DecidableEq

def checkSignalQuota (usage : Usage) (customer : String) (date : ℤ) : Quota :=
  -- only the free plan has limits
  match freePlan.signalsPerDay with
  | none => ⟨true, none, none⟩
  | some limit =>
    let current := currentCount usage customer date
    ⟨current < limit, some (limit - current), some limit⟩

def recordSignalDelivery (usage : Usage) (customer : String) (date : ℤ) : Usage :=
  usage.insert (customer, date) (currentCount usage customer date + 1)

/-- The reason for which a grade does not pass. -/
def checkQualityGate (tier : String) (qualityGrade : Option String) : Option String :=
  if tier = "pro" ∨ tier = "enterprise" then none
  else
    match qualityGrade with
    | none => none
    | some grade =>
      if grade ∈ freeTierMinGrades then none
      else some ("Signal quality grade '" ++ grade ++ "' below free tier minimum (A/B required). " ++
        "Upgrade to Pro for all signal grades.")

def realtimeAnswer (tier : String) : Answer := ⟨true, tier, 0, none⟩

def refusal (tier reason : String) : Answer := ⟨false, tier, 0, some reason⟩

def delayedAnswer (tier : String) : Answer :=
  ⟨true, tier, signalDelaySecondsFree,
    some "Free tier signals are delayed by 15 minutes. Upgrade to Pro for real-time delivery."⟩

def limitReached (quota : Quota) : String :=
  "Daily signal limit reached (" ++ toString (quota.limit.getD 0) ++
    "/day). Upgrade to Pro for unlimited signals."

/-- The statement that a call executes next. -/
inductive Phase where
  | getCustomerTier
  | checkSignalQuota (tier customer : String)
  | recordSignalDelivery (tier customer : String)
  | answered (answer : Answer)
  | raised
  deriving DecidableEq

/-- What follows the tier: the answer, or the check of the quota. -/
def afterTier (call : Call) (tier : String) (customer : Option String) : Phase :=
  if (getPlan tier).realtime then .answered (realtimeAnswer tier)
  else
    match checkQualityGate tier call.qualityGrade with
    | some reason => .answered (refusal tier reason)
    | none =>
      match customer with
      | none => .answered (delayedAnswer tier)
      | some customer => .checkSignalQuota tier customer

/-- A statement, and the code up to the next one. -/
def succeed (accounts : Accounts) (call : Call) (usage : Usage) (phase : Phase) : Usage × Phase :=
  match phase with
  | .getCustomerTier =>
    let (tier, customer) := customerTier accounts call
    (usage, afterTier call tier customer)
  | .checkSignalQuota tier customer =>
    let quota := checkSignalQuota usage customer call.date
    -- the quota is decided here and never asked again
    (usage, if quota.allowed then .recordSignalDelivery tier customer
      else .answered (refusal tier (limitReached quota)))
  | .recordSignalDelivery tier customer =>
    (recordSignalDelivery usage customer call.date, .answered (delayedAnswer tier))
  | phase => (usage, phase)

/-- A statement that fails raises. -/
def fail (phase : Phase) : Phase :=
  match phase with
  | .answered answer => .answered answer
  | _ => .raised

def execute (accounts : Accounts) (call : Call) (succeeds : Bool) (usage : Usage) (phase : Phase) :
    Usage × Phase :=
  if succeeds then succeed accounts call usage phase else (usage, fail phase)

/-- The call is the customer's, is made on that date, and has answered that the signal is
to be delivered. -/
def Delivered (accounts : Accounts) (customer : String) (date : ℤ) (call : Call) (phase : Phase) :
    Prop :=
  (customerTier accounts call).2 = some customer ∧ call.date = date ∧
    ∃ answer, phase = .answered answer ∧ answer.deliver = true

/-- A customer on a plan with a quota. -/
def Free (accounts : Accounts) (customer : String) : Prop :=
  (getPlan (registeredTier accounts.db customer)).realtime = false

instance (accounts : Accounts) (customer : String) : Decidable (Free accounts customer) :=
  inferInstanceAs (Decidable (_ = _))

/-- Records of a delivery find the day's count below the limit. -/
def BelowLimit (call : Call) (succeeds : Bool) (usage : Usage) (phase : Phase) : Prop :=
  ∀ tier customer limit, phase = .recordSignalDelivery tier customer → succeeds = true →
    freePlan.signalsPerDay = some limit → currentCount usage customer call.date < limit

section
variable {accounts : Accounts} {customer : String} {call : Call}

/-- Every row of the join has the tier of its customer in it. -/
theorem tier_of_rows {db : Db} {customers : List (Σ _ : String, Customer)} {tier id : String}
    {rest : List (String × String)}
    (h : (customers.flatMap fun c => (joinedTiers db c.1).map fun tier => (tier, c.1)) =
      (tier, id) :: rest) : tier = registeredTier db id := by
  cases customers with
  | nil => cases h
  | cons c customers =>
    rw [List.flatMap_cons] at h
    cases htiers : joinedTiers db c.1 with
    | nil =>
      -- a customer without an active subscription still has a row
      unfold joinedTiers at htiers
      split at htiers
      · cases htiers
      · contradiction
    | cons first others =>
      rw [htiers, List.map_cons, List.cons_append, List.cons.injEq, Prod.mk.injEq] at h
      obtain ⟨⟨rfl, rfl⟩, -⟩ := h
      rw [registeredTier, htiers]
      rfl

theorem fst_customerTier (h : (customerTier accounts call).2 = some customer) :
    (customerTier accounts call).1 = registeredTier accounts.db customer := by
  -- the tier and the customer come from the same row
  unfold customerTier at h ⊢
  split at h
  · cases h
  · rename_i hrows
    obtain rfl := Option.some.inj h
    unfold Call.tierRows at hrows
    split_ifs at hrows
    · exact tier_of_rows hrows
    · exact tier_of_rows hrows

/-- A call that has come past its tier is for a free customer. -/
def Kept (accounts : Accounts) (call : Call) (phase : Phase) : Prop :=
  ∀ tier customer,
    phase = .checkSignalQuota tier customer ∨ phase = .recordSignalDelivery tier customer →
      (customerTier accounts call).2 = some customer ∧ Free accounts customer

variable (call customer) in
/-- What `afterTier` can be for a customer who is registered. -/
theorem afterTier_some (tier : String) :
    (∃ answer, afterTier call tier (some customer) = .answered answer ∧
      answer.deliver = (getPlan tier).realtime) ∨
    (afterTier call tier (some customer) = .checkSignalQuota tier customer ∧
      (getPlan tier).realtime = false) := by
  unfold afterTier
  by_cases hrealtime : (getPlan tier).realtime
  · rw [if_pos hrealtime]
    exact .inl ⟨_, rfl, hrealtime.symm⟩
  · rw [if_neg hrealtime]
    have hfalse := Bool.eq_false_iff.mpr hrealtime
    cases checkQualityGate tier call.qualityGrade with
    | some reason => exact .inl ⟨_, rfl, hfalse.symm⟩
    | none => exact .inr ⟨rfl, hfalse⟩

variable (call) in
theorem afterTier_none (tier : String) : ∃ answer, afterTier call tier none = .answered answer := by
  unfold afterTier
  split_ifs
  · exact ⟨_, rfl⟩
  · cases checkQualityGate tier call.qualityGrade with
    | some reason => exact ⟨_, rfl⟩
    | none => exact ⟨_, rfl⟩

theorem kept_execute {succeeds : Bool} {usage : Usage} {phase : Phase}
    (h : Kept accounts call phase) :
    Kept accounts call (execute accounts call succeeds usage phase).2 := by
  cases succeeds with
  -- the next phase is an answer or an exception
  | false => cases phase <;> simp_all [Kept, execute, fail]
  | true =>
    cases phase with
    | getCustomerTier =>
      simp only [execute, ↓reduceIte, succeed]
      cases hcustomer : (customerTier accounts call).2 with
      | none =>
        obtain ⟨answer, hanswer⟩ := afterTier_none call (customerTier accounts call).1
        simp [Kept, hanswer]
      | some customer =>
        have htier := fst_customerTier hcustomer
        obtain ⟨answer, hanswer, -⟩ | ⟨hcheck, hfree⟩ :=
          afterTier_some customer call (customerTier accounts call).1
        · simp [Kept, hanswer]
        -- the tier that sends the call on to the check is that of a plan with a quota
        · rw [htier] at hfree
          simpa [Kept, hcheck, hcustomer, Free] using hfree
    | checkSignalQuota tier customer =>
      simp only [execute, ↓reduceIte, succeed]
      split_ifs
      · simpa [Kept] using h
      · simp [Kept]
    | recordSignalDelivery tier customer => simp [Kept, execute, succeed]
    | answered answer => exact h
    | raised => exact h

/-- A delivery to the customer on the date is recorded by the statement. -/
def Records (customer : String) (date : ℤ) (call : Call) (succeeds : Bool) (phase : Phase) : Prop :=
  succeeds = true ∧ call.date = date ∧ ∃ tier, phase = .recordSignalDelivery tier customer

theorem currentCount_recordSignalDelivery (usage : Usage) (customer : String) (date : ℤ) :
    currentCount (recordSignalDelivery usage customer date) customer date =
      currentCount usage customer date + 1 := by
  simp [currentCount, recordSignalDelivery]

theorem currentCount_recordSignalDelivery_of_ne (usage : Usage) {customer customer' : String}
    {date date' : ℤ} (h : (customer', date') ≠ (customer, date)) :
    currentCount (recordSignalDelivery usage customer date) customer' date' =
      currentCount usage customer' date' := by
  rw [currentCount, recordSignalDelivery, AList.lookup_insert_ne h, currentCount]

theorem currentCount_execute_of_records {date : ℤ} {succeeds : Bool} {usage : Usage}
    {phase : Phase} (h : Records customer date call succeeds phase) :
    currentCount (execute accounts call succeeds usage phase).1 customer date =
      currentCount usage customer date + 1 := by
  obtain ⟨rfl, rfl, tier, rfl⟩ := h
  exact currentCount_recordSignalDelivery usage customer call.date

theorem currentCount_execute_of_not_records {date : ℤ} {succeeds : Bool} {usage : Usage}
    {phase : Phase} (h : ¬ Records customer date call succeeds phase) :
    currentCount (execute accounts call succeeds usage phase).1 customer date =
      currentCount usage customer date := by
  cases succeeds with
  | false => rfl
  | true =>
    cases phase with
    | recordSignalDelivery tier customer' =>
      -- the row is another customer's or another day's
      apply currentCount_recordSignalDelivery_of_ne
      intro heq
      obtain ⟨rfl, rfl⟩ := Prod.mk.inj heq
      exact h ⟨rfl, rfl, tier, rfl⟩
    | _ => rfl

theorem not_delivered_of_records {date : ℤ} {succeeds : Bool} {phase : Phase}
    (h : Records customer date call succeeds phase) :
    ¬ Delivered accounts customer date call phase := by
  obtain ⟨-, -, tier, rfl⟩ := h
  rintro ⟨-, -, answer, heq, -⟩
  cases heq

theorem delivered_execute_of_records {date : ℤ} {succeeds : Bool} {usage : Usage} {phase : Phase}
    (hkept : Kept accounts call phase) (h : Records customer date call succeeds phase) :
    Delivered accounts customer date call (execute accounts call succeeds usage phase).2 := by
  obtain ⟨rfl, hdate, tier, rfl⟩ := h
  exact ⟨(hkept tier customer (.inr rfl)).1, hdate, delayedAnswer tier, rfl, rfl⟩

/-- A free customer is delivered a signal only by the statement that records it. -/
theorem delivered_execute_iff {date : ℤ} {succeeds : Bool} {usage : Usage} {phase : Phase}
    (hfree : Free accounts customer) (hkept : Kept accounts call phase)
    (h : ¬ Records customer date call succeeds phase) :
    Delivered accounts customer date call (execute accounts call succeeds usage phase).2 ↔
      Delivered accounts customer date call phase := by
  apply and_congr_right
  intro hcustomer
  apply and_congr_right
  intro hdate
  cases succeeds with
  | false => cases phase <;> simp [execute, fail]
  | true =>
    cases phase with
    | getCustomerTier =>
      have htier := fst_customerTier hcustomer
      have hplan : (getPlan (customerTier accounts call).1).realtime = false := by
        rwa [htier]
      simp only [execute, ↓reduceIte, succeed, hcustomer]
      obtain ⟨answer, hanswer, hdeliver⟩ | ⟨hcheck, -⟩ :=
        afterTier_some customer call (customerTier accounts call).1
      -- an answer before the check delivers only on a realtime plan
      · simp [hanswer, hdeliver, hplan]
      · simp [hcheck]
    | checkSignalQuota tier customer' =>
      simp only [execute, ↓reduceIte, succeed]
      split_ifs <;> simp [refusal]
    | recordSignalDelivery tier customer' =>
      -- it would be a record for this customer
      have hsame := (hkept tier customer' (.inr rfl)).1
      obtain rfl := Option.some.inj (hcustomer.symm.trans hsame)
      exact absurd ⟨rfl, hdate, tier, rfl⟩ h
    | answered answer => exact Iff.rfl
    | raised => exact Iff.rfl

end

section
variable {ι : Type*} [DecidableEq ι] (accounts : Accounts) (calls : ι → Call)

omit [DecidableEq ι] in
variable (ι) in
/-- No signal has been delivered yet. -/
def start : World ι Usage Phase := ⟨∅, fun _ => .getCustomerTier⟩

/-- The next statement of a call. Its input says whether it succeeds. -/
def next (world : World ι Usage Phase) (turn : Turn ι Bool) : World ι Usage Phase :=
  world.step (fun i => execute accounts (calls i)) turn

/-- No free customer is delivered more on a day than the plan allows. -/
def WithinQuota (world : World ι Usage Phase) : Prop :=
  ∀ customer, Free accounts customer → ∀ date limit, freePlan.signalsPerDay = some limit →
    tally (fun i => Delivered accounts customer date (calls i)) world.processes ≤ limit

/-- The count of a day is that of the deliveries. -/
structure Inv (world : World ι Usage Phase) : Prop where
  kept : ∀ i, Kept accounts (calls i) (world.processes i)
  counted : ∀ customer, Free accounts customer → ∀ date,
    tally (fun i => Delivered accounts customer date (calls i)) world.processes =
      currentCount world.db customer date

omit [DecidableEq ι] in
theorem inv_start : Inv accounts calls (start ι) where
  kept i := by simp [Kept, start]
  counted customer _ date := by
    rw [tally_eq_zero]
    · simp [start, currentCount]
    · rintro i ⟨-, -, answer, heq, -⟩
      cases heq

theorem tally_next_of_records {world : World ι Usage Phase} (h : Inv accounts calls world)
    {turn : Turn ι Bool} {customer : String} {date : ℤ} (hfree : Free accounts customer)
    (hrecords : Records customer date (calls turn.process) turn.input
      (world.processes turn.process)) :
    tally (fun i => Delivered accounts customer date (calls i))
        (next accounts calls world turn).processes =
      (currentCount world.db customer date + 1 : ℕ) := by
  rw [next, processes_step, tally_update_of_not
    (A := fun i => Delivered accounts customer date (calls i)) (not_delivered_of_records hrecords)
    (delivered_execute_of_records (h.kept turn.process) hrecords), h.counted customer hfree date]
  rfl

theorem tally_next_of_not_records {world : World ι Usage Phase} (h : Inv accounts calls world)
    {turn : Turn ι Bool} {customer : String} {date : ℤ} (hfree : Free accounts customer)
    (hrecords : ¬ Records customer date (calls turn.process) turn.input
      (world.processes turn.process)) :
    tally (fun i => Delivered accounts customer date (calls i))
        (next accounts calls world turn).processes =
      tally (fun i => Delivered accounts customer date (calls i)) world.processes := by
  rw [next, processes_step,
    tally_update_of_iff (A := fun i => Delivered accounts customer date (calls i))
      (delivered_execute_iff hfree (h.kept turn.process) hrecords)]

theorem inv_next {world : World ι Usage Phase} (h : Inv accounts calls world)
    (turn : Turn ι Bool) : Inv accounts calls (next accounts calls world turn) where
  kept := by
    apply forall_processes_step (fun i => execute accounts (calls i))
      (K := fun i _ phase => Kept accounts (calls i) phase) h.kept
    · exact kept_execute (h.kept turn.process)
    · exact fun _ _ hj => hj
  counted customer hfree date := by
    by_cases hrecords : Records customer date (calls turn.process) turn.input
        (world.processes turn.process)
    -- one delivery more on both sides
    · rw [tally_next_of_records accounts calls h hfree hrecords, next, db_step,
        currentCount_execute_of_records hrecords]
    · rw [tally_next_of_not_records accounts calls h hfree hrecords, next, db_step,
        currentCount_execute_of_not_records hrecords, h.counted customer hfree date]

theorem withinQuota_next_iff {world : World ι Usage Phase} (h : Inv accounts calls world)
    (hwithin : WithinQuota accounts calls world) (turn : Turn ι Bool) :
    WithinQuota accounts calls (next accounts calls world turn) ↔
      BelowLimit (calls turn.process) turn.input world.db (world.processes turn.process) := by
  constructor
  · intro hnext tier customer limit hphase hsucceeds hlimit
    have hfree := (h.kept turn.process tier customer (.inr hphase)).2
    -- the record has counted this delivery in
    have hle := hnext customer hfree (calls turn.process).date limit hlimit
    rw [tally_next_of_records accounts calls h hfree ⟨hsucceeds, rfl, tier, hphase⟩] at hle
    exact Nat.cast_le.mp hle
  · intro hbelow customer hfree date limit hlimit
    by_cases hrecords : Records customer date (calls turn.process) turn.input
        (world.processes turn.process)
    · rw [tally_next_of_records accounts calls h hfree hrecords]
      obtain ⟨hsucceeds, rfl, tier, hphase⟩ := hrecords
      exact Nat.cast_le.mpr (hbelow tier customer limit hphase hsucceeds hlimit)
    · rw [tally_next_of_not_records accounts calls h hfree hrecords]
      exact hwithin customer hfree date limit hlimit

omit [DecidableEq ι] in
theorem withinQuota_start : WithinQuota accounts calls (start ι) := by
  intro customer _ date limit _
  rw [tally_eq_zero]
  · exact bot_le
  · rintro i ⟨-, -, answer, heq, -⟩
    cases heq

/-- In every interleaving of any number of calls a free customer stays within the quota, if
and only if every record of a delivery finds the day's count below it. The check before it
is an earlier statement, which promises nothing. -/
theorem withinQuota_iff (turns : List (Turn ι Bool)) :
    (∀ reached, reached <+: turns →
      WithinQuota accounts calls (reached.foldl (next accounts calls) (start ι))) ↔
    ∀ earlier turn, earlier ++ [turn] <+: turns →
      let world := earlier.foldl (next accounts calls) (start ι)
      BelowLimit (calls turn.process) turn.input world.db (world.processes turn.process) := by
  apply forall_reached_iff_forall_step (next accounts calls) (I := Inv accounts calls)
    (P := WithinQuota accounts calls)
    (C := fun world turn =>
      BelowLimit (calls turn.process) turn.input world.db (world.processes turn.process))
  · exact fun world turn h => inv_next accounts calls h turn
  · exact fun world turn h hwithin => withinQuota_next_iff accounts calls h hwithin turn
  · exact inv_start accounts calls
  · exact withinQuota_start accounts calls

end

/-- One customer, on no subscription. -/
def oneCustomer : Accounts :=
  ⟨⟨(∅ : Table String Customer).insert "cus" ⟨"a@b", some "7"⟩, ∅, []⟩, ∅⟩

def sameCall (_ : Fin 4) : Call := ⟨some "7", none, some "A", 0⟩

/-- Four calls that all check the quota before the first one records its delivery. -/
def burst : List (Turn (Fin 4) Bool) :=
  (List.replicate 3 (List.finRange 4)).flatten.map fun i => ⟨i, true⟩

theorem burst_delivers (i : Fin 4) :
    (burst.foldl (next oneCustomer sameCall) (start (Fin 4))).processes i =
      .answered (delayedAnswer "free") := by
  revert i
  decide +kernel

/-- All four are delivered, and the plan has three. -/
theorem burst_not_withinQuota :
    ¬ WithinQuota oneCustomer sameCall (burst.foldl (next oneCustomer sameCall) (start (Fin 4))) := by
  intro h
  have hle := h "cus" (show Free oneCustomer "cus" by decide +kernel) 0 3 rfl
  have hall : {i : Fin 4 | Delivered oneCustomer "cus" 0 (sameCall i)
      ((burst.foldl (next oneCustomer sameCall) (start (Fin 4))).processes i)} = Set.univ := by
    ext i
    have hcustomer : (customerTier oneCustomer (sameCall 0)).2 = some "cus" := by decide +kernel
    exact iff_of_true ⟨hcustomer, rfl, delayedAnswer "free", burst_delivers i, rfl⟩ trivial
  rw [tally, hall, Set.encard_univ, ENat.card_eq_coe_fintype_card, Fintype.card_fin] at hle
  exact absurd (Nat.cast_le.mp hle) (by decide)

end TradeStream.SignalQuota
