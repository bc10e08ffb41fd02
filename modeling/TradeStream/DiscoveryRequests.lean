import TradeStream.RunSteps

/-! The strategy discovery request factory: the requests of a timepoint, publishing them to
Kafka, and the tracker that says how far a currency pair is done. Timestamps are exact
milliseconds. -/
namespace TradeStream.DiscoveryRequests
open TradeStream.RunSteps

structure Config where
  minProcessingAdvanceMinutes : ℤ := 1
  fibonacciWindowsMinutes : List ℤ
  strategyNames : List String
  topN : ℤ := 5
  maxGenerations : ℤ := 30
  populationSize : ℤ := 50
  trackerServiceName : String := "strategy_discovery"

structure DiscoveryRequest where
  symbol : String
  startTime : ℤ
  endTime : ℤ
  strategyName : String
  topN : ℤ
  maxGenerations : ℤ
  populationSize : ℤ
  deriving DecidableEq

/-- What becomes of one attempt to send a message and to wait for its record. -/
inductive Attempt where
  | acknowledged
  /-- `KafkaConnectionError` or `KafkaTimeoutError`. -/
  | retryable
  | failed
  deriving DecidableEq

/-- `_publish_message_retryable` with so many attempts left. -/
def publishMessage : ℕ → (ℕ → Attempt) → Bool
  | 0, _ => false
  | n + 1, attempts =>
    match attempts 0 with
    | .acknowledged => true
    | .retryable => publishMessage n fun k => attempts (k + 1)
    | .failed => false

/-- `publish_request`: five attempts, and no word of a failure to the caller. The result
says whether Kafka has the request. -/
def publishRequest (attempts : ℕ → Attempt) : Bool := publishMessage 5 attempts

/-- `datetime` has the years 1 to 9999. -/
def IsDatetime (ms : ℤ) : Prop := -62135596800000 ≤ ms ∧ ms < 253402300800000

instance (ms : ℤ) : Decidable (IsDatetime ms) := inferInstanceAs (Decidable (_ ∧ _))

/-- A turn of `run` for one currency pair, with what its calls to the outside lead to: the
latest ingested timestamp of the global status (none also when the query fails), whether the
query of its own tracker fails, the attempts for each request, and whether the update of the
tracker fails. Runs are turns one after the other. -/
structure Turn where
  currencyPair : String
  latestIngested : Option ℤ
  trackerFails : Bool
  attempts : ℕ → ℕ → Attempt
  updateFails : Bool

structure World where
  /-- The points of the tracker, the latest first. -/
  tracker : List (String × ℤ)
  acknowledged : List DiscoveryRequest
  /-- The pairs and timestamps that the tracker was advanced to. -/
  advanced : List (String × ℤ)

variable (config : Config)

/-- `generate_requests_for_timepoint`; a window that starts before the first year raises. -/
def generateRequestsForTimepoint (currencyPair : String) (windowEnd : ℤ) :
    Option (List DiscoveryRequest) := do
  let windows ← (config.fibonacciWindowsMinutes.insertionSort (· ≤ ·)).mapM fun minutes =>
    let windowStart := windowEnd - minutes * 60000
    if IsDatetime windowStart then
      some (config.strategyNames.map fun strategyName =>
        ({ symbol := currencyPair
           startTime := windowStart
           endTime := windowEnd
           strategyName := strategyName
           topN := config.topN
           maxGenerations := config.maxGenerations
           populationSize := config.populationSize } : DiscoveryRequest))
    else none
  return windows.flatten

/-- `_get_sdrf_processed_tracker_key`. -/
def trackerKey (currencyPair : String) : String :=
  config.trackerServiceName ++ "_" ++ currencyPair.replace "/" "_" ++ "_sdrf_processed_end_ts"

def World.lastProcessed (w : World) (key : String) : Option ℤ :=
  (w.tracker.find? fun point => point.1 = key).map Prod.snd

/-- Where the pair was left, or 0. -/
def World.readTracker (w : World) (turn : Turn) : ℤ :=
  if turn.trackerFails then 0 else (w.lastProcessed (trackerKey config turn.currencyPair)).getD 0

/-- The requests that Kafka acknowledges of those published in turn. -/
def delivered (attempts : ℕ → ℕ → Attempt) (requests : List DiscoveryRequest) :
    List DiscoveryRequest :=
  (requests.zipIdx.filter fun request => publishRequest (attempts request.2)).map Prod.fst

def World.publish (w : World) (attempts : ℕ → ℕ → Attempt) (requests : List DiscoveryRequest) :
    World :=
  { w with acknowledged := w.acknowledged ++ delivered attempts requests }

def World.updateTracker (w : World) (currencyPair : String) (timestamp : ℤ) : World :=
  { w with
    tracker := (trackerKey config currencyPair, timestamp) :: w.tracker
    advanced := (currencyPair, timestamp) :: w.advanced }

/-- The requests that a turn publishes; none if it is skipped or raises before. -/
def World.generated (w : World) (turn : Turn) : Option (ℤ × List DiscoveryRequest) := do
  let latest ← turn.latestIngested
  if ¬ IsDatetime latest then none
  else if latest - w.readTracker config turn < config.minProcessingAdvanceMinutes * 60 * 1000 then
    none
  else
    let requests ← generateRequestsForTimepoint config turn.currencyPair latest
    return (latest, requests)

/-- One turn. The tracker is updated if there were requests, acknowledged or not. -/
def World.step (w : World) (turn : Turn) : World :=
  match w.generated config turn with
  | none => w
  | some (latest, requests) =>
    let w := w.publish turn.attempts requests
    -- no publish tells whether it has failed
    if requests = [] ∨ turn.updateFails then w
    else w.updateTracker config turn.currencyPair latest

/-- A publish that Kafka acknowledges: one of the first five attempts, after nothing but
errors that are tried again. -/
def Delivers (attempts : ℕ → Attempt) : Prop :=
  ∃ k < 5, attempts k = .acknowledged ∧ ∀ j < k, attempts j = .retryable

/-- Every request of a timepoint that the tracker was advanced to is acknowledged. -/
def NoneSkipped (w : World) : Prop :=
  ∀ currencyPair timestamp, (currencyPair, timestamp) ∈ w.advanced →
    ∃ requests, generateRequestsForTimepoint config currencyPair timestamp = some requests ∧
      ∀ request ∈ requests, request ∈ w.acknowledged

/-- A turn that updates the tracker publishes each of its requests with success, unless an
earlier turn has. -/
def DeliversAll (w : World) (turn : Turn) : Prop :=
  ∀ latest requests, w.generated config turn = some (latest, requests) →
    turn.updateFails = false → ∀ request ∈ requests, request ∈ w.acknowledged ∨
      ∃ i, requests[i]? = some request ∧ Delivers (turn.attempts i)

variable {config}

theorem publishMessage_iff (n : ℕ) (attempts : ℕ → Attempt) :
    publishMessage n attempts = true ↔
      ∃ k < n, attempts k = .acknowledged ∧ ∀ j < k, attempts j = .retryable := by
  induction n generalizing attempts with
  | zero => simp [publishMessage]
  | succ n ih =>
    rw [publishMessage]
    cases hfirst : attempts 0 with
    | acknowledged =>
      refine iff_of_true rfl ⟨0, n.succ_pos, hfirst, ?_⟩
      intro j hj
      omega
    | failed =>
      -- an error that is not retried ends the loop, whatever would come after it
      refine iff_of_false (by simp) ?_
      rintro ⟨k, -, hk, hretried⟩
      cases k with
      | zero => simp [hfirst] at hk
      | succ k => simpa [hfirst] using hretried 0 k.succ_pos
    | retryable =>
      -- the places of the attempts are one higher than in the rest
      simp only [ih]
      constructor
      · rintro ⟨k, hk, hack, hretried⟩
        refine ⟨k + 1, by omega, hack, ?_⟩
        intro j hj
        cases j with
        | zero => exact hfirst
        | succ j => exact hretried j (by omega)
      · rintro ⟨k, hk, hack, hretried⟩
        cases k with
        | zero => simp [hfirst] at hack
        | succ k =>
          refine ⟨k, by omega, hack, ?_⟩
          intro j hj
          exact hretried (j + 1) (by omega)

theorem mem_delivered_iff {attempts : ℕ → ℕ → Attempt} {requests : List DiscoveryRequest}
    {request : DiscoveryRequest} :
    request ∈ delivered attempts requests ↔
      ∃ i, requests[i]? = some request ∧ Delivers (attempts i) := by
  simp only [delivered, List.mem_map, List.mem_filter, Prod.exists, exists_and_right,
    exists_eq_right, List.mem_zipIdx_iff_getElem?, publishRequest, publishMessage_iff]
  rfl

theorem generate_of_generated {w : World} {turn : Turn} {latest : ℤ}
    {requests : List DiscoveryRequest}
    (h : w.generated config turn = some (latest, requests)) :
    generateRequestsForTimepoint config turn.currencyPair latest = some requests := by
  obtain ⟨ingested, -, h⟩ := Option.bind_eq_some_iff.mp h
  split_ifs at h
  obtain ⟨generated, hgenerate, h⟩ := Option.bind_eq_some_iff.mp h
  obtain ⟨rfl, rfl⟩ := Prod.mk.inj (Option.some.inj h)
  exact hgenerate

/-- What a turn does: it leaves the tracker alone, or advances it after its publishes. -/
theorem step_cases (w : World) (turn : Turn) :
    ((w.step config turn).advanced = w.advanced ∧
        (∀ request ∈ w.acknowledged, request ∈ (w.step config turn).acknowledged) ∧
        DeliversAll config w turn) ∨
      ∃ latest requests, w.generated config turn = some (latest, requests) ∧
        turn.updateFails = false ∧
        (w.step config turn).advanced = (turn.currencyPair, latest) :: w.advanced ∧
        (w.step config turn).acknowledged =
          w.acknowledged ++ delivered turn.attempts requests := by
  cases hgenerated : w.generated config turn with
  | none =>
    have hsame : w.step config turn = w := by rw [World.step, hgenerated]
    refine .inl ⟨by rw [hsame], ?_, ?_⟩
    · rw [hsame]
      exact fun _ h => h
    · intro latest requests h
      rw [hgenerated] at h
      cases h
  | some generated =>
    obtain ⟨latest, requests⟩ := generated
    have hstep : w.step config turn =
        if requests = [] ∨ turn.updateFails = true then w.publish turn.attempts requests
        else (w.publish turn.attempts requests).updateTracker config turn.currencyPair latest := by
      rw [World.step, hgenerated]
    -- no requests, or an update that fails: the tracker stays
    split_ifs at hstep with hkept
    · refine .inl ⟨by rw [hstep]; rfl, ?_, ?_⟩
      · intro request hrequest
        rw [hstep]
        exact List.mem_append_left _ hrequest
      · intro latest' requests' h hupdated
        rw [hgenerated] at h
        obtain ⟨rfl, rfl⟩ := Prod.mk.inj (Option.some.inj h)
        rcases hkept with rfl | hfails
        · simp
        · rw [hfails] at hupdated
          cases hupdated
    · obtain ⟨-, hupdated⟩ := not_or.mp hkept
      refine .inr ⟨latest, requests, rfl, by simpa using hupdated, ?_, ?_⟩
      · rw [hstep]
        rfl
      · rw [hstep]
        rfl

theorem noneSkipped_step_iff {w : World} (h : NoneSkipped config w) (turn : Turn) :
    NoneSkipped config (w.step config turn) ↔ DeliversAll config w turn := by
  rcases step_cases w turn with ⟨hsame, hkept, hdelivers⟩ |
    ⟨latest, requests, hgenerated, hupdated, hadvanced, hacknowledged⟩
  · refine iff_of_true ?_ hdelivers
    intro currencyPair timestamp hmem
    rw [hsame] at hmem
    obtain ⟨requests, hgenerate, hall⟩ := h currencyPair timestamp hmem
    exact ⟨requests, hgenerate, fun request hrequest => hkept request (hall request hrequest)⟩
  · have hgenerate := generate_of_generated hgenerated
    constructor
    · intro hskipped latest' requests' hgenerated' _ request hrequest
      rw [hgenerated] at hgenerated'
      obtain ⟨rfl, rfl⟩ := Prod.mk.inj (Option.some.inj hgenerated')
      obtain ⟨requests', hgenerate', hall⟩ :=
        hskipped turn.currencyPair latest (hadvanced ▸ List.mem_cons_self)
      rw [hgenerate] at hgenerate'
      obtain rfl := Option.some.inj hgenerate'
      have hmem := hall request hrequest
      rw [hacknowledged, List.mem_append, mem_delivered_iff] at hmem
      exact hmem
    · intro hdelivers currencyPair timestamp hmem
      rw [hadvanced] at hmem
      rw [hacknowledged]
      -- the timepoint of this turn, or one of an earlier turn
      rcases List.mem_cons.mp hmem with heq | hbefore
      · obtain ⟨rfl, rfl⟩ := Prod.mk.inj heq
        refine ⟨requests, hgenerate, ?_⟩
        intro request hrequest
        rw [List.mem_append, mem_delivered_iff]
        exact hdelivers timestamp requests hgenerated hupdated request hrequest
      · obtain ⟨requests', hgenerate', hall⟩ := h currencyPair timestamp hbefore
        exact ⟨requests', hgenerate', fun request hrequest =>
          List.mem_append_left _ (hall request hrequest)⟩

variable (config) in
/-- In every state of any runs the tracker was advanced past acknowledged requests only,
exactly if each turn that advances it delivers all of its requests. -/
theorem noneSkipped_iff (tracker : List (String × ℤ)) (turns : List Turn) :
    (∀ reached, reached <+: turns →
        NoneSkipped config (reached.foldl (World.step config) ⟨tracker, [], []⟩)) ↔
      ∀ earlier turn, earlier ++ [turn] <+: turns →
        DeliversAll config (earlier.foldl (World.step config) ⟨tracker, [], []⟩) turn := by
  have hinit : NoneSkipped config ⟨tracker, [], []⟩ := by simp [NoneSkipped]
  exact @forall_reached_iff_forall_step _ _ (World.step config) (fun _ => True)
    (NoneSkipped config) (DeliversAll config) (fun _ _ _ => trivial)
    (fun _ turn _ hskipped => noneSkipped_step_iff hskipped turn) _ trivial hinit turns

def oneWindow : Config := { fibonacciWindowsMinutes := [1597], strategyNames := ["SMA_RSI"] }

/-- Kafka is away for the whole turn: the request is lost and the window counts as done. -/
theorem brokersAway_skipped :
    ¬ ∀ reached, reached <+: [Turn.mk "BTC/USD" (some 1700000000000) false
        (fun _ _ => .retryable) false] →
      NoneSkipped oneWindow (reached.foldl (World.step oneWindow) ⟨[], [], []⟩) := by
  intro h
  let w := World.step oneWindow ⟨[], [], []⟩
    ⟨"BTC/USD", some 1700000000000, false, fun _ _ => .retryable, false⟩
  have hadvanced : ("BTC/USD", 1700000000000) ∈ w.advanced := by decide +kernel
  have hnone : w.acknowledged = [] := by decide +kernel
  obtain ⟨requests, hgenerate, hall⟩ := h _ List.prefix_rfl "BTC/USD" 1700000000000 hadvanced
  have hcount : (generateRequestsForTimepoint oneWindow "BTC/USD" 1700000000000).map
      List.length = some 1 := by decide +kernel
  rw [hgenerate, Option.map_some, Option.some.injEq] at hcount
  obtain ⟨request, hrequest⟩ := List.exists_mem_of_length_pos (hcount ▸ Nat.one_pos)
  have hmem : request ∈ w.acknowledged := hall request hrequest
  rw [hnone] at hmem
  cases hmem

end TradeStream.DiscoveryRequests
