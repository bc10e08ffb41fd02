import TradeStream.SignalPipeline

/-! The drawdown that the risk manager compares with its limit. It is in percent of the
portfolio, as the results that are recorded are. -/
namespace TradeStream.SignalPipeline

variable {ι : Type}

/-- The result that an event records. -/
def Event.pnl : Event ι → ℚ
  | .closed pnlPct => pnlPct
  | _ => 0

def Event.isReset : Event ι → Bool
  | .resetDaily => true
  | _ => false

/-- The PnL recorded since the last daily reset. -/
def dailyPnl (events : List (Event ι)) : ℚ :=
  ((events.reverse.takeWhile fun event => !event.isReset).map Event.pnl).sum

/-- The PnL recorded from the start on. -/
def cumulativePnl (events : List (Event ι)) : ℚ := (events.map Event.pnl).sum

/-- The losses against an earlier state of the cumulative PnL. -/
def peakLosses (events : List (Event ι)) : Set ℚ :=
  {loss | ∃ earlier later, earlier <+: later ∧ later <+: events ∧
    loss = cumulativePnl earlier - cumulativePnl later}

/-- The losses of a day, at any time in it. -/
def dailyLosses (events : List (Event ι)) : Set ℚ :=
  {loss | ∃ reached, reached <+: events ∧ loss = -dailyPnl reached}

/-- The drawdown is the largest of the losses, and the limit is compared with it. -/
structure Compares (config : RiskConfig) (losses : Set ℚ) (risk : RiskManager) : Prop where
  isGreatest : IsGreatest losses risk.maxDrawdownPct
  rejects : ∀ now signal, (∃ drawdown, .drawdown drawdown config.maxDrawdownPct ∈
      rejections config risk now signal) ↔ config.maxDrawdownPct ≤ risk.maxDrawdownPct

theorem dailyPnl_nil : dailyPnl ([] : List (Event ι)) = 0 := rfl

theorem dailyPnl_concat (events : List (Event ι)) (event : Event ι) :
    dailyPnl (events ++ [event]) =
      if event.isReset then 0 else dailyPnl events + event.pnl := by
  rw [dailyPnl, List.reverse_append, List.reverse_singleton, List.singleton_append,
    List.takeWhile_cons]
  cases event.isReset with
  | true => rfl
  | false =>
    rw [dailyPnl]
    simp [add_comm]

theorem dailyLosses_nil : dailyLosses ([] : List (Event ι)) = {0} := by
  ext loss
  simp [dailyLosses, dailyPnl_nil]

theorem dailyLosses_concat (events : List (Event ι)) (event : Event ι) :
    dailyLosses (events ++ [event]) =
      insert (-dailyPnl (events ++ [event])) (dailyLosses events) := by
  ext loss
  simp only [dailyLosses, Set.mem_ofPred_eq, Set.mem_insert_iff, List.prefix_concat_iff]
  constructor
  · rintro ⟨reached, rfl | hreached, rfl⟩
    · exact Or.inl rfl
    · exact Or.inr ⟨reached, hreached, rfl⟩
  · rintro (rfl | ⟨reached, hreached, rfl⟩)
    · exact ⟨_, Or.inl rfl, rfl⟩
    · exact ⟨reached, Or.inr hreached, rfl⟩

theorem neg_dailyPnl_mem (events : List (Event ι)) : -dailyPnl events ∈ dailyLosses events :=
  ⟨events, List.prefix_rfl, rfl⟩

theorem zero_mem_dailyLosses (events : List (Event ι)) : (0 : ℚ) ∈ dailyLosses events :=
  ⟨[], List.nil_prefix, by rw [dailyPnl_nil, neg_zero]⟩

theorem mem_rejectIf {broken : Prop} [Decidable broken] {reason reason' : Rejection} :
    reason ∈ rejectIf broken reason' ↔ broken ∧ reason = reason' := by
  unfold rejectIf
  split_ifs with hbroken <;> simp [hbroken]

theorem drawdown_mem_rejections (config : RiskConfig) (risk : RiskManager) (now : ℚ)
    (signal : FusedSignal) :
    (∃ drawdown, .drawdown drawdown config.maxDrawdownPct ∈ rejections config risk now signal) ↔
      config.maxDrawdownPct ≤ risk.maxDrawdownPct := by
  simp [rejections, mem_rejectIf]

section
variable [DecidableEq ι] (config : RiskConfig)

/-- The numbers of the second state are those of the first. -/
def SamePnl (risk risk' : RiskManager) : Prop :=
  risk'.dailyPnlPct = risk.dailyPnlPct ∧ risk'.maxDrawdownPct = risk.maxDrawdownPct

theorem samePnl_checkSignal (risk : RiskManager) (now : ℚ) (signal : FusedSignal) :
    SamePnl risk (checkSignal config risk now signal).2 := by
  unfold checkSignal
  split_ifs <;> exact ⟨rfl, rfl⟩

theorem samePnl_step (world : World ι) {event : Event ι}
    (hclosed : ∀ pnlPct, event ≠ .closed pnlPct) (hreset : event ≠ .resetDaily) :
    SamePnl world.risk (world.step config event).risk := by
  cases event with
  | closed pnlPct => exact absurd rfl (hclosed pnlPct)
  | resetDaily => exact absurd rfl hreset
  | wait seconds => exact ⟨rfl, rfl⟩
  | close position => exact ⟨rfl, rfl⟩
  | exposure exposurePct => exact ⟨rfl, rfl⟩
  | check run decisionId signal =>
    have hcheck := samePnl_checkSignal config world.risk world.now signal
    simp only [World.step]
    split_ifs
    · rcases hresult : checkSignal config world.risk world.now signal with ⟨_ | result, risk⟩
      · rw [hresult] at hcheck
        exact hcheck
      · rw [hresult] at hcheck
        exact hcheck
    · exact ⟨rfl, rfl⟩
  | dedup run =>
    simp only [World.step, World.dedup]
    split
    · split_ifs <;> exact ⟨rfl, rfl⟩
    · exact ⟨rfl, rfl⟩
  | emit run mcp publish =>
    simp only [World.step, World.emit]
    split <;> exact ⟨rfl, rfl⟩
  | record run entryPrice =>
    simp only [World.step, World.record]
    split <;> exact ⟨rfl, rfl⟩

/-- A drawdown that is not negative becomes the larger of itself and the loss of the day. -/
theorem maxDrawdownPct_recordSignalClosed (risk : RiskManager) (hnonneg : 0 ≤ risk.maxDrawdownPct)
    (pnlPct : ℚ) :
    (recordSignalClosed risk pnlPct).maxDrawdownPct =
      max (-(risk.dailyPnlPct + pnlPct)) risk.maxDrawdownPct := by
  simp only [recordSignalClosed]
  split_ifs with hdeeper
  · have hneg : risk.dailyPnlPct + pnlPct < 0 := by linarith
    rw [abs_of_neg hneg, max_eq_left (by linarith)]
  · rw [max_eq_right (by linarith)]

/-- What the two numbers say of the events. -/
structure Tracks (events : List (Event ι)) (risk : RiskManager) : Prop where
  daily : risk.dailyPnlPct = dailyPnl events
  isGreatest : IsGreatest (dailyLosses events) risk.maxDrawdownPct

variable {config}

theorem Tracks.step {events : List (Event ι)} {world : World ι} (h : Tracks events world.risk)
    (event : Event ι) : Tracks (events ++ [event]) (world.step config event).risk := by
  have hconcat := dailyPnl_concat events event
  by_cases hclosed : ∃ pnlPct, event = .closed pnlPct
  · obtain ⟨pnlPct, rfl⟩ := hclosed
    have hnonneg := h.isGreatest.2 (zero_mem_dailyLosses events)
    have hdaily : world.risk.dailyPnlPct + pnlPct = dailyPnl (events ++ [.closed pnlPct]) := by
      rw [hconcat, h.daily]
      rfl
    refine ⟨hdaily, ?_⟩
    rw [dailyLosses_concat, ← hdaily]
    have hmax := maxDrawdownPct_recordSignalClosed world.risk hnonneg pnlPct
    have hinsert := h.isGreatest.insert (-(world.risk.dailyPnlPct + pnlPct))
    rw [← hmax] at hinsert
    exact hinsert
  by_cases hreset : event = .resetDaily
  · -- a new day is at no loss, and zero was among the losses before
    subst hreset
    have hzero : dailyPnl (events ++ [Event.resetDaily]) = 0 := hconcat
    refine ⟨hzero.symm, ?_⟩
    rw [dailyLosses_concat, hzero, neg_zero, Set.insert_eq_of_mem (zero_mem_dailyLosses events)]
    exact h.isGreatest
  · -- nothing else is recorded
    have hquiet : event.isReset = false ∧ event.pnl = 0 := by
      cases event with
      | closed pnlPct => exact absurd ⟨pnlPct, rfl⟩ hclosed
      | resetDaily => exact absurd rfl hreset
      | _ => exact ⟨rfl, rfl⟩
    have hsame : dailyPnl (events ++ [event]) = dailyPnl events := by
      rw [hconcat, hquiet.1, hquiet.2, add_zero]
      rfl
    obtain ⟨hdaily, hmax⟩ := samePnl_step config world (not_exists.mp hclosed) hreset
    refine ⟨by rw [hdaily, hsame, h.daily], ?_⟩
    rw [dailyLosses_concat, hsame, Set.insert_eq_of_mem (neg_dailyPnl_mem events), hmax]
    exact h.isGreatest

variable (config) in
theorem tracks_run (start : {t : ℚ // dedupWindowSeconds ≤ t}) (events : List (Event ι)) :
    Tracks events (events.foldl (World.step config) (.init ι start)).risk := by
  induction events using List.reverseRecOn with
  | nil =>
    refine ⟨rfl, ?_⟩
    rw [dailyLosses_nil]
    exact isGreatest_singleton
  | append_singleton events event ih =>
    rw [List.foldl_append]
    exact ih.step event

variable (config) in
/-- The drawdown is the largest loss of a day that there has been, the present day included. -/
theorem compares_dailyLosses (start : {t : ℚ // dedupWindowSeconds ≤ t})
    (events : List (Event ι)) :
    Compares config (dailyLosses events)
        (events.foldl (World.step config) (.init ι start)).risk ∧
      -dailyPnl events ≤ (events.foldl (World.step config) (.init ι start)).risk.maxDrawdownPct := by
  have htracks := tracks_run config start events
  refine ⟨⟨htracks.isGreatest, drawdown_mem_rejections config _⟩, ?_⟩
  exact htracks.isGreatest.2 (neg_dailyPnl_mem events)

end

/-- A gain of 10 and then a loss of 5 are no loss of the day. -/
theorem not_compares_peakLosses :
    ¬ Compares .default (peakLosses [Event.closed (ι := Unit) 10, .closed (-5)])
      ([Event.closed (ι := Unit) 10, .closed (-5)].foldl (World.step .default)
        (.init Unit ⟨1000, dedupWindowSeconds_le⟩)).risk := by
  intro h
  have hloss : (5 : ℚ) ∈ peakLosses [Event.closed (ι := Unit) 10, .closed (-5)] :=
    ⟨[.closed 10], [.closed 10, .closed (-5)], by simp, List.prefix_rfl,
      by norm_num [cumulativePnl, Event.pnl]⟩
  have hle := h.isGreatest.2 hloss
  norm_num [World.step, World.init, RiskManager.init, recordSignalClosed] at hle

end TradeStream.SignalPipeline
