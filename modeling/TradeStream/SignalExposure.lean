import TradeStream.SignalPipeline

/-! The limits of the risk manager against the positions behind its emissions. -/
namespace TradeStream.SignalPipeline
open TradeStream.RunSteps

/-- The sizes of the open positions. -/
def openExposure (positions : List Position) : ℚ :=
  ((positions.filter fun p => p.isOpen).map Position.sizePct).sum

/-- The emissions of a symbol in the hour up to `t`. -/
def emissionsWithin (positions : List Position) (symbol : String) (t : ℚ) : ℕ :=
  positions.countP fun p => p.symbol = symbol ∧ t - 3600 < p.time ∧ p.time ≤ t

theorem openExposure_cons (p : Position) (positions : List Position) :
    openExposure (p :: positions) =
      (if p.isOpen then p.sizePct else 0) + openExposure positions := by
  cases h : p.isOpen <;> simp [openExposure, h]

theorem openExposure_concat (positions : List Position) (p : Position) (h : p.isOpen = true) :
    openExposure (positions ++ [p]) = openExposure positions + p.sizePct := by
  simp [openExposure, List.filter_append, h]

/-- A position that is closed takes its size away. -/
theorem openExposure_modify_le {positions : List Position} (h : ∀ p ∈ positions, 0 ≤ p.sizePct)
    (i : ℕ) : openExposure (positions.modify i fun p => { p with isOpen := false }) ≤
      openExposure positions := by
  induction positions generalizing i with
  | nil => simp
  | cons p positions ih =>
    have hp := h p List.mem_cons_self
    cases i with
    | zero =>
      rw [List.modify_zero_cons, openExposure_cons, openExposure_cons]
      cases p.isOpen <;> simp [hp]
    | succ i =>
      rw [List.modify_succ_cons, openExposure_cons, openExposure_cons]
      have htail := ih (fun q hq => h q (List.mem_cons_of_mem _ hq)) i
      linarith

theorem emissionsWithin_cons (p : Position) (positions : List Position) (symbol : String) (t : ℚ) :
    emissionsWithin (p :: positions) symbol t = emissionsWithin positions symbol t +
      if p.symbol = symbol ∧ t - 3600 < p.time ∧ p.time ≤ t then 1 else 0 := by
  simp [emissionsWithin, List.countP_cons]

theorem emissionsWithin_modify (positions : List Position) (i : ℕ) (symbol : String) (t : ℚ) :
    emissionsWithin (positions.modify i fun p => { p with isOpen := false }) symbol t =
      emissionsWithin positions symbol t := by
  induction positions generalizing i with
  | nil => simp
  | cons p positions ih =>
    cases i with
    | zero => rw [List.modify_zero_cons, emissionsWithin_cons, emissionsWithin_cons]
    | succ i => rw [List.modify_succ_cons, emissionsWithin_cons, emissionsWithin_cons, ih i]

theorem mem_modify_close {positions : List Position} {i : ℕ} {p : Position}
    (h : p ∈ positions.modify i fun p => { p with isOpen := false }) :
    ∃ q ∈ positions, q.time = p.time ∧ q.sizePct = p.sizePct := by
  induction positions generalizing i with
  | nil => simp at h
  | cons q positions ih =>
    cases i with
    | zero =>
      rw [List.modify_zero_cons, List.mem_cons] at h
      rcases h with rfl | h
      · exact ⟨q, List.mem_cons_self, rfl, rfl⟩
      · exact ⟨p, List.mem_cons_of_mem _ h, rfl, rfl⟩
    | succ i =>
      rw [List.modify_succ_cons, List.mem_cons] at h
      rcases h with rfl | h
      · exact ⟨p, List.mem_cons_self, rfl, rfl⟩
      · obtain ⟨r, hr, hrest⟩ := ih h
        exact ⟨r, List.mem_cons_of_mem _ hr, hrest⟩

theorem emissionsWithin_concat (positions : List Position) (p : Position) (symbol : String) (t : ℚ) :
    emissionsWithin (positions ++ [p]) symbol t = emissionsWithin positions symbol t +
      if p.symbol = symbol ∧ t - 3600 < p.time ∧ p.time ≤ t then 1 else 0 := by
  simp [emissionsWithin, List.countP_append, List.countP_singleton]

/-- Of all hours that reach up to now, the last holds the most emissions. -/
theorem emissionsWithin_le_now {positions : List Position} {now : ℚ}
    (h : ∀ p ∈ positions, p.time ≤ now) (symbol : String) {t : ℚ} (ht : now ≤ t) :
    emissionsWithin positions symbol t ≤ emissionsWithin positions symbol now := by
  apply List.countP_mono_left
  intro p hp
  simp only [decide_eq_true_eq]
  rintro ⟨hsymbol, hafter, -⟩
  exact ⟨hsymbol, by linarith, h p hp⟩

section
variable {ι : Type} (config : RiskConfig)

/-- The open positions stay within the portfolio's limit, and no window of an hour has
more emissions of a symbol than its limit. -/
structure World.WithinLimits (world : World ι) : Prop where
  exposure : openExposure world.positions ≤ config.maxPortfolioExposurePct
  hourly : ∀ symbol t,
    emissionsWithin world.positions symbol t ≤ config.maxSignalsPerSymbolPerHour

/-- When a signal is emitted there is room for its size beside the open positions, and
for one more emission of its symbol in the last hour. -/
def World.HasRoom (world : World ι) : Event ι → Prop
  | .emit run _ _ => ∀ decisionId signal result,
      world.phases run = .cleared decisionId signal result →
        openExposure world.positions + result.positionSizePct ≤ config.maxPortfolioExposurePct ∧
        emissionsWithin world.positions signal.symbol world.now < config.maxSignalsPerSymbolPerHour
  | _ => True

/-- Emissions are of the past, and sizes are not negative. -/
structure World.Sound (world : World ι) : Prop where
  times : ∀ p ∈ world.positions, p.time ≤ world.now
  sizes : ∀ p ∈ world.positions, 0 ≤ p.sizePct
  results : ∀ run decisionId signal result,
    world.phases run = .checked decisionId signal result ∨
      world.phases run = .cleared decisionId signal result → 0 ≤ result.positionSizePct

theorem checkSignal_size_nonneg {risk : RiskManager} {now : ℚ} {signal : FusedSignal}
    {result : RiskCheckResult} (h : result ∈ (checkSignal config risk now signal).1) :
    0 ≤ result.positionSizePct := by
  unfold checkSignal at h
  split_ifs at h
  · obtain rfl := Option.some.inj h
    exact le_rfl
  · simp only [checkTrade] at h
    split_ifs at h
    · obtain rfl := Option.some.inj h
      exact le_rfl
    · cases h
    · obtain rfl := Option.some.inj h
      exact le_rfl
    · obtain rfl := Option.some.inj h
      exact le_max_left _ _

end

section
variable {ι : Type} [DecidableEq ι] {config : RiskConfig} {world : World ι}

theorem World.Sound.goTo (h : world.Sound) (run : ι) {phase : Phase}
    (hphase : ∀ decisionId signal result, phase = .checked decisionId signal result ∨
      phase = .cleared decisionId signal result → 0 ≤ result.positionSizePct) :
    (world.goTo run phase).Sound where
  times := h.times
  sizes := h.sizes
  results r decisionId signal result hr := by
    simp only [World.goTo, Function.update_apply] at hr
    split_ifs at hr with hrun
    · exact hphase decisionId signal result hr
    · exact h.results r decisionId signal result hr

theorem sound_step (h : world.Sound) (e : Event ι) : (world.step config e).Sound := by
  have hidle (run : ι) : (world.goTo run .idle).Sound := h.goTo run (by simp)
  cases e with
  | wait seconds =>
    refine ⟨fun p hp => (h.times p hp).trans ?_, h.sizes, h.results⟩
    simp [World.step]
  | check run decisionId signal =>
    simp only [World.step]
    split_ifs
    · split
      · next result risk heq =>
        have hsize : 0 ≤ result.positionSizePct :=
          checkSignal_size_nonneg config (by rw [heq]; rfl)
        have hgo : (world.goTo run (.checked decisionId signal result)).Sound :=
          h.goTo run (by simp_all)
        exact ⟨hgo.times, hgo.sizes, hgo.results⟩
      · exact ⟨h.times, h.sizes, h.results⟩
    · exact h
  | dedup run =>
    simp only [World.step, World.dedup]
    split
    · next decisionId signal result hphase =>
      have hsize := h.results run decisionId signal result (.inl hphase)
      split_ifs
      · exact h.goTo run (by simp_all)
      · exact hidle run
    · exact h
  | emit run mcp publish =>
    simp only [World.step, World.emit]
    split
    · next decisionId signal result hphase =>
      have hsize := h.results run decisionId signal result (.inr hphase)
      have hgo : (world.goTo run (.emitted decisionId signal (delivered mcp publish))).Sound :=
        h.goTo run (by simp)
      -- the new position is of now, with the size that the check gave it
      refine ⟨?_, ?_, hgo.results⟩
      · intro p hp
        rcases List.mem_append.mp hp with hp | hp
        · exact h.times p hp
        · rw [List.mem_singleton.mp hp]
          exact le_rfl
      · intro p hp
        rcases List.mem_append.mp hp with hp | hp
        · exact h.sizes p hp
        · rw [List.mem_singleton.mp hp]
          exact hsize
    · exact h
  | record run entryPrice =>
    simp only [World.step, World.record]
    split
    · exact ⟨(hidle run).times, (hidle run).sizes, (hidle run).results⟩
    · exact h
  | close position =>
    -- closing changes neither the times nor the sizes
    refine ⟨?_, ?_, h.results⟩
    · intro p hp
      obtain ⟨q, hq, htime, -⟩ := mem_modify_close hp
      exact htime ▸ h.times q hq
    · intro p hp
      obtain ⟨q, hq, -, hsize⟩ := mem_modify_close hp
      exact hsize ▸ h.sizes q hq
  | closed pnlPct => exact ⟨h.times, h.sizes, h.results⟩
  | exposure exposurePct => exact ⟨h.times, h.sizes, h.results⟩
  | resetDaily => exact ⟨h.times, h.sizes, h.results⟩

/-- One more emission: it counts in the hours that reach up to now. -/
theorem withinLimits_emit_iff (h : world.Sound) (hlimits : world.WithinLimits config) {run : ι}
    {decisionId : String} {signal : FusedSignal} {result : RiskCheckResult}
    (hphase : world.phases run = .cleared decisionId signal result) (mcp : McpReply)
    (publish : PublishReply) :
    (world.emit run mcp publish).WithinLimits config ↔
      openExposure world.positions + result.positionSizePct ≤ config.maxPortfolioExposurePct ∧
        emissionsWithin world.positions signal.symbol world.now <
          config.maxSignalsPerSymbolPerHour := by
  have hpositions : (world.emit run mcp publish).positions =
      world.positions ++ [⟨signal.symbol, result.positionSizePct, world.now, true⟩] := by
    simp only [World.emit, hphase]
  constructor
  · intro hnext
    have hexposure := hnext.exposure
    have hhourly := hnext.hourly signal.symbol world.now
    rw [hpositions, openExposure_concat _ _ rfl] at hexposure
    rw [hpositions, emissionsWithin_concat, if_pos ⟨rfl, by simp, le_rfl⟩] at hhourly
    exact ⟨hexposure, hhourly⟩
  · rintro ⟨hexposure, hhourly⟩
    refine ⟨by rwa [hpositions, openExposure_concat _ _ rfl], ?_⟩
    intro symbol t
    rw [hpositions, emissionsWithin_concat]
    split_ifs with hwindow
    · -- a window with the new emission reaches up to now or beyond
      obtain ⟨hsymbol, -, hnow⟩ := hwindow
      simp only at hsymbol hnow
      subst hsymbol
      have hle := emissionsWithin_le_now h.times signal.symbol hnow
      omega
    · exact hlimits.hourly symbol t

omit [DecidableEq ι] in
theorem withinLimits_of_positions {world' : World ι} (h : world'.positions = world.positions)
    (hlimits : world.WithinLimits config) : world'.WithinLimits config :=
  ⟨h ▸ hlimits.exposure, h ▸ hlimits.hourly⟩

theorem withinLimits_step_iff (h : world.Sound) (hlimits : world.WithinLimits config)
    (e : Event ι) : (world.step config e).WithinLimits config ↔ world.HasRoom config e := by
  cases e with
  | emit run mcp publish =>
    cases hphase : world.phases run with
    | cleared decisionId signal result =>
      have hiff := withinLimits_emit_iff h hlimits hphase mcp publish
      simp [World.step, hiff, World.HasRoom, hphase]
    | _ => simpa [World.step, World.emit, World.HasRoom, hphase] using hlimits
  | close position =>
    -- a position that is closed gives room, and was emitted all the same
    refine iff_of_true ⟨?_, ?_⟩ trivial
    · exact (openExposure_modify_le h.sizes position).trans hlimits.exposure
    · intro symbol t
      exact (emissionsWithin_modify _ _ _ _).trans_le (hlimits.hourly symbol t)
  | check run decisionId signal =>
    refine iff_of_true (withinLimits_of_positions ?_ hlimits) trivial
    simp only [World.step]
    split_ifs
    · split <;> rfl
    · rfl
  | dedup run =>
    refine iff_of_true (withinLimits_of_positions ?_ hlimits) trivial
    simp only [World.step, World.dedup]
    split
    · split_ifs <;> rfl
    · rfl
  | record run entryPrice =>
    refine iff_of_true (withinLimits_of_positions ?_ hlimits) trivial
    simp only [World.step, World.record]
    split <;> rfl
  | _ => exact iff_of_true ⟨hlimits.exposure, hlimits.hourly⟩ trivial

end

section
variable {ι : Type} [DecidableEq ι] (config : RiskConfig) (start : {t : ℚ // dedupWindowSeconds ≤ t})

omit [DecidableEq ι] in
theorem sound_init : (World.init ι start).Sound where
  times _ h := by cases h
  sizes _ h := by cases h
  results _ _ _ _ h := by cases h <;> contradiction

omit [DecidableEq ι] in
theorem withinLimits_init : (World.init ι start).WithinLimits config where
  exposure := config.exposure_nonneg
  hourly _ _ := Nat.zero_le _

end

/-- One symbol after the other, each from its check to its record. -/
def fiveSymbols : World Unit :=
  (["BTC-USD", "ETH-USD", "SOL-USD", "DOGE-USD", "ADA-USD"].flatMap fun symbol =>
    [.check () symbol ⟨symbol, .buy, 19 / 20⟩, .dedup (), .emit () .answer .published,
      .record () none]).foldl (World.step .default)
    (World.init Unit ⟨1000, dedupWindowSeconds_le⟩)

end TradeStream.SignalPipeline
