import TradeStream.RunSteps

/-! `runStrategy` of `BacktestRunnerImpl`: the trades that it records, against those of a
strategy that is asked for an entry while flat and for an exit while in a position. -/
namespace TradeStream.BacktestRunner
open TradeStream.RunSteps
open scoped List

variable {α : Type*}

structure Trade (α : Type*) where
  index : ℕ
  pricePerAsset : α
  amount : α
  deriving DecidableEq, Repr

/-- A closed position. -/
structure Position (α : Type*) where
  entry : Trade α
  exit : Trade α
  deriving DecidableEq, Repr

/-- `BaseTradingRecord`: the closed positions, and the entry of the current one if that
is opened. -/
structure TradingRecord (α : Type*) where
  positions : List (Position α)
  currentPosition : Option (Trade α)
  deriving DecidableEq, Repr

namespace TradingRecord

def isOpened (record : TradingRecord α) : Bool := record.currentPosition.isSome

/-- Refused while a position is opened. -/
def enter (record : TradingRecord α) (trade : Trade α) : TradingRecord α :=
  match record.currentPosition with
  | none => { record with currentPosition := some trade }
  | some _ => record

/-- Refused while none is. -/
def exit (record : TradingRecord α) (trade : Trade α) : TradingRecord α :=
  match record.currentPosition with
  | none => record
  | some entry => ⟨record.positions ++ [⟨entry, trade⟩], none⟩

end TradingRecord

/-- A `Strategy`: its rules at each bar. -/
structure Strategy where
  unstableBars : ℕ
  shouldEnter : ℕ → Bool
  shouldExit : ℕ → Bool

/-- The bars of a series as far as the runner reads them. -/
structure Bars (α : Type*) where
  barCount : ℕ
  closePrice : ℕ → α

theorem positions_prefix_enter (record : TradingRecord α) (trade : Trade α) :
    record.positions <+: (record.enter trade).positions := by
  unfold TradingRecord.enter
  cases record.currentPosition with
  | none => exact List.prefix_rfl
  | some entry => exact List.prefix_rfl

theorem positions_prefix_exit (record : TradingRecord α) (trade : Trade α) :
    record.positions <+: (record.exit trade).positions := by
  unfold TradingRecord.exit
  cases record.currentPosition with
  | none => exact List.prefix_rfl
  | some entry => exact List.prefix_append _ _

/-- Closed positions stay. -/
theorem positions_prefix_foldl {step : TradingRecord α → ℕ → TradingRecord α}
    (hstep : ∀ record i, record.positions <+: (step record i).positions) (bars : List ℕ)
    (record : TradingRecord α) : record.positions <+: (bars.foldl step record).positions := by
  induction bars generalizing record with
  | nil => exact List.prefix_rfl
  | cons i bars ih => exact (hstep record i).trans (ih _)

section
variable [One α] (strategy : Strategy) (series : Bars α)

/-- A trade of one unit at the close of a bar. -/
def tradeAt (i : ℕ) : Trade α := ⟨i, series.closePrice i, 1⟩

/-- One bar of the loop of `runStrategy`. -/
def runBar (record : TradingRecord α) (i : ℕ) : TradingRecord α :=
  if strategy.shouldEnter i then record.enter (tradeAt series i)
  else if strategy.shouldExit i && record.isOpened then record.exit (tradeAt series i)
  else record

/-- The bars that the loop goes through. -/
def stableBars : List ℕ :=
  List.range' strategy.unstableBars (series.barCount - strategy.unstableBars)

def runStrategy : TradingRecord α :=
  (stableBars strategy series).foldl (runBar strategy series) ⟨[], none⟩

/-- One bar of the reference: a flat strategy looks for an entry, one in a position for an
exit, whatever the entry rule says. -/
def referenceBar (record : TradingRecord α) (i : ℕ) : TradingRecord α :=
  if record.isOpened then
    if strategy.shouldExit i then record.exit (tradeAt series i) else record
  else if strategy.shouldEnter i then record.enter (tradeAt series i) else record

def reference : TradingRecord α :=
  (stableBars strategy series).foldl (referenceBar strategy series) ⟨[], none⟩

/-- Both rules hold on a bar that finds the strategy in a position. -/
def Overlaps (record : TradingRecord α) (i : ℕ) : Prop :=
  record.isOpened = true ∧ strategy.shouldEnter i = true ∧ strategy.shouldExit i = true

theorem runBar_eq_referenceBar {record : TradingRecord α} {i : ℕ}
    (h : ¬ Overlaps strategy record i) :
    runBar strategy series record i = referenceBar strategy series record i := by
  unfold runBar referenceBar
  cases hopened : record.isOpened with
  | false => simp
  | true =>
    cases henter : strategy.shouldEnter i with
    | false => simp
    | true =>
      have hexit : strategy.shouldExit i = false := by
        rw [← Bool.not_eq_true]
        exact fun hexit => h ⟨hopened, henter, hexit⟩
      -- the entry is refused
      obtain ⟨entry, hentry⟩ := Option.isSome_iff_exists.mp hopened
      simp [hexit, TradingRecord.enter, hentry]

theorem positions_prefix_runBar (record : TradingRecord α) (i : ℕ) :
    record.positions <+: (runBar strategy series record i).positions := by
  unfold runBar
  split_ifs
  · exact positions_prefix_enter record _
  · exact positions_prefix_exit record _
  · exact List.prefix_rfl

theorem positions_prefix_referenceBar (record : TradingRecord α) (i : ℕ) :
    record.positions <+: (referenceBar strategy series record i).positions := by
  unfold referenceBar
  split_ifs
  · exact positions_prefix_exit record _
  · exact List.prefix_rfl
  · exact positions_prefix_enter record _
  · exact List.prefix_rfl

/-- In a position, a bar leaves the record as it is or closes the position there. -/
theorem runBar_of_opened {record : TradingRecord α} {entry : Trade α}
    (h : record.currentPosition = some entry) (i : ℕ) :
    runBar strategy series record i = record ∨
      runBar strategy series record i =
        ⟨record.positions ++ [⟨entry, tradeAt series i⟩], none⟩ := by
  unfold runBar
  split_ifs
  · left
    simp [TradingRecord.enter, h]
  · right
    simp [TradingRecord.exit, h]
  · exact Or.inl rfl

/-- An opened position stays so, or it is the next one that is closed, at one of the bars. -/
theorem foldl_runBar_of_opened {record : TradingRecord α} {entry : Trade α}
    (h : record.currentPosition = some entry) (bars : List ℕ) :
    bars.foldl (runBar strategy series) record = record ∨
      ∃ j ∈ bars, record.positions ++ [⟨entry, tradeAt series j⟩] <+:
        (bars.foldl (runBar strategy series) record).positions := by
  induction bars with
  | nil => exact Or.inl rfl
  | cons i bars ih =>
    rw [List.foldl_cons]
    rcases runBar_of_opened strategy series h i with hsame | hclosed
    · rw [hsame]
      rcases ih with hall | ⟨j, hj, hpre⟩
      · exact Or.inl hall
      · exact Or.inr ⟨j, List.mem_cons_of_mem i hj, hpre⟩
    · right
      refine ⟨i, List.mem_cons_self, ?_⟩
      rw [hclosed]
      exact positions_prefix_foldl (positions_prefix_runBar strategy series) bars
        ⟨record.positions ++ [⟨entry, tradeAt series i⟩], none⟩

/-- An overlap is never made up for: the reference has closed the position at its bar. -/
theorem foldl_ne_of_overlaps {record : TradingRecord α} {i : ℕ} {bars : List ℕ}
    (hoverlaps : Overlaps strategy record i) (hlater : ∀ j ∈ bars, i < j) :
    bars.foldl (runBar strategy series) (runBar strategy series record i) ≠
      bars.foldl (referenceBar strategy series) (referenceBar strategy series record i) := by
  obtain ⟨hopened, henter, hexit⟩ := hoverlaps
  obtain ⟨entry, hentry⟩ := Option.isSome_iff_exists.mp hopened
  -- the code goes on in the position that the reference closes
  have hrun : runBar strategy series record i = record := by
    simp [runBar, henter, TradingRecord.enter, hentry]
  have hreference : referenceBar strategy series record i =
      ⟨record.positions ++ [⟨entry, tradeAt series i⟩], none⟩ := by
    simp [referenceBar, hopened, hexit, TradingRecord.exit, hentry]
  have hclosed := positions_prefix_foldl (positions_prefix_referenceBar strategy series) bars
    (referenceBar strategy series record i)
  intro heq
  rw [← heq, hreference, hrun] at hclosed
  rcases foldl_runBar_of_opened strategy series hentry bars with hsame | ⟨j, hj, hpre⟩
  · -- the code never closes it: it has a position too few
    rw [hsame] at hclosed
    have hlength := hclosed.length_le
    simp at hlength
  · -- it closes it at a later bar
    have hlists := List.prefix_of_prefix_length_le hclosed hpre (by simp)
    have hlast := hlists.eq_of_length (by simp)
    have hindex : i = j := by
      simpa [tradeAt] using congrArg (fun l => (l.getLast?).map fun p => p.exit.index) hlast
    exact absurd hindex (hlater j hj).ne

theorem foldl_eq_iff (record : TradingRecord α) {bars : List ℕ} (hbars : bars.Pairwise (· < ·)) :
    bars.foldl (runBar strategy series) record = bars.foldl (referenceBar strategy series) record ↔
      EachStep (referenceBar strategy series) (fun _ _ => True)
        (fun record i => ¬ Overlaps strategy record i) record bars := by
  induction bars generalizing record with
  | nil => exact iff_of_true rfl trivial
  | cons i bars ih =>
    rw [List.pairwise_cons] at hbars
    rw [List.foldl_cons, List.foldl_cons, EachStep]
    by_cases hoverlaps : Overlaps strategy record i
    · refine iff_of_false (foldl_ne_of_overlaps strategy series hoverlaps hbars.1) ?_
      exact fun h => h.1 hoverlaps
    · rw [runBar_eq_referenceBar strategy series hoverlaps, ih _ hbars.2]
      exact ⟨fun h => ⟨hoverlaps, fun _ => h⟩, fun h => h.2 trivial⟩

/-- The trades are those of the reference just when both rules hold on no bar that finds
the strategy in a position. -/
theorem runStrategy_eq_reference_iff :
    runStrategy strategy series = reference strategy series ↔
      ∀ earlier i, earlier ++ [i] <+: stableBars strategy series →
        ¬ Overlaps strategy (earlier.foldl (referenceBar strategy series) ⟨[], none⟩) i := by
  have hbars : (stableBars strategy series).Pairwise (· < ·) := List.pairwise_lt_range'
  exact (foldl_eq_iff strategy series ⟨[], none⟩ hbars).trans
    (eachStep_iff_forall_step _ _ _ _)

end

/-- Four bars: both rules hold on the second and the third. -/
def overlapping : Strategy where
  unstableBars := 0
  shouldEnter := fun i => i == 0 || i == 1 || i == 2
  shouldExit := fun i => i == 1 || i == 2

def fourBars : Bars ℕ := ⟨4, fun i => 100 + i⟩

/-- The position is never closed, where the reference trades from the first bar to the
second and enters again on the third. -/
theorem overlapping_ne_reference :
    runStrategy overlapping fourBars = ⟨[], some ⟨0, 100, 1⟩⟩ ∧
      reference overlapping fourBars =
        ⟨[⟨⟨0, 100, 1⟩, ⟨1, 101, 1⟩⟩], some ⟨2, 102, 1⟩⟩ ∧
      runStrategy overlapping fourBars ≠ reference overlapping fourBars := by
  decide

end TradeStream.BacktestRunner
