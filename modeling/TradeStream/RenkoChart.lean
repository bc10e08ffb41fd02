import TradeStream.Hysteresis

/-! The rules of the Renko chart strategy. Each evaluation goes over the closes from the first on
to find the last brick. -/
namespace TradeStream.RenkoChart
open TradeStream.Hysteresis

structure RenkoChartParameters where
  brickSize : ℚ := 1

/-- One turn of the loop of a rule. -/
def nextBrickPrice (brickSize lastBrickPrice price : ℚ) : ℚ :=
  if price ≥ lastBrickPrice + brickSize then
    lastBrickPrice + brickSize * ⌊(price - lastBrickPrice) / brickSize⌋
  else if price ≤ lastBrickPrice - brickSize then
    lastBrickPrice - brickSize * ⌊(lastBrickPrice - price) / brickSize⌋
  else lastBrickPrice

/-- `close i` is the close of the bar `i`. -/
def lastBrickPrice (close : ℕ → ℚ) (brickSize : ℚ) (index : ℕ) : ℚ :=
  ((List.range (index - 1)).map (· + 1)).foldl
    (fun brick i => nextBrickPrice brickSize brick (close i)) (close 0)

/-- `RenkoEntryRule.isSatisfied`. -/
def entrySatisfied (close : ℕ → ℚ) (brickSize : ℚ) (index : ℕ) : Bool :=
  index ≠ 0 ∧ close index ≥ lastBrickPrice close brickSize index + brickSize

/-- `RenkoExitRule.isSatisfied`. -/
def exitSatisfied (close : ℕ → ℚ) (brickSize : ℚ) (index : ℕ) : Bool :=
  index ≠ 0 ∧ close index ≤ lastBrickPrice close brickSize index - brickSize

/-- The brick that a rule finds is that of the bar before. -/
theorem lastBrickPrice_succ (close : ℕ → ℚ) (brickSize : ℚ) (i : ℕ) :
    lastBrickPrice close brickSize (i + 1) = levels brickSize close i := by
  induction i with
  | zero => rfl
  | succ i ih =>
    rw [lastBrickPrice, Nat.add_sub_cancel, List.range_succ, List.map_append, List.foldl_append]
    rw [lastBrickPrice, Nat.add_sub_cancel] at ih
    rw [ih]
    rfl

section
variable {close : ℕ → ℚ} {brickSize : ℚ}

theorem entrySatisfied_iff (hsize : 0 < brickSize) (i : ℕ) :
    entrySatisfied close brickSize (i + 1) = true ↔
      levels brickSize close i < levels brickSize close (i + 1) := by
  rw [levels, lt_settle_iff hsize]
  simp [entrySatisfied, lastBrickPrice_succ]

theorem exitSatisfied_iff (hsize : 0 < brickSize) (i : ℕ) :
    exitSatisfied close brickSize (i + 1) = true ↔
      levels brickSize close (i + 1) < levels brickSize close i := by
  rw [levels, settle_lt_iff hsize]
  simp [exitSatisfied, lastBrickPrice_succ]

theorem signal_iff (hsize : 0 < brickSize) (i : ℕ) :
    (entrySatisfied close brickSize (i + 1) || exitSatisfied close brickSize (i + 1)) = true ↔
      levels brickSize close (i + 1) ≠ levels brickSize close i := by
  rw [Bool.or_eq_true, entrySatisfied_iff hsize, exitSatisfied_iff hsize, ne_comm, ne_iff_lt_or_gt]

end

def risingClose (i : ℕ) : ℚ := 100 + 3 * i / 2

end TradeStream.RenkoChart
