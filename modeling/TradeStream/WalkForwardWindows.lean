import TradeStream.WalkForward

/-! The windows that `createSplits` makes of a configuration that `validateConfig` accepts:
which they are, and when no sum of theirs wraps. -/
namespace TradeStream.WalkForward
open TradeStream.WhileLoop

variable {α : Type} {candles : JavaList α} {config : WalkForwardConfig Int32}

/-- The sums of a round at `start`, those of its body if it is entered, are exact. -/
structure ExactRound (candles : JavaList α) (config : WalkForwardConfig Int32)
    (start : Int32) : Prop where
  guard : (start + (config.trainWindowBars + config.testWindowBars)).toInt =
    start.toInt + (config.trainWindowBars.toInt + config.testWindowBars.toInt)
  trainEnd : start + (config.trainWindowBars + config.testWindowBars) ≤ candles.size →
    (start + config.trainWindowBars).toInt = start.toInt + config.trainWindowBars.toInt
  testEnd : start + (config.trainWindowBars + config.testWindowBars) ≤ candles.size →
    (start + config.trainWindowBars + config.testWindowBars).toInt =
      start.toInt + config.trainWindowBars.toInt + config.testWindowBars.toInt
  next : start + (config.trainWindowBars + config.testWindowBars) ≤ candles.size →
    (start + config.stepBars).toInt = start.toInt + config.stepBars.toInt

/-- No sum of `createSplits` wraps. -/
structure NoOverflow (candles : JavaList α) (config : WalkForwardConfig Int32) : Prop where
  windowSize : (config.trainWindowBars + config.testWindowBars).toInt =
    config.trainWindowBars.toInt + config.testWindowBars.toInt
  round : ¬ candles.size < config.trainWindowBars + config.testWindowBars →
    ∀ (start : Int32) (splits : List (TrainTestSplit α)),
      Reaches (createSplitsRound candles config) (0, []) (start, splits) →
      ExactRound candles config start

/-- The split is the `k`-th window of the configuration. -/
structure WindowAt (candles : JavaList α) (config : WalkForwardConfig Int32) (k : ℕ)
    (s : TrainTestSplit α) : Prop where
  trainStart : s.bars.trainStart.toInt = k * config.stepBars.toInt
  trainEnd : s.bars.trainEnd.toInt = s.bars.trainStart.toInt + config.trainWindowBars.toInt
  testStart : s.bars.testStart = s.bars.trainEnd
  testEnd : s.bars.testEnd.toInt = s.bars.testStart.toInt + config.testWindowBars.toInt
  start_nonneg : 0 ≤ s.bars.trainStart.toInt
  start_lt : s.bars.trainStart.toInt < s.bars.trainEnd.toInt
  train_lt : s.bars.trainEnd.toInt < s.bars.testEnd.toInt
  end_le : s.bars.testEnd.toInt ≤ candles.elements.length
  trainCandles : s.trainCandles = (candles.elements.drop s.bars.trainStart.toInt.toNat).take
    config.trainWindowBars.toInt.toNat
  trainLength : (s.trainCandles.length : ℤ) = config.trainWindowBars.toInt
  testCandles : s.testCandles = (candles.elements.drop s.bars.testStart.toInt.toNat).take
    config.testWindowBars.toInt.toNat
  testLength : (s.testCandles.length : ℤ) = config.testWindowBars.toInt

/-- All the windows of the configuration, at least as many as it asks for. -/
structure AllWindows (candles : JavaList α) (config : WalkForwardConfig Int32)
    (splits : List (TrainTestSplit α)) : Prop where
  minWindows : config.minWindows.toInt ≤ splits.length
  window : ∀ (k : ℕ) (s : TrainTestSplit α), splits[k]? = some s → WindowAt candles config k s
  maximal : (candles.elements.length : ℤ) < splits.length * config.stepBars.toInt +
    (config.trainWindowBars.toInt + config.testWindowBars.toInt)

/-- `createSplits` returns, on exact sums, all the windows. -/
def MakesWindows (candles : JavaList α) (config : WalkForwardConfig Int32) : Prop :=
  NoOverflow candles config ∧
    ∃ splits, (∃ fuel, createSplits fuel candles config = some (.ok splits)) ∧
      AllWindows candles config splits

/-! ### What `validateConfig` has seen -/

structure Accepted (candles : JavaList α) (config : WalkForwardConfig Int32) : Prop where
  train_pos : 0 < config.trainWindowBars.toInt
  test_pos : 0 < config.testWindowBars.toInt
  step_pos : 0 < config.stepBars.toInt
  minWindows_pos : 0 < config.minWindows.toInt
  enough : ¬ candles.size < config.trainWindowBars + config.testWindowBars
  counted : ∃ windowCount, Returns (countWindowsRound candles config) (0, 0) windowCount ∧
    config.minWindows.toInt ≤ windowCount.toInt

theorem accepted_of_validateConfig
    (h : ∃ fuel, validateConfig fuel candles config = some (true, none)) :
    Accepted candles config := by
  obtain ⟨fuel, h⟩ := h
  simp only [validateConfig] at h
  split_ifs at h with htrain htest hstep hmin henough
  · simp at h
  · simp at h
  · simp at h
  · simp at h
  · simp at h
  rw [Int32.le_iff_toInt_le, Int32.toInt_zero, not_le] at htrain htest hstep hmin
  obtain ⟨windowCount, hcount, hresult⟩ := Option.map_eq_some_iff.mp h
  split_ifs at hresult with hfew
  · simp at hresult
  rw [Int32.lt_iff_toInt_lt, not_lt] at hfew
  exact ⟨htrain, htest, hstep, hmin, henough, windowCount, ⟨fuel, hcount⟩, hfew⟩

/-! ### One round -/

theorem split_eq_ok {start : Int32} {s : TrainTestSplit α}
    (h : split candles config start = .ok s) :
    s.bars = ⟨start, start + config.trainWindowBars, start + config.trainWindowBars,
        start + config.trainWindowBars + config.testWindowBars⟩ ∧
      candles.subList start (start + config.trainWindowBars) = .ok s.trainCandles ∧
      candles.subList (start + config.trainWindowBars)
        (start + config.trainWindowBars + config.testWindowBars) = .ok s.testCandles := by
  simp only [split] at h
  cases htrain : candles.subList start (start + config.trainWindowBars) with
  | error e => simp [htrain, bind, Except.bind] at h
  | ok trainCandles =>
    cases htest : candles.subList (start + config.trainWindowBars)
        (start + config.trainWindowBars + config.testWindowBars) with
    | error e => simp [htrain, htest, bind, Except.bind] at h
    | ok testCandles =>
      simp only [htrain, htest, bind, Except.bind, pure, Except.pure, Except.ok.injEq] at h
      subst h
      exact ⟨rfl, rfl, rfl⟩

/-- A round that goes on has made a split, and starts the next one a step later. -/
theorem createSplitsRound_eq_inl {start start' : Int32} {splits splits' : List (TrainTestSplit α)}
    (h : createSplitsRound candles config (start, splits) = .inl (start', splits')) :
    start + (config.trainWindowBars + config.testWindowBars) ≤ candles.size ∧
      start' = start + config.stepBars ∧
      ∃ s, split candles config start = .ok s ∧ splits' = splits ++ [s] := by
  simp only [createSplitsRound] at h
  split_ifs at h with hguard
  cases hsplit : split candles config start with
  | error e => simp [hsplit] at h
  | ok s =>
    simp only [hsplit, Sum.inl.injEq, Prod.mk.injEq] at h
    exact ⟨hguard, h.1.symm, s, rfl, h.2.symm⟩

theorem windowAt_of_split (hconfig : Accepted candles config) {start : Int32} {k : ℕ}
    {s : TrainTestSplit α} (hstart : start.toInt = k * config.stepBars.toInt)
    (hguard : start + (config.trainWindowBars + config.testWindowBars) ≤ candles.size)
    (hexact : ExactRound candles config start) (h : split candles config start = .ok s) :
    WindowAt candles config k s := by
  obtain ⟨hbars, htrain, htest⟩ := split_eq_ok h
  have htrainEnd := hexact.trainEnd hguard
  have htestEnd := hexact.testEnd hguard
  obtain ⟨⟨hnonneg, -, -⟩, htrainCandles⟩ := subList_eq_ok_iff.mp htrain
  obtain ⟨⟨-, -, hend⟩, htestCandles⟩ := subList_eq_ok_iff.mp htest
  have htrainPos := hconfig.train_pos
  have htestPos := hconfig.test_pos
  -- without a wrap the bounds are as far apart as the windows are long
  have htrainSize : ((start + config.trainWindowBars).toInt - start.toInt).toNat =
      config.trainWindowBars.toInt.toNat := by
    rw [htrainEnd, add_sub_cancel_left]
  have htestSize : ((start + config.trainWindowBars + config.testWindowBars).toInt -
      (start + config.trainWindowBars).toInt).toNat = config.testWindowBars.toInt.toNat := by
    rw [htestEnd, htrainEnd, add_sub_cancel_left]
  rw [htrainSize] at htrainCandles
  rw [htestSize] at htestCandles
  constructor
  · rw [hbars, hstart]
  · rw [hbars, htrainEnd]
  · rw [hbars]
  · rw [hbars, htestEnd, htrainEnd]
  · rw [hbars]
    exact hnonneg
  · simp only [hbars]
    omega
  · simp only [hbars]
    omega
  · rw [hbars]
    exact hend
  · rw [hbars, htrainCandles]
  · rw [htrainCandles, List.length_take, List.length_drop]
    omega
  · rw [hbars, htestCandles]
  · rw [htestCandles, List.length_take, List.length_drop]
    omega

/-! ### The rounds of a run -/

/-- The loop at `start` with the windows before it. -/
structure MadeWindows (candles : JavaList α) (config : WalkForwardConfig Int32) (start : Int32)
    (splits : List (TrainTestSplit α)) : Prop where
  start_eq : start.toInt = splits.length * config.stepBars.toInt
  window : ∀ (k : ℕ) (s : TrainTestSplit α), splits[k]? = some s → WindowAt candles config k s

theorem madeWindows_zero : MadeWindows candles config 0 [] :=
  ⟨by simp, by simp⟩

/-- An exact round that goes on makes the next window. -/
theorem MadeWindows.next (hconfig : Accepted candles config) {start start' : Int32}
    {splits splits' : List (TrainTestSplit α)} (h : MadeWindows candles config start splits)
    (hexact : ExactRound candles config start)
    (hround : createSplitsRound candles config (start, splits) = .inl (start', splits')) :
    MadeWindows candles config start' splits' := by
  obtain ⟨hguard, rfl, s, hsplit, rfl⟩ := createSplitsRound_eq_inl hround
  have hwindow := windowAt_of_split hconfig h.start_eq hguard hexact hsplit
  constructor
  · have hnext := hexact.next hguard
    rw [hnext, h.start_eq, List.length_append, List.length_singleton]
    push_cast
    ring
  · intro k s' hk
    rw [List.getElem?_append] at hk
    split_ifs at hk with hlt
    · exact h.window k s' hk
    · -- the only index of the new end is its first
      have hzero : k - splits.length = 0 := by
        obtain ⟨hlength, -⟩ := List.getElem?_eq_some_iff.mp hk
        rw [List.length_singleton] at hlength
        omega
      rw [hzero, List.getElem?_cons_zero, Option.some.injEq] at hk
      subst hk
      have hlast : k = splits.length := by omega
      rwa [hlast]

theorem madeWindows_of_noOverflow (hconfig : Accepted candles config)
    (h : NoOverflow candles config) {start : Int32} {splits : List (TrainTestSplit α)}
    (hreaches : Reaches (createSplitsRound candles config) (0, []) (start, splits)) :
    MadeWindows candles config start splits := by
  have hrun (state : Int32 × List (TrainTestSplit α))
      (hstate : Reaches (createSplitsRound candles config) (0, []) state) :
      MadeWindows candles config state.1 state.2 := by
    induction hstate with
    | refl => exact madeWindows_zero
    | tail hbefore hround ih => exact ih.next hconfig (h.round hconfig.enough _ _ hbefore) hround
  exact hrun (start, splits) hreaches

/-- The loop leaves with its splits when it sees that it is past the data. -/
theorem createSplitsRound_eq_ok {start : Int32} {splits splits' : List (TrainTestSplit α)}
    (h : createSplitsRound candles config (start, splits) = .inr (.ok splits')) :
    splits' = splits ∧
      (candles.elements.length : ℤ) <
        (start + (config.trainWindowBars + config.testWindowBars)).toInt := by
  simp only [createSplitsRound] at h
  split_ifs at h with hguard
  · cases hsplit : split candles config start <;> simp [hsplit] at h
  · rw [Int32.le_iff_toInt_le, size_toInt, not_le] at hguard
    simp only [Sum.inr.injEq, Except.ok.injEq] at h
    exact ⟨h.symm, hguard⟩

theorem createSplits_eq_some_iff (hconfig : Accepted candles config)
    {result : Except SubListException (List (TrainTestSplit α))} :
    (∃ fuel, createSplits fuel candles config = some result) ↔
      Returns (createSplitsRound candles config) (0, []) result := by
  simp only [createSplits, if_neg hconfig.enough]
  rfl

/-! ### Exact sums -/

/-- The multiples of the step that start a window are before the first past the data. -/
theorem mul_step_le_pastStart {totalBars : ℤ} (config : WalkForwardConfig ℤ)
    (hstep : 0 < config.stepBars) {k : ℤ}
    (h : k * config.stepBars + (config.trainWindowBars + config.testWindowBars) ≤ totalBars) :
    (k + 1) * config.stepBars ≤ pastStart totalBars config 0 := by
  have hk : k ≤ (totalBars - (config.trainWindowBars + config.testWindowBars) - 0) /
      config.stepBars := by
    rw [Int.le_ediv_iff_mul_le hstep]
    omega
  rw [pastStart, zero_add]
  exact mul_le_mul_of_nonneg_right (by omega) hstep.le

/-- The step after the last window is the first start past the data. -/
theorem pastStart_eq_mul_step {totalBars : ℤ} (config : WalkForwardConfig ℤ)
    (hstep : 0 < config.stepBars) {k : ℤ}
    (hlast : k * config.stepBars + (config.trainWindowBars + config.testWindowBars) ≤ totalBars)
    (hpast : totalBars <
      (k + 1) * config.stepBars + (config.trainWindowBars + config.testWindowBars)) :
    pastStart totalBars config 0 = (k + 1) * config.stepBars := by
  have hk : (totalBars - (config.trainWindowBars + config.testWindowBars) - 0) /
      config.stepBars = k := by
    rw [Int.ediv_eq_iff_of_pos hstep]
    constructor <;> linarith
  rw [pastStart, hk, zero_add]

theorem inRange_of_makesWindows (hconfig : Accepted candles config)
    (h : MakesWindows candles config) :
    config.trainWindowBars.toInt + config.testWindowBars.toInt ≤ candles.elements.length ∧
      pastStart candles.elements.length config.toInts 0 +
        (config.trainWindowBars.toInt + config.testWindowBars.toInt) < 2 ^ 31 := by
  obtain ⟨hexact, splits, hreturns, hwindows⟩ := h
  rw [createSplits_eq_some_iff hconfig] at hreturns
  -- the state in which the loop leaves is at a multiple of the step, past the data
  obtain ⟨⟨start, splits'⟩, hreaches, hleaves⟩ := hreturns.exists_leaves
  obtain ⟨rfl, hpast⟩ := createSplitsRound_eq_ok hleaves
  have hmade := madeWindows_of_noOverflow hconfig hexact hreaches
  have hguard := (hexact.round hconfig.enough _ _ hreaches).guard
  rw [hguard, hmade.start_eq] at hpast
  have hsum := toInt_bounds (start + (config.trainWindowBars + config.testWindowBars))
  rw [hguard, hmade.start_eq] at hsum
  -- the last window ends in bounds, the next one past them
  have hmin := hwindows.minWindows
  have hminPos := hconfig.minWindows_pos
  have hlast : splits[splits.length - 1]? = some splits[splits.length - 1] :=
    List.getElem?_eq_getElem (by omega)
  have hwindow := hwindows.window _ _ hlast
  have hend : ((splits.length - 1 : ℕ) : ℤ) * config.stepBars.toInt +
      (config.trainWindowBars.toInt + config.testWindowBars.toInt) ≤
      candles.elements.length := by
    have hle := hwindow.end_le
    rw [hwindow.testEnd, hwindow.testStart, hwindow.trainEnd, hwindow.trainStart] at hle
    omega
  have hlength : ((splits.length - 1 : ℕ) : ℤ) + 1 = splits.length := by omega
  constructor
  · have hstep := hconfig.step_pos
    have hnonneg : 0 ≤ ((splits.length - 1 : ℕ) : ℤ) * config.stepBars.toInt := by positivity
    omega
  · rw [pastStart_eq_mul_step config.toInts hconfig.step_pos hend
      (by rw [hlength]; exact hpast), hlength]
    exact hsum.2

theorem next_le_pastStart (hconfig : Accepted candles config) {start : Int32} {k : ℕ}
    (hstart : start.toInt = k * config.stepBars.toInt)
    (hfits : start.toInt + (config.trainWindowBars.toInt + config.testWindowBars.toInt) ≤
      candles.elements.length) :
    start.toInt + config.stepBars.toInt ≤ pastStart candles.elements.length config.toInts 0 := by
  rw [hstart] at hfits
  have hnext := mul_step_le_pastStart config.toInts hconfig.step_pos hfits
  rw [add_mul, one_mul] at hnext
  rw [hstart]
  exact hnext

section
variable (hconfig : Accepted candles config)
  (hend : config.trainWindowBars.toInt + config.testWindowBars.toInt ≤ candles.elements.length)
  (hrange : pastStart candles.elements.length config.toInts 0 +
    (config.trainWindowBars.toInt + config.testWindowBars.toInt) < 2 ^ 31)
include hconfig hend hrange

theorem exactRound_of_le_pastStart {start : Int32} {k : ℕ}
    (hstart : start.toInt = k * config.stepBars.toInt)
    (hle : start.toInt ≤ pastStart candles.elements.length config.toInts 0) :
    ExactRound candles config start := by
  have htrain := hconfig.train_pos
  have htest := hconfig.test_pos
  have hstep := hconfig.step_pos
  have hnonneg : 0 ≤ start.toInt := by
    rw [hstart]
    positivity
  -- each sum is at most the first start past the data and a window
  have hwindow := toInt_add_cases config.trainWindowBars config.testWindowBars
  have hlength := candles.length_lt
  have hguard : (start + (config.trainWindowBars + config.testWindowBars)).toInt =
      start.toInt + (config.trainWindowBars.toInt + config.testWindowBars.toInt) := by
    have hsum := toInt_add_cases start (config.trainWindowBars + config.testWindowBars)
    omega
  have htrainEnd : (start + config.trainWindowBars).toInt =
      start.toInt + config.trainWindowBars.toInt := by
    have hsum := toInt_add_cases start config.trainWindowBars
    omega
  refine ⟨hguard, fun _ => htrainEnd, fun _ => ?_, fun hfits => ?_⟩
  · have hsum := toInt_add_cases (start + config.trainWindowBars) config.testWindowBars
    omega
  · rw [Int32.le_iff_toInt_le, size_toInt, hguard] at hfits
    have hnext := next_le_pastStart hconfig hstart hfits
    have hsum := toInt_add_cases start config.stepBars
    omega

/-- No round takes the loop beyond the first start past the data. -/
theorem le_pastStart_of_reaches {start : Int32} {splits : List (TrainTestSplit α)}
    (hreaches : Reaches (createSplitsRound candles config) (0, []) (start, splits)) :
    MadeWindows candles config start splits ∧
      start.toInt ≤ pastStart candles.elements.length config.toInts 0 := by
  have hrun (state : Int32 × List (TrainTestSplit α))
      (hstate : Reaches (createSplitsRound candles config) (0, []) state) :
      MadeWindows candles config state.1 state.2 ∧
        state.1.toInt ≤ pastStart candles.elements.length config.toInts 0 := by
    induction hstate with
    | refl =>
      have hmade : MadeWindows candles config 0 [] := madeWindows_zero
      have hfirst := next_le_pastStart hconfig hmade.start_eq
        (by rwa [Int32.toInt_zero, zero_add])
      rw [Int32.toInt_zero] at hfirst
      have hstep := hconfig.step_pos
      refine ⟨hmade, ?_⟩
      rw [Int32.toInt_zero]
      omega
    | @tail before after hbefore hround ih =>
      obtain ⟨hmade, hle⟩ := ih
      -- the bound makes the round exact, and the exact round keeps the bound
      have hexact := exactRound_of_le_pastStart hconfig hend hrange hmade.start_eq hle
      refine ⟨hmade.next hconfig hexact hround, ?_⟩
      obtain ⟨hguard, hafter, -⟩ := createSplitsRound_eq_inl hround
      have hnext := hexact.next hguard
      rw [Int32.le_iff_toInt_le, size_toInt, hexact.guard] at hguard
      rw [hafter, hnext]
      exact next_le_pastStart hconfig hmade.start_eq hguard
  exact hrun (start, splits) hreaches

theorem noOverflow_of_inRange : NoOverflow candles config := by
  constructor
  · have hwindow := toInt_add_cases config.trainWindowBars config.testWindowBars
    have htrain := hconfig.train_pos
    have htest := hconfig.test_pos
    have hlength := candles.length_lt
    omega
  · intro _ start splits hreaches
    obtain ⟨hmade, hle⟩ := le_pastStart_of_reaches hconfig hend hrange hreaches
    exact exactRound_of_le_pastStart hconfig hend hrange hmade.start_eq hle

/-- Each round brings the loop nearer to the first start past the data. -/
theorem createSplits_returns : ∃ splits,
    Returns (createSplitsRound candles config) (0, []) (.ok splits) := by
  have hexact := noOverflow_of_inRange hconfig hend hrange
  obtain ⟨result, hresult⟩ := exists_returns
    (Reaches (createSplitsRound candles config) (0, []))
    (fun state => (pastStart candles.elements.length config.toInts 0 - state.1.toInt).toNat)
    (s := ((0 : Int32), ([] : List (TrainTestSplit α))))
    (fun before after hbefore hround => by
      have hafter := hbefore.tail hround
      have hle := (le_pastStart_of_reaches hconfig hend hrange hafter).2
      obtain ⟨hguard, hnext, -⟩ := createSplitsRound_eq_inl hround
      have hsum := (hexact.round hconfig.enough _ _ hbefore).next hguard
      have hstep := hconfig.step_pos
      rw [← hnext] at hsum
      exact ⟨hafter, by omega⟩)
    Relation.ReflTransGen.refl
  cases result with
  | ok splits => exact ⟨splits, hresult⟩
  | error e =>
    -- the guard of an exact round lets only windows in bounds through
    obtain ⟨⟨start, splits⟩, hreaches, hleaves⟩ := hresult.exists_leaves
    have hmade := (le_pastStart_of_reaches hconfig hend hrange hreaches).1
    have hround := hexact.round hconfig.enough _ _ hreaches
    by_cases hfits : Fits candles config start.toInt
    · obtain ⟨s, hgoes, -⟩ := createSplitsRound_of_fits splits hfits
      rw [hgoes] at hleaves
      cases hleaves
    · rcases createSplitsRound_of_not_fits splits hfits with ⟨hok, -⟩ | ⟨e', -, hle⟩
      · rw [hok] at hleaves
        cases hleaves
      · rw [hround.guard] at hle
        refine absurd ⟨?_, hconfig.train_pos.le, hconfig.test_pos.le, hle⟩ hfits
        have hstep := hconfig.step_pos
        rw [hmade.start_eq]
        positivity

end

/-! ### The count -/

/-- A round that goes on is counted. -/
theorem countWindowsRound_of_inl {start start' : Int32} {splits splits' : List (TrainTestSplit α)}
    (h : createSplitsRound candles config (start, splits) = .inl (start', splits')) :
    countWindowsRound candles config (start, Int32.ofNat splits.length) =
      .inl (start', Int32.ofNat splits'.length) := by
  obtain ⟨hguard, rfl, s, -, rfl⟩ := createSplitsRound_eq_inl h
  simp only [countWindowsRound, if_pos hguard, List.length_append, List.length_singleton,
    Int32.ofNat_add]
  rfl

theorem countWindows_reaches {start : Int32} {splits : List (TrainTestSplit α)}
    (h : Reaches (createSplitsRound candles config) (0, []) (start, splits)) :
    Reaches (countWindowsRound candles config) (0, 0) (start, Int32.ofNat splits.length) := by
  have hrun (state : Int32 × List (TrainTestSplit α))
      (hstate : Reaches (createSplitsRound candles config) (0, []) state) :
      Reaches (countWindowsRound candles config) (0, 0)
        (state.1, Int32.ofNat state.2.length) := by
    induction hstate with
    | refl => exact Relation.ReflTransGen.refl
    | tail _ hround ih => exact ih.tail (countWindowsRound_of_inl hround)
  exact hrun (start, splits) h

/-- `validateConfig` has counted the splits that are made. -/
theorem count_eq_length {splits : List (TrainTestSplit α)} {windowCount : Int32}
    (hsplits : Returns (createSplitsRound candles config) (0, []) (.ok splits))
    (hcount : Returns (countWindowsRound candles config) (0, 0) windowCount) :
    windowCount = Int32.ofNat splits.length := by
  obtain ⟨⟨start, splits'⟩, hreaches, hleaves⟩ := hsplits.exists_leaves
  obtain ⟨rfl, hpast⟩ := createSplitsRound_eq_ok hleaves
  rw [(countWindows_reaches hreaches).returns_iff] at hcount
  have hround : countWindowsRound candles config (start, Int32.ofNat splits.length) =
      .inr (Int32.ofNat splits.length) := by
    rw [countWindowsRound, if_neg]
    rwa [Int32.le_iff_toInt_le, size_toInt, not_le]
  exact (returns_of_leaves hround).mp hcount

theorem allWindows_of_returns (hconfig : Accepted candles config)
    (hexact : NoOverflow candles config) {splits : List (TrainTestSplit α)}
    (h : Returns (createSplitsRound candles config) (0, []) (.ok splits)) :
    AllWindows candles config splits := by
  obtain ⟨windowCount, hcount, hmin⟩ := hconfig.counted
  have hlength := count_eq_length h hcount
  obtain ⟨⟨start, splits'⟩, hreaches, hleaves⟩ := h.exists_leaves
  obtain ⟨rfl, hpast⟩ := createSplitsRound_eq_ok hleaves
  have hmade := madeWindows_of_noOverflow hconfig hexact hreaches
  rw [(hexact.round hconfig.enough _ _ hreaches).guard, hmade.start_eq] at hpast
  refine ⟨?_, hmade.window, hpast⟩
  -- there are fewer windows than an `Int` can count
  have hle : (splits.length : ℤ) ≤ splits.length * config.stepBars.toInt :=
    le_mul_of_one_le_right (by positivity) hconfig.step_pos
  have hstart := toInt_bounds start
  rw [hmade.start_eq] at hstart
  rw [hlength, Int32.toInt_ofNat_of_lt (by omega)] at hmin
  exact hmin

/-- What `validateConfig` lets pass is split into all its windows, without a sum that wraps,
exactly if a window fits and the end of the first one past the data is still an `Int`. -/
theorem makesWindows_iff {α : Type} (candles : JavaList α) (config : WalkForwardConfig Int32)
    (h : ∃ fuel, validateConfig fuel candles config = some (true, none)) :
    MakesWindows candles config ↔
      config.trainWindowBars.toInt + config.testWindowBars.toInt ≤ candles.elements.length ∧
        pastStart candles.elements.length config.toInts 0 +
          (config.trainWindowBars.toInt + config.testWindowBars.toInt) < 2 ^ 31 := by
  have hconfig := accepted_of_validateConfig h
  constructor
  · exact inRange_of_makesWindows hconfig
  · rintro ⟨hend, hrange⟩
    have hexact := noOverflow_of_inRange hconfig hend hrange
    obtain ⟨splits, hsplits⟩ := createSplits_returns hconfig hend hrange
    exact ⟨hexact, splits, (createSplits_eq_some_iff hconfig).mpr hsplits,
      allWindows_of_returns hconfig hexact hsplits⟩

/-- Twenty bars have seven windows of six and two. -/
theorem everyTwoBars_makesWindows :
    MakesWindows twentyBars ⟨6, 2, 2, 3⟩ ↔
      (6 : Int32).toInt + (2 : Int32).toInt ≤ twentyBars.elements.length ∧
        pastStart twentyBars.elements.length (WalkForwardConfig.toInts ⟨6, 2, 2, 3⟩) 0 +
          ((6 : Int32).toInt + (2 : Int32).toInt) < 2 ^ 31 :=
  makesWindows_iff twentyBars ⟨6, 2, 2, 3⟩ ⟨8, by decide⟩

/-- A step of the last `Int` passes, and the second window throws. -/
theorem longStep_not_makesWindows :
    validateConfig 10 twentyBars longStep = some (true, none) ∧
      createSplits 2 twentyBars longStep =
        some (.error (.IllegalArgument 2147483647 (-2147483643))) ∧
      ¬ MakesWindows twentyBars longStep := by
  refine ⟨by decide, by decide, ?_⟩
  rintro ⟨-, splits, ⟨fuel, hsplits⟩, -⟩
  have hthrows : Returns (createSplitsRound twentyBars longStep) (0, [])
      (.error (.IllegalArgument 2147483647 (-2147483643))) := ⟨2, by decide⟩
  have hreturns : Returns (createSplitsRound twentyBars longStep) (0, []) (.ok splits) :=
    ⟨fuel, by rwa [createSplits, if_neg (by decide)] at hsplits⟩
  cases hthrows.unique hreturns

end TradeStream.WalkForward
