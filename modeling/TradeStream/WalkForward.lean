import TradeStream.WhileLoop

/-! Walk-forward windows: `_generate_windows` of the Python optimizer, on unbounded
integers, and `createSplits` of the Kotlin splitter, on 32-bit ones. -/
namespace TradeStream.WalkForward
open TradeStream.WhileLoop

structure WalkForwardConfig (ι : Type) where
  trainWindowBars : ι
  testWindowBars : ι
  stepBars : ι
  minWindows : ι

structure Window (ι : Type) where
  trainStart : ι
  trainEnd : ι
  testStart : ι
  testEnd : ι
  deriving DecidableEq, Repr

/-! ### Python -/

/-- What `run` asks for before it generates windows. -/
def hasMinRequired (totalBars : ℤ) (config : WalkForwardConfig ℤ) : Bool :=
  ¬ totalBars < config.trainWindowBars + config.testWindowBars

/-- One round of the loop of `_generate_windows`, on `start` and `windows`. -/
def generateWindowsRound (totalBars : ℤ) (config : WalkForwardConfig ℤ) :
    ℤ × List (Window ℤ) → (ℤ × List (Window ℤ)) ⊕ List (Window ℤ)
  | (start, windows) =>
    let trainStart := start
    let trainEnd := trainStart + config.trainWindowBars
    let testStart := trainEnd
    let testEnd := testStart + config.testWindowBars
    if testEnd > totalBars then .inr windows
    else .inl (start + config.stepBars, windows ++ [⟨trainStart, trainEnd, testStart, testEnd⟩])

/-- `_generate_windows`, for as many rounds as `fuel` allows. -/
def generateWindows (fuel : ℕ) (totalBars : ℤ) (config : WalkForwardConfig ℤ) :
    Option (List (Window ℤ)) :=
  runLoop (generateWindowsRound totalBars config) fuel (0, [])

/-! ### Kotlin -/

/-- A list on the JVM, where a size is an `Int`. -/
structure JavaList (α : Type) where
  elements : List α
  length_lt : elements.length < 2 ^ 31

inductive SubListException where
  | IndexOutOfBounds (index : Int32)
  | IllegalArgument (fromIndex toIndex : Int32)
  deriving DecidableEq, Repr

namespace JavaList
variable {α : Type}

def size (l : JavaList α) : Int32 := Int32.ofNat l.elements.length

def subList (l : JavaList α) (fromIndex toIndex : Int32) : Except SubListException (List α) :=
  if fromIndex < 0 then .error (.IndexOutOfBounds fromIndex)
  else if toIndex > l.size then .error (.IndexOutOfBounds toIndex)
  else if fromIndex > toIndex then .error (.IllegalArgument fromIndex toIndex)
  else .ok ((l.elements.drop fromIndex.toInt.toNat).take (toIndex.toInt - fromIndex.toInt).toNat)

end JavaList

structure TrainTestSplit (α : Type) where
  trainCandles : List α
  testCandles : List α
  bars : Window Int32
  deriving DecidableEq, Repr

/-- The body of the loop of `createSplits`. -/
def split {α : Type} (candles : JavaList α) (config : WalkForwardConfig Int32) (start : Int32) :
    Except SubListException (TrainTestSplit α) := do
  let trainStart := start
  let trainEnd := start + config.trainWindowBars
  let testStart := trainEnd
  let testEnd := trainEnd + config.testWindowBars
  let trainCandles ← candles.subList trainStart trainEnd
  let testCandles ← candles.subList testStart testEnd
  return ⟨trainCandles, testCandles, ⟨trainStart, trainEnd, testStart, testEnd⟩⟩

/-- One round of that loop, on `start` and `splits`. -/
def createSplitsRound {α : Type} (candles : JavaList α) (config : WalkForwardConfig Int32) :
    Int32 × List (TrainTestSplit α) →
      (Int32 × List (TrainTestSplit α)) ⊕ Except SubListException (List (TrainTestSplit α))
  | (start, splits) =>
    let windowSize := config.trainWindowBars + config.testWindowBars
    if start + windowSize ≤ candles.size then
      match split candles config start with
      | .error e => .inr (.error e)
      | .ok s => .inl (start + config.stepBars, splits ++ [s])
    else .inr (.ok splits)

/-- `createSplits`, for as many rounds as `fuel` allows. -/
def createSplits {α : Type} (fuel : ℕ) (candles : JavaList α)
    (config : WalkForwardConfig Int32) :
    Option (Except SubListException (List (TrainTestSplit α))) :=
  let totalBars := candles.size
  let windowSize := config.trainWindowBars + config.testWindowBars
  if totalBars < windowSize then some (.ok [])
  else runLoop (createSplitsRound candles config) fuel (0, [])

/-- One round of the loop of `validateConfig`, on `start` and `windowCount`. -/
def countWindowsRound {α : Type} (candles : JavaList α) (config : WalkForwardConfig Int32) :
    Int32 × Int32 → (Int32 × Int32) ⊕ Int32
  | (start, windowCount) =>
    let windowSize := config.trainWindowBars + config.testWindowBars
    if start + windowSize ≤ candles.size then .inl (start + config.stepBars, windowCount + 1)
    else .inr windowCount

def validateConfig {α : Type} (fuel : ℕ) (candles : JavaList α)
    (config : WalkForwardConfig Int32) : Option (Bool × Option String) :=
  if config.trainWindowBars ≤ 0 then some (false, some "Train window bars must be positive")
  else if config.testWindowBars ≤ 0 then some (false, some "Test window bars must be positive")
  else if config.stepBars ≤ 0 then some (false, some "Step bars must be positive")
  else if config.minWindows ≤ 0 then some (false, some "Minimum windows must be positive")
  else
    let totalBars := candles.size
    let windowSize := config.trainWindowBars + config.testWindowBars
    if totalBars < windowSize then
      some (false,
        some s!"Insufficient data: need at least {windowSize} bars, have {totalBars}")
    else
      (runLoop (countWindowsRound candles config) fuel (0, 0)).map fun windowCount =>
        if windowCount < config.minWindows then
          (false, some
            s!"Insufficient windows: need at least {config.minWindows}, can create {windowCount}")
        else (true, none)

/-! ### Both -/

def Window.toInts (w : Window Int32) : Window ℤ :=
  ⟨w.trainStart.toInt, w.trainEnd.toInt, w.testStart.toInt, w.testEnd.toInt⟩

def WalkForwardConfig.toInts (config : WalkForwardConfig Int32) : WalkForwardConfig ℤ :=
  ⟨config.trainWindowBars.toInt, config.testWindowBars.toInt, config.stepBars.toInt,
    config.minWindows.toInt⟩

/-- Both return, and the splits are of the windows. -/
def SameWindows {α : Type} (candles : JavaList α) (config : WalkForwardConfig Int32) : Prop :=
  ∃ windows splits,
    (∃ fuel, generateWindows fuel candles.elements.length config.toInts = some windows) ∧
    (∃ fuel, createSplits fuel candles config = some (.ok splits)) ∧
    splits.map (fun s => s.bars.toInts) = windows

/-- The windows that are in bounds from `start` on. -/
structure Fits {α : Type} (candles : JavaList α) (config : WalkForwardConfig Int32)
    (start : ℤ) : Prop where
  start_nonneg : 0 ≤ start
  train_nonneg : 0 ≤ config.trainWindowBars.toInt
  test_nonneg : 0 ≤ config.testWindowBars.toInt
  end_le : start + (config.trainWindowBars.toInt + config.testWindowBars.toInt) ≤
    candles.elements.length

theorem toInt_bounds (x : Int32) : -2147483648 ≤ x.toInt ∧ x.toInt < 2147483648 :=
  ⟨x.le_toInt, x.toInt_lt⟩

/-- A sum of 32-bit integers is exact, or off by 2^32. -/
theorem toInt_add_cases (x y : Int32) :
    (x + y).toInt = x.toInt + y.toInt ∨
      x.toInt + y.toInt < -2147483648 ∧ (x + y).toInt = x.toInt + y.toInt + 4294967296 ∨
      2147483648 ≤ x.toInt + y.toInt ∧ (x + y).toInt = x.toInt + y.toInt - 4294967296 := by
  have hx := toInt_bounds x
  have hy := toInt_bounds y
  have hsum : (x + y).toInt = (x.toInt + y.toInt).bmod 4294967296 := Int32.toInt_add x y
  rw [Int.bmod_eq_emod] at hsum
  split at hsum <;> omega

section
variable {α : Type} {candles : JavaList α} {config : WalkForwardConfig Int32}

theorem size_toInt (candles : JavaList α) :
    candles.size.toInt = candles.elements.length :=
  Int32.toInt_ofNat_of_lt candles.length_lt

theorem subList_eq_ok_iff {fromIndex toIndex : Int32} {l : List α} :
    candles.subList fromIndex toIndex = .ok l ↔
      (0 ≤ fromIndex.toInt ∧ fromIndex.toInt ≤ toIndex.toInt ∧
        toIndex.toInt ≤ candles.elements.length) ∧
      l = (candles.elements.drop fromIndex.toInt.toNat).take
        (toIndex.toInt - fromIndex.toInt).toNat := by
  have hsize := size_toInt candles
  simp only [JavaList.subList, gt_iff_lt, Int32.lt_iff_toInt_lt, hsize, Int32.toInt_zero]
  split_ifs with hfrom hto hle
  · simp; omega
  · simp; omega
  · simp; omega
  · simp only [Except.ok.injEq]
    constructor
    · rintro rfl
      exact ⟨by omega, rfl⟩
    · rintro ⟨-, rfl⟩
      rfl

theorem fits_of_split {start : Int32} {s : TrainTestSplit α}
    (h : split candles config start = .ok s) : Fits candles config start.toInt := by
  simp only [split] at h
  cases htrain : candles.subList start (start + config.trainWindowBars) with
  | error e => simp [htrain, bind, Except.bind] at h
  | ok trainCandles =>
    cases htest : candles.subList (start + config.trainWindowBars)
        (start + config.trainWindowBars + config.testWindowBars) with
    | error e => simp [htrain, htest, bind, Except.bind] at h
    | ok testCandles =>
      obtain ⟨⟨hstart, hle, htrainEnd⟩, -⟩ := subList_eq_ok_iff.mp htrain
      obtain ⟨⟨-, hle', htestEnd⟩, -⟩ := subList_eq_ok_iff.mp htest
      have hlength := candles.length_lt
      -- a sum that wrapped would end before its start
      have hsum := toInt_add_cases start config.trainWindowBars
      have hsum' := toInt_add_cases (start + config.trainWindowBars) config.testWindowBars
      have htrainBounds := toInt_bounds config.trainWindowBars
      have htestBounds := toInt_bounds config.testWindowBars
      constructor <;> omega

theorem split_of_fits {start : Int32} (h : Fits candles config start.toInt) :
    ∃ s, split candles config start = .ok s ∧
      s.bars.toInts = ⟨start.toInt, start.toInt + config.trainWindowBars.toInt,
        start.toInt + config.trainWindowBars.toInt,
        start.toInt + config.trainWindowBars.toInt + config.testWindowBars.toInt⟩ := by
  obtain ⟨hstart, htrain, htest, hend⟩ := h
  have hlength := candles.length_lt
  have hsum : (start + config.trainWindowBars).toInt =
      start.toInt + config.trainWindowBars.toInt := by
    have := toInt_add_cases start config.trainWindowBars
    omega
  have hsum' : (start + config.trainWindowBars + config.testWindowBars).toInt =
      start.toInt + config.trainWindowBars.toInt + config.testWindowBars.toInt := by
    have := toInt_add_cases (start + config.trainWindowBars) config.testWindowBars
    omega
  obtain ⟨trainCandles, htrainCandles⟩ : ∃ l,
      candles.subList start (start + config.trainWindowBars) = .ok l :=
    ⟨_, subList_eq_ok_iff.mpr ⟨by omega, rfl⟩⟩
  obtain ⟨testCandles, htestCandles⟩ : ∃ l, candles.subList (start + config.trainWindowBars)
      (start + config.trainWindowBars + config.testWindowBars) = .ok l :=
    ⟨_, subList_eq_ok_iff.mpr ⟨by omega, rfl⟩⟩
  simp only [split, htrainCandles, htestCandles, bind, Except.bind]
  exact ⟨_, rfl, by simp only [Window.toInts, hsum, hsum']⟩

theorem createSplitsRound_of_fits {start : Int32} (splits : List (TrainTestSplit α))
    (h : Fits candles config start.toInt) :
    ∃ s, createSplitsRound candles config (start, splits) =
        .inl (start + config.stepBars, splits ++ [s]) ∧
      s.bars.toInts = ⟨start.toInt, start.toInt + config.trainWindowBars.toInt,
        start.toInt + config.trainWindowBars.toInt,
        start.toInt + config.trainWindowBars.toInt + config.testWindowBars.toInt⟩ := by
  obtain ⟨s, hsplit, hbars⟩ := split_of_fits h
  obtain ⟨hstart, htrain, htest, hend⟩ := h
  have hlength := candles.length_lt
  have hsize := size_toInt candles
  have hround : start + (config.trainWindowBars + config.testWindowBars) ≤ candles.size := by
    have := toInt_add_cases config.trainWindowBars config.testWindowBars
    have := toInt_add_cases start (config.trainWindowBars + config.testWindowBars)
    rw [Int32.le_iff_toInt_le]
    omega
  refine ⟨s, ?_, hbars⟩
  simp only [createSplitsRound, if_pos hround, hsplit]

/-- Past the data the loop leaves: with its splits if it sees that it is there. -/
theorem createSplitsRound_of_not_fits {start : Int32} (splits : List (TrainTestSplit α))
    (h : ¬ Fits candles config start.toInt) :
    createSplitsRound candles config (start, splits) = .inr (.ok splits) ∧
        (candles.elements.length : ℤ) <
          (start + (config.trainWindowBars + config.testWindowBars)).toInt ∨
      ∃ e, createSplitsRound candles config (start, splits) = .inr (.error e) ∧
        (start + (config.trainWindowBars + config.testWindowBars)).toInt ≤
          candles.elements.length := by
  have hsize := size_toInt candles
  by_cases hround : start + (config.trainWindowBars + config.testWindowBars) ≤ candles.size
  · right
    cases hsplit : split candles config start with
    | ok s => exact absurd (fits_of_split hsplit) h
    | error e =>
      refine ⟨e, by simp only [createSplitsRound, if_pos hround, hsplit], ?_⟩
      rwa [Int32.le_iff_toInt_le, hsize] at hround
  · left
    refine ⟨by simp only [createSplitsRound, if_neg hround], ?_⟩
    rwa [Int32.le_iff_toInt_le, hsize, not_le] at hround

/-- The loops from where Python is at `start` with `windows`, and Kotlin at `start'`
with `splits`. -/
def SameFrom (candles : JavaList α) (config : WalkForwardConfig Int32) (start : ℤ)
    (windows : List (Window ℤ)) (start' : Int32) (splits : List (TrainTestSplit α)) : Prop :=
  ∃ windows' splits',
    Returns (generateWindowsRound candles.elements.length config.toInts) (start, windows)
      windows' ∧
    Returns (createSplitsRound candles config) (start', splits) (.ok splits') ∧
    splits'.map (fun s => s.bars.toInts) = windows'

theorem generateWindowsRound_of_end_le {totalBars start : ℤ} (config : WalkForwardConfig ℤ)
    (windows : List (Window ℤ))
    (h : start + (config.trainWindowBars + config.testWindowBars) ≤ totalBars) :
    generateWindowsRound totalBars config (start, windows) =
      .inl (start + config.stepBars, windows ++ [⟨start, start + config.trainWindowBars,
        start + config.trainWindowBars,
        start + config.trainWindowBars + config.testWindowBars⟩]) := by
  rw [← add_assoc] at h
  simp only [generateWindowsRound, gt_iff_lt, if_neg h.not_gt]

theorem generateWindowsRound_of_lt_end {totalBars start : ℤ} (config : WalkForwardConfig ℤ)
    (windows : List (Window ℤ))
    (h : totalBars < start + (config.trainWindowBars + config.testWindowBars)) :
    generateWindowsRound totalBars config (start, windows) = .inr windows := by
  rw [← add_assoc] at h
  simp only [generateWindowsRound, gt_iff_lt, if_pos h]

/-- A round both go through. -/
theorem sameFrom_of_fits {start : Int32} {windows : List (Window ℤ)}
    {splits : List (TrainTestSplit α)}
    (hsplits : splits.map (fun s => s.bars.toInts) = windows)
    (h : Fits candles config start.toInt) :
    ∃ windows' splits', splits'.map (fun s => s.bars.toInts) = windows' ∧
      (SameFrom candles config start.toInt windows start splits ↔
        SameFrom candles config (start.toInt + config.stepBars.toInt) windows'
          (start + config.stepBars) splits') := by
  obtain ⟨s, hround, hbars⟩ := createSplitsRound_of_fits splits h
  have hround' := generateWindowsRound_of_end_le config.toInts windows h.end_le
  refine ⟨windows ++ [s.bars.toInts], splits ++ [s], ?_, ?_⟩
  · rw [List.map_append, hsplits, List.map_singleton]
  · simp only [SameFrom, returns_of_continues hround, returns_of_continues hround', hbars]
    rfl

/-- Python is past the data: Kotlin sees it too unless its sum has wrapped. -/
theorem sameFrom_of_past {start : Int32} {start' : ℤ} {windows : List (Window ℤ)}
    {splits : List (TrainTestSplit α)}
    (hsplits : splits.map (fun s => s.bars.toInts) = windows)
    (hpast : (candles.elements.length : ℤ) <
      start' + (config.trainWindowBars.toInt + config.testWindowBars.toInt))
    (hfits : ¬ Fits candles config start.toInt) :
    SameFrom candles config start' windows start splits ↔
      (candles.elements.length : ℤ) <
        (start + (config.trainWindowBars + config.testWindowBars)).toInt := by
  have hround' := generateWindowsRound_of_lt_end config.toInts windows hpast
  simp only [SameFrom, returns_of_leaves hround']
  rcases createSplitsRound_of_not_fits splits hfits with ⟨hround, hlt⟩ | ⟨e, hround, hle⟩
  · simp only [returns_of_leaves hround]
    refine iff_of_true ⟨windows, splits, rfl, rfl, hsplits⟩ hlt
  · simp only [returns_of_leaves hround]
    refine iff_of_false ?_ hle.not_gt
    rintro ⟨_, _, -, hok, -⟩
    cases hok

/-- The first start past the data. -/
def pastStart (totalBars : ℤ) (config : WalkForwardConfig ℤ) (start : ℤ) : ℤ :=
  start + ((totalBars - (config.trainWindowBars + config.testWindowBars) - start) /
    config.stepBars + 1) * config.stepBars

theorem pastStart_step {totalBars start : ℤ} (config : WalkForwardConfig ℤ)
    (hstep : 0 < config.stepBars) :
    pastStart totalBars config (start + config.stepBars) = pastStart totalBars config start := by
  have hdiv : (totalBars - (config.trainWindowBars + config.testWindowBars) -
      (start + config.stepBars)) / config.stepBars =
      (totalBars - (config.trainWindowBars + config.testWindowBars) - start) /
        config.stepBars - 1 := by
    rw [sub_eq_add_neg _ 1, ← Int.add_mul_ediv_right _ (-1) hstep.ne']
    congr 1
    ring
  rw [pastStart, hdiv, pastStart]
  ring

theorem pastStart_of_past {totalBars start : ℤ} (config : WalkForwardConfig ℤ)
    (hstart : start + (config.trainWindowBars + config.testWindowBars) ≤ totalBars)
    (hnext : totalBars <
      start + config.stepBars + (config.trainWindowBars + config.testWindowBars)) :
    pastStart totalBars config start = start + config.stepBars := by
  rw [pastStart, Int.ediv_eq_zero_of_lt (by omega) (by omega)]
  ring

/-- From a start that fits the loops stay together up to the first start that does not:
there Kotlin has to see that it is past the data. -/
theorem sameFrom_iff (hstep : 0 < config.stepBars.toInt) {start : Int32}
    {windows : List (Window ℤ)} {splits : List (TrainTestSplit α)}
    (hsplits : splits.map (fun s => s.bars.toInts) = windows)
    (h : Fits candles config start.toInt) :
    SameFrom candles config start.toInt windows start splits ↔
      pastStart candles.elements.length config.toInts start.toInt +
        (config.trainWindowBars.toInt + config.testWindowBars.toInt) < 2 ^ 31 := by
  have hlength := candles.length_lt
  have hadd := toInt_add_cases start config.stepBars
  have hstepBounds := toInt_bounds config.stepBars
  -- each round that both go through leaves less of the data
  induction hn : (candles.elements.length - start.toInt).toNat using Nat.strongRecOn
    generalizing start windows splits with
  | ind n ih =>
    obtain ⟨windows', splits', hsplits', hsame⟩ := sameFrom_of_fits hsplits h
    obtain ⟨hstart, htrain, htest, hend⟩ := h
    rw [hsame]
    by_cases hnext : start.toInt + config.stepBars.toInt +
        (config.trainWindowBars.toInt + config.testWindowBars.toInt) ≤ candles.elements.length
    · have hexact : (start + config.stepBars).toInt =
          start.toInt + config.stepBars.toInt := by omega
      have hfits : Fits candles config (start + config.stepBars).toInt :=
        ⟨by omega, htrain, htest, by omega⟩
      have hless : (candles.elements.length - (start + config.stepBars).toInt).toNat < n := by
        omega
      have hrest := ih _ hless hsplits' hfits (toInt_add_cases _ _) rfl
      rw [hexact] at hrest
      have hpast : pastStart candles.elements.length config.toInts
          (start.toInt + config.stepBars.toInt) =
          pastStart candles.elements.length config.toInts start.toInt :=
        pastStart_step config.toInts hstep
      rw [hpast] at hrest
      exact hrest
    · -- Python stops here, Kotlin unless one of its sums is past the last `Int`
      have hfits : ¬ Fits candles config (start + config.stepBars).toInt := by
        intro hfits
        have hstart' := hfits.start_nonneg
        have hend' := hfits.end_le
        omega
      rw [sameFrom_of_past hsplits' (not_le.mp hnext) hfits,
        pastStart_of_past config.toInts hend (not_le.mp hnext)]
      have hwindow := toInt_add_cases config.trainWindowBars config.testWindowBars
      have hsum := toInt_add_cases (start + config.stepBars)
        (config.trainWindowBars + config.testWindowBars)
      have hsumBounds := toInt_bounds (start + config.stepBars +
        (config.trainWindowBars + config.testWindowBars))
      change _ ↔ start.toInt + config.stepBars.toInt +
        (config.trainWindowBars.toInt + config.testWindowBars.toInt) < 2147483648
      omega

/-- The guard of `createSplits`, on a sum that may have wrapped. -/
theorem size_lt_iff {windowSize : Int32} :
    candles.size < windowSize ↔ (candles.elements.length : ℤ) < windowSize.toInt := by
  rw [Int32.lt_iff_toInt_lt, size_toInt]

theorem sameWindows_of_guard (h : candles.size < config.trainWindowBars + config.testWindowBars) :
    SameWindows candles config ↔ Returns
      (generateWindowsRound candles.elements.length config.toInts) (0, []) [] := by
  simp only [SameWindows, createSplits, if_pos h]
  constructor
  · rintro ⟨windows, splits, hwindows, ⟨fuel, hsplits⟩, rfl⟩
    simp only [Option.some.injEq, Except.ok.injEq] at hsplits
    subst hsplits
    exact hwindows
  · intro hwindows
    exact ⟨[], [], hwindows, ⟨0, rfl⟩, rfl⟩

theorem sameWindows_of_not_guard
    (h : ¬ candles.size < config.trainWindowBars + config.testWindowBars) :
    SameWindows candles config ↔ SameFrom candles config 0 [] 0 [] := by
  simp only [SameWindows, SameFrom, createSplits, if_neg h]
  rfl

/-- Python returns at least the first window when that is within the data, and not at
all when the step does not lead out of it. -/
theorem windows_ne_nil {totalBars : ℤ} (config : WalkForwardConfig ℤ)
    (h : config.trainWindowBars + config.testWindowBars ≤ totalBars) {windows : List (Window ℤ)}
    (hreturns : Returns (generateWindowsRound totalBars config) (0, []) windows) :
    windows ≠ [] := by
  have hround := generateWindowsRound_of_end_le config [] (show 0 + _ ≤ totalBars by rwa [zero_add])
  rw [returns_of_continues hround] at hreturns
  apply hreturns.of_invariant (I := fun s => s.2 ≠ [])
  · simp
  · intro s s' hs hbody
    simp only [generateWindowsRound] at hbody
    split_ifs at hbody
    cases hbody
    simp
  · intro s windows hs hbody
    simp only [generateWindowsRound] at hbody
    split_ifs at hbody
    cases hbody
    exact hs

theorem not_returns_of_step_nonpos {totalBars : ℤ} (config : WalkForwardConfig ℤ)
    (h : config.trainWindowBars + config.testWindowBars ≤ totalBars)
    (hstep : config.stepBars ≤ 0) (windows : List (Window ℤ)) :
    ¬ Returns (generateWindowsRound totalBars config) (0, []) windows := by
  apply not_returns_of_invariant
    (I := fun s => s.1 + (config.trainWindowBars + config.testWindowBars) ≤ totalBars)
  · intro s hs
    exact ⟨_, generateWindowsRound_of_end_le config s.2 hs, by simp only; omega⟩
  · rwa [zero_add]

theorem not_sameWindows_of_negative
    (h : config.trainWindowBars.toInt + config.testWindowBars.toInt ≤ candles.elements.length)
    (hfits : ¬ Fits candles config (0 : Int32).toInt) : ¬ SameWindows candles config := by
  by_cases hguard : candles.size < config.trainWindowBars + config.testWindowBars
  · rw [sameWindows_of_guard hguard]
    intro hreturns
    exact windows_ne_nil config.toInts h hreturns rfl
  · rw [sameWindows_of_not_guard hguard]
    rintro ⟨windows, splits, hwindows, hsplits, hmap⟩
    rcases createSplitsRound_of_not_fits [] hfits with
      ⟨hround, -⟩ | ⟨e, hround, -⟩
    · rw [returns_of_leaves hround] at hsplits
      cases hsplits
      exact windows_ne_nil config.toInts h hwindows hmap.symm
    · rw [returns_of_leaves hround] at hsplits
      cases hsplits

/-- Data too short for one window: Python has none, and Kotlin sees it if its sum of the two
sizes is exact. -/
theorem sameWindows_iff_of_short (hpast : (candles.elements.length : ℤ) <
      config.trainWindowBars.toInt + config.testWindowBars.toInt) :
    SameWindows candles config ↔
      config.trainWindowBars.toInt + config.testWindowBars.toInt < 2 ^ 31 := by
  have hlength := candles.length_lt
  have hwindow := toInt_add_cases config.trainWindowBars config.testWindowBars
  have hwindowBounds := toInt_bounds (config.trainWindowBars + config.testWindowBars)
  have htrainBounds := toInt_bounds config.trainWindowBars
  have htestBounds := toInt_bounds config.testWindowBars
  by_cases hwraps : config.trainWindowBars.toInt + config.testWindowBars.toInt < 2 ^ 31
  · -- the guard returns no windows, and there are none
    have hguard : candles.size < config.trainWindowBars + config.testWindowBars := by
      rw [size_lt_iff]
      omega
    have hround := generateWindowsRound_of_lt_end config.toInts []
      (hpast.trans_eq (zero_add _).symm)
    rw [sameWindows_of_guard hguard, returns_of_leaves hround]
    exact iff_of_true rfl hwraps
  · -- the sum is negative, and passes the guard
    have hguard : ¬ candles.size < config.trainWindowBars + config.testWindowBars := by
      rw [size_lt_iff]
      omega
    have hfits : ¬ Fits candles config (0 : Int32).toInt := by
      intro hfits
      have hend := hfits.end_le
      rw [Int32.toInt_zero] at hend
      omega
    rw [sameWindows_of_not_guard hguard,
      sameFrom_of_past List.map_nil (by rwa [zero_add]) hfits, Int32.zero_add]
    omega

/-- Data for a window: Kotlin throws on a negative size, Python does not return on a step
that is not positive. -/
theorem sameWindows_iff_of_long
    (hend : config.trainWindowBars.toInt + config.testWindowBars.toInt ≤
      candles.elements.length) :
    SameWindows candles config ↔
      0 ≤ config.trainWindowBars.toInt ∧ 0 ≤ config.testWindowBars.toInt ∧
        0 < config.stepBars.toInt ∧
        pastStart candles.elements.length config.toInts 0 +
          (config.trainWindowBars.toInt + config.testWindowBars.toInt) < 2 ^ 31 := by
  have hlength := candles.length_lt
  have hwindow := toInt_add_cases config.trainWindowBars config.testWindowBars
  have hwindowBounds := toInt_bounds (config.trainWindowBars + config.testWindowBars)
  by_cases hfits : Fits candles config (0 : Int32).toInt
  · have htrain := hfits.train_nonneg
    have htest := hfits.test_nonneg
    rw [and_iff_right htrain, and_iff_right htest]
    have hguard : ¬ candles.size < config.trainWindowBars + config.testWindowBars := by
      rw [size_lt_iff]
      omega
    rw [sameWindows_of_not_guard hguard]
    -- a step that is not positive never ends the loop of the specification
    by_cases hstep : 0 < config.stepBars.toInt
    · rw [and_iff_right hstep]
      exact sameFrom_iff hstep List.map_nil hfits
    · apply iff_of_false
      · rintro ⟨windows, -, hwindows, -⟩
        exact not_returns_of_step_nonpos config.toInts hend (not_lt.mp hstep) windows hwindows
      · exact fun h => hstep h.1
  · apply iff_of_false (not_sameWindows_of_negative hend hfits)
    rintro ⟨htrain, htest, -⟩
    refine hfits ⟨le_rfl, htrain, htest, ?_⟩
    rw [Int32.toInt_zero, zero_add]
    exact hend

/-- The two generate the same windows exactly if the data is too short for one, or if
sizes and step are sensible, and no sum of 32 bits wraps on the way. -/
theorem sameWindows_iff {α : Type} (candles : JavaList α) (config : WalkForwardConfig Int32) :
    SameWindows candles config ↔
      (candles.elements.length : ℤ) <
          config.trainWindowBars.toInt + config.testWindowBars.toInt ∧
        config.trainWindowBars.toInt + config.testWindowBars.toInt < 2 ^ 31 ∨
      config.trainWindowBars.toInt + config.testWindowBars.toInt ≤ candles.elements.length ∧
        0 ≤ config.trainWindowBars.toInt ∧ 0 ≤ config.testWindowBars.toInt ∧
        0 < config.stepBars.toInt ∧
        pastStart candles.elements.length config.toInts 0 +
          (config.trainWindowBars.toInt + config.testWindowBars.toInt) < 2 ^ 31 := by
  rcases lt_or_ge (candles.elements.length : ℤ)
    (config.trainWindowBars.toInt + config.testWindowBars.toInt) with hpast | hend
  · rw [or_iff_left (fun h => absurd h.1 hpast.not_ge), and_iff_right hpast]
    exact sameWindows_iff_of_short hpast
  · rw [or_iff_right (fun h => absurd h.1 hend.not_gt), and_iff_right hend]
    exact sameWindows_iff_of_long hend

/-- A step so long that the second window starts past the last `Int`. -/
def longStep : WalkForwardConfig Int32 := ⟨6, 2, 2147483647, 1⟩

def twentyBars : JavaList Unit := ⟨List.replicate 20 (), by simp⟩

/-- Both let it pass. Python has one window, Kotlin asks for a list from past the end
of its bars. -/
theorem longStep_not_sameWindows :
    hasMinRequired 20 longStep.toInts = true ∧
      validateConfig 10 twentyBars longStep = some (true, none) ∧
      generateWindows 2 20 longStep.toInts = some [⟨0, 6, 6, 8⟩] ∧
      createSplits 2 twentyBars longStep =
        some (.error (.IllegalArgument 2147483647 (-2147483643))) ∧
      ¬ SameWindows twentyBars longStep := by
  refine ⟨by decide, by decide, by decide, by decide, ?_⟩
  rw [sameWindows_of_not_guard (by decide)]
  rintro ⟨windows, splits, -, hsplits, -⟩
  have hthrows : Returns (createSplitsRound twentyBars longStep) (0, [])
      (.error (.IllegalArgument 2147483647 (-2147483643))) := ⟨2, by decide⟩
  cases hthrows.unique hsplits

end

end TradeStream.WalkForward
