import TradeStream.VectorBtSignals
import TradeStream.ExactSeries

/-! The entries and exits of the EMA_MACD strategy against the levels that they stand for. -/
namespace TradeStream.Backtesting.VectorBTRunner
open TradeStream.Causality

/-! ### Truth values, bar by bar -/

section
variable {a b : List Bool} {t : ℕ}

theorem getElem?_both : (both a b)[t]? = some true ↔ a[t]? = some true ∧ b[t]? = some true := by
  rw [both, List.getElem?_zipWith_eq_some]
  constructor
  · rintro ⟨x, y, hx, hy, hand⟩
    rw [Bool.and_eq_true] at hand
    rw [hx, hy, hand.1, hand.2]
    exact ⟨rfl, rfl⟩
  · rintro ⟨hx, hy⟩
    exact ⟨true, true, hx, hy, rfl⟩

theorem getElem?_either : (either a b)[t]? = some true ↔
    t < a.length ∧ t < b.length ∧ (a[t]? = some true ∨ b[t]? = some true) := by
  rw [either, List.getElem?_zipWith_eq_some]
  constructor
  · rintro ⟨x, y, hx, hy, hor⟩
    obtain ⟨hlt, -⟩ := List.getElem?_eq_some_iff.mp hx
    obtain ⟨hlt', -⟩ := List.getElem?_eq_some_iff.mp hy
    rw [Bool.or_eq_true] at hor
    rw [hx, hy]
    exact ⟨hlt, hlt', hor.imp (congrArg some) (congrArg some)⟩
  · rintro ⟨hlt, hlt', hor⟩
    refine ⟨a[t], b[t], List.getElem?_eq_getElem hlt, List.getElem?_eq_getElem hlt', ?_⟩
    rw [List.getElem?_eq_getElem hlt, List.getElem?_eq_getElem hlt'] at hor
    rw [Bool.or_eq_true]
    exact hor.imp Option.some.inj Option.some.inj

theorem length_changes (a : List Bool) : (changes a).length = a.length := by
  simp [changes, Causality.shift]

/-- Nothing comes before the first bar. -/
theorem not_changes_zero (a : List Bool) : (changes a)[0]? ≠ some true := by
  intro hchange
  rw [changes, List.getElem?_zipWith_eq_some] at hchange
  obtain ⟨now, before, -, hbefore, hxor⟩ := hchange
  have hnone : before = none := by
    rw [Causality.shift, if_pos Int.one_nonneg] at hbefore
    obtain ⟨hlt, hget⟩ := List.getElem?_eq_some_iff.mp hbefore
    rw [← hget]
    simp
  rw [hnone] at hxor
  exact absurd hxor Bool.false_ne_true

theorem changes_succ : (changes a)[t + 1]? = some true ↔
    ∃ now, a[t]? = some (!now) ∧ a[t + 1]? = some now := by
  have hshift : (Causality.shift none 1 (a.map some))[t + 1]? =
      if t + 1 < a.length then (a[t]?).map some else none := by
    rw [Causality.shift, if_pos Int.one_nonneg, List.getElem?_take]
    simp [List.getElem?_cons_succ]
  rw [changes, List.getElem?_zipWith_eq_some]
  constructor
  · rintro ⟨now, before, hnow, hbefore, hxor⟩
    obtain ⟨hlt, -⟩ := List.getElem?_eq_some_iff.mp hnow
    rw [hshift, if_pos hlt, List.getElem?_eq_getElem (Nat.lt_of_succ_lt hlt), Option.map_some,
      Option.some_inj] at hbefore
    subst hbefore
    refine ⟨now, ?_, hnow⟩
    rw [List.getElem?_eq_getElem (Nat.lt_of_succ_lt hlt)]
    cases now <;> simpa using hxor
  · rintro ⟨now, hbefore, hnow⟩
    obtain ⟨hlt, -⟩ := List.getElem?_eq_some_iff.mp hnow
    refine ⟨now, some (!now), hnow, ?_, ?_⟩
    · rw [hshift, if_pos hlt, hbefore, Option.map_some]
    · cases now <;> rfl

end

/-! ### The series of the strategy -/

section
variable {D : Type}

/-- What `_ema_macd_signals` compares. -/
structure EmaMacd (D : Type) where
  emaShort : List D
  emaLong : List D
  macd : Macd D

variable (runtime : SeriesRuntime D)

namespace EmaMacd
variable (series : EmaMacd D)

def emaBullish : List Bool := runtime.gt series.emaShort series.emaLong

def macdBullish : List Bool := runtime.gt series.macd.macd series.macd.signal

def emaBearish : List Bool := runtime.less series.emaShort series.emaLong

def macdBearish : List Bool := runtime.less series.macd.macd series.macd.signal

def entries : List Bool := both (changes (series.emaBullish runtime)) (series.macdBullish runtime)

def exits : List Bool :=
  either (changes (series.emaBearish runtime))
    (both (changes (series.macdBearish runtime)) (series.macdBearish runtime))

end EmaMacd

variable (lib : SeriesLibrary D) (ohlcv : List (Bar D)) (params : Params D)

def emaMacd : Except PyError (EmaMacd D) := do
  let shortEma := param runtime params "shortEmaPeriod" 12
  let longEma := param runtime params "longEmaPeriod" 26
  let emaShort ← create runtime lib ohlcv "EMA" (periodOnly shortEma)
  let emaLong ← create runtime lib ohlcv "EMA" (periodOnly longEma)
  let macd ← lib.macd shortEma longEma (param runtime params "signalPeriod" 9)
    (ohlcv.map (·.close))
  return ⟨emaShort, emaLong, macd⟩

theorem emaMacdSignals_eq : emaMacdSignals runtime lib ohlcv params =
    (emaMacd runtime lib ohlcv params).map
      fun series => (series.entries runtime, series.exits runtime) := by
  rw [emaMacdSignals, emaMacd]
  cases create runtime lib ohlcv "EMA" (periodOnly (param runtime params "shortEmaPeriod" 12)) with
  | error e => rfl
  | ok emaShort =>
    cases create runtime lib ohlcv "EMA" (periodOnly (param runtime params "longEmaPeriod" 26)) with
    | error e => rfl
    | ok emaLong =>
      cases lib.macd (param runtime params "shortEmaPeriod" 12)
          (param runtime params "longEmaPeriod" 26) (param runtime params "signalPeriod" 9)
          (ohlcv.map (·.close)) with
      | error e => rfl
      | ok macd => rfl

/-- The signals mean what the comments of the strategy say: at an entry the short average and the
MACD are above, at an exit one of them is below. -/
structure MeansLevels (series : EmaMacd D) (signals : Signals) : Prop where
  entry : ∀ t : ℕ, signals.1[t]? = some true →
    (series.emaBullish runtime)[t]? = some true ∧ (series.macdBullish runtime)[t]? = some true
  exit : ∀ t : ℕ, signals.2[t]? = some true →
    (series.emaBearish runtime)[t]? = some true ∨ (series.macdBearish runtime)[t]? = some true

/-- The short average never stops being above while the MACD is above, and never stops being below
while the MACD is not below. -/
structure NoContraryCross (series : EmaMacd D) : Prop where
  entry : ∀ t : ℕ, (series.emaBullish runtime)[t]? = some true →
    (series.emaBullish runtime)[t + 1]? = some false →
    (series.macdBullish runtime)[t + 1]? ≠ some true
  exit : ∀ t : ℕ, (series.emaBearish runtime)[t]? = some true →
    (series.emaBearish runtime)[t + 1]? = some false →
    (series.macdBearish runtime)[t + 1]? ≠ some false

variable {runtime} {series : EmaMacd D}

/-- A change either way sets off an entry, also the one that ends what it stands for. -/
theorem means_entry_iff :
    (∀ t : ℕ, (series.entries runtime)[t]? = some true →
      (series.emaBullish runtime)[t]? = some true ∧
        (series.macdBullish runtime)[t]? = some true) ↔
      ∀ t : ℕ, (series.emaBullish runtime)[t]? = some true →
        (series.emaBullish runtime)[t + 1]? = some false →
        (series.macdBullish runtime)[t + 1]? ≠ some true := by
  constructor
  · intro hmeans t hbefore hnow hmacd
    have hchange : (changes (series.emaBullish runtime))[t + 1]? = some true :=
      changes_succ.mpr ⟨false, hbefore, hnow⟩
    have habove := (hmeans (t + 1) (getElem?_both.mpr ⟨hchange, hmacd⟩)).1
    rw [hnow] at habove
    cases habove
  · intro hcross t hentry
    obtain ⟨hchange, hmacd⟩ := getElem?_both.mp hentry
    refine ⟨?_, hmacd⟩
    cases t with
    | zero => exact absurd hchange (not_changes_zero _)
    | succ t =>
      obtain ⟨now, hbefore, hnow⟩ := changes_succ.mp hchange
      cases now with
      | true => exact hnow
      | false => exact absurd hmacd (hcross t hbefore hnow)

theorem means_exit_iff :
    (∀ t : ℕ, (series.exits runtime)[t]? = some true →
      (series.emaBearish runtime)[t]? = some true ∨
        (series.macdBearish runtime)[t]? = some true) ↔
      ∀ t : ℕ, (series.emaBearish runtime)[t]? = some true →
        (series.emaBearish runtime)[t + 1]? = some false →
        (series.macdBearish runtime)[t + 1]? ≠ some false := by
  have hlength : (both (changes (series.macdBearish runtime))
      (series.macdBearish runtime)).length = (series.macdBearish runtime).length := by
    rw [both, List.length_zipWith, length_changes, min_self]
  constructor
  · intro hmeans t hbefore hnow hmacd
    have hchange : (changes (series.emaBearish runtime))[t + 1]? = some true :=
      changes_succ.mpr ⟨false, hbefore, hnow⟩
    obtain ⟨hlt, -⟩ := List.getElem?_eq_some_iff.mp hchange
    obtain ⟨hlt', -⟩ := List.getElem?_eq_some_iff.mp hmacd
    rw [← hlength] at hlt'
    rcases hmeans (t + 1) (getElem?_either.mpr ⟨hlt, hlt', .inl hchange⟩) with hbelow | hbelow
    · rw [hnow] at hbelow
      cases hbelow
    · rw [hmacd] at hbelow
      cases hbelow
  · intro hcross t hexit
    obtain ⟨-, hlt, hchange | hmacd⟩ := getElem?_either.mp hexit
    · rw [hlength] at hlt
      cases t with
      | zero => exact absurd hchange (not_changes_zero _)
      | succ t =>
        obtain ⟨now, hbefore, hnow⟩ := changes_succ.mp hchange
        cases now with
        | true => exact .inl hnow
        | false =>
          have hmacd := hcross t hbefore hnow
          rw [List.getElem?_eq_getElem hlt] at hmacd ⊢
          rw [ne_eq, Option.some_inj, Bool.not_eq_false] at hmacd
          exact .inr (congrArg some hmacd)
    · exact .inr (getElem?_both.mp hmacd).2

end

/-- The signals mean the levels on exactly the series without a contrary crossing. -/
theorem meansLevels_iff {D : Type} (runtime : SeriesRuntime D) (lib : SeriesLibrary D)
    (ohlcv : List (Bar D)) (params : Params D) :
    (∀ series signals, emaMacd runtime lib ohlcv params = .ok series →
      emaMacdSignals runtime lib ohlcv params = .ok signals →
      MeansLevels runtime series signals) ↔
      ∀ series, emaMacd runtime lib ohlcv params = .ok series →
        NoContraryCross runtime series := by
  rw [emaMacdSignals_eq]
  constructor
  · intro hmeans series hseries
    have hlevels := hmeans series _ hseries (by rw [hseries]; rfl)
    exact ⟨means_entry_iff.mp hlevels.entry, means_exit_iff.mp hlevels.exit⟩
  · intro hcross series signals hseries hsignals
    rw [hseries] at hsignals
    cases hsignals
    have hnone := hcross series hseries
    exact ⟨means_entry_iff.mpr hnone.entry, means_exit_iff.mpr hnone.exit⟩

section
open ExactSeries

/-- Averages of one and of two bars, on closes that fall more slowly at last. -/
def slowingFall : List (Bar Value) :=
  [0, 9, 7, 6].map fun close => ⟨some close, some close, some close, some close, some 1⟩

def oneTwoTwo : Params Value
  | "shortEmaPeriod" => some (.number (some 1))
  | "longEmaPeriod" | "signalPeriod" => some (.number (some 2))
  | _ => none

/-- The short average falls to the long one at the last bar: an entry. -/
theorem slowingFall_not_meansLevels : ¬ ∀ series signals,
    emaMacd runtime library slowingFall oneTwoTwo = .ok series →
      emaMacdSignals runtime library slowingFall oneTwoTwo = .ok signals →
      MeansLevels runtime series signals := by
  intro hmeans
  have heval : ((emaMacd runtime library slowingFall oneTwoTwo).map fun series =>
      ((series.entries runtime)[3]?, (series.emaBullish runtime)[3]?)).toOption =
        some (some true, some false) := by decide +kernel
  cases hseries : emaMacd runtime library slowingFall oneTwoTwo with
  | error e =>
    rw [hseries] at heval
    cases heval
  | ok series =>
    rw [hseries] at heval
    obtain ⟨hentry, hbullish⟩ := Prod.ext_iff.mp (Option.some.inj heval)
    have hlevels := hmeans series _ hseries (by rw [emaMacdSignals_eq, hseries]; rfl)
    have habove := (hlevels.entry 3 hentry).1
    cases habove.symm.trans hbullish

end

end TradeStream.Backtesting.VectorBTRunner
