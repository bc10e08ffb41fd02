import TradeStream.ExactSeries
import TradeStream.YamlSeriesSignals

/-! No look-ahead in backtests: what the registry, the named strategies and the specs make of
a bar is settled by the bars up to it. -/
namespace TradeStream.Backtesting
open TradeStream.Causality VectorBTRunner YamlStrategyLoader

section
variable {D : Type} (runtime : SeriesRuntime D) (lib : SeriesLibrary D)

/-- Two data frames that agree up to a bar have there the same indicators and signals, or the
same error, unless `ROC` has a negative period. -/
theorem no_look_ahead {t : ℕ} {ohlcv ohlcv' : List (Bar D)} (h : AgreeUpTo t ohlcv ohlcv') :
    (∀ name params, IndicatorRegistry.Forward runtime name params →
      SameResult (AgreeUpTo t) (create runtime lib ohlcv name params)
        (create runtime lib ohlcv' name params)) ∧
    (∀ strategyName params,
      SameResult (SignalsAgreeUpTo t)
        (VectorBTRunner.generateSignals runtime lib ohlcv params strategyName)
        (VectorBTRunner.generateSignals runtime lib ohlcv' params strategyName)) ∧
    ∀ (spec : SeriesSpec D) (overrides : Params D), spec.Forward runtime overrides →
      SameResult (SignalsAgreeUpTo t) (seriesSignals runtime lib ohlcv spec overrides)
        (seriesSignals runtime lib ohlcv' spec overrides) := by
  refine ⟨?_, ?_, ?_⟩
  · intro name params hforward
    exact IndicatorRegistry.create_causal hforward (h.map (·.close)) h
  · intro strategyName params
    exact generateSignals_causal strategyName params h
  · intro spec overrides hforward
    exact seriesSignals_causal hforward h

end

namespace ExactSeries

/-- A bar whose prices are all one, with one unit traded. -/
def flatBar (price : ℚ) : Bar Value :=
  ⟨some price, some price, some price, some price, some 1⟩

def noParams : Params Value := fun _ => none

def only (key : String) (value : PyValue Value) : Params Value :=
  Function.update noParams key (some value)

/-- Entry where the rate of change over the period is positive. -/
def rateSpec (period : ℚ) : SeriesSpec Value where
  parameters := []
  indicators := [⟨⟨some "roc", some "ROC"⟩, only "period" (.number (some period))⟩]
  entryConditions := [⟨some "OVER_CONSTANT", some "roc", fun key =>
    if key = "value" then .number (some 0) else .none⟩]
  exitConditions := []

def barsOf (closes : List ℚ) : List (Bar Value) := closes.map flatBar

/-- With a period of -1 the signal of the first bar is that of the second bar's close. -/
theorem backward_rate_looks_ahead :
    AgreeUpTo 0 (barsOf [2, 1]) (barsOf [2, 3]) ∧
      ¬ SameResult (SignalsAgreeUpTo 0)
        (seriesSignals runtime library (barsOf [2, 1]) (rateSpec (-1)) noParams)
        (seriesSignals runtime library (barsOf [2, 3]) (rateSpec (-1)) noParams) := by
  have hfalls : seriesSignals runtime library (barsOf [2, 1]) (rateSpec (-1)) noParams =
      .ok ([true, false], [false, false]) := by decide +kernel
  have hrises : seriesSignals runtime library (barsOf [2, 3]) (rateSpec (-1)) noParams =
      .ok ([false, false], [false, false]) := by decide +kernel
  refine ⟨⟨by decide, by decide, rfl⟩, ?_⟩
  rw [hfalls, hrises]
  rintro (⟨⟨hentry, -⟩⟩ | -)
  simpa using hentry.take_eq

theorem forward_one (name : String) :
    IndicatorRegistry.Forward runtime name (only "period" (.number (some 1))) := by
  intro _ period hperiod
  have hone : runtime.getInt (only "period" (.number (some 1))) "period" 12 = .ok 1 := rfl
  cases hone.symm.trans hperiod
  decide

theorem forward_rateSpec_one : (rateSpec 1).Forward runtime noParams := by
  intro params _ indDef hmem type _ _ period hperiod
  obtain rfl := List.mem_singleton.mp hmem
  have hone : runtime.getInt (SeriesIndicatorDef.resolved runtime params
      ⟨⟨some "roc", some "ROC"⟩, only "period" (.number (some 1))⟩) "period" 12 = .ok 1 := rfl
  cases hone.symm.trans hperiod
  decide

/-- Three bars, the last of which differ. -/
theorem rate_looks_at_no_later_bar :
    AgreeUpTo 1 (barsOf [1, 2, 3]) (barsOf [1, 2, 1]) ∧
      SameResult (AgreeUpTo 1)
        (create runtime library (barsOf [1, 2, 3]) "ROC" (only "period" (.number (some 1))))
        (create runtime library (barsOf [1, 2, 1]) "ROC" (only "period" (.number (some 1)))) ∧
      SameResult (SignalsAgreeUpTo 1)
        (VectorBTRunner.generateSignals runtime library (barsOf [1, 2, 3]) noParams
          "SMA_EMA_CROSSOVER")
        (VectorBTRunner.generateSignals runtime library (barsOf [1, 2, 1]) noParams
          "SMA_EMA_CROSSOVER") ∧
      SameResult (SignalsAgreeUpTo 1)
        (seriesSignals runtime library (barsOf [1, 2, 3]) (rateSpec 1) noParams)
        (seriesSignals runtime library (barsOf [1, 2, 1]) (rateSpec 1) noParams) := by
  have hagree : AgreeUpTo 1 (barsOf [1, 2, 3]) (barsOf [1, 2, 1]) :=
    ⟨by decide, by decide, rfl⟩
  obtain ⟨hcreate, hnamed, hspec⟩ := no_look_ahead runtime library hagree
  exact ⟨hagree, hcreate "ROC" _ (forward_one "ROC"), hnamed "SMA_EMA_CROSSOVER" noParams,
    hspec (rateSpec 1) noParams forward_rateSpec_one⟩

end ExactSeries

end TradeStream.Backtesting
