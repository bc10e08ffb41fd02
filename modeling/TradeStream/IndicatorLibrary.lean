import TradeStream.BufferWindow
import TradeStream.Transducer

/-! The streaming indicators of the library, updated one price at a time, against the series
that the execution engine computes. -/
namespace TradeStream.IndicatorLibrary
open TradeStream.Backtesting TradeStream.StrategyExecution TradeStream.Transducer

/-- `[indicator.update(c) for c in closes]`. -/
def updates {σ : Type} (update : σ → ℚ → σ × Option ℚ) (s : σ) (closes : List ℚ) :
    List (Option ℚ) :=
  (run (single update) s closes).2

/-! ### The moving average -/

structure SMA where
  period : ℤ
  one_le_period : 1 ≤ period
  window : List ℚ
  sum : ℚ

namespace SMA

def new (period : ℤ) : Except PyError SMA :=
  if h : 1 ≤ period then .ok ⟨period, h, [], 0⟩ else .error .valueError

def update (s : SMA) (value : ℚ) : SMA × Option ℚ :=
  let window := s.window ++ [value]
  let sum := s.sum + value
  let evicts := window.length > s.period
  let sum := if evicts then sum - window.headD 0 else sum
  let window := if evicts then window.tail else window
  ({ s with window, sum }, if window.length = s.period then some (sum / s.period) else none)

def compute (closes : List ℚ) (period : ℤ) : Except PyError (List (Option ℚ)) :=
  (new period).map fun s => updates update s closes

/-- The window after some prices, and its sum. -/
structure After (period : ℕ) (prices : List ℚ) (s : SMA) : Prop where
  period_eq : s.period = period
  window_eq : s.window = prices.rtake period
  sum_eq : s.sum = s.window.sum

theorem tail_rtake_succ {α : Type} {l : List α} {n : ℕ} (h : n + 1 ≤ l.length) :
    (l.rtake (n + 1)).tail = l.rtake n := by
  rw [List.rtake, List.rtake, List.tail_drop]
  congr 1
  omega

theorem length_rtake {α : Type} (l : List α) (n : ℕ) : (l.rtake n).length = min n l.length := by
  rw [List.rtake, List.length_drop]
  omega

/-- The window with one more price, and without its first if it is too long. -/
theorem window_update {period : ℕ} {prices : List ℚ} {s : SMA} (h : After period prices s)
    (value : ℚ) : (s.update value).1.window = (prices ++ [value]).rtake period := by
  obtain ⟨hperiod, hwindow, -⟩ := h
  have hpos := s.one_le_period
  obtain ⟨m, rfl⟩ : ∃ m, period = m + 1 := ⟨period - 1, by omega⟩
  have hlength : (prices.rtake (m + 1) ++ [value]).length = min (m + 1) prices.length + 1 := by
    rw [List.length_append, length_rtake, List.length_singleton]
  rw [List.rtake_concat_succ]
  simp only [update, hwindow, hperiod, hlength]
  split_ifs with hevicts
  · -- the window was full, and its first price leaves
    have hlong : m + 1 ≤ prices.length := by omega
    have hne : prices.rtake (m + 1) ≠ [] := by
      rw [← List.length_pos_iff, length_rtake]
      omega
    rw [List.tail_append_of_ne_nil hne, tail_rtake_succ hlong]
  · have hshort : prices.length ≤ m := by omega
    rw [rtake_of_length_le hshort, rtake_of_length_le (by omega)]

theorem sum_update {s : SMA} (h : s.sum = s.window.sum) (value : ℚ) :
    (s.update value).1.sum = (s.update value).1.window.sum := by
  simp only [update, h]
  have hsum : (s.window ++ [value]).sum = s.window.sum + value := by
    rw [List.sum_append, List.sum_singleton]
  rw [← hsum]
  split_ifs with hevicts
  · -- what is evicted leaves the sum
    cases s.window ++ [value] with
    | nil => simp
    | cons first rest =>
      rw [List.headD_cons, List.tail_cons, List.sum_cons, add_sub_cancel_left]
  · rfl

/-- One more price: the mean of the last ones, once there are enough. -/
theorem After.update {period : ℕ} {prices : List ℚ} {s : SMA} (h : After period prices s)
    (value : ℚ) :
    After period (prices ++ [value]) (s.update value).1 ∧
      (s.update value).2 =
        if period ≤ prices.length + 1 then some (mean ((prices ++ [value]).rtake period))
        else none := by
  have hwindow := window_update h value
  have hsum := sum_update h.sum_eq value
  refine ⟨⟨h.period_eq, hwindow, hsum⟩, ?_⟩
  have hlength : (s.update value).1.window.length = min period (prices.length + 1) := by
    rw [hwindow, length_rtake, List.length_append, List.length_singleton]
  have houtput : (s.update value).2 =
      if ((s.update value).1.window.length : ℤ) = s.period then
        some ((s.update value).1.sum / s.period) else none := rfl
  rw [houtput, hlength, hsum, h.period_eq, hwindow]
  split_ifs with hfull hlong
  · have hcount : ((prices ++ [value]).rtake period).length = period := by
      rw [← hwindow, hlength]
      omega
    rw [mean, hcount]
    rfl
  · omega
  · omega
  · rfl

theorem after_run {period : ℕ} {s : SMA} (h : After period [] s) (prices : List ℚ) :
    After period prices (run (single SMA.update) s prices).1 := by
  induction prices using List.reverseRecOn with
  | nil => exact h
  | append_singleton prices value ih =>
    rw [run_concat]
    exact (ih.update value).1

/-- The means of the last `period` prices, from the first position that has so many. -/
theorem compute_eq {period : ℤ} (h : 1 ≤ period) (closes : List ℚ) :
    ∃ streamed, compute closes period = .ok streamed ∧ ∀ i : ℕ,
      streamed[i]? = closes[i]?.map fun _ =>
        if period ≤ i + 1 then some (mean ((closes.take (i + 1)).rtake period.toNat))
        else none := by
  obtain ⟨count, rfl⟩ := Int.eq_ofNat_of_zero_le (by omega : 0 ≤ period)
  have hcompute : compute closes count = .ok (updates update ⟨count, h, [], 0⟩ closes) := by
    rw [compute, new, dif_pos h]
    rfl
  refine ⟨_, hcompute, ?_⟩
  intro i
  rw [updates, getElem?_run_single]
  cases hi : closes[i]? with
  | none => rfl
  | some value =>
    obtain ⟨hlt, hvalue⟩ := List.getElem?_eq_some_iff.mp hi
    have hafter := after_run (s := ⟨count, h, [], 0⟩)
      ⟨rfl, (List.rtake_nil count).symm, rfl⟩ (closes.take i)
    have hupdate := (hafter.update value).2
    have htake : closes.take i ++ [value] = closes.take (i + 1) := by
      rw [List.take_add_one, hi]
      rfl
    rw [htake, List.length_take_of_le hlt.le] at hupdate
    have hcast : (count : ℤ) ≤ i + 1 ↔ count ≤ i + 1 := by omega
    simp only [Option.map_some, hupdate, Int.toNat_natCast, hcast]

end SMA

/-! ### The relative strength -/

/-- The strength of an average gain against an average loss. -/
def strength (avgGain avgLoss : ℚ) : ℚ :=
  if avgLoss = 0 then 100 else 100 - 100 / (1 + avgGain / avgLoss)

/-- The averages are there together or not at all. -/
structure RSI where
  period : ℤ
  one_le_period : 1 ≤ period
  prevClose : Option ℚ
  gains : List ℚ
  losses : List ℚ
  averages : Option (ℚ × ℚ)
  count : ℤ

namespace RSI

def new (period : ℤ) : Except PyError RSI :=
  if h : 1 ≤ period then .ok ⟨period, h, none, [], [], none, 0⟩ else .error .valueError

def update (s : RSI) (close : ℚ) : RSI × Option ℚ :=
  match s.prevClose with
  | none => ({ s with prevClose := some close }, none)
  | some prevClose =>
    let change := close - prevClose
    let gain := max change 0
    let loss := max (-change) 0
    let s := { s with prevClose := some close, count := s.count + 1 }
    match s.averages with
    | none =>
      let s := { s with gains := s.gains ++ [gain], losses := s.losses ++ [loss] }
      if s.count = s.period then
        let avgGain := s.gains.sum / s.period
        let avgLoss := s.losses.sum / s.period
        ({ s with averages := some (avgGain, avgLoss) }, some (strength avgGain avgLoss))
      else (s, none)
    | some (avgGain, avgLoss) =>
      let avgGain := (avgGain * (s.period - 1) + gain) / s.period
      let avgLoss := (avgLoss * (s.period - 1) + loss) / s.period
      ({ s with averages := some (avgGain, avgLoss) }, some (strength avgGain avgLoss))

def compute (closes : List ℚ) (period : ℤ) : Except PyError (List (Option ℚ)) :=
  (new period).map fun s => updates update s closes

end RSI

/-- The gains from price to price, zero where there is a loss. -/
def gainsOf (prices : List ℚ) : List ℚ :=
  List.zipWith (fun prev curr => max (curr - prev) 0) prices prices.tail

def lossesOf (prices : List ℚ) : List ℚ :=
  List.zipWith (fun prev curr => max (-(curr - prev)) 0) prices prices.tail

/-- Wilder's average: the mean of the first values, smoothed by each later one. -/
def wilder (period : ℕ) (values : List ℚ) : ℚ :=
  (values.drop period).foldl (fun avg x => (avg * (period - 1) + x) / period)
    ((values.take period).sum / period)

/-- The strength after some prices. -/
def wilderStrength (period : ℕ) (prices : List ℚ) : ℚ :=
  strength (wilder period (gainsOf prices)) (wilder period (lossesOf prices))

theorem zipWith_tail_append_singleton {α β : Type} (f : α → α → β) {l : List α} {last : α}
    (h : l.getLast? = some last) (x : α) :
    List.zipWith f (l ++ [x]) (l ++ [x]).tail = List.zipWith f l l.tail ++ [f last x] := by
  induction l with
  | nil => simp at h
  | cons a l ih =>
    cases l with
    | nil =>
      obtain rfl : a = last := by simpa using h
      rfl
    | cons b l =>
      have hlast : (b :: l).getLast? = some last := by
        rwa [List.getLast?_cons_cons] at h
      have htail := ih hlast
      rw [List.cons_append, List.tail_cons] at htail
      rw [List.cons_append, List.cons_append, List.tail_cons, List.zipWith_cons_cons, htail]
      rfl

theorem wilder_append_singleton {period : ℕ} {values : List ℚ} (h : period ≤ values.length)
    (x : ℚ) :
    wilder period (values ++ [x]) = (wilder period values * (period - 1) + x) / period := by
  rw [wilder, List.drop_append_of_le_length h, List.take_append_of_le_length h, List.foldl_append]
  rfl

theorem wilder_of_length_eq {period : ℕ} {values : List ℚ} (h : values.length = period) :
    wilder period values = values.sum / period := by
  rw [wilder, List.drop_of_length_le h.le, List.take_of_length_le h.le]
  rfl

theorem length_gainsOf (prices : List ℚ) : (gainsOf prices).length = prices.length - 1 := by
  rw [gainsOf, List.length_zipWith, List.length_tail]
  omega

theorem length_lossesOf (prices : List ℚ) : (lossesOf prices).length = prices.length - 1 := by
  rw [lossesOf, List.length_zipWith, List.length_tail]
  omega

namespace RSI

/-- The state after some prices: all changes until there are enough, then their averages. -/
structure After (period : ℕ) (prices : List ℚ) (s : RSI) : Prop where
  period_eq : s.period = period
  prevClose_eq : s.prevClose = prices.getLast?
  count_eq : s.count = (prices.length - 1 : ℕ)
  warmUp : prices.length - 1 < period →
    s.averages = none ∧ s.gains = gainsOf prices ∧ s.losses = lossesOf prices
  smooth : period ≤ prices.length - 1 →
    s.averages = some (wilder period (gainsOf prices), wilder period (lossesOf prices))

theorem after_new {period : ℕ} (h : 1 ≤ (period : ℤ)) :
    After period [] ⟨period, h, none, [], [], none, 0⟩ where
  period_eq := rfl
  prevClose_eq := rfl
  count_eq := rfl
  warmUp _ := ⟨rfl, rfl, rfl⟩
  smooth hle := absurd h (by simp at hle; omega)

theorem update_of_prevClose_none {s : RSI} (h : s.prevClose = none) (close : ℚ) :
    s.update close = ({ s with prevClose := some close }, none) := by
  simp only [update, h]

theorem update_of_averages_none {s : RSI} {prevClose : ℚ} (hprev : s.prevClose = some prevClose)
    (haverages : s.averages = none) {gains losses : List ℚ}
    (hgains : s.gains ++ [max (close - prevClose) 0] = gains)
    (hlosses : s.losses ++ [max (-(close - prevClose)) 0] = losses) :
    s.update close =
      ({ s with
          prevClose := some close
          gains
          losses
          count := s.count + 1
          averages :=
            if s.count + 1 = s.period then
              some (gains.sum / s.period, losses.sum / s.period)
            else none },
        if s.count + 1 = s.period then
          some (strength (gains.sum / s.period) (losses.sum / s.period))
        else none) := by
  simp only [update, hprev, haverages, hgains, hlosses]
  split_ifs with hcount
  · rfl
  · rfl

theorem update_of_averages_some {s : RSI} {prevClose avgGain avgLoss : ℚ}
    (hprev : s.prevClose = some prevClose) (haverages : s.averages = some (avgGain, avgLoss))
    {avgGain' avgLoss' : ℚ}
    (hgain : (avgGain * (s.period - 1) + max (close - prevClose) 0) / s.period = avgGain')
    (hloss : (avgLoss * (s.period - 1) + max (-(close - prevClose)) 0) / s.period = avgLoss') :
    s.update close =
      ({ s with
          prevClose := some close
          count := s.count + 1
          averages := some (avgGain', avgLoss') }, some (strength avgGain' avgLoss')) := by
  simp only [update, hprev, haverages, hgain, hloss]

theorem gainsOf_append_singleton {prices : List ℚ} {prevClose : ℚ}
    (h : prices.getLast? = some prevClose) (close : ℚ) :
    gainsOf (prices ++ [close]) = gainsOf prices ++ [max (close - prevClose) 0] :=
  zipWith_tail_append_singleton _ h close

theorem lossesOf_append_singleton {prices : List ℚ} {prevClose : ℚ}
    (h : prices.getLast? = some prevClose) (close : ℚ) :
    lossesOf (prices ++ [close]) = lossesOf prices ++ [max (-(close - prevClose)) 0] :=
  zipWith_tail_append_singleton _ h close

theorem length_append_singleton_sub_one (prices : List ℚ) (close : ℚ) :
    (prices ++ [close]).length - 1 = prices.length := by
  rw [List.length_append, List.length_singleton, Nat.add_sub_cancel]

theorem one_le_length_of_last {prices : List ℚ} {prevClose : ℚ}
    (h : prices.getLast? = some prevClose) : 1 ≤ prices.length := by
  rw [Nat.one_le_iff_ne_zero, Ne, List.length_eq_zero_iff]
  rintro rfl
  cases h

/-- The first price is only remembered. -/
theorem After.update_first {period : ℕ} {s : RSI} (h : After period [] s) (close : ℚ) :
    After period [close] (s.update close).1 ∧ (s.update close).2 = none := by
  obtain ⟨speriod, hpos, prev, gains, losses, averages, count⟩ := s
  obtain ⟨hperiod, hprev, hcount, hwarmUp, -⟩ := h
  simp only at hperiod hprev hcount hwarmUp
  subst hperiod hprev hcount
  have hzero : ([] : List ℚ).length - 1 < period := by
    rw [List.length_nil]
    omega
  rw [update_of_prevClose_none rfl]
  refine ⟨⟨rfl, rfl, rfl, fun _ => hwarmUp hzero, fun hle => ?_⟩, rfl⟩
  rw [List.length_singleton] at hle
  omega

/-- A change while there are too few of them: the last one missing makes the averages. -/
theorem After.update_warmUp {period : ℕ} {prices : List ℚ} {s : RSI} (h : After period prices s)
    {prevClose : ℚ} (hlast : prices.getLast? = some prevClose)
    (hfew : prices.length - 1 < period) (close : ℚ) :
    After period (prices ++ [close]) (s.update close).1 ∧
      (s.update close).2 =
        if period ≤ prices.length then some (wilderStrength period (prices ++ [close]))
        else none := by
  obtain ⟨speriod, hpos, prev, gains, losses, averages, count⟩ := s
  obtain ⟨hperiod, hprev, hcount, hwarmUp, -⟩ := h
  simp only at hperiod hprev hcount hwarmUp
  subst hperiod hprev hcount
  have hnew := length_append_singleton_sub_one prices close
  have hlastNew : (prices ++ [close]).getLast? = some close := List.getLast?_concat
  have hlength := one_le_length_of_last hlast
  have hcount : ((prices.length - 1 : ℕ) : ℤ) + 1 = prices.length := by omega
  obtain ⟨haverages, hwarmGains, hwarmLosses⟩ := hwarmUp hfew
  have hgain : gains ++ [max (close - prevClose) 0] = gainsOf (prices ++ [close]) := by
    rw [gainsOf_append_singleton hlast, hwarmGains]
  have hloss : losses ++ [max (-(close - prevClose)) 0] = lossesOf (prices ++ [close]) := by
    rw [lossesOf_append_singleton hlast, hwarmLosses]
  rw [update_of_averages_none hlast haverages hgain hloss]
  simp only [hcount]
  by_cases hfull : prices.length = period
  · -- the first averages
    have hfirstGain : wilder period (gainsOf (prices ++ [close])) =
        (gainsOf (prices ++ [close])).sum / period :=
      wilder_of_length_eq (by rw [length_gainsOf, hnew, hfull])
    have hfirstLoss : wilder period (lossesOf (prices ++ [close])) =
        (lossesOf (prices ++ [close])).sum / period :=
      wilder_of_length_eq (by rw [length_lossesOf, hnew, hfull])
    have hfull' : (prices.length : ℤ) = period := by omega
    rw [if_pos hfull', if_pos hfull', if_pos hfull.ge, wilderStrength, hfirstGain, hfirstLoss]
    refine ⟨⟨rfl, hlastNew.symm, ?_, fun hlt => ?_, fun _ => ?_⟩, rfl⟩
    · rw [hnew]
    · omega
    · rw [hfirstGain, hfirstLoss]
      rfl
  · have hfull' : ¬ (prices.length : ℤ) = period := by omega
    have hshort : ¬ period ≤ prices.length := by omega
    rw [if_neg hfull', if_neg hfull', if_neg hshort]
    refine ⟨⟨rfl, hlastNew.symm, ?_, fun _ => ⟨rfl, rfl, rfl⟩, fun hle => ?_⟩, rfl⟩
    · rw [hnew]
    · omega

/-- A change once there are averages smooths them. -/
theorem After.update_smooth {period : ℕ} {prices : List ℚ} {s : RSI} (h : After period prices s)
    {prevClose : ℚ} (hlast : prices.getLast? = some prevClose)
    (hlong : period ≤ prices.length - 1) (close : ℚ) :
    After period (prices ++ [close]) (s.update close).1 ∧
      (s.update close).2 = some (wilderStrength period (prices ++ [close])) := by
  obtain ⟨speriod, hpos, prev, gains, losses, averages, count⟩ := s
  obtain ⟨hperiod, hprev, hcount, -, hsmooth⟩ := h
  simp only at hperiod hprev hcount hsmooth
  subst hperiod hprev hcount
  have hnew := length_append_singleton_sub_one prices close
  have hlength := one_le_length_of_last hlast
  have hcount : ((prices.length - 1 : ℕ) : ℤ) + 1 = prices.length := by omega
  have hgain := wilder_append_singleton ((length_gainsOf prices).symm ▸ hlong)
    (max (close - prevClose) 0)
  have hloss := wilder_append_singleton ((length_lossesOf prices).symm ▸ hlong)
    (max (-(close - prevClose)) 0)
  rw [← gainsOf_append_singleton hlast] at hgain
  rw [← lossesOf_append_singleton hlast] at hloss
  rw [update_of_averages_some hlast (hsmooth hlong) hgain.symm hloss.symm]
  refine ⟨⟨rfl, List.getLast?_concat.symm, ?_, fun hlt => ?_, fun _ => rfl⟩, rfl⟩
  · rw [hnew]
    exact hcount
  · omega

/-- One more price: its strength, once there are enough changes. -/
theorem After.update {period : ℕ} {prices : List ℚ} {s : RSI} (h : After period prices s)
    (close : ℚ) :
    After period (prices ++ [close]) (s.update close).1 ∧
      (s.update close).2 =
        if period ≤ prices.length then some (wilderStrength period (prices ++ [close]))
        else none := by
  cases hlast : prices.getLast? with
  | none =>
    obtain rfl : prices = [] := List.getLast?_eq_none_iff.mp hlast
    have hpos := s.one_le_period
    rw [h.period_eq] at hpos
    obtain ⟨hafter, houtput⟩ := h.update_first close
    rw [houtput, if_neg (by rw [List.length_nil]; omega)]
    exact ⟨hafter, rfl⟩
  | some prevClose =>
    by_cases hlong : period ≤ prices.length - 1
    · rw [if_pos (by omega)]
      exact h.update_smooth hlast hlong close
    · exact h.update_warmUp hlast (not_le.mp hlong) close

theorem after_run {period : ℕ} {s : RSI} (h : After period [] s) (prices : List ℚ) :
    After period prices (run (single RSI.update) s prices).1 := by
  induction prices using List.reverseRecOn with
  | nil => exact h
  | append_singleton prices close ih =>
    rw [run_concat]
    exact (ih.update close).1

/-- The strengths, from the first position with `period` changes before it. -/
theorem compute_eq {period : ℤ} (h : 1 ≤ period) (closes : List ℚ) :
    ∃ streamed, compute closes period = .ok streamed ∧ ∀ i : ℕ,
      streamed[i]? = closes[i]?.map fun _ =>
        if period ≤ i then some (wilderStrength period.toNat (closes.take (i + 1)))
        else none := by
  obtain ⟨count, rfl⟩ := Int.eq_ofNat_of_zero_le (by omega : 0 ≤ period)
  have hcompute : compute closes count =
      .ok (updates update ⟨count, h, none, [], [], none, 0⟩ closes) := by
    rw [compute, new, dif_pos h]
    rfl
  refine ⟨_, hcompute, ?_⟩
  intro i
  rw [updates, getElem?_run_single]
  cases hi : closes[i]? with
  | none => rfl
  | some close =>
    obtain ⟨hlt, hclose⟩ := List.getElem?_eq_some_iff.mp hi
    have hupdate := ((after_run (after_new h) (closes.take i)).update close).2
    have htake : closes.take i ++ [close] = closes.take (i + 1) := by
      rw [List.take_add_one, hi]
      rfl
    rw [htake, List.length_take_of_le hlt.le] at hupdate
    simp only [Option.map_some, hupdate, Int.toNat_natCast, Nat.cast_le]

end RSI

/-! ### The engine's series -/

theorem pyRange_eq_map (start stop : ℤ) :
    pyRange start stop = (List.range (stop - start).toNat).map fun (i : ℕ) => start + (i : ℤ) := by
  rw [pyRange, List.bind_eq_flatMap, List.map_flatMap]
  simp [List.map_eq_flatMap]

theorem pyRange_self (start : ℤ) : pyRange start start = [] := by
  rw [pyRange_eq_map, sub_self]
  rfl

theorem pyRange_succ {start stop : ℕ} (h : start ≤ stop) :
    pyRange start (stop + 1 : ℕ) = pyRange start stop ++ [(stop : ℤ)] := by
  have hcount : ((stop + 1 : ℕ) - (start : ℤ)).toNat = (stop - (start : ℤ)).toNat + 1 := by
    omega
  have hlast : (start : ℤ) + ((stop - (start : ℤ)).toNat : ℕ) = stop := by omega
  rw [pyRange_eq_map, pyRange_eq_map, hcount, List.range_succ, List.map_append,
    List.map_singleton, hlast]

/-- What the first part yields goes into the second. -/
theorem exists_ok_bind {ε σ β : Type} {Q : σ → Prop} {P : β → Prop} {x : Except ε σ}
    {f : σ → Except ε β} (hx : ∃ s, x = .ok s ∧ Q s)
    (hf : ∀ s, Q s → ∃ b, f s = .ok b ∧ P b) : ∃ b, x >>= f = .ok b ∧ P b := by
  obtain ⟨s, rfl, hs⟩ := hx
  exact hf s hs

/-- A loop over a range, with what holds before each index. -/
theorem foldlM_pyRange {σ : Type} {f : σ → ℤ → Except PyError σ} {I : ℕ → σ → Prop}
    {start stop : ℕ} (hle : start ≤ stop)
    (hstep : ∀ k s, start ≤ k → k < stop → I k s → ∃ s', f s k = .ok s' ∧ I (k + 1) s')
    {s : σ} (hs : I start s) :
    ∃ s', (pyRange start stop).foldlM f s = .ok s' ∧ I stop s' := by
  induction stop, hle using Nat.le_induction with
  | base =>
    refine ⟨s, ?_, hs⟩
    rw [pyRange_self]
    rfl
  | succ stop hle ih =>
    obtain ⟨t, hfold, ht⟩ := ih fun k s hk hlt => hstep k s hk (by omega)
    obtain ⟨t', hlast, ht'⟩ := hstep stop t hle (by omega) ht
    refine ⟨t', ?_, ht'⟩
    rw [pyRange_succ hle, List.foldlM_append, hfold]
    change [(stop : ℤ)].foldlM f t = .ok t'
    rw [List.foldlM_cons, hlast]
    rfl

theorem getItem_natCast {series : List ℚ} {k : ℕ} (h : k < series.length) :
    getItem series k = .ok series[k] := by
  have hnonneg : ¬ (k : ℤ) < 0 := by omega
  simp only [getItem, if_neg hnonneg, Int.toNat_natCast, List.getElem?_eq_getElem h]

theorem divide_natCast (x : ℚ) {k : ℕ} (h : 1 ≤ k) : divide x ((k : ℤ) : ℚ) = .ok (x / k) := by
  have hne : ((k : ℤ) : ℚ) ≠ 0 := by
    have hpos : 0 < k := h
    positivity
  rw [divide, if_neg hne, Int.cast_natCast]

theorem rsiValue_eq {avgGain avgLoss : ℚ} (hgain : 0 ≤ avgGain) (hloss : 0 ≤ avgLoss) :
    rsiValue avgGain avgLoss = .ok (strength avgGain avgLoss) := by
  rw [rsiValue, strength]
  split_ifs with hzero
  · rfl
  · have hne : 1 + avgGain / avgLoss ≠ 0 := by positivity
    rw [divide, if_neg hzero]
    change (divide 100 (1 + avgGain / avgLoss) >>= fun share => pure (100 - share)) = _
    rw [divide, if_neg hne]
    rfl

theorem gainsOf_nonneg {prices : List ℚ} {x : ℚ} (h : x ∈ gainsOf prices) : 0 ≤ x := by
  obtain ⟨i, hi, rfl⟩ := List.getElem_of_mem h
  simp only [gainsOf, List.getElem_zipWith]
  exact le_max_right _ _

theorem lossesOf_nonneg {prices : List ℚ} {x : ℚ} (h : x ∈ lossesOf prices) : 0 ≤ x := by
  obtain ⟨i, hi, rfl⟩ := List.getElem_of_mem h
  simp only [lossesOf, List.getElem_zipWith]
  exact le_max_right _ _

theorem wilder_nonneg {period : ℕ} (h : 1 ≤ period) {values : List ℚ}
    (hvalues : ∀ x ∈ values, 0 ≤ x) : 0 ≤ wilder period values := by
  have hperiod : (0 : ℚ) ≤ period - 1 := by
    rw [sub_nonneg]
    exact_mod_cast h
  have hfold (l : List ℚ) (hl : ∀ x ∈ l, 0 ≤ x) (avg : ℚ) (havg : 0 ≤ avg) :
      0 ≤ l.foldl (fun (avg x : ℚ) => (avg * (period - 1) + x) / period) avg := by
    induction l generalizing avg with
    | nil => exact havg
    | cons x l ih =>
      have hx := hl x List.mem_cons_self
      exact ih (fun y hy => hl y (List.mem_cons_of_mem x hy)) _ (by positivity)
  apply hfold
  · exact fun x hx => hvalues x (List.mem_of_mem_drop hx)
  · have hsum : 0 ≤ (values.take period).sum :=
      List.sum_nonneg fun x hx => hvalues x (List.mem_of_mem_take hx)
    positivity

section
variable {series : List ℚ} {period : ℕ}

/-- What a change adds to the gains and to the losses. -/
theorem gain_of_delta (gains delta : ℚ) :
    (if 0 < delta then gains + delta else gains) = gains + max delta 0 := by
  split_ifs with hpos
  · rw [max_eq_left hpos.le]
  · rw [max_eq_right (not_lt.mp hpos), add_zero]

theorem loss_of_delta (losses delta : ℚ) :
    (if 0 < delta then losses else losses - delta) = losses + max (-delta) 0 := by
  split_ifs with hpos
  · rw [max_eq_right (neg_nonpos.mpr hpos.le), add_zero]
  · rw [max_eq_left (neg_nonneg.mpr (not_lt.mp hpos)), sub_eq_add_neg]

/-- The changes up to a price are those up to the one before it and its own. -/
theorem zipWith_take_succ {β : Type} (f : ℚ → ℚ → β) {k : ℕ} (hk : 1 ≤ k)
    (hlt : k < series.length) :
    List.zipWith f (series.take (k + 1)) (series.take (k + 1)).tail =
      List.zipWith f (series.take k) (series.take k).tail ++ [f series[k - 1] series[k]] := by
  have htake : series.take (k + 1) = series.take k ++ [series[k]] := by
    rw [List.take_add_one, List.getElem?_eq_getElem hlt]
    rfl
  have hlast : (series.take k).getLast? = some series[k - 1] := by
    rw [List.getLast?_eq_getElem?, List.length_take_of_le hlt.le,
      List.getElem?_take_of_lt (by omega), List.getElem?_eq_getElem]
  rw [htake]
  exact zipWith_tail_append_singleton f hlast _

/-- The series so far: right from the first position with `period` changes before it. -/
structure StrengthsUpTo (series : List ℚ) (period k : ℕ) (result : List ℚ) : Prop where
  length_eq : result.length = k
  value : ∀ i, period ≤ i → i < k → result[i]? = some (wilderStrength period (series.take (i + 1)))

theorem StrengthsUpTo.concat {k : ℕ} {result : List ℚ} (h : StrengthsUpTo series period k result)
    {value : ℚ} (hvalue : period ≤ k → value = wilderStrength period (series.take (k + 1))) :
    StrengthsUpTo series period (k + 1) (result ++ [value]) := by
  constructor
  · rw [List.length_append, h.length_eq, List.length_singleton]
  · intro i hi hlt
    by_cases hik : i < k
    · rw [List.getElem?_append_left (by rw [h.length_eq]; exact hik)]
      exact h.value i hi hik
    · obtain rfl : i = k := by omega
      rw [List.getElem?_append_right h.length_eq.le, h.length_eq, Nat.sub_self, hvalue hi]
      rfl

/-- The first loop before an index: the sums of the changes so far. -/
structure WarmedUp (series : List ℚ) (period k : ℕ) (s : ℚ × ℚ × List ℚ) : Prop where
  gains_eq : s.1 = (gainsOf (series.take k)).sum
  losses_eq : s.2.1 = (lossesOf (series.take k)).sum
  strengths : StrengthsUpTo series period k s.2.2

/-- The second loop before an index: the smoothed averages. -/
structure Smoothed (series : List ℚ) (period k : ℕ) (s : ℚ × ℚ × List ℚ) : Prop where
  avgGain_eq : s.1 = wilder period (gainsOf (series.take k))
  avgLoss_eq : s.2.1 = wilder period (lossesOf (series.take k))
  strengths : StrengthsUpTo series period k s.2.2

theorem warmedUp_one (h : 1 ≤ period) (series : List ℚ) :
    WarmedUp series period 1 (0, 0, [50]) := by
  cases series with
  | nil => exact ⟨rfl, rfl, rfl, by omega⟩
  | cons first rest => exact ⟨rfl, rfl, rfl, by omega⟩

theorem sum_gainsOf_take_succ {k : ℕ} (hk : 1 ≤ k) (hlt : k < series.length) :
    (gainsOf (series.take (k + 1))).sum =
      (gainsOf (series.take k)).sum + max (series[k] - series[k - 1]) 0 := by
  rw [gainsOf, zipWith_take_succ _ hk hlt, List.sum_append, List.sum_singleton, gainsOf]

theorem sum_lossesOf_take_succ {k : ℕ} (hk : 1 ≤ k) (hlt : k < series.length) :
    (lossesOf (series.take (k + 1))).sum =
      (lossesOf (series.take k)).sum + max (-(series[k] - series[k - 1])) 0 := by
  rw [lossesOf, zipWith_take_succ _ hk hlt, List.sum_append, List.sum_singleton, lossesOf]

theorem rsiWarmUp_eq (h : 1 ≤ period) (hlength : 1 ≤ series.length) :
    ∃ s, rsiWarmUp series period = .ok s ∧
      WarmedUp series period (min (period + 1) series.length) s := by
  have hstop : min ((period : ℤ) + 1) series.length = (min (period + 1) series.length : ℕ) := by
    push_cast
    rfl
  rw [rsiWarmUp, hstop]
  -- the sums grow by the changes of the index, which the loop reads with its predecessor
  refine @foldlM_pyRange _ _ (WarmedUp series period) 1 _ (by omega) ?_ _ (warmedUp_one h series)
  rintro k ⟨gains, losses, result⟩ hk hstop' ⟨hgains, hlosses, hstrengths⟩
  have hlt : k < series.length := by omega
  have hprev : (k : ℤ) - 1 = (k - 1 : ℕ) := by omega
  have hgains' := sum_gainsOf_take_succ hk hlt
  have hlosses' := sum_lossesOf_take_succ hk hlt
  simp only at hgains hlosses hstrengths
  rw [← hgains] at hgains'
  rw [← hlosses] at hlosses'
  have hgainNonneg : 0 ≤ (gainsOf (series.take (k + 1))).sum / k := by
    have hsum : 0 ≤ (gainsOf (series.take (k + 1))).sum := List.sum_nonneg fun x => gainsOf_nonneg
    positivity
  have hlossNonneg : 0 ≤ (lossesOf (series.take (k + 1))).sum / k := by
    have hsum : 0 ≤ (lossesOf (series.take (k + 1))).sum := List.sum_nonneg fun x => lossesOf_nonneg
    positivity
  simp only [hprev, getItem_natCast hlt, getItem_natCast (show k - 1 < series.length by omega),
    gain_of_delta, loss_of_delta, ← hgains', ← hlosses', divide_natCast _ hk,
    rsiValue_eq hgainNonneg hlossNonneg, bind, Except.bind, pure, Except.pure]
  refine ⟨_, rfl, rfl, rfl, hstrengths.concat fun hle => ?_⟩
  -- the only such index of this loop is the period itself
  have hperiod : k = period := by omega
  have hcount : (series.take (k + 1)).length - 1 = period := by
    rw [List.length_take_of_le (by omega)]
    omega
  rw [wilderStrength, wilder_of_length_eq (by rw [length_gainsOf, hcount]),
    wilder_of_length_eq (by rw [length_lossesOf, hcount]), hperiod]

theorem smooth_gain_of_delta (avgGain delta : ℚ) :
    (avgGain * (((period : ℤ) : ℚ) - 1) + if 0 < delta then delta else 0) =
      avgGain * (period - 1) + max delta 0 := by
  rw [Int.cast_natCast]
  split_ifs with hpos
  · rw [max_eq_left hpos.le]
  · rw [max_eq_right (not_lt.mp hpos)]

theorem smooth_loss_of_delta (avgLoss delta : ℚ) :
    (avgLoss * (((period : ℤ) : ℚ) - 1) - if 0 < delta then 0 else delta) =
      avgLoss * (period - 1) + max (-delta) 0 := by
  rw [Int.cast_natCast]
  split_ifs with hpos
  · rw [max_eq_right (neg_nonpos.mpr hpos.le), sub_zero, add_zero]
  · rw [max_eq_left (neg_nonneg.mpr (not_lt.mp hpos)), sub_eq_add_neg]

theorem wilder_gainsOf_take_succ (period : ℕ) {k : ℕ} (hk : period + 1 ≤ k)
    (hlt : k < series.length) :
    wilder period (gainsOf (series.take (k + 1))) =
      (wilder period (gainsOf (series.take k)) * (period - 1) +
        max (series[k] - series[k - 1]) 0) / period := by
  have hlength : period ≤ (gainsOf (series.take k)).length := by
    rw [length_gainsOf, List.length_take_of_le hlt.le]
    omega
  rw [gainsOf, zipWith_take_succ _ (by omega) hlt]
  exact wilder_append_singleton hlength _

theorem wilder_lossesOf_take_succ (period : ℕ) {k : ℕ} (hk : period + 1 ≤ k)
    (hlt : k < series.length) :
    wilder period (lossesOf (series.take (k + 1))) =
      (wilder period (lossesOf (series.take k)) * (period - 1) +
        max (-(series[k] - series[k - 1])) 0) / period := by
  have hlength : period ≤ (lossesOf (series.take k)).length := by
    rw [length_lossesOf, List.length_take_of_le hlt.le]
    omega
  rw [lossesOf, zipWith_take_succ _ (by omega) hlt]
  exact wilder_append_singleton hlength _

theorem rsiSmooth_eq (h : 1 ≤ period) (hlength : period + 1 ≤ series.length)
    {avgGain avgLoss : ℚ} {result : List ℚ}
    (hs : Smoothed series period (period + 1) (avgGain, avgLoss, result)) :
    ∃ values, rsiSmooth series period (avgGain, avgLoss) result = .ok values ∧
      StrengthsUpTo series period series.length values := by
  have hstart : (period : ℤ) + 1 = (period + 1 : ℕ) := by
    push_cast
    rfl
  rw [rsiSmooth, hstart]
  refine exists_ok_bind (Q := Smoothed series period series.length)
    (@foldlM_pyRange _ _ (Smoothed series period) _ _ hlength ?_ _ hs)
    fun s hlast => ⟨_, rfl, hlast.strengths⟩
  rintro k ⟨avgGain, avgLoss, result⟩ hk hlt ⟨hgain, hloss, hstrengths⟩
  have hkpos : 1 ≤ k := by omega
  have hprev : (k : ℤ) - 1 = (k - 1 : ℕ) := by omega
  simp only at hgain hloss hstrengths
  -- one more change smooths the averages of the changes before it
  have hgain' := wilder_gainsOf_take_succ period hk hlt
  have hloss' := wilder_lossesOf_take_succ period hk hlt
  rw [← hgain] at hgain'
  rw [← hloss] at hloss'
  have hgainNonneg := wilder_nonneg h fun x => @gainsOf_nonneg (series.take (k + 1)) x
  have hlossNonneg := wilder_nonneg h fun x => @lossesOf_nonneg (series.take (k + 1)) x
  simp only [hprev, getItem_natCast hlt, getItem_natCast (show k - 1 < series.length by omega),
    smooth_gain_of_delta, smooth_loss_of_delta, divide_natCast _ h, ← hgain', ← hloss',
    rsiValue_eq hgainNonneg hlossNonneg, bind, Except.bind, pure, Except.pure]
  exact ⟨_, rfl, rfl, rfl, hstrengths.concat fun _ => rfl⟩

/-- The engine's series: at every position with `period` changes before it the strength of
the averages. -/
theorem rsi_eq (h : 1 ≤ period) (series : List ℚ) :
    ∃ values, rsi series period = .ok values ∧
      ∀ i, period ≤ i → i < series.length →
        values[i]? = some (wilderStrength period (series.take (i + 1))) := by
  rw [rsi]
  by_cases hshort : series.length < 2
  · rw [if_pos hshort]
    exact ⟨_, rfl, fun i hi hlt => by omega⟩
  rw [if_neg hshort]
  refine exists_ok_bind (rsiWarmUp_eq h (by omega)) ?_
  rintro ⟨gains, losses, result⟩ ⟨hgains, hlosses, hstrengths⟩
  simp only at hgains hlosses hstrengths
  by_cases hlong : period < series.length
  · have hmin : min (period + 1) series.length = period + 1 := by omega
    rw [hmin] at hgains hlosses hstrengths
    have hlong' : (period : ℤ) < series.length := by omega
    have hcount : (series.take (period + 1)).length - 1 = period := by
      rw [List.length_take_of_le (by omega)]
      omega
    have hgain : gains / period = wilder period (gainsOf (series.take (period + 1))) := by
      rw [hgains, wilder_of_length_eq (by rw [length_gainsOf, hcount])]
    have hloss : losses / period = wilder period (lossesOf (series.take (period + 1))) := by
      rw [hlosses, wilder_of_length_eq (by rw [length_lossesOf, hcount])]
    simp only [if_pos hlong', divide_natCast _ h]
    obtain ⟨values, hvalues, hall⟩ := rsiSmooth_eq h hlong ⟨hgain, hloss, hstrengths⟩
    exact ⟨values, hvalues, hall.value⟩
  · have hlong' : ¬ (period : ℤ) < series.length := by omega
    simp only [if_neg hlong']
    exact ⟨result, rfl, fun i hi hlt => by omega⟩

end

theorem sma_stream_eq {closes : List ℚ} {period : ℤ} (h : 1 ≤ period) :
    ∃ streamed, SMA.compute closes period = .ok streamed ∧
      ∃ values, sma closes period = .ok values ∧
        ∀ (i : ℕ) (x : ℚ), streamed[i]? = some (some x) → values[i]? = some x := by
  obtain ⟨streamed, hstreamed, houtput⟩ := SMA.compute_eq h closes
  refine ⟨streamed, hstreamed, _, sma_eq_map h closes, ?_⟩
  intro i x hx
  rw [houtput, Option.map_eq_some_iff] at hx
  obtain ⟨close, hclose, hx⟩ := hx
  obtain ⟨hlt, -⟩ := List.getElem?_eq_some_iff.mp hclose
  split_ifs at hx with hlong
  rw [List.getElem?_map, List.getElem?_range hlt, Option.map_some]
  exact hx

theorem rsi_stream_eq {closes : List ℚ} {period : ℤ} (h : 1 ≤ period) :
    ∃ streamed, RSI.compute closes period = .ok streamed ∧
      ∃ values, rsi closes period = .ok values ∧
        ∀ (i : ℕ) (x : ℚ), streamed[i]? = some (some x) → values[i]? = some x := by
  obtain ⟨streamed, hstreamed, houtput⟩ := RSI.compute_eq h closes
  obtain ⟨count, rfl⟩ := Int.eq_ofNat_of_zero_le (by omega : 0 ≤ period)
  obtain ⟨values, hvalues, hall⟩ := @rsi_eq count (by omega) closes
  refine ⟨streamed, hstreamed, values, hvalues, ?_⟩
  intro i x hx
  rw [houtput, Option.map_eq_some_iff] at hx
  obtain ⟨close, hclose, hx⟩ := hx
  obtain ⟨hlt, -⟩ := List.getElem?_eq_some_iff.mp hclose
  split_ifs at hx with hlong
  rw [hall i (by omega) hlt]
  exact hx

/-- Wherever a streaming indicator has a value, the engine's series has it at that place. -/
theorem streaming_eq_engine (runtime : EngineRuntime) (closes : List ℚ) (period : ℤ)
    (h : 1 ≤ period) :
    (∃ streamed, SMA.compute closes period = .ok streamed ∧
      ∀ params : Params, getInt runtime params "period" 20 = .ok period →
        ∃ values, computeSma runtime closes params = .ok values ∧
          ∀ (i : ℕ) (x : ℚ), streamed[i]? = some (some x) → values[i]? = some x) ∧
    (∃ streamed, RSI.compute closes period = .ok streamed ∧
      ∀ params : Params, getInt runtime params "period" 14 = .ok period →
        ∃ values, computeRsi runtime closes params = .ok values ∧
          ∀ (i : ℕ) (x : ℚ), streamed[i]? = some (some x) → values[i]? = some x) := by
  obtain ⟨averages, haverages, averages', haverages', hsma⟩ := @sma_stream_eq closes period h
  obtain ⟨strengths, hstrengths, strengths', hstrengths', hrsi⟩ := @rsi_stream_eq closes period h
  refine ⟨⟨averages, haverages, fun params hparams => ?_⟩,
    ⟨strengths, hstrengths, fun params hparams => ?_⟩⟩
  · refine ⟨averages', ?_, hsma⟩
    rw [computeSma, hparams]
    exact haverages'
  · refine ⟨strengths', ?_, hrsi⟩
    rw [computeRsi, hparams]
    exact hstrengths'

theorem fourCloses_streaming_eq_engine :
    (∃ streamed, SMA.compute [10, 12, 11, 15] 2 = .ok streamed ∧
      ∀ params : Params, getInt enginePython params "period" 20 = .ok 2 →
        ∃ values, computeSma enginePython [10, 12, 11, 15] params = .ok values ∧
          ∀ (i : ℕ) (x : ℚ), streamed[i]? = some (some x) → values[i]? = some x) ∧
    (∃ streamed, RSI.compute [10, 12, 11, 15] 2 = .ok streamed ∧
      ∀ params : Params, getInt enginePython params "period" 14 = .ok 2 →
        ∃ values, computeRsi enginePython [10, 12, 11, 15] params = .ok values ∧
          ∀ (i : ℕ) (x : ℚ), streamed[i]? = some (some x) → values[i]? = some x) :=
  streaming_eq_engine enginePython [10, 12, 11, 15] 2 (by decide)

end TradeStream.IndicatorLibrary
