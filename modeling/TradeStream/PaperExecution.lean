import TradeStream.DecimalContext

/-! Fills of the paper execution adapter, simulated against a snapshot. -/
namespace TradeStream.PaperExecution
open TradeStream.DecimalContext TradeStream.Fallible TradeStream.RoundDecimal

inductive OrderSide where
  | buy
  | sell
deriving DecidableEq

/-- A `datetime`, in seconds, with its offset from UTC if it has one. -/
structure DateTime where
  wallTime : ℚ
  utcOffset : Option ℚ

structure TradeIntent where
  intentId : String
  instrument : String
  venue : String
  side : OrderSide
  orderType : String
  quantity : Decimal
  maxNotionalUsd : Option Decimal

structure MarketSnapshot where
  snapshotId : String
  instrument : String
  venue : String
  bestBid : Decimal
  bestAsk : Decimal
  capturedAtUtc : DateTime
  feeBps : Decimal := .finite 10
  slippageBps : Decimal := .finite 5
  latencyMs : ℤ := 250

inductive FillStatus where
  | filled
  | rejected
deriving DecidableEq

structure PaperFill where
  intentId : String
  status : FillStatus
  fillPrice : Option Decimal
  fillQuantity : Decimal
  feeQuote : Decimal
  slippageVsMid : Option Decimal
  latencyMs : ℤ
  snapshotId : String
  rejectReason : Option String := none
deriving DecidableEq

structure DeterministicPaperExecutionAdapter where
  maxSnapshotAgeSeconds : ℤ := 60

/-- A time without an offset is taken for UTC. -/
def ageSeconds (earlier later : DateTime) : ℚ :=
  (later.wallTime - later.utcOffset.getD 0) - (earlier.wallTime - earlier.utcOffset.getD 0)

def MarketSnapshot.referencePrice (snapshot : MarketSnapshot) : OrderSide → Decimal
  | .buy => snapshot.bestAsk
  | .sell => snapshot.bestBid

section
variable (c : Context)

def quantizeUsd (value : Decimal) : Except Signal Decimal := c.quantize 2 value

namespace DeterministicPaperExecutionAdapter
variable (adapter : DeterministicPaperExecutionAdapter) (intent : TradeIntent)
  (snapshot : MarketSnapshot) (nowUtc : DateTime)

def rejectReason : Except Signal (Option String) := do
  if intent.orderType ≠ "market" then
    return some "unsupported_order_type"
  if ← intent.quantity.lessEq (.finite 0) then
    return some "invalid_quantity"
  if intent.instrument ≠ snapshot.instrument then
    return some "instrument_mismatch"
  if intent.venue ≠ snapshot.venue then
    return some "venue_mismatch"
  -- the ask is not looked at after a bid that is not positive
  if ← snapshot.bestBid.lessEq (.finite 0) then
    return some "invalid_snapshot_price"
  if ← snapshot.bestAsk.lessEq (.finite 0) then
    return some "invalid_snapshot_price"
  if ← snapshot.bestBid.greater snapshot.bestAsk then
    return some "crossed_snapshot"
  if (adapter.maxSnapshotAgeSeconds : ℚ) < ageSeconds snapshot.capturedAtUtc nowUtc then
    return some "stale_snapshot"
  let notional ← c.mul (snapshot.referencePrice intent.side) intent.quantity
  match intent.maxNotionalUsd, intent.side with
  | some maxNotionalUsd, .buy =>
    if ← notional.greater maxNotionalUsd then
      return some "max_notional_exceeded"
    return none
  | _, _ => return none

def simulateFill : Except Signal PaperFill := do
  match ← adapter.rejectReason c intent snapshot nowUtc with
  | some rejectReason =>
    return {
      intentId := intent.intentId
      status := .rejected
      fillPrice := none
      fillQuantity := .finite 0
      feeQuote := .finite 0
      slippageVsMid := none
      latencyMs := snapshot.latencyMs
      snapshotId := snapshot.snapshotId
      rejectReason := some rejectReason }
  | none =>
    let mid ← c.divBy (← c.add snapshot.bestBid snapshot.bestAsk) 2
    let referencePrice := snapshot.referencePrice intent.side
    let slippageMultiplier ← c.divBy snapshot.slippageBps 10000
    let priceDelta ← c.mul referencePrice slippageMultiplier
    let slipped ← (match intent.side with
      | .buy => c.add referencePrice priceDelta
      | .sell => c.sub referencePrice priceDelta)
    let fillPrice ← quantizeUsd c slipped
    let fee ← c.mul (← c.mul fillPrice intent.quantity) snapshot.feeBps
    let feeQuote ← quantizeUsd c (← c.divBy fee 10000)
    let slippage ← c.abs (← c.sub fillPrice mid)
    let slippageVsMid ← quantizeUsd c slippage
    return {
      intentId := intent.intentId
      status := .filled
      fillPrice := some fillPrice
      fillQuantity := intent.quantity
      feeQuote := feeQuote
      slippageVsMid := some slippageVsMid
      latencyMs := snapshot.latencyMs
      snapshotId := snapshot.snapshotId }

end DeterministicPaperExecutionAdapter

end

/-- Not better than the touch, not free, and within the limit. -/
def Fair (intent : TradeIntent) (snapshot : MarketSnapshot) (fill : PaperFill) : Prop :=
  ∃ price, fill.fillPrice = some (.finite price) ∧
    match intent.side with
    | .buy => ∃ ask, snapshot.bestAsk = .finite ask ∧ 0 < ask ∧ ask ≤ price ∧
        ∀ limit, intent.maxNotionalUsd = some (.finite limit) →
          ∃ quantity, fill.fillQuantity = .finite quantity ∧ price * quantity ≤ limit
    | .sell => ∃ bid, snapshot.bestBid = .finite bid ∧ 0 < price ∧ price ≤ bid

/-- A price moved against the order. -/
def OrderSide.worsened (side : OrderSide) (reference delta : ℚ) : ℚ :=
  match side with
  | .buy => reference + delta
  | .sell => reference - delta

/-- The reference price and its slippage, in the context's arithmetic. -/
def slippedPrice (c : Context) (side : OrderSide) (reference slippageBps : ℚ) :
    Except Signal ℚ := do
  let multiplier ← c.round (slippageBps / 10000)
  let delta ← c.round (reference * multiplier)
  c.round (side.worsened reference delta)

/-- In cents, the price with its slippage leaves the ask rounded up, the bid rounded down, zero,
and what the limit allows for a unit rounded down, by half a cent each. -/
def ClearsHalfCent (c : Context) (intent : TradeIntent) (snapshot : MarketSnapshot) : Prop :=
  ∃ reference slippageBps slipped, snapshot.referencePrice intent.side = .finite reference ∧
    snapshot.slippageBps = .finite slippageBps ∧
    slippedPrice c intent.side reference slippageBps = .ok slipped ∧
    match intent.side with
    | .buy => ⌈reference * 10 ^ 2⌉ - 1 / 2 ≤ slipped * 10 ^ 2 ∧
        ∀ limit quantity, intent.maxNotionalUsd = some (.finite limit) →
          intent.quantity = .finite quantity →
          slipped * 10 ^ 2 < ⌊limit / quantity * 10 ^ 2⌋ + 1 / 2
    | .sell => 1 / 2 ≤ slipped * 10 ^ 2 ∧ slipped * 10 ^ 2 < ⌊reference * 10 ^ 2⌋ + 1 / 2

section
variable {c : Context} {adapter : DeterministicPaperExecutionAdapter} {intent : TradeIntent}
  {snapshot : MarketSnapshot} {nowUtc : DateTime}

/-! ### What an accepted order has passed -/

theorem check_eq_none_iff {p : Prop} [Decidable p] {reason : String}
    {rest : Except Signal (Option String)} :
    (if p then pure (some reason) else rest) = .ok none ↔ ¬ p ∧ rest = .ok none := by
  split_ifs with hp
  · simp [hp, pure, Except.pure]
  · simp [hp]

/-- The checks on the amounts; the limit is compared with the reference price's notional. -/
structure Accepted (c : Context) (intent : TradeIntent) (snapshot : MarketSnapshot)
    (notional : Decimal) : Prop where
  quantity : intent.quantity.lessEq (.finite 0) = .ok false
  bid : snapshot.bestBid.lessEq (.finite 0) = .ok false
  ask : snapshot.bestAsk.lessEq (.finite 0) = .ok false
  product : c.mul (snapshot.referencePrice intent.side) intent.quantity = .ok notional
  limit : ∀ limit, intent.maxNotionalUsd = some limit → intent.side = .buy →
    notional.greater limit = .ok false

theorem accepted_of_rejectReason
    (h : adapter.rejectReason c intent snapshot nowUtc = .ok none) :
    ∃ notional, Accepted c intent snapshot notional := by
  simp only [DeterministicPaperExecutionAdapter.rejectReason, check_eq_none_iff, bind_eq_ok_iff,
    Bool.not_eq_true] at h
  obtain ⟨-, _, hquantity, rfl, -, -, _, hbid, rfl, _, hask, rfl, _, -, rfl, -, notional,
    hnotional, hlast⟩ := h
  refine ⟨notional, hquantity, hbid, hask, hnotional, ?_⟩
  intro limit hlimit hside
  rw [hlimit, hside, bind_eq_ok_iff] at hlast
  obtain ⟨exceeded, hexceeded, hpass⟩ := hlast
  rw [check_eq_none_iff, Bool.not_eq_true] at hpass
  rw [hexceeded, hpass.1]

theorem lessEq_zero_eq_false_iff {x : ℚ} :
    (Decimal.finite x).lessEq (.finite 0) = .ok false ↔ 0 < x := by
  have hcmp : (cmp x 0).isLE = false ↔ 0 < x := by
    rw [← cmp_eq_gt_iff]
    cases cmp x 0 <;> simp
  rw [← hcmp, Decimal.lessEq, finite_compare_finite]
  simp [bind, Except.bind, pure, Except.pure]

/-- An infinite quantity is over every limit. -/
theorem Accepted.quantity_finite {notional : Decimal} {ask limit : ℚ}
    (h : Accepted c intent snapshot notional) (hside : intent.side = .buy)
    (hask : snapshot.bestAsk = .finite ask) (hlimit : intent.maxNotionalUsd = some (.finite limit)) :
    ∃ quantity, intent.quantity = .finite quantity ∧ 0 < quantity := by
  have hpos : 0 < ask := by
    apply lessEq_zero_eq_false_iff.mp
    rw [← hask]
    exact h.ask
  have hquantity := h.quantity
  have hnotional := h.product
  have hover := h.limit _ hlimit hside
  rw [hside, MarketSnapshot.referencePrice, hask] at hnotional
  cases hq : intent.quantity with
  | finite quantity =>
    rw [hq] at hquantity
    exact ⟨quantity, rfl, lessEq_zero_eq_false_iff.mp hquantity⟩
  | infinity negative =>
    rw [hq] at hquantity hnotional
    cases negative with
    | false =>
      simp only [Context.mul, hpos.ne', hpos.not_gt, if_false] at hnotional
      obtain rfl := Except.ok.inj hnotional
      cases hover
    | true => cases hquantity
  | nan signaling =>
    rw [hq] at hquantity
    cases hquantity

/-! ### The price of a fill -/

/-- The slipped decimal, as the function has it, for one of the two sides. -/
theorem slipped_eq_finite_iff {side : OrderSide} {reference slippage : Decimal} {slipped : ℚ} :
    (do
      let multiplier ← c.divBy slippage 10000
      let delta ← c.mul reference multiplier
      match side with
        | .buy => c.add reference delta
        | .sell => c.sub reference delta) = .ok (.finite slipped) ↔
    ∃ x bps, reference = .finite x ∧ slippage = .finite bps ∧
      slippedPrice c side x bps = .ok slipped := by
  simp only [slippedPrice, bind_eq_ok_iff]
  constructor
  · rintro ⟨multiplier, hmultiplier, delta, hdelta, hsum⟩
    have hparts : ∃ x d, reference = .finite x ∧ delta = .finite d ∧
        c.round (side.worsened x d) = .ok slipped := by
      cases side with
      | buy => exact add_eq_finite_iff.mp hsum
      | sell => exact sub_eq_finite_iff.mp hsum
    obtain ⟨x, d, rfl, rfl, hround⟩ := hparts
    obtain ⟨x', m, hx, rfl, hproduct⟩ := mul_eq_finite_iff.mp hdelta
    obtain ⟨bps, hbps, hquotient⟩ := divBy_eq_finite_iff.mp hmultiplier
    obtain rfl := Decimal.finite.inj hx
    exact ⟨x, bps, rfl, hbps, m, by exact_mod_cast hquotient, d, hproduct, hround⟩
  · rintro ⟨x, bps, rfl, rfl, m, hquotient, d, hproduct, hround⟩
    refine ⟨.finite m, divBy_eq_finite_iff.mpr ⟨bps, rfl, by exact_mod_cast hquotient⟩,
      .finite d, mul_eq_finite_iff.mpr ⟨x, m, rfl, rfl, hproduct⟩, ?_⟩
    cases side with
    | buy => exact add_eq_finite_iff.mpr ⟨x, d, rfl, rfl, hround⟩
    | sell => exact sub_eq_finite_iff.mpr ⟨x, d, rfl, rfl, hround⟩

/-- The amounts of a fill: the price is the slipped one in cents. -/
theorem simulateFill_filled {fill : PaperFill}
    (h : adapter.simulateFill c intent snapshot nowUtc = .ok fill) (hfilled : fill.status = .filled) :
    ∃ notional slipped price, Accepted c intent snapshot notional ∧
      (do
        let multiplier ← c.divBy snapshot.slippageBps 10000
        let delta ← c.mul (snapshot.referencePrice intent.side) multiplier
        match intent.side with
          | .buy => c.add (snapshot.referencePrice intent.side) delta
          | .sell => c.sub (snapshot.referencePrice intent.side) delta) = .ok slipped ∧
      c.quantize 2 slipped = .ok price ∧ fill.fillPrice = some price ∧
      fill.fillQuantity = intent.quantity := by
  rw [DeterministicPaperExecutionAdapter.simulateFill, bind_eq_ok_iff] at h
  obtain ⟨reason, hreason, h⟩ := h
  cases reason with
  | some reason =>
    obtain rfl := Except.ok.inj h
    cases hfilled
  | none =>
    obtain ⟨notional, haccepted⟩ := accepted_of_rejectReason hreason
    simp only [bind_eq_ok_iff] at h
    obtain ⟨_, -, mid, -, multiplier, hmultiplier, delta, hdelta, slipped, hslipped, price, hprice,
      _, -, _, -, _, -, _, -, _, -, _, -, _, -, hfill⟩ := h
    obtain rfl := Except.ok.inj hfill
    refine ⟨notional, slipped, price, haccepted, ?_, hprice, rfl, rfl⟩
    simp only [hmultiplier, hdelta, bind, Except.bind]
    exact hslipped

/-! ### The touch and the limit -/

theorem nonneg_of_storeTo_pos {slipped : ℚ} (h : 0 < storeTo 2 slipped) : 0 ≤ slipped := by
  have hhalf := (storeTo_pos_iff 2 slipped).mp h
  linarith

theorem buy_bounds_iff {notional : Decimal} {fill : PaperFill} {ask slipped : ℚ}
    (h : Accepted c intent snapshot notional) (hside : intent.side = .buy)
    (hask : snapshot.bestAsk = .finite ask) (hquantity : fill.fillQuantity = intent.quantity) :
    (0 < ask ∧ ask ≤ storeTo 2 slipped ∧
        ∀ limit, intent.maxNotionalUsd = some (.finite limit) →
          ∃ quantity, fill.fillQuantity = .finite quantity ∧
            storeTo 2 slipped * quantity ≤ limit) ↔
      ⌈ask * 10 ^ 2⌉ - 1 / 2 ≤ slipped * 10 ^ 2 ∧
        ∀ limit quantity, intent.maxNotionalUsd = some (.finite limit) →
          intent.quantity = .finite quantity →
          slipped * 10 ^ 2 < ⌊limit / quantity * 10 ^ 2⌋ + 1 / 2 := by
  have hpos : 0 < ask := by
    apply lessEq_zero_eq_false_iff.mp
    rw [← hask]
    exact h.ask
  rw [and_iff_right hpos, ← le_storeTo_iff 2 slipped hpos]
  apply and_congr_right
  intro htouch
  have hslipped := nonneg_of_storeTo_pos (hpos.trans_le htouch)
  have hlimit : ∀ {limit quantity : ℚ}, 0 < quantity → (storeTo 2 slipped * quantity ≤ limit ↔
      slipped * 10 ^ 2 < ⌊limit / quantity * 10 ^ 2⌋ + 1 / 2) := by
    intro limit quantity hq
    rw [← le_div_iff₀ hq, storeTo_le_iff 2 hslipped]
  constructor
  · intro hwithin limit quantity hmax hq
    obtain ⟨q, hfill, hle⟩ := hwithin limit hmax
    obtain ⟨q', hq', hqpos⟩ := h.quantity_finite hside hask hmax
    obtain rfl : q = quantity := Decimal.finite.inj (hfill.symm.trans (hquantity.trans hq))
    obtain rfl : q' = q := Decimal.finite.inj (hq'.symm.trans hq)
    exact (hlimit hqpos).mp hle
  · intro hbelow limit hmax
    obtain ⟨q, hq, hqpos⟩ := h.quantity_finite hside hask hmax
    exact ⟨q, hquantity.trans hq, (hlimit hqpos).mpr (hbelow limit q hmax hq)⟩

theorem sell_bounds_iff {bid slipped : ℚ} :
    (0 < storeTo 2 slipped ∧ storeTo 2 slipped ≤ bid) ↔
      1 / 2 ≤ slipped * 10 ^ 2 ∧ slipped * 10 ^ 2 < ⌊bid * 10 ^ 2⌋ + 1 / 2 := by
  rw [← storeTo_pos_iff]
  apply and_congr_right
  intro hpos
  exact storeTo_le_iff 2 (nonneg_of_storeTo_pos hpos) bid

/-- The two sides of the book, at a price that is the slipped one in cents. -/
theorem bounds_iff {notional : Decimal} {fill : PaperFill} {reference slipped : ℚ}
    (h : Accepted c intent snapshot notional)
    (hreference : snapshot.referencePrice intent.side = .finite reference)
    (hquantity : fill.fillQuantity = intent.quantity) :
    (match intent.side with
      | .buy => ∃ ask, snapshot.bestAsk = .finite ask ∧ 0 < ask ∧ ask ≤ storeTo 2 slipped ∧
          ∀ limit, intent.maxNotionalUsd = some (.finite limit) →
            ∃ quantity, fill.fillQuantity = .finite quantity ∧
              storeTo 2 slipped * quantity ≤ limit
      | .sell => ∃ bid, snapshot.bestBid = .finite bid ∧ 0 < storeTo 2 slipped ∧
          storeTo 2 slipped ≤ bid) ↔
      match intent.side with
      | .buy => ⌈reference * 10 ^ 2⌉ - 1 / 2 ≤ slipped * 10 ^ 2 ∧
          ∀ limit quantity, intent.maxNotionalUsd = some (.finite limit) →
            intent.quantity = .finite quantity →
            slipped * 10 ^ 2 < ⌊limit / quantity * 10 ^ 2⌋ + 1 / 2
      | .sell => 1 / 2 ≤ slipped * 10 ^ 2 ∧ slipped * 10 ^ 2 < ⌊reference * 10 ^ 2⌋ + 1 / 2 := by
  cases hside : intent.side with
  | buy =>
    rw [hside] at hreference
    have hask : snapshot.bestAsk = .finite reference := hreference
    simp only [hask, Decimal.finite.injEq, exists_eq_left']
    exact buy_bounds_iff h hside hask hquantity
  | sell =>
    rw [hside] at hreference
    have hbid : snapshot.bestBid = .finite reference := hreference
    simp only [hbid, Decimal.finite.injEq, exists_eq_left']
    exact sell_bounds_iff

/-- Rounded to the cent, a fill is fair when it was half a cent away from being unfair. -/
theorem fair_iff {fill : PaperFill}
    (h : adapter.simulateFill c intent snapshot nowUtc = .ok fill)
    (hfilled : fill.status = .filled) :
    Fair intent snapshot fill ↔ ClearsHalfCent c intent snapshot := by
  obtain ⟨notional, slipped, price, haccepted, hslipped, hprice, hfill, hquantity⟩ :=
    simulateFill_filled h hfilled
  constructor
  · rintro ⟨p, hp, hside⟩
    -- a number comes out of the rounding only if a number went in
    obtain rfl := Option.some.inj (hfill.symm.trans hp)
    obtain ⟨s, rfl, rfl⟩ := finite_of_quantize hprice
    obtain ⟨reference, bps, hreference, hbps, hs⟩ := slipped_eq_finite_iff.mp hslipped
    have hbounds := (bounds_iff haccepted hreference hquantity).mp hside
    exact ⟨reference, bps, s, hreference, hbps, hs, hbounds⟩
  · rintro ⟨reference, bps, s, hreference, hbps, hs, hside⟩
    have hnumber := slipped_eq_finite_iff.mpr ⟨reference, bps, hreference, hbps, hs⟩
    obtain rfl := Except.ok.inj (hslipped.symm.trans hnumber)
    obtain rfl := quantize_eq_ok hprice
    have hbounds := (bounds_iff haccepted hreference hquantity).mpr hside
    exact ⟨storeTo 2 s, hfill, hbounds⟩

end

/-- The default slippage and fee. -/
def quotedAt (bid ask : ℚ) : MarketSnapshot where
  snapshotId := "snapshot-1"
  instrument := "BTC-USD"
  venue := "coinbase"
  bestBid := .finite bid
  bestAsk := .finite ask
  capturedAtUtc := ⟨-5, some 0⟩

def buyUpTo (limit quantity : ℚ) : TradeIntent where
  intentId := "intent-1"
  instrument := "BTC-USD"
  venue := "coinbase"
  side := .buy
  orderType := "market"
  quantity := .finite quantity
  maxNotionalUsd := some (.finite limit)

/-- Filled at this price, five seconds after the quote. -/
def filledAt (price quantity fee slippage : ℚ) : PaperFill where
  intentId := "intent-1"
  status := .filled
  fillPrice := some (.finite price)
  fillQuantity := .finite quantity
  feeQuote := .finite fee
  slippageVsMid := some (.finite slippage)
  latencyMs := 250
  snapshotId := "snapshot-1"

/-- A tenth of a cent is rounded to nothing: the order is filled for free. -/
theorem tenthOfCent_not_fair :
    ¬ ∀ fill, DeterministicPaperExecutionAdapter.simulateFill .default {} (buyUpTo 1000 100)
        (quotedAt (1 / 1000) (1 / 1000)) ⟨0, some 0⟩ = .ok fill → fill.status = .filled →
      Fair (buyUpTo 1000 100) (quotedAt (1 / 1000) (1 / 1000)) fill := by
  intro hall
  have hfree := hall (filledAt 0 100 0 0) (by decide +kernel) rfl
  obtain ⟨price, hprice, ask, hask, hpos, hle, -⟩ := hfree
  obtain rfl := Decimal.finite.inj (Option.some.inj hprice)
  exact absurd hle hpos.not_ge

theorem fifty_thousand_fair : Fair (buyUpTo 1000 (1 / 100)) (quotedAt 49990 50010)
    (filledAt (5003501 / 100) (1 / 100) (1 / 2) (3501 / 100)) := by
  have hfill : DeterministicPaperExecutionAdapter.simulateFill .default {}
      (buyUpTo 1000 (1 / 100)) (quotedAt 49990 50010) ⟨0, some 0⟩ =
        .ok (filledAt (5003501 / 100) (1 / 100) (1 / 2) (3501 / 100)) := by decide +kernel
  apply (fair_iff hfill rfl).mpr
  refine ⟨50010, 5, 50035005 / 1000, rfl, rfl, by decide +kernel, by decide +kernel, ?_⟩
  intro limit quantity hlimit hquantity
  obtain rfl := Decimal.finite.inj (Option.some.inj hlimit)
  obtain rfl := Decimal.finite.inj hquantity
  decide +kernel

end TradeStream.PaperExecution
