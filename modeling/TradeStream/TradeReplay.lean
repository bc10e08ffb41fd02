import TradeStream.FifoLots
import TradeStream.RoundDecimal

/-! A replay session: candles one tick at a time, simulated trades between them, and a summary
that pairs each sell with a buy. In exact arithmetic. -/
namespace TradeStream.TradeReplay
open TradeStream.FifoLots TradeStream.RoundDecimal

inductive SessionStatus where
  | active
  | completed
  deriving DecidableEq

inductive TradeSide where
  | buy
  | sell
  deriving DecidableEq

structure Candle where
  time : Option String
  close : ℚ

structure PlaceTradeRequest where
  side : TradeSide
  quantity : ℚ
  price : Option ℚ
  quantity_pos : 0 < quantity

structure Trade where
  side : TradeSide
  quantity : ℚ
  price : ℚ
  tick : ℕ
  timestamp : String
  quantity_pos : 0 < quantity

structure ReplaySession where
  sessionId : String
  symbol : String
  createdAt : String
  candles : List Candle
  tickIndex : ℕ := 0
  status : SessionStatus := .active
  trades : List Trade := []

/-- A pair of trades that closed a position. -/
structure ClosedTrade where
  entryPrice : ℚ
  exitPrice : ℚ
  quantity : ℚ
  pnl : ℚ

inductive ReplayError where
  | replayCompleted
  | validation
  | index
  deriving DecidableEq

namespace ReplaySession

def currentCandle (session : ReplaySession) : Option Candle := session.candles[session.tickIndex]?

def advance (session : ReplaySession) : Option Candle × ReplaySession :=
  match session.currentCandle with
  | some candle =>
    (some candle,
      { session with
        tickIndex := session.tickIndex + 1
        status :=
          if session.candles.length ≤ session.tickIndex + 1 then .completed else session.status })
  | none => (none, session)

/-- `get_tick`. -/
def getTick (session : ReplaySession) : Except ReplayError Candle × ReplaySession :=
  if session.status = .completed then (.error .replayCompleted, session)
  else
    match session.advance with
    | (some candle, advanced) => (.ok candle, advanced)
    | (none, advanced) => (.error .replayCompleted, { advanced with status := .completed })

/-- The trade that a request makes, at the last replayed candle's close unless it has a price. -/
def tradeOf (session : ReplaySession) (request : PlaceTradeRequest) : Except ReplayError Trade :=
  if session.status = .completed then .error .replayCompleted
  else
    match session.tickIndex with
    | 0 => .error .validation
    | tick + 1 =>
      match session.candles[tick]? with
      | some lastCandle => .ok
        { side := request.side
          quantity := request.quantity
          price := request.price.getD lastCandle.close
          tick := tick + 1
          timestamp := lastCandle.time.getD session.createdAt
          quantity_pos := request.quantity_pos }
      | none => .error .index

/-- `place_trade`. -/
def placeTrade (session : ReplaySession) (request : PlaceTradeRequest) :
    Except ReplayError Trade × ReplaySession :=
  match session.tradeOf request with
  | .ok trade => (.ok trade, { session with trades := session.trades ++ [trade] })
  | .error error => (.error error, session)

end ReplaySession

/-! ### The summary -/

/-- What the loop over the trades keeps. -/
structure Pairing where
  openPositions : List Trade := []
  totalPnl : ℚ := 0
  winning : ℕ := 0
  losing : ℕ := 0
  closedTrades : List ClosedTrade := []

/-- A sell takes a whole buy with it. -/
def Pairing.add (pairing : Pairing) (trade : Trade) : Pairing :=
  match trade.side, pairing.openPositions with
  | .buy, openPositions => { pairing with openPositions := openPositions ++ [trade] }
  | .sell, [] => pairing
  | .sell, entry :: openPositions =>
    let quantity := min entry.quantity trade.quantity
    let pnl := (trade.price - entry.price) * quantity
    { openPositions := openPositions
      totalPnl := pairing.totalPnl + pnl
      winning := if 0 < pnl then pairing.winning + 1 else pairing.winning
      losing := if pnl < 0 then pairing.losing + 1 else pairing.losing
      closedTrades := pairing.closedTrades ++ [⟨entry.price, trade.price, quantity, pnl⟩] }

def pairTrades (trades : List Trade) : Pairing := trades.foldl Pairing.add {}

structure Summary where
  sessionId : String
  symbol : String
  status : SessionStatus
  totalCandles : ℕ
  candlesReplayed : ℕ
  totalTrades : ℕ
  winningTrades : ℕ
  losingTrades : ℕ
  winRate : ℚ
  totalPnl : ℚ
  openPositions : ℕ
  trades : List Trade
  closedTrades : List ClosedTrade

def ReplaySession.computeSummary (session : ReplaySession) : Summary :=
  let pairing := pairTrades session.trades
  let totalTrades := pairing.closedTrades.length
  let winRate : ℚ := if 0 < totalTrades then pairing.winning / totalTrades * 100 else 0
  { sessionId := session.sessionId
    symbol := session.symbol
    status := session.status
    totalCandles := session.candles.length
    candlesReplayed := session.tickIndex
    totalTrades := totalTrades
    winningTrades := pairing.winning
    losingTrades := pairing.losing
    winRate := roundTo 2 winRate
    totalPnl := roundTo 4 pairing.totalPnl
    openPositions := pairing.openPositions.length
    trades := session.trades
    closedTrades := pairing.closedTrades.map fun closed =>
      { closed with pnl := roundTo 4 closed.pnl } }

/-! ### First in, first out -/

def Trade.lot (trade : Trade) : Lot ℚ := ⟨trade.quantity, trade.price⟩

structure FifoAccount where
  lots : List (Lot ℚ) := []
  realizedPnl : ℚ := 0

/-- A sell realizes what it brings over what the oldest units cost. -/
def FifoAccount.add (account : FifoAccount) (trade : Trade) : FifoAccount :=
  match trade.side with
  | .buy => { account with lots := account.lots ++ [trade.lot] }
  | .sell =>
    { lots := rest trade.quantity account.lots
      realizedPnl := account.realizedPnl +
        (trade.price * trade.quantity - cost trade.quantity account.lots) }

def fifoAccount (trades : List Trade) : FifoAccount := trades.foldl FifoAccount.add {}

section
variable (trades : List Trade)

def buysOf : List Trade := trades.filter fun trade => trade.side = .buy

def sellsOf : List Trade := trades.filter fun trade => trade.side = .sell

def quantityOf : ℚ := (trades.map Trade.quantity).sum

/-- No sell exceeds the quantity held. -/
def NoOversell : Prop :=
  ∀ before trade, before ++ [trade] <+: trades → trade.side = .sell →
    trade.quantity ≤ quantityOf (buysOf before) - quantityOf (sellsOf before)

def closedQuantity : ℚ := ((pairTrades trades).closedTrades.map ClosedTrade.quantity).sum

def openQuantity : ℚ := quantityOf (pairTrades trades).openPositions

/-- Each sell with the buy of the same number. -/
def pairsOf : List (Trade × Trade) := (sellsOf trades).zip (buysOf trades)

/-- The units that a sell has beyond those of its buy. -/
def excess (pair : Trade × Trade) : ℚ := pair.1.quantity - pair.2.quantity

def Whole : Prop := ∀ pair ∈ pairsOf trades, pair.2.quantity ≤ pair.1.quantity

/-- Each sell has all units of its buy, and what it has beyond them brings just what they cost
among the later buys. -/
structure PairsWhole : Prop where
  whole : Whole trades
  excess : ((pairsOf trades).map fun pair => pair.1.price * excess pair).sum =
    cost ((pairsOf trades).map excess).sum
      (((buysOf trades).drop (sellsOf trades).length).map Trade.lot)

end

/-- The summary has the profit of a first-in-first-out account, before it is rounded, and loses
none of what was bought. -/
structure Accounts (session : ReplaySession) : Prop where
  totalPnl : (pairTrades session.trades).totalPnl = (fifoAccount session.trades).realizedPnl
  quantity : quantityOf (buysOf session.trades) =
    (session.computeSummary.closedTrades.map ClosedTrade.quantity).sum +
      openQuantity session.trades

/-! ### The trades of a session -/

inductive Request where
  | tick
  | trade (request : PlaceTradeRequest)

def ReplaySession.handle (session : ReplaySession) : Request → ReplaySession
  | .tick => session.getTick.2
  | .trade request => (session.placeTrade request).2

def ReplaySession.run (session : ReplaySession) (requests : List Request) : ReplaySession :=
  requests.foldl ReplaySession.handle session

/-- The trades of the requests that are not refused. -/
def ReplaySession.placed (session : ReplaySession) : List Request → List Trade
  | [] => []
  | .tick :: requests => session.getTick.2.placed requests
  | .trade request :: requests =>
    (session.placeTrade request).1.toOption.toList ++
      (session.placeTrade request).2.placed requests

theorem trades_getTick (session : ReplaySession) : session.getTick.2.trades = session.trades := by
  rw [ReplaySession.getTick]
  by_cases hstatus : session.status = .completed
  · rw [if_pos hstatus]
  · rw [if_neg hstatus, ReplaySession.advance]
    cases session.currentCandle with
    | none => rfl
    | some candle => rfl

theorem trades_placeTrade (session : ReplaySession) (request : PlaceTradeRequest) :
    (session.placeTrade request).2.trades =
      session.trades ++ (session.placeTrade request).1.toOption.toList := by
  rw [ReplaySession.placeTrade]
  cases session.tradeOf request with
  | error error => exact (List.append_nil _).symm
  | ok trade => rfl

/-- A session has the trades that are placed in it, in their order. -/
theorem trades_run (session : ReplaySession) (requests : List Request) :
    (session.run requests).trades = session.trades ++ session.placed requests := by
  induction requests generalizing session with
  | nil => exact (List.append_nil _).symm
  | cons request requests ih =>
    cases request with
    | tick =>
      rw [ReplaySession.run, List.foldl_cons, ← ReplaySession.run, ih, ReplaySession.handle,
        trades_getTick, ReplaySession.placed]
    | trade request =>
      rw [ReplaySession.run, List.foldl_cons, ← ReplaySession.run, ih, ReplaySession.handle,
        trades_placeTrade, ReplaySession.placed, List.append_assoc]

/-! ### One more trade -/

section
variable {trades : List Trade} {trade : Trade}

theorem pairTrades_concat (trades : List Trade) (trade : Trade) :
    pairTrades (trades ++ [trade]) = (pairTrades trades).add trade := by
  rw [pairTrades, List.foldl_concat, pairTrades]

theorem fifoAccount_concat (trades : List Trade) (trade : Trade) :
    fifoAccount (trades ++ [trade]) = (fifoAccount trades).add trade := by
  rw [fifoAccount, List.foldl_concat, fifoAccount]

theorem buysOf_buy (h : trade.side = .buy) :
    buysOf (trades ++ [trade]) = buysOf trades ++ [trade] := by
  simp [buysOf, List.filter_append, h]

theorem sellsOf_buy (h : trade.side = .buy) : sellsOf (trades ++ [trade]) = sellsOf trades := by
  simp [sellsOf, List.filter_append, h]

theorem buysOf_sell (h : trade.side = .sell) : buysOf (trades ++ [trade]) = buysOf trades := by
  simp [buysOf, List.filter_append, h]

theorem sellsOf_sell (h : trade.side = .sell) :
    sellsOf (trades ++ [trade]) = sellsOf trades ++ [trade] := by
  simp [sellsOf, List.filter_append, h]

theorem quantityOf_concat (trades : List Trade) (trade : Trade) :
    quantityOf (trades ++ [trade]) = quantityOf trades + trade.quantity := by
  rw [quantityOf, List.map_append, List.sum_append, quantityOf]
  simp

theorem NoOversell.init (h : NoOversell (trades ++ [trade])) : NoOversell trades :=
  fun before other hbefore => h before other (hbefore.trans (List.prefix_append trades [trade]))

theorem NoOversell.last (h : NoOversell (trades ++ [trade])) (hsell : trade.side = .sell) :
    trade.quantity ≤ quantityOf (buysOf trades) - quantityOf (sellsOf trades) :=
  h trades trade List.prefix_rfl hsell

theorem noOversell_nil : NoOversell [] := by
  intro before trade hprefix
  exact absurd (List.prefix_nil.mp hprefix)
    (List.append_ne_nil_of_right_ne_nil before (List.cons_ne_nil trade []))

theorem NoOversell.concat (h : NoOversell trades)
    (hlast : trade.side = .sell →
      trade.quantity ≤ quantityOf (buysOf trades) - quantityOf (sellsOf trades)) :
    NoOversell (trades ++ [trade]) := by
  intro before other hprefix hsell
  rcases List.prefix_concat_iff.mp hprefix with heq | hprefix
  · obtain ⟨rfl, hother⟩ := List.append_inj' heq rfl
    cases hother
    exact hlast hsell
  · exact h before other hprefix hsell

theorem stocked_lots (trades : List Trade) : Stocked (trades.map Trade.lot) := by
  intro lot hlot
  obtain ⟨trade, -, rfl⟩ := List.mem_map.mp hlot
  exact trade.quantity_pos

theorem total_lots (trades : List Trade) : total (trades.map Trade.lot) = quantityOf trades := by
  rw [total, List.map_map, quantityOf]
  rfl

theorem quantityOf_nonneg (trades : List Trade) : 0 ≤ quantityOf trades := by
  rw [← total_lots]
  exact total_nonneg (stocked_lots trades)

/-- What is sold so far is no more than what was bought. -/
theorem NoOversell.sold_le (h : NoOversell trades) :
    quantityOf (sellsOf trades) ≤ quantityOf (buysOf trades) := by
  induction trades using List.reverseRecOn with
  | nil => exact le_rfl
  | append_singleton trades trade ih =>
    cases hside : trade.side with
    | buy =>
      rw [sellsOf_buy hside, buysOf_buy hside, quantityOf_concat]
      exact (ih h.init).trans (le_add_of_nonneg_right trade.quantity_pos.le)
    | sell =>
      rw [sellsOf_sell hside, buysOf_sell hside, quantityOf_concat]
      linarith [h.last hside]

/-- The account holds the youngest units, and has sold the oldest. -/
theorem fifoAccount_eq (h : NoOversell trades) :
    (fifoAccount trades).lots =
        rest (quantityOf (sellsOf trades)) ((buysOf trades).map Trade.lot) ∧
      (fifoAccount trades).realizedPnl =
        ((sellsOf trades).map fun trade => trade.price * trade.quantity).sum -
          cost (quantityOf (sellsOf trades)) ((buysOf trades).map Trade.lot) := by
  induction trades using List.reverseRecOn with
  | nil => exact ⟨rfl, (sub_zero 0).symm⟩
  | append_singleton trades trade ih =>
    obtain ⟨hlots, hrealized⟩ := ih h.init
    have hsold := quantityOf_nonneg (sellsOf trades)
    have hle : quantityOf (sellsOf trades) ≤ total ((buysOf trades).map Trade.lot) := by
      rw [total_lots]
      exact h.init.sold_le
    rw [fifoAccount_concat, FifoAccount.add]
    cases hside : trade.side with
    | buy =>
      have hstocked : Stocked ((buysOf trades).map Trade.lot ++ [trade.lot]) := by
        rw [← List.map_singleton, ← List.map_append]
        exact stocked_lots _
      rw [sellsOf_buy hside, buysOf_buy hside, List.map_append, List.map_singleton,
        rest_append hstocked hsold hle, cost_append hstocked hsold hle, ← hlots, ← hrealized]
      exact ⟨rfl, rfl⟩
    | sell =>
      rw [sellsOf_sell hside, buysOf_sell hside, quantityOf_concat,
        rest_add trade.quantity_pos.le, cost_add (stocked_lots _) trade.quantity_pos.le,
        List.map_append, List.sum_append, ← hlots]
      refine ⟨rfl, ?_⟩
      simp only [hrealized, List.map_cons, List.map_nil, List.sum_singleton]
      ring

/-! ### The pairs -/

theorem add_buy (pairing : Pairing) (h : trade.side = .buy) :
    pairing.add trade =
      { pairing with openPositions := pairing.openPositions ++ [trade] } := by
  rw [Pairing.add, h]

theorem add_sell_nil {pairing : Pairing} (h : trade.side = .sell)
    (hopen : pairing.openPositions = []) : pairing.add trade = pairing := by
  rw [Pairing.add, h, hopen]

theorem add_sell_cons {pairing : Pairing} {entry : Trade} {openPositions : List Trade}
    (h : trade.side = .sell) (hopen : pairing.openPositions = entry :: openPositions) :
    (pairing.add trade).openPositions = openPositions ∧
      (pairing.add trade).totalPnl = pairing.totalPnl +
        (trade.price - entry.price) * min entry.quantity trade.quantity ∧
      ((pairing.add trade).closedTrades.map ClosedTrade.quantity).sum =
        (pairing.closedTrades.map ClosedTrade.quantity).sum +
          min entry.quantity trade.quantity := by
  rw [Pairing.add, h, hopen]
  simp

/-- As many buys as there are sells. -/
theorem pairsOf_eq_zip_take (hle : (sellsOf trades).length ≤ (buysOf trades).length) :
    pairsOf trades =
      (sellsOf trades).zip ((buysOf trades).take (sellsOf trades).length) := by
  rw [pairsOf, List.zip_eq_zip_take_min, min_eq_left hle, List.take_length]

theorem map_fst_pairsOf (hle : (sellsOf trades).length ≤ (buysOf trades).length) :
    (pairsOf trades).map Prod.fst = sellsOf trades := by
  rw [pairsOf, List.map_fst_zip hle]

theorem map_snd_pairsOf (hle : (sellsOf trades).length ≤ (buysOf trades).length) :
    (pairsOf trades).map Prod.snd = (buysOf trades).take (sellsOf trades).length := by
  rw [pairsOf_eq_zip_take hle, List.map_snd_zip (List.length_take_of_le hle).le]

theorem pairsOf_buy (h : trade.side = .buy)
    (hle : (sellsOf trades).length ≤ (buysOf trades).length) :
    pairsOf (trades ++ [trade]) = pairsOf trades := by
  have hle' : (sellsOf (trades ++ [trade])).length ≤ (buysOf (trades ++ [trade])).length := by
    rw [sellsOf_buy h, buysOf_buy h, List.length_append]
    omega
  rw [pairsOf_eq_zip_take hle', pairsOf_eq_zip_take hle, sellsOf_buy h, buysOf_buy h,
    List.take_append_of_le_length hle]

/-- A sell finds its buy, and the pairs so far are kept. -/
theorem pairsOf_sell {entry : Trade} {later : List Trade} (h : trade.side = .sell)
    (hle : (sellsOf trades).length ≤ (buysOf trades).length)
    (hdrop : (buysOf trades).drop (sellsOf trades).length = entry :: later) :
    pairsOf (trades ++ [trade]) = pairsOf trades ++ [(trade, entry)] ∧
      (sellsOf trades).length + 1 ≤ (buysOf trades).length := by
  have hlt : (sellsOf trades).length < (buysOf trades).length := by
    have hlength := congrArg List.length hdrop
    rw [List.length_drop, List.length_cons] at hlength
    omega
  have hle' : (sellsOf (trades ++ [trade])).length ≤ (buysOf (trades ++ [trade])).length := by
    rw [sellsOf_sell h, buysOf_sell h, List.length_append, List.length_singleton]
    omega
  have htake : (buysOf trades).take ((sellsOf trades).length + 1) =
      (buysOf trades).take (sellsOf trades).length ++ [entry] := by
    have hentry : (buysOf trades)[(sellsOf trades).length] = entry := by
      rw [List.drop_eq_getElem_cons hlt] at hdrop
      exact (List.cons.inj hdrop).1
    rw [List.take_succ_eq_append_getElem hlt, hentry]
  refine ⟨?_, hlt⟩
  rw [pairsOf_eq_zip_take hle', pairsOf_eq_zip_take hle, sellsOf_sell h, buysOf_sell h,
    List.length_append, List.length_singleton, htake,
    List.zip_append (List.length_take_of_le hle).symm]
  rfl

theorem Whole.sum_le (h : Whole trades) :
    ((pairsOf trades).map fun pair => pair.2.quantity).sum ≤
      ((pairsOf trades).map fun pair => pair.1.quantity).sum :=
  List.sum_le_sum h

/-- With whole pairs there is a buy left for each sell. -/
theorem exists_entry (hover : NoOversell (trades ++ [trade])) (hsell : trade.side = .sell)
    (hwhole : Whole trades) (hle : (sellsOf trades).length ≤ (buysOf trades).length) :
    ∃ entry later, (buysOf trades).drop (sellsOf trades).length = entry :: later := by
  rcases hdrop : (buysOf trades).drop (sellsOf trades).length with - | ⟨entry, later⟩
  · -- everything bought is sold already
    have hall := List.drop_eq_nil_iff.mp hdrop
    have htake : (buysOf trades).take (sellsOf trades).length = buysOf trades :=
      List.take_of_length_le hall
    have hbought : ((pairsOf trades).map fun pair => pair.2.quantity).sum =
        quantityOf (buysOf trades) := by
      rw [quantityOf, ← htake, ← map_snd_pairsOf hle, List.map_map]
      rfl
    have hsold : ((pairsOf trades).map fun pair => pair.1.quantity).sum =
        quantityOf (sellsOf trades) := by
      rw [quantityOf, ← map_fst_pairsOf hle, List.map_map]
      rfl
    have hsum := hwhole.sum_le
    rw [hbought, hsold] at hsum
    linarith [hover.last hsell, trade.quantity_pos]
  · exact ⟨entry, later, rfl⟩

/-- The summary of whole pairs. -/
structure PairedWhole (trades : List Trade) : Prop where
  le : (sellsOf trades).length ≤ (buysOf trades).length
  openPositions : (pairTrades trades).openPositions =
    (buysOf trades).drop (sellsOf trades).length
  totalPnl : (pairTrades trades).totalPnl =
    ((pairsOf trades).map fun pair => (pair.1.price - pair.2.price) * pair.2.quantity).sum

theorem mem_pairsOf_concat {pair : Trade × Trade} (h : pair ∈ pairsOf trades) (trade : Trade) :
    pair ∈ pairsOf (trades ++ [trade]) := by
  obtain ⟨i, hi⟩ := List.mem_iff_getElem?.mp h
  obtain ⟨hsell, hbuy⟩ := List.getElem?_zip_eq_some.mp hi
  obtain ⟨hlt, -⟩ := List.getElem?_eq_some_iff.mp hsell
  obtain ⟨hlt', -⟩ := List.getElem?_eq_some_iff.mp hbuy
  have hconcat : (pairsOf (trades ++ [trade]))[i]? = some pair := by
    rw [pairsOf, buysOf, sellsOf, List.filter_append, List.filter_append,
      List.getElem?_zip_eq_some]
    exact ⟨(List.getElem?_append_left hlt).trans hsell,
      (List.getElem?_append_left hlt').trans hbuy⟩
  exact List.mem_of_getElem? hconcat

theorem Whole.init (h : Whole (trades ++ [trade])) : Whole trades :=
  fun pair hpair => h pair (mem_pairsOf_concat hpair trade)

theorem pairedWhole_of_whole (hover : NoOversell trades) (hwhole : Whole trades) :
    PairedWhole trades := by
  induction trades using List.reverseRecOn with
  | nil => exact ⟨le_rfl, rfl, rfl⟩
  | append_singleton trades trade ih =>
    have hpaired := ih hover.init hwhole.init
    cases hside : trade.side with
    | buy =>
      refine ⟨?_, ?_, ?_⟩
      · rw [sellsOf_buy hside, buysOf_buy hside, List.length_append]
        exact hpaired.le.trans (Nat.le_add_right _ _)
      · rw [pairTrades_concat, add_buy _ hside, sellsOf_buy hside, buysOf_buy hside,
          List.drop_append_of_le_length hpaired.le, ← hpaired.openPositions]
      · rw [pairTrades_concat, add_buy _ hside, pairsOf_buy hside hpaired.le]
        exact hpaired.totalPnl
    | sell =>
      obtain ⟨entry, later, hdrop⟩ := exists_entry hover hside hwhole.init hpaired.le
      obtain ⟨hpairs, hlength⟩ := pairsOf_sell hside hpaired.le hdrop
      have hentry : entry.quantity ≤ trade.quantity := by
        apply hwhole (trade, entry)
        rw [hpairs]
        exact List.mem_append_right _ List.mem_cons_self
      obtain ⟨hopen, hpnl, -⟩ := add_sell_cons hside (hpaired.openPositions.trans hdrop)
      refine ⟨?_, ?_, ?_⟩
      · rwa [sellsOf_sell hside, buysOf_sell hside, List.length_append, List.length_singleton]
      · rw [pairTrades_concat, hopen, sellsOf_sell hside, buysOf_sell hside, List.length_append,
          List.length_singleton, ← List.drop_drop, hdrop]
        rfl
      · rw [pairTrades_concat, hpnl, hpaired.totalPnl, hpairs, List.map_append, List.sum_append,
          min_eq_left hentry]
        simp

/-! ### What the summary loses -/

def lost (trades : List Trade) : ℚ :=
  quantityOf (buysOf trades) - closedQuantity trades - openQuantity trades

theorem lost_buy (h : trade.side = .buy) : lost (trades ++ [trade]) = lost trades := by
  rw [lost, lost, closedQuantity, closedQuantity, openQuantity, openQuantity, buysOf_buy h,
    pairTrades_concat, add_buy _ h, quantityOf_concat, quantityOf_concat]
  ring

theorem lost_sell_nil (h : trade.side = .sell) (hopen : (pairTrades trades).openPositions = []) :
    lost (trades ++ [trade]) = lost trades := by
  rw [lost, lost, closedQuantity, closedQuantity, openQuantity, openQuantity, buysOf_sell h,
    pairTrades_concat, add_sell_nil h hopen]

/-- The units that a buy has beyond those of its sell are lost. -/
theorem lost_sell_cons {entry : Trade} {openPositions : List Trade} (h : trade.side = .sell)
    (hopen : (pairTrades trades).openPositions = entry :: openPositions) :
    lost (trades ++ [trade]) =
      lost trades + (entry.quantity - min entry.quantity trade.quantity) := by
  obtain ⟨hopen', -, hclosed⟩ := add_sell_cons h hopen
  have hquantity : quantityOf (entry :: openPositions) =
      entry.quantity + quantityOf openPositions := by
    rw [quantityOf, List.map_cons, List.sum_cons, quantityOf]
  rw [lost, lost, closedQuantity, closedQuantity, openQuantity, openQuantity, buysOf_sell h,
    pairTrades_concat, hopen', hclosed, hopen, hquantity]
  ring

/-- Nothing is lost exactly if the pairs are whole. -/
theorem lost_spec (hover : NoOversell trades) :
    0 ≤ lost trades ∧ (lost trades = 0 ↔ Whole trades) := by
  induction trades using List.reverseRecOn with
  | nil =>
    have hnil : lost [] = 0 := by
      have hzero : lost [] = 0 - 0 - 0 := rfl
      rw [hzero, sub_zero, sub_zero]
    exact ⟨hnil.ge, iff_of_true hnil fun pair hpair => absurd hpair List.not_mem_nil⟩
  | append_singleton trades trade ih =>
    obtain ⟨hnonneg, hzero⟩ := ih hover.init
    by_cases hwhole : Whole trades
    · have hpaired := pairedWhole_of_whole hover.init hwhole
      have hlost := hzero.mpr hwhole
      cases hside : trade.side with
      | buy =>
        rw [lost_buy hside, hlost]
        refine ⟨le_rfl, iff_of_true rfl ?_⟩
        rwa [Whole, pairsOf_buy hside hpaired.le]
      | sell =>
        obtain ⟨entry, later, hdrop⟩ := exists_entry hover hside hwhole hpaired.le
        obtain ⟨hpairs, -⟩ := pairsOf_sell hside hpaired.le hdrop
        rw [lost_sell_cons hside (hpaired.openPositions.trans hdrop), hlost, zero_add, sub_nonneg,
          sub_eq_zero, eq_comm, min_eq_left_iff]
        refine ⟨min_le_left _ _, ?_⟩
        rw [Whole, hpairs]
        constructor
        · intro hle pair hpair
          rcases List.mem_append.mp hpair with hmem | hmem
          · exact hwhole pair hmem
          · rw [List.mem_singleton.mp hmem]
            exact hle
        · exact fun h => h (trade, entry) (List.mem_append_right _ List.mem_cons_self)
    · -- what is lost stays lost
      have hpos : 0 < lost trades := lt_of_le_of_ne hnonneg fun heq => hwhole (hzero.mp heq.symm)
      have hwhole' : ¬ Whole (trades ++ [trade]) := mt Whole.init hwhole
      have hle : lost trades ≤ lost (trades ++ [trade]) := by
        cases hside : trade.side with
        | buy => exact (lost_buy hside).ge
        | sell =>
          rcases hopen : (pairTrades trades).openPositions with - | ⟨entry, openPositions⟩
          · exact (lost_sell_nil hside hopen).ge
          · rw [lost_sell_cons hside hopen]
            exact le_add_of_nonneg_right (sub_nonneg.mpr (min_le_left _ _))
      exact ⟨(hpos.trans_le hle).le, iff_of_false (hpos.trans_le hle).ne' hwhole'⟩

/-- The profit of whole pairs is that of the account, if the units beyond them bring what they
cost. -/
theorem totalPnl_eq_iff (hover : NoOversell trades) (hwhole : Whole trades) :
    (pairTrades trades).totalPnl = (fifoAccount trades).realizedPnl ↔
      ((pairsOf trades).map fun pair => pair.1.price * excess pair).sum =
        cost ((pairsOf trades).map excess).sum
          (((buysOf trades).drop (sellsOf trades).length).map Trade.lot) := by
  have hpaired := pairedWhole_of_whole hover hwhole
  have hproceeds : ((sellsOf trades).map fun trade => trade.price * trade.quantity).sum =
      ((pairsOf trades).map fun pair => pair.1.price * pair.2.quantity).sum +
        ((pairsOf trades).map fun pair => pair.1.price * excess pair).sum := by
    rw [← map_fst_pairsOf hpaired.le, List.map_map, ← List.sum_map_add]
    apply congrArg List.sum
    apply List.map_congr_left
    intro pair _
    rw [excess, Function.comp_apply]
    ring
  have hbuys : (buysOf trades).map Trade.lot = ((pairsOf trades).map fun pair => pair.2.lot) ++
      ((buysOf trades).drop (sellsOf trades).length).map Trade.lot := by
    have hsnd : ((pairsOf trades).map fun pair => pair.2.lot) =
        ((buysOf trades).take (sellsOf trades).length).map Trade.lot := by
      rw [← map_snd_pairsOf hpaired.le, List.map_map]
      rfl
    rw [hsnd, ← List.map_append, List.take_append_drop]
  have hsold : quantityOf (sellsOf trades) =
      total ((pairsOf trades).map fun pair => pair.2.lot) + ((pairsOf trades).map excess).sum := by
    rw [total, List.map_map, ← List.sum_map_add, quantityOf, ← map_fst_pairsOf hpaired.le,
      List.map_map]
    apply congrArg List.sum
    apply List.map_congr_left
    intro pair _
    exact (add_sub_cancel _ _).symm
  have hexcess : 0 ≤ ((pairsOf trades).map excess).sum := by
    apply List.sum_nonneg
    intro x hx
    obtain ⟨pair, hpair, rfl⟩ := List.mem_map.mp hx
    exact sub_nonneg.mpr (hwhole pair hpair)
  have hstocked := stocked_lots (buysOf trades)
  rw [hbuys] at hstocked
  have hcosts : (((pairsOf trades).map fun pair => pair.2.lot).map
      fun lot => lot.quantity * lot.price).sum =
        ((pairsOf trades).map fun pair => pair.1.price * pair.2.quantity).sum -
          ((pairsOf trades).map fun pair =>
            (pair.1.price - pair.2.price) * pair.2.quantity).sum := by
    rw [eq_sub_iff_add_eq, List.map_map, ← List.sum_map_add]
    apply congrArg List.sum
    apply List.map_congr_left
    intro pair _
    rw [Function.comp_apply, Trade.lot]
    ring
  rw [hpaired.totalPnl, (fifoAccount_eq hover).2, hproceeds, hsold, hbuys,
    cost_total_add hstocked hexcess, hcosts]
  constructor <;> intro h <;> linarith

end

/-- The summary accounts for a sequence without short sales exactly if its pairs are whole and the
rest of the sells bring what they cost. -/
theorem accounts_iff (session : ReplaySession) (h : NoOversell session.trades) :
    Accounts session ↔ PairsWhole session.trades := by
  have hclosed : (session.computeSummary.closedTrades.map ClosedTrade.quantity).sum =
      closedQuantity session.trades := by
    rw [ReplaySession.computeSummary, closedQuantity, List.map_map]
    rfl
  have hlost : quantityOf (buysOf session.trades) =
      (session.computeSummary.closedTrades.map ClosedTrade.quantity).sum +
        openQuantity session.trades ↔ Whole session.trades := by
    rw [hclosed, ← (lost_spec h).2, lost, sub_sub, sub_eq_zero]
  constructor
  · intro haccounts
    have hwhole := hlost.mp haccounts.quantity
    exact ⟨hwhole, (totalPnl_eq_iff h hwhole).mp haccounts.totalPnl⟩
  · intro hpairs
    exact ⟨(totalPnl_eq_iff h hpairs.whole).mpr hpairs.excess, hlost.mpr hpairs.whole⟩

/-! ### A position sold in part -/

theorem one_pos_quantity : (0 : ℚ) < 1 := one_pos

theorem two_pos_quantity : (0 : ℚ) < 2 := two_pos

def buyTwo : PlaceTradeRequest := ⟨.buy, 2, some 100, two_pos_quantity⟩

def sellOne : PlaceTradeRequest := ⟨.sell, 1, some 110, one_pos_quantity⟩

def sellTwo : PlaceTradeRequest := ⟨.sell, 2, some 110, two_pos_quantity⟩

/-- Two candles, and a trade after the first. -/
def started : ReplaySession :=
  { sessionId := "session"
    symbol := "BTC/USD"
    createdAt := "2024-01-01T00:00:00Z"
    candles := [⟨none, 100⟩, ⟨none, 110⟩] }

def soldInPart : ReplaySession := started.run [.tick, .trade buyTwo, .trade sellOne]

def soldWhole : ReplaySession := started.run [.tick, .trade buyTwo, .trade sellTwo]

theorem noOversell_soldInPart : NoOversell soldInPart.trades :=
  (noOversell_nil.concat (by decide)).concat fun _ => by decide +kernel

theorem noOversell_soldWhole : NoOversell soldWhole.trades :=
  (noOversell_nil.concat (by decide)).concat fun _ => by decide +kernel

theorem accounts_soldWhole : NoOversell soldWhole.trades ∧ Accounts soldWhole := by
  refine ⟨noOversell_soldWhole, (accounts_iff soldWhole noOversell_soldWhole).mpr ⟨?_, ?_⟩⟩
  · intro pair hpair
    have hpairs : pairsOf soldWhole.trades = [_] := rfl
    rw [hpairs, List.mem_singleton] at hpair
    rw [hpair]
    exact le_rfl
  · decide +kernel

/-- One of two units is sold, and the other one is neither closed nor open. -/
theorem soldInPart_not_accounts :
    ¬ ∀ session : ReplaySession, NoOversell session.trades → Accounts session := by
  intro haccounts
  have hlost : ¬ quantityOf (buysOf soldInPart.trades) =
      (soldInPart.computeSummary.closedTrades.map ClosedTrade.quantity).sum +
        openQuantity soldInPart.trades := by decide +kernel
  exact hlost (haccounts soldInPart noOversell_soldInPart).quantity

end TradeStream.TradeReplay
