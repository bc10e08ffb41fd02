import TradeStream.PaperTradingClose

/-! The cash of a session: its balance and its `total_realized_pnl` against the trades that
were closed in it. -/
namespace TradeStream.PaperTrading.Cash
open TradeStream.RunSteps TradeStream.PaperTrading.ConcurrentClose

/-- The tables, with the column `total_realized_pnl` of each session. -/
structure Ledger where
  store : Store
  totalRealizedPnl : String → ℚ

/-- `create_session`: the columns that it does not name have their defaults. -/
def Ledger.createSession (ledger : Ledger) (sessionId : String) (startingBalance : ℚ) : Ledger where
  store := { ledger.store with
    sessions := Function.update ledger.store.sessions sessionId
      (some ⟨numeric startingBalance, numeric startingBalance, .active, 0⟩) }
  totalRealizedPnl := Function.update ledger.totalRealizedPnl sessionId 0

/-- One operation. No statement of the operations sets `total_realized_pnl`. -/
def Ledger.apply (ledger : Ledger) (op : Op) : Ledger :=
  { ledger with store := ledger.store.apply op }

/-- The PnL of the closed trades of a session. -/
def closedPnl (store : Store) (sessionId : String) : ℚ :=
  ((store.trades.filter fun trade =>
    trade.sessionId = some sessionId ∧ trade.status = .closed).map
      fun trade => trade.pnl.getD 0).sum

/-- The trade at a place is an open one of the session. -/
def OpenAt (store : Store) (sessionId : String) (i : ℕ) : Prop :=
  ∃ trade : PaperTrade, store.trades[i]? = some trade ∧ trade.sessionId = some sessionId ∧
    trade.status = .opened

/-- What the session reports is what its trades made. -/
structure Conserved (ledger : Ledger) (sessionId : String) (session : Session) : Prop where
  realized : ledger.totalRealizedPnl sessionId = closedPnl ledger.store sessionId
  balance : (∀ i, ¬ OpenAt ledger.store sessionId i) →
    session.currentBalance = session.startingBalance + ledger.totalRealizedPnl sessionId

def CashConserved (sessionId : String) (ledger : Ledger) : Prop :=
  ∀ session, ledger.store.sessions sessionId = some session →
    Conserved ledger sessionId session

/-- A close of a trade of the session makes neither a profit nor a loss, and the last one
finds the balance where it started. -/
def BreaksEven (sessionId : String) (ledger : Ledger) : Op → Prop
  | .closeTrade tradeId exitPrice => ∀ trade, findOpen ledger.store tradeId = some trade →
      trade.sessionId = some sessionId →
        numeric (tradePnl trade exitPrice) = 0 ∧
          ((∀ i, OpenAt ledger.store sessionId i → i = tradeId) →
            ∀ session, ledger.store.sessions sessionId = some session →
              session.currentBalance = session.startingBalance)
  | _ => True

/-- The session exists, and has realized nothing. -/
structure Tracked (sessionId : String) (ledger : Ledger) : Prop where
  session : ∃ session, ledger.store.sessions sessionId = some session
  realized : ledger.totalRealizedPnl sessionId = 0

/-! ### The trades of a session -/

/-- What a trade counts for the closed PnL of a session. -/
def pnlPart (sessionId : String) (trade : PaperTrade) : ℚ :=
  if trade.sessionId = some sessionId ∧ trade.status = .closed then trade.pnl.getD 0 else 0

theorem closedPnl_eq_sum (store : Store) (sessionId : String) :
    closedPnl store sessionId = (store.trades.map (pnlPart sessionId)).sum := by
  unfold pnlPart
  rw [closedPnl, List.sum_map_ite]
  simp

variable {store store' : Store} {sessionId : String}

theorem closedPnl_append {trade : PaperTrade} (htrades : store'.trades = store.trades ++ [trade])
    (hopened : trade.status = .opened) : closedPnl store' sessionId = closedPnl store sessionId := by
  rw [closedPnl_eq_sum, closedPnl_eq_sum, htrades, List.map_append, List.sum_append]
  simp [pnlPart, hopened]

theorem closedPnl_set {tradeId : ℕ} {trade closed : PaperTrade}
    (htrade : store.trades[tradeId]? = some trade) (hopened : trade.status = .opened)
    (htrades : store'.trades = store.trades.set tradeId closed) :
    closedPnl store' sessionId = closedPnl store sessionId + pnlPart sessionId closed := by
  obtain ⟨hlt, hget⟩ := List.getElem?_eq_some_iff.mp htrade
  have hmapped : tradeId < (store.trades.map (pnlPart sessionId)).length := by
    rwa [List.length_map]
  have hnone : pnlPart sessionId trade = 0 := by simp [pnlPart, hopened]
  rw [closedPnl_eq_sum, closedPnl_eq_sum, htrades, List.map_set, List.sum_set', dif_pos hmapped,
    List.getElem_map, hget, hnone, neg_zero, zero_add]

theorem openAt_append {trade : PaperTrade} (htrades : store'.trades = store.trades ++ [trade])
    (hopened : trade.status = .opened) (i : ℕ) :
    OpenAt store' sessionId i ↔
      OpenAt store sessionId i ∨ i = store.trades.length ∧ trade.sessionId = some sessionId := by
  rw [OpenAt, OpenAt, htrades]
  rcases lt_trichotomy i store.trades.length with hlt | rfl | hgt
  · rw [List.getElem?_append_left hlt]
    simp [hlt.ne]
  · simp [hopened]
  · have hout : store.trades.length + 1 ≤ i := hgt
    simp [List.getElem?_eq_none, hgt.le, hout, hgt.ne']

/-- After a close, an open trade is one at another place. -/
theorem openAt_set {tradeId : ℕ} {closed : PaperTrade}
    (htrades : store'.trades = store.trades.set tradeId closed) (hclosed : closed.status = .closed)
    (i : ℕ) : OpenAt store' sessionId i ↔ OpenAt store sessionId i ∧ i ≠ tradeId := by
  rw [OpenAt, OpenAt, htrades]
  by_cases heq : tradeId = i
  · subst heq
    constructor
    · rintro ⟨trade, htrade, -, hopened⟩
      have hmem : trade = closed := by
        rw [List.getElem?_set_self'] at htrade
        cases hold : store.trades[tradeId]? with
        | none => simp [hold] at htrade
        | some old => simpa [hold] using htrade.symm
      rw [hmem, hclosed] at hopened
      cases hopened
    · rintro ⟨-, hne⟩
      exact absurd rfl hne
  · rw [List.getElem?_set_ne heq]
    simp [Ne.symm heq]

/-! ### One operation -/

/-- What opening a trade does to the trades and the sessions. -/
structure Opens (store store' : Store) (owner : Option String) : Prop where
  trades : ∃ trade : PaperTrade, store'.trades = store.trades ++ [trade] ∧
    trade.sessionId = owner ∧ trade.status = .opened
  others : ∀ other, owner ≠ some other → store'.sessions other = store.sessions other
  sessions : ∀ other session, store.sessions other = some session →
    ∃ session', store'.sessions other = some session'

theorem insertTrade_eq_ok {owner signalId : Option String} {symbol : String} {side : Side}
    {entryPrice quantity : ℚ}
    (h : store.insertTrade owner signalId symbol side entryPrice quantity = .ok store') :
    store'.sessions = store.sessions ∧ ∃ trade : PaperTrade,
      store'.trades = store.trades ++ [trade] ∧ trade.sessionId = owner ∧
        trade.status = .opened := by
  rw [Store.insertTrade] at h
  split_ifs at h
  obtain rfl := Except.ok.inj h
  exact ⟨rfl, _, rfl, rfl, rfl⟩

theorem apply_executeTrade_opens (signalId symbol : String) (side : Side)
    (entryPrice quantity : ℚ) :
    store.apply (.executeTrade signalId symbol side entryPrice quantity) = store ∨
      Opens store (store.apply (.executeTrade signalId symbol side entryPrice quantity)) none := by
  simp only [Store.apply, Store.executeTrade]
  cases hinsert : store.insertTrade none (some signalId) symbol side entryPrice quantity with
  | error e => exact .inl rfl
  | ok inserted =>
    obtain ⟨hsessions, htrades⟩ := insertTrade_eq_ok hinsert
    refine .inr ⟨htrades, fun other _ => congrFun hsessions other, ?_⟩
    intro other session hsession
    exact ⟨session, (congrFun hsessions other).trans hsession⟩

theorem apply_executeSessionTrade_opens (owner : String) (signalId : Option String)
    (symbol : String) (side : Side) (entryPrice quantity : ℚ) :
    store.apply (.executeSessionTrade owner signalId symbol side entryPrice quantity) = store ∨
      Opens store (store.apply
        (.executeSessionTrade owner signalId symbol side entryPrice quantity)) (some owner) := by
  simp only [Store.apply, Store.executeSessionTrade]
  cases hinsert : store.insertTrade (some owner) signalId symbol side entryPrice quantity with
  | error e => exact .inl rfl
  | ok inserted =>
    obtain ⟨hsessions, htrades⟩ := insertTrade_eq_ok hinsert
    refine .inr ⟨htrades, ?_, ?_⟩
    · intro other hother
      have hne : other ≠ owner := fun heq => hother (heq ▸ rfl)
      exact (Function.update_of_ne hne _ _).trans (congrFun hsessions other)
    · intro other session hsession
      by_cases heq : other = owner
      · subst heq
        simp [Store.updatePortfolio, hsessions, hsession, bind, Except.bind, pure, Except.pure]
      · exact ⟨session, (Function.update_of_ne heq _ _).trans
          ((congrFun hsessions other).trans hsession)⟩

/-- A close leaves the sessions alone. -/
theorem apply_closeTrade_sessions (tradeId : ℕ) (exitPrice : ℚ) :
    (store.apply (.closeTrade tradeId exitPrice)).sessions = store.sessions := by
  rw [Store.apply, closeTrade_eq store ⟨tradeId, exitPrice⟩]
  split <;> rfl

variable {ledger : Ledger}

theorem Tracked.apply (h : Tracked sessionId ledger) (op : Op) :
    Tracked sessionId (ledger.apply op) := by
  obtain ⟨session, hsession⟩ := h.session
  refine ⟨?_, h.realized⟩
  have hopens {owner : Option String} (hop : ledger.store.apply op = ledger.store ∨
      Opens ledger.store (ledger.store.apply op) owner) :
      ∃ session', (ledger.store.apply op).sessions sessionId = some session' := by
    rcases hop with hsame | hopen
    · rw [hsame]
      exact ⟨session, hsession⟩
    · exact hopen.sessions sessionId session hsession
  cases op with
  | executeTrade signalId symbol side entryPrice quantity =>
    exact hopens (apply_executeTrade_opens signalId symbol side entryPrice quantity)
  | executeSessionTrade owner signalId symbol side entryPrice quantity =>
    exact hopens (apply_executeSessionTrade_opens owner signalId symbol side entryPrice quantity)
  | closeTrade tradeId exitPrice =>
    refine ⟨session, ?_⟩
    exact (congrFun (apply_closeTrade_sessions tradeId exitPrice) sessionId).trans hsession

/-- A trade that opens in the session takes cash that it still holds, and one that opens
elsewhere takes none. -/
theorem cashConserved_of_opens {op : Op} {owner : Option String}
    (hconserved : CashConserved sessionId ledger)
    (hexists : ∃ session, ledger.store.sessions sessionId = some session)
    (h : ledger.store.apply op = ledger.store ∨
      Opens ledger.store (ledger.store.apply op) owner) :
    CashConserved sessionId (ledger.apply op) := by
  rcases h with hsame | hopen
  · simpa only [CashConserved, Ledger.apply, hsame] using hconserved
  · obtain ⟨trade, htrades, howner, hopened⟩ := hopen.trades
    obtain ⟨before, hbefore⟩ := hexists
    have hpnl : closedPnl (ledger.store.apply op) sessionId = closedPnl ledger.store sessionId :=
      closedPnl_append htrades hopened
    intro session hsession
    refine ⟨(hconserved before hbefore).realized.trans hpnl.symm, ?_⟩
    intro hnone
    have hother : owner ≠ some sessionId := by
      intro heq
      exact hnone ledger.store.trades.length
        ((openAt_append htrades hopened _).mpr (.inr ⟨rfl, howner.trans heq⟩))
    refine (hconserved session ?_).balance ?_
    · exact (hopen.others sessionId hother).symm.trans hsession
    · intro i hi
      exact hnone i ((openAt_append htrades hopened i).mpr (.inl hi))

/-- A close realizes its PnL, and gives no cash back. -/
theorem cashConserved_close_iff (h : Tracked sessionId ledger)
    (hconserved : CashConserved sessionId ledger) (tradeId : ℕ) (exitPrice : ℚ) :
    CashConserved sessionId (ledger.apply (.closeTrade tradeId exitPrice)) ↔
      BreaksEven sessionId ledger (.closeTrade tradeId exitPrice) := by
  obtain ⟨before, hbefore⟩ := h.session
  have hsessions : (ledger.store.apply (.closeTrade tradeId exitPrice)).sessions =
      ledger.store.sessions := apply_closeTrade_sessions tradeId exitPrice
  have hclose := closeTrade_eq ledger.store ⟨tradeId, exitPrice⟩
  have hpnl := (hconserved before hbefore).realized
  rw [h.realized] at hpnl
  cases hfind : findOpen ledger.store tradeId with
  | none =>
    have hsame : ledger.store.apply (.closeTrade tradeId exitPrice) = ledger.store := by
      rw [Store.apply, hclose, hfind]
    refine iff_of_true ?_ ?_
    · simpa only [CashConserved, Ledger.apply, hsame] using hconserved
    · intro trade htrade
      rw [hfind] at htrade
      cases htrade
  | some trade =>
    obtain ⟨htrade, hopened⟩ := findOpen_eq_some_iff.mp hfind
    let closed : PaperTrade := { trade with
      exitPrice := some (numeric exitPrice)
      pnl := some (numeric (tradePnl trade exitPrice))
      status := .closed }
    have htrades : (ledger.store.apply (.closeTrade tradeId exitPrice)).trades =
        ledger.store.trades.set tradeId closed := by
      rw [Store.apply, hclose, hfind]
      exact modify_of_getElem? htrade _
    have hafter : closedPnl (ledger.store.apply (.closeTrade tradeId exitPrice)) sessionId =
        closedPnl ledger.store sessionId + pnlPart sessionId closed :=
      closedPnl_set htrade hopened htrades
    have hopen (i : ℕ) :
        OpenAt (ledger.store.apply (.closeTrade tradeId exitPrice)) sessionId i ↔
          OpenAt ledger.store sessionId i ∧ i ≠ tradeId :=
      openAt_set htrades rfl i
    rw [← hpnl, zero_add] at hafter
    simp only [BreaksEven, hfind, Option.some.injEq, forall_eq']
    by_cases howner : trade.sessionId = some sessionId
    · have hpart : pnlPart sessionId closed = numeric (tradePnl trade exitPrice) := by
        simp [pnlPart, closed, howner]
      have hlast : (∀ i, ¬ OpenAt (ledger.store.apply (.closeTrade tradeId exitPrice))
          sessionId i) ↔ ∀ i, OpenAt ledger.store sessionId i → i = tradeId := by
        simp [hopen]
      rw [hpart] at hafter
      constructor
      · intro hall _
        refine ⟨?_, ?_⟩
        · have hrealized := (hall before ((congrFun hsessions sessionId).trans hbefore)).realized
          exact hafter.symm.trans (hrealized.symm.trans h.realized)
        · intro hlast' session hsession
          have hbalance := (hall session
            ((congrFun hsessions sessionId).trans hsession)).balance (hlast.mpr hlast')
          simpa [Ledger.apply, h.realized] using hbalance
      · intro heven session hsession
        obtain ⟨hzero, hbalance⟩ := heven howner
        refine ⟨h.realized.trans (hafter.trans hzero).symm, ?_⟩
        intro hnone
        have hstart := hbalance (hlast.mp hnone) session
          ((congrFun hsessions sessionId).symm.trans hsession)
        simpa [Ledger.apply, h.realized] using hstart
    · have hpart : pnlPart sessionId closed = 0 := by simp [pnlPart, closed, howner]
      refine iff_of_true ?_ fun heq => absurd heq howner
      -- the trade that was closed is not one of the session's open trades
      have hothers (i : ℕ) (hi : OpenAt ledger.store sessionId i) : i ≠ tradeId := by
        rintro rfl
        obtain ⟨_, htrade', howner', -⟩ := hi
        rw [htrade] at htrade'
        exact howner (Option.some.inj htrade' ▸ howner')
      intro session hsession
      have hsession' := (congrFun hsessions sessionId).symm.trans hsession
      refine ⟨h.realized.trans (hafter.trans hpart).symm, ?_⟩
      intro hnone
      apply (hconserved session hsession').balance
      intro i hi
      exact hnone i ((hopen i).mpr ⟨hi, hothers i hi⟩)

theorem cashConserved_apply_iff (h : Tracked sessionId ledger)
    (hconserved : CashConserved sessionId ledger) (op : Op) :
    CashConserved sessionId (ledger.apply op) ↔ BreaksEven sessionId ledger op := by
  cases op with
  | executeTrade signalId symbol side entryPrice quantity =>
    exact iff_of_true (cashConserved_of_opens hconserved h.session
      (apply_executeTrade_opens signalId symbol side entryPrice quantity)) trivial
  | executeSessionTrade owner signalId symbol side entryPrice quantity =>
    exact iff_of_true (cashConserved_of_opens hconserved h.session
      (apply_executeSessionTrade_opens owner signalId symbol side entryPrice quantity)) trivial
  | closeTrade tradeId exitPrice => exact cashConserved_close_iff h hconserved tradeId exitPrice

/-! ### Runs -/

theorem tracked_createSession (ledger : Ledger) (sessionId : String) (startingBalance : ℚ) :
    Tracked sessionId (ledger.createSession sessionId startingBalance) :=
  ⟨⟨_, Function.update_self ..⟩, Function.update_self ..⟩

theorem cashConserved_createSession {ledger : Ledger} {sessionId : String}
    (hfresh : ∀ trade ∈ ledger.store.trades, trade.sessionId ≠ some sessionId)
    (startingBalance : ℚ) :
    CashConserved sessionId (ledger.createSession sessionId startingBalance) := by
  have hpnl : closedPnl ledger.store sessionId = 0 := by
    rw [closedPnl, List.filter_eq_nil_iff.mpr, List.map_nil, List.sum_nil]
    intro trade htrade
    simp [hfresh trade htrade]
  have hrealized := (tracked_createSession ledger sessionId startingBalance).realized
  intro session hsession
  refine ⟨hrealized.trans hpnl.symm, fun _ => ?_⟩
  rw [hrealized, add_zero]
  simp only [Ledger.createSession, Function.update_self, Option.some.injEq] at hsession
  rw [← hsession]

/-- A new session conserves its cash in every state of a run, exactly if each close of one
of its trades breaks even. -/
theorem run_cashConserved_iff {ledger : Ledger} {sessionId : String}
    (hfresh : ∀ trade ∈ ledger.store.trades, trade.sessionId ≠ some sessionId)
    (startingBalance : ℚ) (ops : List Op) :
    (∀ reached, reached <+: ops → CashConserved sessionId
        (reached.foldl Ledger.apply (ledger.createSession sessionId startingBalance))) ↔
      ∀ earlier op, earlier ++ [op] <+: ops → BreaksEven sessionId
        (earlier.foldl Ledger.apply (ledger.createSession sessionId startingBalance)) op :=
  @forall_reached_iff_forall_step _ _ Ledger.apply (Tracked sessionId)
    (CashConserved sessionId) (BreaksEven sessionId) (fun _ op h => h.apply op)
    (fun _ op h hconserved => cashConserved_apply_iff h hconserved op) _
    (tracked_createSession ledger sessionId startingBalance)
    (cashConserved_createSession hfresh startingBalance) ops

def noTrades : Ledger := ⟨.empty (fun _ => true) fun _ => none, fun _ => 0⟩

theorem breaksEven_closeTrade {ledger : Ledger} {tradeId : ℕ} {exitPrice balance : ℚ}
    {sessionId : String}
    (hpnl : (findOpen ledger.store tradeId).map (fun trade => numeric (tradePnl trade exitPrice)) =
      some 0)
    (hbalance : (ledger.store.sessions sessionId).map
      (fun session => (session.currentBalance, session.startingBalance)) =
        some (balance, balance)) :
    BreaksEven sessionId ledger (.closeTrade tradeId exitPrice) := by
  intro trade htrade _
  rw [htrade, Option.map_some, Option.some.injEq] at hpnl
  refine ⟨hpnl, ?_⟩
  intro _ session hsession
  rw [hsession, Option.map_some, Option.some.injEq, Prod.mk.injEq] at hbalance
  exact hbalance.1.trans hbalance.2.symm

/-- A BUY and a SELL at one price, both closed at that price. -/
theorem hedge_cashConserved :
    CashConserved "session" ([Op.executeSessionTrade "session" none "BTC/USD" .buy 10 1,
      .executeSessionTrade "session" none "BTC/USD" .sell 10 1, .closeTrade 0 10,
      .closeTrade 1 10].foldl Ledger.apply (noTrades.createSession "session" 100)) := by
  refine (run_cashConserved_iff (by simp [noTrades, Store.empty]) 100 _).mpr ?_ _ List.prefix_rfl
  refine (eachStep_iff_forall_step Ledger.apply _ _ _).mp ?_
  simp only [EachStep, true_implies]
  refine ⟨trivial, trivial, ?_, ?_, trivial⟩
  · exact @breaksEven_closeTrade _ _ _ 100 _ (by decide +kernel) (by decide +kernel)
  · exact @breaksEven_closeTrade _ _ _ 100 _ (by decide +kernel) (by decide +kernel)

/-- A profit of 5 on a closed BUY: nothing is realized, and no cash comes back. -/
theorem closedBuy_not_cashConserved :
    ¬ ∀ reached, reached <+: [Op.executeSessionTrade "session" none "BTC/USD" .buy 10 1,
        .closeTrade 0 15] →
      CashConserved "session"
        (reached.foldl Ledger.apply (noTrades.createSession "session" 100)) := by
  intro h
  let ledger := [Op.executeSessionTrade "session" none "BTC/USD" .buy 10 1,
    .closeTrade 0 15].foldl Ledger.apply (noTrades.createSession "session" 100)
  have hexists : (ledger.store.sessions "session").isSome = true := by decide +kernel
  obtain ⟨session, hsession⟩ := Option.isSome_iff_exists.mp hexists
  have hrealized := (h _ List.prefix_rfl session hsession).realized
  have hdiffer : ledger.totalRealizedPnl "session" ≠ closedPnl ledger.store "session" := by
    decide +kernel
  exact hdiffer hrealized

end TradeStream.PaperTrading.Cash
