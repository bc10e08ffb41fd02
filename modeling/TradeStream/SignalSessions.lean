import TradeStream.AlternatingLists
import TradeStream.BacktestAgreement
import TradeStream.ExecutionEngine
import TradeStream.Fallible

/-! The signals of a strategy and its books: from one start of the strategy to the next
they alternate, and the state counts them. -/
namespace TradeStream.StrategyExecution
open TradeStream.AlternatingLists TradeStream.Backtesting TradeStream.Configurable
  TradeStream.Fallible

/-! ### What a candle does to the books -/

/-- The two states have the same position, trades and realized profit. -/
structure StrategyState.SameBook (state state' : StrategyState) : Prop where
  position : state'.position = state.position
  entryPrice : state'.entryPrice = state.entryPrice
  realizedPnl : state'.realizedPnl = state.realizedPnl
  totalTrades : state'.totalTrades = state.totalTrades
  winningTrades : state'.winningTrades = state.winningTrades
  losingTrades : state'.losingTrades = state.losingTrades

theorem StrategyState.SameBook.refl (state : StrategyState) : state.SameBook state :=
  ⟨rfl, rfl, rfl, rfl, rfl, rfl⟩

/-- What may happen to a strategy at a price. -/
inductive Outcome (state : StrategyState) (price : ℚ) : StrategyState → Option Signal → Prop
  | quiet {state' : StrategyState} (h : state.SameBook state') : Outcome state price state' none
  | entry {state' : StrategyState} {signal : Signal} (hflat : state.position = .flat)
    (hdirection : signal.direction = .buy) (hprice : signal.entryPrice = price)
    (hposition : state'.position = .long) (hentry : state'.entryPrice = some price)
    (hrealized : state'.realizedPnl = state.realizedPnl)
    (htotal : state'.totalTrades = state.totalTrades)
    (hwinning : state'.winningTrades = state.winningTrades)
    (hlosing : state'.losingTrades = state.losingTrades) :
    Outcome state price state' (some signal)
  | exit {state' : StrategyState} {signal : Signal} (hopen : state.position ≠ .flat)
    (hdirection : signal.direction = .sell) (hprice : signal.entryPrice = price)
    (hposition : state'.position = .flat) (hentry : state'.entryPrice = none)
    (hrealized : state'.realizedPnl =
      state.realizedPnl + (price - orNumber state.entryPrice price))
    (htotal : state'.totalTrades = state.totalTrades + 1)
    (hcount : state'.winningTrades + state'.losingTrades =
      state.winningTrades + state.losingTrades + 1) :
    Outcome state price state' (some signal)

namespace Engine
variable {settings : EngineSettings} {runtime : EngineRuntime} {ctx : ExecutionContext}
  {candle : Candle} {now : ℚ}

theorem outcome_emitEntrySignal {state : StrategyState} (hflat : state.position = .flat)
    (hsame : state.SameBook ctx.state) :
    Outcome state candle.close (emitEntrySignal settings ctx candle now).1.state
      (some (emitEntrySignal settings ctx candle now).2) :=
  .entry hflat rfl rfl rfl rfl hsame.realizedPnl hsame.totalTrades hsame.winningTrades
    hsame.losingTrades

theorem outcome_emitExitSignal {state : StrategyState} (hopen : state.position ≠ .flat)
    (hsame : state.SameBook ctx.state) (reason : String) (stopLoss takeProfit : ℚ) :
    Outcome state candle.close
      (emitExitSignal ctx candle reason stopLoss takeProfit now).1.state
      (some (emitExitSignal ctx candle reason stopLoss takeProfit now).2) := by
  refine .exit hopen rfl rfl rfl rfl ?_ ?_ ?_
  · rw [← hsame.realizedPnl, ← hsame.entryPrice]
    rfl
  · rw [← hsame.totalTrades]
    rfl
  · rw [← hsame.winningTrades, ← hsame.losingTrades]
    simp only [emitExitSignal, ExecutionContext.addSignal]
    split_ifs <;> omega

theorem outcome_checkRiskManagement {state : StrategyState} (hsame : state.SameBook ctx.state)
    {result : ExecutionContext × Signal}
    (h : checkRiskManagement settings ctx candle now = some result) :
    Outcome state candle.close result.1.state (some result.2) := by
  unfold checkRiskManagement at h
  split at h
  next hposition _ =>
    have hopen : state.position ≠ .flat := by
      rw [← hsame.position, hposition]
      decide
    dsimp only at h
    split_ifs at h
    · obtain rfl := Option.some.inj h
      exact outcome_emitExitSignal hopen hsame _ _ _
    · obtain rfl := Option.some.inj h
      exact outcome_emitExitSignal hopen hsame _ _ _
  next => cases h

theorem outcome_evaluate {state : StrategyState} (hsame : state.SameBook ctx.state)
    {buf : List Candle} (hlast : buf.getLast? = some candle)
    {result : ExecutionContext × Option Signal}
    (h : evaluate settings runtime ctx buf now = .ok result) :
    Outcome state candle.close result.1.state result.2 := by
  -- the candle a signal is made of is the one that came in
  have hcandle : ∀ {candle'}, lastCandle buf = .ok candle' → candle' = candle := by
    intro candle' h
    rw [lastCandle, hlast] at h
    exact (Except.ok.inj h).symm
  obtain ⟨indicatorValues, -, h⟩ := bind_eq_ok_iff.mp h
  split at h
  next hflat =>
    obtain ⟨met, -, h⟩ := bind_eq_ok_iff.mp h
    split at h
    · obtain ⟨candle', hlast, h⟩ := bind_eq_ok_iff.mp h
      obtain rfl := hcandle hlast
      obtain rfl := Except.ok.inj h
      exact outcome_emitEntrySignal (hsame.position ▸ hflat) hsame
    · obtain rfl := Except.ok.inj h
      exact .quiet hsame
  next hopen =>
    obtain ⟨met, -, h⟩ := bind_eq_ok_iff.mp h
    split at h
    · obtain ⟨candle', hlast, h⟩ := bind_eq_ok_iff.mp h
      obtain rfl := hcandle hlast
      obtain rfl := Except.ok.inj h
      exact outcome_emitExitSignal (hsame.position ▸ hopen) hsame _ _ _
    · obtain rfl := Except.ok.inj h
      exact .quiet hsame

theorem sameBook_updatePrice (state : StrategyState) (candle : Candle) :
    state.SameBook (updatePrice state candle) :=
  ⟨rfl, rfl, rfl, rfl, rfl, rfl⟩

/-- A candle of a running strategy leaves its books, opens a trade or closes one. -/
theorem outcome_process {buf : List Candle} (hlast : buf.getLast? = some candle) :
    Outcome ctx.state candle.close (process settings runtime ctx buf candle now).1.state
      (process settings runtime ctx buf candle now).2 := by
  have hsame := sameBook_updatePrice ctx.state candle
  unfold process
  dsimp only
  split
  next ctx' signal hrisk => exact outcome_checkRiskManagement hsame hrisk
  next =>
    split_ifs
    · exact .quiet hsame
    · split
      next result hresult => exact outcome_evaluate hsame hlast hresult
      next => exact .quiet ⟨rfl, rfl, rfl, rfl, rfl, rfl⟩

end Engine

theorem getLast?_keepLast {α : Type*} (limit : ℕ) (items : List α) (item : α) :
    (keepLast limit (items ++ [item])).getLast? = some item := by
  unfold keepLast lastItems
  split_ifs with hlong hzero
  · simp
  · rw [List.drop_append_of_le_length]
    · simp
    · simp only [List.length_append, List.length_singleton]
      omega
  · simp

/-! ### The books of a session -/

def buys (signals : List Signal) : ℕ := signals.countP fun signal => signal.direction = .buy

def sells (signals : List Signal) : ℕ := signals.countP fun signal => signal.direction = .sell

/-- BUY, SELL, BUY, … -/
def AlternatesFromBuy (signals : List Signal) : Prop :=
  Alternates (fun signal : Signal => signal.direction = .buy)
    (fun signal => signal.direction = .sell) signals

/-- What a trade earned: the price of its exit less that of its entry. -/
def profit (trade : Signal × Signal) : ℚ := trade.2.entryPrice - trade.1.entryPrice

/-- The state counts the signals. -/
structure Books (state : StrategyState) (signals : List Signal) : Prop where
  alternates : AlternatesFromBuy signals
  long_iff : state.position = .long ↔ sells signals < buys signals
  entryPrice_iff : state.entryPrice.isSome ↔ state.position = .long
  totalTrades_eq : state.totalTrades = sells signals
  total_eq_add : state.totalTrades = state.winningTrades + state.losingTrades
  realizedPnl_eq : state.realizedPnl = ((pairs signals).map profit).sum

/-- The last signal of an open session is the entry that the state holds. -/
inductive Standing (state : StrategyState) : List Signal → Prop
  | flat {signals : List Signal} (hposition : state.position = .flat)
    (hentry : state.entryPrice = none) (heven : signals.length % 2 = 0) :
    Standing state signals
  | long {before : List Signal} {entry : Signal} (hposition : state.position = .long)
    (hentry : state.entryPrice = some entry.entryPrice) (hpos : 0 < entry.entryPrice)
    (heven : before.length % 2 = 0) : Standing state (before ++ [entry])

/-- What the counters hold of the signals. -/
structure Counted (state : StrategyState) (signals : List Signal) : Prop where
  alternates : AlternatesFromBuy signals
  totalTrades_eq : state.totalTrades = signals.length / 2
  total_eq_add : state.totalTrades = state.winningTrades + state.losingTrades
  realizedPnl_eq : state.realizedPnl = ((pairs signals).map profit).sum

section
variable {state state' : StrategyState} {signals : List Signal} {price : ℚ}

theorem AlternatesFromBuy.counts (h : AlternatesFromBuy signals) :
    buys signals = (signals.length + 1) / 2 ∧ sells signals = signals.length / 2 := by
  apply Alternates.countP_eq h
  intro signal hbuy hsell
  rw [hbuy] at hsell
  cases hsell

/-- The two halves of the invariant say all of it. -/
theorem Counted.books (h : Counted state signals) (hstanding : Standing state signals) :
    Books state signals := by
  obtain ⟨hbuys, hsells⟩ := h.alternates.counts
  refine ⟨h.alternates, ?_, ?_, h.totalTrades_eq.trans hsells.symm, h.total_eq_add,
    h.realizedPnl_eq⟩
  · rw [hbuys, hsells]
    cases hstanding with
    | flat hposition _ heven =>
      rw [hposition]
      refine iff_of_false (by decide) ?_
      omega
    | long hposition _ _ heven =>
      rw [hposition, List.length_append, List.length_singleton]
      refine iff_of_true rfl ?_
      omega
  · cases hstanding with
    | flat hposition hentry _ => simp [hposition, hentry]
    | long hposition hentry _ _ => simp [hposition, hentry]

theorem Counted.quiet (h : Counted state signals) (hsame : state.SameBook state') :
    Counted state' signals := by
  refine ⟨h.alternates, ?_, ?_, ?_⟩
  · rw [hsame.totalTrades, h.totalTrades_eq]
  · rw [hsame.totalTrades, hsame.winningTrades, hsame.losingTrades, h.total_eq_add]
  · rw [hsame.realizedPnl, h.realizedPnl_eq]

theorem Standing.quiet (h : Standing state signals) (hsame : state.SameBook state') :
    Standing state' signals := by
  cases h with
  | flat hposition hentry heven =>
    exact .flat (hsame.position.trans hposition) (hsame.entryPrice.trans hentry) heven
  | long hposition hentry hpos heven =>
    exact .long (hsame.position.trans hposition) (hsame.entryPrice.trans hentry) hpos heven

/-- Every outcome keeps the invariant. -/
theorem Outcome.keeps {signal : Option Signal} (h : Outcome state price state' signal)
    (hprice : 0 < price) (hcounted : Counted state signals)
    (hstanding : Standing state signals) :
    Counted state' (signals ++ signal.toList) ∧ Standing state' (signals ++ signal.toList) := by
  cases h with
  | quiet hsame =>
    rw [Option.toList_none, List.append_nil]
    exact ⟨hcounted.quiet hsame, hstanding.quiet hsame⟩
  | @entry signal hflat hdirection hsignal hposition hentry hrealized htotal hwinning
      hlosing =>
    -- flat is even: the signals are whole trades
    cases hstanding with
    | long hposition' => exact absurd (hflat.symm.trans hposition') (by decide)
    | flat _ _ heven =>
      rw [Option.toList_some]
      refine ⟨⟨?_, ?_, ?_, ?_⟩, ?_⟩
      · exact (alternates_concat signal).mpr ⟨hcounted.alternates, by rwa [if_pos heven]⟩
      · rw [htotal, hcounted.totalTrades_eq, List.length_append, List.length_singleton]
        omega
      · rw [htotal, hwinning, hlosing, hcounted.total_eq_add]
      · rw [hrealized, hcounted.realizedPnl_eq, pairs_concat_of_even heven]
      · exact .long hposition (hsignal.symm ▸ hentry) (hsignal.symm ▸ hprice) heven
  | @exit signal hopen hdirection hsignal hposition hentry hrealized htotal hcount =>
    cases hstanding with
    | flat hflat => exact absurd hflat hopen
    | @long before entry _ hentry' hpos heven =>
      rw [Option.toList_some]
      have hodd : ¬ (before ++ [entry]).length % 2 = 0 := by
        rw [List.length_append, List.length_singleton]
        omega
      have hlength : (before ++ [entry] ++ [signal]).length / 2 =
          (before ++ [entry]).length / 2 + 1 := by
        simp only [List.length_append, List.length_singleton]
        omega
      have hor : orNumber state.entryPrice price = entry.entryPrice := by
        rw [hentry', orNumber, if_neg hpos.ne']
      refine ⟨⟨?_, ?_, ?_, ?_⟩, ?_⟩
      · exact (alternates_concat signal).mpr ⟨hcounted.alternates, by rwa [if_neg hodd]⟩
      · rw [htotal, hcounted.totalTrades_eq, hlength]
      · rw [htotal, hcount, hcounted.total_eq_add]
      · calc
          state'.realizedPnl = state.realizedPnl + (price - entry.entryPrice) := by
            rw [hrealized, hor]
          _ = ((pairs before).map profit).sum + profit (entry, signal) := by
            rw [hcounted.realizedPnl_eq, pairs_concat_of_even heven, profit, hsignal]
          _ = ((pairs (before ++ [entry] ++ [signal])).map profit).sum := by
            rw [pairs_concat_concat heven, List.map_append, List.sum_append]
            simp
      · refine .flat hposition hentry ?_
        simp only [List.length_append, List.length_singleton]
        omega

end

/-! ### Runs -/

def Call.strategyId : Call → String
  | .start strategyId .. => strategyId
  | .stop strategyId => strategyId
  | .onCandle strategyId .. => strategyId

/-- The engine, and the signals of every strategy by its starts, the latest first. -/
structure Run where
  engine : Engine
  sessions : String → List (List Signal)

/-- A signal belongs to the latest session. -/
def record : Option Signal → List (List Signal) → List (List Signal)
  | none, sessions => sessions
  | some signal, [] => [[signal]]
  | some signal, current :: past => (current ++ [signal]) :: past

namespace Run

section
variable (settings : EngineSettings) (runtime : EngineRuntime)

def step (run : Run) (c : Call) : Run where
  engine := (run.engine.call settings runtime c).1
  sessions :=
    match c with
    | .start strategyId .. =>
      if run.engine.isRunning strategyId then run.sessions
      else Function.update run.sessions strategyId ([] :: run.sessions strategyId)
    | .stop _ => run.sessions
    | .onCandle strategyId .. => Function.update run.sessions strategyId
        (record (run.engine.call settings runtime c).2 (run.sessions strategyId))

def after (calls : List Call) : Run :=
  calls.foldl (step settings runtime) ⟨.empty, fun _ => []⟩

/-- The signals that the calls for a strategy return. -/
def emitted (calls : List Call) (strategyId : String) : List Signal :=
  (calls.zip (Engine.signalsFrom settings runtime .empty calls)).filterMap
    fun (c, signal) => if c.strategyId = strategyId then signal else none

end

/-- The books of a strategy are those of its latest session. -/
def Kept (run : Run) (strategyId : String) : Prop :=
  match run.engine.contexts strategyId with
  | none => run.sessions strategyId = []
  | some ctx => ∃ current past, run.sessions strategyId = current :: past ∧
      Counted ctx.state current ∧ Standing ctx.state current ∧
      ∀ session ∈ past, AlternatesFromBuy session

section
variable {settings : EngineSettings} {runtime : EngineRuntime} {run : Run}
  {strategyId : String}

theorem Kept.of_eq {run' : Run} (h : run.Kept strategyId)
    (hcontext : run'.engine.contexts strategyId = run.engine.contexts strategyId)
    (hsessions : run'.sessions strategyId = run.sessions strategyId) :
    run'.Kept strategyId := by
  rw [Kept, hcontext, hsessions]
  exact h

theorem Kept.alternates (h : run.Kept strategyId) :
    ∀ session ∈ run.sessions strategyId, AlternatesFromBuy session := by
  unfold Kept at h
  split at h
  next => simp [h]
  next ctx _ =>
    obtain ⟨current, past, hsessions, hcounted, -, hpast⟩ := h
    rw [hsessions, List.forall_mem_cons]
    exact ⟨hcounted.alternates, hpast⟩

theorem counted_start (config : StrategyConfig) (symbol timeframe : String)
    (parameterOverrides : String → Option ℚ) :
    Counted (Engine.newContext strategyId config symbol timeframe parameterOverrides).state
        [] ∧
      Standing (Engine.newContext strategyId config symbol timeframe
        parameterOverrides).state [] :=
  ⟨⟨alternates_nil, rfl, rfl, rfl⟩, .flat rfl rfl rfl⟩

theorem kept_start (h : run.Kept strategyId) (config : StrategyConfig)
    (symbol timeframe : String) (parameterOverrides : String → Option ℚ) :
    (run.step settings runtime
      (.start strategyId config symbol timeframe parameterOverrides)).Kept strategyId := by
  by_cases hrunning : run.engine.isRunning strategyId = true
  · -- the call raises
    refine h.of_eq ?_ ?_
    · simp only [step, Engine.call, Engine.startStrategy, if_pos hrunning]
    · simp only [step, if_pos hrunning]
  · obtain ⟨hcounted, hstanding⟩ :=
      @counted_start strategyId config symbol timeframe parameterOverrides
    simp only [Kept, step, Engine.call, Engine.startStrategy, if_neg hrunning,
      Function.update_self]
    exact ⟨[], _, rfl, hcounted, hstanding, h.alternates⟩

theorem kept_stop (h : run.Kept strategyId) :
    (run.step settings runtime (.stop strategyId)).Kept strategyId := by
  cases hcontext : run.engine.contexts strategyId with
  | none =>
    refine h.of_eq ?_ rfl
    simp only [step, Engine.call, Engine.stopStrategy, hcontext]
  | some ctx =>
    rw [Kept, hcontext] at h
    obtain ⟨current, past, hsessions, hcounted, hstanding, hpast⟩ := h
    have hsame : ctx.state.SameBook { ctx.state with status := .stopped } :=
      ⟨rfl, rfl, rfl, rfl, rfl, rfl⟩
    simp only [Kept, step, Engine.call, Engine.stopStrategy, hcontext, Function.update_self]
    exact ⟨current, past, hsessions, hcounted.quiet hsame, hstanding.quiet hsame, hpast⟩

theorem kept_onCandle (h : run.Kept strategyId) {candle : Candle} (hprice : 0 < candle.close)
    (now : ℚ) :
    (run.step settings runtime (.onCandle strategyId candle now)).Kept strategyId := by
  cases hcontext : run.engine.contexts strategyId with
  | none =>
    refine h.of_eq ?_ ?_
    · simp only [step, Engine.call, Engine.onCandle, hcontext]
    · simp only [step, Engine.call, Engine.onCandle, hcontext, record, Function.update_self]
  | some ctx =>
    by_cases hrunning : ctx.state.status = .running
    · rw [Kept, hcontext] at h
      obtain ⟨current, past, hsessions, hcounted, hstanding, hpast⟩ := h
      have houtcome := @Engine.outcome_process settings runtime ctx candle now _
        (getLast?_keepLast settings.maxCandles
          ((run.engine.candleBuffers strategyId).getD []) candle)
      obtain ⟨hcounted, hstanding⟩ := houtcome.keeps hprice hcounted hstanding
      simp only [Kept, step, Engine.call, Engine.onCandle, hcontext, if_pos hrunning,
        Function.update_self]
      -- the signal, if any, is the latest of the current session
      refine ⟨_, past, ?_, hcounted, hstanding, hpast⟩
      rw [hsessions]
      cases (Engine.process settings runtime ctx _ candle now).2 with
      | none => simp [record]
      | some signal => rfl
    · refine h.of_eq ?_ ?_
      · simp only [step, Engine.call, Engine.onCandle, hcontext, if_neg hrunning]
      · simp only [step, Engine.call, Engine.onCandle, hcontext, if_neg hrunning, record,
          Function.update_self]

/-- A call leaves the other strategies alone. -/
theorem kept_other (h : run.Kept strategyId) {c : Call} (hne : c.strategyId ≠ strategyId) :
    (run.step settings runtime c).Kept strategyId := by
  have hne : strategyId ≠ c.strategyId := hne.symm
  -- neither the context of the strategy nor its sessions change
  refine h.of_eq ?_ ?_
  · cases c with
    | start id config symbol timeframe parameterOverrides =>
      simp only [step, Engine.call, Engine.startStrategy]
      split_ifs
      · rfl
      · exact Function.update_of_ne hne _ _
    | stop id =>
      simp only [step, Engine.call, Engine.stopStrategy]
      cases run.engine.contexts id with
      | none => rfl
      | some ctx => exact Function.update_of_ne hne _ _
    | onCandle id candle now =>
      simp only [step, Engine.call, Engine.onCandle]
      cases run.engine.contexts id with
      | none => rfl
      | some ctx =>
        dsimp only
        split_ifs
        · exact Function.update_of_ne hne _ _
        · rfl
  · cases c with
    | start id config symbol timeframe parameterOverrides =>
      simp only [step]
      split_ifs
      · rfl
      · exact Function.update_of_ne hne _ _
    | stop id => rfl
    | onCandle id candle now => exact Function.update_of_ne hne _ _

theorem kept_step (h : run.Kept strategyId) {c : Call}
    (hprice : ∀ id candle now, c = .onCandle id candle now → 0 < candle.close) :
    (run.step settings runtime c).Kept strategyId := by
  by_cases hid : c.strategyId = strategyId
  · subst hid
    cases c with
    | start id config symbol timeframe parameterOverrides =>
      exact kept_start h config symbol timeframe parameterOverrides
    | stop id => exact kept_stop h
    | onCandle id candle now => exact kept_onCandle h (hprice id candle now rfl) now
  · exact kept_other h hid

theorem flatten_step (c : Call) :
    ((run.step settings runtime c).sessions strategyId).reverse.flatten =
      (run.sessions strategyId).reverse.flatten ++
        if c.strategyId = strategyId then (run.engine.call settings runtime c).2.toList
        else [] := by
  cases c with
  | start id config symbol timeframe parameterOverrides =>
    have hnone : (run.engine.call settings runtime
        (.start id config symbol timeframe parameterOverrides)).2 = none := by
      simp only [Engine.call]
      split <;> rfl
    simp only [step, hnone, Option.toList_none, ite_self, List.append_nil]
    -- a start that succeeds opens an empty session
    split_ifs
    · rfl
    · by_cases hid : strategyId = id
      · subst hid
        simp
      · rw [Function.update_of_ne hid]
  | stop id =>
    have hnone : (run.engine.call settings runtime (.stop id)).2 = none := by
      simp only [Engine.call]
      split <;> rfl
    simp only [step, hnone, Option.toList_none, ite_self, List.append_nil]
  | onCandle id candle now =>
    simp only [step]
    by_cases hid : (Call.onCandle id candle now).strategyId = strategyId
    · rw [if_pos hid]
      obtain rfl : id = strategyId := hid
      rw [Function.update_self]
      generalize (run.engine.call settings runtime (.onCandle id candle now)).2 = signal
      cases signal with
      | none => simp [record]
      | some signal =>
        cases run.sessions id with
        | nil => simp [record]
        | cons current past => simp [record]
    · have hne : strategyId ≠ id := fun heq => hid heq.symm
      rw [if_neg hid, List.append_nil, Function.update_of_ne hne]

theorem after_concat (calls : List Call) (c : Call) :
    after settings runtime (calls ++ [c]) =
      (after settings runtime calls).step settings runtime c := by
  rw [after, after, List.foldl_append]
  rfl

theorem after_engine (calls : List Call) :
    (after settings runtime calls).engine = Engine.after settings runtime calls := by
  induction calls using List.reverseRecOn with
  | nil => rfl
  | append_singleton calls c ih =>
    rw [after_concat, Engine.after, List.foldl_append]
    change ((after settings runtime calls).engine.call settings runtime c).1 = _
    rw [ih]
    rfl

theorem signalsFrom_concat (engine : Engine) (calls : List Call) (c : Call) :
    Engine.signalsFrom settings runtime engine (calls ++ [c]) =
      Engine.signalsFrom settings runtime engine calls ++
        [((calls.foldl (fun engine c => (engine.call settings runtime c).1) engine).call
          settings runtime c).2] := by
  induction calls generalizing engine with
  | nil => rfl
  | cons c' calls ih =>
    rw [List.cons_append, Engine.signalsFrom, ih]
    rfl

theorem length_signalsFrom (engine : Engine) (calls : List Call) :
    (Engine.signalsFrom settings runtime engine calls).length = calls.length := by
  induction calls generalizing engine with
  | nil => rfl
  | cons c calls ih => rw [Engine.signalsFrom, List.length_cons, List.length_cons, ih]

/-- The sessions hold all that was emitted. -/
theorem flatten_sessions (calls : List Call) :
    ((after settings runtime calls).sessions strategyId).reverse.flatten =
      emitted settings runtime calls strategyId := by
  induction calls using List.reverseRecOn with
  | nil => rfl
  | append_singleton calls c ih =>
    rw [after_concat, flatten_step, ih, after_engine, emitted, emitted, signalsFrom_concat,
      List.zip_append (length_signalsFrom _ _).symm, List.filterMap_append]
    congr 1
    simp only [List.zip_cons_cons, List.zip_nil_right, Engine.after]
    by_cases hid : c.strategyId = strategyId
    · simp only [hid, if_true]
      generalize (Engine.call settings runtime _ c).2 = signal
      cases signal <;> simp [hid]
    · simp [hid]

/-- Between two starts of a strategy its signals alternate from BUY on, and its state
counts those since the last start. -/
theorem books_of_calls (settings : EngineSettings) (runtime : EngineRuntime)
    (calls : List Call)
    (hprices : ∀ id candle now, .onCandle id candle now ∈ calls → 0 < candle.close)
    (strategyId : String) :
    let sessions := (after settings runtime calls).sessions strategyId
    sessions.reverse.flatten = emitted settings runtime calls strategyId ∧
      (∀ session ∈ sessions, AlternatesFromBuy session) ∧
      ∀ ctx, (Engine.after settings runtime calls).contexts strategyId = some ctx →
        ∃ latest past, sessions = latest :: past ∧ Books ctx.state latest := by
  intro sessions
  -- the induction is on the calls from their end, as a state is the one after a last call
  have hkept : (after settings runtime calls).Kept strategyId := by
    induction calls using List.reverseRecOn with
    | nil => exact rfl
    | append_singleton calls c ih =>
      rw [after_concat]
      apply kept_step
      · exact ih fun id candle now hmem => hprices id candle now (by simp [hmem])
      · rintro id candle now rfl
        exact hprices id candle now (by simp)
  refine ⟨flatten_sessions calls, hkept.alternates, ?_⟩
  intro ctx hctx
  rw [Kept, after_engine, hctx] at hkept
  obtain ⟨latest, past, hsessions, hcounted, hstanding, -⟩ := hkept
  exact ⟨latest, past, hsessions, hcounted.books hstanding⟩

end

end Run

/-! ### A restart -/

def enginePython : EngineRuntime :=
  { asciiPython with parseInt := wholeNumber? }

/-- A strategy that buys as soon as the close is over 50. -/
def overConfig : StrategyConfig where
  name := "over"
  indicators := []
  entryConditions := [⟨some "OVER", some "close", fun key =>
    if key = "value" then .number 50 else .none⟩]
  exitConditions := []
  parameters := []

/-- A candle at one price. -/
def flatCandle (price : ℚ) : Candle := ⟨1, price, price, price, price, 1⟩

/-- It is started, buys, is stopped, is started anew and buys again. -/
def restartCalls : List Call :=
  [.start "s" overConfig "BTC/USD" "1m" fun _ => none,
    .onCandle "s" (flatCandle 100) 0, .onCandle "s" (flatCandle 100) 0, .stop "s",
    .start "s" overConfig "BTC/USD" "1m" fun _ => none,
    .onCandle "s" (flatCandle 100) 0, .onCandle "s" (flatCandle 100) 0]

def twoPercent : EngineSettings := { stopLossPct := 2 / 100, takeProfitPct := 4 / 100 }

/-- The new start forgets the open position: two BUYs in a row. -/
theorem restartCalls_not_alternates :
    ¬ AlternatesFromBuy (Run.emitted twoPercent enginePython restartCalls "s") := by
  have hdirections : (Run.emitted twoPercent enginePython restartCalls "s").map
      Signal.direction = [.buy, .buy] := by
    decide +kernel
  intro halternates
  obtain ⟨hbuys, -⟩ := halternates.counts
  have hlength := congrArg List.length hdirections
  rw [List.length_map] at hlength
  have hcount : buys (Run.emitted twoPercent enginePython restartCalls "s") = 2 := by
    have h := congrArg (List.countP fun direction => direction = .buy) hdirections
    rw [List.countP_map] at h
    exact h
  rw [hcount, hlength] at hbuys
  exact absurd hbuys (by decide)

theorem restartCalls_books :
    ∃ ctx session, (Engine.after twoPercent enginePython restartCalls).contexts "s" =
      some ctx ∧ Books ctx.state session := by
  have hprices : ∀ id candle now, Call.onCandle id candle now ∈ restartCalls →
      0 < candle.close := by
    intro id candle now hmem
    obtain rfl : candle = flatCandle 100 := by
      simp only [restartCalls, List.mem_cons, List.not_mem_nil, or_false, reduceCtorEq,
        false_or, Call.onCandle.injEq] at hmem
      rcases hmem with ⟨-, rfl, -⟩ | ⟨-, rfl, -⟩ | ⟨-, rfl, -⟩ | ⟨-, rfl, -⟩ <;> rfl
    norm_num [flatCandle]
  obtain ⟨ctx, hctx⟩ : ∃ ctx,
      (Engine.after twoPercent enginePython restartCalls).contexts "s" = some ctx :=
    ⟨_, rfl⟩
  obtain ⟨latest, _, -, hbooks⟩ :=
    (Run.books_of_calls twoPercent enginePython restartCalls hprices "s").2.2 ctx hctx
  exact ⟨ctx, latest, hctx, hbooks⟩

end TradeStream.StrategyExecution
