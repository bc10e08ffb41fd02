import TradeStream.SignalSessions

/-! `on_candle` with listeners that may raise. They are called when the state has changed:
from the risk checks outside of the `try`, from the rules inside it. -/
namespace TradeStream.StrategyExecution
open TradeStream.Backtesting TradeStream.Fallible

/-- An `Exception`, or an exception that is none, such as `SystemExit`. -/
inductive Raised where
  | exception (error : PyError)
  | baseException

/-- A listener, by what it raises. -/
abbrev Listener := Signal → Option Raised

/-- The loop over the listeners: how many it calls, and what ends it. -/
def notify : List Listener → Signal → ℕ × Option Raised
  | [], _ => (0, none)
  | listener :: rest, signal =>
    match listener signal with
    | some raised => (1, some raised)
    | none => ((notify rest signal).1 + 1, (notify rest signal).2)

/-- What a candle does to its strategy, and the signal with the number of listeners that were
offered it, if one was emitted. -/
structure Reaction where
  ctx : ExecutionContext
  result : Except Raised (Option Signal)
  offered : Option (Signal × ℕ)

structure Turn where
  engine : Engine
  result : Except Raised (Option Signal)
  offered : Option (Signal × ℕ)

namespace Engine

section
variable (settings : EngineSettings) (runtime : EngineRuntime)

/-- What `on_candle` does with a running strategy and its buffer. -/
def processWith (listeners : List Listener) (ctx : ExecutionContext) (buf : List Candle)
    (candle : Candle) (now : ℚ) : Reaction :=
  let ctx := { ctx with state := updatePrice ctx.state candle }
  match checkRiskManagement settings ctx candle now with
  | some (ctx, signal) =>
    -- no handler is around the risk checks
    match notify listeners signal with
    | (count, some raised) => ⟨ctx, .error raised, some (signal, count)⟩
    | (count, none) => ⟨ctx, .ok (some signal), some (signal, count)⟩
  | none =>
    if buf.length < 2 then ⟨ctx, .ok none, none⟩
    else
      match evaluate settings runtime ctx buf now with
      | .error e => ⟨{ ctx with state :=
          { ctx.state with status := .error, errorMessage := some e } }, .ok none, none⟩
      | .ok (ctx, none) => ⟨ctx, .ok none, none⟩
      | .ok (ctx, some signal) =>
        match notify listeners signal with
        | (count, some (.exception e)) => ⟨{ ctx with state :=
            { ctx.state with status := .error, errorMessage := some e } },
            .ok none, some (signal, count)⟩
        | (count, some .baseException) => ⟨ctx, .error .baseException, some (signal, count)⟩
        | (count, none) => ⟨ctx, .ok (some signal), some (signal, count)⟩

/-- `on_candle`. -/
def onCandleWith (listeners : List Listener) (engine : Engine) (strategyId : String)
    (candle : Candle) (now : ℚ) : Turn :=
  match engine.contexts strategyId with
  | none => ⟨engine, .ok none, none⟩
  | some ctx =>
    if ctx.state.status = .running then
      let buf := keepLast settings.maxCandles
        ((engine.candleBuffers strategyId).getD [] ++ [candle])
      let reaction := processWith settings runtime listeners ctx buf candle now
      { engine := {
          contexts := Function.update engine.contexts strategyId (some reaction.ctx)
          candleBuffers := Function.update engine.candleBuffers strategyId (some buf) }
        result := reaction.result
        offered := reaction.offered }
    else ⟨engine, .ok none, none⟩

/-- A call, with the listeners there are at that time. -/
def callWith (engine : Engine) : Call × List Listener → Engine
  | (.onCandle strategyId candle now, listeners) =>
    (engine.onCandleWith settings runtime listeners strategyId candle now).engine
  | (c, _) => (engine.call settings runtime c).1

/-- The engine after some calls. -/
def afterWith (calls : List (Call × List Listener)) : Engine :=
  calls.foldl (fun engine c => engine.callWith settings runtime c) .empty

end

end Engine

/-! ### What the caller and the listeners are told -/

/-- Neither the books nor the history have changed. -/
structure ExecutionContext.Unchanged (ctx ctx' : ExecutionContext) : Prop where
  books : ctx.state.SameBook ctx'.state
  signals : ctx'.signals = ctx.signals

/-- The history with a signal, if there is one. -/
def recorded (signals : List Signal) : Option Signal → List Signal
  | none => signals
  | some signal => keepLast 1000 (signals ++ [signal])

/-- The signal says what happened to the books, and is the last of the history. -/
structure ExecutionContext.ChangedBy (ctx : ExecutionContext) (price : ℚ)
    (signal : Option Signal) (ctx' : ExecutionContext) : Prop where
  books : Outcome ctx.state price ctx'.state signal
  signals : ctx'.signals = recorded ctx.signals signal

/-- The strategy changes if and only if the call returns the signal that says how, and a signal
is offered to all listeners. -/
structure Told (listeners : List Listener) (ctx : ExecutionContext) (price : ℚ)
    (reaction : Reaction) : Prop where
  changed_iff : ¬ ctx.Unchanged reaction.ctx ↔ ∃ signal, reaction.result = .ok (some signal)
  described : ∀ signal, reaction.result = .ok (some signal) →
    ctx.ChangedBy price (some signal) reaction.ctx
  offered : ∀ signal count, reaction.offered = some (signal, count) → count = listeners.length

/-- The same of a call, which does nothing to a strategy that does not exist. -/
def Turn.Tells (turn : Turn) (listeners : List Listener) (engine : Engine) (strategyId : String)
    (price : ℚ) : Prop :=
  match engine.contexts strategyId, turn.engine.contexts strategyId with
  | some ctx, some ctx' => Told listeners ctx price ⟨ctx', turn.result, turn.offered⟩
  | none, none => turn.result = .ok none ∧ turn.offered = none
  | _, _ => False

/-- No listener raises on the signal that the candle calls for. -/
def Engine.Quiet (settings : EngineSettings) (runtime : EngineRuntime)
    (listeners : List Listener) (engine : Engine) (strategyId : String) (candle : Candle)
    (now : ℚ) : Prop :=
  ∀ signal, (engine.onCandle settings runtime strategyId candle now).2 = some signal →
    ∀ listener ∈ listeners, listener signal = none

theorem ExecutionContext.Unchanged.refl (ctx : ExecutionContext) : ctx.Unchanged ctx :=
  ⟨.refl _, rfl⟩

/-- Two contexts that have not changed to a third are the same in that respect. -/
theorem ExecutionContext.Unchanged.of_common {ctx ctx₁ ctx₂ : ExecutionContext}
    (h : ctx.Unchanged ctx₂) (h₁ : ctx₁.Unchanged ctx₂) : ctx.Unchanged ctx₁ where
  books := {
    position := h₁.books.position.symm.trans h.books.position
    entryPrice := h₁.books.entryPrice.symm.trans h.books.entryPrice
    realizedPnl := h₁.books.realizedPnl.symm.trans h.books.realizedPnl
    totalTrades := h₁.books.totalTrades.symm.trans h.books.totalTrades
    winningTrades := h₁.books.winningTrades.symm.trans h.books.winningTrades
    losingTrades := h₁.books.losingTrades.symm.trans h.books.losingTrades }
  signals := h₁.signals.symm.trans h.signals

theorem ExecutionContext.ChangedBy.not_unchanged {ctx ctx' : ExecutionContext} {price : ℚ}
    {signal : Signal} (h : ctx.ChangedBy price (some signal) ctx') : ¬ ctx.Unchanged ctx' := by
  intro hsame
  have hposition := hsame.books.position
  cases h.books with
  | entry hflat _ _ hlong => simp [hflat, hlong] at hposition
  | exit hopen _ _ hflat => exact hopen (hposition.symm.trans hflat)

theorem ExecutionContext.ChangedBy.unchanged {ctx ctx' : ExecutionContext} {price : ℚ}
    (h : ctx.ChangedBy price none ctx') : ctx.Unchanged ctx' := by
  obtain ⟨hbooks, hsignals⟩ := h
  cases hbooks with
  | quiet hsame => exact ⟨hsame, hsignals⟩

theorem notify_eq_none_iff {listeners : List Listener} {signal : Signal} :
    (notify listeners signal).2 = none ↔ ∀ listener ∈ listeners, listener signal = none := by
  induction listeners with
  | nil => simp [notify]
  | cons listener rest ih =>
    rw [List.forall_mem_cons, ← ih, notify]
    cases listener signal <;> simp

/-- A loop that nothing ends calls them all. -/
theorem notify_length {listeners : List Listener} {signal : Signal}
    (h : (notify listeners signal).2 = none) :
    (notify listeners signal).1 = listeners.length := by
  induction listeners with
  | nil => rfl
  | cons listener rest ih =>
    rw [notify] at h ⊢
    cases hraised : listener signal with
    | none =>
      rw [hraised] at h
      rw [List.length_cons, ← ih h]
    | some raised =>
      rw [hraised] at h
      cases h

namespace Engine
variable {settings : EngineSettings} {runtime : EngineRuntime} {listeners : List Listener}
  {ctx : ExecutionContext} {buf : List Candle} {candle : Candle} {now : ℚ}

theorem signals_checkRiskManagement {result : ExecutionContext × Signal}
    (h : checkRiskManagement settings ctx candle now = some result) :
    result.1.signals = recorded ctx.signals (some result.2) := by
  unfold checkRiskManagement at h
  split at h
  · dsimp only at h
    split_ifs at h
    · obtain rfl := Option.some.inj h
      rfl
    · obtain rfl := Option.some.inj h
      rfl
  · cases h

theorem signals_evaluate {result : ExecutionContext × Option Signal}
    (h : evaluate settings runtime ctx buf now = .ok result) :
    result.1.signals = recorded ctx.signals result.2 := by
  obtain ⟨indicatorValues, -, h⟩ := bind_eq_ok_iff.mp h
  split at h <;>
    obtain ⟨met, -, h⟩ := bind_eq_ok_iff.mp h <;>
    split at h
  all_goals try
    obtain ⟨last, -, h⟩ := bind_eq_ok_iff.mp h
  all_goals
    obtain rfl := Except.ok.inj h
    rfl

/-- Without a signal nothing changes, and with one what it says. -/
theorem changedBy_process (hlast : buf.getLast? = some candle) :
    ctx.ChangedBy candle.close (process settings runtime ctx buf candle now).2
      (process settings runtime ctx buf candle now).1 := by
  refine ⟨outcome_process hlast, ?_⟩
  unfold process
  dsimp only
  split
  next ctx' signal hrisk => exact signals_checkRiskManagement hrisk
  next =>
    split_ifs
    · rfl
    · split
      next result hresult =>
        have hsignals := signals_evaluate hresult
        exact hsignals
      next => rfl

/-- A signal ends up with all listeners and the caller, or with neither. -/
inductive Heard (listeners : List Listener) (ctx : ExecutionContext) :
    Option Signal → Reaction → Prop
  | quiet : Heard listeners ctx none ⟨ctx, .ok none, none⟩
  | told {signal : Signal} (h : (notify listeners signal).2 = none) :
    Heard listeners ctx (some signal) ⟨ctx, .ok (some signal), some (signal, listeners.length)⟩
  | dropped {signal : Signal} {reaction : Reaction} (h : (notify listeners signal).2 ≠ none)
    (hresult : ∀ s, reaction.result ≠ .ok (some s)) (hctx : ctx.Unchanged reaction.ctx) :
    Heard listeners ctx (some signal) reaction

theorem Heard.of_notify_eq {signal : Signal} {count : ℕ}
    (h : notify listeners signal = (count, none)) :
    Heard listeners ctx (some signal) ⟨ctx, .ok (some signal), some (signal, count)⟩ := by
  have hnone : (notify listeners signal).2 = none := by rw [h]
  have hcount : count = listeners.length := by rw [← notify_length hnone, h]
  rw [hcount]
  exact .told hnone

/-- The state is as without listeners, up to its status. -/
theorem heard_processWith :
    Heard listeners (process settings runtime ctx buf candle now).1
      (process settings runtime ctx buf candle now).2
      (processWith settings runtime listeners ctx buf candle now) := by
  unfold processWith process
  dsimp only
  generalize checkRiskManagement settings _ candle now = risk
  cases risk with
  | some emitted =>
    dsimp only
    rcases hnotify : notify listeners emitted.2 with ⟨count, _ | raised⟩
    · exact .of_notify_eq hnotify
    · exact .dropped (by simp [hnotify]) (by simp) (.refl _)
  | none =>
    dsimp only
    generalize evaluate settings runtime _ buf now = evaluated
    split_ifs
    · exact .quiet
    rcases evaluated with e | ⟨ctx', _ | signal⟩
    · exact .quiet
    · exact .quiet
    dsimp only
    rcases hnotify : notify listeners signal with ⟨count, _ | e | _⟩
    · exact .of_notify_eq hnotify
    · exact .dropped (by simp [hnotify]) (by simp) ⟨⟨rfl, rfl, rfl, rfl, rfl, rfl⟩, rfl⟩
    · exact .dropped (by simp [hnotify]) (by simp) (.refl _)

/-- A strategy is told what it does exactly if no listener stands in the way. -/
theorem told_iff_of_heard {price : ℚ} {ctx₁ : ExecutionContext} {signal : Option Signal}
    {reaction : Reaction} (hchanged : ctx.ChangedBy price signal ctx₁)
    (h : Heard listeners ctx₁ signal reaction) :
    Told listeners ctx price reaction ↔
      ∀ s, signal = some s → ∀ listener ∈ listeners, listener s = none := by
  cases h with
  | quiet =>
    have hsame := hchanged.unchanged
    refine iff_of_true ⟨?_, ?_, ?_⟩ ?_
    · simp [hsame]
    · simp
    · simp
    · simp
  | @told s hnone =>
    refine iff_of_true ⟨?_, ?_, ?_⟩ ?_
    · exact iff_of_true hchanged.not_unchanged ⟨s, rfl⟩
    · intro s' hs
      obtain rfl := Option.some.inj (Except.ok.inj hs)
      exact hchanged
    · intro s' count hcount
      exact ((Prod.mk.inj (Option.some.inj hcount)).2).symm
    · intro s' hs
      obtain rfl := Option.some.inj hs
      exact notify_eq_none_iff.mp hnone
  | @dropped s _ hraised hresult hctx =>
    refine iff_of_false ?_ ?_
    · intro htold
      have hdifferent : ¬ ctx.Unchanged reaction.ctx := by
        intro hsame
        exact hchanged.not_unchanged (hsame.of_common hctx)
      obtain ⟨s', hs'⟩ := htold.changed_iff.mp hdifferent
      exact hresult s' hs'
    · intro hall
      exact hraised (notify_eq_none_iff.mpr (hall s rfl))

/-- In any state of the engine. -/
theorem tells_iff (engine : Engine) (strategyId : String) :
    (engine.onCandleWith settings runtime listeners strategyId candle now).Tells listeners engine
        strategyId candle.close ↔
      Quiet settings runtime listeners engine strategyId candle now := by
  rw [Turn.Tells, Quiet, onCandleWith, onCandle]
  cases hctx : engine.contexts strategyId with
  | none => simp [hctx]
  | some ctx =>
    dsimp only
    split_ifs
    · simp only [Function.update_self]
      have hlast := getLast?_keepLast settings.maxCandles
        ((engine.candleBuffers strategyId).getD []) candle
      exact told_iff_of_heard (changedBy_process hlast) heard_processWith
    · rw [hctx]
      have hquiet : ctx.ChangedBy candle.close none ctx := ⟨.quiet (.refl _), rfl⟩
      have htold := told_iff_of_heard hquiet (@Heard.quiet listeners ctx)
      simpa using htold

end Engine

/-- After any calls, with listeners that may have raised before. -/
theorem tells_afterWith_iff (settings : EngineSettings) (runtime : EngineRuntime)
    (calls : List (Call × List Listener)) (listeners : List Listener) (strategyId : String)
    (candle : Candle) (now : ℚ) :
    ((Engine.afterWith settings runtime calls).onCandleWith settings runtime listeners strategyId
        candle now).Tells listeners (Engine.afterWith settings runtime calls) strategyId
        candle.close ↔
      Engine.Quiet settings runtime listeners (Engine.afterWith settings runtime calls)
        strategyId candle now :=
  Engine.tells_iff _ _

/-- A strategy with one candle, which buys at the second. -/
def aboutToBuy : List (Call × List Listener) :=
  [(.start "s" overConfig "BTC/USD" "1m" fun _ => none, []), (.onCandle "s" (flatCandle 100) 0, [])]

/-- The position is opened, and the caller told of nothing. -/
theorem raisingListener_not_tells :
    ¬ ((Engine.afterWith twoPercent enginePython aboutToBuy).onCandleWith twoPercent enginePython
        [fun _ => some (.exception .valueError)] "s" (flatCandle 100) 0).Tells
        [fun _ => some (.exception .valueError)]
        (Engine.afterWith twoPercent enginePython aboutToBuy) "s" 100 := by
  intro h
  have hquiet := (Engine.tells_iff _ _).mp h
  obtain ⟨signal, hsignal⟩ : ∃ signal, ((Engine.afterWith twoPercent enginePython aboutToBuy).onCandle
      twoPercent enginePython "s" (flatCandle 100) 0).2 = some signal := by
    apply Option.isSome_iff_exists.mp
    decide +kernel
  cases hquiet signal hsignal _ List.mem_cons_self

end TradeStream.StrategyExecution
