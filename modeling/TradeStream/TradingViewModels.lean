import TradeStream.JsonText

/-! The models of the TradingView integration: the payload of an alert as it is received,
and the signal that it is turned into. -/
namespace TradeStream.TradingView
open TradeStream.JsonText

/-- `str.isspace`. -/
def isSpace (c : Char) : Bool :=
  let n := c.toNat
  (9 ≤ n && n ≤ 13) || (28 ≤ n && n ≤ 32) || n = 0x85 || n = 0xa0 || n = 0x1680 ||
    (0x2000 ≤ n && n ≤ 0x200a) || n = 0x2028 || n = 0x2029 || n = 0x202f || n = 0x205f || n = 0x3000

def strip (text : String) : String :=
  String.ofList ((text.toList.dropWhile isSpace).reverse.dropWhile isSpace).reverse

/-- `str.upper` and `str.lower`, which outside ASCII need tables that are left open. -/
structure CaseMapping where
  upper : String → String
  lower : String → String
  upper_ascii : ∀ text : String, (∀ c ∈ text.toList, c.toNat < 128) →
    upper text = String.ofList (text.toList.map Char.toUpper)
  lower_ascii : ∀ text : String, (∀ c ∈ text.toList, c.toNat < 128) →
    lower text = String.ofList (text.toList.map Char.toLower)

inductive TradingViewAction where
  | buy
  | sell
  | close
  | long
  | short
  | exitLong
  | exitShort
  deriving DecidableEq

def TradingViewAction.ofText : String → Option TradingViewAction
  | "buy" => some .buy
  | "sell" => some .sell
  | "close" => some .close
  | "long" => some .long
  | "short" => some .short
  | "exit_long" => some .exitLong
  | "exit_short" => some .exitShort
  | _ => none

/-- `ACTION_TO_SIGNAL_TYPE`. -/
def TradingViewAction.signalType : TradingViewAction → String
  | .buy => "BUY"
  | .long => "BUY"
  | .sell => "SELL"
  | .short => "SELL"
  | .close => "SELL"
  | .exitLong => "SELL"
  | .exitShort => "BUY"

structure WebhookPayload (N : Type) where
  ticker : String
  action : String
  price : Option N
  stopLoss : Option N
  takeProfit : Option N
  quantity : Option N
  strategy : Option String
  message : Option String
  time : Option String
  interval : Option String
  exchange : Option String

/-- What a field of type `float` accepts besides a number. -/
structure FloatInput (N : Type) where
  ofBool : Bool → N
  ofText : String → Option N

section
variable {N : Type} (floats : FloatInput N)

/-- A field of a JSON object: of several with one key, the last. -/
def field (fields : List (String × Json N)) (key : String) : Option (Json N) :=
  fields.reverse.lookup key

def asString : Json N → Option String
  | .str text => some text
  | _ => none

def asFloat : Json N → Option N
  | .num n => some n
  | .bool value => some (floats.ofBool value)
  | .str text => floats.ofText text
  | _ => none

/-- An optional field: missing or `null`, or of its type. -/
def optional {A : Type} (convert : Json N → Option A) : Option (Json N) → Option (Option A)
  | none => some none
  | some .null => some none
  | some v => (convert v).map some

/-- `TradingViewWebhookPayload(**fields)`; other fields are ignored. -/
def validate (fields : List (String × Json N)) : Option (WebhookPayload N) := do
  let ticker ← (field fields "ticker").bind asString
  let action ← (field fields "action").bind asString
  let price ← optional (asFloat floats) (field fields "price")
  -- the alias is looked up before the name
  let stopLoss ← optional (asFloat floats) ((field fields "stoploss").or (field fields "stop_loss"))
  let takeProfit ←
    optional (asFloat floats) ((field fields "takeprofit").or (field fields "take_profit"))
  let quantity ← optional (asFloat floats) (field fields "quantity")
  let strategy ← optional asString (field fields "strategy")
  let message ← optional asString (field fields "message")
  let time ← optional asString (field fields "time")
  let interval ← optional asString (field fields "interval")
  let exchange ← optional asString (field fields "exchange")
  pure { ticker, action, price, stopLoss, takeProfit, quantity, strategy, message, time, interval,
         exchange }

/-- The overrides of a user's connection. -/
structure Connection where
  alertMapping : List (String × String)
  instrument : Option String
  strategyName : Option String

structure Metadata where
  tradingviewTicker : String
  tradingviewAction : String
  tradingviewMessage : Option String
  tradingviewInterval : Option String
  tradingviewExchange : Option String
  tradingviewTime : Option String

structure Signal (N : Type) where
  instrument : String
  signalType : String
  strategyName : String
  price : Option N
  stopLoss : Option N
  takeProfit : Option N
  positionSize : Option N
  strength : ℚ
  source : String
  metadata : Metadata

/-- The quote currencies, in the order in which they are tried. -/
def quoteCurrencies : List String := ["USDT", "USD", "EUR", "GBP", "BTC", "ETH", "BUSD"]

def endsWith (ticker quote : List Char) : Bool :=
  quote.isSuffixOf ticker && quote.length < ticker.length

/-- The ticker split at the first quote currency that it ends in. -/
def splitQuote (ticker : List Char) : Option String :=
  (quoteCurrencies.find? fun quote => endsWith ticker quote.toList).map fun quote =>
    String.ofList (ticker.take (ticker.length - quote.toList.length)) ++ "/" ++ quote

/-- What follows the first colon, if there is one. -/
def stripExchange (ticker : String) : String :=
  if ':' ∈ ticker.toList then String.ofList (ticker.toList.dropWhile (· ≠ ':')).tail else ticker

variable (case : CaseMapping)

def normalizeTicker (ticker : String) : String :=
  let ticker := case.upper (stripExchange ticker)
  -- a ticker without a known quote currency, such as a stock's, is left as it is
  (splitQuote ticker.toList).getD ticker

/-- `value or ..`: an empty text counts as none. -/
def truthy (value : Option String) : Option String := value.filter (· ≠ "")

def signalTypeOf (mapping : List (String × String)) (actionLower : String) : String :=
  match truthy (mapping.lookup actionLower) with
  | some signalType => signalType
  | none =>
    match TradingViewAction.ofText actionLower with
    | some action => action.signalType
    | none => case.upper actionLower

/-- `tradingview_payload_to_signal`. -/
def payloadToSignal (payload : WebhookPayload N) (connection : Option Connection) : Signal N where
  instrument :=
    (truthy (connection.bind (·.instrument))).getD (normalizeTicker case payload.ticker)
  signalType :=
    signalTypeOf case ((connection.map (·.alertMapping)).getD [])
      (strip (case.lower payload.action))
  strategyName :=
    ((truthy (connection.bind (·.strategyName))).or (truthy payload.strategy)).getD
      "tradingview_alert"
  price := payload.price
  stopLoss := payload.stopLoss
  takeProfit := payload.takeProfit
  positionSize := payload.quantity
  strength := 1
  source := "tradingview"
  metadata := ⟨payload.ticker, payload.action, payload.message, payload.interval, payload.exchange,
    payload.time⟩

end

/-! ### Which tickers are split where -/

theorem endsWith_iff (ticker quote : List Char) :
    endsWith ticker quote = true ↔ ∃ base, base ≠ [] ∧ base ++ quote = ticker := by
  simp only [endsWith, Bool.and_eq_true, List.isSuffixOf_iff_suffix, decide_eq_true_eq]
  constructor
  · rintro ⟨⟨base, rfl⟩, hlength⟩
    refine ⟨base, ?_, rfl⟩
    rintro rfl
    simp at hlength
  · rintro ⟨base, hbase, rfl⟩
    refine ⟨List.suffix_append base quote, ?_⟩
    have := List.length_pos_of_ne_nil hbase
    simp only [List.length_append]
    omega

theorem endsWith_append_of_getLast?_ne (base : List Char) {quote other : List Char}
    (hquote : quote ≠ []) (hother : other ≠ []) (h : other.getLast? ≠ quote.getLast?) :
    endsWith (base ++ quote) other = false := by
  rw [← Bool.not_eq_true, endsWith_iff]
  rintro ⟨rest, -, heq⟩
  have hlast := congrArg List.getLast? heq
  rw [List.getLast?_append_of_ne_nil _ hother, List.getLast?_append_of_ne_nil _ hquote] at hlast
  exact h hlast

/-- A quote currency is found in a ticker that ends in it, if none before it is. -/
theorem splitQuote_append {base : List Char} (hbase : base ≠ []) {before after : List String}
    {quote : String} (hlist : quoteCurrencies = before ++ quote :: after)
    (hbefore : ∀ other ∈ before, endsWith (base ++ quote.toList) other.toList = false) :
    splitQuote (base ++ quote.toList) = some (String.ofList base ++ "/" ++ quote) := by
  have hends : endsWith (base ++ quote.toList) quote.toList = true :=
    (endsWith_iff _ _).mpr ⟨base, hbase, rfl⟩
  have hfind : quoteCurrencies.find? (fun other => endsWith (base ++ quote.toList) other.toList) =
      some quote := by
    rw [List.find?_eq_some_iff_append]
    exact ⟨hends, before, after, hlist, fun other hother => by simp [hbefore other hother]⟩
  rw [splitQuote, hfind, Option.map_some, List.length_append, Nat.add_sub_cancel,
    List.take_left]

/-- The quote currencies that no other one ends: all of them but BUSD, which USD does. -/
def recoveredQuotes : List String := ["USDT", "USD", "EUR", "GBP", "BTC", "ETH"]

theorem splitQuote_of_recovered {base : List Char} (hbase : base ≠ []) {quote : String}
    (hquote : quote ∈ recoveredQuotes) :
    splitQuote (base ++ quote.toList) = some (String.ofList base ++ "/" ++ quote) := by
  -- each of them ends in a letter of its own
  have hlast : ∀ quote ∈ recoveredQuotes, ∀ other ∈ recoveredQuotes, other ≠ quote →
      other.toList ≠ [] ∧ other.toList.getLast? ≠ quote.toList.getLast? := by decide
  have hne : ∀ quote ∈ recoveredQuotes, quote.toList ≠ [] := by decide
  obtain ⟨before, after, hlist⟩ := List.append_of_mem hquote
  have hnodup : recoveredQuotes.Nodup := by decide
  refine @splitQuote_append base hbase before (after ++ ["BUSD"]) quote ?_ ?_
  · rw [← List.cons_append, ← List.append_assoc, ← hlist]
    rfl
  · intro other hother
    have hmem : other ∈ recoveredQuotes := by simp [hlist, hother]
    have hother_ne : other ≠ quote := by
      rintro rfl
      rw [hlist, List.nodup_append] at hnodup
      exact hnodup.2.2 other hother other (by simp) rfl
    obtain ⟨hnil, hchar⟩ := hlast quote hquote other hmem hother_ne
    exact endsWith_append_of_getLast?_ne base (hne quote hquote) hnil hchar

end TradeStream.TradingView
