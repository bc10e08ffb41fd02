import TradeStream.TradingViewModels

/-! `TradingViewAlertPublisher.format_payload`, and signals that are sent as an alert and
read back. -/
namespace TradeStream.TradingView
open TradeStream.JsonText

/-- The fields of a signal, `none` where one is missing or `None`; a missing strategy
name has a default, which `None` has not. -/
structure InternalSignal (N : Type) where
  signalType : Option String
  instrument : Option String
  price : Option N
  strategyName : Option (Option String)
  createdAt : Option String
  stopLoss : Option N
  takeProfit : Option N
  positionSize : Option N

def instrumentToTicker (instrument : String) : String :=
  String.ofList (instrument.toList.filter (· ≠ '/'))

section
variable {N : Type} (case : CaseMapping)

def actionOf (signalType : String) : String :=
  match signalType with
  | "BUY" => "buy"
  | "SELL" => "sell"
  | "STOP_LOSS" => "close"
  | "HOLD" => "hold"
  | signalType => case.lower signalType

def jsonOfOption {A : Type} (convert : A → Json N) : Option A → Json N
  | none => .null
  | some value => convert value

/-- A field that is written only where there is a value. -/
def fieldIfSome (key : String) (value : Option N) : List (String × Json N) :=
  (value.map fun n => (key, Json.num n)).toList

def formatPayload (now : ℤ) (signal : InternalSignal N) : List (String × Json N) :=
  [("ticker", .str (instrumentToTicker (signal.instrument.getD ""))),
    ("action", .str (actionOf case (case.upper (signal.signalType.getD "")))),
    ("price", jsonOfOption .num signal.price),
    ("strategy", jsonOfOption .str (signal.strategyName.getD (some "tradestream"))),
    ("time", .str ((truthy signal.createdAt).getD (toString now)))] ++
    fieldIfSome "stoploss" signal.stopLoss ++ fieldIfSome "takeprofit" signal.takeProfit ++
    fieldIfSome "quantity" signal.positionSize

variable (floats : FloatInput N)

theorem field_append_fieldIfSome_self {fields : List (String × Json N)} {key : String}
    (h : field fields key = none) (value : Option N) :
    field (fields ++ fieldIfSome key value) key = value.map .num := by
  cases value with
  | none => simpa [fieldIfSome] using h
  | some n => simp [field, fieldIfSome]

theorem field_append_fieldIfSome_of_ne (fields : List (String × Json N)) {key key' : String}
    (h : key' ≠ key) (value : Option N) :
    field (fields ++ fieldIfSome key value) key' = field fields key' := by
  cases value with
  | none => simp [fieldIfSome]
  | some n => simp [field, fieldIfSome, List.lookup, beq_eq_false_iff_ne.mpr h]

theorem optional_asFloat_map_num (value : Option N) :
    optional (asFloat floats) (value.map .num) = some value := by
  cases value <;> rfl

theorem optional_asFloat_jsonOfOption (value : Option N) :
    optional (asFloat floats) (some (jsonOfOption .num value)) = some value := by
  cases value <;> rfl

theorem optional_asString_jsonOfOption (value : Option String) :
    optional (N := N) asString (some (jsonOfOption .str value)) = some value := by
  cases value <;> rfl

/-- The fields of a payload that are always written. -/
def writtenFields (now : ℤ) (signal : InternalSignal N) : List (String × Json N) :=
  [("ticker", .str (instrumentToTicker (signal.instrument.getD ""))),
    ("action", .str (actionOf case (case.upper (signal.signalType.getD "")))),
    ("price", jsonOfOption .num signal.price),
    ("strategy", jsonOfOption .str (signal.strategyName.getD (some "tradestream"))),
    ("time", .str ((truthy signal.createdAt).getD (toString now)))]

section
variable (now : ℤ) (signal : InternalSignal N)

theorem field_formatPayload {key : String} (h : key ∉ ["stoploss", "takeprofit", "quantity"]) :
    field (formatPayload case now signal) key = field (writtenFields case now signal) key := by
  simp only [List.mem_cons, List.not_mem_nil, or_false, not_or] at h
  rw [formatPayload, field_append_fieldIfSome_of_ne _ h.2.2,
    field_append_fieldIfSome_of_ne _ h.2.1, field_append_fieldIfSome_of_ne _ h.1]
  rfl

theorem field_stoploss : field (formatPayload case now signal) "stoploss" =
    signal.stopLoss.map .num := by
  rw [formatPayload, field_append_fieldIfSome_of_ne _ (by decide),
    field_append_fieldIfSome_of_ne _ (by decide)]
  exact field_append_fieldIfSome_self rfl _

theorem field_takeprofit : field (formatPayload case now signal) "takeprofit" =
    signal.takeProfit.map .num := by
  rw [formatPayload, field_append_fieldIfSome_of_ne _ (by decide)]
  apply field_append_fieldIfSome_self
  rw [field_append_fieldIfSome_of_ne _ (by decide)]
  rfl

theorem field_quantity : field (formatPayload case now signal) "quantity" =
    signal.positionSize.map .num := by
  rw [formatPayload]
  apply field_append_fieldIfSome_self
  rw [field_append_fieldIfSome_of_ne _ (by decide), field_append_fieldIfSome_of_ne _ (by decide)]
  rfl

end

/-- A payload that was sent is accepted, with the fields of the signal. -/
theorem validate_formatPayload (now : ℤ) (signal : InternalSignal N) :
    validate floats (formatPayload case now signal) = some {
      ticker := instrumentToTicker (signal.instrument.getD "")
      action := actionOf case (case.upper (signal.signalType.getD ""))
      price := signal.price
      stopLoss := signal.stopLoss
      takeProfit := signal.takeProfit
      quantity := signal.positionSize
      strategy := signal.strategyName.getD (some "tradestream")
      message := none
      time := some ((truthy signal.createdAt).getD (toString now))
      interval := none
      exchange := none } := by
  have hprice : optional (asFloat floats) (field (formatPayload case now signal) "price") =
      some signal.price := by
    rw [field_formatPayload case now signal (by decide)]
    exact optional_asFloat_jsonOfOption floats signal.price
  have hstrategy : optional asString (field (formatPayload case now signal) "strategy") =
      some (signal.strategyName.getD (some "tradestream")) := by
    rw [field_formatPayload case now signal (by decide)]
    exact optional_asString_jsonOfOption _
  have hstop : field (formatPayload case now signal) "stop_loss" = none :=
    field_formatPayload case now signal (by decide)
  have htake : field (formatPayload case now signal) "take_profit" = none :=
    field_formatPayload case now signal (by decide)
  -- the names under which the sender writes are the aliases, looked up first
  rw [validate, hprice, hstrategy, field_stoploss, field_takeprofit, field_quantity, hstop, htake,
    Option.or_none, Option.or_none, optional_asFloat_map_num, optional_asFloat_map_num,
    optional_asFloat_map_num]
  simp (disch := decide) only [field_formatPayload]
  rfl

end

/-! ### The way there and back -/

/-- The codes of which an instrument is made. -/
def IsCode (text : String) : Prop :=
  text ≠ "" ∧ ∀ c ∈ text.toList, c.isUpper = true ∨ c.isDigit = true

theorem IsCode.toList_ne_nil {text : String} (h : IsCode text) : text.toList ≠ [] := by
  intro hnil
  exact h.1 (String.toList_eq_nil_iff.mp hnil)

section
variable (case : CaseMapping)

theorem upper_char_facts {c : Char} (h : c.isUpper = true ∨ c.isDigit = true) :
    c.toNat < 128 ∧ c.toUpper = c ∧ c ≠ '/' ∧ c ≠ ':' := by
  have hn : 65 ≤ c.toNat ∧ c.toNat ≤ 90 ∨ 48 ≤ c.toNat ∧ c.toNat ≤ 57 := by
    simpa [Char.isUpper, Char.isDigit, UInt32.le_iff_toNat_le] using h
  have hne : ∀ other : Char, c.toNat ≠ other.toNat → c ≠ other := by
    rintro other hother rfl
    exact hother rfl
  refine ⟨by omega, ?_, hne _ ?_, hne _ ?_⟩
  · rw [Char.toUpper, dif_neg]
    rintro ⟨hlow, -⟩
    have hlow : 97 ≤ c.toNat := UInt32.le_iff_toNat_le.mp hlow
    omega
  · change c.toNat ≠ 47
    omega
  · change c.toNat ≠ 58
    omega

theorem upper_of_upper {text : String}
    (h : ∀ c ∈ text.toList, c.isUpper = true ∨ c.isDigit = true) : case.upper text = text := by
  rw [case.upper_ascii text fun c hc => (upper_char_facts (h c hc)).1,
    List.map_congr_left fun c hc => (upper_char_facts (h c hc)).2.1, List.map_id',
    String.ofList_toList]

theorem instrumentToTicker_of_codes {base quote : String} (hbase : IsCode base)
    (hquote : IsCode quote) :
    (instrumentToTicker (base ++ "/" ++ quote)).toList = base.toList ++ quote.toList := by
  have hkept : ∀ {text : String}, IsCode text → text.toList.filter (· ≠ '/') = text.toList := by
    intro text h
    rw [List.filter_eq_self]
    intro c hc
    simpa using (upper_char_facts (h.2 c hc)).2.2.1
  rw [instrumentToTicker, String.toList_ofList, String.toList_append, String.toList_append,
    List.filter_append, List.filter_append, hkept hbase, hkept hquote]
  simp

/-- The receiver's ticker of an instrument is the one that the sender made. -/
theorem normalizeTicker_instrumentToTicker {base quote : String} (hbase : IsCode base)
    (hquote : IsCode quote) :
    normalizeTicker case (instrumentToTicker (base ++ "/" ++ quote)) =
      (splitQuote (base.toList ++ quote.toList)).getD
        (String.ofList (base.toList ++ quote.toList)) := by
  have hlist := instrumentToTicker_of_codes hbase hquote
  have hcodes : ∀ c ∈ (instrumentToTicker (base ++ "/" ++ quote)).toList,
      c.isUpper = true ∨ c.isDigit = true := by
    intro c hc
    rw [hlist, List.mem_append] at hc
    exact hc.elim (hbase.2 c) (hquote.2 c)
  have hcolon : ':' ∉ (instrumentToTicker (base ++ "/" ++ quote)).toList :=
    fun hc => (upper_char_facts (hcodes _ hc)).2.2.2 rfl
  rw [normalizeTicker, stripExchange, if_neg hcolon, upper_of_upper case hcodes, hlist]
  rw [← String.ofList_toList (s := instrumentToTicker (base ++ "/" ++ quote)), hlist]

/-- The signal types that the two sides name alike. -/
def exchangedTypes : List String := ["BUY", "SELL", "HOLD"]

theorem signalTypeOf_actionOf {signalType : String} (h : signalType ∈ exchangedTypes) :
    signalTypeOf case [] (strip (case.lower (actionOf case (case.upper signalType)))) =
      signalType := by
  have hupper : ∀ text ∈ ["BUY", "SELL", "HOLD", "hold"],
      case.upper text = String.ofList (text.toList.map Char.toUpper) := by
    intro text htext
    apply case.upper_ascii
    revert text
    simp
  have hlower : ∀ text ∈ ["buy", "sell", "hold"],
      strip (case.lower text) = text := by
    intro text htext
    rw [case.lower_ascii]
    · revert text
      decide
    · revert text
      simp
  have hsame : ∀ text ∈ ["BUY", "SELL", "HOLD"],
      String.ofList (text.toList.map Char.toUpper) = text := by
    decide
  simp only [exchangedTypes, List.mem_cons, List.not_mem_nil, or_false] at h
  rcases h with rfl | rfl | rfl
  · rw [hupper _ (by simp), hsame _ (by simp), actionOf, hlower _ (by simp)]
    rfl
  · rw [hupper _ (by simp), hsame _ (by simp), actionOf, hlower _ (by simp)]
    rfl
  · rw [hupper _ (by simp), hsame _ (by simp), actionOf, hlower _ (by simp)]
    -- no action is called so, and the receiver takes the name itself
    change case.upper "hold" = "HOLD"
    rw [hupper _ (by simp)]
    rfl

variable {N : Type} (floats : FloatInput N)

/-- What the receiver makes of a signal that was sent to it. -/
def sentAndRead (now : ℤ) (signal : InternalSignal N) : Option (Signal N) :=
  (validate floats (formatPayload case now signal)).map fun payload =>
    payloadToSignal case payload none

/-- The signal is read back with the instrument, the type and the prices it was sent with. -/
def RoundTrips (now : ℤ) (signal : InternalSignal N) : Prop :=
  ∃ read, sentAndRead case floats now signal = some read ∧
    signal.instrument = some read.instrument ∧ signal.signalType = some read.signalType ∧
    read.price = signal.price ∧ read.stopLoss = signal.stopLoss ∧
    read.takeProfit = signal.takeProfit

/-- Only the instrument can be lost on the way. -/
theorem roundTrips_iff {now : ℤ} {signal : InternalSignal N} {base quote signalType : String}
    (hbase : IsCode base) (hquote : IsCode quote)
    (hinstrument : signal.instrument = some (base ++ "/" ++ quote))
    (htype : signal.signalType = some signalType) (hsent : signalType ∈ exchangedTypes) :
    RoundTrips case floats now signal ↔
      (splitQuote (base.toList ++ quote.toList)).getD
        (String.ofList (base.toList ++ quote.toList)) = base ++ "/" ++ quote := by
  have hread := normalizeTicker_instrumentToTicker case hbase hquote
  simp only [RoundTrips, sentAndRead, validate_formatPayload, Option.map_some, Option.some.injEq,
    exists_eq_left', payloadToSignal, hinstrument, htype, Option.getD_some, Option.map_none,
    Option.getD_none, signalTypeOf_actionOf case hsent, and_true, Option.bind_none]
  rw [truthy, Option.filter_none, Option.getD_none, hread]
  exact eq_comm

/-- A signal in one of the quote currencies that can be told apart is read back as it
was sent. -/
theorem roundTrips_of_recoveredQuote {now : ℤ} {signal : InternalSignal N}
    {base quote signalType : String} (hbase : IsCode base) (hquote : quote ∈ recoveredQuotes)
    (hinstrument : signal.instrument = some (base ++ "/" ++ quote))
    (htype : signal.signalType = some signalType) (hsent : signalType ∈ exchangedTypes) :
    RoundTrips case floats now signal := by
  have hcodes : ∀ quote ∈ recoveredQuotes, quote ≠ "" ∧
      ∀ c ∈ quote.toList, c.isUpper = true ∨ c.isDigit = true := by simp [recoveredQuotes]
  rw [roundTrips_iff case floats hbase (hcodes quote hquote) hinstrument htype hsent,
    splitQuote_of_recovered hbase.toList_ne_nil hquote, Option.getD_some, String.ofList_toList]

end

/-- ASCII's mapping, for every character. -/
def asciiCase : CaseMapping where
  upper text := String.ofList (text.toList.map Char.toUpper)
  lower text := String.ofList (text.toList.map Char.toLower)
  upper_ascii _ _ := rfl
  lower_ascii _ _ := rfl

def wholeNumbers : FloatInput ℤ where
  ofBool value := if value then 1 else 0
  ofText _ := none

def buySignal (instrument : String) : InternalSignal ℤ where
  signalType := some "BUY"
  instrument := some instrument
  price := some 50000
  strategyName := none
  createdAt := none
  stopLoss := some 0
  takeProfit := none
  positionSize := none

theorem euro_yen_not_read_back : ¬ RoundTrips asciiCase wholeNumbers 0 (buySignal "EUR/JPY") := by
  have hbase : IsCode "EUR" := by simp [IsCode]
  have hquote : IsCode "JPY" := by simp [IsCode]
  rw [roundTrips_iff asciiCase wholeNumbers hbase hquote rfl rfl (by decide)]
  decide

theorem bitcoin_dollar_read_back : RoundTrips asciiCase wholeNumbers 0 (buySignal "BTC/USD") :=
  @roundTrips_of_recoveredQuote asciiCase ℤ wholeNumbers 0 (buySignal "BTC/USD") "BTC" "USD" "BUY"
    (by simp [IsCode]) (by decide) rfl rfl (by decide)

end TradeStream.TradingView
