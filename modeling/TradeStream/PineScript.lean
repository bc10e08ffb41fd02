import TradeStream.PineExpression
import TradeStream.TradingViewModels

/-! The payloads of the alerts in the Pine Scripts that the TradingView integration
generates, and the model that reads them. -/
namespace TradeStream.TradingView
open TradeStream.JsonText
open TradeStream.PineExpression (Escapes Names Mode Reader apostrophe)

/-- The webhook's address only stands in comments of the script. -/
structure PineScriptConfig where
  strategyName : String
  ticker : Option String
  includeStopLoss : Bool
  includeTakeProfit : Bool
  includeQuantity : Bool

/-- `str.replace` of one character. -/
def replaceChar (c : Char) (text' : List Char) (text : List Char) : List Char :=
  text.flatMap fun d => if d = c then text' else [d]

/-- `_escape_pine`. -/
def escapePine (text : List Char) : List Char :=
  replaceChar apostrophe [backslash, apostrophe]
    (replaceChar quote [backslash, quote] (replaceChar backslash [backslash, backslash] text))

/-- `_build_json_string`. -/
def buildJsonString (parts : List (List Char)) : List Char :=
  "\x7b\" + ".toList ++ List.intercalate ", ".toList parts ++ " + \"\x7d".toList

def tickerExpr (config : PineScriptConfig) : List Char :=
  match truthy config.ticker with
  | some ticker => quote :: (ticker.toList ++ [quote])
  | none => "syminfo.ticker".toList

inductive Template where
  | indicator
  | strategy
  deriving DecidableEq

/-- The two alerts of a script. -/
inductive Branch where
  | buy
  | sell

def Branch.action : Branch → String
  | .buy => "buy"
  | .sell => "sell"

/-- What the close is multiplied by. -/
def Branch.stopLoss : Branch → String
  | .buy => "0.98"
  | .sell => "1.02"

def Branch.takeProfit : Branch → String
  | .buy => "1.04"
  | .sell => "0.96"

variable (config : PineScriptConfig) (branch : Branch)

/-- The parts of a payload of `generate_webhook_indicator`. -/
def payloadParts : List (List Char) :=
  ["\"ticker\": \" + ".toList ++ tickerExpr config ++ " + \"".toList,
    "\"action\": \"".toList ++ branch.action.toList ++ "\"".toList,
    "\"strategy\": \"".toList ++ escapePine config.strategyName.toList ++ "\"".toList,
    "\"price\": \" + str.tostring(close) + \"".toList] ++
  (if config.includeStopLoss then
    ["\"stoploss\": \" + str.tostring(close * ".toList ++ branch.stopLoss.toList ++
      ") + \"".toList] else []) ++
  (if config.includeTakeProfit then
    ["\"takeprofit\": \" + str.tostring(close * ".toList ++ branch.takeProfit.toList ++
      ") + \"".toList] else []) ++
  (if config.includeQuantity then ["\"quantity\": 1.0".toList] else []) ++
  ["\"interval\": \" + timeframe.period + \"".toList,
    "\"exchange\": \" + syminfo.prefix + \"".toList]

/-- What `buyPayload` and `sellPayload` are set to. -/
def indicatorPayload : List Char :=
  apostrophe :: buildJsonString (payloadParts config branch)

/-- What `buyMsg` and `sellMsg` of `generate_strategy_template` are set to. -/
def strategyPayload : List Char :=
  "'\x7b\"ticker\": \"' + ".toList ++ (tickerExpr config ++
    (" + '\", \"action\": \"".toList ++ branch.action.toList ++ "\", \"strategy\": \"".toList ++
      (escapePine config.strategyName.toList ++
        "\", \"price\": ' + str.tostring(close) + '\x7d'".toList)))

def payloadExpr : Template → List Char
  | .indicator => indicatorPayload config branch
  | .strategy => strategyPayload config branch

section
variable {N : Type} {numbers : NumberText N}

/-- A bar of a chart. -/
structure Bar (numbers : NumberText N) extends Names where
  ticker : String
  close : N
  lookup_ticker : lookup "syminfo.ticker".toList = some ticker.toList
  lookup_close : lookup "str.tostring(close)".toList = some (numbers.print close)

/-- The configured ticker, or the chart's. -/
def tickerOf (bar : Bar numbers) : String := (truthy config.ticker).getD bar.ticker

variable (pine : Escapes) (floats : FloatInput N)

/-- The text that an alert sends at a bar is read as an object with the action of the branch,
the ticker, the strategy and the close. -/
def Agrees (template : Template) (bar : Bar numbers) : Prop :=
  ∃ text fields payload,
    PineExpression.evaluate pine bar.toNames (payloadExpr config branch template) = some text ∧
    parse numbers (String.ofList text) = some (.obj fields) ∧
    validate floats fields = some payload ∧ payload.action = branch.action ∧
    payload.ticker = tickerOf config bar ∧ payload.strategy = some config.strategyName ∧
    payload.price = some bar.close

/-- A text that is the same in JSON. -/
def Clean (text : String) : Prop := escapes text.toList = 0

instance (text : String) : Decidable (Clean text) := inferInstanceAs (Decidable (_ = _))

end

/-! ### Escapes -/

/-- What `_escape_pine` makes of one character. -/
def pineEscape (c : Char) : List Char :=
  if c = backslash ∨ c = quote ∨ c = apostrophe then [backslash, c] else [c]

theorem escapePine_eq (text : List Char) : escapePine text = text.flatMap pineEscape := by
  unfold escapePine replaceChar
  rw [List.flatMap_assoc, List.flatMap_assoc]
  congr 1
  funext c
  -- what one replacement puts in is not replaced by the next
  by_cases hback : c = backslash
  · subst hback
    decide
  · by_cases hquote : c = quote
    · subst hquote
      decide
    · by_cases hapostrophe : c = apostrophe
      · subst hapostrophe
        decide
      · simp [pineEscape, hback, hquote, hapostrophe]

section
variable {pine : Escapes} {names : Names}

theorem run_pineEscape {delimiter : Char} (h : PineExpression.isDelimiter delimiter = true)
    (value : List Char) {c : Char} (hc : c ≠ '\n') :
    PineExpression.run pine names ⟨.literal delimiter, value⟩ (pineEscape c) =
      some ⟨.literal delimiter, value ++ [c]⟩ := by
  have hdelimiter : delimiter = quote ∨ delimiter = apostrophe := by
    simpa [PineExpression.isDelimiter] using h
  have hback : backslash ≠ delimiter := by
    rcases hdelimiter with rfl | rfl <;> decide
  rw [pineEscape]
  split_ifs with hspecial
  · -- the backslash opens an escape, which ends with the character itself
    have hescape : pine.unescape c = some c := by
      rcases hspecial with rfl | rfl | rfl
      · exact pine.unescape_backslash
      · exact pine.unescape_quote
      · exact pine.unescape_apostrophe
    have hopen : PineExpression.step pine names ⟨.literal delimiter, value⟩ backslash =
        some ⟨.escape delimiter, value⟩ := by
      simp only [PineExpression.step, show backslash ≠ '\n' by decide, hback, ↓reduceIte]
    have hclose : PineExpression.step pine names ⟨.escape delimiter, value⟩ c =
        some ⟨.literal delimiter, value ++ [c]⟩ := by
      simp only [PineExpression.step, hc, ↓reduceIte, hescape, Option.map_some]
    rw [PineExpression.run_cons, hopen, Option.bind_some, PineExpression.run_cons, hclose]
    rfl
  · simp only [not_or] at hspecial
    refine PineExpression.run_literal [c] value ?_
    rcases hdelimiter with rfl | rfl <;> simp [PineExpression.isPlain, hspecial, hc]

/-- In a literal of either kind an escaped text is the text. -/
theorem run_escapePine {delimiter : Char} (h : PineExpression.isDelimiter delimiter = true)
    {text : List Char} (hline : '\n' ∉ text) : ∀ value : List Char,
    PineExpression.run pine names ⟨.literal delimiter, value⟩ (escapePine text) =
      some ⟨.literal delimiter, value ++ text⟩ := by
  rw [escapePine_eq]
  induction text with
  | nil =>
    intro value
    rw [List.append_nil]
    rfl
  | cons c text ih =>
    intro value
    simp only [List.mem_cons, not_or] at hline
    rw [List.flatMap_cons, PineExpression.run_append,
      run_pineEscape h value (Ne.symm hline.1), Option.bind_some, ih hline.2, List.append_assoc]
    rfl

/-- Wherever an escaped text stands, its value has no more backslashes than the text. -/
theorem pineEscape_backslashes {s s' : Reader} {c : Char}
    (h : PineExpression.run pine names s (pineEscape c) = some s') :
    backslashes s'.value + s'.mode.escaping ≤
      backslashes s.value + s.mode.escaping + backslashes [c] := by
  rw [backslashes_cons]
  unfold pineEscape at h
  split_ifs at h with hspecial
  · rw [PineExpression.run_cons] at h
    obtain ⟨mid, hmid, hrun⟩ := Option.bind_eq_some_iff.mp h
    have hopen := PineExpression.step_backslash hmid
    rw [PineExpression.run_cons] at hrun
    obtain ⟨last, hlast, hnil⟩ := Option.bind_eq_some_iff.mp hrun
    cases hnil
    by_cases hback : c = backslash
    · subst hback
      have := PineExpression.step_backslash hlast
      rw [if_pos rfl]
      omega
    · have := PineExpression.step_other hback hlast
      rw [if_neg hback]
      omega
  · simp only [not_or] at hspecial
    rw [PineExpression.run_cons] at h
    obtain ⟨last, hlast, hnil⟩ := Option.bind_eq_some_iff.mp h
    cases hnil
    have := PineExpression.step_other hspecial.1 hlast
    omega

theorem escapePine_backslashes {text : List Char} : ∀ {s s' : Reader},
    PineExpression.run pine names s (escapePine text) = some s' →
    backslashes s'.value + s'.mode.escaping ≤
      backslashes s.value + s.mode.escaping + backslashes text := by
  rw [escapePine_eq]
  induction text with
  | nil =>
    intro s s' h
    cases h
    simp
  | cons c text ih =>
    intro s s' h
    rw [List.flatMap_cons] at h
    obtain ⟨mid, hmid, hrun⟩ := PineExpression.run_append_eq_some h
    have hfirst := pineEscape_backslashes hmid
    have hothers := ih hrun
    simp only [backslashes_cons c] at hfirst ⊢
    simp only [backslashes, List.count_nil] at *
    omega

end

/-! ### The payload of the strategy template -/

/-- What stands in the message between the ticker and the strategy's name. -/
def messageMiddle : List Char :=
  "\", \"action\": \"".toList ++ branch.action.toList ++ "\", \"strategy\": \"".toList

theorem strategyPayload_eq : strategyPayload config branch =
    (apostrophe :: ("\x7b\"ticker\": \"".toList ++ [apostrophe])) ++ (" + ".toList ++
      (tickerExpr config ++ (" + '".toList ++ (messageMiddle branch ++
        (escapePine config.strategyName.toList ++ ("\", \"price\": ".toList ++ ("' + s".toList ++
          ("tr.tostring(close) ".toList ++ (['+'] ++ ([' '] ++
            (apostrophe :: ("\x7d".toList ++ [apostrophe])))))))))))) := by
  rfl

theorem messageMiddle_plain :
    (messageMiddle branch).all (PineExpression.isPlain apostrophe) = true := by
  cases branch <;> rfl

/-- A text that JSON leaves as it is is left so by a literal in quotes. -/
theorem all_isPlain {text : List Char} (h : escapes text = 0) :
    text.all (PineExpression.isPlain quote) = true := by
  rw [List.all_eq_true]
  intro c hc
  have hspecial := escapes_eq_zero.mp h c hc
  have hne : ∀ x, isSpecial x = true → c ≠ x := by
    rintro x hx rfl
    exact absurd (hx.symm.trans hspecial) (by decide)
  simp [PineExpression.isPlain, hne quote (by decide), hne backslash (by decide),
    hne '\n' (by decide)]

section
variable {N : Type} {numbers : NumberText N} (pine : Escapes) (bar : Bar numbers)

/-- The ticker's expression, as far as the quote that opens the next literal. -/
theorem run_tickerExpr (hticker : escapes (tickerOf config bar).toList = 0) (value : List Char) :
    PineExpression.run pine bar.toNames ⟨.operand, value⟩ (tickerExpr config ++ " + '".toList) =
      some ⟨.literal apostrophe, value ++ (tickerOf config bar).toList⟩ := by
  unfold tickerExpr tickerOf at *
  cases hconfigured : truthy config.ticker with
  | some ticker =>
    simp only [hconfigured, Option.getD_some] at hticker ⊢
    have hstring := @PineExpression.run_string pine bar.toNames quote (by decide) ticker.toList
      (all_isPlain hticker) value
    rw [PineExpression.run_append, hstring]
    rfl
  | none =>
    simp only [Option.getD_none]
    have hopen : PineExpression.run pine bar.toNames ⟨.operand, value⟩ ['s'] =
        some ⟨.name ['s'], value⟩ := rfl
    have hname := @PineExpression.run_name pine bar.toNames "yminfo.ticker ".toList ['s'] value
      (by decide)
    have hplus : PineExpression.run pine bar.toNames
        ⟨.name (['s'] ++ "yminfo.ticker ".toList), value⟩ ['+'] =
          some ⟨.operand, value ++ bar.ticker.toList⟩ :=
      PineExpression.run_plus (show PineExpression.valueOf bar.toNames
        (['s'] ++ "yminfo.ticker ".toList) = some bar.ticker.toList from bar.lookup_ticker) value
    have hsplit : "syminfo.ticker".toList ++ " + '".toList =
        ['s'] ++ ("yminfo.ticker ".toList ++ (['+'] ++ " '".toList)) := rfl
    rw [hsplit, PineExpression.run_append, hopen, Option.bind_some, PineExpression.run_append,
      hname, Option.bind_some, PineExpression.run_append, hplus]
    rfl

/-- The price and the end of the message. -/
def messageEnd : List Char := numbers.print bar.close ++ "\x7d".toList

theorem run_price (value : List Char) :
    PineExpression.run pine bar.toNames ⟨.literal apostrophe, value⟩
      ("' + s".toList ++ ("tr.tostring(close) ".toList ++ (['+'] ++ ([' '] ++
        (apostrophe :: ("\x7d".toList ++ [apostrophe])))))) =
      some ⟨.after, value ++ messageEnd bar⟩ := by
  have hopen : PineExpression.run pine bar.toNames ⟨.literal apostrophe, value⟩ "' + s".toList =
      some ⟨.name ['s'], value⟩ := rfl
  have hname := @PineExpression.run_name pine bar.toNames "tr.tostring(close) ".toList ['s'] value
    (by decide)
  have hplus : PineExpression.run pine bar.toNames
      ⟨.name (['s'] ++ "tr.tostring(close) ".toList), value⟩ ['+'] =
        some ⟨.operand, value ++ numbers.print bar.close⟩ :=
    PineExpression.run_plus (show PineExpression.valueOf bar.toNames
      (['s'] ++ "tr.tostring(close) ".toList) = some (numbers.print bar.close) from
        bar.lookup_close) value
  have hspace (value : List Char) : PineExpression.run pine bar.toNames ⟨.operand, value⟩ [' '] =
      some ⟨.operand, value⟩ := rfl
  have hend (value : List Char) := @PineExpression.run_string pine bar.toNames apostrophe
    (by decide) "\x7d".toList (by decide) value
  rw [PineExpression.run_append, hopen, Option.bind_some, PineExpression.run_append, hname,
    Option.bind_some, PineExpression.run_append, hplus, Option.bind_some,
    PineExpression.run_append, hspace, Option.bind_some, hend, messageEnd, List.append_assoc]

/-- The message that the strategy template sends. -/
def message : List Char :=
  "\x7b\"ticker\": \"".toList ++ ((tickerOf config bar).toList ++ (messageMiddle branch ++
    (config.strategyName.toList ++ ("\", \"price\": ".toList ++ messageEnd bar))))

theorem evaluate_strategyPayload (hticker : escapes (tickerOf config bar).toList = 0)
    (hname : '\n' ∉ config.strategyName.toList) :
    PineExpression.evaluate pine bar.toNames (strategyPayload config branch) =
      some (message config branch bar) := by
  have hstart := @PineExpression.run_string pine bar.toNames apostrophe (by decide)
    "\x7b\"ticker\": \"".toList (by decide) []
  have hplus (value : List Char) : PineExpression.run pine bar.toNames ⟨.after, value⟩
      " + ".toList = some ⟨.operand, value⟩ := rfl
  have hmiddle (value : List Char) := @PineExpression.run_literal pine bar.toNames apostrophe
    (messageMiddle branch) value (messageMiddle_plain branch)
  have hescaped (value : List Char) := @run_escapePine pine bar.toNames apostrophe (by decide)
    config.strategyName.toList hname value
  have hkey (value : List Char) := @PineExpression.run_literal pine bar.toNames apostrophe
    "\", \"price\": ".toList value (by decide)
  have htail (value : List Char) := PineExpression.run_trans (hescaped value)
    (PineExpression.run_trans (hkey _) (run_price pine bar _))
  have hticker' := run_tickerExpr config pine bar hticker "\x7b\"ticker\": \"".toList
  have hmessage : "\x7b\"ticker\": \"".toList ++ (tickerOf config bar).toList ++
      messageMiddle branch ++ config.strategyName.toList ++ "\", \"price\": ".toList ++
      messageEnd bar = message config branch bar := by
    unfold message
    simp only [List.append_assoc]
  have hrun : PineExpression.run pine bar.toNames ⟨.operand, []⟩ (strategyPayload config branch) =
      some ⟨.after, message config branch bar⟩ := by
    rw [strategyPayload_eq, ← List.append_assoc (tickerExpr config), ← hmessage]
    exact PineExpression.run_trans hstart (PineExpression.run_trans (hplus _)
      (PineExpression.run_trans hticker' (PineExpression.run_trans (hmiddle _) (htail _))))
  rw [PineExpression.evaluate, hrun]
  rfl

/-- A payload has a backslash for every two of the ticker and every one of the name. -/
theorem strategyPayload_backslashes {text : List Char}
    (h : PineExpression.evaluate pine bar.toNames (strategyPayload config branch) = some text) :
    2 * backslashes text ≤
      backslashes (tickerExpr config) + 2 * backslashes config.strategyName.toList := by
  obtain ⟨last, hrun, hfinish⟩ := Option.bind_eq_some_iff.mp h
  unfold strategyPayload at hrun
  -- the reader's state at the end of each part; only the ticker and the name add backslashes
  obtain ⟨s₁, h₁, hrun⟩ := PineExpression.run_append_eq_some hrun
  obtain ⟨s₂, h₂, hrun⟩ := PineExpression.run_append_eq_some hrun
  obtain ⟨s₃, h₃, hrun⟩ := PineExpression.run_append_eq_some hrun
  obtain ⟨s₄, h₄, h₅⟩ := PineExpression.run_append_eq_some hrun
  have hstart := PineExpression.run_plain (by simp) rfl h₁
  have hticker := PineExpression.run_backslashes h₂
  have hmiddle := PineExpression.run_plain (by simp) (by cases branch <;> rfl) h₃
  have hname := escapePine_backslashes h₄
  have hend := PineExpression.run_plain (by simp) rfl h₅
  have hvalue := PineExpression.finish_backslashes hfinish
  have hnil : backslashes [] = 0 := rfl
  simp only [hnil] at hstart
  omega

theorem backslashes_le_escapes (text : List Char) : backslashes text ≤ escapes text := by
  refine List.countP_mono_left fun c _ hc => ?_
  simp [isSpecial, beq_iff_eq.mp hc]

/-- Where there are no more escapes than backslashes, nothing else is escaped. -/
theorem eq_backslash_of_escapes : ∀ {text : List Char}, escapes text = backslashes text →
    ∀ c ∈ text, isSpecial c = true → c = backslash
  | d :: text, h, c, hc, hspecial => by
    have htail := backslashes_le_escapes text
    rw [escapes_cons, backslashes_cons] at h
    have hd : isSpecial d = true → d = backslash := by
      intro hspecial
      by_contra hback
      rw [if_pos hspecial, if_neg hback] at h
      omega
    rcases List.mem_cons.mp hc with rfl | hc
    · exact hd hspecial
    · refine eq_backslash_of_escapes ?_ c hc hspecial
      split_ifs at h with hdspecial hback hback
      · omega
      · exact absurd (hd hdspecial) hback
      · exact absurd (by rw [hback]; decide) hdspecial
      · omega

theorem tickerExpr_backslashes :
    backslashes (tickerExpr config) ≤ escapes (tickerOf config bar).toList := by
  unfold tickerExpr tickerOf
  cases truthy config.ticker with
  | some ticker =>
    have hquotes :
        backslashes (quote :: (ticker.toList ++ [quote])) = backslashes ticker.toList := by
      simp [backslashes, quote, backslash]
    simpa only [hquotes, Option.getD_some] using backslashes_le_escapes ticker.toList
  | none =>
    have hname : backslashes "syminfo.ticker".toList = 0 := rfl
    simp only [hname, Nat.zero_le]

theorem eq_str_of_asString {v : Json N} {text : String} (h : asString v = some text) :
    v = .str text := by
  unfold asString at h
  split at h
  · cases h
    rfl
  · cases h

theorem eq_str_of_optional {v : Option (Json N)} {text : String}
    (h : optional asString v = some (some text)) : v = some (.str text) := by
  unfold optional at h
  split at h
  · cases h
  · cases h
  · obtain ⟨text', htext, heq⟩ := Option.map_eq_some_iff.mp h
    cases heq
    rw [eq_str_of_asString htext]

/-- The texts of a payload are fields of the object. -/
theorem fields_of_validate {floats : FloatInput N} {fields : List (String × Json N)}
    {payload : WebhookPayload N} (h : validate floats fields = some payload) :
    field fields "ticker" = some (.str payload.ticker) ∧
      ∀ strategy, payload.strategy = some strategy →
        field fields "strategy" = some (.str strategy) := by
  simp only [validate, Option.bind_eq_bind, Option.bind_eq_some_iff, Option.pure_def,
    Option.some.injEq] at h
  obtain ⟨ticker, ⟨v, hv, hticker⟩, -, -, -, -, -, -, -, -, -, -, strategy, hstrategy, -, -, -, -,
    -, -, -, -, rfl⟩ := h
  rw [hv, eq_str_of_asString hticker]
  refine ⟨rfl, fun text htext => ?_⟩
  simp only at htext
  rw [htext] at hstrategy
  exact eq_str_of_optional hstrategy

/-- If the payload is read as the configuration says, then the ticker has nothing that is
escaped, and the name nothing but backslashes. -/
theorem escapes_of_agrees {floats : FloatInput N}
    (h : Agrees config branch pine floats .strategy bar) :
    escapes (tickerOf config bar).toList = 0 ∧
      escapes config.strategyName.toList = backslashes config.strategyName.toList := by
  -- the two fields need more backslashes than the message has, unless nothing is escaped
  obtain ⟨text, fields, payload, heval, hparse, hvalidate, -, hticker, hstrategy, -⟩ := h
  obtain ⟨hlookup, hlookup'⟩ := fields_of_validate hvalidate
  have htexts := textEscapes_add_le_of_lookup (by decide) hlookup (hlookup' _ hstrategy)
  have hpays := parse_pays numbers hparse
  have hmessage := strategyPayload_backslashes config branch pine bar heval
  have hexpr := tickerExpr_backslashes config bar
  have hname := backslashes_le_escapes config.strategyName.toList
  rw [fieldEscapes_reverse, hticker] at htexts
  rw [String.toList_ofList] at hpays
  simp only [textEscapes] at htexts
  omega

/-! ### The message as JSON -/

/-- What the message is meant to be. -/
def messageFields : List (String × Json N) :=
  [("ticker", .str (tickerOf config bar)), ("action", .str branch.action),
    ("strategy", .str config.strategyName), ("price", .num bar.close)]

/-- The message from the strategy's name on is left as it is. -/
theorem message_eq (hticker : escapes (tickerOf config bar).toList = 0) :
    message config branch bar = '\x7b' :: (separator true ++ (quoted false "ticker" ++ ':' :: ' ' ::
      (quoted false (tickerOf config bar) ++ (separator false ++ (quoted false "action" ++
        ':' :: ' ' :: (quoted false branch.action ++ (separator false ++
          (quoted false "strategy" ++ ':' :: ' ' :: (quote :: (config.strategyName.toList ++
            quote :: fieldChars numbers false false [("price", .num bar.close)])))))))))) := by
  have hkey (key : String) (h : escapes key.toList = 0) :
      quoted false key = quote :: (key.toList ++ [quote]) := by
    rw [quoted, flatMap_escape h]
  have haction : escapes branch.action.toList = 0 := by
    cases branch <;> simp [Branch.action, escapes, isSpecial, quote, backslash]
  have hkeys : quoted false "ticker" = quote :: ("ticker".toList ++ [quote]) ∧
      quoted false "action" = quote :: ("action".toList ++ [quote]) ∧
      quoted false "strategy" = quote :: ("strategy".toList ++ [quote]) ∧
      quoted false "price" = quote :: ("price".toList ++ [quote]) := by
    refine ⟨hkey _ ?_, hkey _ ?_, hkey _ ?_, hkey _ ?_⟩ <;>
      simp [escapes, isSpecial, quote, backslash]
  unfold message messageMiddle messageEnd
  simp only [hkey _ hticker, hkey _ haction, hkeys.1, hkeys.2.1, hkeys.2.2.1, hkeys.2.2.2,
    fieldChars, chars, separator]
  simp [quote]

theorem message_eq_chars (hticker : escapes (tickerOf config bar).toList = 0)
    (hname : escapes config.strategyName.toList = 0) :
    message config branch bar = chars numbers false (.obj (messageFields config branch bar)) := by
  rw [message_eq config branch bar hticker]
  simp only [messageFields, chars, fieldChars, quoted, flatMap_escape hname, List.append_assoc,
    List.cons_append, List.nil_append]

theorem agrees_of_clean (floats : FloatInput N)
    (hticker : escapes (tickerOf config bar).toList = 0)
    (hname : escapes config.strategyName.toList = 0) :
    Agrees config branch pine floats .strategy bar := by
  have hline : '\n' ∉ config.strategyName.toList := by
    intro hmem
    exact absurd (escapes_eq_zero.mp hname _ hmem) (by decide)
  have heval := evaluate_strategyPayload config branch pine bar hticker hline
  have hparse := parse_print numbers false (.obj (messageFields config branch bar))
  rw [print, ← message_eq_chars config branch bar hticker hname] at hparse
  have hvalidate : validate floats (messageFields config branch bar) =
      some ⟨tickerOf config bar, branch.action, some bar.close, none, none, none,
        some config.strategyName, none, none, none, none⟩ := by
    simp [validate, field, messageFields, List.lookup, optional, asString, asFloat]
  exact ⟨_, _, _, heval, hparse, hvalidate, rfl, rfl, rfl, rfl⟩

/-- After a string that ends at the quote before `price` there is no further entry. -/
theorem readFields_after_key {fuel fuel' : ℕ} {v rest : List Char} {close : N}
    (h : readChars fuel' (fieldChars numbers false false [("price", .num close)]) =
      some (v, rest)) : readFields numbers fuel false rest = none := by
  have hcomma : [',', ' '].flatMap (escape false) = [',', ' '] :=
    flatMap_escape (by simp [escapes, isSpecial, quote, backslash])
  have hkey : "price".toList.flatMap (escape false) = 'p' :: "rice".toList :=
    flatMap_escape (by simp [escapes, isSpecial, quote, backslash])
  obtain ⟨text, htext⟩ : ∃ text, fieldChars numbers false false [("price", .num close)] =
      [',', ' '].flatMap (escape false) ++ quote :: 'p' :: text := by
    rw [hcomma, fieldChars, quoted, hkey]
    exact ⟨_, rfl⟩
  rw [htext] at h
  obtain rfl := rest_of_readChars h
  have hskip : skip ('p' :: text) = 'p' :: text := skip_cons (by decide) text
  exact readFields_none numbers (by simp [hskip]) (by simp [hskip])

/-- With a backslash the name is read as another text, or nothing is read. -/
theorem field_strategy_ne (hticker : escapes (tickerOf config bar).toList = 0)
    (hquote : quote ∉ config.strategyName.toList) (hback : backslash ∈ config.strategyName.toList)
    {fields : List (String × Json N)}
    (h : parse numbers (String.ofList (message config branch bar)) = some (.obj fields)) :
    field fields "strategy" ≠ some (.str config.strategyName) := by
  have hmessage := message_eq config branch bar hticker
  -- the message is long enough to be the fuel for every part of it
  obtain ⟨fuel, hfuel, hprice⟩ : ∃ fuel, (message config branch bar).length = fuel + 5 ∧
      (fieldChars numbers false false [("price", .num bar.close)]).length ≤ fuel + 1 := by
    refine ⟨(message config branch bar).length - 5, ?_⟩
    rw [hmessage]
    simp only [List.length_cons, List.length_append]
    omega
  obtain ⟨rest, hobject⟩ := readValue_of_parse numbers h
  rw [String.toList_ofList, hfuel, hmessage, readValue_brace] at hobject
  obtain ⟨⟨all, _⟩, hticker', heq⟩ := Option.map_eq_some_iff.mp hobject
  cases heq
  obtain ⟨afterTicker, haction, rfl⟩ := readFields_text numbers hticker'
  obtain ⟨afterAction, hstrategy, rfl⟩ := readFields_text numbers haction
  obtain ⟨v, mid, afterStrategy, hvalue, hread, rfl⟩ := readFields_field_eq_some numbers hstrategy
  have hstring : ∃ name, readString (config.strategyName.toList ++ quote :: fieldChars numbers
      false false [("price", .num bar.close)]) = some (name, mid) ∧ v = .str name := by
    rw [readValue_quote] at hvalue
    obtain ⟨⟨name, mid'⟩, hname, heq⟩ := Option.map_eq_some_iff.mp hvalue
    cases heq
    exact ⟨name, hname, rfl⟩
  obtain ⟨name, hname, rfl⟩ := hstring
  rcases readString_append hquote hback hname with ⟨rfl, hne⟩ | ⟨fuel', v', hswallowed⟩
  · -- the string ends where the name does, and the price is read as it is meant
    have hrest := readFields_fieldChars numbers false [("price", .num bar.close)] (fuel + 1) false
      [] hprice
    rw [List.append_nil, hread] at hrest
    cases hrest
    rw [String.ofList_toList] at hne
    simpa [field, List.lookup] using hne
  · -- the quote after the name is part of it, and the one before `price` ends it
    rw [readFields_after_key hswallowed] at hread
    cases hread

/-! ### The payload of the indicator template -/

theorem indicatorPayload_eq : ∃ more, indicatorPayload config branch =
    [apostrophe] ++ ("\x7b\" + \"ticker\": \" + ".toList ++ more) := by
  have hinner : ∀ (a b : List Char) (parts : List (List Char)),
      ∃ more, List.intercalate ", ".toList ((a ++ b) :: parts) = a ++ more := by
    intro a b parts
    cases parts with
    | nil => exact ⟨b, by simp⟩
    | cons part parts =>
      refine ⟨b ++ (", ".toList ++ List.intercalate ", ".toList (part :: parts)), ?_⟩
      rw [List.intercalate_cons_cons, List.append_assoc, List.append_assoc]
  unfold indicatorPayload buildJsonString payloadParts
  rw [List.append_assoc "\"ticker\": \" + ".toList]
  simp only [List.cons_append]
  obtain ⟨more, hmore⟩ := hinner "\"ticker\": \" + ".toList _ _
  rw [hmore]
  refine ⟨more ++ " + \"\x7d".toList, ?_⟩
  simp

/-- The literal that opens the payload goes on where it is meant to be closed. -/
theorem indicatorPayload_starts {text : List Char}
    (h : PineExpression.evaluate pine bar.toNames (indicatorPayload config branch) = some text) :
    "\x7b\" + \"ticker\": \" + ".toList <+: text := by
  obtain ⟨more, hmore⟩ := indicatorPayload_eq config branch
  obtain ⟨last, hrun, hfinish⟩ := Option.bind_eq_some_iff.mp h
  rw [hmore] at hrun
  obtain ⟨s₁, h₁, hrun⟩ := PineExpression.run_append_eq_some hrun
  obtain ⟨s₂, h₂, hrun⟩ := PineExpression.run_append_eq_some hrun
  have hopen : PineExpression.run pine bar.toNames ⟨.operand, []⟩ [apostrophe] =
      some ⟨.literal apostrophe, []⟩ := rfl
  cases hopen.symm.trans h₁
  have hliteral := @PineExpression.run_literal pine bar.toNames apostrophe
    "\x7b\" + \"ticker\": \" + ".toList [] (by decide)
  cases hliteral.symm.trans h₂
  exact (PineExpression.run_extends hrun).trans (PineExpression.finish_extends hfinish)

/-- Its first key is followed by a letter. -/
theorem parse_of_starts {text : List Char} (h : "\x7b\" + \"ticker\": \" + ".toList <+: text) :
    parse numbers (String.ofList text) = none := by
  obtain ⟨more, rfl⟩ := h
  have hplain : " + ".toList.flatMap (escape false) = " + ".toList :=
    flatMap_escape (by simp [escapes, isSpecial, quote, backslash])
  have hkey := readString_quoted false " + " ("ticker\": \" + ".toList ++ more)
  rw [hplain] at hkey
  have hread : readKey (quote :: (" + ".toList ++ quote ::
      ("ticker\": \" + ".toList ++ more))) = none := by
    have hskip : skip ("ticker\": \" + ".toList ++ more) = "ticker\": \" + ".toList ++ more :=
      skip_cons (by decide) _
    have hhead : ("ticker\": \" + ".toList ++ more).head? ≠ some ':' := by simp
    simp only [readKey, ↓reduceIte, hkey, hskip, hhead]
  have hvalue (fuel : ℕ) : readValue numbers (fuel + 2)
      ('\x7b' :: (quote :: (" + ".toList ++ quote :: ("ticker\": \" + ".toList ++ more)))) =
      none := by
    have hopen : (quote :: (" + ".toList ++ quote :: ("ticker\": \" + ".toList ++ more))).head? ≠
        some '\x7d' := by simp [quote]
    rw [readValue_brace]
    simp only [readFields, skip_cons (show JsonText.isSpace quote = false by decide), hopen,
      readSeparator, hread, ↓reduceIte, Option.map_none]
  have hsplit : "\x7b\" + \"ticker\": \" + ".toList ++ more = '\x7b' :: (quote :: (" + ".toList ++
      quote :: ("ticker\": \" + ".toList ++ more))) := rfl
  have hlength : ∃ fuel, ("\x7b\" + \"ticker\": \" + ".toList ++ more).length = fuel + 2 :=
    ⟨_, rfl⟩
  obtain ⟨fuel, hfuel⟩ := hlength
  rw [parse, String.toList_ofList, hfuel, hsplit, hvalue]

/-- The payload of the strategy template is read as the configuration says if and only if
neither the ticker nor the name has a quote, a backslash or a control character, that of the
indicator template never. -/
theorem payload_agrees_iff_clean (floats : FloatInput N) (template : Template) :
    Agrees config branch pine floats template bar ↔
      template = .strategy ∧ (∀ ticker, truthy config.ticker = some ticker → Clean ticker) ∧
        Clean config.strategyName := by
  have hticker : escapes (tickerOf config bar).toList = 0 ↔
      ∀ ticker, truthy config.ticker = some ticker → Clean ticker := by
    unfold tickerOf
    cases truthy config.ticker with
    | some ticker => simp [Clean]
    | none => simpa using bar.escapes_lookup _ _ bar.lookup_ticker
  rw [← hticker]
  constructor
  · intro h
    cases template with
    | indicator =>
      obtain ⟨text, fields, payload, heval, hparse, -⟩ := h
      rw [parse_of_starts (indicatorPayload_starts config branch pine bar heval)] at hparse
      cases hparse
    | strategy =>
      obtain ⟨hclean, hname⟩ := escapes_of_agrees config branch pine bar h
      refine ⟨rfl, hclean, ?_⟩
      by_contra hspecial
      -- only backslashes are left to escape, so that the name has no quote to end it
      have hback := eq_backslash_of_escapes hname
      have hquote : quote ∉ config.strategyName.toList :=
        fun hmem => absurd (hback _ hmem (by decide)) (by decide)
      have hline : '\n' ∉ config.strategyName.toList :=
        fun hmem => absurd (hback _ hmem (by decide)) (by decide)
      have hmem : backslash ∈ config.strategyName.toList := by
        rw [Clean, hname] at hspecial
        exact List.count_pos_iff.mp (Nat.pos_of_ne_zero hspecial)
      obtain ⟨text, fields, payload, heval, hparse, hvalidate, -, -, hstrategy, -⟩ := h
      rw [payloadExpr, evaluate_strategyPayload config branch pine bar hclean hline] at heval
      cases heval
      exact field_strategy_ne config branch bar hclean hquote hmem hparse
        ((fields_of_validate hvalidate).2 _ hstrategy)
  · rintro ⟨rfl, hclean, hname⟩
    exact agrees_of_clean config branch pine bar floats hclean hname

end

/-! ### A chart and two scripts -/

def pineEscapes : Escapes where
  unescape c :=
    if c = quote ∨ c = apostrophe ∨ c = backslash then some c
    else if c = 'n' then some '\n'
    else if c = 't' then some '\t'
    else none
  unescape_quote := by decide
  unescape_apostrophe := by decide
  unescape_backslash := by decide
  eq_backslash c h := by
    split_ifs at h with hsame
    · exact Option.some.inj h
    · exact absurd h (by decide)
    · exact absurd h (by decide)

def bitcoinBar : Bar integerText where
  lookup name :=
    if name = "syminfo.ticker".toList then some "BTCUSDT".toList
    else if name = "str.tostring(close)".toList then some "65000".toList
    else none
  escapes_lookup name text h := by
    split_ifs at h <;> cases h <;> simp [escapes, isSpecial, quote, backslash]
  ticker := "BTCUSDT"
  close := 65000
  lookup_ticker := by decide
  lookup_close := by decide

def integerFloats : FloatInput ℤ where
  ofBool value := if value then 1 else 0
  ofText _ := none

/-- The indicator of an ordinary configuration, and the strategy template for a name with a
quote in it. -/
theorem scripts_disagree :
    ¬ Agrees ⟨"Momentum", none, true, true, true⟩ .buy pineEscapes integerFloats .indicator
        bitcoinBar ∧
      ¬ Agrees ⟨"the \"best\"", none, true, true, true⟩ .buy pineEscapes integerFloats .strategy
        bitcoinBar := by
  constructor
  · rintro ⟨text, fields, payload, heval, hparse, -⟩
    rw [parse_of_starts (indicatorPayload_starts _ _ _ _ heval)] at hparse
    cases hparse
  · intro h
    have hname := (escapes_of_agrees _ _ _ _ h).2
    simp [escapes, backslashes, isSpecial, quote, backslash] at hname

end TradeStream.TradingView
