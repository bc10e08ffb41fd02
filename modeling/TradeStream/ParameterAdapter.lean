import TradeStream.InsertionDict
import TradeStream.JsonText
import TradeStream.RoundDecimal
import TradeStream.Succession

/-! `ParameterAdapter` of the learning engine: how a regime scales the parameters of a
strategy, and the table `parameter_adaptations`, in which adaptations succeed one another or
are reverted. -/
namespace TradeStream.ParameterAdapter
open TradeStream.InsertionDict TradeStream.JsonText TradeStream.RoundDecimal
open TradeStream.Succession

abbrev Params := List (String × Json ℚ)

/-- The rules of one regime. -/
structure RegimeRules where
  multipliers : List (String × ℚ)
  description : Option String

/-- `DEFAULT_ADAPTATION_RULES`. -/
def defaultAdaptationRules : List (String × RegimeRules) :=
  [("volatile",
    ⟨[("stop_loss_multiplier", 15 / 10), ("take_profit_multiplier", 13 / 10),
      ("position_size_multiplier", 7 / 10), ("lookback_period_multiplier", 8 / 10)],
     some "Wider stops and smaller positions for volatile markets"⟩),
   ("quiet",
    ⟨[("stop_loss_multiplier", 7 / 10), ("take_profit_multiplier", 8 / 10),
      ("position_size_multiplier", 12 / 10), ("lookback_period_multiplier", 13 / 10)],
     some "Tighter stops and larger positions for quiet markets"⟩),
   ("trending_up",
    ⟨[("stop_loss_multiplier", 12 / 10), ("take_profit_multiplier", 15 / 10),
      ("position_size_multiplier", 11 / 10), ("lookback_period_multiplier", 1)],
     some "Extended targets with moderate stops for uptrends"⟩),
   ("trending_down",
    ⟨[("stop_loss_multiplier", 12 / 10), ("take_profit_multiplier", 15 / 10),
      ("position_size_multiplier", 9 / 10), ("lookback_period_multiplier", 1)],
     some "Extended targets with moderate stops for downtrends"⟩),
   ("ranging",
    ⟨[("stop_loss_multiplier", 9 / 10), ("take_profit_multiplier", 9 / 10),
      ("position_size_multiplier", 1), ("lookback_period_multiplier", 11 / 10)],
     some "Tighter targets suited for mean reversion in ranging markets"⟩)]

/-- `ADAPTABLE_KEYS`. -/
def adaptableKeys : List (String × String) :=
  [("stop_loss", "stop_loss_multiplier"), ("stop_loss_percent", "stop_loss_multiplier"),
   ("take_profit", "take_profit_multiplier"), ("take_profit_percent", "take_profit_multiplier"),
   ("position_size", "position_size_multiplier"),
   ("position_size_percent", "position_size_multiplier"),
   ("lookback_period", "lookback_period_multiplier"),
   ("lookback", "lookback_period_multiplier"), ("period", "lookback_period_multiplier"),
   ("window", "lookback_period_multiplier")]

structure RuleApplied where
  parameter : String
  originalValue : ℚ
  adaptedValue : ℚ
  multiplier : ℚ
  rule : String

/-- What `adapt_parameters` returns. A regime without rules has no instrument or description. -/
structure Adaptation where
  strategySpecId : String
  originalParameters : Params
  adaptedParameters : Params
  rulesApplied : List RuleApplied
  regimeType : String
  instrument : Option String
  description : Option String

section
-- how `float` reads a text, unless it raises
variable (floatOfText : String → Option ℚ)

/-- `float(value)`, unless it raises a `ValueError` or a `TypeError`. -/
def floatOf : Json ℚ → Option ℚ
  | .num value => some value
  | .bool value => some (if value then 1 else 0)
  | .str text => floatOfText text
  | _ => none

/-- What the rules of a regime make of one parameter. -/
def applyRule (rules : RegimeRules) (parameter : String) (value : Json ℚ) :
    Option RuleApplied := do
  let rule ← adaptableKeys.lookup parameter
  let multiplier ← rules.multipliers.lookup rule
  let originalValue ← floatOf floatOfText value
  some ⟨parameter, originalValue, roundTo 6 (originalValue * multiplier), multiplier, rule⟩

/-- One turn of the loop over the parameters. -/
def adaptOne (rules : RegimeRules) (s : Params × List RuleApplied) (item : String × Json ℚ) :
    Params × List RuleApplied :=
  match applyRule floatOfText rules item.1 item.2 with
  | none => s
  | some applied => (setItem s.1 item.1 (.num applied.adaptedValue), s.2 ++ [applied])

variable (rules : List (String × RegimeRules))

/-- `adapt_parameters`, but for what it stores. -/
def adaptParameters (strategySpecId : String) (originalParameters : Params)
    (regimeType instrument : String) : Adaptation :=
  match rules.lookup regimeType with
  | none => ⟨strategySpecId, originalParameters, originalParameters, [], regimeType, none, none⟩
  | some regimeRules =>
    let s := originalParameters.foldl (adaptOne floatOfText regimeRules) (originalParameters, [])
    ⟨strategySpecId, originalParameters, s.1, s.2, regimeType, some instrument,
      some (regimeRules.description.getD "")⟩

/-! ### The loop over the parameters -/

/-- The value of a parameter under the rules. -/
def scaled (regimeRules : RegimeRules) (item : String × Json ℚ) : String × Json ℚ :=
  (item.1, match applyRule floatOfText regimeRules item.1 item.2 with
    | none => item.2
    | some applied => .num applied.adaptedValue)

theorem setItem_append_cons {κ γ : Type*} [DecidableEq κ] {done rest : List (κ × γ)}
    {item : κ × γ} (h : ((done ++ item :: rest).map Prod.fst).Nodup) (v : γ) :
    setItem (done ++ item :: rest) item.1 v = done ++ (item.1, v) :: rest := by
  rw [List.map_append, List.map_cons, List.nodup_middle, List.nodup_cons, List.mem_append] at h
  have hkeep : ∀ l : List (κ × γ), item.1 ∉ l.map Prod.fst →
      l.map (fun e => if e.1 = item.1 then (item.1, v) else e) = l := by
    intro l hl
    rw [List.map_congr_left, List.map_id]
    intro e he
    have hne : e.1 ≠ item.1 := by
      intro heq
      exact hl (heq ▸ List.mem_map_of_mem he)
    exact if_neg hne
  have hmem : item.1 ∈ (done ++ item :: rest).map Prod.fst :=
    List.mem_map_of_mem (List.mem_append_right done List.mem_cons_self)
  rw [setItem, if_pos hmem, List.map_append, List.map_cons, if_pos rfl,
    hkeep done fun hd => h.1 (.inl hd), hkeep rest fun hr => h.1 (.inr hr)]

/-- The copy has been scaled as far as the loop has come. -/
theorem foldl_adaptOne (regimeRules : RegimeRules) (done rest : Params)
    (applied : List RuleApplied) (h : ((done ++ rest).map Prod.fst).Nodup) :
    rest.foldl (adaptOne floatOfText regimeRules) (done ++ rest, applied) =
      (done ++ rest.map (scaled floatOfText regimeRules),
        applied ++ rest.filterMap fun item =>
          applyRule floatOfText regimeRules item.1 item.2) := by
  induction rest generalizing done applied with
  | nil => simp
  | cons item rest ih =>
    have hitem : adaptOne floatOfText regimeRules (done ++ item :: rest, applied) item =
        ((done ++ [scaled floatOfText regimeRules item]) ++ rest,
          applied ++ (applyRule floatOfText regimeRules item.1 item.2).toList) := by
      rw [adaptOne, scaled]
      cases applyRule floatOfText regimeRules item.1 item.2 with
      | none => simp
      | some result => simp [setItem_append_cons h]
    have hkeys : ((done ++ [scaled floatOfText regimeRules item] ++ rest).map Prod.fst).Nodup := by
      simpa [scaled] using h
    rw [List.foldl_cons, hitem, ih _ _ hkeys]
    cases hrule : applyRule floatOfText regimeRules item.1 item.2 with
    | none => simp [hrule]
    | some result => simp [hrule]

/-! ### The table -/

structure AdaptationKey where
  strategySpecId : String
  instrument : String
  deriving DecidableEq

/-- The other columns of a row, but for `status` and `updated_at`. The objects are dicts: their
order is not kept. -/
structure Stored where
  regimeType : String
  originalParameters : Params
  adaptedParameters : Params
  adaptationRules : List RuleApplied
  createdAt : ℤ

/-- What an adaptation is that is not `active`. -/
inductive Outcome where
  | superseded
  | reverted
  deriving DecidableEq

/-- A row, with its outcome and when it was updated. -/
abbrev Row := Entry AdaptationKey Stored (Outcome × ℤ)

/-- `_store_adaptation`. -/
def storeAdaptation (rows : List Row) (key : AdaptationKey) (result : Adaptation) (now : ℤ) :
    List Row :=
  put rows key ⟨result.regimeType, result.originalParameters, result.adaptedParameters,
    result.rulesApplied, now⟩ (.superseded, now)

def revertAdaptation (rows : List Row) (key : AdaptationKey) (now : ℤ) : List Row :=
  close rows key (.reverted, now)

/-- `get_adapted_parameters`: the active row that was created last. -/
def getAdaptedParameters (rows : List Row) (key : AdaptationKey) :
    Option (Params × String × List RuleApplied) :=
  let newestFirst := (inForce rows key).mergeSort fun e e' => e'.value.createdAt ≤ e.value.createdAt
  newestFirst.head?.map fun e =>
    (e.value.adaptedParameters, e.value.regimeType, e.value.adaptationRules)

/-- A call with a connection, and when it is made. The parameters are a dict. -/
inductive Call where
  | adapt (key : AdaptationKey) (originalParameters : Params)
      (distinct : (originalParameters.map Prod.fst).Nodup) (regimeType : String) (now : ℤ)
  | revert (key : AdaptationKey) (now : ℤ)

def Call.key : Call → AdaptationKey
  | .adapt key _ _ _ _ => key
  | .revert key _ => key

/-- What a call does to the table: an adaptation is stored if it applied a rule. -/
def step (rows : List Row) : Call → List Row
  | .adapt key originalParameters _ regimeType now =>
    let result := adaptParameters floatOfText rules key.strategySpecId originalParameters
      regimeType key.instrument
    if result.rulesApplied = [] then rows else storeAdaptation rows key result now
  | .revert key now => revertAdaptation rows key now

def run (calls : List Call) : List Row := calls.foldl (step floatOfText rules) []

/-! ### What is in force -/

/-- What the rules of its regime make of parameters. -/
def adaptedBy (regimeType : String) (originalParameters : Params) : Params :=
  match rules.lookup regimeType with
  | none => originalParameters
  | some regimeRules => originalParameters.map (scaled floatOfText regimeRules)

def appliedBy (regimeType : String) (originalParameters : Params) : List RuleApplied :=
  match rules.lookup regimeType with
  | none => []
  | some regimeRules => originalParameters.filterMap fun item =>
      applyRule floatOfText regimeRules item.1 item.2

/-- A call as an event of its key, unless it changes nothing. -/
def Call.event : Call → Option (Event AdaptationKey Stored (Outcome × ℤ))
  | .adapt key originalParameters _ regimeType now =>
    if appliedBy floatOfText rules regimeType originalParameters = [] then none
    else some (.entered key
      ⟨regimeType, originalParameters, adaptedBy floatOfText rules regimeType originalParameters,
        appliedBy floatOfText rules regimeType originalParameters, now⟩ (.superseded, now))
  | .revert key now => some (.closed key (.reverted, now))

theorem adaptParameters_eq (strategySpecId : String) {originalParameters : Params}
    (h : (originalParameters.map Prod.fst).Nodup) (regimeType instrument : String) :
    (adaptParameters floatOfText rules strategySpecId originalParameters regimeType
        instrument).adaptedParameters = adaptedBy floatOfText rules regimeType
          originalParameters ∧
      (adaptParameters floatOfText rules strategySpecId originalParameters regimeType
        instrument).rulesApplied = appliedBy floatOfText rules regimeType originalParameters := by
  unfold adaptParameters adaptedBy appliedBy
  cases rules.lookup regimeType with
  | none => exact ⟨rfl, rfl⟩
  | some regimeRules =>
    have hloop := foldl_adaptOne floatOfText regimeRules [] originalParameters [] h
    rw [List.nil_append, List.nil_append, List.nil_append] at hloop
    dsimp only
    rw [hloop]
    exact ⟨rfl, rfl⟩

theorem step_eq (rows : List Row) (call : Call) :
    step floatOfText rules rows call =
      (call.event floatOfText rules).toList.foldl Event.apply rows := by
  cases call with
  | revert key now => rfl
  | adapt key originalParameters distinct regimeType now =>
    obtain ⟨hadapted, happlied⟩ := adaptParameters_eq floatOfText rules key.strategySpecId
      distinct regimeType key.instrument
    have hkept : ∀ id instrument, (adaptParameters floatOfText rules id originalParameters
        regimeType instrument).originalParameters = originalParameters ∧
          (adaptParameters floatOfText rules id originalParameters regimeType
            instrument).regimeType = regimeType := by
      intro id instrument
      unfold adaptParameters
      cases rules.lookup regimeType <;> exact ⟨rfl, rfl⟩
    simp only [step, Call.event, happlied]
    split_ifs
    · rfl
    · rw [storeAdaptation, hadapted, happlied, (hkept _ _).1, (hkept _ _).2]
      rfl

/-- The events of one key. -/
def eventsOf (calls : List Call) (key : AdaptationKey) :
    List (Event AdaptationKey Stored (Outcome × ℤ)) :=
  (calls.filterMap (Call.event floatOfText rules)).filter (·.key = key)

theorem history_run (calls : List Call) (key : AdaptationKey) :
    history (run floatOfText rules calls) key =
      entriesOf (eventsOf floatOfText rules calls key) := by
  have hrows : run floatOfText rules calls =
      (calls.filterMap (Call.event floatOfText rules)).foldl Event.apply [] := by
    rw [run, List.foldl_filterMap]
    congr 1
    funext rows call
    rw [step_eq]
    cases call.event floatOfText rules <;> rfl
  have hnil : history ([] : List Row) key = entriesOf [] := rfl
  rw [hrows, history_foldl hnil, List.nil_append, eventsOf]

/-- What a key is adapted to after one call more. -/
def Call.register (key : AdaptationKey) (current : Option (Params × String × List RuleApplied))
    (call : Call) : Option (Params × String × List RuleApplied) :=
  if call.key = key then
    match call with
    | .adapt _ originalParameters _ regimeType _ =>
      if appliedBy floatOfText rules regimeType originalParameters = [] then current
      else some (adaptedBy floatOfText rules regimeType originalParameters, regimeType,
        appliedBy floatOfText rules regimeType originalParameters)
    | .revert _ _ => none
  else current

/-- The last adaptation of a key that applied a rule, unless it was reverted. -/
def register (calls : List Call) (key : AdaptationKey) :
    Option (Params × String × List RuleApplied) :=
  calls.foldl (Call.register floatOfText rules key) none

/-- What an event leaves of its key for `get_adapted_parameters`. -/
def answerOf : Event AdaptationKey Stored (Outcome × ℤ) →
    Option (Params × String × List RuleApplied)
  | .entered _ stored _ =>
    some (stored.adaptedParameters, stored.regimeType, stored.adaptationRules)
  | .closed _ _ => none

theorem getAdaptedParameters_eq {rows : List Row} {key : AdaptationKey}
    {events : List (Event AdaptationKey Stored (Outcome × ℤ))}
    (h : history rows key = entriesOf events) :
    getAdaptedParameters rows key = events.getLast?.bind answerOf := by
  rw [getAdaptedParameters, inForce_eq h]
  -- at most one row is active, so that there is nothing to order
  rcases events.getLast? with _ | ⟨key, stored, mark⟩ | ⟨key, mark⟩
  · simp
  · simp [Event.added, answerOf]
  · simp [Event.added, answerOf]

theorem Call.register_eq (key : AdaptationKey)
    (events : List (Event AdaptationKey Stored (Outcome × ℤ))) (call : Call) :
    call.register floatOfText rules key (events.getLast?.bind answerOf) =
      (events ++ (call.event floatOfText rules).toList.filter
        (·.key = key)).getLast?.bind answerOf := by
  cases call with
  | revert key' now =>
    by_cases hkey : key' = key
    · simp [Call.register, Call.event, Call.key, Event.key, answerOf, hkey]
    · simp [Call.register, Call.event, Call.key, Event.key, hkey]
  | adapt key' originalParameters distinct regimeType now =>
    by_cases hkey : key' = key <;>
      by_cases hnil : appliedBy floatOfText rules regimeType originalParameters = [] <;>
      simp [Call.register, Call.event, Call.key, Event.key, answerOf, hkey, hnil]

theorem register_eq (calls : List Call) (key : AdaptationKey) :
    register floatOfText rules calls key =
      (eventsOf floatOfText rules calls key).getLast?.bind answerOf := by
  induction calls using List.reverseRecOn with
  | nil => rfl
  | append_singleton calls call ih =>
    have hevents : eventsOf floatOfText rules (calls ++ [call]) key =
        eventsOf floatOfText rules calls key ++
          (call.event floatOfText rules).toList.filter (·.key = key) := by
      rw [eventsOf, List.filterMap_append, List.filter_append, eventsOf]
      cases hevent : call.event floatOfText rules <;> simp [hevent]
    have hregister : register floatOfText rules (calls ++ [call]) key =
        call.register floatOfText rules key (register floatOfText rules calls key) := by
      rw [register, List.foldl_append]
      rfl
    rw [hregister, ih, Call.register_eq, hevents]

/-- In every run a key has the rows of the adaptations that applied a rule, each with the
parameters scaled. A row is superseded by the next one, or reverted by the next call to revert,
whichever comes first; so the key is adapted as it was last, unless that was reverted. -/
theorem run_spec (calls : List Call) (key : AdaptationKey) :
    history (run floatOfText rules calls) key =
        entriesOf (eventsOf floatOfText rules calls key) ∧
      getAdaptedParameters (run floatOfText rules calls) key =
        register floatOfText rules calls key := by
  have hhistory := history_run floatOfText rules calls key
  exact ⟨hhistory, (getAdaptedParameters_eq hhistory).trans (register_eq _ _ calls key).symm⟩

end

end TradeStream.ParameterAdapter
