import TradeStream.VectorBtSignals

/-! The signals of a spec on the series of a data frame, and that nothing in the backtesting
service looks at a bar that is still to come. -/
namespace TradeStream.Backtesting.YamlStrategyLoader
open TradeStream.Causality TradeStream.SeriesRules VectorBTRunner IndicatorRegistry

structure SeriesIndicatorDef (D : Type) extends IndicatorDef where
  params : Params D

structure SeriesSpec (D : Type) where
  parameters : List (ParameterDef D)
  indicators : List (SeriesIndicatorDef D)
  entryConditions : List (Condition D)
  exitConditions : List (Condition D)

section
variable {D : Type} (runtime : SeriesRuntime D) (lib : SeriesLibrary D) (ohlcv : List (Bar D))

/-- What the resolution of parameters reads of a spec. -/
def SeriesSpec.toStrategySpec (spec : SeriesSpec D) : StrategySpec D where
  parameters := spec.parameters
  indicators := spec.indicators.map (·.toIndicatorDef)
  entryConditions := spec.entryConditions
  exitConditions := spec.exitConditions

/-- The parameters of an indicator, with the placeholders substituted. -/
def SeriesIndicatorDef.resolved (params : Params D) (indDef : SeriesIndicatorDef D) : Params D :=
  fun key => (indDef.params key).map (substituteParam runtime.toPythonRuntime params)

/-- `_compute_indicators`. -/
def computeSeries (spec : SeriesSpec D) (params : Params D) :
    Except PyError (String → Option (List D)) :=
  spec.indicators.foldlM (fun indicators indDef =>
    match indDef.id, indDef.type with
    | none, _ => .error (.keyError "id")
    | some _, none => .error (.keyError "type")
    | some id, some type =>
      (VectorBTRunner.create runtime lib ohlcv type (indDef.resolved runtime params)).map
        fun series => Function.update indicators id (some series)) fun _ => none

/-- `left > right` or `left < right`. -/
def beyondSeries (side : Side) (left : List D) : Operand (List D) D → List Bool
  | .indicator right =>
    match side with
    | .above => runtime.gt left right
    | .below => runtime.less left right
  | .constant x =>
    match side with
    | .above => runtime.gtConst left x
    | .below => runtime.lessConst left x

def crossesSeries (side : Side) (left : List D) : Operand (List D) D → List Bool
  | .indicator right =>
    match side with
    | .above => crossesUp runtime left right
    | .below => crossesDown runtime left right
  | .constant x =>
    match side with
    | .above => crossesUpConst runtime left x
    | .below => crossesDownConst runtime left x

/-- The series of a rule. A move is always over one bar. -/
def ruleSeries : Rule (List D) D → List Bool
  | .never => ohlcv.map fun _ => false
  | .compares side left right => beyondSeries runtime side left right
  | .crosses side left right => crossesSeries runtime side left right
  | .moves side left _ => beyondSeries runtime side left (.indicator (runtime.shift 1 left))

section
variable (indicators : String → Option (List D)) (params : Params D)

/-- `_evaluate_single_condition`. -/
def singleConditionSeries (condition : Condition D) : Except PyError (List Bool) :=
  (conditionRule runtime.toPythonRuntime indicators params condition).map (ruleSeries runtime ohlcv)

/-- `_evaluate_conditions`. -/
def conditionsSeries : List (Condition D) → Except PyError (List Bool)
  | [] => .ok (ohlcv.map fun _ => false)
  | conditions => conditions.foldlM (fun result cond => do
      let signal ← singleConditionSeries runtime ohlcv indicators params cond
      return both result signal) (ohlcv.map fun _ => true)

end

/-- `generate_signals` on a data frame. -/
def seriesSignals (spec : SeriesSpec D) (overrides : Params D) : Except PyError Signals := do
  let params ← resolveParameters overrides spec.toStrategySpec
  let indicators ← computeSeries runtime lib ohlcv spec params
  let entry ← conditionsSeries runtime ohlcv indicators params spec.entryConditions
  let exit ← conditionsSeries runtime ohlcv indicators params spec.exitConditions
  return (entry, exit)

end

/-! ### Rules on series that agree -/

section
variable {D : Type} {runtime : SeriesRuntime D} {lib : SeriesLibrary D} {t : ℕ}
  {ohlcv ohlcv' : List (Bar D)}
open SeriesRuntime

inductive OperandAgree (t : ℕ) : Operand (List D) D → Operand (List D) D → Prop
  | indicator {xs ys : List D} (h : AgreeUpTo t xs ys) :
    OperandAgree t (.indicator xs) (.indicator ys)
  | constant (x : D) : OperandAgree t (.constant x) (.constant x)

inductive RuleAgree (t : ℕ) : Rule (List D) D → Rule (List D) D → Prop
  | never : RuleAgree t .never .never
  | compares (side : Side) {left left' : List D} {right right' : Operand (List D) D}
    (h : AgreeUpTo t left left') (h' : OperandAgree t right right') :
    RuleAgree t (.compares side left right) (.compares side left' right')
  | crosses (side : Side) {left left' : List D} {right right' : Operand (List D) D}
    (h : AgreeUpTo t left left') (h' : OperandAgree t right right') :
    RuleAgree t (.crosses side left right) (.crosses side left' right')
  | moves (side : Side) {left left' : List D} (bars : ℤ) (h : AgreeUpTo t left left') :
    RuleAgree t (.moves side left bars) (.moves side left' bars)

theorem beyondSeries_agree (side : Side) {left left' : List D} {right right' : Operand (List D) D}
    (h : AgreeUpTo t left left') (h' : OperandAgree t right right') :
    AgreeUpTo t (beyondSeries runtime side left right)
      (beyondSeries runtime side left' right') := by
  cases h' with
  | indicator h' =>
    cases side with
    | above => exact gt_agree h h'
    | below => exact less_agree h h'
  | constant x => cases side <;> exact h.map _

theorem crossesSeries_agree (side : Side) {left left' : List D} {right right' : Operand (List D) D}
    (h : AgreeUpTo t left left') (h' : OperandAgree t right right') :
    AgreeUpTo t (crossesSeries runtime side left right)
      (crossesSeries runtime side left' right') := by
  cases h' with
  | indicator h' =>
    cases side with
    | above => exact crossesUp_agree h h'
    | below => exact crossesDown_agree h h'
  | constant x =>
    cases side with
    | above => exact crossesUpConst_agree h x
    | below => exact crossesDownConst_agree h x

theorem ruleSeries_agree (hohlcv : AgreeUpTo t ohlcv ohlcv') {rule rule' : Rule (List D) D}
    (h : RuleAgree t rule rule') :
    AgreeUpTo t (ruleSeries runtime ohlcv rule) (ruleSeries runtime ohlcv' rule') := by
  cases h with
  | never => exact hohlcv.map _
  | compares side h h' => exact beyondSeries_agree side h h'
  | crosses side h h' => exact crossesSeries_agree side h h'
  | moves side bars h => exact beyondSeries_agree side h (.indicator (shift_one_agree h))

/-- The same indicators are there, and each agrees. -/
def IndicatorsAgree (t : ℕ) (indicators indicators' : String → Option (List D)) : Prop :=
  ∀ id, Option.Rel (AgreeUpTo t) (indicators id) (indicators' id)

section
variable {indicators indicators' : String → Option (List D)} {params : Params D}
  {condition : Condition D}

theorem getIndicator_agree (h : IndicatorsAgree t indicators indicators') (value : PyValue D) :
    SameResult (Option.Rel (AgreeUpTo t)) (getIndicator indicators value)
      (getIndicator indicators' value) := by
  unfold getIndicator
  split
  · split_ifs
    · exact .ok .none
    · exact .ok (h _)
  · exact .error PyError.typeError
  · exact .ok .none

theorem valueOperand_agree :
    SameResult (Option.Rel (OperandAgree t))
      (valueOperand runtime.toPythonRuntime params condition)
      (valueOperand runtime.toPythonRuntime params condition) := by
  unfold valueOperand
  split
  · exact .ok .none
  · cases runtime.toPythonRuntime.float (substituteParam runtime.toPythonRuntime params
      (condition.params "value")) with
    | error e => exact .error e
    | ok x => exact .ok (.some (.constant x))

theorem otherOperand_agree (h : IndicatorsAgree t indicators indicators') :
    SameResult (Option.Rel (OperandAgree t))
      (otherOperand runtime.toPythonRuntime indicators params condition)
      (otherOperand runtime.toPythonRuntime indicators' params condition) := by
  have hother := getIndicator_agree h (condition.params "other")
  unfold otherOperand
  generalize getIndicator indicators (condition.params "other") = other at hother ⊢
  generalize getIndicator indicators' (condition.params "other") = other' at hother ⊢
  cases hother with
  | error e => exact .error e
  | ok hother =>
    cases hother with
    | none => exact valueOperand_agree
    | some hother => exact .ok (.some (.indicator hother))

/-- A rule on an operand, or the rule that never holds if there is none. -/
theorem ofOperand_agree {x x' : Except PyError (Option (Operand (List D) D))}
    (h : SameResult (Option.Rel (OperandAgree t)) x x')
    {test test' : Operand (List D) D → Rule (List D) D}
    (htest : ∀ o o', OperandAgree t o o' → RuleAgree t (test o) (test' o')) :
    SameResult (RuleAgree t) (x.map fun operand => (operand.map test).getD .never)
      (x'.map fun operand => (operand.map test').getD .never) := by
  refine h.map fun operand operand' hoperand => ?_
  cases hoperand with
  | none => exact .never
  | some hoperand => exact htest _ _ hoperand

/-- The rule of a condition is of one kind in both runs, on indicators that agree. -/
theorem conditionRule_agree (h : IndicatorsAgree t indicators indicators') :
    SameResult (RuleAgree t) (conditionRule runtime.toPythonRuntime indicators params condition)
      (conditionRule runtime.toPythonRuntime indicators' params condition) := by
  have hother : SameResult (Option.Rel (OperandAgree t))
      (otherOperand runtime.toPythonRuntime indicators params condition)
      (otherOperand runtime.toPythonRuntime indicators' params condition) := otherOperand_agree h
  unfold conditionRule
  cases condition.type with
  | none => exact .error (PyError.keyError "type")
  | some condType =>
    cases condition.indicator with
    | none => exact .error (PyError.keyError "indicator")
    | some indicatorId =>
      simp only
      have hindicator := h indicatorId
      generalize indicators indicatorId = left at hindicator ⊢
      generalize indicators' indicatorId = left' at hindicator ⊢
      cases hindicator with
      | none => exact .ok .never
      | some hleft =>
        -- the type of the condition is the same in both runs, so both take one branch
        refine .ite _ ?_ (.ite _ ?_ (.ite _ ?_ (.ite _ ?_ (.ite _ ?_ (.ite _ ?_
          (.ite _ ?_ (.ite _ ?_ ?_)))))))
        · exact ofOperand_agree hother fun _ _ h => .compares .above hleft h
        · exact ofOperand_agree hother fun _ _ h => .compares .below hleft h
        · exact ofOperand_agree hother fun _ _ h => .crosses .above hleft h
        · exact ofOperand_agree hother fun _ _ h => .crosses .below hleft h
        · exact ofOperand_agree valueOperand_agree fun _ _ h => .compares .above hleft h
        · exact ofOperand_agree valueOperand_agree fun _ _ h => .compares .below hleft h
        · exact .ok (.moves .above 1 hleft)
        · exact .ok (.moves .below 1 hleft)
        · exact .ok .never

variable (params) in
theorem conditionsSeries_agree (hohlcv : AgreeUpTo t ohlcv ohlcv')
    (h : IndicatorsAgree t indicators indicators') (conditions : List (Condition D)) :
    SameResult (AgreeUpTo t) (conditionsSeries runtime ohlcv indicators params conditions)
      (conditionsSeries runtime ohlcv' indicators' params conditions) := by
  unfold conditionsSeries
  split
  · exact .ok (hohlcv.map _)
  · refine SameResult.foldlM (hohlcv.map _) fun cond _ result result' hresult => ?_
    have hsingle : SameResult (AgreeUpTo t)
        (singleConditionSeries runtime ohlcv indicators params cond)
        (singleConditionSeries runtime ohlcv' indicators' params cond) :=
      (conditionRule_agree h).map fun _ _ hrule => ruleSeries_agree hohlcv hrule
    exact hsingle.bind fun _ _ hsignal => .ok (both_agree hresult hsignal)

end

/-! ### The signals of a spec -/

variable (runtime) in
/-- No indicator of the spec shifts back: none is `ROC` with a negative period, once the
placeholders are substituted. -/
def SeriesSpec.Forward (spec : SeriesSpec D) (overrides : Params D) : Prop :=
  ∀ params, resolveParameters overrides spec.toStrategySpec = .ok params →
    ∀ indDef ∈ spec.indicators, ∀ type, indDef.type = some type →
      IndicatorRegistry.Forward runtime type (indDef.resolved runtime params)

theorem computeSeries_agree {spec : SeriesSpec D} {params : Params D}
    (hforward : ∀ indDef ∈ spec.indicators, ∀ type, indDef.type = some type →
      IndicatorRegistry.Forward runtime type (indDef.resolved runtime params))
    (h : AgreeUpTo t ohlcv ohlcv') :
    SameResult (IndicatorsAgree t) (computeSeries runtime lib ohlcv spec params)
      (computeSeries runtime lib ohlcv' spec params) := by
  refine SameResult.foldlM (fun _ => .none) fun indDef hmem indicators indicators' hind => ?_
  have hforward := hforward indDef hmem
  cases hid : indDef.id with
  | none => exact .error (PyError.keyError "id")
  | some id =>
    cases htype : indDef.type with
    | none => exact .error (PyError.keyError "type")
    | some type =>
      have hcreate : SameResult (AgreeUpTo t)
          (VectorBTRunner.create runtime lib ohlcv type (indDef.resolved runtime params))
          (VectorBTRunner.create runtime lib ohlcv' type (indDef.resolved runtime params)) :=
        create_causal (hforward type htype) (h.map (·.close)) h
      refine hcreate.map fun series series' hseries => ?_
      intro id'
      by_cases hid' : id' = id
      · subst hid'
        simpa using Option.Rel.some hseries
      · simpa [hid'] using hind id'

theorem seriesSignals_causal {spec : SeriesSpec D} {overrides : Params D}
    (hforward : spec.Forward runtime overrides) (h : AgreeUpTo t ohlcv ohlcv') :
    SameResult (SignalsAgreeUpTo t) (seriesSignals runtime lib ohlcv spec overrides)
      (seriesSignals runtime lib ohlcv' spec overrides) := by
  refine SameResult.bind_same fun params hparams => ?_
  refine (computeSeries_agree (hforward params hparams) h).bind fun ind ind' hind => ?_
  refine (conditionsSeries_agree params h hind spec.entryConditions).bind fun _ _ hentry => ?_
  refine (conditionsSeries_agree params h hind spec.exitConditions).bind fun _ _ hexit => ?_
  exact .ok ⟨hentry, hexit⟩

end

end TradeStream.Backtesting.YamlStrategyLoader
