import TradeStream.StrategyConfig

/-! The `ParamConfig`s of the strategies: the ranges that each gives the genetic
algorithm, and the parameters that it reads back from chromosomes. Doubles are exact
rationals. -/
namespace TradeStream.Discovery
open TradeStream.Configurable

/-- A closed range for a parameter of one of the two types. -/
inductive ChromosomeSpec where
  | integer (range : NonemptyInterval Int32)
  | double (range : NonemptyInterval ℚ)

namespace ChromosomeSpec

def type : ChromosomeSpec → ParameterType
  | integer _ => .INTEGER
  | double _ => .DOUBLE

def ofInteger (min max : Int32) (h : min ≤ max) : ChromosomeSpec := integer ⟨(min, max), h⟩

def ofDouble (min max : ℚ) (h : min ≤ max) : ChromosomeSpec := double ⟨(min, max), h⟩

end ChromosomeSpec

/-- A chromosome of one gene: the gene's range and its allele. -/
structure NumericChromosome (α : Type) where
  min : α
  max : α
  allele : α
  deriving DecidableEq

inductive Chromosome where
  | integer (c : NumericChromosome Int32)
  | double (c : NumericChromosome ℚ)
  deriving DecidableEq

namespace Chromosome

/-- `gene().doubleValue()`. -/
def doubleValue : Chromosome → ℚ
  | integer c => c.allele.toInt
  | double c => c.allele

def value : Chromosome → ParameterValue ℚ
  | integer c => .int c.allele
  | double c => .double c.allele

/-- The chromosome has the type and the range of the spec. -/
def HasSpec : Chromosome → ChromosomeSpec → Prop
  | integer c, .integer range => c.min = range.fst ∧ c.max = range.snd
  | double c, .double range => c.min = range.fst ∧ c.max = range.snd
  | _, _ => False

/-- The allele is one of the spec's values. -/
def AlleleIn : Chromosome → ChromosomeSpec → Prop
  | integer c, .integer range => range.fst ≤ c.allele ∧ c.allele ≤ range.snd
  | double c, .double range => range.fst ≤ c.allele ∧ c.allele ≤ range.snd
  | _, _ => False

end Chromosome

/-- How a parameter is read from its chromosome: through a cast to the chromosome class
of the parameter's type, or with a conversion of the other class's values. -/
inductive Accessor where
  | cast
  | convert

/-- A parameter of a message, in the order of the specs. -/
structure ParamField where
  name : Option String
  spec : ChromosomeSpec
  accessor : Accessor

namespace ParamField

/-- `none` stands for a `ClassCastException`. -/
def read (f : ParamField) (c : Chromosome) : Option (ParameterValue ℚ) :=
  match f.spec, c, f.accessor with
  | .integer _, .integer c, _ => some (.int c.allele)
  | .integer _, .double c, .convert => some (.int (toInt32 c.allele))
  | .double _, .double c, _ => some (.double c.allele)
  | .double _, .integer c, .convert => some (.double c.allele.toInt)
  | _, _, .cast => none

theorem read_of_hasSpec {f : ParamField} {c : Chromosome} (h : c.HasSpec f.spec) :
    f.read c = some c.value := by
  obtain ⟨name, spec, accessor⟩ := f
  cases c <;> cases spec <;> first | rfl | exact h.elim

end ParamField

/-- What `createParameters` comes to: the parameters it was asked for, the defaults in
their stead, or an exception. -/
inductive Outcome where
  | created (p : ParameterValues ℚ)
  | fellBack (p : ParameterValues ℚ)
  | threw

/-- What a class does with chromosomes that are not its own. -/
inductive Fallback where
  | defaults (p : ParameterValues ℚ)
  | throws

def Fallback.outcome : Fallback → Outcome
  | defaults p => .fellBack p
  | throws => .threw

/-- The values of the chromosomes put under the names of the fields, in their order. -/
def putAll : List ParamField → List Chromosome → ParameterValues ℚ → Option (ParameterValues ℚ)
  | f :: fields, c :: chromosomes, p => do
    let v ← f.read c
    -- a message takes no value under a null name
    let name ← f.name
    putAll fields chromosomes (p.put name v)
  | _, _, p => some p

/-- A `ParamConfig` that is a class of its own, as those of `StrategySpecs` are. -/
structure FixedParamConfig where
  fields : List ParamField
  onWrongSize : Fallback
  onWrongClass : Fallback
  named : ∀ f ∈ fields, f.name ≠ none
  names_nodup : (fields.map ParamField.name).Nodup

def FixedParamConfig.createParameters (config : FixedParamConfig)
    (chromosomes : List Chromosome) : Outcome :=
  if chromosomes.length ≠ config.fields.length then config.onWrongSize.outcome
  else match putAll config.fields chromosomes .empty with
    | some p => .created p
    | none => config.onWrongClass.outcome

/-- A message with these fields. -/
def messageOf (fields : List (String × ParameterValue ℚ)) : ParameterValues ℚ :=
  fields.foldl (fun p field => p.put field.1 field.2) .empty

def smaRsiDefaults : ParameterValues ℚ :=
  messageOf [("movingAveragePeriod", .int 20), ("rsiPeriod", .int 14),
    ("overboughtThreshold", .double 70), ("oversoldThreshold", .double 30)]

def smaRsiParamConfig : FixedParamConfig where
  fields := [
    ⟨some "movingAveragePeriod", .ofInteger 5 50 (by decide), .convert⟩,
    ⟨some "rsiPeriod", .ofInteger 2 30 (by decide), .convert⟩,
    ⟨some "overboughtThreshold", .ofDouble 60 85 (by norm_num), .convert⟩,
    ⟨some "oversoldThreshold", .ofDouble 15 40 (by norm_num), .convert⟩]
  onWrongSize := .defaults smaRsiDefaults
  onWrongClass := .defaults smaRsiDefaults
  named := by simp
  names_nodup := by decide

def atrTrailingStopParamConfig : FixedParamConfig where
  fields := [
    ⟨some "atrPeriod", .ofInteger 5 30 (by decide), .cast⟩,
    ⟨some "multiplier", .ofDouble 1 5 (by norm_num), .cast⟩]
  onWrongSize := .throws
  onWrongClass := .throws
  named := by simp
  names_nodup := by decide

def bbandWRParamConfig : FixedParamConfig where
  fields := [
    ⟨some "bbandsPeriod", .ofInteger 10 50 (by decide), .cast⟩,
    ⟨some "wrPeriod", .ofInteger 5 30 (by decide), .cast⟩,
    ⟨some "stdDevMultiplier", .ofDouble (3 / 2) 3 (by norm_num), .cast⟩]
  onWrongSize := .throws
  onWrongClass := .throws
  named := by simp
  names_nodup := by decide

def volatilityStopParamConfig : FixedParamConfig where
  fields := [
    ⟨some "atrPeriod", .ofInteger 5 30 (by decide), .cast⟩,
    ⟨some "multiplier", .ofDouble 1 5 (by norm_num), .cast⟩]
  onWrongSize := .throws
  onWrongClass := .throws
  named := by simp
  names_nodup := by decide

def linearRegressionChannelsDefaults : ParameterValues ℚ :=
  messageOf [("period", .int 20), ("multiplier", .double 2)]

def linearRegressionChannelsParamConfig : FixedParamConfig where
  fields := [
    ⟨some "period", .ofInteger 10 50 (by decide), .convert⟩,
    ⟨some "multiplier", .ofDouble 1 3 (by norm_num), .convert⟩]
  onWrongSize := .defaults linearRegressionChannelsDefaults
  onWrongClass := .defaults linearRegressionChannelsDefaults
  named := by simp
  names_nodup := by decide

def vwapMeanReversionDefaults : ParameterValues ℚ :=
  messageOf [("vwapPeriod", .int 20), ("movingAveragePeriod", .int 20),
    ("deviationMultiplier", .double 2)]

def vwapMeanReversionParamConfig : FixedParamConfig where
  fields := [
    ⟨some "vwapPeriod", .ofInteger 10 50 (by decide), .convert⟩,
    ⟨some "movingAveragePeriod", .ofInteger 10 50 (by decide), .convert⟩,
    ⟨some "deviationMultiplier", .ofDouble 1 3 (by norm_num), .convert⟩]
  onWrongSize := .defaults vwapMeanReversionDefaults
  onWrongClass := .defaults vwapMeanReversionDefaults
  named := by simp
  names_nodup := by decide

def framaDefaults : ParameterValues ℚ :=
  messageOf [("sc", .double (1 / 2)), ("fc", .int 20), ("alpha", .double (1 / 2))]

def framaParamConfig : FixedParamConfig where
  fields := [
    ⟨some "sc", .ofDouble (1 / 10) 2 (by norm_num), .cast⟩,
    ⟨some "fc", .ofInteger 5 50 (by decide), .cast⟩,
    ⟨some "alpha", .ofDouble (1 / 10) 1 (by norm_num), .cast⟩]
  onWrongSize := .defaults framaDefaults
  onWrongClass := .defaults framaDefaults
  named := by simp
  names_nodup := by decide

/-- Every range of this class starts where its parameter falls back to. -/
def sarMfiDefaults : ParameterValues ℚ :=
  messageOf [("accelerationFactorStart", .double (1 / 100)),
    ("accelerationFactorIncrement", .double (1 / 100)),
    ("accelerationFactorMax", .double (1 / 10)), ("mfiPeriod", .int 2)]

def sarMfiParamConfig : FixedParamConfig where
  fields := [
    ⟨some "accelerationFactorStart", .ofDouble (1 / 100) (1 / 5) (by norm_num), .cast⟩,
    ⟨some "accelerationFactorIncrement", .ofDouble (1 / 100) (1 / 5) (by norm_num), .cast⟩,
    ⟨some "accelerationFactorMax", .ofDouble (1 / 10) 1 (by norm_num), .cast⟩,
    ⟨some "mfiPeriod", .ofInteger 2 100 (by decide), .cast⟩]
  onWrongSize := .defaults sarMfiDefaults
  -- the casts stand outside any handler
  onWrongClass := .throws
  named := by simp
  names_nodup := by decide

/-- The classes of `StrategySpecs` that have ranges of both types. -/
def mixedParamConfigs : List FixedParamConfig :=
  [smaRsiParamConfig, atrTrailingStopParamConfig, bbandWRParamConfig,
    volatilityStopParamConfig, linearRegressionChannelsParamConfig,
    vwapMeanReversionParamConfig, framaParamConfig, sarMfiParamConfig]

def emaMacdParamConfig : FixedParamConfig where
  fields := [
    ⟨some "shortEmaPeriod", .ofInteger 2 20 (by decide), .cast⟩,
    ⟨some "longEmaPeriod", .ofInteger 10 50 (by decide), .cast⟩,
    ⟨some "signalPeriod", .ofInteger 5 20 (by decide), .cast⟩]
  onWrongSize := .throws
  onWrongClass := .throws
  named := by simp
  names_nodup := by decide

/-- The range of a parameter definition. `none` stands for a `NullPointerException`, or
for the `IllegalArgumentException` of a range that is the wrong way round. -/
def chromosomeSpec (param : ParameterDefinition ℚ) : Option ChromosomeSpec :=
  match param.type, param.min, param.max with
  | some .INTEGER, some min, some max =>
    if h : min.intValue ≤ max.intValue then some (.ofInteger min.intValue max.intValue h)
    else none
  | some .DOUBLE, some min, some max =>
    if h : min.doubleValue ≤ max.doubleValue then
      some (.ofDouble min.doubleValue max.doubleValue h)
    else none
  | _, _, _ => none

def buildChromosomeSpecs (config : StrategyConfig ℚ) : Option (List ChromosomeSpec) :=
  (config.parameters.getD []).mapM chromosomeSpec

/-- A `ConfigurableParamConfig`: a config whose specs could be built. -/
structure ConfigurableParamConfig where
  config : StrategyConfig ℚ
  specs : List ChromosomeSpec
  specs_built : buildChromosomeSpecs config = some specs

/-- The loop of `ConfigurableParamConfig.createParameters`. -/
def putParameters : List (ParameterDefinition ℚ) → List Chromosome → ParameterValues ℚ →
    Option (ParameterValues ℚ)
  | param :: params, c :: chromosomes, builder =>
    match param.type, c with
    | some .INTEGER, .integer c => do
      let name ← param.name
      putParameters params chromosomes (builder.putIntValues name c.allele)
    | some .DOUBLE, .double c => do
      let name ← param.name
      putParameters params chromosomes (builder.putDoubleValues name c.allele)
    -- the cast fails, or the switch is on null
    | _, _ => none
  | _, _, builder => some builder

namespace ConfigurableParamConfig

def createParameters (config : ConfigurableParamConfig) (chromosomes : List Chromosome) :
    Outcome :=
  match config.config.parameters with
  | none | some [] => .created .empty
  | some params =>
    if chromosomes.length ≠ params.length then .threw
    else match putParameters params chromosomes .empty with
      | some p => .created p
      | none => .threw

/-- The parameters of the config as the fields of its message. -/
def fields (config : ConfigurableParamConfig) : List ParamField :=
  ((config.config.parameters.getD []).zip config.specs).map fun p => ⟨p.1.name, p.2, .cast⟩

end ConfigurableParamConfig

inductive ParamConfig where
  | fixed (config : FixedParamConfig)
  | configurable (config : ConfigurableParamConfig)

namespace ParamConfig

def getChromosomeSpecs : ParamConfig → List ChromosomeSpec
  | fixed config => config.fields.map ParamField.spec
  | configurable config => config.specs

def createParameters : ParamConfig → List Chromosome → Outcome
  | fixed config => config.createParameters
  | configurable config => config.createParameters

def fields : ParamConfig → List ParamField
  | fixed config => config.fields
  | configurable config => config.fields

end ParamConfig

theorem type_of_chromosomeSpec {param : ParameterDefinition ℚ} {spec : ChromosomeSpec}
    (h : chromosomeSpec param = some spec) : param.type = some spec.type := by
  unfold chromosomeSpec at h
  split at h
  next htype _ _ =>
    split at h
    · cases h
      exact htype
    · cases h
  next htype _ _ =>
    split at h
    · cases h
      exact htype
    · cases h
  next => cases h

theorem forall₂_of_mapM {α β : Type} {f : α → Option β} {xs : List α} {ys : List β}
    (h : xs.mapM f = some ys) : List.Forall₂ (fun x y => f x = some y) xs ys := by
  induction xs generalizing ys with
  | nil =>
    have hys : ys = [] := by simpa [eq_comm] using h
    subst hys
    exact .nil
  | cons x xs ih =>
    simp only [List.mapM_cons, Option.bind_eq_bind, Option.bind_eq_some_iff,
      Option.pure_def, Option.some.injEq] at h
    obtain ⟨y, hy, ys', hys, rfl⟩ := h
    exact .cons hy (ih hys)

theorem ConfigurableParamConfig.chromosomeSpec_specs (config : ConfigurableParamConfig) :
    List.Forall₂ (fun param spec => chromosomeSpec param = some spec)
      (config.config.parameters.getD []) config.specs :=
  forall₂_of_mapM config.specs_built

theorem ParamConfig.map_spec_fields (config : ParamConfig) :
    config.fields.map ParamField.spec = config.getChromosomeSpecs := by
  cases config with
  | fixed config => rfl
  | configurable config =>
    have hlength := config.chromosomeSpec_specs.length_eq
    rw [ParamConfig.fields, ConfigurableParamConfig.fields, List.map_map]
    exact List.map_snd_zip hlength.ge

/-- The loop over the parameter definitions puts what the fields read. -/
theorem putParameters_eq_putAll {params : List (ParameterDefinition ℚ)}
    {specs : List ChromosomeSpec} {cs : List Chromosome}
    (hparams : List.Forall₂ (fun param spec => chromosomeSpec param = some spec) params specs)
    (hcs : List.Forall₂ Chromosome.HasSpec cs specs) (p : ParameterValues ℚ) :
    putParameters params cs p =
      putAll ((params.zip specs).map fun a => ⟨a.1.name, a.2, .cast⟩) cs p := by
  induction hparams generalizing cs p with
  | nil => simp [putParameters, putAll]
  | @cons param spec params specs hparam _ ih =>
    rw [List.forall₂_cons_right_iff] at hcs
    obtain ⟨c, cs, hspec, hcs, rfl⟩ := hcs
    have htype := type_of_chromosomeSpec hparam
    rw [List.zip_cons_cons, List.map_cons, putAll, ParamField.read_of_hasSpec hspec]
    cases c <;> cases spec <;> try exact hspec.elim
    · simp only [putParameters, htype, ChromosomeSpec.type, Chromosome.value,
        Option.bind_eq_bind, Option.bind_some, ih hcs]
      rfl
    · simp only [putParameters, htype, ChromosomeSpec.type, Chromosome.value,
        Option.bind_eq_bind, Option.bind_some, ih hcs]
      rfl

/-- From chromosomes that follow its specs a config creates what its fields read. -/
theorem ParamConfig.createParameters_eq_created_iff {config : ParamConfig}
    {cs : List Chromosome} (h : List.Forall₂ Chromosome.HasSpec cs config.getChromosomeSpecs)
    (p : ParameterValues ℚ) :
    config.createParameters cs = .created p ↔ putAll config.fields cs .empty = some p := by
  have hlength := h.length_eq
  rw [← config.map_spec_fields, List.length_map] at hlength
  cases config with
  | fixed config =>
    have hlength' : cs.length = config.fields.length := hlength
    -- the check of the length passes, and a chromosome of another class falls back
    simp only [ParamConfig.createParameters, FixedParamConfig.createParameters,
      ParamConfig.fields, hlength', ne_eq, not_true_eq_false, if_false]
    cases hput : putAll config.fields cs .empty with
    | some p' => simp
    | none =>
      simp only [reduceCtorEq, iff_false]
      cases config.onWrongClass <;> simp [Fallback.outcome]
  | configurable config =>
    have hput := putParameters_eq_putAll config.chromosomeSpec_specs h .empty
    have hparams := config.chromosomeSpec_specs.length_eq
    simp only [ParamConfig.createParameters, ConfigurableParamConfig.createParameters,
      ParamConfig.fields, ConfigurableParamConfig.fields]
    rw [← hput]
    cases hps : config.config.parameters with
    | none => simp [putParameters]
    | some params =>
      cases params with
      | nil => simp [putParameters]
      | cons param params =>
        have hlength' : cs.length = (param :: params).length := by
          rw [h.length_eq, ParamConfig.getChromosomeSpecs, ← hparams, hps]
          rfl
        simp only [hlength', ne_eq, not_true_eq_false, if_false, Option.getD_some]
        cases putParameters (param :: params) cs .empty <;> simp

/-- The message gives the field the allele of the chromosome. -/
def GivesAllele (p : ParameterValues ℚ) (f : ParamField) (c : Chromosome) : Prop :=
  ∃ name, f.name = some name ∧ p.Holds name c.value

/-- Fields of one name read equal values. -/
def NamesAgree (fields : List ParamField) (cs : List Chromosome) : Prop :=
  (fields.zip cs).Pairwise fun a b => a.1.name = b.1.name → a.2.value = b.2.value

/-- Of fields of one name the message keeps the last one's value, which then is every
other's too. -/
theorem exists_putAll {fields : List ParamField} {cs : List Chromosome}
    (hspecs : List.Forall₂ (fun f c => Chromosome.HasSpec c f.spec) fields cs)
    (hnamed : ∀ f ∈ fields, f.name ≠ none) (hagree : NamesAgree fields cs)
    (p : ParameterValues ℚ) :
    ∃ p', putAll fields cs p = some p' ∧ List.Forall₂ (GivesAllele p') fields cs ∧
      ∀ name v, p.Holds name v →
        (∀ a ∈ fields.zip cs, a.1.name = some name → v = a.2.value) → p'.Holds name v := by
  induction hspecs generalizing p with
  | nil => exact ⟨p, rfl, .nil, fun name v h _ => h⟩
  | @cons f c fields cs hspec _ ih =>
    rw [List.forall_mem_cons] at hnamed
    obtain ⟨name, hname⟩ := Option.ne_none_iff_exists'.mp hnamed.1
    rw [NamesAgree, List.zip_cons_cons, List.pairwise_cons] at hagree
    obtain ⟨p', hp', hgives, hkeeps⟩ := ih hnamed.2 hagree.2 (p.put name c.value)
    refine ⟨p', ?_, .cons ⟨name, hname, ?_⟩ hgives, ?_⟩
    · simp [putAll, ParamField.read_of_hasSpec hspec, hname, hp']
    · -- no later field of the name changes the value just put
      apply hkeeps name c.value (p.holds_put name c.value)
      intro a ha hsame
      exact hagree.1 a ha (hname.trans hsame.symm)
    · intro name' v hv hlast
      rw [List.zip_cons_cons, List.forall_mem_cons] at hlast
      refine hkeeps name' v (hv.put c.value ?_) hlast.2
      intro hsame
      exact hlast.1 (hname.trans (by rw [hsame]))

end TradeStream.Discovery
