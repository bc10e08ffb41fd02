import TradeStream.IntText
import TradeStream.Layers
import TradeStream.RunSteps

/-! The configuration service: defaults, YAML files, environment and database overrides in
one dictionary, which `load`, the watcher and `load_from_db_async` write. -/
namespace TradeStream.ConfigLayers
open TradeStream.Layers TradeStream.RunSteps

inductive Namespace where
  | exchange
  | strategy
  | risk
  | notification
  deriving DecidableEq

def validNamespaces : List Namespace := [.exchange, .strategy, .risk, .notification]

def Namespace.name : Namespace → String
  | .exchange => "exchange"
  | .strategy => "strategy"
  | .risk => "risk"
  | .notification => "notification"

def namespaceOf (text : String) : Option Namespace :=
  validNamespaces.find? fun ns => ns.name = text

/-- A text, or another key of a YAML mapping. -/
inductive Key where
  | text (text : String)
  | other (text : String)
  deriving DecidableEq

/-- A value of the configuration; `other` is one of YAML, or a float that is no number. -/
inductive Value where
  | bool (value : Bool)
  | int (value : ℤ)
  | float (value : ℚ)
  | str (text : String)
  | list (items : List Value)
  | other (text : String)

abbrev Config := Layer (Namespace × Key) Value

def defaults : Config := ofEntries [
  ((.exchange, .text "default_exchange"), .str "binance"),
  ((.exchange, .text "sandbox_mode"), .bool true),
  ((.exchange, .text "rate_limit"), .int 1200),
  ((.exchange, .text "timeout_ms"), .int 30000),
  ((.exchange, .text "retry_count"), .int 3),
  ((.strategy, .text "max_concurrent_strategies"), .int 10),
  ((.strategy, .text "evaluation_interval_seconds"), .int 60),
  ((.strategy, .text "default_timeframe"), .str "1h"),
  ((.strategy, .text "backtest_days"), .int 90),
  ((.risk, .text "max_position_pct"), .float 10),
  ((.risk, .text "stop_loss_pct"), .float 5),
  ((.risk, .text "take_profit_pct"), .float 15),
  ((.risk, .text "max_drawdown_pct"), .float 20),
  ((.risk, .text "max_open_positions"), .int 5),
  ((.risk, .text "daily_loss_limit_pct"), .float 10),
  ((.notification, .text "enabled"), .bool true),
  ((.notification, .text "channels"), .list [.str "log"]),
  ((.notification, .text "min_severity"), .str "info"),
  ((.notification, .text "throttle_seconds"), .int 60)]

/-- Python's own functions of a text. -/
structure Builtins where
  lower : String → String
  int : String → Option ℤ
  float : String → Option Value

/-- A configuration file: when it was written, and its mapping unless it holds none. -/
structure File where
  modified : ℚ
  mapping : Option (Key → Option Value)

abbrev Files := Namespace → Option File

/-- What `load` reads. There may be no directory. -/
structure Sources where
  directory : Option Files
  environ : List (String × String)

/-- A row of `config_overrides` that is active. -/
structure Row where
  ns : String
  key : String
  value : String

structure Service where
  config : Config
  /-- The watcher's `mtimes`. -/
  mtimes : Namespace → Option ℚ

inductive Operation where
  | load (sources : Sources)
  /-- `none` where there is no database or the query fails. -/
  | loadFromDbAsync (answer : Option (List Row))
  /-- One turn of the watcher's loop. -/
  | watch (sources : Sources)

section
variable (builtins : Builtins)

def coerceValue (value : String) : Value :=
  if builtins.lower value ∈ ["true", "yes"] then .bool true
  else if builtins.lower value ∈ ["false", "no"] then .bool false
  else match builtins.int value with
    | some n => .int n
    | none => (builtins.float value).getD (.str value)

def updateNamespace (files : Files) (config : Config) (ns : Namespace) : Config :=
  match (files ns).bind File.mapping with
  | some mapping => overlay (fun k => if k.1 = ns then mapping k.2 else none) config
  | none => config

def loadFromYaml (directory : Option Files) (config : Config) : Config :=
  match directory with
  | none => config
  | some files => validNamespaces.foldl (updateNamespace files) config

def environPrefix : List Char := "TRADESTREAM_".toList

/-- The key that an environment variable sets. -/
def environKey (name : String) : Option (Namespace × Key) :=
  if environPrefix.isPrefixOf name.toList then
    let rest := (builtins.lower (String.ofList (name.toList.drop environPrefix.length))).toList
    if '_' ∈ rest then
      (namespaceOf (String.ofList (rest.takeWhile (· ≠ '_')))).map fun ns =>
        (ns, .text (String.ofList (rest.dropWhile (· ≠ '_')).tail))
    else none
  else none

def setVariable (config : Config) (item : String × String) : Config :=
  match environKey builtins item.1 with
  | none => config
  | some k => assign config (k, coerceValue builtins item.2)

def loadFromEnv (environ : List (String × String)) (config : Config) : Config :=
  environ.foldl (setVariable builtins) config

def load (sources : Sources) : Config :=
  loadFromEnv builtins sources.environ (loadFromYaml sources.directory defaults)

def setRow (config : Config) (row : Row) : Config :=
  match namespaceOf row.ns with
  | none => config
  | some ns => assign config ((ns, .text row.key), coerceValue builtins row.value)

/-- The watcher's look at one file. -/
def checkFile (files : Files) (seen : (Namespace → Option ℚ) × Bool) (ns : Namespace) :
    (Namespace → Option ℚ) × Bool :=
  match files ns with
  | none => seen
  | some file =>
    if seen.1 ns = some file.modified then seen
    else (Function.update seen.1 ns (some file.modified), true)

def checkFiles (files : Files) (mtimes : Namespace → Option ℚ) : (Namespace → Option ℚ) × Bool :=
  validNamespaces.foldl (checkFile files) (mtimes, false)

/-- Whether the watcher reloads. -/
def reloads (sources : Sources) (service : Service) : Bool :=
  match sources.directory with
  | none => false
  | some files => (checkFiles files service.mtimes).2

def execute (service : Service) : Operation → Service
  | .load sources => { service with config := load builtins sources }
  | .loadFromDbAsync none => service
  -- the rows are set on top of what there is, also of earlier rows
  | .loadFromDbAsync (some rows) =>
    { service with config := rows.foldl (setRow builtins) service.config }
  | .watch sources =>
    match sources.directory with
    | none => service
    | some files =>
      ⟨if reloads sources service then load builtins sources else service.config,
        (checkFiles files service.mtimes).1⟩

/-- The values that each source gives. -/
def yamlLayer (directory : Option Files) : Config := fun k =>
  ((directory.bind fun files => files k.1).bind File.mapping).bind fun mapping => mapping k.2

def environLayer (environ : List (String × String)) : Config :=
  ofEntries (environ.filterMap fun item =>
    (environKey builtins item.1).map fun k => (k, coerceValue builtins item.2))

def databaseLayer (rows : List Row) : Config :=
  ofEntries (rows.filterMap fun row =>
    (namespaceOf row.ns).map fun ns => ((ns, .text row.key), coerceValue builtins row.value))

/-- The sources as they were last read; the database only by a fetch that succeeded. -/
structure Read where
  database : Option Config
  environ : Config
  yaml : Config

def Read.load (sources : Sources) (read : Read) : Read :=
  { read with environ := environLayer builtins sources.environ, yaml := yamlLayer sources.directory }

structure World where
  service : Service
  read : Read

def step (world : World) (operation : Operation) : World where
  service := execute builtins world.service operation
  read := match operation with
    | .load sources => world.read.load builtins sources
    | .loadFromDbAsync none => world.read
    | .loadFromDbAsync (some rows) =>
      { world.read with database := some (databaseLayer builtins rows) }
    | .watch sources =>
      if reloads sources world.service then world.read.load builtins sources else world.read

/-- A service that has read nothing. -/
def start : World := ⟨⟨defaults, fun _ => none⟩, ⟨none, bottom, bottom⟩⟩

def Read.overrides (read : Read) : Config := read.database.getD bottom

/-- What the sources below the database give. -/
def Read.lower (read : Read) : Config := overlay read.environ (overlay read.yaml defaults)

/-- Once the database has been read, every key has the value of the first source that
defines it. -/
def InPriority (world : World) : Prop :=
  world.read.database ≠ none → ∀ k, world.service.config k =
    [world.read.overrides, world.read.environ, world.read.yaml, defaults].findSome? (· k)

/-- A load finds the values of the database in the other sources. -/
def Survives (read : Read) (sources : Sources) : Prop :=
  ∀ k v, read.overrides k = some v → (read.load builtins sources).lower k = some v

/-- What an operation does not lose or leave behind. -/
def KeepsPriority (world : World) : Operation → Prop
  | .load sources => Survives builtins world.read sources
  | .loadFromDbAsync none => True
  | .loadFromDbAsync (some rows) => ∀ k v, world.read.overrides k = some v →
    databaseLayer builtins rows k = none → world.read.lower k = some v
  | .watch sources => reloads sources world.service = true → Survives builtins world.read sources

end

theorem updateNamespace_self (files : Files) (config : Config) (ns : Namespace) (key : Key) :
    updateNamespace files config ns (ns, key) =
      (((files ns).bind File.mapping).bind fun mapping => mapping key).or (config (ns, key)) := by
  unfold updateNamespace
  cases (files ns).bind File.mapping with
  | none => rfl
  | some mapping => simp [overlay]

theorem updateNamespace_of_ne (files : Files) (config : Config) {ns other : Namespace}
    (h : other ≠ ns) (key : Key) :
    updateNamespace files config ns (other, key) = config (other, key) := by
  unfold updateNamespace
  cases (files ns).bind File.mapping with
  | none => rfl
  | some mapping => simp [overlay, h]

theorem loadFromYaml_eq (directory : Option Files) (config : Config) :
    loadFromYaml directory config = overlay (yamlLayer directory) config := by
  cases directory with
  | none => rfl
  | some files =>
    funext k
    obtain ⟨ns, key⟩ := k
    simp only [loadFromYaml, validNamespaces, List.foldl_cons, List.foldl_nil]
    -- the files of the other namespaces come before or after
    cases ns with
    | exchange =>
      rw [updateNamespace_of_ne _ _ (by decide), updateNamespace_of_ne _ _ (by decide),
        updateNamespace_of_ne _ _ (by decide), updateNamespace_self]
      rfl
    | strategy =>
      rw [updateNamespace_of_ne _ _ (by decide), updateNamespace_of_ne _ _ (by decide),
        updateNamespace_self, updateNamespace_of_ne _ _ (by decide)]
      rfl
    | risk =>
      rw [updateNamespace_of_ne _ _ (by decide), updateNamespace_self,
        updateNamespace_of_ne _ _ (by decide), updateNamespace_of_ne _ _ (by decide)]
      rfl
    | notification =>
      rw [updateNamespace_self, updateNamespace_of_ne _ _ (by decide),
        updateNamespace_of_ne _ _ (by decide), updateNamespace_of_ne _ _ (by decide)]
      rfl

section
variable (builtins : Builtins)

theorem loadFromEnv_eq (environ : List (String × String)) (config : Config) :
    loadFromEnv builtins environ config = overlay (environLayer builtins environ) config := by
  rw [environLayer, ← foldl_assign, List.foldl_filterMap, loadFromEnv]
  congr 1
  funext config item
  rw [setVariable]
  cases environKey builtins item.1 <;> rfl

theorem setRows_eq (rows : List Row) (config : Config) :
    rows.foldl (setRow builtins) config = overlay (databaseLayer builtins rows) config := by
  rw [databaseLayer, ← foldl_assign, List.foldl_filterMap]
  congr 1
  funext config row
  rw [setRow]
  cases namespaceOf row.ns <;> rfl

/-- `load` starts from the defaults, and leaves the database out. -/
theorem load_eq (sources : Sources) (read : Read) :
    load builtins sources = (read.load builtins sources).lower := by
  rw [load, loadFromEnv_eq, loadFromYaml_eq]
  rfl

/-- The values in the order of their sources. -/
def Read.effective (read : Read) : Config := overlay read.overrides read.lower

variable {builtins} {world : World}

theorem findSome?_eq_effective (read : Read) (k : Namespace × Key) :
    [read.overrides, read.environ, read.yaml, defaults].findSome? (· k) = read.effective k := by
  simp only [List.findSome?_cons, List.findSome?_nil, Read.effective, Read.lower, overlay]
  cases read.overrides k with
  | some v => rfl
  | none =>
    cases read.environ k with
    | some v => rfl
    | none =>
      cases read.yaml k with
      | some v => rfl
      | none => cases defaults k <;> rfl

theorem inPriority_iff :
    InPriority world ↔
      (world.read.database ≠ none → world.service.config = world.read.effective) := by
  rw [InPriority]
  apply imp_congr_right
  intro _
  simp only [findSome?_eq_effective, funext_iff]

/-- Before the first fetch there is nothing to lose. -/
def Loaded (world : World) : Prop :=
  world.read.database = none → world.service.config = world.read.lower

theorem effective_of_not_fetched {read : Read} (h : read.database = none) :
    read.effective = read.lower := by
  rw [Read.effective, Read.overrides, h, Option.getD_none, bottom_overlay]

theorem config_eq_effective (hloaded : Loaded world) (h : InPriority world) :
    world.service.config = world.read.effective := by
  by_cases hdatabase : world.read.database = none
  · rw [hloaded hdatabase, effective_of_not_fetched hdatabase]
  · exact inPriority_iff.mp h hdatabase

theorem config_watch (sources : Sources) (service : Service) :
    (execute builtins service (.watch sources)).config =
      if reloads sources service then load builtins sources else service.config := by
  cases hdirectory : sources.directory with
  | none => simp [execute, reloads, hdirectory]
  | some files => simp [execute, hdirectory]

theorem loaded_step (h : Loaded world) (operation : Operation) :
    Loaded (step builtins world operation) := by
  cases operation with
  | load sources => exact fun _ => load_eq builtins sources world.read
  | loadFromDbAsync answer =>
    cases answer with
    | none => exact h
    | some rows => exact fun hnone => by cases hnone
  | watch sources =>
    by_cases hreloads : reloads sources world.service = true
    · intro _
      simp only [step, config_watch, hreloads, ↓reduceIte]
      exact load_eq builtins sources world.read
    · intro hnone
      simp only [step, config_watch, hreloads, Bool.false_eq_true, ↓reduceIte] at hnone ⊢
      exact h hnone

/-- A load from scratch loses what only the database gives. -/
theorem inPriority_load_iff {after : World} (sources : Sources)
    (hconfig : after.service.config = load builtins sources)
    (hread : after.read = world.read.load builtins sources) :
    InPriority after ↔ Survives builtins world.read sources := by
  have hoverrides : (world.read.load builtins sources).overrides = world.read.overrides := rfl
  rw [inPriority_iff, hconfig, hread, load_eq builtins sources world.read, Survives,
    ← overlay_eq_right_iff, Read.effective, hoverrides]
  cases hdatabase : world.read.database with
  | none =>
    refine iff_of_true (fun h => absurd hdatabase h) ?_
    rw [Read.overrides, hdatabase, Option.getD_none, bottom_overlay]
  | some database =>
    have hne : (world.read.load builtins sources).database ≠ none := by
      rw [Read.load, hdatabase]
      exact Option.some_ne_none database
    exact (forall_prop_of_true hne).trans eq_comm

theorem inPriority_step_iff (hloaded : Loaded world) (h : InPriority world)
    (operation : Operation) :
    InPriority (step builtins world operation) ↔ KeepsPriority builtins world operation := by
  cases operation with
  | load sources => exact inPriority_load_iff sources rfl rfl
  | loadFromDbAsync answer =>
    cases answer with
    | none => exact iff_of_true h trivial
    | some rows =>
      -- the new rows go over the old ones, which should have gone
      have hconfig := config_eq_effective hloaded h
      have hne : (step builtins world (.loadFromDbAsync (some rows))).read.database ≠ none :=
        Option.some_ne_none _
      rw [inPriority_iff, forall_prop_of_true hne]
      simp only [step, execute, setRows_eq, hconfig]
      exact overlay_overlay_eq_iff
  | watch sources =>
    -- a reload is a load, with what it loses
    by_cases hreloads : reloads sources world.service = true
    · have hconfig : (step builtins world (.watch sources)).service.config =
          load builtins sources := by
        simp only [step, config_watch, hreloads, ↓reduceIte]
      have hread : (step builtins world (.watch sources)).read =
          world.read.load builtins sources := if_pos hreloads
      rw [inPriority_load_iff sources hconfig hread, KeepsPriority, forall_prop_of_true hreloads]
    -- no file has changed, so that nothing is read
    · have hconfig : (step builtins world (.watch sources)).service.config =
          world.service.config := by
        simp only [step, config_watch, hreloads, Bool.false_eq_true, ↓reduceIte]
      have hread : (step builtins world (.watch sources)).read = world.read := if_neg hreloads
      refine iff_of_true ?_ fun hreload => absurd hreload hreloads
      rw [inPriority_iff, hconfig, hread]
      exact inPriority_iff.mp h

/-- Every key keeps the value of its first source in every state reached exactly as long as
no load finds an override of the database missing in the other sources, and no fetch leaves
an override behind that is gone. -/
theorem inPriority_iff_keepsPriority (operations : List Operation) :
    (∀ reached, reached <+: operations → InPriority (reached.foldl (step builtins) start)) ↔
      ∀ earlier operation, earlier ++ [operation] <+: operations →
        KeepsPriority builtins (earlier.foldl (step builtins) start) operation := by
  apply forall_reached_iff_forall_step (step builtins) (I := Loaded)
  · exact fun world operation h => loaded_step h operation
  · exact fun world operation hloaded h => inPriority_step_iff hloaded h operation
  · intro _
    rfl
  · exact fun h => absurd rfl h

end

/-- The functions on ASCII texts, none of which is a float. -/
def asciiBuiltins : Builtins where
  lower := fun text => String.ofList (text.toList.map Char.toLower)
  int := fun text => IntText.int text.toList
  float := fun _ => none

def maxPosition : Namespace × Key := (.risk, .text "max_position_pct")

def maxPositionRow : Row := ⟨"risk", "max_position_pct", "7"⟩

/-- An edited `strategy.yaml`. -/
def editedStrategy : Sources :=
  ⟨some fun ns => if ns = .strategy then
    some ⟨1, some fun key => if key = .text "backtest_days" then some (.int 30) else none⟩
  else none, []⟩

/-- A reload takes an override back, and a fetch without it leaves it. -/
theorem reloaded_not_inPriority :
    (¬ ∀ reached, reached <+: [.loadFromDbAsync (some [maxPositionRow]), .watch editedStrategy] →
      InPriority (reached.foldl (step asciiBuiltins) start)) ∧
    ¬ ∀ reached, reached <+: [.loadFromDbAsync (some [maxPositionRow]), .loadFromDbAsync (some [])] →
      InPriority (reached.foldl (step asciiBuiltins) start) := by
  constructor
  · intro h
    have hreset : some (Value.float 10) = some (.int 7) :=
      h _ List.prefix_rfl (Option.some_ne_none _) maxPosition
    cases hreset
  · intro h
    have hstale : some (Value.int 7) = some (.float 10) :=
      h _ List.prefix_rfl (Option.some_ne_none _) maxPosition
    cases hstale

end TradeStream.ConfigLayers
