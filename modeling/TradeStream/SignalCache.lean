import TradeStream.RunSteps

/-! `SignalCache` of the autonomous runner: Redis first, a local dictionary behind it. A call
takes the time that `time.time()` returns in it, and Redis has the same clock. The values
are JSON values, which Redis gives back as they were put. -/
namespace TradeStream.SignalCache
open TradeStream.RunSteps

structure CacheConfig where
  strategyListTtl : ℚ := 300
  strategySignalTtl : ℚ := 60
  marketPriceTtl : ℚ := 10
  volatilityTtl : ℚ := 60
  degradedStrategyTtl : ℚ := 600
  degradedPriceTtl : ℚ := 120
  redisKeyPrefix : String := "signal-gen:cache:"
  localFallbackEnabled : Bool := true

/-- Data types are literals in the callers, none with a colon in it. -/
@[ext] structure DataType where
  name : String
  no_colon : ':' ∉ name.toList
  deriving DecidableEq

/-- `_TTL_MAP`: the normal and the degraded field. -/
def ttlMap : String → Option ((CacheConfig → ℚ) × (CacheConfig → ℚ))
  | "strategies" => some (CacheConfig.strategyListTtl, CacheConfig.degradedStrategyTtl)
  | "strategy_signal" => some (CacheConfig.strategySignalTtl, CacheConfig.strategySignalTtl)
  | "market_price" => some (CacheConfig.marketPriceTtl, CacheConfig.degradedPriceTtl)
  | "volatility" => some (CacheConfig.volatilityTtl, CacheConfig.volatilityTtl)
  | "market_summary" => some (CacheConfig.marketPriceTtl, CacheConfig.degradedPriceTtl)
  | "recent_signals" => some (CacheConfig.strategySignalTtl, CacheConfig.strategySignalTtl)
  | _ => none

def getTtl (config : CacheConfig) (dataType : DataType) (degraded : Bool) : ℚ :=
  match ttlMap dataType.name with
  | none => 60
  | some (normalField, degradedField) =>
    if degraded then degradedField config else normalField config

def fullKey (config : CacheConfig) (dataType : DataType) (key : String) : String :=
  config.redisKeyPrefix ++ dataType.name ++ ":" ++ key

/-- `int(ttl)`. -/
def wholeSeconds (ttl : ℚ) : ℤ :=
  if 0 ≤ ttl then ⌊ttl⌋ else ⌈ttl⌉

structure Payload (V : Type*) where
  value : V
  cachedAt : ℚ

structure RedisEntry (V : Type*) where
  payload : Payload V
  expiresAt : ℚ

structure CacheStats where
  hits : ℕ := 0
  misses : ℕ := 0
  sets : ℕ := 0
  errors : ℕ := 0

structure Cache (V : Type*) where
  redis : String → Option (RedisEntry V) := fun _ => none
  localCache : String → Option (V × ℚ) := fun _ => none
  stats : CacheStats := {}

/-- How a call to Redis ends. One that raises may have been carried out all the same. -/
inductive Reply where
  | ok
  | raises
  | raisesAfterwards
  deriving DecidableEq

structure Setup where
  config : CacheConfig := {}
  hasRedis : Bool := true

variable {V : Type*}

def Cache.hit (cache : Cache V) : Cache V :=
  { cache with stats := { cache.stats with hits := cache.stats.hits + 1 } }

def Cache.miss (cache : Cache V) : Cache V :=
  { cache with stats := { cache.stats with misses := cache.stats.misses + 1 } }

def Cache.countSet (cache : Cache V) : Cache V :=
  { cache with stats := { cache.stats with sets := cache.stats.sets + 1 } }

def Cache.countError (cache : Cache V) : Cache V :=
  { cache with stats := { cache.stats with errors := cache.stats.errors + 1 } }

/-- Redis drops a key once its time has passed. -/
def Cache.redisGet (cache : Cache V) (now : ℚ) (fullKey : String) : Option (Payload V) :=
  match cache.redis fullKey with
  | some entry => if now ≤ entry.expiresAt then some entry.payload else none
  | none => none

variable (setup : Setup)

/-- The first part of `get`: what Redis answers, if it is young enough. -/
def Cache.fromRedis (cache : Cache V) (now : ℚ) (dataType : DataType) (key : String)
    (degraded : Bool) (reply : Reply) : Option V :=
  if setup.hasRedis = true ∧ reply = .ok then
    match cache.redisGet now (fullKey setup.config dataType key) with
    | some payload =>
      if now - payload.cachedAt < getTtl setup.config dataType degraded then some payload.value
      else none
    | none => none
  else none

/-- Its second part. -/
def Cache.fromLocal (cache : Cache V) (now : ℚ) (dataType : DataType) (key : String) :
    Option V × Cache V :=
  let fullKey := fullKey setup.config dataType key
  if setup.config.localFallbackEnabled then
    match cache.localCache fullKey with
    | some (value, expiresAt) =>
      if now < expiresAt then (some value, cache.hit)
      else (none, Cache.miss { cache with
        localCache := Function.update cache.localCache fullKey none })
    | none => (none, cache.miss)
  else (none, cache.miss)

def Cache.get (cache : Cache V) (now : ℚ) (dataType : DataType) (key : String)
    (degraded : Bool) (reply : Reply) : Option V × Cache V :=
  match cache.fromRedis setup now dataType key degraded reply with
  | some value => (some value, cache.hit)
  | none =>
    -- an exception is counted, and the local dictionary asked
    if setup.hasRedis = true ∧ reply ≠ .ok then
      cache.countError.fromLocal setup now dataType key
    else cache.fromLocal setup now dataType key

/-- The `SETEX` of `put`. Redis refuses an expiry that is not positive. -/
def Cache.putRedis (cache : Cache V) (now : ℚ) (dataType : DataType) (key : String) (value : V)
    (reply : Reply) : Cache V :=
  let seconds := wholeSeconds (getTtl setup.config dataType false)
  let entry : RedisEntry V := ⟨⟨value, now⟩, now + seconds⟩
  let written := Function.update cache.redis (fullKey setup.config dataType key) (some entry)
  -- a time-to-live below one second is refused as well
  if 0 < seconds then
    match reply with
    | .ok => Cache.countSet { cache with redis := written }
    | .raises => cache.countError
    | .raisesAfterwards => Cache.countError { cache with redis := written }
  else cache.countError

def Cache.put (cache : Cache V) (now : ℚ) (dataType : DataType) (key : String) (value : V)
    (reply : Reply) : Cache V :=
  let cache := if setup.hasRedis then cache.putRedis setup now dataType key value reply else cache
  if setup.config.localFallbackEnabled then
    Cache.countSet { cache with
      localCache := Function.update cache.localCache (fullKey setup.config dataType key)
        (some (value, now + getTtl setup.config dataType false)) }
  else cache

def Cache.invalidate (cache : Cache V) (dataType : DataType) (key : String) (reply : Reply) :
    Cache V where
  redis :=
    if setup.hasRedis = true ∧ reply ≠ .raises then
      Function.update cache.redis (fullKey setup.config dataType key) none
    else cache.redis
  localCache := Function.update cache.localCache (fullKey setup.config dataType key) none
  stats := cache.stats

/-- What happens to a cache: calls, and time that passes between them. -/
inductive Op (V : Type*) where
  | wait (seconds : ℚ≥0)
  | put (dataType : DataType) (key : String) (value : V) (reply : Reply)
  | get (dataType : DataType) (key : String) (degraded : Bool) (reply : Reply)
  | invalidate (dataType : DataType) (key : String) (reply : Reply)

/-- `latest` observes the puts that were not invalidated since, with their times. -/
structure World (V : Type*) where
  now : ℚ := 0
  cache : Cache V := {}
  latest : DataType → String → Option (V × ℚ) := fun _ _ => none

def setLatest (latest : DataType → String → Option (V × ℚ)) (dataType : DataType) (key : String)
    (written : Option (V × ℚ)) : DataType → String → Option (V × ℚ) :=
  fun dataType' key' =>
    if dataType' = dataType ∧ key' = key then written else latest dataType' key'

def World.step (world : World V) : Op V → World V
  | .wait seconds => { world with now := world.now + seconds }
  | .put dataType key value reply =>
    { world with
      cache := world.cache.put setup world.now dataType key value reply
      latest := setLatest world.latest dataType key (some (value, world.now)) }
  | .get dataType key degraded reply =>
    { world with cache := (world.cache.get setup world.now dataType key degraded reply).2 }
  | .invalidate dataType key reply =>
    { world with
      cache := world.cache.invalidate setup dataType key reply
      latest := setLatest world.latest dataType key none }

/-- What a `get` is for: the latest value, until it is too old. -/
def World.expected (world : World V) (dataType : DataType) (key : String) (degraded : Bool) :
    Option V :=
  match world.latest dataType key with
  | some (value, putAt) =>
    if world.now - putAt < getTtl setup.config dataType degraded then some value else none
  | none => none

def World.GetsLatest (world : World V) : Op V → Prop
  | .get dataType key degraded reply =>
    (world.cache.get setup world.now dataType key degraded reply).1 =
      world.expected setup dataType key degraded
  | _ => True

/-- What Redis still answers is the latest value. Where it answers nothing young enough,
the latest put has the age that a normal read allows, and a local entry, exactly if it has
the age that this read allows. -/
def World.LevelsAgree (world : World V) : Op V → Prop
  | .get dataType key degraded reply =>
    match world.cache.fromRedis setup world.now dataType key degraded reply with
    | some value => ∃ putAt, world.latest dataType key = some (value, putAt)
    | none => ∀ value putAt, world.latest dataType key = some (value, putAt) →
        (setup.config.localFallbackEnabled = true ∧
            world.now - putAt < getTtl setup.config dataType false ↔
          world.now - putAt < getTtl setup.config dataType degraded)
  | _ => True

/-- What the local dictionary has of a key whose latest put is known: the put itself, or
nothing once it has expired. -/
def LocalOfLatest (dataType : DataType) (now : ℚ) : Option (V × ℚ) → Option (V × ℚ) → Prop
  | some (value, putAt), some (value', expiresAt) =>
    setup.config.localFallbackEnabled = true ∧ value' = value ∧
      expiresAt = putAt + getTtl setup.config dataType false
  | some (_, putAt), none =>
    setup.config.localFallbackEnabled = true →
      putAt + getTtl setup.config dataType false ≤ now
  | none, entry => entry = none

/-- The local dictionary goes with the latest puts, and what Redis holds is never younger
than they are. -/
structure World.Inv (world : World V) : Prop where
  local_latest : ∀ dataType key, LocalOfLatest setup dataType world.now
    (world.latest dataType key) (world.cache.localCache (fullKey setup.config dataType key))
  redis_le_now : ∀ fullKey entry, world.cache.redis fullKey = some entry →
    entry.payload.cachedAt ≤ world.now
  redis_le_latest : ∀ dataType key entry value putAt,
    world.cache.redis (fullKey setup.config dataType key) = some entry →
      world.latest dataType key = some (value, putAt) → entry.payload.cachedAt ≤ putAt

variable {setup}

/-- A word without the separator in it ends at the separator. -/
theorem append_cons_inj_of_notMem {α : Type*} {a : α} {name name' key key' : List α}
    (h : a ∉ name) (h' : a ∉ name') (heq : name ++ a :: key = name' ++ a :: key') :
    name = name' ∧ key = key' := by
  induction name generalizing name' with
  | nil =>
    cases name' with
    | nil => exact ⟨rfl, (List.cons.inj heq).2⟩
    | cons b name' => exact absurd (List.cons.inj heq).1 (List.ne_of_not_mem_cons h')
  | cons b name ih =>
    cases name' with
    | nil => exact absurd (List.cons.inj heq).1.symm (List.ne_of_not_mem_cons h)
    | cons b' name' =>
      obtain ⟨rfl, htail⟩ := List.cons.inj heq
      obtain ⟨rfl, rfl⟩ :=
        ih (List.not_mem_of_not_mem_cons h) (List.not_mem_of_not_mem_cons h') htail
      exact ⟨rfl, rfl⟩

theorem fullKey_inj {config : CacheConfig} {dataType dataType' : DataType} {key key' : String} :
    fullKey config dataType key = fullKey config dataType' key' ↔
      dataType = dataType' ∧ key = key' := by
  constructor
  · intro h
    have hlist : dataType.name.toList ++ ':' :: key.toList =
        dataType'.name.toList ++ ':' :: key'.toList := by
      have h' := congrArg String.toList h
      simpa [fullKey] using h'
    obtain ⟨hname, hkey⟩ :=
      append_cons_inj_of_notMem dataType.no_colon dataType'.no_colon hlist
    exact ⟨DataType.ext (String.toList_inj.mp hname), String.toList_inj.mp hkey⟩
  · rintro ⟨rfl, rfl⟩
    rfl

theorem update_fullKey {α : Type*} (config : CacheConfig) (table : String → Option α)
    (dataType dataType' : DataType) (key key' : String) (entry : Option α) :
    Function.update table (fullKey config dataType key) entry (fullKey config dataType' key') =
      if dataType' = dataType ∧ key' = key then entry else table (fullKey config dataType' key') := by
  rw [Function.update_apply]
  simp only [fullKey_inj]

@[simp] theorem redis_hit (cache : Cache V) : cache.hit.redis = cache.redis := rfl
@[simp] theorem redis_miss (cache : Cache V) : cache.miss.redis = cache.redis := rfl
@[simp] theorem redis_countSet (cache : Cache V) : cache.countSet.redis = cache.redis := rfl
@[simp] theorem redis_countError (cache : Cache V) : cache.countError.redis = cache.redis := rfl
@[simp] theorem localCache_hit (cache : Cache V) : cache.hit.localCache = cache.localCache := rfl
@[simp] theorem localCache_miss (cache : Cache V) : cache.miss.localCache = cache.localCache :=
  rfl
@[simp] theorem localCache_countSet (cache : Cache V) :
    cache.countSet.localCache = cache.localCache := rfl
@[simp] theorem localCache_countError (cache : Cache V) :
    cache.countError.localCache = cache.localCache := rfl

/-- What a local entry still gives. -/
def Cache.localGet (cache : Cache V) (now : ℚ) (fullKey : String) : Option V :=
  match cache.localCache fullKey with
  | some (value, expiresAt) => if now < expiresAt then some value else none
  | none => none

theorem fromLocal_value (cache : Cache V) (now : ℚ) (dataType : DataType) (key : String) :
    (cache.fromLocal setup now dataType key).1 =
      if setup.config.localFallbackEnabled then
        cache.localGet now (fullKey setup.config dataType key)
      else none := by
  unfold Cache.fromLocal Cache.localGet
  cases setup.config.localFallbackEnabled with
  | false => rfl
  | true =>
    cases hentry : cache.localCache (fullKey setup.config dataType key) with
    | none => simp [hentry]
    | some entry =>
      by_cases hlive : now < entry.2 <;> simp [hentry, hlive]

/-- The value of `get`: from Redis, or else from the local dictionary. -/
theorem get_value (cache : Cache V) (now : ℚ) (dataType : DataType) (key : String)
    (degraded : Bool) (reply : Reply) :
    (cache.get setup now dataType key degraded reply).1 =
      (cache.fromRedis setup now dataType key degraded reply).or
        (if setup.config.localFallbackEnabled then
          cache.localGet now (fullKey setup.config dataType key)
        else none) := by
  unfold Cache.get
  cases cache.fromRedis setup now dataType key degraded reply with
  | some value => rfl
  | none =>
    dsimp only
    rw [Option.none_or]
    by_cases herror : setup.hasRedis = true ∧ reply ≠ .ok
    · rw [if_pos herror]
      exact fromLocal_value cache.countError now dataType key
    · rw [if_neg herror]
      exact fromLocal_value cache now dataType key

/-- The two levels after a call that reads: a local entry that has expired may be gone. -/
def Cache.SameLevels (cache cache' : Cache V) (now : ℚ) (fullKey : String) : Prop :=
  cache'.redis = cache.redis ∧
    (cache'.localCache = cache.localCache ∨
      cache'.localCache = Function.update cache.localCache fullKey none ∧
        ∃ value expiresAt, cache.localCache fullKey = some (value, expiresAt) ∧ expiresAt ≤ now)

theorem fromLocal_levels (cache : Cache V) (now : ℚ) (dataType : DataType) (key : String) :
    cache.SameLevels (cache.fromLocal setup now dataType key).2 now
      (fullKey setup.config dataType key) := by
  unfold Cache.fromLocal
  cases setup.config.localFallbackEnabled with
  | false => exact ⟨rfl, .inl rfl⟩
  | true =>
    cases hentry : cache.localCache (fullKey setup.config dataType key) with
    | none => simp [hentry, Cache.SameLevels]
    | some entry =>
      by_cases hlive : now < entry.2
      · simp [hentry, hlive, Cache.SameLevels]
      · simp only [hentry, hlive, ↓reduceIte]
        exact ⟨rfl, .inr ⟨rfl, entry.1, entry.2, hentry, not_lt.mp hlive⟩⟩

variable (setup) in
theorem get_levels (cache : Cache V) (now : ℚ) (dataType : DataType) (key : String)
    (degraded : Bool) (reply : Reply) :
    cache.SameLevels (cache.get setup now dataType key degraded reply).2 now
      (fullKey setup.config dataType key) := by
  unfold Cache.get
  cases cache.fromRedis setup now dataType key degraded reply with
  | some value => exact ⟨rfl, .inl rfl⟩
  | none =>
    dsimp only
    by_cases herror : setup.hasRedis = true ∧ reply ≠ .ok
    · rw [if_pos herror]
      exact fromLocal_levels cache.countError now dataType key
    · rw [if_neg herror]
      exact fromLocal_levels cache now dataType key

theorem putRedis_localCache (cache : Cache V) (now : ℚ) (dataType : DataType) (key : String)
    (value : V) (reply : Reply) :
    (cache.putRedis setup now dataType key value reply).localCache = cache.localCache := by
  simp only [Cache.putRedis]
  split_ifs
  · cases reply <;> rfl
  · rfl

theorem put_localCache (cache : Cache V) (now : ℚ) (dataType : DataType) (key : String)
    (value : V) (reply : Reply) :
    (cache.put setup now dataType key value reply).localCache =
      if setup.config.localFallbackEnabled then
        Function.update cache.localCache (fullKey setup.config dataType key)
          (some (value, now + getTtl setup.config dataType false))
      else cache.localCache := by
  unfold Cache.put
  cases setup.config.localFallbackEnabled <;> cases setup.hasRedis <;>
    simp [putRedis_localCache]

variable (setup) in
/-- `put` writes to Redis, or not. -/
theorem put_redis (cache : Cache V) (now : ℚ) (dataType : DataType) (key : String)
    (value : V) (reply : Reply) :
    (cache.put setup now dataType key value reply).redis = cache.redis ∨
      ∃ expiresAt, (cache.put setup now dataType key value reply).redis =
        Function.update cache.redis (fullKey setup.config dataType key)
          (some ⟨⟨value, now⟩, expiresAt⟩) := by
  have hlocal : (cache.put setup now dataType key value reply).redis =
      (if setup.hasRedis then cache.putRedis setup now dataType key value reply
        else cache).redis := by
    unfold Cache.put
    cases setup.config.localFallbackEnabled <;> rfl
  rw [hlocal]
  simp only [Cache.putRedis]
  split_ifs
  · cases reply with
    | ok => exact .inr ⟨_, rfl⟩
    | raises => exact .inl rfl
    | raisesAfterwards => exact .inr ⟨_, rfl⟩
  · exact .inl rfl
  · exact .inl rfl

theorem latest_setLatest (latest : DataType → String → Option (V × ℚ)) (dataType : DataType)
    (key : String) (written : Option (V × ℚ)) (dataType' : DataType) (key' : String) :
    setLatest latest dataType key written dataType' key' =
      if dataType' = dataType ∧ key' = key then written else latest dataType' key' := rfl

theorem LocalOfLatest.mono {dataType : DataType} {now now' : ℚ} (hnow : now ≤ now')
    {latest entry : Option (V × ℚ)} (h : LocalOfLatest setup dataType now latest entry) :
    LocalOfLatest setup dataType now' latest entry := by
  match latest, entry, h with
  | some _, some _, h => exact h
  | some _, none, h => exact fun henabled => (h henabled).trans hnow
  | none, _, h => exact h

/-- The entry of a key may go when it has expired. -/
theorem LocalOfLatest.expired {dataType : DataType} {now : ℚ} {latest : Option (V × ℚ)}
    {value : V} {expiresAt : ℚ}
    (h : LocalOfLatest setup dataType now latest (some (value, expiresAt)))
    (hexpired : expiresAt ≤ now) : LocalOfLatest setup dataType now latest none := by
  match latest, h with
  | some (value', putAt), ⟨_, _, hexpiresAt⟩ =>
    intro _
    rwa [← hexpiresAt]

theorem LocalOfLatest.eq_none {dataType : DataType} {now : ℚ}
    {latest entry : Option (V × ℚ)} (h : LocalOfLatest setup dataType now latest entry)
    (hdisabled : setup.config.localFallbackEnabled = false) : entry = none := by
  cases entry with
  | none => rfl
  | some entry =>
    cases latest with
    | none => exact h
    | some put =>
      obtain ⟨henabled, -⟩ := h
      simp [hdisabled] at henabled

theorem inv_wait {world : World V} (h : world.Inv setup) (seconds : ℚ≥0) :
    (world.step setup (.wait seconds)).Inv setup := by
  have hnow : world.now ≤ world.now + seconds := le_add_of_nonneg_right seconds.coe_nonneg
  constructor
  · intro dataType key
    exact (h.local_latest dataType key).mono hnow
  · intro fullKey entry hentry
    exact (h.redis_le_now fullKey entry hentry).trans hnow
  · exact h.redis_le_latest

theorem inv_put {world : World V} (h : world.Inv setup) (dataType : DataType) (key : String)
    (value : V) (reply : Reply) :
    (world.step setup (.put dataType key value reply)).Inv setup := by
  -- an entry of Redis is an old one, or the one that is written
  have hredis : ∀ fullKey' entry,
      (world.cache.put setup world.now dataType key value reply).redis fullKey' = some entry →
        world.cache.redis fullKey' = some entry ∨
          fullKey' = fullKey setup.config dataType key ∧ entry.payload.cachedAt = world.now := by
    intro fullKey' entry hentry
    rcases put_redis setup world.cache world.now dataType key value reply with
      hold | ⟨expiresAt, hnew⟩
    · exact .inl (hold ▸ hentry)
    · rw [hnew, Function.update_apply] at hentry
      split_ifs at hentry with hkey
      · exact .inr ⟨hkey, by rw [← Option.some.inj hentry]⟩
      · exact .inl hentry
  constructor
  · intro dataType' key'
    have hlocal := h.local_latest dataType' key'
    simp only [World.step, latest_setLatest, put_localCache]
    by_cases hsame : dataType' = dataType ∧ key' = key
    · -- of the key itself the entry is the new one, unless the dictionary is off
      rw [if_pos hsame]
      obtain ⟨rfl, rfl⟩ := hsame
      split_ifs with henabled
      · rw [Function.update_self]
        exact ⟨henabled, rfl, rfl⟩
      · rw [hlocal.eq_none (by simpa using henabled)]
        exact fun henabled' => absurd henabled' henabled
    · rw [if_neg hsame]
      split_ifs
      · rwa [update_fullKey, if_neg hsame]
      · exact hlocal
  · intro fullKey' entry hentry
    rcases hredis fullKey' entry hentry with hold | ⟨-, hnow⟩
    · exact h.redis_le_now fullKey' entry hold
    · exact hnow.le
  · intro dataType' key' entry value' putAt hentry hlatest
    simp only [World.step, latest_setLatest] at hlatest
    split_ifs at hlatest with hsame
    · obtain rfl : world.now = putAt := congrArg Prod.snd (Option.some.inj hlatest)
      rcases hredis _ entry hentry with hold | ⟨-, hnow⟩
      · exact h.redis_le_now _ entry hold
      · exact hnow.le
    · rcases hredis _ entry hentry with hold | ⟨hkey, -⟩
      · exact h.redis_le_latest dataType' key' entry value' putAt hold hlatest
      · exact absurd (fullKey_inj.mp hkey) hsame

theorem inv_get {world : World V} (h : world.Inv setup) (dataType : DataType) (key : String)
    (degraded : Bool) (reply : Reply) :
    (world.step setup (.get dataType key degraded reply)).Inv setup := by
  obtain ⟨hredis, hlocal⟩ := get_levels setup world.cache world.now dataType key
    degraded reply
  constructor
  · intro dataType' key'
    have hold := h.local_latest dataType' key'
    simp only [World.step]
    rcases hlocal with hsame | ⟨hdropped, value, expiresAt, hentry, hexpired⟩
    · rwa [hsame]
    · rw [hdropped, update_fullKey]
      split_ifs with hsame
      · -- the entry that is dropped had expired
        obtain ⟨rfl, rfl⟩ := hsame
        rw [hentry] at hold
        exact hold.expired hexpired
      · exact hold
  · intro fullKey' entry hentry
    simp only [World.step, hredis] at hentry
    exact h.redis_le_now fullKey' entry hentry
  · intro dataType' key' entry value putAt hentry hlatest
    simp only [World.step, hredis] at hentry
    exact h.redis_le_latest dataType' key' entry value putAt hentry hlatest

theorem inv_invalidate {world : World V} (h : world.Inv setup) (dataType : DataType)
    (key : String) (reply : Reply) :
    (world.step setup (.invalidate dataType key reply)).Inv setup := by
  -- an invalidation adds nothing to Redis, and may take nothing away
  have hredis : ∀ fullKey' entry,
      (world.cache.invalidate setup dataType key reply).redis fullKey' = some entry →
        world.cache.redis fullKey' = some entry := by
    intro fullKey' entry hentry
    simp only [Cache.invalidate] at hentry
    split_ifs at hentry
    · rw [Function.update_apply] at hentry
      split_ifs at hentry
      exact hentry
    · exact hentry
  constructor
  · intro dataType' key'
    simp only [World.step, latest_setLatest, Cache.invalidate, update_fullKey]
    split_ifs
    · rfl
    · exact h.local_latest dataType' key'
  · intro fullKey' entry hentry
    exact h.redis_le_now fullKey' entry (hredis fullKey' entry hentry)
  · intro dataType' key' entry value putAt hentry hlatest
    simp only [World.step, latest_setLatest] at hlatest
    split_ifs at hlatest
    exact h.redis_le_latest dataType' key' entry value putAt (hredis _ entry hentry) hlatest

theorem inv_step {world : World V} (h : world.Inv setup) (op : Op V) :
    (world.step setup op).Inv setup := by
  cases op with
  | wait seconds => exact inv_wait h seconds
  | put dataType key value reply => exact inv_put h dataType key value reply
  | get dataType key degraded reply => exact inv_get h dataType key degraded reply
  | invalidate dataType key reply => exact inv_invalidate h dataType key reply

/-- What Redis answers was put no later than the latest put. -/
theorem fromRedis_young {world : World V} (h : world.Inv setup) {dataType : DataType}
    {key : String} {degraded : Bool} {reply : Reply} {value latest : V} {putAt : ℚ}
    (hredis : world.cache.fromRedis setup world.now dataType key degraded reply = some value)
    (hlatest : world.latest dataType key = some (latest, putAt)) :
    world.now - putAt < getTtl setup.config dataType degraded := by
  simp only [Cache.fromRedis, Cache.redisGet] at hredis
  split_ifs at hredis
  cases hentry : world.cache.redis (fullKey setup.config dataType key) with
  | none => simp [hentry] at hredis
  | some entry =>
    have hle := h.redis_le_latest dataType key entry latest putAt hentry hlatest
    by_cases hlive : world.now ≤ entry.expiresAt
    · simp only [hentry, hlive, ↓reduceIte] at hredis
      split_ifs at hredis with hyoung
      linarith
    · simp [hentry, hlive] at hredis

/-- What the local dictionary answers: the latest put, while a normal read allows it. -/
theorem localGet_of_latest {dataType : DataType} {now : ℚ} {cache : Cache V} {key : String}
    {value : V} {putAt : ℚ}
    (h : LocalOfLatest setup dataType now (some (value, putAt))
      (cache.localCache (fullKey setup.config dataType key))) :
    (if setup.config.localFallbackEnabled then
        cache.localGet now (fullKey setup.config dataType key)
      else none) =
      if setup.config.localFallbackEnabled = true ∧
          now - putAt < getTtl setup.config dataType false then some value
      else none := by
  have hage : now - putAt < getTtl setup.config dataType false ↔
      now < putAt + getTtl setup.config dataType false := sub_lt_iff_lt_add'
  by_cases henabled : setup.config.localFallbackEnabled = true
  · rw [if_pos henabled]
    simp only [henabled, true_and, hage, Cache.localGet]
    generalize cache.localCache (fullKey setup.config dataType key) = entry at h ⊢
    match entry, h with
    | some (value', expiresAt), ⟨_, hvalue, hexpiresAt⟩ => simp [hvalue, hexpiresAt]
    | none, hold => simp [(hold henabled).not_gt]
  · simp [henabled]

theorem ite_some_inj {p q : Prop} [Decidable p] [Decidable q] (value : V) :
    ((if p then some value else none) = if q then some value else none) ↔ (p ↔ q) := by
  by_cases hp : p <;> by_cases hq : q <;> simp [hp, hq]

/-- The step lemma. -/
theorem getsLatest_iff_levelsAgree {world : World V} (h : world.Inv setup) (op : Op V) :
    world.GetsLatest setup op ↔ world.LevelsAgree setup op := by
  cases op with
  | get dataType key degraded reply =>
    have hlocal := h.local_latest dataType key
    simp only [World.GetsLatest, World.LevelsAgree, World.expected, get_value]
    cases hredis : world.cache.fromRedis setup world.now dataType key degraded reply with
    | some value =>
      -- Redis answers first
      simp only [Option.some_or]
      match hlatest : world.latest dataType key with
      | none => simp
      | some (latest, putAt) =>
        have hyoung := fromRedis_young h hredis hlatest
        simp [hyoung, eq_comm]
    | none =>
      -- the local dictionary answers, with the age that a normal read allows
      simp only [Option.none_or]
      match hlatest : world.latest dataType key with
      | none =>
        rw [hlatest] at hlocal
        have hempty : world.cache.localCache (fullKey setup.config dataType key) = none := hlocal
        simp [Cache.localGet, hempty]
      | some (latest, putAt) =>
        rw [hlatest] at hlocal
        rw [localGet_of_latest hlocal]
        simp only [Option.some.injEq, Prod.mk.injEq, and_imp, forall_apply_eq_imp_iff,
          forall_eq']
        exact ite_some_inj _
  | wait seconds => exact Iff.rfl
  | put dataType key value reply => exact Iff.rfl
  | invalidate dataType key reply => exact Iff.rfl

variable (setup) in
/-- Every `get` of a run returns the latest value exactly if the levels agree on it. -/
theorem getsLatest_iff (ops : List (Op V)) :
    (∀ earlier op, earlier ++ [op] <+: ops →
        (earlier.foldl (World.step setup) {}).GetsLatest setup op) ↔
      ∀ earlier op, earlier ++ [op] <+: ops →
        (earlier.foldl (World.step setup) {}).LevelsAgree setup op := by
  apply forall_prefix_iff (World.step setup) (I := World.Inv setup) (P := fun _ => True)
  · intro world op h
    exact inv_step h op
  · intro world op h _
    exact getsLatest_iff_levelsAgree h op
  · exact fun _ _ _ _ _ => trivial
  · exact ⟨fun _ _ => rfl, fun _ _ => nofun, fun _ _ _ _ _ => nofun⟩
  · trivial

/-- A price is put, and after 20 seconds asked for as a degraded read, which allows 120.
Redis has dropped it, and so has the local dictionary. -/
theorem degradedPrice_not_getsLatest :
    ¬ ∀ earlier op, earlier ++ [op] <+:
        [Op.put ⟨"market_price", by decide⟩ "BTC-USD" 50000 .ok, .wait 20,
          .get ⟨"market_price", by decide⟩ "BTC-USD" true .ok] →
      (earlier.foldl (World.step {}) {}).GetsLatest {} op := by
  intro h
  have hlast := h [.put ⟨"market_price", by decide⟩ "BTC-USD" 50000 .ok, .wait 20] _
    List.prefix_rfl
  revert hlast
  simp only [World.GetsLatest]
  decide +kernel

end TradeStream.SignalCache
