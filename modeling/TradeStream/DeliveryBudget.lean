import TradeStream.DeliveryRouter
import TradeStream.IntText

/-! The rate limiter behind the delivery router, with its counters in Redis: calls of
`route_signal` for any users and signals. -/
namespace TradeStream.DeliveryBudget
open TradeStream.KeyedTable TradeStream.RunSteps TradeStream.Delivery

/-! ### The counters -/

structure Counter where
  value : ℕ
  expiresAt : Option ℤ
  deriving DecidableEq

abbrev Redis := Table String Counter

namespace Redis
variable (redis : Redis) (now : ℤ) (key : String)

/-- What a command finds. -/
def get : Option Counter := (redis.lookup key).filter fun c => c.expiresAt.all (now < ·)

def setex (seconds : ℕ) : Redis := redis.insert key ⟨1, some (now + seconds)⟩

/-- A counter keeps its expiry; a new one has none. -/
def incr : Redis :=
  redis.insert key
    (match redis.get now key with
    | some c => ⟨c.value + 1, c.expiresAt⟩
    | none => ⟨1, none⟩)

def expire (seconds : ℕ) : Redis :=
  match redis.get now key with
  | some c => redis.insert key ⟨c.value, some (now + seconds)⟩
  | none => redis

def value : ℕ := (redis.get now key).elim 0 Counter.value

end Redis

/-! ### `DeliveryRateLimiter` -/

inductive ChannelLimit where
  | perSymbolSeconds (seconds : ℕ)
  | perHour (max : ℕ)
  deriving DecidableEq

def defaultLimits : List (String × ChannelLimit) :=
  [("telegram", .perSymbolSeconds 300), ("discord", .perSymbolSeconds 300),
    ("slack", .perSymbolSeconds 300), ("webhook", .perSymbolSeconds 60),
    ("sms", .perHour 5), ("email", .perHour 20)]

def tierMultipliers : List (String × ℚ) := [("free", 1), ("pro", 2), ("power", 3)]

def multiplierOf (tier : String) : ℚ := (tierMultipliers.lookup tier).getD 1

/-- `max(1, int(window_seconds / multiplier))`. -/
def adjustedWindow (windowSeconds : ℕ) (tier : String) : ℕ :=
  max 1 ⌊windowSeconds / multiplierOf tier⌋₊

/-- `int(max_per_hour * multiplier)`. -/
def adjustedMax (maxPerHour : ℕ) (tier : String) : ℕ := ⌊maxPerHour * multiplierOf tier⌋₊

def symbolKey (userId channel symbol : String) : String :=
  "ratelimit:" ++ channel ++ ":" ++ userId ++ ":" ++ symbol

def hourlyKey (userId channel : String) : String :=
  "ratelimit:" ++ channel ++ ":" ++ userId ++ ":hourly"

section
variable (redis : Redis) (now : ℤ) (userId channel symbol tier : String)

def checkPerSymbol (windowSeconds : ℕ) : Bool × Redis :=
  let key := symbolKey userId channel symbol
  if (redis.get now key).isSome then (true, redis)
  else (false, redis.setex now key (adjustedWindow windowSeconds tier))

def checkPerHour (maxPerHour : ℕ) : Bool × Redis :=
  let key := hourlyKey userId channel
  let counted := redis.incr now key
  let current := counted.value now key
  (decide (adjustedMax maxPerHour tier < current),
    if current = 1 then counted.expire now key 3600 else counted)

def isRateLimited : Bool × Redis :=
  match defaultLimits.lookup channel with
  | some (.perSymbolSeconds seconds) => checkPerSymbol redis now userId channel symbol tier seconds
  | some (.perHour max) => checkPerHour redis now userId channel tier max
  | none => (false, redis)

end

/-! ### The router over the limiter -/

/-- A visit to a channel, with whose it is and what the limiter is asked. -/
structure RoutedVisit where
  userId : String
  signalId : String
  symbol : String
  tier : String
  limitedAt : ℤ
  visit : Visit

/-- A call with the times at which the limiter is asked. -/
structure RoutedCall where
  userId : String
  signalId : String
  call : Call
  limitedAt : ℕ → ℤ

def RoutedCall.visits (routed : RoutedCall) : List RoutedVisit :=
  match routed.call.prefs with
  | none => []
  | some prefs => routed.call.visits.mapIdx fun i visit =>
    ⟨routed.userId, routed.signalId, routed.call.signal.symbol, prefs.tier, routed.limitedAt i,
      visit⟩

/-- A message that was dispatched, with the time at which it was let through. -/
structure Sent where
  userId : String
  channel : String
  symbol : String
  tier : String
  sentAt : ℤ
  deriving DecidableEq

structure World where
  redis : Redis
  deliveries : String × String → Deliveries
  sent : List Sent

def World.init : World := ⟨∅, fun _ => .init, []⟩

section
variable (router : Router) (world : World) (v : RoutedVisit)

def World.marks : Marks := (world.deliveries (v.signalId, v.userId)).marks

/-- The channel is there, and the message is no duplicate. -/
def World.AsksLimiter : Prop :=
  v.visit.preference.channel ∈ router.channels ∧
    (world.marks v).shouldDeliver v.visit.surroundings.checkedAt v.visit.dedupPreference = true

instance : Decidable (world.AsksLimiter router v) := inferInstanceAs (Decidable (_ ∧ _))

/-- The limiter's answer, and what it leaves. -/
def World.limiter : Bool × Redis :=
  isRateLimited world.redis v.limitedAt v.userId v.visit.preference.channel v.symbol v.tier

/-- The visit as the router makes it, with the limiter's answer. -/
def World.answered : Visit :=
  { v.visit with
    surroundings := { v.visit.surroundings with rateLimited := (world.limiter v).1 } }

def RoutedVisit.message : Sent :=
  ⟨v.userId, v.visit.preference.channel, v.symbol, v.tier, v.limitedAt⟩

def World.step : World :=
  if world.AsksLimiter router v then
    { redis := (world.limiter v).2
      deliveries := Function.update world.deliveries (v.signalId, v.userId)
        (visitChannel router (world.deliveries (v.signalId, v.userId)) (world.answered v))
      sent :=
        if Dispatches router (world.marks v) (world.answered v) then world.sent ++ [v.message]
        else world.sent }
  else world

end

/-! ### What a budget means -/

/-- A window that a dispatch opened, and the dispatches in it. -/
structure Window where
  closesAt : ℤ
  count : ℕ
  count_pos : 0 < count

/-- One more dispatch: in the window while it is open, or the first of a new one. -/
def nextWindow (length : ℕ) (now : ℤ) : Option Window → Window
  | some w => if now < w.closesAt then ⟨w.closesAt, w.count + 1, w.count.succ_pos⟩
    else ⟨now + length, 1, one_pos⟩
  | none => ⟨now + length, 1, one_pos⟩

def ChannelLimit.windowSeconds (tier : String) : ChannelLimit → ℕ
  | .perSymbolSeconds seconds => adjustedWindow seconds tier
  | .perHour _ => 3600

/-- The budget of a user and a channel; for each symbol one, or one for all. -/
structure Budget where
  userId : String
  channel : String
  symbol : Option String
  deriving DecidableEq

def ChannelLimit.budget (userId channel symbol : String) : ChannelLimit → Budget
  | .perSymbolSeconds _ => ⟨userId, channel, some symbol⟩
  | .perHour _ => ⟨userId, channel, none⟩

section
variable (limit : ChannelLimit) (budget : Budget)

/-- The dispatches that count for the budget. -/
def countedIn (sent : List Sent) : List Sent :=
  sent.filter fun s => limit.budget s.userId s.channel s.symbol = budget

def windowOf (sent : List Sent) : Option Window :=
  (countedIn limit budget sent).foldl
    (fun w s => some (nextWindow (limit.windowSeconds s.tier) s.sentAt w)) none

/-- The dispatches in the current window. -/
def sentInWindow (sent : List Sent) (now : ℤ) : ℕ :=
  (windowOf limit budget sent).elim 0 fun w => if now < w.closesAt then w.count else 0

end

@[simp]
theorem budget_channel (limit : ChannelLimit) (userId channel symbol : String) :
    (limit.budget userId channel symbol).channel = channel := by
  cases limit <;> rfl

theorem channel_eq_of_budget_eq {limit limit' : ChannelLimit}
    {userId userId' channel channel' symbol symbol' : String}
    (h : limit'.budget userId' channel' symbol' = limit.budget userId channel symbol) :
    channel' = channel := by
  simpa only [budget_channel] using congrArg Budget.channel h

def ChannelLimit.key (userId channel symbol : String) : ChannelLimit → String
  | .perSymbolSeconds _ => symbolKey userId channel symbol
  | .perHour _ => hourlyKey userId channel

/-- At every moment the counter of every budget is the number of dispatches in its window. -/
def CountsSent (world : World) : Prop :=
  ∀ channel, ∀ limit ∈ defaultLimits.lookup channel, ∀ userId symbol now,
    world.redis.value now (limit.key userId channel symbol) =
      sentInWindow limit (limit.budget userId channel symbol) world.sent now

section
variable (router : Router) (world : World) (v : RoutedVisit)

/-- The limiter would count the message, and lets it through. For a symbol it counts only what
it lets through. -/
def ChannelLimit.LetsThrough : ChannelLimit → Prop
  | .perSymbolSeconds _ => ':' ∉ v.userId.toList ∧ ':' ∉ v.symbol.toList
  | .perHour max =>
    world.redis.value v.limitedAt (hourlyKey v.userId v.visit.preference.channel) <
      adjustedMax max v.tier

/-- The limiter counts the message that it is asked about. -/
def ChannelLimit.Counts : ChannelLimit → Prop
  | .perSymbolSeconds _ =>
    world.redis.value v.limitedAt (symbolKey v.userId v.visit.preference.channel v.symbol) = 0
  | .perHour _ => True

/-- A message that is counted is let through, and it is not in quiet hours. -/
def SentIfCounted : Prop :=
  world.AsksLimiter router v → ∀ limit ∈ defaultLimits.lookup v.visit.preference.channel,
    limit.Counts world v → limit.LetsThrough world v ∧
      inQuietHours router.int v.visit.surroundings.minuteOfDay v.visit.preference = false

end

/-! ### Keys -/

theorem no_colon_of_limit {channel : String} {limit : ChannelLimit}
    (h : limit ∈ defaultLimits.lookup channel) : ':' ∉ channel.toList := by
  obtain ⟨before, after, hsplit, -⟩ := List.lookup_eq_some_iff.mp h
  have hmem : (channel, limit) ∈ defaultLimits := by simp [hsplit]
  have hall : ∀ entry ∈ defaultLimits, ':' ∉ entry.1.toList := by decide
  exact hall _ hmem

/-- The text up to the first colon. -/
theorem append_colon_inj {x x' z z' : List Char} (hx : ':' ∉ x) (hx' : ':' ∉ x')
    (h : x ++ ':' :: z = x' ++ ':' :: z') : x = x' ∧ z = z' := by
  have htake : ∀ {y w : List Char}, ':' ∉ y → (y ++ ':' :: w).takeWhile (· ≠ ':') = y := by
    intro y w hy
    rw [List.takeWhile_append_of_pos]
    · simp
    · intro c hc
      simpa using ne_of_mem_of_not_mem hc hy
  have hword := congrArg (List.takeWhile (· ≠ ':')) h
  rw [htake hx, htake hx'] at hword
  subst hword
  exact ⟨rfl, (List.cons.inj (List.append_cancel_left h)).2⟩

theorem channel_eq_of_key_eq {channel channel' userId userId' symbol symbol' : String}
    {limit limit' : ChannelLimit} (hlimit : limit ∈ defaultLimits.lookup channel)
    (hlimit' : limit' ∈ defaultLimits.lookup channel')
    (h : limit'.key userId' channel' symbol' = limit.key userId channel symbol) :
    channel' = channel := by
  -- the channel's name is what stands before the second colon, whichever key it is
  have hrest : ∀ (limit : ChannelLimit) channel userId symbol, ∃ rest,
      (limit.key userId channel symbol).toList =
        "ratelimit:".toList ++ (channel.toList ++ ':' :: rest) := by
    intro limit channel userId symbol
    cases limit with
    | perSymbolSeconds seconds =>
      exact ⟨userId.toList ++ ':' :: symbol.toList, by
        simp [ChannelLimit.key, symbolKey, String.toList_append]⟩
    | perHour max =>
      exact ⟨userId.toList ++ ":hourly".toList, by
        simp [ChannelLimit.key, hourlyKey, String.toList_append]⟩
  obtain ⟨rest, hkey⟩ := hrest limit channel userId symbol
  obtain ⟨rest', hkey'⟩ := hrest limit' channel' userId' symbol'
  rw [h, hkey] at hkey'
  have hword := append_colon_inj (no_colon_of_limit hlimit) (no_colon_of_limit hlimit')
    (List.append_cancel_left hkey')
  exact (String.toList_inj.mp hword.1).symm

theorem symbolKey_inj {channel userId userId' symbol symbol' : String}
    (huser : ':' ∉ userId.toList) (hsymbol : ':' ∉ symbol.toList)
    (h : symbolKey userId channel symbol = symbolKey userId' channel symbol') :
    userId = userId' ∧ symbol = symbol' := by
  have hlist : userId.toList ++ ':' :: symbol.toList = userId'.toList ++ ':' :: symbol'.toList := by
    have h' := congrArg String.toList h
    simpa [symbolKey, String.toList_append] using h'
  obtain ⟨hname, -, hrest⟩ := (List.append_cons_inj_of_notMem huser hsymbol).mp hlist
  exact ⟨String.toList_inj.mp hname, String.toList_inj.mp hrest⟩

theorem hourlyKey_inj {channel userId userId' : String}
    (h : hourlyKey userId channel = hourlyKey userId' channel) : userId = userId' := by
  have h' := congrArg String.toList h
  simpa [hourlyKey, String.toList_append, String.toList_inj] using h'

/-- A visit's key is that of its budget only, as far as colons do not confuse the two. -/
theorem key_eq_iff {channel channel' userId userId' symbol symbol' : String}
    {limit limit' : ChannelLimit} (hlimit : limit ∈ defaultLimits.lookup channel)
    (hlimit' : limit' ∈ defaultLimits.lookup channel')
    (hcolon : ∀ seconds, limit = .perSymbolSeconds seconds →
      ':' ∉ userId.toList ∧ ':' ∉ symbol.toList) :
    limit'.key userId' channel' symbol' = limit.key userId channel symbol ↔
      limit'.budget userId' channel' symbol' = limit.budget userId channel symbol := by
  have hsame : channel' = channel → limit' = limit := by
    rintro rfl
    exact Option.mem_unique hlimit' hlimit
  constructor
  · intro hkey
    obtain rfl := channel_eq_of_key_eq hlimit hlimit' hkey
    obtain rfl := hsame rfl
    cases limit' with
    | perSymbolSeconds seconds =>
      obtain ⟨huser, hsymbol⟩ := hcolon seconds rfl
      obtain ⟨rfl, rfl⟩ := symbolKey_inj huser hsymbol hkey.symm
      rfl
    | perHour max =>
      obtain rfl := hourlyKey_inj hkey
      rfl
  · intro hbudget
    obtain rfl := channel_eq_of_budget_eq hbudget
    obtain rfl := hsame rfl
    cases limit' with
    | perSymbolSeconds seconds =>
      simp only [ChannelLimit.budget, Budget.mk.injEq, Option.some.injEq] at hbudget
      rw [hbudget.1, hbudget.2.2]
    | perHour max =>
      simp only [ChannelLimit.budget, Budget.mk.injEq] at hbudget
      rw [ChannelLimit.key, ChannelLimit.key, hbudget.1]

/-! ### What a question to the limiter leaves -/

def Window.counter (w : Window) : Counter := ⟨w.count, some w.closesAt⟩

section
variable {redis : Redis} {now : ℤ} {key : String} {w : Option Window}

theorem get_of_window (h : redis.lookup key = w.map Window.counter) (now : ℤ) :
    redis.get now key = (w.filter (now < ·.closesAt)).map Window.counter := by
  rw [Redis.get, h]
  cases w with
  | none => rfl
  | some w =>
    by_cases hlive : now < w.closesAt
    · simp [Option.filter_some, Window.counter, hlive]
    · simp [Option.filter_some, Window.counter, hlive]

theorem value_of_window (h : redis.lookup key = w.map Window.counter) (now : ℤ) :
    redis.value now key = w.elim 0 fun w => if now < w.closesAt then w.count else 0 := by
  rw [Redis.value, get_of_window h]
  cases w with
  | none => rfl
  | some w =>
    by_cases hlive : now < w.closesAt
    · simp [Option.filter_some, Window.counter, hlive]
    · simp [Option.filter_some, hlive]

/-- A counter that is there counts something. -/
theorem get_eq_none_of_value (h : redis.lookup key = w.map Window.counter)
    (hvalue : redis.value now key = 0) : redis.get now key = none := by
  cases hget : redis.get now key with
  | none => rfl
  | some c =>
    rw [get_of_window h] at hget
    obtain ⟨w, -, rfl⟩ := Option.map_eq_some_iff.mp hget
    rw [Redis.value, get_of_window h, hget] at hvalue
    exact absurd hvalue w.count_pos.ne'

theorem nextWindow_of_get_eq_none (h : redis.lookup key = w.map Window.counter)
    (hget : redis.get now key = none) (length : ℕ) :
    nextWindow length now w = ⟨now + length, 1, one_pos⟩ := by
  rw [get_of_window h] at hget
  cases w with
  | none => rfl
  | some w =>
    have hclosed : ¬ now < w.closesAt := by simpa [Option.filter_some] using hget
    rw [nextWindow, if_neg hclosed]

theorem nextWindow_of_get_eq_some (h : redis.lookup key = w.map Window.counter) {c : Counter}
    (hget : redis.get now key = some c) (length : ℕ) :
    (nextWindow length now w).counter = ⟨c.value + 1, c.expiresAt⟩ ∧ 0 < c.value ∧
      c.expiresAt.all (now < ·) = true := by
  rw [get_of_window h] at hget
  cases w with
  | none => cases hget
  | some w =>
    by_cases hlive : now < w.closesAt
    · simp only [Option.filter_some, hlive, decide_true, if_true, Option.map_some,
        Option.some.injEq] at hget
      subst hget
      refine ⟨?_, w.count_pos, by simpa [Window.counter] using hlive⟩
      rw [nextWindow, if_pos hlive]
      rfl
    · simp [Option.filter_some, hlive] at hget

theorem get_insert_of_all {c : Counter} (hlive : c.expiresAt.all (now < ·) = true) :
    Redis.get (redis.insert key c) now key = some c := by
  rw [Redis.get, AList.lookup_insert, Option.filter_some, if_pos hlive]

/-- `INCR` and, for a new counter, `EXPIRE`: one more dispatch in the window. -/
theorem checkPerHour_eq {userId channel tier : String} {max : ℕ}
    (h : redis.lookup (hourlyKey userId channel) = w.map Window.counter) :
    checkPerHour redis now userId channel tier max =
      (decide (adjustedMax max tier < redis.value now (hourlyKey userId channel) + 1),
        redis.insert (hourlyKey userId channel) (nextWindow 3600 now w).counter) := by
  cases hget : redis.get now (hourlyKey userId channel) with
  | none =>
    -- the first increment makes the counter 1, and only then it is given an end
    have hfresh : Redis.get (redis.insert (hourlyKey userId channel) ⟨1, none⟩) now
        (hourlyKey userId channel) = some ⟨1, none⟩ := get_insert_of_all rfl
    simp only [checkPerHour, Redis.incr, Redis.expire, Redis.value, hget, hfresh, Option.elim,
      if_true, nextWindow_of_get_eq_none h hget]
    rw [AList.insert_insert]
    rfl
  | some c =>
    obtain ⟨hnext, hpos, hlive⟩ := nextWindow_of_get_eq_some h hget 3600
    have hcounted : Redis.get (redis.insert (hourlyKey userId channel) ⟨c.value + 1, c.expiresAt⟩)
        now (hourlyKey userId channel) = some ⟨c.value + 1, c.expiresAt⟩ :=
      get_insert_of_all hlive
    have hmore : c.value + 1 ≠ 1 := by omega
    simp only [checkPerHour, Redis.incr, Redis.value, hget, hcounted, Option.elim, if_neg hmore,
      hnext]

theorem checkPerSymbol_eq_of_zero {userId channel symbol tier : String} {seconds : ℕ}
    (h : redis.lookup (symbolKey userId channel symbol) = w.map Window.counter)
    (hvalue : redis.value now (symbolKey userId channel symbol) = 0) :
    checkPerSymbol redis now userId channel symbol tier seconds =
      (false, redis.insert (symbolKey userId channel symbol)
        (nextWindow (adjustedWindow seconds tier) now w).counter) := by
  have hget := get_eq_none_of_value h hvalue
  simp only [checkPerSymbol, hget, Option.isSome_none, Bool.false_eq_true, if_false,
    nextWindow_of_get_eq_none h hget]
  rfl

theorem checkPerSymbol_eq_of_ne_zero {userId channel symbol tier : String} {seconds : ℕ}
    (hvalue : redis.value now (symbolKey userId channel symbol) ≠ 0) :
    checkPerSymbol redis now userId channel symbol tier seconds = (true, redis) := by
  cases hget : redis.get now (symbolKey userId channel symbol) with
  | none =>
    rw [Redis.value, hget] at hvalue
    exact absurd rfl hvalue
  | some c => simp only [checkPerSymbol, hget, Option.isSome_some, if_true]

end

/-! ### A run of calls -/

/-- What Redis has for a budget is its window. -/
def HoldsWindows (world : World) : Prop :=
  ∀ channel, ∀ limit ∈ defaultLimits.lookup channel, ∀ userId symbol,
    world.redis.lookup (limit.key userId channel symbol) =
      (windowOf limit (limit.budget userId channel symbol) world.sent).map Window.counter

theorem HoldsWindows.countsSent {world : World} (h : HoldsWindows world) : CountsSent world := by
  intro channel limit hlimit userId symbol now
  exact value_of_window (h channel limit hlimit userId symbol) now

theorem windowOf_append (limit : ChannelLimit) (budget : Budget) (sent : List Sent) (s : Sent) :
    windowOf limit budget (sent ++ [s]) =
      if limit.budget s.userId s.channel s.symbol = budget then
        some (nextWindow (limit.windowSeconds s.tier) s.sentAt (windowOf limit budget sent))
      else windowOf limit budget sent := by
  rw [windowOf, countedIn, List.filter_append, ← countedIn, List.foldl_append, ← windowOf]
  split_ifs with hbudget
  · simp [hbudget]
  · simp [hbudget]

section
variable {router : Router} {world : World} {v : RoutedVisit} {limit : ChannelLimit}

theorem limiter_of_none (hlimit : defaultLimits.lookup v.visit.preference.channel = none) :
    world.limiter v = (false, world.redis) := by
  simp only [World.limiter, isRateLimited, hlimit]

theorem limiter_of_not_counts (hlimit : limit ∈ defaultLimits.lookup v.visit.preference.channel)
    (hcounts : ¬ limit.Counts world v) : world.limiter v = (true, world.redis) := by
  rw [Option.mem_def] at hlimit
  cases limit with
  | perSymbolSeconds seconds =>
    simp only [World.limiter, isRateLimited, hlimit]
    exact checkPerSymbol_eq_of_ne_zero hcounts
  | perHour max => exact absurd trivial hcounts

theorem limiter_of_counts (hlimit : limit ∈ defaultLimits.lookup v.visit.preference.channel)
    (hcounts : limit.Counts world v) (hthrough : limit.LetsThrough world v) {w : Option Window}
    (hlookup : world.redis.lookup (limit.key v.userId v.visit.preference.channel v.symbol) =
      w.map Window.counter) :
    world.limiter v = (false, world.redis.insert
      (limit.key v.userId v.visit.preference.channel v.symbol)
      (nextWindow (limit.windowSeconds v.tier) v.limitedAt w).counter) := by
  rw [Option.mem_def] at hlimit
  cases limit with
  | perSymbolSeconds seconds =>
    simp only [World.limiter, isRateLimited, hlimit]
    exact checkPerSymbol_eq_of_zero hlookup hcounts
  | perHour max =>
    have hroom : ¬ adjustedMax max v.tier <
        world.redis.value v.limitedAt (hourlyKey v.userId v.visit.preference.channel) + 1 := by
      have hlt : _ < adjustedMax max v.tier := hthrough
      omega
    simp only [World.limiter, isRateLimited, hlimit]
    rw [checkPerHour_eq hlookup, decide_eq_false hroom]
    rfl

/-- A message on a channel without a limit counts for no budget. -/
theorem HoldsWindows.send_unlimited (h : HoldsWindows world) {s : Sent}
    (hlimit : defaultLimits.lookup s.channel = none) (deliveries : String × String → Deliveries) :
    HoldsWindows ⟨world.redis, deliveries, world.sent ++ [s]⟩ := by
  intro channel limit' hlimit' userId symbol
  have hother : limit'.budget s.userId s.channel s.symbol ≠
      limit'.budget userId channel symbol := by
    intro hbudget
    rw [channel_eq_of_budget_eq hbudget, Option.mem_def.mp hlimit'] at hlimit
    cases hlimit
  rw [windowOf_append, if_neg hother]
  exact h channel limit' hlimit' userId symbol

/-- A message that is counted and sent counts for its budget, and for no other. -/
theorem HoldsWindows.send_counted (h : HoldsWindows world) {s : Sent}
    (hlimit : limit ∈ defaultLimits.lookup s.channel)
    (hcolon : ∀ seconds, limit = .perSymbolSeconds seconds →
      ':' ∉ s.userId.toList ∧ ':' ∉ s.symbol.toList)
    (deliveries : String × String → Deliveries) :
    HoldsWindows ⟨world.redis.insert (limit.key s.userId s.channel s.symbol)
      (nextWindow (limit.windowSeconds s.tier) s.sentAt
        (windowOf limit (limit.budget s.userId s.channel s.symbol) world.sent)).counter,
      deliveries, world.sent ++ [s]⟩ := by
  intro channel limit' hlimit' userId symbol
  -- a channel has one limit, so that a budget of the channel is one of the message's limit
  have hsame : channel = s.channel → limit' = limit := by
    rintro rfl
    exact Option.mem_unique hlimit' hlimit
  have hkey : limit'.key userId channel symbol = limit.key s.userId s.channel s.symbol ↔
      limit'.budget userId channel symbol = limit.budget s.userId s.channel s.symbol :=
    key_eq_iff hlimit hlimit' hcolon
  rw [windowOf_append]
  split_ifs with hbudget
  · obtain rfl := channel_eq_of_budget_eq hbudget
    obtain rfl := hsame rfl
    rw [hkey.mpr hbudget.symm, AList.lookup_insert, ← hbudget]
    rfl
  · have hne : limit'.key userId channel symbol ≠ limit.key s.userId s.channel s.symbol := by
      intro heq
      have hbudget' := hkey.mp heq
      obtain rfl := channel_eq_of_budget_eq hbudget'
      obtain rfl := hsame rfl
      exact hbudget hbudget'.symm
    rw [AList.lookup_insert_ne hne]
    exact h channel limit' hlimit' userId symbol

/-- A message that the limiter does not count is suppressed, and one that it counts is sent. -/
theorem holdsWindows_step (h : HoldsWindows world) (hsent : SentIfCounted router world v) :
    HoldsWindows (world.step router v) := by
  unfold World.step
  -- a duplicate, and a channel that is not there, leave before the limiter is asked
  by_cases hasks : world.AsksLimiter router v
  swap
  · rwa [if_neg hasks]
  rw [if_pos hasks]
  cases hlimit : defaultLimits.lookup v.visit.preference.channel with
  | none =>
    rw [limiter_of_none hlimit]
    split_ifs
    · exact h.send_unlimited hlimit _
    · exact h
  | some limit =>
    by_cases hcounts : limit.Counts world v
    · obtain ⟨hthrough, hquiet⟩ := hsent hasks limit hlimit hcounts
      have hlimiter := limiter_of_counts hlimit hcounts hthrough
        (h _ limit hlimit v.userId v.symbol)
      have hdispatch : Dispatches router (world.marks v) (world.answered v) := by
        refine ⟨hasks.1, hasks.2, ?_, hquiet⟩
        simp only [World.answered, hlimiter]
      rw [if_pos hdispatch, hlimiter]
      apply h.send_counted (s := v.message) hlimit
      rintro seconds rfl
      exact hthrough
    · have hlimiter := limiter_of_not_counts hlimit hcounts
      have hdispatch : ¬ Dispatches router (world.marks v) (world.answered v) := by
        rintro ⟨-, -, hlimited, -⟩
        simp only [World.answered, hlimiter] at hlimited
        cases hlimited
      rw [if_neg hdispatch, hlimiter]
      exact h

end

theorem holdsWindows_init : HoldsWindows .init := by
  intro channel limit _ userId symbol
  rfl

/-- A message that is suppressed leaves every counter as it is, at every moment. -/
def SuppressedIsFree (router : Router) (world : World) (v : RoutedVisit) : Prop :=
  (world.step router v).sent = world.sent →
    ∀ channel, ∀ limit ∈ defaultLimits.lookup channel, ∀ userId symbol now,
      (world.step router v).redis.value now (limit.key userId channel symbol) =
        world.redis.value now (limit.key userId channel symbol)

theorem CountsSent.suppressedIsFree {router : Router} {world : World} {v : RoutedVisit}
    (h : CountsSent world) (hnext : CountsSent (world.step router v)) :
    SuppressedIsFree router world v := by
  intro hsent channel limit hlimit userId symbol now
  rw [hnext channel limit hlimit, h channel limit hlimit, hsent]

/-- Calls in which every message that is counted is sent: after every visit the counters are the
dispatches of their windows, and what is suppressed costs nothing. -/
theorem countsSent_of_sentIfCounted (router : Router) {calls : List RoutedCall}
    (hsent : ∀ earlier v, earlier ++ [v] <+: calls.flatMap RoutedCall.visits →
      SentIfCounted router (earlier.foldl (World.step router) .init) v) :
    (∀ reached, reached <+: calls.flatMap RoutedCall.visits →
      CountsSent (reached.foldl (World.step router) .init)) ∧
    ∀ earlier v, earlier ++ [v] <+: calls.flatMap RoutedCall.visits →
      SuppressedIsFree router (earlier.foldl (World.step router) .init) v := by
  have hrun : ∀ reached, reached <+: calls.flatMap RoutedCall.visits →
      HoldsWindows (reached.foldl (World.step router) .init) :=
    forall_reached_of_forall_step (World.step router)
      (fun _ _ hworld hvisit => holdsWindows_step hworld hvisit) holdsWindows_init hsent
  refine ⟨fun reached hpre => (hrun reached hpre).countsSent, ?_⟩
  intro earlier v hpre
  have hbefore := hrun earlier ((List.prefix_append earlier [v]).trans hpre)
  have hafter := hrun (earlier ++ [v]) hpre
  rw [List.foldl_append] at hafter
  exact hbefore.countsSent.suppressedIsFree hafter.countsSent

/-! ### A message in quiet hours -/

def emailOnly (quietHoursStart quietHoursEnd : Option String) : UserDeliveryPreferences where
  userId := "u"
  dedupPreference := "primary_only"
  primaryChannel := "email"
  fallbackOrder := []
  tier := "free"
  channels := [("email",
    { anyTime "email" with quietHoursStart := quietHoursStart, quietHoursEnd := quietHoursEnd })]

/-- A call at second 0, at eleven in the evening. -/
def lateCall (prefs : UserDeliveryPreferences) : RoutedCall where
  userId := "u"
  signalId := "s"
  call :=
    { prefs := some prefs
      signal := ⟨none, "BTC/USD", "BUY"⟩
      surroundings _ := ⟨0, 0, 23 * 60, false, fun _ => ⟨true, "", "", "", false⟩⟩ }
  limitedAt _ := 0

def emailRouter : Router := ⟨["email"], 3600, fun text => IntText.int text.toList⟩

/-- The visit that is made of the call. -/
def lateVisit (quietHoursStart quietHoursEnd : Option String) : RoutedVisit where
  userId := "u"
  signalId := "s"
  symbol := "BTC/USD"
  tier := "free"
  limitedAt := 0
  visit :=
    { preference :=
        { anyTime "email" with quietHoursStart := quietHoursStart, quietHoursEnd := quietHoursEnd }
      dedupPreference := "primary_only"
      surroundings := ⟨0, 0, 23 * 60, false, fun _ => ⟨true, "", "", "", false⟩⟩ }

theorem visits_lateCall (start stop : Option String) :
    (lateCall (emailOnly start stop)).visits = [lateVisit start stop] := rfl

theorem inQuietHours_late :
    inQuietHours emailRouter.int (23 * 60)
      (lateVisit (some "22:00") (some "06:00")).visit.preference = true := by
  have hstart : minutes emailRouter.int "22:00" = some (22 * 60) := by
    have hparts : "22:00".splitOn ":" = ["22", "00"] := by
      simp +decide [String.splitOn, String.splitOnAux]
    rw [minutes, hparts]
    decide +kernel
  have hstop : minutes emailRouter.int "06:00" = some (6 * 60) := by
    have hparts : "06:00".splitOn ":" = ["06", "00"] := by
      simp +decide [String.splitOn, String.splitOnAux]
    rw [minutes, hparts]
    decide +kernel
  simp [inQuietHours, lateVisit, hstart, hstop]

theorem quiet_message_is_counted :
    ¬ CountsSent (((lateCall (emailOnly (some "22:00") (some "06:00"))).visits).foldl
      (World.step emailRouter) .init) := by
  intro h
  have hquiet : ¬ Dispatches emailRouter
      (World.init.marks (lateVisit (some "22:00") (some "06:00")))
      (World.init.answered (lateVisit (some "22:00") (some "06:00"))) := by
    rintro ⟨-, -, -, hloud⟩
    exact absurd (inQuietHours_late.symm.trans hloud) (by decide)
  have hasks : World.init.AsksLimiter emailRouter (lateVisit (some "22:00") (some "06:00")) := by
    decide +kernel
  rw [visits_lateCall, List.foldl_cons, List.foldl_nil, World.step, if_pos hasks,
    if_neg hquiet] at h
  have hcount := h "email" (.perHour 20) (by decide) "u" "BTC/USD" 0
  exact absurd hcount (by decide +kernel)

/-- Without quiet hours it is sent. -/
theorem countsSent_of_loud_message :
    CountsSent (([lateCall (emailOnly none none)].flatMap RoutedCall.visits).foldl
      (World.step emailRouter) .init) := by
  refine (countsSent_of_sentIfCounted emailRouter ?_).1 _ List.prefix_rfl
  rw [← eachStep_iff_forall_step]
  refine ⟨?_, fun _ => trivial⟩
  intro _ limit hlimit _
  obtain rfl : limit = .perHour 20 := Option.mem_unique hlimit (by decide)
  refine ⟨?_, rfl⟩
  show _ < _
  decide +kernel

end TradeStream.DeliveryBudget
