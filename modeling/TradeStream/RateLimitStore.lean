import TradeStream.FixedWindow

/-! The rate limiter of the REST services: a store of fixed windows by client and path, and the
middleware that asks it before each request. -/
namespace TradeStream.RateLimiter
open TradeStream.FixedWindow

structure RateLimitConfig where
  maxRequests : ℤ
  windowSeconds : ℤ

structure TokenBucket where
  count : ℕ := 0
  windowStart : ℚ := 0

/-- `RateLimitStore._buckets`, with the bucket that a missing key is given. -/
abbrev Store := List Char → TokenBucket

/-- `int` of a float. -/
def truncate (x : ℚ) : ℤ := if 0 ≤ x then ⌊x⌋ else ⌈x⌉

/-- The bucket after the window it was in has passed, or the same one. -/
def TokenBucket.refreshed (bucket : TokenBucket) (windowSeconds : ℤ) (now : ℚ) : TokenBucket :=
  if windowSeconds ≤ now - bucket.windowStart then { count := 0, windowStart := now } else bucket

def isAllowed (store : Store) (key : List Char) (maxRequests windowSeconds : ℤ) (now : ℚ) :
    Store × Bool × ℤ :=
  let bucket := (store key).refreshed windowSeconds now
  let counted : TokenBucket := { bucket with count := bucket.count + 1 }
  let retryAfter := truncate (windowSeconds - (now - counted.windowStart)) + 1
  (Function.update store key counted,
    if maxRequests < counted.count then (false, max retryAfter 1) else (true, 0))

abbrev RouteLimits := List (List Char × RateLimitConfig)

def defaultRateLimits : RouteLimits :=
  [("/".toList, { maxRequests := 100, windowSeconds := 60 })]

/-- `route_limits or DEFAULT_RATE_LIMITS`. -/
def limitsOf (routeLimits : Option RouteLimits) : RouteLimits :=
  match routeLimits with
  | none | some [] => defaultRateLimits
  | some limits => limits

/-- One turn of the loop of `_match_route`, from the best so far and its length. -/
def matchStep (path : List Char) (best : Option RateLimitConfig × ℤ)
    (route : List Char × RateLimitConfig) : Option RateLimitConfig × ℤ :=
  if route.1.isPrefixOf path ∧ best.2 < route.1.length then (some route.2, route.1.length) else best

def matchRoute (path : List Char) (limits : RouteLimits) : Option RateLimitConfig :=
  (limits.foldl (matchStep path) (none, -1)).1

structure Request where
  /-- The host of `request.client`, if there is one. -/
  client : Option (List Char)
  path : List Char
  now : ℚ

def Request.clientIp (request : Request) : List Char := request.client.getD "unknown".toList

def Request.key (request : Request) : List Char := request.clientIp ++ ':' :: request.path

inductive Response where
  | next
  | tooManyRequests (retryAfter : ℤ)
  deriving DecidableEq

/-- `_RateLimitMiddleware.dispatch`. -/
def dispatch (limits : RouteLimits) (store : Store) (request : Request) : Store × Response :=
  match matchRoute request.path limits with
  | none => (store, .next)
  | some config =>
    let (store, allowed, retryAfter) :=
      isAllowed store request.key config.maxRequests config.windowSeconds request.now
    (store, if allowed then .next else .tooManyRequests retryAfter)

def storeAfter (limits : RouteLimits) : List Request → Store :=
  List.foldl (fun store request => (dispatch limits store request).1) fun _ => {}

/-- The requests that the service is given, of those that arrive. -/
def passed (limits : RouteLimits) : Store → List Request → List Request
  | _, [] => []
  | store, request :: requests =>
    let (store', response) := dispatch limits store request
    if response = .next then request :: passed limits store' requests
    else passed limits store' requests

/-! ### The route of a path -/

/-- What the loop of `_match_route` has found in the routes it has seen. -/
structure Longest (path : List Char) (seen : RouteLimits) (best : Option RateLimitConfig × ℤ) :
    Prop where
  none_of_none : best.1 = none → best.2 = -1
  mem : ∀ config, best.1 = some config →
    ∃ start, (start, config) ∈ seen ∧ start <+: path ∧ best.2 = start.length
  le : ∀ route ∈ seen, route.1 <+: path → route.1.length ≤ best.2

theorem Longest.step {path : List Char} {seen : RouteLimits} {best : Option RateLimitConfig × ℤ}
    (h : Longest path seen best) (route : List Char × RateLimitConfig) :
    Longest path (seen ++ [route]) (matchStep path best route) := by
  rw [matchStep]
  split_ifs with hbetter
  · obtain ⟨hstart, hlonger⟩ := hbetter
    refine ⟨by simp, ?_, ?_⟩
    · rintro config ⟨rfl⟩
      exact ⟨route.1, by simp, List.isPrefixOf_iff_prefix.mp hstart, rfl⟩
    · intro other hother hpath
      rcases List.mem_append.mp hother with hmem | hmem
      · exact (h.le other hmem hpath).trans hlonger.le
      · rw [List.mem_singleton.mp hmem]
  · refine ⟨h.none_of_none, ?_, ?_⟩
    · intro config hbest
      obtain ⟨start, hmem, hpath, hlength⟩ := h.mem config hbest
      exact ⟨start, List.mem_append_left [route] hmem, hpath, hlength⟩
    · intro other hother hpath
      rcases List.mem_append.mp hother with hmem | hmem
      · exact h.le other hmem hpath
      · rw [List.mem_singleton.mp hmem] at hpath ⊢
        exact not_lt.mp fun hlt => hbetter ⟨List.isPrefixOf_iff_prefix.mpr hpath, hlt⟩

theorem longest_foldl (path : List Char) (limits : RouteLimits) :
    Longest path limits (limits.foldl (matchStep path) (none, -1)) := by
  induction limits using List.reverseRecOn with
  | nil => exact ⟨fun _ => rfl, by simp, by simp⟩
  | append_singleton limits route ih =>
    rw [List.foldl_append, List.foldl_cons, List.foldl_nil]
    exact ih.step route

/-- The configuration of a path is that of the longest of the starts that it has. -/
theorem matchRoute_eq_some_iff {path : List Char} {limits : RouteLimits}
    (hnodup : (limits.map Prod.fst).Nodup) (config : RateLimitConfig) :
    matchRoute path limits = some config ↔
      ∃ start, (start, config) ∈ limits ∧ start <+: path ∧
        ∀ route ∈ limits, route.1 <+: path → route.1.length ≤ start.length := by
  have hbest := longest_foldl path limits
  constructor
  · intro h
    obtain ⟨start, hmem, hpath, hlength⟩ := hbest.mem config h
    refine ⟨start, hmem, hpath, fun route hroute hstart => ?_⟩
    have hle := hbest.le route hroute hstart
    omega
  · rintro ⟨start, hmem, hpath, hlongest⟩
    have hle := hbest.le _ hmem hpath
    cases hfound : (limits.foldl (matchStep path) (none, -1)).1 with
    | none =>
      rw [hbest.none_of_none hfound] at hle
      omega
    | some found =>
      obtain ⟨start', hmem', hpath', hlength⟩ := hbest.mem found hfound
      -- two starts of one path with one length are one start
      have hstarts : start' = start := by
        have hle' := hlongest _ hmem' hpath'
        have hlengths : start'.length = start.length := by
          simp only at hle hle'
          omega
        rw [List.prefix_iff_eq_take.mp hpath', List.prefix_iff_eq_take.mp hpath, hlengths]
      subst hstarts
      have hsame := List.inj_on_of_nodup_map hnodup hmem' hmem rfl
      rw [matchRoute, hfound, show found = config from congrArg Prod.snd hsame]

/-! ### One bucket in a run -/

/-- A path starts with a slash, a host has none. -/
structure WellFormed (request : Request) : Prop where
  notMem_clientIp : '/' ∉ request.clientIp
  path_eq : ∃ rest, request.path = '/' :: rest

theorem takeWhile_key {request : Request} (h : WellFormed request) :
    request.key.takeWhile (· ≠ '/') = request.clientIp ++ [':'] := by
  obtain ⟨rest, hpath⟩ := h.path_eq
  have hclient : ∀ c ∈ request.clientIp ++ [':'], decide (c ≠ '/') = true := by
    intro c hc
    rcases List.mem_append.mp hc with hmem | hmem
    · exact decide_eq_true fun heq => h.notMem_clientIp (heq ▸ hmem)
    · rw [List.mem_singleton.mp hmem]
      rfl
  have hkey : request.key = (request.clientIp ++ [':']) ++ '/' :: rest := by
    simp [Request.key, hpath]
  rw [hkey, List.takeWhile_append_of_pos hclient]
  simp

theorem key_eq_iff {request request' : Request} (h : WellFormed request)
    (h' : WellFormed request') :
    request.key = request'.key ↔
      request.clientIp = request'.clientIp ∧ request.path = request'.path := by
  constructor
  · intro hkey
    have hclient : request.clientIp = request'.clientIp := by
      have htake := takeWhile_key h
      rw [hkey, takeWhile_key h'] at htake
      exact (List.append_cancel_right htake).symm
    rw [Request.key, Request.key, hclient] at hkey
    exact ⟨hclient, by simpa using hkey⟩
  · rintro ⟨hclient, hpath⟩
    rw [Request.key, Request.key, hclient, hpath]

def TokenBucket.window (bucket : TokenBucket) : Window ℚ := ⟨bucket.windowStart, bucket.count⟩

theorem window_refreshed (bucket : TokenBucket) (windowSeconds : ℤ) (now : ℚ) :
    (bucket.refreshed windowSeconds now).window =
      bucket.window.current (windowSeconds : ℚ) now := by
  unfold TokenBucket.refreshed Window.current
  split_ifs with hpassed hnot <;> first | rfl | exact absurd hpassed hnot | contradiction

section
variable {limits : RouteLimits} (store : Store) {request : Request} {config : RateLimitConfig}

theorem window_dispatch (h : matchRoute request.path limits = some config) :
    ((dispatch limits store request).1 request.key).window =
      (store request.key).window.request (config.windowSeconds : ℚ) request.now := by
  rw [Window.request, ← window_refreshed]
  simp [dispatch, h, isAllowed, TokenBucket.window]

theorem dispatch_of_key_ne {k : List Char} (h : k ≠ request.key) :
    (dispatch limits store request).1 k = store k := by
  unfold dispatch
  cases matchRoute request.path limits with
  | none => rfl
  | some config => exact Function.update_of_ne h _ _

theorem next_iff (h : matchRoute request.path limits = some config) :
    (dispatch limits store request).2 = .next ↔
      (store request.key).window.admits (config.windowSeconds : ℚ) config.maxRequests.toNat
        request.now := by
  have hcount : ∀ count : ℕ, config.maxRequests ≤ (count : ℤ) ↔
      ¬ count + 1 ≤ config.maxRequests.toNat := by
    intro count
    omega
  rw [Window.admits, ← window_refreshed]
  by_cases hle : ((store request.key).refreshed config.windowSeconds request.now).count + 1 ≤
      config.maxRequests.toNat
  · simp [dispatch, h, isAllowed, TokenBucket.window, hcount, hle]
  · simp [dispatch, h, isAllowed, TokenBucket.window, hcount, hle]

end

/-- Whether two requests are counted in one bucket. -/
def Request.same (request other : Request) : Bool :=
  other.clientIp = request.clientIp ∧ other.path = request.path

theorem same_iff_key_eq {request other : Request} (h : WellFormed request)
    (hother : WellFormed other) : request.same other = true ↔ other.key = request.key := by
  rw [key_eq_iff hother h, Request.same, decide_eq_true_eq]

theorem key_ne_of_not_same {request other : Request} (h : WellFormed request)
    (hother : WellFormed other) (hsame : request.same other = false) :
    request.key ≠ other.key := by
  intro heq
  rw [(same_iff_key_eq h hother).mpr heq.symm] at hsame
  exact Bool.noConfusion hsame

section
variable {limits : RouteLimits} {request : Request} {config : RateLimitConfig}

theorem matchRoute_of_same (hconfig : matchRoute request.path limits = some config)
    {other : Request} (h : request.same other = true) :
    matchRoute other.path limits = some config := by
  rw [Request.same, decide_eq_true_eq] at h
  rw [h.2, hconfig]

/-- The times of the requests in the bucket of `request`. -/
def timesOf (request : Request) (requests : List Request) : List ℚ :=
  (requests.filter request.same).map Request.now

theorem window_foldl_dispatch (hrequest : WellFormed request)
    (hconfig : matchRoute request.path limits = some config) (store : Store)
    {requests : List Request} (hwell : ∀ other ∈ requests, WellFormed other) :
    ((requests.foldl (fun store other => (dispatch limits store other).1) store)
        request.key).window =
      (timesOf request requests).foldl (Window.request (config.windowSeconds : ℚ))
        (store request.key).window := by
  induction requests generalizing store with
  | nil => rfl
  | cons other requests ih =>
    have hother := hwell other List.mem_cons_self
    rw [List.foldl_cons, ih _ fun o ho => hwell o (List.mem_cons_of_mem other ho)]
    cases hsame : request.same other with
    | true =>
      have hkey := (same_iff_key_eq hrequest hother).mp hsame
      have hstep := window_dispatch store (matchRoute_of_same hconfig hsame)
      rw [hkey] at hstep
      rw [timesOf, timesOf, List.filter_cons_of_pos hsame, List.map_cons, List.foldl_cons, hstep]
    | false =>
      have hkey := key_ne_of_not_same hrequest hother hsame
      rw [timesOf, timesOf, List.filter_cons_of_neg (by simp [hsame]), dispatch_of_key_ne _ hkey]

theorem timesOf_passed (hrequest : WellFormed request)
    (hconfig : matchRoute request.path limits = some config) (store : Store)
    {requests : List Request} (hwell : ∀ other ∈ requests, WellFormed other) :
    timesOf request (passed limits store requests) =
      admittedTimes (config.windowSeconds : ℚ) config.maxRequests.toNat
        (store request.key).window (timesOf request requests) := by
  induction requests generalizing store with
  | nil => rfl
  | cons other requests ih =>
    have hother := hwell other List.mem_cons_self
    have hrest := ih (dispatch limits store other).1
      fun o ho => hwell o (List.mem_cons_of_mem other ho)
    have hpassed : timesOf request (passed limits store (other :: requests)) =
        (if (dispatch limits store other).2 = .next ∧ request.same other = true then [other.now]
          else []) ++ timesOf request (passed limits (dispatch limits store other).1 requests) := by
      rw [passed]
      by_cases hnext : (dispatch limits store other).2 = .next
      · cases hsame : request.same other <;> simp [timesOf, hnext, hsame]
      · simp [hnext]
    rw [hpassed, hrest]
    cases hsame : request.same other with
    | true =>
      have hkey := (same_iff_key_eq hrequest hother).mp hsame
      have hmatch := matchRoute_of_same hconfig hsame
      have hstep := window_dispatch store hmatch
      have hadmits := next_iff store hmatch
      rw [hkey] at hstep hadmits
      have htimes : timesOf request (other :: requests) =
          other.now :: timesOf request requests := by simp [timesOf, hsame]
      rw [htimes, admittedTimes, hstep]
      simp only [hadmits, and_true]
      split_ifs <;> rfl
    | false =>
      have hkey := key_ne_of_not_same hrequest hother hsame
      have htimes : timesOf request (other :: requests) = timesOf request requests := by
        simp [timesOf, hsame]
      rw [htimes, dispatch_of_key_ne _ hkey]
      simp

theorem pairwise_timesOf (request : Request) {requests : List Request}
    (h : requests.Pairwise fun a b => a.now ≤ b.now) :
    (timesOf request requests).Pairwise (· ≤ ·) := by
  rw [timesOf, List.pairwise_map]
  exact h.filter _

end

/-! ### What a client is given -/

/-- Of one client's requests to one path, at most twice the number that the longest start of the
path allows pass in any interval as long as the window, whatever the others do. -/
theorem countP_passed_le {limits : RouteLimits} (hnodup : (limits.map Prod.fst).Nodup)
    {requests : List Request} (hwell : ∀ request ∈ requests, WellFormed request)
    (hclock : requests.Pairwise fun a b => a.now ≤ b.now) {request : Request}
    (hrequest : WellFormed request) {start : List Char} {config : RateLimitConfig}
    (hroute : (start, config) ∈ limits) (hstart : start <+: request.path)
    (hlongest : ∀ route ∈ limits, route.1 <+: request.path → route.1.length ≤ start.length)
    (since : ℚ) :
    (passed limits (fun _ => {}) requests).countP (fun other =>
      request.same other && within (config.windowSeconds : ℚ) since other.now) ≤
      2 * config.maxRequests.toNat := by
  have hconfig : matchRoute request.path limits = some config :=
    (matchRoute_eq_some_iff hnodup config).mpr ⟨start, hroute, hstart, hlongest⟩
  have hcount : (passed limits (fun _ => {}) requests).countP (fun other =>
      request.same other && within (config.windowSeconds : ℚ) since other.now) =
      (timesOf request (passed limits (fun _ => {}) requests)).countP
        (within (config.windowSeconds : ℚ) since) := by
    rw [timesOf, List.countP_map, List.countP_filter]
    simp only [Function.comp_apply, Bool.and_comm]
  rw [hcount, timesOf_passed hrequest hconfig _ hwell]
  exact countP_within_le _ (pairwise_timesOf request hclock)

def twoAMinute : RouteLimits := [(['/'], { maxRequests := 2, windowSeconds := 60 })]

def byClient (now : ℚ) : Request := ⟨some ['a'], ['/', 'x'], now⟩

theorem wellFormed_byClient (now : ℚ) : WellFormed (byClient now) :=
  ⟨by simp [Request.clientIp, byClient], ['x'], rfl⟩

theorem busyClient_passed :
    (passed twoAMinute (fun _ => {}) [byClient 0, byClient 1, byClient 2, byClient 61]).countP
      (fun other => (byClient 0).same other && within ((60 : ℤ) : ℚ) 1 other.now) ≤ 2 * 2 := by
  have hroute : (['/'], { maxRequests := 2, windowSeconds := 60 }) ∈ twoAMinute :=
    List.mem_singleton.mpr rfl
  apply countP_passed_le _ _ _ (wellFormed_byClient 0) hroute
  · exact List.prefix_append ['/'] ['x']
  · simp [twoAMinute]
  · simp [twoAMinute]
  · simp [wellFormed_byClient]
  · norm_num [byClient]

theorem lt_truncate_add_one (x : ℚ) : x < truncate x + 1 := by
  unfold truncate
  split_ifs
  · exact Int.lt_floor_add_one x
  · exact (Int.le_ceil x).trans_lt (lt_add_one _)

section
variable {limits : RouteLimits} {store : Store} {request : Request} {retryAfter : ℤ}

/-- Who is refused has a full window, which has passed once the time to wait is over. -/
theorem of_tooManyRequests
    (h : (dispatch limits store request).2 = .tooManyRequests retryAfter) :
    ∃ config, matchRoute request.path limits = some config ∧
      (store request.key).window.admits (config.windowSeconds : ℚ) config.maxRequests.toNat
        request.now = false ∧
      config.windowSeconds ≤ request.now + retryAfter -
        ((store request.key).window.current (config.windowSeconds : ℚ) request.now).start := by
  cases hconfig : matchRoute request.path limits with
  | none => simp [dispatch, hconfig] at h
  | some config =>
    have hnot : ¬ (dispatch limits store request).2 = .next := by simp [h]
    rw [next_iff store hconfig] at hnot
    refine ⟨config, rfl, by simpa using hnot, ?_⟩
    rw [← window_refreshed]
    simp only [dispatch, hconfig, isAllowed] at h
    set bucket := (store request.key).refreshed config.windowSeconds request.now
    have hwait : max (truncate (config.windowSeconds - (request.now - bucket.windowStart)) + 1) 1 =
        retryAfter := by
      by_cases hfull : config.maxRequests < ((bucket.count + 1 : ℕ) : ℤ)
      · simpa only [if_pos hfull, Bool.false_eq_true, if_false, Response.tooManyRequests.injEq]
          using h
      · rw [if_neg hfull] at h
        simp at h
    have hmax : truncate (config.windowSeconds - (request.now - bucket.windowStart)) + 1 ≤
        retryAfter := hwait ▸ le_max_left _ _
    have hmax' : (truncate (config.windowSeconds - (request.now - bucket.windowStart)) : ℚ) + 1 ≤
        retryAfter := by exact_mod_cast hmax
    have hremaining :=
      lt_truncate_add_one (config.windowSeconds - (request.now - bucket.windowStart))
    simp only [TokenBucket.window]
    linarith

end

/-- A client is refused when it has asked for the path as often as allowed within the last window,
and it is served when it asks again after the time that it is told to wait. -/
theorem refused_spec (limits : RouteLimits) {earlier : List Request} {request : Request}
    (hwell : ∀ other ∈ earlier ++ [request], WellFormed other)
    (hclock : (earlier ++ [request]).Pairwise fun a b => a.now ≤ b.now)
    (hstart : ∀ other ∈ earlier ++ [request], 0 ≤ other.now) {retryAfter : ℤ}
    (hrefused :
      (dispatch limits (storeAfter limits earlier) request).2 = .tooManyRequests retryAfter) :
    ∃ config, matchRoute request.path limits = some config ∧
      config.maxRequests ≤ earlier.countP (fun other =>
        request.same other && request.now - other.now < config.windowSeconds) ∧
      (0 < config.maxRequests → ∀ (between : List Request) (next : Request),
        (∀ other ∈ between, WellFormed other ∧ request.same other = false) →
        WellFormed next → request.same next = true → request.now + retryAfter ≤ next.now →
          (dispatch limits (storeAfter limits (earlier ++ request :: between)) next).2 =
            .next) := by
  obtain ⟨config, hconfig, hfull, hpassed⟩ := of_tooManyRequests hrefused
  have hrequest := hwell request (by simp)
  have hearlier : ∀ other ∈ earlier, WellFormed other :=
    fun other ho => hwell other (List.mem_append_left [request] ho)
  have hbucket : (storeAfter limits earlier request.key).window =
      (timesOf request earlier).foldl (Window.request (config.windowSeconds : ℚ)) ⟨0, 0⟩ :=
    window_foldl_dispatch hrequest hconfig _ hearlier
  refine ⟨config, hconfig, ?_, ?_⟩
  · have hinitial : ∀ t ∈ timesOf request earlier, 0 ≤ t := by
      intro t ht
      obtain ⟨other, ho, rfl⟩ := List.mem_map.mp ht
      exact hstart other (List.mem_append_left [request] (List.mem_of_mem_filter ho))
    have hcounted := counted_foldl (config.windowSeconds : ℚ) 0 hinitial
      (pairwise_timesOf request (List.pairwise_append.mp hclock).1)
    rw [← hbucket] at hcounted
    have hle := le_countP_of_not_admits hcounted hfull
    rw [timesOf, List.countP_map, List.countP_filter] at hle
    simp only [Function.comp_apply] at hle
    simp only [Bool.and_comm (request.same _)]
    omega
  · intro hmax between next hbetween hnext hsame htime
    have hkey := (same_iff_key_eq hrequest hnext).mp hsame
    have hnone : timesOf request between = [] := by
      rw [timesOf, List.map_eq_nil_iff, List.filter_eq_nil_iff]
      intro other ho
      simp [(hbetween other ho).2]
    have hself : request.same request = true := by simp [Request.same]
    have htimes : timesOf request (earlier ++ request :: between) =
        timesOf request earlier ++ [request.now] := by
      rw [timesOf, List.filter_append, List.filter_cons_of_pos hself, List.map_append,
        List.map_cons]
      exact congrArg (timesOf request earlier ++ request.now :: ·) hnone
    have hall : ∀ other ∈ earlier ++ request :: between, WellFormed other := by
      intro other ho
      rcases List.mem_append.mp ho with hmem | hmem
      · exact hearlier other hmem
      · rcases List.mem_cons.mp hmem with rfl | hmem
        · exact hrequest
        · exact (hbetween other hmem).1
    have hafter : (storeAfter limits (earlier ++ request :: between) request.key).window =
        (timesOf request (earlier ++ request :: between)).foldl
          (Window.request (config.windowSeconds : ℚ)) ⟨0, 0⟩ :=
      window_foldl_dispatch hrequest hconfig _ hall
    rw [htimes, List.foldl_append, ← hbucket, List.foldl_cons, List.foldl_nil] at hafter
    rw [next_iff _ (matchRoute_of_same hconfig hsame), hkey, hafter, Window.admits, Window.current,
      if_pos]
    · simp only [decide_eq_true_eq]
      omega
    · rw [Window.request]
      simp only
      linarith

theorem dispatch_third :
    (dispatch twoAMinute (storeAfter twoAMinute [byClient 0, byClient 1]) (byClient 2)).2 =
      .tooManyRequests 59 := by
  decide +kernel

theorem thirdRequest_refused :
    ∃ config, matchRoute (byClient 2).path twoAMinute = some config ∧
      config.maxRequests ≤ [byClient 0, byClient 1].countP (fun other =>
        (byClient 2).same other && (byClient 2).now - other.now < config.windowSeconds) ∧
      (0 < config.maxRequests → ∀ (between : List Request) (next : Request),
        (∀ other ∈ between, WellFormed other ∧ (byClient 2).same other = false) →
        WellFormed next → (byClient 2).same next = true →
        (byClient 2).now + (59 : ℤ) ≤ next.now →
          (dispatch twoAMinute (storeAfter twoAMinute
            ([byClient 0, byClient 1] ++ byClient 2 :: between)) next).2 = .next) := by
  apply refused_spec twoAMinute _ _ _ dispatch_third
  · simp [wellFormed_byClient]
  · norm_num [byClient]
  · norm_num [byClient]

end TradeStream.RateLimiter
