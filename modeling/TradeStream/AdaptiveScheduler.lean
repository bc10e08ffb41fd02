import TradeStream.SortedWindow

/-! `AdaptiveScheduler` of the autonomous runner: latencies kept sorted for the percentiles,
and what is decided from them. -/
namespace TradeStream.AdaptiveScheduler
open TradeStream.SortedWindow
open scoped List

structure Config where
  windowSize : ℤ := 50
  p95Threshold : ℚ := 8000
  p99Threshold : ℚ := 9000
  defaultBatchSize : ℤ := 10
  reducedBatchSize : ℤ := 5
  defaultTimeout : ℚ := 10
  extendedTimeout : ℚ := 15

structure AdaptiveState where
  batchSize : ℤ := 10
  symbolTimeoutSeconds : ℚ := 10
  shouldSkipCycle : Bool := false
  p95Ms : ℚ := 0
  p99Ms : ℚ := 0
  sampleCount : ℕ := 0
  deriving DecidableEq

variable (config : Config)

/-- `bisect.insort`, then `pop(0)` from a list that is too long. -/
def recordLatency (latencies : List ℚ) (latencyMs : ℚ) : List ℚ :=
  let latencies := latencies.orderedInsert (· ≤ ·) latencyMs
  if config.windowSize < latencies.length then latencies.tail else latencies

/-- `get_state` on the sorted latencies. The products `n * 0.95` and `n * 0.99` are exact
here. -/
def getState (latencies : List ℚ) : AdaptiveState :=
  if hn : latencies.length < 3 then
    { batchSize := config.defaultBatchSize
      symbolTimeoutSeconds := config.defaultTimeout
      sampleCount := latencies.length }
  else
    have h95 : latencies.length * 95 / 100 < latencies.length := by omega
    have h99 : latencies.length * 99 / 100 < latencies.length := by omega
    let p95 := latencies[latencies.length * 95 / 100]
    let p99 := latencies[latencies.length * 99 / 100]
    let skip := config.p99Threshold < p99
    let highLatency := config.p95Threshold < p95
    { batchSize := if highLatency then config.reducedBatchSize else config.defaultBatchSize
      symbolTimeoutSeconds :=
        if highLatency then config.extendedTimeout else config.defaultTimeout
      shouldSkipCycle := skip
      p95Ms := p95
      p99Ms := p99
      sampleCount := latencies.length }

/-- What a new scheduler holds after these latencies. -/
def recorded (recent : List ℚ) : List ℚ :=
  recent.foldl (recordLatency config) []

/-- The last `window_size` latencies, in the order they were recorded. -/
def rollingWindow (recent : List ℚ) : List ℚ :=
  recent.drop (recent.length - config.windowSize.toNat)

/-- The latencies that have left the window. -/
def expired (recent : List ℚ) : List ℚ :=
  recent.take (recent.length - config.windowSize.toNat)

variable {config}

theorem recordLatency_eq (latencies : List ℚ) (latencyMs : ℚ) :
    recordLatency config latencies latencyMs =
      insertBounded config.windowSize.toNat latencies latencyMs := by
  have hlength : (latencies.orderedInsert (· ≤ ·) latencyMs).length = latencies.length + 1 :=
    List.orderedInsert_length _ _ _
  simp only [recordLatency, insertBounded, hlength]
  -- a negative size keeps as little as zero does, since the list is never empty here
  have hsize : config.windowSize < (latencies.length + 1 : ℕ) ↔
      config.windowSize.toNat < latencies.length + 1 := by omega
  simp only [hsize]

theorem recordLatency_eq_insertBounded :
    recordLatency config = insertBounded config.windowSize.toNat := by
  ext1 latencies
  ext1 latencyMs
  exact recordLatency_eq latencies latencyMs

/-- The scheduler holds the largest latencies of all that were recorded. -/
theorem recorded_eq (latencies : List ℚ) :
    recorded config latencies = (latencies.insertionSort (· ≤ ·)).drop
      (latencies.length - config.windowSize.toNat) := by
  rw [recorded, recordLatency_eq_insertBounded]
  exact foldl_insertBounded _ latencies

theorem expired_append_rollingWindow (latencies : List ℚ) :
    expired config latencies ++ rollingWindow config latencies = latencies :=
  List.take_append_drop _ latencies

theorem length_expired (latencies : List ℚ) :
    (expired config latencies).length = latencies.length - config.windowSize.toNat := by
  rw [expired, List.length_take]
  omega

theorem recorded_eq_iff (latencies : List ℚ) :
    recorded config latencies = (rollingWindow config latencies).insertionSort (· ≤ ·) ↔
      ∀ old ∈ expired config latencies, ∀ recent ∈ rollingWindow config latencies,
        old ≤ recent := by
  rw [← drop_insertionSort_append_iff, expired_append_rollingWindow, length_expired,
    recorded_eq]

/-- Whatever was recorded, each place of the list holds at least what the window has there. -/
theorem rollingWindow_le_recorded (latencies : List ℚ) :
    List.Forall₂ (· ≤ ·) ((rollingWindow config latencies).insertionSort (· ≤ ·))
      (recorded config latencies) := by
  have hsub : (rollingWindow config latencies).insertionSort (· ≤ ·) <+
      latencies.insertionSort (· ≤ ·) := by
    apply List.sublist_insertionSort' (List.pairwise_insertionSort _ _)
    exact (List.perm_insertionSort _ _).subperm.trans (List.drop_sublist _ _).subperm
  have h := forall₂_le_drop_of_sublist hsub (List.pairwise_insertionSort _ _)
  have hlength : (latencies.insertionSort (· ≤ ·)).length -
      ((rollingWindow config latencies).insertionSort (· ≤ ·)).length =
        latencies.length - config.windowSize.toNat := by
    rw [List.length_insertionSort, List.length_insertionSort, rollingWindow, List.length_drop]
    omega
  rwa [hlength, ← recorded_eq] at h

variable (config) in
/-- What the scheduler's list always is. -/
structure Held (latencies : List ℚ) : Prop where
  sorted : latencies.Pairwise (· ≤ ·)
  bounded : latencies.length ≤ config.windowSize.toNat

theorem Held.nil : Held config [] := ⟨.nil, Nat.zero_le _⟩

theorem Held.recordLatency {latencies : List ℚ} (h : Held config latencies) (latencyMs : ℚ) :
    Held config (recordLatency config latencies latencyMs) := by
  have hsorted := h.sorted.orderedInsert latencyMs latencies
  have hlength : (latencies.orderedInsert (· ≤ ·) latencyMs).length = latencies.length + 1 :=
    List.orderedInsert_length _ _ _
  have hbounded := h.bounded
  rw [recordLatency_eq, insertBounded]
  split_ifs with hfull
  · exact ⟨hsorted.tail, by rw [List.length_tail]; omega⟩
  · exact ⟨hsorted, not_lt.mp hfull⟩

/-- When to skip, from the latencies held and those recorded since: of the places that
are filled, those from the percentile up are all above the threshold. -/
theorem shouldSkipCycle_foldl_iff {held : List ℚ} (h : Held config held) (recent : List ℚ) :
    (getState config
        (recent.foldl (AdaptiveScheduler.recordLatency config) held)).shouldSkipCycle = true ↔
      3 ≤ min config.windowSize.toNat (held.length + recent.length) ∧
        min config.windowSize.toNat (held.length + recent.length) -
            min config.windowSize.toNat (held.length + recent.length) * 99 / 100 ≤
          (held ++ recent).countP (config.p99Threshold < ·) := by
  let sorted := (held ++ recent).insertionSort (· ≤ ·)
  let dropped := held.length + recent.length - config.windowSize.toNat
  let filled := min config.windowSize.toNat (held.length + recent.length)
  have hfold : recent.foldl (AdaptiveScheduler.recordLatency config) held =
      sorted.drop dropped := by
    rw [recordLatency_eq_insertBounded]
    exact foldl_insertBounded_of_pairwise h.sorted h.bounded recent
  have hsorted : sorted.length = held.length + recent.length := by
    rw [List.length_insertionSort, List.length_append]
  have hfilled : (sorted.drop dropped).length = filled := by
    rw [List.length_drop, hsorted]
    omega
  have hcount : sorted.countP (config.p99Threshold < ·) =
      (held ++ recent).countP (config.p99Threshold < ·) :=
    (List.perm_insertionSort _ _).countP_eq _
  change _ ↔ 3 ≤ filled ∧ filled - filled * 99 / 100 ≤ _
  rw [hfold]
  by_cases hfew : filled < 3
  · -- too few samples for a percentile
    have hfew' : ¬ 3 ≤ filled := by omega
    simp [getState, hfilled, hfew, hfew']
  · -- the percentile is an element of the sorted latencies, some way from their end
    have hplace : dropped + filled * 99 / 100 < sorted.length := by
      rw [List.length_drop] at hfilled
      omega
    have hplaces : sorted.length - (dropped + filled * 99 / 100) =
        filled - filled * 99 / 100 := by
      rw [List.length_drop] at hfilled
      omega
    have hlt := lt_getElem_iff (List.pairwise_insertionSort (· ≤ ·) (held ++ recent))
      config.p99Threshold hplace
    rw [hplaces, hcount] at hlt
    simp only [getState, hfilled, hfew, ↓reduceDIte, decide_eq_true_eq, List.getElem_drop]
    rw [hlt]
    exact (and_iff_right (not_lt.mp hfew)).symm

/-- Larger latencies never lead to an earlier decision to go on. -/
theorem shouldSkipCycle_mono {l m : List ℚ} (h : List.Forall₂ (· ≤ ·) l m)
    (hskip : (getState config l).shouldSkipCycle = true) :
    (getState config m).shouldSkipCycle = true := by
  have hlength := h.length_eq
  by_cases hfew : l.length < 3
  · simp [getState, hfew] at hskip
  · have hfew' : ¬ m.length < 3 := by omega
    simp only [getState, hfew, hfew', ↓reduceDIte, decide_eq_true_eq] at hskip ⊢
    refine hskip.trans_le ?_
    have hle := h.get (i := l.length * 99 / 100) (by omega) (by omega)
    simpa [hlength] using hle

/-- A skip that the last latencies call for is never missed. -/
theorem shouldSkipCycle_of_rollingWindow (latencies : List ℚ)
    (h : (getState config
      ((rollingWindow config latencies).insertionSort (· ≤ ·))).shouldSkipCycle = true) :
    (getState config (recorded config latencies)).shouldSkipCycle = true :=
  shouldSkipCycle_mono (rollingWindow_le_recorded latencies) h

variable (config) in
/-- `get_state` reads the last `window_size` latencies exactly when none of them is below
one that has left the window. -/
theorem getState_rollingWindow_iff (latencies : List ℚ) :
    (recorded config latencies = (rollingWindow config latencies).insertionSort (· ≤ ·) ↔
        ∀ old ∈ expired config latencies, ∀ recent ∈ rollingWindow config latencies,
          old ≤ recent) ∧
      ((∀ old ∈ expired config latencies, ∀ recent ∈ rollingWindow config latencies,
          old ≤ recent) →
        getState config (recorded config latencies) =
          getState config ((rollingWindow config latencies).insertionSort (· ≤ ·))) := by
  refine ⟨recorded_eq_iff latencies, ?_⟩
  intro h
  rw [(recorded_eq_iff latencies).mpr h]

/-- Three slow symbols fill the window, and the three fast ones after them do not enter it. -/
theorem slowStart_getState :
    ¬ getState { windowSize := 3 } (recorded { windowSize := 3 }
        [10000, 10000, 10000, 1, 1, 1]) =
      getState { windowSize := 3 } ((rollingWindow { windowSize := 3 }
        [10000, 10000, 10000, 1, 1, 1]).insertionSort (· ≤ ·)) := by
  decide +kernel

end TradeStream.AdaptiveScheduler
