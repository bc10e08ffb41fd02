import TradeStream.CandleIngestor

/-! The global status of the candle ingestor: the latest ingested timestamp of each symbol,
published after every batch of a backfill and of a catch-up. -/
namespace TradeStream.CandleIngestor
open TradeStream.RunSteps

/-- No point of a symbol's status is below an earlier one. -/
def StatusMonotone (tracker : List Point) : Prop :=
  tracker.Pairwise fun later earlier =>
    later.serviceIdentifier = globalStatusService →
      earlier.serviceIdentifier = globalStatusService → later.key = earlier.key →
        earlier.value ≤ later.value

instance (tracker : List Point) : Decidable (StatusMonotone tracker) :=
  inferInstanceAs (Decidable (tracker.Pairwise _))

/-- A batch that ends here does not take the symbol's status back. -/
def AtLeastStatus (st : State) (ticker : String) (latestTimestampMs : ℤ) : Prop :=
  ∀ key, globalStatusKey ticker = some key →
    ∀ status, st.lookup globalStatusService key = some status → status ≤ latestTimestampMs

section
variable (settings : Settings) (answers : ℕ → Answers)

/-- A chunk that is written and published ends at the symbol's status or later. -/
def ChunkKeeps (ticker : String) (st : State) (chunk : ℤ × ℤ) : Prop :=
  ∀ latest, (chunkCandles settings (answers st.turns) ticker chunk).getLast? = some latest →
    (answers st.turns).writes = true → (answers st.turns).publishes = true →
      AtLeastStatus st ticker latest.timestampMs

def BackfillKeeps (flagStart endDate : ℤ) (st : State) (ticker : String) : Prop :=
  ¬ endDate ≤ backfillStart settings answers st ticker flagStart →
    EachStep (backfillChunk settings answers ticker) (fun _ _ => True)
      (ChunkKeeps settings answers ticker)
      { st with currentRunMax := 0, turns := st.turns + 1 }
      (chunksFrom (backfillStart settings answers st ticker flagStart) endDate)

/-- A catch-up that is written and published ends at the symbol's status or later. -/
def CatchUpKeeps (st : State) (ticker : String) : Prop :=
  ¬ (answers st.turns).now ≤ catchUpStart settings answers st ticker →
    ∀ latest, (catchUpCandles settings (answers st.turns) ticker
        (catchUpStart settings answers st ticker)).getLast? = some latest →
      (answers st.turns).writes = true → (answers st.turns).publishes = true →
        AtLeastStatus st ticker latest.timestampMs

def FlowKeeps (st : State) : Flow → Prop
  | .start => True
  | .backfill tickers flagStart now => ¬ floorTo day now ≤ flagStart →
      EachStep (backfillTicker settings answers flagStart (floorTo day now)) (fun _ _ => True)
        (BackfillKeeps settings answers flagStart (floorTo day now)) st tickers
  | .catchUp tickers =>
      EachStep (catchUpTicker settings answers) (fun _ _ => True)
        (CatchUpKeeps settings answers) st tickers

end

/-! ### Points of the tracker -/

/-- What is found first stands before every other one. -/
theorem eq_or_rel_of_find? {α : Type*} {R : α → α → Prop} {p : α → Bool} {l : List α}
    {first a : α} (hl : l.Pairwise R) (hfind : l.find? p = some first) (ha : a ∈ l)
    (hpa : p a = true) : a = first ∨ R first a := by
  induction l with
  | nil => cases ha
  | cons b l ih =>
    obtain ⟨hb, hl⟩ := List.pairwise_cons.mp hl
    by_cases hpb : p b = true
    · rw [List.find?_cons_of_pos hpb, Option.some.injEq] at hfind
      subst hfind
      rcases List.mem_cons.mp ha with rfl | ha
      · exact .inl rfl
      · exact .inr (hb a ha)
    · rw [List.find?_cons_of_neg hpb] at hfind
      rcases List.mem_cons.mp ha with rfl | ha
      · exact absurd hpa hpb
      · exact ih hl hfind ha

/-- A status point keeps the series monotone exactly if it is not below the status. -/
theorem statusMonotone_publish_iff (st : State) (key : String) (value : ℤ) :
    StatusMonotone (⟨globalStatusService, key, value⟩ :: st.tracker) ↔
      StatusMonotone st.tracker ∧
        ∀ status, st.lookup globalStatusService key = some status → status ≤ value := by
  rw [StatusMonotone, List.pairwise_cons, and_comm]
  refine and_congr_right fun hmono => ?_
  constructor
  · intro h status hstatus
    obtain ⟨point, hfind, rfl⟩ := Option.map_eq_some_iff.mp hstatus
    have hpoint : point.serviceIdentifier = globalStatusService ∧ point.key = key := by
      simpa using List.find?_some hfind
    exact h point (List.mem_of_find?_eq_some hfind) rfl hpoint.1 hpoint.2.symm
  · intro h point hmem _ hservice hkey
    have hmatches : decide (point.serviceIdentifier = globalStatusService ∧ point.key = key) =
        true := by simpa using ⟨hservice, hkey.symm⟩
    have hsome : (st.tracker.find? fun point =>
        point.serviceIdentifier = globalStatusService ∧ point.key = key).isSome = true :=
      List.find?_isSome.mpr ⟨point, hmem, hmatches⟩
    obtain ⟨first, hfind⟩ := Option.isSome_iff_exists.mp hsome
    -- the latest point of the key bounds all the earlier ones
    have hfirst : first.value ≤ value := h first.value (by rw [State.lookup, hfind]; rfl)
    rcases eq_or_rel_of_find? hmono hfind hmem hmatches with rfl | hrel
    · exact hfirst
    · have hpoint : first.serviceIdentifier = globalStatusService ∧ first.key = key := by
        simpa using List.find?_some hfind
      exact (hrel hpoint.1 hservice (hpoint.2.trans hkey)).trans hfirst

/-- A point of another service leaves the status alone. -/
theorem statusMonotone_cons_of_ne {tracker : List Point} {service key : String} {value : ℤ}
    (h : service ≠ globalStatusService) :
    StatusMonotone (⟨service, key, value⟩ :: tracker) ↔ StatusMonotone tracker := by
  rw [StatusMonotone, List.pairwise_cons]
  exact and_iff_right fun _ _ hservice => absurd hservice h

theorem statusMonotone_update_iff (st : State) (goesThrough : Bool) (key : String) (value : ℤ) :
    StatusMonotone (st.update goesThrough serviceIdentifier key value).tracker ↔
      StatusMonotone st.tracker := by
  have hservice : serviceIdentifier ≠ globalStatusService := by decide
  cases goesThrough with
  | false => exact Iff.rfl
  | true => exact statusMonotone_cons_of_ne hservice

theorem lookup_update (st : State) (goesThrough : Bool) (key other : String) (value : ℤ) :
    (st.update goesThrough serviceIdentifier key value).lookup globalStatusService other =
      st.lookup globalStatusService other := by
  cases goesThrough with
  | false => rfl
  | true =>
    have hservice : serviceIdentifier ≠ globalStatusService := by decide
    simp [State.update, State.lookup, hservice]

theorem statusMonotone_updateGlobal_iff (st : State) (goesThrough : Bool) (ticker : String)
    (latestTimestampMs : ℤ) :
    StatusMonotone (updateGlobalStatusTracker st goesThrough ticker latestTimestampMs).tracker ↔
      StatusMonotone st.tracker ∧
        (goesThrough = true → AtLeastStatus st ticker latestTimestampMs) := by
  rw [updateGlobalStatusTracker, AtLeastStatus]
  cases globalStatusKey ticker with
  | none => simp
  | some key =>
    cases goesThrough with
    | false => simp [State.update]
    | true => simpa [State.update] using statusMonotone_publish_iff st key latestTimestampMs

/-! ### Batches -/

section
variable {settings : Settings} {answers : ℕ → Answers}

/-- Recording a batch: its own key first, the status after it. -/
theorem statusMonotone_record_iff (st : State) (updates publishes : Bool) (key ticker : String)
    (latestTimestampMs : ℤ) :
    StatusMonotone (updateGlobalStatusTracker
        (st.update updates serviceIdentifier key latestTimestampMs) publishes ticker
        latestTimestampMs).tracker ↔
      StatusMonotone st.tracker ∧ (publishes = true → AtLeastStatus st ticker latestTimestampMs) := by
  rw [statusMonotone_updateGlobal_iff, statusMonotone_update_iff]
  simp only [AtLeastStatus, lookup_update]

theorem statusMonotone_chunk_iff (ticker : String) (st : State) (chunk : ℤ × ℤ) :
    StatusMonotone (backfillChunk settings answers ticker st chunk).tracker ↔
      StatusMonotone st.tracker ∧ ChunkKeeps settings answers ticker st chunk := by
  simp only [backfillChunk, ChunkKeeps]
  cases (chunkCandles settings (answers st.turns) ticker chunk).getLast? with
  | none => simp
  | some latest =>
    cases (answers st.turns).writes with
    | false => simp
    | true =>
      simp only [↓reduceIte, Option.some.injEq, forall_eq', true_implies]
      exact statusMonotone_record_iff _ _ _ _ _ _

theorem statusMonotone_catchUp_iff (st : State) (ticker : String) :
    StatusMonotone (catchUpTicker settings answers st ticker).tracker ↔
      StatusMonotone st.tracker ∧ CatchUpKeeps settings answers st ticker := by
  simp only [catchUpTicker, CatchUpKeeps]
  by_cases hdone : (answers st.turns).now ≤ catchUpStart settings answers st ticker
  · simp [hdone]
  · simp only [hdone, ↓reduceIte, not_false_eq_true, true_implies]
    cases (catchUpCandles settings (answers st.turns) ticker
        (catchUpStart settings answers st ticker)).getLast? with
    | none => simp
    | some latest =>
      cases (answers st.turns).writes with
      | false => simp
      | true =>
        simp only [↓reduceIte, Option.some.injEq, forall_eq', true_implies]
        exact statusMonotone_record_iff _ _ _ _ _ _

/-! ### Runs -/

theorem tracker_finishBackfill (ticker : String) (st : State) :
    (finishBackfill ticker st).tracker = st.tracker := by
  rw [finishBackfill]
  split_ifs <;> rfl

theorem statusMonotone_backfillTicker_iff (flagStart endDate : ℤ) (st : State) (ticker : String) :
    StatusMonotone (backfillTicker settings answers flagStart endDate st ticker).tracker ↔
      StatusMonotone st.tracker ∧
        BackfillKeeps settings answers flagStart endDate st ticker := by
  simp only [backfillTicker, BackfillKeeps]
  split_ifs with hdone
  · simp [hdone]
  · rw [tracker_finishBackfill, @foldl_iff_eachStep _ _ (backfillChunk settings answers ticker)
      (fun st => StatusMonotone st.tracker) (ChunkKeeps settings answers ticker)
      (statusMonotone_chunk_iff ticker)]
    simp [hdone]

theorem statusMonotone_flow_iff (st : State) (flow : Flow) :
    StatusMonotone (runFlow settings answers st flow).tracker ↔
      StatusMonotone st.tracker ∧ FlowKeeps settings answers st flow := by
  cases flow with
  | start => simp [runFlow, FlowKeeps]
  | backfill tickers flagStart now =>
    simp only [runFlow, runBackfill, FlowKeeps]
    split_ifs with hnothing
    · simp [hnothing]
    · rw [@foldl_iff_eachStep _ _ (backfillTicker settings answers flagStart (floorTo day now))
        (fun st => StatusMonotone st.tracker)
        (BackfillKeeps settings answers flagStart (floorTo day now))
        (statusMonotone_backfillTicker_iff flagStart (floorTo day now))]
      simp [hnothing]
  | catchUp tickers =>
    exact @foldl_iff_eachStep _ _ (catchUpTicker settings answers)
      (fun st => StatusMonotone st.tracker) (CatchUpKeeps settings answers)
      statusMonotone_catchUp_iff st tickers

end

/-- An exchange with one candle a day, of the day that is asked for. -/
def dailyCandle : Answers where
  fetched := fun symbol _ since _ => [⟨since, 1, 1, 1, 1, 1, symbol⟩]
  writes := true
  reads := fun _ => true
  updates := true
  publishes := true
  now := 20 * day

end TradeStream.CandleIngestor
