import TradeStream.Interleaving
import TradeStream.KeyedTable
import TradeStream.RunSteps

/-! The counters of a marketplace listing against its subscriptions and ratings, for
requests whose statements interleave. -/
namespace TradeStream.MarketplaceCounters
open TradeStream.Interleaving TradeStream.KeyedTable TradeStream.RunSteps

/-- The denormalised columns of a listing. -/
structure Counters where
  subscribersCount : ℕ
  avgRating : ℚ
  ratingCount : ℕ
  deriving DecidableEq

structure Rating where
  score : ℕ
  review : Option String
  deriving DecidableEq

/-- The tables, by listing. A listing has one subscription and one rating of a user. -/
structure Db where
  counters : String → Counters
  subscriptions : String → Finset String
  ratings : String → Table String Rating

inductive Request where
  | subscribe (listingId userId : String)
  | unsubscribe (listingId userId : String)
  | rate (listingId userId : String) (score : ℕ) (review : Option String)
  deriving DecidableEq

def Request.listingId : Request → String
  | .subscribe listingId _ => listingId
  | .unsubscribe listingId _ => listingId
  | .rate listingId _ _ _ => listingId

inductive Response where
  | created
  | noContent
  | notFound
  | conflict (message : String)
  | serverError
  deriving DecidableEq

/-- The statement that a request executes next. -/
inductive Phase where
  | begin
  | insert
  | increment
  | decrement
  | upsert
  | aggregate
  | ended (response : Response)
  deriving DecidableEq

/-- The request has not begun, or has ended. -/
def Phase.idle : Phase → Bool
  | .begin => true
  | .ended _ => true
  | _ => false

def insertSubscription (db : Db) (listingId userId : String) : Db :=
  { db with
    subscriptions := Function.update db.subscriptions listingId
      (insert userId (db.subscriptions listingId)) }

def deleteSubscription (db : Db) (listingId userId : String) : Db :=
  { db with
    subscriptions := Function.update db.subscriptions listingId
      ((db.subscriptions listingId).erase userId) }

def setCounters (db : Db) (listingId : String) (set : Counters → Counters) : Db :=
  { db with counters := Function.update db.counters listingId (set (db.counters listingId)) }

def increment (counters : Counters) : Counters :=
  { counters with subscribersCount := counters.subscribersCount + 1 }

/-- `GREATEST(subscribers_count - 1, 0)`, which is the subtraction of natural numbers. -/
def decrement (counters : Counters) : Counters :=
  { counters with subscribersCount := counters.subscribersCount - 1 }

def upsertRating (db : Db) (listingId userId : String) (rating : Rating) : Db :=
  { db with
    ratings := Function.update db.ratings listingId ((db.ratings listingId).insert userId rating) }

theorem ratings_upsertRating (db : Db) (listingId userId : String) (rating : Rating) :
    (upsertRating db listingId userId rating).ratings listingId =
      (db.ratings listingId).insert userId rating :=
  Function.update_self ..

theorem ratings_upsertRating_of_ne (db : Db) {listingId other : String} (userId : String)
    (rating : Rating) (h : other ≠ listingId) :
    (upsertRating db listingId userId rating).ratings other = db.ratings other :=
  Function.update_of_ne h ..

def scores (ratings : Table String Rating) : List ℕ := ratings.entries.map fun r => r.2.score

def mean (scores : List ℕ) : ℚ := scores.sum / scores.length

section
variable (column : ℚ → ℚ) (listed : String → Bool)

/-- The mean as its column keeps it. Without ratings it is 0, the column's default. -/
def storedMean (scores : List ℕ) : ℚ := if scores = [] then 0 else column (mean scores)

def aggregate (ratings : Table String Rating) (counters : Counters) : Counters :=
  { counters with
    avgRating := column (mean (scores ratings))
    ratingCount := (scores ratings).length }

/-- A statement of a request, and the code up to the next one. The listings are those that
are `listed`. -/
def execute (request : Request) (_ : Unit) (db : Db) (phase : Phase) : Db × Phase :=
  match request, phase with
  | .subscribe listingId _, .begin => (db, if listed listingId then .insert else .ended .notFound)
  -- a user has one row of a listing
  | .subscribe listingId userId, .insert =>
    if userId ∈ db.subscriptions listingId then
      (db, .ended (.conflict "Already subscribed to this listing"))
    else (insertSubscription db listingId userId, .increment)
  | .subscribe listingId _, .increment => (setCounters db listingId increment, .ended .created)
  | .unsubscribe listingId userId, .begin =>
    if userId ∈ db.subscriptions listingId then
      (deleteSubscription db listingId userId, .decrement)
    else (db, .ended .notFound)
  | .unsubscribe listingId _, .decrement => (setCounters db listingId decrement, .ended .noContent)
  | .rate listingId _ _ _, .begin => (db, if listed listingId then .upsert else .ended .notFound)
  | .rate listingId userId score review, .upsert =>
    (upsertRating db listingId userId ⟨score, review⟩, .aggregate)
  | .rate listingId _ _ _, .aggregate =>
    -- the average of no rows is null, which the column refuses
    if scores (db.ratings listingId) = [] then (db, .ended .serverError)
    else (setCounters db listingId (aggregate column (db.ratings listingId)), .ended .created)
  | _, phase => (db, phase)

/-- The counters of a listing are those of its rows. -/
structure Agrees (db : Db) (listingId : String) : Prop where
  subscribers : (db.counters listingId).subscribersCount = (db.subscriptions listingId).card
  average : (db.counters listingId).avgRating = storedMean column (scores (db.ratings listingId))
  count : (db.counters listingId).ratingCount = (scores (db.ratings listingId)).length

/-- The decrement of a request finds something to take away. -/
def Counted (request : Request) (db : Db) (phase : Phase) : Prop :=
  ∀ listingId userId, request = .unsubscribe listingId userId → phase = .decrement →
    1 ≤ (db.counters listingId).subscribersCount

end

/-- The next statement writes the counters. -/
def Phase.counting : Phase → Bool
  | .increment => true
  | .decrement => true
  | .aggregate => true
  | _ => false

/-- The request has still to count the row that it has written for the listing. -/
def Adds (listingId : String) (request : Request) (phase : Phase) : Prop :=
  request.listingId = listingId ∧ phase = .increment

def Removes (listingId : String) (request : Request) (phase : Phase) : Prop :=
  request.listingId = listingId ∧ phase = .decrement

def Rates (listingId : String) (request : Request) (phase : Phase) : Prop :=
  request.listingId = listingId ∧ phase = .aggregate

/-- What a statement of a request does. -/
inductive Effect (column : ℚ → ℚ) (request : Request) (db : Db) (phase : Phase) :
    Db → Phase → Prop
  | stays : Effect column request db phase db phase
  | moves {phase' : Phase} (hbefore : phase.counting = false) (hafter : phase'.counting = false) :
      Effect column request db phase db phase'
  | inserts {userId : String} (hphase : phase = .insert)
      (hnew : userId ∉ db.subscriptions request.listingId) :
      Effect column request db phase (insertSubscription db request.listingId userId) .increment
  | increments (hphase : phase = .increment) (response : Response) :
      Effect column request db phase (setCounters db request.listingId increment) (.ended response)
  | deletes {userId : String} (hphase : phase = .begin)
      (hold : userId ∈ db.subscriptions request.listingId) :
      Effect column request db phase (deleteSubscription db request.listingId userId) .decrement
  | decrements {userId : String} (hphase : phase = .decrement)
      (hrequest : request = .unsubscribe request.listingId userId) (response : Response) :
      Effect column request db phase (setCounters db request.listingId decrement) (.ended response)
  | upserts {userId : String} {rating : Rating} (hphase : phase = .upsert) :
      Effect column request db phase (upsertRating db request.listingId userId rating) .aggregate
  | refuses (hphase : phase = .aggregate) (hnone : scores (db.ratings request.listingId) = [])
      (response : Response) : Effect column request db phase db (.ended response)
  | aggregates (hphase : phase = .aggregate) (hsome : scores (db.ratings request.listingId) ≠ [])
      (response : Response) :
      Effect column request db phase
        (setCounters db request.listingId (aggregate column (db.ratings request.listingId)))
        (.ended response)

theorem effect_execute (column : ℚ → ℚ) (listed : String → Bool) (request : Request) (input : Unit)
    (db : Db) (phase : Phase) :
    Effect column request db phase (execute column listed request input db phase).1
      (execute column listed request input db phase).2 := by
  cases request with
  | subscribe listingId userId =>
    cases phase with
    | begin =>
      simp only [execute]
      split_ifs
      · exact .moves rfl rfl
      · exact .moves rfl rfl
    | insert =>
      simp only [execute]
      split_ifs with hmem
      · exact .moves rfl rfl
      · exact .inserts rfl hmem
    | increment => exact .increments rfl .created
    | _ => exact .stays
  | unsubscribe listingId userId =>
    cases phase with
    | begin =>
      simp only [execute]
      split_ifs with hmem
      · exact .deletes rfl hmem
      · exact .moves rfl rfl
    | decrement => exact .decrements rfl rfl .noContent
    | _ => exact .stays
  | rate listingId userId score review =>
    cases phase with
    | begin =>
      simp only [execute]
      split_ifs
      · exact .moves rfl rfl
      · exact .moves rfl rfl
    | upsert => exact .upserts rfl
    | aggregate =>
      simp only [execute]
      split_ifs with hnone
      · exact .refuses rfl hnone .serverError
      · exact .aggregates rfl hnone .created
    | _ => exact .stays

section
variable {ι : Type*} [DecidableEq ι] (column : ℚ → ℚ) (listed : String → Bool)
  (requests : ι → Request)

def next (world : World ι Db Phase) (turn : Turn ι Unit) : World ι Db Phase :=
  world.step (fun i => execute column listed (requests i)) turn

variable (ι) in
omit [DecidableEq ι] in
def start (db : Db) : World ι Db Phase := ⟨db, fun _ => .begin⟩

omit [DecidableEq ι] in
/-- No request is in progress. -/
def Quiescent (world : World ι Db Phase) : Prop := ∀ i, (world.processes i).idle = true

omit [DecidableEq ι] in
/-- What the counter of a listing comes to when the increments ahead are executed. -/
noncomputable def claimed (listingId : String) : World ι Db Phase → ℕ∞ :=
  booked (fun db => (db.counters listingId).subscribersCount)
    fun i => Adds listingId (requests i)

omit [DecidableEq ι] in
/-- The rows of a listing and those deleted that the counter still holds. -/
noncomputable def owed (listingId : String) : World ι Db Phase → ℕ∞ :=
  booked (fun db => (db.subscriptions listingId).card)
    fun i => Removes listingId (requests i)

omit [DecidableEq ι] in
/-- The counter has run ahead of the rows by `drift`. -/
structure HasDrift (listingId : String) (drift : ℕ) (world : World ι Db Phase) : Prop where
  finite : owed requests listingId world ≠ ⊤
  claims : claimed requests listingId world = owed requests listingId world + drift

omit [DecidableEq ι] in
/-- A rating of the listing is still to be averaged, or all of them are. -/
def Rated (listingId : String) (world : World ι Db Phase) : Prop :=
  (∃ i, Rates listingId (requests i) (world.processes i)) ∨
    (world.db.counters listingId).avgRating =
        storedMean column (scores (world.db.ratings listingId)) ∧
      (world.db.counters listingId).ratingCount = (scores (world.db.ratings listingId)).length

/-- A request that averages has left a rating. -/
def Averages (request : Request) (db : Db) (phase : Phase) : Prop :=
  phase = .aggregate → scores (db.ratings request.listingId) ≠ []

end

theorem adds_iff {request : Request} {phase : Phase} :
    Adds request.listingId request phase ↔ phase = .increment :=
  and_iff_right rfl

theorem removes_iff {request : Request} {phase : Phase} :
    Removes request.listingId request phase ↔ phase = .decrement :=
  and_iff_right rfl

theorem not_adds_of_counting {request : Request} {phase : Phase} (h : phase.counting = false) :
    ¬ Adds request.listingId request phase := by
  rw [adds_iff]
  rintro rfl
  cases h

theorem not_removes_of_counting {request : Request} {phase : Phase} (h : phase.counting = false) :
    ¬ Removes request.listingId request phase := by
  rw [removes_iff]
  rintro rfl
  cases h

section
variable {ι : Type*} {requests : ι → Request} {listingId : String} {world world' : World ι Db Phase}
  {d e : ℕ}

theorem HasDrift.unique (hd : HasDrift requests listingId d world)
    (he : HasDrift requests listingId e world) : d = e := by
  have h : owed requests listingId world + d = owed requests listingId world + e := by
    rw [← hd.claims, he.claims]
  exact_mod_cast ENat.add_right_injective_of_ne_top hd.finite h

/-- What a statement adds to either side, and takes from it, settles the drift after it. -/
theorem HasDrift.of_booked {a b a' b' : ℕ} (h : HasDrift requests listingId d world)
    (hclaimed : claimed requests listingId world' + a = claimed requests listingId world + b)
    (howed : owed requests listingId world' + a' = owed requests listingId world + b')
    (hsum : d + b + a' = e + a + b') : HasDrift requests listingId e world' := by
  obtain ⟨hfinite, hclaims⟩ := h
  rw [hclaims] at hclaimed
  -- all four numbers are finite, so that they can be compared as natural ones
  lift owed requests listingId world to ℕ using hfinite with rows
  have hfinite' : owed requests listingId world' ≠ ⊤ := by
    intro htop
    rw [htop, top_add] at howed
    exact absurd howed (by exact_mod_cast ENat.top_ne_natCast (rows + b'))
  have hclaimed' : claimed requests listingId world' ≠ ⊤ := by
    intro htop
    rw [htop, top_add] at hclaimed
    exact absurd hclaimed (by exact_mod_cast ENat.top_ne_natCast (rows + d + b))
  refine ⟨hfinite', ?_⟩
  lift owed requests listingId world' to ℕ using hfinite' with rows'
  lift claimed requests listingId world' to ℕ using hclaimed' with count'
  norm_cast at hclaimed howed ⊢
  omega

end

section
variable {ι : Type*} [DecidableEq ι] {column : ℚ → ℚ} {requests : ι → Request}
  {listingId : String} {world : World ι Db Phase} {i : ι} {db : Db} {phase : Phase} {d : ℕ}

theorem HasDrift.of_unrelated (h : HasDrift requests listingId d world)
    (hcount : (db.counters listingId).subscribersCount =
      (world.db.counters listingId).subscribersCount)
    (hrows : (db.subscriptions listingId).card = (world.db.subscriptions listingId).card)
    (hadds : Adds listingId (requests i) phase ↔ Adds listingId (requests i) (world.processes i))
    (hremoves : Removes listingId (requests i) phase ↔
      Removes listingId (requests i) (world.processes i)) :
    HasDrift requests listingId d ⟨db, Function.update world.processes i phase⟩ :=
  h.of_booked (booked_of_iff (a := 0) (b := 0) hcount hadds)
    (booked_of_iff (a := 0) (b := 0) hrows hremoves) rfl

theorem Effect.frame {request : Request} {before after : Db} {phase phase' : Phase}
    (h : Effect column request before phase after phase') (hother : request.listingId ≠ listingId) :
    after.counters listingId = before.counters listingId ∧
      after.subscriptions listingId = before.subscriptions listingId ∧
        after.ratings listingId = before.ratings listingId := by
  have hne := Ne.symm hother
  cases h <;>
    simp [insertSubscription, deleteSubscription, setCounters, upsertRating, hne]

theorem hasDrift_of_other
    (heffect : Effect column (requests i) world.db (world.processes i) db phase)
    (h : HasDrift requests listingId d world) (hother : (requests i).listingId ≠ listingId) :
    HasDrift requests listingId d ⟨db, Function.update world.processes i phase⟩ := by
  obtain ⟨hcounters, hsubscriptions, -⟩ := heffect.frame hother
  apply h.of_unrelated
  · rw [hcounters]
  · rw [hsubscriptions]
  · exact iff_of_false (fun hadds => hother hadds.1) (fun hadds => hother hadds.1)
  · exact iff_of_false (fun hremoves => hother hremoves.1) (fun hremoves => hother hremoves.1)

theorem hasDrift_of_counted
    (heffect : Effect column (requests i) world.db (world.processes i) db phase)
    (h : HasDrift requests (requests i).listingId d world)
    (hcounted : Counted (requests i) world.db (world.processes i)) :
    HasDrift requests (requests i).listingId d
      ⟨db, Function.update world.processes i phase⟩ := by
  cases heffect with
  | stays => exact h.of_unrelated rfl rfl Iff.rfl Iff.rfl
  | moves hbefore hafter =>
    apply h.of_unrelated rfl rfl
    · exact iff_of_false (not_adds_of_counting hafter) (not_adds_of_counting hbefore)
    · exact iff_of_false (not_removes_of_counting hafter) (not_removes_of_counting hbefore)
  | inserts hphase hnew =>
    -- a row more, and its increment ahead
    apply h.of_booked
    · exact booked_of_gain (a := 0) (b := 0) rfl (by simp [adds_iff, hphase]) (by simp [adds_iff])
    · apply booked_of_iff (a := 0) (b := 1)
      · simp [insertSubscription, Finset.card_insert_of_notMem hnew]
      · simp [removes_iff, hphase]
    · rfl
  -- the row is counted, and its increment is no longer ahead
  | increments hphase response =>
    apply h.of_booked
    · apply booked_of_loss (a := 0) (b := 1)
      · simp [setCounters, increment]
      · simp [adds_iff, hphase]
      · simp [adds_iff]
    · exact booked_of_iff (a := 0) (b := 0) rfl (by simp [removes_iff, hphase])
    · rfl
  | deletes hphase hold =>
    -- a row less, and its decrement ahead
    apply h.of_booked
    · exact booked_of_iff (a := 0) (b := 0) rfl (by simp [adds_iff, hphase])
    · apply booked_of_gain (a := 1) (b := 0)
      · simp [deleteSubscription, Finset.card_erase_add_one hold]
      · simp [removes_iff, hphase]
      · simp [removes_iff]
    · omega
  -- the counter is positive, so that the decrement takes one away
  | decrements hphase hrequest response =>
    have hcount := Nat.sub_add_cancel (hcounted _ _ hrequest hphase)
    apply h.of_booked
    · apply booked_of_iff (a := 1) (b := 0)
      · simp [setCounters, decrement, hcount]
      · simp [adds_iff, hphase]
    · exact booked_of_loss (a := 0) (b := 0) rfl (by simp [removes_iff, hphase])
        (by simp [removes_iff])
    · omega
  | upserts hphase =>
    exact h.of_unrelated rfl rfl (by simp [adds_iff, hphase]) (by simp [removes_iff, hphase])
  | refuses hphase hnone response =>
    exact h.of_unrelated rfl rfl (by simp [adds_iff, hphase]) (by simp [removes_iff, hphase])
  | aggregates hphase hsome response =>
    apply h.of_unrelated
    · simp [setCounters, aggregate]
    · rfl
    · simp [adds_iff, hphase]
    · simp [removes_iff, hphase]

/-- A decrement that the counter does not take leaves a row counted that is gone. -/
theorem hasDrift_of_not_counted (listed : String → Bool) (input : Unit)
    (h : HasDrift requests (requests i).listingId d world)
    (hcounted : ¬ Counted (requests i) world.db (world.processes i)) :
    HasDrift requests (requests i).listingId (d + 1)
      (next column listed requests world ⟨i, input⟩) := by
  simp only [Counted, not_forall] at hcounted
  obtain ⟨listingId, userId, hrequest, hphase, hcount⟩ := hcounted
  -- `GREATEST` keeps the counter at zero
  have hzero : (world.db.counters listingId).subscribersCount = 0 := by omega
  have hlisting : (requests i).listingId = listingId := by rw [hrequest]; rfl
  have hexecute : execute column listed (requests i) input world.db (world.processes i) =
      (setCounters world.db listingId decrement, .ended .noContent) := by
    rw [hrequest, hphase]
    rfl
  rw [next, World.step]
  simp only [hexecute]
  apply h.of_booked
  · apply booked_of_iff (a := 0) (b := 0)
    · simp [setCounters, decrement, hlisting, hzero]
    · simp [adds_iff, hphase]
  · exact booked_of_loss (a := 0) (b := 0) rfl (by simp [removes_iff, hphase])
      (by simp [removes_iff])
  · omega

theorem HasDrift.kept (listed : String → Bool) (input : Unit)
    (h : HasDrift requests listingId d world)
    (hcounted : Counted (requests i) world.db (world.processes i)) :
    HasDrift requests listingId d (next column listed requests world ⟨i, input⟩) := by
  have heffect := effect_execute column listed (requests i) input world.db (world.processes i)
  by_cases hlisting : (requests i).listingId = listingId
  · subst hlisting
    exact hasDrift_of_counted heffect h hcounted
  · exact hasDrift_of_other heffect h hlisting

theorem exists_hasDrift_next (listed : String → Bool) (input : Unit)
    (h : ∀ listingId, ∃ d, HasDrift requests listingId d world) (listingId : String) :
    ∃ d, HasDrift requests listingId d (next column listed requests world ⟨i, input⟩) := by
  obtain ⟨d, hd⟩ := h listingId
  by_cases hcounted : Counted (requests i) world.db (world.processes i)
  · exact ⟨d, hd.kept listed input hcounted⟩
  · by_cases hlisting : (requests i).listingId = listingId
    · subst hlisting
      exact ⟨d + 1, hasDrift_of_not_counted listed input hd hcounted⟩
    · have heffect := effect_execute column listed (requests i) input world.db (world.processes i)
      exact ⟨d, hasDrift_of_other heffect hd hlisting⟩

/-- No drift after a statement: there was none, and the statement has added none. -/
theorem hasDrift_zero_next_iff (listed : String → Bool) (input : Unit)
    (h : ∀ listingId, ∃ d, HasDrift requests listingId d world) :
    (∀ listingId, HasDrift requests listingId 0 (next column listed requests world ⟨i, input⟩)) ↔
      (∀ listingId, HasDrift requests listingId 0 world) ∧
        Counted (requests i) world.db (world.processes i) := by
  by_cases hcounted : Counted (requests i) world.db (world.processes i)
  · simp only [hcounted, and_true]
    constructor
    · intro hnext listingId
      obtain ⟨d, hd⟩ := h listingId
      -- a counted statement keeps the drift that there was
      have hzero : d = 0 := (hd.kept listed input hcounted).unique (hnext listingId)
      rwa [hzero] at hd
    · exact fun hzero listingId => (hzero listingId).kept listed input hcounted
  · simp only [hcounted, and_false, iff_false]
    intro hnext
    obtain ⟨d, hd⟩ := h (requests i).listingId
    have hone : HasDrift requests (requests i).listingId (d + 1)
        (next column listed requests world ⟨i, input⟩) :=
      hasDrift_of_not_counted listed input hd hcounted
    -- the drift has grown, and there is only one
    cases hone.unique (hnext _)

omit [DecidableEq ι] in
theorem scores_insert_ne_nil (ratings : Table String Rating) (userId : String) (rating : Rating) :
    scores (ratings.insert userId rating) ≠ [] := by
  rw [scores, AList.entries_insert]
  exact List.cons_ne_nil _ _

omit [DecidableEq ι] in
/-- A rating is never taken back. -/
theorem Effect.scores_ne_nil {request : Request} {before after : Db} {phase phase' : Phase}
    (h : Effect column request before phase after phase')
    (hscores : scores (before.ratings listingId) ≠ []) :
    scores (after.ratings listingId) ≠ [] := by
  cases h with
  | @upserts userId rating hphase =>
    by_cases hlisting : listingId = request.listingId
    · rw [hlisting, ratings_upsertRating]
      exact scores_insert_ne_nil _ userId rating
    · rwa [ratings_upsertRating_of_ne _ _ _ hlisting]
  | _ => exact hscores

omit [DecidableEq ι] in
theorem Effect.averages {request : Request} {before after : Db} {phase phase' : Phase}
    (h : Effect column request before phase after phase')
    (haverages : Averages request before phase) : Averages request after phase' := by
  intro hphase'
  cases h with
  | stays => exact haverages hphase'
  | moves hbefore hafter => simp [hphase', Phase.counting] at hafter
  | @upserts userId rating hphase =>
    rw [ratings_upsertRating]
    exact scores_insert_ne_nil _ userId rating
  | _ => cases hphase'

theorem averages_next (listed : String → Bool) (input : Unit)
    (h : ∀ j, Averages (requests j) world.db (world.processes j)) (j : ι) :
    Averages (requests j) (next column listed requests world ⟨i, input⟩).db
      ((next column listed requests world ⟨i, input⟩).processes j) := by
  have heffect := effect_execute column listed (requests i) input world.db (world.processes i)
  apply forall_processes_step (K := fun j => Averages (requests j)) _ h i input
  · exact heffect.averages (h i)
  · exact fun j _ haverages hphase => heffect.scores_ne_nil (haverages hphase)

theorem Rated.of_unrelated (h : Rated column requests listingId world)
    (havg : (db.counters listingId).avgRating = (world.db.counters listingId).avgRating)
    (hcount : (db.counters listingId).ratingCount = (world.db.counters listingId).ratingCount)
    (hratings : db.ratings listingId = world.db.ratings listingId)
    (hphase : Rates listingId (requests i) (world.processes i) →
      Rates listingId (requests i) phase) :
    Rated column requests listingId ⟨db, Function.update world.processes i phase⟩ := by
  rcases h with ⟨j, hrates⟩ | hall
  · refine .inl ⟨j, ?_⟩
    by_cases hji : j = i
    · subst hji
      simpa using hphase hrates
    · simpa [hji] using hrates
  · refine .inr ?_
    rwa [havg, hcount, hratings]

theorem rated_of_effect (heffect : Effect column (requests i) world.db (world.processes i) db phase)
    (haverages : Averages (requests i) world.db (world.processes i))
    (h : Rated column requests (requests i).listingId world) :
    Rated column requests (requests i).listingId ⟨db, Function.update world.processes i phase⟩ := by
  -- a statement before the average has none to lose
  have hlost {earlier : Phase} (hphase : world.processes i = earlier) (hne : earlier ≠ .aggregate) :
      Rates (requests i).listingId (requests i) (world.processes i) →
        Rates (requests i).listingId (requests i) phase :=
    fun hrates => absurd (hphase.symm.trans hrates.2) hne
  cases heffect with
  | stays => exact h.of_unrelated rfl rfl rfl id
  | moves hbefore hafter =>
    apply h.of_unrelated rfl rfl rfl
    apply hlost rfl
    intro haggregate
    simp [haggregate, Phase.counting] at hbefore
  | inserts hphase hnew => exact h.of_unrelated rfl rfl rfl (hlost hphase nofun)
  | increments hphase response =>
    apply h.of_unrelated
    · simp [setCounters, increment]
    · simp [setCounters, increment]
    · rfl
    · exact hlost hphase nofun
  | deletes hphase hold => exact h.of_unrelated rfl rfl rfl (hlost hphase nofun)
  | decrements hphase hrequest response =>
    apply h.of_unrelated
    · simp [setCounters, decrement]
    · simp [setCounters, decrement]
    · rfl
    · exact hlost hphase nofun
  -- until its average is computed, the rating stands open
  | upserts hphase =>
    refine .inl ⟨i, rfl, ?_⟩
    exact Function.update_self ..
  | refuses hphase hnone response => exact absurd hnone (haverages hphase)
  | aggregates hphase hsome response =>
    refine .inr ?_
    simp [setCounters, aggregate, storedMean, hsome]

theorem rated_next (listed : String → Bool) (input : Unit)
    (haverages : ∀ j, Averages (requests j) world.db (world.processes j))
    (h : Rated column requests listingId world) :
    Rated column requests listingId (next column listed requests world ⟨i, input⟩) := by
  have heffect := effect_execute column listed (requests i) input world.db (world.processes i)
  by_cases hlisting : (requests i).listingId = listingId
  · subst hlisting
    exact rated_of_effect heffect (haverages i) h
  · obtain ⟨hcounters, -, hratings⟩ := heffect.frame hlisting
    apply h.of_unrelated
    · exact congrArg Counters.avgRating hcounters
    · exact congrArg Counters.ratingCount hcounters
    · exact hratings
    · exact fun hrates => absurd hrates.1 hlisting

end

section
variable {ι : Type*} [DecidableEq ι] {column : ℚ → ℚ} {requests : ι → Request}
  {world : World ι Db Phase}

omit [DecidableEq ι] in
theorem hasDrift_zero_iff (hquiescent : Quiescent world) (listingId : String) :
    HasDrift requests listingId 0 world ↔
      (world.db.counters listingId).subscribersCount =
        (world.db.subscriptions listingId).card := by
  -- no request has a row still to count, or one to take back
  have hadds : ∀ i, ¬ Adds listingId (requests i) (world.processes i) := by
    intro i hadds
    have hidle := hquiescent i
    rw [hadds.2] at hidle
    cases hidle
  have hremoves : ∀ i, ¬ Removes listingId (requests i) (world.processes i) := by
    intro i hremoves
    have hidle := hquiescent i
    rw [hremoves.2] at hidle
    cases hidle
  have hclaimed : claimed requests listingId world =
      (world.db.counters listingId).subscribersCount := by
    rw [claimed, booked, tally_eq_zero hadds, add_zero]
  have howed : owed requests listingId world = (world.db.subscriptions listingId).card := by
    rw [owed, booked, tally_eq_zero hremoves, add_zero]
  constructor
  · intro h
    have hclaims := h.claims
    rw [hclaimed, howed] at hclaims
    exact_mod_cast hclaims
  · intro h
    constructor
    · simp [howed]
    · simp [hclaimed, howed, h]

omit [DecidableEq ι] in
theorem rated_iff (hquiescent : Quiescent world) (listingId : String) :
    Rated column requests listingId world ↔
      (world.db.counters listingId).avgRating =
          storedMean column (scores (world.db.ratings listingId)) ∧
        (world.db.counters listingId).ratingCount =
          (scores (world.db.ratings listingId)).length := by
  apply or_iff_right
  -- an average still to be computed is a request in progress
  rintro ⟨i, hrates⟩
  have hidle := hquiescent i
  rw [hrates.2] at hidle
  cases hidle

/-- What every statement keeps. -/
structure Inv (column : ℚ → ℚ) (requests : ι → Request) (world : World ι Db Phase) : Prop where
  drifts : ∀ listingId, ∃ d, HasDrift requests listingId d world
  averages : ∀ i, Averages (requests i) world.db (world.processes i)
  rated : ∀ listingId, Rated column requests listingId world

theorem inv_next {i : ι} (listed : String → Bool) (input : Unit) (h : Inv column requests world) :
    Inv column requests (next column listed requests world ⟨i, input⟩) where
  drifts := exists_hasDrift_next listed input h.drifts
  averages := averages_next listed input h.averages
  rated := fun listingId => rated_next listed input h.averages (h.rated listingId)

omit [DecidableEq ι] in
theorem quiescent_start (db : Db) : Quiescent (start ι db) := fun _ => rfl

omit [DecidableEq ι] in
theorem inv_start {db : Db} (h : ∀ listingId, Agrees column db listingId) :
    Inv column requests (start ι db) where
  drifts := fun listingId =>
    ⟨0, (hasDrift_zero_iff (quiescent_start db) listingId).mpr (h listingId).subscribers⟩
  averages := nofun
  rated := fun listingId =>
    (rated_iff (quiescent_start db) listingId).mpr ⟨(h listingId).average, (h listingId).count⟩

omit [DecidableEq ι] in
theorem agrees_iff (h : Inv column requests world) (hquiescent : Quiescent world) :
    (∀ listingId, Agrees column world.db listingId) ↔
      ∀ listingId, HasDrift requests listingId 0 world := by
  constructor
  · exact fun hagrees listingId =>
      (hasDrift_zero_iff hquiescent listingId).mpr (hagrees listingId).subscribers
  · intro hdrift listingId
    have hrated := (rated_iff hquiescent listingId).mp (h.rated listingId)
    exact ⟨(hasDrift_zero_iff hquiescent listingId).mp (hdrift listingId), hrated.1, hrated.2⟩

/-- Where the counters agree at the start, they agree again whenever no request is in
progress exactly as long as every decrement has found something to take away. -/
theorem agrees_iff_counted (listed : String → Bool) (db : Db)
    (hstart : ∀ listingId, Agrees column db listingId) (turns : List (Turn ι Unit))
    (hquiescent : Quiescent (turns.foldl (next column listed requests) (start ι db))) :
    (∀ listingId, Agrees column
        (turns.foldl (next column listed requests) (start ι db)).db listingId) ↔
      ∀ earlier turn, earlier ++ [turn] <+: turns →
        Counted (requests turn.process)
          (earlier.foldl (next column listed requests) (start ι db)).db
          ((earlier.foldl (next column listed requests) (start ι db)).processes turn.process) := by
  have hinv : Inv column requests (start ι db) := inv_start hstart
  have hend : Inv column requests (turns.foldl (next column listed requests) (start ι db)) := by
    apply List.foldlRecOn
    · exact hinv
    · exact fun world hworld turn _ => inv_next listed turn.input hworld
  rw [agrees_iff hend hquiescent]
  apply foldl_iff_forall_step (next column listed requests) (I := Inv column requests)
    (P := fun world => ∀ listingId, HasDrift requests listingId 0 world)
    (C := fun world turn => Counted (requests turn.process) world.db (world.processes turn.process))
  · exact fun world turn hworld => inv_next listed turn.input hworld
  · exact fun world turn hworld => hasDrift_zero_next_iff listed turn.input hworld.drifts
  · exact hinv
  · exact (agrees_iff hinv (quiescent_start db)).mp hstart

end

/-- Listings with their columns' defaults. -/
def newListings : Db := ⟨fun _ => ⟨0, 0, 0⟩, fun _ => ∅, fun _ => ∅⟩

theorem agrees_newListings (column : ℚ → ℚ) (listingId : String) :
    Agrees column newListings listingId :=
  ⟨rfl, rfl, rfl⟩

def subscribeAndRate : Fin 2 → Request :=
  ![.subscribe "momentum" "alice", .rate "momentum" "alice" 4 none]

def ratedWorld : World (Fin 2) Db Phase :=
  ([0, 1, 0, 1, 1, 0].map fun i => Turn.mk i ()).foldl
    (next id (fun _ => true) subscribeAndRate) (start (Fin 2) newListings)

theorem quiescent_ratedWorld : Quiescent ratedWorld := by
  unfold Quiescent
  decide

theorem agrees_ratedWorld : Agrees id ratedWorld.db "momentum" := by
  apply (agrees_iff_counted _ newListings (agrees_newListings id) _ quiescent_ratedWorld).mpr
  intro earlier turn hearlier listingId userId hrequest
  -- neither of the two is a request to unsubscribe
  have hnone : ∀ i, subscribeAndRate i ≠ .unsubscribe listingId userId := by
    simp [Fin.forall_fin_two, subscribeAndRate]
  exact absurd hrequest (hnone turn.process)

def subscribeAndUnsubscribe : Fin 2 → Request :=
  ![.subscribe "momentum" "alice", .unsubscribe "momentum" "alice"]

/-- The row is written and deleted, then the counter is decremented and incremented. -/
def crossedWorld : World (Fin 2) Db Phase :=
  ([0, 0, 1, 1, 0].map fun i => Turn.mk i ()).foldl
    (next id (fun _ => true) subscribeAndUnsubscribe) (start (Fin 2) newListings)

theorem crossedWorld_not_agrees :
    Quiescent crossedWorld ∧ ¬ ∀ listingId, Agrees id crossedWorld.db listingId := by
  constructor
  · unfold Quiescent
    decide
  · intro h
    have hsubscribers := (h "momentum").subscribers
    revert hsubscribers
    decide

end TradeStream.MarketplaceCounters
