import TradeStream.PortfolioBalance

/-! Concurrent requests of `PaperTradingEngine.execute_paper_trade` on one session. A
request reads the balance and checks it, and later runs its trade as a transaction of its
own; the steps of different requests come in any order. -/
namespace TradeStream.PaperTrading
open TradeStream.Fallible TradeStream.RoundDecimal TradeStream.RunSteps

structure TradeRequest where
  signalId : Option String
  symbol : String
  side : Side
  quantity : ℚ

inductive EngineError where
  | sessionNotFound
  | sessionStopped
  | noPrice
  | insufficientBalance
  | store (e : StoreError)
  deriving DecidableEq, Repr

/-- `execute_paper_trade` up to the trade: the price, and the balance that was read. -/
def checkRequest (store : Store) (sessionId : String) (request : TradeRequest)
    (currentPrice : Option ℚ) : Except EngineError (ℚ × ℚ) :=
  match store.sessions sessionId with
  | none => .error .sessionNotFound
  | some session =>
    if session.status ≠ .active then .error .sessionStopped
    else
      match currentPrice with
      | none => .error .noPrice
      | some price =>
        let cost := price * request.quantity
        if request.side = .buy ∧ session.currentBalance < cost then
          .error .insufficientBalance
        else .ok (price, session.currentBalance)

/-- The rest of `execute_paper_trade`. -/
def runTrade (store : Store) (sessionId : String) (request : TradeRequest) (price : ℚ) :
    Except EngineError Store :=
  match store.executeSessionTrade sessionId request.signalId request.symbol request.side price
      request.quantity with
  | .ok store' => .ok store'
  | .error e => .error (.store e)

/-! ### Interleavings -/

/-- How far a request is. -/
inductive Phase where
  | waiting
  | checked (price balance : ℚ)
  | traded
  | failed (e : EngineError)

inductive Event (ι : Type*) where
  | read (i : ι) (currentPrice : Option ℚ)
  | trade (i : ι)

section
variable {ι : Type*} [DecidableEq ι]

/-- The database, the requests, and what other requests took from the balance since a
request read it. -/
structure World (ι : Type*) where
  store : Store
  phases : ι → Phase
  taken : ι → ℚ

def balanceOf (store : Store) (sessionId : String) : ℚ :=
  ((store.sessions sessionId).map Session.currentBalance).getD 0

def World.init (store : Store) : World ι := ⟨store, fun _ => .waiting, fun _ => 0⟩

variable (sessionId : String) (requests : ι → TradeRequest)

def World.step (w : World ι) : Event ι → World ι
  | .read i currentPrice =>
    match w.phases i with
    | .waiting =>
      match checkRequest w.store sessionId (requests i) currentPrice with
      | .ok (price, balance) => { w with
          phases := Function.update w.phases i (.checked price balance)
          taken := Function.update w.taken i 0 }
      | .error e => { w with phases := Function.update w.phases i (.failed e) }
    | _ => w
  | .trade i =>
    match w.phases i with
    | .checked price _ =>
      match runTrade w.store sessionId (requests i) price with
      | .ok store' =>
        { store := store'
          phases := Function.update w.phases i .traded
          taken := fun j =>
            w.taken j + (balanceOf w.store sessionId - balanceOf store' sessionId) }
      | .error e => { w with phases := Function.update w.phases i (.failed e) }
    | _ => w

/-- After the events, each request's steps in the order of `execute_paper_trade`: an event
that is not its request's next step does nothing. -/
def World.after (store : Store) (events : List (Event ι)) : World ι :=
  events.foldl (World.step sessionId requests) (.init store)

/-- What the trade takes from the balance. -/
def debit (request : TradeRequest) (price : ℚ) : ℚ :=
  signed request.side (price * request.quantity)

/-- What the other requests left of the balance that was read covers the trade, up to
half of the last decimal. -/
def Covered (w : World ι) : Event ι → Prop
  | .read _ _ => True
  | .trade i => ∀ price balance, w.phases i = .checked price balance →
      w.store.Accepts (some sessionId) (requests i).signalId →
        debit (requests i) price < balance - w.taken i + 1 / 2 / 10 ^ 8

/-- The session exists, and a request that has read the balance can tell it from what was
taken since. -/
structure Tracks (w : World ι) : Prop where
  session : w.store.sessions sessionId ≠ none
  balance : ∀ i price balance, w.phases i = .checked price balance →
    balanceOf w.store sessionId = balance - w.taken i
  affordable : ∀ i price balance, w.phases i = .checked price balance →
    (requests i).side = .buy → debit (requests i) price ≤ balance

variable {sessionId requests}

theorem checkRequest_eq_ok {store : Store} {request : TradeRequest} {currentPrice : Option ℚ}
    {price balance : ℚ}
    (h : checkRequest store sessionId request currentPrice = .ok (price, balance)) :
    balance = balanceOf store sessionId ∧
      (request.side = .buy → debit request price ≤ balance) := by
  unfold checkRequest at h
  split at h
  next => cases h
  next session hsession =>
    split_ifs at h
    split at h
    next => cases h
    next price' =>
      dsimp only at h
      split_ifs at h with hpoor
      obtain ⟨rfl, rfl⟩ := Prod.mk.inj (Except.ok.inj h)
      refine ⟨by rw [balanceOf, hsession]; rfl, ?_⟩
      intro hbuy
      rw [debit, hbuy]
      exact not_lt.mp fun hlt => hpoor ⟨hbuy, hlt⟩

theorem runTrade_of_accepts {store : Store} {request : TradeRequest} {price : ℚ}
    (hsession : store.sessions sessionId ≠ none)
    (h : store.Accepts (some sessionId) request.signalId) :
    ∃ store', runTrade store sessionId request price = .ok store' ∧
      store'.sessions sessionId ≠ none ∧
      balanceOf store' sessionId =
        numeric (balanceOf store sessionId - debit request price) := by
  obtain ⟨store', hinsert, -, hsessions, -⟩ :=
    @Store.insertTrade_of_accepts store (some sessionId) request.signalId request.symbol
      request.side price request.quantity h
  obtain ⟨session, hsession⟩ := Option.ne_none_iff_exists'.mp hsession
  simp only [runTrade, Store.executeSessionTrade, hinsert, bind, Except.bind, pure,
    Except.pure]
  refine ⟨_, rfl, ?_, ?_⟩
  · simp [Store.updatePortfolio, hsessions, hsession]
  · simp only [Store.updatePortfolio, balanceOf, hsessions, hsession, Function.update_self,
      Option.map_some, Option.getD_some, debit]
    cases request.side with
    | buy => rfl
    | sell => simp [Session.afterTrade, signed]

theorem runTrade_of_not_accepts {store : Store} {request : TradeRequest} {price : ℚ}
    (h : ¬ store.Accepts (some sessionId) request.signalId) :
    ∃ e, runTrade store sessionId request price = .error e := by
  obtain ⟨e, hinsert⟩ :=
    @Store.insertTrade_of_not_accepts store (some sessionId) request.signalId request.symbol
      request.side price request.quantity h
  simp only [runTrade, Store.executeSessionTrade, hinsert, bind, Except.bind]
  exact ⟨_, rfl⟩

/-- An event leaves the database alone, or is a trade of a request that has read. -/
theorem store_step {w : World ι} (h : Tracks sessionId requests w) (e : Event ι) :
    ((w.step sessionId requests e).store = w.store ∧ Covered sessionId requests w e) ∨
      ∃ i price balance, e = .trade i ∧ w.phases i = .checked price balance ∧
        w.store.Accepts (some sessionId) (requests i).signalId ∧
        (w.step sessionId requests e).store.sessions sessionId ≠ none ∧
        balanceOf (w.step sessionId requests e).store sessionId =
          numeric (balanceOf w.store sessionId - debit (requests i) price) := by
  cases e with
  | read i currentPrice =>
    refine .inl ⟨?_, trivial⟩
    simp only [World.step]
    split
    · split <;> rfl
    · rfl
  | trade i =>
    cases hphase : w.phases i with
    | checked price balance =>
      -- a transaction that a foreign key rejects is rolled back, and is no debit
      by_cases haccepts : w.store.Accepts (some sessionId) (requests i).signalId
      · obtain ⟨store', hrun, hsession, hbalance⟩ :=
          @runTrade_of_accepts sessionId w.store (requests i) price h.session haccepts
        refine .inr ⟨i, price, balance, rfl, hphase, haccepts, ?_⟩
        simp only [World.step, hphase, hrun]
        exact ⟨hsession, hbalance⟩
      · obtain ⟨e, hrun⟩ := @runTrade_of_not_accepts sessionId w.store (requests i) price haccepts
        left
        constructor
        · simp only [World.step, hphase, hrun]
        · intro _ _ _ haccepts'
          exact absurd haccepts' haccepts
    | _ =>
      left
      constructor
      · simp only [World.step, hphase]
      · intro price balance hphase'
        rw [hphase] at hphase'
        cases hphase'

omit [DecidableEq ι] in
/-- A trade is covered exactly if it leaves no less than nothing. -/
theorem covered_iff {w : World ι} (h : Tracks sessionId requests w) {i : ι}
    {price balance : ℚ} (hphase : w.phases i = .checked price balance)
    (haccepts : w.store.Accepts (some sessionId) (requests i).signalId) :
    Covered sessionId requests w (.trade i) ↔
      0 ≤ numeric (balanceOf w.store sessionId - debit (requests i) price) := by
  have hlt : Covered sessionId requests w (.trade i) ↔
      debit (requests i) price < balance - w.taken i + 1 / 2 / 10 ^ 8 := by
    constructor
    · intro hcovered
      exact hcovered price balance hphase haccepts
    -- a request has read one price and one balance
    · intro hlt price' balance' hphase' _
      obtain ⟨rfl, rfl⟩ := Phase.checked.inj (hphase.symm.trans hphase')
      exact hlt
  rw [hlt, numeric, storeTo_nonneg_iff, h.balance i price balance hphase, neg_div]
  constructor
  · intro hlt
    linarith
  · intro hlt
    linarith

theorem balance_step_iff {w : World ι} (h : Tracks sessionId requests w)
    (hbalance : 0 ≤ balanceOf w.store sessionId) (e : Event ι) :
    0 ≤ balanceOf (w.step sessionId requests e).store sessionId ↔
      Covered sessionId requests w e := by
  rcases store_step h e with ⟨hsame, hcovered⟩ |
    ⟨i, price, balance, rfl, hphase, haccepts, -, hafter⟩
  · rw [hsame]
    exact iff_of_true hbalance hcovered
  · rw [hafter]
    exact (covered_iff h hphase haccepts).symm

/-! ### The invariant -/

theorem checked_of_update {phases : ι → Phase} {i j : ι} {phase : Phase} {price balance : ℚ}
    (hphase : ∀ price balance, phase ≠ .checked price balance)
    (h : Function.update phases i phase j = .checked price balance) :
    phases j = .checked price balance := by
  by_cases hj : j = i
  · subst hj
    rw [Function.update_self] at h
    exact absurd h (hphase price balance)
  · rwa [Function.update_of_ne hj] at h

/-- A request that ends tracks nothing more. -/
theorem Tracks.finish {w : World ι} (h : Tracks sessionId requests w) (i : ι) {phase : Phase}
    (hphase : ∀ price balance, phase ≠ .checked price balance) :
    Tracks sessionId requests { w with phases := Function.update w.phases i phase } := by
  refine ⟨h.session, ?_, ?_⟩
  · intro j price balance hj
    exact h.balance j price balance (checked_of_update hphase hj)
  · intro j price balance hj
    exact h.affordable j price balance (checked_of_update hphase hj)

/-- A request that reads starts with nothing taken. -/
theorem Tracks.read {w : World ι} (h : Tracks sessionId requests w) (i : ι)
    (currentPrice : Option ℚ) :
    Tracks sessionId requests (w.step sessionId requests (.read i currentPrice)) := by
  simp only [World.step]
  split
  next =>
    split
    next price balance hcheck =>
      -- what the request has read is the balance of now
      obtain ⟨hbalance, haffordable⟩ := checkRequest_eq_ok hcheck
      refine ⟨h.session, ?_, ?_⟩
      · intro j price' balance' hphase
        by_cases hj : j = i
        · subst hj
          simp only [Function.update_self, Phase.checked.injEq] at hphase
          simp only [Function.update_self, ← hphase.2, hbalance, sub_zero]
        · simp only [Function.update_of_ne hj] at hphase ⊢
          exact h.balance j price' balance' hphase
      · intro j price' balance' hphase
        by_cases hj : j = i
        · subst hj
          simp only [Function.update_self, Phase.checked.injEq] at hphase
          obtain ⟨rfl, rfl⟩ := hphase
          exact haffordable
        · simp only [Function.update_of_ne hj] at hphase
          exact h.affordable j price' balance' hphase
    next => exact h.finish i (by simp)
  next => exact h

/-- What a trade takes counts for every request that has read. -/
theorem Tracks.trade {w : World ι} (h : Tracks sessionId requests w) (i : ι) :
    Tracks sessionId requests (w.step sessionId requests (.trade i)) := by
  simp only [World.step]
  split
  next price _ _ =>
    by_cases haccepts : w.store.Accepts (some sessionId) (requests i).signalId
    · obtain ⟨store', hrun, hsession, -⟩ :=
        @runTrade_of_accepts sessionId w.store (requests i) price h.session haccepts
      simp only [hrun]
      have hended := @Tracks.finish ι _ sessionId requests w h i .traded (by simp)
      -- the balance and what was taken since the read change by the same amount
      refine ⟨hsession, ?_, hended.affordable⟩
      intro j price' balance' hphase
      have hbalance := hended.balance j price' balance' hphase
      dsimp only at hbalance
      linarith
    · obtain ⟨e, hrun⟩ := @runTrade_of_not_accepts sessionId w.store (requests i) price haccepts
      simp only [hrun]
      exact h.finish i (by simp)
  next => exact h

theorem Tracks.step {w : World ι} (h : Tracks sessionId requests w) (e : Event ι) :
    Tracks sessionId requests (w.step sessionId requests e) := by
  cases e with
  | read i currentPrice => exact h.read i currentPrice
  | trade i => exact h.trade i

omit [DecidableEq ι] in
theorem tracks_init {store : Store} (hsession : store.sessions sessionId ≠ none) :
    Tracks sessionId requests (.init store : World ι) :=
  ⟨hsession, fun _ _ _ h => (nomatch h), fun _ _ _ h => (nomatch h)⟩

theorem tracks_after {store : Store} (hsession : store.sessions sessionId ≠ none)
    (events : List (Event ι)) :
    Tracks sessionId requests (.after sessionId requests store events) := by
  induction events using List.reverseRecOn with
  | nil => exact tracks_init hsession
  | append_singleton earlier e ih =>
    rw [World.after, List.foldl_append]
    exact ih.step e

omit [DecidableEq ι] in
/-- A checked BUY is covered if nothing was taken since its balance was read. -/
theorem covered_of_taken_nonpos {w : World ι} (h : Tracks sessionId requests w) {i : ι}
    (hbuy : (requests i).side = .buy) (htaken : w.taken i ≤ 0) :
    Covered sessionId requests w (.trade i) := by
  intro price balance hphase _
  have haffordable := h.affordable i price balance hphase hbuy
  have hhalf : (0 : ℚ) < 1 / 2 / 10 ^ 8 := by norm_num
  linarith

end

/-! ### Runs -/

/-- The balance is negative in no state reached, exactly if it is not at the start and each
trade is covered. A BUY is covered if nothing was taken between its two steps. -/
theorem balance_nonneg_iff {ι : Type*} [DecidableEq ι] {store : Store} {sessionId : String}
    (requests : ι → TradeRequest) (hsession : store.sessions sessionId ≠ none)
    (events : List (Event ι)) :
    ((∀ reached, reached <+: events →
          0 ≤ balanceOf (World.after sessionId requests store reached).store sessionId) ↔
        0 ≤ balanceOf store sessionId ∧ ∀ earlier e, earlier ++ [e] <+: events →
          Covered sessionId requests (.after sessionId requests store earlier) e) ∧
      ∀ earlier i, (requests i).side = .buy →
        (World.after sessionId requests store earlier).taken i ≤ 0 →
          Covered sessionId requests (.after sessionId requests store earlier) (.trade i) := by
  have htracks : Tracks sessionId requests (.init store : World ι) := tracks_init hsession
  constructor
  · -- the rule for runs, which asks for a balance that is right at the start
    have hrun (hbalance : 0 ≤ balanceOf store sessionId) :
        (∀ reached, reached <+: events →
            0 ≤ balanceOf (World.after sessionId requests store reached).store sessionId) ↔
          ∀ earlier e, earlier ++ [e] <+: events →
            Covered sessionId requests (.after sessionId requests store earlier) e :=
      @forall_reached_iff_forall_step _ _ (World.step sessionId requests)
        (Tracks sessionId requests) (fun w => 0 ≤ balanceOf w.store sessionId) _
        (fun _ e h => h.step e) (fun _ e h hb => balance_step_iff h hb e) _ htracks hbalance
        events
    constructor
    · intro h
      have hbalance : 0 ≤ balanceOf store sessionId := h [] (List.nil_prefix)
      exact ⟨hbalance, (hrun hbalance).mp h⟩
    · rintro ⟨hbalance, hcovered⟩
      exact (hrun hbalance).mpr hcovered
  · intro earlier i hbuy htaken
    exact covered_of_taken_nonpos (tracks_after hsession earlier) hbuy htaken

/-! Two BUYs that cost 60 each, of a session with 100. -/

def sixty : TradeRequest := ⟨none, "BTC/USD", .buy, 3 / 5⟩

def hundred : Store :=
  .empty (fun _ => true) fun _ => some ⟨100, 100, .active, 0⟩

/-- One after the other: the second is refused. -/
theorem twoBuys_covered :
    Covered "session" (fun _ : ℕ => sixty)
      (.after "session" (fun _ => sixty) hundred [.read 0 (some 100), .trade 0,
        .read 1 (some 100)]) (.trade 1) := by
  have hnonneg : ∀ reached ∈ List.inits
      [Event.read 0 (some 100), .trade 0, .read 1 (some 100), .trade 1],
      0 ≤ balanceOf
        (World.after "session" (fun _ : ℕ => sixty) hundred reached).store "session" := by
    decide +kernel
  have hsession : hundred.sessions "session" ≠ none := by simp [hundred, Store.empty]
  refine ((balance_nonneg_iff (fun _ : ℕ => sixty) hsession
    [.read 0 (some 100), .trade 0, .read 1 (some 100), .trade 1]).1.mp ?_).2 _ _ List.prefix_rfl
  intro reached hreached
  exact hnonneg reached ((List.mem_inits _ _).mpr hreached)

/-- Both balances are read before either trade. -/
theorem twoBuys_interleaved :
    ¬ ∀ reached,
      reached <+: [Event.read 0 (some 100), .read 1 (some 100), .trade 0, .trade 1] →
      0 ≤ balanceOf
        (World.after "session" (fun _ : ℕ => sixty) hundred reached).store "session" := by
  intro h
  have hbalance : balanceOf (World.after "session" (fun _ : ℕ => sixty) hundred
      [.read 0 (some 100), .read 1 (some 100), .trade 0, .trade 1]).store "session" = -20 := by
    decide +kernel
  have hnonneg := h _ (List.prefix_refl _)
  rw [hbalance] at hnonneg
  norm_num at hnonneg

end TradeStream.PaperTrading
