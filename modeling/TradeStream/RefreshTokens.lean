import TradeStream.Interleaving
import TradeStream.KeyedTable
import TradeStream.RunSteps

/-! Refreshes and logouts, a statement at a time: a refresh reads its token in one
statement, revokes it in a second and inserts its successor in a third. -/
namespace TradeStream.RefreshTokens
open TradeStream.KeyedTable TradeStream.Interleaving TradeStream.RunSteps

structure User where
  email : String
  isActive : Bool
  deriving DecidableEq

/-- A row of `refresh_tokens`. The table is keyed by `token_hash`, which stands for the
row's own id as well. -/
structure TokenRow where
  userId : String
  expiresAt : ℤ
  revoked : Bool
  deriving DecidableEq

structure TokenPair (T : Type*) where
  accessToken : String
  refreshToken : T
  tokenType : String
  deriving DecidableEq

inductive Request (T : Type*) where
  | refresh (token : T)
  | logout (token : T)
  deriving DecidableEq

/-- A refresh answers with a pair or with `None`, a logout whether it revoked a token. -/
inductive Answer (T : Type*) where
  | pair (tokens : TokenPair T)
  | refused
  | loggedOut (revoked : Bool)
  deriving DecidableEq

/-- The tokens that are stored, and the answers that have been given, in their order. -/
structure Db (T H : Type*) where
  tokens : Table H TokenRow
  answered : List (Request T × Answer T)

/-- The statement that a request executes next. -/
inductive Phase (T H : Type*) where
  | selectToken (token : T)
  | revoke (key : H) (userId email : String)
  | insertPair (userId email : String)
  | logout (token : T)
  | ended (answer : Answer T)
  | raised
  deriving DecidableEq

/-- What a statement finds: the time, and the token that would be made with it. -/
structure Input (T : Type*) where
  succeeds : Bool
  now : ℤ
  newToken : T

def Request.begin {T H : Type*} : Request T → Phase T H
  | .refresh token => .selectToken token
  | .logout token => .logout token

variable {T H : Type*} [DecidableEq H]

def revoke (tokens : Table H TokenRow) (key : H) : Table H TokenRow :=
  match tokens.lookup key with
  | none => tokens
  | some row => tokens.insert key { row with revoked := true }

omit [DecidableEq H] in
def Db.answer (db : Db T H) (request : Request T) (answer : Answer T) : Db T H × Phase T H :=
  ({ db with answered := db.answered ++ [(request, answer)] }, .ended answer)

/-- The parameters of the service: distinct tokens have distinct hashes. -/
structure AuthService (T H : Type*) where
  hash : T ↪ H
  users : Table String User
  createAccessToken : String → String → ℤ → String
  refreshTokenExpireDays : ℤ

section
variable (service : AuthService T H)

def microsecondsPerDay : ℤ := 86400000000

/-- The row of a token joined with its user, where it may be exchanged. -/
def validRow (db : Db T H) (token : T) (now : ℤ) : Option (TokenRow × User) :=
  match db.tokens.lookup (service.hash token) with
  | none => none
  | some row =>
    match service.users.lookup row.userId with
    | none => none
    | some user =>
      if row.revoked ∨ user.isActive = false then none
      else if row.expiresAt < now then none
      else some (row, user)

/-- A statement, and the code up to the next one. -/
def succeed (request : Request T) (input : Input T) (db : Db T H) (phase : Phase T H) :
    Db T H × Phase T H :=
  match phase with
  | .selectToken token =>
    match validRow service db token input.now with
    | none => db.answer request .refused
    | some (row, user) => (db, .revoke (service.hash token) row.userId user.email)
  -- whether the token is still unrevoked is not asked again
  | .revoke key userId email =>
    ({ db with tokens := revoke db.tokens key }, .insertPair userId email)
  | .insertPair userId email =>
    -- the hash of a token is unique
    if (db.tokens.lookup (service.hash input.newToken)).isSome then (db, .raised)
    else
      let row : TokenRow :=
        ⟨userId, input.now + service.refreshTokenExpireDays * microsecondsPerDay, false⟩
      { db with tokens := db.tokens.insert (service.hash input.newToken) row }.answer request
        (.pair ⟨service.createAccessToken userId email input.now, input.newToken, "bearer"⟩)
  | .logout token =>
    match db.tokens.lookup (service.hash token) with
    | none => db.answer request (.loggedOut false)
    | some row =>
      if row.revoked then db.answer request (.loggedOut false)
      else
        { db with tokens := revoke db.tokens (service.hash token) }.answer request (.loggedOut true)
  | phase => (db, phase)

/-- A statement that fails raises. -/
def fail (phase : Phase T H) : Phase T H :=
  match phase with
  | .ended answer => .ended answer
  | _ => .raised

def execute (request : Request T) (input : Input T) (db : Db T H) (phase : Phase T H) :
    Db T H × Phase T H :=
  if input.succeeds then
    succeed service request input db phase
  else (db, fail phase)

end

def Answer.isPair : Answer T → Bool
  | .pair _ => true
  | _ => false

/-- The request has exchanged the token for a new pair. -/
def Exchanged (token : T) (entry : Request T × Answer T) : Prop :=
  entry.1 = .refresh token ∧ entry.2.isPair = true

/-- After this answer the token is no longer good for an exchange. -/
def Spent (token : T) (entry : Request T × Answer T) : Prop :=
  Exchanged token entry ∨ entry = (.logout token, .loggedOut true)

/-- No token is exchanged again, nor after a logout that has found it. -/
def SingleUse (answered : List (Request T × Answer T)) : Prop :=
  answered.Pairwise fun earlier later => ∀ token, Spent token earlier → ¬ Exchanged token later

def Revoked (tokens : Table H TokenRow) (key : H) : Prop :=
  ∃ row, tokens.lookup key = some row ∧ row.revoked = true

/-- A refresh that revokes its token is the one that does. -/
def StillValid (input : Input T) (db : Db T H) (phase : Phase T H) : Prop :=
  ∀ key userId email, phase = .revoke key userId email → input.succeeds = true →
    ¬ Revoked db.tokens key

theorem revoked_revoke {tokens : Table H TokenRow} {key : H}
    (h : (tokens.lookup key).isSome = true) : Revoked (revoke tokens key) key := by
  obtain ⟨row, hrow⟩ := Option.isSome_iff_exists.mp h
  refine ⟨{ row with revoked := true }, ?_, rfl⟩
  simp [revoke, hrow]

theorem lookup_revoke_of_ne (tokens : Table H TokenRow) {key other : H} (h : other ≠ key) :
    (revoke tokens key).lookup other = tokens.lookup other := by
  unfold revoke
  split
  · rfl
  · exact AList.lookup_insert_ne h

theorem isSome_lookup_revoke (tokens : Table H TokenRow) (key other : H) :
    ((revoke tokens key).lookup other).isSome = (tokens.lookup other).isSome := by
  by_cases h : other = key
  · subst h
    unfold revoke
    split
    · rfl
    · next hrow => simp [hrow]
  · rw [lookup_revoke_of_ne tokens h]

theorem Revoked.revoke {tokens : Table H TokenRow} {key : H} (h : Revoked tokens key) (other : H) :
    Revoked (revoke tokens other) key := by
  by_cases hkey : key = other
  · subst hkey
    obtain ⟨row, hrow, -⟩ := h
    exact revoked_revoke (by rw [hrow]; rfl)
  · obtain ⟨row, hrow, hrevoked⟩ := h
    exact ⟨row, by rwa [lookup_revoke_of_ne tokens hkey], hrevoked⟩

theorem Revoked.insert {tokens : Table H TokenRow} {key new : H} (h : Revoked tokens key)
    (hnew : tokens.lookup new = none) (row : TokenRow) : Revoked (tokens.insert new row) key := by
  obtain ⟨old, hold, hrevoked⟩ := h
  -- a revoked row is there, and the new key has none
  have hne : key ≠ new := by
    rintro rfl
    rw [hnew] at hold
    cases hold
  exact ⟨old, by rwa [AList.lookup_insert_ne hne], hrevoked⟩

/-- What a statement of a request can do. -/
inductive Effect (hash : T ↪ H) (request : Request T) (db : Db T H) (phase : Phase T H) :
    Db T H → Phase T H → Prop
  | stays : Effect hash request db phase db phase
  | raises : Effect hash request db phase db .raised
  | reads {token : T} {userId email : String} (hphase : phase = .selectToken token)
      (hsome : (db.tokens.lookup (hash token)).isSome = true) :
      Effect hash request db phase db (.revoke (hash token) userId email)
  | answers (answer : Answer T) (hpair : answer.isPair = false)
      (hlogout : answer ≠ .loggedOut true) :
      Effect hash request db phase (db.answer request answer).1 (.ended answer)
  | revokes {key : H} {userId email : String} (hphase : phase = .revoke key userId email) :
      Effect hash request db phase { db with tokens := revoke db.tokens key }
        (.insertPair userId email)
  | inserts {userId email : String} (hphase : phase = .insertPair userId email) (newToken : T)
      (hnew : db.tokens.lookup (hash newToken) = none) (row : TokenRow) (pair : TokenPair T) :
      Effect hash request db phase
        ({ db with tokens := db.tokens.insert (hash newToken) row }.answer request (.pair pair)).1
        (.ended (.pair pair))
  | logsOut {token : T} (hphase : phase = .logout token)
      (hsome : (db.tokens.lookup (hash token)).isSome = true)
      (hvalid : ¬ Revoked db.tokens (hash token)) :
      Effect hash request db phase
        ({ db with tokens := revoke db.tokens (hash token) }.answer request (.loggedOut true)).1
        (.ended (.loggedOut true))

section
variable {service : AuthService T H}

theorem isSome_of_validRow {db : Db T H} {token : T} {now : ℤ} {found : TokenRow × User}
    (h : validRow service db token now = some found) :
    (db.tokens.lookup (service.hash token)).isSome = true := by
  unfold validRow at h
  split at h
  · cases h
  · next hrow => rw [hrow]; rfl

theorem effect_execute (request : Request T) (input : Input T) (db : Db T H) (phase : Phase T H) :
    Effect service.hash request db phase (execute service request input db phase).1
      (execute service request input db phase).2 := by
  unfold execute
  split_ifs with hsucceeds
  · cases phase with
    | selectToken token =>
      simp only [succeed]
      cases hvalid : validRow service db token input.now with
      | none => exact .answers .refused rfl (by simp)
      | some found => exact .reads rfl (isSome_of_validRow hvalid)
    | revoke key userId email => exact .revokes rfl
    | insertPair userId email =>
      simp only [succeed]
      split_ifs with hnew
      · exact .raises
      · exact .inserts rfl input.newToken (Option.not_isSome_iff_eq_none.mp hnew) _ _
    | logout token =>
      simp only [succeed]
      cases hrow : db.tokens.lookup (service.hash token) with
      | none => exact .answers (.loggedOut false) rfl (by simp)
      | some row =>
        simp only
        split_ifs with hrevoked
        · exact .answers (.loggedOut false) rfl (by simp)
        -- the update matches the row only while it is not revoked
        · refine .logsOut rfl (by rw [hrow]; rfl) ?_
          rintro ⟨row', hrow', hrevoked'⟩
          obtain rfl := Option.some.inj (hrow.symm.trans hrow')
          exact hrevoked hrevoked'
    | ended answer => exact .stays
    | raised => exact .stays
  · cases phase with
    | ended answer => exact .stays
    | _ => exact .raises

end

/-- What a request is at, and what it goes back to. -/
structure Kept (hash : T ↪ H) (request : Request T) (db : Db T H) (phase : Phase T H) : Prop where
  selects : ∀ token, phase = .selectToken token → request = .refresh token
  revokes : ∀ key userId email, phase = .revoke key userId email →
    ∃ token, request = .refresh token ∧ key = hash token ∧ (db.tokens.lookup key).isSome = true
  inserts : ∀ userId email, phase = .insertPair userId email → ∃ token, request = .refresh token
  logsOut : ∀ token, phase = .logout token → request = .logout token

/-- The refresh has revoked the token and has still to insert the pair. -/
def Holding (token : T) (request : Request T) (phase : Phase T H) : Prop :=
  request = .refresh token ∧ ∃ userId email, phase = .insertPair userId email

section
variable {hash : T ↪ H} {request : Request T} {db db' : Db T H} {phase phase' : Phase T H}

theorem Effect.revoked (h : Effect hash request db phase db' phase') {key : H}
    (hrevoked : Revoked db.tokens key) : Revoked db'.tokens key := by
  cases h with
  | stays | raises | reads | answers => exact hrevoked
  | revokes | logsOut => exact hrevoked.revoke _
  | inserts hphase newToken hnew row => exact hrevoked.insert hnew row

theorem Effect.isSome (h : Effect hash request db phase db' phase') {key : H}
    (hsome : (db.tokens.lookup key).isSome = true) : (db'.tokens.lookup key).isSome = true := by
  cases h with
  | stays | raises | reads | answers => exact hsome
  | revokes => rwa [isSome_lookup_revoke]
  | logsOut => rwa [Db.answer, isSome_lookup_revoke]
  | inserts hphase newToken hnew row =>
    by_cases hkey : key = hash newToken
    · subst hkey
      simp [Db.answer]
    · simpa [Db.answer, AList.lookup_insert_ne hkey] using hsome

theorem Kept.mono {request' : Request T} {phase' : Phase T H} (hkept : Kept hash request' db phase')
    (h : ∀ key, (db.tokens.lookup key).isSome = true → (db'.tokens.lookup key).isSome = true) :
    Kept hash request' db' phase' where
  selects := hkept.selects
  revokes key userId email hphase := by
    obtain ⟨token, hrequest, hkey, hsome⟩ := hkept.revokes key userId email hphase
    exact ⟨token, hrequest, hkey, h key hsome⟩
  inserts := hkept.inserts
  logsOut := hkept.logsOut

theorem Kept.effect (hkept : Kept hash request db phase)
    (h : Effect hash request db phase db' phase') : Kept hash request db' phase' := by
  cases h with
  | stays => exact hkept
  | raises => constructor <;> simp
  -- the read has found the row that it goes on to revoke
  | reads hphase hsome =>
    have hrequest := hkept.selects _ hphase
    constructor
    · simp
    · rintro key userId email ⟨⟩
      exact ⟨_, hrequest, rfl, hsome⟩
    · simp
    · simp
  | answers => constructor <;> simp
  | revokes hphase =>
    obtain ⟨token, hrequest, -⟩ := hkept.revokes _ _ _ hphase
    constructor
    · simp
    · simp
    · exact fun _ _ _ => ⟨token, hrequest⟩
    · simp
  | inserts => constructor <;> simp
  | logsOut => constructor <;> simp

theorem kept_begin (request : Request T) : Kept hash request db request.begin := by
  cases request <;> constructor <;> simp [Request.begin]

end

section
variable [DecidableEq T]

instance (token : T) (entry : Request T × Answer T) : Decidable (Exchanged token entry) :=
  inferInstanceAs (Decidable (_ ∧ _))

instance (token : T) (entry : Request T × Answer T) : Decidable (Spent token entry) :=
  inferInstanceAs (Decidable (_ ∨ _))

/-- How often the answers have spent the token. -/
def spentCount (token : T) (answered : List (Request T × Answer T)) : ℕ :=
  answered.countP fun entry => Spent token entry

theorem spentCount_append (token : T) (answered : List (Request T × Answer T))
    (entry : Request T × Answer T) :
    spentCount token (answered ++ [entry]) =
      spentCount token answered + if Spent token entry then 1 else 0 := by
  simp [spentCount]

theorem singleUse_of_spentCount {answered : List (Request T × Answer T)}
    (h : ∀ token, spentCount token answered ≤ 1) : SingleUse answered := by
  induction answered with
  | nil => exact List.Pairwise.nil
  | cons entry rest ih =>
    refine List.pairwise_cons.mpr ⟨?_, ih ?_⟩
    · intro later hlater token hspent hexchanged
      -- the two would be counted twice
      have hone := h token
      rw [spentCount, List.countP_cons_of_pos (by simpa using hspent)] at hone
      have hrest : rest.countP (fun entry => Spent token entry) = 0 := by omega
      rw [List.countP_eq_zero] at hrest
      have hlater' : Spent token later := .inl hexchanged
      exact hrest later hlater (by simpa using hlater')
    · intro token
      exact le_trans (by simp [spentCount, List.countP_cons]) (h token)

variable {ι : Type*} [DecidableEq ι] (hash : T ↪ H) (requests : ι → Request T)

omit [DecidableEq ι] [DecidableEq H] in
/-- The refreshes that hold the token, and the answers that have spent it. -/
noncomputable def uses (token : T) (answered : List (Request T × Answer T))
    (processes : ι → Phase T H) : ℕ∞ :=
  tally (fun i => Holding token (requests i)) processes + spentCount token answered

/-- As long as refreshes revoke valid tokens, a token has one use, and none before it is
revoked. -/
structure Inv (world : World ι (Db T H) (Phase T H)) : Prop where
  kept : ∀ i, Kept hash (requests i) world.db (world.processes i)
  uses_le : ∀ token, uses requests token world.db.answered world.processes ≤ 1
  unused : ∀ token, ¬ Revoked world.db.tokens (hash token) →
    uses requests token world.db.answered world.processes = 0

variable {hash requests} {processes : ι → Phase T H} {i : ι} {db db' : Db T H} {phase' : Phase T H}

omit [DecidableEq H] in
theorem uses_update_le {token : T}
    (hholding : Holding token (requests i) phase' → Holding token (requests i) (processes i)) :
    uses requests token db.answered (Function.update processes i phase') ≤
      uses requests token db.answered processes := by
  rw [uses, uses]
  gcongr
  exact tally_update_le (A := fun i => Holding token (requests i)) hholding

omit [DecidableEq H] in
theorem uses_update_le_add_one {token : T} :
    uses requests token db.answered (Function.update processes i phase') ≤
      uses requests token db.answered processes + 1 := by
  rw [uses, uses, add_right_comm]
  gcongr
  exact tally_update_le_add_one

omit [DecidableEq H] in
theorem uses_le_of_not_spent {token : T}
    (hholding : Holding token (requests i) phase' → Holding token (requests i) (processes i))
    {answer : Answer T} (hspent : ¬ Spent token (requests i, answer)) :
    uses requests token (db.answered ++ [(requests i, answer)])
        (Function.update processes i phase') ≤
      uses requests token db.answered processes := by
  rw [uses, uses, spentCount_append, if_neg hspent, add_zero]
  gcongr
  exact tally_update_le (A := fun i => Holding token (requests i)) hholding

omit [DecidableEq H] in
theorem uses_le_add_one_of_spent {token : T}
    (hholding : Holding token (requests i) phase' → Holding token (requests i) (processes i))
    {answer : Answer T} (hspent : Spent token (requests i, answer)) :
    uses requests token (db.answered ++ [(requests i, answer)])
        (Function.update processes i phase') ≤
      uses requests token db.answered processes + 1 := by
  rw [uses, uses, spentCount_append, if_pos hspent]
  push_cast
  rw [← add_assoc]
  gcongr
  exact tally_update_le (A := fun i => Holding token (requests i)) hholding

omit [DecidableEq H] in
/-- Who held the token and lets it go with the answer that spends it leaves its uses as they
were. -/
theorem uses_eq_of_spent {token : T} (hholding : Holding token (requests i) (processes i))
    (hreleased : ¬ Holding token (requests i) phase') {answer : Answer T}
    (hspent : Spent token (requests i, answer)) :
    uses requests token (db.answered ++ [(requests i, answer)])
        (Function.update processes i phase') =
      uses requests token db.answered processes := by
  have htally := tally_update_add_one (A := fun i => Holding token (requests i)) hholding hreleased
  rw [uses, uses, spentCount_append, if_pos hspent, ← htally]
  push_cast
  rw [add_assoc, add_comm 1]

omit [DecidableEq T] [DecidableEq H] [DecidableEq ι] in
theorem not_holding_ended {token : T} {answer : Answer T} :
    ¬ Holding token (requests i) (.ended answer : Phase T H) := by
  rintro ⟨-, userId, email, hphase⟩
  cases hphase

/-- A statement adds a use of the token only where it revokes it. -/
theorem Effect.uses_le_or (h : Effect hash (requests i) db (processes i) db' phase')
    (hkept : Kept hash (requests i) db (processes i))
    (hvalid : ∀ key userId email, processes i = .revoke key userId email →
      phase' = .insertPair userId email → ¬ Revoked db.tokens key) (token : T) :
    uses requests token db'.answered (Function.update processes i phase') ≤
        uses requests token db.answered processes ∨
      ¬ Revoked db.tokens (hash token) ∧ Revoked db'.tokens (hash token) ∧
        uses requests token db'.answered (Function.update processes i phase') ≤
          uses requests token db.answered processes + 1 := by
  cases h with
  | stays => exact .inl (uses_update_le id)
  | raises =>
    apply Or.inl
    apply uses_update_le
    rintro ⟨-, userId, email, hphase⟩
    cases hphase
  | reads =>
    apply Or.inl
    apply uses_update_le
    rintro ⟨-, userId, email, hphase⟩
    cases hphase
  | answers answer hpair hlogout =>
    apply Or.inl
    apply uses_le_of_not_spent
    · exact fun hholding => absurd hholding not_holding_ended
    -- an answer without a pair spends nothing
    · rintro (⟨-, hpair'⟩ | heq)
      · rw [hpair] at hpair'
        cases hpair'
      · exact hlogout (Prod.mk.inj heq).2
  | revokes hphase =>
    obtain ⟨own, hrequest, rfl, hsome⟩ := hkept.revokes _ _ _ hphase
    -- the token revoked gets its use; no refresh of another token holds this one
    by_cases htoken : own = token
    · subst htoken
      exact .inr ⟨hvalid _ _ _ hphase rfl, revoked_revoke hsome, uses_update_le_add_one⟩
    · apply Or.inl
      apply uses_update_le
      rintro ⟨hrequest', -⟩
      rw [hrequest] at hrequest'
      exact absurd (Request.refresh.inj hrequest') htoken
  | inserts hphase newToken hnew row pair =>
    apply Or.inl
    by_cases hrequest : requests i = .refresh token
    -- who held the token has spent it
    · exact (uses_eq_of_spent ⟨hrequest, _, _, hphase⟩ not_holding_ended (.inl ⟨hrequest, rfl⟩)).le
    · apply uses_le_of_not_spent
      · exact fun hholding => absurd hholding not_holding_ended
      · rintro (⟨hrequest', -⟩ | heq)
        · exact hrequest hrequest'
        · cases (Prod.mk.inj heq).2
  | @logsOut own hphase hsome hunrevoked =>
    have hrequest := hkept.logsOut _ hphase
    by_cases htoken : own = token
    · subst htoken
      have hspent : Spent own (requests i, .loggedOut true) := .inr (by rw [hrequest])
      refine .inr ⟨hunrevoked, revoked_revoke hsome, ?_⟩
      exact uses_le_add_one_of_spent (fun hholding => absurd hholding not_holding_ended) hspent
    · apply Or.inl
      apply uses_le_of_not_spent
      · exact fun hholding => absurd hholding not_holding_ended
      · rintro (⟨hrequest', -⟩ | heq)
        · rw [hrequest] at hrequest'
          cases hrequest'
        · rw [hrequest] at heq
          exact htoken (Request.logout.inj (Prod.mk.inj heq).1)

end

section
variable {ι : Type*} [DecidableEq ι] (service : AuthService T H) (requests : ι → Request T)

omit [DecidableEq H] [DecidableEq ι] in
/-- The tokens that there are, and requests that have all still to begin. -/
def start (tokens : Table H TokenRow) : World ι (Db T H) (Phase T H) :=
  ⟨⟨tokens, []⟩, fun i => (requests i).begin⟩

def next (world : World ι (Db T H) (Phase T H)) (turn : Turn ι (Input T)) :
    World ι (Db T H) (Phase T H) :=
  world.step (fun i => execute service (requests i)) turn

omit [DecidableEq ι] [DecidableEq H] in
theorem not_holding_begin (token : T) (i : ι) :
    ¬ Holding token (requests i) ((requests i).begin : Phase T H) := by
  rintro ⟨hrequest, userId, email, hphase⟩
  rw [hrequest] at hphase
  cases hphase

variable [DecidableEq T]

omit [DecidableEq ι] in
theorem inv_start (tokens : Table H TokenRow) :
    Inv service.hash requests (start requests tokens) := by
  have huses (token : T) : uses requests token (start requests tokens).db.answered
      (start requests tokens).processes = 0 := by
    have htally : tally (fun i => Holding token (requests i))
        (start requests tokens).processes = 0 :=
      tally_eq_zero fun i => not_holding_begin requests token i
    rw [uses, htally]
    rfl
  refine ⟨fun i => kept_begin (requests i), ?_, fun token _ => huses token⟩
  intro token
  rw [huses]
  exact zero_le_one

/-- No other request revokes the token between the read and the update of a refresh: then
the tokens keep in order. -/
theorem inv_next {world : World ι (Db T H) (Phase T H)} (h : Inv service.hash requests world)
    (turn : Turn ι (Input T))
    (hvalid : StillValid turn.input world.db (world.processes turn.process)) :
    Inv service.hash requests (next service requests world turn) := by
  obtain ⟨i, input⟩ := turn
  have heffect : Effect service.hash (requests i) world.db (world.processes i)
      (execute service (requests i) input world.db (world.processes i)).1
      (execute service (requests i) input world.db (world.processes i)).2 :=
    effect_execute (requests i) input world.db (world.processes i)
  have huses := heffect.uses_le_or (h.kept i) <| by
    intro key userId email hphase hinsert
    apply hvalid key userId email hphase
    -- a statement that fails does not come to the insert
    by_contra hfails
    simp [execute, hfails, hphase, fail] at hinsert
  refine ⟨?_, ?_, ?_⟩
  · apply forall_processes_step (fun i => execute service (requests i))
      (K := fun i db phase => Kept service.hash (requests i) db phase) h.kept
    · exact (h.kept i).effect heffect
    · exact fun j _ hj => hj.mono fun key hsome => heffect.isSome hsome
  · intro token
    -- a use comes in only where there was none
    obtain hle | ⟨hunrevoked, -, hle⟩ := huses token
    · exact hle.trans (h.uses_le token)
    · rw [h.unused token hunrevoked, zero_add] at hle
      exact hle
  · intro token hunrevoked
    have hbefore : ¬ Revoked world.db.tokens (service.hash token) :=
      fun hrevoked => hunrevoked (heffect.revoked hrevoked)
    -- a token that is still unrevoked has had no use, and gets none
    obtain hle | ⟨-, hrevoked, -⟩ := huses token
    · rw [h.unused token hbefore] at hle
      exact le_antisymm hle bot_le
    · exact absurd hrevoked hunrevoked

/-- Refresh tokens are single use in every state that an interleaving of refreshes and
logouts reaches, if every refresh finds its token still unrevoked when it revokes it. -/
theorem singleUse_of_stillValid (tokens : Table H TokenRow) (turns : List (Turn ι (Input T)))
    (hvalid : ∀ earlier turn, earlier ++ [turn] <+: turns →
      let world := earlier.foldl (next service requests) (start requests tokens)
      StillValid turn.input world.db (world.processes turn.process)) :
    ∀ reached, reached <+: turns →
      SingleUse (reached.foldl (next service requests) (start requests tokens)).db.answered := by
  intro reached hreached
  have hinv : Inv service.hash requests
      (reached.foldl (next service requests) (start requests tokens)) := by
    apply forall_reached_of_forall_step (next service requests) (I := Inv service.hash requests)
      (C := fun world turn => StillValid turn.input world.db (world.processes turn.process))
    · exact fun world turn h hturn => inv_next service requests h turn hturn
    · exact inv_start service requests tokens
    · exact hvalid
    · exact hreached
  apply singleUse_of_spentCount
  intro token
  -- the answers are a part of the uses
  have hle : (spentCount token _ : ℕ∞) ≤ 1 := le_add_self.trans (hinv.uses_le token)
  exact Nat.cast_le.mp hle

end

def oneUser : AuthService ℕ ℕ where
  hash := Function.Embedding.refl ℕ
  users := (∅ : Table String User).insert "u" ⟨"a@b", true⟩
  createAccessToken userId email _ := userId ++ email
  refreshTokenExpireDays := 30

def oneToken : Table ℕ TokenRow := (∅ : Table ℕ TokenRow).insert 0 ⟨"u", 10, false⟩

/-- The token with number 0 is refreshed once, and a request later for nothing. -/
def twice (_ : Fin 2) : Request ℕ := .refresh 0

def turnOf (i : Fin 2) (newToken : ℕ) : Turn (Fin 2) (Input ℕ) := ⟨i, true, 0, newToken⟩

theorem singleUse_one_after_another :
    SingleUse ([turnOf 0 1, turnOf 0 1, turnOf 0 1, turnOf 1 2].foldl (next oneUser twice)
      (start twice oneToken)).db.answered := by
  apply singleUse_of_stillValid oneUser twice oneToken
    [turnOf 0 1, turnOf 0 1, turnOf 0 1, turnOf 1 2] _ _ List.prefix_rfl
  apply (eachStep_iff_forall_step (next oneUser twice)
    (fun world turn => StillValid turn.input world.db (world.processes turn.process)) _ _).mp
  refine ⟨?_, fun _ => ⟨?_, fun _ => ⟨?_, fun _ => ⟨?_, fun _ => trivial⟩⟩⟩⟩
  · intro key userId email hphase
    cases hphase
  · rintro key userId email ⟨⟩ - ⟨row, ⟨⟩, ⟨⟩⟩
  · intro key userId email hphase
    cases hphase
  · intro key userId email hphase
    cases hphase

/-- Both requests read the token before either of them has revoked it. -/
def overlapping : List (Turn (Fin 2) (Input ℕ)) :=
  (List.replicate 3 (List.finRange 2)).flatten.map fun i => turnOf i (i.val + 1)

theorem overlapping_answered :
    (overlapping.foldl (next oneUser twice) (start twice oneToken)).db.answered =
      [(.refresh 0, .pair ⟨"ua@b", 1, "bearer"⟩), (.refresh 0, .pair ⟨"ua@b", 2, "bearer"⟩)] := by
  decide +kernel

/-- One token is exchanged for two pairs. -/
theorem overlapping_not_singleUse :
    ¬ SingleUse (overlapping.foldl (next oneUser twice) (start twice oneToken)).db.answered := by
  rw [overlapping_answered]
  intro h
  have hlater := (List.pairwise_cons.mp h).1 _ (List.mem_singleton_self _) 0
  exact hlater (.inl ⟨rfl, rfl⟩) ⟨rfl, rfl⟩

end TradeStream.RefreshTokens
