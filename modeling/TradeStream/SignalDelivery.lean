import TradeStream.SignalPipeline

/-! What the runner notes about its emissions, against what was delivered. -/
namespace TradeStream.SignalPipeline
open TradeStream.RunSteps

/-- The times noted for a symbol. -/
def notedTimes (noted : List Noted) (symbol : String) : List ℚ :=
  (noted.filter fun n => n.symbol = symbol).map Noted.time

def deliveredTimes (noted : List Noted) (symbol : String) : List ℚ :=
  notedTimes (noted.filter fun n => n.delivered) symbol

section
variable {ι : Type}

/-- Every record stands for a signal that was delivered: the table of duplicates and the
entry prices by kind and id, the history and the number of active signals by count. -/
structure World.Backed (world : World ι) : Prop where
  duplicates : ∀ key t, world.recentEmissions key = some t →
    ∃ n ∈ world.noted, n.delivered = true ∧ (n.symbol, n.action) = key ∧ n.time = t
  hourly : ∀ symbol,
    (world.risk.signalHistory symbol).Subperm (deliveredTimes world.noted symbol)
  active : world.risk.activeSignals ≤ world.noted.countP fun n => n.delivered
  prices : ∀ decisionId price, world.entryPrices decisionId = some price →
    ∃ n ∈ world.noted, n.delivered = true ∧ n.decisionId = decisionId

/-- So a signal is suppressed, or counted, only for one of its kind that was delivered
within the window. -/
structure World.OnlyDelivered (world : World ι) : Prop extends world.Backed where
  suppressed : ∀ key, world.Duplicate key →
    ∃ n ∈ world.noted, n.delivered = true ∧ (n.symbol, n.action) = key ∧
      world.now - n.time < dedupWindowSeconds
  limited : ∀ symbol, (world.risk.recent world.now symbol).length ≤
    world.noted.countP fun n =>
      n.delivered ∧ n.symbol = symbol ∧ world.now - 3600 < n.time

/-- The signal that is noted has been delivered through one of the channels. -/
def World.NotesDelivered (world : World ι) : Event ι → Prop
  | .record run _ => ∀ decisionId signal delivered,
      world.phases run = .emitted decisionId signal delivered → delivered = true
  | _ => True

/-- The history has everything that was noted in the last hour. -/
structure World.Kept (world : World ι) : Prop where
  clock : dedupWindowSeconds ≤ world.now
  history : ∀ symbol t, world.now - 3600 < t →
    (world.risk.signalHistory symbol).count t = (notedTimes world.noted symbol).count t

theorem length_filter_deliveredTimes (noted : List Noted) (symbol : String) (since : ℚ) :
    ((deliveredTimes noted symbol).filter fun ts => since < ts).length =
      noted.countP fun n => n.delivered ∧ n.symbol = symbol ∧ since < n.time := by
  rw [deliveredTimes, notedTimes, List.filter_map, List.length_map, List.filter_filter,
    List.filter_filter, ← List.countP_eq_length_filter]
  apply List.countP_congr
  intro n _
  simp only [Function.comp_apply, Bool.and_eq_true, decide_eq_true_eq]
  tauto

theorem World.Backed.onlyDelivered {world : World ι} (h : world.Backed)
    (hclock : dedupWindowSeconds ≤ world.now) : world.OnlyDelivered where
  toBacked := h
  suppressed key hduplicate := by
    unfold World.Duplicate at hduplicate
    cases hrecent : world.recentEmissions key with
    | none =>
      -- `get(key, 0)` stands for an emission at the epoch, long ago
      rw [hrecent, Option.getD_none, sub_zero] at hduplicate
      exact absurd hclock (not_le.mpr hduplicate)
    | some t =>
      obtain ⟨n, hn, hdelivered, hkey, rfl⟩ := h.duplicates key t hrecent
      rw [hrecent, Option.getD_some] at hduplicate
      exact ⟨n, hn, hdelivered, hkey, hduplicate⟩
  limited symbol := by
    have hlength := ((h.hourly symbol).filter fun ts => world.now - 3600 < ts).length_le
    rwa [length_filter_deliveredTimes] at hlength

end

theorem notedTimes_concat (noted : List Noted) (n : Noted) (symbol : String) :
    notedTimes (noted ++ [n]) symbol =
      if n.symbol = symbol then notedTimes noted symbol ++ [n.time] else notedTimes noted symbol := by
  by_cases h : n.symbol = symbol <;> simp [notedTimes, List.filter_append, h]

theorem deliveredTimes_concat (noted : List Noted) (n : Noted) (symbol : String) :
    deliveredTimes (noted ++ [n]) symbol =
      if n.delivered = true ∧ n.symbol = symbol then deliveredTimes noted symbol ++ [n.time]
      else deliveredTimes noted symbol := by
  cases h : n.delivered with
  | true => simp [deliveredTimes, List.filter_append, h, notedTimes_concat]
  | false => simp [deliveredTimes, List.filter_append, h]

theorem count_deliveredTimes_le (noted : List Noted) (symbol : String) (t : ℚ) :
    (deliveredTimes noted symbol).count t ≤ (notedTimes noted symbol).count t := by
  apply List.Sublist.count_le
  exact ((List.filter_sublist).filter _).map _

section
variable {ι : Type} {world world' : World ι}

/-- The step leaves alone what is noted of the emissions; a check forgets what is older
than an hour. -/
structure SameNotes (world world' : World ι) : Prop where
  now : world.now ≤ world'.now
  noted : world'.noted = world.noted
  recentEmissions : world'.recentEmissions = world.recentEmissions
  entryPrices : world'.entryPrices = world.entryPrices
  history : ∀ symbol, world'.risk.signalHistory symbol = world.risk.signalHistory symbol ∨
    world'.risk.signalHistory symbol = world.risk.recent world'.now symbol
  active : world'.risk.activeSignals ≤ world.risk.activeSignals

theorem SameNotes.kept (h : SameNotes world world') (hkept : world.Kept) :
    world'.Kept where
  clock := hkept.clock.trans h.now
  history symbol t ht := by
    have hnow := h.now
    rw [h.noted, ← hkept.history symbol t (by linarith)]
    rcases h.history symbol with hsame | hrecent
    · rw [hsame]
    · -- the check forgets nothing of the last hour
      rw [hrecent, RiskManager.recent]
      exact List.count_filter (by simpa using ht)

theorem SameNotes.backed (h : SameNotes world world')
    (hbacked : world.Backed) : world'.Backed where
  duplicates := by
    rw [h.noted, h.recentEmissions]
    exact hbacked.duplicates
  hourly symbol := by
    rw [h.noted]
    rcases h.history symbol with hsame | hrecent
    · rw [hsame]
      exact hbacked.hourly symbol
    · rw [hrecent]
      exact List.filter_sublist.subperm.trans (hbacked.hourly symbol)
  active := by
    rw [h.noted]
    exact h.active.trans hbacked.active
  prices := by
    rw [h.noted, h.entryPrices]
    exact hbacked.prices

end

section
variable {ι : Type} [DecidableEq ι] {config : RiskConfig} {world : World ι}

def Event.isRecord : Event ι → Bool
  | .record _ _ => true
  | _ => false

omit [DecidableEq ι] in
/-- All that a check leaves behind in the risk manager. -/
theorem sameNotes_check (signal : FusedSignal) (phases : ι → Phase) :
    SameNotes world { world with
      phases := phases, risk := (checkSignal config world.risk world.now signal).2 } := by
  by_cases hhold : signal.action = .hold
  · simp only [checkSignal, hhold, ↓reduceIte]
    exact ⟨le_rfl, rfl, rfl, rfl, fun _ => .inl rfl, le_rfl⟩
  · simp only [checkSignal, hhold, ↓reduceIte]
    refine ⟨le_rfl, rfl, rfl, rfl, fun symbol => ?_, le_rfl⟩
    by_cases hsymbol : symbol = signal.symbol
    · subst hsymbol
      exact .inr (Function.update_self ..)
    · exact .inl (Function.update_of_ne hsymbol ..)

theorem sameNotes_step (e : Event ι) (h : e.isRecord = false) :
    SameNotes world (world.step config e) := by
  cases e with
  | wait seconds =>
    exact ⟨by simp [World.step], rfl, rfl, rfl, fun _ => .inl rfl, le_rfl⟩
  | check run decisionId signal =>
    simp only [World.step]
    split_ifs with hidle
    · -- whether the check answers or raises, only its history is new
      split
      · next result risk heq =>
        have hrisk : risk = (checkSignal config world.risk world.now signal).2 := by rw [heq]
        exact hrisk ▸ sameNotes_check signal _
      · next risk heq =>
        have hrisk : risk = (checkSignal config world.risk world.now signal).2 := by rw [heq]
        exact hrisk ▸ sameNotes_check signal world.phases
    · exact ⟨le_rfl, rfl, rfl, rfl, fun _ => .inl rfl, le_rfl⟩
  | dedup run =>
    simp only [World.step, World.dedup]
    split
    · split_ifs <;> exact ⟨le_rfl, rfl, rfl, rfl, fun _ => .inl rfl, le_rfl⟩
    · exact ⟨le_rfl, rfl, rfl, rfl, fun _ => .inl rfl, le_rfl⟩
  | emit run mcp publish =>
    simp only [World.step, World.emit]
    split <;> exact ⟨le_rfl, rfl, rfl, rfl, fun _ => .inl rfl, le_rfl⟩
  | record run entryPrice => cases h
  | close position => exact ⟨le_rfl, rfl, rfl, rfl, fun _ => .inl rfl, le_rfl⟩
  | closed pnlPct => exact ⟨le_rfl, rfl, rfl, rfl, fun _ => .inl rfl, Nat.sub_le _ _⟩
  | exposure exposurePct => exact ⟨le_rfl, rfl, rfl, rfl, fun _ => .inl rfl, le_rfl⟩
  | resetDaily => exact ⟨le_rfl, rfl, rfl, rfl, fun _ => .inl rfl, le_rfl⟩

theorem kept_record (hkept : world.Kept) (run : ι) (entryPrice : Option ℚ) :
    (world.record run entryPrice).Kept := by
  cases hphase : world.phases run with
  | emitted decisionId signal delivered =>
    simp only [World.record, hphase]
    refine ⟨hkept.clock, ?_⟩
    intro symbol t ht
    have hold := hkept.history symbol t ht
    simp only [World.note, World.goTo, recordSignalEmitted, notedTimes_concat]
    by_cases hsymbol : signal.symbol = symbol
    · subst hsymbol
      simp [List.count_append, hold]
    · simp [hsymbol, Ne.symm hsymbol, hold]
  | _ => simpa only [World.record, hphase] using hkept

omit [DecidableEq ι] in
theorem backed_note_iff (hkept : world.Kept) (hbacked : world.Backed) (decisionId : String)
    (signal : FusedSignal) (delivered : Bool) (entryPrice : Option ℚ) :
    (world.note decisionId signal delivered entryPrice).Backed ↔ delivered = true := by
  constructor
  · intro hbacked'
    by_contra hdelivered
    -- the history has one emission of now more than were delivered
    have hcount := (hbacked'.hourly signal.symbol).count_le world.now
    have hhistory := hkept.history signal.symbol world.now (by linarith)
    have hle := count_deliveredTimes_le world.noted signal.symbol world.now
    simp only [World.note, recordSignalEmitted, Function.update_self, deliveredTimes_concat,
      hdelivered, false_and, ↓reduceIte, List.count_append, List.count_singleton_self] at hcount
    omega
  · rintro rfl
    constructor
    · intro key t hrecent
      by_cases hkey : key = (signal.symbol, signal.action)
      · subst hkey
        simp only [World.note, Function.update_self, Option.some.injEq] at hrecent
        exact ⟨_, List.mem_append_right _ List.mem_cons_self, rfl, rfl, hrecent⟩
      · simp only [World.note, Function.update_of_ne hkey] at hrecent
        obtain ⟨n, hn, hrest⟩ := hbacked.duplicates key t hrecent
        exact ⟨n, List.mem_append_left _ hn, hrest⟩
    · -- the time is appended to the history and to the delivered times alike
      intro symbol
      simp only [World.note, recordSignalEmitted, deliveredTimes_concat, true_and]
      by_cases hsymbol : signal.symbol = symbol
      · subst hsymbol
        simpa using (hbacked.hourly signal.symbol).append (List.Subperm.refl _)
      · simpa [hsymbol, Ne.symm hsymbol] using hbacked.hourly symbol
    · have hactive := hbacked.active
      simp only [World.note, recordSignalEmitted, List.countP_append, List.countP_singleton,
        ↓reduceIte]
      omega
    · intro id price hprice
      -- an entry price of before has its delivered signal already
      have hold (hprice : world.entryPrices id = some price) : ∃ n ∈ world.noted ++
          [(⟨decisionId, signal.symbol, signal.action, world.now, true⟩ : Noted)],
          n.delivered = true ∧ n.decisionId = id := by
        obtain ⟨n, hn, hrest⟩ := hbacked.prices id price hprice
        exact ⟨n, List.mem_append_left _ hn, hrest⟩
      cases entryPrice with
      | none => exact hold hprice
      | some price' =>
        by_cases hid : id = decisionId
        · subst hid
          exact ⟨_, List.mem_append_right _ List.mem_cons_self, rfl, rfl⟩
        · simp only [World.note, Function.update_of_ne hid] at hprice
          exact hold hprice

theorem kept_step (hkept : world.Kept) (e : Event ι) : (world.step config e).Kept := by
  cases hrecord : e.isRecord with
  | false => exact (sameNotes_step e hrecord).kept hkept
  | true =>
    cases e with
    | record run entryPrice => exact kept_record hkept run entryPrice
    | _ => cases hrecord

theorem backed_step_iff (hkept : world.Kept) (hbacked : world.Backed) (e : Event ι) :
    (world.step config e).Backed ↔ world.NotesDelivered e := by
  cases hrecord : e.isRecord with
  | false =>
    have hnotes : world.NotesDelivered e := by
      cases e with
      | record run entryPrice => cases hrecord
      | _ => trivial
    exact iff_of_true ((sameNotes_step e hrecord).backed hbacked) hnotes
  | true =>
    cases e with
    | record run entryPrice =>
      cases hphase : world.phases run with
      | emitted decisionId signal delivered =>
        have hkept' : (world.goTo run .idle).Kept := ⟨hkept.clock, hkept.history⟩
        have hbacked' : (world.goTo run .idle).Backed :=
          ⟨hbacked.duplicates, hbacked.hourly, hbacked.active, hbacked.prices⟩
        have hiff := backed_note_iff hkept' hbacked' decisionId signal delivered entryPrice
        simp [World.step, World.record, hphase, hiff, World.NotesDelivered]
      | _ => simpa [World.step, World.record, World.NotesDelivered, hphase] using hbacked
    | _ => cases hrecord

end

section
variable {ι : Type} [DecidableEq ι] (config : RiskConfig) (start : {t : ℚ // dedupWindowSeconds ≤ t})

omit [DecidableEq ι] in
theorem kept_init : (World.init ι start).Kept where
  clock := start.2
  history _ _ _ := rfl

omit [DecidableEq ι] in
theorem backed_init : (World.init ι start).Backed where
  duplicates _ _ h := by cases h
  hourly _ := List.nil_subperm
  active := le_rfl
  prices _ _ h := by cases h

omit [DecidableEq ι] in
theorem onlyDelivered_iff_backed {world : World ι} (hkept : world.Kept) :
    world.OnlyDelivered ↔ world.Backed :=
  ⟨fun h => h.toBacked, fun h => h.onlyDelivered hkept.clock⟩

/-- In every state of a run the records mean delivered signals, if and only if every
signal that is noted was delivered. -/
theorem onlyDelivered_iff (events : List (Event ι)) :
    (∀ reached, reached <+: events →
      (reached.foldl (World.step config) (World.init ι start)).OnlyDelivered) ↔
    ∀ earlier e, earlier ++ [e] <+: events →
      (earlier.foldl (World.step config) (World.init ι start)).NotesDelivered e := by
  apply forall_reached_iff_forall_step (World.step config) (I := World.Kept)
    (P := World.OnlyDelivered) (C := World.NotesDelivered)
  · exact fun world e h => kept_step h e
  · intro world e hkept hdelivered
    rw [onlyDelivered_iff_backed (kept_step hkept e)]
    exact backed_step_iff hkept hdelivered.toBacked e
  · exact kept_init start
  · exact (backed_init start).onlyDelivered start.2

end

/-- A signal for which both channels fail. -/
def lostWorld : World Unit :=
  [.check () "sig-1" ⟨"BTC-USD", .buy, 9 / 10⟩, .dedup (), .emit () .raised .noClient,
    .record () (some 60000)].foldl (World.step .default)
      (World.init Unit ⟨1000, dedupWindowSeconds_le⟩)

/-- It is noted all the same, and the next one of its kind is a duplicate. -/
theorem lostWorld_not_onlyDelivered :
    lostWorld.Duplicate ("BTC-USD", .buy) ∧ ¬ lostWorld.OnlyDelivered := by
  constructor
  · decide +kernel
  · intro h
    have hactive : lostWorld.risk.activeSignals = 1 ∧
        lostWorld.noted.countP (fun n => n.delivered) = 0 := by decide +kernel
    have hle := h.active
    omega

end TradeStream.SignalPipeline
