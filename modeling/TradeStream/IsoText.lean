import Mathlib

/-! Instants in the extended spelling of ISO 8601, with any offset and any number of
decimals: which pairs of spellings are in the order of the instants that they denote. -/
namespace TradeStream.IsoText

/-! ### Numerals of a fixed width -/

/-- The last digits of `n`, as many as the field is wide. -/
def padded : ℕ → ℕ → List Char
  | 0, _ => []
  | width + 1, n => Nat.digitChar (n / 10 ^ width) :: padded width (n % 10 ^ width)

theorem digitChar_lt_iff {a b : ℕ} (ha : a < 10) (hb : b < 10) :
    Nat.digitChar a < Nat.digitChar b ↔ a < b := by
  have hall : ∀ i j : Fin 10, Nat.digitChar i < Nat.digitChar j ↔ i < j := by decide
  exact hall ⟨a, ha⟩ ⟨b, hb⟩

theorem digitChar_inj {a b : ℕ} (ha : a < 10) (hb : b < 10) :
    Nat.digitChar a = Nat.digitChar b ↔ a = b := by
  constructor
  · intro h
    have hab := (digitChar_lt_iff ha hb).not.mp (by rw [h]; exact lt_irrefl _)
    have hba := (digitChar_lt_iff hb ha).not.mp (by rw [h]; exact lt_irrefl _)
    omega
  · exact congrArg Nat.digitChar

/-- The leading digit decides, and then the rest. -/
theorem lt_iff_div_mod (a b c : ℕ) :
    a < b ↔ a / c < b / c ∨ a / c = b / c ∧ a % c < b % c := by
  have ha := Nat.div_add_mod a c
  have hb := Nat.div_add_mod b c
  constructor
  · intro hlt
    rcases (Nat.div_le_div_right hlt.le : a / c ≤ b / c).lt_or_eq with hdiv | hdiv
    · exact Or.inl hdiv
    · rw [hdiv] at ha
      exact Or.inr ⟨hdiv, by omega⟩
  · rintro (hdiv | ⟨hdiv, hmod⟩)
    · exact Nat.lt_of_div_lt_div hdiv
    · rw [hdiv] at ha
      omega

/-- Numerals of one width are in the order of the numbers. -/
theorem padded_append_lt_iff {width a b : ℕ} (ha : a < 10 ^ width) (hb : b < 10 ^ width)
    (u v : List Char) :
    padded width a ++ u < padded width b ++ v ↔ a < b ∨ a = b ∧ u < v := by
  induction width generalizing a b with
  | zero =>
    have hzero : a = b := by simp at ha hb; omega
    simp [padded, hzero]
  | succ width ih =>
    have hpow : 0 < 10 ^ width := by positivity
    have hda : a / 10 ^ width < 10 := Nat.div_lt_of_lt_mul (by rwa [pow_succ] at ha)
    have hdb : b / 10 ^ width < 10 := Nat.div_lt_of_lt_mul (by rwa [pow_succ] at hb)
    have heq : a = b ↔ a / 10 ^ width = b / 10 ^ width ∧ a % 10 ^ width = b % 10 ^ width := by
      constructor
      · rintro rfl
        exact ⟨rfl, rfl⟩
      · rintro ⟨hdiv, hmod⟩
        rw [← Nat.div_add_mod a (10 ^ width), hdiv, hmod, Nat.div_add_mod]
    rw [padded, padded, List.cons_append, List.cons_append, List.cons_lt_cons_iff,
      digitChar_lt_iff hda hdb, digitChar_inj hda hdb,
      ih (Nat.mod_lt a hpow) (Nat.mod_lt b hpow), lt_iff_div_mod a b (10 ^ width), heq]
    simp only [and_or_left, and_assoc, or_assoc]

/-! ### The calendar -/

def IsLeap (year : ℕ) : Prop := year % 4 = 0 ∧ (year % 100 ≠ 0 ∨ year % 400 = 0)

instance (year : ℕ) : Decidable (IsLeap year) := inferInstanceAs (Decidable (_ ∧ _))

def daysInMonth (year month : ℕ) : ℕ :=
  if month = 2 then if IsLeap year then 29 else 28
  else if month = 4 ∨ month = 6 ∨ month = 9 ∨ month = 11 then 30 else 31

/-- The days of the months before this one. -/
def daysBeforeMonth (year : ℕ) : ℕ → ℕ
  | 0 => 0
  | month + 1 => daysBeforeMonth year month + if month = 0 then 0 else daysInMonth year month

/-- The days of the years before this one, from the year zero on. -/
def daysBeforeYear (year : ℕ) : ℕ :=
  365 * year + ((year + 3) / 4 - (year + 99) / 100 + (year + 399) / 400)

/-- The leap years before the next year, counted by the rule for leap years. -/
theorem leapYears_succ (year : ℕ) :
    (year + 1 + 3) / 4 - (year + 1 + 99) / 100 + (year + 1 + 399) / 400 =
      (year + 3) / 4 - (year + 99) / 100 + (year + 399) / 400 +
        if IsLeap year then 1 else 0 := by
  have h4 : (year + 1 + 3) / 4 = (year + 3) / 4 + if year % 4 = 0 then 1 else 0 := by
    split_ifs <;> omega
  have h100 : (year + 1 + 99) / 100 = (year + 99) / 100 + if year % 100 = 0 then 1 else 0 := by
    split_ifs <;> omega
  have h400 : (year + 1 + 399) / 400 = (year + 399) / 400 + if year % 400 = 0 then 1 else 0 := by
    split_ifs <;> omega
  -- there are no more centuries than fourth years
  have hle : (year + 99) / 100 ≤ (year + 3) / 4 := by omega
  have hcentury : year % 100 = 0 → year % 4 = 0 := by omega
  have hfourth : year % 400 = 0 → year % 100 = 0 := by omega
  rw [h4, h100, h400]
  generalize (year + 3) / 4 = fourths at hle ⊢
  generalize (year + 99) / 100 = centuries at hle ⊢
  generalize (year + 399) / 400 = fourthCenturies
  by_cases h : year % 400 = 0
  · have hleap : IsLeap year := ⟨hcentury (hfourth h), Or.inr h⟩
    rw [if_pos hleap, if_pos h, if_pos (hfourth h), if_pos (hcentury (hfourth h))]
    omega
  · rw [if_neg h]
    by_cases h' : year % 100 = 0
    · have hleap : ¬ IsLeap year := fun hl => hl.2.elim (absurd h') h
      rw [if_neg hleap, if_pos h', if_pos (hcentury h')]
      omega
    · rw [if_neg h']
      by_cases h'' : year % 4 = 0
      · rw [if_pos h'', if_pos (show IsLeap year from ⟨h'', Or.inl h'⟩)]
        omega
      · rw [if_neg h'', if_neg fun hl : IsLeap year => h'' hl.1]
        omega

theorem daysBeforeYear_succ (year : ℕ) :
    daysBeforeYear (year + 1) = daysBeforeYear year + daysBeforeMonth year 13 := by
  have hfebruary : daysInMonth year 2 = if IsLeap year then 29 else 28 := rfl
  have hmonths : daysBeforeMonth year 13 =
      31 + daysInMonth year 2 + 31 + 30 + 31 + 30 + 31 + 31 + 30 + 31 + 30 + 31 := by
    rfl
  rw [hmonths, hfebruary, daysBeforeYear, daysBeforeYear, leapYears_succ]
  split_ifs <;> omega

/-- Spans one after the other: each starts where the one before it has ended. -/
def Spans (start length : ℕ → ℕ) : Prop := ∀ i, start i + length i ≤ start (i + 1)

theorem Spans.le {start length : ℕ → ℕ} (h : Spans start length) {i j : ℕ} (hij : i < j) :
    start i + length i ≤ start j := by
  induction j with
  | zero => omega
  | succ j ih =>
    rcases Nat.lt_succ_iff_lt_or_eq.mp hij with hlt | rfl
    · have hj := h j
      have hi := ih hlt
      omega
    · exact h i

theorem spans_daysBeforeYear : Spans daysBeforeYear fun year => daysBeforeMonth year 13 :=
  fun year => (daysBeforeYear_succ year).ge

theorem spans_daysBeforeMonth (year : ℕ) :
    Spans (daysBeforeMonth year) fun month => if month = 0 then 0 else daysInMonth year month :=
  fun _ => le_rfl

/-! ### Spellings -/

/-- A distance from UTC. -/
structure Offset where
  hours : ℕ
  minutes : ℕ
  hours_lt : hours < 24
  minutes_lt : minutes < 60

def Offset.seconds (o : Offset) : ℕ := 3600 * o.hours + 60 * o.minutes

def Offset.text (o : Offset) : List Char := padded 2 o.hours ++ ':' :: padded 2 o.minutes

inductive Zone where
  | utc
  | ahead (o : Offset)
  | behind (o : Offset)

def Zone.seconds : Zone → ℤ
  | .utc => 0
  | .ahead o => o.seconds
  | .behind o => -o.seconds

def Zone.text : Zone → List Char
  | .utc => ['Z']
  | .ahead o => '+' :: o.text
  | .behind o => '-' :: o.text

/-- The spelling of an instant: a date and a time of a wall clock, the decimals of its
seconds and the zone that the clock is in. -/
structure IsoInstant where
  year : ℕ
  month : ℕ
  day : ℕ
  hour : ℕ
  minute : ℕ
  second : ℕ
  decimals : List ℕ
  zone : Zone
  year_lt : year < 10 ^ 4
  month_mem : 1 ≤ month ∧ month ≤ 12
  day_mem : 1 ≤ day ∧ day ≤ daysInMonth year month
  hour_lt : hour < 24
  minute_lt : minute < 60
  second_lt : second < 60
  decimals_lt : ∀ d ∈ decimals, d < 10

namespace IsoInstant

def decimalsText : List ℕ → List Char
  | [] => []
  | d :: rest => '.' :: (d :: rest).map Nat.digitChar

/-- The text from the decimals on. -/
def suffixText (a : IsoInstant) : List Char := decimalsText a.decimals ++ a.zone.text

def text (a : IsoInstant) : List Char :=
  padded 4 a.year ++ '-' :: (padded 2 a.month ++ '-' :: (padded 2 a.day ++ 'T' ::
    (padded 2 a.hour ++ ':' :: (padded 2 a.minute ++ ':' :: (padded 2 a.second ++ a.suffixText)))))

def timeOfDay (a : IsoInstant) : ℕ := 3600 * a.hour + (60 * a.minute + a.second)

def dayOfYear (a : IsoInstant) : ℕ := daysBeforeMonth a.year a.month + (a.day - 1)

/-- The whole seconds that the wall clock shows. -/
def clock (a : IsoInstant) : ℕ := 86400 * (daysBeforeYear a.year + a.dayOfYear) + a.timeOfDay

/-- The value of the decimals of a number. -/
def fraction : List ℕ → ℚ
  | [] => 0
  | d :: rest => (d + fraction rest) / 10

/-- What the wall clock shows. -/
def wallTime (a : IsoInstant) : ℚ := a.clock + fraction a.decimals

/-- The instant that is denoted, in seconds of UTC. -/
def instant (a : IsoInstant) : ℚ := a.wallTime - a.zone.seconds

/-- What the wall clock shows, from the year down to the second. -/
def fields (a : IsoInstant) : List ℕ := [a.year, a.month, a.day, a.hour, a.minute, a.second]

theorem daysInMonth_le (year month : ℕ) : daysInMonth year month ≤ 31 := by
  unfold daysInMonth
  split_ifs <;> omega

theorem timeOfDay_lt (a : IsoInstant) : a.timeOfDay < 86400 := by
  have hhour := a.hour_lt
  have hminute := a.minute_lt
  have hsecond := a.second_lt
  unfold timeOfDay
  omega

theorem dayOfYear_lt (a : IsoInstant) :
    a.dayOfYear < daysBeforeMonth a.year a.month + daysInMonth a.year a.month := by
  have hday := a.day_mem
  unfold dayOfYear
  omega

/-- The days up to the end of a month are days of the months before a later one. -/
theorem daysBeforeMonth_add_le (year : ℕ) {i j : ℕ} (hi : 1 ≤ i) (hij : i < j) :
    daysBeforeMonth year i + daysInMonth year i ≤ daysBeforeMonth year j := by
  have hle := (spans_daysBeforeMonth year).le hij
  rwa [if_neg (by omega)] at hle

theorem dayOfYear_lt_year (a : IsoInstant) : a.dayOfYear < daysBeforeMonth a.year 13 := by
  have hlt := a.dayOfYear_lt
  have hmonth : a.month < 13 := by
    have hle := a.month_mem.2
    omega
  have hle := daysBeforeMonth_add_le a.year a.month_mem.1 hmonth
  omega

/-- The first field in which two clocks differ decides. -/
theorem clock_lt_of_fields {a b : IsoInstant} (h : a.fields < b.fields) : a.clock < b.clock := by
  have htime := a.timeOfDay_lt
  have hday : daysBeforeYear a.year + a.dayOfYear < daysBeforeYear b.year + b.dayOfYear →
      a.clock < b.clock := by
    intro hlt
    unfold clock
    omega
  simp only [fields, List.cons_lt_cons_iff, List.not_lt_nil, and_false, or_false] at h
  rcases h with hlt | ⟨hyear, hlt | ⟨hmonth, h⟩⟩
  · -- the days of a year end before the next one starts
    have hle := spans_daysBeforeYear.le hlt
    have hend := a.dayOfYear_lt_year
    apply hday
    omega
  · -- and those of a month before the next month
    have hle := daysBeforeMonth_add_le a.year a.month_mem.1 hlt
    have hend := a.dayOfYear_lt
    rw [hyear] at hle hend
    have hlt' : a.dayOfYear < b.dayOfYear := by
      unfold dayOfYear at *
      omega
    apply hday
    rw [hyear]
    omega
  · have hmonths : daysBeforeMonth a.year a.month = daysBeforeMonth b.year b.month := by
      rw [hyear, hmonth]
    rcases h with hlt | ⟨hday', h⟩
    · have hpos := a.day_mem.1
      apply hday
      unfold dayOfYear
      rw [hmonths, hyear]
      omega
    · have hdays : a.dayOfYear = b.dayOfYear := by rw [dayOfYear, dayOfYear, hmonths, hday']
      have htimes : a.timeOfDay < b.timeOfDay := by
        have hminute := a.minute_lt
        have hsecond := a.second_lt
        unfold timeOfDay
        omega
      unfold clock
      rw [hyear, hdays]
      omega

theorem clock_eq_of_fields {a b : IsoInstant} (h : a.fields = b.fields) : a.clock = b.clock := by
  simp only [fields, List.cons.injEq, and_true] at h
  obtain ⟨hyear, hmonth, hday, hhour, hminute, hsecond⟩ := h
  simp only [clock, dayOfYear, timeOfDay, hyear, hmonth, hday, hhour, hminute, hsecond]

theorem clock_lt_iff {a b : IsoInstant} : a.clock < b.clock ↔ a.fields < b.fields := by
  constructor
  · intro hlt
    rcases lt_trichotomy a.fields b.fields with h | h | h
    · exact h
    · exact absurd (clock_eq_of_fields h) hlt.ne
    · exact absurd (clock_lt_of_fields h) hlt.not_gt
  · exact clock_lt_of_fields

theorem clock_eq_iff {a b : IsoInstant} : a.clock = b.clock ↔ a.fields = b.fields := by
  constructor
  · intro heq
    rcases lt_trichotomy a.fields b.fields with h | h | h
    · exact absurd heq (clock_lt_of_fields h).ne
    · exact h
    · exact absurd heq (clock_lt_of_fields h).ne'
  · exact clock_eq_of_fields

/-- Every field but the year is below sixty. -/
theorem month_lt (a : IsoInstant) : a.month < 60 := by
  have hmem := a.month_mem
  omega

theorem day_lt (a : IsoInstant) : a.day < 60 := by
  have hmem := a.day_mem
  have hle := daysInMonth_le a.year a.month
  omega

theorem hour_lt_sixty (a : IsoInstant) : a.hour < 60 := by
  have hlt := a.hour_lt
  omega

theorem twoDigits_append_lt_iff {i j : ℕ} (hi : i < 60) (hj : j < 60) (u v : List Char) :
    padded 2 i ++ u < padded 2 j ++ v ↔ i < j ∨ i = j ∧ u < v :=
  padded_append_lt_iff (by omega) (by omega) u v

/-- The wall clocks decide to the second, and then the rest of the text. -/
theorem text_lt_iff (a b : IsoInstant) :
    a.text < b.text ↔ a.clock < b.clock ∨ a.clock = b.clock ∧ a.suffixText < b.suffixText := by
  rw [clock_lt_iff, clock_eq_iff]
  simp only [text, fields, padded_append_lt_iff a.year_lt b.year_lt,
    twoDigits_append_lt_iff a.month_lt b.month_lt, twoDigits_append_lt_iff a.day_lt b.day_lt,
    twoDigits_append_lt_iff a.hour_lt_sixty b.hour_lt_sixty,
    twoDigits_append_lt_iff a.minute_lt b.minute_lt,
    twoDigits_append_lt_iff a.second_lt b.second_lt, List.cons_lt_cons_iff,
    lt_irrefl, false_or, true_and, List.cons.injEq, and_true, and_false,
    or_false]
  -- both sides are the same cases, one for each field and one for the rest of the text
  simp only [and_or_left, and_assoc, or_assoc]

/-! ### Decimals and zones -/

theorem fraction_nonneg (ds : List ℕ) : 0 ≤ fraction ds := by
  induction ds with
  | nil => exact le_rfl
  | cons d rest ih =>
    rw [fraction]
    positivity

theorem fraction_lt_one {ds : List ℕ} (h : ∀ d ∈ ds, d < 10) : fraction ds < 1 := by
  induction ds with
  | nil => exact zero_lt_one
  | cons d rest ih =>
    have hd : (d : ℚ) + 1 ≤ 10 := by exact_mod_cast h d List.mem_cons_self
    have hrest := ih fun e he => h e (List.mem_cons_of_mem d he)
    rw [fraction, div_lt_one (by norm_num)]
    linarith

/-- Decimals that differ at a place that both have are in the order of their values. -/
theorem decimals_append_lt_iff {ds es : List ℕ} (hds : ∀ d ∈ ds, d < 10) (hes : ∀ e ∈ es, e < 10)
    (hpre : ¬ ds <+: es) (hpre' : ¬ es <+: ds) (u v : List Char) :
    (ds.map Nat.digitChar ++ u < es.map Nat.digitChar ++ v ↔ fraction ds < fraction es) ∧
      fraction ds ≠ fraction es := by
  induction ds generalizing es with
  | nil => exact absurd List.nil_prefix hpre
  | cons d ds ih =>
    cases es with
    | nil => exact absurd List.nil_prefix hpre'
    | cons e es =>
      have hd := hds d List.mem_cons_self
      have he := hes e List.mem_cons_self
      have hds' : ∀ x ∈ ds, x < 10 := fun x hx => hds x (List.mem_cons_of_mem d hx)
      have hes' : ∀ x ∈ es, x < 10 := fun x hx => hes x (List.mem_cons_of_mem e hx)
      have hnonneg := fraction_nonneg ds
      have hnonneg' := fraction_nonneg es
      have hone := fraction_lt_one hds'
      have hone' := fraction_lt_one hes'
      rw [List.map_cons, List.map_cons, List.cons_append, List.cons_append,
        List.cons_lt_cons_iff, digitChar_lt_iff hd he, digitChar_inj hd he, fraction, fraction,
        div_lt_div_iff_of_pos_right (by norm_num), Ne, div_left_inj' (by norm_num)]
      rcases lt_trichotomy d e with hlt | rfl | hgt
      · have hcast : (d : ℚ) + 1 ≤ e := by exact_mod_cast hlt
        have hvalue : (d : ℚ) + fraction ds < e + fraction es := by linarith
        exact ⟨iff_of_true (Or.inl hlt) hvalue, hvalue.ne⟩
      · rw [List.cons_prefix_cons, not_and] at hpre hpre'
        have hrest := ih hds' hes' (hpre rfl) (hpre' rfl)
        simpa using hrest
      · have hcast : (e : ℚ) + 1 ≤ d := by exact_mod_cast hgt
        have hvalue : (e : ℚ) + fraction es < d + fraction ds := by linarith
        exact ⟨iff_of_false (by omega) hvalue.not_gt, hvalue.ne'⟩

/-- The characters that a further decimal begins with. -/
def IsDecimalStart (c : Char) : Prop := c = '.' ∨ ∃ d < 10, c = Nat.digitChar d

theorem IsDecimalStart.between {c : Char} (h : IsDecimalStart c) :
    '+' < c ∧ '-' < c ∧ c < 'Z' := by
  rcases h with rfl | ⟨d, hd, rfl⟩
  · decide
  · have hall : ∀ i : Fin 10, '+' < Nat.digitChar i ∧ '-' < Nat.digitChar i ∧
        Nat.digitChar i < 'Z' := by decide
    exact hall ⟨d, hd⟩

/-- Numbers stand before a further decimal, and the letter behind it. -/
theorem zone_lt_decimal_iff (zone : Zone) {c : Char} (hc : IsDecimalStart c) (l : List Char) :
    zone.text < c :: l ↔ zone ≠ .utc := by
  obtain ⟨hplus, hminus, hz⟩ := hc.between
  cases zone with
  | utc => simp [Zone.text, List.cons_lt_cons_iff, hz.ne', hz.le]
  | ahead o => simp [Zone.text, List.cons_lt_cons_iff, hplus]
  | behind o => simp [Zone.text, List.cons_lt_cons_iff, hminus]

theorem decimal_lt_zone_iff (zone : Zone) {c : Char} (hc : IsDecimalStart c) (l : List Char) :
    c :: l < zone.text ↔ zone = .utc := by
  obtain ⟨hplus, hminus, hz⟩ := hc.between
  cases zone with
  | utc => simp [Zone.text, List.cons_lt_cons_iff, hz]
  | ahead o => simp [Zone.text, List.cons_lt_cons_iff, hplus.le, hplus.ne']
  | behind o => simp [Zone.text, List.cons_lt_cons_iff, hminus.le, hminus.ne']

theorem offset_text_lt_iff (o o' : Offset) : o.text < o'.text ↔ o.seconds < o'.seconds := by
  have hhours := o.hours_lt
  have hhours' := o'.hours_lt
  have hminutes := o.minutes_lt
  have hminutes' := o'.minutes_lt
  have hlast : padded 2 o.minutes ++ [] < padded 2 o'.minutes ++ [] ↔
      o.minutes < o'.minutes ∨ o.minutes = o'.minutes ∧ ([] : List Char) < [] :=
    padded_append_lt_iff (by omega) (by omega) [] []
  rw [List.append_nil, List.append_nil] at hlast
  rw [Offset.text, Offset.text, padded_append_lt_iff (by omega) (by omega),
    List.cons_lt_cons_self, hlast]
  unfold Offset.seconds
  simp only [lt_irrefl, and_false, or_false]
  omega

/-- The zones of two equal wall clocks are spelled in the order of the instants. -/
def ZonesInOrder : Zone → Zone → Prop
  | .ahead o, .ahead o' => o.seconds = o'.seconds
  | .ahead o, .behind o' => 0 < o.seconds ∨ 0 < o'.seconds
  | .ahead o, .utc => 0 < o.seconds
  | .behind _, .utc => False
  | .utc, .behind o' => o'.seconds = 0
  | .behind _, .behind _ => True
  | .behind _, .ahead _ => True
  | .utc, .ahead _ => True
  | .utc, .utc => True

theorem zonesInOrder_iff (z z' : Zone) :
    (z.text < z'.text ↔ z'.seconds < z.seconds) ↔ ZonesInOrder z z' := by
  have hpm : '+' < '-' := by decide
  have hpz : '+' < 'Z' := by decide
  have hmz : '-' < 'Z' := by decide
  cases z with
  | utc =>
    cases z' with
    | utc => simp [ZonesInOrder, Zone.text, Zone.seconds]
    | ahead o' => simp [ZonesInOrder, Zone.text, Zone.seconds, List.cons_lt_cons_iff]
    | behind o' => simp [ZonesInOrder, Zone.text, Zone.seconds, List.cons_lt_cons_iff]
  | ahead o =>
    cases z' with
    | utc => simp [ZonesInOrder, Zone.text, Zone.seconds, List.cons_lt_cons_iff]
    | ahead o' =>
      simp only [ZonesInOrder, Zone.text, Zone.seconds, List.cons_lt_cons_self, offset_text_lt_iff]
      omega
    | behind o' =>
      simp [ZonesInOrder, Zone.text, Zone.seconds, List.cons_lt_cons_iff]
      omega
  | behind o =>
    cases z' with
    | utc => simp [ZonesInOrder, Zone.text, Zone.seconds, List.cons_lt_cons_iff]
    | ahead o' => simp [ZonesInOrder, Zone.text, Zone.seconds, List.cons_lt_cons_iff]
    | behind o' => simp [ZonesInOrder, Zone.text, Zone.seconds, offset_text_lt_iff]

/-- Decimals that go on after those of another text. -/
theorem exists_decimalsText_append (ds : List ℕ) {e : ℕ} (he : e < 10) (es : List ℕ) :
    ∃ c l, decimalsText (ds ++ e :: es) = decimalsText ds ++ c :: l ∧ IsDecimalStart c := by
  cases ds with
  | nil => exact ⟨'.', _, rfl, Or.inl rfl⟩
  | cons d ds =>
    refine ⟨Nat.digitChar e, es.map Nat.digitChar, ?_, Or.inr ⟨e, he, rfl⟩⟩
    simp [decimalsText]

theorem append_lt_append_iff (l u v : List Char) : l ++ u < l ++ v ↔ u < v := by
  induction l with
  | nil => exact Iff.rfl
  | cons c l ih => rw [List.cons_append, List.cons_append, List.cons_lt_cons_self, ih]

/-- The decimals go on where those of the other text end. -/
def GoesOn (ds es : List ℕ) : Prop := ds <+: es ∧ ds ≠ es

theorem GoesOn.exists_append {ds es : List ℕ} (h : GoesOn ds es) :
    ∃ e rest, es = ds ++ e :: rest := by
  obtain ⟨⟨l, rfl⟩, hne⟩ := h
  cases l with
  | nil => exact absurd (List.append_nil ds).symm hne
  | cons e rest => exact ⟨e, rest, rfl⟩

section
variable {a b : IsoInstant}

theorem suffixText_lt_iff_of_goesOn (h : GoesOn a.decimals b.decimals) :
    a.suffixText < b.suffixText ↔ a.zone ≠ .utc := by
  obtain ⟨e, rest, heq⟩ := h.exists_append
  have he : e < 10 := b.decimals_lt e (by simp [heq])
  obtain ⟨c, l, htext, hc⟩ := exists_decimalsText_append a.decimals he rest
  rw [suffixText, suffixText, heq, htext, List.append_assoc, append_lt_append_iff,
    List.cons_append, zone_lt_decimal_iff a.zone hc]

theorem suffixText_lt_iff_of_goesOn' (h : GoesOn b.decimals a.decimals) :
    a.suffixText < b.suffixText ↔ b.zone = .utc := by
  obtain ⟨e, rest, heq⟩ := h.exists_append
  have he : e < 10 := a.decimals_lt e (by simp [heq])
  obtain ⟨c, l, htext, hc⟩ := exists_decimalsText_append b.decimals he rest
  rw [suffixText, suffixText, heq, htext, List.append_assoc, append_lt_append_iff,
    List.cons_append, decimal_lt_zone_iff b.zone hc]

theorem suffixText_lt_iff_of_differ (h : ¬ a.decimals <+: b.decimals)
    (h' : ¬ b.decimals <+: a.decimals) :
    (a.suffixText < b.suffixText ↔ fraction a.decimals < fraction b.decimals) ∧
      fraction a.decimals ≠ fraction b.decimals := by
  have hds : a.decimals ≠ [] := fun hnil => h (hnil ▸ List.nil_prefix)
  have hes : b.decimals ≠ [] := fun hnil => h' (hnil ▸ List.nil_prefix)
  have htext : ∀ ds : List ℕ, ds ≠ [] → decimalsText ds = '.' :: ds.map Nat.digitChar := by
    intro ds hne
    cases ds with
    | nil => exact absurd rfl hne
    | cons d rest => rfl
  rw [suffixText, suffixText, htext _ hds, htext _ hes, List.cons_append, List.cons_append,
    List.cons_lt_cons_self]
  exact decimals_append_lt_iff a.decimals_lt b.decimals_lt h h' _ _

end

/-- How far the wall clock of `b` is ahead of that of `a`. -/
def lead (a b : IsoInstant) : ℚ := b.wallTime - a.wallTime

/-- How much farther ahead of UTC the zone of `b` is. -/
def shift (a b : IsoInstant) : ℚ := b.zone.seconds - a.zone.seconds

theorem instant_lt_iff (a b : IsoInstant) : a.instant < b.instant ↔ shift a b < lead a b := by
  unfold instant shift lead
  constructor
  · intro h
    linarith
  · intro h
    linarith

/-- The wall clocks differ in a digit that both texts have. -/
def Differ (a b : IsoInstant) : Prop :=
  a.clock ≠ b.clock ∨ ¬ a.decimals <+: b.decimals ∧ ¬ b.decimals <+: a.decimals

/-- Two spellings in the order of the instants that they denote. -/
structure SpelledInOrder (a b : IsoInstant) : Prop where
  /-- The zones do not turn two wall clocks around that differ. -/
  differ : Differ a b → ¬ (0 < lead a b ∧ lead a b ≤ shift a b) ∧
    ¬ (shift a b < lead a b ∧ lead a b ≤ 0)
  /-- Where one has further decimals, the other's zone tells that it is the earlier one by
  being a number, and that it is not by being the letter. -/
  goesOn : a.clock = b.clock → GoesOn a.decimals b.decimals →
    (a.zone ≠ .utc ↔ shift a b < lead a b)
  goesOn' : a.clock = b.clock → GoesOn b.decimals a.decimals →
    (b.zone = .utc ↔ shift a b < lead a b)
  same : a.clock = b.clock → a.decimals = b.decimals → ZonesInOrder a.zone b.zone

theorem lead_pos_iff_of_clock {a b : IsoInstant} (h : a.clock ≠ b.clock) :
    0 < lead a b ↔ a.clock < b.clock := by
  have ha := fraction_nonneg a.decimals
  have hb := fraction_nonneg b.decimals
  have ha' := fraction_lt_one a.decimals_lt
  have hb' := fraction_lt_one b.decimals_lt
  unfold lead wallTime
  rcases Nat.lt_or_gt_of_ne h with hlt | hgt
  · have hcast : (a.clock : ℚ) + 1 ≤ b.clock := by exact_mod_cast hlt
    exact iff_of_true (by linarith) hlt
  · have hcast : (b.clock : ℚ) + 1 ≤ a.clock := by exact_mod_cast hgt
    exact iff_of_false (by linarith) (by omega)

theorem text_lt_iff_of_differ {a b : IsoInstant} (h : Differ a b) :
    a.text < b.text ↔ 0 < lead a b := by
  by_cases hclock : a.clock = b.clock
  · obtain ⟨hpre, hpre'⟩ := h.resolve_left (not_not.mpr hclock)
    have hlead : lead a b = fraction b.decimals - fraction a.decimals := by
      unfold lead wallTime
      rw [hclock]
      ring
    rw [text_lt_iff, hclock, (suffixText_lt_iff_of_differ hpre hpre').1, hlead, sub_pos]
    simp
  · rw [text_lt_iff, lead_pos_iff_of_clock hclock]
    simp [hclock]

theorem text_lt_iff_of_clock {a b : IsoInstant} (h : a.clock = b.clock) :
    a.text < b.text ↔ a.suffixText < b.suffixText := by
  rw [text_lt_iff]
  simp [h]

/-- Of two equal wall clocks the one in the zone farther ahead is the earlier one. -/
theorem shift_lt_lead_iff_of_same {a b : IsoInstant} (hclock : a.clock = b.clock)
    (hdecimals : a.decimals = b.decimals) :
    shift a b < lead a b ↔ b.zone.seconds < a.zone.seconds := by
  have hlead : lead a b = 0 := by
    rw [lead, wallTime, wallTime, hclock, hdecimals, sub_self]
  rw [hlead, shift, sub_neg]
  exact_mod_cast Iff.rfl

/-- The exact condition under which the texts are in the order of the instants. -/
theorem text_lt_iff_instant_lt_iff (a b : IsoInstant) :
    (a.text < b.text ↔ a.instant < b.instant) ↔ SpelledInOrder a b := by
  rw [instant_lt_iff]
  have hdiffer : Differ a b → ((a.text < b.text ↔ shift a b < lead a b) ↔
      ¬ (0 < lead a b ∧ lead a b ≤ shift a b) ∧ ¬ (shift a b < lead a b ∧ lead a b ≤ 0)) := by
    intro hd
    rw [text_lt_iff_of_differ hd, ← not_lt, ← not_lt, not_and_not_right, not_and_not_right]
    exact iff_iff_implies_and_implies
  have hsame : a.clock = b.clock → a.decimals = b.decimals →
      ((a.text < b.text ↔ shift a b < lead a b) ↔ ZonesInOrder a.zone b.zone) := by
    intro hclock hdecimals
    rw [text_lt_iff_of_clock hclock, shift_lt_lead_iff_of_same hclock hdecimals, suffixText,
      suffixText, hdecimals, append_lt_append_iff]
    exact zonesInOrder_iff a.zone b.zone
  constructor
  · intro h
    refine ⟨fun hd => (hdiffer hd).mp h, ?_, ?_, fun hc hds => (hsame hc hds).mp h⟩
    · intro hclock hgo
      rwa [text_lt_iff_of_clock hclock, suffixText_lt_iff_of_goesOn hgo] at h
    · intro hclock hgo
      rwa [text_lt_iff_of_clock hclock, suffixText_lt_iff_of_goesOn' hgo] at h
  · intro h
    by_cases hd : Differ a b
    · exact (hdiffer hd).mpr (h.differ hd)
    · simp only [Differ, not_or, not_not, not_and] at hd
      obtain ⟨hclock, hpre⟩ := hd
      by_cases hdecimals : a.decimals = b.decimals
      · exact (hsame hclock hdecimals).mpr (h.same hclock hdecimals)
      · rw [text_lt_iff_of_clock hclock]
        by_cases hab : a.decimals <+: b.decimals
        · rw [suffixText_lt_iff_of_goesOn ⟨hab, hdecimals⟩]
          exact h.goesOn hclock ⟨hab, hdecimals⟩
        · rw [suffixText_lt_iff_of_goesOn' ⟨hpre hab, Ne.symm hdecimals⟩]
          exact h.goesOn' hclock ⟨hpre hab, Ne.symm hdecimals⟩

theorem fraction_le_append (ds es : List ℕ) : fraction ds ≤ fraction (ds ++ es) := by
  induction ds with
  | nil => exact fraction_nonneg es
  | cons d rest ih =>
    rw [List.cons_append, fraction, fraction]
    linarith

/-- Further decimals take a clock no farther back. -/
theorem wallTime_le_of_goesOn {a b : IsoInstant} (hclock : a.clock = b.clock)
    (hgo : GoesOn a.decimals b.decimals) : a.wallTime ≤ b.wallTime := by
  obtain ⟨⟨l, hl⟩, -⟩ := hgo
  have hfraction := fraction_le_append a.decimals l
  rw [hl] at hfraction
  rw [wallTime, wallTime, hclock]
  linarith

/-- Texts whose zone is the same number are in order, unless they differ in nothing but
zeros that the other text has at the end of its decimals. -/
theorem spelledInOrder_iff_of_ahead {a b : IsoInstant} {o : Offset} (ha : a.zone = .ahead o)
    (hb : b.zone = .ahead o) :
    SpelledInOrder a b ↔
      (a.clock = b.clock → GoesOn a.decimals b.decimals → a.instant ≠ b.instant) := by
  have hshift : shift a b = 0 := by rw [shift, ha, hb, sub_self]
  have hutc : ∀ {c : IsoInstant}, c.zone = .ahead o → c.zone ≠ .utc := by
    intro c hc
    simp [hc]
  constructor
  · intro h hclock hgo
    have hlt := (h.goesOn hclock hgo).mp (hutc ha)
    exact ((instant_lt_iff a b).mpr hlt).ne
  · intro h
    constructor
    · intro _
      rw [hshift]
      exact ⟨fun hlead => hlead.1.not_ge hlead.2, fun hlead => hlead.1.not_ge hlead.2⟩
    · intro hclock hgo
      have hle := wallTime_le_of_goesOn hclock hgo
      have hne := h hclock hgo
      rw [instant, instant, ha, hb, Ne, sub_left_inj] at hne
      rw [hshift, lead, sub_pos]
      exact iff_of_true (hutc ha) (lt_of_le_of_ne hle hne)
    · intro hclock hgo
      have hle := wallTime_le_of_goesOn hclock.symm hgo
      rw [hshift, lead, sub_pos]
      exact iff_of_false (hutc hb) hle.not_gt
    · intro _ _
      rw [ha, hb]
      exact rfl

end IsoInstant

end TradeStream.IsoText
