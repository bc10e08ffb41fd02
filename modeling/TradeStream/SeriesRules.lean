import Mathlib

/-! Rules on value series: one series beyond another, crossings, and moves. A rule names
its series; a valuation gives their values at every bar. -/
namespace TradeStream.SeriesRules

variable {ι D : Type*} [LinearOrder D]

inductive Side where
  | above
  | below
  deriving DecidableEq, Repr

namespace Side

def other : Side → Side
  | above => below
  | below => above

def Beyond : Side → D → D → Prop
  | above, x, y => y < x
  | below, x, y => x < y

instance (side : Side) (x y : D) : Decidable (side.Beyond x y) :=
  match side with
  | above => inferInstanceAs (Decidable (y < x))
  | below => inferInstanceAs (Decidable (x < y))

@[simp] theorem other_other (side : Side) : side.other.other = side := by
  cases side <;> rfl

theorem other_beyond {side : Side} {x y : D} : side.other.Beyond x y ↔ side.Beyond y x := by
  cases side <;> rfl

theorem not_beyond_self (side : Side) (x : D) : ¬ side.Beyond x x := by
  cases side <;> exact lt_irrefl x

theorem Beyond.not_other {side : Side} {x y : D} (h : side.Beyond x y) :
    ¬ side.other.Beyond x y := by
  cases side <;> exact lt_asymm h

theorem Beyond.trans {side : Side} {x y z : D} (h : side.Beyond x y) (h' : side.Beyond y z) :
    side.Beyond x z := by
  cases side with
  | above => exact lt_trans h' h
  | below => exact lt_trans h h'

theorem eq_or_other_beyond {side : Side} {x y : D} (h : ¬ side.Beyond x y) :
    x = y ∨ side.other.Beyond x y := by
  cases side with
  | above => exact (not_lt.mp h).eq_or_lt
  | below => exact (not_lt.mp h).eq_or_lt.imp_left Eq.symm

theorem exists_beyond [NoMaxOrder D] [NoMinOrder D] (side : Side) (x : D) :
    ∃ y, side.Beyond y x := by
  cases side with
  | above => exact exists_gt x
  | below => exact exists_lt x

end Side

/-! ### Crossings -/

/-- Beyond now, and on the other side at the last bar before where the two differed. -/
def CrossedFrom (side : Side) (a b : ℕ → D) (t : ℕ) : Prop :=
  side.Beyond (a t) (b t) ∧
    ∃ s < t, side.other.Beyond (a s) (b s) ∧ ∀ r, s < r → r < t → a r = b r

/-- Beyond now, and not at the bar before. -/
def CrossedSince (side : Side) (a b : ℕ → D) : ℕ → Prop
  | 0 => False
  | t + 1 => ¬ side.Beyond (a t) (b t) ∧ side.Beyond (a (t + 1)) (b (t + 1))

instance (side : Side) (a b : ℕ → D) (t : ℕ) : Decidable (CrossedSince side a b t) :=
  match t with
  | 0 => inferInstanceAs (Decidable False)
  | _ + 1 => inferInstanceAs (Decidable (_ ∧ _))

/-- Where the two part after a stretch of equal values, the one was on the other side
before it. -/
def PassesThrough (side : Side) (a b : ℕ → D) : Prop :=
  ∀ t, a t = b t → side.Beyond (a (t + 1)) (b (t + 1)) →
    ∃ s < t, side.other.Beyond (a s) (b s) ∧ ∀ r, s < r → r < t → a r = b r

theorem CrossedFrom.crossedSince {side : Side} {a b : ℕ → D} {t : ℕ}
    (h : CrossedFrom side a b t) : CrossedSince side a b t := by
  obtain ⟨hnow, s, hs, hother, htie⟩ := h
  cases t with
  | zero => exact absurd hs (Nat.not_lt_zero s)
  | succ t =>
    refine ⟨?_, hnow⟩
    rcases (Nat.le_of_lt_succ hs).eq_or_lt with rfl | hlt
    · simpa using hother.not_other
    · rw [htie t hlt (Nat.lt_succ_self t)]
      exact side.not_beyond_self (b t)

/-- The two readings of a crossing are the same exactly if no tie is left on the side
that it was entered from. -/
theorem crossedSince_iff_crossedFrom {side : Side} {a b : ℕ → D} :
    (∀ t, CrossedSince side a b t ↔ CrossedFrom side a b t) ↔ PassesThrough side a b := by
  constructor
  · intro hiff t htie hnow
    -- out of a tie the last bar alone tells a crossing, whatever was before
    have hsince : CrossedSince side a b (t + 1) := by
      refine ⟨?_, hnow⟩
      rw [htie]
      exact side.not_beyond_self (b t)
    obtain ⟨-, s, hs, hother, hties⟩ := (hiff (t + 1)).mp hsince
    have hne : s ≠ t := by
      rintro rfl
      rw [htie] at hother
      exact side.other.not_beyond_self (b s) hother
    exact ⟨s, by omega, hother, fun r hsr hrt => hties r hsr (by omega)⟩
  · intro hpass t
    -- a crossing from anywhere is one since the bar before
    refine ⟨?_, CrossedFrom.crossedSince⟩
    intro hsince
    cases t with
    | zero => exact absurd hsince id
    | succ t =>
      obtain ⟨hbefore, hnow⟩ := hsince
      refine ⟨hnow, ?_⟩
      rcases Side.eq_or_other_beyond hbefore with htie | hother
      · obtain ⟨s, hs, hother, hties⟩ := hpass t htie hnow
        refine ⟨s, by omega, hother, ?_⟩
        intro r hsr hrt
        rcases (Nat.le_of_lt_succ hrt).eq_or_lt with rfl | hlt
        · exact htie
        · exact hties r hsr hlt
      · exact ⟨t, Nat.lt_succ_self t, hother, fun r hsr hrt => by omega⟩

/-! ### Moves -/

/-- The series moved to the side at each of the last `bars` bars. -/
def Moved (side : Side) (bars : ℤ) (a : ℕ → D) (t : ℕ) : Prop :=
  0 < bars ∧ bars ≤ t ∧ ∀ i < bars.toNat, side.Beyond (a (t - i)) (a (t - i - 1))

instance (side : Side) (bars : ℤ) (a : ℕ → D) (t : ℕ) : Decidable (Moved side bars a t) :=
  inferInstanceAs (Decidable (_ ∧ _ ∧ _))

/-! ### Rules -/

/-- What a series is held against. -/
inductive Operand (ι D : Type*) where
  | indicator (i : ι)
  | constant (x : D)
  deriving DecidableEq

inductive Rule (ι D : Type*) where
  | never
  | compares (side : Side) (left : ι) (right : Operand ι D)
  | crosses (side : Side) (left : ι) (right : Operand ι D)
  | moves (side : Side) (left : ι) (bars : ℤ)
  deriving DecidableEq

def Operand.value (v : ι → D) : Operand ι D → D
  | indicator i => v i
  | constant x => x

def Operand.values (v : ι → ℕ → D) (operand : Operand ι D) (t : ℕ) : D :=
  operand.value fun i => v i t

/-- Whether the rule holds at a bar, for a given reading of crossings. -/
def Rule.Holds (crossed : Side → (ℕ → D) → (ℕ → D) → ℕ → Prop) (v : ι → ℕ → D) :
    Rule ι D → ℕ → Prop
  | never, _ => False
  | compares side left right, t => side.Beyond (v left t) (right.values v t)
  | crosses side left right, t => crossed side (v left) (right.values v) t
  | moves side left bars, t => Moved side bars (v left) t

instance (v : ι → ℕ → D) (rule : Rule ι D) (t : ℕ) :
    Decidable (rule.Holds CrossedSince v t) :=
  match rule with
  | .never => inferInstanceAs (Decidable False)
  | .compares side left right =>
    inferInstanceAs (Decidable (side.Beyond (v left t) (right.values v t)))
  | .crosses side left right =>
    inferInstanceAs (Decidable (CrossedSince side (v left) (right.values v) t))
  | .moves side left bars => inferInstanceAs (Decidable (Moved side bars (v left) t))

/-- The rule can hold at no bar. -/
def Rule.Idle : Rule ι D → Prop
  | never => True
  | compares _ left right => right = .indicator left
  | crosses _ left right => right = .indicator left
  | moves _ _ bars => bars ≤ 0

/-- Under this valuation the two readings of crossings say the same of the rule. -/
def Rule.PassesThrough (v : ι → ℕ → D) : Rule ι D → Prop
  | crosses side left right => SeriesRules.PassesThrough side (v left) (right.values v)
  | _ => True

theorem Rule.holds_iff {v : ι → ℕ → D} {rule : Rule ι D} :
    (∀ t, rule.Holds CrossedSince v t ↔ rule.Holds CrossedFrom v t) ↔
      rule.PassesThrough v := by
  cases rule with
  | never => exact iff_of_true (fun _ => Iff.rfl) trivial
  | compares side left right => exact iff_of_true (fun _ => Iff.rfl) trivial
  | crosses side left right => exact crossedSince_iff_crossedFrom
  | moves side left bars => exact iff_of_true (fun _ => Iff.rfl) trivial

theorem Rule.Idle.not_holds {rule : Rule ι D} (h : rule.Idle) (v : ι → ℕ → D) (t : ℕ) :
    ¬ rule.Holds CrossedSince v t := by
  cases rule with
  | never => exact id
  | compares side left right =>
    obtain rfl : right = .indicator left := h
    exact side.not_beyond_self _
  | crosses side left right =>
    obtain rfl : right = .indicator left := h
    cases t with
    | zero => exact id
    | succ t => exact fun hcross => side.not_beyond_self _ hcross.2
  | moves side left bars => exact fun hmoved => absurd hmoved.1 (not_lt.mpr h)

theorem Rule.Idle.passesThrough {rule : Rule ι D} (h : rule.Idle) (v : ι → ℕ → D) :
    rule.PassesThrough v := by
  cases rule with
  | crosses side left right =>
    obtain rfl : right = .indicator left := h
    exact fun t _ hnow => absurd hnow (side.not_beyond_self _)
  | _ => trivial

/-- Series that never change leave no tie. -/
theorem Rule.passesThrough_of_constant (v : ι → D) (rule : Rule ι D) :
    rule.PassesThrough fun i _ => v i := by
  cases rule with
  | crosses side left right =>
    intro t htie hnow
    have htie : v left = right.value v := htie
    have hnow : side.Beyond (v left) (right.value v) := hnow
    rw [htie] at hnow
    exact absurd hnow (side.not_beyond_self _)
  | _ => trivial

theorem Rule.Idle.not_holds_crossedFrom {rule : Rule ι D} (h : rule.Idle) (v : ι → ℕ → D)
    (t : ℕ) : ¬ rule.Holds CrossedFrom v t := by
  intro hholds
  apply h.not_holds v t
  cases rule with
  | crosses side left right => exact CrossedFrom.crossedSince hholds
  | _ => exact hholds

/-- The rules say the same: they are one rule, or neither ever holds. -/
def Rule.Alike (rule rule' : Rule ι D) : Prop := rule = rule' ∨ rule.Idle ∧ rule'.Idle

/-- The rules test the same of one series, if they test anything. -/
inductive Rule.SameTest : Rule ι D → Rule ι D → Prop
  | never_left (rule : Rule ι D) : SameTest never rule
  | never_right (rule : Rule ι D) : SameTest rule never
  | compares (side : Side) (left : ι) (right right' : Operand ι D) :
    SameTest (compares side left right) (compares side left right')
  | crosses (side : Side) (left : ι) (right right' : Operand ι D) :
    SameTest (crosses side left right) (crosses side left right')
  | moves (side : Side) (left : ι) (bars bars' : ℤ) :
    SameTest (moves side left bars) (moves side left bars')

/-- What a rule tests. -/
inductive RuleTest where
  | compares (side : Side)
  | crosses (side : Side)
  | moves (side : Side)

inductive RuleTest.Tests (left : ι) : RuleTest → Rule ι D → Prop
  | compares (side : Side) (right : Operand ι D) :
    Tests left (.compares side) (.compares side left right)
  | crosses (side : Side) (right : Operand ι D) :
    Tests left (.crosses side) (.crosses side left right)
  | moves (side : Side) (bars : ℤ) : Tests left (.moves side) (.moves side left bars)

omit [LinearOrder D] in
theorem RuleTest.Tests.sameTest {test : RuleTest} {left : ι} {rule rule' : Rule ι D}
    (h : test.Tests left rule) (h' : test.Tests left rule') : rule.SameTest rule' := by
  cases h with
  | compares side right =>
    cases h' with
    | compares _ right' => exact .compares side left right right'
  | crosses side right =>
    cases h' with
    | crosses _ right' => exact .crosses side left right right'
  | moves side bars =>
    cases h' with
    | moves _ bars' => exact .moves side left bars bars'

/-! ### Series that tell rules apart -/

/-- Some values at the first bar, others at all that follow. -/
def phases (first later : ι → D) (i : ι) (t : ℕ) : D := if t = 0 then first i else later i

section Phases
variable {side : Side} {left : ι} {right : Operand ι D} {first later : ι → D}

omit [LinearOrder D] in
theorem values_phases (operand : Operand ι D) (t : ℕ) :
    operand.values (phases first later) t =
      if t = 0 then operand.value first else operand.value later := by
  cases operand with
  | indicator i => rfl
  | constant x => simp [Operand.values, Operand.value]

theorem passesThrough_phases (h : side.other.Beyond (first left) (right.value first)) :
    PassesThrough side (phases first later left) (right.values (phases first later)) := by
  intro t htie hnow
  cases t with
  | zero =>
    rw [values_phases] at htie
    simp only [phases, if_true] at htie
    rw [htie] at h
    exact absurd h (side.other.not_beyond_self _)
  | succ t =>
    rw [values_phases] at htie hnow
    simp only [phases, Nat.succ_ne_zero, if_false] at htie hnow
    rw [htie] at hnow
    exact absurd hnow (side.not_beyond_self _)

theorem crossedSince_phases_iff (h : side.other.Beyond (first left) (right.value first)) :
    CrossedSince side (phases first later left) (right.values (phases first later)) 1 ↔
      side.Beyond (later left) (right.value later) := by
  have hfirst : ¬ side.Beyond (first left) (right.value first) := by
    simpa using h.not_other
  rw [show (1 : ℕ) = 0 + 1 from rfl, CrossedSince, values_phases, values_phases]
  simp only [phases, if_true, Nat.succ_ne_zero, if_false, hfirst, not_false_eq_true, true_and]

theorem compares_phases_iff :
    side.Beyond (phases first later left 1) (right.values (phases first later) 1) ↔
      side.Beyond (later left) (right.value later) := by
  rw [values_phases]
  rfl

end Phases

section Separate
variable [NoMaxOrder D] [NoMinOrder D]

/-- Values on the one side of the operand. -/
theorem exists_value_beyond [Nonempty D] (side : Side) {left : ι} {right : Operand ι D}
    (h : right ≠ .indicator left) : ∃ v : ι → D, side.Beyond (v left) (right.value v) := by
  classical
  cases right with
  | indicator j =>
    have hne : j ≠ left := fun heq => h (by rw [heq])
    obtain ⟨x⟩ := ‹Nonempty D›
    obtain ⟨y, hy⟩ := side.exists_beyond x
    refine ⟨Function.update (fun _ => x) left y, ?_⟩
    simpa [Operand.value, hne] using hy
  | constant x =>
    obtain ⟨y, hy⟩ := side.exists_beyond x
    exact ⟨fun _ => y, hy⟩

/-- Values on the other side of both operands, and values on the one side of only one. -/
def ToldApart (side : Side) (left : ι) (right right' : Operand ι D) : Prop :=
  ∃ first later : ι → D, side.other.Beyond (first left) (right.value first) ∧
    side.other.Beyond (first left) (right'.value first) ∧
    ¬ (side.Beyond (later left) (right.value later) ↔
      side.Beyond (later left) (right'.value later))

omit [NoMaxOrder D] [NoMinOrder D] in
theorem ToldApart.symm {side : Side} {left : ι} {right right' : Operand ι D}
    (h : ToldApart side left right right') : ToldApart side left right' right := by
  obtain ⟨first, later, hfirst, hfirst', hlater⟩ := h
  exact ⟨first, later, hfirst', hfirst, fun hiff => hlater hiff.symm⟩

theorem toldApart_indicators [Nonempty D] (side : Side) {left j j' : ι} (hj : j ≠ left)
    (hj' : j' ≠ left) (hne : j ≠ j') :
    ToldApart side left (.indicator j) (.indicator j' : Operand ι D) := by
  classical
  obtain ⟨x⟩ := ‹Nonempty D›
  obtain ⟨y, hy⟩ := side.exists_beyond x
  refine ⟨fun i => if i = left then x else y, fun i => if i = j then x else y, ?_, ?_, ?_⟩
  · simpa [Operand.value, hj, Side.other_beyond] using hy
  · simpa [Operand.value, hj', Side.other_beyond] using hy
  · simpa [Operand.value, hj.symm, hne.symm, side.not_beyond_self] using hy

theorem toldApart_constant (side : Side) {left j : ι} (hj : j ≠ left) (x : D) :
    ToldApart side left (.indicator j) (.constant x) := by
  classical
  obtain ⟨z, hz⟩ := side.other.exists_beyond x
  refine ⟨fun i => if i = j then x else z, fun i => if i = j then z else x, ?_, ?_, ?_⟩
  · simpa [Operand.value, hj.symm] using hz
  · simpa [Operand.value, hj.symm] using hz
  · rw [Side.other_beyond] at hz
    simpa [Operand.value, hj.symm, side.not_beyond_self] using hz

theorem toldApart_constants_of_beyond {side : Side} (left : ι) {x y : D}
    (h : side.Beyond y x) : ToldApart side left (.constant x) (.constant y) := by
  obtain ⟨z, hz⟩ := side.other.exists_beyond x
  refine ⟨fun _ => z, fun _ => y, hz, ?_, ?_⟩
  · exact hz.trans (Side.other_beyond.mpr h)
  · simpa [Operand.value, side.not_beyond_self] using h

theorem toldApart_of_ne [Nonempty D] (side : Side) {left : ι} {right right' : Operand ι D}
    (h : right ≠ .indicator left) (h' : right' ≠ .indicator left) (hne : right ≠ right') :
    ToldApart side left right right' := by
  cases right with
  | indicator j =>
    have hj : j ≠ left := fun heq => h (by rw [heq])
    cases right' with
    | indicator j' =>
      exact toldApart_indicators side hj (fun heq => h' (by rw [heq])) fun heq =>
        hne (by rw [heq])
    | constant x => exact toldApart_constant side hj x
  | constant x =>
    cases right' with
    | indicator j' => exact (toldApart_constant side (fun heq => h' (by rw [heq])) x).symm
    | constant y =>
      by_cases hbeyond : side.Beyond y x
      · exact toldApart_constants_of_beyond left hbeyond
      · rcases Side.eq_or_other_beyond hbeyond with heq | hother
        · exact absurd (by rw [heq]) hne
        · exact (toldApart_constants_of_beyond left (Side.other_beyond.mp hother)).symm

/-- A series that moves to the side at every bar. -/
theorem exists_moving [Nonempty D] (side : Side) :
    ∃ a : ℕ → D, ∀ t, side.Beyond (a (t + 1)) (a t) := by
  cases side with
  | above =>
    obtain ⟨a, ha⟩ := Nat.exists_strictMono D
    exact ⟨a, fun t => ha (Nat.lt_succ_self t)⟩
  | below =>
    obtain ⟨a, ha⟩ := Nat.exists_strictAnti D
    exact ⟨a, fun t => ha (Nat.lt_succ_self t)⟩

omit [NoMaxOrder D] [NoMinOrder D] in
theorem moved_iff_of_moving {side : Side} {a : ℕ → D}
    (h : ∀ t, side.Beyond (a (t + 1)) (a t)) (bars : ℤ) (t : ℕ) :
    Moved side bars a t ↔ 0 < bars ∧ bars ≤ t := by
  refine ⟨fun hmoved => ⟨hmoved.1, hmoved.2.1⟩, ?_⟩
  rintro ⟨hpos, hle⟩
  refine ⟨hpos, hle, ?_⟩
  intro i hi
  have hstep := h (t - i - 1)
  rwa [show t - i - 1 + 1 = t - i by omega] at hstep

/-- Under the valuation no crossing depends on how it is read, and the rules differ past
the first bar. -/
def Separates (v : ι → ℕ → D) (rule rule' : Rule ι D) : Prop :=
  rule.PassesThrough v ∧ rule'.PassesThrough v ∧
    ∃ t, 0 < t ∧ ¬ (rule.Holds CrossedSince v t ↔ rule'.Holds CrossedSince v t)

omit [NoMaxOrder D] [NoMinOrder D] in
theorem Separates.symm {v : ι → ℕ → D} {rule rule' : Rule ι D} (h : Separates v rule rule') :
    Separates v rule' rule := by
  obtain ⟨hpass, hpass', t, ht, hne⟩ := h
  exact ⟨hpass', hpass, t, ht, fun hiff => hne hiff.symm⟩

/-- A rule that can hold holds somewhere, where an idle one does not. -/
theorem exists_separates_idle [Nonempty D] {rule rule' : Rule ι D} (h : ¬ rule.Idle)
    (h' : rule'.Idle) : ∃ v : ι → ℕ → D, Separates v rule rule' := by
  suffices hholds : ∃ v : ι → ℕ → D, rule.PassesThrough v ∧
      ∃ t, 0 < t ∧ rule.Holds CrossedSince v t by
    obtain ⟨v, hpass, t, ht, hrule⟩ := hholds
    exact ⟨v, hpass, h'.passesThrough v, t, ht, fun hiff => h'.not_holds v t (hiff.mp hrule)⟩
  cases rule with
  | never => exact absurd trivial h
  | compares side left right =>
    obtain ⟨later, hlater⟩ := exists_value_beyond side h
    exact ⟨phases later later, trivial, 1, one_pos, compares_phases_iff.mpr hlater⟩
  | crosses side left right =>
    obtain ⟨first, hfirst⟩ := exists_value_beyond side.other h
    obtain ⟨later, hlater⟩ := exists_value_beyond side h
    exact ⟨phases first later, passesThrough_phases hfirst, 1, one_pos,
      (crossedSince_phases_iff hfirst).mpr hlater⟩
  | moves side left bars =>
    obtain ⟨a, ha⟩ := exists_moving (D := D) side
    have hbars : 0 < bars := not_le.mp h
    refine ⟨fun _ => a, trivial, bars.toNat, by omega, ?_⟩
    exact (moved_iff_of_moving ha bars _).mpr ⟨hbars, by omega⟩

theorem exists_separates [Nonempty D] {rule rule' : Rule ι D} (hsame : rule.SameTest rule')
    (h : ¬ rule.Alike rule') : ∃ v : ι → ℕ → D, Separates v rule rule' := by
  have hne : rule ≠ rule' := fun heq => h (.inl heq)
  -- an idle rule is told from the other by any series on which that one holds
  by_cases hidle : rule.Idle
  · obtain ⟨v, hv⟩ := exists_separates_idle (fun hidle' => h (.inr ⟨hidle, hidle'⟩)) hidle
    exact ⟨v, hv.symm⟩
  by_cases hidle' : rule'.Idle
  · exact exists_separates_idle hidle hidle'
  cases hsame with
  | never_left => exact absurd trivial hidle
  | never_right => exact absurd trivial hidle'
  | compares side left right right' =>
    obtain ⟨first, later, -, -, hlater⟩ := toldApart_of_ne side hidle hidle' fun heq =>
      hne (by rw [heq])
    refine ⟨phases first later, trivial, trivial, 1, one_pos, ?_⟩
    simpa only [Rule.Holds, compares_phases_iff] using hlater
  | crosses side left right right' =>
    obtain ⟨first, later, hfirst, hfirst', hlater⟩ := toldApart_of_ne side hidle hidle'
      fun heq => hne (by rw [heq])
    refine ⟨phases first later, passesThrough_phases hfirst, passesThrough_phases hfirst', 1,
      one_pos, ?_⟩
    simpa only [Rule.Holds, crossedSince_phases_iff hfirst, crossedSince_phases_iff hfirst']
      using hlater
  | moves side left bars bars' =>
    -- a series that always moves tells the bar counts apart at the smaller one
    obtain ⟨a, ha⟩ := exists_moving (D := D) side
    have hbars : 0 < bars := not_le.mp hidle
    have hbars' : 0 < bars' := not_le.mp hidle'
    have hdiffer : bars ≠ bars' := fun heq => hne (by rw [heq])
    refine ⟨fun _ => a, trivial, trivial, (min bars bars').toNat, by omega, ?_⟩
    simp only [Rule.Holds, moved_iff_of_moving ha]
    omega

/-- Two rules of one test agree wherever it does not matter how crossings are read
exactly if they are alike. -/
theorem alike_iff [Nonempty D] {rule rule' : Rule ι D} (hsame : rule.SameTest rule') :
    (∀ v, rule.PassesThrough v →
        ∀ t, rule'.Holds CrossedSince v t ↔ rule.Holds CrossedFrom v t) ↔
      rule.Alike rule' := by
  constructor
  · intro hagree
    by_contra halike
    obtain ⟨v, hpass, -, t, -, hne⟩ := exists_separates hsame halike
    exact hne ((Rule.holds_iff.mpr hpass t).trans (hagree v hpass t).symm)
  · rintro (rfl | ⟨hidle, hidle'⟩) v hpass t
    · exact Rule.holds_iff.mpr hpass t
    · exact iff_of_false (hidle'.not_holds v t) (hidle.not_holds_crossedFrom v t)

omit [NoMaxOrder D] [NoMinOrder D] in
theorem Rule.Alike.holds_iff_holds {rule rule' : Rule ι D} (h : rule.Alike rule')
    (v : ι → ℕ → D) (t : ℕ) :
    rule.Holds CrossedSince v t ↔ rule'.Holds CrossedSince v t := by
  rcases h with rfl | ⟨hidle, hidle'⟩
  · exact Iff.rfl
  · exact iff_of_false (hidle.not_holds v t) (hidle'.not_holds v t)

/-- Two rules of one test hold at the same bars past the first exactly if they are alike. -/
theorem alike_iff_holds [Nonempty D] {rule rule' : Rule ι D} (hsame : rule.SameTest rule') :
    (∀ v t, 0 < t → (rule.Holds CrossedSince v t ↔ rule'.Holds CrossedSince v t)) ↔
      rule.Alike rule' := by
  constructor
  · intro hagree
    by_contra halike
    obtain ⟨v, -, -, t, ht, hne⟩ := exists_separates hsame halike
    exact hne (hagree v t ht)
  · intro halike v t _
    exact halike.holds_iff_holds v t

end Separate

/-- For two alike rules the readings of a crossing are all that matters. -/
theorem Rule.Alike.holds_iff {rule rule' : Rule ι D} (h : rule.Alike rule')
    (v : ι → ℕ → D) :
    (∀ t, rule'.Holds CrossedSince v t ↔ rule.Holds CrossedFrom v t) ↔
      rule.PassesThrough v := by
  rcases h with rfl | ⟨hidle, hidle'⟩
  · exact Rule.holds_iff
  · refine iff_of_true ?_ (hidle.passesThrough v)
    intro t
    exact iff_of_false (hidle'.not_holds v t) (hidle.not_holds_crossedFrom v t)

end TradeStream.SeriesRules
