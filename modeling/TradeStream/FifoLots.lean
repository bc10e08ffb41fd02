import Mathlib

/-! Lots that are used up first in, first out: what an amount of them costs, and what is left. -/
namespace TradeStream.FifoLots

structure Lot (K : Type*) where
  quantity : K
  price : K

variable {K : Type*} [Field K]

def total (lots : List (Lot K)) : K := (lots.map Lot.quantity).sum

theorem total_cons (lot : Lot K) (lots : List (Lot K)) :
    total (lot :: lots) = lot.quantity + total lots := by
  rw [total, List.map_cons, List.sum_cons, total]

variable [LinearOrder K]

/-- The price of the oldest units. -/
def cost (amount : K) : List (Lot K) → K
  | [] => 0
  | lot :: more =>
    if amount ≤ lot.quantity then amount * lot.price
    else lot.quantity * lot.price + cost (amount - lot.quantity) more

/-- The lots without the oldest units. -/
def rest (amount : K) : List (Lot K) → List (Lot K)
  | [] => []
  | lot :: more =>
    if amount < lot.quantity then { lot with quantity := lot.quantity - amount } :: more
    else rest (amount - lot.quantity) more

/-- Every lot has units left. -/
def Stocked (lots : List (Lot K)) : Prop := ∀ lot ∈ lots, 0 < lot.quantity

section
variable {lot : Lot K} {lots more : List (Lot K)} {a b : K}

theorem Stocked.head (h : Stocked (lot :: lots)) : 0 < lot.quantity := h lot List.mem_cons_self

theorem Stocked.tail (h : Stocked (lot :: lots)) : Stocked lots :=
  fun other hother => h other (List.mem_cons_of_mem lot hother)

theorem cost_zero (h : Stocked lots) : cost 0 lots = 0 := by
  cases lots with
  | nil => rfl
  | cons lot lots => rw [cost, if_pos h.head.le, zero_mul]

theorem rest_zero (h : Stocked lots) : rest 0 lots = lots := by
  cases lots with
  | nil => rfl
  | cons lot lots => rw [rest, if_pos h.head, sub_zero]

theorem cost_cons_of_lt (h : a < lot.quantity) : cost a (lot :: lots) = a * lot.price := by
  rw [cost, if_pos h.le]

theorem rest_cons_of_lt (h : a < lot.quantity) :
    rest a (lot :: lots) = { lot with quantity := lot.quantity - a } :: lots := by
  rw [rest, if_pos h]

theorem rest_cons_of_le (h : lot.quantity ≤ a) :
    rest a (lot :: lots) = rest (a - lot.quantity) lots := by
  rw [rest, if_neg (not_lt.mpr h)]

theorem cost_cons_of_le (hstocked : Stocked lots) (h : lot.quantity ≤ a) :
    cost a (lot :: lots) = lot.quantity * lot.price + cost (a - lot.quantity) lots := by
  rcases h.eq_or_lt with rfl | hlt
  · rw [cost, if_pos le_rfl, sub_self, cost_zero hstocked, add_zero]
  · rw [cost, if_neg (not_le.mpr hlt)]

variable [IsStrictOrderedRing K]

theorem total_nonneg (h : Stocked lots) : 0 ≤ total lots := by
  induction lots with
  | nil => exact le_rfl
  | cons lot lots ih =>
    rw [total_cons]
    exact add_nonneg h.head.le (ih h.tail)

theorem Stocked.rest (h : Stocked lots) (a : K) : Stocked (rest a lots) := by
  induction lots generalizing a with
  | nil => exact h
  | cons lot lots ih =>
    rcases lt_or_ge a lot.quantity with hlt | hle
    · rw [rest_cons_of_lt hlt]
      intro other hother
      rcases List.mem_cons.mp hother with rfl | hmem
      · exact sub_pos.mpr hlt
      · exact h.tail other hmem
    · rw [rest_cons_of_le hle]
      exact ih h.tail _

/-- Two amounts one after the other cost what they cost together. -/
theorem cost_add (h : Stocked lots) (hb : 0 ≤ b) (a : K) :
    cost (a + b) lots = cost a lots + cost b (rest a lots) := by
  induction lots generalizing a with
  | nil => exact (add_zero 0).symm
  | cons lot lots ih =>
    rcases lt_or_ge a lot.quantity with hlt | hle
    · rw [cost_cons_of_lt hlt, rest_cons_of_lt hlt]
      rcases lt_or_ge (a + b) lot.quantity with hsum | hsum
      · have hleft : b < lot.quantity - a := lt_sub_iff_add_lt'.mpr hsum
        rw [cost_cons_of_lt hsum, cost, if_pos hleft.le, add_mul]
      · have hleft : lot.quantity - a ≤ b := sub_le_iff_le_add'.mpr hsum
        have hcost : cost b ({ lot with quantity := lot.quantity - a } :: lots) = _ :=
          cost_cons_of_le h.tail hleft
        rw [cost_cons_of_le h.tail hsum, hcost, sub_sub_eq_add_sub, add_comm b a]
        ring
    · have hsum : lot.quantity ≤ a + b := hle.trans (le_add_of_nonneg_right hb)
      rw [cost_cons_of_le h.tail hle, rest_cons_of_le hle, cost_cons_of_le h.tail hsum,
        add_sub_right_comm, ih h.tail, add_assoc]

theorem rest_add (hb : 0 ≤ b) (a : K) (lots : List (Lot K)) :
    rest (a + b) lots = rest b (rest a lots) := by
  induction lots generalizing a with
  | nil => rfl
  | cons lot lots ih =>
    rcases lt_or_ge a lot.quantity with hlt | hle
    · rw [rest_cons_of_lt hlt]
      rcases lt_or_ge (a + b) lot.quantity with hsum | hsum
      · have hleft : b < lot.quantity - a := lt_sub_iff_add_lt'.mpr hsum
        rw [rest_cons_of_lt hsum, rest, if_pos hleft, sub_sub]
      · have hleft : ¬ b < lot.quantity - a := not_lt.mpr (sub_le_iff_le_add'.mpr hsum)
        rw [rest_cons_of_le hsum, rest, if_neg hleft, sub_sub_eq_add_sub, add_comm b a]
    · have hsum : lot.quantity ≤ a + b := hle.trans (le_add_of_nonneg_right hb)
      rw [rest_cons_of_le hle, rest_cons_of_le hsum, add_sub_right_comm, ih]

/-- Younger lots do not count while the older ones last. -/
theorem cost_append (h : Stocked (lots ++ more)) (hnonneg : 0 ≤ a) (ha : a ≤ total lots) :
    cost a (lots ++ more) = cost a lots := by
  induction lots generalizing a with
  | nil =>
    have hzero : a = 0 := le_antisymm ha hnonneg
    rw [List.nil_append] at h ⊢
    rw [hzero, cost_zero h]
    rfl
  | cons lot lots ih =>
    rw [total_cons] at ha
    rw [List.cons_append] at h ⊢
    rcases lt_or_ge a lot.quantity with hlt | hle
    · rw [cost_cons_of_lt hlt, cost_cons_of_lt hlt]
    · have hlots : Stocked lots := fun other hother =>
        h.tail other (List.mem_append_left more hother)
      rw [cost_cons_of_le h.tail hle, cost_cons_of_le hlots hle,
        ih h.tail (sub_nonneg.mpr hle) (sub_le_iff_le_add'.mpr ha)]

theorem rest_append (h : Stocked (lots ++ more)) (hnonneg : 0 ≤ a) (ha : a ≤ total lots) :
    rest a (lots ++ more) = rest a lots ++ more := by
  induction lots generalizing a with
  | nil =>
    have hzero : a = 0 := le_antisymm ha hnonneg
    rw [List.nil_append] at h ⊢
    rw [hzero, rest_zero h]
    rfl
  | cons lot lots ih =>
    rw [total_cons] at ha
    rw [List.cons_append] at h ⊢
    rcases lt_or_ge a lot.quantity with hlt | hle
    · rw [rest_cons_of_lt hlt, rest_cons_of_lt hlt, List.cons_append]
    · rw [rest_cons_of_le hle, rest_cons_of_le hle,
        ih h.tail (sub_nonneg.mpr hle) (sub_le_iff_le_add'.mpr ha)]

/-- All units of the first lots, and some more of those after them. -/
theorem cost_total_add (h : Stocked (lots ++ more)) (hnonneg : 0 ≤ a) :
    cost (total lots + a) (lots ++ more) =
      (lots.map fun lot => lot.quantity * lot.price).sum + cost a more := by
  induction lots with
  | nil => simp [total]
  | cons lot lots ih =>
    rw [List.cons_append] at h ⊢
    have hlots : Stocked lots := fun other hother =>
      h.tail other (List.mem_append_left more hother)
    have hle : lot.quantity ≤ total (lot :: lots) + a := by
      rw [total_cons, add_assoc]
      exact le_add_of_nonneg_right (add_nonneg (total_nonneg hlots) hnonneg)
    rw [cost_cons_of_le h.tail hle, total_cons, add_assoc, add_sub_cancel_left, ih h.tail,
      List.map_cons, List.sum_cons, add_assoc]

end

end TradeStream.FifoLots
