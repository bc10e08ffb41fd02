import Mathlib

/-! A counter of requests with windows of a fixed length: the first request after a window has
passed starts the next. -/
namespace TradeStream.FixedWindow
open scoped List

variable {T : Type*}

structure Window (T : Type*) where
  start : T
  count : ℕ

variable [AddCommGroup T] [LinearOrder T]

/-- The window of a request at `now`, before it is counted. -/
def Window.current (length : T) (w : Window T) (now : T) : Window T :=
  if length ≤ now - w.start then ⟨now, 0⟩ else w

def Window.request (length : T) (w : Window T) (now : T) : Window T :=
  ⟨(w.current length now).start, (w.current length now).count + 1⟩

def Window.admits (length : T) (max : ℕ) (w : Window T) (now : T) : Bool :=
  (w.current length now).count + 1 ≤ max

variable (length : T) (max : ℕ)

/-- The times of the requests that are admitted. -/
def admittedTimes : Window T → List T → List T
  | _, [] => []
  | w, now :: times =>
    if w.admits length max now then now :: admittedTimes (w.request length now) times
    else admittedTimes (w.request length now) times

variable {length max} in
theorem mem_of_mem_admittedTimes {w : Window T} {times : List T} {t : T}
    (h : t ∈ admittedTimes length max w times) : t ∈ times := by
  induction times generalizing w with
  | nil => exact h
  | cons now times ih =>
    rw [admittedTimes] at h
    split_ifs at h
    · rcases List.mem_cons.mp h with rfl | hmem
      · exact List.mem_cons_self
      · exact List.mem_cons_of_mem now (ih hmem)
    · exact List.mem_cons_of_mem now (ih h)

theorem countP_admittedTimes_cons_le (p : T → Bool) (w : Window T) (now : T) (times : List T) :
    (admittedTimes length max w (now :: times)).countP p ≤
      (if w.admits length max now then 1 else 0) +
        (admittedTimes length max (w.request length now) times).countP p := by
  rw [admittedTimes]
  split_ifs
  · rw [List.countP_cons]
    split_ifs <;> omega
  · exact (zero_add _).ge

/-! ### Any interval of the length of a window -/

/-- The times from `since` on, until one length later. -/
def within (since : T) (t : T) : Bool := since ≤ t ∧ t < since + length

section
variable {length max} {since : T}

theorem countP_within_of_le {times : List T} (h : ∀ t ∈ times, since + length ≤ t)
    (w : Window T) : (admittedTimes length max w times).countP (within length since) = 0 := by
  rw [List.countP_eq_zero]
  intro t ht
  simp [within, (h t (mem_of_mem_admittedTimes ht)).not_gt]

variable [IsOrderedAddMonoid T]

/-- What is left of the one window that may count. -/
theorem countP_within_of_le_start {w : Window T} (hw : since ≤ w.start) {times : List T}
    (hsorted : times.Pairwise (· ≤ ·)) :
    (admittedTimes length max w times).countP (within length since) ≤ max - w.count := by
  induction times generalizing w with
  | nil => exact Nat.zero_le _
  | cons now times ih =>
    obtain ⟨hnow, hsorted⟩ := List.pairwise_cons.mp hsorted
    by_cases hpassed : length ≤ now - w.start
    · -- the next window starts after the interval
      have hend : since + length ≤ now := by
        calc since + length ≤ w.start + (now - w.start) := add_le_add hw hpassed
          _ = now := by abel
      rw [countP_within_of_le]
      · exact Nat.zero_le _
      · intro t ht
        rcases List.mem_cons.mp ht with rfl | hmem
        · exact hend
        · exact hend.trans (hnow t hmem)
    · have hrest := @ih (w.request length now)
        (by simpa [Window.request, Window.current, hpassed] using hw) hsorted
      have hhead := countP_admittedTimes_cons_le length max (within length since) w now times
      simp only [Window.request, Window.admits, Window.current, if_neg hpassed] at hrest hhead
      simp only [decide_eq_true_eq] at hhead
      split_ifs at hhead <;> omega

theorem countP_within_of_forall_le {w : Window T} {times : List T}
    (hsince : ∀ t ∈ times, since ≤ t) (hsorted : times.Pairwise (· ≤ ·)) :
    (admittedTimes length max w times).countP (within length since) ≤ max - w.count + max := by
  induction times generalizing w with
  | nil => exact Nat.zero_le _
  | cons now times ih =>
    obtain ⟨hnow, hsorted'⟩ := List.pairwise_cons.mp hsorted
    have hhead := countP_admittedTimes_cons_le length max (within length since) w now times
    by_cases hpassed : length ≤ now - w.start
    · have hstart : since ≤ (w.request length now).start := by
        simpa [Window.request, Window.current, hpassed] using hsince now List.mem_cons_self
      have hrest : (admittedTimes length max (w.request length now) times).countP
          (within length since) ≤ max - (w.request length now).count :=
        countP_within_of_le_start hstart hsorted'
      simp only [Window.request, Window.admits, Window.current, if_pos hpassed] at hrest hhead
      simp only [decide_eq_true_eq] at hhead
      split_ifs at hhead <;> omega
    · have hrest := @ih (w.request length now)
        (fun t ht => hsince t (List.mem_cons_of_mem now ht)) hsorted'
      simp only [Window.request, Window.admits, Window.current, if_neg hpassed] at hrest hhead
      simp only [decide_eq_true_eq] at hhead
      split_ifs at hhead <;> omega

/-- Any interval of the length of a window meets two windows at most. -/
theorem countP_within_le (w : Window T) {times : List T} (hsorted : times.Pairwise (· ≤ ·)) :
    (admittedTimes length max w times).countP (within length since) ≤ 2 * max := by
  induction times generalizing w with
  | nil => exact Nat.zero_le _
  | cons now times ih =>
    obtain ⟨hnow, hsorted'⟩ := List.pairwise_cons.mp hsorted
    by_cases hsince : since ≤ now
    · have hall : ∀ t ∈ now :: times, since ≤ t := by
        intro t ht
        rcases List.mem_cons.mp ht with rfl | hmem
        · exact hsince
        · exact hsince.trans (hnow t hmem)
      calc (admittedTimes length max w (now :: times)).countP (within length since)
          ≤ max - w.count + max := countP_within_of_forall_le hall hsorted
        _ ≤ 2 * max := by omega
    · have hout : within length since now = false := by simp [within, hsince]
      rw [admittedTimes]
      split_ifs
      · rw [List.countP_cons_of_neg (by simp [hout])]
        exact ih _ hsorted'
      · exact ih _ hsorted'

end

/-! ### A request that is not admitted -/

/-- What a run of requests leaves: a window that starts at none later than the last of them, and
the requests that it has counted, which are the last ones. -/
structure Counted (initial : T) (times : List T) (w : Window T) : Prop where
  recent : ∃ recent, recent <:+ times ∧ recent.length = w.count ∧ ∀ t ∈ recent, w.start ≤ t
  start_le : ∀ now, initial ≤ now → (∀ t ∈ times, t ≤ now) → w.start ≤ now

variable {length} in
theorem Counted.request {initial : T} {times : List T} {w : Window T} (h : Counted initial times w)
    {now : T} (hinitial : initial ≤ now) (hnow : ∀ t ∈ times, t ≤ now) :
    Counted initial (times ++ [now]) (w.request length now) := by
  unfold Window.request Window.current
  split_ifs
  · refine ⟨⟨[now], List.suffix_append times [now], rfl, by simp⟩, ?_⟩
    intro later _ hlater
    exact hlater now (by simp)
  · obtain ⟨recent, ⟨earlier, rfl⟩, hlength, hle⟩ := h.recent
    refine ⟨⟨recent ++ [now], ⟨earlier, by simp⟩, by simp [hlength], ?_⟩, ?_⟩
    · intro t ht
      rcases List.mem_append.mp ht with hmem | hmem
      · exact hle t hmem
      · rw [List.mem_singleton.mp hmem]
        exact h.start_le now hinitial hnow
    · intro later hlater hle'
      exact h.start_le later hlater fun t ht => hle' t (List.mem_append_left [now] ht)

theorem counted_foldl (initial : T) {times : List T} (hinitial : ∀ t ∈ times, initial ≤ t)
    (hsorted : times.Pairwise (· ≤ ·)) :
    Counted initial times (times.foldl (Window.request length) ⟨initial, 0⟩) := by
  induction times using List.reverseRecOn with
  | nil => exact ⟨⟨[], List.nil_suffix, rfl, by simp⟩, fun now hnow _ => hnow⟩
  | append_singleton times now ih =>
    obtain ⟨hbefore, -, hnow⟩ := List.pairwise_append.mp hsorted
    rw [List.foldl_append, List.foldl_cons, List.foldl_nil]
    exact (ih (fun t ht => hinitial t (List.mem_append_left [now] ht)) hbefore).request
      (hinitial now (by simp)) fun t ht => hnow t ht now (by simp)

variable {length max} in
/-- Who is not admitted finds the last window full. -/
theorem le_countP_of_not_admits [IsOrderedAddMonoid T] {initial : T} {times : List T}
    {w : Window T} (h : Counted initial times w) {now : T}
    (hnot : w.admits length max now = false) :
    max ≤ times.countP (fun t => now - t < length) := by
  unfold Window.admits Window.current at hnot
  split_ifs at hnot with hpassed
  · simp only [decide_eq_false_iff_not] at hnot
    omega
  · obtain ⟨recent, hsuffix, hlength, hle⟩ := h.recent
    have hall : recent.countP (fun t => decide (now - t < length)) = recent.length := by
      rw [List.countP_eq_length]
      intro t ht
      have hlt : now - t < length := by
        calc now - t ≤ now - w.start := sub_le_sub_left (hle t ht) now
          _ < length := not_le.mp hpassed
      simp [hlt]
    have hcount := hsuffix.sublist.countP_le (p := fun t => decide (now - t < length))
    simp only [decide_eq_false_iff_not] at hnot
    omega

end TradeStream.FixedWindow
