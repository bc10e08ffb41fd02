import Mathlib

/-! A log of the requests that were admitted, of which those in the window before a request are
counted. -/
namespace TradeStream.SlidingLog

variable {T : Type*} [AddCommGroup T] [LinearOrder T]

/-- What a request at `now` finds in the log. -/
def prune (length : T) (log : List T) (now : T) : List T :=
  log.filter fun t => now - length < t

def admits (length : T) (max : ℕ) (log : List T) (now : T) : Bool :=
  (prune length log now).length < max

def request (length : T) (max : ℕ) (log : List T) (now : T) : List T :=
  if admits length max log now then prune length log now ++ [now] else prune length log now

/-- The times from `since` on, until one length later. -/
def within (length since t : T) : Bool := since ≤ t ∧ t < since + length

variable (length : T) (max : ℕ)

/-- The log of a run that admitted these times until `clock`, at most `max` in any window. -/
structure Keeps (admitted log : List T) (clock : T) : Prop where
  past : ∀ t ∈ admitted, t ≤ clock
  log : ∀ now, clock ≤ now → prune length log now = prune length admitted now
  bounded : ∀ since, admitted.countP (within length since) ≤ max

variable {length max}

theorem keeps_nil (clock : T) : Keeps length max [] [] clock :=
  ⟨nofun, fun _ _ => rfl, fun _ => Nat.zero_le max⟩

theorem Keeps.mono {admitted log : List T} {clock later : T}
    (h : Keeps length max admitted log clock) (hlater : clock ≤ later) :
    Keeps length max admitted log later :=
  ⟨fun t ht => (h.past t ht).trans hlater, fun now hnow => h.log now (hlater.trans hnow), h.bounded⟩

theorem prune_append (log more : List T) (now : T) :
    prune length (log ++ more) now = prune length log now ++ prune length more now :=
  List.filter_append log more

/-- Who is refused finds the window before it full. -/
theorem Keeps.full_of_not_admits {admitted log : List T} {clock now : T}
    (h : Keeps length max admitted log clock) (hnow : clock ≤ now)
    (hrefused : ¬ admits length max log now) : max ≤ (prune length admitted now).length := by
  rw [← h.log now hnow]
  exact not_lt.mp fun hless => hrefused (decide_eq_true hless)

variable [IsOrderedAddMonoid T]

/-- What has left the window stays out of it. -/
theorem prune_prune {now later : T} (h : now ≤ later) (log : List T) :
    prune length (prune length log now) later = prune length log later := by
  rw [prune, prune, List.filter_filter]
  apply List.filter_congr
  intro t _
  by_cases hlater : later - length < t
  · have hnow : now - length < t := (sub_le_sub_right h length).trans_lt hlater
    simp [hnow, hlater]
  · simp [hlater]

/-- A window that ends after the request is full only of what the request was counted with. -/
theorem countP_within_le_length_prune {admitted : List T} {now since : T}
    (hnow : now < since + length) :
    admitted.countP (within length since) ≤ (prune length admitted now).length := by
  rw [prune, ← List.countP_eq_length_filter]
  apply List.countP_mono_left
  intro t _ ht
  simp only [within, decide_eq_true_eq] at ht ⊢
  exact (sub_lt_iff_lt_add.mpr hnow).trans_le ht.1

theorem Keeps.request {admitted log : List T} {clock now : T}
    (h : Keeps length max admitted log clock) (hnow : clock ≤ now) :
    Keeps length max (if admits length max log now then admitted ++ [now] else admitted)
      (request length max log now) now := by
  have hpast : ∀ t ∈ admitted, t ≤ now := fun t ht => (h.past t ht).trans hnow
  have hlog : ∀ later, now ≤ later →
      prune length (prune length log now) later = prune length admitted later := by
    intro later hlater
    rw [prune_prune hlater]
    exact h.log later (hnow.trans hlater)
  rw [SlidingLog.request]
  split_ifs with hadmits
  · refine ⟨?_, ?_, ?_⟩
    · intro t ht
      rcases List.mem_append.mp ht with hmem | hmem
      · exact hpast t hmem
      · exact (List.mem_singleton.mp hmem).le
    · intro later hlater
      rw [prune_append, prune_append, hlog later hlater]
    · intro since
      rw [List.countP_append, List.countP_singleton]
      split_ifs with hwithin
      · have hcount : admitted.countP (within length since) ≤
            (prune length admitted now).length := by
          simp only [within, decide_eq_true_eq] at hwithin
          exact countP_within_le_length_prune hwithin.2
        have hless : (prune length log now).length < max := of_decide_eq_true hadmits
        rw [h.log now hnow] at hless
        omega
      · exact h.bounded since
  · exact ⟨hpast, hlog, h.bounded⟩

end TradeStream.SlidingLog
