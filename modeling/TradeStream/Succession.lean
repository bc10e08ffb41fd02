import Mathlib

/-! A table in which the entries of a key succeed one another: a new entry ends the one in
force, and an entry may be ended with none to follow. -/
namespace TradeStream.Succession

variable {κ V S : Type*}

structure Entry (κ V S : Type*) where
  key : κ
  value : V
  ended : Option S
  deriving DecidableEq

/-- What happens to a key, with the mark of an entry that it ends. -/
inductive Event (κ V S : Type*) where
  | entered (key : κ) (value : V) (mark : S)
  | closed (key : κ) (mark : S)

def Event.key : Event κ V S → κ
  | .entered key _ _ => key
  | .closed key _ => key

def Event.mark : Event κ V S → S
  | .entered _ _ mark => mark
  | .closed _ mark => mark

def Entry.endWith (mark : S) (e : Entry κ V S) : Entry κ V S :=
  { e with ended := e.ended <|> some mark }

/-- The entries of one key after its events: each ends with the next event. -/
def entriesOf : List (Event κ V S) → List (Entry κ V S)
  | [] => []
  | .entered key value _ :: rest =>
    ⟨key, value, rest.head?.map Event.mark⟩ :: entriesOf rest
  | .closed _ _ :: rest => entriesOf rest

/-- An event ends what is in force, and a new entry is in force. -/
def Event.added : Event κ V S → List (Entry κ V S)
  | .entered key value _ => [⟨key, value, none⟩]
  | .closed _ _ => []

theorem entriesOf_concat (events : List (Event κ V S)) (event : Event κ V S) :
    entriesOf (events ++ [event]) =
      (entriesOf events).map (Entry.endWith event.mark) ++ event.added := by
  induction events with
  | nil => cases event <;> rfl
  | cons first rest ih =>
    cases first with
    | closed key mark => exact ih
    | entered key value mark =>
      rw [List.cons_append, entriesOf, entriesOf, ih, List.map_cons, List.cons_append]
      congr 1
      -- only the last entry is still in force
      cases rest <;> rfl

theorem filter_entriesOf_concat (events : List (Event κ V S)) (event : Event κ V S) :
    (entriesOf (events ++ [event])).filter (·.ended.isNone) = event.added := by
  have hended : ((entriesOf events).map (Entry.endWith event.mark)).filter
      (·.ended.isNone) = [] := by
    rw [List.filter_eq_nil_iff]
    intro e he
    obtain ⟨⟨key, value, ended⟩, -, rfl⟩ := List.mem_map.mp he
    cases ended <;> simp [Entry.endWith]
  rw [entriesOf_concat, List.filter_append, hended, List.nil_append]
  cases event <;> rfl

/-- What the last event leaves in force. -/
theorem filter_entriesOf (events : List (Event κ V S)) :
    (entriesOf events).filter (·.ended.isNone) = events.getLast?.elim [] Event.added := by
  induction events using List.reverseRecOn with
  | nil => rfl
  | append_singleton events event =>
    rw [filter_entriesOf_concat, List.getLast?_concat]
    rfl

section
variable [DecidableEq κ]

def history (rows : List (Entry κ V S)) (k : κ) : List (Entry κ V S) :=
  rows.filter (·.key = k)

def inForce (rows : List (Entry κ V S)) (k : κ) : List (Entry κ V S) :=
  (history rows k).filter (·.ended.isNone)

/-- `UPDATE`: ends what is in force of a key. -/
def close (rows : List (Entry κ V S)) (k : κ) (mark : S) : List (Entry κ V S) :=
  rows.map fun e => if e.key = k ∧ e.ended.isNone then { e with ended := some mark } else e

/-- `UPDATE`, then `INSERT`. -/
def put (rows : List (Entry κ V S)) (k : κ) (value : V) (mark : S) : List (Entry κ V S) :=
  close rows k mark ++ [⟨k, value, none⟩]

def Event.apply (rows : List (Entry κ V S)) : Event κ V S → List (Entry κ V S)
  | .entered k value mark => put rows k value mark
  | .closed k mark => close rows k mark

theorem history_close_self (rows : List (Entry κ V S)) (k : κ) (mark : S) :
    history (close rows k mark) k = (history rows k).map (Entry.endWith mark) := by
  induction rows with
  | nil => rfl
  | cons e rows ih =>
    obtain ⟨key, value, ended⟩ := e
    rw [history, close, List.map_cons] at *
    by_cases hkey : key = k
    · cases ended with
      | none => simpa [hkey, history, Entry.endWith] using ih
      | some s => simpa [hkey, history, Entry.endWith] using ih
    · simpa [hkey, history] using ih

theorem history_close_of_ne (rows : List (Entry κ V S)) {k k' : κ} (hne : k' ≠ k) (mark : S) :
    history (close rows k' mark) k = history rows k := by
  induction rows with
  | nil => rfl
  | cons e rows ih =>
    rw [history, close, List.map_cons] at *
    by_cases hkey : e.key = k
    · have hother : e.key ≠ k' := fun h => hne (h.symm.trans hkey)
      simpa [hkey, hother, hne.symm, history] using ih
    · split_ifs <;> simpa [hkey, history] using ih

theorem history_append (rows more : List (Entry κ V S)) (k : κ) :
    history (rows ++ more) k = history rows k ++ history more k :=
  List.filter_append _ _

theorem history_apply_self (rows : List (Entry κ V S)) (event : Event κ V S) :
    history (event.apply rows) event.key =
      (history rows event.key).map (Entry.endWith event.mark) ++ event.added := by
  cases event with
  | entered k value mark =>
    simp only [Event.apply, put, Event.key, Event.mark, Event.added, history_append,
      history_close_self]
    simp [history]
  | closed k mark =>
    simp only [Event.apply, Event.key, Event.mark, Event.added, history_close_self,
      List.append_nil]

theorem history_apply_of_ne (rows : List (Entry κ V S)) {event : Event κ V S} {k : κ}
    (hne : event.key ≠ k) : history (event.apply rows) k = history rows k := by
  cases event with
  | entered k' value mark =>
    have hother : k' ≠ k := hne
    rw [Event.apply, put, history_append, history_close_of_ne rows hother]
    simp [history, hother]
  | closed k' mark => exact history_close_of_ne rows hne mark

/-- The entries of a key come from its own events alone. -/
theorem history_foldl {rows : List (Entry κ V S)} {events : List (Event κ V S)} {k : κ}
    (h : history rows k = entriesOf events) (more : List (Event κ V S)) :
    history (more.foldl Event.apply rows) k =
      entriesOf (events ++ more.filter (·.key = k)) := by
  induction more generalizing rows events with
  | nil => rw [List.filter_nil, List.append_nil, List.foldl_nil, h]
  | cons event more ih =>
    rw [List.foldl_cons]
    by_cases hkey : event.key = k
    · have happly : history (event.apply rows) k = entriesOf (events ++ [event]) := by
        rw [entriesOf_concat, ← h, ← hkey, history_apply_self]
      rw [ih happly, List.filter_cons_of_pos (by exact decide_eq_true hkey), List.append_assoc,
        List.singleton_append]
    · have happly : history (event.apply rows) k = entriesOf events := by
        rw [history_apply_of_ne rows hkey, h]
      rw [ih happly, List.filter_cons_of_neg]
      rwa [decide_eq_true_eq]

theorem inForce_eq {rows : List (Entry κ V S)} {events : List (Event κ V S)} {k : κ}
    (h : history rows k = entriesOf events) :
    inForce rows k = events.getLast?.elim [] Event.added := by
  rw [inForce, h, filter_entriesOf]

end

end TradeStream.Succession
