import TradeStream.JsonEscapes

/-! Expressions of Pine Script whose values are texts: string literals with escapes, and
names, joined by `+`. Calls are names here, with their arguments. -/
namespace TradeStream.PineExpression
open TradeStream.JsonText

def apostrophe : Char := '\x27'

/-- The language's own part: which character follows a backslash for which. -/
structure Escapes where
  unescape : Char → Option Char
  unescape_quote : unescape quote = some quote
  unescape_apostrophe : unescape apostrophe = some apostrophe
  unescape_backslash : unescape backslash = some backslash
  eq_backslash : ∀ c, unescape c = some backslash → c = backslash

/-- What the names of an expression stand for. Symbols, time frames and numbers as texts
have no quotes, backslashes or control characters. -/
structure Names where
  lookup : List Char → Option (List Char)
  escapes_lookup : ∀ name text, lookup name = some text → escapes text = 0

inductive Mode where
  | operand
  | literal (delimiter : Char)
  | escape (delimiter : Char)
  | name (text : List Char)
  | after

/-- Where the reader is, and the text of the operands before. -/
structure Reader where
  mode : Mode
  value : List Char

def isDelimiter (c : Char) : Bool := c = quote || c = apostrophe

variable (pine : Escapes) (names : Names)

/-- A name may have spaces after it. -/
def valueOf (name : List Char) : Option (List Char) :=
  names.lookup (name.reverse.dropWhile (· = ' ')).reverse

def step (s : Reader) (c : Char) : Option Reader :=
  -- an expression ends with its line
  if c = '\n' then none
  else
    match s.mode with
    | .operand =>
      if c = ' ' then some s
      else if isDelimiter c then some ⟨.literal c, s.value⟩
      else if c = '+' then none
      else some ⟨.name [c], s.value⟩
    | .literal delimiter =>
      if c = delimiter then some ⟨.after, s.value⟩
      else if c = backslash then some ⟨.escape delimiter, s.value⟩
      else some ⟨.literal delimiter, s.value ++ [c]⟩
    | .escape delimiter =>
      (pine.unescape c).map fun c => ⟨.literal delimiter, s.value ++ [c]⟩
    | .name text =>
      if c = '+' then (valueOf names text).map fun value => ⟨.operand, s.value ++ value⟩
      else if isDelimiter c then none
      else some ⟨.name (text ++ [c]), s.value⟩
    | .after =>
      if c = ' ' then some s
      else if c = '+' then some ⟨.operand, s.value⟩
      else none

def run (s : Reader) (text : List Char) : Option Reader := text.foldlM (step pine names) s

def finish (s : Reader) : Option (List Char) :=
  match s.mode with
  | .name text => (valueOf names text).map (s.value ++ ·)
  | .after => some s.value
  | _ => none

def evaluate (text : List Char) : Option (List Char) :=
  (run pine names ⟨.operand, []⟩ text).bind (finish names)

theorem run_cons (s : Reader) (c : Char) (text : List Char) :
    run pine names s (c :: text) = (step pine names s c).bind fun s' => run pine names s' text := by
  rw [run, List.foldlM_cons]
  rfl

theorem run_append (s : Reader) (text more : List Char) :
    run pine names s (text ++ more) =
      (run pine names s text).bind fun s' => run pine names s' more := by
  rw [run, List.foldlM_append]
  rfl

variable {pine names}

/-- A run over a text passes every place of it. -/
theorem run_append_eq_some {s s' : Reader} {text more : List Char}
    (h : run pine names s (text ++ more) = some s') :
    ∃ mid, run pine names s text = some mid ∧ run pine names mid more = some s' := by
  rw [run_append] at h
  exact Option.bind_eq_some_iff.mp h

theorem run_trans {s mid s' : Reader} {text more : List Char}
    (h : run pine names s text = some mid) (h' : run pine names mid more = some s') :
    run pine names s (text ++ more) = some s' := by
  rw [run_append, h, Option.bind_some, h']

theorem ne_newline {s s' : Reader} {c : Char} (h : step pine names s c = some s') : c ≠ '\n' := by
  rintro rfl
  simp [step] at h

/-! ### Literals -/

/-- What a literal has as it is. -/
def isPlain (delimiter c : Char) : Bool := c ≠ delimiter && c ≠ backslash && c ≠ '\n'

theorem run_literal {delimiter : Char} : ∀ (text value : List Char),
    text.all (isPlain delimiter) = true →
    run pine names ⟨.literal delimiter, value⟩ text = some ⟨.literal delimiter, value ++ text⟩
  | [], value, _ => by
    rw [List.append_nil]
    rfl
  | c :: text, value, h => by
    rw [List.all_cons, Bool.and_eq_true] at h
    have hc := h.1
    simp only [isPlain, Bool.and_eq_true, decide_eq_true_eq] at hc
    obtain ⟨⟨hdelimiter, hback⟩, hline⟩ := hc
    have hstep : step pine names ⟨.literal delimiter, value⟩ c =
        some ⟨.literal delimiter, value ++ [c]⟩ := by
      simp only [step, hline, hdelimiter, hback, ↓reduceIte]
    have ih := run_literal text (value ++ [c]) h.2
    rw [run_cons, hstep, Option.bind_some, ih, List.append_assoc]
    rfl

/-- An operand that is a literal without escapes. -/
theorem run_string {delimiter : Char} (h : isDelimiter delimiter = true) {text : List Char}
    (htext : text.all (isPlain delimiter) = true) (value : List Char) :
    run pine names ⟨.operand, value⟩ (delimiter :: (text ++ [delimiter])) =
      some ⟨.after, value ++ text⟩ := by
  have hline : delimiter ≠ '\n' ∧ delimiter ≠ ' ' := by
    constructor <;> rintro rfl <;> exact absurd h (by decide)
  have hopen : step pine names ⟨.operand, value⟩ delimiter = some ⟨.literal delimiter, value⟩ := by
    simp only [step, hline.1, hline.2, h, ↓reduceIte]
  have hclose : step pine names ⟨.literal delimiter, value ++ text⟩ delimiter =
      some ⟨.after, value ++ text⟩ := by
    simp only [step, hline.1, ↓reduceIte]
  rw [run_cons, hopen, Option.bind_some, run_append, run_literal text value htext,
    Option.bind_some, run_cons, hclose]
  rfl

/-- What is part of a name that has begun. -/
def isNamePart (c : Char) : Bool := c ≠ '+' && !isDelimiter c && c ≠ '\n'

theorem run_name : ∀ (text name value : List Char), text.all isNamePart = true →
    run pine names ⟨.name name, value⟩ text = some ⟨.name (name ++ text), value⟩
  | [], name, value, _ => by
    rw [List.append_nil]
    rfl
  | c :: text, name, value, h => by
    rw [List.all_cons, Bool.and_eq_true] at h
    have hc := h.1
    simp only [isNamePart, Bool.and_eq_true, decide_eq_true_eq, Bool.not_eq_true'] at hc
    obtain ⟨⟨hplus, hdelimiter⟩, hline⟩ := hc
    have hstep : step pine names ⟨.name name, value⟩ c = some ⟨.name (name ++ [c]), value⟩ := by
      simp only [step, hline, hplus, hdelimiter, ↓reduceIte, Bool.false_eq_true]
    have ih := run_name text (name ++ [c]) value h.2
    rw [run_cons, hstep, Option.bind_some, ih, List.append_assoc]
    rfl

/-- The `+` after a name adds the name's text. -/
theorem run_plus {name text : List Char} (h : valueOf names name = some text)
    (value : List Char) :
    run pine names ⟨.name name, value⟩ ['+'] = some ⟨.operand, value ++ text⟩ := by
  simp [run, step, h]

/-! ### Values only grow -/

/-- What a character does is independent of the value before. -/
theorem step_value (mode : Mode) (value : List Char) (c : Char) :
    step pine names ⟨mode, value⟩ c =
      (step pine names ⟨mode, []⟩ c).map fun s => ⟨s.mode, value ++ s.value⟩ := by
  by_cases hline : c = '\n'
  · simp [step, hline]
  · cases mode with
    | operand =>
      simp only [step, hline, ↓reduceIte]
      split_ifs <;> simp
    | literal delimiter =>
      simp only [step, hline, ↓reduceIte]
      split_ifs <;> simp
    | escape delimiter =>
      simp only [step, hline, ↓reduceIte]
      cases pine.unescape c <;> simp
    | name text =>
      simp only [step, hline, ↓reduceIte]
      split_ifs
      · cases valueOf names text <;> simp
      · rfl
      · simp
    | after =>
      simp only [step, hline, ↓reduceIte]
      split_ifs <;> simp

theorem run_value : ∀ (text : List Char) (mode : Mode) (value : List Char),
    run pine names ⟨mode, value⟩ text =
      (run pine names ⟨mode, []⟩ text).map fun s => ⟨s.mode, value ++ s.value⟩
  | [], mode, value => by
    simp [run]
  | c :: text, mode, value => by
    rw [run_cons, run_cons, step_value]
    cases step pine names ⟨mode, []⟩ c with
    | none => rfl
    | some s =>
      simp only [Option.map_some, Option.bind_some]
      rw [run_value text s.mode (value ++ s.value), run_value text s.mode s.value, Option.map_map]
      congr 1
      funext s'
      simp

theorem run_extends {text : List Char} {s s' : Reader} (h : run pine names s text = some s') :
    s.value <+: s'.value := by
  rw [run_value] at h
  obtain ⟨last, -, rfl⟩ := Option.map_eq_some_iff.mp h
  exact List.prefix_append _ _

theorem finish_extends {s : Reader} {value : List Char} (h : finish names s = some value) :
    s.value <+: value := by
  unfold finish at h
  split at h
  · obtain ⟨text, -, rfl⟩ := Option.map_eq_some_iff.mp h
    exact List.prefix_append _ _
  · cases h
    exact List.prefix_rfl
  · cases h

/-! ### Backslashes of a value -/

/-- Whether the last character was a backslash that escapes the next one. -/
def Mode.escaping : Mode → ℕ
  | .escape _ => 1
  | _ => 0

theorem backslashes_lookup {name text : List Char} (h : valueOf names name = some text) :
    backslashes text = 0 := by
  have hspecial := escapes_eq_zero.mp (names.escapes_lookup _ _ h)
  rw [backslashes, List.count_eq_zero]
  intro hmem
  exact absurd (hspecial backslash hmem) (by decide)

/-- A backslash opens an escape, or is the character that is escaped. -/
theorem step_backslash {s s' : Reader} (h : step pine names s backslash = some s') :
    backslashes s'.value ≤ backslashes s.value + s.mode.escaping ∧
      s'.mode.escaping + s.mode.escaping ≤ 1 := by
  have hline := ne_newline h
  obtain ⟨mode, value⟩ := s
  cases mode with
  | operand =>
    simp only [step, hline, show backslash ≠ ' ' by decide,
      show isDelimiter backslash = false by decide, show backslash ≠ '+' by decide, ↓reduceIte,
      Bool.false_eq_true] at h
    cases h
    simp [Mode.escaping]
  | literal delimiter =>
    simp only [step, hline, ↓reduceIte] at h
    split_ifs at h <;> cases h <;> simp [Mode.escaping]
  | escape delimiter =>
    simp only [step, hline, ↓reduceIte, pine.unescape_backslash, Option.map_some,
      Option.some.injEq] at h
    subst h
    simp [Mode.escaping, backslashes]
  | name text =>
    simp only [step, hline, show isDelimiter backslash = false by decide,
      show backslash ≠ '+' by decide, ↓reduceIte, Bool.false_eq_true] at h
    cases h
    simp [Mode.escaping]
  | after =>
    simp only [step, hline, show backslash ≠ ' ' by decide, show backslash ≠ '+' by decide,
      ↓reduceIte] at h
    cases h

/-- Any other character adds none. -/
theorem step_other {s s' : Reader} {c : Char} (hc : c ≠ backslash)
    (h : step pine names s c = some s') :
    backslashes s'.value ≤ backslashes s.value ∧ s'.mode.escaping = 0 := by
  have hline := ne_newline h
  obtain ⟨mode, value⟩ := s
  cases mode with
  | operand =>
    simp only [step, hline, ↓reduceIte] at h
    split_ifs at h <;> cases h <;> simp [Mode.escaping]
  | literal delimiter =>
    simp only [step, hline, hc, ↓reduceIte] at h
    split_ifs at h <;> cases h
    · simp [Mode.escaping]
    · simp [Mode.escaping, backslashes, hc]
  | escape delimiter =>
    simp only [step, hline, ↓reduceIte] at h
    obtain ⟨c', hc', rfl⟩ := Option.map_eq_some_iff.mp h
    -- a backslash is what only a backslash stands for
    have hne : c' ≠ backslash := by
      rintro rfl
      exact hc (pine.eq_backslash c hc')
    simp [Mode.escaping, backslashes, hne]
  | name text =>
    simp only [step, hline, ↓reduceIte] at h
    split_ifs at h
    · obtain ⟨text', htext, rfl⟩ := Option.map_eq_some_iff.mp h
      simp [Mode.escaping, backslashes_append, backslashes_lookup htext]
    · cases h
      simp [Mode.escaping]
  | after =>
    simp only [step, hline, ↓reduceIte] at h
    split_ifs at h <;> cases h <;> simp [Mode.escaping]

/-- Of the backslashes of any text at most every second one gets into the value. -/
theorem run_backslashes : ∀ {text : List Char} {s s' : Reader}, run pine names s text = some s' →
    2 * backslashes s'.value + s'.mode.escaping ≤
      2 * backslashes s.value + s.mode.escaping + backslashes text
  | [], s, s', h => by
    cases h
    simp
  | c :: text, s, s', h => by
    rw [run_cons] at h
    obtain ⟨mid, hmid, hrun⟩ := Option.bind_eq_some_iff.mp h
    have ih := run_backslashes hrun
    rw [backslashes_cons]
    by_cases hc : c = backslash
    · subst hc
      have hstep := step_backslash hmid
      rw [if_pos rfl]
      omega
    · have hstep := step_other hc hmid
      rw [if_neg hc]
      omega

/-- A text without backslashes adds none, and ends an escape that is open. -/
theorem run_plain {text : List Char} (hnil : text ≠ []) (hplain : backslashes text = 0) :
    ∀ {s s' : Reader}, run pine names s text = some s' →
    backslashes s'.value ≤ backslashes s.value ∧ s'.mode.escaping = 0 := by
  induction text with
  | nil => exact absurd rfl hnil
  | cons c text ih =>
    intro s s' h
    rw [backslashes_cons] at hplain
    have hc : c ≠ backslash := by
      rintro rfl
      simp at hplain
    rw [if_neg hc] at hplain
    rw [run_cons] at h
    obtain ⟨mid, hmid, hrun⟩ := Option.bind_eq_some_iff.mp h
    have hstep := step_other hc hmid
    rcases text with _ | ⟨d, text⟩
    · cases hrun
      exact hstep
    · have := ih (by simp) hplain hrun
      omega

theorem finish_backslashes {s : Reader} {value : List Char} (h : finish names s = some value) :
    backslashes value ≤ backslashes s.value := by
  unfold finish at h
  split at h
  · obtain ⟨text, htext, rfl⟩ := Option.map_eq_some_iff.mp h
    simp [backslashes_append, backslashes_lookup htext]
  · cases h
    exact le_rfl
  · cases h

end TradeStream.PineExpression
