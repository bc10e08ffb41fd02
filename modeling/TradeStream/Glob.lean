import Mathlib.Data.List.Infix

/-! Names against shell patterns: `*`, `?` and bracketed sets, as `fnmatch` and `glob` of
Python read them. -/
namespace TradeStream.Glob

inductive Token where
  | any
  | one
  /-- A bracketed set, as ranges of characters. -/
  | set (negated : Bool) (ranges : List (Char × Char))
  | char (c : Char)
  deriving DecidableEq

/-- A hyphen between two characters makes a range of them. -/
def ranges : List Char → List (Char × Char)
  | lo :: '-' :: hi :: cs => (lo, hi) :: ranges cs
  | c :: cs => (c, c) :: ranges cs
  | [] => []

/-- What follows an opening bracket: whether the set is negated, what is in it, and what comes
after the closing bracket, which a bracket in the first place is not. -/
def readSet (cs : List Char) : Option (Bool × List Char × List Char) :=
  let (negated, body) := match cs with
    | '!' :: body => (true, body)
    | _ => (false, cs)
  match body with
  | [] => none
  | c :: rest =>
    match rest.dropWhile (· ≠ ']') with
    | [] => none
    | _ :: after => some (negated, c :: rest.takeWhile (· ≠ ']'), after)

def tokens : ℕ → List Char → List Token
  | 0, _ => []
  | _, [] => []
  | fuel + 1, '*' :: cs => .any :: tokens fuel cs
  | fuel + 1, '?' :: cs => .one :: tokens fuel cs
  | fuel + 1, '[' :: cs =>
    match readSet cs with
    | some (negated, body, after) => .set negated (ranges body) :: tokens fuel after
    -- a bracket that is not closed stands for itself
    | none => .char '[' :: tokens fuel cs
  | fuel + 1, c :: cs => .char c :: tokens fuel cs

def Token.matchesChar (c : Char) : Token → Bool
  | .any => false
  | .one => true
  | .set negated ranges => negated != ranges.any fun r => r.1 ≤ c && c ≤ r.2
  | .char c' => c = c'

def accepts : List Token → List Char → Bool
  | [], name => name = []
  | .any :: ts, name => name.tails.any (accepts ts)
  | _ :: _, [] => false
  | t :: ts, c :: name => t.matchesChar c && accepts ts name

/-- `fnmatch.fnmatchcase`. -/
def fnmatch (name pattern : List Char) : Bool := accepts (tokens pattern.length pattern) name

def isMagic (c : Char) : Bool := c = '*' || c = '?' || c = '['

/-- `glob.has_magic`. -/
def hasMagic (pattern : List Char) : Bool := pattern.any isMagic

def isHidden (name : List Char) : Bool := name.head? = some '.'

/-- The last part of a path against that of a pattern. A pattern finds hidden names only if it
begins with a dot itself. -/
def matchesName (pattern name : List Char) : Bool :=
  if hasMagic pattern then (isHidden pattern || !isHidden name) && fnmatch name pattern
  else name = pattern

/-- The tokens of a text without special characters. -/
theorem tokens_append {text : List Char} (h : hasMagic text = false) (rest : List Char) :
    tokens (text ++ rest).length (text ++ rest) =
      text.map Token.char ++ tokens rest.length rest := by
  induction text with
  | nil => rfl
  | cons c text ih =>
    rw [hasMagic, List.any_cons, Bool.or_eq_false_iff] at h
    obtain ⟨hc, htext⟩ := h
    have hplain : c ≠ '*' ∧ c ≠ '?' ∧ c ≠ '[' := by simpa [isMagic, and_assoc] using hc
    obtain ⟨hstar, hone, hset⟩ := hplain
    rw [List.cons_append, List.length_cons, tokens, ih htext]
    · rfl
    · exact hstar
    · exact hone
    · exact hset

theorem accepts_chars_append (text : List Char) (ts : List Token) (name : List Char) :
    accepts (text.map Token.char ++ ts) name = true ↔
      ∃ rest, name = text ++ rest ∧ accepts ts rest = true := by
  induction text generalizing name with
  | nil => simp
  | cons c text ih =>
    cases name with
    | nil => simp [accepts]
    | cons d name =>
      have hfirst : (Token.char c).matchesChar d = true ↔ d = c := by simp [Token.matchesChar]
      rw [List.map_cons, List.cons_append, accepts, Bool.and_eq_true, ih, hfirst]
      · constructor
        · rintro ⟨rfl, rest, rfl, hrest⟩
          exact ⟨rest, rfl, hrest⟩
        · rintro ⟨rest, heq, hrest⟩
          obtain ⟨rfl, rfl⟩ := List.cons_eq_cons.mp heq
          exact ⟨rfl, rest, rfl, hrest⟩
      · simp

/-- A text without special characters and a star: the names that begin with it. -/
theorem fnmatch_append_star {text : List Char} (h : hasMagic text = false) (name : List Char) :
    fnmatch name (text ++ ['*']) = true ↔ text <+: name := by
  have hstar : ∀ rest : List Char, accepts (tokens 1 ['*']) rest = true := by
    intro rest
    have hnil : [] ∈ rest.tails := (List.mem_tails _ _).mpr List.nil_suffix
    exact List.any_eq_true.mpr ⟨[], hnil, rfl⟩
  rw [fnmatch, tokens_append h, accepts_chars_append]
  constructor
  · rintro ⟨rest, rfl, -⟩
    exact List.prefix_append _ _
  · rintro ⟨rest, rfl⟩
    exact ⟨rest, rfl, hstar rest⟩

end TradeStream.Glob
