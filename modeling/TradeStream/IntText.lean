import Mathlib

/-! A text read by Python's `int`, for the characters of a header (Latin-1). -/
namespace TradeStream.IntText

def isSpace (c : Char) : Bool :=
  c = ' ' || c = '\t' || c = '\n' || c = '\x0b' || c = '\x0c' || c = '\r' || c = '\x85' ||
    c = '\xa0'

/-- The digits that `int` converts before it raises. -/
def maxDigits : ℕ := 4300

/-- Digits, with single underscores between them. -/
def readDigits : List Char → Option (List Char)
  | [] => none
  | [d] => if d.isDigit then some [d] else none
  | d :: '_' :: rest => if d.isDigit then (readDigits rest).map (d :: ·) else none
  | d :: rest => if d.isDigit then (readDigits rest).map (d :: ·) else none

def readNat (text : List Char) : Option ℕ :=
  (readDigits text).bind fun digits =>
    if digits.length ≤ maxDigits then some (Nat.ofDigitChars 10 digits 0) else none

def strip (text : List Char) : List Char := (text.dropWhile isSpace).rdropWhile isSpace

/-- `none` where it raises a `ValueError`. -/
def int (text : List Char) : Option ℤ :=
  match strip text with
  | '-' :: rest => (readNat rest).map fun n : ℕ => -(n : ℤ)
  | '+' :: rest => (readNat rest).map fun n : ℕ => (n : ℤ)
  | rest => (readNat rest).map fun n : ℕ => (n : ℤ)

theorem readDigits_of_isDigit {digits : List Char} (hne : digits ≠ [])
    (h : ∀ d ∈ digits, d.isDigit = true) : readDigits digits = some digits := by
  induction digits using readDigits.induct with
  | case1 => exact absurd rfl hne
  | case2 d hd => simp [readDigits, hd]
  | case3 d hd => exact absurd (h d List.mem_cons_self) hd
  | case4 d rest hd ih =>
    have hunderscore := h '_' (by simp)
    exact absurd hunderscore (by decide)
  | case5 d rest hd =>
    exact absurd (h d List.mem_cons_self) hd
  | case6 d rest hnil hunderscore hd ih =>
    have hrest : readDigits rest = some rest :=
      ih hnil fun c hc => h c (List.mem_cons_of_mem d hc)
    rw [readDigits, if_pos hd, hrest, Option.map_some]
    · exact hnil
    · exact hunderscore
  | case7 d rest hnil hunderscore hd => exact absurd (h d List.mem_cons_self) hd

theorem isSpace_of_isDigit {c : Char} (h : c.isDigit = true) : isSpace c = false := by
  rw [Bool.eq_false_iff]
  intro hspace
  simp only [isSpace, Bool.or_eq_true, decide_eq_true_eq] at hspace
  obtain ((((((rfl | rfl) | rfl) | rfl) | rfl) | rfl) | rfl) | rfl := hspace <;>
    exact absurd h (by decide)

theorem strip_of_isDigit {digits : List Char} (h : ∀ d ∈ digits, d.isDigit = true) :
    strip digits = digits := by
  have hspace (d : Char) (hd : d ∈ digits) : ¬ isSpace d = true := by
    simp [isSpace_of_isDigit (h d hd)]
  have hfirst : digits.dropWhile isSpace = digits := by
    rw [List.dropWhile_eq_self_iff]
    exact fun hlen => hspace _ (List.getElem_mem hlen)
  rw [strip, hfirst, List.rdropWhile_eq_self_iff]
  exact fun hne => hspace _ (List.getLast_mem hne)

/-- A number's digits are read back. -/
theorem int_toDigits {n : ℕ} (h : (Nat.toDigits 10 n).length ≤ maxDigits) :
    int (Nat.toDigits 10 n) = some (n : ℤ) := by
  have hdigits (d : Char) (hd : d ∈ Nat.toDigits 10 n) : d.isDigit = true :=
    Nat.isDigit_of_mem_toDigits (by decide) (by decide) hd
  have hnat : readNat (Nat.toDigits 10 n) = some n := by
    rw [readNat, readDigits_of_isDigit Nat.toDigits_ne_nil hdigits, Option.bind_some, if_pos h,
      Nat.ofDigitChars_ten_toDigits]
  rw [int, strip_of_isDigit hdigits]
  -- the first character is no sign
  split
  · next rest hsign =>
    exact absurd (hdigits '-' (by simp [hsign])) (by decide)
  · next rest hsign =>
    exact absurd (hdigits '+' (by simp [hsign])) (by decide)
  · rw [hnat, Option.map_some]

end TradeStream.IntText
