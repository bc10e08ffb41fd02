import TradeStream.TextEncoding

/-! JSON values as text: a printer that escapes as JSON requires, or every character
outside ASCII as well, a parser, and the form in which `jsonb` holds an object. Numbers
are a parameter: any type with a text for its values. -/
namespace TradeStream.JsonText

inductive Json (N : Type*) where
  | null
  | bool (value : Bool)
  | num (value : N)
  | str (text : String)
  | arr (items : List (Json N))
  | obj (fields : List (String × Json N))

def quote : Char := '\x22'

def backslash : Char := '\x5c'

def isSpace (c : Char) : Bool := c = ' ' || c = '\n' || c = '\r' || c = '\t'

def isNumberChar (c : Char) : Bool := c.isDigit || c = '-' || c = '+' || c = '.' || c = 'e' || c = 'E'

/-- Numbers and their text. -/
structure NumberText (N : Type*) where
  print : N → List Char
  read : List Char → Option N
  read_print : ∀ n, read (print n) = some n
  print_ne_nil : ∀ n, print n ≠ []
  isNumberChar_of_mem : ∀ n, ∀ c ∈ print n, isNumberChar c = true

theorem isNumberChar_of_isDigit {c : Char} (h : c.isDigit = true) : isNumberChar c = true := by
  simp [isNumberChar, h]

/-- Integers, in decimal. -/
def integerText : NumberText ℤ where
  print
    | .ofNat n => Nat.toDigits 10 n
    | .negSucc n => '-' :: Nat.toDigits 10 (n + 1)
  read
    | [] => none
    | c :: cs =>
      -- only a text of digits is read, after a sign
      if c = '-' then
        if cs.all Char.isDigit then some (-(Nat.ofDigitChars 10 cs 0 : ℤ)) else none
      else if (c :: cs).all Char.isDigit then some (Nat.ofDigitChars 10 (c :: cs) 0) else none
  read_print n := by
    have hdigits (n : ℕ) : (Nat.toDigits 10 n).all Char.isDigit = true := by
      rw [List.all_eq_true]
      exact fun c hc => Nat.isDigit_of_mem_toDigits (by decide) (by decide) hc
    cases n with
    | ofNat n =>
      have hn := hdigits n
      have hvalue := Nat.ofDigitChars_ten_toDigits (n := n)
      cases hd : Nat.toDigits 10 n with
      | nil => exact absurd hd Nat.toDigits_ne_nil
      | cons c cs =>
        rw [hd] at hn hvalue
        have hc : c ≠ '-' := by
          rintro rfl
          simp at hn
        simp [hc, hn, hvalue, hd]
    | negSucc n => simp [hdigits, Int.negSucc_eq]
  print_ne_nil n := by
    cases n with
    | ofNat n => exact Nat.toDigits_ne_nil
    | negSucc n => simp
  isNumberChar_of_mem n c hc := by
    cases n with
    | ofNat n => exact isNumberChar_of_isDigit (Nat.isDigit_of_mem_toDigits (by decide) (by decide) hc)
    | negSucc n =>
      rcases List.mem_cons.mp hc with rfl | hc
      · decide
      · exact isNumberChar_of_isDigit (Nat.isDigit_of_mem_toDigits (by decide) (by decide) hc)

variable {N : Type*} (numbers : NumberText N)

/-- The letter that stands for a character after a backslash. -/
def shortEscape (c : Char) : Option Char :=
  if c = quote then some quote
  else if c = backslash then some backslash
  else if c = '\x08' then some 'b'
  else if c = '\x0c' then some 'f'
  else if c = '\n' then some 'n'
  else if c = '\r' then some 'r'
  else if c = '\t' then some 't'
  else none

def shortUnescape (c : Char) : Option Char :=
  if c = quote then some quote
  else if c = backslash then some backslash
  else if c = '/' then some '/'
  else if c = 'b' then some '\x08'
  else if c = 'f' then some '\x0c'
  else if c = 'n' then some '\n'
  else if c = 'r' then some '\r'
  else if c = 't' then some '\t'
  else none

def unicodeEscape (n : ℕ) : List Char :=
  [backslash, 'u', Hex.digit (n / 4096 % 16), Hex.digit (n / 256 % 16), Hex.digit (n / 16 % 16),
    Hex.digit (n % 16)]

/-- One character of a string's text. A character above U+FFFF is escaped as its two
surrogates. -/
def escape (ascii : Bool) (c : Char) : List Char :=
  match shortEscape c with
  | some e => [backslash, e]
  | none =>
    -- `jsonb` leaves what is outside ASCII, `json.dumps` escapes it and DEL
    if c.toNat < 0x20 ∨ ascii = true ∧ 0x7f ≤ c.toNat then
      if c.toNat < 0x10000 then unicodeEscape c.toNat
      else unicodeEscape (0xd800 + (c.toNat - 0x10000) / 0x400) ++
        unicodeEscape (0xdc00 + (c.toNat - 0x10000) % 0x400)
    else [c]

def quoted (ascii : Bool) (text : String) : List Char :=
  quote :: (text.toList.flatMap (escape ascii) ++ [quote])

/-- What stands before an entry of an array or an object. -/
def separator (first : Bool) : List Char := if first then [] else [',', ' ']

mutual

def chars (ascii : Bool) : Json N → List Char
  | .null => "null".toList
  | .bool true => "true".toList
  | .bool false => "false".toList
  | .num n => numbers.print n
  | .str text => quoted ascii text
  | .arr items => '[' :: itemChars ascii true items
  | .obj fields => '{' :: fieldChars ascii true fields

/-- The items that are left, each after a separator, and the closing bracket. -/
def itemChars (ascii first : Bool) : List (Json N) → List Char
  | [] => [']']
  | v :: items => separator first ++ (chars ascii v ++ itemChars ascii false items)

def fieldChars (ascii first : Bool) : List (String × Json N) → List Char
  | [] => ['}']
  | (key, v) :: fields =>
    separator first ++
      (quoted ascii key ++ ':' :: ' ' :: (chars ascii v ++ fieldChars ascii false fields))

end

def print (ascii : Bool) (v : Json N) : String := String.ofList (chars numbers ascii v)

def hexValue (c : Char) : Option ℕ :=
  if c.isDigit then some (c.toNat - 48)
  else if 'a' ≤ c ∧ c ≤ 'f' then some (c.toNat - 87)
  else if 'A' ≤ c ∧ c ≤ 'F' then some (c.toNat - 55)
  else none

def readHex : List Char → Option (ℕ × List Char)
  | a :: b :: c :: d :: rest =>
    match hexValue a, hexValue b, hexValue c, hexValue d with
    | some a, some b, some c, some d => some (a * 4096 + b * 256 + c * 16 + d, rest)
    | _, _, _, _ => none
  | _ => none

/-- The second half of a surrogate pair. -/
def readLowSurrogate (high : ℕ) : List Char → Option (Char × List Char)
  | b :: u :: rest =>
    if b = backslash ∧ u = 'u' then
      match readHex rest with
      | some (low, rest) =>
        if 0xdc00 ≤ low ∧ low < 0xe000 then
          some (Char.ofNat (0x10000 + (high - 0xd800) * 0x400 + (low - 0xdc00)), rest)
        else none
      | none => none
    else none
  | _ => none

def readUnicode (input : List Char) : Option (Char × List Char) :=
  match readHex input with
  | some (n, rest) =>
    -- a surrogate needs its other half
    if 0xd800 ≤ n ∧ n < 0xdc00 then readLowSurrogate n rest
    else if 0xdc00 ≤ n ∧ n < 0xe000 then none
    else some (Char.ofNat n, rest)
  | none => none

def readEscape : List Char → Option (Char × List Char)
  | [] => none
  | c :: rest =>
    if c = 'u' then readUnicode rest
    else (shortUnescape c).map fun c => (c, rest)

def readChar : List Char → Option (Char × List Char)
  | [] => none
  | c :: rest =>
    if c = backslash then readEscape rest
    else if c.toNat < 0x20 then none
    else some (c, rest)

/-- The characters up to the closing quote. -/
def readChars : ℕ → List Char → Option (List Char × List Char)
  | 0, _ => none
  | fuel + 1, input =>
    if input.head? = some quote then some ([], input.tail)
    else
      match readChar input with
      | some (c, rest) => (readChars fuel rest).map fun p => (c :: p.1, p.2)
      | none => none

/-- A string after its opening quote. -/
def readString (input : List Char) : Option (String × List Char) :=
  (readChars input.length input).map fun p => (String.ofList p.1, p.2)

def readNumber (input : List Char) : Option (Json N × List Char) :=
  (numbers.read (input.takeWhile isNumberChar)).map fun n =>
    (.num n, input.dropWhile isNumberChar)

def readLiteral : List Char → Option (Json N × List Char)
  | 'n' :: 'u' :: 'l' :: 'l' :: rest => some (.null, rest)
  | 't' :: 'r' :: 'u' :: 'e' :: rest => some (.bool true, rest)
  | 'f' :: 'a' :: 'l' :: 's' :: 'e' :: rest => some (.bool false, rest)
  | _ => none

def skip (input : List Char) : List Char := input.dropWhile isSpace

/-- What follows a separator; before the first entry there is none. -/
def readSeparator (first : Bool) (input : List Char) : Option (List Char) :=
  if first then some input
  else if input.head? = some ',' then some (skip input.tail)
  else none

/-- A key and the colon after it. -/
def readKey : List Char → Option (String × List Char)
  | [] => none
  | c :: rest =>
    if c = quote then
      match readString rest with
      | some (key, rest) =>
        if (skip rest).head? = some ':' then some (key, (skip rest).tail) else none
      | none => none
    else none

mutual

def readValue : ℕ → List Char → Option (Json N × List Char)
  | 0, _ => none
  | fuel + 1, input =>
    match skip input with
    | [] => none
    | c :: rest =>
      if c = quote then (readString rest).map fun p => (.str p.1, p.2)
      else if c = '[' then (readItems fuel true rest).map fun p => (.arr p.1, p.2)
      else if c = '{' then (readFields fuel true rest).map fun p => (.obj p.1, p.2)
      else if isNumberChar c then readNumber numbers (c :: rest)
      else readLiteral (c :: rest)

def readItems : ℕ → Bool → List Char → Option (List (Json N) × List Char)
  | 0, _, _ => none
  | fuel + 1, first, input =>
    if (skip input).head? = some ']' then some ([], (skip input).tail)
    else
      match readSeparator first (skip input) with
      | none => none
      | some input =>
        match readValue fuel input with
        | none => none
        | some (v, rest) => (readItems fuel false rest).map fun p => (v :: p.1, p.2)

def readFields : ℕ → Bool → List Char → Option (List (String × Json N) × List Char)
  | 0, _, _ => none
  | fuel + 1, first, input =>
    if (skip input).head? = some '}' then some ([], (skip input).tail)
    else
      match readSeparator first (skip input) with
      | none => none
      | some input =>
        match readKey input with
        | none => none
        | some (key, input) =>
          match readValue fuel input with
          | none => none
          | some (v, rest) => (readFields fuel false rest).map fun p => ((key, v) :: p.1, p.2)

end

def parse (text : String) : Option (Json N) :=
  match readValue numbers text.toList.length text.toList with
  | some (v, rest) => if skip rest = [] then some v else none
  | none => none

theorem hexValue_digit : ∀ n < 16, hexValue (Hex.digit n) = some n := by
  decide

theorem readHex_digits {n : ℕ} (hn : n < 0x10000) (rest : List Char) :
    readHex (Hex.digit (n / 4096 % 16) :: Hex.digit (n / 256 % 16) :: Hex.digit (n / 16 % 16) ::
      Hex.digit (n % 16) :: rest) = some (n, rest) := by
  simp only [readHex, hexValue_digit _ (Nat.mod_lt _ (by decide : 0 < 16)), Option.some.injEq,
    Prod.mk.injEq, and_true]
  omega

theorem readChar_unicodeEscape {n : ℕ} (hn : n < 0x10000) (rest : List Char) :
    readChar (unicodeEscape n ++ rest) =
      if 0xd800 ≤ n ∧ n < 0xdc00 then readLowSurrogate n rest
      else if 0xdc00 ≤ n ∧ n < 0xe000 then none
      else some (Char.ofNat n, rest) := by
  simp only [unicodeEscape, List.cons_append, List.nil_append, readChar, ↓reduceIte, readEscape,
    readUnicode, readHex_digits hn]

theorem readLowSurrogate_unicodeEscape (high : ℕ) {low : ℕ} (hlow : 0xdc00 ≤ low)
    (hlow' : low < 0xe000) (rest : List Char) :
    readLowSurrogate high (unicodeEscape low ++ rest) =
      some (Char.ofNat (0x10000 + (high - 0xd800) * 0x400 + (low - 0xdc00)), rest) := by
  simp only [unicodeEscape, List.cons_append, List.nil_append, readLowSurrogate, and_self,
    ↓reduceIte, readHex_digits (show low < 0x10000 by omega), hlow, hlow']

theorem readChar_shortEscape {c e : Char} (h : shortEscape c = some e) (rest : List Char) :
    readChar (backslash :: e :: rest) = some (c, rest) := by
  have he : e ≠ 'u' ∧ shortUnescape e = some c := by
    revert h
    unfold shortEscape
    split_ifs with h1 h2 h3 h4 h5 h6 h7 <;> intro h <;> cases h <;> subst_vars <;> decide
  simp only [readChar, ↓reduceIte, readEscape, he.1, he.2, Option.map_some]

theorem not_surrogate (c : Char) : ¬ (0xd800 ≤ c.toNat ∧ c.toNat < 0xe000) ∧ c.toNat < 0x110000 := by
  have h : c.toNat < 0xd800 ∨ 0xdfff < c.toNat ∧ c.toNat < 0x110000 := c.valid
  omega

theorem readChar_escape (ascii : Bool) (c : Char) (rest : List Char) :
    readChar (escape ascii c ++ rest) = some (c, rest) := by
  obtain ⟨hc, hmax⟩ := not_surrogate c
  unfold escape
  cases hs : shortEscape c with
  | some e => exact readChar_shortEscape hs rest
  | none =>
    simp only
    split_ifs with hesc hbmp
    -- one escape, or two for a character that the first plane does not have, or none
    · rw [readChar_unicodeEscape hbmp, if_neg (by omega), if_neg (by omega), Char.ofNat_toNat]
    · rw [List.append_assoc, readChar_unicodeEscape (by omega), if_pos (by omega),
        readLowSurrogate_unicodeEscape _ (by omega) (by omega)]
      have hn : 0x10000 + (0xd800 + (c.toNat - 0x10000) / 0x400 - 0xd800) * 0x400 +
          (0xdc00 + (c.toNat - 0x10000) % 0x400 - 0xdc00) = c.toNat := by omega
      rw [hn, Char.ofNat_toNat]
    · have hback : c ≠ backslash := by
        rintro rfl
        exact absurd hs (by decide)
      simp only [List.cons_append, List.nil_append, readChar, hback, ↓reduceIte]
      rw [if_neg (by omega)]

theorem head?_escape (ascii : Bool) (c : Char) (rest : List Char) :
    (escape ascii c ++ rest).head? ≠ some quote := by
  unfold escape
  cases hs : shortEscape c with
  | some e => simp [backslash, quote]
  | none =>
    have hq : c ≠ quote := by
      rintro rfl
      exact absurd hs (by decide)
    simp only
    split_ifs
    · simp [unicodeEscape, backslash, quote]
    · simp [unicodeEscape, backslash, quote]
    · simpa using hq

theorem readChars_flatMap (ascii : Bool) (rest : List Char) :
    ∀ (text : List Char) (fuel : ℕ), text.length < fuel →
      readChars fuel (text.flatMap (escape ascii) ++ quote :: rest) = some (text, rest)
  | [], fuel + 1, _ => by simp [readChars]
  | c :: text, fuel + 1, h => by
    have ih := readChars_flatMap ascii rest text fuel (by simpa using h)
    simp only [List.flatMap_cons, List.append_assoc, readChars, head?_escape, ↓reduceIte,
      readChar_escape, ih, Option.map_some]

theorem one_le_length_escape (ascii : Bool) (c : Char) : 1 ≤ (escape ascii c).length := by
  unfold escape
  split
  · simp
  · split_ifs <;> simp [unicodeEscape]

theorem length_le_length_flatMap (ascii : Bool) (text : List Char) :
    text.length ≤ (text.flatMap (escape ascii)).length := by
  induction text with
  | nil => simp
  | cons c text ih =>
    have hc := one_le_length_escape ascii c
    simp only [List.flatMap_cons, List.length_append, List.length_cons]
    omega

theorem readString_quoted (ascii : Bool) (text : String) (rest : List Char) :
    readString (text.toList.flatMap (escape ascii) ++ quote :: rest) = some (text, rest) := by
  have hlen := length_le_length_flatMap ascii text.toList
  rw [readString, readChars_flatMap ascii rest _ _ (by
    simp only [List.length_append, List.length_cons]
    omega)]
  simp

theorem skip_cons {c : Char} (h : isSpace c = false) (rest : List Char) :
    skip (c :: rest) = c :: rest := by
  simp [skip, h]

theorem isNumberChar_facts {c : Char} (h : isNumberChar c = true) :
    isSpace c = false ∧ c ≠ ']' ∧ c ≠ quote ∧ c ≠ '[' ∧ c ≠ '{' := by
  have hne : ∀ x : Char, isNumberChar x = false → c ≠ x := by
    rintro x hx rfl
    simp [h] at hx
  refine ⟨?_, hne _ (by decide), hne _ (by decide), hne _ (by decide), hne _ (by decide)⟩
  simp [isSpace, hne ' ' (by decide), hne '\n' (by decide), hne '\r' (by decide),
    hne '\t' (by decide)]

/-- A value's text starts with a character that is neither a space nor a bracket that
closes. -/
theorem chars_eq_cons (ascii : Bool) (v : Json N) :
    ∃ c cs, chars numbers ascii v = c :: cs ∧ isSpace c = false ∧ c ≠ ']' := by
  cases v with
  | null => exact ⟨'n', "ull".toList, by simp [chars], by decide, by decide⟩
  | bool b =>
    cases b with
    | true => exact ⟨'t', "rue".toList, by simp [chars], by decide, by decide⟩
    | false => exact ⟨'f', "alse".toList, by simp [chars], by decide, by decide⟩
  | num n =>
    cases hp : numbers.print n with
    | nil => exact absurd hp (numbers.print_ne_nil n)
    | cons c cs =>
      have hc := isNumberChar_facts (numbers.isNumberChar_of_mem n c (by simp [hp]))
      exact ⟨c, cs, by simp [chars, hp], hc.1, hc.2.1⟩
  | str text => exact ⟨quote, _, by rw [chars, quoted], by decide, by decide⟩
  | arr items => exact ⟨'[', _, by rw [chars], by decide, by decide⟩
  | obj fields => exact ⟨'{', _, by rw [chars], by decide, by decide⟩

theorem readSeparator_separator {c : Char} (h : isSpace c = false) (first : Bool)
    (rest : List Char) :
    readSeparator first (skip (separator first ++ c :: rest)) = some (c :: rest) := by
  cases first with
  | true => simp [separator, readSeparator, skip_cons h]
  | false =>
    have hcomma := skip_cons (show isSpace ',' = false by decide) (' ' :: c :: rest)
    have hspace : skip (' ' :: c :: rest) = c :: rest := by
      simp only [skip, List.dropWhile_cons, show isSpace ' ' = true by decide, ↓reduceIte, h,
        Bool.false_eq_true]
    simp only [separator, Bool.false_eq_true, ↓reduceIte, List.cons_append, List.nil_append,
      hcomma, readSeparator, List.head?_cons, List.tail_cons, hspace]

theorem head?_skip_separator {c close : Char} (h : isSpace c = false) (hc : c ≠ close)
    (hcomma : ',' ≠ close) (first : Bool) (rest : List Char) :
    (skip (separator first ++ c :: rest)).head? ≠ some close := by
  cases first with
  | true => simpa [separator, skip_cons h] using hc
  | false => simpa [separator, skip_cons (show isSpace ',' = false by decide)] using hcomma

theorem readNumber_print (n : N) {rest : List Char}
    (hrest : ∀ c ∈ rest.head?, isNumberChar c = false) :
    readNumber numbers (numbers.print n ++ rest) = some (.num n, rest) := by
  have hrun := numbers.isNumberChar_of_mem n
  have hnil : rest.takeWhile isNumberChar = [] ∧ rest.dropWhile isNumberChar = rest := by
    cases rest with
    | nil => simp
    | cons c rest => simp [hrest c (by simp)]
  rw [readNumber, List.takeWhile_append_of_pos hrun, List.dropWhile_append_of_pos hrun, hnil.1,
    hnil.2, List.append_nil, numbers.read_print, Option.map_some]

theorem readValue_space (fuel : ℕ) (rest : List Char) :
    readValue numbers fuel (' ' :: rest) = readValue numbers fuel rest := by
  cases fuel with
  | zero => rfl
  | succ fuel =>
    have hskip : skip (' ' :: rest) = skip rest := by
      simp only [skip, List.dropWhile_cons, show isSpace ' ' = true by decide, ↓reduceIte]
    simp only [readValue, hskip]

theorem readKey_quoted (ascii : Bool) (key : String) (rest : List Char) :
    readKey (quoted ascii key ++ ':' :: rest) = some (key, rest) := by
  simp only [quoted, List.cons_append, List.append_assoc, List.nil_append, readKey, ↓reduceIte,
    readString_quoted, skip_cons (show isSpace ':' = false by decide), List.head?_cons,
    List.tail_cons]

theorem head?_itemChars (ascii : Bool) (items : List (Json N)) (rest : List Char) :
    ∀ c ∈ (itemChars numbers ascii false items ++ rest).head?, isNumberChar c = false := by
  cases items <;> simp [itemChars, separator] <;> decide

theorem head?_fieldChars (ascii : Bool) (fields : List (String × Json N)) (rest : List Char) :
    ∀ c ∈ (fieldChars numbers ascii false fields ++ rest).head?, isNumberChar c = false := by
  cases fields <;> simp [fieldChars, separator] <;> decide

mutual

/-- The induction is on the value; the length of its text is fuel enough, for each entry
of an array or an object is at least one character. -/
theorem readValue_chars (ascii : Bool) : ∀ (v : Json N) (fuel : ℕ) (rest : List Char),
    (chars numbers ascii v).length ≤ fuel → (∀ c ∈ rest.head?, isNumberChar c = false) →
    readValue numbers fuel (chars numbers ascii v ++ rest) = some (v, rest)
  | v, 0, rest, hfuel, _ => by
    obtain ⟨c, cs, hv, -, -⟩ := chars_eq_cons numbers ascii v
    simp [hv] at hfuel
  | .null, fuel + 1, rest, _, _ => by
    simp only [chars]
    rfl
  | .bool true, fuel + 1, rest, _, _ => by
    simp only [chars]
    rfl
  | .bool false, fuel + 1, rest, _, _ => by
    simp only [chars]
    rfl
  | .num n, fuel + 1, rest, _, hrest => by
    -- the number ends where `rest` begins, with a character of another kind
    have hread := readNumber_print numbers n hrest
    cases hp : numbers.print n with
    | nil => exact absurd hp (numbers.print_ne_nil n)
    | cons c cs =>
      have hc := numbers.isNumberChar_of_mem n c (by simp [hp])
      obtain ⟨hspace, -, hquote, harr, hobj⟩ := isNumberChar_facts hc
      rw [hp, List.cons_append] at hread
      simp only [chars, hp, List.cons_append, readValue, skip_cons hspace, hquote, harr, hobj, hc,
        ↓reduceIte, hread]
  | .str text, fuel + 1, rest, _, _ => by
    simp only [chars, quoted, List.cons_append, List.append_assoc, List.nil_append, readValue,
      skip_cons (show isSpace quote = false by decide), ↓reduceIte, readString_quoted,
      Option.map_some]
  | .arr items, fuel + 1, rest, hfuel, _ => by
    have ih := readItems_itemChars ascii items fuel true rest (by simpa [chars] using hfuel)
    simp only [chars, List.cons_append, readValue,
      skip_cons (show isSpace '[' = false by decide), show '[' ≠ quote by decide, ↓reduceIte, ih,
      Option.map_some]
  | .obj fields, fuel + 1, rest, hfuel, _ => by
    have ih := readFields_fieldChars ascii fields fuel true rest (by simpa [chars] using hfuel)
    simp only [chars, List.cons_append, readValue,
      skip_cons (show isSpace '{' = false by decide), show '{' ≠ quote by decide,
      show '{' ≠ '[' by decide, ↓reduceIte, ih, Option.map_some]

theorem readItems_itemChars (ascii : Bool) :
    ∀ (items : List (Json N)) (fuel : ℕ) (first : Bool) (rest : List Char),
    (itemChars numbers ascii first items).length ≤ fuel →
    readItems numbers fuel first (itemChars numbers ascii first items ++ rest) = some (items, rest)
  | [], 0, first, rest, hfuel => by simp [itemChars] at hfuel
  | [], fuel + 1, first, rest, _ => by
    simp only [itemChars, List.cons_append, List.nil_append, readItems,
      skip_cons (show isSpace ']' = false by decide), List.head?_cons, ↓reduceIte, List.tail_cons]
  | v :: items, 0, first, rest, hfuel => by
    obtain ⟨c, cs, hv, -, -⟩ := chars_eq_cons numbers ascii v
    simp [itemChars, hv] at hfuel
  | v :: items, fuel + 1, first, rest, hfuel => by
    obtain ⟨c, cs, hv, hspace, hclose⟩ := chars_eq_cons numbers ascii v
    have hitems : 1 ≤ (itemChars numbers ascii false items).length := by
      cases items <;> simp [itemChars, separator]
    have hlen : 1 ≤ (chars numbers ascii v).length := by simp [hv]
    -- both parts are shorter than the whole, which is fuel for each
    simp only [itemChars, List.length_append] at hfuel
    have ihv := readValue_chars ascii v fuel (itemChars numbers ascii false items ++ rest)
      (by omega) (head?_itemChars numbers ascii items rest)
    have ih := readItems_itemChars ascii items fuel false rest (by omega)
    simp only [hv, List.cons_append] at ihv
    simp only [itemChars, hv, List.append_assoc, List.cons_append, readItems,
      head?_skip_separator hspace hclose (by decide), readSeparator_separator hspace, ihv, ih,
      ↓reduceIte, Option.map_some]

theorem readFields_fieldChars (ascii : Bool) :
    ∀ (fields : List (String × Json N)) (fuel : ℕ) (first : Bool) (rest : List Char),
    (fieldChars numbers ascii first fields).length ≤ fuel →
    readFields numbers fuel first (fieldChars numbers ascii first fields ++ rest) =
      some (fields, rest)
  | [], 0, first, rest, hfuel => by simp [fieldChars] at hfuel
  | [], fuel + 1, first, rest, _ => by
    simp only [fieldChars, List.cons_append, List.nil_append, readFields,
      skip_cons (show isSpace '}' = false by decide), List.head?_cons, ↓reduceIte, List.tail_cons]
  | (key, v) :: fields, 0, first, rest, hfuel => by simp [fieldChars, quoted] at hfuel
  | (key, v) :: fields, fuel + 1, first, rest, hfuel => by
    obtain ⟨c, cs, hv, hspace, -⟩ := chars_eq_cons numbers ascii v
    have hkey := readKey_quoted ascii key
      (' ' :: (chars numbers ascii v ++ (fieldChars numbers ascii false fields ++ rest)))
    simp only [fieldChars, List.length_append, List.length_cons] at hfuel
    have ihv := readValue_chars ascii v fuel (fieldChars numbers ascii false fields ++ rest)
      (by omega) (head?_fieldChars numbers ascii fields rest)
    have ih := readFields_fieldChars ascii fields fuel false rest (by omega)
    have hsep := readSeparator_separator (show isSpace quote = false by decide) first
    have hclose := head?_skip_separator (show isSpace quote = false by decide)
      (show quote ≠ '}' by decide) (by decide) first
    simp only [quoted, List.cons_append, List.append_assoc, List.nil_append] at hkey
    simp only [fieldChars, quoted, List.append_assoc, List.cons_append, List.nil_append, readFields,
      hclose, hsep, hkey, readValue_space, ihv, ih, ↓reduceIte, Option.map_some]

end

/-- What is printed, in either style, is read back. -/
theorem parse_print (ascii : Bool) (v : Json N) :
    parse numbers (print numbers ascii v) = some v := by
  have h := readValue_chars numbers ascii v (chars numbers ascii v).length [] le_rfl (by simp)
  rw [List.append_nil] at h
  simp [parse, print, h, skip]

/-- The order in which `jsonb` keeps keys: shorter ones first. -/
def keyBefore (key key' : String) : Prop :=
  key.utf8ByteSize < key'.utf8ByteSize ∨ key.utf8ByteSize = key'.utf8ByteSize ∧ key < key'

instance : DecidableRel keyBefore := fun key key' => by
  unfold keyBefore
  infer_instance

instance : DecidableRel fun p q : String × Json N => keyBefore p.1 q.1 :=
  fun p q => inferInstanceAs (Decidable (keyBefore p.1 q.1))

mutual

/-- The form in which `jsonb` holds a value: of fields with one key the last is kept, and
the keys are in order. -/
def canonical : Json N → Json N
  | .null => .null
  | .bool value => .bool value
  | .num value => .num value
  | .str text => .str text
  | .arr items => .arr (canonicalItems items)
  | .obj fields => .obj (canonicalFields fields)

def canonicalItems : List (Json N) → List (Json N)
  | [] => []
  | v :: items => canonical v :: canonicalItems items

def canonicalFields : List (String × Json N) → List (String × Json N)
  | [] => []
  | (key, v) :: fields =>
    -- a later field of this key wins
    if ((canonicalFields fields).lookup key).isSome then canonicalFields fields
    else
      (canonicalFields fields).orderedInsert (fun p q => keyBefore p.1 q.1) (key, canonical v)

end

theorem lookup_cons_ite (key : String) (v : Json N) (fields : List (String × Json N)) (k : String) :
    ((key, v) :: fields).lookup k = if k = key then some v else fields.lookup k := by
  by_cases hk : k = key
  · simp [hk]
  · simp [List.lookup_cons, beq_eq_false_iff_ne.mpr hk, hk]

theorem lookup_orderedInsert {fields : List (String × Json N)} {key : String}
    (h : fields.lookup key = none) (v : Json N) (k : String) :
    (fields.orderedInsert (fun p q => keyBefore p.1 q.1) (key, v)).lookup k =
      if k = key then some v else fields.lookup k := by
  induction fields with
  | nil => exact lookup_cons_ite key v [] k
  | cons field fields ih =>
    obtain ⟨key', v'⟩ := field
    rw [lookup_cons_ite] at h
    -- the key is new, so that its place among the others does not matter
    have hne : key ≠ key' := fun hk => by simp [hk] at h
    rw [if_neg hne] at h
    rw [List.orderedInsert_cons]
    by_cases hbefore : keyBefore key key'
    · rw [if_pos hbefore]
      exact lookup_cons_ite key v _ k
    · rw [if_neg hbefore, lookup_cons_ite, ih h, lookup_cons_ite]
      by_cases hk : k = key
      · rw [if_pos hk, if_pos hk, if_neg (hk ▸ hne)]
      · rw [if_neg hk, if_neg hk]

/-- Of several fields with one key the last one counts. -/
theorem lookup_canonicalFields (key : String) (v : Json N) (fields : List (String × Json N))
    (k : String) :
    (canonicalFields ((key, v) :: fields)).lookup k =
      ((canonicalFields fields).lookup k).or (if k = key then some (canonical v) else none) := by
  rw [canonicalFields]
  split_ifs with hsome hk hk
  · obtain ⟨w, hw⟩ := Option.isSome_iff_exists.mp hsome
    rw [hk, hw, Option.some_or]
  · rw [Option.or_none]
  · have hnone : (canonicalFields fields).lookup key = none :=
      Option.not_isSome_iff_eq_none.mp hsome
    rw [lookup_orderedInsert hnone, if_pos hk, hk, hnone, Option.none_or]
  · have hnone : (canonicalFields fields).lookup key = none :=
      Option.not_isSome_iff_eq_none.mp hsome
    rw [lookup_orderedInsert hnone, if_neg hk, Option.or_none]

/-- `json.dumps`, which escapes every character outside ASCII. -/
def dumps (v : Json N) : String := print numbers true v

/-- `json.loads`. -/
def loads (text : String) : Option (Json N) := parse numbers text

/-- A `jsonb` column as text. -/
def jsonbOut (v : Json N) : String := print numbers false v

/-- Text cast to `jsonb`. That the cast refuses U+0000 is left out: no column has it. -/
def jsonbIn (text : String) : Option (Json N) := (parse numbers text).map canonical

theorem jsonbIn_dumps (v : Json N) : jsonbIn numbers (dumps numbers v) = some (canonical v) := by
  rw [jsonbIn, dumps, parse_print, Option.map_some]

theorem loads_jsonbOut (v : Json N) : loads numbers (jsonbOut numbers v) = some v :=
  parse_print numbers false v

/-- The text of a string is longer than the string. -/
theorem print_str_ne (ascii : Bool) (text : String) :
    print numbers ascii (.str text) ≠ text := by
  intro h
  have hlen := length_le_length_flatMap ascii text.toList
  have hchars := congrArg (fun t : String => t.toList.length) h
  simp only [print, chars, quoted, String.toList_ofList, List.length_cons, List.length_append,
    List.length_nil] at hchars
  omega

end TradeStream.JsonText
