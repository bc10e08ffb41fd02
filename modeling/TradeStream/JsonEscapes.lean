import TradeStream.JsonText

/-! What a text has to pay for the strings that are read from it: a quote, a backslash or
a control character in one of them stands in the text as an escape, that is with a
backslash of its own. -/
namespace TradeStream.JsonText

/-- A character that no string has in its text as it is. -/
def isSpecial (c : Char) : Bool := c = quote || c = backslash || c.toNat < 0x20

def backslashes (text : List Char) : ℕ := text.count backslash

def escapes (text : List Char) : ℕ := text.countP isSpecial

theorem backslashes_append (s t : List Char) :
    backslashes (s ++ t) = backslashes s + backslashes t :=
  List.count_append

theorem backslashes_cons (c : Char) (text : List Char) :
    backslashes (c :: text) = backslashes text + if c = backslash then 1 else 0 := by
  simp [backslashes, List.count_cons]

theorem backslashes_le {s t : List Char} (h : s <:+ t) : backslashes s ≤ backslashes t :=
  h.sublist.count_le backslash

theorem escapes_cons (c : Char) (text : List Char) :
    escapes (c :: text) = escapes text + if isSpecial c then 1 else 0 := by
  simp [escapes, List.countP_cons]

theorem escapes_eq_zero {text : List Char} :
    escapes text = 0 ↔ ∀ c ∈ text, isSpecial c = false := by
  simp [escapes, List.countP_eq_zero]

theorem escape_of_not_isSpecial {c : Char} (h : isSpecial c = false) : escape false c = [c] := by
  simp only [isSpecial, Bool.or_eq_false_iff, decide_eq_false_iff_not] at h
  obtain ⟨⟨hquote, hback⟩, hcontrol⟩ := h
  have hshort : shortEscape c = none := by
    have hne : ∀ x : Char, x.toNat < 0x20 → c ≠ x := by
      rintro x hx rfl
      exact hcontrol hx
    simp [shortEscape, hquote, hback, hne '\x08' (by decide), hne '\x0c' (by decide),
      hne '\n' (by decide), hne '\r' (by decide), hne '\t' (by decide)]
  simp [escape, hshort, hcontrol]

/-- A text without special characters is its own JSON text. -/
theorem flatMap_escape {text : List Char} (h : escapes text = 0) :
    text.flatMap (escape false) = text := by
  induction text with
  | nil => rfl
  | cons c text ih =>
    rw [escapes_cons] at h
    have hc : isSpecial c = false := by
      by_contra hc
      simp [hc] at h
    rw [List.flatMap_cons, escape_of_not_isSpecial hc, ih (by omega)]
    rfl

theorem skip_suffix (input : List Char) : skip input <:+ input := List.dropWhile_suffix _

/-- What is read is the start of a text, and no quote is in it. -/
def Reads (input rest : List Char) : Prop := ∃ start, quote ∉ start ∧ input = start ++ rest

theorem Reads.suffix {input rest : List Char} (h : Reads input rest) : rest <:+ input := by
  obtain ⟨start, -, rfl⟩ := h
  exact List.suffix_append start rest

theorem Reads.trans {s t u : List Char} (h : Reads s t) (h' : Reads t u) : Reads s u := by
  obtain ⟨start, hstart, rfl⟩ := h
  obtain ⟨start', hstart', rfl⟩ := h'
  refine ⟨start ++ start', ?_, (List.append_assoc _ _ _).symm⟩
  simp only [List.mem_append, not_or]
  exact ⟨hstart, hstart'⟩

theorem Reads.cons {c : Char} (h : c ≠ quote) (text : List Char) : Reads (c :: text) text :=
  ⟨[c], by simpa using h.symm, rfl⟩

/-- A reader that passes no quote stays before the next one. -/
theorem Reads.append {text rest r : List Char} (h : Reads (text ++ quote :: rest) r) :
    ∃ text', text' <:+ text ∧ r = text' ++ quote :: rest := by
  obtain ⟨start, hstart, heq⟩ := h
  rcases List.append_eq_append_iff.mp heq with ⟨more, rfl, hmore⟩ | ⟨text', rfl, hr⟩
  · cases more with
    | nil => exact ⟨[], List.nil_suffix, by simpa using hmore.symm⟩
    | cons c more =>
      rw [List.cons_append, List.cons.injEq] at hmore
      exact absurd (by simp [hmore.1]) hstart
  · exact ⟨text', List.suffix_append start text', hr⟩

theorem ne_quote_of_hexValue {c : Char} {n : ℕ} (h : hexValue c = some n) : c ≠ quote := by
  rintro rfl
  have hquote : hexValue quote = none := by decide
  simp [hquote] at h

theorem readHex_reads {input rest : List Char} {n : ℕ} (h : readHex input = some (n, rest)) :
    Reads input rest := by
  unfold readHex at h
  split at h
  · next a b c d text =>
    split at h
    · next _ _ _ _ ha hb hc hd =>
      cases h
      have hab := (Reads.cons (ne_quote_of_hexValue ha) _).trans
        (Reads.cons (ne_quote_of_hexValue hb) (c :: d :: rest))
      exact hab.trans ((Reads.cons (ne_quote_of_hexValue hc) _).trans
        (Reads.cons (ne_quote_of_hexValue hd) rest))
    · cases h
  · cases h

theorem readLowSurrogate_reads {high : ℕ} {input rest : List Char} {c : Char}
    (h : readLowSurrogate high input = some (c, rest)) : Reads input rest := by
  unfold readLowSurrogate at h
  split at h
  · next b u text =>
    split_ifs at h with hbu
    split at h
    · next low rest' hhex =>
      split_ifs at h
      simp only [Option.some.injEq, Prod.mk.injEq] at h
      rw [← h.2, hbu.1, hbu.2]
      exact (Reads.cons (by decide) _).trans ((Reads.cons (by decide) _).trans (readHex_reads hhex))
    · cases h
  · cases h

theorem readUnicode_reads {input rest : List Char} {c : Char}
    (h : readUnicode input = some (c, rest)) : Reads input rest := by
  unfold readUnicode at h
  split at h
  · next n rest' hhex =>
    have hrest := readHex_reads hhex
    split_ifs at h
    · exact hrest.trans (readLowSurrogate_reads h)
    · cases h
      exact hrest
  · cases h

/-- After a backslash there is a quote, or something else than a quote is read. -/
theorem readEscape_cases {d : Char} {input rest : List Char} {c : Char}
    (h : readEscape (d :: input) = some (c, rest)) :
    d = quote ∧ c = quote ∧ rest = input ∨ d ≠ quote ∧ Reads input rest := by
  simp only [readEscape] at h
  split_ifs at h with hu
  · exact Or.inr ⟨by rw [hu]; decide, readUnicode_reads h⟩
  · obtain ⟨c', hc', heq⟩ := Option.map_eq_some_iff.mp h
    cases heq
    by_cases hd : d = quote
    · subst hd
      exact Or.inl ⟨rfl, (Option.some.inj hc').symm, rfl⟩
    · exact Or.inr ⟨hd, [], by simp, rfl⟩

theorem readEscape_suffix {input rest : List Char} {c : Char}
    (h : readEscape input = some (c, rest)) : rest <:+ input := by
  cases input with
  | nil => cases h
  | cons d input =>
    rcases readEscape_cases h with ⟨-, -, rfl⟩ | ⟨-, hreads⟩
    · exact List.suffix_cons d rest
    · exact hreads.suffix.trans (List.suffix_cons d input)

/-- A character is paid for: a special one by the backslash that it is written with. -/
theorem readChar_pays {input rest : List Char} {c : Char} (hquote : input.head? ≠ some quote)
    (h : readChar input = some (c, rest)) :
    escapes [c] + backslashes rest ≤ backslashes input := by
  cases input with
  | nil => cases h
  | cons d input =>
    -- an escape pays for any character with the backslash that opens it
    have hone : escapes [c] ≤ 1 := List.countP_le_length
    rw [backslashes_cons]
    simp only [readChar] at h
    split_ifs at h with hd hcontrol
    · have hrest := backslashes_le (readEscape_suffix h)
      rw [if_pos hd]
      omega
    · -- what is read as it is is not special
      simp only [Option.some.injEq, Prod.mk.injEq] at h
      obtain ⟨rfl, rfl⟩ := h
      have hspecial : isSpecial d = false := by
        simp only [List.head?_cons, ne_eq, Option.some.injEq] at hquote
        simp [isSpecial, hd, hcontrol, hquote]
      simp [escapes, hspecial]

theorem readChars_pays : ∀ (fuel : ℕ) (input : List Char) {v rest : List Char},
    readChars fuel input = some (v, rest) → escapes v + backslashes rest ≤ backslashes input
  | 0, _, _, _, h => by cases h
  | fuel + 1, input, v, rest, h => by
    simp only [readChars] at h
    split_ifs at h with hquote
    · cases h
      simpa [escapes] using backslashes_le (List.tail_suffix input)
    · cases hc : readChar input with
      | none => simp [hc] at h
      | some p =>
        simp only [hc, Option.map_eq_some_iff, Prod.mk.injEq] at h
        obtain ⟨q, hq, rfl, rfl⟩ := h
        have hfirst := readChar_pays hquote hc
        have hothers := readChars_pays fuel p.2 hq
        simp only [escapes_cons] at hfirst ⊢
        simp only [escapes, List.countP_nil, zero_add] at hfirst hothers ⊢
        omega

theorem readString_pays {input rest : List Char} {text : String}
    (h : readString input = some (text, rest)) :
    escapes text.toList + backslashes rest ≤ backslashes input := by
  simp only [readString, Option.map_eq_some_iff, Prod.mk.injEq] at h
  obtain ⟨p, hp, rfl, rfl⟩ := h
  simpa using readChars_pays _ _ hp

section
variable {N : Type*} (numbers : NumberText N)

/-- The escapes of a value that is a string; those of the strings inside a value are left
out. -/
def textEscapes : Json N → ℕ
  | .str text => escapes text.toList
  | _ => 0

def fieldEscapes (fields : List (String × Json N)) : ℕ :=
  (fields.map fun field => textEscapes field.2).sum

theorem readNumber_pays {input rest : List Char} {v : Json N}
    (h : readNumber numbers input = some (v, rest)) :
    textEscapes v + backslashes rest ≤ backslashes input := by
  simp only [readNumber, Option.map_eq_some_iff, Prod.mk.injEq] at h
  obtain ⟨n, -, rfl, rfl⟩ := h
  simpa [textEscapes] using backslashes_le (List.dropWhile_suffix isNumberChar)

theorem readLiteral_pays {input rest : List Char} {v : Json N}
    (h : readLiteral input = some (v, rest)) :
    textEscapes v + backslashes rest ≤ backslashes input := by
  unfold readLiteral at h
  split at h
  · cases h
    simpa [textEscapes] using backslashes_le (List.suffix_append ['n', 'u', 'l', 'l'] rest)
  · cases h
    simpa [textEscapes] using backslashes_le (List.suffix_append ['t', 'r', 'u', 'e'] rest)
  · cases h
    simpa [textEscapes] using backslashes_le (List.suffix_append ['f', 'a', 'l', 's', 'e'] rest)
  · cases h

theorem readSeparator_backslashes {first : Bool} {input rest : List Char}
    (h : readSeparator first input = some rest) : backslashes rest ≤ backslashes input := by
  unfold readSeparator at h
  split_ifs at h
  · cases h
    exact le_rfl
  · cases h
    exact backslashes_le ((skip_suffix _).trans (List.tail_suffix input))

theorem readKey_backslashes {input rest : List Char} {key : String}
    (h : readKey input = some (key, rest)) : backslashes rest ≤ backslashes input := by
  cases input with
  | nil => cases h
  | cons c input =>
    simp only [readKey] at h
    split_ifs at h
    split at h
    · next key' text hstring =>
      split_ifs at h
      cases h
      have hpays := readString_pays hstring
      have htail := backslashes_le ((List.tail_suffix _).trans (skip_suffix text))
      have hinput := backslashes_le (List.suffix_cons c input)
      omega
    · cases h

mutual

/-- Reading a value costs what its strings hold; the induction is on the fuel. -/
theorem readValue_pays : ∀ (fuel : ℕ) (input : List Char) {v : Json N} {rest : List Char},
    readValue numbers fuel input = some (v, rest) →
    textEscapes v + backslashes rest ≤ backslashes input
  | 0, _, _, _, h => by simp [readValue] at h
  | fuel + 1, input, v, rest, h => by
    have hskip := backslashes_le (skip_suffix input)
    simp only [readValue] at h
    split at h
    · cases h
    · next c text hinput =>
      rw [hinput] at hskip
      have htext := backslashes_le (List.suffix_cons c text)
      split_ifs at h
      · simp only [Option.map_eq_some_iff, Prod.mk.injEq] at h
        obtain ⟨p, hp, rfl, rfl⟩ := h
        have := readString_pays hp
        simp only [textEscapes]
        omega
      · -- the strings inside a list do not count
        simp only [Option.map_eq_some_iff, Prod.mk.injEq] at h
        obtain ⟨p, hp, rfl, rfl⟩ := h
        have := readItems_backslashes fuel true text hp
        simp only [textEscapes]
        omega
      · simp only [Option.map_eq_some_iff, Prod.mk.injEq] at h
        obtain ⟨p, hp, rfl, rfl⟩ := h
        have := readFields_pays fuel true text hp
        simp only [textEscapes]
        omega
      · have := readNumber_pays numbers h
        omega
      · have := readLiteral_pays h
        omega

theorem readItems_backslashes : ∀ (fuel : ℕ) (first : Bool) (input : List Char)
    {items : List (Json N)} {rest : List Char},
    readItems numbers fuel first input = some (items, rest) →
    backslashes rest ≤ backslashes input
  | 0, _, _, _, _, h => by simp [readItems] at h
  | fuel + 1, first, input, items, rest, h => by
    have hskip := backslashes_le (skip_suffix input)
    simp only [readItems] at h
    split_ifs at h
    · cases h
      have := backslashes_le (List.tail_suffix (skip input))
      omega
    · split at h
      · cases h
      · next text hseparator =>
        have htext := readSeparator_backslashes hseparator
        split at h
        · cases h
        · next v text' hv =>
          simp only [Option.map_eq_some_iff, Prod.mk.injEq] at h
          obtain ⟨p, hp, -, rfl⟩ := h
          have hvalue := readValue_pays fuel text hv
          have hothers := readItems_backslashes fuel false text' hp
          omega

theorem readFields_pays : ∀ (fuel : ℕ) (first : Bool) (input : List Char)
    {fields : List (String × Json N)} {rest : List Char},
    readFields numbers fuel first input = some (fields, rest) →
    fieldEscapes fields + backslashes rest ≤ backslashes input
  | 0, _, _, _, _, h => by simp [readFields] at h
  | fuel + 1, first, input, fields, rest, h => by
    have hskip := backslashes_le (skip_suffix input)
    simp only [readFields] at h
    split_ifs at h
    · cases h
      have := backslashes_le (List.tail_suffix (skip input))
      simp only [fieldEscapes, List.map_nil, List.sum_nil]
      omega
    · split at h
      · cases h
      · next text hseparator =>
        have htext := readSeparator_backslashes hseparator
        split at h
        · cases h
        · next key text' hkey =>
          have htext' := readKey_backslashes hkey
          split at h
          · cases h
          · next v text'' hv =>
            simp only [Option.map_eq_some_iff, Prod.mk.injEq] at h
            obtain ⟨p, hp, rfl, rfl⟩ := h
            have hvalue := readValue_pays fuel text' hv
            have hothers := readFields_pays fuel false text'' hp
            simp only [fieldEscapes, List.map_cons, List.sum_cons] at hothers ⊢
            omega

end

/-- What is read as an object starts with its bracket. -/
theorem readValue_obj {fuel : ℕ} {input rest : List Char} {fields : List (String × Json N)}
    (h : readValue numbers (fuel + 1) input = some (.obj fields, rest)) :
    ∃ text, skip input = '{' :: text ∧ readFields numbers fuel true text = some (fields, rest) := by
  simp only [readValue] at h
  split at h
  · cases h
  · next c text hinput =>
    split_ifs at h with hquote hitems hfields hnumber
    · simp at h
    · simp at h
    · simp only [Option.map_eq_some_iff, Prod.mk.injEq, Json.obj.injEq] at h
      obtain ⟨p, hp, rfl, rfl⟩ := h
      exact ⟨text, by rw [hinput, hfields], hp⟩
    · simp [readNumber] at h
    · unfold readLiteral at h
      split at h <;> simp at h

/-- A text that is parsed is read with its length as the fuel. -/
theorem readValue_of_parse {text : String} {v : Json N} (h : parse numbers text = some v) :
    ∃ rest, readValue numbers text.toList.length text.toList = some (v, rest) := by
  unfold parse at h
  split at h
  · next _ rest hv =>
    split_ifs at h
    cases h
    exact ⟨rest, hv⟩
  · cases h

/-- The fields of an object are paid for by the text that it is read from. -/
theorem parse_pays {text : String} {fields : List (String × Json N)}
    (h : parse numbers text = some (.obj fields)) :
    fieldEscapes fields ≤ backslashes text.toList := by
  obtain ⟨rest, hv⟩ := readValue_of_parse numbers h
  cases hfuel : text.toList.length with
  | zero => simp [hfuel, readValue] at hv
  | succ fuel =>
    rw [hfuel] at hv
    obtain ⟨body, hbody, hfields⟩ := readValue_obj numbers hv
    have hpays := readFields_pays numbers fuel true body hfields
    have htext := backslashes_le (skip_suffix text.toList)
    rw [hbody, backslashes_cons] at htext
    omega

theorem textEscapes_le_of_lookup {fields : List (String × Json N)} {key : String} {v : Json N}
    (h : fields.lookup key = some v) : textEscapes v ≤ fieldEscapes fields := by
  induction fields with
  | nil => cases h
  | cons field fields ih =>
    obtain ⟨k, w⟩ := field
    rw [lookup_cons_ite] at h
    simp only [fieldEscapes, List.map_cons, List.sum_cons] at ih ⊢
    split_ifs at h
    · cases h
      omega
    · have := ih h
      omega

/-- Two fields of an object have their escapes apart. -/
theorem textEscapes_add_le_of_lookup {fields : List (String × Json N)} {key key' : String}
    {v v' : Json N} (hne : key ≠ key') (h : fields.lookup key = some v)
    (h' : fields.lookup key' = some v') : textEscapes v + textEscapes v' ≤ fieldEscapes fields := by
  induction fields with
  | nil => cases h
  | cons field fields ih =>
    obtain ⟨k, w⟩ := field
    rw [lookup_cons_ite] at h h'
    have hsum : fieldEscapes ((k, w) :: fields) = textEscapes w + fieldEscapes fields := by
      simp only [fieldEscapes, List.map_cons, List.sum_cons]
    rw [hsum]
    split_ifs at h h' with hk hk'
    · exact absurd (hk.trans hk'.symm) hne
    · cases h
      have := textEscapes_le_of_lookup h'
      omega
    · cases h'
      have := textEscapes_le_of_lookup h
      omega
    · have := ih h h'
      omega

theorem fieldEscapes_reverse (fields : List (String × Json N)) :
    fieldEscapes fields.reverse = fieldEscapes fields := by
  simp only [fieldEscapes, List.map_reverse, List.sum_reverse]

/-! ### Texts that are read up to a place -/

theorem readValue_brace (fuel : ℕ) (text : List Char) :
    readValue numbers (fuel + 1) ('{' :: text) =
      (readFields numbers fuel true text).map fun p => (.obj p.1, p.2) := by
  simp only [readValue, skip_cons (show isSpace '{' = false by decide),
    show '{' ≠ quote by decide, show '{' ≠ '[' by decide, ↓reduceIte]

theorem readValue_quote (fuel : ℕ) (text : List Char) :
    readValue numbers (fuel + 1) (quote :: text) =
      (readString text).map fun p => (.str p.1, p.2) := by
  simp only [readValue, skip_cons (show isSpace quote = false by decide), ↓reduceIte]

/-- An entry of an object whose key is printed: the value and the other entries are what is
left to be read. -/
theorem readFields_field (ascii : Bool) (fuel : ℕ) (first : Bool) (key : String)
    (text : List Char) :
    readFields numbers (fuel + 1) first
        (separator first ++ (quoted ascii key ++ ':' :: ' ' :: text)) =
      (readValue numbers fuel text).bind fun p =>
        (readFields numbers fuel false p.2).map fun q => ((key, p.1) :: q.1, q.2) := by
  have hkey := readKey_quoted ascii key (' ' :: text)
  have hsep := readSeparator_separator (show isSpace quote = false by decide) first
  have hclose := head?_skip_separator (show isSpace quote = false by decide)
    (show quote ≠ '}' by decide) (by decide) first
  simp only [quoted, List.cons_append, List.append_assoc, List.nil_append] at hkey
  simp only [quoted, List.append_assoc, List.cons_append, List.nil_append, readFields, hclose,
    hsep, hkey, readValue_space, ↓reduceIte]
  cases readValue numbers fuel text <;> rfl

theorem readValue_quoted (ascii : Bool) (fuel : ℕ) (text : String) (rest : List Char) :
    readValue numbers (fuel + 1) (quoted ascii text ++ rest) = some (.str text, rest) := by
  simp only [quoted, List.cons_append, List.append_assoc, List.nil_append, readValue_quote,
    readString_quoted, Option.map_some]

theorem readFields_field_eq_some {ascii : Bool} {fuel : ℕ} {first : Bool} {key : String}
    {text rest : List Char} {fields : List (String × Json N)}
    (h : readFields numbers (fuel + 1) first
      (separator first ++ (quoted ascii key ++ ':' :: ' ' :: text)) = some (fields, rest)) :
    ∃ v mid others, readValue numbers fuel text = some (v, mid) ∧
      readFields numbers fuel false mid = some (others, rest) ∧ fields = (key, v) :: others := by
  rw [readFields_field] at h
  obtain ⟨⟨v, mid⟩, hv, hmap⟩ := Option.bind_eq_some_iff.mp h
  obtain ⟨⟨others, rest'⟩, hothers, heq⟩ := Option.map_eq_some_iff.mp hmap
  cases heq
  exact ⟨v, mid, others, hv, hothers, rfl⟩

/-- An entry whose value is a printed text. -/
theorem readFields_text {ascii : Bool} {fuel : ℕ} {first : Bool} {key text : String}
    {more rest : List Char} {fields : List (String × Json N)}
    (h : readFields numbers (fuel + 2) first (separator first ++
      (quoted ascii key ++ ':' :: ' ' :: (quoted ascii text ++ more))) = some (fields, rest)) :
    ∃ others, readFields numbers (fuel + 1) false more = some (others, rest) ∧
      fields = (key, .str text) :: others := by
  obtain ⟨v, mid, others, hv, hothers, hfields⟩ := readFields_field_eq_some numbers h
  rw [readValue_quoted] at hv
  cases hv
  exact ⟨others, hothers, hfields⟩

/-- A printed text is read up to its quote or not at all. -/
theorem rest_of_readChars {ascii : Bool} {rest r : List Char} : ∀ {text : List Char} {fuel : ℕ}
    {v : List Char}, readChars fuel (text.flatMap (escape ascii) ++ quote :: rest) = some (v, r) →
    r = rest
  | _, 0, _, h => by cases h
  | [], fuel + 1, v, h => by
    simp only [List.flatMap_nil, List.nil_append, readChars, List.head?_cons, ↓reduceIte,
      List.tail_cons, Option.some.injEq, Prod.mk.injEq] at h
    exact h.2.symm
  | c :: text, fuel + 1, v, h => by
    simp only [List.flatMap_cons, List.append_assoc, readChars, head?_escape, ↓reduceIte,
      readChar_escape, Option.map_eq_some_iff, Prod.mk.injEq] at h
    obtain ⟨⟨v', r'⟩, hread, -, rfl⟩ := h
    exact rest_of_readChars hread

/-- After an entry there is a comma or the closing bracket. -/
theorem readFields_none {fuel : ℕ} {input : List Char} (hclose : (skip input).head? ≠ some '}')
    (hcomma : (skip input).head? ≠ some ',') : readFields numbers fuel false input = none := by
  cases fuel with
  | zero => rfl
  | succ fuel => simp [readFields, readSeparator, hclose, hcomma]

end

/-! ### Strings whose text has no quote -/

/-- A character of such a text stays in it, unless it is the backslash before the quote
that ends the text. -/
theorem readChar_append {c d : Char} {text rest r : List Char} (hquote : quote ∉ c :: text)
    (h : readChar (c :: (text ++ quote :: rest)) = some (d, r)) :
    (∃ text', text' <:+ text ∧ r = text' ++ quote :: rest ∧
      (c ≠ backslash ∧ text' = text ∨ text'.length < text.length)) ∨ d = quote ∧ r = rest := by
  simp only [readChar] at h
  split_ifs at h with hback hcontrol
  · cases text with
    | nil =>
      rcases readEscape_cases h with ⟨-, hd, hr⟩ | ⟨hne, -⟩
      · exact Or.inr ⟨hd, hr⟩
      · exact absurd rfl hne
    | cons e text =>
      rcases readEscape_cases h with ⟨he, -⟩ | ⟨-, hreads⟩
      · exact absurd (by simp [he]) hquote
      · obtain ⟨text', hsuffix, hr⟩ := hreads.append
        have := hsuffix.length_le
        exact Or.inl ⟨text', hsuffix.trans (List.suffix_cons e text), hr, Or.inr (by
          rw [List.length_cons]
          omega)⟩
  · simp only [Option.some.injEq, Prod.mk.injEq] at h
    exact Or.inl ⟨text, List.suffix_rfl, h.2.symm, Or.inl ⟨hback, rfl⟩⟩

/-- A text without quotes and the quote after it: the string ends there, and is shorter
than the text if there is an escape in it, or the quote is part of the string, which then
goes on after it. -/
theorem readChars_append : ∀ (fuel : ℕ) (text rest : List Char) {v r : List Char},
    quote ∉ text → readChars fuel (text ++ quote :: rest) = some (v, r) →
    (r = rest ∧ v.length ≤ text.length ∧ (backslash ∈ text → v.length < text.length)) ∨
      ∃ fuel' v', readChars fuel' rest = some (v', r)
  | 0, _, _, _, _, _, h => by cases h
  | fuel + 1, [], rest, v, r, _, h => by
    simp only [readChars, List.nil_append, List.head?_cons, ↓reduceIte, Option.some.injEq,
      Prod.mk.injEq, List.tail_cons] at h
    exact Or.inl ⟨h.2.symm, by simp [← h.1], by simp⟩
  | fuel + 1, c :: text, rest, v, r, hquote, h => by
    have hc : c ≠ quote := by
      rintro rfl
      exact hquote (by simp)
    simp only [List.cons_append, readChars, List.head?_cons, Option.some.injEq, hc,
      ↓reduceIte] at h
    cases hread : readChar (c :: (text ++ quote :: rest)) with
    | none => simp [hread] at h
    | some p =>
      obtain ⟨d, r'⟩ := p
      simp only [hread, Option.map_eq_some_iff, Prod.mk.injEq] at h
      obtain ⟨q, hq, rfl, rfl⟩ := h
      rcases readChar_append hquote hread with ⟨text', hsuffix, rfl, hshort⟩ | ⟨-, rfl⟩
      · have hquote' : quote ∉ text' := fun hmem => hquote (by simp [hsuffix.subset hmem])
        -- the rest of the text is read in the same way
        rcases readChars_append fuel text' rest hquote' hq with ⟨hr, hlength, hescape⟩ | hmore
        · have hle := hsuffix.length_le
          refine Or.inl ⟨hr, ?_, fun hmem => ?_⟩
          · simp only [List.length_cons]
            omega
          · simp only [List.length_cons]
            rcases hshort with ⟨hback, rfl⟩ | hshort
            · have := hescape ((List.mem_cons.mp hmem).resolve_left (Ne.symm hback))
              omega
            · omega
        · exact Or.inr hmore
      · exact Or.inr ⟨fuel, q.1, hq⟩

/-- The same for a string after its opening quote. -/
theorem readString_append {text rest r : List Char} {v : String} (hquote : quote ∉ text)
    (hback : backslash ∈ text) (h : readString (text ++ quote :: rest) = some (v, r)) :
    (r = rest ∧ v ≠ String.ofList text) ∨ ∃ fuel v', readChars fuel rest = some (v', r) := by
  simp only [readString, Option.map_eq_some_iff, Prod.mk.injEq] at h
  obtain ⟨p, hp, rfl, rfl⟩ := h
  rcases readChars_append _ text rest hquote hp with ⟨hr, -, hshort⟩ | hmore
  · refine Or.inl ⟨hr, fun heq => ?_⟩
    have hlength := hshort hback
    rw [String.ofList_injective heq] at hlength
    omega
  · exact Or.inr hmore

end TradeStream.JsonText
