import TradeStream.JsonText

/-! How long the text of a JSON value is, from how long the texts of its parts are. -/
namespace TradeStream.JsonText

variable {N : Type*} (numbers : NumberText N)

/-- `len(json.dumps(v))`. -/
def size (v : Json N) : ℕ := (chars numbers true v).length

def keySize (key : String) : ℕ := (quoted true key).length

/-- Each item has a separator or the brackets beside it. -/
def arraySize (sizes : List ℕ) : ℕ := max 2 (sizes.map (· + 2)).sum

/-- Keys with the sizes of their values. -/
def objectSize (sizes : List (String × ℕ)) : ℕ :=
  max 2 (sizes.map fun s => keySize s.1 + s.2 + 4).sum

def fieldSizes (fields : List (String × Json N)) : List (String × ℕ) :=
  fields.map fun f => (f.1, size numbers f.2)

theorem length_itemChars (items : List (Json N)) :
    (itemChars numbers true false items).length =
      1 + ((items.map (size numbers)).map (· + 2)).sum := by
  induction items with
  | nil => rfl
  | cons v items ih =>
    rw [itemChars, List.length_append, List.length_append, ih, separator]
    simp only [Bool.false_eq_true, ↓reduceIte, List.length_cons, List.length_nil, List.map_cons,
      List.sum_cons, size]
    omega

theorem size_arr (items : List (Json N)) :
    size numbers (.arr items) = arraySize (items.map (size numbers)) := by
  cases items with
  | nil => simp [size, chars, itemChars, arraySize]
  | cons v items =>
    have hrest := length_itemChars numbers items
    have hlength : size numbers (.arr (v :: items)) =
        1 + (size numbers v + (itemChars numbers true false items).length) := by
      simp only [size, chars, itemChars, separator, ↓reduceIte, List.nil_append, List.length_cons,
        List.length_append]
      omega
    rw [hlength, hrest, arraySize, List.map_cons, List.map_cons, List.sum_cons]
    omega

theorem length_fieldChars (fields : List (String × Json N)) :
    (fieldChars numbers true false fields).length =
      1 + ((fieldSizes numbers fields).map fun s => keySize s.1 + s.2 + 4).sum := by
  induction fields with
  | nil => rfl
  | cons field fields ih =>
    obtain ⟨key, v⟩ := field
    rw [fieldSizes] at ih ⊢
    rw [fieldChars, List.length_append, List.length_append, List.length_cons, List.length_cons,
      List.length_append, ih, separator]
    simp only [Bool.false_eq_true, ↓reduceIte, List.length_cons, List.length_nil, List.map_cons,
      List.sum_cons, keySize, size]
    omega

theorem size_obj (fields : List (String × Json N)) :
    size numbers (.obj fields) = objectSize (fieldSizes numbers fields) := by
  cases fields with
  | nil => simp [size, chars, fieldChars, objectSize, fieldSizes]
  | cons field fields =>
    obtain ⟨key, v⟩ := field
    have hrest := length_fieldChars numbers fields
    have hlength : size numbers (.obj ((key, v) :: fields)) =
        1 + (keySize key + (2 + (size numbers v +
          (fieldChars numbers true false fields).length))) := by
      simp only [size, keySize, chars, fieldChars, separator, ↓reduceIte, List.nil_append,
        List.length_cons, List.length_append]
      omega
    rw [hlength, hrest, objectSize, fieldSizes, fieldSizes, List.map_cons, List.map_cons,
      List.sum_cons]
    dsimp only
    omega

end TradeStream.JsonText
