import Mathlib

/-! Bytes as text: hexadecimal digits, and Base64 with the standard alphabet and
padding. -/
namespace TradeStream.Hex

def digit (nibble : ℕ) : Char := "0123456789abcdef".toList.getD nibble '0'

/-- Two lower-case digits for each byte. -/
def encode (bytes : List UInt8) : List Char :=
  bytes.flatMap fun b => [digit (b.toNat / 16), digit (b.toNat % 16)]

theorem digit_inj : ∀ m < 16, ∀ n < 16, digit m = digit n → m = n := by
  decide

theorem encode_injective : Function.Injective encode := by
  intro xs
  induction xs with
  | nil =>
    intro ys h
    cases ys with
    | nil => rfl
    | cons y ys => simp [encode] at h
  | cons x xs ih =>
    intro ys h
    cases ys with
    | nil => simp [encode] at h
    | cons y ys =>
      simp only [encode, List.flatMap_cons, List.cons_append, List.nil_append,
        List.cons.injEq] at h
      obtain ⟨hhigh, hlow, hrest⟩ := h
      have hx := x.toNat_lt
      have hy := y.toNat_lt
      have h1 := digit_inj _ (by omega) _ (by omega) hhigh
      have h2 := digit_inj _ (by omega) _ (by omega) hlow
      have hxy : x = y := UInt8.toNat_inj.mp (by omega)
      rw [hxy, ih hrest]

end TradeStream.Hex

namespace TradeStream.Base64

def alphabet : List Char :=
  "ABCDEFGHIJKLMNOPQRSTUVWXYZabcdefghijklmnopqrstuvwxyz0123456789+/".toList

def charOf (sextet : ℕ) : Char := alphabet.getD sextet '='

def sextetOf (c : Char) : Option ℕ := alphabet.findIdx? fun a => a = c

def encode : List UInt8 → List Char
  | [] => []
  | [a] => [charOf (a.toNat / 4), charOf (a.toNat % 4 * 16), '=', '=']
  | [a, b] =>
    [charOf (a.toNat / 4), charOf (a.toNat % 4 * 16 + b.toNat / 16), charOf (b.toNat % 16 * 4), '=']
  | a :: b :: c :: rest =>
    charOf (a.toNat / 4) :: charOf (a.toNat % 4 * 16 + b.toNat / 16) ::
      charOf (b.toNat % 16 * 4 + c.toNat / 64) :: charOf (c.toNat % 64) :: encode rest

def firstByte (w x : ℕ) : UInt8 := UInt8.ofNat (w * 4 + x / 16)

def secondByte (x y : ℕ) : UInt8 := UInt8.ofNat (x % 16 * 16 + y / 4)

def thirdByte (y z : ℕ) : UInt8 := UInt8.ofNat (y % 4 * 64 + z)

/-- `none` on a character outside the alphabet, on one character left over and on
padding that is misplaced. Padding at the end may be left out altogether. -/
def decode : List Char → Option (List UInt8)
  | [] => some []
  | [_] => none
  | [a, b] => do
    let w ← sextetOf a
    let x ← sextetOf b
    return [firstByte w x]
  | [a, b, c] => do
    let w ← sextetOf a
    let x ← sextetOf b
    let y ← sextetOf c
    return [firstByte w x, secondByte x y]
  | a :: b :: c :: d :: rest => do
    let w ← sextetOf a
    let x ← sextetOf b
    -- padding ends the text, and is one or two characters
    if c = '=' then
      if d = '=' ∧ rest = [] then return [firstByte w x] else none
    else
      let y ← sextetOf c
      if d = '=' then
        if rest = [] then return [firstByte w x, secondByte x y] else none
      else
        let z ← sextetOf d
        let bytes ← decode rest
        return firstByte w x :: secondByte x y :: thirdByte y z :: bytes

theorem sextetOf_charOf {n : ℕ} (h : n < 64) : sextetOf (charOf n) = some n := by
  revert n
  decide +kernel

theorem charOf_ne_padding {n : ℕ} (h : n < 64) : charOf n ≠ '=' := by
  revert n
  decide +kernel

theorem firstByte_eq (a : UInt8) (x : ℕ) (hx : x / 16 = a.toNat % 4) :
    firstByte (a.toNat / 4) x = a := by
  have ha : a.toNat / 4 * 4 + x / 16 = a.toNat := by omega
  rw [firstByte, ha, UInt8.ofNat_toNat]

theorem secondByte_eq (b : UInt8) (x y : ℕ) (hx : x % 16 = b.toNat / 16)
    (hy : y / 4 = b.toNat % 16) : secondByte x y = b := by
  have hb : x % 16 * 16 + y / 4 = b.toNat := by omega
  rw [secondByte, hb, UInt8.ofNat_toNat]

theorem thirdByte_eq (c : UInt8) (y : ℕ) (hy : y % 4 = c.toNat / 64) :
    thirdByte y (c.toNat % 64) = c := by
  have hc : y % 4 * 64 + c.toNat % 64 = c.toNat := by omega
  rw [thirdByte, hc, UInt8.ofNat_toNat]

/-- Every byte sequence survives the round trip. -/
theorem decode_encode (bytes : List UInt8) : decode (encode bytes) = some bytes := by
  -- three bytes at a time, and the last one or two with padding
  induction bytes using encode.induct with
  | case1 => rfl
  | case2 a =>
    have ha := a.toNat_lt
    have h1 := sextetOf_charOf (n := a.toNat / 4) (by omega)
    have h2 := sextetOf_charOf (n := a.toNat % 4 * 16) (by omega)
    have hfirst := firstByte_eq a (a.toNat % 4 * 16) (by omega)
    simp [encode, decode, h1, h2, hfirst]
  | case3 a b =>
    have ha := a.toNat_lt
    have hb := b.toNat_lt
    have h1 := sextetOf_charOf (n := a.toNat / 4) (by omega)
    have h2 := sextetOf_charOf (n := a.toNat % 4 * 16 + b.toNat / 16) (by omega)
    have h3 := sextetOf_charOf (n := b.toNat % 16 * 4) (by omega)
    have hp := charOf_ne_padding (n := b.toNat % 16 * 4) (by omega)
    have hfirst := firstByte_eq a (a.toNat % 4 * 16 + b.toNat / 16) (by omega)
    have hsecond := secondByte_eq b (a.toNat % 4 * 16 + b.toNat / 16) (b.toNat % 16 * 4)
      (by omega) (by omega)
    simp [encode, decode, h1, h2, h3, hp, hfirst, hsecond]
  | case4 a b c rest ih =>
    have ha := a.toNat_lt
    have hb := b.toNat_lt
    have hc := c.toNat_lt
    have h1 := sextetOf_charOf (n := a.toNat / 4) (by omega)
    have h2 := sextetOf_charOf (n := a.toNat % 4 * 16 + b.toNat / 16) (by omega)
    have h3 := sextetOf_charOf (n := b.toNat % 16 * 4 + c.toNat / 64) (by omega)
    have h4 := sextetOf_charOf (n := c.toNat % 64) (by omega)
    have hp := charOf_ne_padding (n := b.toNat % 16 * 4 + c.toNat / 64) (by omega)
    have hq := charOf_ne_padding (n := c.toNat % 64) (by omega)
    have hfirst := firstByte_eq a (a.toNat % 4 * 16 + b.toNat / 16) (by omega)
    have hsecond := secondByte_eq b (a.toNat % 4 * 16 + b.toNat / 16)
      (b.toNat % 16 * 4 + c.toNat / 64) (by omega) (by omega)
    have hthird := thirdByte_eq c (b.toNat % 16 * 4 + c.toNat / 64) (by omega)
    rw [encode, decode]
    simp [h1, h2, h3, h4, hp, hq, hfirst, hsecond, hthird, ih]

end TradeStream.Base64
