import Mathlib

/-! The protobuf wire format: varints and fields, without groups and without a limit
on the length of a varint. -/
namespace TradeStream.ProtobufWire

def encodeVarint (n : ℕ) : List UInt8 :=
  if n < 128 then [UInt8.ofNat n] else UInt8.ofNat (n % 128 + 128) :: encodeVarint (n / 128)

def decodeVarint : List UInt8 → Option (ℕ × List UInt8)
  | [] => none
  | b :: rest =>
    if b.toNat < 128 then some (b.toNat, rest)
    else (decodeVarint rest).map fun (n, rest) => (b.toNat - 128 + 128 * n, rest)

def takeBytes (n : ℕ) (bytes : List UInt8) : Option (List UInt8 × List UInt8) :=
  if n ≤ bytes.length then some (bytes.take n, bytes.drop n) else none

inductive Payload where
  | varint (value : ℕ)
  | fixed64 (bytes : List UInt8)
  | lengthDelimited (bytes : List UInt8)
  | fixed32 (bytes : List UInt8)
  deriving DecidableEq, Repr

structure Field where
  number : ℕ
  payload : Payload
  deriving DecidableEq, Repr

/-- A length-delimited field: tag, length, content. -/
def encodeBytes (number : ℕ) (content : List UInt8) : List UInt8 :=
  encodeVarint (number * 8 + 2) ++ (encodeVarint content.length ++ content)

def decodePayload (wireType : ℕ) (bytes : List UInt8) : Option (Payload × List UInt8) :=
  match wireType with
  | 0 => (decodeVarint bytes).map fun (n, rest) => (.varint n, rest)
  | 1 => (takeBytes 8 bytes).map fun (b, rest) => (.fixed64 b, rest)
  | 2 => do
    let (n, rest) ← decodeVarint bytes
    let (content, rest) ← takeBytes n rest
    return (.lengthDelimited content, rest)
  | 5 => (takeBytes 4 bytes).map fun (b, rest) => (.fixed32 b, rest)
  | _ => none

def decodeField (bytes : List UInt8) : Option (Field × List UInt8) := do
  let (tag, rest) ← decodeVarint bytes
  let (payload, rest) ← decodePayload (tag % 8) rest
  return (⟨tag / 8, payload⟩, rest)

/-- A field takes a byte at least, so a fuel of the input's length is enough. -/
def decodeFields : ℕ → List UInt8 → Option (List Field)
  | _, [] => some []
  | 0, _ :: _ => none
  | fuel + 1, b :: bytes => do
    let (field, rest) ← decodeField (b :: bytes)
    let fields ← decodeFields fuel rest
    return field :: fields

/-- The fields of a message. -/
def decodeMessage (bytes : List UInt8) : Option (List Field) := decodeFields bytes.length bytes

theorem decodeVarint_encodeVarint (n : ℕ) (rest : List UInt8) :
    decodeVarint (encodeVarint n ++ rest) = some (n, rest) := by
  induction n using encodeVarint.induct with
  | case1 n h =>
    have hn : (UInt8.ofNat n).toNat = n := by
      rw [UInt8.toNat_ofNat', Nat.mod_eq_of_lt (by omega)]
    rw [encodeVarint, if_pos h, List.singleton_append, decodeVarint, hn, if_pos h]
  | case2 n h ih =>
    have hb : (UInt8.ofNat (n % 128 + 128)).toNat = n % 128 + 128 := by
      rw [UInt8.toNat_ofNat', Nat.mod_eq_of_lt (by omega)]
    have hn : n % 128 + 128 - 128 + 128 * (n / 128) = n := by omega
    rw [encodeVarint, if_neg h, List.cons_append, decodeVarint, hb, if_neg (by omega), ih]
    simp only [Option.map_some, hn]

theorem encodeVarint_ne_nil (n : ℕ) : encodeVarint n ≠ [] := by
  rw [encodeVarint]
  split_ifs
  · exact List.cons_ne_nil _ _
  · exact List.cons_ne_nil _ _

theorem takeBytes_append (a b : List UInt8) : takeBytes a.length (a ++ b) = some (a, b) := by
  rw [takeBytes, if_pos (by simp), List.take_left, List.drop_left]

theorem decodeField_encodeBytes (number : ℕ) (content rest : List UInt8) :
    decodeField (encodeBytes number content ++ rest) =
      some (⟨number, .lengthDelimited content⟩, rest) := by
  have hwire : (number * 8 + 2) % 8 = 2 := by omega
  have hnumber : (number * 8 + 2) / 8 = number := by omega
  rw [encodeBytes, List.append_assoc, List.append_assoc, decodeField, decodeVarint_encodeVarint]
  simp [decodePayload, hwire, hnumber, decodeVarint_encodeVarint, takeBytes_append]

theorem two_le_length_encodeBytes (number : ℕ) (content : List UInt8) :
    2 ≤ (encodeBytes number content).length := by
  have h1 := List.length_pos_of_ne_nil (encodeVarint_ne_nil (number * 8 + 2))
  have h2 := List.length_pos_of_ne_nil (encodeVarint_ne_nil content.length)
  rw [encodeBytes, List.length_append, List.length_append]
  omega

theorem decodeFields_nil (fuel : ℕ) : decodeFields fuel [] = some [] := by
  cases fuel <;> rfl

theorem decodeFields_encodeBytes (fuel number : ℕ) (content rest : List UInt8) :
    decodeFields (fuel + 1) (encodeBytes number content ++ rest) =
      (decodeFields fuel rest).map (⟨number, .lengthDelimited content⟩ :: ·) := by
  have hne : encodeBytes number content ++ rest ≠ [] := by
    simp [encodeBytes, encodeVarint_ne_nil]
  obtain ⟨b, bytes, hcons⟩ := List.exists_cons_of_ne_nil hne
  have hfield := decodeField_encodeBytes number content rest
  rw [hcons] at hfield ⊢
  rw [decodeFields, hfield]
  cases h : decodeFields fuel rest <;> simp [h]

/-- Length-delimited fields, one after the other, are read back in order. -/
theorem decodeMessage_encodeBytes (fields : List (ℕ × List UInt8)) :
    decodeMessage (fields.flatMap fun f => encodeBytes f.1 f.2) =
      some (fields.map fun f => ⟨f.1, .lengthDelimited f.2⟩) := by
  have hfuel : ∀ fuel, (fields.flatMap fun f => encodeBytes f.1 f.2).length ≤ fuel →
      decodeFields fuel (fields.flatMap fun f => encodeBytes f.1 f.2) =
        some (fields.map fun f => ⟨f.1, .lengthDelimited f.2⟩) := by
    induction fields with
    | nil =>
      intro fuel _
      exact decodeFields_nil fuel
    | cons f fields ih =>
      intro fuel hle
      rw [List.flatMap_cons, List.length_append] at hle
      have htwo := two_le_length_encodeBytes f.1 f.2
      obtain ⟨k, rfl⟩ : ∃ k, fuel = k + 1 := ⟨fuel - 1, by omega⟩
      rw [List.flatMap_cons, decodeFields_encodeBytes, ih k (by omega), List.map_cons]
      rfl
  exact hfuel _ le_rfl

end TradeStream.ProtobufWire
