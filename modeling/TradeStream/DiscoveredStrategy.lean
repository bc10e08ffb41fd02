import TradeStream.ProtobufWire
import TradeStream.TextEncoding
import TradeStream.Timestamp

/-! The messages of `discovery.proto` that carry a discovered strategy, and the
strategy hash computed from them. -/
namespace TradeStream.Discovery
open TradeStream.ProtobufWire

/-- `google.protobuf.Any`. -/
structure AnyMessage where
  typeUrl : String
  value : List UInt8
  deriving DecidableEq

namespace AnyMessage

/-- The fields on the wire: those with a value other than the default. -/
def wireFields (a : AnyMessage) : List (ℕ × List UInt8) :=
  (if a.typeUrl = "" then [] else [(1, a.typeUrl.toByteArray.data.toList)]) ++
    if a.value = [] then [] else [(2, a.value)]

def toByteArray (a : AnyMessage) : List UInt8 :=
  a.wireFields.flatMap fun f => encodeBytes f.1 f.2

/-- One field of the input read into the message. Unknown fields are passed over. -/
def mergeField (a : AnyMessage) (f : Field) : Option AnyMessage :=
  match f with
  | ⟨1, .lengthDelimited bytes⟩ =>
    (String.fromUTF8? ⟨bytes.toArray⟩).map fun typeUrl => { a with typeUrl := typeUrl }
  | ⟨2, .lengthDelimited bytes⟩ => some { a with value := bytes }
  | _ => some a

/-- `none` stands for an `InvalidProtocolBufferException`. -/
def parseFrom (bytes : List UInt8) : Option AnyMessage :=
  (decodeMessage bytes).bind fun fields => fields.foldlM mergeField ⟨"", []⟩

theorem fromUTF8?_toByteArray (s : String) :
    String.fromUTF8? ⟨s.toByteArray.data⟩ = some s := by
  have h : (⟨s.toByteArray.data⟩ : ByteArray).IsValidUTF8 := s.isValidUTF8
  rw [String.fromUTF8?, dif_pos h]
  rfl

theorem parseFrom_toByteArray (a : AnyMessage) : parseFrom a.toByteArray = some a := by
  rw [parseFrom, toByteArray, decodeMessage_encodeBytes, Option.bind_some]
  obtain ⟨typeUrl, value⟩ := a
  by_cases hurl : typeUrl = ""
  · by_cases hvalue : value = []
    · simp [wireFields, hurl, hvalue]
    · simp [wireFields, hurl, hvalue, mergeField]
  · by_cases hvalue : value = []
    · simp [wireFields, hurl, hvalue, mergeField, fromUTF8?_toByteArray]
    · simp [wireFields, hurl, hvalue, mergeField, fromUTF8?_toByteArray]

theorem toByteArray_injective : Function.Injective toByteArray := by
  intro a b h
  have hab : some a = some b := by
    rw [← parseFrom_toByteArray a, ← parseFrom_toByteArray b, h]
  exact Option.some.inj hab

end AnyMessage

/-- `strategies.Strategy`. -/
structure Strategy where
  strategyName : String
  parameters : AnyMessage

structure DiscoveredStrategy (Score : Type*) where
  strategy : Strategy
  score : Score
  symbol : String
  startTime : Timestamp
  endTime : Timestamp

/-- The hexadecimal SHA-256 digest of the serialized parameters. Nothing else of the
strategy goes into it. -/
def strategyHash (sha256 : List UInt8 → List UInt8) (parameters : AnyMessage) : String :=
  String.ofList (Hex.encode (sha256 parameters.toByteArray))

theorem strategyHash_injective {sha256 : List UInt8 → List UInt8}
    (h : Function.Injective sha256) : Function.Injective (strategyHash sha256) := by
  intro a b hab
  apply AnyMessage.toByteArray_injective
  apply h
  apply Hex.encode_injective
  exact String.ofList_injective hab

end TradeStream.Discovery
