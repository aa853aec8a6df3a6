import ReplicaClient.Wire.Message
import ReplicaClient.Wire.Varint

/-!
# Writing messages

The fields are written in the order of their numbers, each occurrence after a key that
holds the number and the layout.  What is absent is not written.  How much a message takes is
known before it is written.
-/

namespace ReplicaClient
namespace Wire

def encodeKey (tag : Nat) (w : WireType) : Bytes :=
  Varint.encode (8 * tag + w.number)

def encodeDelimited (body : Bytes) : Bytes :=
  Varint.encode body.length ++ body

mutual

def Value.encode : Value → Kind → Bytes
  | .bytes b, _ => encodeDelimited b
  | .word n, _ => Varint.encode n.toNat
  | .flag b, _ => Varint.encode (if b then 1 else 0)
  | .signed n, _ => Varint.encode (Varint.zigzag n)
  | .single bits, _ => Bytes.littleEndian 4 bits.toNat
  | .choice n, _ => Varint.encode (Varint.ofChoice n)
  | .message slots, .message t => encodeDelimited (Value.encodeSlots slots t.fields)
  | .message _, _ => encodeDelimited []

def Value.encodeSlot : List Value → Field → Bytes
  | [], _ => []
  | v :: slot, field =>
      encodeKey field.tag field.kind.wireType ++ v.encode field.kind ++
        Value.encodeSlot slot field

def Value.encodeSlots : List (List Value) → List Field → Bytes
  | slot :: slots, field :: fields =>
      Value.encodeSlot slot field ++ Value.encodeSlots slots fields
  | _, _ => []

end

def Message.encode (t : MessageType) (m : Message) : Bytes :=
  Value.encodeSlots m t.fields

/-! ## Sizes -/

def keySize (tag : Nat) (w : WireType) : Nat :=
  Varint.size (8 * tag + w.number)

/-- The size of a body together with the length in front of it. -/
def delimitedSize (length : Nat) : Nat :=
  Varint.size length + length

mutual

def Value.encodedSize : Value → Kind → Nat
  | .bytes b, _ => delimitedSize b.length
  | .word n, _ => Varint.size n.toNat
  | .flag _, _ => 1
  | .signed n, _ => Varint.size (Varint.zigzag n)
  | .single _, _ => 4
  | .choice n, _ => Varint.size (Varint.ofChoice n)
  | .message slots, .message t => delimitedSize (Value.encodedSlotsSize slots t.fields)
  | .message _, _ => delimitedSize 0

def Value.encodedSlotSize : List Value → Field → Nat
  | [], _ => 0
  | v :: slot, field =>
      keySize field.tag field.kind.wireType + v.encodedSize field.kind +
        Value.encodedSlotSize slot field

def Value.encodedSlotsSize : List (List Value) → List Field → Nat
  | slot :: slots, field :: fields =>
      Value.encodedSlotSize slot field + Value.encodedSlotsSize slots fields
  | _, _ => 0

end

/-- How many octets `encode` writes. -/
def Message.encodedSize (t : MessageType) (m : Message) : Nat :=
  Value.encodedSlotsSize m t.fields

end Wire
end ReplicaClient
