import ReplicaClient.Bytes
import ReplicaClient.Wire.Schema

/-!
# Messages

A message is a row of slots, one for each field of its type and in the same order.  A slot
lists the occurrences of its field: exactly one if the field is required, at most one if it
is optional, any number if it repeats.
-/

namespace ReplicaClient
namespace Wire

inductive Value where
  | bytes (b : Bytes)
  | word (n : UInt32)
  | flag (b : Bool)
  | signed (n : Int64)
  | single (bits : UInt32)
  | choice (n : Int32)
  | message (slots : List (List Value))
  deriving Repr, Inhabited

abbrev Slot := List Value
abbrev Message := List Slot

/-- How an occurrence is laid out on the wire. -/
inductive WireType where
  | varint
  | sixtyFourBit
  | lengthDelimited
  | startGroup
  | endGroup
  | thirtyTwoBit
  deriving DecidableEq, Repr

namespace WireType

def number : WireType → Nat
  | varint => 0
  | sixtyFourBit => 1
  | lengthDelimited => 2
  | startGroup => 3
  | endGroup => 4
  | thirtyTwoBit => 5

def ofNumber? : Nat → Option WireType
  | 0 => some varint
  | 1 => some sixtyFourBit
  | 2 => some lengthDelimited
  | 3 => some startGroup
  | 4 => some endGroup
  | 5 => some thirtyTwoBit
  | _ => none

def name : WireType → String
  | varint => "Varint"
  | sixtyFourBit => "SixtyFourBit"
  | lengthDelimited => "LengthDelimited"
  | startGroup => "StartGroup"
  | endGroup => "EndGroup"
  | thirtyTwoBit => "ThirtyTwoBit"

end WireType

def Kind.wireType : Kind → WireType
  | .bytes | .message _ => .lengthDelimited
  | .word | .flag | .signed | .choice _ => .varint
  | .single => .thirtyTwoBit

mutual

/-- The value holds what the kind announces. -/
def Value.Conforms : Value → Kind → Prop
  | .bytes _, .bytes => True
  | .word _, .word => True
  | .flag _, .flag => True
  | .signed _, .signed => True
  | .single _, .single => True
  | .choice _, .choice _ => True
  | .message slots, .message t => Value.SlotsConform slots t.fields
  | _, _ => False

/-- Each occurrence in the slot is of the kind. -/
def Value.SlotConforms : List Value → Kind → Prop
  | [], _ => True
  | v :: slot, k => v.Conforms k ∧ Value.SlotConforms slot k

/-- The slots fit the fields one by one, in kind and in number. -/
def Value.SlotsConform : List (List Value) → List Field → Prop
  | [], [] => True
  | slot :: slots, field :: fields =>
      Value.SlotConforms slot field.kind ∧
        (match field.label with
          | .required => slot.length = 1
          | .optional => slot.length ≤ 1
          | .repeated => True) ∧
        Value.SlotsConform slots fields
  | _, _ => False

end

/-- The message has the fields of its type, each as often as the type allows. -/
def Message.Conforms (m : Message) (t : MessageType) : Prop :=
  Value.SlotsConform m t.fields

/-- What a required field holds before it has been read; submessages are filled in down to the
given depth. -/
def Kind.defaultTo : (depth : Nat) → Kind → Value
  | _, .bytes => .bytes []
  | _, .word => .word 0
  | _, .flag => .flag false
  | _, .signed => .signed 0
  | _, .single => .single 0
  | _, .choice first => .choice first
  | 0, .message _ => .message []
  | depth + 1, .message t =>
      .message (t.fields.map fun field ↦
        if field.label = .required then [defaultTo depth field.kind] else [])

/-- No message type has required submessages more than two levels deep. -/
def Kind.default (k : Kind) : Value :=
  k.defaultTo 3

/-- The message in which no field has been read. -/
def MessageType.default (t : MessageType) : Message :=
  t.fields.map fun field ↦ if field.label = .required then [field.kind.default] else []

namespace Slot

def bytes (slot : Slot) : Bytes :=
  match slot with
  | .bytes b :: _ => b
  | _ => []

def bytes? (slot : Slot) : Option Bytes :=
  match slot with
  | .bytes b :: _ => some b
  | _ => none

def word? (slot : Slot) : Option UInt32 :=
  match slot with
  | .word n :: _ => some n
  | _ => none

def flag? (slot : Slot) : Option Bool :=
  match slot with
  | .flag b :: _ => some b
  | _ => none

def signed? (slot : Slot) : Option Int64 :=
  match slot with
  | .signed n :: _ => some n
  | _ => none

def single? (slot : Slot) : Option UInt32 :=
  match slot with
  | .single bits :: _ => some bits
  | _ => none

def choice? (slot : Slot) : Option Int32 :=
  match slot with
  | .choice n :: _ => some n
  | _ => none

def message? (slot : Slot) : Option Message :=
  match slot with
  | .message m :: _ => some m
  | _ => none

def allBytes (slot : Slot) : List Bytes :=
  slot.map fun v ↦ Slot.bytes [v]

def allMessages (slot : Slot) : List Message :=
  slot.map fun v ↦ (message? [v]).getD []

def ofBytes (b : Bytes) : Slot := [.bytes b]
def ofBytes? (b : Option Bytes) : Slot := (b.map .bytes).toList
def ofWord? (n : Option UInt32) : Slot := (n.map .word).toList
def ofFlag? (b : Option Bool) : Slot := (b.map .flag).toList
def ofAllBytes (bs : List Bytes) : Slot := bs.map .bytes
def ofAllMessages (ms : List Message) : Slot := ms.map .message

end Slot
end Wire
end ReplicaClient
