import ReplicaClient.Json.Access
import ReplicaClient.Text.Hex
import ReplicaClient.Wire.Message

/-!
# Messages as JSON

A message is shown as an object with a member for each of its fields: octets as hexadecimal
text, numbers as numbers, enclosed messages as objects.  A field that repeats is an array, and
an absent one is null.  In the other direction a member that is missing or null leaves its
field as it is in a new message.
-/

namespace ReplicaClient
namespace Wire

mutual

def Value.toJson : Value → Kind → Json
  | .bytes b, _ => .string (Hex.encode b)
  | .word n, _ => .ofNat n.toNat
  | .flag b, _ => .bool b
  | .signed n, _ => .ofInt n.toInt
  | .single bits, _ => .ofNat bits.toNat
  | .choice n, _ => .ofInt n.toInt
  | .message slots, .message t => .ofMembers (Value.slotsToMembers slots t.fields)
  | .message _, _ => .null

def Value.slotToItems : List Value → Kind → List Json
  | [], _ => []
  | v :: slot, k => v.toJson k :: Value.slotToItems slot k

def Value.slotsToMembers : List (List Value) → List Field → List (String × Json)
  | slot :: slots, field :: fields =>
      let items := Value.slotToItems slot field.kind
      (field.name, if field.label = .repeated then .array items else items.headD .null) ::
        Value.slotsToMembers slots fields
  | _, _ => []

end

def Message.toJson (t : MessageType) (m : Message) : Json :=
  .ofMembers (Value.slotsToMembers m t.fields)

def bytesOfJson (j : Json) : Bytes :=
  (Hex.decode? j.toText).getD []

def Kind.valueOfJson (k : Kind) (j : Json) : Value :=
  match k with
  | .bytes => .bytes (bytesOfJson j)
  | .word => .word (UInt32.ofNat j.toNat)
  | .flag => .flag j.toBool
  | .signed => .signed (Int64.ofInt j.toInt)
  | .single => .single (UInt32.ofNat j.toNat)
  | .choice _ => .choice (Int32.ofInt j.toInt)
  | .message t => .message t.default

mutual

def Value.ofJson : Json → Kind → Value
  | .object members, .message t => .message (Value.setMembers members t t.default)
  | j, k => k.valueOfJson j

def Value.ofItems : List Json → Kind → List Value
  | [], _ => []
  | j :: items, k => Value.ofJson j k :: Value.ofItems items k

/-- What a slot holds that is given by a member. -/
def Value.slotOfJson : Json → Field → List Value
  | .array items, field =>
      if field.label = .repeated then Value.ofItems items field.kind
      else [field.kind.valueOfJson .null]
  | j, field => if field.label = .repeated then [] else [Value.ofJson j field.kind]

/-- Sets the fields that members name; other members are left aside. -/
def Value.setMembers : List (String × Json) → MessageType → List (List Value) → List (List Value)
  | [], _, m => m
  | (_, .null) :: members, t, m => Value.setMembers members t m
  | (name, j) :: members, t, m =>
      let m := match t.fields.zipIdx.find? (·.1.name = name) with
        | some (field, place) => m.set place (Value.slotOfJson j field)
        | none => m
      Value.setMembers members t m

end

def Message.ofJson (t : MessageType) : Json → Message
  | .object members => Value.setMembers members t t.default
  | _ => t.default

end Wire
end ReplicaClient
