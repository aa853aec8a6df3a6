import ReplicaClient.Wire.Message
import ReplicaClient.Wire.Varint

/-!
# Reading messages

The reader works on what is left of the whole input.  The end of an enclosed message is
therefore a number of octets that must be left over, and an octet string that reaches past
the end of its message is noticed only when that message is done.  Every enclosed message
or group uses up one level of a budget.
-/

namespace ReplicaClient
namespace Wire

/-- Why the input is not a message. -/
inductive DecodeFault where
  | invalidVarint
  | invalidKey (key : Nat)
  | invalidWireType (number : Nat)
  | invalidTag
  | unexpectedWireType (actual expected : WireType)
  | underflow
  | recursionLimit
  | lengthExceeded
  | unexpectedEndGroup
  deriving DecidableEq, Repr

namespace DecodeFault

def message : DecodeFault → String
  | invalidVarint => "invalid varint"
  | invalidKey key => s!"invalid key value: {key}"
  | invalidWireType number => s!"invalid wire type value: {number}"
  | invalidTag => "invalid tag value: 0"
  | unexpectedWireType actual expected =>
      s!"invalid wire type: {actual.name} (expected {expected.name})"
  | underflow => "buffer underflow"
  | recursionLimit => "recursion limit reached"
  | lengthExceeded => "delimited length exceeded"
  | unexpectedEndGroup => "unexpected end group tag"

end DecodeFault

/-- A fault and the fields that enclose it, the innermost first. -/
structure DecodeError where
  fault : DecodeFault
  path : List (MessageType × String)
  deriving DecidableEq, Repr

namespace DecodeError

def within (e : DecodeError) (t : MessageType) (field : String) : DecodeError :=
  { e with path := e.path ++ [(t, field)] }

/-- A step of the path; the reserved word `type` is shown as a raw name. -/
def stepText (step : MessageType × String) : String :=
  step.1.name ++ "." ++ (if step.2 = "type" then "r#type" else step.2) ++ ": "

def message (e : DecodeError) : String :=
  "failed to decode Protobuf message: " ++ String.join (e.path.map stepText) ++ e.fault.message

end DecodeError

def fail {α : Type} (fault : DecodeFault) : Except DecodeError α :=
  .error ⟨fault, []⟩

def readVarint (input : Bytes) : Except DecodeError (Nat × Bytes) :=
  match Varint.decode input with
  | none => fail .invalidVarint
  | some r => .ok r

def readKey (input : Bytes) : Except DecodeError (Nat × WireType × Bytes) := do
  let (key, rest) ← readVarint input
  if UInt32.size ≤ key then
    fail (.invalidKey key)
  else
    match WireType.ofNumber? (key % 8) with
    | none => fail (.invalidWireType (key % 8))
    | some w => if key / 8 = 0 then fail .invalidTag else .ok (key / 8, w, rest)

def readExactly (n : Nat) (input : Bytes) : Except DecodeError (Bytes × Bytes) :=
  if input.length < n then fail .underflow else .ok (input.splitAt n)

def readDelimited (input : Bytes) : Except DecodeError (Bytes × Bytes) := do
  let (n, rest) ← readVarint input
  readExactly n rest

/-- The rest after a field that no table knows.  A group is skipped field by field until it is
closed by its own number. -/
def skip : (fuel budget : Nat) → (tag : Nat) → WireType → Bytes → Except DecodeError Bytes
  | 0, _, _, _, _ => fail .underflow
  | _ + 1, 0, _, _, _ => fail .recursionLimit
  | fuel + 1, budget + 1, tag, w, input =>
      match w with
      | .varint => (readVarint input).map (·.2)
      | .thirtyTwoBit => (readExactly 4 input).map (·.2)
      | .sixtyFourBit => (readExactly 8 input).map (·.2)
      | .lengthDelimited => (readDelimited input).map (·.2)
      | .endGroup => fail .unexpectedEndGroup
      | .startGroup => do
          let (inner, w, rest) ← readKey input
          if w = .endGroup then
            if inner = tag then .ok rest else fail .unexpectedEndGroup
          else
            let rest ← skip fuel budget inner w rest
            skip fuel (budget + 1) tag .startGroup rest

def requireWireType (actual expected : WireType) : Except DecodeError Unit :=
  if actual = expected then .ok () else fail (.unexpectedWireType actual expected)

/-- One more occurrence in a slot: it is added if the field repeats, and replaces the earlier one
if not. -/
def Slot.record (slot : Slot) (label : Label) (v : Value) : Slot :=
  match label with
  | .repeated => slot ++ [v]
  | _ => [v]

/-- What an enclosed message is read into: a singular field continues its earlier occurrence. -/
def Slot.mergeBase (slot : Slot) (label : Label) (t : MessageType) : Message :=
  match label with
  | .repeated => t.default
  | _ => (slot.message?).getD t.default

mutual

/-- Reads fields into `m` until at most `limit` octets are left. -/
def readFields : (fuel : Nat) → MessageType → (budget limit : Nat) → Message → Bytes →
    Except DecodeError (Message × Bytes)
  | 0, _, _, _, m, input => .ok (m, input)
  | fuel + 1, t, budget, limit, m, input =>
      if input.length ≤ limit then .ok (m, input)
      else do
        let (tag, w, rest) ← readKey input
        match t.field? tag with
        | none =>
            let rest ← skip (input.length + 1) budget tag w rest
            readFields fuel t budget limit m rest
        | some (field, place) =>
            let slot := m.getD place []
            match readOccurrence fuel field budget w slot rest with
            | .error e => .error (e.within t field.name)
            | .ok (v, rest) =>
                readFields fuel t budget limit (m.set place (slot.record field.label v)) rest

/-- Reads one occurrence of a known field. -/
def readOccurrence : (fuel : Nat) → Field → (budget : Nat) → WireType → Slot → Bytes →
    Except DecodeError (Value × Bytes)
  | fuel, field, budget, w, slot, input => do
      requireWireType w field.kind.wireType
      match field.kind with
      | .bytes => (readDelimited input).map fun (b, rest) ↦ (.bytes b, rest)
      | .word => (readVarint input).map fun (n, rest) ↦ (.word (UInt32.ofNat n), rest)
      | .flag => (readVarint input).map fun (n, rest) ↦ (.flag (n ≠ 0), rest)
      | .signed => (readVarint input).map fun (n, rest) ↦ (.signed (Varint.unzigzag n), rest)
      | .choice _ => (readVarint input).map fun (n, rest) ↦ (.choice (Varint.toChoice n), rest)
      | .single =>
          (readExactly 4 input).map fun (b, rest) ↦ (.single (UInt32.ofNat (Bytes.toNat b)), rest)
      | .message t =>
          if budget = 0 then fail .recursionLimit
          else
            let (n, rest) ← readVarint input
            if rest.length < n then fail .underflow
            else
              let limit := rest.length - n
              match fuel with
              | 0 => fail .underflow
              | fuel + 1 =>
                  let (m, rest) ←
                    readFields fuel t (budget - 1) limit (slot.mergeBase field.label t) rest
                  if rest.length = limit then .ok (.message m, rest) else fail .lengthExceeded

end

/-- How many messages may be open inside one another. -/
def recursionBudget : Nat := 100

/-- Reads a whole message.  Every field takes at least one octet of key, and every enclosed
message one more of length, so twice the length of the input is fuel enough. -/
def Message.decode (t : MessageType) (input : Bytes) : Except DecodeError Message :=
  (readFields (2 * input.length + 1) t recursionBudget 0 t.default input).map (·.1)

end Wire
end ReplicaClient
