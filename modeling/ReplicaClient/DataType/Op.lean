import ReplicaClient.DataType.Kind
import ReplicaClient.Text.Utf8
import ReplicaClient.Wire.Message

/-!
# Operations on data types

An operation says how a stored value is to change: by how much a counter grows, which
members a set loses and gains, which entries a map loses and how others change in turn.
-/

namespace ReplicaClient
namespace DataType

inductive Op where
  | counter (increment : Int64)
  | set (adds removes : List Bytes)
  | register (value : Bytes)
  | flag (op : FlagOp)
  | map (removes : List ItemKey) (updates : List (ItemKey × Op))
  deriving Repr, Inhabited

open Wire

def ItemKey.toMessage (key : ItemKey) : Message :=
  [Slot.ofBytes (Utf8.encode key.name), [.choice key.kind.number]]

def setOpMessage (adds removes : List Bytes) : Message :=
  [Slot.ofAllBytes adds, Slot.ofAllBytes removes]

def counterOpMessage (increment : Int64) : Message :=
  [[.signed increment]]

mutual

def Op.toUpdate : ItemKey → Op → Message
  | key, .counter n => [[.message key.toMessage], [.message (counterOpMessage n)], [], [], [], []]
  | key, .set adds removes =>
      [[.message key.toMessage], [], [.message (setOpMessage adds removes)], [], [], []]
  | key, .register value => [[.message key.toMessage], [], [], Slot.ofBytes value, [], []]
  | key, .flag op => [[.message key.toMessage], [], [], [], [.choice op.number], []]
  | key, .map removes updates =>
      [[.message key.toMessage], [], [], [], [],
        [.message [removes.map fun k ↦ .message k.toMessage, Op.toUpdates updates]]]

def Op.toUpdates : List (ItemKey × Op) → List Value
  | [] => []
  | (key, op) :: rest => .message (Op.toUpdate key op) :: Op.toUpdates rest

end

/-- The operation on a value that is not inside a map; registers and flags live in maps only. -/
def Op.toMessage : Op → Message
  | .counter n => [[.message (counterOpMessage n)], [], []]
  | .set adds removes => [[], [.message (setOpMessage adds removes)], []]
  | .map removes updates =>
      [[], [], [.message [removes.map fun k ↦ .message k.toMessage, Op.toUpdates updates]]]
  | .register _ | .flag _ => [[], [], []]

end DataType
end ReplicaClient
