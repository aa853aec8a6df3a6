import ReplicaClient.DataType.Kind
import ReplicaClient.Wire.Message

/-!
# Stored data

The value of a data type as the store sends it.  An entry of a map carries room for every
kind of content; its number says which of them counts.
-/

namespace ReplicaClient
namespace DataType

inductive StoredEntry where
  | mk (name : Bytes) (kind : Int32) (counter : Option Int64) (members : List Bytes)
    (register : Option Bytes) (flag : Option Bool) (entries : List StoredEntry)
  deriving Repr, Inhabited

structure Stored where
  counter : Option Int64 := none
  members : List Bytes := []
  entries : List StoredEntry := []
  deriving Repr, Inhabited

open Wire

def fieldOfMessage : Message → Bytes × Int32
  | [name, kind] => (Slot.bytes name, (Slot.choice? kind).getD 1)
  | _ => ([], 1)

mutual

def StoredEntry.ofValue : Value → StoredEntry
  | .message [field, counter, members, register, flag, entries] =>
      let (name, kind) := fieldOfMessage ((Slot.message? field).getD [])
      .mk name kind (Slot.signed? counter) (Slot.allBytes members) (Slot.bytes? register)
        (Slot.flag? flag) (StoredEntry.ofSlot entries)
  | _ => .mk [] 1 none [] none none []

def StoredEntry.ofSlot : List Value → List StoredEntry
  | [] => []
  | v :: slot => StoredEntry.ofValue v :: StoredEntry.ofSlot slot

end

def Stored.ofMessage : Message → Stored
  | [counter, members, entries] =>
      ⟨Slot.signed? counter, Slot.allBytes members, StoredEntry.ofSlot entries⟩
  | _ => {}

end DataType
end ReplicaClient
