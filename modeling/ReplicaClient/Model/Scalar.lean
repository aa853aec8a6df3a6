import ReplicaClient.Json.Access
import ReplicaClient.Model.Mismatch

/-!
# Scalars

A scalar type is a way to write its values as JSON and a way to read them back.  Reading is
strict: a number is never taken for a text, nor a fraction for a whole number.
-/

namespace ReplicaClient

structure Scalar (α : Type) where
  write : α → Json
  read : Json → Except Mismatch α

namespace Scalar

def readText : Json → Except Mismatch String
  | .string s => .ok s
  | j => .error (.type j .text)

def readBool : Json → Except Mismatch Bool
  | .bool b => .ok b
  | j => .error (.type j .boolean)

/-- A whole number between two bounds. -/
def readWhole (low high : Int) (wanted : ScalarType) : Json → Except Mismatch Int
  | .whole n => if low ≤ n.val ∧ n.val ≤ high then .ok n.val else .error (.range n.val wanted)
  | j => .error (.type j wanted)

def readTexts : Json → Except Mismatch (List String)
  | .array items => items.mapM readText
  | j => .error (.type j .sequence)

def readOptionalText : Json → Except Mismatch (Option String)
  | .null => .ok none
  | j => (readText j).map some

def text : Scalar String := ⟨.string, readText⟩

def bool : Scalar Bool := ⟨.bool, readBool⟩

def unsigned32 : Scalar UInt32 :=
  ⟨.ofUInt32, fun j ↦
    (readWhole 0 0xFFFFFFFF .unsigned32 j).map fun n ↦ UInt32.ofNat n.toNat⟩

def signed64 : Scalar Int64 :=
  ⟨.ofInt64, fun j ↦ (readWhole (-0x8000000000000000) 0x7FFFFFFFFFFFFFFF .signed64 j).map Int64.ofInt⟩

def texts : Scalar (List String) := ⟨.ofTexts, readTexts⟩

def optionalText : Scalar (Option String) := ⟨.ofOption .string, readOptionalText⟩

def json : Scalar Json := ⟨id, .ok⟩

end Scalar
end ReplicaClient
