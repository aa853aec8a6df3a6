import ReplicaClient.Bytes

/-!
# Hexadecimal text

An octet is shown as two digits, the higher one first.
-/

namespace ReplicaClient
namespace Hex

def encodeChars (bs : Bytes) : List Char :=
  bs.flatMap fun b ↦ [Nat.digitChar (b.toNat / 16), Nat.digitChar (b.toNat % 16)]

def encode (bs : Bytes) : String :=
  String.ofList (encodeChars bs)

def digit? (c : Char) : Option Nat :=
  if c.isDigit then some (c.toNat - 48)
  else if 'a' ≤ c ∧ c ≤ 'f' then some (c.toNat - 87)
  else if 'A' ≤ c ∧ c ≤ 'F' then some (c.toNat - 55)
  else none

def decodeChars? : List Char → Option Bytes
  | [] => some []
  | [_] => none
  | a :: b :: rest =>
      match digit? a, digit? b, decodeChars? rest with
      | some a, some b, some bs => some (UInt8.ofNat (16 * a + b) :: bs)
      | _, _, _ => none

def decode? (s : String) : Option Bytes :=
  decodeChars? s.toList

end Hex
end ReplicaClient
