import ReplicaClient.Bytes

/-!
# Variable-length integers

A number is written in base 128, least significant digit first, with the high bit of an
octet set when more digits follow.  Signed numbers are folded onto the natural numbers
first.
-/

namespace ReplicaClient
namespace Wire
namespace Varint

def encode (n : Nat) : Bytes :=
  if n < 128 then [UInt8.ofNat n]
  else UInt8.ofNat (n % 128 + 128) :: encode (n / 128)

/-- How many octets the digits of a number take. -/
def size (n : Nat) : Nat :=
  if n < 128 then 1 else size (n / 128) + 1

/-- Reads at most `room` octets.  The last octet that may be read has one significant bit,
so that ten of them hold exactly 64 bits. -/
def decodeWithin : (room : Nat) → Bytes → Option (Nat × Bytes)
  | 0, _ => none
  | _ + 1, [] => none
  | room + 1, b :: rest =>
      if b < 128 then
        if room = 0 ∧ 1 < b then none else some (b.toNat, rest)
      else
        match decodeWithin room rest with
        | none => none
        | some (n, rest) => some (b.toNat - 128 + 128 * n, rest)

/-- Reads a number below 2^64; `none` if the octets run out or spell no such number.  Digits
that add nothing are accepted. -/
def decode (bs : Bytes) : Option (Nat × Bytes) :=
  decodeWithin 10 bs

/-- Folds a signed number so that small absolute values stay small: 0, -1, 1, -2, … -/
def zigzag (n : Int64) : Nat :=
  if 0 ≤ n.toInt then 2 * n.toInt.toNat else 2 * (-n.toInt - 1).toNat + 1

def unzigzag (n : Nat) : Int64 :=
  if n % 2 = 0 then Int64.ofInt (n / 2 : Nat) else Int64.ofInt (-(n / 2 : Nat) - 1)

/-- The number of an enumerator: its 32 bits widened with their sign to 64. -/
def ofChoice (n : Int32) : Nat :=
  if 0 ≤ n.toInt then n.toInt.toNat else (n.toInt + UInt64.size).toNat

/-- The low 32 bits, read with their sign. -/
def toChoice (n : Nat) : Int32 :=
  (UInt32.ofNat n).toInt32

end Varint
end Wire
end ReplicaClient
