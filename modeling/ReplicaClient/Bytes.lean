/-!
# Byte strings

Payloads, keys and frames are lists of octets.  This module holds the fixed-width
words that occur inside them: big-endian length prefixes and little-endian seeds.
-/

namespace ReplicaClient

abbrev Bytes := List UInt8

namespace Bytes

/-- The `width` low octets of `n`, least significant first. -/
def littleEndian : (width n : Nat) → Bytes
  | 0, _ => []
  | width + 1, n => UInt8.ofNat n :: littleEndian width (n / 256)

/-- The `width` low octets of `n`, most significant first. -/
def bigEndian (width n : Nat) : Bytes :=
  (littleEndian width n).reverse

def toNat : Bytes → Nat
  | [] => 0
  | b :: rest => b.toNat + 256 * toNat rest

def toNatBigEndian (bs : Bytes) : Nat :=
  toNat bs.reverse

/-- How many numbers a word of `width` octets can tell apart. -/
def wordCount : (width : Nat) → Nat
  | 0 => 1
  | width + 1 => 256 * wordCount width

@[simp] theorem length_littleEndian (width n : Nat) :
    (littleEndian width n).length = width := by
  induction width generalizing n with
  | zero => rfl
  | succ width ih => simp [littleEndian, ih]

@[simp] theorem length_bigEndian (width n : Nat) : (bigEndian width n).length = width := by
  simp [bigEndian]

theorem toNat_littleEndian (width n : Nat) :
    toNat (littleEndian width n) = n % wordCount width := by
  induction width generalizing n with
  | zero => simp [littleEndian, toNat, wordCount, Nat.mod_one]
  | succ width ih =>
      rw [littleEndian, toNat, ih, wordCount, Nat.mod_mul]
      simp

theorem toNatBigEndian_bigEndian {width n : Nat} (h : n < wordCount width) :
    toNatBigEndian (bigEndian width n) = n := by
  simp [toNatBigEndian, bigEndian, toNat_littleEndian, Nat.mod_eq_of_lt h]

end Bytes
end ReplicaClient
