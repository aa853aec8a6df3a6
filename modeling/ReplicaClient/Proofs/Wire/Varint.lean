import ReplicaClient.Wire.Varint

/-!
# Reading variable-length integers

Every number below 2^64 is read back from its digits, whatever follows them, and so are the signed
numbers and the enumerators that are folded onto such numbers.
-/

namespace ReplicaClient
namespace Wire
namespace Varint

/-- The least number that does not fit so many octets of a reader. -/
def limit : (room : Nat) → Nat
  | 0 => 0
  | 1 => 2
  | room + 2 => 128 * limit (room + 1)

theorem limit_ten : limit 10 = UInt64.size :=
  rfl

theorem encode_of_lt {n : Nat} (h : n < 128) : encode n = [UInt8.ofNat n] := by
  rw [encode, if_pos h]

theorem encode_of_le {n : Nat} (h : 128 ≤ n) :
    encode n = UInt8.ofNat (n % 128 + 128) :: encode (n / 128) := by
  rw [encode, if_neg (Nat.not_lt.mpr h)]

theorem length_encode_pos (n : Nat) : 0 < (encode n).length := by
  rw [encode]
  split <;> exact Nat.succ_pos _

theorem toNat_digit {n : Nat} (h : n < 256) : (UInt8.ofNat n).toNat = n := by
  rw [UInt8.toNat_ofNat']
  exact Nat.mod_eq_of_lt h

theorem decodeWithin_encode {room n : Nat} (h : n < limit room) (rest : Bytes) :
    decodeWithin room (encode n ++ rest) = some (n, rest) := by
  induction room generalizing n with
  | zero => exact absurd h (Nat.not_lt_zero n)
  | succ room ih =>
      by_cases hsmall : n < 128
      · have hdigit := toNat_digit (Nat.lt_of_lt_of_le hsmall (by decide : 128 ≤ 256))
        have hlast : ¬(room = 0 ∧ 1 < UInt8.ofNat n) := by
          rintro ⟨rfl, hbig⟩
          rw [UInt8.lt_iff_toNat_lt, hdigit] at hbig
          exact Nat.not_lt_of_le (Nat.le_of_lt_succ h) hbig
        have hdone : UInt8.ofNat n < 128 := by
          rw [UInt8.lt_iff_toNat_lt, hdigit]
          exact hsmall
        rw [encode_of_lt hsmall, List.singleton_append, decodeWithin, if_pos hdone, if_neg hlast,
          hdigit]
      · have hle : 128 ≤ n := Nat.le_of_not_lt hsmall
        have hdigit : (UInt8.ofNat (n % 128 + 128)).toNat = n % 128 + 128 :=
          toNat_digit (by omega)
        have hmore : ¬UInt8.ofNat (n % 128 + 128) < 128 := by
          rw [UInt8.lt_iff_toNat_lt, hdigit]
          exact Nat.not_lt_of_le (Nat.le_add_left _ _)
        have hquotient : n / 128 < limit room := by
          cases room with
          | zero => exact absurd (Nat.lt_of_lt_of_le h (by decide)) (Nat.not_lt_of_le hle)
          | succ room => exact Nat.div_lt_of_lt_mul h
        rw [encode_of_le hle, List.cons_append, decodeWithin, if_neg hmore, ih hquotient, hdigit]
        simp only [Option.some.injEq, Prod.mk.injEq, and_true]
        omega

theorem decode_encode {n : Nat} (h : n < UInt64.size) (rest : Bytes) :
    decode (encode n ++ rest) = some (n, rest) :=
  decodeWithin_encode (limit_ten ▸ h) rest

/-! ## Signed numbers -/

theorem zigzag_lt (n : Int64) : zigzag n < UInt64.size := by
  have hlow := n.le_toInt
  have hhigh := n.toInt_lt
  unfold zigzag
  split <;> simp only [UInt64.size] <;> omega

theorem unzigzag_zigzag (n : Int64) : unzigzag (zigzag n) = n := by
  unfold zigzag
  split
  · rename_i hsign
    have heven : 2 * n.toInt.toNat % 2 = 0 := Nat.mul_mod_right 2 _
    have hhalf : ((2 * n.toInt.toNat / 2 : Nat) : Int) = n.toInt := by omega
    rw [unzigzag, if_pos heven, hhalf, Int64.ofInt_toInt]
  · rename_i hsign
    have hodd : ¬(2 * (-n.toInt - 1).toNat + 1) % 2 = 0 := by omega
    have hhalf : -(((2 * (-n.toInt - 1).toNat + 1) / 2 : Nat) : Int) - 1 = n.toInt := by omega
    rw [unzigzag, if_neg hodd, hhalf, Int64.ofInt_toInt]

/-! ## Enumerators -/

theorem ofChoice_lt (n : Int32) : ofChoice n < UInt64.size := by
  have hlow := n.le_toInt
  have hhigh := n.toInt_lt
  unfold ofChoice
  split <;> simp only [UInt64.size] <;> omega

theorem toInt_toChoice (m : Nat) : (toChoice m).toInt = (m : Int).bmod Int32.size := by
  rw [toChoice, UInt32.toInt32_ofNat', Int32.toInt_ofNat']

theorem toChoice_ofChoice (n : Int32) : toChoice (ofChoice n) = n := by
  have hlow := n.le_toInt
  have hhigh := n.toInt_lt
  apply Int32.toInt_inj.mp
  rw [toInt_toChoice, Int.bmod, Int32.size]
  unfold ofChoice
  split
  · have hsame : ((n.toInt.toNat : Nat) : Int) = n.toInt := by omega
    rw [hsame]
    omega
  · have hsame : (((n.toInt + UInt64.size).toNat : Nat) : Int) = n.toInt + UInt64.size := by
      simp only [UInt64.size]
      omega
    rw [hsame, UInt64.size]
    omega

end Varint
end Wire
end ReplicaClient
