import ReplicaClient.Text.Natural

/-!
# Reading back numbers

A number comes back from its digits, also with zeros in front of them.
-/

namespace ReplicaClient
namespace Text

theorem ofDigits_eq (ds : List Char) : ofDigits ds = Nat.ofDigitChars 10 ds 0 :=
  Nat.ofDigitChars_eq_foldl.symm

@[simp] theorem ofDigits_toDigits (n : Nat) : ofDigits (Nat.toDigits 10 n) = n := by
  rw [ofDigits_eq, Nat.ofDigitChars_ten_toDigits]

@[simp] theorem ofDigits_padded (width n : Nat) : ofDigits (padded width n) = n := by
  rw [padded, ofDigits_eq, Nat.ofDigitChars_append, Nat.ofDigitChars_replicate_zero, Nat.mul_zero,
    Nat.ofDigitChars_ten_toDigits]

theorem isDigit_of_mem_toDigits {c : Char} {n : Nat} (h : c ∈ Nat.toDigits 10 n) :
    c.isDigit = true :=
  Nat.isDigit_of_mem_toDigits (by decide) (by decide) h

theorem ne_dash_of_mem_padded {c : Char} {width n : Nat} (h : c ∈ padded width n) : c ≠ '-' := by
  have hdigit : c.isDigit = true := by
    rcases List.mem_append.mp h with hzero | hdigits
    · rw [List.eq_of_mem_replicate hzero]
      decide
    · exact isDigit_of_mem_toDigits hdigits
  rintro rfl
  exact absurd hdigit (by decide)

/-- No digit is a plus sign, so all of them are read. -/
theorem natural?_digits {bound : Nat} {ds : List Char} (hne : ds ≠ [])
    (hdigit : ∀ c ∈ ds, c.isDigit = true) (hbound : ofDigits ds < bound) :
    natural? bound ds = some (ofDigits ds) := by
  have hplus : ∀ rest, ds ≠ '+' :: rest := by
    intro rest hds
    have hp := hdigit '+' (by rw [hds]; exact List.mem_cons_self)
    exact absurd hp (by decide)
  have hempty : ds.isEmpty = false := by
    rw [List.isEmpty_eq_false_iff]
    exact hne
  have hany : ds.any (!·.isDigit) = false := by
    rw [List.any_eq_false]
    intro c hc
    rw [hdigit c hc]
    decide
  unfold natural?
  split
  case h_1 rest => exact absurd rfl (hplus rest)
  case h_2 =>
    dsimp only
    rw [hempty, hany, Bool.false_or, if_neg Bool.false_ne_true, if_pos hbound]

theorem natural?_toString {bound n : Nat} (h : n < bound) :
    natural? bound (toString n).toList = some n := by
  have hdigits : (toString n).toList = Nat.toDigits 10 n := Nat.toList_repr
  have hread := @natural?_digits bound _ (Nat.toDigits_ne_nil (n := n) (b := 10))
    (fun c hc ↦ isDigit_of_mem_toDigits hc) (by rw [ofDigits_toDigits]; exact h)
  rw [hdigits, hread, ofDigits_toDigits]

end Text
end ReplicaClient
