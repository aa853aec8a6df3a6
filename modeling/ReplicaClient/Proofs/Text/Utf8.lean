import ReplicaClient.Text.Utf8

/-!
# Reading back what was written

Every text comes back from its octets, so no two texts have the same octets.
-/

namespace ReplicaClient
namespace Utf8

/-! ## First octets -/

namespace Position

variable {b : UInt8}

theorem ofLead_eq (b : UInt8) : ofLead b =
    if b.toNat < 0x80 then some (.inl (Char.ofNat b.toNat))
    else if b.toNat < 0xC2 then none
    else if b.toNat < 0xE0 then some (.inr (.inside 0 0x80 0xBF (b.toNat - 0xC0)))
    else if b.toNat = 0xE0 then some (.inr (.inside 1 0xA0 0xBF 0))
    else if b.toNat = 0xED then some (.inr (.inside 1 0x80 0x9F 0xD))
    else if b.toNat < 0xF0 then some (.inr (.inside 1 0x80 0xBF (b.toNat - 0xE0)))
    else if b.toNat = 0xF0 then some (.inr (.inside 2 0x90 0xBF 0))
    else if b.toNat < 0xF4 then some (.inr (.inside 2 0x80 0xBF (b.toNat - 0xF0)))
    else if b.toNat = 0xF4 then some (.inr (.inside 2 0x80 0x8F 4))
    else none := by
  simp only [ofLead, UInt8.lt_iff_toNat_lt, ← UInt8.toNat_inj, UInt8.reduceToNat]

theorem ofLead_one (h : b.toNat < 0x80) : ofLead b = some (.inl (Char.ofNat b.toNat)) := by
  rw [ofLead_eq, if_pos h]

theorem ofLead_two (hlow : 0xC2 ≤ b.toNat) (hhigh : b.toNat < 0xE0) :
    ofLead b = some (.inr (.inside 0 0x80 0xBF (b.toNat - 0xC0))) := by
  rw [ofLead_eq, if_neg (by omega), if_neg (by omega), if_pos hhigh]

/-- After some first octets the second one has a narrower range. -/
theorem ofLead_three (hlow : 0xE0 ≤ b.toNat) (hhigh : b.toNat < 0xF0) :
    ofLead b = some (.inr (.inside 1 (if b.toNat = 0xE0 then 0xA0 else 0x80)
      (if b.toNat = 0xED then 0x9F else 0xBF) (b.toNat - 0xE0))) := by
  rw [ofLead_eq, if_neg (by omega), if_neg (by omega), if_neg (by omega)]
  by_cases hfirst : b.toNat = 0xE0
  · simp [hfirst]
  · rw [if_neg hfirst, if_neg hfirst]
    by_cases hsurrogates : b.toNat = 0xED
    · simp [hsurrogates]
    · rw [if_neg hsurrogates, if_pos hhigh, if_neg hsurrogates]

theorem ofLead_four (hlow : 0xF0 ≤ b.toNat) (hhigh : b.toNat < 0xF5) :
    ofLead b = some (.inr (.inside 2 (if b.toNat = 0xF0 then 0x90 else 0x80)
      (if b.toNat = 0xF4 then 0x8F else 0xBF) (b.toNat - 0xF0))) := by
  rw [ofLead_eq, if_neg (by omega), if_neg (by omega), if_neg (by omega), if_neg (by omega),
    if_neg (by omega), if_neg (by omega)]
  by_cases hfirst : b.toNat = 0xF0
  · simp [hfirst]
  · rw [if_neg hfirst, if_neg hfirst]
    by_cases hlast : b.toNat = 0xF4
    · simp [hlast]
    · rw [if_pos (by omega), if_neg hlast]

end Position

/-! ## Characters -/

theorem toNat_ofNat {n : Nat} (h : n < 256) : (UInt8.ofNat n).toNat = n := by
  rw [UInt8.toNat_ofNat', Nat.mod_eq_of_lt h]

section Scan

variable {left read n : Nat} {rest : Bytes}

theorem scan_lead {b : UInt8} {p : Position} (h : Position.ofLead b = some (.inr p)) :
    scan .start (b :: rest) = scan p rest := by
  rw [scan, h]

/-- The last octet of a character adds six bits. -/
theorem scan_last : scan (.inside 0 0x80 0xBF read) (UInt8.ofNat (n % 64 + 128) :: rest) =
    some (Char.ofNat (read * 64 + n % 64)) :: scan .start rest := by
  have hb : (UInt8.ofNat (n % 64 + 128)).toNat = n % 64 + 128 := toNat_ofNat (by omega)
  have hsix : (n % 64 + 128) % 64 = n % 64 := by omega
  have hrange : (0x80 : UInt8) ≤ UInt8.ofNat (n % 64 + 128) ∧
      UInt8.ofNat (n % 64 + 128) ≤ 0xBF := by
    simp only [UInt8.le_iff_toNat_le, hb, UInt8.reduceToNat]
    omega
  rw [scan, if_pos hrange, hb, hsix]

/-- So does an octet in the middle, if it lies in the range for it. -/
theorem scan_more {low high : UInt8} (hlow : low.toNat ≤ n % 64 + 128)
    (hhigh : n % 64 + 128 ≤ high.toNat) :
    scan (.inside (left + 1) low high read) (UInt8.ofNat (n % 64 + 128) :: rest) =
      scan (.inside left 0x80 0xBF (read * 64 + n % 64)) rest := by
  have hb : (UInt8.ofNat (n % 64 + 128)).toNat = n % 64 + 128 := toNat_ofNat (by omega)
  have hsix : (n % 64 + 128) % 64 = n % 64 := by omega
  have hrange : low ≤ UInt8.ofNat (n % 64 + 128) ∧ UInt8.ofNat (n % 64 + 128) ≤ high := by
    simp only [UInt8.le_iff_toNat_le, hb]
    exact ⟨hlow, hhigh⟩
  rw [scan, if_pos hrange, hb, hsix]

end Scan

/-- A character is found where its octets stand. -/
theorem scan_encodeChar (c : Char) (rest : Bytes) :
    scan .start (String.utf8EncodeChar c ++ rest) = some c :: scan .start rest := by
  have hchar : Char.ofNat c.val.toNat = c := Char.ofNat_toNat c
  have hvalid : c.val.toNat < 0xD800 ∨ 0xDFFF < c.val.toNat ∧ c.val.toNat < 0x110000 := c.valid
  unfold String.utf8EncodeChar
  dsimp only
  generalize c.val.toNat = v at hchar hvalid ⊢
  by_cases hone : v ≤ 0x7F
  · have hlead : (UInt8.ofNat v).toNat = v := toNat_ofNat (by omega)
    rw [if_pos hone, List.singleton_append, scan, Position.ofLead_one (by omega), hlead, hchar]
  · rw [if_neg hone]
    by_cases htwo : v ≤ 0x7FF
    · have hlead : (UInt8.ofNat (v / 64 % 0x20 + 0xC0)).toNat = v / 64 % 0x20 + 0xC0 :=
        toNat_ofNat (by omega)
      have hsum : (v / 64 % 0x20 + 0xC0 - 0xC0) * 64 + v % 64 = v := by omega
      rw [if_pos htwo, List.cons_append, List.singleton_append,
        scan_lead (Position.ofLead_two (by omega) (by omega)), scan_last, hlead, hsum, hchar]
    · rw [if_neg htwo]
      by_cases hthree : v ≤ 0xFFFF
      · have hlead : (UInt8.ofNat (v / 4096 % 0x10 + 0xE0)).toNat = v / 4096 % 0x10 + 0xE0 :=
          toNat_ofNat (by omega)
        have hsum : ((v / 4096 % 0x10 + 0xE0 - 0xE0) * 64 + v / 64 % 64) * 64 + v % 64 = v := by
          omega
        rw [if_pos hthree, List.cons_append, List.cons_append, List.singleton_append,
          scan_lead (Position.ofLead_three (by omega) (by omega)), scan_more, scan_last, hlead, hsum,
          hchar]
        · rw [hlead]
          split
          · simp only [UInt8.reduceToNat]
            omega
          · exact Nat.le_add_left _ _
        · rw [hlead]
          split
          · simp only [UInt8.reduceToNat]
            omega
          · simp only [UInt8.reduceToNat]
            omega
      · have hlead : (UInt8.ofNat (v / 262144 % 0x08 + 0xF0)).toNat = v / 262144 % 0x08 + 0xF0 :=
          toNat_ofNat (by omega)
        have hsum : (((v / 262144 % 0x08 + 0xF0 - 0xF0) * 64 + v / 4096 % 64) * 64 +
            v / 64 % 64) * 64 + v % 64 = v := by
          omega
        rw [if_neg hthree, List.cons_append, List.cons_append, List.cons_append,
          List.singleton_append, scan_lead (Position.ofLead_four (by omega) (by omega)), scan_more,
          scan_more, scan_last, hlead, hsum, hchar]
        · exact Nat.le_add_left _ _
        · simp only [UInt8.reduceToNat]
          omega
        · rw [hlead]
          split
          · simp only [UInt8.reduceToNat]
            omega
          · exact Nat.le_add_left _ _
        · rw [hlead]
          split
          · simp only [UInt8.reduceToNat]
            omega
          · simp only [UInt8.reduceToNat]
            omega

theorem scan_encodeChars (cs : List Char) : scan .start (encodeChars cs) = cs.map some := by
  induction cs with
  | nil => rfl
  | cons c cs ih =>
      have hcons : encodeChars (c :: cs) = String.utf8EncodeChar c ++ encodeChars cs :=
        List.flatMap_cons
      rw [hcons, scan_encodeChar, ih, List.map_cons]

/-! ## Texts -/

@[simp] theorem decodeLossy_encode (s : String) : decodeLossy (encode s) = s := by
  rw [decodeLossy, encode, scan_encodeChars, List.map_map]
  have hsome : ((·.getD '\uFFFD') ∘ some : Char → Char) = id := rfl
  rw [hsome, List.map_id, String.ofList_toList]

theorem encode_injective {s t : String} (h : encode s = encode t) : s = t := by
  rw [← decodeLossy_encode s, h, decodeLossy_encode]

theorem encode_ne_nil {s : String} (h : s ≠ "") : encode s ≠ [] := by
  intro hnil
  apply h
  apply encode_injective
  rw [hnil]
  rfl

end Utf8
end ReplicaClient
