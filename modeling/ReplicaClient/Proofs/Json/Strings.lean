import Mathlib.Tactic.IntervalCases
import ReplicaClient.Json.Parser
import ReplicaClient.Json.Printer
import ReplicaClient.Proofs.Text.Utf8

/-!
# Reading back strings

A printed string is read as the string that it was, whatever characters it has: each is escaped or
stands for itself.
-/

namespace ReplicaClient

/-! ## Octets of characters -/

namespace Utf8

@[simp] theorem encodeChars_nil : encodeChars [] = [] :=
  rfl

@[simp] theorem encodeChars_cons (c : Char) (cs : List Char) :
    encodeChars (c :: cs) = String.utf8EncodeChar c ++ encodeChars cs :=
  List.flatMap_cons

@[simp] theorem encodeChars_append (cs ds : List Char) :
    encodeChars (cs ++ ds) = encodeChars cs ++ encodeChars ds :=
  List.flatMap_append

theorem decode?_encodeChars (cs : List Char) :
    decode? (encodeChars cs) = some (String.ofList cs) := by
  have hall : (cs.map some).mapM id = some cs := by
    induction cs with
    | nil => rfl
    | cons c cs ih => simp [ih]
  rw [decode?, scan_encodeChars, hall]
  rfl

theorem utf8EncodeChar_of_lt {c : Char} (h : c.toNat < 0x80) :
    String.utf8EncodeChar c = [UInt8.ofNat c.toNat] := by
  have hone : c.val.toNat ≤ 0x7F := Nat.le_of_lt_succ h
  unfold String.utf8EncodeChar
  dsimp only
  rw [if_pos hone]
  rfl

/-- All octets of a character that takes more than one are above the ASCII range. -/
theorem le_of_mem_utf8EncodeChar {c : Char} {b : UInt8} (h : 0x80 ≤ c.toNat)
    (hb : b ∈ String.utf8EncodeChar c) : 0x80 ≤ b.toNat := by
  have hvalid : c.toNat < 0xD800 ∨ 0xDFFF < c.toNat ∧ c.toNat < 0x110000 := c.valid
  have hmany : ¬c.val.toNat ≤ 0x7F := Nat.not_le.mpr h
  unfold String.utf8EncodeChar at hb
  dsimp only at hb
  rw [if_neg hmany] at hb
  generalize c.val.toNat = v at hmany hb
  repeat' split at hb
  all_goals
    simp only [List.mem_cons, List.not_mem_nil, or_false] at hb
    rcases hb with rfl | rfl | rfl | rfl
    all_goals
      rw [toNat_ofNat (by omega)]
      omega

end Utf8

namespace Json

/-! ## Escapes -/

variable {fuel : Nat} {bs rest content tail after : Bytes}

/-- Octets that begin no escape and end no string are read as they stand. -/
theorem readStringBytes_plain (h : ∀ b ∈ bs, b ≠ 0x22 ∧ b ≠ 0x5C ∧ ¬b < 0x20)
    (hrest : readStringBytes fuel rest = .ok (tail, after)) :
    readStringBytes (fuel + bs.length) (bs ++ rest) = .ok (bs ++ tail, after) := by
  induction bs with
  | nil => exact hrest
  | cons b bs ih =>
      obtain ⟨hquote, hslash, hcontrol⟩ := h b List.mem_cons_self
      have hbehind := ih fun b' hb' ↦ h b' (List.mem_cons_of_mem b hb')
      rw [List.length_cons, ← Nat.add_assoc, List.cons_append, readStringBytes, if_neg hquote,
        if_neg hslash, if_neg hcontrol, hbehind]
      rfl

theorem readStringBytes_escape (h : readEscape (bs ++ rest) = .ok (content, rest))
    (hrest : readStringBytes fuel rest = .ok (tail, after)) :
    readStringBytes (fuel + 1) (0x5C :: bs ++ rest) = .ok (content ++ tail, after) := by
  rw [List.cons_append, readStringBytes, if_neg (by decide), if_pos rfl]
  simp only [h, hrest, bind, Except.bind, pure, Except.pure]

/-- The characters with an escape of their own, and the letters of these escapes. -/
def shortEscapes : List (Char × Char) :=
  [('"', '"'), ('\\', '\\'), ('\n', 'n'), ('\t', 't'), ('\r', 'r'), (Char.ofNat 8, 'b'),
    (Char.ofNat 12, 'f')]

theorem escape_short {c e : Char} (h : (c, e) ∈ shortEscapes) :
    escapeChar c = ['\\', e] ∧
      ∀ rest, readEscape (Utf8.encodeChars [e] ++ rest) = .ok (Utf8.encodeChars [c], rest) := by
  simp only [shortEscapes, List.mem_cons, Prod.mk.injEq, List.not_mem_nil, or_false] at h
  rcases h with ⟨rfl, rfl⟩ | ⟨rfl, rfl⟩ | ⟨rfl, rfl⟩ | ⟨rfl, rfl⟩ | ⟨rfl, rfl⟩ | ⟨rfl, rfl⟩ |
    ⟨rfl, rfl⟩
  all_goals exact ⟨rfl, fun _ ↦ rfl⟩

theorem ne_of_not_short {c : Char} (h : ∀ e, (c, e) ∉ shortEscapes) :
    ∀ d ∈ shortEscapes.map Prod.fst, c ≠ d := by
  rintro d hd rfl
  obtain ⟨⟨_, e⟩, he, rfl⟩ := List.mem_map.mp hd
  exact h e he

theorem escapeChar_of_not_short {c : Char} (h : ∀ e, (c, e) ∉ shortEscapes) :
    escapeChar c = if c.toNat < 32 then
      ['\\', 'u', '0', '0', Nat.digitChar (c.toNat / 16), Nat.digitChar (c.toNat % 16)]
    else [c] := by
  have hother := ne_of_not_short h
  have hnumber (n : Nat) (hn : Char.ofNat n ∈ shortEscapes.map Prod.fst) : c.toNat ≠ n := by
    rintro rfl
    rw [Char.ofNat_toNat] at hn
    exact hother c hn rfl
  have hquote : c ≠ '"' := hother _ (by decide)
  have hslash : c ≠ '\\' := hother _ (by decide)
  have hline : c ≠ '\n' := hother _ (by decide)
  have htab : c ≠ '\t' := hother _ (by decide)
  have hreturn : c ≠ '\r' := hother _ (by decide)
  have hback : c.toNat ≠ 8 := hnumber 8 (by decide)
  have hfeed : c.toNat ≠ 12 := hnumber 12 (by decide)
  simp [escapeChar, hquote, hslash, hline, htab, hreturn, hback, hfeed]

theorem readEscape_number {c : Char} (h : c.toNat < 32) (rest : Bytes) :
    readEscape (Utf8.encodeChars ['u', '0', '0', Nat.digitChar (c.toNat / 16),
      Nat.digitChar (c.toNat % 16)] ++ rest) = .ok (Utf8.encodeChars [c], rest) := by
  have hall : ∀ n < 32, ∀ rest, readEscape (Utf8.encodeChars ['u', '0', '0', Nat.digitChar (n / 16),
      Nat.digitChar (n % 16)] ++ rest) = .ok (Utf8.encodeChars [Char.ofNat n], rest) := by
    intro n hn rest
    interval_cases n
    all_goals rfl
  have hread := hall c.toNat h rest
  rwa [Char.ofNat_toNat] at hread

/-- A character that needs no escape begins none and ends no string. -/
theorem plain_of_mem {c : Char} (hquote : c ≠ '"') (hslash : c ≠ '\\') (hcontrol : ¬c.toNat < 32) :
    ∀ b ∈ String.utf8EncodeChar c, b ≠ 0x22 ∧ b ≠ 0x5C ∧ ¬b < 0x20 := by
  intro b hb
  have hnumber (n : Nat) (hn : c ≠ Char.ofNat n) : c.toNat ≠ n := by
    rintro rfl
    exact hn (Char.ofNat_toNat c).symm
  have hquote' := hnumber 34 hquote
  have hslash' := hnumber 92 hslash
  simp only [ne_eq, ← UInt8.toNat_inj, UInt8.lt_iff_toNat_lt, UInt8.reduceToNat]
  by_cases hascii : c.toNat < 0x80
  · rw [Utf8.utf8EncodeChar_of_lt hascii, List.mem_singleton] at hb
    have hnat : b.toNat = c.toNat := by
      rw [hb, Utf8.toNat_ofNat (by omega)]
    omega
  · have hhigh := Utf8.le_of_mem_utf8EncodeChar (Nat.not_lt.mp hascii) hb
    omega

/-- What is printed for a character is read as the character. -/
theorem readStringBytes_escapeChar (c : Char) :
    ∃ spent, spent ≤ (Utf8.encodeChars (escapeChar c)).length ∧ ∀ fuel rest tail after,
      readStringBytes fuel rest = .ok (tail, after) →
        readStringBytes (fuel + spent) (Utf8.encodeChars (escapeChar c) ++ rest) =
          .ok (Utf8.encodeChars [c] ++ tail, after) := by
  by_cases hshort : ∃ e, (c, e) ∈ shortEscapes
  · obtain ⟨e, he⟩ := hshort
    obtain ⟨hc, hread⟩ := escape_short he
    rw [hc]
    exact ⟨1, Nat.le_add_left 1 _, fun _ rest _ _ ↦ readStringBytes_escape (hread rest)⟩
  · rw [not_exists] at hshort
    rw [escapeChar_of_not_short hshort]
    by_cases hcontrol : c.toNat < 32
    · rw [if_pos hcontrol]
      refine ⟨1, Nat.le_add_left 1 _, fun _ rest _ _ ↦ ?_⟩
      exact readStringBytes_escape (readEscape_number hcontrol rest)
    · rw [if_neg hcontrol]
      refine ⟨_, Nat.le_refl _, fun _ _ _ _ ↦ readStringBytes_plain ?_⟩
      have hquote : c ≠ '"' := ne_of_not_short hshort _ (by decide)
      have hslash : c ≠ '\\' := ne_of_not_short hshort _ (by decide)
      simpa using plain_of_mem hquote hslash hcontrol

/-- A string that was printed is read again, up to the quote that ends it. -/
theorem readStringBytes_flatMap (cs : List Char) (rest : Bytes)
    (h : (Utf8.encodeChars (cs.flatMap escapeChar)).length < fuel) :
    readStringBytes fuel (Utf8.encodeChars (cs.flatMap escapeChar) ++ 0x22 :: rest) =
      .ok (Utf8.encodeChars cs, rest) := by
  induction cs generalizing fuel with
  | nil =>
      cases fuel with
      | zero => cases h
      | succ fuel => rfl
  | cons c cs ih =>
      obtain ⟨spent, hspent, hread⟩ := readStringBytes_escapeChar c
      rw [List.flatMap_cons, Utf8.encodeChars_append, List.length_append] at h
      obtain ⟨left, rfl⟩ : ∃ left, fuel = left + spent := ⟨fuel - spent, by omega⟩
      have htail := hread left _ _ _ (ih (by omega))
      rw [List.flatMap_cons, Utf8.encodeChars_append, List.append_assoc, htail]
      simp

/-- Strings come back from what is printed between their quotes. -/
theorem readString_escaped (s : String) (rest : Bytes) :
    readString (Utf8.encodeChars (s.toList.flatMap escapeChar) ++ 0x22 :: rest) =
      .ok (s, rest) := by
  generalize hbs : Utf8.encodeChars (s.toList.flatMap escapeChar) = bs
  have hread : readStringBytes ((bs ++ 0x22 :: rest).length + 1) (bs ++ 0x22 :: rest) =
      .ok (Utf8.encodeChars s.toList, rest) := by
    subst hbs
    apply readStringBytes_flatMap
    rw [List.length_append]
    omega
  have hdecode := Utf8.decode?_encodeChars s.toList
  rw [String.ofList_toList] at hdecode
  simp only [readString, hread, hdecode, bind, Except.bind]

end Json
end ReplicaClient
