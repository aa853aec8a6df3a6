import ReplicaClient.Frame

/-!
# The octets of a frame

A frame of any code, known or not, has its octets: the length of code and payload, the code, and
the payload.  What a reader takes for a frame consists of the octets of that frame, and in a
stream of frames that breaks off anywhere a reader finds the frames that were sent, and no
others.
-/

namespace ReplicaClient

namespace Bytes

theorem littleEndian_toNat (bs : Bytes) : littleEndian bs.length (toNat bs) = bs := by
  induction bs with
  | nil => rfl
  | cons b bs ih =>
      have hlow : UInt8.ofNat (b.toNat + 256 * toNat bs) = b := by
        apply UInt8.toNat_inj.mp
        have hb := b.toNat_lt
        simp only [UInt8.toNat_ofNat']
        omega
      have hhigh : (b.toNat + 256 * toNat bs) / 256 = toNat bs := by
        have hb := b.toNat_lt
        omega
      rw [toNat, List.length_cons, littleEndian, hlow, hhigh, ih]

/-- A number of as many octets as it was read from is written with the same octets. -/
theorem bigEndian_toNatBigEndian (bs : Bytes) :
    bigEndian bs.length (toNatBigEndian bs) = bs := by
  have h := littleEndian_toNat bs.reverse
  rw [List.length_reverse] at h
  rw [bigEndian, toNatBigEndian, h, List.reverse_reverse]

end Bytes

namespace Frame

def octets (f : Frame) : Bytes :=
  Bytes.bigEndian 4 (f.payload.length + 1) ++ f.code :: f.payload

/-- The length of the frame can be written in front of it. -/
def Fits (f : Frame) : Prop :=
  f.payload.length + 1 < Bytes.wordCount 4

theorem encode_eq_octets (code : MessageCode) (payload : Bytes) :
    encode code payload = octets ⟨code.toByte, payload⟩ := by
  simp [encode, encodeHeader, octets]

@[simp] theorem length_octets (f : Frame) : f.octets.length = f.size := by
  simp only [octets, size, headerLength, List.length_append, Bytes.length_bigEndian,
    List.length_cons]
  omega

theorem Fits.of_le_maxPayload {f : Frame} (h : f.payload.length ≤ maxPayload) : f.Fits := by
  have hmax : maxPayload + 1 < Bytes.wordCount 4 := by decide
  exact Nat.lt_of_le_of_lt (Nat.succ_le_succ h) hmax

/-! ## Headers -/

theorem decodeHeader_of_lt {bs : Bytes} (h : bs.length < headerLength) :
    decodeHeader bs = .error (.short bs.length) := by
  match bs, h with
  | [], _ | [_], _ | [_, _], _ | [_, _, _], _ | [_, _, _, _], _ => rfl
  | _ :: _ :: _ :: _ :: _ :: _, h =>
      simp only [List.length_cons, headerLength] at h
      omega

/-- Only the first octets of a buffer make its header. -/
theorem decodeHeader_take (bs : Bytes) : decodeHeader (bs.take headerLength) = decodeHeader bs := by
  match bs with
  | [] | [_] | [_, _] | [_, _, _] | [_, _, _, _] | _ :: _ :: _ :: _ :: _ :: _ => rfl

theorem decodeHeader_append {n : Nat} (hn : n + 1 < Bytes.wordCount 4) (code : UInt8)
    (rest : Bytes) :
    decodeHeader (Bytes.bigEndian 4 (n + 1) ++ code :: rest) =
      if maxPayload < n then .error (.tooLarge n) else .ok ⟨code, n⟩ := by
  have hread := Bytes.toNatBigEndian_bigEndian hn
  match hword : Bytes.bigEndian 4 (n + 1), Bytes.length_bigEndian 4 (n + 1) with
  | [a, b, c, d], _ =>
      rw [hword] at hread
      simp only [List.cons_append, List.nil_append, decodeHeader, hread]
      rw [if_neg (Nat.succ_ne_zero n), Nat.add_sub_cancel]

/-- A header that announces a payload is written again with the same octets. -/
theorem eq_append_of_decodeHeader {bs : Bytes} {header : Header}
    (h : decodeHeader bs = .ok header) :
    bs = Bytes.bigEndian 4 (header.payloadLength + 1) ++ header.code :: bs.drop headerLength := by
  match bs with
  | [] | [_] | [_, _] | [_, _, _] | [_, _, _, _] => simp [decodeHeader] at h
  | a :: b :: c :: d :: code :: rest =>
      have hword := Bytes.bigEndian_toNatBigEndian [a, b, c, d]
      simp only [decodeHeader] at h
      split at h
      · cases h
      · rename_i hne
        split at h
        · cases h
        · cases h
          have hlength : Bytes.toNatBigEndian [a, b, c, d] - 1 + 1 =
              Bytes.toNatBigEndian [a, b, c, d] := by omega
          simp only [hlength]
          simp only [List.length_cons, List.length_nil] at hword
          rw [hword]
          rfl

theorem payloadLength_le {bs : Bytes} {header : Header} (h : decodeHeader bs = .ok header) :
    header.payloadLength ≤ maxPayload := by
  unfold decodeHeader at h
  split at h
  · dsimp only at h
    split at h
    · cases h
    · split at h
      · cases h
      · cases h
        exact Nat.le_of_not_lt ‹_›
  · cases h

/-! ## Frames -/

/-- What a reader can say about a buffer whose header is good. -/
theorem decode_of_header {bs : Bytes} {header : Header} (h : decodeHeader bs = .ok header) :
    decode bs =
      if bs.length < headerLength + header.payloadLength then .ok none
      else .ok (some (⟨header.code, (bs.drop headerLength).take header.payloadLength⟩,
        headerLength + header.payloadLength)) := by
  simp only [decode, h, bind, Except.bind]

theorem decode_of_header_error {bs : Bytes} {e : FrameError} (h : decodeHeader bs = .error e) :
    decode bs = .error e := by
  simp only [decode, h, bind, Except.bind]

theorem decode_octets_append {f : Frame} (h : f.payload.length ≤ maxPayload) (rest : Bytes) :
    decode (f.octets ++ rest) = .ok (some (f, f.size)) := by
  have hheader : decodeHeader (f.octets ++ rest) = .ok ⟨f.code, f.payload.length⟩ := by
    rw [octets, List.append_assoc, List.cons_append,
      decodeHeader_append (Fits.of_le_maxPayload h), if_neg (Nat.not_lt.mpr h)]
  have hdrop : (f.octets ++ rest).drop headerLength = f.payload ++ rest := by
    rw [octets, List.append_assoc, List.cons_append, List.append_cons]
    exact List.drop_left' (by simp [headerLength])
  rw [decode_of_header hheader, if_neg, hdrop, List.take_left]
  · rfl
  · rw [List.length_append, length_octets, size]
    dsimp only
    omega

/-- A frame that a reader finds consists of the first octets of the buffer. -/
theorem octets_append_drop {bs : Bytes} {f : Frame} {used : Nat}
    (h : decode bs = .ok (some (f, used))) : f.octets ++ bs.drop used = bs := by
  cases hheader : decodeHeader bs with
  | error e => simp [decode_of_header_error hheader] at h
  | ok header =>
      rw [decode_of_header hheader] at h
      split at h
      · simp at h
      · rename_i hlen
        simp only [Except.ok.injEq, Option.some.injEq, Prod.mk.injEq] at h
        obtain ⟨rfl, rfl⟩ := h
        have hpayload : ((bs.drop headerLength).take header.payloadLength).length =
            header.payloadLength := by
          rw [List.length_take, List.length_drop]
          omega
        simp only [octets, hpayload]
        rw [List.append_assoc, List.cons_append, ← List.drop_drop, List.take_append_drop]
        exact (eq_append_of_decodeHeader hheader).symm

/-- A reader of nothing at all says so. -/
theorem eq_nil_of_decode {bs : Bytes} (h : decode bs = .error (.short 0)) : bs = [] := by
  cases hheader : decodeHeader bs with
  | ok header =>
      rw [decode_of_header hheader] at h
      split at h <;> cases h
  | error e =>
      rw [decode_of_header_error hheader] at h
      obtain rfl : e = .short 0 := Except.error.inj h
      match bs with
      | [] => rfl
      | [_] | [_, _] | [_, _, _] | [_, _, _, _] => simp [decodeHeader] at hheader
      | a :: b :: c :: d :: code :: rest =>
          simp only [decodeHeader] at hheader
          split at hheader
          · cases hheader
          · split at hheader <;> cases hheader

/-- A reader of a buffer that finds no frame lacks octets of the header, or refuses it. -/
theorem decode_error_cases {bs : Bytes} {e : FrameError} (h : decode bs = .error e) :
    (e = .short bs.length ∧ bs.length < headerLength) ∨ e = .empty ∨ ∃ size, e = .tooLarge size := by
  have hheader : decodeHeader bs = .error e := by
    cases hheader : decodeHeader bs with
    | ok header =>
        rw [decode_of_header hheader] at h
        split at h <;> cases h
    | error e' =>
        rw [decode_of_header_error hheader] at h
        rw [Except.error.inj h]
  match bs with
  | [] | [_] | [_, _] | [_, _, _] | [_, _, _, _] =>
      cases hheader
      exact Or.inl ⟨rfl, by simp [headerLength]⟩
  | a :: b :: c :: d :: code :: rest =>
      right
      simp only [decodeHeader] at hheader
      split at hheader
      · cases hheader
        exact Or.inl rfl
      · split at hheader
        · cases hheader
          exact Or.inr ⟨_, rfl⟩
        · cases hheader

theorem eq_nil_of_flatten {fs : List Frame} (h : (fs.map octets).flatten = []) : fs = [] := by
  cases fs with
  | nil => rfl
  | cons f fs =>
      have hpos := f.size_pos
      have hlength := congrArg List.length h
      simp only [List.map_cons, List.flatten_cons, List.length_append, length_octets,
        List.length_nil] at hlength
      omega

/-- Frames are told apart by their octets, whatever follows. -/
theorem eq_of_octets_append {f g : Frame} {x y : Bytes} (hf : f.Fits) (hg : g.Fits)
    (h : f.octets ++ x = g.octets ++ y) : f = g ∧ x = y := by
  obtain ⟨code, payload⟩ := f
  obtain ⟨code', payload'⟩ := g
  simp only [octets, List.append_assoc, List.cons_append] at h
  obtain ⟨hword, htail⟩ := List.append_inj h (by simp)
  obtain ⟨rfl, hrest⟩ := List.cons.inj htail
  have hlength : payload.length = payload'.length := by
    have hread := congrArg Bytes.toNatBigEndian hword
    rw [Bytes.toNatBigEndian_bigEndian hf, Bytes.toNatBigEndian_bigEndian hg] at hread
    simpa using hread
  obtain ⟨rfl, rfl⟩ := List.append_inj hrest hlength
  exact ⟨rfl, rfl⟩

/-- A frame that a reader finds has an acceptable length. -/
theorem length_le_of_decode {bs : Bytes} {f : Frame} {used : Nat}
    (h : decode bs = .ok (some (f, used))) : f.payload.length ≤ maxPayload := by
  cases hheader : decodeHeader bs with
  | error e => simp [decode_of_header_error hheader] at h
  | ok header =>
      rw [decode_of_header hheader] at h
      split at h
      · simp at h
      · simp only [Except.ok.injEq, Option.some.injEq, Prod.mk.injEq] at h
        obtain ⟨rfl, rfl⟩ := h
        exact Nat.le_trans (List.length_take_le _ _) (payloadLength_le hheader)

/-- In a stream that breaks off anywhere, a reader finds the frame that was sent first. -/
theorem decode_of_isPrefix {f g : Frame} {bs rest : Bytes} {used : Nat} (hf : f.Fits)
    (hpre : bs <+: f.octets ++ rest) (h : decode bs = .ok (some (g, used))) :
    g = f ∧ bs.drop used <+: rest := by
  obtain ⟨tail, htail⟩ := hpre
  have hsplit : g.octets ++ (bs.drop used ++ tail) = f.octets ++ rest := by
    rw [← List.append_assoc, octets_append_drop h, htail]
  obtain ⟨rfl, hrest⟩ := eq_of_octets_append (.of_le_maxPayload (length_le_of_decode h)) hf hsplit
  exact ⟨rfl, tail, hrest⟩

end Frame
end ReplicaClient
