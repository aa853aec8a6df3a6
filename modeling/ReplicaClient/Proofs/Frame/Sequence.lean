import ReplicaClient.Proofs.Frame.Octets

/-!
# Frames in sequence

Frames that are written one after the other are read one after the other, and every octet is used
up.  If the octets break off anywhere, a reader finds the frames that are complete and says of the
rest that it is short of a header or of a payload.
-/

namespace ReplicaClient
namespace Frame

variable {f : Frame} {fs : List Frame} {bs : Bytes}

/-- All octets of the frames, in order. -/
def stream (fs : List Frame) : Bytes :=
  (fs.map octets).flatten

@[simp] theorem stream_nil : stream [] = [] :=
  rfl

@[simp] theorem stream_cons (f : Frame) (fs : List Frame) :
    stream (f :: fs) = f.octets ++ stream fs :=
  rfl

theorem stream_append (fs gs : List Frame) : stream (fs ++ gs) = stream fs ++ stream gs := by
  simp [stream]

theorem eq_nil_of_stream_eq_nil (h : stream fs = []) : fs = [] :=
  eq_nil_of_flatten h

/-! ## One frame at a time -/

/-- What a reader says of octets in which no frame is complete. -/
def Stop.amid (tail : Bytes) : Stop :=
  if tail.length < headerLength then .fault (.short tail.length) else .incomplete

theorem decodeAll_of_frame {used : Nat} (h : decode bs = .ok (some (f, used))) :
    decodeAll bs =
      if bs.length ≤ used then ([f], .exhausted)
      else (f :: (decodeAll (bs.drop used)).1, (decodeAll (bs.drop used)).2) := by
  rw [decodeAll]
  split
  · rename_i e heq
    rw [h] at heq
    cases heq
  · rename_i heq
    rw [h] at heq
    cases heq
  · rename_i f' used' heq
    rw [h] at heq
    cases heq
    rfl

theorem decodeAll_octets_append (hf : f.payload.length ≤ maxPayload) (rest : Bytes) :
    decodeAll (f.octets ++ rest) =
      if rest = [] then ([f], .exhausted)
      else (f :: (decodeAll rest).1, (decodeAll rest).2) := by
  have hdrop : (f.octets ++ rest).drop f.size = rest := List.drop_left' f.length_octets
  rw [decodeAll_of_frame (decode_octets_append hf rest), hdrop]
  cases rest with
  | nil => simp
  | cons b rest =>
      rw [if_neg, if_neg (List.cons_ne_nil b rest)]
      rw [List.length_append, length_octets, List.length_cons]
      omega

/-- The beginning of a frame is never taken for a frame, nor for anything that is not one. -/
theorem decode_of_lt_size {tail : Bytes} (hf : f.payload.length ≤ maxPayload)
    (hpre : tail <+: f.octets) (hlt : tail.length < f.size) :
    decode tail =
      if tail.length < headerLength then .error (.short tail.length) else .ok none := by
  split
  · rename_i hshort
    exact decode_of_header_error (decodeHeader_of_lt hshort)
  · rename_i hlong
    have hsame : tail.take headerLength = f.octets.take headerLength := by
      obtain ⟨more, hmore⟩ := hpre
      rw [← hmore, List.take_append_of_le_length (Nat.le_of_not_lt hlong)]
    have hheader : decodeHeader tail = .ok ⟨f.code, f.payload.length⟩ := by
      rw [← decodeHeader_take, hsame, decodeHeader_take, octets,
        decodeHeader_append (Fits.of_le_maxPayload hf), if_neg (Nat.not_lt.mpr hf)]
    rw [decode_of_header hheader]
    exact if_pos hlt

theorem decodeAll_of_lt_size {tail : Bytes} (hf : f.payload.length ≤ maxPayload)
    (hpre : tail <+: f.octets) (hlt : tail.length < f.size) :
    decodeAll tail = ([], Stop.amid tail) := by
  have hdecode := decode_of_lt_size hf hpre hlt
  rw [decodeAll, Stop.amid]
  split <;> rename_i heq <;> rw [hdecode] at heq <;> split at heq <;> cases heq
  · rw [if_pos ‹_›]
  · rw [if_neg ‹_›]

/-! ## Streams that break off -/

/-- The octets break off after `n` complete frames and the first octets, `tail`, of the next. -/
structure BreaksOff (fs : List Frame) (bs : Bytes) (n : Nat) (tail : Bytes) : Prop where
  le : n ≤ fs.length
  eq_append : bs = stream (fs.take n) ++ tail
  cut : tail = [] ∧ n = fs.length ∨ ∃ f ∈ fs, tail <+: f.octets ∧ tail.length < f.size ∧
    fs[n]? = some f

theorem BreaksOff.cons {n : Nat} {tail : Bytes} (h : BreaksOff fs bs n tail) (f : Frame) :
    BreaksOff (f :: fs) (f.octets ++ bs) (n + 1) tail where
  le := Nat.succ_le_succ h.le
  eq_append := by
    rw [List.take_succ_cons, stream_cons, List.append_assoc, ← h.eq_append]
  cut := by
    rcases h.cut with ⟨hnil, hall⟩ | ⟨g, hg, hcut⟩
    · exact Or.inl ⟨hnil, by rw [hall, List.length_cons]⟩
    · exact Or.inr ⟨g, List.mem_cons_of_mem f hg, hcut⟩

/-- The frame that breaks off is not among the complete ones. -/
theorem BreaksOff.not_isPrefix {n : Nat} {tail : Bytes} (h : BreaksOff fs bs n tail)
    (hlt : n < fs.length) : ¬stream (fs.take (n + 1)) <+: bs := by
  intro hprefix
  rcases h.cut with ⟨-, hall⟩ | ⟨f, -, -, hshort, hnext⟩
  · omega
  · rw [List.take_succ_eq_append_getElem hlt, stream_append, h.eq_append,
      List.prefix_append_right_inj] at hprefix
    have hlength := hprefix.length_le
    obtain rfl : fs[n] = f := Option.some.inj ((List.getElem?_eq_getElem hlt).symm.trans hnext)
    rw [stream_cons, stream_nil, List.append_nil, length_octets] at hlength
    omega

/-- Wherever a stream breaks off, a reader finds the frames that are complete. -/
theorem decodeAll_of_isPrefix (hfs : ∀ f ∈ fs, f.payload.length ≤ maxPayload)
    (hpre : bs <+: stream fs) :
    ∃ n tail, BreaksOff fs bs n tail ∧
      decodeAll bs = (fs.take n, if tail = [] ∧ n ≠ 0 then .exhausted else Stop.amid tail) := by
  induction fs generalizing bs with
  | nil =>
      obtain rfl : bs = [] := List.prefix_nil.mp hpre
      refine ⟨0, [], ⟨Nat.le_refl 0, rfl, Or.inl ⟨rfl, rfl⟩⟩, ?_⟩
      rw [decodeAll]
      rfl
  | cons f fs ih =>
      have hf : f.payload.length ≤ maxPayload := hfs f List.mem_cons_self
      rw [stream_cons] at hpre
      by_cases hlt : bs.length < f.size
      · have hcut : bs <+: f.octets := by
          rw [← length_octets] at hlt
          exact List.prefix_of_prefix_length_le hpre (List.prefix_append _ _) (Nat.le_of_lt hlt)
        refine ⟨0, bs, ⟨Nat.zero_le _, rfl, ?_⟩, ?_⟩
        · exact Or.inr ⟨f, List.mem_cons_self, hcut, hlt, rfl⟩
        · rw [decodeAll_of_lt_size hf hcut hlt, if_neg (fun h ↦ h.2 rfl)]
          rfl
      · have hfirst : f.octets <+: bs := by
          rw [← length_octets] at hlt
          exact List.prefix_of_prefix_length_le (List.prefix_append _ _) hpre (Nat.le_of_not_lt hlt)
        obtain ⟨bs, rfl⟩ := hfirst
        have hrest : bs <+: stream fs := (List.prefix_append_right_inj _).mp hpre
        obtain ⟨n, tail, hbreaks, hread⟩ :=
          ih (fun g hg ↦ hfs g (List.mem_cons_of_mem f hg)) hrest
        refine ⟨n + 1, tail, hbreaks.cons f, ?_⟩
        rw [decodeAll_octets_append hf, hread]
        have hsplit := hbreaks.eq_append
        by_cases hnil : bs = []
        · -- Nothing follows the frame, so it is the last one that is complete.
          rw [hnil] at hsplit
          obtain ⟨hdone, htail⟩ := List.append_eq_nil_iff.mp hsplit.symm
          rw [if_pos hnil, List.take_succ_cons, eq_nil_of_stream_eq_nil hdone,
            if_pos ⟨htail, Nat.succ_ne_zero n⟩]
        · have hmore : tail = [] → n ≠ 0 := by
            rintro htail rfl
            rw [htail] at hsplit
            exact hnil hsplit
          rw [if_neg hnil, List.take_succ_cons]
          by_cases htail : tail = []
          · rw [if_pos ⟨htail, hmore htail⟩, if_pos ⟨htail, Nat.succ_ne_zero n⟩]
          · rw [if_neg (fun h ↦ htail h.1), if_neg (fun h ↦ htail h.1)]

/-! ## Streams of known codes -/

/-- The frames with the given codes and payloads, one after the other. -/
def written (sent : List (MessageCode × Bytes)) : Bytes :=
  (sent.map fun p ↦ encode p.1 p.2).flatten

def ofSent (sent : List (MessageCode × Bytes)) : List Frame :=
  sent.map fun p ↦ ⟨p.1.toByte, p.2⟩

theorem written_eq_stream (sent : List (MessageCode × Bytes)) :
    written sent = stream (ofSent sent) := by
  simp only [written, stream, ofSent, List.map_map, Function.comp_def, encode_eq_octets]

theorem length_le_of_mem_ofSent {sent : List (MessageCode × Bytes)}
    (hsent : ∀ p ∈ sent, p.2.length ≤ maxPayload) :
    ∀ f ∈ ofSent sent, f.payload.length ≤ maxPayload := by
  intro f hf
  obtain ⟨p, hp, rfl⟩ := List.mem_map.mp hf
  exact hsent p hp

theorem decodeAll_stream (hfs : ∀ f ∈ fs, f.payload.length ≤ maxPayload) (hne : fs ≠ []) :
    decodeAll (stream fs) = (fs, .exhausted) := by
  obtain ⟨n, tail, hbreaks, hread⟩ := decodeAll_of_isPrefix hfs List.prefix_rfl
  have hall : n = fs.length := by
    apply Nat.le_antisymm hbreaks.le
    apply Nat.le_of_not_lt
    intro hlt
    apply hbreaks.not_isPrefix hlt
    rw [← List.take_append_drop (n + 1) fs, stream_append, List.take_left']
    · exact List.prefix_append _ _
    · rw [List.length_take]
      omega
  have htail : tail = [] := by
    have hsplit := hbreaks.eq_append
    rw [hall, List.take_length] at hsplit
    exact List.append_right_eq_self.mp hsplit.symm
  have hpos : n ≠ 0 := by
    rw [hall]
    exact fun h ↦ hne (List.eq_nil_of_length_eq_zero h)
  rw [hread, if_pos ⟨htail, hpos⟩, hall, List.take_length]

/-- Frames that have been written one after the other are read back with every octet used up.
Wherever the stream breaks off, the complete frames are read, and a reader of the rest waits for a
header or a payload.  Whatever is read as a frame is written with the octets it was read from. -/
theorem decodeAll_written (sent : List (MessageCode × Bytes))
    (hsent : ∀ p ∈ sent, p.2.length ≤ maxPayload) :
    ((decodeAll (written sent)).1 = ofSent sent ∧
      (sent ≠ [] → (decodeAll (written sent)).2 = .exhausted)) ∧
    (∀ bs, bs <+: written sent → bs ≠ written sent → ∃ n tail, n < sent.length ∧
      bs = written (sent.take n) ++ tail ∧ ¬written (sent.take (n + 1)) <+: bs ∧
      decode tail =
        (if tail.length < headerLength then .error (.short tail.length) else .ok none) ∧
      decodeAll bs =
        (ofSent (sent.take n), if tail = [] ∧ n ≠ 0 then .exhausted else Stop.amid tail)) ∧
    ∀ bs f used, decode bs = .ok (some (f, used)) →
      used = headerLength + f.payload.length ∧ used ≤ bs.length ∧
        ∀ code, MessageCode.ofByte? f.code = some code → encode code f.payload = bs.take used := by
  have hfs := length_le_of_mem_ofSent hsent
  refine ⟨?_, ?_, ?_⟩
  · rw [written_eq_stream]
    by_cases hnil : sent = []
    · subst hnil
      refine ⟨?_, fun h ↦ absurd rfl h⟩
      rw [show ofSent [] = [] from rfl, stream_nil, decodeAll]
      rfl
    · rw [decodeAll_stream hfs (by simpa [ofSent] using hnil)]
      exact ⟨rfl, fun _ ↦ rfl⟩
  · intro bs hpre hne
    have htake (k : Nat) : ofSent (sent.take k) = (ofSent sent).take k := List.map_take
    simp only [written_eq_stream, htake] at hpre hne ⊢
    obtain ⟨n, tail, hbreaks, hread⟩ := decodeAll_of_isPrefix hfs hpre
    rcases hbreaks.cut with ⟨rfl, hall⟩ | ⟨f, hf, hcut, hshort, hnext⟩
    · have hsplit := hbreaks.eq_append
      rw [hall, List.take_length, List.append_nil] at hsplit
      exact absurd hsplit hne
    · obtain ⟨hlt, -⟩ := List.getElem?_eq_some_iff.mp hnext
      refine ⟨n, tail, ?_, hbreaks.eq_append, hbreaks.not_isPrefix hlt,
        decode_of_lt_size (hfs f hf) hcut hshort, hread⟩
      rwa [ofSent, List.length_map] at hlt
  · intro bs f used hdecode
    obtain ⟨hused, hle⟩ := size_of_decode hdecode
    refine ⟨hused, hle, ?_⟩
    intro code hcode
    have hoctets := octets_append_drop hdecode
    rw [encode_eq_octets, MessageCode.toByte_of_ofByte? hcode]
    calc f.octets = (f.octets ++ bs.drop used).take used := by
          rw [hused, List.take_left' f.length_octets]
      _ = bs.take used := by rw [hoctets]

/-- A ping and the reply to a read, the last octet of which is still missing. -/
theorem decodeAll_written_cut :
    let sent : List (MessageCode × Bytes) := [(.request .ping, []), (.reply .get, [7, 7])]
    let bs : Bytes := [0, 0, 0, 1, 1, 0, 0, 0, 3, 10, 7]
    (∀ p ∈ sent, p.2.length ≤ maxPayload) ∧ bs <+: written sent ∧ bs ≠ written sent ∧
      ∃ n tail, n < sent.length ∧ bs = written (sent.take n) ++ tail ∧
        decodeAll bs =
          (ofSent (sent.take n), if tail = [] ∧ n ≠ 0 then .exhausted else Stop.amid tail) := by
  intro sent bs
  have hsent : ∀ p ∈ sent, p.2.length ≤ maxPayload := by decide
  have hpre : bs <+: written sent := by decide
  have hne : bs ≠ written sent := by decide
  obtain ⟨n, tail, hlt, hsplit, -, -, hread⟩ := (decodeAll_written sent hsent).2.1 bs hpre hne
  exact ⟨hsent, hpre, hne, n, tail, hlt, hsplit, hread⟩

end Frame
end ReplicaClient
