import ReplicaClient.Network
import ReplicaClient.Proofs.Frame.Octets

/-!
# Reading frames from a stream

How octets are cut into pieces on their way does not matter: a channel is read like the buffer
of all its unread octets.  Where the stream has ended, its reader says in every case what a reader
of that buffer says.
-/

namespace ReplicaClient
namespace Channel

variable {ch : Channel}

/-! ## Pieces -/

theorem take_fst (n : Nat) (pieces : List Bytes) : (take n pieces).1 = pieces.flatten.take n := by
  induction pieces generalizing n with
  | nil => simp [take]
  | cons piece pieces ih =>
      rw [take]
      split
      · rename_i hle
        rw [List.flatten_cons, List.take_append_of_le_length hle]
      · rename_i hlt
        simp only [ih, List.flatten_cons]
        rw [List.take_append, List.take_of_length_le (Nat.le_of_not_le hlt)]

theorem take_snd (n : Nat) (pieces : List Bytes) :
    (take n pieces).2.flatten = pieces.flatten.drop n := by
  induction pieces generalizing n with
  | nil => simp [take]
  | cons piece pieces ih =>
      rw [take]
      split
      · rename_i hle
        rw [List.flatten_cons, List.flatten_cons, List.drop_append_of_le_length hle]
      · rename_i hlt
        simp only [ih, List.flatten_cons]
        rw [List.drop_append, List.drop_eq_nil_of_le (Nat.le_of_not_le hlt), List.nil_append]

/-! ## Frames -/

def shortRead (ch : Channel) (n : Nat) : Except ClientError (Option Frame) :=
  match ch.shortage with
  | some e => .error e
  | none => if n = 0 then .ok none else .error (.shortResponse n)

/-- A read takes a frame off the unread octets as a reader of a buffer would. -/
theorem receive_of_frame {f : Frame} {used : Nat}
    (h : Frame.decode ch.unread = .ok (some (f, used))) :
    ∃ after : Channel, ch.receive = (.ok (some f), after) ∧ after.ending = ch.ending ∧
      after.unread = ch.unread.drop used := by
  cases hheader : Frame.decodeHeader ch.unread with
  | error e => simp [Frame.decode_of_header_error hheader] at h
  | ok header =>
      rw [Frame.decode_of_header hheader] at h
      split at h
      · simp at h
      · rename_i hlen
        simp only [Except.ok.injEq, Option.some.injEq, Prod.mk.injEq] at h
        obtain ⟨rfl, rfl⟩ := h
        have htaken : Frame.decodeHeader (take Frame.headerLength ch.inbox).1 = .ok header := by
          rw [take_fst, ← hheader]
          exact Frame.decodeHeader_take ch.unread
        have hpayload : (take header.payloadLength (take Frame.headerLength ch.inbox).2).1 =
            (ch.unread.drop Frame.headerLength).take header.payloadLength := by
          rw [take_fst, take_snd]
          rfl
        have hlength : ¬((ch.unread.drop Frame.headerLength).take header.payloadLength).length <
            header.payloadLength := by
          rw [List.length_take, List.length_drop]
          omega
        refine ⟨{ ch with inbox := (take header.payloadLength
          (take Frame.headerLength ch.inbox).2).2 }, ?_, rfl, ?_⟩
        · simp only [receive, htaken, hpayload, if_neg hlength]
        · rw [unread, take_snd, take_snd, List.drop_drop]
          rfl

/-- A payload that is cut short is a fault of the transport. -/
theorem receive_of_incomplete (h : Frame.decode ch.unread = .ok none) :
    ∃ after : Channel, ch.receive = (.error (ch.shortage.getD .connectionClosed), after) ∧
      after.ending = ch.ending ∧ after.unread = [] := by
  cases hheader : Frame.decodeHeader ch.unread with
  | error e => simp [Frame.decode_of_header_error hheader] at h
  | ok header =>
      rw [Frame.decode_of_header hheader] at h
      split at h
      · rename_i hlen
        have htaken : Frame.decodeHeader (take Frame.headerLength ch.inbox).1 = .ok header := by
          rw [take_fst, ← hheader]
          exact Frame.decodeHeader_take ch.unread
        have hlength : (take header.payloadLength (take Frame.headerLength ch.inbox).2).1.length <
            header.payloadLength := by
          have hheaderLength : Frame.headerLength ≤ ch.unread.length := by
            refine Nat.le_of_not_lt fun hlt ↦ ?_
            rw [Frame.decodeHeader_of_lt hlt] at hheader
            cases hheader
          rw [take_fst, take_snd, List.length_take, List.length_drop]
          change min _ (ch.unread.length - _) < _
          omega
        refine ⟨{ ch with inbox := (take header.payloadLength
          (take Frame.headerLength ch.inbox).2).2 }, ?_, rfl, ?_⟩
        · simp only [receive, htaken, if_pos hlength]
          rfl
        · rw [unread, take_snd, take_snd, List.drop_drop]
          exact List.drop_eq_nil_of_le (Nat.le_of_lt hlen)
      · simp at h

/-- A header that is refused is a fault of the frame, and one that is cut short ends the stream or
is a fault of the transport. -/
theorem receive_of_error {e : FrameError} (h : Frame.decode ch.unread = .error e) :
    ∃ after : Channel, after.ending = ch.ending ∧
      after.unread = ch.unread.drop Frame.headerLength ∧
      ch.receive = (match e with
        | .short n => ch.shortRead n
        | e => .error (.frame e), after) := by
  cases hheader : Frame.decodeHeader ch.unread with
  | ok header =>
      rw [Frame.decode_of_header hheader] at h
      split at h <;> cases h
  | error e' =>
      obtain rfl : e' = e := by
        rw [Frame.decode_of_header_error hheader] at h
        exact Except.error.inj h
      have htaken : Frame.decodeHeader (take Frame.headerLength ch.inbox).1 = .error e' := by
        rw [take_fst, ← hheader]
        exact Frame.decodeHeader_take ch.unread
      refine ⟨{ ch with inbox := (take Frame.headerLength ch.inbox).2 }, rfl, take_snd _ _, ?_⟩
      cases e' with
      | short n =>
          simp only [receive, htaken, shortRead, shortage]
          cases ch.ending <;> rfl
      | empty => simp only [receive, htaken]
      | tooLarge size => simp only [receive, htaken]
      | decode e => simp only [receive, htaken]

/-- All that a read can come to.  An error of a read is never one of the store, and the stream has
ended before a frame only if every octet has been read. -/
theorem receive_cases (ch : Channel) :
    (∃ f used after, Frame.decode ch.unread = .ok (some (f, used)) ∧
      ch.receive = (.ok (some f), after) ∧ after.unread = ch.unread.drop used) ∨
    (∃ after, ch.receive = (.ok none, after) ∧ after.unread = []) ∨
    ∃ e after, ch.receive = (.error e, after) ∧ e.isServer = false := by
  have hshortage : ∀ e, ch.shortage = some e → e.isServer = false := by
    intro e he
    unfold shortage at he
    split at he <;> cases he <;> rfl
  cases hdecode : Frame.decode ch.unread with
  | ok found =>
      cases found with
      | some pair =>
          obtain ⟨f, used⟩ := pair
          obtain ⟨after, hreceive, -, hunread⟩ := receive_of_frame hdecode
          exact Or.inl ⟨f, used, after, rfl, hreceive, hunread⟩
      | none =>
          obtain ⟨after, hreceive, -, -⟩ := receive_of_incomplete hdecode
          refine Or.inr (Or.inr ⟨_, after, hreceive, ?_⟩)
          cases hcut : ch.shortage with
          | none => rfl
          | some e => exact hshortage e hcut
  | error e =>
      obtain ⟨after, -, hunread, hreceive⟩ := receive_of_error hdecode
      right
      cases e with
      | short n =>
          dsimp only at hreceive
          unfold shortRead at hreceive
          cases hcut : ch.shortage with
          | some e => exact Or.inr ⟨e, after, by simpa only [hcut] using hreceive, hshortage e hcut⟩
          | none =>
              simp only [hcut] at hreceive
              by_cases hn : n = 0
              · rw [if_pos hn] at hreceive
                refine Or.inl ⟨after, hreceive, ?_⟩
                subst hn
                rw [hunread, Frame.eq_nil_of_decode hdecode, List.drop_nil]
              · rw [if_neg hn] at hreceive
                exact Or.inr ⟨_, after, hreceive, rfl⟩
      | empty => exact Or.inr ⟨_, after, hreceive, rfl⟩
      | tooLarge size => exact Or.inr ⟨_, after, hreceive, rfl⟩
      | decode e => exact Or.inr ⟨_, after, hreceive, rfl⟩

/-! ## The two readers -/

/-- What a reader of a stream that has ended makes of what a reader of its octets finds. -/
def verdict : Except FrameError (Option (Frame × Nat)) → Except ClientError (Option Frame)
  | .ok (some (f, _)) => .ok (some f)
  | .ok none => .error .connectionClosed
  | .error (.short n) => if n = 0 then .ok none else .error (.shortResponse n)
  | .error e => .error (.frame e)

theorem receive_of_closed (pieces : List Bytes) :
    (receive ⟨pieces, .closed⟩).1 = verdict (Frame.decode pieces.flatten) := by
  cases hdecode : Frame.decode pieces.flatten with
  | ok found =>
      cases found with
      | some pair =>
          obtain ⟨f, used⟩ := pair
          obtain ⟨after, hreceive, -⟩ := @receive_of_frame ⟨pieces, .closed⟩ f used hdecode
          rw [hreceive]
          rfl
      | none =>
          obtain ⟨after, hreceive, -⟩ := @receive_of_incomplete ⟨pieces, .closed⟩ hdecode
          rw [hreceive]
          rfl
  | error e =>
      obtain ⟨after, -, -, hreceive⟩ := @receive_of_error ⟨pieces, .closed⟩ e hdecode
      rw [hreceive]
      cases e <;> rfl

/-- However the octets of a stream are cut into pieces, its reader and a reader of the buffer of all
of them agree: on whether there is a frame, on the frame and what follows it, and on what is wrong
otherwise. -/
theorem receive_iff_decode (pieces : List Bytes) :
    let s := pieces.flatten
    let (result, after) := receive ⟨pieces, .closed⟩
    (result = .ok none ↔ s = []) ∧
    (∀ n, result = .error (.shortResponse n) ↔
      Frame.decode s = .error (.short n) ∧ 0 < n ∧ n < 5) ∧
    (∀ e, result = .error (.frame e) ↔
      Frame.decode s = .error e ∧ (e = .empty ∨ ∃ size, e = .tooLarge size)) ∧
    (result = .error .connectionClosed ↔ Frame.decode s = .ok none) ∧
    ∀ f n, (result = .ok (some f) ∧ n ≤ s.length ∧ after.unread = s.drop n) ↔
      Frame.decode s = .ok (some (f, n)) := by
  intro s
  dsimp only
  have hempty : s = [] → Frame.decode s = .error (.short 0) := by
    intro hnil
    rw [hnil]
    rfl
  rw [receive_of_closed]
  cases hdecode : Frame.decode s with
  | ok found =>
      have hne : s ≠ [] := fun hnil ↦ by cases hdecode.symm.trans (hempty hnil)
      cases found with
      | none => simp [verdict, hne]
      | some pair =>
          obtain ⟨f, used⟩ := pair
          obtain ⟨after, hreceive, -, hunread⟩ :=
            @receive_of_frame ⟨pieces, .closed⟩ f used hdecode
          have hleft (n : Nat) : n ≤ s.length ∧ after.unread = s.drop n ↔ used = n := by
            have hused := (Frame.size_of_decode hdecode).2
            rw [hunread]
            constructor
            · rintro ⟨hn, hdrop⟩
              have hlength := congrArg List.length hdrop
              simp only [List.length_drop] at hlength
              change s.length - used = s.length - n at hlength
              omega
            · rintro rfl
              exact ⟨hused, rfl⟩
          simp [verdict, hne, hreceive, hleft]
  | error e =>
      rcases Frame.decode_error_cases hdecode with ⟨rfl, hlt⟩ | hrefused
      · by_cases hnil : s = []
        · simp [verdict, hnil]
        · have hcut : 0 < s.length ∧ s.length < 5 := ⟨List.length_pos_iff.mpr hnil, hlt⟩
          simp [verdict, hnil, hcut]
      · have hne : s ≠ [] := by
          intro hnil
          rw [hempty hnil] at hdecode
          rcases hrefused with rfl | ⟨size, rfl⟩ <;> cases hdecode
        rcases hrefused with rfl | ⟨size, rfl⟩
        · simp [verdict, hne]
        · simp [verdict, hne]

end Channel
end ReplicaClient
