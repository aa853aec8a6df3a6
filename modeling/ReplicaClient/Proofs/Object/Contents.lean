import Mathlib.Data.List.Basic
import ReplicaClient.Proofs.Wire.RoundTrip
import ReplicaClient.Request

/-!
# Contents that travel

A content is a message of its type and comes back from it with every part, and so do the request
that brings it to the store and the reply that brings it back.  None of them is nested deep.
-/

namespace ReplicaClient
namespace Wire

/-! ## Slots of fields -/

/-- The slot holds what the field announces, as often as it may. -/
def Slot.Fits (slot : Slot) (label : Label) (kind : Kind) : Prop :=
  (∀ v ∈ slot, v.Conforms kind) ∧ label.Allows slot.length

@[simp] theorem slotsConform_cons_iff {slot : Slot} {slots : Message} {label : Label} {tag : Nat}
    {name : String} {kind : Kind} {fields : List Field} :
    Value.SlotsConform (slot :: slots) (⟨label, tag, name, kind⟩ :: fields) ↔
      slot.Fits label kind ∧ Value.SlotsConform slots fields := by
  rw [slotsConform_cons, Slot.Fits, and_assoc]

@[simp] theorem slotsConform_nil : Value.SlotsConform [] [] ↔ True := by
  rw [Value.SlotsConform]

namespace Slot

@[simp] theorem fits_nil {label : Label} {kind : Kind} (h : label ≠ .required) :
    Slot.Fits [] label kind := by
  constructor
  · exact fun v hv ↦ absurd hv List.not_mem_nil
  · cases label with
    | required => exact absurd rfl h
    | optional => exact Nat.zero_le 1
    | repeated => exact trivial

/-- One value fits any field of its kind. -/
theorem fits_singleton {v : Value} {label : Label} {kind : Kind} (h : v.Conforms kind) :
    Slot.Fits [v] label kind := by
  constructor
  · intro w hw
    obtain rfl := List.mem_singleton.mp hw
    exact h
  · cases label with
    | required => exact rfl
    | optional => exact Nat.le_refl 1
    | repeated => exact trivial

@[simp] theorem fits_ofBytes (b : Bytes) (label : Label) : (Slot.ofBytes b).Fits label .bytes :=
  fits_singleton trivial

@[simp] theorem fits_ofBytes? (b : Option Bytes) : (Slot.ofBytes? b).Fits .optional .bytes := by
  cases b with
  | none => exact fits_nil Label.noConfusion
  | some b => exact fits_singleton trivial

@[simp] theorem fits_ofWord? (n : Option UInt32) : (Slot.ofWord? n).Fits .optional .word := by
  cases n with
  | none => exact fits_nil Label.noConfusion
  | some n => exact fits_singleton trivial

@[simp] theorem fits_ofFlag? (b : Option Bool) : (Slot.ofFlag? b).Fits .optional .flag := by
  cases b with
  | none => exact fits_nil Label.noConfusion
  | some b => exact fits_singleton trivial

theorem fits_ofAllMessages {ms : List Message} {t : MessageType} (h : ∀ m ∈ ms, m.Conforms t) :
    (Slot.ofAllMessages ms).Fits .repeated (.message t) := by
  refine ⟨fun v hv ↦ ?_, trivial⟩
  obtain ⟨m, hm, rfl⟩ := List.mem_map.mp hv
  exact h m hm

@[simp] theorem bytes_ofBytes (b : Bytes) : Slot.bytes (Slot.ofBytes b) = b :=
  rfl

@[simp] theorem bytes?_ofBytes? (b : Option Bytes) : Slot.bytes? (Slot.ofBytes? b) = b := by
  cases b <;> rfl

@[simp] theorem word?_ofWord? (n : Option UInt32) : Slot.word? (Slot.ofWord? n) = n := by
  cases n <;> rfl

@[simp] theorem flag?_ofFlag? (b : Option Bool) : Slot.flag? (Slot.ofFlag? b) = b := by
  cases b <;> rfl

@[simp] theorem allMessages_ofAllMessages (ms : List Message) :
    Slot.allMessages (Slot.ofAllMessages ms) = ms := by
  rw [Slot.allMessages, Slot.ofAllMessages, List.map_map]
  exact List.map_id ms

/-! ## Depth -/

@[simp] theorem slotDepth_ofBytes (b : Bytes) : Value.slotDepth (Slot.ofBytes b) = 0 :=
  rfl

@[simp] theorem slotDepth_ofBytes? (b : Option Bytes) :
    Value.slotDepth (Slot.ofBytes? b) = 0 := by
  cases b <;> rfl

@[simp] theorem slotDepth_ofWord? (n : Option UInt32) :
    Value.slotDepth (Slot.ofWord? n) = 0 := by
  cases n <;> rfl

@[simp] theorem slotDepth_ofFlag? (b : Option Bool) :
    Value.slotDepth (Slot.ofFlag? b) = 0 := by
  cases b <;> rfl

theorem slotDepth_ofAllMessages_le {ms : List Message} {depth : Nat}
    (h : ∀ m ∈ ms, m.depth ≤ depth) : Value.slotDepth (Slot.ofAllMessages ms) ≤ depth + 1 := by
  induction ms with
  | nil => exact Nat.zero_le _
  | cons m ms ih =>
      apply Nat.max_le.mpr
      constructor
      · exact Nat.succ_le_succ (h m List.mem_cons_self)
      · exact ih fun m' hm' ↦ h m' (List.mem_cons_of_mem m hm')

end Slot
end Wire

open Wire

/-! ## Parts of contents -/

namespace Pair

theorem ofMessage_toMessage (p : Pair) : ofMessage p.toMessage = p := by
  simp [toMessage, ofMessage]

theorem conforms_toMessage (p : Pair) : p.toMessage.Conforms .pair := by
  simp [toMessage, Message.Conforms, MessageType.fields]

theorem depth_toMessage (p : Pair) : p.toMessage.depth = 0 := by
  simp [toMessage, Message.depth, Value.slotsDepth]

end Pair

namespace WireLink

theorem ofMessage_toMessage (l : WireLink) : ofMessage l.toMessage = l := by
  simp [toMessage, ofMessage]

theorem conforms_toMessage (l : WireLink) : l.toMessage.Conforms .link := by
  simp [toMessage, Message.Conforms, MessageType.fields]

theorem depth_toMessage (l : WireLink) : l.toMessage.depth = 0 := by
  simp [toMessage, Message.depth, Value.slotsDepth]

end WireLink

/-! ## Contents and what carries them -/

namespace Content

/-- No part of a content is lost on its way. -/
theorem ofMessage_toMessage (c : Content) : ofMessage c.toMessage = c := by
  have hlinks : (c.links.map WireLink.toMessage).map WireLink.ofMessage = c.links :=
    Function.LeftInverse.list_map WireLink.ofMessage_toMessage c.links
  have hpairs (ps : List Pair) : (ps.map Pair.toMessage).map Pair.ofMessage = ps :=
    Function.LeftInverse.list_map Pair.ofMessage_toMessage ps
  simp only [toMessage, ofMessage, Slot.bytes_ofBytes, Slot.bytes?_ofBytes?, Slot.word?_ofWord?,
    Slot.flag?_ofFlag?, Slot.allMessages_ofAllMessages, hlinks, hpairs]

theorem conforms_toMessage (c : Content) : c.toMessage.Conforms .content := by
  have hlinks : (Slot.ofAllMessages (c.links.map WireLink.toMessage)).Fits .repeated
      (.message .link) := by
    apply Slot.fits_ofAllMessages
    exact List.forall_mem_map.mpr fun l _ ↦ l.conforms_toMessage
  have hpairs (ps : List Pair) : (Slot.ofAllMessages (ps.map Pair.toMessage)).Fits .repeated
      (.message .pair) := by
    apply Slot.fits_ofAllMessages
    exact List.forall_mem_map.mpr fun p _ ↦ p.conforms_toMessage
  simp [toMessage, Message.Conforms, MessageType.fields, hlinks, hpairs]

theorem depth_toMessage_le (c : Content) : c.toMessage.depth ≤ 1 := by
  have hlinks : Value.slotDepth (Slot.ofAllMessages (c.links.map WireLink.toMessage)) ≤ 1 := by
    apply Slot.slotDepth_ofAllMessages_le
    exact List.forall_mem_map.mpr fun l _ ↦ Nat.le_of_eq l.depth_toMessage
  have hpairs (ps : List Pair) :
      Value.slotDepth (Slot.ofAllMessages (ps.map Pair.toMessage)) ≤ 1 := by
    apply Slot.slotDepth_ofAllMessages_le
    exact List.forall_mem_map.mpr fun p _ ↦ Nat.le_of_eq p.depth_toMessage
  have hmeta := hpairs c.usermeta
  have hindexes := hpairs c.indexes
  simp only [toMessage, Message.depth, Value.slotsDepth, Slot.slotDepth_ofBytes,
    Slot.slotDepth_ofBytes?, Slot.slotDepth_ofWord?, Slot.slotDepth_ofFlag?]
  omega

end Content

namespace GetReply

theorem ofMessage_toMessage (r : GetReply) : ofMessage r.toMessage = r := by
  have hcontents : (r.contents.map Content.toMessage).map Content.ofMessage = r.contents :=
    Function.LeftInverse.list_map Content.ofMessage_toMessage r.contents
  simp only [toMessage, ofMessage, Slot.bytes?_ofBytes?, Slot.flag?_ofFlag?,
    Slot.allMessages_ofAllMessages, hcontents]

theorem conforms_toMessage (r : GetReply) : r.toMessage.Conforms .getReply := by
  have hcontents : (Slot.ofAllMessages (r.contents.map Content.toMessage)).Fits .repeated
      (.message .content) := by
    apply Slot.fits_ofAllMessages
    exact List.forall_mem_map.mpr fun c _ ↦ c.conforms_toMessage
  simp [toMessage, Message.Conforms, MessageType.fields, hcontents]

theorem depth_toMessage_le (r : GetReply) : r.toMessage.depth ≤ 2 := by
  have hcontents :
      Value.slotDepth (Slot.ofAllMessages (r.contents.map Content.toMessage)) ≤ 2 := by
    apply Slot.slotDepth_ofAllMessages_le
    exact List.forall_mem_map.mpr fun c _ ↦ c.depth_toMessage_le
  simp only [toMessage, Message.depth, Value.slotsDepth, Slot.slotDepth_ofBytes?,
    Slot.slotDepth_ofFlag?]
  omega

/-- What a store has written is what a client reads. -/
theorem decode_encode (r : GetReply) (hsize : (r.toMessage.encode .getReply).length < UInt64.size) :
    Message.decode .getReply (r.toMessage.encode .getReply) = .ok r.toMessage :=
  (Message.decode_encode r.conforms_toMessage hsize).eq_next
    (Nat.le_trans r.depth_toMessage_le (by decide))

end GetReply

namespace PutRequest

theorem conforms_toMessage (q : PutRequest) : q.toMessage.Conforms .putRequest := by
  have hcontent : Slot.Fits [.message q.content.toMessage] .required (.message .content) :=
    Slot.fits_singleton q.content.conforms_toMessage
  simp [toMessage, Message.Conforms, MessageType.fields, hcontent]

theorem depth_toMessage_le (q : PutRequest) : q.toMessage.depth ≤ 2 := by
  have hcontent : Value.slotDepth [.message q.content.toMessage] ≤ 2 := by
    apply Nat.max_le.mpr
    constructor
    · exact Nat.succ_le_succ q.content.depth_toMessage_le
    · exact Nat.zero_le 2
  simp only [toMessage, Message.depth, Value.slotsDepth, Slot.slotDepth_ofBytes,
    Slot.slotDepth_ofBytes?, Slot.slotDepth_ofWord?, Slot.slotDepth_ofFlag?]
  rw [Value.slotDepth]
  omega

/-- The content of a request that has been read. -/
def contentOf (m : Message) : Content :=
  Content.ofMessage ((Slot.message? (m.getD 3 [])).getD [])

theorem contentOf_toMessage (q : PutRequest) : contentOf q.toMessage = q.content :=
  q.content.ofMessage_toMessage

theorem decode_encode (q : PutRequest)
    (hsize : (q.toMessage.encode .putRequest).length < UInt64.size) :
    Message.decode .putRequest (q.toMessage.encode .putRequest) = .ok q.toMessage :=
  (Message.decode_encode q.conforms_toMessage hsize).eq_next
    (Nat.le_trans q.depth_toMessage_le (by decide))

end PutRequest
end ReplicaClient
