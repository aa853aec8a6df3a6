import ReplicaClient.Proofs.Wire.Varint
import ReplicaClient.Wire.Decoder
import ReplicaClient.Wire.Encoder

/-!
# The tables of message types

What the tables of fields have to be like for a message to be readable: the numbers of the fields
of a type are small, positive and pairwise different, so that a key leads back to its field, and a
required submessage starts out as the message of its type in which nothing has been read.
-/

namespace ReplicaClient
namespace Wire

/-! ## Numbers -/

theorem WireType.number_lt (w : WireType) : w.number < 8 := by
  cases w <;> decide

theorem WireType.ofNumber?_number (w : WireType) : WireType.ofNumber? w.number = some w := by
  cases w <;> rfl

namespace MessageType

theorem tag_range (t : MessageType) : ∀ field ∈ t.fields, 0 < field.tag ∧ field.tag < 32 := by
  cases t <;> decide

theorem nodup_tags (t : MessageType) : (t.fields.map Field.tag).Nodup := by
  cases t <;> decide

theorem getElem?_of_field? {t : MessageType} {tag : Nat} {field : Field} {place : Nat}
    (h : t.field? tag = some (field, place)) : t.fields[place]? = some field :=
  List.mem_zipIdx_iff_getElem?.mp (List.mem_of_find?_eq_some h)

/-- A number leads back to its field. -/
theorem field?_tag {t : MessageType} {field : Field} {place : Nat}
    (h : t.fields[place]? = some field) : t.field? field.tag = some (field, place) := by
  have hmem : (field, place) ∈ t.fields.zipIdx := List.mem_zipIdx_iff_getElem?.mpr h
  obtain ⟨⟨other, place'⟩, hfound⟩ :
      ∃ p, t.fields.zipIdx.find? (fun p ↦ p.1.tag = field.tag) = some p := by
    rw [← Option.isSome_iff_exists, List.find?_isSome]
    exact ⟨(field, place), hmem, by simp⟩
  have hother : t.fields[place']? = some other := getElem?_of_field? hfound
  have htag : other.tag = field.tag := by simpa using List.find?_some hfound
  have hplace : place' = place := by
    obtain ⟨hlt, -⟩ := List.getElem?_eq_some_iff.mp hother
    apply (List.getElem?_inj (by simpa using hlt) t.nodup_tags).mp
    rw [List.getElem?_map, List.getElem?_map, hother, h, Option.map_some, Option.map_some, htag]
  subst hplace
  rw [field?, hfound, Option.some.inj (hother.symm.trans h)]

end MessageType

/-! ## Keys -/

theorem readVarint_encode {n : Nat} (h : n < UInt64.size) (rest : Bytes) :
    readVarint (Varint.encode n ++ rest) = .ok (n, rest) := by
  rw [readVarint, Varint.decode_encode h]

theorem readKey_encodeKey {t : MessageType} {field : Field} (h : field ∈ t.fields) (w : WireType)
    (rest : Bytes) : readKey (encodeKey field.tag w ++ rest) = .ok (field.tag, w, rest) := by
  obtain ⟨hpos, hlt⟩ := t.tag_range field h
  have hw := w.number_lt
  have hkey : 8 * field.tag + w.number < UInt64.size := by
    simp only [UInt64.size]
    omega
  have hlow : (8 * field.tag + w.number) % 8 = w.number := by omega
  have hhigh : (8 * field.tag + w.number) / 8 = field.tag := by omega
  have hfits : ¬UInt32.size ≤ 8 * field.tag + w.number := by
    simp only [UInt32.size]
    omega
  simp only [readKey, encodeKey, readVarint_encode hkey, bind, Except.bind, if_neg hfits, hlow,
    WireType.ofNumber?_number, hhigh, if_neg (Nat.ne_of_gt hpos)]

theorem length_encodeKey_pos (tag : Nat) (w : WireType) : 0 < (encodeKey tag w).length :=
  Varint.length_encode_pos _

/-! ## What has not been read -/

/-- The slot of a field that has not been read. -/
def Field.initial (field : Field) : Slot :=
  if field.label = .required then [field.kind.default] else []

theorem MessageType.default_eq (t : MessageType) : t.default = t.fields.map Field.initial :=
  rfl

/-- Submessages are filled in as deep as they are required. -/
theorem Kind.default_message (t : MessageType) : (Kind.message t).default = .message t.default := by
  cases t <;> rfl

/-- Nothing that has been read goes into a new occurrence: the field repeats, or its slot is as it
was in the beginning. -/
theorem Slot.mergeBase_eq {field : Field} {slot : Slot} {t : MessageType}
    (hkind : field.kind = .message t) (hslot : field.label = .repeated ∨ slot = field.initial) :
    slot.mergeBase field.label t = t.default := by
  unfold mergeBase
  rcases hslot with hlabel | rfl
  · rw [hlabel]
  · cases hlabel : field.label with
    | repeated => rfl
    | optional => simp [Field.initial, hlabel, message?]
    | required => simp [Field.initial, hlabel, hkind, Kind.default_message, message?]

end Wire
end ReplicaClient
