import ReplicaClient.Proofs.Frame.Octets
import ReplicaClient.Proofs.Wire.Tables

/-!
# Reading what was written

A message is read back from its octets if its submessages are not nested too deep for the budget of
the reader, and otherwise the reader stops at its limit.
-/

namespace ReplicaClient
namespace Wire

/-! ## Depth -/

mutual

/-- How many messages are open at most while the value is read. -/
def Value.depth : Value → Nat
  | .message slots => Value.slotsDepth slots + 1
  | _ => 0

def Value.slotDepth : List Value → Nat
  | [] => 0
  | v :: slot => max v.depth (Value.slotDepth slot)

def Value.slotsDepth : List (List Value) → Nat
  | [] => 0
  | slot :: slots => max (Value.slotDepth slot) (Value.slotsDepth slots)

end

/-- How many levels of submessages there are below a message. -/
def Message.depth (m : Message) : Nat :=
  Value.slotsDepth m

theorem Value.depth_le_slotDepth {v : Value} {slot : Slot} (h : v ∈ slot) :
    v.depth ≤ Value.slotDepth slot := by
  induction slot with
  | nil => cases h
  | cons w slot ih =>
      rw [Value.slotDepth]
      rcases List.mem_cons.mp h with rfl | h
      · exact Nat.le_max_left _ _
      · exact Nat.le_trans (ih h) (Nat.le_max_right _ _)

theorem Value.slotDepth_le_slotsDepth {slot : Slot} {slots : Message} (h : slot ∈ slots) :
    Value.slotDepth slot ≤ Value.slotsDepth slots := by
  induction slots with
  | nil => cases h
  | cons s slots ih =>
      rw [Value.slotsDepth]
      rcases List.mem_cons.mp h with rfl | h
      · exact Nat.le_max_left _ _
      · exact Nat.le_trans (ih h) (Nat.le_max_right _ _)

theorem Value.slotConforms_iff {slot : Slot} {k : Kind} :
    Value.SlotConforms slot k ↔ ∀ v ∈ slot, v.Conforms k := by
  induction slot with
  | nil => simp [Value.SlotConforms]
  | cons v slot ih => simp [Value.SlotConforms, ih]

/-- The kinds of which a value can be. -/
def Value.IsOf : Value → Kind → Prop
  | .bytes _, k => k = .bytes
  | .word _, k => k = .word
  | .flag _, k => k = .flag
  | .signed _, k => k = .signed
  | .single _, k => k = .single
  | .choice _, k => ∃ first, k = .choice first
  | .message slots, k => ∃ t, k = .message t ∧ Value.SlotsConform slots t.fields

theorem Value.Conforms.isOf {v : Value} {k : Kind} (h : v.Conforms k) : v.IsOf k := by
  cases v <;> cases k <;> simp [Value.Conforms, Value.IsOf] at h ⊢
  exact h

/-! ## Going on within a budget -/

/-- The reader goes on as the second one, unless what it reads first is nested too deep. -/
structure Follows {α : Type} (depth budget : Nat) (r next : Except DecodeError α) : Prop where
  eq_next : depth ≤ budget → r = next
  limit : budget < depth → ∃ e, r = .error e ∧ e.fault = .recursionLimit

namespace Follows

variable {α : Type} {d d' budget : Nat} {r next last : Except DecodeError α}

theorem refl (budget : Nat) (r : Except DecodeError α) : Follows 0 budget r r :=
  ⟨fun _ ↦ rfl, fun h ↦ absurd h (Nat.not_lt_zero budget)⟩

theorem trans (h : Follows d budget r next) (h' : Follows d' budget next last) :
    Follows (max d d') budget r last where
  eq_next hle := by
    rw [h.eq_next (Nat.le_trans (Nat.le_max_left _ _) hle),
      h'.eq_next (Nat.le_trans (Nat.le_max_right _ _) hle)]
  limit hlt := by
    by_cases hfirst : d ≤ budget
    · rw [h.eq_next hfirst]
      exact h'.limit (by omega)
    · exact h.limit (Nat.lt_of_not_le hfirst)

end Follows

/-- The value is read back from its octets, wherever it stands. -/
def Value.Readable (v : Value) : Prop :=
  ∀ (field : Field) (slot : Slot) (fuel budget : Nat) (rest : Bytes), v.Conforms field.kind →
    (field.label = .repeated ∨ slot = field.initial) →
    2 * (v.encode field.kind).length ≤ fuel → (v.encode field.kind).length < UInt64.size →
    Follows v.depth budget
      (readOccurrence fuel field budget field.kind.wireType slot (v.encode field.kind ++ rest))
      (.ok (v, rest))

/-! ## Scalars -/

theorem readExactly_append (body rest : Bytes) :
    readExactly body.length (body ++ rest) = .ok (body, rest) := by
  rw [readExactly, if_neg, List.splitAt_eq, List.take_left, List.drop_left]
  rw [List.length_append]
  omega

theorem readDelimited_encodeDelimited {body : Bytes} (h : body.length < UInt64.size)
    (rest : Bytes) : readDelimited (encodeDelimited body ++ rest) = .ok (body, rest) := by
  rw [readDelimited, encodeDelimited, List.append_assoc, readVarint_encode h]
  exact readExactly_append body rest

theorem length_lt_encodeDelimited (body : Bytes) : body.length < (encodeDelimited body).length := by
  have hpos := Varint.length_encode_pos body.length
  rw [encodeDelimited, List.length_append]
  omega

theorem Value.readable_of_scalar {v : Value} (hscalar : ∀ slots, v ≠ .message slots) :
    v.Readable := by
  intro field slot fuel budget rest hconforms _ _ hsize
  have hdepth : v.depth = 0 := by
    cases v with
    | message slots => exact absurd rfl (hscalar slots)
    | _ => rfl
  rw [hdepth]
  refine ⟨fun _ ↦ ?_, fun h ↦ absurd h (Nat.not_lt_zero budget)⟩
  cases v with
  | message slots => exact absurd rfl (hscalar slots)
  | bytes b =>
      have hkind : field.kind = .bytes := hconforms.isOf
      rw [hkind, Value.encode] at hsize
      have hb := Nat.lt_trans (length_lt_encodeDelimited b) hsize
      simp only [readOccurrence, requireWireType, hkind, if_pos, bind, Except.bind, Value.encode,
        readDelimited_encodeDelimited hb, Except.map]
  | word n =>
      have hkind : field.kind = .word := hconforms.isOf
      have hn : n.toNat < UInt64.size := Nat.lt_trans n.toNat_lt (by decide)
      simp only [readOccurrence, requireWireType, hkind, if_pos, bind, Except.bind, Value.encode,
        readVarint_encode hn, Except.map, UInt32.ofNat_toNat]
  | flag b =>
      have hkind : field.kind = .flag := hconforms.isOf
      have hb : (if b then 1 else 0) < UInt64.size := by cases b <;> decide
      simp only [readOccurrence, requireWireType, hkind, if_pos, bind, Except.bind, Value.encode,
        readVarint_encode hb, Except.map]
      cases b <;> rfl
  | signed n =>
      have hkind : field.kind = .signed := hconforms.isOf
      simp only [readOccurrence, requireWireType, hkind, if_pos, bind, Except.bind, Value.encode,
        readVarint_encode (Varint.zigzag_lt n), Except.map, Varint.unzigzag_zigzag]
  | single bits =>
      have hkind : field.kind = .single := hconforms.isOf
      have hbits : bits.toNat < Bytes.wordCount 4 := bits.toNat_lt
      have hword := readExactly_append (Bytes.littleEndian 4 bits.toNat) rest
      rw [Bytes.length_littleEndian] at hword
      simp only [readOccurrence, requireWireType, hkind, if_pos, bind, Except.bind, Value.encode,
        hword, Except.map, Bytes.toNat_littleEndian, Nat.mod_eq_of_lt hbits, UInt32.ofNat_toNat]
  | choice n =>
      obtain ⟨first, hkind⟩ := hconforms.isOf
      simp only [readOccurrence, requireWireType, hkind, if_pos, bind, Except.bind, Value.encode,
        readVarint_encode (Varint.ofChoice_lt n), Except.map, Varint.toChoice_ofChoice]

/-! ## Fields -/

/-- A reader with nothing left to read is done, whatever fuel it has. -/
theorem readFields_of_le {fuel budget limit : Nat} {t : MessageType} {m : Message} {input : Bytes}
    (h : input.length ≤ limit) : readFields fuel t budget limit m input = .ok (m, input) := by
  cases fuel with
  | zero => rfl
  | succ fuel => rw [readFields, if_pos h]

section Fields

variable {t : MessageType} {field : Field} {place fuel limit : Nat} {rest : Bytes} {v : Value}
  (budget : Nat)

/-- One occurrence of a field is read into its slot. -/
theorem readFields_occurrence (done after : Message) (cur : Slot)
    (hplace : t.fields[place]? = some field) (hv : v.Readable)
    (hconforms : v.Conforms field.kind) (hdone : done.length = place)
    (hcur : field.label = .repeated ∨ cur = field.initial)
    (hsize : (v.encode field.kind).length < UInt64.size) (hlimit : limit ≤ rest.length)
    (hfuel : 2 * ((encodeKey field.tag field.kind.wireType ++ v.encode field.kind ++
      rest).length - limit) ≤ fuel) :
    ∃ fuel', 2 * (rest.length - limit) ≤ fuel' ∧ Follows v.depth budget
      (readFields fuel t budget limit (done ++ cur :: after)
        (encodeKey field.tag field.kind.wireType ++ v.encode field.kind ++ rest))
      (readFields fuel' t budget limit (done ++ cur.record field.label v :: after) rest) := by
  have hmem : field ∈ t.fields := List.mem_of_getElem? hplace
  have hkey := length_encodeKey_pos field.tag field.kind.wireType
  simp only [List.length_append] at hfuel
  cases fuel with
  | zero => omega
  | succ fuel =>
      have hlong : ¬(encodeKey field.tag field.kind.wireType ++ v.encode field.kind ++
          rest).length ≤ limit := by
        simp only [List.length_append]
        omega
      have hslot : (done ++ cur :: after).getD place [] = cur := by
        simp [← hdone]
      have hset : (done ++ cur :: after).set place (cur.record field.label v) =
          done ++ cur.record field.label v :: after := by
        simp [← hdone]
      have hread := hv field cur fuel budget rest hconforms hcur (by omega) hsize
      refine ⟨fuel, by omega, ?_, ?_⟩
      · intro hle
        rw [readFields, if_neg hlong, List.append_assoc, readKey_encodeKey hmem]
        simp only [bind, Except.bind, MessageType.field?_tag hplace, hslot, hread.eq_next hle, hset]
      · intro hlt
        obtain ⟨e, he, hfault⟩ := hread.limit hlt
        refine ⟨e.within t field.name, ?_, hfault⟩
        rw [readFields, if_neg hlong, List.append_assoc, readKey_encodeKey hmem]
        simp only [bind, Except.bind, MessageType.field?_tag hplace, hslot, he]

/-- The occurrences of a repeated field are added to those that have been read. -/
theorem readFields_repeated (done after : Message) (cur : Slot) {slot : Slot}
    (hplace : t.fields[place]? = some field) (hlabel : field.label = .repeated)
    (hslot : ∀ v ∈ slot, v.Readable ∧ v.Conforms field.kind) (hdone : done.length = place)
    (hsize : (Value.encodeSlot slot field).length < UInt64.size) (hlimit : limit ≤ rest.length)
    (hfuel : 2 * ((Value.encodeSlot slot field ++ rest).length - limit) ≤ fuel) :
    ∃ fuel', 2 * (rest.length - limit) ≤ fuel' ∧ Follows (Value.slotDepth slot) budget
      (readFields fuel t budget limit (done ++ cur :: after)
        (Value.encodeSlot slot field ++ rest))
      (readFields fuel' t budget limit (done ++ (cur ++ slot) :: after) rest) := by
  induction slot generalizing cur fuel with
  | nil =>
      rw [List.append_nil]
      exact ⟨fuel, hfuel, .refl budget _⟩
  | cons v slot ih =>
      obtain ⟨hv, hconforms⟩ := hslot v List.mem_cons_self
      simp only [Value.encodeSlot, List.length_append] at hsize
      rw [Value.encodeSlot, List.append_assoc] at hfuel ⊢
      have hfirst := readFields_occurrence budget done after cur hplace hv hconforms hdone
        (.inl hlabel) (by omega) (by rw [List.length_append]; omega) hfuel
      obtain ⟨fuel', hfuel', hfollows⟩ := hfirst
      obtain ⟨fuel'', hfuel'', hfollows'⟩ := ih (cur ++ [v])
        (fun w hw ↦ hslot w (List.mem_cons_of_mem v hw)) (by omega) hfuel'
      refine ⟨fuel'', hfuel'', ?_⟩
      rw [hlabel] at hfollows
      rw [List.append_assoc] at hfollows'
      exact hfollows.trans hfollows'

/-- How often a field of a label may occur. -/
def Label.Allows (label : Label) (count : Nat) : Prop :=
  match label with
  | .required => count = 1
  | .optional => count ≤ 1
  | .repeated => True

/-- A slot is filled with all its occurrences. -/
theorem readFields_slot (done after : Message) {slot : Slot}
    (hplace : t.fields[place]? = some field)
    (hslot : ∀ v ∈ slot, v.Readable ∧ v.Conforms field.kind)
    (hcount : field.label.Allows slot.length) (hdone : done.length = place)
    (hsize : (Value.encodeSlot slot field).length < UInt64.size) (hlimit : limit ≤ rest.length)
    (hfuel : 2 * ((Value.encodeSlot slot field ++ rest).length - limit) ≤ fuel) :
    ∃ fuel', 2 * (rest.length - limit) ≤ fuel' ∧ Follows (Value.slotDepth slot) budget
      (readFields fuel t budget limit (done ++ field.initial :: after)
        (Value.encodeSlot slot field ++ rest))
      (readFields fuel' t budget limit (done ++ slot :: after) rest) := by
  by_cases hlabel : field.label = .repeated
  · have hinitial : field.initial = [] := by simp [Field.initial, hlabel]
    rw [hinitial]
    exact readFields_repeated budget done after [] hplace hlabel hslot hdone hsize hlimit hfuel
  · rcases slot with _ | ⟨v, _ | ⟨w, slot⟩⟩
    case nil =>
        have hinitial : field.initial = [] := by
          cases hl : field.label with
          | required => simp [Label.Allows, hl] at hcount
          | optional => simp [Field.initial, hl]
          | repeated => exact absurd hl hlabel
        rw [hinitial]
        exact ⟨fuel, hfuel, .refl budget _⟩
    case cons.nil =>
        obtain ⟨hv, hconforms⟩ := hslot v List.mem_cons_self
        simp only [Value.encodeSlot, List.append_nil] at hsize hfuel ⊢
        have hdepth : Value.slotDepth [v] = v.depth := by
          simp [Value.slotDepth]
        have hrecord : field.initial.record field.label v = [v] := by
          cases hl : field.label with
          | required => rfl
          | optional => rfl
          | repeated => exact absurd hl hlabel
        rw [hdepth, ← hrecord]
        exact readFields_occurrence budget done after field.initial hplace hv hconforms hdone
          (.inr rfl) (by rw [List.length_append] at hsize; omega) hlimit hfuel
    case cons.cons =>
        cases hl : field.label with
        | required => simp [Label.Allows, hl] at hcount
        | optional => simp [Label.Allows, hl] at hcount
        | repeated => exact absurd hl hlabel

omit budget in
theorem slotsConform_cons {slot : Slot} {slots : Message} {fields : List Field} :
    Value.SlotsConform (slot :: slots) (field :: fields) ↔
      (∀ v ∈ slot, v.Conforms field.kind) ∧ field.label.Allows slot.length ∧
        Value.SlotsConform slots fields := by
  rw [Value.SlotsConform, Value.slotConforms_iff]
  rfl

/-- The slots of a message are filled one after the other. -/
theorem readFields_slots (done : Message) {slots : Message} {passed fields : List Field}
    (hfields : t.fields = passed ++ fields) (hdone : done.length = passed.length)
    (hslots : ∀ slot ∈ slots, ∀ v ∈ slot, v.Readable)
    (hconforms : Value.SlotsConform slots fields)
    (hsize : (Value.encodeSlots slots fields).length < UInt64.size) (hlimit : limit ≤ rest.length)
    (hfuel : 2 * ((Value.encodeSlots slots fields ++ rest).length - limit) ≤ fuel) :
    ∃ fuel', 2 * (rest.length - limit) ≤ fuel' ∧ Follows (Value.slotsDepth slots) budget
      (readFields fuel t budget limit (done ++ fields.map Field.initial)
        (Value.encodeSlots slots fields ++ rest))
      (readFields fuel' t budget limit (done ++ slots) rest) := by
  induction slots generalizing done passed fields fuel with
  | nil =>
      cases fields with
      | nil => exact ⟨fuel, hfuel, .refl budget _⟩
      | cons field fields => exact absurd hconforms (by simp [Value.SlotsConform])
  | cons slot slots ih =>
      cases fields with
      | nil => exact absurd hconforms (by simp [Value.SlotsConform])
      | cons field fields =>
          obtain ⟨hkind, hcount, hconforms⟩ := slotsConform_cons.mp hconforms
          have hplace : t.fields[done.length]? = some field := by
            rw [hfields, hdone, List.getElem?_append_right (Nat.le_refl _), Nat.sub_self]
            rfl
          have hreadable : ∀ v ∈ slot, v.Readable ∧ v.Conforms field.kind := fun v hv ↦
            ⟨hslots slot List.mem_cons_self v hv, hkind v hv⟩
          simp only [Value.encodeSlots, List.length_append] at hsize
          rw [Value.encodeSlots, List.append_assoc] at hfuel ⊢
          obtain ⟨fuel', hfuel', hfollows⟩ := readFields_slot budget done
            (fields.map Field.initial) hplace hreadable hcount rfl (by omega)
            (by rw [List.length_append]; omega) hfuel
          have hnext : t.fields = (passed ++ [field]) ++ fields := by
            rw [hfields, List.append_assoc, List.singleton_append]
          obtain ⟨fuel'', hfuel'', hfollows'⟩ := ih (done ++ [slot]) hnext
            (by simp [hdone]) (fun s hs ↦ hslots s (List.mem_cons_of_mem slot hs)) hconforms
            (by omega) hfuel'
          refine ⟨fuel'', hfuel'', ?_⟩
          simp only [List.append_assoc, List.singleton_append] at hfollows'
          exact hfollows.trans hfollows'

end Fields

/-! ## Messages -/

/-- A whole message is read back, up to what follows it. -/
theorem readFields_encode {t : MessageType} {m : Message} (fuel budget : Nat)
    (hslots : ∀ slot ∈ m, ∀ v ∈ slot, v.Readable) (hconforms : Value.SlotsConform m t.fields)
    (hsize : (Value.encodeSlots m t.fields).length < UInt64.size) (rest : Bytes)
    (hfuel : 2 * (Value.encodeSlots m t.fields).length ≤ fuel) :
    Follows (Value.slotsDepth m) budget
      (readFields fuel t budget rest.length t.default (Value.encodeSlots m t.fields ++ rest))
      (.ok (m, rest)) := by
  have henough : 2 * ((Value.encodeSlots m t.fields ++ rest).length - rest.length) ≤ fuel := by
    rw [List.length_append, Nat.add_sub_cancel]
    exact hfuel
  obtain ⟨fuel', -, hfollows⟩ := readFields_slots budget [] (List.nil_append t.fields).symm rfl
    hslots hconforms hsize (Nat.le_refl rest.length) henough
  rw [readFields_of_le (Nat.le_refl _)] at hfollows
  rw [t.default_eq]
  exact hfollows

/-- A submessage is read with one level less, up to its own end. -/
theorem readOccurrence_message {field : Field} {t : MessageType} (hkind : field.kind = .message t)
    {body : Bytes} (hsize : body.length < UInt64.size) (slot : Slot) (fuel budget : Nat)
    (rest : Bytes) :
    readOccurrence (fuel + 1) field (budget + 1) field.kind.wireType slot
        (encodeDelimited body ++ rest) =
      (readFields fuel t budget rest.length (slot.mergeBase field.label t) (body ++ rest)).bind
        fun r ↦ if r.2.length = rest.length then .ok (.message r.1, r.2)
          else fail .lengthExceeded := by
  have hopen : readVarint (encodeDelimited body ++ rest) = .ok (body.length, body ++ rest) := by
    rw [encodeDelimited, List.append_assoc, readVarint_encode hsize]
  have henough : ¬(body ++ rest).length < body.length := by
    rw [List.length_append]
    omega
  have hend : (body ++ rest).length - body.length = rest.length := by
    rw [List.length_append, Nat.add_sub_cancel_left]
  simp only [readOccurrence, requireWireType, hkind, Kind.wireType, if_pos, bind, Except.bind,
    hopen, if_neg henough, if_neg (Nat.succ_ne_zero budget), hend, Nat.add_sub_cancel]

theorem readOccurrence_limit {field : Field} {t : MessageType} (hkind : field.kind = .message t)
    (slot : Slot) (fuel : Nat) (input : Bytes) :
    readOccurrence fuel field 0 field.kind.wireType slot input = fail .recursionLimit := by
  simp only [readOccurrence, requireWireType, hkind, Kind.wireType, if_pos, bind, Except.bind]

theorem Value.readable_message {slots : Message}
    (hslots : ∀ slot ∈ slots, ∀ v ∈ slot, v.Readable) : (Value.message slots).Readable := by
  intro field slot fuel budget rest hconforms hslot hfuel hsize
  obtain ⟨t, hkind, hconforms⟩ := hconforms.isOf
  have hencode : (Value.message slots).encode field.kind =
      encodeDelimited (Value.encodeSlots slots t.fields) := by
    rw [hkind, Value.encode]
  rw [hencode] at hfuel hsize ⊢
  have hbody := length_lt_encodeDelimited (Value.encodeSlots slots t.fields)
  rw [Value.depth]
  cases budget with
  | zero =>
      refine ⟨fun hle ↦ absurd hle (Nat.not_succ_le_zero _), fun _ ↦ ?_⟩
      exact ⟨_, readOccurrence_limit hkind slot fuel _, rfl⟩
  | succ budget =>
      obtain ⟨fuel, rfl⟩ : ∃ n, fuel = n + 1 := ⟨fuel - 1, by omega⟩
      have hread := readFields_encode fuel budget hslots hconforms (Nat.lt_trans hbody hsize) rest
        (by omega)
      rw [readOccurrence_message hkind (Nat.lt_trans hbody hsize),
        Slot.mergeBase_eq hkind hslot]
      refine ⟨fun hle ↦ ?_, fun hlt ↦ ?_⟩
      · rw [hread.eq_next (Nat.le_of_succ_le_succ hle)]
        exact if_pos rfl
      · obtain ⟨e, he, hfault⟩ := hread.limit (Nat.lt_of_succ_lt_succ hlt)
        exact ⟨e, by rw [he]; rfl, hfault⟩

theorem Value.readable (v : Value) : v.Readable := by
  induction hdepth : v.depth using Nat.strongRecOn generalizing v with
  | ind d ih =>
      cases v with
      | message slots =>
          rw [Value.depth] at hdepth
          apply readable_message
          intro slot hslot v hv
          have hle := Nat.le_trans (Value.depth_le_slotDepth hv)
            (Value.slotDepth_le_slotsDepth hslot)
          exact ih v.depth (by omega) v rfl
      | _ => exact readable_of_scalar (by simp)

/-- A message is read back from its octets, or the reader reaches its limit. -/
theorem Message.decode_encode {t : MessageType} {m : Message} (hconforms : m.Conforms t)
    (hsize : (m.encode t).length < UInt64.size) :
    Follows m.depth recursionBudget (Message.decode t (m.encode t)) (.ok m) := by
  have hread := readFields_encode (2 * (m.encode t).length + 1) recursionBudget
    (fun _ _ v _ ↦ v.readable) hconforms hsize [] (Nat.le_succ _)
  rw [List.append_nil] at hread
  refine ⟨fun hle ↦ ?_, fun hlt ↦ ?_⟩
  · exact congrArg (Except.map Prod.fst) (hread.eq_next hle)
  · obtain ⟨e, he, hfault⟩ := hread.limit hlt
    exact ⟨e, congrArg (Except.map Prod.fst) he, hfault⟩

/-! ## Sizes -/

theorem Varint.length_encode (n : Nat) : (encode n).length = size n := by
  induction n using Nat.strongRecOn with
  | ind n ih =>
      rw [encode, size]
      split
      · rfl
      · rw [List.length_cons, ih (n / 128) (by omega)]

theorem length_encodeDelimited (body : Bytes) :
    (encodeDelimited body).length = delimitedSize body.length := by
  rw [encodeDelimited, List.length_append, Varint.length_encode, delimitedSize]

mutual

/-- Values take as many octets as is known beforehand. -/
theorem Value.length_encode : ∀ (v : Value) (k : Kind), (v.encode k).length = v.encodedSize k
  | .bytes b, k => by
      rw [Value.encode, Value.encodedSize, length_encodeDelimited]
  | .word n, k => by
      rw [Value.encode, Value.encodedSize, Varint.length_encode]
  | .flag b, k => by
      rw [Value.encode, Value.encodedSize, Varint.length_encode]
      cases b <;> simp [Varint.size]
  | .signed n, k => by
      rw [Value.encode, Value.encodedSize, Varint.length_encode]
  | .single bits, k => by
      rw [Value.encode, Value.encodedSize, Bytes.length_littleEndian]
  | .choice n, k => by
      rw [Value.encode, Value.encodedSize, Varint.length_encode]
  | .message slots, .message t => by
      rw [Value.encode, Value.encodedSize, length_encodeDelimited,
        Value.length_encodeSlots slots t.fields]
  | .message slots, .bytes | .message slots, .word | .message slots, .flag
  | .message slots, .signed | .message slots, .single | .message slots, .choice _ => by
      simp only [Value.encode, Value.encodedSize, length_encodeDelimited, List.length_nil]

theorem Value.length_encodeSlot : ∀ (slot : Slot) (field : Field),
    (Value.encodeSlot slot field).length = Value.encodedSlotSize slot field
  | [], field => rfl
  | v :: slot, field => by
      rw [Value.encodeSlot, Value.encodedSlotSize, List.length_append, List.length_append,
        encodeKey, Varint.length_encode, Value.length_encode v field.kind,
        Value.length_encodeSlot slot field, keySize]

theorem Value.length_encodeSlots : ∀ (slots : Message) (fields : List Field),
    (Value.encodeSlots slots fields).length = Value.encodedSlotsSize slots fields
  | [], [] | [], _ :: _ | _ :: _, [] => rfl
  | slot :: slots, field :: fields => by
      rw [Value.encodeSlots, Value.encodedSlotsSize, List.length_append,
        Value.length_encodeSlot slot field, Value.length_encodeSlots slots fields]

end

theorem Message.length_encode (t : MessageType) (m : Message) :
    (m.encode t).length = m.encodedSize t :=
  Value.length_encodeSlots m t.fields

end Wire

/-! ## Frames of messages -/

namespace Frame

theorem encodeMessage_eq_encode (code : MessageCode) (t : Wire.MessageType) (m : Wire.Message) :
    encodeMessage code t m = encode code (m.encode t) := by
  rw [encodeMessage, encode, Wire.Message.length_encode]

/-- The header of a message announces the payload that follows, and whoever reads the frame gets
the message back, unless its submessages are nested too deep. -/
theorem decodePayload_encodeMessage (code : MessageCode) (t : Wire.MessageType) (m : Wire.Message)
    (hconforms : m.Conforms t) (hlength : (m.encode t).length ≤ maxPayload) :
    (∀ rest, decodeHeader (encodeMessage code t m ++ rest) =
      .ok ⟨code.toByte, (m.encode t).length⟩) ∧
    encodeMessage code t m = encode code (m.encode t) ∧
    (∀ rest, decode (encodeMessage code t m ++ rest) =
      .ok (some (⟨code.toByte, m.encode t⟩, (encodeMessage code t m).length))) ∧
    (m.depth ≤ 100 → decodePayload t (m.encode t) = .ok m) ∧
    (100 < m.depth → ∃ e, decodePayload t (m.encode t) = .error (.decode e) ∧
      e.fault.message = "recursion limit reached") := by
  have hoctets : encodeMessage code t m = octets ⟨code.toByte, m.encode t⟩ := by
    rw [encodeMessage_eq_encode, encode_eq_octets]
  have hsize : (m.encode t).length < UInt64.size := Nat.lt_of_le_of_lt hlength (by decide)
  have hread := Wire.Message.decode_encode hconforms hsize
  refine ⟨?_, encodeMessage_eq_encode code t m, ?_, ?_, ?_⟩
  · intro rest
    rw [hoctets, octets, List.append_assoc, List.cons_append,
      decodeHeader_append (Fits.of_le_maxPayload hlength), if_neg (Nat.not_lt.mpr hlength)]
  · intro rest
    rw [hoctets, decode_octets_append hlength, length_octets]
  · intro hle
    rw [decodePayload, hread.eq_next hle]
    rfl
  · intro hlt
    obtain ⟨e, he, hfault⟩ := hread.limit hlt
    refine ⟨e, ?_, ?_⟩
    · rw [decodePayload, he]
      rfl
    · rw [hfault]
      rfl

/-- Removes a field of an unknown kind, and updates a map in which nothing changes and a register
that becomes empty. -/
def sampleOp : Wire.Message :=
  [[.message [[.bytes [0x78]], [.choice (-1)]]],
    [.message [[.message [[.bytes []], [.choice 5]]], [], [], [.bytes []], [],
      [.message [[], []]]]]]

theorem decodePayload_encodeMessage_sampleOp :
    sampleOp.Conforms .mapOp ∧ (sampleOp.encode .mapOp).length ≤ maxPayload ∧
      sampleOp.depth ≤ 100 ∧ decodePayload .mapOp (sampleOp.encode .mapOp) = .ok sampleOp := by
  have hconforms : sampleOp.Conforms .mapOp := by
    simp [sampleOp, Wire.Message.Conforms, Wire.MessageType.fields, Wire.Value.SlotsConform,
      Wire.Value.SlotConforms, Wire.Value.Conforms]
  have hlength : (sampleOp.encode .mapOp).length ≤ maxPayload := by
    simp [sampleOp, Wire.Message.length_encode, Wire.Message.encodedSize,
      Wire.MessageType.fields, Wire.Value.encodedSlotsSize, Wire.Value.encodedSlotSize,
      Wire.Value.encodedSize, Wire.keySize, Wire.delimitedSize, Wire.Varint.size,
      Wire.WireType.number, Wire.Kind.wireType, Wire.Varint.ofChoice, maxPayload]
  have hdepth : sampleOp.depth ≤ 100 := by decide
  exact ⟨hconforms, hlength, hdepth,
    (decodePayload_encodeMessage (.request .dataTypeUpdate) .mapOp sampleOp hconforms hlength)
      |>.2.2.2.1 hdepth⟩

end Frame
end ReplicaClient
