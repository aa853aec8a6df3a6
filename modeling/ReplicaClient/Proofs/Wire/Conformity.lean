import Mathlib.Data.Set.List
import ReplicaClient.Proofs.Wire.RoundTrip

/-!
# What the reader returns

Whatever the octets are, a message that the reader returns has the fields of its type: it starts as
the message in which nothing has been read, and each occurrence puts a value of the right kind into
the slot of its field.
-/

namespace ReplicaClient
namespace Wire

section Conforming

variable {t : MessageType} {field : Field} {place : Nat} {slot : Slot} {m : Message} {v : Value}

/-! ## Slot by slot -/

/-- The slot holds occurrences of the field, as many as are allowed. -/
structure Field.Admits (field : Field) (slot : Slot) : Prop where
  kind : ∀ v ∈ slot, v.Conforms field.kind
  count : field.label.Allows slot.length

theorem Value.slotsConform_iff {slots : Message} {fields : List Field} :
    Value.SlotsConform slots fields ↔ slots.length = fields.length ∧
      ∀ (place : Nat) (field : Field), fields[place]? = some field →
        field.Admits (slots.getD place []) := by
  induction slots generalizing fields with
  | nil =>
      cases fields with
      | nil => simp [Value.SlotsConform]
      | cons field fields => simp [Value.SlotsConform]
  | cons slot slots ih =>
      cases fields with
      | nil => simp [Value.SlotsConform]
      | cons field fields =>
          rw [slotsConform_cons, ih, List.length_cons, List.length_cons, Nat.succ_inj]
          constructor
          · rintro ⟨hkind, hcount, hlength, hrest⟩
            refine ⟨hlength, fun place field' hplace ↦ ?_⟩
            cases place with
            | zero =>
                obtain rfl : field = field' := Option.some.inj hplace
                exact ⟨hkind, hcount⟩
            | succ place => exact hrest place field' hplace
          · rintro ⟨hlength, hall⟩
            obtain ⟨hkind, hcount⟩ := hall 0 field rfl
            exact ⟨hkind, hcount, hlength, fun place ↦ hall (place + 1)⟩

theorem Message.conforms_iff :
    m.Conforms t ↔ m.length = t.fields.length ∧
      ∀ (place : Nat) (field : Field), t.fields[place]? = some field →
        field.Admits (m.getD place []) :=
  Value.slotsConform_iff

/-- A message with two fields has two slots. -/
theorem Message.Conforms.exists_slots {first second : Field} (h : m.Conforms t)
    (ht : t.fields = [first, second]) :
    ∃ slot slot', m = [slot, slot'] ∧ first.Admits slot ∧ second.Admits slot' := by
  obtain ⟨hlength, hslots⟩ := conforms_iff.mp h
  rw [ht] at hlength hslots
  match m, hlength with
  | [slot, slot'], _ => exact ⟨slot, slot', rfl, hslots 0 first rfl, hslots 1 second rfl⟩

theorem MessageType.default_conforms (t : MessageType) : t.default.Conforms t := by
  cases t <;>
    simp [Message.Conforms, MessageType.default, MessageType.fields, Kind.default, Kind.defaultTo,
      Value.SlotsConform, Value.SlotConforms, Value.Conforms]

theorem Field.Admits.record (h : field.Admits slot) (hv : v.Conforms field.kind) :
    field.Admits (slot.record field.label v) := by
  obtain ⟨hkind, hcount⟩ := h
  cases hlabel : field.label with
  | required => exact ⟨by simpa [Slot.record] using hv, by simp [Slot.record, hlabel, Label.Allows]⟩
  | optional => exact ⟨by simpa [Slot.record] using hv, by simp [Slot.record, hlabel, Label.Allows]⟩
  | repeated =>
      refine ⟨fun w hw ↦ ?_, by simp [hlabel, Label.Allows]⟩
      rcases List.mem_append.mp hw with hw | hw
      · exact hkind w hw
      · rwa [List.mem_singleton.mp hw]

/-- One more occurrence of a field leaves a message with the fields of its type. -/
theorem Message.Conforms.record (h : m.Conforms t) (hplace : t.fields[place]? = some field)
    (hv : v.Conforms field.kind) :
    Message.Conforms (m.set place (Slot.record (m.getD place []) field.label v)) t := by
  obtain ⟨hlength, hslots⟩ := conforms_iff.mp h
  have hlt : place < m.length := hlength ▸ (List.getElem?_eq_some_iff.mp hplace).1
  refine conforms_iff.mpr ⟨List.length_set.trans hlength, fun place' field' hplace' ↦ ?_⟩
  rw [List.getD_eq_getElem?_getD, List.getElem?_set]
  by_cases hsame : place = place'
  · subst hsame
    obtain rfl : field = field' := Option.some.inj (hplace.symm.trans hplace')
    rw [if_pos rfl, if_pos hlt, Option.getD_some]
    exact (hslots place field hplace).record hv
  · rw [if_neg hsame, ← List.getD_eq_getElem?_getD]
    exact hslots place' field' hplace'

/-- What an enclosed message is read into has the fields of its type. -/
theorem Field.Admits.mergeBase (h : field.Admits slot) (hkind : field.kind = .message t) :
    Message.Conforms (slot.mergeBase field.label t) t := by
  have hearlier : Message.Conforms (slot.message?.getD t.default) t := by
    cases slot with
    | nil => exact t.default_conforms
    | cons v slot =>
        have hv := h.kind v List.mem_cons_self
        rw [hkind] at hv
        cases v with
        | message m =>
            rw [Value.Conforms] at hv
            exact hv
        | _ => simp [Value.Conforms] at hv
  cases hlabel : field.label with
  | repeated => exact t.default_conforms
  | required => exact hearlier
  | optional => exact hearlier

/-! ## The reader -/

/-- What the reader of fields has done, with one unit of fuel and some more, when it returns: it has
stopped, or gone on behind an item that no field calls for, or behind an occurrence of a field. -/
inductive ReadsOn (fuel : Nat) (t : MessageType) (budget limit : Nat) (m : Message) (input : Bytes)
    (result : Message × Bytes) : Prop where
  | stop (hlength : input.length ≤ limit) (heq : result = (m, input))
  | unknown {tag : Nat} {w : WireType} {body more : Bytes}
      (hkey : readKey input = .ok (tag, w, body)) (hfield : t.field? tag = none)
      (hskip : skip (input.length + 1) budget tag w body = .ok more)
      (hmore : readFields fuel t budget limit m more = .ok result)
  | known {tag : Nat} {w : WireType} {body more : Bytes} {field : Field} {place : Nat} {v : Value}
      (hkey : readKey input = .ok (tag, w, body)) (hfield : t.field? tag = some (field, place))
      (hread : readOccurrence fuel field budget w (m.getD place []) body = .ok (v, more))
      (hmore : readFields fuel t budget limit
        (m.set place (Slot.record (m.getD place []) field.label v)) more = .ok result)

variable {fuel budget limit : Nat} {w : WireType} {input rest : Bytes}

theorem readsOn_of_readFields {result : Message × Bytes}
    (h : readFields (fuel + 1) t budget limit m input = .ok result) :
    ReadsOn fuel t budget limit m input result := by
  rw [readFields] at h
  split at h
  case isTrue hlength => exact .stop hlength (Except.ok.inj h).symm
  case isFalse =>
    cases hkey : readKey input with
    | error e => simp [hkey, bind, Except.bind] at h
    | ok found =>
        obtain ⟨tag, w, body⟩ := found
        simp only [hkey, bind, Except.bind] at h
        cases hfield : t.field? tag with
        | none =>
            simp only [hfield] at h
            cases hskip : skip (input.length + 1) budget tag w body with
            | error e =>
                rw [hskip] at h
                cases h
            | ok more =>
                rw [hskip] at h
                exact .unknown hkey hfield hskip h
        | some found =>
            obtain ⟨field, place⟩ := found
            simp only [hfield] at h
            cases hread : readOccurrence fuel field budget w (m.getD place []) body with
            | error e =>
                rw [hread] at h
                cases h
            | ok found =>
                obtain ⟨v, more⟩ := found
                simp only [hread] at h
                exact .known hkey hfield hread h

/-- With so much fuel, what is read into a message with the fields of its type is one again. -/
def KeepsConforming (fuel : Nat) : Prop :=
  ∀ {t : MessageType} {budget limit : Nat} {m : Message} {input : Bytes} {result : Message × Bytes},
    m.Conforms t → readFields fuel t budget limit m input = .ok result → result.1.Conforms t

/-- A value that is made of what was read. -/
theorem exists_of_map_eq_ok {α : Type} {read : Except DecodeError (α × Bytes)}
    {f : α × Bytes → Value × Bytes} (h : read.map f = .ok (v, rest)) :
    ∃ found, (f found).1 = v := by
  cases read with
  | error e => cases h
  | ok found => exact ⟨found, congrArg Prod.fst (Except.ok.inj h)⟩

/-- An enclosed message is what the fields up to its end were read into. -/
theorem exists_readFields_of_message (hkind : field.kind = .message t)
    (h : readOccurrence fuel field budget w slot input = .ok (v, rest)) :
    ∃ fuel' < fuel, ∃ limit body m, v = .message m ∧ readFields fuel' t (budget - 1) limit
      (slot.mergeBase field.label t) body = .ok (m, rest) := by
  unfold readOccurrence requireWireType at h
  split at h
  case isFalse => cases h
  case isTrue =>
    simp only [bind, Except.bind, hkind] at h
    split at h
    · cases h
    · cases hread : readVarint input with
      | error e =>
          rw [hread] at h
          cases h
      | ok found =>
          obtain ⟨n, body⟩ := found
          simp only [hread] at h
          split at h
          · cases h
          · cases fuel with
            | zero => cases h
            | succ fuel =>
                dsimp only at h
                cases hfields : readFields fuel t (budget - 1) (body.length - n)
                    (slot.mergeBase field.label t) body with
                | error e =>
                    rw [hfields] at h
                    cases h
                | ok found =>
                    obtain ⟨m, last⟩ := found
                    simp only [hfields] at h
                    split at h
                    · cases h
                      exact ⟨fuel, Nat.lt_succ_self fuel, _, _, m, rfl, hfields⟩
                    · cases h

theorem readOccurrence_conforms (hfields : ∀ fuel' < fuel, KeepsConforming fuel')
    (hslot : field.Admits slot)
    (h : readOccurrence fuel field budget w slot input = .ok (v, rest)) :
    v.Conforms field.kind := by
  cases hkind : field.kind with
  | message t =>
      obtain ⟨fuel', hlt, limit, body, m, rfl, hread⟩ := exists_readFields_of_message hkind h
      rw [Value.Conforms]
      exact hfields fuel' hlt (hslot.mergeBase hkind) hread
  | _ =>
      unfold readOccurrence requireWireType at h
      split at h
      · simp only [bind, Except.bind, hkind] at h
        obtain ⟨found, rfl⟩ := exists_of_map_eq_ok h
        trivial
      · cases h

theorem keepsConforming (fuel : Nat) : KeepsConforming fuel := by
  -- An enclosed message is read with less fuel than its occurrence, so the induction is strong.
  induction fuel using Nat.strongRecOn with
  | ind fuel ih =>
      intro t budget limit m input result hm h
      cases fuel with
      | zero =>
          cases h
          exact hm
      | succ fuel =>
          have hmore : KeepsConforming fuel := ih fuel (Nat.lt_succ_self fuel)
          cases readsOn_of_readFields h with
          | stop _ heq =>
              subst heq
              exact hm
          | unknown _ _ _ h => exact hmore hm h
          | known _ hfield hread h =>
              have hplace := MessageType.getElem?_of_field? hfield
              have hv := readOccurrence_conforms (fun fuel' hlt ↦ ih fuel' (Nat.lt_succ_of_lt hlt))
                ((Message.conforms_iff.mp hm).2 _ _ hplace) hread
              exact hmore (hm.record hplace hv) h

/-- A message that has been read has the fields of its type, each as often as the type allows. -/
theorem Message.conforms_of_decode (h : Message.decode t input = .ok m) : m.Conforms t := by
  cases hread : readFields (2 * input.length + 1) t recursionBudget 0 t.default input with
  | error e => simp [Message.decode, hread, Except.map] at h
  | ok found =>
      simp only [Message.decode, hread, Except.map, Except.ok.injEq] at h
      subst h
      exact keepsConforming _ t.default_conforms hread

theorem Message.length_of_decode (h : Message.decode t input = .ok m) :
    m.length = t.fields.length :=
  (conforms_iff.mp (conforms_of_decode h)).1

/-! ## Slots of scalars -/

theorem Field.Admits.exists_map (h : field.Admits slot) {α : Type} {make : α → Value}
    (hmake : ∀ v, v.Conforms field.kind → ∃ a, make a = v) : ∃ as : List α, slot = as.map make := by
  have hrange : slot ∈ {slot | ∀ v ∈ slot, v ∈ Set.range make} := fun v hv ↦ hmake v (h.kind v hv)
  rw [← Set.range_list_map] at hrange
  obtain ⟨as, rfl⟩ := hrange
  exact ⟨as, rfl⟩

/-- The slot of an optional field holds what there may be of a value. -/
theorem Field.Admits.exists_toList (h : field.Admits slot) (hlabel : field.label = .optional)
    {α : Type} {make : α → Value} (hmake : ∀ v, v.Conforms field.kind → ∃ a, make a = v) :
    ∃ a : Option α, slot = a.toList.map make := by
  obtain ⟨as, rfl⟩ := h.exists_map hmake
  have hcount := h.count
  rw [hlabel, List.length_map] at hcount
  exact ⟨as.head?, by rw [← List.take_one, List.take_of_length_le hcount]⟩

/-- The slot of a required field holds one value. -/
theorem Field.Admits.exists_singleton (h : field.Admits slot) (hlabel : field.label = .required)
    {α : Type} {make : α → Value} (hmake : ∀ v, v.Conforms field.kind → ∃ a, make a = v) :
    ∃ a, slot = [make a] := by
  obtain ⟨as, rfl⟩ := h.exists_map hmake
  have hcount := h.count
  rw [hlabel, List.length_map] at hcount
  obtain ⟨a, rfl⟩ := List.length_eq_one_iff.mp hcount
  exact ⟨a, rfl⟩

theorem Value.Conforms.exists_bytes (h : v.Conforms .bytes) : ∃ b, .bytes b = v := by
  cases v with
  | bytes b => exact ⟨b, rfl⟩
  | _ => simp [Value.Conforms] at h

theorem Value.Conforms.exists_word (h : v.Conforms .word) : ∃ n, .word n = v := by
  cases v with
  | word n => exact ⟨n, rfl⟩
  | _ => simp [Value.Conforms] at h

theorem Value.Conforms.exists_flag (h : v.Conforms .flag) : ∃ b, .flag b = v := by
  cases v with
  | flag b => exact ⟨b, rfl⟩
  | _ => simp [Value.Conforms] at h

end Conforming
end Wire
end ReplicaClient
