import ReplicaClient.Proofs.Wire.Conformity

/-!
# Messages one after the other

A message is a row of items, each of which a reader takes without looking at what follows.  The
octets of two messages of one type, one after the other, are therefore those of one message: it
has the occurrences of the first and then those of the second.  A repeated field gets longer and
an optional one is replaced.  This is said of types without required fields and submessages.
-/

namespace ReplicaClient
namespace Wire

/-! ## Items -/

/-- The reader takes these octets and no others, whatever follows them. -/
def Takes {α : Type} (read : Bytes → Except DecodeError α) (taken : Bytes) (result : Bytes → α) :
    Prop :=
  ∀ rest, read (taken ++ rest) = .ok (result rest)

theorem Varint.exists_decodeWithin {room n : Nat} {xs rest : Bytes}
    (h : decodeWithin room xs = some (n, rest)) :
    ∃ taken, taken ≠ [] ∧ xs = taken ++ rest ∧
      ∀ rest', decodeWithin room (taken ++ rest') = some (n, rest') := by
  induction room generalizing xs n with
  | zero => cases h
  | succ room ih =>
      cases xs with
      | nil => cases h
      | cons b xs =>
          rw [decodeWithin] at h
          by_cases hlast : b < 128
          · rw [if_pos hlast] at h
            by_cases hbig : room = 0 ∧ 1 < b
            · rw [if_pos hbig] at h
              cases h
            · rw [if_neg hbig] at h
              cases h
              refine ⟨[b], List.cons_ne_nil b [], rfl, fun rest' ↦ ?_⟩
              rw [List.singleton_append, decodeWithin, if_pos hlast, if_neg hbig]
          · rw [if_neg hlast] at h
            cases hmore : decodeWithin room xs with
            | none => simp [hmore] at h
            | some found =>
                obtain ⟨m, last⟩ := found
                simp only [hmore, Option.some.injEq, Prod.mk.injEq] at h
                obtain ⟨rfl, rfl⟩ := h
                obtain ⟨taken, -, rfl, htakes⟩ := ih hmore
                refine ⟨b :: taken, List.cons_ne_nil b taken, rfl, fun rest' ↦ ?_⟩
                rw [List.cons_append, decodeWithin, if_neg hlast, htakes]

theorem exists_takes_readVarint {xs rest : Bytes} {n : Nat} (h : readVarint xs = .ok (n, rest)) :
    ∃ taken, taken ≠ [] ∧ xs = taken ++ rest ∧ Takes readVarint taken fun rest ↦ (n, rest) := by
  unfold readVarint Varint.decode at h
  split at h
  · cases h
  · rename_i found hdecode
    cases h
    obtain ⟨taken, hne, hsplit, htakes⟩ := Varint.exists_decodeWithin hdecode
    refine ⟨taken, hne, hsplit, fun rest' ↦ ?_⟩
    rw [readVarint, Varint.decode, htakes]

theorem exists_takes_readKey {xs rest : Bytes} {tag : Nat} {w : WireType}
    (h : readKey xs = .ok (tag, w, rest)) :
    ∃ taken, taken ≠ [] ∧ xs = taken ++ rest ∧ Takes readKey taken fun rest ↦ (tag, w, rest) := by
  cases hread : readVarint xs with
  | error e => simp [readKey, hread, bind, Except.bind] at h
  | ok found =>
      obtain ⟨key, last⟩ := found
      obtain ⟨taken, hne, rfl, htakes⟩ := exists_takes_readVarint hread
      -- What is checked of the key does not depend on the rest.
      have hsame (rest' : Bytes) : readKey (taken ++ rest') =
          (readKey (taken ++ last)).map fun found ↦ (found.1, found.2.1, rest') := by
        simp only [readKey, htakes rest', htakes last, bind, Except.bind]
        split
        · rfl
        · split
          · rfl
          · split <;> rfl
      have hrest : last = rest := by
        simp only [readKey, hread, bind, Except.bind] at h
        split at h
        · cases h
        · split at h
          · cases h
          · split at h
            · cases h
            · cases h
              rfl
      subst hrest
      refine ⟨taken, hne, rfl, fun rest' ↦ ?_⟩
      rw [hsame, h]
      rfl

/-- Whatever the reader finds, it takes that from the front. -/
def ReadsFront {α : Type} (read : Bytes → Except DecodeError (α × Bytes)) : Prop :=
  ∀ {xs a rest}, read xs = .ok (a, rest) →
    ∃ taken, xs = taken ++ rest ∧ Takes read taken fun rest ↦ (a, rest)

theorem ReadsFront.map {α β : Type} {read : Bytes → Except DecodeError (α × Bytes)}
    (hread : ReadsFront read) {f : α × Bytes → β} {xs : Bytes} {b : β}
    (h : (read xs).map f = .ok b) :
    ∃ taken a rest, xs = taken ++ rest ∧ b = f (a, rest) ∧
      Takes (fun xs ↦ (read xs).map f) taken fun rest ↦ f (a, rest) := by
  cases hfound : read xs with
  | error e => simp [hfound, Except.map] at h
  | ok found =>
      obtain ⟨a, rest⟩ := found
      obtain ⟨taken, hsplit, htakes⟩ := hread hfound
      rw [hfound] at h
      cases h
      refine ⟨taken, a, rest, hsplit, rfl, fun rest' ↦ ?_⟩
      dsimp only
      rw [htakes]
      rfl

theorem readsFront_readVarint : ReadsFront readVarint := by
  intro xs n rest h
  obtain ⟨taken, -, hsplit, htakes⟩ := exists_takes_readVarint h
  exact ⟨taken, hsplit, htakes⟩

theorem readsFront_readExactly (n : Nat) : ReadsFront (readExactly n) := by
  intro xs b rest h
  unfold readExactly at h
  split at h
  · cases h
  · rename_i hlength
    rw [List.splitAt_eq] at h
    cases h
    refine ⟨xs.take n, (List.take_append_drop n xs).symm, fun rest' ↦ ?_⟩
    have htake : (xs.take n).length = n := List.length_take_of_le (Nat.le_of_not_lt hlength)
    rw [readExactly, if_neg, List.splitAt_eq, List.take_left' htake, List.drop_left' htake]
    rw [List.length_append, htake]
    omega

theorem readsFront_readDelimited : ReadsFront readDelimited := by
  intro xs b rest h
  cases hread : readVarint xs with
  | error e => simp [readDelimited, hread, bind, Except.bind] at h
  | ok found =>
      obtain ⟨n, last⟩ := found
      simp only [readDelimited, hread, bind, Except.bind] at h
      obtain ⟨length, -, rfl, hlength⟩ := exists_takes_readVarint hread
      obtain ⟨body, rfl, hbody⟩ := readsFront_readExactly n h
      refine ⟨length ++ body, (List.append_assoc _ _ _).symm, fun rest' ↦ ?_⟩
      rw [List.append_assoc, readDelimited, hlength]
      exact hbody rest'

/-- What is skipped is known from its own octets, and these are fuel enough. -/
theorem exists_takes_skip {fuel budget tag : Nat} {w : WireType} {xs rest : Bytes}
    (h : skip fuel budget tag w xs = .ok rest) :
    ∃ taken, xs = taken ++ rest ∧
      ∀ fuel', taken.length < fuel' → Takes (skip fuel' budget tag w) taken fun rest ↦ rest := by
  induction fuel generalizing budget tag w xs rest with
  | zero => cases h
  | succ fuel ih =>
      cases budget with
      | zero => cases h
      | succ budget =>
          -- An item that is no group takes one unit of fuel.
          have hflat {α : Type} {read : Bytes → Except DecodeError (α × Bytes)}
              (hread : ReadsFront read) (hskip : ∀ fuel' xs,
                skip (fuel' + 1) (budget + 1) tag w xs = (read xs).map (·.2)) :
              ∃ taken, xs = taken ++ rest ∧ ∀ fuel', taken.length < fuel' →
                Takes (skip fuel' (budget + 1) tag w) taken fun rest ↦ rest := by
            rw [hskip] at h
            obtain ⟨taken, a, last, hsplit, rfl, htakes⟩ := hread.map h
            refine ⟨taken, hsplit, fun fuel' hfuel rest' ↦ ?_⟩
            obtain ⟨fuel', rfl⟩ := Nat.exists_eq_succ_of_ne_zero (Nat.ne_zero_of_lt hfuel)
            rw [hskip]
            exact htakes rest'
          cases w with
          | varint => exact hflat readsFront_readVarint fun _ _ ↦ rfl
          | thirtyTwoBit => exact hflat (readsFront_readExactly 4) fun _ _ ↦ rfl
          | sixtyFourBit => exact hflat (readsFront_readExactly 8) fun _ _ ↦ rfl
          | lengthDelimited => exact hflat readsFront_readDelimited fun _ _ ↦ rfl
          | endGroup => cases h
          | startGroup =>
              unfold skip at h
              cases hkey : readKey xs with
              | error e => simp [hkey, bind, Except.bind] at h
              | ok found =>
                  obtain ⟨inner, w, last⟩ := found
                  obtain ⟨key, hne, rfl, htakes⟩ := exists_takes_readKey hkey
                  have hpos : 0 < key.length := List.length_pos_iff.mpr hne
                  simp only [hkey, bind, Except.bind] at h
                  by_cases hend : w = .endGroup
                  · rw [if_pos hend] at h
                    by_cases hclosed : inner = tag
                    · rw [if_pos hclosed] at h
                      cases h
                      refine ⟨key, rfl, fun fuel' hfuel rest' ↦ ?_⟩
                      obtain ⟨fuel', rfl⟩ := Nat.exists_eq_succ_of_ne_zero (Nat.ne_zero_of_lt hfuel)
                      simp only [skip, htakes rest', bind, Except.bind, if_pos hend, if_pos hclosed]
                    · rw [if_neg hclosed] at h
                      cases h
                  · rw [if_neg hend] at h
                    cases hinner : skip fuel budget inner w last with
                    | error e => simp [hinner] at h
                    | ok last' =>
                        simp only [hinner] at h
                        obtain ⟨field, rfl, hfield⟩ := ih hinner
                        obtain ⟨more, rfl, hmore⟩ := ih h
                        refine ⟨key ++ field ++ more, by simp only [List.append_assoc], ?_⟩
                        intro fuel' hfuel rest'
                        simp only [List.length_append] at hfuel
                        obtain ⟨fuel', rfl⟩ := Nat.exists_eq_succ_of_ne_zero (Nat.ne_zero_of_lt hfuel)
                        simp only [skip, List.append_assoc, htakes _, bind, Except.bind, if_neg hend]
                        rw [hfield fuel' (by omega)]
                        exact hmore fuel' (by omega) rest'

/-- A scalar is known from its own octets. -/
theorem exists_takes_readOccurrence {fuel budget : Nat} {field : Field} {w : WireType} {slot : Slot}
    {xs rest : Bytes} {v : Value} (hscalar : ∀ t, field.kind ≠ .message t)
    (h : readOccurrence fuel field budget w slot xs = .ok (v, rest)) :
    ∃ taken, xs = taken ++ rest ∧
      ∀ fuel' slot', Takes (readOccurrence fuel' field budget w slot') taken fun rest ↦ (v, rest) := by
  by_cases hw : w = field.kind.wireType
  · have hmade {α : Type} {read : Bytes → Except DecodeError (α × Bytes)} (make : α → Value)
        (hread : ReadsFront read) (hsame : ∀ fuel' slot' xs,
          readOccurrence fuel' field budget w slot' xs =
            (read xs).map fun found ↦ (make found.1, found.2)) :
        ∃ taken, xs = taken ++ rest ∧ ∀ fuel' slot',
          Takes (readOccurrence fuel' field budget w slot') taken fun rest ↦ (v, rest) := by
      rw [hsame] at h
      obtain ⟨taken, a, last, hsplit, heq, htakes⟩ := hread.map h
      obtain ⟨rfl, rfl⟩ := Prod.mk.inj heq
      refine ⟨taken, hsplit, fun fuel' slot' rest' ↦ ?_⟩
      rw [hsame]
      exact htakes rest'
    revert hw
    cases hkind : field.kind with
    | message t => exact fun _ ↦ absurd hkind (hscalar t)
    | bytes =>
        intro hw
        refine hmade .bytes readsFront_readDelimited fun fuel' slot' xs ↦ ?_
        simp only [readOccurrence, requireWireType, hkind, if_pos hw, bind, Except.bind]
    | word =>
        intro hw
        refine hmade (fun n ↦ .word (.ofNat n)) readsFront_readVarint fun fuel' slot' xs ↦ ?_
        simp only [readOccurrence, requireWireType, hkind, if_pos hw, bind, Except.bind]
    | flag =>
        intro hw
        refine hmade (fun n ↦ .flag (n ≠ 0)) readsFront_readVarint fun fuel' slot' xs ↦ ?_
        simp only [readOccurrence, requireWireType, hkind, if_pos hw, bind, Except.bind]
    | signed =>
        intro hw
        refine hmade (fun n ↦ .signed (Varint.unzigzag n)) readsFront_readVarint
          fun fuel' slot' xs ↦ ?_
        simp only [readOccurrence, requireWireType, hkind, if_pos hw, bind, Except.bind]
    | choice first =>
        intro hw
        refine hmade (fun n ↦ .choice (Varint.toChoice n)) readsFront_readVarint
          fun fuel' slot' xs ↦ ?_
        simp only [readOccurrence, requireWireType, hkind, if_pos hw, bind, Except.bind]
    | single =>
        intro hw
        refine hmade (fun b ↦ .single (.ofNat (Bytes.toNat b))) (readsFront_readExactly 4)
          fun fuel' slot' xs ↦ ?_
        simp only [readOccurrence, requireWireType, hkind, if_pos hw, bind, Except.bind]
  · simp [readOccurrence, requireWireType, if_neg hw, fail, bind, Except.bind] at h

/-! ## Rows of items -/

/-- One occurrence of a field, with the place of the field in its type. -/
structure Occurrence where
  field : Field
  place : Nat
  value : Value

/-- The message after one more occurrence. -/
def Message.record (m : Message) (o : Occurrence) : Message :=
  m.set o.place (Slot.record (m.getD o.place []) o.field.label o.value)

/-- The octets are a row of items, and these are the occurrences of known fields among them. -/
inductive Spells (t : MessageType) : Bytes → List Occurrence → Prop where
  | nil : Spells t [] []
  | unknown {tag : Nat} {w : WireType} {key body more : Bytes} {os : List Occurrence}
      (hne : key ≠ []) (hkey : Takes readKey key fun rest ↦ (tag, w, rest))
      (hfield : t.field? tag = none)
      (hbody : ∀ fuel, body.length < fuel →
        Takes (skip fuel recursionBudget tag w) body fun rest ↦ rest)
      (hmore : Spells t more os) : Spells t (key ++ (body ++ more)) os
  | known {tag : Nat} {w : WireType} {key body more : Bytes} {o : Occurrence} {os : List Occurrence}
      (hne : key ≠ []) (hkey : Takes readKey key fun rest ↦ (tag, w, rest))
      (hfield : t.field? tag = some (o.field, o.place))
      (hbody : ∀ fuel slot, Takes (readOccurrence fuel o.field recursionBudget w slot) body
        fun rest ↦ (o.value, rest))
      (hmore : Spells t more os) : Spells t (key ++ (body ++ more)) (o :: os)

namespace Spells

variable {t : MessageType} {xs ys : Bytes} {os os' : List Occurrence}

theorem append (hx : Spells t xs os) (hy : Spells t ys os') : Spells t (xs ++ ys) (os ++ os') := by
  induction hx with
  | nil => exact hy
  | unknown hne hkey hfield hbody _ ih =>
      rw [List.append_assoc, List.append_assoc]
      exact .unknown hne hkey hfield hbody ih
  | known hne hkey hfield hbody _ ih =>
      rw [List.append_assoc, List.append_assoc]
      exact .known hne hkey hfield hbody ih

theorem place_eq (h : Spells t xs os) {o : Occurrence} (ho : o ∈ os) :
    t.fields[o.place]? = some o.field := by
  induction h with
  | nil => cases ho
  | unknown _ _ _ _ _ ih => exact ih ho
  | known _ _ hfield _ _ ih =>
      rcases List.mem_cons.mp ho with rfl | ho
      · exact MessageType.getElem?_of_field? hfield
      · exact ih ho

theorem readFields_eq (h : Spells t xs os) {fuel : Nat} (hfuel : xs.length ≤ fuel) (m : Message) :
    readFields fuel t recursionBudget 0 m xs = .ok (os.foldl Message.record m, []) := by
  induction h generalizing fuel m with
  | nil => exact readFields_of_le (Nat.le_refl 0)
  | @unknown tag w key body more os hne hkey hfield hbody _ ih =>
      have hpos := List.length_pos_iff.mpr hne
      simp only [List.length_append] at hfuel
      obtain ⟨fuel, rfl⟩ := Nat.exists_eq_succ_of_ne_zero (by omega : fuel ≠ 0)
      have hlong : ¬(key ++ (body ++ more)).length ≤ 0 := by
        rw [List.length_append]
        omega
      have hskip := hbody ((key ++ (body ++ more)).length + 1)
        (by simp only [List.length_append]; omega) more
      rw [readFields, if_neg hlong, hkey]
      simp only [bind, Except.bind, hfield, hskip]
      exact ih (by omega) m
  | @known tag w key body more o os hne hkey hfield hbody _ ih =>
      have hpos := List.length_pos_iff.mpr hne
      simp only [List.length_append] at hfuel
      obtain ⟨fuel, rfl⟩ := Nat.exists_eq_succ_of_ne_zero (by omega : fuel ≠ 0)
      have hlong : ¬(key ++ (body ++ more)).length ≤ 0 := by
        rw [List.length_append]
        omega
      rw [readFields, if_neg hlong, hkey]
      simp only [bind, Except.bind, hfield, hbody _ _ more]
      exact ih (by omega) _

theorem decode_eq (h : Spells t xs os) :
    Message.decode t xs = .ok (os.foldl Message.record t.default) := by
  rw [Message.decode, h.readFields_eq (by omega)]
  rfl

end Spells

/-- The fields of the type are scalars, and none of them is required. -/
structure MessageType.Flat (t : MessageType) : Prop where
  scalar : ∀ field ∈ t.fields, ∀ t', field.kind ≠ .message t'
  free : ∀ field ∈ t.fields, field.label ≠ .required

section Flat

variable {t : MessageType} {xs ys : Bytes} {m m' : Message}

theorem exists_spells_of_readFields (ht : t.Flat) {fuel : Nat} {rest : Bytes}
    (hfuel : xs.length ≤ fuel)
    (h : readFields fuel t recursionBudget 0 m xs = .ok (m', rest)) :
    ∃ os, Spells t xs os ∧ m' = os.foldl Message.record m := by
  induction fuel generalizing xs m with
  | zero =>
      obtain rfl := List.eq_nil_of_length_eq_zero (Nat.le_zero.mp hfuel)
      cases h
      exact ⟨[], .nil, rfl⟩
  | succ fuel ih =>
      cases readsOn_of_readFields h with
      | stop hlength heq =>
          obtain rfl := List.eq_nil_of_length_eq_zero (Nat.le_zero.mp hlength)
          cases heq
          exact ⟨[], .nil, rfl⟩
      | unknown hread hfield hskip hmore =>
          obtain ⟨key, hne, rfl, hkey⟩ := exists_takes_readKey hread
          have hpos := List.length_pos_iff.mpr hne
          obtain ⟨body, rfl, hbody⟩ := exists_takes_skip hskip
          simp only [List.length_append] at hfuel
          obtain ⟨os, hspells, rfl⟩ := ih (by omega) hmore
          exact ⟨os, .unknown hne hkey hfield hbody hspells, rfl⟩
      | @known tag w last more field place v hread hfield hoccurrence hmore =>
          obtain ⟨key, hne, rfl, hkey⟩ := exists_takes_readKey hread
          have hpos := List.length_pos_iff.mpr hne
          have hplace := MessageType.getElem?_of_field? hfield
          obtain ⟨body, rfl, hbody⟩ := exists_takes_readOccurrence
            (ht.scalar field (List.mem_of_getElem? hplace)) hoccurrence
          simp only [List.length_append] at hfuel
          obtain ⟨os, hspells, rfl⟩ := ih (by omega) hmore
          exact ⟨⟨field, place, v⟩ :: os, .known hne hkey hfield hbody hspells, rfl⟩

theorem exists_spells (ht : t.Flat) (h : Message.decode t xs = .ok m) :
    ∃ os, Spells t xs os ∧ m = os.foldl Message.record t.default := by
  cases hread : readFields (2 * xs.length + 1) t recursionBudget 0 t.default xs with
  | error e => simp [Message.decode, hread, Except.map] at h
  | ok found =>
      simp only [Message.decode, hread, Except.map, Except.ok.injEq] at h
      subst h
      exact exists_spells_of_readFields ht (by omega) hread

/-! ## Merging -/

/-- What becomes of a slot when a later one of the same field follows. -/
def Slot.merge (label : Label) (slot : Slot) : (later : Slot) → Slot
  | [] => slot
  | later => match label with
    | .repeated => slot ++ later
    | _ => later

/-- A message followed by another of its type, slot by slot. -/
def Message.merge (t : MessageType) (m later : Message) : Message :=
  t.fields.zipIdx.map fun (field, place) ↦
    Slot.merge field.label (m.getD place []) (later.getD place [])

theorem Slot.merge_nil (label : Label) (slot : Slot) : slot.merge label [] = slot :=
  rfl

theorem Slot.record_merge (label : Label) (slot later : Slot) (v : Value) :
    (slot.merge label later).record label v = slot.merge label (later.record label v) := by
  cases label with
  | required => rfl
  | optional => rfl
  | repeated =>
      cases later with
      | nil => rfl
      | cons w later => exact List.append_assoc slot (w :: later) [v]

theorem Message.length_merge (t : MessageType) (m later : Message) :
    (m.merge t later).length = t.fields.length := by
  simp [merge]

theorem Message.getD_merge {field : Field} {place : Nat} (h : t.fields[place]? = some field)
    (m later : Message) : (m.merge t later).getD place [] =
      Slot.merge field.label (m.getD place []) (later.getD place []) := by
  simp [merge, List.getD_eq_getElem?_getD, List.getElem?_zipIdx, h]

/-- Messages with the fields of one type are told apart by their slots. -/
theorem Message.ext_getD (hm : m.length = t.fields.length) (hm' : m'.length = t.fields.length)
    (h : ∀ place field, t.fields[place]? = some field → m.getD place [] = m'.getD place []) :
    m = m' := by
  apply List.ext_getElem (hm.trans hm'.symm)
  intro place hlt hlt'
  have hslot := h place _ (List.getElem?_eq_getElem (hm ▸ hlt))
  simpa only [List.getD_eq_getElem?_getD, List.getElem?_eq_getElem hlt,
    List.getElem?_eq_getElem hlt', Option.getD_some] using hslot

theorem Message.length_record (m : Message) (o : Occurrence) : (m.record o).length = m.length :=
  List.length_set

theorem Message.getD_record {o : Occurrence} (h : o.place < m.length) (place : Nat) :
    (m.record o).getD place [] =
      if o.place = place then Slot.record (m.getD place []) o.field.label o.value
      else m.getD place [] := by
  simp only [record, List.getD_eq_getElem?_getD, List.getElem?_set, h, if_true]
  split
  · rename_i hplace
    subst hplace
    rfl
  · rfl

/-- Whether an occurrence is added before or after merging makes no difference. -/
theorem Message.record_merge {o : Occurrence} (ho : t.fields[o.place]? = some o.field)
    (hm' : m'.length = t.fields.length) :
    (m.merge t m').record o = m.merge t (m'.record o) := by
  obtain ⟨hlt, -⟩ := List.getElem?_eq_some_iff.mp ho
  apply Message.ext_getD (t := t)
  · rw [length_record, length_merge]
  · exact length_merge t _ _
  · intro place field hfield
    rw [getD_record (by rwa [length_merge]), getD_merge hfield, getD_merge hfield,
      getD_record (by rwa [hm'])]
    split
    · rename_i hplace
      obtain rfl : o.field = field := Option.some.inj (ho.symm.trans (hplace ▸ hfield))
      exact Slot.record_merge _ _ _ _
    · rfl

theorem Message.merge_default (ht : t.Flat) (hm : m.length = t.fields.length) :
    m.merge t t.default = m := by
  apply Message.ext_getD (length_merge t _ _) hm
  intro place field hfield
  have hinitial : t.default.getD place [] = [] := by
    have hfree : field.initial = [] := if_neg (ht.free field (List.mem_of_getElem? hfield))
    simp [MessageType.default_eq, List.getD_eq_getElem?_getD, hfield, hfree]
  rw [getD_merge hfield, hinitial, Slot.merge_nil]

/-- Occurrences that are read on top of a message are merged into it. -/
theorem Message.foldl_record (ht : t.Flat) (hm : m.length = t.fields.length) (os : List Occurrence)
    (hos : ∀ o ∈ os, t.fields[o.place]? = some o.field) :
    os.foldl Message.record m = m.merge t (os.foldl Message.record t.default) := by
  suffices h : ∀ later : Message, later.length = t.fields.length →
      os.foldl Message.record (m.merge t later) = m.merge t (os.foldl Message.record later) by
    have hdefault := h t.default (by simp [MessageType.default])
    rwa [merge_default ht hm] at hdefault
  intro later hlater
  induction os generalizing later with
  | nil => rfl
  | cons o os ih =>
      rw [List.foldl_cons, List.foldl_cons, record_merge (hos o List.mem_cons_self) hlater]
      exact ih (fun o ho ↦ hos o (List.mem_cons_of_mem _ ho)) _ ((length_record _ _).trans hlater)

/-- The octets of two messages, one after the other, are those of the merged message. -/
theorem Message.decode_append (ht : t.Flat) (hx : Message.decode t xs = .ok m)
    (hy : Message.decode t ys = .ok m') : Message.decode t (xs ++ ys) = .ok (m.merge t m') := by
  have hm := length_of_decode hx
  obtain ⟨os, hspells, rfl⟩ := exists_spells ht hx
  obtain ⟨os', hspells', rfl⟩ := exists_spells ht hy
  rw [(hspells.append hspells').decode_eq, List.foldl_append,
    foldl_record ht hm os' fun o ho ↦ hspells'.place_eq ho]

end Flat

end Wire
end ReplicaClient
