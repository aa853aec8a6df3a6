import ReplicaClient.Proofs.DataType.Settling

/-!
# Operations that are sent

The operation of a map names a field at most once, in order, and every update in it changes
something.  This holds for the maps in it as well, however deep they are, because what is about to
be removed stays in order and apart from the entries, whatever is edited and committed.
-/

namespace ReplicaClient
namespace DataType

open Wire

/-! ## Well-made operations -/

namespace Op

def kind : Op → ItemKind
  | counter _ => .counter
  | set .. => .set
  | register _ => .register
  | flag _ => .flag
  | map .. => .map

/-- The kinds of the operations that the message of an update carries behind its field. -/
def carried (update : Message) : List ItemKind :=
  (ItemKind.all.zip update.tail).flatMap fun (kind, slot) ↦ slot.map fun _ ↦ kind

theorem carried_toUpdate (key : ItemKey) (op : Op) : carried (op.toUpdate key) = [op.kind] := by
  cases op <;> rw [toUpdate] <;> rfl

def Effective : Op → Prop
  | counter n => n ≠ 0
  | set adds removes => adds ≠ [] ∨ removes ≠ []
  | map removes updates => removes ≠ [] ∨ updates ≠ []
  | register _ | flag _ => True

/-- At every level the fields are in order and each is named once, and an update carries a single
operation, which is one for its field and has an effect. -/
inductive WellMade : Op → Prop where
  | leaf {op : Op} (hkind : op.kind ≠ .map) : WellMade op
  | map {removes : List ItemKey} {updates : List (ItemKey × Op)}
      (distinct : ((removes ++ updates.map Prod.fst).map ItemKey.field).Nodup)
      (removesOrdered : removes.Pairwise (· < ·))
      (updatesOrdered : Assoc.Ordered updates)
      (carries : ∀ key op, (key, op) ∈ updates → carried (op.toUpdate key) = [key.kind])
      (effective : ∀ key op, (key, op) ∈ updates → op.Effective)
      (nested : ∀ key op, (key, op) ∈ updates → WellMade op) : WellMade (.map removes updates)

end Op

namespace Item

variable {i item : Item} {key : ItemKey} {op : Op} {entries : List (ItemKey × Item)}
  {removes : List ItemKey}

theorem kind_toOp (i : Item) : i.toOp.kind = i.kind := by
  cases i <;> rfl

theorem effective_of_pending (h : i.pending? = some op) : op.Effective := by
  cases i with
  | register r =>
      obtain ⟨b, -, rfl⟩ := Option.map_eq_some_iff.mp h
      trivial
  | flag f =>
      obtain ⟨change, -, rfl⟩ := Option.map_eq_some_iff.mp h
      trivial
  | counter c =>
      rw [pending?] at h
      split at h
      next => cases h
      next hne =>
        cases h
        exact hne
  | set s =>
      rw [pending?] at h
      split at h
      next => cases h
      next hne =>
        cases h
        exact not_and_or.mp hne
  | map entries removes =>
      rw [pending?] at h
      split at h
      next => cases h
      next hne =>
        cases h
        rw [List.isEmpty_iff] at hne
        exact (not_and_or.mp hne).symm

/-! ## Removals in order -/

/-- In every map, what is about to be removed is in order. -/
def RemovesOrdered (i : Item) : Prop :=
  ∀ path entries removes, i.fetch? path = some (map entries removes) →
    removes.Pairwise (· < ·)

theorem removesOrdered_map_iff : (map entries removes).RemovesOrdered ↔
    removes.Pairwise (· < ·) ∧
      ∀ key item, Assoc.find? key entries = some item → item.RemovesOrdered := by
  constructor
  · intro h
    refine ⟨h [] entries removes rfl, fun key item hfound path es rs hmap ↦ ?_⟩
    exact h (key :: path) es rs (fetch?_cons_eq_some.mpr ⟨_, _, item, rfl, hfound, hmap⟩)
  · rintro ⟨hown, hbelow⟩ path es rs hmap
    cases path with
    | nil =>
        cases hmap
        exact hown
    | cons key path =>
        obtain ⟨_, _, item, heq, hfound, hmap⟩ := fetch?_cons_eq_some.mp hmap
        cases heq
        exact hbelow key item hfound path es rs hmap

theorem removesOrdered_of_quiet (h : i.pending? = none) : i.RemovesOrdered := by
  intro path entries removes hmap
  rw [(pending?_map_eq_none.mp (pending?_of_fetch? h hmap)).2]
  exact List.Pairwise.nil

theorem removesOrdered_empty (kind : ItemKind) : (empty kind).RemovesOrdered := by
  apply removesOrdered_of_quiet
  cases kind <;> rfl

theorem removesOrdered_of_kind (h : i.kind ≠ .map) : i.RemovesOrdered := by
  intro path entries removes hmap
  cases path with
  | nil =>
      cases hmap
      exact absurd rfl h
  | cons key path =>
      obtain ⟨_, _, _, rfl, -⟩ := fetch?_cons_eq_some.mp hmap
      exact absurd rfl h

namespace RemovesOrdered

theorem editHere {change : Edit} {i' : Item} (h : i.RemovesOrdered)
    (hedit : Item.editHere change i = .ok i') : i'.RemovesOrdered := by
  rcases editHere_cases hedit with rfl | ⟨hleaf, hkind, -⟩ | ⟨key, _, _, -, rfl, rfl⟩
  · exact h
  · exact removesOrdered_of_kind (hkind ▸ hleaf)
  · obtain ⟨hown, hbelow⟩ := removesOrdered_map_iff.mp h
    refine removesOrdered_map_iff.mpr ⟨Assoc.pairwise_insertKey hown key, ?_⟩
    exact fun k item hfound ↦ hbelow k item (Assoc.of_find?_erase hfound).2

theorem edit (h : i.RemovesOrdered) (path : List ItemKey) (change : Edit) :
    (i.edit path change).2.RemovesOrdered := by
  induction path generalizing i with
  | nil =>
      unfold Item.edit
      cases hedit : Item.editHere change i with
      | error err => exact h
      | ok i' => exact h.editHere hedit
  | cons key path ih =>
      cases i with
      | map entries removes =>
          obtain ⟨hown, hbelow⟩ := removesOrdered_map_iff.mp h
          refine removesOrdered_map_iff.mpr ⟨hown.filter _, fun k item hfound ↦ ?_⟩
          rcases Assoc.of_find?_insert hfound with ⟨rfl, rfl⟩ | ⟨-, hfound⟩
          · apply ih
            cases hchild : Assoc.find? k entries with
            | none => exact removesOrdered_empty k.kind
            | some child => exact hbelow k child hchild
          · exact hbelow k item hfound
      | _ => exact h

theorem play (h : i.RemovesOrdered) (turns : List Turn) : (i.play turns).RemovesOrdered :=
  play_induction (fun _ path change h ↦ h.edit path change)
    (fun i _ ↦ removesOrdered_of_quiet (pending?_commit i)) h turns

end RemovesOrdered

/-! ## From values to operations -/

theorem Kempt.distinct (h : Kempt (.map entries removes)) (hremoves : removes.Pairwise (· < ·)) :
    ((removes ++ (pendingEntries entries).map Prod.fst).map ItemKey.field).Nodup := by
  have hkeys := keys_pendingEntries entries
  apply List.Nodup.map (fun _ _ ↦ ItemKey.field_injective)
  refine List.nodup_append.mpr ⟨hremoves.imp Assoc.ne_of_lt, h.nodup.sublist hkeys, ?_⟩
  rintro key hremoved _ hupdated rfl
  exact Assoc.find?_eq_none.mp (h.absent_of_mem hremoved) (hkeys.subset hupdated)

theorem Kempt.wellMade (h : Kempt i) (hremoves : i.RemovesOrdered) : i.toOp.WellMade := by
  induction h with
  | @leaf i hkind => exact .leaf (i.kind_toOp ▸ hkind)
  | @map entries removes ordered kinds below absent ih =>
      obtain ⟨hown, hbelow⟩ := removesOrdered_map_iff.mp hremoves
      rw [toOp]
      refine .map (Kempt.distinct (.map ordered kinds below absent) hown) hown
        (ordered.sublist (keys_pendingEntries entries)) ?_ ?_ ?_
      · intro key op hmem
        obtain ⟨item, hfound, hop⟩ := (mem_pendingEntries ordered.nodup).mp hmem
        rw [Op.carried_toUpdate, ← toOp_of_pending hop, kind_toOp, kinds key item hfound]
      · intro key op hmem
        obtain ⟨item, -, hop⟩ := (mem_pendingEntries ordered.nodup).mp hmem
        exact effective_of_pending hop
      · intro key op hmem
        obtain ⟨item, hfound, hop⟩ := (mem_pendingEntries ordered.nodup).mp hmem
        rw [← toOp_of_pending hop]
        exact ih key item hfound (hbelow key item hfound)

/-- Whatever is edited and committed, in each map of the value the keys to be removed are not among
those that are there, and the operation to be sent is well made at every level. -/
theorem wellMade_toOp (v : Stored) (turns : List Turn) :
    let i := (ofStored .map v).play turns
    (∀ path entries removes, i.fetch? path = some (map entries removes) →
        ∀ key ∈ removes, key ∉ entries.map Prod.fst) ∧
      i.toOp.kind = .map ∧ i.toOp.WellMade := by
  intro i
  obtain ⟨hkempt, hquiet⟩ := pristine_ofStored .map v
  have hi : i.Kempt := hkempt.play turns
  refine ⟨?_, ?_, hi.wellMade ((removesOrdered_of_quiet hquiet).play turns)⟩
  · intro path entries removes hmap key hkey
    exact Assoc.find?_eq_none.mp ((hi.of_fetch? hmap).absent_of_mem hkey)
  · rw [kind_toOp]
    exact (kind_play _ turns).trans (kind_ofStored .map v)

/-- Removals at two levels, beside a counter and a set that are made. -/
theorem wellMade_toOp_profile :
    let i := (ofStored .map Tandem.profile).play [
      .edit [⟨"m", .map⟩, ⟨"s", .set⟩] (.insert [1]), .edit [⟨"m", .map⟩] (.remove ⟨"f", .flag⟩),
      .edit [] (.remove ⟨"a", .counter⟩), .edit [⟨"c", .counter⟩] (.increment 3)]
    let op : Op := .map [⟨"a", .counter⟩] [(⟨"c", .counter⟩, .counter 3),
      (⟨"m", .map⟩, .map [⟨"f", .flag⟩] [(⟨"s", .set⟩, .set [[1]] [])])]
    i.fetch? [⟨"m", .map⟩] =
        some (map [(⟨"s", .set⟩, set ⟨[], [[1]], []⟩)] [⟨"f", .flag⟩]) ∧
      (⟨"f", .flag⟩ : ItemKey) ∉ ([⟨"s", .set⟩] : List ItemKey) ∧ i.toOp = op ∧ op.WellMade := by
  intro i op
  obtain ⟨hapart, -, hwell⟩ := wellMade_toOp Tandem.profile [
    .edit [⟨"m", .map⟩, ⟨"s", .set⟩] (.insert [1]), .edit [⟨"m", .map⟩] (.remove ⟨"f", .flag⟩),
    .edit [] (.remove ⟨"a", .counter⟩), .edit [⟨"c", .counter⟩] (.increment 3)]
  have hmap : i.fetch? [⟨"m", .map⟩] =
      some (map [(⟨"s", .set⟩, set ⟨[], [[1]], []⟩)] [⟨"f", .flag⟩]) := rfl
  have hop : i.toOp = op := rfl
  exact ⟨hmap, hapart _ _ _ hmap _ (List.mem_singleton_self _), hop, hop ▸ hwell⟩

end Item
end DataType
end ReplicaClient
