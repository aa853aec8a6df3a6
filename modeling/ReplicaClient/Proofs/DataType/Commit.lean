import Mathlib.Data.Multiset.Basic
import ReplicaClient.Proofs.DataType.Mirror

/-!
# Committing what was sent

When the store has applied the operation of the pending edits and the edits have been committed, the
local value mirrors the store again and nothing is pending any more.
-/

namespace ReplicaClient
namespace DataType

open StoredEntry

/-! ## Counters -/

/-- The total with the pending increment stays within 64 bits. -/
def Counter.Fits (c : Counter) : Prop :=
  Int64.minValue.toInt ≤ c.value.toInt + c.pending.toInt ∧
    c.value.toInt + c.pending.toInt ≤ Int64.maxValue.toInt

namespace Counter

theorem value_commit {c : Counter} (h : c.Fits) : c.commit.value = c.value + c.pending := by
  obtain ⟨hlow, hhigh⟩ := h
  simp only [commit, addSaturating]
  rw [if_neg (Int.not_lt.mpr hlow), if_neg (Int.not_lt.mpr hhigh), Int64.ofInt_add,
    Int64.ofInt_toInt, Int64.ofInt_toInt]

theorem commit_of_pending_eq_zero {c : Counter} (h : c.pending = 0) : c.commit = c := by
  have hfits : c.Fits := by
    unfold Fits
    rw [h, Int64.toInt_zero, Int.add_zero]
    exact ⟨c.value.minValue_le_toInt, c.value.toInt_le⟩
  have hvalue : c.commit.value = c.value := by
    rw [value_commit hfits, h, Int64.add_zero]
  exact congr (congrArg Counter.mk hvalue) h.symm

end Counter

/-! ## Sets -/

theorem pushNew_perm {l l' : List Bytes} (h : l.Perm l') (member : Bytes) :
    (pushNew l member).Perm (pushNew l' member) := by
  unfold pushNew
  by_cases hmem : member ∈ l
  · rw [if_pos hmem, if_pos (h.mem_iff.mp hmem)]
    exact h
  · rw [if_neg hmem, if_neg fun hmem' ↦ hmem (h.mem_iff.mpr hmem')]
    exact h.append_right [member]

theorem foldl_pushNew_perm {l l' : List Bytes} (h : l.Perm l') (adds : List Bytes) :
    (adds.foldl pushNew l).Perm (adds.foldl pushNew l') := by
  induction adds generalizing l l' with
  | nil => exact h
  | cons member adds ih => exact ih (pushNew_perm h member)

theorem perm_changeMembers {l l' : List Bytes} (h : l.Perm l') (adds removes : List Bytes) :
    (adds.foldl pushNew (l.filter (· ∉ removes))).Perm (changeMembers adds removes l') := by
  have hkept : l'.removeAll removes = l'.filter (· ∉ removes) := by
    apply List.filter_congr
    intro member _
    simp
  apply List.Perm.trans _ (List.mergeSort_perm _ _).symm
  rw [hkept]
  exact foldl_pushNew_perm (h.filter _) adds

namespace Item

/-! ## Entries -/

theorem find?_commitEntries (key : ItemKey) (entries : List (ItemKey × Item)) :
    Assoc.find? key (commitEntries entries) = (Assoc.find? key entries).map commit := by
  induction entries with
  | nil => rw [commitEntries]; rfl
  | cons p entries ih =>
      obtain ⟨k, item⟩ := p
      rw [commitEntries, Assoc.find?_cons, Assoc.find?_cons, ih]
      split <;> rfl

theorem keys_commitEntries (entries : List (ItemKey × Item)) :
    (commitEntries entries).map Prod.fst = entries.map Prod.fst := by
  induction entries with
  | nil => rw [commitEntries]
  | cons p entries ih =>
      obtain ⟨k, item⟩ := p
      rw [commitEntries, List.map_cons, List.map_cons, ih]

theorem keys_pendingEntries (entries : List (ItemKey × Item)) :
    ((pendingEntries entries).map Prod.fst).Sublist (entries.map Prod.fst) := by
  induction entries with
  | nil => rw [pendingEntries]; exact List.Sublist.refl _
  | cons p entries ih =>
      obtain ⟨k, item⟩ := p
      rw [pendingEntries]
      split
      · exact ih.cons k
      · exact ih.cons_cons k

theorem find?_pendingEntries {entries : List (ItemKey × Item)}
    (h : (entries.map Prod.fst).Nodup) (key : ItemKey) :
    Assoc.find? key (pendingEntries entries) = (Assoc.find? key entries).bind pending? := by
  induction entries with
  | nil => rw [pendingEntries]; rfl
  | cons p entries ih =>
      obtain ⟨k, item⟩ := p
      obtain ⟨hnot, hrest⟩ := List.nodup_cons.mp h
      have hnone (hk : k = key) : Assoc.find? key entries = none :=
        Assoc.find?_eq_none.mpr (hk ▸ hnot)
      rw [pendingEntries, Assoc.find?_cons]
      split
      next hpending =>
        rw [ih hrest]
        split
        next hk =>
          rw [hnone hk]
          exact hpending.symm
        next => rfl
      next op hpending =>
        rw [Assoc.find?_cons]
        split
        next => exact hpending.symm
        next => exact ih hrest

theorem toOp_of_pending {i : Item} {op : Op} (h : i.pending? = some op) : i.toOp = op := by
  cases i with
  | counter c =>
      rw [pending?] at h
      split at h
      · cases h
      · exact Option.some.inj h
  | set s =>
      rw [pending?] at h
      split at h
      · cases h
      · exact Option.some.inj h
  | register r =>
      obtain ⟨b, hb, rfl⟩ := Option.map_eq_some_iff.mp h
      rw [toOp, hb]
      rfl
  | flag f =>
      obtain ⟨change, hchange, rfl⟩ := Option.map_eq_some_iff.mp h
      rw [toOp, hchange]
      rfl
  | map entries removes =>
      rw [pending?] at h
      split at h
      · cases h
      · exact Option.some.inj h

mutual

/-- Where nothing is pending, committing changes nothing. -/
theorem commit_of_quiet : ∀ i : Item, i.pending? = none → i.commit = i
  | counter c, h => by
      rw [pending?] at h
      split at h
      next hzero => rw [commit, Counter.commit_of_pending_eq_zero hzero]
      next => cases h
  | set s, h => by
      rw [pending?] at h
      split at h
      next hnone =>
        obtain ⟨members, adds, removes⟩ := s
        obtain ⟨rfl, rfl⟩ := hnone
        simp [commit, Set.commit]
      next => cases h
  | register r, h => by
      have hnone : r.update = none := Option.map_eq_none_iff.mp h
      obtain ⟨value, update⟩ := r
      subst hnone
      rfl
  | flag f, h => by
      have hnone : f.update = none := Option.map_eq_none_iff.mp h
      rw [commit, Flag.commit, hnone]
  | map entries removes, h => by
      rw [pending?] at h
      split at h
      next hnone =>
        obtain ⟨hupdates, rfl⟩ := hnone
        rw [commit, commitEntries_of_quiet entries (List.isEmpty_iff.mp hupdates)]
      next => cases h

theorem commitEntries_of_quiet :
    ∀ entries : List (ItemKey × Item), pendingEntries entries = [] → commitEntries entries = entries
  | [], _ => by rw [commitEntries]
  | (key, item) :: rest, h => by
      rw [pendingEntries] at h
      split at h
      next hpending =>
        rw [commitEntries, commit_of_quiet item hpending, commitEntries_of_quiet rest h]
      next => cases h

end

theorem kind_commit (i : Item) : i.commit.kind = i.kind := by
  cases i with
  | map entries removes => rw [commit]; rfl
  | _ => rfl

theorem not_removing_commit {q : List ItemKey} (i : Item) : ¬i.commit.Removing q := by
  induction q generalizing i with
  | nil => exact id
  | cons key q ih =>
      cases i with
      | map entries removes =>
          rw [commit]
          rintro (⟨-, h⟩ | ⟨item, hfound, h⟩)
          · cases h
          · rw [find?_commitEntries] at hfound
            obtain ⟨item, -, rfl⟩ := Option.map_eq_some_iff.mp hfound
            exact ih item h
      | _ => exact not_removing_of_kind nofun

mutual

/-- No counter, wherever it is, passes the end of its range when it is committed. -/
def InRange : Item → Prop
  | counter c => c.Fits
  | map entries _ => EntriesInRange entries
  | _ => True

def EntriesInRange : List (ItemKey × Item) → Prop
  | [] => True
  | (_, item) :: rest => InRange item ∧ EntriesInRange rest

end

theorem InRange.of_find? {entries : List (ItemKey × Item)} {key : ItemKey} {item : Item}
    (h : EntriesInRange entries) (hfound : Assoc.find? key entries = some item) : item.InRange := by
  induction entries with
  | nil => cases hfound
  | cons p entries ih =>
      obtain ⟨k, other⟩ := p
      rw [EntriesInRange] at h
      rw [Assoc.find?_cons] at hfound
      split at hfound
      next =>
        obtain rfl := Option.some.inj hfound
        exact h.1
      next => exact ih h.2 hfound

end Item

/-! ## Both sides -/

namespace Mirrors

/-- What is no map is changed alike on both sides. -/
theorem commit_leaf {i : Item} {e : StoredEntry} (hkind : i.kind ≠ .map)
    (h : i.snapshot = e.snapshot i.kind) (hrange : i.InRange) :
    i.commit.snapshot = (i.toOp.apply e).snapshot i.kind := by
  cases e
  cases i with
  | counter c =>
      have htotal := Snapshot.total.inj h
      show Snapshot.total c.commit.value = _
      rw [Counter.value_commit hrange, htotal, Item.toOp, Op.apply]
      rfl
  | set s =>
      have hmembers := Multiset.coe_eq_coe.mp (Snapshot.members.inj h)
      rw [Item.toOp, Op.apply]
      apply congrArg Snapshot.members
      apply Multiset.coe_eq_coe.mpr
      exact perm_changeMembers hmembers s.adds s.removes
  | register r =>
      rw [Item.toOp, Op.apply]
      rfl
  | flag f =>
      rw [Item.toOp, Op.apply]
      show Snapshot.raised f.commit.value = Snapshot.raised _
      unfold Flag.commit
      cases f.update with
      | none => cases f.value <;> rfl
      | some change => rfl
  | map entries removes => exact absurd rfl hkind

/-- What the store holds under a key after the operation of a map has been applied. -/
theorem lookup_apply {entries : List (ItemKey × Item)} (hnodup : (entries.map Prod.fst).Nodup)
    (removes : List ItemKey) (key : ItemKey) (e : StoredEntry) :
    lookup key (((Item.map entries removes).toOp.apply e).entries) =
      match (Assoc.find? key entries).bind Item.pending? with
      | none => if key ∈ removes then none else lookup key e.entries
      | some op => some (op.apply
          ((if key ∈ removes then none else lookup key e.entries).getD (blank key.field))) := by
  cases e with
  | mk name number total members value raised es =>
      have hdistinct := hnodup.sublist (Item.keys_pendingEntries entries)
      rw [Item.toOp, Op.apply]
      show lookup key (Op.applyAll _ _) = _
      rw [lookup_applyAll hdistinct, Item.find?_pendingEntries hnodup, lookup_dropKeys]
      rfl

/-- The operation of the pending edits does to the store what committing does to the local value. -/
theorem commit {i : Item} {e : StoredEntry} (h : Mirrors i e) (hrange : i.InRange) :
    Mirrors i.commit (i.toOp.apply e) := by
  induction h with
  | @leaf i e hkind h =>
      have hkind' : i.commit.kind ≠ .map := i.kind_commit ▸ hkind
      apply Mirrors.leaf hkind'
      rw [i.kind_commit]
      exact commit_leaf hkind h hrange
  | @map entries removes e ordered kinds held missing absent ih =>
      rw [Item.InRange] at hrange
      have hlookup (key : ItemKey) := lookup_apply ordered.nodup removes key e
      rw [Item.commit]
      refine .map ?_ ?_ ?_ ?_ nofun
      · rw [Assoc.Ordered, Item.keys_commitEntries]
        exact ordered
      · intro key item' hfound
        rw [Item.find?_commitEntries] at hfound
        obtain ⟨item, hitem, rfl⟩ := Option.map_eq_some_iff.mp hfound
        rw [item.kind_commit]
        exact kinds key item hitem
      · intro key item' hfound
        rw [Item.find?_commitEntries] at hfound
        obtain ⟨item, hitem, rfl⟩ := Option.map_eq_some_iff.mp hfound
        have hkept : key ∉ removes := by
          intro hkey
          rw [absent key hkey] at hitem
          cases hitem
        rw [hlookup, hitem, if_neg hkept, Option.bind_some]
        cases hpending : item.pending? with
        | none =>
            -- Nothing is sent for this entry, so it must not change here either.
            rw [Item.commit_of_quiet item hpending]
            exact held key item hitem
        | some op =>
            have hsent := ih key item hitem (.of_find? hrange hitem)
            rw [Item.toOp_of_pending hpending] at hsent
            exact hsent
      · intro key hnone _
        rw [Item.find?_commitEntries, Option.map_eq_none_iff] at hnone
        rw [hlookup, hnone, Option.bind_none]
        dsimp only
        split
        next => rfl
        next hkept => exact missing key hnone hkept

end Mirrors
end DataType
end ReplicaClient
