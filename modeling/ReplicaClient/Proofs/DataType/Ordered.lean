import Mathlib.Order.Defs.Unbundled
import ReplicaClient.Assoc
import ReplicaClient.DataType.Kind

/-!
# Maps in order

Keys of entries are strictly ordered, and a list of pairs that starts out in order stays in order
whatever is put into it or taken out.  Then no key occurs twice, and a list of pairs with different
keys may be put in order without losing any of them.
-/

namespace ReplicaClient
namespace Assoc

variable {κ α : Type} [DecidableEq κ]

section Finding

variable {key : κ} {l : List (κ × α)}

theorem find?_cons (key k : κ) (a : α) (l : List (κ × α)) :
    find? key ((k, a) :: l) = if k = key then some a else find? key l :=
  rfl

theorem find?_eq_none : find? key l = none ↔ key ∉ l.map Prod.fst := by
  induction l with
  | nil => simp [find?]
  | cons p l ih =>
      obtain ⟨k, a⟩ := p
      rw [find?_cons, List.map_cons, List.mem_cons, not_or, ← ih]
      split
      next h => simp [h]
      next h => simp [Ne.symm h]

/-- Where no key occurs twice, every pair is found. -/
theorem find?_of_mem {a : α} (h : (l.map Prod.fst).Nodup) (hmem : (key, a) ∈ l) :
    find? key l = some a := by
  induction l with
  | nil => cases hmem
  | cons p l ih =>
      obtain ⟨k, b⟩ := p
      obtain ⟨hnot, hrest⟩ := List.nodup_cons.mp h
      rw [find?_cons]
      rcases List.mem_cons.mp hmem with heq | hmem
      · cases heq
        exact if_pos rfl
      · have hne : k ≠ key := by
          rintro rfl
          exact hnot (List.mem_map.mpr ⟨(k, a), hmem, rfl⟩)
        rw [if_neg hne]
        exact ih hrest hmem

theorem find?_erase_self (key : κ) (l : List (κ × α)) : find? key (erase key l) = none := by
  rw [find?_eq_none]
  simp [erase]

theorem find?_erase_ne {other : κ} (h : other ≠ key) (l : List (κ × α)) :
    find? other (erase key l) = find? other l := by
  induction l with
  | nil => rfl
  | cons p l ih =>
      obtain ⟨k, a⟩ := p
      by_cases hk : k = key
      · have hskip : erase key ((k, a) :: l) = erase key l := by simp [erase, hk]
        have hother : ¬k = other := fun heq ↦ h (heq.symm.trans hk)
        rw [hskip, ih, find?_cons, if_neg hother]
      · have hkeep : erase key ((k, a) :: l) = (k, a) :: erase key l := by simp [erase, hk]
        rw [hkeep, find?_cons, find?_cons, ih]

theorem of_find?_erase {other : κ} {a : α} (h : find? other (erase key l) = some a) :
    other ≠ key ∧ find? other l = some a := by
  have hne : other ≠ key := by
    rintro rfl
    rw [find?_erase_self] at h
    cases h
  rw [find?_erase_ne hne] at h
  exact ⟨hne, h⟩

theorem of_find?_insert [LT κ] [DecidableLT κ] {other : κ} {value a : α}
    (h : find? other (insert key value l) = some a) :
    (other = key ∧ a = value) ∨ (other ≠ key ∧ find? other l = some a) := by
  by_cases hne : other = key
  · subst hne
    rw [find?_insert_self] at h
    exact Or.inl ⟨rfl, (Option.some.inj h).symm⟩
  · rw [find?_insert_ne (Ne.symm hne)] at h
    exact Or.inr ⟨hne, h⟩

end Finding

section Ordering

variable [LT κ] [DecidableLT κ] {key : κ} {l : List (κ × α)}

theorem mem_keys_insert {k : κ} {value : α} (h : k ∈ (insert key value l).map Prod.fst) :
    k = key ∨ k ∈ l.map Prod.fst := by
  induction l with
  | nil => simpa [insert] using h
  | cons p l ih =>
      obtain ⟨k', a⟩ := p
      unfold insert at h
      split at h
      · simpa using h
      · split at h
        next heq => simpa [heq] using h
        next =>
          rw [List.map_cons, List.mem_cons] at h ⊢
          rcases h with h | h
          · exact Or.inr (Or.inl h)
          · exact (ih h).imp_right Or.inr

theorem mem_insertKey {k : κ} {ks : List κ} : k ∈ insertKey key ks ↔ k = key ∨ k ∈ ks := by
  induction ks with
  | nil => simp [insertKey]
  | cons k' ks ih =>
      unfold insertKey
      split
      · simp
      · split
        next heq => simp [heq]
        next => simp [ih, or_left_comm]

omit [DecidableLT κ] in
theorem Ordered.erase (h : Ordered l) (key : κ) : Ordered (erase key l) :=
  h.sublist (List.filter_sublist.map _)

variable [IsStrictTotalOrder κ (· < ·)]

omit [DecidableEq κ] [DecidableLT κ] in
theorem Ordered.nodup (h : Ordered l) : (l.map Prod.fst).Nodup := by
  refine h.imp ?_
  rintro a b hlt rfl
  exact irrefl a hlt

theorem Ordered.insert (h : Ordered l) (key : κ) (value : α) : Ordered (insert key value l) := by
  induction l with
  | nil => exact List.pairwise_singleton _ _
  | cons p l ih =>
      obtain ⟨k, a⟩ := p
      obtain ⟨hfirst, hrest⟩ := List.pairwise_cons.mp h
      unfold Assoc.insert
      split
      next hlt =>
        refine List.pairwise_cons.mpr ⟨?_, h⟩
        intro k' hk'
        rcases List.mem_cons.mp hk' with rfl | hk'
        · exact hlt
        · exact trans_of (· < ·) hlt (hfirst k' hk')
      next hge =>
        split
        next heq =>
          subst heq
          exact h
        next hne =>
          have hlt : k < key := by
            rcases trichotomous_of (· < ·) key k with hlt | heq | hlt
            · exact absurd hlt hge
            · exact absurd heq hne
            · exact hlt
          refine List.pairwise_cons.mpr ⟨?_, ih hrest⟩
          intro k' hk'
          rcases mem_keys_insert hk' with rfl | hk'
          · exact hlt
          · exact hfirst k' hk'

theorem ordered_ofList (l : List (κ × α)) : Ordered (ofList l) := by
  have hfold (m : List (κ × α)) (hm : Ordered m) :
      Ordered (l.foldl (fun m p ↦ Assoc.insert p.1 p.2 m) m) := by
    induction l generalizing m with
    | nil => exact hm
    | cons p l ih => exact ih _ (hm.insert p.1 p.2)
  exact hfold [] List.Pairwise.nil

end Ordering

/-- Pairs with different keys are all found again. -/
theorem find?_ofList [LT κ] [DecidableLT κ] {l : List (κ × α)} (h : (l.map Prod.fst).Nodup)
    (key : κ) : find? key (ofList l) = find? key l := by
  have hfold (m : List (κ × α)) :
      find? key (l.foldl (fun m p ↦ insert p.1 p.2 m) m) =
        (find? key l).or (find? key m) := by
    induction l generalizing m with
    | nil => rfl
    | cons p l ih =>
        obtain ⟨k, a⟩ := p
        obtain ⟨hnot, hrest⟩ := List.nodup_cons.mp h
        rw [List.foldl_cons, ih hrest, find?_cons]
        split
        next heq =>
          subst heq
          rw [find?_eq_none.mpr hnot, find?_insert_self]
          rfl
        next hne => rw [find?_insert_ne hne]
  rw [ofList, hfold]
  exact Option.or_none

end Assoc

/-! ## Keys of entries -/

namespace DataType

theorem ItemKind.number_injective {k k' : ItemKind} (h : k.number = k'.number) : k = k' := by
  cases k <;> cases k' <;> first | rfl | exact absurd h (by decide)

instance : IsStrictTotalOrder ItemKey (· < ·) where
  irrefl a h := by
    rcases h with h | ⟨-, h⟩
    · exact String.lt_irrefl _ h
    · exact Int32.lt_irrefl h
  trans a b c hab hbc := by
    rcases hab with hab | ⟨hname, hab⟩
    · rcases hbc with hbc | ⟨hname', -⟩
      · exact Or.inl (String.lt_trans hab hbc)
      · exact Or.inl (hname' ▸ hab)
    · rcases hbc with hbc | ⟨hname', hbc⟩
      · exact Or.inl (hname ▸ hbc)
      · exact Or.inr ⟨hname.trans hname', Int32.lt_trans hab hbc⟩
  trichotomous a b hab hba := by
    have hname : a.name = b.name :=
      String.le_antisymm (fun h ↦ hba (Or.inl h)) (fun h ↦ hab (Or.inl h))
    have hkind : a.kind.number = b.kind.number := by
      have hle : ¬a.kind.number < b.kind.number := fun h ↦ hab (Or.inr ⟨hname, h⟩)
      have hge : ¬b.kind.number < a.kind.number := fun h ↦ hba (Or.inr ⟨hname.symm, h⟩)
      exact Int32.le_antisymm (Int32.not_lt.mp hge) (Int32.not_lt.mp hle)
    cases a
    cases b
    exact congr (congrArg ItemKey.mk hname) (ItemKind.number_injective hkind)

end DataType
end ReplicaClient
