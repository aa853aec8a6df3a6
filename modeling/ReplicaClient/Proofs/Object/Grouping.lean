import ReplicaClient.Proofs.DataType.Ordered
import ReplicaClient.Proofs.Object.Replies

/-!
# Maps from their pairs

Pairs that come in the order of their keys make the map they were taken from: each is put behind
all that came before it.  Indexes send one pair for each value, and the pairs of one index stand
together, so that regrouping them gives the same values under the same indexes.
-/

namespace ReplicaClient
namespace Assoc

variable {κ α : Type} [LT κ] {key : κ}

theorem Ordered.lt_of_append {l l' : List (κ × α)} {a : α} (h : Ordered (l ++ (key, a) :: l')) :
    ∀ p ∈ l, p.1 < key := by
  intro p hp
  rw [Ordered, List.map_append, List.map_cons] at h
  exact (List.pairwise_append.mp h).2.2 p.1 (List.mem_map_of_mem hp) key List.mem_cons_self

variable [IsStrictTotalOrder κ (· < ·)]

theorem ne_of_lt {k : κ} (h : k < key) : k ≠ key := by
  rintro rfl
  exact irrefl k h

variable [DecidableEq κ]

/-! ## Behind smaller keys -/

section Behind

variable {l l' : List (κ × α)} (h : ∀ p ∈ l, p.1 < key)

include h

theorem find?_append_of_lt : find? key (l ++ l') = find? key l' := by
  induction l with
  | nil => rfl
  | cons p l ih =>
      obtain ⟨k, a⟩ := p
      obtain ⟨hfirst, hrest⟩ := List.forall_mem_cons.mp h
      rw [List.cons_append, find?_cons, if_neg (ne_of_lt hfirst)]
      exact ih hrest

theorem insert_append_of_lt [DecidableLT κ] (value : α) :
    insert key value (l ++ l') = l ++ insert key value l' := by
  induction l with
  | nil => rfl
  | cons p l ih =>
      obtain ⟨k, a⟩ := p
      obtain ⟨hfirst, hrest⟩ := List.forall_mem_cons.mp h
      rw [List.cons_append, insert, if_neg (asymm_of (· < ·) hfirst),
        if_neg (Ne.symm (ne_of_lt hfirst)), ih hrest, List.cons_append]

end Behind

theorem insertKey_append_of_lt [DecidableLT κ] {ks ks' : List κ} (h : ∀ k ∈ ks, k < key) :
    insertKey key (ks ++ ks') = ks ++ insertKey key ks' := by
  induction ks with
  | nil => rfl
  | cons k ks ih =>
      obtain ⟨hfirst, hrest⟩ := List.forall_mem_cons.mp h
      rw [List.cons_append, insertKey, if_neg (asymm_of (· < ·) hfirst),
        if_neg (Ne.symm (ne_of_lt hfirst)), ih hrest, List.cons_append]

/-- Pairs in order are the map they make. -/
theorem ofList_of_ordered [DecidableLT κ] {l : List (κ × α)} (h : Ordered l) : ofList l = l := by
  have hfold (done l : List (κ × α)) (h : Ordered (done ++ l)) :
      l.foldl (fun m p ↦ insert p.1 p.2 m) done = done ++ l := by
    induction l generalizing done with
    | nil => exact (List.append_nil done).symm
    | cons p l ih =>
        have hput : insert p.1 p.2 (done ++ []) = done ++ [p] :=
          insert_append_of_lt h.lt_of_append p.2
        rw [List.append_nil] at hput
        rw [List.foldl_cons, hput]
        have hnext := ih (done ++ [p]) (by rwa [List.append_assoc])
        rwa [List.append_assoc] at hnext
  exact hfold [] l h

/-! ## What an insertion keeps -/

omit [LT κ] [IsStrictTotalOrder κ (· < ·)] in
theorem mem_of_find? {l : List (κ × α)} {a : α} (h : find? key l = some a) : (key, a) ∈ l := by
  induction l with
  | nil => cases h
  | cons p l ih =>
      obtain ⟨k, b⟩ := p
      rw [find?_cons] at h
      split at h
      next heq =>
        cases h
        rw [heq]
        exact List.mem_cons_self
      next => exact List.mem_cons_of_mem _ (ih h)

omit [IsStrictTotalOrder κ (· < ·)] in
theorem mem_insert [DecidableLT κ] {l : List (κ × α)} {value : α} {p : κ × α}
    (h : p ∈ insert key value l) : p = (key, value) ∨ p ∈ l := by
  induction l with
  | nil => exact Or.inl (List.mem_singleton.mp h)
  | cons q l ih =>
      obtain ⟨k, a⟩ := q
      rw [insert] at h
      split at h
      · exact List.mem_cons.mp h
      · split at h
        · exact (List.mem_cons.mp h).imp_right (List.mem_cons_of_mem _)
        · rcases List.mem_cons.mp h with rfl | h
          · exact Or.inr List.mem_cons_self
          · exact (ih h).imp_right (List.mem_cons_of_mem _)

theorem pairwise_insertKey [DecidableLT κ] {ks : List κ} (h : ks.Pairwise (· < ·)) (key : κ) :
    (insertKey key ks).Pairwise (· < ·) := by
  induction ks with
  | nil => exact List.pairwise_singleton _ _
  | cons k ks ih =>
      obtain ⟨hfirst, hrest⟩ := List.pairwise_cons.mp h
      rw [insertKey]
      split
      next hlt =>
        apply List.pairwise_cons.mpr
        refine ⟨List.forall_mem_cons.mpr ⟨hlt, ?_⟩, h⟩
        exact fun k' hk' ↦ trans_of (· < ·) hlt (hfirst k' hk')
      next hge =>
        split
        next => exact h
        next hne =>
          have hlt : k < key := by
            rcases trichotomous_of (· < ·) key k with hlt | heq | hlt
            · exact absurd hlt hge
            · exact absurd heq hne
            · exact hlt
          apply List.pairwise_cons.mpr
          refine ⟨fun k' hk' ↦ ?_, ih hrest⟩
          rcases mem_insertKey.mp hk' with rfl | hk'
          · exact hlt
          · exact hfirst k' hk'

end Assoc

/-! ## Indexes -/

namespace Indexes

open Assoc

instance : IsStrictTotalOrder String (· < ·) where
  irrefl := String.lt_irrefl
  trans _ _ _ := String.lt_trans
  trichotomous _ _ hab hba := String.le_antisymm hba hab

/-- Indexes and their values are in order, and no index is without values. -/
structure Tidy (indexes : Indexes) : Prop where
  ordered : Ordered indexes
  values : ∀ p ∈ indexes, p.2.Pairwise (· < ·)
  ne_nil : ∀ p ∈ indexes, p.2 ≠ []

theorem add_append_of_lt {done rest : Indexes} {index : String} (h : ∀ p ∈ done, p.1 < index)
    (value : String) : add (done ++ rest) index value = done ++ add rest index value := by
  rw [add, find?_append_of_lt h, insert_append_of_lt h, add]

/-- The values of one index are put behind one another. -/
theorem foldl_add_values {done : Indexes} {index : String} (h : ∀ p ∈ done, p.1 < index)
    (seen values : List String) (hvalues : (seen ++ values).Pairwise (· < ·)) :
    values.foldl (fun m v ↦ add m index v) (done ++ [(index, seen)]) =
      done ++ [(index, seen ++ values)] := by
  induction values generalizing seen with
  | nil => rw [List.append_nil, List.foldl_nil]
  | cons v values ih =>
      have hlast : ∀ k ∈ seen, k < v := fun k hk ↦
        (List.pairwise_append.mp hvalues).2.2 k hk v List.mem_cons_self
      have hput : add [(index, seen)] index v = [(index, seen ++ [v])] := by
        have hinsert : insertKey v (seen ++ []) = seen ++ [v] := insertKey_append_of_lt hlast
        rw [List.append_nil] at hinsert
        simp [add, find?, Assoc.insert, hinsert]
      rw [List.foldl_cons, add_append_of_lt h, hput, ih (seen ++ [v]) (by simpa using hvalues),
        List.append_assoc, List.singleton_append]

theorem foldl_add_index {done : Indexes} {index : String} {values : List String}
    (h : ∀ p ∈ done, p.1 < index) (hne : values ≠ []) (hvalues : values.Pairwise (· < ·)) :
    values.foldl (fun m v ↦ add m index v) done = done ++ [(index, values)] := by
  cases values with
  | nil => exact absurd rfl hne
  | cons v values =>
      have hfirst : add done index v = done ++ [(index, [v])] := by
        have hput : add (done ++ []) index v = done ++ add [] index v := add_append_of_lt h v
        rw [List.append_nil] at hput
        exact hput
      rw [List.foldl_cons, hfirst]
      exact foldl_add_values h [v] values hvalues

theorem foldl_toPairs (done indexes : Indexes) :
    (toPairs indexes).foldl (fun m p ↦ add m p.texts.1 p.texts.2) done =
      indexes.foldl (fun m p ↦ p.2.foldl (fun m v ↦ add m p.1 v) m) done := by
  simp only [toPairs, List.foldl_flatMap, List.foldl_map, Pair.texts_ofTexts]

theorem Tidy.nil : Tidy [] where
  ordered := List.Pairwise.nil
  values _ hp := absurd hp List.not_mem_nil
  ne_nil _ hp := absurd hp List.not_mem_nil

/-- A value is added where it belongs. -/
theorem Tidy.add {indexes : Indexes} (h : indexes.Tidy) (index value : String) :
    (indexes.add index value).Tidy where
  ordered := h.ordered.insert index _
  values p hp := by
    rcases mem_insert hp with rfl | hp
    · apply pairwise_insertKey
      cases hfind : find? index indexes with
      | none => exact List.Pairwise.nil
      | some values => exact h.values _ (mem_of_find? hfind)
    · exact h.values p hp
  ne_nil p hp := by
    rcases mem_insert hp with rfl | hp
    · exact List.ne_nil_of_mem (mem_insertKey.mpr (Or.inl rfl))
    · exact h.ne_nil p hp

theorem tidy_ofPairs (pairs : List Pair) : (ofPairs pairs).Tidy := by
  have hfold (m : Indexes) (hm : m.Tidy) :
      (pairs.foldl (fun indexes p ↦ Indexes.add indexes p.texts.1 p.texts.2) m).Tidy := by
    induction pairs generalizing m with
    | nil => exact hm
    | cons p pairs ih => exact ih _ (hm.add p.texts.1 p.texts.2)
  exact hfold [] .nil

/-- Indexes are made again from the pairs that are sent for them. -/
theorem ofPairs_toPairs {indexes : Indexes} (h : indexes.Tidy) :
    ofPairs (toPairs indexes) = indexes := by
  have hfold (done indexes : Indexes) (h : Tidy (done ++ indexes)) :
      indexes.foldl (fun m p ↦ p.2.foldl (fun m v ↦ add m p.1 v) m) done = done ++ indexes := by
    induction indexes generalizing done with
    | nil => exact (List.append_nil done).symm
    | cons p indexes ih =>
        have hp : p ∈ done ++ p :: indexes := List.mem_append_right _ List.mem_cons_self
        rw [List.foldl_cons,
          foldl_add_index h.ordered.lt_of_append (h.ne_nil p hp) (h.values p hp)]
        have hnext := ih (done ++ [p]) (by rwa [List.append_assoc])
        rwa [List.append_assoc] at hnext
  rw [ofPairs, foldl_toPairs]
  exact hfold [] indexes h

end Indexes

/-! ## Objects -/

namespace Object

/-- The maps of an object are in order, and no index is without values. -/
structure Tidy (o : Object) : Prop where
  metadata : Assoc.Ordered o.metadata
  indexes : o.indexes.Tidy

variable {o : Object}

theorem Tidy.addIndex (h : o.Tidy) (index value : String) : (o.addIndex index value).Tidy where
  metadata := h.metadata
  indexes := h.indexes.add index value

/-- What a content brings is in order, whatever it is. -/
theorem tidy_adopt (o : Object) (c : Content) : (o.adopt (.ofContent c)).Tidy where
  metadata := Assoc.ordered_ofList _
  indexes := Indexes.tidy_ofPairs _

theorem Tidy.setContent (h : o.Tidy) (contents : List Content) : (o.setContent contents).Tidy := by
  rcases contents with _ | ⟨c, _ | ⟨c', contents⟩⟩
  · exact h
  · exact tidy_adopt _ _
  · exact ⟨List.Pairwise.nil, .nil⟩

end Object
end ReplicaClient
