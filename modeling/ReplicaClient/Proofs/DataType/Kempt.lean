import ReplicaClient.Proofs.DataType.Paths
import ReplicaClient.Proofs.Object.Grouping

/-!
# Values in good order

The keys of a map are in order, each has an entry of its kind, and no key is at once there and about
to be removed.  What comes from the store is in good order, without pending edits, and edits keep
the order.
-/

namespace ReplicaClient
namespace Assoc

variable {κ α : Type} [DecidableEq κ] [LT κ] [DecidableLT κ]

theorem mem_of_mem_ofList {l : List (κ × α)} {p : κ × α} (h : p ∈ ofList l) : p ∈ l := by
  have hfold (l m : List (κ × α)) :
      p ∈ l.foldl (fun m p ↦ insert p.1 p.2 m) m → p ∈ l ∨ p ∈ m := by
    induction l generalizing m with
    | nil => exact Or.inr
    | cons q l ih =>
        intro hp
        rcases ih _ hp with hl | hm
        · exact Or.inl (List.mem_cons_of_mem q hl)
        · rcases mem_insert hm with rfl | hm
          · exact Or.inl List.mem_cons_self
          · exact Or.inr hm
  exact (hfold l [] h).resolve_right List.not_mem_nil

end Assoc

namespace DataType
namespace Item

inductive Kempt : Item → Prop where
  | leaf {i : Item} (hkind : i.kind ≠ .map) : Kempt i
  | map {entries : List (ItemKey × Item)} {removes : List ItemKey}
      (ordered : Assoc.Ordered entries)
      (kinds : ∀ key item, Assoc.find? key entries = some item → item.kind = key.kind)
      (below : ∀ key item, Assoc.find? key entries = some item → Kempt item)
      (absent : ∀ key ∈ removes, Assoc.find? key entries = none) :
      Kempt (.map entries removes)

variable {i item : Item} {path : List ItemKey} {change : Edit}

/-! ## Edits -/

namespace Kempt

theorem empty (kind : ItemKind) : Kempt (.empty kind) := by
  cases kind with
  | map => exact .map List.Pairwise.nil nofun nofun nofun
  | _ => exact .leaf nofun

section Entries

variable {entries : List (ItemKey × Item)} {removes : List ItemKey} {key : ItemKey}

theorem absent_of_mem (h : Kempt (.map entries removes)) (hkey : key ∈ removes) :
    Assoc.find? key entries = none := by
  cases h with
  | leaf hleaf => exact absurd rfl hleaf
  | map _ _ _ absent => exact absent key hkey

theorem child (h : Kempt (.map entries removes)) (hfound : Assoc.find? key entries = some item) :
    item.kind = key.kind ∧ Kempt item := by
  cases h with
  | leaf hleaf => exact absurd rfl hleaf
  | map _ kinds below _ => exact ⟨kinds key item hfound, below key item hfound⟩

theorem nodup (h : Kempt (.map entries removes)) : (entries.map Prod.fst).Nodup := by
  cases h with
  | leaf hleaf => exact absurd rfl hleaf
  | map ordered _ _ _ => exact ordered.nodup

theorem erase (h : Kempt (.map entries removes)) (key : ItemKey) :
    Kempt (.map (Assoc.erase key entries) (Assoc.insertKey key removes)) := by
  cases h with
  | leaf hleaf => exact absurd rfl hleaf
  | map ordered kinds below absent =>
      refine .map (ordered.erase key) ?_ ?_ ?_
      · intro k item hfound
        exact kinds k item (Assoc.of_find?_erase hfound).2
      · intro k item hfound
        exact below k item (Assoc.of_find?_erase hfound).2
      · intro k hk
        by_cases hsame : k = key
        · rw [hsame]
          exact Assoc.find?_erase_self key entries
        · rw [Assoc.find?_erase_ne hsame]
          exact absent k ((Assoc.mem_insertKey.mp hk).resolve_left hsame)

theorem insert (h : Kempt (.map entries removes)) (hkind : item.kind = key.kind)
    (hitem : Kempt item) :
    Kempt (.map (Assoc.insert key item entries) (removes.filter (· ≠ key))) := by
  cases h with
  | leaf hleaf => exact absurd rfl hleaf
  | map ordered kinds below absent =>
      refine .map (ordered.insert key item) ?_ ?_ ?_
      · intro k item' hfound
        rcases Assoc.of_find?_insert hfound with ⟨rfl, rfl⟩ | ⟨-, hfound⟩
        · exact hkind
        · exact kinds k item' hfound
      · intro k item' hfound
        rcases Assoc.of_find?_insert hfound with ⟨-, rfl⟩ | ⟨-, hfound⟩
        · exact hitem
        · exact below k item' hfound
      · intro k hk
        obtain ⟨hmem, hne⟩ := List.mem_filter.mp hk
        rw [Assoc.find?_insert_ne (Ne.symm (of_decide_eq_true hne))]
        exact absent k hmem

end Entries

theorem editHere {i' : Item} (h : Kempt i) (hedit : Item.editHere change i = .ok i') :
    Kempt i' := by
  rcases editHere_cases hedit with rfl | ⟨hleaf, hkind, -⟩ | ⟨key, _, _, -, rfl, rfl⟩
  · exact h
  · exact .leaf (hkind ▸ hleaf)
  · exact h.erase key

theorem edit (h : Kempt i) (path : List ItemKey) (change : Edit) :
    Kempt (i.edit path change).2 := by
  induction path generalizing i with
  | nil =>
      unfold Item.edit
      cases hedit : Item.editHere change i with
      | error err => exact h
      | ok i' => exact h.editHere hedit
  | cons key path ih =>
      cases i with
      | map entries removes =>
          have hchild : ((Assoc.find? key entries).getD (.empty key.kind)).kind = key.kind ∧
              Kempt ((Assoc.find? key entries).getD (.empty key.kind)) := by
            cases hfound : Assoc.find? key entries with
            | none => exact ⟨kind_empty key.kind, .empty key.kind⟩
            | some child => exact h.child hfound
          exact h.insert ((kind_edit path change _).trans hchild.1) (ih hchild.2)
      | _ => exact h

theorem editAll (h : Kempt i) (changes : List Change) : Kempt (i.editAll changes) := by
  induction changes generalizing i with
  | nil => exact h
  | cons c changes ih => exact ih (h.edit c.1 c.2)

end Kempt

/-! ## What comes from the store -/

theorem pendingEntries_eq_nil {entries : List (ItemKey × Item)} :
    pendingEntries entries = [] ↔ ∀ p ∈ entries, p.2.pending? = none := by
  induction entries with
  | nil => simp [pendingEntries]
  | cons p entries ih =>
      obtain ⟨key, item⟩ := p
      rw [pendingEntries, List.forall_mem_cons, ← ih]
      cases item.pending? <;> simp

theorem pending?_map_eq_none {entries : List (ItemKey × Item)} {removes : List ItemKey} :
    (map entries removes).pending? = none ↔
      (∀ p ∈ entries, p.2.pending? = none) ∧ removes = [] := by
  rw [← pendingEntries_eq_nil, pending?]
  simp

/-- Where nothing is pending, nothing is pending below. -/
theorem pending?_of_fetch? (h : i.pending? = none) (hitem : i.fetch? path = some item) :
    item.pending? = none := by
  induction path generalizing i with
  | nil =>
      cases hitem
      exact h
  | cons key path ih =>
      obtain ⟨entries, removes, child, rfl, hchild, hitem⟩ := fetch?_cons_eq_some.mp hitem
      exact ih ((pending?_map_eq_none.mp h).1 _ (Assoc.mem_of_find? hchild)) hitem

/-- In good order and without pending edits. -/
def Pristine (i : Item) : Prop :=
  i.Kempt ∧ i.pending? = none

theorem pristine_ofList {entries : List (ItemKey × Item)}
    (h : ∀ p ∈ entries, p.2.kind = p.1.kind ∧ p.2.Pristine) :
    (map (Assoc.ofList entries) []).Pristine := by
  have hall : ∀ p ∈ Assoc.ofList entries, p.2.kind = p.1.kind ∧ p.2.Pristine :=
    fun p hp ↦ h p (Assoc.mem_of_mem_ofList hp)
  refine ⟨.map (Assoc.ordered_ofList _) ?_ ?_ nofun, pending?_map_eq_none.mpr ⟨?_, rfl⟩⟩
  · exact fun key item hfound ↦ (hall _ (Assoc.mem_of_find? hfound)).1
  · exact fun key item hfound ↦ (hall _ (Assoc.mem_of_find? hfound)).2.1
  · exact fun p hp ↦ (hall p hp).2.2

mutual

theorem pristine_ofEntry :
    ∀ (e : StoredEntry) (p : ItemKey × Item), ofEntry e = some p →
      p.2.kind = p.1.kind ∧ p.2.Pristine
  | .mk name number total members value raised entries, p, h => by
      rw [ofEntry] at h
      split at h
      · cases h
      · rename_i kind _
        cases h
        cases kind with
        | map => exact ⟨rfl, pristine_ofList (pristine_ofEntries entries)⟩
        | _ => exact ⟨rfl, .leaf nofun, rfl⟩

theorem pristine_ofEntries :
    ∀ (es : List StoredEntry), ∀ p ∈ ofEntries es, p.2.kind = p.1.kind ∧ p.2.Pristine
  | [], p, hp => by
      rw [ofEntries] at hp
      cases hp
  | e :: es, p, hp => by
      rw [ofEntries] at hp
      split at hp
      · exact pristine_ofEntries es p hp
      · rename_i first hfirst
        rcases List.mem_cons.mp hp with rfl | hp
        · exact pristine_ofEntry e p hfirst
        · exact pristine_ofEntries es p hp

end

theorem pristine_ofStored (kind : Kind) (v : Stored) : (ofStored kind v).Pristine := by
  cases kind with
  | map => exact pristine_ofList (pristine_ofEntries v.entries)
  | _ => exact ⟨.leaf nofun, rfl⟩

end Item
end DataType
end ReplicaClient
