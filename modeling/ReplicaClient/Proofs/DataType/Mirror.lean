import ReplicaClient.Proofs.DataType.Reference

/-!
# Local values that keep up with the store

A local value mirrors what the store holds if it shows the same, apart from entries that it is about
to remove and from empty ones that the store does not know.  Edits leave this as it is, and when the
pending edits have been applied on both sides, it holds again.
-/

namespace ReplicaClient
namespace DataType

open StoredEntry

/-! ## What an item mirrors -/

inductive Mirrors : Item → StoredEntry → Prop where
  | leaf {i : Item} {e : StoredEntry} (hkind : i.kind ≠ .map) (h : i.snapshot = e.snapshot i.kind) :
      Mirrors i e
  | map {entries : List (ItemKey × Item)} {removes : List ItemKey} {e : StoredEntry}
      (ordered : Assoc.Ordered entries)
      (kinds : ∀ key item, Assoc.find? key entries = some item → item.kind = key.kind)
      (held : ∀ key item, Assoc.find? key entries = some item →
        Mirrors item ((lookup key e.entries).getD (blank key.field)))
      (missing : ∀ key, Assoc.find? key entries = none → key ∉ removes →
        lookup key e.entries = none)
      (absent : ∀ key ∈ removes, Assoc.find? key entries = none) :
      Mirrors (.map entries removes) e

theorem mirrors_empty (kind : ItemKind) (field : Bytes × Int32) :
    Mirrors (.empty kind) (blank field) := by
  cases kind with
  | map => exact .map List.Pairwise.nil nofun nofun (fun _ _ _ ↦ rfl) nofun
  | _ => exact .leaf nofun rfl

@[simp] theorem kind_empty (kind : ItemKind) : (Item.empty kind).kind = kind := by
  cases kind <;> rfl

/-! ## Editing -/

namespace Item

/-- The entry at the path is about to be removed. -/
def Removing : List ItemKey → Item → Prop
  | key :: path, map entries removes =>
      (path = [] ∧ key ∈ removes) ∨
        ∃ item, Assoc.find? key entries = some item ∧ Removing path item
  | _, _ => False

variable {i i' : Item} {path q : List ItemKey} {edit : Edit}

theorem not_removing_empty (kind : ItemKind) : ¬Removing q (.empty kind) := by
  intro h
  cases q with
  | nil => exact h
  | cons key q =>
      cases kind with
      | map =>
          rcases h with ⟨-, h⟩ | ⟨item, h, -⟩
          · cases h
          · cases h
      | _ => exact h

theorem not_removing_of_kind (hkind : i.kind ≠ .map) : ¬Removing q i := by
  intro h
  cases q with
  | nil => exact h
  | cons key q =>
      cases i with
      | map entries removes => exact hkind rfl
      | _ => exact h

/-- An edit shows only where it takes an entry out of a map. -/
theorem editHere_cases (h : editHere edit i = .ok i') :
    i' = i ∨ (i.kind ≠ .map ∧ i'.kind = i.kind ∧ i'.snapshot = i.snapshot) ∨
      ∃ key entries removes, edit = .remove key ∧ i = map entries removes ∧
        i' = map (Assoc.erase key entries) (Assoc.insertKey key removes) := by
  unfold editHere at h
  repeat' split at h
  case h_9 key entries removes =>
    cases h
    exact Or.inr (Or.inr ⟨key, entries, removes, rfl, rfl, rfl⟩)
  all_goals cases h
  case h_1 => exact Or.inl rfl
  case h_2 => exact Or.inl rfl
  all_goals exact Or.inr (Or.inl ⟨nofun, rfl, rfl⟩)

theorem kind_editHere (h : editHere edit i = .ok i') : i'.kind = i.kind := by
  rcases editHere_cases h with rfl | ⟨-, hkind, -⟩ | ⟨key, entries, removes, -, rfl, rfl⟩
  · rfl
  · exact hkind
  · rfl

theorem kind_edit (path : List ItemKey) (edit : Edit) (i : Item) :
    (Item.edit path edit i).2.kind = i.kind := by
  cases path with
  | nil =>
      unfold Item.edit
      cases h : editHere edit i with
      | error err => rfl
      | ok i' => exact kind_editHere h
  | cons key path => cases i <;> rfl

theorem removing_editHere (h : editHere edit i = .ok i') (hq : Removing q i') :
    Removing q i ∨ ∃ key, edit = .remove key ∧ q = [key] := by
  rcases editHere_cases h with rfl | ⟨hleaf, hkind, -⟩ | ⟨key, entries, removes, rfl, rfl, rfl⟩
  · exact Or.inl hq
  · exact absurd hq (not_removing_of_kind (hkind ▸ hleaf))
  · cases q with
    | nil => exact Or.inl hq
    | cons k q =>
        rcases hq with ⟨rfl, hq⟩ | ⟨item, hfound, hq⟩
        · rcases Assoc.mem_insertKey.mp hq with rfl | hq
          · exact Or.inr ⟨k, rfl, rfl⟩
          · exact Or.inl (Or.inl ⟨rfl, hq⟩)
        · exact Or.inl (Or.inr ⟨item, (Assoc.of_find?_erase hfound).2, hq⟩)

/-- What is to be removed after an edit was to be removed before, or is what the edit removes. -/
theorem removing_edit (hq : Removing q (Item.edit path edit i).2) :
    Removing q i ∨
      (Item.edit path edit i).1 = .ok () ∧ ∃ key, edit = .remove key ∧ q = path ++ [key] := by
  induction path generalizing i q with
  | nil =>
      unfold Item.edit at hq ⊢
      cases h : editHere edit i with
      | error err =>
          rw [h] at hq
          exact Or.inl hq
      | ok i' =>
          rw [h] at hq
          exact (removing_editHere h hq).imp_right fun hkey ↦ ⟨rfl, hkey⟩
  | cons key path ih =>
      cases i with
      | map entries removes =>
          cases q with
          | nil => exact Or.inl hq
          | cons k q =>
              rcases hq with ⟨rfl, hq⟩ | ⟨item, hfound, hq⟩
              · exact Or.inl (Or.inl ⟨rfl, List.mem_of_mem_filter hq⟩)
              · rcases Assoc.of_find?_insert hfound with ⟨rfl, rfl⟩ | ⟨-, hfound⟩
                · rcases ih hq with hq | ⟨hok, removed, hremove, hpath⟩
                  · left
                    cases hchild : Assoc.find? k entries with
                    | none =>
                        rw [hchild] at hq
                        exact absurd hq (not_removing_empty k.kind)
                    | some child =>
                        rw [hchild] at hq
                        exact Or.inr ⟨child, hchild, hq⟩
                  · exact Or.inr ⟨hok, removed, hremove, congrArg (List.cons k) hpath⟩
                · exact Or.inl (Or.inr ⟨item, hfound, hq⟩)
      | _ => exact Or.inl hq

end Item

namespace Mirrors

variable {i i' : Item} {e : StoredEntry} {change : Edit}

theorem snapshot_eq (h : Mirrors i e) : i.snapshot = e.snapshot i.kind := by
  cases h with
  | leaf _ h => exact h
  | map =>
      cases e
      rfl

section Entries

variable {entries : List (ItemKey × Item)} {removes : List ItemKey} {key : ItemKey}

/-- An entry that is about to be removed is no longer seen. -/
theorem erase (h : Mirrors (.map entries removes) e) (key : ItemKey) :
    Mirrors (.map (Assoc.erase key entries) (Assoc.insertKey key removes)) e := by
  cases h with
  | leaf hleaf _ => exact absurd rfl hleaf
  | map ordered kinds held missing absent =>
      refine .map (ordered.erase key) ?_ ?_ ?_ ?_
      · intro k item hfound
        exact kinds k item (Assoc.of_find?_erase hfound).2
      · intro k item hfound
        exact held k item (Assoc.of_find?_erase hfound).2
      · intro k hnone hkeep
        rw [Assoc.mem_insertKey, not_or] at hkeep
        rw [Assoc.find?_erase_ne hkeep.1] at hnone
        exact missing k hnone hkeep.2
      · intro k hk
        by_cases hsame : k = key
        · subst hsame
          exact Assoc.find?_erase_self k entries
        · rw [Assoc.find?_erase_ne hsame]
          exact absent k ((Assoc.mem_insertKey.mp hk).resolve_left hsame)

/-- What an edit starts from below a key, which is empty if the key is new. -/
theorem child (h : Mirrors (.map entries removes) e) (hkey : key ∉ removes) :
    ((Assoc.find? key entries).getD (.empty key.kind)).kind = key.kind ∧
      Mirrors ((Assoc.find? key entries).getD (.empty key.kind))
        ((lookup key e.entries).getD (blank key.field)) := by
  cases h with
  | leaf hleaf _ => exact absurd rfl hleaf
  | map ordered kinds held missing absent =>
      cases hfound : Assoc.find? key entries with
      | none =>
          rw [missing key hfound hkey]
          exact ⟨kind_empty key.kind, mirrors_empty key.kind key.field⟩
      | some item => exact ⟨kinds key item hfound, held key item hfound⟩

theorem insert (h : Mirrors (.map entries removes) e) {item : Item} (hkind : item.kind = key.kind)
    (hitem : Mirrors item ((lookup key e.entries).getD (blank key.field))) :
    Mirrors (.map (Assoc.insert key item entries) (removes.filter (· ≠ key))) e := by
  cases h with
  | leaf hleaf _ => exact absurd rfl hleaf
  | map ordered kinds held missing absent =>
      refine .map (ordered.insert key item) ?_ ?_ ?_ ?_
      · intro k item' hfound
        rcases Assoc.of_find?_insert hfound with ⟨rfl, rfl⟩ | ⟨-, hfound⟩
        · exact hkind
        · exact kinds k item' hfound
      · intro k item' hfound
        rcases Assoc.of_find?_insert hfound with ⟨rfl, rfl⟩ | ⟨-, hfound⟩
        · exact hitem
        · exact held k item' hfound
      · intro k hnone hkeep
        by_cases hk : k = key
        · subst hk
          rw [Assoc.find?_insert_self] at hnone
          cases hnone
        · rw [Assoc.find?_insert_ne (Ne.symm hk)] at hnone
          refine missing k hnone fun hmem ↦ hkeep ?_
          exact List.mem_filter.mpr ⟨hmem, decide_eq_true hk⟩
      · intro k hk
        obtain ⟨hmem, hne⟩ := List.mem_filter.mp hk
        rw [Assoc.find?_insert_ne (Ne.symm (of_decide_eq_true hne))]
        exact absent k hmem

end Entries

theorem editHere (h : Mirrors i e) (hedit : Item.editHere change i = .ok i') : Mirrors i' e := by
  rcases Item.editHere_cases hedit with
    rfl | ⟨hleaf, hkind, hsnapshot⟩ | ⟨key, entries, removes, -, rfl, rfl⟩
  · exact h
  · rw [← hkind] at hleaf
    apply Mirrors.leaf hleaf
    rw [hsnapshot, hkind]
    exact h.snapshot_eq
  · exact h.erase key

/-- An edit may add whatever is not about to be removed. -/
theorem edit (h : Mirrors i e) {path : List ItemKey}
    (hfresh : ∀ q, q ≠ [] → q <+: path → ¬i.Removing q) : Mirrors (i.edit path change).2 e := by
  induction path generalizing i e with
  | nil =>
      unfold Item.edit
      cases hedit : Item.editHere change i with
      | error err => exact h
      | ok i' => exact h.editHere hedit
  | cons key path ih =>
      cases i with
      | map entries removes =>
          have hadded : key ∉ removes := fun hkey ↦
            hfresh [key] (List.cons_ne_nil _ _) ⟨path, rfl⟩ (Or.inl ⟨rfl, hkey⟩)
          have hbelow : ∀ q, q ≠ [] → q <+: path →
              ¬((Assoc.find? key entries).getD (.empty key.kind)).Removing q := by
            intro q hq hprefix hremoving
            cases hfound : Assoc.find? key entries with
            | none =>
                rw [hfound] at hremoving
                exact Item.not_removing_empty key.kind hremoving
            | some item =>
                rw [hfound] at hremoving
                refine hfresh (key :: q) (List.cons_ne_nil _ _) ?_ (Or.inr ⟨item, hfound, hremoving⟩)
                exact List.cons_prefix_cons.mpr ⟨rfl, hprefix⟩
          obtain ⟨hkind, hchild⟩ := h.child hadded
          exact h.insert ((Item.kind_edit path change _).trans hkind) (ih hchild hbelow)
      | _ => exact h

end Mirrors

/-! ## Seeing the same -/

theorem readAt_blank (kind : ItemKind) (path : List ItemKey) (field : Bytes × Int32) :
    (blank field).readAt kind path = .empty (endKind kind path) := by
  cases path with
  | nil => cases kind <;> rfl
  | cons key path => cases kind <;> rfl

namespace Mirrors

variable {i : Item} {e : StoredEntry}

/-- Whatever the store holds is there locally, and every path reads the same, unless something is
about to be removed. -/
theorem readAt_eq (h : Mirrors i e) (hclean : ∀ q, ¬i.Removing q) (path : List ItemKey) :
    i.readAt path = e.readAt i.kind path ∧
      ((e.fetch? i.kind path).isSome → (i.fetch? path).isSome) := by
  induction path generalizing i e with
  | nil => exact ⟨h.snapshot_eq, fun _ ↦ rfl⟩
  | cons key path ih =>
      cases h with
      | leaf hkind _ =>
          cases i with
          | map entries removes => exact absurd rfl hkind
          | _ => exact ⟨rfl, nofun⟩
      | @map entries removes e ordered kinds held missing absent =>
          have hkept : key ∉ removes := fun hkey ↦ hclean [key] (Or.inl ⟨rfl, hkey⟩)
          cases hfound : Assoc.find? key entries with
          | none =>
              have hnone := missing key hfound hkept
              simp only [Item.readAt, StoredEntry.readAt, Item.fetch?, StoredEntry.fetch?,
                Item.kind, hfound, hnone, Option.bind_none]
              exact ⟨rfl, nofun⟩
          | some item =>
              have hbelow : ∀ q, ¬item.Removing q := fun q hq ↦
                hclean (key :: q) (Or.inr ⟨item, hfound, hq⟩)
              have hkind := kinds key item hfound
              obtain ⟨hread, hpresent⟩ := ih (held key item hfound) hbelow
              rw [hkind] at hread hpresent
              have hlocal : (Item.map entries removes).readAt (key :: path) = item.readAt path := by
                simp only [Item.readAt, Item.fetch?, hfound, Option.bind_some, endKind, hkind]
              rw [hlocal, hread]
              cases hlookup : lookup key e.entries with
              | none =>
                  rw [Option.getD_none, readAt_blank]
                  simp only [StoredEntry.readAt, StoredEntry.fetch?, Item.kind, hlookup,
                    Option.bind_none]
                  exact ⟨rfl, nofun⟩
              | some e' =>
                  simp only [StoredEntry.readAt, StoredEntry.fetch?, Item.kind, Item.fetch?,
                    hlookup, hfound, Option.bind_some, Option.getD_some] at hpresent ⊢
                  exact ⟨rfl, hpresent⟩

end Mirrors
end DataType
end ReplicaClient
