import ReplicaClient.Proofs.DataType.Commit

/-!
# Edits and the entries on their way

An edit goes down a path.  It edits every entry that it passes, makes those that are not there, and
leaves the entries beside the path alone.
-/

namespace ReplicaClient
namespace DataType

/-- An edit and the path to where it takes effect. -/
abbrev Change := List ItemKey × Edit

namespace Item

/-- One edit after the other, whether or not they succeed. -/
def editAll (i : Item) (changes : List Change) : Item :=
  changes.foldl (fun i c ↦ (i.edit c.1 c.2).2) i

theorem editAll_append (i : Item) (before after : List Change) :
    i.editAll (before ++ after) = (i.editAll before).editAll after :=
  List.foldl_append

/-! ## Fetching -/

variable {i item : Item} {p path : List ItemKey} {key k : ItemKey} {change : Edit}

theorem fetch?_empty (kind : ItemKind) (key : ItemKey) (path : List ItemKey) :
    (empty kind).fetch? (key :: path) = none := by
  cases kind <;> rfl

/-- What is found below a key is found in the entry of that key. -/
theorem fetch?_cons_eq_some : i.fetch? (key :: path) = some item ↔
    ∃ entries removes child, i = map entries removes ∧ Assoc.find? key entries = some child ∧
      child.fetch? path = some item := by
  constructor
  · intro h
    cases i with
    | map entries removes =>
        obtain ⟨child, hchild, hitem⟩ := Option.bind_eq_some_iff.mp h
        exact ⟨entries, removes, child, rfl, hchild, hitem⟩
    | _ => cases h
  · rintro ⟨entries, removes, child, rfl, hchild, hitem⟩
    simp [fetch?, hchild, hitem]

/-! ## Edits -/

/-- An edit of an item makes no entries in it. -/
theorem fetch?_of_edit_nil (h : (i.edit [] change).2.fetch? (key :: p) = some item) :
    i.fetch? (key :: p) = some item := by
  unfold Item.edit at h
  cases hedit : editHere change i with
  | error err => simpa [hedit] using h
  | ok i' =>
      simp only [hedit] at h
      obtain ⟨entries, removes, child, rfl, hchild, hitem⟩ := fetch?_cons_eq_some.mp h
      rcases editHere_cases hedit with hsame | ⟨hleaf, hkind, -⟩ | ⟨_, _, _, -, rfl, heq⟩
      · rw [← hsame]
        exact h
      · exact absurd hkind.symm hleaf
      · cases heq
        apply fetch?_cons_eq_some.mpr
        exact ⟨_, _, child, rfl, (Assoc.of_find?_erase hchild).2, hitem⟩

/-- An edit further down concerns only the entry where it goes down. -/
theorem fetch?_of_edit_cons (h : (i.edit (k :: path) change).2.fetch? (key :: p) = some item) :
    i.fetch? (key :: p) = some item ∨
      k = key ∧ ∃ entries removes, i = map entries removes ∧
        (((Assoc.find? key entries).getD (empty key.kind)).edit path change).2.fetch? p =
          some item := by
  cases i with
  | map entries removes =>
      obtain ⟨_, _, child, heq, hchild, hitem⟩ := fetch?_cons_eq_some.mp h
      cases heq
      rcases Assoc.of_find?_insert hchild with ⟨rfl, rfl⟩ | ⟨-, hfound⟩
      · exact Or.inr ⟨rfl, entries, removes, rfl, hitem⟩
      · exact Or.inl (fetch?_cons_eq_some.mpr ⟨_, _, child, rfl, hfound, hitem⟩)
  | _ => exact Or.inl h

/-- An edit that passes an entry edits this entry. -/
theorem fetch?_edit_append (h : i.fetch? p = some item) (q : List ItemKey) (change : Edit) :
    (i.edit (p ++ q) change).2.fetch? p = some (item.edit q change).2 := by
  induction p generalizing i with
  | nil =>
      cases h
      rfl
  | cons key p ih =>
      obtain ⟨entries, removes, child, rfl, hchild, hitem⟩ := fetch?_cons_eq_some.mp h
      apply fetch?_cons_eq_some.mpr
      refine ⟨_, _, _, rfl, Assoc.find?_insert_self key _ entries, ?_⟩
      simpa [hchild] using ih hitem

/-- An entry beside the path of an edit stays as it was, if it stays at all. -/
theorem fetch?_edit_of_not_prefix {item' : Item} (h : i.fetch? p = some item)
    (h' : (i.edit path change).2.fetch? p = some item') (hpath : ¬p <+: path) : item' = item := by
  induction p generalizing i path with
  | nil => exact absurd List.nil_prefix hpath
  | cons key p ih =>
      have hkept (hold : i.fetch? (key :: p) = some item') : item' = item :=
        Option.some.inj (hold.symm.trans h)
      cases path with
      | nil => exact hkept (fetch?_of_edit_nil h')
      | cons k path =>
          rcases fetch?_of_edit_cons h' with hold | ⟨rfl, entries, removes, rfl, hbelow⟩
          · exact hkept hold
          · obtain ⟨_, _, child, heq, hchild, hitem⟩ := fetch?_cons_eq_some.mp h
            cases heq
            rw [hchild] at hbelow
            refine ih hitem hbelow fun hprefix ↦ hpath ?_
            exact List.cons_prefix_cons.mpr ⟨rfl, hprefix⟩

/-- An entry that an edit makes is empty before the rest of the edit takes effect in it. -/
theorem fetch?_edit_of_none (kind : ItemKind) (h : i.fetch? p = none)
    (h' : (i.edit path change).2.fetch? p = some item) :
    ∃ q, path = p ++ q ∧ item = ((empty (endKind kind p)).edit q change).2 := by
  induction p generalizing i path kind with
  | nil => cases h
  | cons key p ih =>
      have hnew : i.fetch? (key :: p) ≠ some item := fun hold ↦ by
        rw [h] at hold
        cases hold
      cases path with
      | nil => exact absurd (fetch?_of_edit_nil h') hnew
      | cons k path =>
          rcases fetch?_of_edit_cons h' with hold | ⟨rfl, entries, removes, rfl, hbelow⟩
          · exact absurd hold hnew
          · cases hchild : Assoc.find? k entries with
            | some child =>
                rw [hchild] at hbelow
                have hnone : child.fetch? p = none := by simpa [fetch?, hchild] using h
                obtain ⟨q, rfl, hitem⟩ := ih k.kind hnone hbelow
                exact ⟨q, rfl, hitem⟩
            | none =>
                rw [hchild] at hbelow
                cases p with
                | nil => exact ⟨path, rfl, (Option.some.inj hbelow).symm⟩
                | cons k' p =>
                    obtain ⟨q, rfl, hitem⟩ := ih k.kind (fetch?_empty _ k' p) hbelow
                    exact ⟨q, rfl, hitem⟩

/-! ## Commits -/

theorem fetch?_commit (i : Item) (path : List ItemKey) :
    i.commit.fetch? path = (i.fetch? path).map commit := by
  induction path generalizing i with
  | nil => rfl
  | cons key path ih =>
      cases i with
      | map entries removes =>
          rw [commit, fetch?, fetch?, find?_commitEntries]
          cases Assoc.find? key entries with
          | none => rfl
          | some child => exact ih child
      | _ => rfl

end Item
end DataType
end ReplicaClient
