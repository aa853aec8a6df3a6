import ReplicaClient.Proofs.DataType.Members
import ReplicaClient.Proofs.DataType.Tracking

/-!
# Entries that come back

An entry that was removed and is added again is empty here, and its pending removal is called off,
so the store still holds what it held.  The two agree wherever this is about to be removed or
replaced, or was empty all along.
-/

namespace ReplicaClient
namespace DataType

open StoredEntry

/-! ## What an operation leaves over -/

namespace StoredEntry

def members : StoredEntry → List Bytes
  | mk _ _ _ members _ _ _ => members

/-- The entry after an operation, if there was one to be sent for it. -/
def afterOp : Option Op → StoredEntry → StoredEntry
  | none, e => e
  | some op, e => op.apply e

/-- Nothing is left to be seen of an entry itself but what the operation makes of an empty one: it
was empty, or a new value takes its place, or all members that it keeps are added anyway. -/
def Yields : Option Op → ItemKind → StoredEntry → Prop
  | some (.set adds removes), _, e =>
      (e.members.removeAll removes).Nodup ∧ ∀ m ∈ e.members.removeAll removes, m ∈ adds
  | some (.register _), _, _ | some (.flag _), _, _ => True
  | _, kind, e => e.snapshot kind = .empty kind

theorem snapshot_blank (kind : ItemKind) (field : Bytes × Int32) :
    (blank field).snapshot kind = .empty kind := by
  cases kind <;> rfl

theorem yields_blank (op : Option Op) (kind : ItemKind) (field : Bytes × Int32) :
    Yields op kind (blank field) := by
  have hempty := snapshot_blank kind field
  cases op with
  | none => exact hempty
  | some op =>
      cases op with
      | set adds removes => exact ⟨List.nodup_nil, nofun⟩
      | register b => trivial
      | flag b => trivial
      | _ => exact hempty

/-- An entry below a map is read from what the map holds under its key. -/
theorem readAt_map_cons (key : ItemKey) (path : List ItemKey) (e : StoredEntry) :
    e.readAt .map (key :: path) =
      ((lookup key e.entries).getD (blank key.field)).readAt key.kind path := by
  cases hfound : lookup key e.entries with
  | none =>
      rw [Option.getD_none, readAt_blank]
      simp [StoredEntry.readAt, StoredEntry.fetch?, hfound, endKind]
  | some e' => simp [StoredEntry.readAt, StoredEntry.fetch?, hfound, endKind]

end StoredEntry

namespace Item

variable {i item : Item} {entries : List (ItemKey × Item)} {removes : List ItemKey}
  {key : ItemKey} {e : StoredEntry}

/-- What the store holds under a key after the operation of the pending edits. -/
theorem lookup_afterOp (hnodup : (entries.map Prod.fst).Nodup) (removes : List ItemKey)
    (key : ItemKey) (e : StoredEntry) :
    lookup key (afterOp (map entries removes).pending? e).entries =
      match (Assoc.find? key entries).bind pending? with
      | none => if key ∈ removes then none else lookup key e.entries
      | some op => some (op.apply
          ((if key ∈ removes then none else lookup key e.entries).getD (blank key.field))) := by
  cases hpending : (map entries removes).pending? with
  | some op =>
      rw [← toOp_of_pending hpending]
      exact Mirrors.lookup_apply hnodup removes key e
  | none =>
      obtain ⟨hquiet, rfl⟩ := pending?_map_eq_none.mp hpending
      have hnone : (Assoc.find? key entries).bind pending? = none := by
        cases hfound : Assoc.find? key entries with
        | none => rfl
        | some child => exact hquiet _ (Assoc.mem_of_find? hfound)
      simp [hnone, afterOp]

/-- After the edits have been committed and the operation has been applied, the same is read. -/
def Agrees (i : Item) (e : StoredEntry) (path : List ItemKey) : Prop :=
  i.commit.readAt path = (afterOp i.pending? e).readAt i.kind path

theorem readAt_commit_cons (hfound : Assoc.find? key entries = some item)
    (hkind : item.kind = key.kind) (path : List ItemKey) :
    (map entries removes).commit.readAt (key :: path) = item.commit.readAt path := by
  have hcommitted : Assoc.find? key (commitEntries entries) = some item.commit := by
    rw [find?_commitEntries, hfound, Option.map_some]
  simp [Item.readAt, commit, fetch?, hcommitted, endKind, kind_commit, hkind]

/-- Whether an entry of a map agrees is decided by the entry and by what the store holds under its
key. -/
theorem agrees_cons (h : Kempt (map entries removes)) (hfound : Assoc.find? key entries = some item)
    (path : List ItemKey) (e : StoredEntry) :
    Agrees (map entries removes) e (key :: path) ↔
      Agrees item ((lookup key e.entries).getD (blank key.field)) path := by
  obtain ⟨hkind, -⟩ := h.child hfound
  have hkept : key ∉ removes := by
    intro hkey
    rw [h.absent_of_mem hkey] at hfound
    cases hfound
  have hstored : (afterOp (map entries removes).pending? e).readAt .map (key :: path) =
      (afterOp item.pending? ((lookup key e.entries).getD (blank key.field))).readAt key.kind
        path := by
    rw [readAt_map_cons, lookup_afterOp h.nodup, hfound, if_neg hkept, Option.bind_some]
    cases item.pending? <;> rfl
  unfold Agrees
  rw [readAt_commit_cons hfound hkind, hkind]
  exact Eq.congr_right hstored

end Item

theorem Mirrors.kempt {i : Item} {e : StoredEntry} (h : Mirrors i e) : i.Kempt := by
  induction h with
  | leaf hkind _ => exact .leaf hkind
  | map ordered kinds _ _ absent ih => exact .map ordered kinds ih absent

namespace Item

variable {i item : Item} {entries : List (ItemKey × Item)} {removes : List ItemKey}
  {key : ItemKey} {e : StoredEntry}

/-! ## Entries that begin empty -/

/-- The operation of a set that began empty gives it the same members in the store if those that the
store keeps are different from each other and among those that are added. -/
theorem perm_changeMembers_iff (adds removes ms : List Bytes) :
    (adds.foldl pushNew []).Perm (changeMembers adds removes ms) ↔
      (ms.removeAll removes).Nodup ∧ ∀ m ∈ ms.removeAll removes, m ∈ adds := by
  have hsorted : (changeMembers adds removes ms).Perm
      (ms.removeAll removes ++ (adds.filter (· ∉ ms.removeAll removes)).eraseDups) := by
    rw [changeMembers, Set.pushNew_eq, foldl_appendNew]
    exact List.mergeSort_perm _ _
  have hlocal : adds.foldl pushNew [] = adds.eraseDups := by
    simp [Set.pushNew_eq, foldl_appendNew]
  generalize ms.removeAll removes = kept at hsorted ⊢
  rw [hlocal, hsorted.congr_right]
  constructor
  · intro hperm
    have hnodup := hperm.nodup_iff.mp (nodup_eraseDups adds)
    refine ⟨(List.nodup_append'.mp hnodup).1, fun m hm ↦ ?_⟩
    exact List.mem_eraseDups.mp (hperm.mem_iff.mpr (List.mem_append_left _ hm))
  · rintro ⟨hnodup, hadded⟩
    have hdisjoint : kept.Disjoint (adds.filter (· ∉ kept)).eraseDups := by
      intro m hm hnew
      simp [List.mem_eraseDups, hm] at hnew
    apply (List.perm_ext_iff_of_nodup (nodup_eraseDups adds)
      (List.nodup_append'.mpr ⟨hnodup, nodup_eraseDups _, hdisjoint⟩)).mpr
    intro m
    have hsplit : m ∈ adds ↔ m ∈ kept ∨ m ∈ adds ∧ m ∉ kept := by
      have := hadded m
      tauto
    simpa [List.mem_eraseDups] using hsplit

theorem snapshot_commit_iff_yields {field : Bytes × Int32} (h : Mirrors item (blank field))
    (e : StoredEntry) :
    item.commit.snapshot = (afterOp item.pending? e).snapshot item.kind ↔
      Yields item.pending? item.kind e := by
  have hempty : item.snapshot = .empty item.kind := by
    rw [h.snapshot_eq, snapshot_blank]
  cases hpending : item.pending? with
  | none =>
      rw [commit_of_quiet item hpending, hempty]
      exact eq_comm
  | some op =>
      obtain ⟨name, number, total, members, value, raised, es⟩ := e
      have hop := toOp_of_pending hpending
      subst hop
      cases item with
      | counter c =>
          have hzero : c.value = 0 := Snapshot.total.inj hempty
          have hfits : c.Fits := by
            unfold Counter.Fits
            rw [hzero, Int64.toInt_zero, Int.zero_add]
            exact ⟨c.pending.minValue_le_toInt, c.pending.toInt_le⟩
          have hvalue : c.commit.value = c.pending := by
            rw [Counter.value_commit hfits, hzero, Int64.zero_add]
          have hlocal : (counter c).commit.snapshot = .total c.pending :=
            congrArg Snapshot.total hvalue
          rw [hlocal]
          simp [toOp, afterOp, Op.apply, StoredEntry.snapshot, Yields, kind, Snapshot.empty]
      | set s =>
          have hnone : s.members = [] := by
            simpa [snapshot, Snapshot.empty, kind] using hempty
          have hlocal : (set s).commit.snapshot =
              .members (s.adds.foldl pushNew [] : List Bytes) := by
            simp [Item.commit, Set.commit, snapshot, hnone]
          rw [hlocal]
          simpa [toOp, afterOp, Op.apply, StoredEntry.snapshot, Yields, kind,
            StoredEntry.members] using perm_changeMembers_iff s.adds s.removes members
      | register r =>
          obtain ⟨b, hb, -⟩ := Option.map_eq_some_iff.mp hpending
          simp [toOp, afterOp, Op.apply, StoredEntry.snapshot, Yields, kind, snapshot, Item.commit,
            Register.commit, hb]
      | flag f =>
          obtain ⟨change, hchange, -⟩ := Option.map_eq_some_iff.mp hpending
          simp [toOp, afterOp, Op.apply, StoredEntry.snapshot, Yields, kind, snapshot, Item.commit,
            Flag.commit, hchange]
      | map entries removes =>
          simp [toOp, afterOp, Op.apply, StoredEntry.snapshot, Yields, kind, snapshot, Item.commit,
            Snapshot.empty]

/-- What the store holds at the path does not show in the end: it is about to be removed, or nothing
of it is left over. -/
def Overruled (i : Item) (path : List ItemKey) (e : StoredEntry) : Prop :=
  (∃ q, q ≠ [] ∧ q <+: path ∧ i.Removing q) ∨
    Yields ((i.fetch? path).bind pending?) (endKind i.kind path) e

theorem overruled_nil : Overruled i [] e ↔ Yields i.pending? i.kind e := by
  constructor
  · rintro (⟨q, hq, hprefix, -⟩ | hyields)
    · exact absurd (List.prefix_nil.mp hprefix) hq
    · exact hyields
  · exact Or.inr

theorem overruled_cons (h : Kempt (map entries removes))
    (hfound : Assoc.find? key entries = some item) {path : List ItemKey} :
    Overruled (map entries removes) (key :: path) e ↔ Overruled item path e := by
  have hkind := (h.child hfound).1
  have hyields : Yields (((map entries removes).fetch? (key :: path)).bind pending?)
      (endKind .map (key :: path)) e ↔
        Yields ((item.fetch? path).bind pending?) (endKind item.kind path) e := by
    simp [fetch?, hfound, endKind, hkind]
  apply or_congr _ hyields
  constructor
  · rintro ⟨q, hq, hprefix, hremoving⟩
    cases q with
    | nil => exact absurd rfl hq
    | cons k q =>
        obtain ⟨rfl, hbelow⟩ := List.cons_prefix_cons.mp hprefix
        rcases hremoving with ⟨-, hmem⟩ | ⟨child, hchild, hremoving⟩
        · rw [h.absent_of_mem hmem] at hfound
          cases hfound
        · cases hchild.symm.trans hfound
          refine ⟨q, ?_, hbelow, hremoving⟩
          rintro rfl
          exact hremoving
  · rintro ⟨q, -, hprefix, hremoving⟩
    refine ⟨key :: q, List.cons_ne_nil _ _, ?_, Or.inr ⟨item, hfound, hremoving⟩⟩
    exact List.cons_prefix_cons.mpr ⟨rfl, hprefix⟩

/-- What the store holds at the path, if anything, decides whether both sides agree there. -/
def Decides (P : StoredEntry → Prop) (i : Item) (path : List ItemKey) : Prop :=
  (∀ field, P (blank field)) ∧
    ∀ e, Agrees i e path ↔ ∀ e', e.fetch? i.kind path = some e' → P e'

theorem fetch?_blank {kind : ItemKind} {field : Bytes × Int32} {path : List ItemKey}
    (h : (blank field).fetch? kind path = some e) : e = blank field := by
  cases path with
  | nil => exact (Option.some.inj h).symm
  | cons key path => cases kind <;> cases h

theorem Decides.cons {P : StoredEntry → Prop} {path : List ItemKey} (hitem : Decides P item path)
    (h : Kempt (map entries removes)) (hfound : Assoc.find? key entries = some item) :
    Decides P (map entries removes) (key :: path) := by
  obtain ⟨hblank, hagrees⟩ := hitem
  refine ⟨hblank, fun e ↦ ?_⟩
  rw [agrees_cons h hfound, hagrees, (h.child hfound).1]
  show _ ↔ ∀ e', (lookup key e.entries).bind (StoredEntry.fetch? key.kind path) = some e' → P e'
  cases lookup key e.entries with
  | some e' => rfl
  | none =>
      constructor
      · intro _ e' he'
        cases he'
      · intro _ e' he'
        rw [fetch?_blank he']
        exact hblank key.field

theorem Decides.append {P : StoredEntry → Prop} {p q : List ItemKey} (hitem : Decides P item q)
    (h : Kempt i) (hfound : i.fetch? p = some item) : Decides P i (p ++ q) := by
  induction p generalizing i with
  | nil =>
      cases hfound
      exact hitem
  | cons key p ih =>
      obtain ⟨entries, removes, child, rfl, hchild, hitem⟩ := fetch?_cons_eq_some.mp hfound
      exact (ih (h.child hchild).2 hitem).cons h hchild

/-- A path where nothing is found here agrees if nothing is to be seen in the store either. -/
theorem readAt_eq_empty_iff (kind : ItemKind) (path : List ItemKey) (e : StoredEntry) :
    .empty (endKind kind path) = e.readAt kind path ↔
      ∀ e', e.fetch? kind path = some e' → Yields none (endKind kind path) e' := by
  unfold StoredEntry.readAt
  cases e.fetch? kind path with
  | none => simp
  | some e' =>
      constructor
      · rintro hempty _ ⟨⟩
        exact hempty.symm
      · intro hyields
        exact (hyields e' rfl).symm

theorem overruled_of_missing (h : Assoc.find? key entries = none) {path : List ItemKey} :
    Overruled (map entries removes) (key :: path) e ↔
      key ∈ removes ∨ Yields none (endKind key.kind path) e := by
  have hyields : Yields (((map entries removes).fetch? (key :: path)).bind pending?)
      (endKind .map (key :: path)) e ↔ Yields none (endKind key.kind path) e := by
    simp [fetch?, h, endKind]
  apply or_congr _ hyields
  constructor
  · rintro ⟨q, hq, hprefix, hremoving⟩
    cases q with
    | nil => exact absurd rfl hq
    | cons k q =>
        obtain ⟨rfl, -⟩ := List.cons_prefix_cons.mp hprefix
        rcases hremoving with ⟨-, hmem⟩ | ⟨child, hchild, -⟩
        · exact hmem
        · cases hchild.symm.trans h
  · intro hmem
    exact ⟨[key], List.cons_ne_nil _ _, ⟨path, rfl⟩, Or.inl ⟨rfl, hmem⟩⟩

/-- What began empty agrees with the store wherever the store's own value does not show in the end.
-/
theorem settled_of_mirrors_blank {field : Bytes × Int32} {path : List ItemKey}
    (h : Mirrors i (blank field)) : Decides (Overruled i path) i path := by
  have hblank (i : Item) (path : List ItemKey) (field : Bytes × Int32) :
      Overruled i path (blank field) := Or.inr (yields_blank _ _ field)
  induction path generalizing i field with
  | nil =>
      refine ⟨hblank i [], fun e ↦ ?_⟩
      have hsame := snapshot_commit_iff_yields h e
      simpa [StoredEntry.fetch?, overruled_nil, Agrees, readAt, StoredEntry.readAt, endKind,
        Item.fetch?] using hsame
  | cons key path ih =>
      refine ⟨hblank i (key :: path), fun e ↦ ?_⟩
      cases h with
      | leaf hleaf _ =>
          cases i with
          | map entries removes => exact absurd rfl hleaf
          | _ =>
              refine ⟨fun _ e' he' ↦ ?_, fun _ ↦ rfl⟩
              cases he'
      | @map entries removes _ ordered kinds held missing absent =>
          have hkempt := (Mirrors.map ordered kinds held missing absent).kempt
          cases hfound : Assoc.find? key entries with
          | some item =>
              rw [((ih (held key item hfound)).cons hkempt hfound).2 e]
              simp only [overruled_cons hkempt hfound]
          | none =>
              have hlocal : (map entries removes).commit.readAt (key :: path) =
                  .empty (endKind key.kind path) := by
                simp [Item.readAt, commit, fetch?, find?_commitEntries, hfound, endKind]
              have hstored : (afterOp (map entries removes).pending? e).readAt .map (key :: path) =
                  if key ∈ removes then .empty (endKind key.kind path)
                  else e.readAt .map (key :: path) := by
                rw [readAt_map_cons, readAt_map_cons, lookup_afterOp hkempt.nodup, hfound]
                by_cases hmem : key ∈ removes <;> simp [hmem, readAt_blank]
              have hagrees : Agrees (map entries removes) e (key :: path) ↔
                  .empty (endKind key.kind path) =
                    (afterOp (map entries removes).pending? e).readAt .map (key :: path) := by
                rw [← hlocal]
                rfl
              rw [hagrees, hstored]
              simp only [overruled_of_missing hfound]
              by_cases hmem : key ∈ removes
              · simp [hmem]
              · simp only [hmem, if_false, false_or]
                exact readAt_eq_empty_iff .map (key :: path) e

end Item

namespace Mirrors

variable {i : Item} {field : Bytes × Int32}

/-- What the store does not hold cannot come back, whatever is removed and added again. -/
theorem edit_blank (h : Mirrors i (blank field)) (path : List ItemKey) (change : Edit) :
    Mirrors (i.edit path change).2 (blank field) := by
  induction path generalizing i field with
  | nil =>
      unfold Item.edit
      cases hedit : Item.editHere change i with
      | error err => exact h
      | ok i' => exact h.editHere hedit
  | cons key path ih =>
      cases i with
      | map entries removes =>
          have hchild : ((Assoc.find? key entries).getD (.empty key.kind)).kind = key.kind ∧
              Mirrors ((Assoc.find? key entries).getD (.empty key.kind)) (blank key.field) := by
            cases hfound : Assoc.find? key entries with
            | none => exact ⟨kind_empty key.kind, mirrors_empty key.kind key.field⟩
            | some item =>
                refine ⟨(h.kempt.child hfound).1, ?_⟩
                cases h with
                | leaf hleaf _ => exact absurd rfl hleaf
                | map _ _ held _ _ => exact held key item hfound
          exact h.insert ((Item.kind_edit path change _).trans hchild.1) (ih hchild.2)
      | _ => exact h

theorem editAll_blank (h : Mirrors i (blank field)) (changes : List Change) :
    Mirrors (i.editAll changes) (blank field) := by
  induction changes generalizing i with
  | nil => exact h
  | cons c changes ih => exact ih (h.edit_blank c.1 c.2)

end Mirrors

/-! ## Entries that are added again -/

namespace Item

variable {i item : Item} {p : List ItemKey} {before after : List Change}

/-- The changes that go down a path, as they are from there on. -/
def under (p : List ItemKey) (changes : List Change) : List Change :=
  (changes.filter (p <+: ·.1)).map fun c ↦ (c.1.drop p.length, c.2)

theorem under_cons_append (p q : List ItemKey) (change : Edit) (changes : List Change) :
    under p ((p ++ q, change) :: changes) = (q, change) :: under p changes := by
  simp [under]

theorem under_cons_beside {c : Change} (h : ¬p <+: c.1) (changes : List Change) :
    under p (c :: changes) = under p changes := by
  simp [under, h]

/-- There is no entry after the earlier changes; the first one of the later changes makes it and
none takes it away. -/
structure Readded (i : Item) (p : List ItemKey) (before after : List Change) : Prop where
  gone : (i.editAll before).fetch? p = none
  again : after ≠ []
  there : ∀ done, done ≠ [] → done <+: after → ((i.editAll (before ++ done)).fetch? p).isSome

/-- The edits of an entry are those that go down to it, as long as it is there. -/
theorem fetch?_editAll (h : i.fetch? p = some item)
    (hthere : ∀ done, done ≠ [] → done <+: after → ((i.editAll done).fetch? p).isSome) :
    (i.editAll after).fetch? p = some (item.editAll (under p after)) := by
  induction after generalizing i item with
  | nil => exact h
  | cons c after ih =>
      have hlater : ∀ done, done ≠ [] → done <+: after →
          (((i.edit c.1 c.2).2.editAll done).fetch? p).isSome := by
        intro done _ hprefix
        exact hthere (c :: done) (List.cons_ne_nil _ _) (List.cons_prefix_cons.mpr ⟨rfl, hprefix⟩)
      obtain ⟨item', hitem'⟩ := Option.isSome_iff_exists.mp
        (hthere [c] (List.cons_ne_nil _ _) ⟨after, rfl⟩)
      have hrest := ih hitem' hlater
      by_cases hdown : p <+: c.1
      · obtain ⟨path, change⟩ := c
        obtain ⟨q, rfl⟩ := hdown
        have hpass := fetch?_edit_append h q change
        cases hitem'.symm.trans hpass
        rw [under_cons_append]
        exact hrest
      · have hsame : item' = item := fetch?_edit_of_not_prefix h hitem' hdown
        rw [under_cons_beside hdown, ← hsame]
        exact hrest

namespace Readded

theorem ne_nil (h : Readded i p before after) : p ≠ [] := by
  rintro rfl
  have hgone := h.gone
  cases hgone

/-- An entry that has been added again shows what has been done to it since, and nothing else. -/
theorem fetch?_editAll (h : Readded i p before after) (kind : ItemKind) :
    (i.editAll (before ++ after)).fetch? p =
      some ((empty (endKind kind p)).editAll (under p after)) := by
  obtain ⟨hgone, hagain, hthere⟩ := h
  cases after with
  | nil => exact absurd rfl hagain
  | cons c after =>
      obtain ⟨item, hitem⟩ := Option.isSome_iff_exists.mp
        (hthere [c] (List.cons_ne_nil _ _) ⟨after, rfl⟩)
      rw [editAll_append] at hitem
      obtain ⟨path, change⟩ := c
      obtain ⟨q, rfl, hmade⟩ := fetch?_edit_of_none kind hgone hitem
      have hlater : ∀ done, done ≠ [] → done <+: after →
          ((((i.editAll before).editAll [(p ++ q, change)]).editAll done).fetch? p).isSome := by
        intro done _ hprefix
        rw [← editAll_append, ← editAll_append]
        exact hthere ((p ++ q, change) :: done) (List.cons_ne_nil _ _)
          (List.cons_prefix_cons.mpr ⟨rfl, hprefix⟩)
      have hrest := Item.fetch?_editAll hitem hlater
      rw [editAll_append, under_cons_append]
      rw [hmade] at hrest
      exact hrest

end Readded

theorem kind_editAll (i : Item) (changes : List Change) : (i.editAll changes).kind = i.kind := by
  induction changes generalizing i with
  | nil => rfl
  | cons c changes ih => exact (ih _).trans (kind_edit c.1 c.2 i)

theorem readAt_toOp (h : i.Kempt) (hkind : i.kind = .map) {path : List ItemKey} (hpath : path ≠ [])
    (e : StoredEntry) :
    (i.toOp.apply e).readAt .map path = (afterOp i.pending? e).readAt .map path := by
  cases i with
  | map entries removes =>
      cases path with
      | nil => exact absurd rfl hpath
      | cons key path =>
          have hlookup := (Mirrors.lookup_apply h.nodup removes key e).trans
            (lookup_afterOp h.nodup removes key e).symm
          rw [readAt_map_cons, readAt_map_cons, hlookup]
  | _ => cases hkind

/-- An entry that is added again after it was removed shows, once it is committed, what has been
done to it since it was empty.  The store shows the same at a path exactly if whatever it held there
when the map was fetched is about to be removed or replaced or was empty. -/
theorem revived_reads_iff (v : Stored) (p : List ItemKey) (before after : List Change)
    (h : Readded (ofStored .map v) p before after) :
    let i := (ofStored .map v).editAll (before ++ after)
    let item := (empty (endKind .map p)).editAll (under p after)
    i.commit.fetch? p = some item.commit ∧
      ∀ q, (i.commit.readAt (p ++ q) = (i.toOp.apply v.toEntry).readAt .map (p ++ q) ↔
        ∀ e, v.toEntry.fetch? .map (p ++ q) = some e → Overruled item q e) := by
  intro i item
  have hfound : i.fetch? p = some item := h.fetch?_editAll .map
  have hkempt : i.Kempt := (pristine_ofStored .map v).1.editAll _
  have hkind : i.kind = .map := (kind_editAll _ _).trans (kind_ofStored .map v)
  have hblank : Mirrors item (blank ([], 0)) := (mirrors_empty _ _).editAll_blank _
  refine ⟨?_, fun q ↦ ?_⟩
  · rw [fetch?_commit, hfound, Option.map_some]
  · have hpath : p ++ q ≠ [] := List.append_ne_nil_of_left_ne_nil h.ne_nil q
    have hsettled : Decides (Overruled item q) item q := settled_of_mirrors_blank hblank
    have hdecides := hsettled.append hkempt hfound
    have hagrees := hdecides.2 v.toEntry
    unfold Agrees at hagrees
    rw [hkind] at hagrees
    rw [readAt_toOp hkempt hkind hpath]
    exact hagrees

def recount : List Change × List Change :=
  ([([], .remove ⟨"a", .counter⟩)], [([⟨"a", .counter⟩], .increment 3)])

theorem readded_recount :
    Readded (ofStored .map Tandem.profile) [⟨"a", .counter⟩] recount.1 recount.2 := by
  refine ⟨rfl, List.cons_ne_nil _ _, fun done hdone hprefix ↦ ?_⟩
  rcases List.prefix_cons_iff.mp hprefix with rfl | ⟨rest, rfl, hrest⟩
  · exact absurd rfl hdone
  · obtain rfl := List.prefix_nil.mp hrest
    rfl

/-- A counter is removed and counted up anew, and the store counts on. -/
theorem revived_reads_iff_recount :
    let i := (ofStored .map Tandem.profile).editAll (recount.1 ++ recount.2)
    i.commit.readAt [⟨"a", .counter⟩] = .total 3 ∧
      i.commit.readAt [⟨"a", .counter⟩] ≠
        (i.toOp.apply Tandem.profile.toEntry).readAt .map [⟨"a", .counter⟩] := by
  intro i
  obtain ⟨-, hreads⟩ := revived_reads_iff Tandem.profile [⟨"a", .counter⟩] _ _ readded_recount
  refine ⟨rfl, fun heq ↦ ?_⟩
  have hoverruled := (hreads []).mp heq _ rfl
  have hkept := Snapshot.total.inj (overruled_nil.mp hoverruled)
  exact absurd hkept (by decide)

end Item
end DataType
end ReplicaClient
