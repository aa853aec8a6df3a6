import ReplicaClient.Proofs.DataType.Kempt
import ReplicaClient.Proofs.DataType.Tracking

/-!
# Pending edits and commits

A value is edited and committed in any order.  An entry adds nothing to the operation of its map as
long as nothing is pending at it or below it, and a commit leaves nothing pending anywhere.
-/

namespace ReplicaClient
namespace DataType

/-- The updates of entries, if the operation is on a map. -/
def Op.updates : Op → List (ItemKey × Op)
  | map _ updates => updates
  | _ => []

/-- The operation of a value that has not been edited. -/
def Kind.nothing : Kind → Op
  | counter => .counter 0
  | set => .set [] []
  | map => .map [] []

namespace Item

/-! ## Turns -/

/-- An edit of what a path leads to, or a commit of everything. -/
inductive Turn where
  | edit (path : List ItemKey) (change : Edit)
  | commit

def turn (i : Item) : Turn → Item
  | .edit path change => (i.edit path change).2
  | .commit => i.commit

def play (i : Item) (turns : List Turn) : Item :=
  turns.foldl turn i

variable {i item : Item} {path : List ItemKey} {key : ItemKey} {op : Op}
  {entries : List (ItemKey × Item)} {removes : List ItemKey}

/-- What edits and commits keep holds after any number of them. -/
theorem play_induction {P : Item → Prop}
    (hedit : ∀ i path change, P i → P (i.edit path change).2) (hcommit : ∀ i, P i → P i.commit)
    (h : P i) (turns : List Turn) : P (i.play turns) := by
  induction turns generalizing i with
  | nil => exact h
  | cons t turns ih =>
      cases t with
      | edit path change => exact ih (hedit i path change h)
      | commit => exact ih (hcommit i h)

theorem kind_play (i : Item) (turns : List Turn) : (i.play turns).kind = i.kind := by
  refine play_induction (P := fun j ↦ j.kind = i.kind) ?_ ?_ rfl turns
  · exact fun j path change h ↦ (kind_edit path change j).trans h
  · exact fun j h ↦ j.kind_commit.trans h

namespace Kempt

theorem commit (h : Kempt i) : Kempt i.commit := by
  induction h with
  | @leaf i hkind => exact .leaf (i.kind_commit ▸ hkind)
  | @map entries removes ordered kinds below absent ih =>
      have hentry (key : ItemKey) (item' : Item)
          (hfound : Assoc.find? key (commitEntries entries) = some item') :
          ∃ item, Assoc.find? key entries = some item ∧ item.commit = item' := by
        rw [find?_commitEntries] at hfound
        exact Option.map_eq_some_iff.mp hfound
      rw [Item.commit]
      refine .map ?_ ?_ ?_ nofun
      · rw [Assoc.Ordered, keys_commitEntries]
        exact ordered
      · intro key item' hfound
        obtain ⟨item, hitem, rfl⟩ := hentry key item' hfound
        exact item.kind_commit.trans (kinds key item hitem)
      · intro key item' hfound
        obtain ⟨item, hitem, rfl⟩ := hentry key item' hfound
        exact ih key item hitem

theorem play (h : Kempt i) (turns : List Turn) : Kempt (i.play turns) :=
  play_induction (fun _ path change h ↦ h.edit path change) (fun _ h ↦ h.commit) h turns

theorem of_fetch? (h : Kempt i) (hitem : i.fetch? path = some item) : Kempt item := by
  induction path generalizing i with
  | nil =>
      cases hitem
      exact h
  | cons key path ih =>
      obtain ⟨entries, removes, child, rfl, hchild, hitem⟩ := fetch?_cons_eq_some.mp hitem
      exact ih (h.child hchild).2 hitem

end Kempt

/-! ## What is pending -/

/-- Nothing is pending at the value itself; a map may still have entries with pending edits. -/
def Still : Item → Prop
  | counter c => c.pending = 0
  | set s => s.adds = [] ∧ s.removes = []
  | register r => r.update = none
  | flag f => f.update = none
  | map _ removes => removes = []

theorem still_of_quiet (h : i.pending? = none) : i.Still := by
  cases i with
  | map entries removes => exact (pending?_map_eq_none.mp h).2
  | _ => simpa [pending?, Still] using h

theorem quiet_of_still (hkind : i.kind ≠ .map) (h : i.Still) : i.pending? = none := by
  cases i with
  | map entries removes => exact absurd rfl hkind
  | _ => simpa [pending?, Still] using h

/-- An update is the operation of the entry under its key. -/
theorem mem_pendingEntries (h : (entries.map Prod.fst).Nodup) :
    (key, op) ∈ pendingEntries entries ↔
      ∃ item, Assoc.find? key entries = some item ∧ item.pending? = some op := by
  rw [← Option.bind_eq_some_iff, ← find?_pendingEntries h]
  exact ⟨Assoc.find?_of_mem (h.sublist (keys_pendingEntries entries)), Assoc.mem_of_find?⟩

/-- No operation comes from a value if and only if nothing is pending at it and below it. -/
theorem Kempt.pending?_eq_none_iff (h : Kempt i) :
    i.pending? = none ↔ ∀ path item, i.fetch? path = some item → item.Still := by
  constructor
  · intro hnone path item hitem
    exact still_of_quiet (pending?_of_fetch? hnone hitem)
  · intro hstill
    induction h with
    | leaf hkind => exact quiet_of_still hkind (hstill [] _ rfl)
    | @map entries removes ordered kinds below absent ih =>
        refine pending?_map_eq_none.mpr ⟨?_, hstill [] _ rfl⟩
        rintro ⟨key, item⟩ hmem
        have hfound := Assoc.find?_of_mem ordered.nodup hmem
        refine ih key item hfound fun path sub hsub ↦ hstill (key :: path) sub ?_
        exact fetch?_cons_eq_some.mpr ⟨entries, removes, item, rfl, hfound, hsub⟩

theorem Kempt.contributes_nothing_iff (h : Kempt (.map entries removes))
    (hfound : Assoc.find? key entries = some item) :
    (∀ op, (key, op) ∉ (Item.map entries removes).toOp.updates) ↔
      ∀ path sub, item.fetch? path = some sub → sub.Still := by
  rw [← (h.child hfound).2.pending?_eq_none_iff, Option.eq_none_iff_forall_ne_some]
  have hupdates : (Item.map entries removes).toOp.updates = pendingEntries entries := by
    rw [toOp, Op.updates]
  rw [hupdates]
  constructor
  · intro hnone op hop
    exact hnone op ((mem_pendingEntries h.nodup).mpr ⟨item, hfound, hop⟩)
  · intro hnone op hmem
    obtain ⟨item', hfound', hop⟩ := (mem_pendingEntries h.nodup).mp hmem
    cases hfound.symm.trans hfound'
    exact hnone op hop

/-! ## After a commit -/

mutual

theorem pending?_commit : ∀ i : Item, i.commit.pending? = none
  | counter c => by
      rw [commit, pending?]
      exact if_pos rfl
  | set s => by
      rw [commit, pending?]
      exact if_pos ⟨rfl, rfl⟩
  | register r => rfl
  | flag f => by
      obtain ⟨value, update⟩ := f
      cases update <;> rfl
  | map entries removes => by
      rw [commit, pending?, pendingEntries_commitEntries entries]
      rfl

theorem pendingEntries_commitEntries :
    ∀ entries : List (ItemKey × Item), pendingEntries (commitEntries entries) = []
  | [] => by rw [commitEntries, pendingEntries]
  | (key, item) :: rest => by
      rw [commitEntries, pendingEntries, pending?_commit item]
      exact pendingEntries_commitEntries rest

end

theorem toOp_of_quiet {kind : Kind} (hkind : i.kind = kind.itemKind) (h : i.pending? = none) :
    i.toOp = kind.nothing := by
  cases i with
  | counter c =>
      cases kind with
      | counter => exact congrArg Op.counter (still_of_quiet h)
      | _ => cases hkind
  | set s =>
      cases kind with
      | set =>
          obtain ⟨hadds, hremoves⟩ := still_of_quiet h
          exact congr (congrArg Op.set hadds) hremoves
      | _ => cases hkind
  | map entries removes =>
      cases kind with
      | map =>
          obtain ⟨hentries, hremoves⟩ := pending?_map_eq_none.mp h
          exact congr (congrArg Op.map hremoves) (pendingEntries_eq_nil.mpr hentries)
      | _ => cases hkind
  | _ => cases kind <;> cases hkind

/-- The keys of the map at a path, if the path leads to one. -/
def keysAt? (path : List ItemKey) (i : Item) : Option (List ItemKey) :=
  match i.fetch? path with
  | some (map entries _) => some (entries.map Prod.fst)
  | _ => none

theorem keysAt?_commit (path : List ItemKey) (i : Item) :
    i.commit.keysAt? path = i.keysAt? path := by
  rw [keysAt?, keysAt?, fetch?_commit]
  cases i.fetch? path with
  | none => rfl
  | some item =>
      cases item with
      | map entries removes =>
          rw [Option.map_some, commit]
          exact congrArg some (keys_commitEntries entries)
      | _ => rfl

/-- A commit leaves no edit to be sent, nothing for another commit and the keys of all maps.  Before it
and after it, an entry adds no update to the operation of its map exactly if nothing is pending at the
entry and below it. -/
theorem commit_settles (kind : Kind) (v : Stored) (turns : List Turn) :
    let i := (ofStored kind v).play turns
    i.commit.toOp = kind.nothing ∧ i.commit.commit = i.commit ∧
      (∀ j, j = i ∨ j = i.commit → ∀ path entries removes key item,
        j.fetch? path = some (map entries removes) → Assoc.find? key entries = some item →
          ((∀ op, (key, op) ∉ (map entries removes).toOp.updates) ↔
            ∀ below sub, item.fetch? below = some sub → sub.Still)) ∧
      ∀ path, i.commit.keysAt? path = i.keysAt? path := by
  intro i
  have hkempt : i.Kempt := (pristine_ofStored kind v).1.play turns
  have hkind : i.commit.kind = kind.itemKind :=
    i.kind_commit.trans ((kind_play _ turns).trans (kind_ofStored kind v))
  have hquiet := pending?_commit i
  refine ⟨toOp_of_quiet hkind hquiet, commit_of_quiet _ hquiet, ?_, fun path ↦ keysAt?_commit path i⟩
  rintro j hj path entries removes key item hmap hfound
  have hj : j.Kempt := by
    rcases hj with rfl | rfl
    · exact hkempt
    · exact hkempt.commit
  exact (hj.of_fetch? hmap).contributes_nothing_iff hfound

/-- A set that is made and committed, and a flag beside it that is lowered and pending. -/
theorem commit_settles_profile :
    let i := (ofStored .map Tandem.profile).play [
      .edit [⟨"m", .map⟩, ⟨"s", .set⟩] (.insert [1]), .commit,
      .edit [⟨"m", .map⟩, ⟨"f", .flag⟩] .disable]
    ∃ entries removes item, i.fetch? [] = some (map entries removes) ∧
      Assoc.find? ⟨"m", .map⟩ entries = some item ∧
      item.fetch? [⟨"f", .flag⟩] = some (flag ⟨true, some .disable⟩) ∧
      (¬∀ op, (⟨"m", .map⟩, op) ∉ (map entries removes).toOp.updates) ∧
      i.commit.toOp = .map [] [] := by
  intro i
  obtain ⟨hnothing, -, hadds, -⟩ := commit_settles .map Tandem.profile [
    .edit [⟨"m", .map⟩, ⟨"s", .set⟩] (.insert [1]), .commit,
    .edit [⟨"m", .map⟩, ⟨"f", .flag⟩] .disable]
  refine ⟨_, _, _, rfl, rfl, rfl, ?_, hnothing⟩
  rw [hadds i (Or.inl rfl) [] _ _ ⟨"m", .map⟩ _ rfl rfl]
  intro hstill
  cases hstill [⟨"f", .flag⟩] _ rfl

end Item
end DataType
end ReplicaClient
