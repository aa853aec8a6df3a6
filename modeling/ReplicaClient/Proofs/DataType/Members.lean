import ReplicaClient.Proofs.DataType.Kempt
import ReplicaClient.Proofs.Sequence.Novel

/-!
# The members of an edited set

A set remembers the members that were named to come in apart from those that were named to go, and
not in which order they were named.  When it is committed, whoever was named to come in is in it.
-/

namespace ReplicaClient
namespace DataType

/-! ## Edits of a set -/

inductive SetEdit where
  | insert (member : Bytes)
  | erase (member : Bytes)
  deriving DecidableEq

namespace SetEdit

def member : SetEdit → Bytes
  | insert m => m
  | erase m => m

def toEdit : SetEdit → Edit
  | insert m => .insert m
  | erase m => .erase m

def apply (s : Set) : SetEdit → Set
  | insert m => s.insert m
  | erase m => s.erase m

/-- Those who are named to come in, as often as they are named. -/
def inserted (es : List SetEdit) : List Bytes :=
  es.filterMap fun
    | insert m => some m
    | erase _ => none

def erased (es : List SetEdit) : List Bytes :=
  es.filterMap fun
    | insert _ => none
    | erase m => some m

/-- The last edit that names a member. -/
def last? (es : List SetEdit) (m : Bytes) : Option SetEdit :=
  (es.filter (·.member = m)).getLast?

variable {es : List SetEdit} {m : Bytes}

theorem mem_inserted : m ∈ inserted es ↔ insert m ∈ es := by
  constructor
  · intro h
    obtain ⟨e, he, heq⟩ := List.mem_filterMap.mp h
    cases e with
    | insert m' => cases heq; exact he
    | erase m' => cases heq
  · intro h
    exact List.mem_filterMap.mpr ⟨insert m, h, rfl⟩

theorem mem_erased : m ∈ erased es ↔ erase m ∈ es := by
  constructor
  · intro h
    obtain ⟨e, he, heq⟩ := List.mem_filterMap.mp h
    cases e with
    | insert m' => cases heq
    | erase m' => cases heq; exact he
  · intro h
    exact List.mem_filterMap.mpr ⟨erase m, h, rfl⟩

theorem last?_eq_none : last? es m = none ↔ ∀ e ∈ es, e.member ≠ m := by
  simp [last?]

theorem mem_of_last? {e : SetEdit} (h : last? es m = some e) : e ∈ es ∧ e.member = m := by
  simpa using List.mem_of_getLast? h

end SetEdit

namespace Set

open SetEdit

theorem pushNew_eq : pushNew = appendNew := by
  funext l m
  by_cases h : m ∈ l <;> simp [pushNew, appendNew, h]

theorem foldl_apply (s : Set) (es : List SetEdit) :
    es.foldl SetEdit.apply s = ⟨s.members, (inserted es).foldl appendNew s.adds,
      (erased es).foldl appendNew s.removes⟩ := by
  induction es generalizing s with
  | nil => rfl
  | cons e es ih =>
      rw [List.foldl_cons, ih]
      cases e <;>
        simp [SetEdit.apply, Set.insert, Set.erase, inserted, erased, pushNew_eq]

/-- Each list of a set that had no pending edits holds whoever was named for it, once. -/
theorem foldl_apply_fetched (ms : List Bytes) (es : List SetEdit) :
    es.foldl SetEdit.apply ⟨ms, [], []⟩ =
      ⟨ms, (inserted es).eraseDups, (erased es).eraseDups⟩ := by
  simp [foldl_apply, foldl_appendNew]

/-- The members that no edit names to go. -/
def survivors (ms : List Bytes) (es : List SetEdit) : List Bytes :=
  ms.filter (SetEdit.erase · ∉ es)

/-- Whoever is named to come in and is not there, in the order of the first naming. -/
def newcomers (ms : List Bytes) (es : List SetEdit) : List Bytes :=
  (inserted es).eraseDups.removeAll (survivors ms es)

theorem commit_edited (ms : List Bytes) (es : List SetEdit) :
    (es.foldl SetEdit.apply ⟨ms, [], []⟩).commit =
      ⟨survivors ms es ++ newcomers ms es, [], []⟩ := by
  have hold : ms.filter (· ∉ (erased es).eraseDups) = survivors ms es := by
    apply List.filter_congr
    intro m _
    simp [List.mem_eraseDups, mem_erased]
  have hnew : (inserted es).eraseDups.filter (· ∉ survivors ms es) = newcomers ms es := by
    simp [newcomers, List.removeAll]
  have hnodup : (newcomers ms es).Nodup := (nodup_eraseDups _).filter _
  rw [foldl_apply_fetched, commit, hold, pushNew_eq, foldl_appendNew, hnew,
    eraseDups_of_nodup hnodup]

theorem mem_committed {ms : List Bytes} {es : List SetEdit} {m : Bytes} :
    m ∈ survivors ms es ++ newcomers ms es ↔
      SetEdit.insert m ∈ es ∨ m ∈ ms ∧ SetEdit.erase m ∉ es := by
  have hold : m ∈ survivors ms es ↔ m ∈ ms ∧ SetEdit.erase m ∉ es := by simp [survivors]
  have hnew : m ∈ newcomers ms es ↔ SetEdit.insert m ∈ es ∧ m ∉ survivors ms es := by
    simp [newcomers, List.removeAll, List.mem_eraseDups, mem_inserted]
  rw [List.mem_append, hnew, hold]
  tauto

/-- The last edit that names a member tells whether it is in the set, unless it is to go by the last
one and was to come in by another. -/
theorem mem_committed_iff_last? (ms : List Bytes) (es : List SetEdit) (m : Bytes) :
    (m ∈ survivors ms es ++ newcomers ms es ↔
        last? es m = some (.insert m) ∨ last? es m = none ∧ m ∈ ms) ↔
      ¬(SetEdit.insert m ∈ es ∧ last? es m = some (.erase m)) := by
  rw [mem_committed]
  cases hlast : last? es m with
  | none =>
      have hnone := last?_eq_none.mp hlast
      have hinsert : SetEdit.insert m ∉ es := fun h ↦ hnone _ h rfl
      have herase : SetEdit.erase m ∉ es := fun h ↦ hnone _ h rfl
      simp [hinsert, herase]
  | some e =>
      obtain ⟨hmem, hname⟩ := mem_of_last? hlast
      cases e with
      | insert m' =>
          obtain rfl : m' = m := hname
          simp [hmem]
      | erase m' =>
          obtain rfl : m' = m := hname
          simp [hmem]

/-- Nobody stands in both lists of the operation, unless named both to come in and to go. -/
theorem count_named_le_one_iff (es : List SetEdit) (m : Bytes) :
    ((inserted es).eraseDups ++ (erased es).eraseDups).count m ≤ 1 ↔
      ¬(SetEdit.insert m ∈ es ∧ SetEdit.erase m ∈ es) := by
  have hcount (l : List Bytes) : l.eraseDups.count m = if m ∈ l then 1 else 0 := by
    by_cases h : m ∈ l
    · rw [if_pos h]
      exact List.count_eq_one_of_mem (nodup_eraseDups l) (List.mem_eraseDups.mpr h)
    · rw [if_neg h]
      exact List.count_eq_zero_of_not_mem fun hin ↦ h (List.mem_eraseDups.mp hin)
  rw [List.count_append, hcount, hcount, ← mem_inserted, ← mem_erased]
  by_cases hinsert : m ∈ inserted es <;> by_cases herase : m ∈ erased es <;>
    simp [hinsert, herase]

end Set

/-! ## Sets from the store -/

namespace Item

open ReplicaClient.DataType.Set SetEdit

variable {i : Item} {path : List ItemKey} {s : Set}

theorem eq_fetched_of_quiet (h : (set s).pending? = none) : s = ⟨s.members, [], []⟩ := by
  rw [pending?] at h
  split at h
  · rename_i hnone
    obtain ⟨members, adds, removes⟩ := s
    obtain ⟨rfl, rfl⟩ := hnone
    rfl
  · cases h

theorem fetch?_editAll_set (h : i.fetch? path = some (set s)) (es : List SetEdit) :
    (i.editAll (es.map fun e ↦ (path, e.toEdit))).fetch? path =
      some (set (es.foldl SetEdit.apply s)) := by
  induction es generalizing i s with
  | nil => exact h
  | cons e es ih =>
      have hfirst : (i.edit path e.toEdit).2.fetch? path = some (set (e.apply s)) := by
        have hpass := fetch?_edit_append h [] e.toEdit
        rw [List.append_nil] at hpass
        rw [hpass]
        cases e <;> rfl
      exact ih hfirst

/-- A committed set holds those members that stayed and behind them those that came in, each once
and in the order in which they were named.  A member is in it as its last edit says, and it stands
in at most one list of the operation, unless it was named to come in and was named to go: then it is
in the set even if it was to go last, and stands in both lists. -/
theorem follows_last_iff (kind : Kind) (v : Stored) (path : List ItemKey) (s : Set)
    (h : (ofStored kind v).fetch? path = some (set s)) (es : List SetEdit) :
    ∃ item adds removes members,
      ((ofStored kind v).editAll (es.map fun e ↦ (path, e.toEdit))).fetch? path = some item ∧
      item.toOp = .set adds removes ∧
      ((ofStored kind v).editAll (es.map fun e ↦ (path, e.toEdit))).commit.fetch? path =
        some (set ⟨members, [], []⟩) ∧
      members = survivors s.members es ++ newcomers s.members es ∧
      ∀ m, ((m ∈ members ↔ last? es m = some (.insert m) ∨ last? es m = none ∧ m ∈ s.members) ↔
          ¬(SetEdit.insert m ∈ es ∧ last? es m = some (.erase m))) ∧
        ((adds ++ removes).count m ≤ 1 ↔ ¬(SetEdit.insert m ∈ es ∧ SetEdit.erase m ∈ es)) := by
  have hs : s = ⟨s.members, [], []⟩ :=
    eq_fetched_of_quiet (pending?_of_fetch? (pristine_ofStored kind v).2 h)
  have hedited := fetch?_editAll_set h es
  have hcommitted : (set (es.foldl SetEdit.apply s)).commit =
      set ⟨survivors s.members es ++ newcomers s.members es, [], []⟩ := by
    rw [commit, hs, commit_edited]
  refine ⟨_, (inserted es).eraseDups, (erased es).eraseDups, _, hedited, ?_, ?_, rfl, ?_⟩
  · rw [toOp, hs, foldl_apply_fetched]
  · rw [fetch?_commit, hedited, Option.map_some, hcommitted]
  · intro m
    exact ⟨mem_committed_iff_last? s.members es m, count_named_le_one_iff es m⟩

/-- A member comes in and is to go again, and it is in the set. -/
theorem follows_last_iff_recalled :
    let v : Stored := { members := [[1], [2]] }
    let es : List SetEdit := [.insert [3], .erase [1], .erase [3]]
    (ofStored .set v).fetch? [] = some (set ⟨[[1], [2]], [], []⟩) ∧
      last? es [3] = some (.erase [3]) ∧
      ((ofStored .set v).editAll (es.map fun e ↦ ([], e.toEdit))).commit.fetch? [] =
        some (set ⟨[[2], [3]], [], []⟩) := by
  intro v es
  obtain ⟨item, adds, removes, members, -, -, hcommit, hmembers, -⟩ :=
    follows_last_iff .set v [] ⟨[[1], [2]], [], []⟩ rfl es
  refine ⟨rfl, by decide, ?_⟩
  have hlist : members = [[2], [3]] := hmembers.trans (by decide)
  rw [hcommit, hlist]

end Item
end DataType
end ReplicaClient
