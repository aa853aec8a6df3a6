import Mathlib.Data.Multiset.Defs
import ReplicaClient.DataType.Item
import ReplicaClient.Proofs.DataType.Ordered
import ReplicaClient.Proofs.Text.Utf8

/-!
# A store of convergent data

The reference store keeps data in the form in which it sends them and applies operations to them.
An entry of a map is known by its field, the octets of its name together with the number of its
kind; what an operation finds no entry for begins blank.
-/

namespace ReplicaClient
namespace DataType

def ItemKey.field (key : ItemKey) : Bytes × Int32 :=
  (Utf8.encode key.name, key.kind.number)

theorem ItemKey.field_injective {key other : ItemKey} (h : key.field = other.field) :
    key = other := by
  obtain ⟨hname, hkind⟩ := Prod.mk.inj h
  cases key
  cases other
  exact congr (congrArg ItemKey.mk (Utf8.encode_injective hname))
    (ItemKind.number_injective hkind)

namespace StoredEntry

def field : StoredEntry → Bytes × Int32
  | mk name number _ _ _ _ _ => (name, number)

def entries : StoredEntry → List StoredEntry
  | mk _ _ _ _ _ _ entries => entries

def blank (field : Bytes × Int32) : StoredEntry :=
  mk field.1 field.2 none [] none none []

def lookup (key : ItemKey) (es : List StoredEntry) : Option StoredEntry :=
  es.find? (·.field = key.field)

/-- Changes the entry of a key, which is made if there is none. -/
def alter (key : ItemKey) (f : StoredEntry → StoredEntry) : List StoredEntry → List StoredEntry
  | [] => [f (blank key.field)]
  | e :: es => if e.field = key.field then f e :: es else e :: alter key f es

def dropKeys (removes : List ItemKey) (es : List StoredEntry) : List StoredEntry :=
  es.filter (·.field ∉ removes.map ItemKey.field)

end StoredEntry

/-! ## Operations -/

/-- What is added goes behind the members that stay, and all are put in the order of their octets. -/
def changeMembers (adds removes members : List Bytes) : List Bytes :=
  (adds.foldl pushNew (members.removeAll removes)).mergeSort (· ≤ ·)

open StoredEntry

mutual

/-- What the store makes of an entry. -/
def Op.apply : Op → StoredEntry → StoredEntry
  | .counter n, .mk name number total members value raised entries =>
      .mk name number (some (total.getD 0 + n)) members value raised entries
  | .set adds removes, .mk name number total members value raised entries =>
      .mk name number total (changeMembers adds removes members) value raised entries
  | .register b, .mk name number total members _ raised entries =>
      .mk name number total members (some b) raised entries
  | .flag op, .mk name number total members value _ entries =>
      .mk name number total members value (some (op = .enable)) entries
  | .map removes updates, .mk name number total members value raised entries =>
      .mk name number total members value raised
        (Op.applyAll updates (dropKeys removes entries))

def Op.applyAll : List (ItemKey × Op) → List StoredEntry → List StoredEntry
  | [], es => es
  | (key, op) :: rest, es => Op.applyAll rest (alter key (fun e ↦ op.apply e) es)

end

theorem Op.field_apply (op : Op) (e : StoredEntry) : (op.apply e).field = e.field := by
  cases e
  cases op <;> rw [Op.apply] <;> rfl

namespace StoredEntry

variable {key other : ItemKey} {f : StoredEntry → StoredEntry} {es : List StoredEntry}

theorem lookup_cons (key : ItemKey) (e : StoredEntry) (es : List StoredEntry) :
    lookup key (e :: es) = if e.field = key.field then some e else lookup key es := by
  unfold lookup
  rw [List.find?_cons]
  split
  next h => rw [if_pos (of_decide_eq_true h)]
  next h => rw [if_neg (of_decide_eq_false h)]

theorem of_lookup {e : StoredEntry} (h : lookup key es = some e) :
    e ∈ es ∧ e.field = key.field := by
  have hfield := List.find?_some h
  exact ⟨List.mem_of_find?_eq_some h, of_decide_eq_true hfield⟩

theorem lookup_alter_self (hf : ∀ e, (f e).field = e.field) (es : List StoredEntry) :
    lookup key (alter key f es) = some (f ((lookup key es).getD (blank key.field))) := by
  induction es with
  | nil =>
      have hnew : (f (blank key.field)).field = key.field := hf _
      rw [alter, lookup_cons, if_pos hnew]
      rfl
  | cons e es ih =>
      rw [alter, lookup_cons]
      split
      next h =>
        rw [lookup_cons, if_pos ((hf e).trans h)]
        rfl
      next h => rw [lookup_cons, if_neg h, ih]

theorem lookup_alter_ne (hf : ∀ e, (f e).field = e.field) (h : other ≠ key)
    (es : List StoredEntry) : lookup other (alter key f es) = lookup other es := by
  have hfield : key.field ≠ other.field := fun heq ↦ h (ItemKey.field_injective heq.symm)
  induction es with
  | nil =>
      rw [alter, lookup_cons, if_neg]
      rw [hf]
      exact hfield
  | cons e es ih =>
      rw [alter]
      split
      next he =>
        have hother : ¬e.field = other.field := fun heq ↦ hfield (he.symm.trans heq)
        rw [lookup_cons, lookup_cons, hf, if_neg hother, if_neg hother]
      next => rw [lookup_cons, lookup_cons, ih]

/-- Updates with different keys do not get in each other's way. -/
theorem lookup_applyAll {updates : List (ItemKey × Op)} (h : (updates.map Prod.fst).Nodup)
    (key : ItemKey) (es : List StoredEntry) :
    lookup key (Op.applyAll updates es) =
      match Assoc.find? key updates with
      | none => lookup key es
      | some op => some (op.apply ((lookup key es).getD (blank key.field))) := by
  induction updates generalizing es with
  | nil =>
      rw [Op.applyAll]
      rfl
  | cons p updates ih =>
      obtain ⟨k, op⟩ := p
      obtain ⟨hnot, hrest⟩ := List.nodup_cons.mp h
      rw [Op.applyAll, ih hrest, Assoc.find?_cons]
      by_cases hk : k = key
      · subst hk
        rw [if_pos rfl, Assoc.find?_eq_none.mpr hnot]
        exact lookup_alter_self op.field_apply es
      · rw [if_neg hk, lookup_alter_ne op.field_apply (Ne.symm hk)]

theorem lookup_dropKeys (key : ItemKey) (removes : List ItemKey) (es : List StoredEntry) :
    lookup key (dropKeys removes es) = if key ∈ removes then none else lookup key es := by
  have hmem : key.field ∈ removes.map ItemKey.field ↔ key ∈ removes :=
    List.mem_map_of_injective fun _ _ ↦ ItemKey.field_injective
  unfold lookup dropKeys
  rw [List.find?_filter]
  split
  next h =>
    rw [List.find?_eq_none]
    intro e _
    simp only [decide_eq_true_eq]
    rintro ⟨hkept, heq⟩
    exact hkept (heq ▸ hmem.mpr h)
  next h =>
    congr 1
    funext e
    simp only [decide_eq_decide, decide_eq_true_eq]
    constructor
    · exact And.right
    · intro heq
      exact ⟨heq ▸ fun hin ↦ h (hmem.mp hin), heq⟩

end StoredEntry

/-! ## Reading -/

/-- What is to be seen of a value itself: its number, members, octets or state.  Of a map that is
nothing, since its entries are seen on their own. -/
inductive Snapshot where
  | total (n : Int64)
  | members (ms : Multiset Bytes)
  | octets (value : Bytes)
  | raised (b : Bool)
  | entries

def Snapshot.empty : ItemKind → Snapshot
  | .counter => total 0
  | .set => members ([] : List Bytes)
  | .register => octets []
  | .flag => raised false
  | .map => entries

/-- The kind of what a path leads to. -/
def endKind (kind : ItemKind) : List ItemKey → ItemKind
  | [] => kind
  | key :: path => endKind key.kind path

namespace Item

def snapshot : Item → Snapshot
  | counter c => .total c.value
  | set s => .members s.members
  | register r => .octets r.value
  | flag f => .raised f.value
  | map .. => .entries

/-- What is read at a path of a local value, where what is missing reads as empty. -/
def readAt (path : List ItemKey) (i : Item) : Snapshot :=
  ((i.fetch? path).map snapshot).getD (.empty (endKind i.kind path))

end Item

namespace StoredEntry

def snapshot (kind : ItemKind) : StoredEntry → Snapshot
  | mk _ _ total members value raised _ =>
      match kind with
      | .counter => .total (total.getD 0)
      | .set => .members members
      | .register => .octets (value.getD [])
      | .flag => .raised (raised.getD false)
      | .map => .entries

/-- The entry at a path, if the store holds one. -/
def fetch? : ItemKind → List ItemKey → StoredEntry → Option StoredEntry
  | _, [], e => some e
  | .map, key :: path, e => (lookup key e.entries).bind (fetch? key.kind path)
  | _, _ :: _, _ => none

def readAt (kind : ItemKind) (path : List ItemKey) (e : StoredEntry) : Snapshot :=
  ((e.fetch? kind path).map (snapshot (endKind kind path))).getD (.empty (endKind kind path))

end StoredEntry
end DataType
end ReplicaClient
