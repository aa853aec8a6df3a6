import ReplicaClient.Assoc
import ReplicaClient.DataType.Op
import ReplicaClient.DataType.Stored

/-!
# Local values with pending edits

A local value remembers what the store held and what has been edited since.  Reading it
gives the former; the edits become visible when they are committed.  The pending edits make
up the operation that is sent to the store.
-/

namespace ReplicaClient
namespace DataType

/-- The sum, if it fits 64 bits. -/
def addWithin? (a b : Int64) : Option Int64 :=
  let s := a.toInt + b.toInt
  if Int64.minValue.toInt ≤ s ∧ s ≤ Int64.maxValue.toInt then some (Int64.ofInt s) else none

/-- The sum, or the end of the range that it passes. -/
def addSaturating (a b : Int64) : Int64 :=
  let s := a.toInt + b.toInt
  if s < Int64.minValue.toInt then Int64.minValue
  else if Int64.maxValue.toInt < s then Int64.maxValue
  else Int64.ofInt s

structure Counter where
  value : Int64 := 0
  pending : Int64 := 0
  deriving DecidableEq, Repr, Inhabited

structure Set where
  members : List Bytes := []
  adds : List Bytes := []
  removes : List Bytes := []
  deriving DecidableEq, Repr, Inhabited

structure Register where
  value : Bytes := []
  update : Option Bytes := none
  deriving DecidableEq, Repr, Inhabited

structure Flag where
  value : Bool := false
  update : Option FlagOp := none
  deriving DecidableEq, Repr, Inhabited

def pushNew (l : List Bytes) (member : Bytes) : List Bytes :=
  if member ∈ l then l else l ++ [member]

namespace Counter

def commit (c : Counter) : Counter :=
  ⟨addSaturating c.value c.pending, 0⟩

end Counter

namespace Set

def insert (s : Set) (member : Bytes) : Set :=
  { s with adds := pushNew s.adds member }

def erase (s : Set) (member : Bytes) : Set :=
  { s with removes := pushNew s.removes member }

/-- Members to be removed go first, then the new ones are appended. -/
def commit (s : Set) : Set :=
  ⟨s.adds.foldl pushNew (s.members.filter (· ∉ s.removes)), [], []⟩

end Set

namespace Register

def commit (r : Register) : Register :=
  ⟨r.update.getD r.value, none⟩

end Register

namespace Flag

def commit (f : Flag) : Flag :=
  match f.update with
  | none => f
  | some op => ⟨op = .enable, none⟩

end Flag

/-- A local value of any kind.  Entries and pending removals of a map are in the order of their
keys. -/
inductive Item where
  | counter (c : Counter)
  | set (s : Set)
  | register (r : Register)
  | flag (f : Flag)
  | map (entries : List (ItemKey × Item)) (removes : List ItemKey)
  deriving Repr, Inhabited

namespace Item

def empty (kind : ItemKind) : Item :=
  match kind with
  | .counter => counter {}
  | .set => set {}
  | .register => register {}
  | .flag => flag {}
  | .map => map [] []

def kind : Item → ItemKind
  | counter _ => ItemKind.counter
  | set _ => ItemKind.set
  | register _ => ItemKind.register
  | flag _ => ItemKind.flag
  | map .. => ItemKind.map

/-! ## From the store -/

mutual

/-- Entries of unknown kinds are left out, and of two entries with one key the later counts. -/
def ofEntry : StoredEntry → Option (ItemKey × Item)
  | .mk name number total members value raised entries =>
      match ItemKind.ofNumber? number with
      | none => none
      | some kind =>
          let item := match kind with
            | .counter => Item.counter ⟨total.getD 0, 0⟩
            | .set => Item.set ⟨members, [], []⟩
            | .register => Item.register ⟨value.getD [], none⟩
            | .flag => Item.flag ⟨raised.getD false, none⟩
            | .map => Item.map (Assoc.ofList (ofEntries entries)) []
          some (⟨Utf8.decodeLossy name, kind⟩, item)

def ofEntries : List StoredEntry → List (ItemKey × Item)
  | [] => []
  | e :: rest =>
      match ofEntry e with
      | none => ofEntries rest
      | some p => p :: ofEntries rest

end

def ofStored (kind : Kind) (v : Stored) : Item :=
  match kind with
  | .counter => counter ⟨v.counter.getD 0, 0⟩
  | .set => set ⟨v.members, [], []⟩
  | .map => map (Assoc.ofList (ofEntries v.entries)) []

/-- The value under a key that the store does not hold yet. -/
def initial (kind : Kind) : Item :=
  match kind with
  | .counter => counter {}
  | .set => set {}
  | .map => map [] []

/-! ## To the store -/

mutual

/-- The operation of the pending edits; `none` if there are none. -/
def pending? : Item → Option Op
  | counter c => if c.pending = 0 then none else some (.counter c.pending)
  | set s => if s.adds = [] ∧ s.removes = [] then none else some (.set s.adds s.removes)
  | register r => r.update.map .register
  | flag f => f.update.map .flag
  | map entries removes =>
      let updates := pendingEntries entries
      if updates.isEmpty ∧ removes = [] then none else some (.map removes updates)

def pendingEntries : List (ItemKey × Item) → List (ItemKey × Op)
  | [] => []
  | (key, item) :: rest =>
      match pending? item with
      | none => pendingEntries rest
      | some op => (key, op) :: pendingEntries rest

end

/-- The operation to be sent for a value of its own: it is sent even if nothing is pending. -/
def toOp : Item → Op
  | counter c => .counter c.pending
  | set s => .set s.adds s.removes
  | register r => .register (r.update.getD r.value)
  | flag f => .flag (f.update.getD (if f.value then .enable else .disable))
  | map entries removes => .map removes (pendingEntries entries)

mutual

def commit : Item → Item
  | counter c => counter c.commit
  | set s => set s.commit
  | register r => register r.commit
  | flag f => flag f.commit
  | map entries _ => map (commitEntries entries) []

def commitEntries : List (ItemKey × Item) → List (ItemKey × Item)
  | [] => []
  | (key, item) :: rest => (key, commit item) :: commitEntries rest

end

/-! ## Reading -/

/-- The item at a path; `none` where an entry is missing or is no map. -/
def fetch? : (path : List ItemKey) → Item → Option Item
  | [], item => some item
  | key :: path, map entries _ => (Assoc.find? key entries).bind (fetch? path)
  | _ :: _, _ => none

def contains? (member : Bytes) : Item → Option Bool
  | set s => some (s.members.contains member)
  | _ => none

def length? : Item → Option Nat
  | map entries _ => some entries.length
  | _ => none

end Item

/-! ## Editing -/

/-- A change to the item at the end of a path. -/
inductive Edit where
  | touch
  | enter
  | increment (amount : Int64)
  | insert (member : Bytes)
  | erase (member : Bytes)
  | assign (value : Bytes)
  | enable
  | disable
  | remove (key : ItemKey)
  deriving DecidableEq, Repr

inductive EditError where
  | wrongKind
  | overflow (amount : Int64)
  deriving DecidableEq, Repr

namespace Item

/-- An edit where it is to take effect.  Touching suits every kind, entering a map only. -/
def editHere : Edit → Item → Except EditError Item
  | .touch, item => .ok item
  | .enter, map entries removes => .ok (map entries removes)
  | .increment n, counter c =>
      match addWithin? c.pending n with
      | none => .error (.overflow n)
      | some p => .ok (counter { c with pending := p })
  | .insert m, set s => .ok (set (s.insert m))
  | .erase m, set s => .ok (set (s.erase m))
  | .assign b, register r => .ok (register { r with update := some b })
  | .enable, flag f => .ok (flag { f with update := some .enable })
  | .disable, flag f => .ok (flag { f with update := some .disable })
  | .remove key, map entries removes =>
      .ok (map (Assoc.erase key entries) (Assoc.insertKey key removes))
  | _, _ => .error .wrongKind

/-- Goes down a path and edits what it leads to.  Each key on the way is added: a missing entry is
made, empty, and a pending removal of the key is called off.  What has been added stays even if
the edit then fails. -/
def edit : (path : List ItemKey) → Edit → Item → Except EditError Unit × Item
  | [], e, item =>
      match editHere e item with
      | .ok item => (.ok (), item)
      | .error err => (.error err, item)
  | key :: path, e, map entries removes =>
      let (result, child) := edit path e ((Assoc.find? key entries).getD (empty key.kind))
      (result, map (Assoc.insert key child entries) (removes.filter (· ≠ key)))
  | _ :: _, _, item => (.error .wrongKind, item)

end Item
end DataType
end ReplicaClient
