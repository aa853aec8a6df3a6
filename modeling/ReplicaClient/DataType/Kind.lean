/-!
# Kinds of convergent data

The store merges counters, sets and maps without conflicts; a map also holds registers and
flags.  Each kind has a number on the wire.
-/

namespace ReplicaClient
namespace DataType

inductive Kind where
  | counter
  | set
  | map
  deriving DecidableEq, Repr

namespace Kind

def number : Kind → Int32
  | counter => 1
  | set => 2
  | map => 3

def ofNumber? (n : Int32) : Option Kind :=
  if n = 1 then some counter else if n = 2 then some set else if n = 3 then some map else none

def name : Kind → String
  | counter => "counter"
  | set => "set"
  | map => "map"

def all : List Kind :=
  [counter, set, map]

def ofName? (s : String) : Option Kind :=
  all.find? (·.name = s)

def wireName : Kind → String
  | counter => "Counter"
  | set => "Set"
  | map => "Map"

theorem ofNumber?_number (k : Kind) : ofNumber? k.number = some k := by
  cases k <;> decide

end Kind

inductive ItemKind where
  | counter
  | set
  | register
  | flag
  | map
  deriving DecidableEq, Repr

namespace ItemKind

def number : ItemKind → Int32
  | counter => 1
  | set => 2
  | register => 3
  | flag => 4
  | map => 5

def ofNumber? (n : Int32) : Option ItemKind :=
  if n = 1 then some counter
  else if n = 2 then some set
  else if n = 3 then some register
  else if n = 4 then some flag
  else if n = 5 then some map
  else none

def name : ItemKind → String
  | counter => "counter"
  | set => "set"
  | register => "register"
  | flag => "flag"
  | map => "map"

def all : List ItemKind :=
  [counter, set, register, flag, map]

def ofName? (s : String) : Option ItemKind :=
  all.find? (·.name = s)

def wireName : ItemKind → String
  | counter => "Counter"
  | set => "Set"
  | register => "Register"
  | flag => "Flag"
  | map => "Map"

theorem ofNumber?_number (k : ItemKind) : ofNumber? k.number = some k := by
  cases k <;> decide

end ItemKind

inductive FlagOp where
  | enable
  | disable
  deriving DecidableEq, Repr

namespace FlagOp

def number : FlagOp → Int32
  | enable => 1
  | disable => 2

def ofNumber? (n : Int32) : Option FlagOp :=
  if n = 1 then some enable else if n = 2 then some disable else none

def wireName : FlagOp → String
  | enable => "Enable"
  | disable => "Disable"

end FlagOp

/-- The name of an entry of a map and its kind: entries of one name and of different kinds live
side by side. -/
structure ItemKey where
  name : String
  kind : ItemKind
  deriving DecidableEq, Repr

/-- Keys are ordered by their names and then by their kinds. -/
instance : LT ItemKey where
  lt a b := a.name < b.name ∨ a.name = b.name ∧ a.kind.number < b.kind.number

instance : DecidableLT ItemKey := fun a b ↦
  inferInstanceAs (Decidable (a.name < b.name ∨ a.name = b.name ∧ a.kind.number < b.kind.number))

end DataType
end ReplicaClient
