import ReplicaClient.Assoc
import ReplicaClient.Number.Double

/-!
# JSON values

Whole numbers are those that fit 64 bits, with or without sign; every other number is a
double.  The members of an object are kept in the order of their keys, and no key occurs
twice.
-/

namespace ReplicaClient
namespace Json

/-- A whole number that fits 64 bits, signed or unsigned. -/
structure Whole where
  val : Int
  low : -0x8000000000000000 ≤ val
  high : val < 0x10000000000000000
  deriving DecidableEq, Repr

namespace Whole

def ofInt? (n : Int) : Option Whole :=
  if h : -0x8000000000000000 ≤ n ∧ n < 0x10000000000000000 then some ⟨n, h.1, h.2⟩ else none

def ofInt64 (n : Int64) : Whole :=
  ⟨n.toInt, n.le_toInt, Int.lt_trans n.toInt_lt (by decide)⟩

def ofUInt32 (n : UInt32) : Whole :=
  ⟨n.toNat, by omega, by have := n.toNat_lt; omega⟩

end Whole
end Json

inductive Json where
  | null
  | bool (b : Bool)
  | whole (n : Json.Whole)
  | double (x : Double)
  | string (s : String)
  | array (items : List Json)
  | object (members : List (String × Json))
  deriving Repr, Inhabited

namespace Json

/-- An object of the given members; of equal keys the last one counts. -/
def ofMembers (members : List (String × Json)) : Json :=
  object (Assoc.ofList members)

def ofInt64 (n : Int64) : Json := whole (.ofInt64 n)
def ofUInt32 (n : UInt32) : Json := whole (.ofUInt32 n)

end Json
end ReplicaClient
