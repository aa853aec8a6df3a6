import ReplicaClient.Json.Basic

/-!
# Looking into JSON values

Each reader takes what it finds if that is of its kind, and otherwise a blank: no text, zero,
no items.
-/

namespace ReplicaClient
namespace Json

/-- A whole number; one that does not fit 64 bits has no JSON value here. -/
def ofInt (n : Int) : Json :=
  match Whole.ofInt? n with
  | some w => whole w
  | none => null

def ofNat (n : Nat) : Json := ofInt n

def ofTexts (l : List String) : Json := array (l.map string)

def ofOption {α : Type} (write : α → Json) : Option α → Json
  | some a => write a
  | none => null

def toText : Json → String
  | string s => s
  | _ => ""

def toInt : Json → Int
  | whole n => n.val
  | _ => 0

/-- A number that is not below zero; a negative one reads as zero. -/
def toNat (j : Json) : Nat := j.toInt.toNat

def toBool : Json → Bool
  | bool b => b
  | _ => false

def items : Json → List Json
  | array l => l
  | _ => []

def member (j : Json) (name : String) : Json :=
  match j with
  | object members => (Assoc.find? name members).getD null
  | _ => null

def item (j : Json) (index : Nat) : Json :=
  j.items.getD index null

/-- What a member holds, if it is there and not null. -/
def toOption {α : Type} (read : Json → α) : Json → Option α
  | null => none
  | j => some (read j)

end Json
end ReplicaClient
