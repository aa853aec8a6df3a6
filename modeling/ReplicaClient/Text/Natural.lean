/-!
# Natural numbers in text

A number is read with or without a plus sign in front and may begin with zeros; it counts
only below a bound.  It is written with zeros in front up to a width.
-/

namespace ReplicaClient
namespace Text

def ofDigits (ds : List Char) : Nat :=
  ds.foldl (fun n c ↦ 10 * n + (c.toNat - '0'.toNat)) 0

/-- A decimal number below a bound. -/
def natural? (bound : Nat) (cs : List Char) : Option Nat :=
  let ds := match cs with
    | '+' :: ds => ds
    | ds => ds
  if ds.isEmpty || ds.any (!·.isDigit) then none
  else if ofDigits ds < bound then some (ofDigits ds)
  else none

/-- The digits of a number, at least `width` of them. -/
def padded (width n : Nat) : List Char :=
  let ds := Nat.toDigits 10 n
  List.replicate (width - ds.length) '0' ++ ds

end Text
end ReplicaClient
