/-!
# Durations

A time span in milliseconds is shown in the largest unit it reaches, with the fraction cut
after its last digit that is not zero.
-/

namespace ReplicaClient
namespace Text

/-- The decimals of `n` thousandths, without closing zeros. -/
def thousandths (n : Nat) : List Char :=
  let digits := [n / 100 % 10, n / 10 % 10, n % 10].map fun d ↦ Nat.digitChar d
  (digits.reverse.dropWhile (· = '0')).reverse

def duration (milliseconds : Nat) : String :=
  if milliseconds = 0 then "0ns"
  else if milliseconds < 1000 then toString milliseconds ++ "ms"
  else
    let decimals := thousandths (milliseconds % 1000)
    toString (milliseconds / 1000) ++
      (if decimals.isEmpty then "" else String.ofList ('.' :: decimals)) ++ "s"

end Text
end ReplicaClient
