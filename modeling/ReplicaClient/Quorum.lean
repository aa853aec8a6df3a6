/-!
# Quorums

How many replicas must answer is a number or one of four symbols.  On the wire a symbol is
one of the largest numbers below 2^32 - 1.
-/

namespace ReplicaClient

inductive Quorum where
  | one
  | majority
  | all
  | byDefault
  | count (n : UInt32)
  deriving DecidableEq, Repr

namespace Quorum

def toWire : Quorum → UInt32
  | one => 4294967294
  | majority => 4294967293
  | all => 4294967292
  | byDefault => 4294967291
  | count n => n

def ofWire (n : UInt32) : Quorum :=
  if n = 4294967294 then one
  else if n = 4294967293 then majority
  else if n = 4294967292 then all
  else if n = 4294967291 then byDefault
  else count n

def name : Quorum → String
  | one => "one"
  | majority => "quorum"
  | all => "all"
  | byDefault => "default"
  | count _ => "n"

/-- The symbol with a name; a count has none of its own. -/
def ofName? (s : String) : Option Quorum :=
  [one, majority, all, byDefault].find? (·.name = s)

/-- A number that was read as a quorum goes out as it came. -/
@[simp] theorem toWire_ofWire (n : UInt32) : (ofWire n).toWire = n := by
  unfold ofWire
  repeat' split
  all_goals simp_all [toWire]

end Quorum

/-- The quorums of reads, writes and deletes; an absent one is left to the bucket. -/
structure Options where
  r : Option Quorum := none
  pr : Option Quorum := none
  w : Option Quorum := none
  dw : Option Quorum := none
  pw : Option Quorum := none
  rw : Option Quorum := none
  deriving DecidableEq, Repr, Inhabited

namespace Options

/-- Sets an option by its name; a name that is none of the six changes nothing. -/
def set (o : Options) (name : String) (q : Quorum) : Options :=
  match name with
  | "r" => { o with r := some q }
  | "pr" => { o with pr := some q }
  | "w" => { o with w := some q }
  | "dw" => { o with dw := some q }
  | "pw" => { o with pw := some q }
  | "rw" => { o with rw := some q }
  | _ => o

/-- The option as it is sent. -/
def wire (q : Option Quorum) : Option UInt32 :=
  q.map Quorum.toWire

end Options
end ReplicaClient
