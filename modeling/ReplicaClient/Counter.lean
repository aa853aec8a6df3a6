import ReplicaClient.Bucket

/-!
# Counters

A counter of the older kind lives in a bucket without a type.  Only changes are sent; the
value is read back when asked for.
-/

namespace ReplicaClient

structure Counter where
  bucket : Bucket
  key : String
  value : Int64 := 0
  options : Options := {}
  deriving DecidableEq, Repr, Inhabited

namespace Counter

def reload (c : Counter) : Dialogue (Except ClientError Unit × Counter) :=
  .update c
    (.counterGet {
      bucket := c.bucket.nameBytes
      key := Utf8.encode c.key
      r := Options.wire c.options.r
      pr := Options.wire c.options.pr })
    fun (value : Option Int64) ↦ (.ok (), { c with value := value.getD 0 })

/-- Adds an amount; the new total is taken over if it was asked for. -/
def add (c : Counter) (amount : Int64) (reload : Bool) :
    Dialogue (Except ClientError Unit × Counter) :=
  .update c
    (.counterUpdate {
      bucket := c.bucket.nameBytes
      key := Utf8.encode c.key
      amount
      w := Options.wire c.options.w
      dw := Options.wire c.options.dw
      pw := Options.wire c.options.pw
      returnValue := reload })
    fun (value : Option Int64) ↦ (.ok (), if reload then { c with value := value.getD 0 } else c)

/-- Subtracts an amount.  The smallest number has no opposite and is refused. -/
def subtract (c : Counter) (amount : Int64) (reload : Bool) :
    Dialogue (Except ClientError Unit × Counter) :=
  if amount = Int64.minValue then .done (.error (.counterOverflow amount), c)
  else c.add (-amount) reload

/-- Deletes the counter on all replicas unless the options say otherwise. -/
def destroy (c : Counter) : Dialogue (Except ClientError Unit) :=
  let orAll (q : Option Quorum) : Option UInt32 := some (q.getD .all).toWire
  .query
    (.delete {
      bucket := c.bucket.nameBytes
      key := Utf8.encode c.key
      r := orAll c.options.r
      pr := orAll c.options.pr
      w := orAll c.options.w
      pw := orAll c.options.pw
      dw := Options.wire c.options.dw
      rw := Options.wire c.options.rw
      sloppyQuorum := some false })
    fun _ ↦ .ok ()

end Counter

namespace Bucket

def counter (b : Bucket) (key : String) (options : Options) : Counter :=
  { bucket := b, key, options }

def getCounter (b : Bucket) (key : String) (options : Options) :
    Dialogue (Except ClientError Counter) :=
  (b.counter key options).reload.bind fun
    | (.error e, _) => .refuse e
    | (.ok (), c) => .done (.ok c)

end Bucket
end ReplicaClient
