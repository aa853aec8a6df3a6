import ReplicaClient.Object.Store

/-!
# Buckets

A bucket names a space of keys, may have a type, and carries the properties it had when they
were last read or set.
-/

namespace ReplicaClient

structure Bucket where
  name : String
  bucketType : Option String := none
  props : BucketProps := {}
  deriving DecidableEq, Repr, Inhabited

namespace Bucket

def nameBytes (b : Bucket) : Bytes :=
  Utf8.encode b.name

def typeBytes (b : Bucket) : Option Bytes :=
  textBytes b.bucketType

/-! ## Properties -/

def refresh (b : Bucket) : Dialogue (Except ClientError Unit × Bucket) :=
  .update b (.getBucket b.nameBytes b.typeBytes) fun props ↦ (.ok (), { b with props })

/-- Sends a change of properties and, once it is acknowledged, makes it here too. -/
def setProps (b : Bucket) (change : PropsChange) (props : BucketProps) :
    Dialogue (Except ClientError Unit × Bucket) :=
  .update b (.setBucket b.nameBytes change b.typeBytes) fun _ ↦ (.ok (), { b with props })

def setNVal (b : Bucket) (n : UInt32) : Dialogue (Except ClientError Unit × Bucket) :=
  b.setProps { nVal := some n } { b.props with nVal := n }

def setAllowMult (b : Bucket) (on : Bool) : Dialogue (Except ClientError Unit × Bucket) :=
  b.setProps { allowMult := some on } { b.props with allowMult := on }

def setLastWriteWins (b : Bucket) (on : Bool) : Dialogue (Except ClientError Unit × Bucket) :=
  b.setProps { lastWriteWins := some on } { b.props with lastWriteWins := on }

def setSearch (b : Bucket) (on : Bool) : Dialogue (Except ClientError Unit × Bucket) :=
  b.setProps { search := some on } { b.props with search := on }

def resetProperties (b : Bucket) : Dialogue (Except ClientError Unit × Bucket) :=
  .ask (.resetBucket b.nameBytes b.typeBytes) fun
    | .error e => .done (.error e, b)
    | .ok _ => b.refresh

/-! ## Objects -/

def newObject (b : Bucket) (key : String) : Object :=
  { bucket := b.name, bucketType := b.bucketType, key }

def get (b : Bucket) (key : String) (options : Options) : Dialogue (Except ClientError Object) :=
  Object.fetch b.name b.bucketType key options

def contains (b : Bucket) (key : String) (options : Options) :
    Dialogue (Except ClientError Bool) :=
  { b.newObject key with options }.isStored

def delete (b : Bucket) (key : String) (options : Options) : Dialogue (Except ClientError Unit) :=
  { b.newObject key with options }.delete

/-! ## Queries -/

def queryIndex (b : Bucket) (index : String) (selection : IndexSelection) :
    Dialogue (Except ClientError (List String)) :=
  .query (.index b.nameBytes (Utf8.encode index) selection b.typeBytes)
    fun (keys : List Bytes) ↦ .ok (keys.map Utf8.decodeLossy)

def indexQuery (b : Bucket) (index value : String) :
    Dialogue (Except ClientError (List String)) :=
  b.queryIndex index (.value (Utf8.encode value))

def indexQueryRange (b : Bucket) (index low high : String) :
    Dialogue (Except ClientError (List String)) :=
  b.queryIndex index (.range (Utf8.encode low) (Utf8.encode high))

def listKeys (b : Bucket) : Dialogue (Except ClientError (List Bytes)) :=
  .query (.listKeys b.nameBytes b.typeBytes) fun (keys : List Bytes) ↦ .ok keys

end Bucket
end ReplicaClient
