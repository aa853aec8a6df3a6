import ReplicaClient.Bucket

/-!
# The store as a whole

Questions that concern no bucket, and the ways from a name to a bucket or an object.  A
bucket must have a name, and this is checked before anything is sent.
-/

namespace ReplicaClient

structure ServerInfo where
  node : String
  version : String
  deriving DecidableEq, Repr

namespace Store

def ping : Dialogue (Except ClientError Unit) :=
  .query .ping fun _ ↦ .ok ()

def clientId : Dialogue (Except ClientError Bytes) :=
  .query .getClientId fun (id : Bytes) ↦ .ok id

def setClientId (id : Bytes) : Dialogue (Except ClientError Unit) :=
  .query (.setClientId id) fun _ ↦ .ok ()

def serverInfo : Dialogue (Except ClientError ServerInfo) :=
  .query .getServerInfo fun (info : ServerInfoReply) ↦
    .ok ⟨Utf8.decodeLossy (info.node.getD []), Utf8.decodeLossy (info.version.getD [])⟩

def listBuckets : Dialogue (Except ClientError (List String)) :=
  .query .listBuckets fun (names : List Bytes) ↦ .ok (names.map Utf8.decodeLossy)

/-- The handle of a bucket, before its properties have been read. -/
def bucketHandle (name : String) (bucketType : Option String) : Except ClientError Bucket :=
  if name.isEmpty then .error .emptyBucketName else .ok { name, bucketType }

def bucket (name : String) : Dialogue (Except ClientError Bucket) :=
  match bucketHandle name none with
  | .error e => .refuse e
  | .ok b => b.refresh.bind fun
      | (.error e, _) => .refuse e
      | (.ok (), b) => .done (.ok b)

/-- A bucket of a type; its properties are not read. -/
def bucketOfType (bucketType name : String) : Except ClientError Bucket :=
  bucketHandle name (some bucketType)

def getFrom (bucket key : String) (options : Options) : Dialogue (Except ClientError Object) :=
  match bucketHandle bucket none with
  | .error e => .refuse e
  | .ok b => b.get key options

def deleteFrom (bucket key : String) (options : Options) : Dialogue (Except ClientError Unit) :=
  match bucketHandle bucket none with
  | .error e => .refuse e
  | .ok b => b.delete key options

def containsIn (bucket key : String) (options : Options) : Dialogue (Except ClientError Bool) :=
  match bucketHandle bucket none with
  | .error e => .refuse e
  | .ok b => b.contains key options

/-- A new object, here only. -/
def newObjectIn (bucket key : String) : Object :=
  { bucket, key }

def runMapReduce (job : String) : Dialogue (Except ClientError (List Bytes)) :=
  .query (.mapReduce (Utf8.encode job) (Utf8.encode "application/json"))
    fun (results : List Bytes) ↦ .ok results

end Store
end ReplicaClient
