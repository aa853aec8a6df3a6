import ReplicaClient.Dialogue

/-!
# Objects and the store

Fetching, storing, deleting and reloading an object.  Each operation is a request made from
the object and a change of the object made from the reply.
-/

namespace ReplicaClient

def nonEmpty (b : Bytes) : Option Bytes :=
  if b.isEmpty then none else some b

def textBytes (s : Option String) : Option Bytes :=
  s.map Utf8.encode

namespace Object

/-! ## Fetching -/

def fetchRequest (o : Object) : Request :=
  .get {
    bucket := Utf8.encode o.bucket
    key := Utf8.encode o.key
    r := Options.wire o.options.r
    pr := Options.wire o.options.pr
    notFoundOk := some true
    deletedVclock := some true
    bucketType := textBytes o.bucketType }

/-- The object that a reply makes of an empty one; a reply without content leaves a tombstone,
which has a clock and no value. -/
def afterFetch (o : Object) (reply : GetReply) : Except ClientError Object :=
  let o := { o with vclock := reply.vclock.getD [] }
  match reply.contents with
  | [] => .error (.notFound o)
  | contents => .ok (o.setContent contents)

def fetch (bucket : String) (bucketType : Option String) (key : String) (options : Options) :
    Dialogue (Except ClientError Object) :=
  let o : Object := { bucket, bucketType, key, options }
  .query o.fetchRequest o.afterFetch

/-! ## Storing -/

def putRequest (o : Object) : PutRequest where
  bucket := Utf8.encode o.bucket
  key := nonEmpty (Utf8.encode o.key)
  vclock := nonEmpty o.vclock
  content := o.toContent
  w := Options.wire o.options.w
  dw := Options.wire o.options.dw
  pw := Options.wire o.options.pw
  returnHead := some true
  bucketType := textBytes o.bucketType

/-- The clock of the reply replaces the object's; the store may choose a key if there was none, and
a single head brings the marks of the new version. -/
def afterPut (o : Object) (reply : PutReply) : Object :=
  let o := { o with vclock := reply.vclock.getD [] }
  let o := if o.key.isEmpty then
      { o with key := (reply.key.map Utf8.decodeLossy).getD o.key }
    else o
  match reply.contents with
  | [head] =>
      { o with
        vtag := Utf8.decodeLossy (head.vtag.getD [])
        lastMod := head.lastMod.getD 0
        lastModUsecs := head.lastModUsecs.getD 0 }
  | _ => o

def store (o : Object) : Dialogue (Except ClientError Unit × Object) :=
  .update o (.put o.putRequest) fun reply ↦ (.ok (), o.afterPut reply)

/-! ## Deleting -/

def deleteRequest (o : Object) : DeleteRequest where
  bucket := Utf8.encode o.bucket
  key := Utf8.encode o.key
  vclock := nonEmpty o.vclock
  r := Options.wire o.options.r
  pr := Options.wire o.options.pr
  rw := Options.wire o.options.rw
  w := Options.wire o.options.w
  dw := Options.wire o.options.dw
  pw := Options.wire o.options.pw
  bucketType := textBytes o.bucketType

def delete (o : Object) : Dialogue (Except ClientError Unit) :=
  if o.key.isEmpty then .refuse .emptyKey
  else .query (.delete o.deleteRequest) fun _ ↦ .ok ()

/-! ## Reloading -/

def reloadRequest (o : Object) : Request :=
  .get {
    bucket := Utf8.encode o.bucket
    key := Utf8.encode o.key
    r := Options.wire o.options.r
    pr := Options.wire o.options.pr
    ifModified := nonEmpty o.vclock
    deletedVclock := some true
    bucketType := textBytes o.bucketType }

/-- A reply that says so leaves the object as it was.  One without content leaves a tombstone, and
that is also reported. -/
def afterReload (o : Object) (reply : GetReply) : Except ClientError Unit × Object :=
  if reply.unchanged.getD false then (.ok (), o)
  else
    let o := { o with vclock := reply.vclock.getD [] }
    match reply.contents with
    | [] =>
        let o := { o.clearValue with siblings := [], state := .clean }
        (.error (.notFound o), o)
    | contents => (.ok (), o.setContent contents)

def reload (o : Object) : Dialogue (Except ClientError Unit × Object) :=
  if o.key.isEmpty then .done (.error .emptyKey, o)
  else .update o o.reloadRequest o.afterReload

/-! ## Presence -/

def headRequest (o : Object) : Request :=
  .get {
    bucket := Utf8.encode o.bucket
    key := Utf8.encode o.key
    r := Options.wire o.options.r
    pr := Options.wire o.options.pr
    notFoundOk := some true
    head := some true
    bucketType := textBytes o.bucketType }

def isStored (o : Object) : Dialogue (Except ClientError Bool) :=
  .query o.headRequest fun (reply : GetReply) ↦ .ok !reply.contents.isEmpty

end Object
end ReplicaClient
