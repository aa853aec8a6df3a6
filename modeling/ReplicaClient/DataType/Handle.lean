import ReplicaClient.Bucket
import ReplicaClient.DataType.Item

/-!
# Data types and the store

A handle on a data type holds the local value with its pending edits and the context that
the store wants to see again.  Storing sends the pending edits; once they are acknowledged
they are committed.
-/

namespace ReplicaClient
namespace DataType

structure Handle where
  bucket : Bucket
  key : String
  context : Bytes := []
  options : Options := {}
  value : Item
  deriving Repr, Inhabited

def typeName (b : Bucket) : Bytes :=
  Utf8.encode (b.bucketType.getD "default")

def fetchRequest (b : Bucket) (key : String) (options : Options) : DataTypeFetch where
  bucket := b.nameBytes
  key := Utf8.encode key
  bucketType := typeName b
  r := Options.wire options.r
  pr := Options.wire options.pr

/-- The handle that a reply makes, if the store holds the kind that was asked for. -/
def afterFetch (kind : Kind) (b : Bucket) (key : String) (options : Options)
    (reply : DataTypeFetchReply) : Except ClientError Handle :=
  if reply.kind = kind.number then
    .ok {
      bucket := b
      key
      context := reply.context.getD []
      options
      value := (reply.value.map (Item.ofStored kind)).getD (Item.initial kind) }
  else .error (.dataTypeMismatch kind reply.kind)

def fetch (kind : Kind) (b : Bucket) (key : String) (options : Options) :
    Dialogue (Except ClientError Handle) :=
  .query (.dataTypeFetch (fetchRequest b key options)) (afterFetch kind b key options)

namespace Handle

def updateRequest (h : Handle) : DataTypeUpdate where
  bucket := h.bucket.nameBytes
  key := nonEmpty (Utf8.encode h.key)
  bucketType := typeName h.bucket
  context := nonEmpty h.context
  op := h.value.toOp
  w := Options.wire h.options.w
  dw := Options.wire h.options.dw
  pw := Options.wire h.options.pw

def afterStore (h : Handle) (reply : DataTypeUpdateReply) : Handle :=
  let h := if h.key.isEmpty then
      { h with key := (reply.key.map Utf8.decodeLossy).getD h.key }
    else h
  { h with context := reply.context.getD h.context, value := h.value.commit }

def store (h : Handle) : Dialogue (Except ClientError Unit × Handle) :=
  .update h (.dataTypeUpdate h.updateRequest) fun (reply : DataTypeUpdateReply) ↦
    (.ok (), h.afterStore reply)

def destroy (h : Handle) : Dialogue (Except ClientError Unit) :=
  .query
    (.delete {
      bucket := h.bucket.nameBytes
      key := Utf8.encode h.key
      r := Options.wire h.options.r
      pr := Options.wire h.options.pr
      rw := Options.wire h.options.rw
      w := Options.wire h.options.w
      dw := Options.wire h.options.dw
      pw := Options.wire h.options.pw
      bucketType := some (typeName h.bucket) })
    fun _ ↦ .ok ()

def edit (h : Handle) (path : List ItemKey) (e : Edit) : Except EditError Unit × Handle :=
  let (result, value) := h.value.edit path e
  (result, { h with value })

end Handle
end DataType
end ReplicaClient
