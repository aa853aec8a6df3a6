import ReplicaClient.ChunkedFile
import ReplicaClient.Counter
import ReplicaClient.DataType.Handle
import ReplicaClient.Json.Access
import ReplicaClient.Model
import ReplicaClient.Pool
import ReplicaClient.Text.Hex

/-!
# Views

Handles and errors shown as JSON, for tools that inspect them.  Octets are hexadecimal text,
and lists keep the order they have in the handle.
-/

namespace ReplicaClient

def bytesToJson (b : Bytes) : Json :=
  .string (Hex.encode b)

/-! ## Objects -/

def Link.toJson (l : Link) : Json :=
  .ofTexts [l.bucket, l.key, l.tag]

def Meta.toJson (m : Meta) : Json :=
  .array (m.map fun (k, v) ↦ .ofTexts [k, v])

def Indexes.toJson (m : Indexes) : Json :=
  .array (m.map fun (k, vs) ↦ .array [.string k, .ofTexts vs])

def Sibling.toJson (s : Sibling) : Json :=
  .ofMembers
    [("content_type", .string s.contentType), ("data", bytesToJson s.data),
      ("links", .array (s.links.map Link.toJson)), ("meta", Meta.toJson s.metadata),
      ("indexes", Indexes.toJson s.indexes), ("vtag", .string s.vtag),
      ("last_mod", .ofNat s.lastMod.toNat), ("last_mod_usecs", .ofNat s.lastModUsecs.toNat),
      ("deleted", .bool s.deleted)]

def Object.toJson (o : Object) : Json :=
  .ofMembers
    [("bucket", .string o.bucket), ("type", .ofOption .string o.bucketType),
      ("key", .string o.key), ("vclock", bytesToJson o.vclock),
      ("content_type", .string o.contentType), ("data", bytesToJson o.data),
      ("links", .array (o.links.map Link.toJson)), ("meta", Meta.toJson o.metadata),
      ("indexes", Indexes.toJson o.indexes), ("vtag", .string o.vtag),
      ("last_mod", .ofNat o.lastMod.toNat), ("last_mod_usecs", .ofNat o.lastModUsecs.toNat),
      ("state", .string o.state.name), ("siblings", .array (o.siblings.map Sibling.toJson)),
      ("sibling_count", .ofNat o.siblingCount)]

/-! ## Buckets, counters and data types -/

def BucketProps.toJson (p : BucketProps) : Json :=
  .array [.ofNat p.nVal.toNat, .bool p.allowMult, .bool p.lastWriteWins, .bool p.search]

def Bucket.toJson (b : Bucket) : Json :=
  .ofMembers
    [("name", .string b.name), ("type", .ofOption .string b.bucketType), ("props", b.props.toJson)]

def Counter.toJson (c : Counter) : Json :=
  .ofMembers
    [("bucket", .string c.bucket.name), ("key", .string c.key), ("value", .ofInt c.value.toInt)]

namespace DataType

mutual

/-- The value without its pending edits. -/
def Item.toJson : Item → Json
  | .counter c => .ofMembers [("counter", .ofInt c.value.toInt)]
  | .set s => .ofMembers [("set", .array (s.members.map bytesToJson))]
  | .register r => .ofMembers [("register", bytesToJson r.value)]
  | .flag f => .ofMembers [("flag", .bool f.value)]
  | .map entries _ => .ofMembers [("map", .array (Item.entriesToItems entries))]

def Item.entriesToItems : List (ItemKey × Item) → List Json
  | [] => []
  | (key, item) :: entries =>
      .array [.string key.name, .string key.kind.name, item.toJson] ::
        Item.entriesToItems entries

end

def Item.withOperation (i : Item) : Json :=
  .ofMembers
    [("value", i.toJson), ("op", bytesToJson (Wire.Message.encode .dataTypeOp i.toOp.toMessage))]

def Handle.toJson (h : Handle) : Json :=
  .ofMembers
    [("bucket", .string h.bucket.name), ("key", .string h.key),
      ("context", bytesToJson h.context), ("data", h.value.withOperation)]

end DataType

/-! ## Files and models -/

def ChunkedFile.toJson (f : ChunkedFile) : Json :=
  .ofMembers
    [("key", .string f.root.key), ("size", .ofNat f.size), ("pos", .ofNat f.pos),
      ("chunk_size", .ofNat f.chunkSize), ("content_type", .string f.root.contentType),
      ("vtag", .string f.root.vtag),
      ("modified", .array [.ofNat f.modified.1, .ofNat f.modified.2])]

def FieldValue.toJson : FieldValue → Json
  | scalar value => value
  | one link => .ofOption Link.toJson link
  | many links => .array (links.map Link.toJson)

/-- The fields of a document in the order of its table, without those it does not keep. -/
def Document.toJson {D : Type} [Document D] (doc : D) : Json :=
  .array ((Document.fields D).filterMap fun f ↦
    match Document.readField doc f.name with
    | .ok (some v) => some (.array [.string f.name, v.toJson])
    | _ => none)

def Model.toJson {D : Type} [Document D] (m : Model D) : Json :=
  .ofMembers
    [("key", .string m.key), ("doc", Document.toJson m.doc), ("object", m.object.toJson)]

/-! ## The pool and errors -/

def Pool.toJson (p : Pool) : Json :=
  .array [.string p.phase.name, .ofNat p.idle.length, .ofNat p.checkedOut]

namespace ClientError

/-- What there is to say about an error besides its name.  The wording of faults that come from the
host or from the JSON reader is left out. -/
def details (e : ClientError) : List (String × Json) :=
  match e with
  | io fault | dial _ fault => [("io", .string fault.name)]
  | json .endOfInput => [("category", .string "Eof")]
  | json .malformed => [("category", .string "Syntax")]
  | server _ code => [("message", .string e.message), ("code", .ofNat code.toNat)]
  | notFound tombstone => [("message", .string e.message), ("tombstone", tombstone.toJson)]
  | _ => [("message", .string e.message)]

def toMembers (e : ClientError) : List (String × Json) :=
  ("error", .string e.name) :: ("fatal", .bool e.isFatal) :: e.details

end ClientError

def FrameError.toMembers (e : FrameError) : List (String × Json) :=
  [("error", .string e.name), ("message", .string e.message)]

end ReplicaClient
