import ReplicaClient.Error
import ReplicaClient.Json.Printer
import ReplicaClient.Model.Scalar
import ReplicaClient.Object.Conflict

/-!
# Documents

A document type lists its fields.  Scalars are kept in a JSON body under their wire names,
relations as links whose tags are the wire names.  The two directions of the mapping are
`encode` and `decode`.
-/

namespace ReplicaClient

structure FieldDescriptor where
  name : String
  kind : FieldKind
  wireName : Option String := none
  deriving DecidableEq, Repr

def FieldDescriptor.wire (f : FieldDescriptor) : String :=
  f.wireName.getD f.name

/-- What a field holds: a scalar, at most one link, or a list of links. -/
inductive FieldValue where
  | scalar (value : Json)
  | one (link : Option Link)
  | many (links : List Link)
  deriving Repr

namespace FieldValue

def kind : FieldValue → FieldKind
  | scalar _ => .scalar
  | one _ => .one
  | many _ => .many

def mismatch {α : Type} (field : String) (reason : Mismatch) : Except ClientError α :=
  .error (.typeMismatch field reason)

def asJson (field : String) : FieldValue → Except ClientError Json
  | scalar value => .ok value
  | other => mismatch field (.kind .scalar other.kind)

def asOne (field : String) : FieldValue → Except ClientError (Option Link)
  | one link => .ok link
  | other => mismatch field (.kind .one other.kind)

def asMany (field : String) : FieldValue → Except ClientError (List Link)
  | many links => .ok links
  | other => mismatch field (.kind .many other.kind)

/-- The scalar of a field as a value of one type. -/
def as {α : Type} (s : Scalar α) (field : String) (v : FieldValue) : Except ClientError α := do
  match s.read (← v.asJson field) with
  | .ok a => .ok a
  | .error reason => mismatch field reason

end FieldValue

/-- A type of documents.  Fields are read and written by name; a name that is not a field reads as
nothing and is ignored when written. -/
class Document (D : Type) extends Inhabited D where
  typeName : String
  fields : List FieldDescriptor
  readField : D → String → Except ClientError (Option FieldValue)
  writeField : D → String → FieldValue → Except ClientError D

namespace Document

/-- The member of a body that names its type. -/
def typeMember : String := "_type"

variable {D : Type} [Document D]

/-- Adds one field to a body and a list of links. -/
def encodeField (doc : D) (acc : List (String × Json) × List Link) (field : FieldDescriptor) :
    Except ClientError (List (String × Json) × List Link) := do
  let (body, links) := acc
  match ← readField doc field.name with
  | none => return (body, links)
  | some (.scalar value) => return (Assoc.insert field.wire value body, links)
  | some (.one link) =>
      return (body, links ++ link.toList.map fun l ↦ { l with tag := field.wire })
  | some (.many targets) =>
      return (body, links ++ targets.map fun l ↦ { l with tag := field.wire })

def encode (doc : D) : Except ClientError (Bytes × List Link) := do
  let (body, links) ←
    (fields D).foldlM (encodeField doc) ([(typeMember, .string (typeName D))], [])
  return (Utf8.encode (Json.object body).render, links)

/-- What a body and links hold for a field, and the body without it. -/
def fieldContent (body : List (String × Json)) (links : List Link) (field : FieldDescriptor) :
    Option FieldValue × List (String × Json) :=
  let tagged := links.filter (·.tag = field.wire)
  match field.kind with
  | .scalar => ((Assoc.find? field.wire body).map .scalar, Assoc.erase field.wire body)
  | .one => (tagged.getLast?.map fun l ↦ .one (some l), body)
  | .many => (some (.many tagged), body)

/-- Takes one field over into a document. -/
def decodeField (links : List Link) (acc : D × List (String × Json)) (field : FieldDescriptor) :
    Except ClientError (D × List (String × Json)) := do
  let (doc, body) := acc
  match fieldContent body links field with
  | (none, body) => return (doc, body)
  | (some value, body) => return (← writeField doc field.name value, body)

/-- The document of a body and links; members and links that no field names are left aside. -/
def decode (D : Type) [Document D] (data : Bytes) (links : List Link) : Except ClientError D :=
  match Json.parse data with
  | .error fault => .error (.json fault)
  | .ok (.object body) => ((fields D).foldlM (decodeField links) (default, body)).map (·.1)
  | .ok _ => .error (.typeMismatch typeMember .notAnObject)

end Document

/-! ## Conflicts -/

structure Conflict where
  object : Object

namespace Conflict

def siblingCount (c : Conflict) : Nat :=
  c.object.siblingCount

def siblings (c : Conflict) (D : Type) [Document D] : Except ClientError (List D) :=
  c.object.versions.mapM fun s ↦ Document.decode D s.data s.links

/-- Decodes versions into slots one after the other, up to the first fault. -/
def fill {D : Type} [Document D] : List D → List Sibling → Except ClientError Unit × List D
  | slot :: slots, s :: versions =>
      match Document.decode D s.data s.links with
      | .error e => (.error e, slot :: slots)
      | .ok doc =>
          let (result, rest) := fill slots versions
          (result, doc :: rest)
  | slots, _ => (.ok (), slots)

/-- Fills slots with the documents of the versions, if there are as many of both. -/
def siblingsInto {D : Type} [Document D] (c : Conflict) (slots : List D) :
    Except ClientError Unit × List D :=
  if slots.length = c.siblingCount then fill slots c.object.versions
  else (.error (.siblingCountMismatch c.siblingCount slots.length), slots)

end Conflict

/-- A type of documents with a rule that makes one document of several versions, given their number
and a document to begin with.  The usual rule is to decline. -/
class Mergeable (D : Type) extends Document D where
  resolve : (count : Nat) → Conflict → D → Except ClientError D :=
    fun _ _ _ ↦ .error .resolveNotImplemented

end ReplicaClient
