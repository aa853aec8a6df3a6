import ReplicaClient.Assoc
import ReplicaClient.Object.Content
import ReplicaClient.Quorum

/-!
# Objects

An object is the local copy of what the store holds under a key: a value, or several
versions that were written side by side, together with the clock that names the versions it
has been shown.
-/

namespace ReplicaClient

structure Link where
  bucket : String
  key : String
  tag : String
  deriving DecidableEq, Repr, Inhabited

namespace Link

def ofWire (l : WireLink) : Link :=
  ⟨Utf8.decodeLossy (l.bucket.getD []), Utf8.decodeLossy (l.key.getD []),
    Utf8.decodeLossy (l.tag.getD [])⟩

def toWire (l : Link) : WireLink :=
  ⟨some (Utf8.encode l.bucket), some (Utf8.encode l.key), some (Utf8.encode l.tag)⟩

end Link

abbrev Meta := List (String × String)

/-- The values under each index, both in order. -/
abbrev Indexes := List (String × List String)

namespace Indexes

def add (indexes : Indexes) (index value : String) : Indexes :=
  Assoc.insert index (Assoc.insertKey value ((Assoc.find? index indexes).getD [])) indexes

def ofPairs (pairs : List Pair) : Indexes :=
  pairs.foldl (fun indexes p ↦ add indexes p.texts.1 p.texts.2) []

def toPairs (indexes : Indexes) : List Pair :=
  indexes.flatMap fun (index, values) ↦ values.map (Pair.ofTexts index)

end Indexes

/-- One of several versions of an object. -/
structure Sibling where
  contentType : String := ""
  data : Bytes := []
  links : List Link := []
  metadata : Meta := []
  indexes : Indexes := []
  vtag : String := ""
  lastMod : UInt32 := 0
  lastModUsecs : UInt32 := 0
  deleted : Bool := false
  deriving DecidableEq, Repr, Inhabited

namespace Sibling

def ofContent (c : Content) : Sibling where
  contentType := Utf8.decodeLossy (c.contentType.getD [])
  data := c.value
  links := c.links.map Link.ofWire
  metadata := Assoc.ofList (c.usermeta.map Pair.texts)
  indexes := Indexes.ofPairs c.indexes
  vtag := Utf8.decodeLossy (c.vtag.getD [])
  lastMod := c.lastMod.getD 0
  lastModUsecs := c.lastModUsecs.getD 0
  deleted := c.deleted.getD false

/-- A version without data, such as the trace of a deletion. -/
def isEmpty (s : Sibling) : Bool :=
  s.data.isEmpty

end Sibling

/-- Whether an object is one value, several versions, or on the way from these to that. -/
inductive ConflictState where
  | clean
  | conflicted
  | resolving
  deriving DecidableEq, Repr, Inhabited

def ConflictState.name : ConflictState → String
  | clean => "Clean"
  | conflicted => "Conflicted"
  | resolving => "Resolving"

structure Object where
  bucket : String
  bucketType : Option String := none
  key : String
  vclock : Bytes := []
  contentType : String := ""
  data : Bytes := []
  links : List Link := []
  metadata : Meta := []
  indexes : Indexes := []
  vtag : String := ""
  lastMod : UInt32 := 0
  lastModUsecs : UInt32 := 0
  siblings : List Sibling := []
  options : Options := {}
  state : ConflictState := .clean
  deriving DecidableEq, Repr, Inhabited

namespace Object

def adopt (o : Object) (s : Sibling) : Object :=
  { o with
    contentType := s.contentType
    data := s.data
    links := s.links
    metadata := s.metadata
    indexes := s.indexes
    vtag := s.vtag
    lastMod := s.lastMod
    lastModUsecs := s.lastModUsecs }

def clearValue (o : Object) : Object :=
  { o with contentType := "", data := [], links := [], metadata := [], indexes := [] }

/-- Takes over what a read returned: a single content becomes the value, several become
siblings. -/
def setContent (o : Object) (contents : List Content) : Object :=
  match contents with
  | [] => o
  | [c] => { o with siblings := [], state := .clean }.adopt (.ofContent c)
  | _ => { o.clearValue with siblings := contents.map Sibling.ofContent, state := .conflicted }

/-- The value as it is sent; text is sent only if there is any. -/
def toContent (o : Object) : Content where
  value := o.data
  contentType := if o.contentType.isEmpty then none else some (Utf8.encode o.contentType)
  links := o.links.map Link.toWire
  usermeta := o.metadata.map fun (k, v) ↦ Pair.ofTexts k v
  indexes := o.indexes.toPairs

def addIndex (o : Object) (index value : String) : Object :=
  { o with indexes := o.indexes.add index value }

/-- Appends a link to an object; one that has no bucket or key cannot be linked to. -/
def linkTo (o target : Object) (tag : String) : Object :=
  if target.bucket.isEmpty || target.key.isEmpty then o
  else { o with links := o.links ++ [⟨target.bucket, target.key, tag⟩] }

/-- Appends a link unless it is there already, and tells whether it did. -/
def addLink (o : Object) (link : Link) : Bool × Object :=
  if link ∈ o.links then (false, o) else (true, { o with links := o.links ++ [link] })

end Object
end ReplicaClient
