import ReplicaClient.Model.Document
import ReplicaClient.Store

/-!
# Models

A model is a document together with the object that holds it in the store.  Saving writes
the document's body and relation links over those of the object and leaves the rest of the
object alone; loading resolves conflicts by the rule of the document's type.
-/

namespace ReplicaClient

structure Model (D : Type) where
  object : Object
  doc : D

namespace Model

def jsonContentType : String := "application/json"

variable {D : Type}

def new (bucket key : String) (doc : D) : Model D :=
  ⟨{ Store.newObjectIn bucket key with contentType := jsonContentType }, doc⟩

def key (m : Model D) : String :=
  m.object.key

def setKey (m : Model D) (key : String) : Model D :=
  { m with object := { m.object with key } }

/-- The link that leads to a model.  Only a model with a key can be linked to. -/
def linkTarget (m : Model D) : Except ClientError Link :=
  if m.key.isEmpty then .error .modelNotInitialized else .ok ⟨m.object.bucket, m.key, ""⟩

/-! ## Saving -/

/-- The tags of the relations of a document type. -/
def relationTags (D : Type) [Document D] : List String :=
  ((Document.fields D).filter (·.kind ≠ .scalar)).map (·.wire)

/-- The object with the given body, and with the given links in place of all its relation links. -/
def withDocument (o : Object) (tags : List String) (body : Bytes) (links : List Link) : Object :=
  let o := { o with links := o.links.filter (·.tag ∉ tags) }
  let o := links.foldl (fun o link ↦ (o.addLink link).2) o
  { o with data := body, contentType := jsonContentType }

def save [Document D] (m : Model D) : Dialogue (Except ClientError Unit × Model D) :=
  match Document.encode m.doc with
  | .error e => .done (.error e, m)
  | .ok (body, links) =>
      (withDocument m.object (relationTags D) body links).store.bind fun (result, object) ↦
        .done (result, { m with object })

def saveAs [Document D] (m : Model D) (key : String) :
    Dialogue (Except ClientError Unit × Model D) :=
  (m.setKey key).save

def delete (m : Model D) : Dialogue (Except ClientError Unit) :=
  m.object.delete

/-! ## Loading -/

/-- The resolver that leaves the work to the document type. -/
def documentResolver (D : Type) [Mergeable D] : Resolver (Option D) := fun count o ↦
  match Mergeable.resolve count ⟨o⟩ (default : D) with
  | .ok doc => (some doc, .ok (), o)
  | .error e => (none, .error e, o)

def ofObject [Mergeable D] (o : Object) : Except ClientError (Model D) :=
  if o.conflict then
    match o.resolve (documentResolver D) with
    | (some (some doc), .ok (), o) => .ok ⟨o, doc⟩
    | (_, .error e, _) => .error e
    | (_, .ok (), o) => .ok ⟨o, default⟩
  else (Document.decode D o.data o.links).map fun doc ↦ ⟨o, doc⟩

def load (D : Type) [Mergeable D] (bucket key : String) (options : Options) :
    Dialogue (Except ClientError (Model D)) :=
  .andThen (Store.getFrom bucket key options) fun o ↦ .done (ofObject o)

def siblings [Document D] (m : Model D) : Except ClientError (List D) :=
  (Conflict.mk m.object).siblings D

def siblingsInto [Document D] (m : Model D) (slots : List D) : Except ClientError Unit × List D :=
  (Conflict.mk m.object).siblingsInto slots

end Model

/-! ## Relations -/

namespace Relation

def set {D : Type} (target : Model D) : Except ClientError (Option Link) :=
  target.linkTarget.map some

def add {D : Type} (links : List Link) (target : Model D) : Except ClientError (List Link) := do
  let link ← target.linkTarget
  return if link ∈ links then links else links ++ [link]

def load (D : Type) [Mergeable D] (link : Option Link) : Dialogue (Except ClientError (Model D)) :=
  match link with
  | none => .refuse .modelNotInitialized
  | some l => Model.load D l.bucket l.key {}

def loadAll (D : Type) [Mergeable D] : List Link → Dialogue (Except ClientError (List (Model D)))
  | [] => .done (.ok [])
  | l :: links =>
      .andThen (Model.load D l.bucket l.key {}) fun m ↦
        .andThen (loadAll D links) fun ms ↦ .done (.ok (m :: ms))

end Relation
end ReplicaClient
