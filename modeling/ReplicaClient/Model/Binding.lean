import ReplicaClient.Model.Document

/-!
# Document types by bindings

A binding ties one field of a table to one place in a structure.  A list of bindings makes a
structure a document type.
-/

namespace ReplicaClient

structure Binding (D : Type) where
  field : FieldDescriptor
  get : D → Option FieldValue
  set : FieldValue → D → Except ClientError D

namespace Binding

variable {α D : Type}

def scalar (name : String) (wireName : Option String) (s : Scalar α) (get : D → α)
    (set : α → D → D) : Binding D where
  field := ⟨name, .scalar, wireName⟩
  get d := some (.scalar (s.write (get d)))
  set v d := (v.as s name).map fun a ↦ set a d

def one (name : String) (wireName : Option String) (get : D → Option Link)
    (set : Option Link → D → D) : Binding D where
  field := ⟨name, .one, wireName⟩
  get d := some (.one (get d))
  set v d := (v.asOne name).map fun a ↦ set a d

def many (name : String) (wireName : Option String) (get : D → List Link)
    (set : List Link → D → D) : Binding D where
  field := ⟨name, .many, wireName⟩
  get d := some (.many (get d))
  set v d := (v.asMany name).map fun a ↦ set a d

/-- A field that the table lists and no document keeps. -/
def unkept (name : String) (kind : FieldKind) : Binding D where
  field := ⟨name, kind, none⟩
  get _ := none
  set _ d := .ok d

end Binding

/-- The document type of a list of bindings. -/
@[reducible] def Document.ofBindings {D : Type} [Inhabited D] (typeName : String)
    (bindings : List (Binding D)) : Document D where
  typeName := typeName
  fields := bindings.map (·.field)
  readField d name :=
    match bindings.find? (·.field.name = name) with
    | some b => .ok (b.get d)
    | none => .ok none
  writeField d name v :=
    match bindings.find? (·.field.name = name) with
    | some b => b.set v d
    | none => .ok d

end ReplicaClient
