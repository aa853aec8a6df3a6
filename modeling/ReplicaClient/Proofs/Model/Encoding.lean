import ReplicaClient.Model
import ReplicaClient.Model.Binding
import ReplicaClient.Proofs.DataType.Ordered

/-!
# What a document is encoded to

The scalars of a document go into a body and its relations into links, which lose the tags that they
had and get the wire names of their fields.
-/

namespace ReplicaClient

/-! ## Values of fields -/

def Link.retag (wire : String) (l : Link) : Link :=
  { l with tag := wire }

namespace FieldValue

/-- The value with its links, if it has any, tagged anew. -/
def retag (wire : String) : FieldValue → FieldValue
  | scalar j => scalar j
  | one link => one (link.map (Link.retag wire))
  | many links => many (links.map (Link.retag wire))

def links : FieldValue → List Link
  | scalar _ => []
  | one link => link.toList
  | many links => links

@[simp] theorem kind_retag (wire : String) (v : FieldValue) : (v.retag wire).kind = v.kind := by
  cases v <;> rfl

@[simp] theorem links_retag (wire : String) (v : FieldValue) :
    (v.retag wire).links = v.links.map (Link.retag wire) := by
  cases v with
  | one link => cases link <;> rfl
  | _ => rfl

theorem links_of_scalar {v : FieldValue} (h : v.kind = .scalar) : v.links = [] := by
  cases v with
  | scalar j => rfl
  | _ => cases h

end FieldValue

namespace Document

variable {D : Type} [Document D] {doc : D}

/-- The links to the current targets of a field, as the document has them. -/
def targets (doc : D) (f : FieldDescriptor) : List Link :=
  match readField doc f.name with
  | .ok (some v) => v.links
  | _ => []

/-- A body with the scalar of a field, if it has one. -/
def enter (doc : D) (body : List (String × Json)) (f : FieldDescriptor) : List (String × Json) :=
  match readField doc f.name with
  | .ok (some (.scalar j)) => Assoc.insert f.wire j body
  | _ => body

/-- The links with which a document is stored. -/
def taggedLinks (doc : D) (fs : List FieldDescriptor) : List Link :=
  fs.flatMap fun f ↦ (targets doc f).map (Link.retag f.wire)

theorem encodeField_eq (doc : D) (body : List (String × Json)) (links : List Link)
    (f : FieldDescriptor) :
    encodeField doc (body, links) f = (readField doc f.name).map fun _ ↦
      (enter doc body f, links ++ (targets doc f).map (Link.retag f.wire)) := by
  unfold encodeField enter targets
  cases hread : readField doc f.name with
  | error e => rfl
  | ok v =>
      have hnone : links ++ [] = links := List.append_nil links
      cases v with
      | none => exact congrArg (fun l ↦ Except.ok (body, l)) hnone.symm
      | some v =>
          cases v with
          | scalar j => exact congrArg (fun l ↦ Except.ok (_, l)) hnone.symm
          | one link => rfl
          | many ls => rfl

theorem foldlM_encodeField_eq_ok {fs : List FieldDescriptor} {body : List (String × Json)}
    {links : List Link} {r : List (String × Json) × List Link} :
    fs.foldlM (encodeField doc) (body, links) = .ok r ↔
      (∀ f ∈ fs, ∃ v, readField doc f.name = .ok v) ∧
        r = (fs.foldl (enter doc) body, links ++ taggedLinks doc fs) := by
  induction fs generalizing body links with
  | nil =>
      have hnone : links ++ taggedLinks doc [] = links := List.append_nil links
      rw [hnone]
      constructor
      · rintro ⟨⟩
        exact ⟨nofun, rfl⟩
      · rintro ⟨-, rfl⟩
        rfl
  | cons f fs ih =>
      rw [List.foldlM_cons, encodeField_eq, List.forall_mem_cons]
      cases hread : readField doc f.name with
      | error e =>
          constructor
          · intro h
            cases h
          · rintro ⟨⟨⟨v, hv⟩, -⟩, -⟩
            cases hv
      | ok v =>
          have hlinks : links ++ (targets doc f).map (Link.retag f.wire) ++ taggedLinks doc fs =
              links ++ taggedLinks doc (f :: fs) := by
            rw [taggedLinks, taggedLinks, List.flatMap_cons, List.append_assoc]
          have hfirst : ∃ w, (Except.ok v : Except ClientError (Option FieldValue)) = .ok w :=
            ⟨v, rfl⟩
          show fs.foldlM (encodeField doc)
            (enter doc body f, links ++ (targets doc f).map (Link.retag f.wire)) = .ok r ↔ _
          rw [ih, hlinks, and_iff_right hfirst]
          rfl

/-- The members of the body to which a document is encoded. -/
def members (doc : D) : List (String × Json) :=
  (fields D).foldl (enter doc) [(typeMember, .string (typeName D))]

/-- A document can be encoded if all its fields can be read. -/
theorem encode_eq_ok {data : Bytes} {links : List Link} : encode doc = .ok (data, links) ↔
    (∀ f ∈ fields D, ∃ v, readField doc f.name = .ok v) ∧
      data = Utf8.encode (Json.object (members doc)).render ∧
      links = taggedLinks doc (fields D) := by
  have hfold {r : List (String × Json) × List Link} :=
    @foldlM_encodeField_eq_ok D _ doc (fields D) [(typeMember, .string (typeName D))] [] r
  unfold encode
  cases hall : (fields D).foldlM (encodeField doc) ([(typeMember, .string (typeName D))], []) with
  | error e =>
      constructor
      · intro h
        cases h
      · rintro ⟨hreads, -, -⟩
        have hok := hfold.mpr ⟨hreads, rfl⟩
        rw [hall] at hok
        cases hok
  | ok r =>
      obtain ⟨hreads, rfl⟩ := hfold.mp hall
      constructor
      · intro h
        cases h
        exact ⟨hreads, rfl, rfl⟩
      · rintro ⟨-, rfl, rfl⟩
        rfl

end Document
/-! ## Cards -/

/-- A document with a field of each kind. -/
structure Card where
  title : String := ""
  owner : Option Link := none
  peers : List Link := []
  deriving Inhabited

instance : Document Card := .ofBindings "Card" [
  .scalar "title" none .text (·.title) fun title c ↦ { c with title },
  .one "owner" (some "belongs_to") (·.owner) fun owner c ↦ { c with owner },
  .many "peers" none (·.peers) fun peers c ↦ { c with peers }]

theorem Card.readField_of_mem (c : Card) {f : FieldDescriptor} (hf : f ∈ Document.fields Card) :
    ∃ v, Document.readField c f.name = .ok (some v) ∧ v.kind = f.kind := by
  change f ∈ [⟨"title", .scalar, none⟩, ⟨"owner", .one, some "belongs_to"⟩,
    ⟨"peers", .many, none⟩] at hf
  simp only [List.mem_cons, List.not_mem_nil, or_false] at hf
  rcases hf with rfl | rfl | rfl
  · exact ⟨.scalar (.string c.title), rfl, rfl⟩
  · exact ⟨.one c.owner, rfl, rfl⟩
  · exact ⟨.many c.peers, rfl, rfl⟩

end ReplicaClient
