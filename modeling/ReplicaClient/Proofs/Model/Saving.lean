import ReplicaClient.Proofs.Model.Encoding
import ReplicaClient.Proofs.Sequence.Novel

/-!
# Saving

Saving a model replaces the relation links of its object by the current ones and keeps all other
links.  What it sends depends on the object only by what it keeps, so saving again sends the same.
-/

namespace ReplicaClient

namespace Document

def relations (D : Type) [Document D] : List FieldDescriptor :=
  (fields D).filter (·.kind ≠ .scalar)

variable {D : Type} [Document D]

/-- Only relations have links, if all fields hold what the table says. -/
theorem taggedLinks_fields {doc : D}
    (hkinds : ∀ f ∈ fields D, ∀ v, readField doc f.name = .ok (some v) → v.kind = f.kind) :
    taggedLinks doc (fields D) = taggedLinks doc (relations D) := by
  have hscalar : ∀ f ∈ fields D, f.kind = .scalar → targets doc f = [] := by
    intro f hf hkind
    unfold targets
    split
    · rename_i v hread
      exact FieldValue.links_of_scalar ((hkinds f hf v hread).trans hkind)
    · rfl
  unfold relations
  generalize fields D = fs at hscalar
  induction fs with
  | nil => rfl
  | cons f fs ih =>
      obtain ⟨hf, hfs⟩ := List.forall_mem_cons.mp hscalar
      have hrest := ih hfs
      unfold taggedLinks at hrest ⊢
      by_cases hkind : f.kind = .scalar
      · simp [hkind, hf hkind, hrest]
      · simp [hkind, hrest]

theorem tag_mem_of_mem_taggedLinks {doc : D} {l : Link} (h : l ∈ taggedLinks doc (relations D)) :
    l.tag ∈ Model.relationTags D := by
  obtain ⟨f, hf, hl⟩ := List.mem_flatMap.mp h
  obtain ⟨l, -, rfl⟩ := List.mem_map.mp hl
  exact List.mem_map_of_mem hf

end Document

namespace Model

/-! ## Links of an object -/

section Links

variable {tags : List String} {links : List Link}

theorem foldl_addLink (o : Object) (links : List Link) :
    links.foldl (fun o l ↦ (o.addLink l).2) o =
      { o with links := links.foldl appendNew o.links } := by
  induction links generalizing o with
  | nil => rfl
  | cons l links ih =>
      have hfirst : (o.addLink l).2 = { o with links := appendNew o.links l } := by
        unfold Object.addLink appendNew
        by_cases h : l ∈ o.links <;> simp [h]
      rw [List.foldl_cons, ih, hfirst]
      rfl

/-- The links of an object after its relation links have been replaced. -/
def rewritten (old : List Link) (tags : List String) (links : List Link) : List Link :=
  old.filter (·.tag ∉ tags) ++ links.eraseDups

/-- No link that is kept is among the new ones, which are therefore all appended, once each. -/
theorem withDocument_eq (h : ∀ l ∈ links, l.tag ∈ tags) (o : Object) (body : Bytes) :
    withDocument o tags body links =
      { o with
        links := rewritten o.links tags links
        data := body
        contentType := jsonContentType } := by
  have hnew : links.filter (· ∉ o.links.filter (·.tag ∉ tags)) = links := by
    apply List.filter_eq_self.mpr
    intro l hl
    simp [h l hl]
  unfold withDocument rewritten
  dsimp only
  rw [foldl_addLink, foldl_appendNew, hnew]

theorem rewritten_rewritten (h : ∀ l ∈ links, l.tag ∈ tags) (old : List Link) :
    rewritten (rewritten old tags links) tags links = rewritten old tags links := by
  have hgone : links.eraseDups.filter (·.tag ∉ tags) = [] := by
    apply List.filter_eq_nil_iff.mpr
    intro l hl
    simp [h l (List.mem_eraseDups.mp hl)]
  rw [rewritten, rewritten, List.filter_append, hgone, List.filter_filter]
  simp

end Links

end Model

/-! ## What is sent -/

namespace Object

/-- The outcome of a store and the object after it. -/
def answered (o : Object) : Except ClientError PutReply → Except ClientError Unit × Object
  | .error e => (.error e, o)
  | .ok reply => (.ok (), o.afterPut reply)

theorem store_bind {α : Type} (o : Object) (f : Except ClientError Unit × Object → Dialogue α) :
    o.store.bind f = .ask (.put o.putRequest) fun reply ↦ f (o.answered reply) := by
  apply congrArg (Dialogue.ask (.put o.putRequest))
  funext reply
  cases reply <;> rfl

/-- No reply to a store changes what would be sent as the content. -/
theorem toContent_answered (o : Object) (reply : Except ClientError PutReply) :
    (o.answered reply).2.toContent = o.toContent ∧ (o.answered reply).2.links = o.links := by
  cases reply with
  | error e => exact ⟨rfl, rfl⟩
  | ok reply =>
      unfold answered afterPut
      dsimp only
      split <;> split <;> exact ⟨rfl, rfl⟩

end Object

namespace Model

variable {D : Type} [Document D]

/-- The content with a document written over it. -/
def writtenContent (o : Object) (body : Bytes) (links : List Link) : Content :=
  { o.toContent with
    value := body
    contentType := some (Utf8.encode jsonContentType)
    links := links.map Link.toWire }

theorem putRequest_withDocument {tags : List String} {links : List Link}
    (h : ∀ l ∈ links, l.tag ∈ tags) (o : Object) (body : Bytes) :
    (withDocument o tags body links).putRequest =
      { o.putRequest with content := writtenContent o body (rewritten o.links tags links) } := by
  rw [withDocument_eq h]
  rfl

/-- Writing the document over an object that shows it already changes nothing. -/
theorem content_again {tags : List String} {links : List Link} (h : ∀ l ∈ links, l.tag ∈ tags)
    {o o' : Object} {body : Bytes}
    (hcontent : o'.toContent = (withDocument o tags body links).toContent)
    (hlinks : o'.links = (withDocument o tags body links).links) :
    (withDocument o' tags body links).putRequest.content =
      (withDocument o tags body links).putRequest.content := by
  have hfirst : (withDocument o tags body links).links = rewritten o.links tags links := by
    rw [withDocument_eq h]
  have hover (ls : List Link) :
      writtenContent (withDocument o tags body links) body ls = writtenContent o body ls := by
    rw [withDocument_eq h]
    rfl
  calc (withDocument o' tags body links).putRequest.content
      = writtenContent o' body (rewritten o'.links tags links) := by
        rw [putRequest_withDocument h]
    _ = writtenContent (withDocument o tags body links) body
          (rewritten (rewritten o.links tags links) tags links) := by
        rw [hlinks, hfirst, writtenContent, hcontent]
        rfl
    _ = writtenContent o body (rewritten o.links tags links) := by
        rw [rewritten_rewritten h, hover]
    _ = (withDocument o tags body links).putRequest.content := by
        rw [putRequest_withDocument h]

/-- A save of a document that can be encoded is one write.  It sends the links of the object that no
relation has, all of them and in their order, and behind them those of the relations, once each, and
leaves the rest of the object as it is.  Whatever is replied, the next save sends the same content.
-/
theorem save_sends (m : Model D)
    (hkinds : ∀ f ∈ Document.fields D, ∀ v,
      Document.readField m.doc f.name = .ok (some v) → v.kind = f.kind) :
    (∀ e, Document.encode m.doc = .error e → m.save = .done (.error e, m)) ∧
    ∀ body links, Document.encode m.doc = .ok (body, links) →
      ∃ q next, m.save = .ask (.put q) next ∧
        q = { m.object.putRequest with
          content := { m.object.toContent with
            value := body
            contentType := some (Utf8.encode jsonContentType)
            links := (m.object.links.filter (·.tag ∉ relationTags D) ++
              (Document.taggedLinks m.doc (Document.relations D)).eraseDups).map Link.toWire } } ∧
        ∀ reply, ∃ result m' q' next', next reply = .done (result, m') ∧ m'.doc = m.doc ∧
          m'.save = .ask (.put q') next' ∧ q'.content = q.content := by
  constructor
  · intro e hencode
    rw [save, hencode]
  · intro body links hencode
    obtain ⟨-, -, hlinks⟩ := Document.encode_eq_ok.mp hencode
    rw [Document.taggedLinks_fields hkinds] at hlinks
    have htags : ∀ l ∈ links, l.tag ∈ relationTags D := by
      intro l hl
      rw [hlinks] at hl
      exact Document.tag_mem_of_mem_taggedLinks hl
    have hsave (m' : Model D) (hdoc : m'.doc = m.doc) : m'.save =
        .ask (.put (withDocument m'.object (relationTags D) body links).putRequest) fun reply ↦
          let after := (withDocument m'.object (relationTags D) body links).answered reply
          .done (after.1, { m' with object := after.2 }) := by
      rw [save, hdoc, hencode]
      exact Object.store_bind _ _
    refine ⟨_, _, hsave m rfl, ?_, fun reply ↦ ⟨_, _, _, _, rfl, rfl, hsave _ rfl, ?_⟩⟩
    · rw [putRequest_withDocument htags, hlinks]
      rfl
    · obtain ⟨hcontent, hsame⟩ := Object.toContent_answered _ reply
      exact content_again htags hcontent hsame

/-- A card with an owner and twice the same peer. -/
def card : Model Card :=
  ⟨{ bucket := "b", key := "k", links := [⟨"b", "x", "belongs_to"⟩, ⟨"b", "y", "seen"⟩] },
    { owner := some ⟨"b", "z", ""⟩, peers := [⟨"b", "p", ""⟩, ⟨"b", "p", ""⟩] }⟩

theorem save_sends_card : ∃ q next, card.save = .ask (.put q) next ∧
    q.content.links = [⟨"b", "y", "seen"⟩, ⟨"b", "z", "belongs_to"⟩,
      (⟨"b", "p", "peers"⟩ : Link)].map Link.toWire := by
  have hkinds : ∀ f ∈ Document.fields Card, ∀ v,
      Document.readField card.doc f.name = .ok (some v) → v.kind = f.kind := by
    intro f hf v hread
    obtain ⟨v', hread', hkind⟩ := card.doc.readField_of_mem hf
    rw [hread'] at hread
    cases hread
    exact hkind
  have hreads : ∀ f ∈ Document.fields Card, ∃ v, Document.readField card.doc f.name = .ok v := by
    intro f hf
    obtain ⟨v, hread, -⟩ := card.doc.readField_of_mem hf
    exact ⟨some v, hread⟩
  obtain ⟨q, next, hsave, rfl, -⟩ := (save_sends card hkinds).2 _ _
    (Document.encode_eq_ok.mpr ⟨hreads, rfl, rfl⟩)
  refine ⟨_, next, hsave, ?_⟩
  apply congrArg (List.map Link.toWire)
  decide

end Model
end ReplicaClient
