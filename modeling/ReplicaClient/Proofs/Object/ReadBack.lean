import ReplicaClient.Proofs.Object.Contents
import ReplicaClient.Proofs.Object.Grouping

/-!
# Stored objects read back unchanged

A depot reads the octets of a write and sends the content that they carry back to every reader, as
octets.  It may mark the content with a tag and a time, and chooses its clock.  What a client
fetches from it is the object that was stored there, text for text and octet for octet.
-/

namespace ReplicaClient

open Wire

/-- What a store notes of a version when it is written. -/
structure Marks where
  vtag : Option Bytes := none
  lastMod : Option UInt32 := none
  lastModUsecs : Option UInt32 := none
  deriving DecidableEq, Repr

def Content.mark (marks : Marks) (c : Content) : Content :=
  { c with vtag := marks.vtag, lastMod := marks.lastMod, lastModUsecs := marks.lastModUsecs }

structure Depot where
  content : Option Content := none
  marks : Marks := {}
  vclock : Option Bytes := none
  deriving DecidableEq, Repr

namespace Depot

def keep (d : Depot) (c : Content) : Depot :=
  { d with content := some (c.mark d.marks) }

def reply (d : Depot) : GetReply where
  contents := d.content.toList
  vclock := d.vclock

def putOctets (q : PutRequest) : Bytes :=
  q.toMessage.encode .putRequest

def replyOctets (d : Depot) : Bytes :=
  d.reply.toMessage.encode .getReply

/-- The depot knows nothing of a request but its octets, and so does a client of a reply. -/
def answer (q : Request) (d : Depot) : Except ClientError q.Reply × Depot :=
  match q with
  | .put q =>
      match Message.decode .putRequest (putOctets q) with
      | .ok m => (.ok { vclock := d.vclock }, d.keep (PutRequest.contentOf m))
      | .error e => (.error (.decode e), d)
  | .get q =>
      match Message.decode .getReply d.replyOctets with
      | .ok m => (.ok (Request.reply (.get q) [m]), d)
      | .error e => (.error (.decode e), d)
  | _ => (.error (.server "unsupported request" 1), d)

theorem answer_put {q : PutRequest} (hsize : (putOctets q).length < UInt64.size) (d : Depot) :
    d.answer (.put q) = (.ok { vclock := d.vclock }, d.keep q.content) := by
  rw [answer, putOctets, q.decode_encode hsize]
  dsimp only
  rw [PutRequest.contentOf_toMessage]

theorem answer_get {d : Depot} (hsize : d.replyOctets.length < UInt64.size) (q : GetRequest) :
    d.answer (.get q) = (.ok d.reply, d) := by
  rw [answer, replyOctets, d.reply.decode_encode hsize]
  dsimp only
  exact congrArg (fun r ↦ (Except.ok r, d)) d.reply.ofMessage_toMessage

end Depot

/-! ## From the value to the wire and back -/

namespace Link

theorem ofWire_toWire (l : Link) : ofWire l.toWire = l := by
  simp only [toWire, ofWire, Option.getD_some, Utf8.decodeLossy_encode]

end Link

namespace Object

variable {o : Object}

/-- Empty text is not sent, and is what is read where there is none. -/
theorem contentType_toContent (o : Object) :
    Utf8.decodeLossy (o.toContent.contentType.getD []) = o.contentType := by
  rw [toContent]
  split
  · rename_i hempty
    rw [String.isEmpty_iff.mp hempty]
    rfl
  · exact Utf8.decodeLossy_encode _

/-- The other object has the value of the first, and is not in conflict. -/
structure ReadsAs (o o' : Object) : Prop where
  state : o'.state = .clean
  siblings : o'.siblings = []
  contentType : o'.contentType = o.contentType
  data : o'.data = o.data
  links : o'.links = o.links
  metadata : o'.metadata = o.metadata
  indexes : o'.indexes = o.indexes

theorem ReadsAs.content_putRequest {o' : Object} (h : o.ReadsAs o') :
    o'.putRequest.content = o.putRequest.content := by
  show o'.toContent = o.toContent
  rw [toContent, toContent, h.contentType, h.data, h.links, h.metadata, h.indexes]

/-- An object takes the value of another from its content, however that was marked. -/
theorem readsAs_setContent (h : o.Tidy) (marks : Marks) (empty : Object) :
    o.ReadsAs (empty.setContent [o.toContent.mark marks]) where
  state := rfl
  siblings := rfl
  contentType := o.contentType_toContent
  data := rfl
  links := Function.LeftInverse.list_map Link.ofWire_toWire o.links
  metadata := by
    have hpairs : (o.metadata.map fun p ↦ Pair.ofTexts p.1 p.2).map Pair.texts = o.metadata :=
      Function.LeftInverse.list_map (fun p ↦ Pair.texts_ofTexts p.1 p.2) o.metadata
    show Assoc.ofList ((o.metadata.map fun p ↦ Pair.ofTexts p.1 p.2).map Pair.texts) = o.metadata
    rw [hpairs]
    exact Assoc.ofList_of_ordered h.metadata
  indexes := Indexes.ofPairs_toPairs h.indexes

end Object

/-! ## Storing and fetching -/

namespace Depot

theorem run_store {o : Object} (hsize : (putOctets o.putRequest).length < UInt64.size)
    (d : Depot) : ∃ stored, o.store.run answer d = ((.ok (), stored), d.keep o.toContent) := by
  refine ⟨o.afterPut { vclock := d.vclock }, ?_⟩
  rw [Object.store, Dialogue.update, Dialogue.run, answer_put hsize]
  rfl

/-- An object that was stored is fetched with all of its value, and storing what was fetched
changes nothing. -/
theorem fetch_readsAs {o : Object} (h : o.Tidy) (d : Depot)
    (hput : (putOctets o.putRequest).length < UInt64.size)
    (hreply : (d.keep o.toContent).replyOctets.length < UInt64.size)
    (bucket : String) (bucketType : Option String) (key : String) (options : Options) :
    ∃ stored fetched, o.store.run answer d = ((.ok (), stored), d.keep o.toContent) ∧
      (Object.fetch bucket bucketType key options).run answer (d.keep o.toContent) =
        (.ok fetched, d.keep o.toContent) ∧
      o.ReadsAs fetched ∧ fetched.putRequest.content = o.putRequest.content ∧
      ((putOctets fetched.putRequest).length < UInt64.size →
        ∃ again, fetched.store.run answer (d.keep o.toContent) =
          ((.ok (), again), d.keep o.toContent)) := by
  obtain ⟨stored, hstored⟩ := run_store hput d
  let empty : Object := { bucket, bucketType, key, options, vclock := d.vclock.getD [] }
  have hreads := Object.readsAs_setContent h d.marks empty
  have hsame := hreads.content_putRequest
  refine ⟨stored, empty.setContent [o.toContent.mark d.marks], hstored, ?_, hreads, hsame, ?_⟩
  · simp only [Object.fetch, Dialogue.query, Dialogue.run, Object.fetchRequest,
      answer_get hreply]
    rfl
  · intro hsize
    obtain ⟨again, hagain⟩ := run_store hsize (d.keep o.toContent)
    refine ⟨again, hagain.trans ?_⟩
    show (_, (d.keep o.toContent).keep (empty.setContent _).putRequest.content) = _
    rw [hsame]
    rfl

/-- Text beyond ASCII, empty text, a link that occurs twice, and an index with several values. -/
def sample : Object where
  bucket := "b"
  key := "k"
  contentType := "é"
  data := [0, 255]
  links := [⟨"", "→", ""⟩, ⟨"", "→", ""⟩]
  metadata := [("", "x"), ("𝄞", "")]
  indexes := [("i", ["1", "é"]), ("j", [""])]

def sampleDepot : Depot where
  marks := { vtag := some [118], lastMod := some 1700000000 }
  vclock := some [1]

theorem tidy_sample : sample.Tidy := by
  constructor
  · show ["", "𝄞"].Pairwise (· < ·)
    decide
  · constructor
    · show ["i", "j"].Pairwise (· < ·)
      decide
    · decide
    · decide

/-- The sample as it travels, with the slots that a depot fills. -/
def sampleMessage (vtag lastMod : Slot) : Message :=
  [[.bytes [0, 255]], [.bytes [195, 169]], [], [], vtag,
    [.message [[.bytes []], [.bytes [226, 134, 146]], [.bytes []]],
      .message [[.bytes []], [.bytes [226, 134, 146]], [.bytes []]]], lastMod, [],
    [.message [[.bytes []], [.bytes [120]]],
      .message [[.bytes [240, 157, 132, 158]], [.bytes []]]],
    [.message [[.bytes [105]], [.bytes [49]]], .message [[.bytes [105]], [.bytes [195, 169]]],
      .message [[.bytes [106]], [.bytes []]]], []]

theorem putOctets_sample : (putOctets sample.putRequest).length < UInt64.size := by
  have hmessage : sample.putRequest.toMessage = [[.bytes [98]], [.bytes [107]], [],
      [.message (sampleMessage [] [])], [], [], [], [], [], [], [.flag true], [], [], [], [],
      []] := rfl
  rw [putOctets, Message.length_encode, hmessage]
  simp [sampleMessage, Message.encodedSize, MessageType.fields, Value.encodedSlotsSize,
    Value.encodedSlotSize, Value.encodedSize, keySize, delimitedSize, Varint.size,
    WireType.number, Kind.wireType, UInt64.size]

theorem replyOctets_sample :
    (sampleDepot.keep sample.toContent).replyOctets.length < UInt64.size := by
  have hmessage : (sampleDepot.keep sample.toContent).reply.toMessage =
      [[.message (sampleMessage [.bytes [118]] [.word 1700000000])], [.bytes [1]], []] := rfl
  rw [replyOctets, Message.length_encode, hmessage]
  simp [sampleMessage, Message.encodedSize, MessageType.fields, Value.encodedSlotsSize,
    Value.encodedSlotSize, Value.encodedSize, keySize, delimitedSize, Varint.size,
    WireType.number, Kind.wireType, UInt64.size]

theorem fetch_readsAs_sample :
    sample.Tidy ∧ (putOctets sample.putRequest).length < UInt64.size ∧
      (sampleDepot.keep sample.toContent).replyOctets.length < UInt64.size ∧
      ∃ fetched, (Object.fetch "b" none "k" {}).run answer (sampleDepot.keep sample.toContent) =
        (.ok fetched, sampleDepot.keep sample.toContent) ∧ sample.ReadsAs fetched := by
  obtain ⟨stored, fetched, -, hfetched, hreads, -⟩ :=
    fetch_readsAs tidy_sample sampleDepot putOctets_sample replyOctets_sample "b" none "k" {}
  exact ⟨tidy_sample, putOctets_sample, replyOctets_sample, fetched, hfetched, hreads⟩

end Depot
end ReplicaClient
