import ReplicaClient.Proofs.Object.Provenance
import ReplicaClient.Store

/-!
# What is told of a place

An answer to a read tells the contents of a place, and an error in its place tells that there are
none.  A write tells one content, whether or not it arrives.  An object that was read or written
last has the value of the one content that was told, and no value if there were several.
-/

namespace ReplicaClient

/-- The value that an object takes over. -/
def octets : List Content → Bytes
  | [c] => c.value
  | _ => []

namespace Entry

def contents : Entry → List Content
  | ⟨_, .get _, .ok reply⟩ => reply.contents
  | ⟨_, .put q, _⟩ => [q.content]
  | _ => []

/-- The contents that an entry tells of a place, if it is about that place. -/
def tells? (place : Place) (e : Entry) : Option (List Content) :=
  if e.request.place? = some place then some e.contents else none

theorem tells?_of_place {e : Entry} {place : Place} (h : e.request.place? = some place) :
    e.tells? place = some e.contents :=
  if_pos h

theorem tells?_of_ne {e : Entry} {place place' : Place} (h : e.request.place? = some place')
    (hne : place' ≠ place) : e.tells? place = none := by
  apply if_neg
  rw [h]
  exact fun heq ↦ hne (Option.some.inj heq)

end Entry

namespace Journal

/-- What was told of a place last. -/
def told (place : Place) (journal : Journal) : Option (List Content) :=
  journal.last (Entry.tells? place)

end Journal

def Request.call : Request → Call
  | .put _ => .store
  | .delete _ => .delete
  | _ => .fetch

namespace Peer

/-- Shows the same contents of a key at all times. -/
def showing (contents : Bytes → List Content) : Peer where
  reply _
    | .get q => .ok { contents := contents q.key }
    | q => .ok (q.reply [])
  notFound_ne _ q o := by
    cases q <;> exact fun h ↦ nomatch h

/-- Answers any request by what has been said so far. -/
def serve (peer : Peer) (q : Request) (past : Journal) : Except ClientError q.Reply × Journal :=
  peer.answer q.call q past

end Peer

namespace Object

/-- An object that has the value told last of its place, and is not of any type. -/
structure Faithful (journal : Journal) (bucket : String) (o : Object) : Prop where
  bucket : o.bucket = bucket
  untyped : o.bucketType = none
  told : ∃ contents, contents ≠ [] ∧ journal.told o.place = some contents ∧
    o.data = octets contents

/-- A fetched object is at its place and has the value told, and there is none without contents. -/
theorem afterFetch_cases (o : Object) (reply : GetReply) :
    (∃ e, o.afterFetch reply = .error e ∧ reply.contents = []) ∨
    ∃ o', o.afterFetch reply = .ok o' ∧ reply.contents ≠ [] ∧ o'.bucket = o.bucket ∧
      o'.bucketType = o.bucketType ∧ o'.key = o.key ∧ o'.data = octets reply.contents := by
  unfold afterFetch
  dsimp only
  rcases reply.contents with _ | ⟨c, _ | ⟨c', contents⟩⟩
  · exact Or.inl ⟨_, rfl, rfl⟩
  · exact Or.inr ⟨_, rfl, List.cons_ne_nil _ _, rfl, rfl, rfl, rfl⟩
  · exact Or.inr ⟨_, rfl, List.cons_ne_nil _ _, rfl, rfl, rfl, rfl⟩

/-- A reply to a write leaves the bucket and the value. -/
theorem afterPut_leaves (o : Object) (reply : PutReply) :
    (o.afterPut reply).bucket = o.bucket ∧ (o.afterPut reply).bucketType = o.bucketType ∧
      (o.afterPut reply).data = o.data := by
  rw [afterPut]
  dsimp only
  split <;> split <;> exact ⟨rfl, rfl, rfl⟩

end Object

namespace Peer

variable (peer : Peer) (past : Journal)

/-- A read brings a faithful object, or fails and tells that there are no contents. -/
theorem getFrom_cases {bucket : String} (hbucket : bucket ≠ "") (key : String) (options : Options) :
    (∃ o journal, (Store.getFrom bucket key options).run peer.serve past = (.ok o, journal) ∧
      o.key = key ∧ o.Faithful journal bucket) ∨
    ∃ e journal, (Store.getFrom bucket key options).run peer.serve past = (.error e, journal) ∧
      journal.told ⟨Utf8.encode bucket, none, Utf8.encode key⟩ = some [] := by
  let o : Object := { bucket, key, options }
  let q : GetRequest := {
    bucket := Utf8.encode bucket
    key := Utf8.encode key
    r := Options.wire options.r
    pr := Options.wire options.pr
    notFoundOk := some true
    deletedVclock := some true }
  have hquery : Store.getFrom bucket key options = .query (.get q) o.afterFetch := by
    rw [Store.getFrom, Store.bucketHandle, if_neg (by rwa [String.isEmpty_iff])]
    rfl
  have htells (reply : Except ClientError GetReply) :
      Journal.told o.place (past ++ [⟨.fetch, .get q, reply⟩]) =
        some (Entry.contents ⟨.fetch, .get q, reply⟩) :=
    Journal.last_concat_of_some (Entry.tells?_of_place rfl) past
  have hrun : (Store.getFrom bucket key options).run peer.serve past =
      ((peer.reply past (.get q)).bind o.afterFetch,
        past ++ [⟨.fetch, .get q, peer.reply past (.get q)⟩]) := by
    rw [hquery]
    exact Dialogue.run_query peer.serve (.get q) past o.afterFetch
  rw [hrun]
  cases peer.reply past (.get q) with
  | error e => exact Or.inr ⟨e, _, rfl, htells _⟩
  | ok reply =>
      have htold := htells (.ok reply)
      rcases o.afterFetch_cases reply with
        ⟨e, hafter, hnone⟩ | ⟨o', hafter, hsome, hbucket, huntyped, hkey, hdata⟩
      · refine Or.inr ⟨e, _, Prod.ext hafter rfl, ?_⟩
        exact htold.trans (congrArg some hnone)
      · have hplace : o'.place = o.place := by
          rw [Object.place, hbucket, huntyped, hkey]
          rfl
        refine Or.inl ⟨o', _, Prod.ext hafter rfl, hkey, hbucket, huntyped, _, hsome, ?_, hdata⟩
        exact (congrArg (Journal.told · _) hplace).trans htold

/-- A write leaves the object with its value, and tells that value of its place. -/
theorem store_cases (o : Object) :
    ∃ result o' e, o.store.run peer.serve past = ((result, o'), past ++ [e]) ∧
      e.request.place? = some o.place ∧ e.contents = [o.toContent] ∧
      o'.bucket = o.bucket ∧ o'.bucketType = o.bucketType ∧ o'.data = o.data ∧
      (o.key ≠ "" → o'.key = o.key) := by
  have hserve : o.store.run peer.serve past = o.store.run (peer.answer .store) past := by
    rw [Object.store, Dialogue.run_update, Dialogue.run_update]
    rfl
  have hrun := peer.run_update .store (.put o.putRequest) past o
    fun reply ↦ (.ok (), o.afterPut reply)
  refine ⟨_, _, ⟨.store, .put o.putRequest, peer.reply past (.put o.putRequest)⟩,
    hserve.trans hrun, o.place?_putRequest, rfl, ?_⟩
  cases peer.reply past (.put o.putRequest) with
  | error e => exact ⟨rfl, rfl, rfl, fun _ ↦ rfl⟩
  | ok reply =>
      obtain ⟨hbucket, huntyped, hdata⟩ := o.afterPut_leaves reply
      refine ⟨hbucket, huntyped, hdata, fun hkey ↦ ?_⟩
      obtain ⟨vclock, vtag, lastMod, lastModUsecs, hafter⟩ := Object.afterPut_eq hkey reply
      show (o.afterPut reply).key = o.key
      rw [hafter]

end Peer

end ReplicaClient
