import ReplicaClient.Proofs.Object.Replies
import ReplicaClient.Store

/-!
# A store that keeps what was put last

A cabinet acknowledges every write and returns to a read what the last write put in its place.
Otherwise its replies are free: it marks contents and chooses clocks as it likes.
-/

namespace ReplicaClient

/-- The place of a content. -/
structure Address where
  bucketType : Option Bytes
  bucket : Bytes
  key : Bytes
  deriving DecidableEq, Repr

namespace Address

def untyped (bucket key : String) : Address :=
  ⟨none, Utf8.encode bucket, Utf8.encode key⟩

theorem untyped_ne {key key' : String} (h : key ≠ key') (bucket : String) :
    untyped bucket key ≠ untyped bucket key' := by
  intro heq
  apply h
  apply Utf8.encode_injective
  exact congrArg Address.key heq

end Address

structure Cabinet (σ : Type) where
  answer : (q : Request) → σ → Except ClientError q.Reply × σ
  held : σ → Address → Option Content
  acknowledges : ∀ (q : PutRequest) (s : σ),
    ∃ reply : PutReply, (answer (.put q) s).1 = .ok reply
  keeps : ∀ (q : PutRequest) (s : σ) (key : Bytes), q.key = some key →
    held (answer (.put q) s).2 ⟨q.bucketType, q.bucket, key⟩ = some q.content
  leaves : ∀ (q : PutRequest) (s : σ) (key : Bytes) (place : Address), q.key = some key →
    place ≠ ⟨q.bucketType, q.bucket, key⟩ → held (answer (.put q) s).2 place = held s place
  returns : ∀ (q : GetRequest) (s : σ) (c : Content), q.head = none → q.ifModified = none →
    held s ⟨q.bucketType, q.bucket, q.key⟩ = some c →
      ∃ (reply : GetReply) (c' : Content), (answer (.get q) s).1 = .ok reply ∧
        reply.contents = [c'] ∧ c'.value = c.value ∧ c'.usermeta = c.usermeta
  reads : ∀ (q : GetRequest) (s : σ), held (answer (.get q) s).2 = held s

namespace Cabinet

def plain : Cabinet (Address → Option Content) where
  answer
    | .put q, s => (.ok {}, fun place ↦
        if some place.key = q.key ∧ place.bucket = q.bucket ∧ place.bucketType = q.bucketType then
          some q.content
        else s place)
    | .get q, s => (.ok { contents := (s ⟨q.bucketType, q.bucket, q.key⟩).toList }, s)
    | q, s => (.ok (q.reply []), s)
  held s := s
  acknowledges _ _ := ⟨_, rfl⟩
  keeps q s key hkey := by
    dsimp only
    rw [if_pos ⟨hkey.symm, rfl, rfl⟩]
  leaves q s key place hkey hplace := by
    dsimp only
    apply if_neg
    rintro ⟨hk, hb, ht⟩
    apply hplace
    cases place
    cases hb
    cases ht
    cases hk.trans hkey
    rfl
  returns q s c _ _ hheld := by
    refine ⟨_, c, rfl, ?_, rfl, rfl⟩
    dsimp only at hheld ⊢
    rw [hheld]
    rfl
  reads _ _ := rfl

variable {σ : Type} (cabinet : Cabinet σ) (s : σ)

/-- Storing an object puts it in its place, and changes nothing else in the cabinet. -/
theorem run_store {o : Object} {bucket key : String} (hkey : key ≠ "") (hb : o.bucket = bucket)
    (ht : o.bucketType = none) (hk : o.key = key) :
    ∃ vclock vtag lastMod lastModUsecs s', o.store.run cabinet.answer s = ((.ok (),
      { o with vclock := vclock, vtag := vtag, lastMod := lastMod, lastModUsecs := lastModUsecs }),
        s') ∧
      cabinet.held s' (.untyped bucket key) = some o.toContent ∧
      ∀ place, place ≠ .untyped bucket key → cabinet.held s' place = cabinet.held s place := by
  have hput : o.putRequest.key = some (Utf8.encode key) := by
    rw [← hk] at hkey ⊢
    exact (nonEmpty_eq_some _ (Utf8.encode_ne_nil hkey)).mpr rfl
  have hplace : (⟨o.putRequest.bucketType, o.putRequest.bucket, Utf8.encode key⟩ : Address) =
      .untyped bucket key := by
    rw [Object.putRequest, Address.untyped, textBytes, ht, hb]
    rfl
  have hnamed : o.key ≠ "" := by
    rw [hk]
    exact hkey
  obtain ⟨reply, hreply⟩ := cabinet.acknowledges o.putRequest s
  obtain ⟨vclock, vtag, lastMod, lastModUsecs, hafter⟩ := Object.afterPut_eq hnamed reply
  refine ⟨vclock, vtag, lastMod, lastModUsecs, (cabinet.answer (.put o.putRequest) s).2, ?_, ?_, ?_⟩
  · unfold Object.store Dialogue.update
    dsimp only [Dialogue.run]
    rw [hreply, ← hafter]
    rfl
  · rw [← hplace]
    exact cabinet.keeps o.putRequest s _ hput
  · intro place hne
    rw [← hplace] at hne
    exact cabinet.leaves o.putRequest s _ place hput hne

/-- A read returns the value and the metadata that were put last. -/
theorem run_getFrom {bucket key : String} {c : Content} (hbucket : bucket ≠ "")
    (hheld : cabinet.held s (.untyped bucket key) = some c) (options : Options) :
    ∃ o s', (Store.getFrom bucket key options).run cabinet.answer s = (.ok o, s') ∧
      o.bucket = bucket ∧ o.bucketType = none ∧ o.key = key ∧ o.data = c.value ∧
      o.metadata = Assoc.ofList (c.usermeta.map Pair.texts) ∧
      cabinet.held s' = cabinet.held s := by
  have hempty : ¬bucket.isEmpty = true := by
    rw [String.isEmpty_iff]
    exact hbucket
  have hget : Store.getFrom bucket key options = Object.fetch bucket none key options := by
    rw [Store.getFrom, Store.bucketHandle, if_neg hempty]
    rfl
  let o : Object := { bucket, key, options }
  let q : GetRequest := {
    bucket := Utf8.encode bucket
    key := Utf8.encode key
    r := Options.wire options.r
    pr := Options.wire options.pr
    notFoundOk := some true
    deletedVclock := some true }
  obtain ⟨reply, c', hreply, hcontents, hvalue, hmeta⟩ := cabinet.returns q s c rfl rfl hheld
  refine ⟨{ o with vclock := reply.vclock.getD [] }.setContent [c'], (cabinet.answer (.get q) s).2,
    ?_, rfl, rfl, rfl, hvalue, ?_, cabinet.reads q s⟩
  · rw [hget]
    show Dialogue.run cabinet.answer (.query (.get q) o.afterFetch) s = _
    unfold Dialogue.query
    dsimp only [Dialogue.run]
    rw [hreply]
    dsimp only [Dialogue.run, Object.afterFetch]
    rw [hcontents]
  · rw [← hmeta]
    rfl

end Cabinet
end ReplicaClient
