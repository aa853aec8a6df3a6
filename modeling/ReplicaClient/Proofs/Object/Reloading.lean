import ReplicaClient.Proofs.Object.Journal

/-!
# Reloading and fetching anew

A fetch makes an object of a reply and nothing else, a reload writes the reply over whatever the
object was before.  Both leave the same object but for its stamp: a reply that brings no value, or
several, clears the value of a reloaded object and leaves the stamp of the earlier value on it.
-/

namespace ReplicaClient

namespace Object

/-- The tag of a version and the time when it was written. -/
structure Stamp where
  vtag : String := ""
  lastMod : UInt32 := 0
  lastModUsecs : UInt32 := 0
  deriving DecidableEq, Repr

def stamp (o : Object) : Stamp :=
  ⟨o.vtag, o.lastMod, o.lastModUsecs⟩

def withStamp (o : Object) (s : Stamp) : Object :=
  { o with vtag := s.vtag, lastMod := s.lastMod, lastModUsecs := s.lastModUsecs }

@[simp] theorem stamp_withStamp (o : Object) (s : Stamp) : (o.withStamp s).stamp = s :=
  rfl

/-- A new object for the same place, of which nothing is known yet. -/
def blank (o : Object) (options : Options) : Object :=
  { bucket := o.bucket, bucketType := o.bucketType, key := o.key, options }

/-- What a reply makes of an object: a tombstone, if it brings no content. -/
def written (o : Object) (reply : GetReply) : Object :=
  match reply.contents with
  | [] =>
      { o.clearValue with vclock := reply.vclock.getD [], siblings := [], state := .clean }
  | contents => setContent { o with vclock := reply.vclock.getD [] } contents

/-- Whether a read has found anything, and the error that says so if it has not. -/
def verdict (o : Object) (reply : GetReply) : Except ClientError Unit :=
  if reply.contents = [] then .error (.notFound o) else .ok ()

theorem afterReload_eq (o : Object) {reply : GetReply} (h : reply.unchanged ≠ some true) :
    o.afterReload reply = ((o.written reply).verdict reply, o.written reply) := by
  have hchanged : reply.unchanged.getD false = false := by
    rcases hmark : reply.unchanged with _ | _ | _
    · rfl
    · rfl
    · exact absurd hmark h
  unfold afterReload
  rw [hchanged]
  cases hcontents : reply.contents with
  | nil => simp [verdict, written, clearValue, hcontents]
  | cons c contents => simp [verdict, written, hcontents]

/-- An object of which nothing is known yet is a tombstone already, apart from its clock. -/
theorem afterFetch_blank (o : Object) (options : Options) (reply : GetReply) :
    (o.blank options).afterFetch reply = (((o.blank options).written reply).verdict reply).map
      fun _ ↦ (o.blank options).written reply := by
  unfold afterFetch
  cases hcontents : reply.contents with
  | nil =>
      simp only [verdict, written, hcontents]
      rfl
  | cons c contents => simp [verdict, written, hcontents, Except.map]

/-- The object that a reply leaves depends on the one before it only in its options and its stamp,
and in its stamp only if the reply does not bring a single value. -/
theorem written_eq (o : Object) (options : Options) (reply : GetReply) :
    o.written reply =
      withStamp { (o.blank options).written reply with options := o.options }
        (if reply.contents.length = 1 then ((o.blank options).written reply).stamp
          else o.stamp) := by
  unfold written
  rcases reply.contents with _ | ⟨c, _ | ⟨c', contents⟩⟩ <;> rfl

theorem stamp_written_blank (o : Object) (options : Options) {reply : GetReply}
    (h : reply.contents.length ≠ 1) : ((o.blank options).written reply).stamp = {} := by
  unfold written
  rcases hcontents : reply.contents with _ | ⟨c, _ | ⟨c', contents⟩⟩
  · rfl
  · rw [hcontents] at h
    exact absurd rfl h
  · rfl

theorem written_eq_iff (o : Object) (options : Options) (reply : GetReply) :
    o.written reply = { (o.blank options).written reply with options := o.options } ↔
      reply.contents.length = 1 ∨ o.stamp = {} := by
  rw [o.written_eq options reply]
  by_cases hsingle : reply.contents.length = 1
  · rw [if_pos hsingle]
    exact iff_of_true rfl (Or.inl hsingle)
  · rw [if_neg hsingle]
    have hnone := o.stamp_written_blank options hsingle
    constructor
    · intro heq
      have hstamp := congrArg stamp heq
      rw [stamp_withStamp] at hstamp
      exact Or.inr (hstamp.trans hnone)
    · rintro (hone | hblank)
      · exact absurd hone hsingle
      · rw [hblank, ← hnone]
        rfl

/-- How a reload and a fetch of the same key, which hear the same reply, compare. -/
structure Refreshes (o : Object) (reply : GetReply) (reloaded : Except ClientError Unit × Object)
    (fetched : Except ClientError Object) : Prop where
  unchanged : reply.unchanged = some true → reloaded = (.ok (), o)
  /-- Both find something, or neither does.  Then the reloaded object is the fetched one, and the
  tombstones are the same, but for an earlier stamp. -/
  changed : reply.unchanged ≠ some true → ∃ fresh : Object,
    (reply.contents ≠ [] ∧ reloaded.1 = .ok () ∧ fetched = .ok fresh ∨
      reply.contents = [] ∧ reloaded.1 = .error (.notFound reloaded.2) ∧
        fetched = .error (.notFound fresh)) ∧
    reloaded.2 = withStamp { fresh with options := o.options }
      (if reply.contents.length = 1 then fresh.stamp else o.stamp) ∧
    (reloaded.2 = { fresh with options := o.options } ↔
      reply.contents.length = 1 ∨ o.stamp = {})

theorem refreshes (o : Object) (options : Options) (reply : GetReply) :
    o.Refreshes reply (o.afterReload reply) ((o.blank options).afterFetch reply) where
  unchanged h := by
    rw [afterReload, h]
    rfl
  changed h := by
    rw [o.afterReload_eq h, o.afterFetch_blank options]
    refine ⟨(o.blank options).written reply, ?_, o.written_eq options reply,
      o.written_eq_iff options reply⟩
    by_cases hnone : reply.contents = []
    · right
      rw [verdict, verdict, if_pos hnone, if_pos hnone]
      exact ⟨hnone, rfl, rfl⟩
    · left
      rw [verdict, verdict, if_neg hnone, if_neg hnone]
      exact ⟨hnone, rfl, rfl⟩

/-- A reload agrees with a fetch of the same key that hears the same reply, except that it leaves an
earlier stamp on an object without a value of its own.  Without a key it asks for nothing. -/
theorem reload_refreshes (o : Object) (peer : Peer) (past : Journal) :
    (o.key = "" → o.reload.run (peer.answer .reload) past = ((.error .emptyKey, o), past)) ∧
    (o.key ≠ "" → ∀ reply : GetReply, peer.reply past o.reloadRequest = .ok reply →
      ∀ (options : Options) (peer' : Peer) (past' : Journal),
        peer'.reply past' (o.blank options).fetchRequest = .ok reply →
        o.Refreshes reply (o.reload.run (peer.answer .reload) past).1
          ((fetch o.bucket o.bucketType o.key options).run (peer'.answer .fetch) past').1) := by
  constructor
  · intro hkey
    rw [reload, hkey]
    rfl
  · intro hkey reply hreply options peer' past' hreply'
    have hreload : (o.reload.run (peer.answer .reload) past).1 = o.afterReload reply := by
      rw [reload, if_neg (by simpa using hkey)]
      refine (congrArg Prod.fst
        (peer.run_update .reload o.reloadRequest past o o.afterReload)).trans ?_
      rw [hreply]
    have hfetch : ((fetch o.bucket o.bucketType o.key options).run (peer'.answer .fetch) past').1 =
        (o.blank options).afterFetch reply := by
      refine (congrArg Prod.fst (peer'.run_query .fetch (o.blank options).fetchRequest past'
        (o.blank options).afterFetch)).trans ?_
      rw [hreply']
      rfl
    rw [hreload, hfetch]
    exact o.refreshes options reply

end Object

namespace Life

/-- A peer that shows a version to the first who asks, and to others that it is gone. -/
def fleetingPeer : Peer where
  reply past
    | .get _ => .ok (if past.isEmpty then
          { contents := [{ vtag := some [118] }], vclock := some [1] }
        else { vclock := some [2] })
    | q => .ok (q.reply [])
  notFound_ne past q o h := by
    cases q <;> cases h

/-- An object is fetched. -/
def fetchedOnce : Life :=
  (new "b" none "k").run fleetingPeer [.fetch {}]

/-- Reloaded when it is gone, the object has a tag that the tombstone of a fetch does not have. -/
theorem reload_refreshes_fleeting :
    let o := fetchedOnce.object
    let gone : GetReply := { vclock := some [2] }
    let reloaded := (o.reload.run (fleetingPeer.answer .reload) fetchedOnce.journal).1
    let fetched :=
      ((Object.fetch o.bucket o.bucketType o.key {}).run (fleetingPeer.answer .fetch)
        fetchedOnce.journal).1
    o.Refreshes gone reloaded fetched ∧ o.stamp = { vtag := "v" } ∧
      fetched = .error (.notFound { o.blank {} with vclock := [2] }) ∧
      reloaded.2 = { o.blank {} with vclock := [2], vtag := "v" } ∧
      reloaded.2 ≠ { o.blank {} with vclock := [2] } := by
  intro o gone reloaded fetched
  refine ⟨?_, rfl, rfl, rfl, ?_⟩
  · exact (o.reload_refreshes fleetingPeer fetchedOnce.journal).2 (by decide) gone rfl {}
      fleetingPeer fetchedOnce.journal rfl
  · intro heq
    have hvtag := congrArg Object.vtag heq
    revert hvtag
    decide

end Life
end ReplicaClient
