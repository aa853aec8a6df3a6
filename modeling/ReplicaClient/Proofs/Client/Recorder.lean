import ReplicaClient.Proofs.Client.Caller
import ReplicaClient.Proofs.Client.Reassembly

/-!
# Writes on record

A client that puts on record every frame it writes, also one that gets lost on its way.  Apart from
the record it does what the client does, and nothing reaches the peer that is not on record.
-/

namespace ReplicaClient

/-- A frame that is written to a connection on behalf of a request, whether it arrives or not. -/
structure Write where
  request : Nat
  channel : Nat
  frame : Bytes
  deriving DecidableEq, Repr

/-- A client and all that has been written through it. -/
structure Recorder where
  client : Client
  writes : List Write := []

namespace Recorder

/-- All frames are written here, and here only. -/
def write (r : Recorder) (w : Write) : Except ClientError Unit × Recorder :=
  let (result, network) := r.client.network.send w.channel w.frame
  (result, { client := { r.client with network }, writes := r.writes ++ [w] })

def send (r : Recorder) (request : Nat) (code : MessageCode) (frame : Bytes) :
    Except ClientError Client.Pending × Recorder :=
  match r.client.acquire with
  | (.error e, client) => (.error e, { r with client })
  | (.ok held, client) =>
      match { r with client }.write ⟨request, held.connection.channel, frame⟩ with
      | (.error e, r) => (.error e, { r with client := r.client.settle held (some e) })
      | (.ok (), r) => (.ok ⟨held, frame, code⟩, r)

def retry (r : Recorder) (request : Nat) (p : Client.Pending) (reading : Reading) :
    Except ClientError (List Wire.Message) × Held × Recorder :=
  match r.client.reconnect p.held with
  | (.error e, held, client) => (.error e, held, { r with client })
  | (.ok (), held, client) =>
      match { r with client }.write ⟨request, held.connection.channel, p.frame⟩ with
      | (.error e, r) => (.error e, held, r)
      | (.ok (), r) =>
          match r.client.receive { p with held } reading with
          | (.error e, client) => (.error e, held, { r with client })
          | (.ok none, client) => (.error .connectionClosed, held, { r with client })
          | (.ok (some ms), client) => (.ok ms, held, { r with client })

def readReply (r : Recorder) (request : Nat) (p : Client.Pending) (reading : Reading) :
    Except ClientError (List Wire.Message) × Held × Recorder :=
  match r.client.receive p reading with
  | (.error e, client) => (.error e, p.held, { r with client })
  | (.ok (some ms), client) => (.ok ms, p.held, { r with client })
  | (.ok none, client) => { r with client }.retry request p reading

/-! ## Apart from the record -/

variable (r : Recorder) (request : Nat)

theorem client_send (code : MessageCode) (frame : Bytes) :
    ((r.send request code frame).1, (r.send request code frame).2.client) =
      r.client.send code frame := by
  unfold send Client.send write
  rcases r.client.acquire with ⟨e | held, c⟩
  · rfl
  · dsimp only
    rcases c.network.send held.connection.channel frame with ⟨e | u, network⟩ <;> rfl

theorem client_retry (p : Client.Pending) (reading : Reading) :
    ((r.retry request p reading).1, (r.retry request p reading).2.1,
      (r.retry request p reading).2.2.client) = r.client.retry p reading := by
  unfold retry Client.retry write
  rcases r.client.reconnect p.held with ⟨e | u, held, c⟩
  · rfl
  · dsimp only
    rcases c.network.send held.connection.channel p.frame with ⟨e | u, network⟩
    · rfl
    · dsimp only
      rcases Client.receive { c with network } { p with held } reading with ⟨e | _ | ms, c'⟩ <;> rfl

theorem client_readReply (p : Client.Pending) (reading : Reading) :
    ((r.readReply request p reading).1, (r.readReply request p reading).2.1,
      (r.readReply request p reading).2.2.client) = r.client.readReply p reading := by
  unfold readReply Client.readReply
  rcases r.client.receive p reading with ⟨e | _ | ms, c⟩
  · rfl
  · exact client_retry { r with client := c } request p reading
  · rfl

/-! ## What is written -/

variable {r}

/-- A frame is written once, or not at all if there is no connection to write it to. -/
theorem writes_send (code : MessageCode) (frame : Bytes) :
    ((∃ e, (r.send request code frame).1 = .error e) ∧
      (r.send request code frame).2.writes = r.writes) ∨
    ((∃ e, (r.send request code frame).1 = .error e) ∧
      ∃ k, (r.send request code frame).2.writes = r.writes ++ [⟨request, k, frame⟩]) ∨
    ∃ p, (r.send request code frame).1 = .ok p ∧ p.frame = frame ∧
      (r.send request code frame).2.writes =
        r.writes ++ [⟨request, p.held.connection.channel, frame⟩] := by
  unfold send write
  rcases r.client.acquire with ⟨e | held, c⟩
  · exact Or.inl ⟨⟨e, rfl⟩, rfl⟩
  · dsimp only
    rcases c.network.send held.connection.channel frame with ⟨e | u, network⟩
    · exact Or.inr (Or.inl ⟨⟨e, rfl⟩, _, rfl⟩)
    · exact Or.inr (Or.inr ⟨_, rfl, rfl, rfl⟩)

theorem writes_readReply_of_not_ended {p : Client.Pending} (reading : Reading)
    (h : ¬(r.client.network.channel p.held.connection.channel).Ended) :
    (r.readReply request p reading).2.2.writes = r.writes := by
  have hsome : (r.client.receive p reading).1 ≠ .ok none := fun hnone ↦
    h ((Channel.receiveReply_eq_none_iff reading (reading.expected p.code)).mp hnone)
  unfold readReply
  rcases hreceive : r.client.receive p reading with ⟨e | _ | ms, c⟩
  · rfl
  · rw [hreceive] at hsome
    exact absurd rfl hsome
  · rfl

/-- A request whose connection has ended is written once more, to a connection that did not exist
before, unless that cannot be dialled. -/
theorem writes_readReply_of_ended {p : Client.Pending} (reading : Reading)
    (h : (r.client.network.channel p.held.connection.channel).Ended) :
    (∃ e, r.client.dial.1 = .error e ∧ (r.readReply request p reading).1 = .error e ∧
      (r.readReply request p reading).2.2.writes = r.writes) ∨
    ∃ k, r.client.dial.1 = .ok k ∧ r.client.network.channels.length < k.channel ∧
      k.channel ≤ (r.readReply request p reading).2.2.client.network.channels.length ∧
      (r.readReply request p reading).2.2.writes = r.writes ++ [⟨request, k.channel, p.frame⟩] ∧
      ((r.client.network.firstReply k.channel p.frame).Ended →
        (r.readReply request p reading).1 = .error .connectionClosed) := by
  obtain ⟨after, hreceive⟩ := Client.receive_of_ended reading h
  have hdial := r.client.dial_setChannel p.held.connection.channel after
  have hread : r.readReply request p reading = retry
      { r with client := { r.client with
        network := r.client.network.setChannel p.held.connection.channel after } }
      request p reading := by
    rw [readReply, hreceive]
  rw [hread]
  unfold retry Client.reconnect
  dsimp only
  rcases Client.dial_cases { r.client with
      network := r.client.network.setChannel p.held.connection.channel after } with
    ⟨e, c, heq, -⟩ | ⟨k, c, heq, hopens⟩
  · rw [heq] at hdial ⊢
    exact Or.inl ⟨e, hdial.symm, rfl, rfl⟩
  · rw [heq] at hdial ⊢
    right
    obtain ⟨hlow, hhigh⟩ := hopens.channel_range k (List.mem_singleton_self k)
    have hnew : c.network.channel k.channel = {} := hopens.channel_new (List.mem_singleton_self k)
    have henvironment : c.network.environment = r.client.network.environment := hopens.environment
    have hreceived : c.network.received = r.client.network.received := hopens.received
    have hfirst : c.network.firstReply k.channel p.frame =
        r.client.network.firstReply k.channel p.frame := by
      simp only [Network.firstReply, henvironment, hreceived]
    have hsend : c.network.send k.channel p.frame = (.ok (),
        (c.network.note k.channel p.frame).setChannel k.channel
          (r.client.network.firstReply k.channel p.frame)) := by
      rw [← hfirst]
      simp only [Network.send, hnew]
      rfl
    have hchannel := @Network.channel_setChannel (c.network.note k.channel p.frame) k.channel
      (Nat.zero_lt_of_lt hlow) hhigh (r.client.network.firstReply k.channel p.frame)
    simp only [write, hsend, Client.receive, Network.receiveReply, hchannel,
      Network.setChannel_setChannel]
    rw [Network.length_setChannel] at hlow
    have hlast (last : Channel) : k.channel ≤
        ((c.network.note k.channel p.frame).setChannel k.channel last).channels.length := by
      rw [Network.length_setChannel]
      exact hhigh
    have hnone := @Channel.receiveReply_eq_none_iff
      (r.client.network.firstReply k.channel p.frame) reading (reading.expected p.code)
    rcases hagain : (r.client.network.firstReply k.channel p.frame).receiveReply reading
        (reading.expected p.code) with ⟨e | _ | ms, last⟩
    · rw [hagain] at hnone
      exact ⟨k, hdial.symm, hlow, hlast last, rfl, fun hended ↦ by cases hnone.mpr hended⟩
    · exact ⟨k, hdial.symm, hlow, hlast last, rfl, fun _ ↦ rfl⟩
    · rw [hagain] at hnone
      exact ⟨k, hdial.symm, hlow, hlast last, rfl, fun hended ↦ by cases hnone.mpr hended⟩

/-- Whatever has reached the peer is on record. -/
def Complete (r : Recorder) : Prop :=
  r.client.network.received.Sublist (r.writes.map fun w ↦ (w.channel, w.frame))

namespace Complete

theorem withClient (h : r.Complete) {c : Client}
    (hreceived : c.network.received = r.client.network.received) :
    Complete { r with client := c } := by
  rw [Complete, hreceived]
  exact h

theorem write (h : r.Complete) (w : Write) : (r.write w).2.Complete := by
  have hlost : r.client.network.received.Sublist
      ((r.writes ++ [w]).map fun w ↦ (w.channel, w.frame)) := by
    rw [List.map_append]
    exact h.trans (List.sublist_append_left _ _)
  unfold Recorder.write
  rcases r.client.network.send_cases w.channel w.frame with ⟨-, heq⟩ | ⟨fault, heq⟩ | ⟨-, heq⟩
  · rw [heq]
    exact hlost
  · rw [heq]
    exact hlost
  · rw [heq, Complete, List.map_append]
    exact List.Sublist.append h (List.Sublist.refl _)

theorem send (h : r.Complete) (request : Nat) (code : MessageCode) (frame : Bytes) :
    (r.send request code frame).2.Complete := by
  have hgrows := (Session.acquire_moves r.client []).grows
  unfold Recorder.send
  cases hacquire : r.client.acquire with
  | mk result c =>
      rw [hacquire] at hgrows
      cases result with
      | error e => exact h.withClient hgrows.received
      | ok held =>
          have hwrite := (h.withClient (c := c) hgrows.received).write
            ⟨request, held.connection.channel, frame⟩
          dsimp only
          rcases hresult : Recorder.write { r with client := c }
            ⟨request, held.connection.channel, frame⟩ with ⟨e | u, r'⟩
          · rw [hresult] at hwrite
            exact hwrite.withClient (congrArg _ (Client.network_settle _ _ _))
          · rw [hresult] at hwrite
            exact hwrite

theorem retry (h : r.Complete) (request : Nat) (p : Client.Pending) (reading : Reading) :
    (r.retry request p reading).2.2.Complete := by
  unfold Recorder.retry Client.reconnect
  rcases r.client.dial_cases with ⟨e, c, heq, hopens⟩ | ⟨k, c, heq, hopens⟩
  · rw [heq]
    exact h.withClient hopens.received
  · rw [heq]
    have hwrite := (h.withClient hopens.received).write ⟨request, k.channel, p.frame⟩
    dsimp only
    rcases hresult : Recorder.write { r with client := c } ⟨request, k.channel, p.frame⟩ with
      ⟨e | u, r'⟩
    · rw [hresult] at hwrite
      exact hwrite
    · rw [hresult] at hwrite
      have hreceive (p : Client.Pending) :
          Complete { r' with client := (r'.client.receive p reading).2 } := hwrite.withClient rfl
      have hlast := hreceive { p with held := { p.held with connection := k } }
      dsimp only
      rcases hread : r'.client.receive { p with held := { p.held with connection := k } } reading
        with ⟨e | _ | ms, c'⟩ <;> (rw [hread] at hlast; exact hlast)

theorem readReply (h : r.Complete) (request : Nat) (p : Client.Pending) (reading : Reading) :
    (r.readReply request p reading).2.2.Complete := by
  have hreceive : Complete { r with client := (r.client.receive p reading).2 } := h.withClient rfl
  unfold Recorder.readReply
  rcases hread : r.client.receive p reading with ⟨e | _ | ms, c⟩
  · rw [hread] at hreceive
    exact hreceive
  · rw [hread] at hreceive
    exact hreceive.retry request p reading
  · rw [hread] at hreceive
    exact hreceive

end Complete
end Recorder
end ReplicaClient
