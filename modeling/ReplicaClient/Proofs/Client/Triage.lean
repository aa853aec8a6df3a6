import ReplicaClient.Proofs.Client.Answers

/-!
# What a request leaves behind

However a request ends, its connection goes back to the queue, or is given up alone, or is given up
with its whole generation; which of the three depends on the outcome only.  So no slot gets lost: a
caller finds as many slots taken as it has requests under way.
-/

namespace ReplicaClient

/-! ## Outcomes -/

namespace Pool

variable {p p' : Pool}

section

variable {h : Held} (hphase : p.phase = .connected) (hgeneration : h.generation = p.generation)

include hphase hgeneration

end

end Pool

namespace Client

section

variable {c c' c₁ c₂ : Client} {h : Held} {p : Pending} {reading : Reading}

/-- Sending leaves the pool as it is, unless the frame does not go out. -/
theorem send_cases (hacquire : c.acquire = (.ok h, c₁)) (code : MessageCode) (frame : Bytes) :
    (∃ fault, c.send code frame = (.error (.io fault), c₁.settle h (some (.io fault)))) ∨
    ∃ network, network.channels.length = c₁.network.channels.length ∧
      c.send code frame = (.ok ⟨h, frame, code⟩, { c₁ with network }) := by
  unfold send
  rw [hacquire]
  dsimp only
  rcases c₁.network.send_cases h.connection.channel frame with
    ⟨-, heq⟩ | ⟨fault, heq⟩ | ⟨-, heq⟩
  · rw [heq]
    exact Or.inr ⟨_, rfl, rfl⟩
  · rw [heq]
    exact Or.inl ⟨fault, rfl⟩
  · rw [heq]
    refine Or.inr ⟨_, ?_, rfl⟩
    exact Network.length_setChannel _ _ _

/-- The peer had ended the stream of the request before a reply began, and the connection has been
opened since. -/
def Renewed (c : Client) (p : Pending) (reading : Reading) (k : Connection) : Prop :=
  (c.receive p reading).1 = .ok none ∧ c.pool.nextId ≤ k.id

/-- Reading a reply does no more to the pool than to number one new connection, which takes the place
of the one that the request had. -/
theorem Reads.pool_eq {result : Except ClientError (List Wire.Message)} {frames : List Frame}
    (hreads : c.Reads p reading result h c' frames) :
    c'.pool = { c.pool with nextId := c'.pool.nextId } ∧
      h.generation = p.held.generation ∧ h.valid = p.held.valid ∧
        (h.connection = p.held.connection ∨ c.Renewed p reading h.connection) := by
  cases hreads with
  | once hreceive hbegun => exact ⟨rfl, rfl, rfl, Or.inl rfl⟩
  | undialled e hreceive hopens => exact ⟨hopens.pool, rfl, rfl, Or.inl rfl⟩
  | @again result after last k c₁ hreceive hopens hagain =>
      refine ⟨hopens.pool, rfl, rfl, Or.inr ⟨?_, ?_⟩⟩
      · simp only [receive, Network.receiveReply, hreceive]
      · exact (hopens.id_range k (List.mem_singleton_self k)).1

end

end Client
end ReplicaClient
