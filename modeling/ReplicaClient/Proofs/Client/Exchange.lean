import ReplicaClient.Proofs.Client.Ownership
import ReplicaClient.Proofs.Network.Reply

/-!
# One exchange

What an exchange does to the client, part by part: getting a connection leaves everything alone
that was under way, reading a reply touches the connection that is read and at most one new one,
and only a connection that is kept becomes idle again.
-/

namespace ReplicaClient

/-! ## The network -/

namespace Network

variable {net net' net'' : Network}

theorem channel_setChannel {number : Nat} (hpos : 0 < number)
    (hle : number ≤ net.channels.length) (ch : Channel) :
    (net.setChannel number ch).channel number = ch := by
  have hlt : number - 1 < net.channels.length := by omega
  simp only [channel, setChannel, List.getD_eq_getElem?_getD]
  rw [List.getElem?_set_self hlt, Option.getD_some]

theorem channel_setChannel_of_ne {number other : Nat} (hpos : 0 < number) (hother : 0 < other)
    (hne : other ≠ number) (ch : Channel) :
    (net.setChannel number ch).channel other = net.channel other := by
  have hindex : number - 1 ≠ other - 1 := by omega
  simp only [channel, setChannel, List.getD_eq_getElem?_getD]
  rw [List.getElem?_set_ne hindex]

@[simp] theorem length_setChannel (net : Network) (number : Nat) (ch : Channel) :
    (net.setChannel number ch).channels.length = net.channels.length :=
  List.length_set

theorem setChannel_setChannel (net : Network) (number : Nat) (ch ch' : Channel) :
    (net.setChannel number ch).setChannel number ch' = net.setChannel number ch' := by
  simp only [setChannel, List.set_set]

/-- The second network has more connections, and nothing else has happened on it. -/
structure Grows (net net' : Network) : Prop where
  environment : net'.environment = net.environment
  received : net'.received = net.received
  channels : net.channels <+: net'.channels

theorem Grows.refl (net : Network) : net.Grows net :=
  ⟨rfl, rfl, List.prefix_rfl⟩

theorem Grows.trans (h : net.Grows net') (h' : net'.Grows net'') : net.Grows net'' :=
  ⟨h'.environment.trans h.environment, h'.received.trans h.received, h.channels.trans h'.channels⟩

theorem Grows.channel_eq (h : net.Grows net') {number : Nat} (hpos : 0 < number)
    (hle : number ≤ net.channels.length) : net'.channel number = net.channel number := by
  obtain ⟨new, hnew⟩ := h.channels
  have hlt : number - 1 < net.channels.length := by omega
  simp only [channel, ← hnew, List.getD_eq_getElem?_getD]
  rw [List.getElem?_append_left hlt]

def note (net : Network) (number : Nat) (frame : Bytes) : Network :=
  { net with received := net.received ++ [(number, frame)] }

/-- A frame goes out over an open connection, gets lost on a closed one, and a broken one refuses
it. -/
theorem send_cases (net : Network) (number : Nat) (frame : Bytes) :
    ((net.channel number).ending = .closed ∧ net.send number frame = (.ok (), net)) ∨
    (∃ fault, net.send number frame = (.error (.io fault), net)) ∨
    ((net.channel number).ending = .stillOpen ∧ net.send number frame = (.ok (),
      (net.note number frame).setChannel number
        ((net.channel number).react
          (net.environment.react (net.received ++ [(number, frame)]))))) := by
  unfold send
  cases hending : (net.channel number).ending with
  | closed => exact Or.inl ⟨rfl, by simp only [hending]⟩
  | broken fault => exact Or.inr (Or.inl ⟨fault, by simp only [hending]⟩)
  | stillOpen => exact Or.inr (Or.inr ⟨rfl, by simp only [hending]; rfl⟩)

/-- What comes on a new connection in answer to its first frame. -/
def firstReply (net : Network) (number : Nat) (frame : Bytes) : Channel :=
  ({} : Channel).react (net.environment.react (net.received ++ [(number, frame)]))

/-- Nothing unread has come on the connection. -/
def Silent (net : Network) (k : Connection) : Prop :=
  (net.channel k.channel).unread = []

/-- The connection exists on the second network only, and is silent. -/
def Fresh (net net' : Network) (k : Connection) : Prop :=
  (net.channels.length < k.channel ∧ k.channel ≤ net'.channels.length) ∧ net'.Silent k

end Network

theorem Client.Opens.grows {c c' : Client} {ks : List Connection} (h : c.Opens ks c') :
    c.network.Grows c'.network where
  environment := h.environment
  received := h.received
  channels := by
    obtain ⟨n, hn⟩ := h.channels
    exact ⟨_, hn.symm⟩

theorem Client.Opens.fresh {c c' : Client} {ks : List Connection} (h : c.Opens ks c')
    {k : Connection} (hk : k ∈ ks) : c.network.Fresh c'.network k := by
  refine ⟨h.channel_range k hk, ?_⟩
  rw [Network.Silent, h.channel_new hk]
  rfl

/-! ## Getting a connection -/

namespace Session

theorem Move.grows {s s' : Session} (hmove : Move s s') :
    s.client.network.Grows s'.client.network := by
  cases hmove with
  | lose hopens => exact hopens.grows
  | install hopens hlen g => exact hopens.grows
  | replace hphase hroom hopens => exact hopens.grows
  | reconnect hi hopens => exact hopens.grows
  | _ => exact .refl _

theorem Moves.grows {s s' : Session} (hmoves : Moves s s') :
    s.client.network.Grows s'.client.network := by
  induction hmoves with
  | refl => exact .refl _
  | tail _ hmove ih => exact ih.trans hmove.grows

/-- A move brings no connection into the session but fresh ones. -/
theorem Move.owned {s s' : Session} (hmove : Move s s') {k : Connection}
    (hk : k ∈ s'.client.owned s'.held) :
      k ∈ s.client.owned s.held ∨ s.client.network.Fresh s'.client.network k := by
  unfold Client.owned at hk ⊢
  cases hmove with
  | lose hopens =>
      rw [hopens.idle_eq] at hk
      exact Or.inl hk
  | retire next => exact Or.inl (List.mem_append_right _ hk)
  | teardown g =>
      left
      rcases List.mem_append.mp hk with hk | hk
      · exact List.mem_append_left _ (Pool.idle_teardown_subset _ g hk)
      · exact List.mem_append_right _ hk
  | dialPool hphase => exact Or.inl hk
  | @install c c' held ks hopens hlen g =>
      rcases List.mem_append.mp hk with hk | hk
      · unfold Pool.install at hk
        split at hk
        · exact Or.inr (hopens.fresh hk)
        · rw [hopens.idle_eq] at hk
          exact Or.inl (List.mem_append_left _ hk)
      · exact Or.inl (List.mem_append_right _ hk)
  | dialFailed g =>
      left
      unfold Pool.dialFailed at hk
      split at hk <;> exact hk
  | take hidle =>
      left
      rw [hidle]
      rw [List.map_append] at hk
      rcases List.mem_append.mp hk with hk | hk
      · exact List.mem_append_left _ (List.mem_cons_of_mem _ hk)
      · rcases List.mem_append.mp hk with hk | hk
        · exact List.mem_append_right _ hk
        · obtain rfl := List.mem_singleton.mp hk
          exact List.mem_append_left _ List.mem_cons_self
  | @replace c c' held k' hphase hroom hopens =>
      have hidle : c'.pool.idle = c.pool.idle := hopens.idle_eq
      rw [hidle, List.map_append] at hk
      rcases List.mem_append.mp hk with hk | hk
      · exact Or.inl (List.mem_append_left _ hk)
      · rcases List.mem_append.mp hk with hk | hk
        · exact Or.inl (List.mem_append_right _ hk)
        · obtain rfl := List.mem_singleton.mp hk
          exact Or.inr (hopens.fresh (List.mem_singleton_self k))
  | @giveBack c held i h hi =>
      left
      have hmem : h.connection ∈ held.map Held.connection :=
        List.mem_map_of_mem (List.mem_of_getElem? hi)
      rcases List.mem_append.mp hk with hk | hk
      · rcases Pool.mem_idle_giveBack hk with hk | ⟨rfl, -⟩
        · exact List.mem_append_left _ hk
        · exact List.mem_append_right _ hmem
      · exact List.mem_append_right _ (((List.eraseIdx_sublist held i).map _).mem hk)
  | @discard c held i h hi =>
      left
      rcases List.mem_append.mp hk with hk | hk
      · exact List.mem_append_left _ hk
      · obtain ⟨h', hh', rfl⟩ := List.mem_map.mp hk
        apply List.mem_append_right
        rcases List.mem_or_eq_of_mem_set hh' with hh' | rfl
        · exact List.mem_map_of_mem hh'
        · exact List.mem_map.mpr ⟨h, List.mem_of_getElem? hi, rfl⟩
  | @reconnect c c' held i h k' hi hopens =>
      rw [hopens.idle_eq] at hk
      rcases List.mem_append.mp hk with hk | hk
      · exact Or.inl (List.mem_append_left _ hk)
      · obtain ⟨h', hh', rfl⟩ := List.mem_map.mp hk
        rcases List.mem_or_eq_of_mem_set hh' with hh' | rfl
        · exact Or.inl (List.mem_append_right _ (List.mem_map_of_mem hh'))
        · exact Or.inr (hopens.fresh (List.mem_singleton_self k'))

theorem Moves.owned {s s' : Session} (hmoves : Moves s s') {k : Connection}
    (hk : k ∈ s'.client.owned s'.held) :
      k ∈ s.client.owned s.held ∨ s.client.network.Fresh s'.client.network k := by
  induction hmoves with
  | refl => exact Or.inl hk
  | @tail s₁ s₂ hmoves hmove ih =>
      have hlen : s.client.network.channels.length ≤ s₁.client.network.channels.length :=
        (Moves.grows hmoves).channels.length_le
      rcases hmove.owned hk with hk | ⟨⟨hlow, hhigh⟩, hsilent⟩
      · rcases ih hk with hk | ⟨⟨hlow, hhigh⟩, hsilent⟩
        · exact Or.inl hk
        · have hgrows := hmove.grows
          refine Or.inr ⟨⟨hlow, Nat.le_trans hhigh hgrows.channels.length_le⟩, ?_⟩
          rw [Network.Silent, hgrows.channel_eq (Nat.zero_lt_of_lt hlow) hhigh]
          exact hsilent
      · exact Or.inr ⟨⟨Nat.lt_of_le_of_lt hlen hlow, hhigh⟩, hsilent⟩

/-! ## Settling -/

/-- Whatever the outcome of a request, its connection is given back in the end. -/
theorem settle_moves {c : Client} {held : List Held} {i : Nat} {h : Held}
    (hi : held[i]? = some h) (outcome : Option ClientError) :
    Moves ⟨c, held⟩ ⟨c.settle h outcome, held.eraseIdx i⟩ := by
  obtain ⟨hlt, -⟩ := List.getElem?_eq_some_iff.mp hi
  have hdiscard (c : Client) : Moves ⟨c, held⟩ ⟨c.giveBack h.discard, held.eraseIdx i⟩ := by
    have hlast : Move ⟨c, held.set i h.discard⟩
        ⟨c.giveBack h.discard, (held.set i h.discard).eraseIdx i⟩ :=
      .giveBack (List.getElem?_set_self hlt)
    rw [List.eraseIdx_set_eq] at hlast
    exact .head (.discard hi) (.single hlast)
  unfold Client.settle
  cases outcome with
  | none => exact .single (.giveBack hi)
  | some e =>
      dsimp only
      split
      · exact .single (.giveBack hi)
      · split
        · exact .head (.teardown h.generation) (hdiscard _)
        · exact hdiscard c

end Session

namespace Client

@[simp] theorem network_settle (c : Client) (h : Held) (outcome : Option ClientError) :
    (c.settle h outcome).network = c.network := by
  unfold settle
  cases outcome with
  | none => rfl
  | some e =>
      dsimp only
      repeat' split
      all_goals rfl

/-- Only a connection that is kept becomes idle. -/
theorem mem_idle_settle {α : Type} {c : Client} {h : Held} {result : Except ClientError α}
    {k : Connection} (hk : k ∈ (c.settle h (outcome result)).pool.idle) :
    k ∈ c.pool.idle ∨ k = h.connection ∧ keeps result = true := by
  have hdiscard {p : Pool} (hk : k ∈ (p.giveBack h.discard).idle) : k ∈ p.idle := by
    rcases Pool.mem_idle_giveBack hk with hk | ⟨-, hvalid⟩
    · exact hk
    · cases hvalid
  unfold settle at hk
  cases result with
  | ok a =>
      rcases Pool.mem_idle_giveBack hk with hk | ⟨hk, -⟩
      · exact Or.inl hk
      · exact Or.inr ⟨hk, rfl⟩
  | error e =>
      dsimp only [outcome] at hk
      split at hk
      · rename_i hserver
        rcases Pool.mem_idle_giveBack hk with hk | ⟨hk, -⟩
        · exact Or.inl hk
        · exact Or.inr ⟨hk, hserver⟩
      · split at hk
        · exact Or.inl (Pool.idle_teardown_subset _ _ (hdiscard hk))
        · exact Or.inl (hdiscard hk)

/-! ## Reading -/

/-- The frames that are interpreted when the reply to a request is read. -/
def interpreted (c : Client) (p : Pending) (reading : Reading) : List Frame :=
  match c.receive p reading with
  | (.ok none, c) =>
      match c.reconnect p.held with
      | (.error _, _, _) => []
      | (.ok (), held, c) =>
          match c.network.send held.connection.channel p.frame with
          | (.error _, _) => []
          | (.ok (), network) =>
              (network.channel held.connection.channel).interpreted reading (reading.expected p.code)
  | _ => (c.network.channel p.held.connection.channel).interpreted reading (reading.expected p.code)

/-- The result of a reply that has to begin. -/
def begun : Except ClientError (Option (List Wire.Message)) → Except ClientError (List Wire.Message)
  | .error e => .error e
  | .ok none => .error .connectionClosed
  | .ok (some ms) => .ok ms

/-- All that reading a reply can do: read the connection once, fail to dial another one, or ask again
over another one and read that. -/
inductive Reads (c : Client) (p : Pending) (reading : Reading) :
    Except ClientError (List Wire.Message) → Held → Client → List Frame → Prop where
  | once {result : Except ClientError (Option (List Wire.Message))} {after : Channel}
      (hreceive : (c.network.channel p.held.connection.channel).receiveReply reading
        (reading.expected p.code) = (result, after))
      (hbegun : result ≠ .ok none) :
      Reads c p reading (begun result) p.held
        { c with network := c.network.setChannel p.held.connection.channel after }
        ((c.network.channel p.held.connection.channel).interpreted reading (reading.expected p.code))
  | undialled {after : Channel} {c' : Client} (e : ClientError)
      (hreceive : (c.network.channel p.held.connection.channel).receiveReply reading
        (reading.expected p.code) = (.ok none, after))
      (hopens : Opens { c with network := c.network.setChannel p.held.connection.channel after } [] c') :
      Reads c p reading (.error e) p.held c' []
  | again {result : Except ClientError (Option (List Wire.Message))} {after last : Channel}
      {k : Connection} {c' : Client}
      (hreceive : (c.network.channel p.held.connection.channel).receiveReply reading
        (reading.expected p.code) = (.ok none, after))
      (hopens : Opens { c with network := c.network.setChannel p.held.connection.channel after } [k] c')
      (hagain : (c'.network.firstReply k.channel p.frame).receiveReply reading
        (reading.expected p.code) = (result, last)) :
      Reads c p reading (begun result) { p.held with connection := k }
        { c' with network := (c'.network.note k.channel p.frame).setChannel k.channel last }
        ((c'.network.firstReply k.channel p.frame).interpreted reading (reading.expected p.code))

theorem readReply_reads (c : Client) (p : Pending) (reading : Reading) :
    Reads c p reading (c.readReply p reading).1 (c.readReply p reading).2.1
      (c.readReply p reading).2.2 (c.interpreted p reading) := by
  unfold readReply interpreted receive Network.receiveReply
  cases hreceive : (c.network.channel p.held.connection.channel).receiveReply reading
      (reading.expected p.code) with
  | mk result after =>
      cases result with
      | error e => exact .once hreceive (by simp)
      | ok found =>
          cases found with
          | some ms => exact .once hreceive (by simp)
          | none =>
              dsimp only
              unfold retry reconnect
              rcases dial_cases
                  { c with network := c.network.setChannel p.held.connection.channel after } with
                ⟨e, c', heq, hopens⟩ | ⟨k, c', heq, hopens⟩
              · simp only [heq]
                exact .undialled e hreceive hopens
              · have hnew : c'.network.channel k.channel = {} :=
                  hopens.channel_new (List.mem_singleton_self k)
                obtain ⟨hlow, hhigh⟩ := hopens.channel_range k (List.mem_singleton_self k)
                have hsend : c'.network.send k.channel p.frame = (.ok (),
                    (c'.network.note k.channel p.frame).setChannel k.channel
                      (c'.network.firstReply k.channel p.frame)) := by
                  simp only [Network.send, hnew]
                  rfl
                simp only [heq, hsend, receive, Network.receiveReply]
                have hchannel := @Network.channel_setChannel (c'.network.note k.channel p.frame)
                  k.channel (Nat.zero_lt_of_lt hlow) hhigh (c'.network.firstReply k.channel p.frame)
                simp only [hchannel,
                  Network.setChannel_setChannel]
                cases hagain : (c'.network.firstReply k.channel p.frame).receiveReply reading
                    (reading.expected p.code) with
                | mk result last =>
                    have hreads := Reads.again hreceive hopens hagain
                    cases result with
                    | error e => exact hreads
                    | ok found => cases found <;> exact hreads

end Client
end ReplicaClient
