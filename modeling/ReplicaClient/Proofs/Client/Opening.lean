import ReplicaClient.Client

/-!
# Opening connections

Dialling gives connections numbers that were never used before, both in the pool and on the
network, and changes nothing else: the pool keeps its slots, and what is under way on other
connections stays as it is.  `Opens` collects these facts; the ways of dialling are shown to
have them one after the other.
-/

namespace ReplicaClient

namespace Network

/-- A dial adds one silent connection at the end, or none if it fails early. -/
theorem dial_cases (config : Config) (net : Network) :
    (∃ e channels, net.dial config =
        (.error e, { net with dials := net.dials + 1, channels }) ∧
      (channels = net.channels ∨ channels = net.channels ++ [({} : Channel)])) ∨
    net.dial config = (.ok (net.channels.length + 1),
      { net with dials := net.dials + 1, channels := net.channels ++ [{}] }) := by
  unfold dial
  cases net.environment.route with
  | some fault => exact Or.inl ⟨_, _, rfl, Or.inl rfl⟩
  | none =>
      dsimp only
      split
      · exact Or.inl ⟨_, _, rfl, Or.inl rfl⟩
      · split
        · split
          · exact Or.inl ⟨_, _, rfl, Or.inr rfl⟩
          · right
            simp
        · exact Or.inl ⟨_, _, rfl, Or.inl rfl⟩

end Network

namespace Client

/-- The second client is the first one after it has opened the connections. -/
structure Opens (c : Client) (connections : List Connection) (c' : Client) : Prop where
  config : c'.config = c.config
  pool : c'.pool = { c.pool with nextId := c'.pool.nextId }
  environment : c'.network.environment = c.network.environment
  received : c'.network.received = c.network.received
  channels : ∃ n, c'.network.channels = c.network.channels ++ List.replicate n ({} : Channel)
  nextId_le : c.pool.nextId ≤ c'.pool.nextId
  id_range : ∀ k ∈ connections, c.pool.nextId ≤ k.id ∧ k.id < c'.pool.nextId
  channel_range : ∀ k ∈ connections, c.network.channels.length < k.channel ∧
    k.channel ≤ c'.network.channels.length
  id_nodup : (connections.map Connection.id).Nodup
  channel_nodup : (connections.map Connection.channel).Nodup

namespace Opens

variable {c c' c'' : Client} {ks ks' : List Connection}

theorem refl (c : Client) : Opens c [] c where
  config := rfl
  pool := rfl
  environment := rfl
  received := rfl
  channels := ⟨0, by simp⟩
  nextId_le := Nat.le_refl _
  id_range := by simp
  channel_range := by simp
  id_nodup := List.nodup_nil
  channel_nodup := List.nodup_nil

theorem drop (h : Opens c ks c') : Opens c [] c' :=
  { h with
    id_range := by simp
    channel_range := by simp
    id_nodup := List.nodup_nil
    channel_nodup := List.nodup_nil }

theorem idle_eq (h : Opens c ks c') : c'.pool.idle = c.pool.idle := by
  rw [h.pool]

theorem size_eq (h : Opens c ks c') : c'.pool.size = c.pool.size := by
  rw [h.pool]

theorem generation_eq (h : Opens c ks c') : c'.pool.generation = c.pool.generation := by
  rw [h.pool]

theorem length_channels_le (h : Opens c ks c') :
    c.network.channels.length ≤ c'.network.channels.length := by
  obtain ⟨n, hn⟩ := h.channels
  simp [hn]

theorem trans (h : Opens c ks c') (h' : Opens c' ks' c'') : Opens c (ks ++ ks') c'' where
  config := h'.config.trans h.config
  pool := by rw [h'.pool, h.pool]
  environment := h'.environment.trans h.environment
  received := h'.received.trans h.received
  channels := by
    obtain ⟨n, hn⟩ := h.channels
    obtain ⟨m, hm⟩ := h'.channels
    exact ⟨n + m, by rw [hm, hn, List.append_assoc, List.replicate_append_replicate]⟩
  nextId_le := Nat.le_trans h.nextId_le h'.nextId_le
  id_range k hk := by
    rcases List.mem_append.mp hk with hk | hk
    · exact ⟨(h.id_range k hk).1, Nat.lt_of_lt_of_le (h.id_range k hk).2 h'.nextId_le⟩
    · exact ⟨Nat.le_trans h.nextId_le (h'.id_range k hk).1, (h'.id_range k hk).2⟩
  channel_range k hk := by
    rcases List.mem_append.mp hk with hk | hk
    · exact ⟨(h.channel_range k hk).1,
        Nat.le_trans (h.channel_range k hk).2 h'.length_channels_le⟩
    · exact ⟨Nat.lt_of_le_of_lt h.length_channels_le (h'.channel_range k hk).1,
        (h'.channel_range k hk).2⟩
  id_nodup := by
    rw [List.map_append, List.nodup_append]
    refine ⟨h.id_nodup, h'.id_nodup, ?_⟩
    intro a ha b hb
    obtain ⟨k, hk, rfl⟩ := List.mem_map.mp ha
    obtain ⟨k', hk', rfl⟩ := List.mem_map.mp hb
    exact Nat.ne_of_lt (Nat.lt_of_lt_of_le (h.id_range k hk).2 (h'.id_range k' hk').1)
  channel_nodup := by
    rw [List.map_append, List.nodup_append]
    refine ⟨h.channel_nodup, h'.channel_nodup, ?_⟩
    intro a ha b hb
    obtain ⟨k, hk, rfl⟩ := List.mem_map.mp ha
    obtain ⟨k', hk', rfl⟩ := List.mem_map.mp hb
    exact Nat.ne_of_lt (Nat.lt_of_le_of_lt (h.channel_range k hk).2 (h'.channel_range k' hk').1)

/-- What has been sent or received on a connection that existed before is unchanged. -/
theorem channel_eq (h : Opens c ks c') {number : Nat} (hpos : 0 < number)
    (hle : number ≤ c.network.channels.length) :
    c'.network.channel number = c.network.channel number := by
  obtain ⟨n, hn⟩ := h.channels
  have hlt : number - 1 < c.network.channels.length := by omega
  simp only [Network.channel, hn, List.getD_eq_getElem?_getD]
  rw [List.getElem?_append_left hlt]

theorem channel_new (h : Opens c ks c') {k : Connection} (hk : k ∈ ks) :
    c'.network.channel k.channel = {} := by
  obtain ⟨n, hn⟩ := h.channels
  obtain ⟨hlow, hhigh⟩ := h.channel_range k hk
  rw [hn, List.length_append, List.length_replicate] at hhigh
  have hlt : k.channel - 1 - c.network.channels.length < n := by omega
  simp only [Network.channel, hn, List.getD_eq_getElem?_getD]
  rw [List.getElem?_append_right (by omega), List.getElem?_replicate_of_lt hlt]
  rfl

end Opens

/-! ## The ways of dialling -/

theorem openConnection_cases (c : Client) :
    (∃ e c', c.openConnection = (.error e, c') ∧ Opens c [] c') ∨
    ∃ k c', c.openConnection = (.ok k, c') ∧ Opens c [k] c' := by
  rcases Network.dial_cases c.config c.network with ⟨e, channels, hdial, hchannels⟩ | hdial
  · refine Or.inl ⟨e, _, by simp only [openConnection, Pool.takeId, hdial]; rfl, ?_⟩
    refine ⟨rfl, rfl, rfl, rfl, ?_, Nat.le_succ _, by simp, by simp, List.nodup_nil,
      List.nodup_nil⟩
    rcases hchannels with rfl | rfl
    · exact ⟨0, by simp⟩
    · exact ⟨1, rfl⟩
  · refine Or.inr ⟨⟨c.pool.nextId, c.network.channels.length + 1⟩, _,
      by simp only [openConnection, Pool.takeId, hdial]; rfl, ?_⟩
    exact ⟨rfl, rfl, rfl, rfl, ⟨1, rfl⟩, Nat.le_succ _, by simp, by simp, by simp, by simp⟩

theorem openConnections_cases (count : Nat) (c : Client) :
    (∃ e c', openConnections count c = (.error e, c') ∧ Opens c [] c') ∨
    ∃ ks c', openConnections count c = (.ok ks, c') ∧ Opens c ks c' ∧ ks.length = count := by
  induction count generalizing c with
  | zero => exact Or.inr ⟨[], c, rfl, Opens.refl c, rfl⟩
  | succ count ih =>
      rcases c.openConnection_cases with ⟨e, c₁, heq, hopens⟩ | ⟨k, c₁, heq, hopens⟩
      · exact Or.inl ⟨e, c₁, by simp only [openConnections, heq], hopens⟩
      · rcases ih c₁ with ⟨e, c₂, heq', hopens'⟩ | ⟨ks, c₂, heq', hopens', hlen⟩
        · exact Or.inl ⟨e, c₂, by simp only [openConnections, heq, heq'], (hopens.trans hopens').drop⟩
        · exact Or.inr ⟨k :: ks, c₂, by simp only [openConnections, heq, heq'],
            hopens.trans hopens', by simp [hlen]⟩

theorem dial_cases (c : Client) :
    (∃ e c', c.dial = (.error e, c') ∧ Opens c [] c') ∨
    ∃ k c', c.dial = (.ok k, c') ∧ Opens c [k] c' := by
  unfold dial
  cases Network.checkAddress c.config.addr with
  | error e => exact Or.inl ⟨e, c, rfl, Opens.refl c⟩
  | ok u => exact c.openConnection_cases

theorem dialAll_cases (c : Client) :
    (∃ e c', c.dialAll = (.error e, c') ∧ Opens c [] c') ∨
    ∃ ks c', c.dialAll = (.ok ks, c') ∧ Opens c ks c' ∧ ks.length = c.config.poolSize := by
  unfold dialAll
  cases Network.checkAddress c.config.addr with
  | error e => exact Or.inl ⟨e, c, rfl, Opens.refl c⟩
  | ok u => exact openConnections_cases c.config.poolSize c

end Client
end ReplicaClient
