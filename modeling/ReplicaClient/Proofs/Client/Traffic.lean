import ReplicaClient.Proofs.Client.Answers

/-!
# Requests and replies in step

Callers send requests through a client, read the replies or leave them unread, in any order and
with several requests on their way.  If the peer is faithful, every connection that is idle is
silent, and what is read in answer to a request was sent in answer to that request.
-/

namespace ReplicaClient

open Wire

structure Traffic where
  client : Client
  sent : List Sent := []

namespace Traffic

/-- What callers do.  A request under way is named by its position. -/
inductive Action where
  | connect
  | close
  | send (op : Operation) (payload : Bytes)
  | read (i : Nat) (t : Option MessageType)
  | abandon (i : Nat)
  deriving DecidableEq, Repr

def new (config : Config) (environment : Environment) : Traffic :=
  { client := .new config environment }

/-- The entry that a frame has made in the log of the peer. -/
def entry (before after : Network) : Option Nat :=
  if before.received.length < after.received.length then some before.received.length else none

def send (s : Traffic) (op : Operation) (payload : Bytes) : Traffic :=
  match s.client.send (.request op) (Frame.encode (.request op) payload) with
  | (.error _, client) => { s with client }
  | (.ok pending, client) =>
      { client, sent := s.sent ++ [⟨pending, op, entry s.client.network client.network⟩] }

def read (s : Traffic) (i : Nat) (x : Sent) (t : Option MessageType) : Traffic :=
  let (result, held, client) := s.client.readReply x.pending (x.operation.reading t)
  { client := client.settle held (Client.outcome result), sent := s.sent.eraseIdx i }

def abandon (s : Traffic) (i : Nat) (x : Sent) : Traffic :=
  { client := s.client.abandon x.pending, sent := s.sent.eraseIdx i }

/-- Nothing happens where no request is under way. -/
def onSent (s : Traffic) (i : Nat) (f : Sent → Traffic) : Traffic :=
  match s.sent[i]? with
  | none => s
  | some x => f x

def step (s : Traffic) : Action → Traffic
  | .connect => { s with client := s.client.connect.2 }
  | .close => { s with client := s.client.close }
  | .send op payload => s.send op payload
  | .read i t => s.onSent i fun x ↦ s.read i x t
  | .abandon i => s.onSent i fun x ↦ s.abandon i x

def run (s : Traffic) (actions : List Action) : Traffic :=
  actions.foldl step s

/-! ## The invariant -/

def held (sent : List Sent) : List Held :=
  sent.map (·.pending.held)

/-- Requests and replies are in step: idle connections are silent, and so are those that have just
been handed out; every request under way awaits its answer. -/
structure InStep (size : Nat) (c : Client) (sent : List Sent) (new : List Held) : Prop where
  custody : c.Custody size (held sent ++ new)
  idle : ∀ k ∈ c.pool.idle, c.network.Silent k
  new : ∀ h ∈ new, c.network.Silent h.connection
  awaits : ∀ x ∈ sent, x.Awaits c.network
  faithful : c.network.environment.Faithful

namespace InStep

variable {size : Nat} {c c' : Client} {sent : List Sent} {i : Nat} {x : Sent} {h : Held}

theorem channel_range (hin : InStep size c sent []) (hx : x ∈ sent) :
    0 < x.connection.channel ∧ x.connection.channel ≤ c.network.channels.length := by
  apply hin.custody.channel_range_of_held
  rw [List.append_nil]
  exact List.mem_map_of_mem hx

/-- Getting connections neither touches what is under way nor hands out anything that is. -/
theorem moves (hin : InStep size c sent []) {new : List Held}
    (hmoves : Session.Moves ⟨c, held sent⟩ ⟨c', held sent ++ new⟩) : InStep size c' sent new := by
  have hgrows : c.network.Grows c'.network := hmoves.grows
  have hcustody : c'.Custody size (held sent ++ new) := by
    apply hmoves.custody
    rw [← List.append_nil (held sent)]
    exact hin.custody
  have hsilent (k : Connection) (hk : k ∈ c'.owned (held sent ++ new))
      (hfree : ∀ y ∈ held sent, k.channel ≠ y.connection.channel) : c'.network.Silent k := by
    rcases hmoves.owned hk with hk | ⟨-, hfresh⟩
    · rcases List.mem_append.mp hk with hidle | hheld
      · have hrange := hin.custody.exclusive.channel_range k (List.mem_append_left _ hidle)
        rw [Network.Silent, hgrows.channel_eq hrange.1 hrange.2]
        exact hin.idle k hidle
      · obtain ⟨y, hy, rfl⟩ := List.mem_map.mp hheld
        exact absurd rfl (hfree y hy)
    · exact hfresh
  refine ⟨hcustody, ?_, ?_, ?_, hgrows.environment ▸ hin.faithful⟩
  · intro k hk
    apply hsilent k (List.mem_append_left _ hk)
    intro y hy
    exact hcustody.channel_ne_of_idle hk (List.mem_append_left _ hy)
  · intro h hh
    have hmem : h ∈ held sent ++ new := List.mem_append_right _ hh
    apply hsilent h.connection (List.mem_append_right _ (List.mem_map_of_mem hmem))
    intro y hy
    exact hcustody.channel_ne_of_new hy hh
  · intro y hy
    have hrange := hin.channel_range hy
    exact (hin.awaits y hy).continues hgrows.continues (hgrows.channel_eq hrange.1 hrange.2)

/-- A request whose connection has been given back is no longer under way. -/
theorem settle {α : Type} {result : Except ClientError α} {rest : List Sent}
    (hcustody : c.Custody size (held rest ++ [h])) (hidle : ∀ k ∈ c.pool.idle, c.network.Silent k)
    (hkept : keeps result = true → c.network.Silent h.connection)
    (hawaits : ∀ x ∈ rest, x.Awaits c.network) (hfaithful : c.network.environment.Faithful) :
    InStep size (c.settle h (Client.outcome result)) rest [] := by
  have hlast : (held rest ++ [h])[(held rest).length]? = some h := by simp
  have herase : (held rest ++ [h]).eraseIdx (held rest).length = held rest ++ [] := by
    rw [List.eraseIdx_append_of_length_le (Nat.le_refl _), Nat.sub_self]
    rfl
  have hmoves := Session.settle_moves (c := c) hlast (Client.outcome result)
  refine ⟨herase ▸ hmoves.custody hcustody, ?_, by simp, ?_, ?_⟩
  · intro k hk
    rw [Client.network_settle]
    rcases Client.mem_idle_settle hk with hk | ⟨rfl, hkeeps⟩
    · exact hidle k hk
    · exact hkept hkeeps
  · rw [Client.network_settle]
    exact hawaits
  · rw [Client.network_settle]
    exact hfaithful

/-- The connection that has just been handed out takes a request, and no other is touched. -/
theorem take (hin : InStep size c sent [h]) {net : Network}
    (hlen : net.channels.length = c.network.channels.length)
    (hcontinues : c.network.Continues net)
    (hothers : ∀ number, 0 < number → number ≠ h.connection.channel →
      net.channel number = c.network.channel number)
    (hheld : x.pending.held = h) (hx : x.Awaits net) :
    InStep size { c with network := net } (sent ++ [x]) [] := by
  have hall : held (sent ++ [x]) ++ [] = held sent ++ [h] := by
    rw [List.append_nil, held, List.map_append, List.map_singleton, hheld]
    rfl
  have hlast : h ∈ held sent ++ [h] := List.mem_append_right _ (List.mem_singleton_self h)
  refine ⟨?_, ?_, by simp, ?_, hcontinues.environment ▸ hin.faithful⟩
  · rw [hall]
    exact hin.custody.withNetwork hlen
  · intro k hk
    have hrange := hin.custody.exclusive.channel_range k (List.mem_append_left _ hk)
    rw [Network.Silent, hothers k.channel hrange.1 (hin.custody.channel_ne_of_idle hk hlast)]
    exact hin.idle k hk
  · intro y hy
    rcases List.mem_append.mp hy with hy | hy
    · have hmem : y.pending.held ∈ held sent := List.mem_map_of_mem hy
      have hrange := hin.custody.channel_range_of_held (List.mem_append_left _ hmem)
      have hne := hin.custody.channel_ne_of_new hmem (List.mem_singleton_self h)
      exact (hin.awaits y hy).continues hcontinues (hothers _ hrange.1 (Ne.symm hne))
    · obtain rfl := List.mem_singleton.mp hy
      exact hx

/-- A frame that is sent makes the last entry in the log of the peer, or none if the peer has closed
the connection. -/
theorem send {s : Traffic} (hin : InStep size s.client s.sent []) (op : Operation)
    (payload : Bytes) : InStep size (s.send op payload).client (s.send op payload).sent [] := by
  have hmoves := Session.acquire_moves s.client (held s.sent)
  unfold Traffic.send Client.send
  cases hacquire : s.client.acquire with
  | mk result c =>
      rw [hacquire] at hmoves
      cases result with
      | error e =>
          apply hin.moves
          rw [List.append_nil]
          exact hmoves
      | ok h =>
          have hnew : InStep size c s.sent [h] := hin.moves hmoves
          have hreceived : c.network.received = s.client.network.received := hmoves.grows.received
          have hsilent : c.network.Silent h.connection := hnew.new h (List.mem_singleton_self h)
          have hrange := hnew.custody.channel_range_of_held
            (List.mem_append_right _ (List.mem_singleton_self h))
          rcases c.network.send_cases h.connection.channel (Frame.encode (.request op) payload) with
            ⟨-, heq⟩ | ⟨fault, heq⟩ | ⟨-, heq⟩
          · simp only [heq]
            refine hnew.take rfl ⟨rfl, List.prefix_rfl⟩ (fun _ _ _ ↦ rfl) rfl ?_
            refine ⟨⟨payload, rfl⟩, rfl, Or.inl ⟨?_, hsilent⟩⟩
            simp [entry, hreceived]
          · simp only [heq]
            let result : Except ClientError Unit := .error (.io fault)
            have hlost : keeps result = true → c.network.Silent h.connection := fun _ ↦ hsilent
            exact settle hnew.custody hnew.idle hlost hnew.awaits hnew.faithful
          · have hentry : entry s.client.network
                (c.network.note h.connection.channel (Frame.encode (.request op) payload)) =
                  some c.network.received.length := by
              simp [entry, Network.note, hreceived]
            simp only [heq]
            refine hnew.take (Network.length_setChannel _ _ _) ⟨rfl, List.prefix_append _ _⟩ ?_ rfl ?_
            · intro number hnumber hne
              exact Network.channel_setChannel_of_ne hrange.1 hnumber hne _
            · have hawaits := Sent.awaits_note op payload hsilent hrange.1 hrange.2
              rw [← hentry] at hawaits
              exact hawaits

theorem getElem?_held (hi : sent[i]? = some x) : (held sent)[i]? = some x.pending.held := by
  rw [held, List.getElem?_map, hi]
  rfl

theorem held_set_perm (hi : sent[i]? = some x) (h : Held) :
    ((held sent).set i h).Perm (held (sent.eraseIdx i) ++ [h]) := by
  obtain ⟨hlt, -⟩ := List.getElem?_eq_some_iff.mp (getElem?_held hi)
  have hset := List.set_perm_cons_eraseIdx hlt h
  have herase : (held sent).eraseIdx i = held (sent.eraseIdx i) := List.eraseIdx_map _ _ _
  rw [herase] at hset
  exact hset.trans (List.perm_append_singleton h _).symm

/-- What stays in step while a reply is read from one connection. -/
theorem awaits_eraseIdx {p : Client.Pending} {reading : Reading}
    {result : Except ClientError (List Message)} {frames : List Frame}
    (hin : InStep size c sent []) (hi : sent[i]? = some x) (hp : p = x.pending)
    (hreads : c.Reads p reading result h c' frames) :
    (∀ k ∈ c'.pool.idle, c'.network.Silent k) ∧
      ∀ y ∈ sent.eraseIdx i, y.Awaits c'.network := by
  subst hp
  have hcustody : c.Custody size (held sent) := List.append_nil (held sent) ▸ hin.custody
  have hx : x ∈ sent := List.mem_of_getElem? hi
  have hpos := (hin.channel_range hx).1
  constructor
  · intro k hk
    rw [hreads.idle_eq] at hk
    have hrange := hcustody.exclusive.channel_range k (List.mem_append_left _ hk)
    have hne := hcustody.channel_ne_of_idle hk (List.mem_map_of_mem hx)
    rw [Network.Silent, hreads.channel_eq hpos hrange.1 hrange.2 hne]
    exact hin.idle k hk
  · intro y hy
    have hmem : y ∈ sent := List.mem_of_mem_eraseIdx hy
    have hrange := hin.channel_range hmem
    have hne : y.connection.channel ≠ x.connection.channel := by
      apply hcustody.channel_ne_of_held (getElem?_held hi)
      rw [held, List.eraseIdx_map]
      exact List.mem_map_of_mem hy
    exact (hin.awaits y hmem).continues hreads.continues
      (hreads.channel_eq hpos hrange.1 hrange.2 hne)

theorem read {s : Traffic} (hin : InStep size s.client s.sent []) (hi : s.sent[i]? = some x)
    (t : Option MessageType) :
    InStep size (s.read i x t).client (s.read i x t).sent [] := by
  have hreads := s.client.readReply_reads x.pending (x.operation.reading t)
  have hx : x ∈ s.sent := List.mem_of_getElem? hi
  have hrange := hin.channel_range hx
  have hcustody : s.client.Custody size (held s.sent) := List.append_nil (held s.sent) ▸ hin.custody
  obtain ⟨hidle, hawaits⟩ := hin.awaits_eraseIdx hi rfl hreads
  apply settle
  · exact (hreads.custody (getElem?_held hi) hcustody).perm (held_set_perm hi _)
  · exact hidle
  · exact hreads.silent (hin.awaits x hx) hin.faithful hrange.1 hrange.2
  · exact hawaits
  · exact hreads.continues.environment ▸ hin.faithful

theorem abandon {s : Traffic} (hin : InStep size s.client s.sent []) (hi : s.sent[i]? = some x) :
    InStep size (s.abandon i x).client (s.abandon i x).sent [] := by
  have hcustody : s.client.Custody size (held s.sent) := List.append_nil (held s.sent) ▸ hin.custody
  have hset : (held s.sent).set i x.pending.held = held s.sent := by
    obtain ⟨hlt, hget⟩ := List.getElem?_eq_some_iff.mp (getElem?_held hi)
    rw [← hget, List.set_getElem_self]
  have hperm := held_set_perm hi x.pending.held
  rw [hset] at hperm
  -- To the pool this is the end of a request with an error that condemns only its connection.
  let result : Except ClientError Unit := .error .emptyKey
  have hlost : keeps result = true → s.client.network.Silent x.pending.held.connection := nofun
  have hrest : ∀ y ∈ s.sent.eraseIdx i, y.Awaits s.client.network := fun y hy ↦
    hin.awaits y (List.mem_of_mem_eraseIdx hy)
  exact settle (hcustody.perm hperm) hin.idle hlost hrest hin.faithful

end InStep

theorem inStep_step {size : Nat} {s : Traffic} (hin : InStep size s.client s.sent [])
    (a : Action) : InStep size (s.step a).client (s.step a).sent [] := by
  have honSent {i : Nat} {f : Sent → Traffic}
      (hf : ∀ x, s.sent[i]? = some x → InStep size (f x).client (f x).sent []) :
      InStep size (s.onSent i f).client (s.onSent i f).sent [] := by
    unfold onSent
    cases hi : s.sent[i]? with
    | none => exact hin
    | some x => exact hf x hi
  cases a with
  | connect =>
      apply hin.moves
      rw [List.append_nil]
      exact Session.connect_moves s.client (held s.sent)
  | close =>
      apply hin.moves
      rw [List.append_nil]
      exact Session.close_moves s.client (held s.sent)
  | send op payload => exact hin.send op payload
  | read i t => exact honSent fun x hi ↦ hin.read hi t
  | abandon i => exact honSent fun x hi ↦ hin.abandon hi

theorem inStep_run (config : Config) (environment : Environment)
    (hfaithful : environment.Faithful) (past : List Action) :
    InStep config.poolSize ((new config environment).run past).client
      ((new config environment).run past).sent [] := by
  have hrun {s : Traffic} (hin : InStep config.poolSize s.client s.sent []) :
      InStep config.poolSize (s.run past).client (s.run past).sent [] := by
    induction past generalizing s with
    | nil => exact hin
    | cons a past ih => exact ih (inStep_step hin a)
  apply hrun
  exact ⟨.new config environment, by simp [new, Client.new, Pool.ofConfig], by simp,
    by simp [new], hfaithful⟩

/-! ## Whose frames are read -/

/-- The reply that is read to a request is the reply to that request. -/
structure Answered (s : Traffic) (x : Sent) (t : Option MessageType) : Prop where
  /-- All interpreted frames come from the answer to one entry of the peer's log, which holds the
  frame of the request: the entry that the request has made, or the one that its repetition makes
  while the reply is read. -/
  frames : s.client.interpreted x.pending (x.operation.reading t) = [] ∨
    ∃ j, (x.entry = some j ∨ s.client.network.received.length = j) ∧
      (s.client.readReply x.pending (x.operation.reading t)).2.2.network.received[j]? = some
        ((s.client.readReply x.pending (x.operation.reading t)).2.1.connection.channel,
          x.pending.frame) ∧
      ((s.client.interpreted x.pending (x.operation.reading t)).map Frame.octets).flatten <+:
        (s.client.readReply x.pending (x.operation.reading t)).2.2.network.answer j
  /-- The messages that a caller gets are what these frames say. -/
  messages : ∀ ms, (s.client.readReply x.pending (x.operation.reading t)).1 = .ok ms →
    (s.client.interpreted x.pending (x.operation.reading t)).map
      (interpret ((x.operation.reading t).expected (.request x.operation))
        (x.operation.reading t).messageType) = ms.map .ok

/-- In every state that callers can bring about with a faithful peer, idle connections are silent,
and every request under way would get its own answer, however late it is read. -/
theorem answered_run (config : Config) (environment : Environment)
    (hfaithful : environment.Faithful) (past : List Action) :
    (∀ k ∈ ((new config environment).run past).client.pool.idle,
      (((new config environment).run past).client.network.channel k.channel).unread = []) ∧
    ∀ x ∈ ((new config environment).run past).sent, ∀ t,
      ((new config environment).run past).Answered x t := by
  have hin := inStep_run config environment hfaithful past
  refine ⟨hin.idle, ?_⟩
  intro x hx t
  have hawaits := hin.awaits x hx
  have hreads := Client.readReply_reads ((new config environment).run past).client x.pending
    (x.operation.reading t)
  refine ⟨hreads.frames_isPrefix hawaits, ?_⟩
  intro ms hms
  rw [← hawaits.code]
  exact hreads.messages_eq hms

/-- A peer that answers everything with the acknowledgement of a ping, in two pieces. -/
theorem answered_run_ping :
    let peer : Environment :=
      { accepts := fun _ ↦ true, react := fun _ ↦ { pieces := [[0, 0, 0], [1, 2]] } }
    peer.Faithful ∧
      ∀ x ∈ ((new { poolSize := 2 } peer).run [.send .ping [], .send .get [], .read 1 none]).sent,
        ∀ t, ((new { poolSize := 2 } peer).run
          [.send .ping [], .send .get [], .read 1 none]).Answered x t := by
  intro peer
  have hfaithful : peer.Faithful := by
    intro received number op payload
    refine ⟨[⟨2, []⟩], ?_, ?_, by simp⟩
    · exact List.prefix_rfl
    · intro f hf
      obtain rfl := List.mem_singleton.mp hf
      exact Frame.Fits.of_le_maxPayload (Nat.zero_le _)
  exact ⟨hfaithful, (answered_run { poolSize := 2 } peer hfaithful
    [.send .ping [], .send .get [], .read 1 none]).2⟩

end Traffic
end ReplicaClient
