import ReplicaClient.Proofs.Client.Exchange

/-!
# Answers to requests

The peer keeps a log of the frames it has received and answers each entry on its connection.  A
request under way awaits the answer to its own entry.  Reading that answer leaves other
connections alone, and lets the connection be kept only if nothing of the answer is left.
-/

namespace ReplicaClient

open Wire

/-- What the peer sends in answer to the entry of its log. -/
def Network.answer (net : Network) (entry : Nat) : Bytes :=
  (net.environment.react (net.received.take (entry + 1))).pieces.flatten

theorem Network.answer_note (net : Network) (number : Nat) (frame : Bytes) :
    (net.note number frame).answer net.received.length =
      (net.environment.react (net.received ++ [(number, frame)])).pieces.flatten := by
  have hall : (net.received ++ [(number, frame)]).take (net.received.length + 1) =
      net.received ++ [(number, frame)] := List.take_of_length_le (by simp)
  simp only [answer, note, hall]

/-- The later network goes on from the earlier one, for the same peer. -/
structure Network.Continues (net net' : Network) : Prop where
  environment : net'.environment = net.environment
  received : net.received <+: net'.received

theorem Network.Continues.answer_eq {net net' : Network} (h : net.Continues net') {entry : Nat}
    (hlt : entry < net.received.length) : net'.answer entry = net.answer entry := by
  obtain ⟨more, hmore⟩ := h.received
  rw [answer, answer, h.environment, ← hmore, List.take_append_of_le_length hlt]

theorem Network.Grows.continues {net net' : Network} (h : net.Grows net') : net.Continues net' :=
  ⟨h.environment, h.received ▸ List.prefix_rfl⟩

/-- A request under way, with its operation and the entry it has made in the log of the peer. -/
structure Sent where
  pending : Client.Pending
  operation : Operation
  entry : Option Nat

namespace Sent

variable {x : Sent} {net net' : Network}

def connection (x : Sent) : Connection :=
  x.pending.held.connection

/-- What is unread on the connection of the request is the answer to it; nothing is, if the request
did not reach the peer. -/
structure Awaits (x : Sent) (net : Network) : Prop where
  frame : ∃ payload, x.pending.frame = Frame.encode (.request x.operation) payload
  code : x.pending.code = .request x.operation
  unread : (x.entry = none ∧ net.Silent x.connection) ∨
    ∃ j, x.entry = some j ∧
      net.received[j]? = some (x.connection.channel, x.pending.frame) ∧
      (net.channel x.connection.channel).unread = net.answer j

theorem Awaits.continues (h : x.Awaits net) (hcontinues : net.Continues net')
    (hchannel : net'.channel x.connection.channel = net.channel x.connection.channel) :
    x.Awaits net' where
  frame := h.frame
  code := h.code
  unread := by
    rcases h.unread with ⟨hnone, hsilent⟩ | ⟨j, hentry, hlog, hunread⟩
    · refine Or.inl ⟨hnone, ?_⟩
      rw [Network.Silent, hchannel]
      exact hsilent
    · obtain ⟨hlt, -⟩ := List.getElem?_eq_some_iff.mp hlog
      refine Or.inr ⟨j, hentry, ?_, ?_⟩
      · obtain ⟨more, hmore⟩ := hcontinues.received
        rw [← hmore, List.getElem?_append_left hlt]
        exact hlog
      · rw [hchannel, hunread, hcontinues.answer_eq hlt]

/-- A request that has been sent over a silent connection awaits its answer. -/
theorem awaits_note {h : Held} (op : Operation) (payload : Bytes) (hsilent : net.Silent h.connection)
    (hpos : 0 < h.connection.channel) (hle : h.connection.channel ≤ net.channels.length) :
    let frame := Frame.encode (.request op) payload
    Awaits ⟨⟨h, frame, .request op⟩, op, some net.received.length⟩
      ((net.note h.connection.channel frame).setChannel h.connection.channel
        ((net.channel h.connection.channel).react
          (net.environment.react (net.received ++ [(h.connection.channel, frame)])))) := by
  intro frame
  refine ⟨⟨payload, rfl⟩, rfl, Or.inr ⟨net.received.length, rfl, List.getElem?_concat_length, ?_⟩⟩
  have hanswer := net.answer_note h.connection.channel frame
  have hchannel := @Network.channel_setChannel (net.note h.connection.channel frame)
    h.connection.channel hpos hle ((net.channel h.connection.channel).react
      (net.environment.react (net.received ++ [(h.connection.channel, frame)])))
  refine (congrArg Channel.unread hchannel).trans (Eq.trans ?_ hanswer.symm)
  rw [Channel.unread, Channel.react, List.flatten_append]
  exact (congrArg (· ++ _) hsilent).trans (List.nil_append _)

theorem isReply_answer (hfaithful : net.environment.Faithful) {j number : Nat} {op : Operation}
    {payload : Bytes} (hlog : net.received[j]? = some (number, Frame.encode (.request op) payload)) :
    IsReply op (net.answer j) := by
  obtain ⟨hlt, hentry⟩ := List.getElem?_eq_some_iff.mp hlog
  rw [Network.answer, List.take_succ_eq_append_getElem hlt, hentry]
  exact hfaithful _ _ _ _

theorem Awaits.isReply (h : x.Awaits net) (hfaithful : net.environment.Faithful) :
    IsReply x.operation (net.channel x.connection.channel).unread := by
  rcases h.unread with ⟨-, hsilent⟩ | ⟨j, -, hlog, hunread⟩
  · rw [Network.Silent] at hsilent
    rw [hsilent]
    exact .nil _
  · obtain ⟨payload, hframe⟩ := h.frame
    rw [hunread]
    exact isReply_answer hfaithful (hframe ▸ hlog)

end Sent

/-! ## Reading one reply -/

namespace Client.Reads

variable {size : Nat} {c c' : Client} {x : Sent} {t : Option MessageType}
  {result : Except ClientError (List Message)} {held : Held} {frames : List Frame}

theorem idle_eq {p : Pending} {reading : Reading} (h : c.Reads p reading result held c' frames) :
    c'.pool.idle = c.pool.idle := by
  cases h with
  | once hreceive hbegun => rfl
  | undialled e hreceive hopens => exact hopens.idle_eq
  | again hreceive hopens hagain => exact hopens.idle_eq

theorem continues {p : Pending} {reading : Reading} (h : c.Reads p reading result held c' frames) :
    c.network.Continues c'.network := by
  cases h with
  | once hreceive hbegun => exact ⟨rfl, List.prefix_rfl⟩
  | undialled e hreceive hopens => exact ⟨hopens.environment, hopens.received ▸ List.prefix_rfl⟩
  | again hreceive hopens hagain =>
      refine ⟨hopens.environment, ?_⟩
      have hreceived := hopens.received
      dsimp only [Network.setChannel] at hreceived
      simp only [Network.setChannel, Network.note, hreceived]
      exact List.prefix_append _ _

/-- Connections other than the one of the request are left alone. -/
theorem channel_eq {p : Pending} {reading : Reading} (h : c.Reads p reading result held c' frames)
    (hpos : 0 < p.held.connection.channel) {number : Nat} (hnumber : 0 < number)
    (hle : number ≤ c.network.channels.length) (hne : number ≠ p.held.connection.channel) :
    c'.network.channel number = c.network.channel number := by
  cases h with
  | once hreceive hbegun => exact Network.channel_setChannel_of_ne hpos hnumber hne _
  | undialled e hreceive hopens =>
      rw [hopens.channel_eq hnumber (by simpa using hle)]
      exact Network.channel_setChannel_of_ne hpos hnumber hne _
  | @again result after last k c₁ hreceive hopens hagain =>
      obtain ⟨hlow, -⟩ := hopens.channel_range k (List.mem_singleton_self k)
      simp only [Network.length_setChannel] at hlow
      have hold : c₁.network.channel number = c.network.channel number := by
        rw [hopens.channel_eq hnumber (by simpa using hle)]
        exact Network.channel_setChannel_of_ne hpos hnumber hne _
      rw [← hold]
      exact Network.channel_setChannel_of_ne (Nat.zero_lt_of_lt hlow) hnumber
        (Nat.ne_of_lt (Nat.lt_of_le_of_lt hle hlow)) _

theorem custody {p : Pending} {reading : Reading} (h : c.Reads p reading result held c' frames)
    {helds : List Held} {i : Nat} (hi : helds[i]? = some p.held) (hcustody : c.Custody size helds) :
    c'.Custody size (helds.set i held) := by
  have hset : helds.set i p.held = helds := by
    obtain ⟨hlt, hget⟩ := List.getElem?_eq_some_iff.mp hi
    rw [← hget, List.set_getElem_self]
  cases h with
  | once hreceive hbegun =>
      rw [hset]
      exact hcustody.withNetwork (Network.length_setChannel _ _ _)
  | undialled e hreceive hopens =>
      rw [hset]
      exact (hcustody.withNetwork (Network.length_setChannel _ _ _)).lose hopens
  | @again result after last k c₁ hreceive hopens hagain =>
      have hread := hcustody.withNetwork
        (Network.length_setChannel c.network p.held.connection.channel after)
      exact (hread.reconnect hi hopens).withNetwork (Network.length_setChannel _ _ _)

/-- Only a whole reply lets the connection be kept. -/
theorem silent (h : c.Reads x.pending (x.operation.reading t) result held c' frames)
    (hawaits : x.Awaits c.network) (hfaithful : c.network.environment.Faithful)
    (hpos : 0 < x.connection.channel) (hle : x.connection.channel ≤ c.network.channels.length)
    (hkeeps : keeps result = true) : c'.network.Silent held.connection := by
  have hbegins {r : Except ClientError (Option (List Message))}
      (hkeeps : keeps (begun r) = true) : keeps r = true := by
    match r, hkeeps with
    | .error e, hkeeps => exact hkeeps
    | .ok (some ms), _ => rfl
  obtain ⟨payload, hframe⟩ := hawaits.frame
  cases h with
  | @once result after hreceive hbegun =>
      rw [hawaits.code] at hreceive
      have hunread := Channel.unread_receiveReply (t := t) (hawaits.isReply hfaithful)
      rw [Sent.connection, hreceive] at hunread
      have hsame := Network.channel_setChannel hpos hle after
      exact (congrArg Channel.unread hsame).trans (hunread (hbegins hkeeps))
  | @undialled after _ e hreceive hopens =>
      rw [hawaits.code] at hreceive
      have hunread := Channel.unread_receiveReply (t := t) (hawaits.isReply hfaithful)
      rw [Sent.connection, hreceive] at hunread
      have hsame : c'.network.channel x.connection.channel = after := by
        rw [hopens.channel_eq hpos (by simpa using hle)]
        exact Network.channel_setChannel hpos hle after
      exact (congrArg Channel.unread hsame).trans (hunread rfl)
  | @again result after last k c₁ hreceive hopens hagain =>
      obtain ⟨hlow, hhigh⟩ := hopens.channel_range k (List.mem_singleton_self k)
      have hreply : IsReply x.operation
          (c₁.network.firstReply k.channel x.pending.frame).unread := by
        have hanswer := hfaithful c₁.network.received k.channel x.operation payload
        rw [← hframe] at hanswer
        have henv : c₁.network.environment = c.network.environment := hopens.environment
        rw [← henv] at hanswer
        exact hanswer
      rw [hawaits.code] at hagain
      have hunread := Channel.unread_receiveReply (t := t) hreply
      rw [hagain] at hunread
      have hsame := @Network.channel_setChannel (c₁.network.note k.channel x.pending.frame) k.channel
        (Nat.zero_lt_of_lt hlow) hhigh last
      exact (congrArg Channel.unread hsame).trans (hunread (hbegins hkeeps))

/-- The frames that are interpreted come from the answer to the request, or from the answer to its
repetition. -/
theorem frames_isPrefix (h : c.Reads x.pending (x.operation.reading t) result held c' frames)
    (hawaits : x.Awaits c.network) :
    frames = [] ∨ ∃ j, (x.entry = some j ∨ c.network.received.length = j) ∧
      c'.network.received[j]? = some (held.connection.channel, x.pending.frame) ∧
      (frames.map Frame.octets).flatten <+: c'.network.answer j := by
  have hcontinues := h.continues
  cases h with
  | once hreceive hbegun =>
      have hprefix := Channel.interpreted_isPrefix (x.operation.reading t)
        ((x.operation.reading t).expected x.pending.code) (c.network.channel x.connection.channel)
      rcases hawaits.unread with ⟨-, hsilent⟩ | ⟨j, hentry, hlog, hunread⟩
      · left
        rw [Network.Silent] at hsilent
        rw [hsilent, List.prefix_nil] at hprefix
        exact Frame.eq_nil_of_flatten hprefix
      · right
        obtain ⟨hlt, -⟩ := List.getElem?_eq_some_iff.mp hlog
        refine ⟨j, Or.inl hentry, hlog, ?_⟩
        rw [hcontinues.answer_eq hlt, ← hunread]
        exact hprefix
  | undialled e hreceive hopens => exact Or.inl rfl
  | @again result after last k c₁ hreceive hopens hagain =>
      have hprefix := Channel.interpreted_isPrefix (x.operation.reading t)
        ((x.operation.reading t).expected x.pending.code)
        (c₁.network.firstReply k.channel x.pending.frame)
      have hlength : c₁.network.received.length = c.network.received.length :=
        congrArg List.length hopens.received
      rw [← hlength]
      refine Or.inr ⟨c₁.network.received.length, Or.inr rfl, ?_, ?_⟩
      · exact List.getElem?_concat_length
      · have hanswer := c₁.network.answer_note k.channel x.pending.frame
        exact hanswer ▸ hprefix

theorem messages_eq {p : Pending} {reading : Reading} {ms : List Message}
    (h : c.Reads p reading result held c' frames) (hresult : result = .ok ms) :
    frames.map (interpret (reading.expected p.code) reading.messageType) = ms.map .ok := by
  have hbegun {r : Except ClientError (Option (List Message))} (hr : begun r = .ok ms) :
      r = .ok (some ms) := by
    cases r with
    | error e => cases hr
    | ok found =>
        cases found with
        | none => cases hr
        | some ms' =>
            obtain rfl : ms' = ms := Except.ok.inj hr
            rfl
  cases h with
  | once hreceive _ =>
      rw [hbegun hresult] at hreceive
      exact Channel.interpret_interpreted hreceive
  | undialled e hreceive hopens => cases hresult
  | again hreceive hopens hagain =>
      rw [hbegun hresult] at hagain
      exact Channel.interpret_interpreted hagain

end Client.Reads
end ReplicaClient
