import ReplicaClient.Proofs.Client.Exchange
import ReplicaClient.Proofs.Network.Pages

/-!
# Listings and results in pages

A request whose reply comes in pages gets the entries of all pages up to the marked one, in order,
or the error that comes first.  The pages are read from the connection of the request, or from a
fresh one if the peer had closed that before the first octet.
-/

namespace ReplicaClient

open Wire

namespace Channel

/-- Nothing has come on the connection and nothing will. -/
def Ended (ch : Channel) : Prop :=
  ch.ending = .closed ∧ ch.unread = []

instance (ch : Channel) : Decidable ch.Ended :=
  inferInstanceAs (Decidable (_ ∧ _))

variable {ch : Channel}

theorem receive_eq_none_iff : ch.receive.1 = .ok none ↔ ch.Ended := by
  constructor
  · intro h
    cases hdecode : Frame.decode ch.unread with
    | ok found =>
        cases found with
        | some found =>
            obtain ⟨after, hreceive, -⟩ := receive_of_frame hdecode
            rw [hreceive] at h
            cases h
        | none =>
            obtain ⟨after, hreceive, -⟩ := receive_of_incomplete hdecode
            rw [hreceive] at h
            cases h
    | error e =>
        obtain ⟨after, -, -, hreceive⟩ := receive_of_error hdecode
        rw [hreceive] at h
        cases e with
        | short n =>
            simp only [shortRead, shortage] at h
            cases hending : ch.ending with
            | closed =>
                by_cases hn : n = 0
                · subst hn
                  exact ⟨hending, Frame.eq_nil_of_decode hdecode⟩
                · simp [hending, hn] at h
            | stillOpen => simp [hending] at h
            | broken fault => simp [hending] at h
        | empty => cases h
        | tooLarge size => cases h
        | decode e => cases h
  · rintro ⟨hclosed, hnil⟩
    have hdecode : Frame.decode ch.unread = .error (.short 0) := by
      rw [hnil]
      rfl
    obtain ⟨after, -, -, hreceive⟩ := receive_of_error hdecode
    rw [hreceive]
    simp only [shortRead, shortage, hclosed, if_true]

/-- A reply that has to begin is the rest of a reply of which nothing has been read. -/
theorem receiveMore_eq_begun (reading : Reading) (expected : MessageCode) (ch : Channel) :
    ch.receiveMore reading expected (ch.unread.length + 1) =
      (Client.begun (ch.receiveReply reading expected).1, (ch.receiveReply reading expected).2) := by
  unfold receiveReply
  rcases hreceive : ch.receive with ⟨e | found, after⟩
  · dsimp only
    rcases ch.receiveMore reading expected (ch.unread.length + 1) with ⟨e | ms, last⟩ <;> rfl
  · cases found with
    | none =>
        rw [receiveMore]
        simp only [hreceive]
        rfl
    | some f =>
        dsimp only
        rcases ch.receiveMore reading expected (ch.unread.length + 1) with ⟨e | ms, last⟩ <;> rfl

theorem receiveReply_eq_none_iff (reading : Reading) (expected : MessageCode) :
    (ch.receiveReply reading expected).1 = .ok none ↔ ch.Ended := by
  rw [← receive_eq_none_iff]
  unfold receiveReply
  rcases hreceive : ch.receive with ⟨e | found, after⟩
  · dsimp only
    rcases ch.receiveMore reading expected (ch.unread.length + 1) with ⟨e | ms, last⟩ <;> simp
  · cases found with
    | none => simp
    | some f =>
        dsimp only
        rcases ch.receiveMore reading expected (ch.unread.length + 1) with ⟨e | ms, last⟩ <;> simp

end Channel

/-- Dialling takes no notice of what is on the connections. -/
theorem Network.dial_congr (config : Config) {net net' : Network}
    (henvironment : net'.environment = net.environment) (hdials : net'.dials = net.dials)
    (hlength : net'.channels.length = net.channels.length) :
    (net'.dial config).1 = (net.dial config).1 := by
  unfold dial
  rw [henvironment, hdials]
  cases net.environment.route with
  | some fault => rfl
  | none =>
      dsimp only
      split
      · rfl
      · split
        · split
          · rfl
          · simp only [List.length_append, hlength]
        · rfl

namespace Client

variable {c : Client} {p : Pending}

/-- The channel on which the reply to a request comes: that of the request, or if it has ended, that
of a fresh connection over which the request is sent once more. -/
def replyChannel (c : Client) (p : Pending) : Except ClientError Channel :=
  if (c.network.channel p.held.connection.channel).Ended then
    c.dial.1.map fun k ↦ c.network.firstReply k.channel p.frame
  else .ok (c.network.channel p.held.connection.channel)

/-- What is unread on the connection of a request after its reply. -/
def left (read : Except ClientError (List Message) × Held × Client) : Bytes :=
  (read.2.2.network.channel read.2.1.connection.channel).unread

theorem dial_setChannel (c : Client) (number : Nat) (ch : Channel) :
    { c with network := c.network.setChannel number ch }.dial.1 = c.dial.1 := by
  simp only [dial]
  cases Network.checkAddress c.config.addr with
  | error e => rfl
  | ok _ =>
      have hnetwork := @Network.dial_congr c.config c.network (c.network.setChannel number ch) rfl rfl
        (Network.length_setChannel _ _ _)
      exact congrArg (Except.map (Connection.mk c.pool.nextId)) hnetwork

/-- The client after it has found the connection of a request ended. -/
theorem receive_of_ended (reading : Reading) (h : (c.network.channel p.held.connection.channel).Ended) :
    ∃ after, c.receive p reading =
      (.ok none, { c with network := c.network.setChannel p.held.connection.channel after }) := by
  have hnone := (Channel.receiveReply_eq_none_iff reading (reading.expected p.code)).mpr h
  exact ⟨_, by rw [receive, Network.receiveReply]; exact Prod.ext hnone rfl⟩

theorem readReply_eq_error (reading : Reading) {e : ClientError}
    (h : c.replyChannel p = .error e) :
    (c.readReply p reading).1 = .error e := by
  unfold replyChannel at h
  split at h
  · rename_i hended
    obtain ⟨after, hreceive⟩ := receive_of_ended reading hended
    have hdial := c.dial_setChannel p.held.connection.channel after
    cases hundialled : c.dial.1 with
    | ok k =>
        rw [hundialled] at h
        cases h
    | error e' =>
        rw [hundialled] at h
        cases h
        rw [hundialled] at hdial
        simp only [readReply, hreceive, retry, reconnect]
        generalize dial _ = dialled at hdial
        obtain ⟨result, c'⟩ := dialled
        obtain rfl : result = .error e := hdial
        rfl
  · cases h

/-- The reply to a request is read from its channel, and only what follows the reply is left
there. -/
theorem readReply_eq_receiveMore (reading : Reading) {ch : Channel}
    (h : c.replyChannel p = .ok ch) :
    (c.readReply p reading).1 =
        (ch.receiveMore reading (reading.expected p.code) (ch.unread.length + 1)).1 ∧
      left (c.readReply p reading) =
        (ch.receiveMore reading (reading.expected p.code) (ch.unread.length + 1)).2.unread := by
  rw [Channel.receiveMore_eq_begun]
  unfold replyChannel at h
  split at h
  · rename_i hended
    obtain ⟨after, hreceive⟩ := receive_of_ended reading hended
    have hdial := c.dial_setChannel p.held.connection.channel after
    rcases dial_cases { c with network := c.network.setChannel p.held.connection.channel after } with
      ⟨e, c', heq, -⟩ | ⟨k, c', heq, hopens⟩
    · rw [heq] at hdial
      rw [← hdial] at h
      cases h
    · rw [heq] at hdial
      rw [← hdial] at h
      have hfirst : c'.network.firstReply k.channel p.frame = ch := by
        have henvironment : c'.network.environment = c.network.environment := hopens.environment
        have hreceived : c'.network.received = c.network.received := hopens.received
        rw [← Except.ok.inj h]
        simp only [Network.firstReply, henvironment, hreceived]
      have hnew : c'.network.channel k.channel = {} :=
        hopens.channel_new (List.mem_singleton_self k)
      obtain ⟨hlow, hhigh⟩ := hopens.channel_range k (List.mem_singleton_self k)
      have hsend : c'.network.send k.channel p.frame = (.ok (),
          (c'.network.note k.channel p.frame).setChannel k.channel ch) := by
        rw [← hfirst]
        simp only [Network.send, hnew]
        rfl
      have hchannel (ch : Channel) := @Network.channel_setChannel (c'.network.note k.channel p.frame)
        k.channel (Nat.zero_lt_of_lt hlow) hhigh ch
      simp only [readReply, hreceive, retry, reconnect, heq, hsend]
      simp only [receive, Network.receiveReply, hchannel, Network.setChannel_setChannel]
      rcases ch.receiveReply reading (reading.expected p.code) with ⟨e | found, last⟩
      · exact ⟨rfl, congrArg Channel.unread (hchannel last)⟩
      · cases found with
        | none => exact ⟨rfl, congrArg Channel.unread (hchannel last)⟩
        | some ms => exact ⟨rfl, congrArg Channel.unread (hchannel last)⟩
  · rename_i hopen
    cases h
    have hlt : p.held.connection.channel - 1 < c.network.channels.length := by
      refine Nat.lt_of_not_le fun hle ↦ hopen ?_
      have hmissing : c.network.channel p.held.connection.channel = { ending := .closed } := by
        rw [Network.channel, List.getD_eq_getElem?_getD, List.getElem?_eq_none hle, Option.getD_none]
      rw [hmissing]
      exact ⟨rfl, rfl⟩
    have hchannel (ch : Channel) :
        (c.network.setChannel p.held.connection.channel ch).channel p.held.connection.channel = ch := by
      simp only [Network.channel, Network.setChannel, List.getD_eq_getElem?_getD]
      rw [List.getElem?_set_self hlt, Option.getD_some]
    have hbegun := mt (Channel.receiveReply_eq_none_iff reading (reading.expected p.code)).mp hopen
    simp only [readReply, receive, Network.receiveReply]
    generalize (c.network.channel p.held.connection.channel).receiveReply reading
      (reading.expected p.code) = received at hbegun
    rcases received with ⟨e | found, last⟩
    · exact ⟨rfl, congrArg Channel.unread (hchannel last)⟩
    · cases found with
      | none => exact absurd rfl hbegun
      | some ms => exact ⟨rfl, congrArg Channel.unread (hchannel last)⟩

end Client

/-! ## Reassembly -/

/-- What the caller gets of a page is what the page carries. -/
def Wire.MessageType.ReadsBy (t : MessageType) (parts : Message → List Bytes) : Prop :=
  ∀ m entries done, t.Carries m entries done → parts m = entries

theorem readsBy_pageEntries {t : MessageType} (ht : t.IsListing) :
    t.ReadsBy Request.pageEntries := by
  intro m entries done h
  have hentries (slot : Slot) : Request.pageEntries [entries.map .bytes, slot] = entries := by
    simp [Request.pageEntries, Slot.allBytes, Slot.bytes, Function.comp_def]
  rcases ht with rfl | rfl <;> cases h <;> exact hentries _

theorem readsBy_partResult : MessageType.mapReduceReply.ReadsBy Request.partResult := by
  intro m entries done h
  cases h with
  | part phase response mark => cases response <;> rfl

/-- What has been read of a channel is the entries of all pages of a complete reply, in order, and
only what follows the reply is left; or it is the error that comes first. -/
structure Reassembles (t : MessageType) (ch : Channel) (result : Except ClientError (List Bytes))
    (left : Bytes) : Prop where
  ok_iff : ∀ entries rest, result = .ok entries ∧ left = rest ↔
    ∃ (pages : List (Page t)) (last : Page t), Completes pages last rest ch.unread ∧
      entries = (pages ++ [last]).flatMap Page.entries
  error_iff : ∀ e, result = .error e ↔ ∃ pages : List (Page t),
    BreaksAfter pages ch.ending ch.unread e

/-- What has been read of a complete listing is also what a single page carries, whose payload is
that of all pages together. -/
def ReadsAsOne (t : MessageType) (ch : Channel) (result : Except ClientError (List Bytes)) : Prop :=
  ∀ (pages : List (Page t)) (last : Page t) (rest : Bytes), Completes pages last rest ch.unread →
    ∃ m entries, Message.decode t ((pages ++ [last]).map Page.payload).flatten = .ok m ∧
      t.Carries m entries true ∧ result = .ok entries

theorem Channel.reassembles_receiveMore {op : Operation} {t : MessageType}
    (hop : op.pages? = some t) {parts : Message → List Bytes} (hparts : t.ReadsBy parts)
    (ch : Channel) :
    let (result, after) := ch.receiveMore (.pages t) t.pageCode (ch.unread.length + 1)
    Reassembles t ch (result.map (List.flatMap parts)) after.unread := by
  have hread := receiveMore_pages_iff hop ch
  generalize ch.receiveMore (.pages t) t.pageCode (ch.unread.length + 1) = received at hread
  obtain ⟨result, after⟩ := received
  obtain ⟨hok, herror⟩ := hread
  have hentries (pages : List (Page t)) :
      (pages.map Page.message).flatMap parts = pages.flatMap Page.entries := by
    rw [List.flatMap_map]
    exact List.flatMap_congr fun p _ ↦ hparts _ _ _ p.carries
  constructor
  · intro entries rest
    constructor
    · rintro ⟨hresult, hrest⟩
      cases result with
      | error e => cases hresult
      | ok ms =>
          cases hresult
          obtain ⟨pages, last, hcompletes, rfl⟩ := (hok ms rest).mp ⟨rfl, hrest⟩
          exact ⟨pages, last, hcompletes, hentries _⟩
    · rintro ⟨pages, last, hcompletes, rfl⟩
      obtain ⟨hresult, hrest⟩ := (hok _ rest).mpr ⟨pages, last, hcompletes, rfl⟩
      obtain rfl : result = _ := hresult
      exact ⟨congrArg Except.ok (hentries _), hrest⟩
  · intro e
    rw [← herror]
    cases result with
    | error e' => simp [Except.map]
    | ok ms => simp [Except.map]

theorem Reassembles.readsAsOne {t : MessageType} (ht : t.IsListing) {ch : Channel}
    {result : Except ClientError (List Bytes)} {left : Bytes} (h : Reassembles t ch result left) :
    ReadsAsOne t ch result := by
  intro pages last rest hcompletes
  obtain ⟨m, hdecode, hcarries⟩ := hcompletes.exists_single ht
  have hresult := (h.ok_iff _ rest).mpr ⟨pages, last, hcompletes, rfl⟩
  exact ⟨m, _, hdecode, hcarries, hresult.1⟩

/-- A listing returns the entries of all its pages up to the marked one, a job the results in its
parts, and the octets up to the end of that page have been read; whatever else comes first is the
error that is returned.  How entries are spread over pages makes no difference. -/
theorem Client.reassembles_readReply (c : Client) (p : Pending) :
    match c.replyChannel p with
    | .error e => ∀ reading, (c.readReply p reading).1 = .error e
    | .ok ch =>
        (∀ bucket type, let q := Request.listKeys bucket type
          let read := c.readReply p q.reading
          Reassembles .listKeysReply ch (read.1.map q.reply) (left read) ∧
            ReadsAsOne .listKeysReply ch (read.1.map q.reply)) ∧
        (let q := Request.listBuckets
          let read := c.readReply p q.reading
          Reassembles .listBucketsReply ch (read.1.map q.reply) (left read) ∧
            ReadsAsOne .listBucketsReply ch (read.1.map q.reply)) ∧
        ∀ job contentType, let q := Request.mapReduce job contentType
          let read := c.readReply p q.reading
          Reassembles .mapReduceReply ch (read.1.map q.reply) (left read) := by
  cases hchannel : c.replyChannel p with
  | error e => exact fun reading ↦ readReply_eq_error reading hchannel
  | ok ch =>
      have hread {op : Operation} {t : MessageType} (hop : op.pages? = some t)
          {parts : Message → List Bytes} (hparts : t.ReadsBy parts) : Reassembles t ch
            ((c.readReply p (.pages t)).1.map (List.flatMap parts))
            (left (c.readReply p (.pages t))) := by
        obtain ⟨hresult, hleft⟩ := readReply_eq_receiveMore (.pages t) hchannel
        rw [hresult, hleft]
        exact Channel.reassembles_receiveMore hop hparts ch
      have hkeys := @hread .listKeys _ rfl _ (readsBy_pageEntries (.inl rfl))
      have hbuckets := @hread .listBuckets _ rfl _ (readsBy_pageEntries (.inr rfl))
      exact ⟨fun _ _ ↦ ⟨hkeys, hkeys.readsAsOne (.inl rfl)⟩,
        ⟨hbuckets, hbuckets.readsAsOne (.inr rfl)⟩,
        fun _ _ ↦ @hread .mapReduce _ rfl _ readsBy_partResult⟩

namespace Client

/-- A client with one connection, on which these octets have come. -/
def hearing (pieces : List Bytes) : Client :=
  { config := {}
    pool := { size := 1 }
    network := { channels := [{ inbox := pieces }], environment := .isolated } }

/-- A request that waits for its reply on that connection. -/
def Pending.unanswered : Pending :=
  { held := ⟨⟨1, 1⟩, 0, true⟩, frame := [], code := .request .listKeys }

theorem replyChannel_hearing (pieces : List Bytes) :
    (hearing pieces).replyChannel .unanswered = .ok { inbox := pieces } :=
  rfl

/-- Two keys of which one is empty, a page without keys, a third key on the last page, and the
beginning of something else; the pieces do not keep to the frames. -/
def keyPieces : List Bytes :=
  [[0, 0, 0, 6, 18, 10, 1, 97], [10, 0, 0, 0, 0, 1, 18], [0, 0, 0], [6, 18, 10, 1, 98, 16, 1, 0, 0]]

/-- A result, a part without one, and an empty result in the last part. -/
def jobPieces : List Bytes :=
  [[0, 0, 0, 6, 24, 8, 0, 18, 1, 120], [0, 0, 0, 3, 24, 8, 1], [0, 0, 0, 5, 24, 18, 0, 24, 1]]

/-- A key, and an error where the next page should be. -/
def refusedPieces : List Bytes :=
  [[0, 0, 0, 4, 18, 10, 1, 97], [0, 0, 0, 6, 0, 10, 1, 110, 16, 7]]

theorem reassembles_readReply_hearing :
    (let q := Request.listKeys [98] none
      let read := (hearing keyPieces).readReply .unanswered q.reading
      read.1.map q.reply = .ok [[97], [], [98]] ∧ left read = [0, 0]) ∧
    (let q := Request.mapReduce [] []
      let read := (hearing jobPieces).readReply .unanswered q.reading
      read.1.map q.reply = .ok [[120], []] ∧ left read = []) ∧
    (let q := Request.listKeys [98] none
      let read := (hearing refusedPieces).readReply .unanswered q.reading
      read.1.map q.reply = .error (.server "n" 7)) := by
  have hkeys := reassembles_readReply (hearing keyPieces) .unanswered
  have hjob := reassembles_readReply (hearing jobPieces) .unanswered
  have hrefused := reassembles_readReply (hearing refusedPieces) .unanswered
  rw [replyChannel_hearing] at hkeys hjob hrefused
  refine ⟨?_, ?_, ?_⟩
  · let two : Page .listKeysReply :=
      ⟨[10, 1, 97, 10, 0], _, _, _, by decide, rfl, .keys [[97], []] none⟩
    let empty : Page .listKeysReply := ⟨[], _, _, _, by decide, rfl, .keys [] none⟩
    let last : Page .listKeysReply :=
      ⟨[10, 1, 98, 16, 1], _, _, _, by decide, rfl, .keys [[98]] (some true)⟩
    have hcompletes : Completes [two, empty] last [0, 0] keyPieces.flatten :=
      ⟨by decide, by simp [two, empty], rfl⟩
    exact ((hkeys.1 [98] none).1.ok_iff _ _).mpr ⟨_, _, hcompletes, rfl⟩
  · let result : Page .mapReduceReply :=
      ⟨[8, 0, 18, 1, 120], _, _, _, by decide, rfl, .part (some 0) (some [120]) none⟩
    let bare : Page .mapReduceReply := ⟨[8, 1], _, _, _, by decide, rfl, .part (some 1) none none⟩
    let last : Page .mapReduceReply :=
      ⟨[18, 0, 24, 1], _, _, _, by decide, rfl, .part none (some []) (some true)⟩
    have hcompletes : Completes [result, bare] last [] jobPieces.flatten :=
      ⟨by decide, by simp [result, bare], rfl⟩
    exact ((hjob.2.2 [] []).ok_iff _ _).mpr ⟨_, _, hcompletes, rfl⟩
  · let one : Page .listKeysReply := ⟨[10, 1, 97], _, _, _, by decide, rfl, .keys [[97]] none⟩
    have hdecode : Message.decode .error [10, 1, 110, 16, 7] = .ok [[.bytes [110]], [.word 7]] :=
      rfl
    have hinterrupts : Interrupts .listKeysReply .stillOpen _ (.server "n" 7) :=
      .refused (f := ⟨0, [10, 1, 110, 16, 7]⟩) (by decide) (by decide) hdecode []
    have hbreaks : BreaksAfter [one] .stillOpen refusedPieces.flatten (.server "n" 7) :=
      ⟨by simp [one], _, by decide, hinterrupts⟩
    exact ((hrefused.1 [98] none).1.error_iff _).mpr ⟨_, hbreaks⟩

end Client
end ReplicaClient
