import ReplicaClient.Client

/-!
# The errors of an exchange

An exchange fails because there is no connection, because octets do not get through, or because of
what the reply is.  Errors of other kinds are found before a request is sent or in a good reply, so
they never come in place of one.
-/

namespace ReplicaClient

/-- An exchange can end with the error. -/
def ClientError.OfExchange : ClientError → Prop
  | io _ | address _ _ | dial _ _ | badConnectionCount _ | acquireTimeout _ | connectionClosed
  | shortResponse _ | frame _ | decode _ | server _ _ | unexpectedResponse _ _ => True
  | _ => False

/-- If the result is an error, it is one of an exchange. -/
def Exchanged {α : Type} (result : Except ClientError α) : Prop :=
  ∀ e, result = .error e → e.OfExchange

section

variable {α β : Type}

theorem exchanged_ok (a : α) : Exchanged (.ok a) :=
  fun _ h ↦ by cases h

theorem exchanged_error {e : ClientError} (h : e.OfExchange) :
    Exchanged (.error e : Except ClientError α) := by
  rintro _ ⟨⟩
  exact h

theorem Exchanged.map {result : Except ClientError α} (h : Exchanged result) (f : α → β) :
    Exchanged (result.map f) := by
  cases result with
  | error e => exact exchanged_error (h e rfl)
  | ok a => exact exchanged_ok (f a)

end

/-! ## The network -/

namespace Network

theorem exchanged_checkAddress (addr : String) : Exchanged (checkAddress addr) := by
  rw [checkAddress]
  split
  · exact exchanged_error trivial
  · split
    · exact exchanged_error trivial
    · exact exchanged_ok ()

theorem exchanged_dial (config : Config) (net : Network) : Exchanged (net.dial config).1 := by
  rw [dial]
  dsimp only
  repeat' split
  all_goals first | exact exchanged_error trivial | exact exchanged_ok _

theorem exchanged_send (net : Network) (number : Nat) (frame : Bytes) :
    Exchanged (net.send number frame).1 := by
  rw [send]
  dsimp only
  split
  · exact exchanged_ok ()
  · exact exchanged_error trivial
  · exact exchanged_ok ()

end Network

theorem exchanged_interpret (expected : MessageCode) (t : Wire.MessageType) (f : Frame) :
    Exchanged (interpret expected t f) := by
  rw [interpret]
  repeat' split
  all_goals first | exact exchanged_error trivial | exact exchanged_ok _

namespace Channel

theorem ofExchange_shortage {ch : Channel} {e : ClientError} (h : ch.shortage = some e) :
    e.OfExchange := by
  rw [shortage] at h
  split at h
  · cases h
  · cases h
    trivial
  · cases h
    trivial

theorem ofExchange_getD_shortage (ch : Channel) :
    (ch.shortage.getD .connectionClosed).OfExchange := by
  cases hshortage : ch.shortage with
  | none => trivial
  | some e => exact ofExchange_shortage hshortage

theorem exchanged_receive (ch : Channel) : Exchanged ch.receive.1 := by
  rw [receive]
  dsimp only
  split
  · split
    · rename_i hshortage
      exact exchanged_error (ofExchange_shortage hshortage)
    · dsimp only
      split
      · exact exchanged_ok none
      · exact exchanged_error trivial
  · exact exchanged_error trivial
  · split
    · exact exchanged_error (ofExchange_getD_shortage _)
    · exact exchanged_ok _

theorem exchanged_receiveMore (reading : Reading) (expected : MessageCode) (room : Nat)
    (ch : Channel) : Exchanged (ch.receiveMore reading expected room).1 := by
  induction room generalizing ch with
  | zero => exact exchanged_error trivial
  | succ room ih =>
      have hreceive := ch.exchanged_receive
      rw [receiveMore]
      generalize ch.receive = received at hreceive
      obtain ⟨e | found, after⟩ := received
      · exact exchanged_error (hreceive e rfl)
      · cases found with
        | none => exact exchanged_error trivial
        | some f =>
            have hinterpret := exchanged_interpret expected reading.messageType f
            dsimp only
            cases hframe : interpret expected reading.messageType f with
            | error e => exact exchanged_error (hinterpret e hframe)
            | ok m =>
                dsimp only
                split
                · exact exchanged_ok [m]
                · have hmore := ih after
                  generalize after.receiveMore reading expected room = rest at hmore
                  obtain ⟨e | ms, last⟩ := rest
                  · exact exchanged_error (hmore e rfl)
                  · exact exchanged_ok (m :: ms)

theorem exchanged_receiveReply (reading : Reading) (expected : MessageCode) (ch : Channel) :
    Exchanged (ch.receiveReply reading expected).1 := by
  rw [receiveReply]
  split
  · exact exchanged_ok none
  · have hmore := ch.exchanged_receiveMore reading expected (ch.unread.length + 1)
    generalize ch.receiveMore reading expected (ch.unread.length + 1) = received at hmore
    obtain ⟨e | ms, after⟩ := received
    · exact exchanged_error (hmore e rfl)
    · exact exchanged_ok (some ms)

end Channel

/-! ## The client -/

namespace Client

theorem exchanged_openConnection (c : Client) : Exchanged c.openConnection.1 :=
  (Network.exchanged_dial c.config c.network).map _

theorem exchanged_openConnections (count : Nat) (c : Client) :
    Exchanged (openConnections count c).1 := by
  induction count generalizing c with
  | zero => exact exchanged_ok []
  | succ count ih =>
      have hfirst := c.exchanged_openConnection
      rw [openConnections]
      generalize c.openConnection = opened at hfirst
      obtain ⟨e | k, c'⟩ := opened
      · exact exchanged_error (hfirst e rfl)
      · have hrest := ih c'
        dsimp only
        generalize openConnections count c' = opened at hrest
        obtain ⟨e | ks, c''⟩ := opened
        · exact exchanged_error (hrest e rfl)
        · exact exchanged_ok (k :: ks)

theorem exchanged_dial (c : Client) : Exchanged c.dial.1 := by
  have haddress := Network.exchanged_checkAddress c.config.addr
  rw [dial]
  cases hcheck : Network.checkAddress c.config.addr with
  | error e => exact exchanged_error (haddress e hcheck)
  | ok _ => exact c.exchanged_openConnection

theorem exchanged_establish (c : Client) (generation : Nat) :
    Exchanged (c.establish generation).1 := by
  have hall : Exchanged c.dialAll.1 := by
    have haddress := Network.exchanged_checkAddress c.config.addr
    rw [dialAll]
    cases hcheck : Network.checkAddress c.config.addr with
    | error e => exact exchanged_error (haddress e hcheck)
    | ok _ => exact exchanged_openConnections c.config.poolSize c
  rw [establish]
  generalize c.dialAll = dialled at hall
  obtain ⟨e | ks, c'⟩ := dialled
  · exact exchanged_error (hall e rfl)
  · exact exchanged_ok ()

theorem exchanged_acquireConnected (c : Client) : Exchanged c.acquireConnected.1 := by
  rw [acquireConnected]
  split
  · exact exchanged_ok _
  · rename_i g pool _
    have hdial := { c with pool }.exchanged_dial
    rw [replace]
    generalize { c with pool }.dial = dialled at hdial
    obtain ⟨e | k, c'⟩ := dialled
    · exact exchanged_error (hdial e rfl)
    · exact exchanged_ok _
  · exact exchanged_error trivial
  · exact exchanged_error trivial

theorem exchanged_acquire (c : Client) : Exchanged c.acquire.1 := by
  rw [acquire]
  split
  · rename_i g pool _
    split
    · rename_i e hcheck
      rw [Pool.checkSize] at hcheck
      split at hcheck
      · cases hcheck
        exact exchanged_error trivial
      · cases hcheck
    · have hestablish := { c with pool }.exchanged_establish g
      generalize { c with pool }.establish g = established at hestablish
      obtain ⟨e | _, c'⟩ := established
      · exact exchanged_error (hestablish e rfl)
      · exact c'.exchanged_acquireConnected
  · exact c.exchanged_acquireConnected

theorem exchanged_send (c : Client) (code : MessageCode) (frame : Bytes) :
    Exchanged (c.send code frame).1 := by
  have hacquire := c.exchanged_acquire
  rw [send]
  generalize c.acquire = acquired at hacquire
  obtain ⟨e | held, c'⟩ := acquired
  · exact exchanged_error (hacquire e rfl)
  · have hsend := c'.network.exchanged_send held.connection.channel frame
    dsimp only
    generalize c'.network.send held.connection.channel frame = sent at hsend
    obtain ⟨e | _, network⟩ := sent
    · exact exchanged_error (hsend e rfl)
    · exact exchanged_ok _

theorem exchanged_receive (c : Client) (p : Pending) (reading : Reading) :
    Exchanged (c.receive p reading).1 :=
  Channel.exchanged_receiveReply reading _ _

theorem exchanged_retry (c : Client) (p : Pending) (reading : Reading) :
    Exchanged (c.retry p reading).1 := by
  have hdial := c.exchanged_dial
  unfold retry reconnect
  generalize c.dial = dialled at hdial
  obtain ⟨e | k, c'⟩ := dialled
  · exact exchanged_error (hdial e rfl)
  · have hsend := c'.network.exchanged_send k.channel p.frame
    dsimp only
    generalize c'.network.send k.channel p.frame = sent at hsend
    obtain ⟨e | _, network⟩ := sent
    · exact exchanged_error (hsend e rfl)
    · have hreceive := { c' with network }.exchanged_receive
        { p with held := { p.held with connection := k } } reading
      dsimp only
      generalize { c' with network }.receive
        { p with held := { p.held with connection := k } } reading = received at hreceive
      obtain ⟨e | found, c''⟩ := received
      · exact exchanged_error (hreceive e rfl)
      · cases found with
        | none => exact exchanged_error trivial
        | some ms => exact exchanged_ok ms

theorem exchanged_readReply (c : Client) (p : Pending) (reading : Reading) :
    Exchanged (c.readReply p reading).1 := by
  have hreceive := c.exchanged_receive p reading
  rw [readReply]
  generalize c.receive p reading = received at hreceive
  obtain ⟨e | found, c'⟩ := received
  · exact exchanged_error (hreceive e rfl)
  · cases found with
    | none => exact c'.exchanged_retry p reading
    | some ms => exact exchanged_ok ms

/-- Whatever keeps a request from being answered is an error of the exchange. -/
theorem exchanged_answer (q : Request) (c : Client) : Exchanged (c.answer q).1 := by
  have hsend := c.exchanged_send q.code q.frame
  suffices h : Exchanged (c.exchange q.code q.frame q.reading).1 from h.map q.reply
  rw [exchange]
  generalize c.send q.code q.frame = sent at hsend
  obtain ⟨e | p, c'⟩ := sent
  · exact exchanged_error (hsend e rfl)
  · exact c'.exchanged_readReply p q.reading

end Client
end ReplicaClient
