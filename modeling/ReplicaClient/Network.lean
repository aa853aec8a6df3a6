import ReplicaClient.Config
import ReplicaClient.Error
import ReplicaClient.Request
import ReplicaClient.Text.Natural

/-!
# The network

A connection delivers octets in pieces of any size and then stays open, ends, or breaks.
The peer on the other side accepts or refuses dials and reacts to each frame that reaches
it; what it does may depend on everything it has received before.
-/

namespace ReplicaClient

inductive Ending where
  | stillOpen
  | closed
  | broken (fault : IoFault)
  deriving DecidableEq, Repr

/-- The client's side of a connection: the octets it has not read, in pieces, and what follows. -/
structure Channel where
  inbox : List Bytes := []
  ending : Ending := .stillOpen
  deriving DecidableEq, Repr, Inhabited

/-- What the peer does with a frame: it sends octets and may then end the connection. -/
structure Reaction where
  pieces : List Bytes := []
  ending : Ending := .stillOpen
  deriving DecidableEq, Repr, Inhabited

namespace Channel

/-- Takes octets, piece by piece, until there are `n` of them or no more have come. -/
def take : (n : Nat) → List Bytes → Bytes × List Bytes
  | _, [] => ([], [])
  | n, piece :: pieces =>
      if n ≤ piece.length then (piece.take n, piece.drop n :: pieces)
      else
        let (more, rest) := take (n - piece.length) pieces
        (piece ++ more, rest)

def unread (ch : Channel) : Bytes :=
  ch.inbox.flatten

/-- What a read meets that needs more octets than have come; a read from an open stream waits in
vain. -/
def shortage (ch : Channel) : Option ClientError :=
  match ch.ending with
  | .closed => none
  | .stillOpen => some (.io .wouldBlock)
  | .broken fault => some (.io fault)

/-- Reads one frame.  There is none if the stream has ended, and a stream that ends inside a frame
is a fault. -/
def receive (ch : Channel) : Except ClientError (Option Frame) × Channel :=
  let (header, rest) := take Frame.headerLength ch.inbox
  let ch := { ch with inbox := rest }
  match Frame.decodeHeader header with
  | .error (.short n) =>
      match ch.shortage with
      | some e => (.error e, ch)
      | none => (if n = 0 then .ok none else .error (.shortResponse n), ch)
  | .error e => (.error (.frame e), ch)
  | .ok header =>
      let (payload, rest) := take header.payloadLength ch.inbox
      let ch := { ch with inbox := rest }
      if payload.length < header.payloadLength then
        (.error (ch.shortage.getD .connectionClosed), ch)
      else (.ok (some ⟨header.code, payload⟩), ch)

def react (ch : Channel) (r : Reaction) : Channel :=
  ⟨ch.inbox ++ r.pieces, r.ending⟩

end Channel

/-- The message that a frame holds, if it is the reply that is expected. -/
def interpret (expected : MessageCode) (t : Wire.MessageType) (frame : Frame) :
    Except ClientError Wire.Message :=
  if frame.code = MessageCode.error.toByte then
    match Wire.Message.decode .error frame.payload with
    | .error e => .error (.decode e)
    | .ok m =>
        let e := ErrorReply.ofMessage m
        .error (.server (Utf8.decodeLossy e.text) e.code)
  else if frame.code ≠ expected.toByte then .error (.unexpectedResponse expected frame.code)
  else if expected.isEmptyAck then .ok t.default
  else
    match Wire.Message.decode t frame.payload with
    | .error e => .error (.decode e)
    | .ok m => .ok m

namespace Channel

/-- Reads the rest of a reply, up to the message that ends it; `room` bounds the number of frames. -/
def receiveMore (reading : Reading) (expected : MessageCode) : (room : Nat) → Channel →
    Except ClientError (List Wire.Message) × Channel
  | 0, ch => (.error .connectionClosed, ch)
  | room + 1, ch =>
      match ch.receive with
      | (.error e, ch) => (.error e, ch)
      | (.ok none, ch) => (.error .connectionClosed, ch)
      | (.ok (some frame), ch) =>
          match interpret expected reading.messageType frame with
          | .error e => (.error e, ch)
          | .ok m =>
              if reading.isLast m then (.ok [m], ch)
              else
                match receiveMore reading expected room ch with
                | (.error e, ch) => (.error e, ch)
                | (.ok ms, ch) => (.ok (m :: ms), ch)

/-- Reads a whole reply; there is none if the stream has ended before its first octet.  Every frame
takes octets, so their number bounds that of the frames. -/
def receiveReply (reading : Reading) (expected : MessageCode) (ch : Channel) :
    Except ClientError (Option (List Wire.Message)) × Channel :=
  match ch.receive with
  | (.ok none, after) => (.ok none, after)
  | _ =>
      match receiveMore reading expected (ch.unread.length + 1) ch with
      | (.error e, ch) => (.error e, ch)
      | (.ok ms, ch) => (.ok (some ms), ch)

end Channel

/-! ## The peer -/

/-- What lies beyond the client: whether the host has a route to the peer, which dials the peer
accepts, and how it reacts to a frame given all it has received, the frame included. -/
structure Environment where
  route : Option IoFault := none
  accepts : (dial : Nat) → Bool
  react : (received : List (Nat × Bytes)) → Reaction

def Environment.isolated : Environment where
  route := some .networkUnreachable
  accepts _ := false
  react _ := {}

/-- Reacts to the requests after the first `past` ones by a script, and to those beyond the script
by a rule for single frames. -/
def scripted (script : List Reaction) (past : Nat) (beyond : Bytes → Reaction)
    (received : List (Nat × Bytes)) : Reaction :=
  match script[received.length - past - 1]? with
  | some reaction => reaction
  | none => beyond ((received.getLast?.map (·.2)).getD [])

/-- Connections are numbered from one in the order in which they were made. -/
structure Network where
  channels : List Channel := []
  dials : Nat := 0
  received : List (Nat × Bytes) := []
  environment : Environment

namespace Network

/-- An address is a host, a colon and a number of sixteen bits; the last colon counts. -/
def checkAddress (addr : String) : Except ClientError Unit :=
  match addr.toList.reverse.span (· ≠ ':') with
  | (_, []) => .error (.address addr .noPort)
  | (reversedPort, _) =>
      match Text.natural? UInt16.size reversedPort.reverse with
      | none => .error (.address addr .badPort)
      | some _ => .ok ()

/-- Dials the peer.  A host without a route says so at once, whatever the limits are; a limit of no
time at all is refused where it is set. -/
def dial (config : Config) (net : Network) : Except ClientError Nat × Network :=
  let next := { net with dials := net.dials + 1 }
  match net.environment.route with
  | some fault => (.error (.dial config.addr fault), next)
  | none =>
      if config.connectTimeout = some 0 then (.error (.dial config.addr .invalidInput), next)
      else if net.environment.accepts net.dials then
        let next := { next with channels := net.channels ++ [{}] }
        if config.readTimeout = some 0 ∨ config.writeTimeout = some 0 then
          (.error (.io .invalidInput), next)
        else (.ok next.channels.length, next)
      else (.error (.dial config.addr .connectionRefused), next)

def channel (net : Network) (number : Nat) : Channel :=
  net.channels.getD (number - 1) { ending := .closed }

def setChannel (net : Network) (number : Nat) (ch : Channel) : Network :=
  { net with channels := net.channels.set (number - 1) ch }

def send (net : Network) (number : Nat) (frame : Bytes) : Except ClientError Unit × Network :=
  let ch := net.channel number
  match ch.ending with
  | .closed => (.ok (), net)
  | .broken fault => (.error (.io fault), net)
  | .stillOpen =>
      let received := net.received ++ [(number, frame)]
      let net := { net with received }
      (.ok (), net.setChannel number (ch.react (net.environment.react received)))

def receiveReply (net : Network) (number : Nat) (reading : Reading) (expected : MessageCode) :
    Except ClientError (Option (List Wire.Message)) × Network :=
  let (result, ch) := (net.channel number).receiveReply reading expected
  (result, net.setChannel number ch)

end Network
end ReplicaClient
