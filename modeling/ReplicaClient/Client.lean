import ReplicaClient.Dialogue
import ReplicaClient.Network
import ReplicaClient.Pool

/-!
# The client

A client joins a configuration, a pool and a network.  It sends one request at a time over a
connection of the pool and decides by the outcome whether the connection may be used again.
A connection that the peer has closed while it was idle is replaced once, without a word.
-/

namespace ReplicaClient

structure Client where
  config : Config
  pool : Pool
  network : Network

namespace Client

def new (config : Config) (environment : Environment) : Client :=
  { config, pool := .ofConfig config, network := { environment } }

/-! ## Dialling -/

/-- One more connection to the peer.  Its number is used up even if the dial fails. -/
def openConnection (c : Client) : Except ClientError Connection × Client :=
  let (id, pool) := c.pool.takeId
  let (result, network) := c.network.dial c.config
  (result.map fun channel ↦ ⟨id, channel⟩, { c with pool, network })

def openConnections : (count : Nat) → Client → Except ClientError (List Connection) × Client
  | 0, c => (.ok [], c)
  | count + 1, c =>
      match c.openConnection with
      | (.error e, c) => (.error e, c)
      | (.ok connection, c) =>
          match openConnections count c with
          | (.error e, c) => (.error e, c)
          | (.ok connections, c) => (.ok (connection :: connections), c)

def dial (c : Client) : Except ClientError Connection × Client :=
  match Network.checkAddress c.config.addr with
  | .error e => (.error e, c)
  | .ok () => c.openConnection

def dialAll (c : Client) : Except ClientError (List Connection) × Client :=
  match Network.checkAddress c.config.addr with
  | .error e => (.error e, c)
  | .ok () => openConnections c.config.poolSize c

/-- Dials the pool: it gets all of its connections or none. -/
def establish (c : Client) (generation : Nat) : Except ClientError Unit × Client :=
  match c.dialAll with
  | (.error e, c) => (.error e, { c with pool := c.pool.dialFailed generation })
  | (.ok connections, c) => (.ok (), { c with pool := c.pool.install generation connections })

def connect (c : Client) : Except ClientError Unit × Client :=
  match c.pool.checkSize with
  | .error e => (.error e, c)
  | .ok () =>
      let c := { c with pool := c.pool.retire .connecting }
      c.establish c.pool.generation

def connected (config : Config) (environment : Environment) : Except ClientError Unit × Client :=
  (new config environment).connect

def close (c : Client) : Client :=
  { c with pool := c.pool.close }

/-! ## Connections of the pool -/

/-- Nobody else can give a connection back while the client waits, so a wait ends at its limit. -/
def waitingError (c : Client) : ClientError :=
  .acquireTimeout (c.config.acquireTimeout.getD 0)

def replace (c : Client) (generation : Nat) : Except ClientError Held × Client :=
  match c.dial with
  | (.error e, c) => (.error e, { c with pool := c.pool.forget generation })
  | (.ok connection, c) => (.ok ⟨connection, generation, true⟩, c)

/-- A connection from a pool that need not be dialled. -/
def acquireConnected (c : Client) : Except ClientError Held × Client :=
  match c.pool.request with
  | (.take held, pool) => (.ok held, { c with pool })
  | (.replace generation, pool) => { c with pool }.replace generation
  | (.dialPool _, _) | (.wait, _) => (.error c.waitingError, c)

/-- Takes a connection from the pool, which is dialled first if it has to be. -/
def acquire (c : Client) : Except ClientError Held × Client :=
  match c.pool.request with
  | (.dialPool generation, pool) =>
      match c.pool.checkSize with
      | .error e => (.error e, c)
      | .ok () =>
          match { c with pool }.establish generation with
          | (.error e, c) => (.error e, c)
          | (.ok (), c) => c.acquireConnected
  | _ => c.acquireConnected

def giveBack (c : Client) (held : Held) : Client :=
  { c with pool := c.pool.giveBack held }

def invalidate (c : Client) (held : Held) : Held × Client :=
  (held.discard, { c with pool := c.pool.teardown held.generation })

/-- A fresh connection in place of a held one, whose share of the pool it takes over. -/
def reconnect (c : Client) (held : Held) : Except ClientError Unit × Held × Client :=
  match c.dial with
  | (.error e, c) => (.error e, held, c)
  | (.ok connection, c) => (.ok (), { held with connection }, c)

/-- Gives a connection back after a request, depending on how that went.  After an error of the
store the stream is still in step; a fatal error condemns the pool, any other the connection. -/
def settle (c : Client) (held : Held) (outcome : Option ClientError) : Client :=
  match outcome with
  | none => c.giveBack held
  | some e =>
      if e.isServer then c.giveBack held
      else if e.isFatal then
        let (held, c) := c.invalidate held
        c.giveBack held
      else c.giveBack held.discard

/-! ## Requests -/

structure Pending where
  held : Held
  frame : Bytes
  code : MessageCode
  deriving DecidableEq, Repr

def send (c : Client) (code : MessageCode) (frame : Bytes) : Except ClientError Pending × Client :=
  match c.acquire with
  | (.error e, c) => (.error e, c)
  | (.ok held, c) =>
      match c.network.send held.connection.channel frame with
      | (.error e, network) => (.error e, { c with network }.settle held (some e))
      | (.ok (), network) => (.ok ⟨held, frame, code⟩, { c with network })

/-- Leaves the reply to a request unread; its connection cannot be used again. -/
def abandon (c : Client) (p : Pending) : Client :=
  c.giveBack p.held.discard

def receive (c : Client) (p : Pending) (reading : Reading) :
    Except ClientError (Option (List Wire.Message)) × Client :=
  let (result, network) :=
    c.network.receiveReply p.held.connection.channel reading (reading.expected p.code)
  (result, { c with network })

/-- Sends the frame of a request once more, over a fresh connection, and reads the reply. -/
def retry (c : Client) (p : Pending) (reading : Reading) :
    Except ClientError (List Wire.Message) × Held × Client :=
  match c.reconnect p.held with
  | (.error e, held, c) => (.error e, held, c)
  | (.ok (), held, c) =>
      match c.network.send held.connection.channel p.frame with
      | (.error e, network) => (.error e, held, { c with network })
      | (.ok (), network) =>
          match { c with network }.receive { p with held } reading with
          | (.error e, c) => (.error e, held, c)
          | (.ok none, c) => (.error .connectionClosed, held, c)
          | (.ok (some ms), c) => (.ok ms, held, c)

/-- Reads the reply to a request.  If the peer had closed the connection before a reply began, the
request is tried once more. -/
def readReply (c : Client) (p : Pending) (reading : Reading) :
    Except ClientError (List Wire.Message) × Held × Client :=
  match c.receive p reading with
  | (.error e, c) => (.error e, p.held, c)
  | (.ok (some ms), c) => (.ok ms, p.held, c)
  | (.ok none, c) => c.retry p reading

def outcome {α : Type} : Except ClientError α → Option ClientError
  | .ok _ => none
  | .error e => some e

/-- Sends a frame, reads the reply and settles the connection. -/
def exchange (c : Client) (code : MessageCode) (frame : Bytes) (reading : Reading) :
    Except ClientError (List Wire.Message) × Client :=
  match c.send code frame with
  | (.error e, c) => (.error e, c)
  | (.ok p, c) =>
      let (result, held, c) := c.readReply p reading
      (result, c.settle held (outcome result))

def answer (q : Request) (c : Client) : Except ClientError q.Reply × Client :=
  let (result, c) := c.exchange q.code q.frame q.reading
  (result.map q.reply, c)

def run {α : Type} (c : Client) (d : Dialogue α) : α × Client :=
  d.run answer c

end Client
end ReplicaClient
