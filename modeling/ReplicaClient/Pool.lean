import ReplicaClient.Error
import ReplicaClient.Config
import ReplicaClient.Text.Quoted

/-!
# The connection pool

The pool counts the connections that are open, keeps those that are idle in a queue, and
numbers its generations: a connection that was handed out in an earlier generation never
comes back.  Every function here is one indivisible change of the pool.
-/

namespace ReplicaClient

inductive Phase where
  | uninitialized
  | connecting
  | connected
  | closed
  deriving DecidableEq, Repr, Inhabited

def Phase.name : Phase → String
  | uninitialized => "Uninitialized"
  | connecting => "Connecting"
  | connected => "Connected"
  | closed => "Closed"

structure Connection where
  id : Nat
  channel : Nat
  deriving DecidableEq, Repr, Inhabited

/-- A connection in the hands of a caller, and the generation it belongs to. -/
structure Held where
  connection : Connection
  generation : Nat
  valid : Bool := true
  deriving DecidableEq, Repr, Inhabited

/-- The caller declines to give the connection back. -/
def Held.discard (held : Held) : Held :=
  { held with valid := false }

structure Pool where
  size : Nat
  phase : Phase := .uninitialized
  idle : List Connection := []
  opened : Nat := 0
  generation : Nat := 0
  nextId : Nat := 1
  deriving DecidableEq, Repr, Inhabited

namespace Pool

def ofConfig (config : Config) : Pool :=
  { size := config.poolSize }

def checkedOut (p : Pool) : Nat :=
  p.opened - p.idle.length

def describe (p : Pool) (addr : String) : String :=
  "ConnectionPool \x7b addr: " ++ Text.quote addr ++ ", size: " ++ toString p.size ++
    ", phase: " ++ p.phase.name ++ " \x7d"

def checkSize (p : Pool) : Except ClientError Unit :=
  if p.size = 0 then .error (.badConnectionCount 0) else .ok ()

def takeId (p : Pool) : Nat × Pool :=
  (p.nextId, { p with nextId := p.nextId + 1 })

/-- Ends a generation: its idle connections are closed, and the held ones no longer count. -/
def retire (p : Pool) (next : Phase) : Pool :=
  { p with generation := p.generation + 1, opened := 0, phase := next, idle := [] }

/-! ## Dialling the pool -/

/-- The dial that was begun in a generation is still the one the pool waits for. -/
def awaits (p : Pool) (generation : Nat) : Bool :=
  p.generation = generation && p.phase = .connecting

/-- A dial has ended well.  Its connections are used unless the pool has moved on. -/
def install (p : Pool) (generation : Nat) (connections : List Connection) : Pool :=
  if p.awaits generation then
    { p with opened := connections.length, idle := connections, phase := .connected }
  else p

def dialFailed (p : Pool) (generation : Nat) : Pool :=
  if p.awaits generation then { p with phase := .uninitialized } else p

/-! ## Handing out -/

inductive Answer where
  | take (held : Held)
  | replace (generation : Nat)
  | dialPool (generation : Nat)
  | wait
  deriving DecidableEq, Repr

/-- The longest idle connection is handed out.  If there is none, a missing one may be replaced; if
the pool is not connected, it has to be dialled. -/
def request (p : Pool) : Answer × Pool :=
  match p.phase with
  | .connected =>
      match p.idle with
      | c :: idle => (.take ⟨c, p.generation, true⟩, { p with idle })
      | [] =>
          if p.opened < p.size then (.replace p.generation, { p with opened := p.opened + 1 })
          else (.wait, p)
  | .connecting => (.wait, p)
  | .uninitialized | .closed => (.dialPool p.generation, { p with phase := .connecting })

/-! ## Taking back -/

/-- A connection comes back; a stale one is dropped. -/
def release (p : Pool) (c : Connection) (generation : Nat) : Pool :=
  if p.generation = generation then
    if p.phase = .connected then { p with idle := p.idle ++ [c] }
    else { p with opened := p.opened - 1 }
  else p

def forget (p : Pool) (generation : Nat) : Pool :=
  if p.generation = generation then { p with opened := p.opened - 1 } else p

def giveBack (p : Pool) (held : Held) : Pool :=
  if held.valid then p.release held.connection held.generation else p.forget held.generation

/-- The transport has failed for a connection of the generation, and so for all of them. -/
def teardown (p : Pool) (generation : Nat) : Pool :=
  if p.generation = generation then p.retire .uninitialized else p

def close (p : Pool) : Pool :=
  if p.opened = 0 ∧ (p.phase = .closed ∨ p.phase = .uninitialized) then p else p.retire .closed

end Pool
end ReplicaClient
