import ReplicaClient.Client
import ReplicaClient.Store
import ReplicaClient.Text.Natural

/-!
# Workloads

A workload measures a store with known traffic.  It fills a bucket with keys and then, in
three phases, pings the store, reads keys and writes keys.  The operations of a phase are
shared out among as many workers as the pool has connections.  Each worker picks its keys
with a generator of its own, so that two runs send the same requests.
-/

namespace ReplicaClient

structure Workload where
  addr : String := "127.0.0.1:8087"
  poolSize : Nat := 4
  operations : Nat := 10000
  keys : Nat := 1024
  valueSize : Nat := 128
  deriving DecidableEq, Repr

namespace Workload

/-- A setting by its argument; one that is missing or no number leaves the setting as it is. -/
def setting (arg : Option String) (usual : Nat) : Nat :=
  (arg.bind fun s ↦ Text.natural? UInt64.size s.toList).getD usual

/-- The arguments are the address, the pool size, the operations of a phase, the keys and the size
of a value.  There is at least one connection and at least one key. -/
def ofArgs (args : List String) : Workload :=
  let usual : Workload := {}
  { addr := args.headD usual.addr
    poolSize := max 1 (setting args[1]? usual.poolSize)
    operations := setting args[2]? usual.operations
    keys := max 1 (setting args[3]? usual.keys)
    valueSize := setting args[4]? usual.valueSize }

/-! ## Keys and values -/

def bucketName : String := "rpb-bench"

def keyName (index : Nat) : String :=
  String.ofList ('k' :: 'e' :: 'y' :: '-' :: Text.padded 8 index)

/-- The octets of a seed, the lowest first, cut off or filled up with zeros. -/
def value (size : Nat) (seed : UInt64) : Bytes :=
  (Bytes.littleEndian 8 seed.toNat).take size ++ List.replicate (size - 8) 0

/-- One step of the generator: the state is mixed three times with itself, shifted. -/
def nextState (x : UInt64) : UInt64 :=
  let x := x ^^^ (x <<< 13)
  let x := x ^^^ (x >>> 7)
  x ^^^ (x <<< 17)

/-- The numbers of the keys that a generator picks from a state on. -/
def picks (keys : Nat) : (count : Nat) → UInt64 → List Nat
  | 0, _ => []
  | count + 1, x => (nextState x).toNat % keys :: picks keys count (nextState x)

/-! ## Operations -/

structure Failure where
  step : String
  error : ClientError
  deriving Repr

def Failure.message (f : Failure) : String :=
  ": ".intercalate (f.step :: f.error.message :: f.error.causes)

def step {α : Type} (name : String) (d : Dialogue (Except ClientError α)) :
    Dialogue (Except Failure Unit) :=
  d.bind fun
    | .error e => .done (.error ⟨name, e⟩)
    | .ok _ => .done (.ok ())

def storeNew (index : Nat) (contentType : String) (data : Bytes) :
    Dialogue (Except ClientError Unit) :=
  { Store.newObjectIn bucketName (keyName index) with contentType, data }.store.bind
    fun (result, _) ↦ .done result

inductive Phase where
  | ping
  | get
  | put
  deriving DecidableEq, Repr

namespace Phase

def label : Phase → String
  | ping => "PING"
  | get => "GET"
  | put => "PUT"

def seed : Phase → UInt64
  | ping => 0x123456789ABCDEF0
  | get => 0x0FEDCBA987654321
  | put => 0x5A5A5A5A5A5A5A5A

end Phase

def operation (w : Workload) (p : Phase) (index : Nat) : Dialogue (Except Failure Unit) :=
  match p with
  | .ping => step "ping" Store.ping
  | .get => step ("get " ++ keyName index) (Store.getFrom bucketName (keyName index) {})
  | .put =>
      step ("put " ++ keyName index) (storeNew index "" (value w.valueSize (UInt64.ofNat index)))

/-! ## Phases -/

/-- One step for each index, up to the first failure. -/
def forEach (f : Nat → Dialogue (Except Failure Unit)) : List Nat → Dialogue (Except Failure Unit)
  | [] => .done (.ok ())
  | index :: rest =>
      (f index).bind fun
        | .error e => .done (.error e)
        | .ok () => forEach f rest

/-- Lets every worker come to its end.  The failure that counts is that of the first worker that
failed. -/
def together : List (Dialogue (Except Failure Unit)) → Dialogue (Except Failure Unit)
  | [] => .done (.ok ())
  | worker :: workers =>
      worker.bind fun result ↦ (together workers).bind fun others ↦
        .done (match result with
          | .error e => .error e
          | .ok () => others)

/-- How many operations each worker has in a phase; what cannot be shared out evenly is not run. -/
def share (w : Workload) : Nat :=
  w.operations / w.poolSize

/-- The keys of one worker in a phase. -/
def workerKeys (w : Workload) (p : Phase) (worker : Nat) : List Nat :=
  picks w.keys w.share (p.seed ^^^ UInt64.ofNat (worker + 1))

def runPhase (w : Workload) (p : Phase) : Dialogue (Except Failure Unit) :=
  together ((List.range w.poolSize).map fun worker ↦
    forEach (w.operation p) (w.workerKeys p worker))

def seedKeys (w : Workload) : Dialogue (Except Failure Unit) :=
  forEach
    (fun index ↦ step ("seeding " ++ keyName index)
      (storeNew index "application/octet-stream" (value w.valueSize 0xA5A5A5A5A5A5A5A5)))
    (List.range w.keys)

/-! ## The report -/

/-- What a run prints, and the failure that ended it, if any. -/
structure Outcome where
  lines : List String := []
  failure : Option Failure := none
  deriving Repr

def heading (w : Workload) : String :=
  s!"addr={w.addr}, pool={w.poolSize}, ops={w.operations}, keys={w.keys}, " ++
    s!"value_size={w.valueSize}"

def phaseLine (w : Workload) (p : Phase) : String :=
  let count := w.share * w.poolSize
  if count = 0 then p.label ++ ": no operations" else s!"{p.label}: {count} ops"

def runPhases (w : Workload) : List Phase → Dialogue Outcome
  | [] => .done {}
  | p :: ps =>
      (w.runPhase p).bind fun
        | .error f => .done { failure := some f }
        | .ok () => (runPhases w ps).bind fun outcome ↦
            .done { outcome with lines := w.phaseLine p :: outcome.lines }

def traffic (w : Workload) : Dialogue Outcome :=
  (step "reading server info" Store.serverInfo).bind fun
    | .error f => .done { failure := some f }
    | .ok () => w.seedKeys.bind fun
        | .error f => .done { lines := [w.heading], failure := some f }
        | .ok () => (w.runPhases [.ping, .get, .put]).bind fun outcome ↦
            .done { outcome with lines := w.heading :: outcome.lines }

def config (w : Workload) : Config :=
  { addr := w.addr, poolSize := w.poolSize }

def run (w : Workload) (environment : Environment) : Outcome × Client :=
  match Client.connected w.config environment with
  | (.error e, c) => ({ failure := some ⟨"connecting to " ++ w.addr, e⟩ }, c)
  | (.ok (), c) =>
      let (outcome, c) := c.run w.traffic
      (outcome, if outcome.failure.isNone then c.close else c)

namespace Outcome

def complaint? (o : Outcome) : Option String :=
  o.failure.map fun f ↦ "rpb-bench failed: " ++ f.message

def exitCode (o : Outcome) : UInt32 :=
  if o.failure.isSome then 1 else 0

end Outcome
end Workload
end ReplicaClient
