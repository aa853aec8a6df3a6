/-!
# Configuration

Where the store is, how many connections the pool keeps, and how long a client is willing
to wait.  Time spans are in milliseconds; an absent one means no limit.
-/

namespace ReplicaClient

structure Config where
  addr : String := "127.0.0.1:8087"
  poolSize : Nat := 1
  acquireTimeout : Option Nat := none
  connectTimeout : Option Nat := none
  readTimeout : Option Nat := none
  writeTimeout : Option Nat := none
  deriving DecidableEq, Repr, Inhabited

end ReplicaClient
