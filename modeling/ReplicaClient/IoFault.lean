/-!
# Faults of the transport

What can go wrong below the protocol: a dial that is refused, a stream that breaks, a read
that takes too long.
-/

namespace ReplicaClient

inductive IoFault where
  | networkUnreachable
  | connectionRefused
  | connectionReset
  | connectionAborted
  | notConnected
  | brokenPipe
  | wouldBlock
  | timedOut
  | invalidInput
  | other (name : String)
  deriving DecidableEq, Repr

namespace IoFault

def name : IoFault → String
  | networkUnreachable => "NetworkUnreachable"
  | connectionRefused => "ConnectionRefused"
  | connectionReset => "ConnectionReset"
  | connectionAborted => "ConnectionAborted"
  | notConnected => "NotConnected"
  | brokenPipe => "BrokenPipe"
  | wouldBlock => "WouldBlock"
  | timedOut => "TimedOut"
  | invalidInput => "InvalidInput"
  | other name => name

def named : List IoFault :=
  [networkUnreachable, connectionRefused, connectionReset, connectionAborted, notConnected,
    brokenPipe, wouldBlock, timedOut, invalidInput]

def ofName (s : String) : IoFault :=
  (named.find? (·.name = s)).getD (other s)

def message : IoFault → String
  | networkUnreachable => "Network is unreachable (os error 101)"
  | connectionRefused => "Connection refused (os error 111)"
  | connectionReset => "Connection reset by peer (os error 104)"
  | connectionAborted => "Software caused connection abort (os error 103)"
  | notConnected => "Transport endpoint is not connected (os error 107)"
  | brokenPipe => "Broken pipe (os error 32)"
  | wouldBlock => "Resource temporarily unavailable (os error 11)"
  | timedOut => "Connection timed out (os error 110)"
  | invalidInput => "cannot set a 0 duration timeout"
  | other name => name

/-- After such a fault no connection to the peer can be trusted. -/
def isFatal : IoFault → Bool
  | brokenPipe | connectionReset | connectionAborted | notConnected => true
  | _ => false

end IoFault
end ReplicaClient
