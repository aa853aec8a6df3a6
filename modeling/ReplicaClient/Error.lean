import ReplicaClient.DataType.Kind
import ReplicaClient.Frame
import ReplicaClient.IoFault
import ReplicaClient.Json.Parser
import ReplicaClient.Model.Mismatch
import ReplicaClient.Object.Basic
import ReplicaClient.Text.Duration

/-!
# Errors of the client

Each error is a cause; its wording stands in one place.  A fatal error condemns every
connection to the peer, and an error of the store leaves even the one it came from usable.
-/

namespace ReplicaClient

inductive AddressFault where
  | noPort
  | badPort
  deriving DecidableEq, Repr

def AddressFault.message : AddressFault → String
  | noPort => "invalid socket address"
  | badPort => "invalid port value"

inductive ClientError where
  | io (fault : IoFault)
  | address (addr : String) (fault : AddressFault)
  | dial (addr : String) (fault : IoFault)
  | badConnectionCount (count : Nat)
  | acquireTimeout (milliseconds : Nat)
  | connectionClosed
  | shortResponse (read : Nat)
  | frame (e : FrameError)
  | decode (e : Wire.DecodeError)
  | server (text : String) (code : UInt32)
  | unexpectedResponse (expected : MessageCode) (actual : UInt8)
  | notFound (tombstone : Object)
  | emptyBucketName
  | emptyKey
  | resolveNotImplemented
  | siblingCountMismatch (expected actual : Nat)
  | resolution (reason : String)
  | modelNotInitialized
  | typeMismatch (field : String) (reason : Mismatch)
  | json (fault : Json.Fault)
  | counterOverflow (amount : Int64)
  | dataTypeMismatch (expected : DataType.Kind) (actual : Int32)
  | notFile (key : String)
  deriving Repr

namespace ClientError

def jsonFaultText : Json.Fault → String
  | .endOfInput => "unexpected end of input"
  | .malformed => "malformed text"

def message : ClientError → String
  | io fault => "io error: " ++ fault.message
  | address addr fault => "cannot resolve " ++ addr ++ ": " ++ fault.message
  | dial addr fault => "cannot connect to " ++ addr ++ ": " ++ fault.message
  | badConnectionCount count => s!"bad connection count: {count}"
  | acquireTimeout ms => "no connection available after " ++ Text.duration ms
  | connectionClosed => "connection closed by peer"
  | shortResponse read => s!"response too short: {read} of {Frame.headerLength} header bytes"
  | frame e => "frame error: " ++ e.message
  | decode e => "decode error: " ++ e.message
  | server text _ => text
  | unexpectedResponse expected actual =>
      s!"unexpected response code {actual} (expected {expected.name})"
  | notFound o => "object not found: " ++ o.bucket ++ "/" ++ o.key
  | emptyBucketName => "bucket name is empty"
  | emptyKey => "object has no key"
  | resolveNotImplemented => "resolve not implemented"
  | siblingCountMismatch expected actual =>
      s!"sibling count mismatch: expected {expected}, got {actual}"
  | resolution reason => "resolution failed: " ++ reason
  | modelNotInitialized => "model is not initialized"
  | typeMismatch field reason =>
      "field " ++ field ++ " has the wrong type: " ++ reason.message
  | json fault => "json error: " ++ jsonFaultText fault
  | counterOverflow amount => s!"counter adjustment {amount.toInt} overflows"
  | dataTypeMismatch expected actual =>
      "data type mismatch: expected " ++ expected.name ++ ", store holds " ++
        (match DataType.Kind.ofNumber? actual with
          | some kind => kind.name
          | none => toString actual.toInt)
  | notFile key => key ++ " is not a chunked file"

def name : ClientError → String
  | io _ => "Io"
  | address .. => "Resolve"
  | dial .. => "Dial"
  | badConnectionCount _ => "BadConnectionCount"
  | acquireTimeout _ => "AcquireTimeout"
  | connectionClosed => "ConnectionClosed"
  | shortResponse _ => "ShortResponse"
  | frame _ => "Frame"
  | decode _ => "Decode"
  | server .. => "Server"
  | unexpectedResponse .. => "UnexpectedResponse"
  | notFound _ => "NotFound"
  | emptyBucketName => "EmptyBucketName"
  | emptyKey => "EmptyKey"
  | resolveNotImplemented => "ResolveNotImplemented"
  | siblingCountMismatch .. => "SiblingCountMismatch"
  | resolution _ => "Resolution"
  | modelNotInitialized => "ModelNotInitialized"
  | typeMismatch .. => "TypeMismatch"
  | json _ => "Json"
  | counterOverflow _ => "CounterOverflow"
  | dataTypeMismatch .. => "DataTypeMismatch"
  | notFile _ => "NotFile"

def isFatal : ClientError → Bool
  | connectionClosed => true
  | io fault => fault.isFatal
  | _ => false

/-- The store has answered with an error of its own. -/
def isServer : ClientError → Bool
  | server .. => true
  | _ => false

/-- The errors that a chain of causes adds below the error itself: their texts, outermost first. -/
def causes : ClientError → List String
  | io fault => [fault.message]
  | address _ fault => [fault.message]
  | dial _ fault => [fault.message]
  | frame (.decode e) => [(FrameError.decode e).message, e.message]
  | frame e => [e.message]
  | decode e => [e.message]
  | resolution reason => [reason]
  | json fault => [jsonFaultText fault]
  | _ => []

end ClientError
end ReplicaClient
