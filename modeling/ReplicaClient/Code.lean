/-!
# Message codes

Every frame names its message by one octet.  Requests and replies come in pairs: each
operation of the store has a request code and, one above it, a reply code.  Code 0 is the
error reply, which may answer any request.
-/

namespace ReplicaClient

inductive Operation where
  | ping
  | getClientId
  | setClientId
  | getServerInfo
  | get
  | put
  | delete
  | listBuckets
  | listKeys
  | getBucket
  | setBucket
  | mapReduce
  | index
  | search
  | resetBucket
  | counterUpdate
  | counterGet
  | dataTypeFetch
  | dataTypeUpdate
  deriving DecidableEq, Repr

namespace Operation

def all : List Operation :=
  [ping, getClientId, setClientId, getServerInfo, get, put, delete, listBuckets, listKeys,
    getBucket, setBucket, mapReduce, index, search, resetBucket, counterUpdate, counterGet,
    dataTypeFetch, dataTypeUpdate]

/-- The code of the request; the reply has the next one. -/
def number : Operation → UInt8
  | ping => 1
  | getClientId => 3
  | setClientId => 5
  | getServerInfo => 7
  | get => 9
  | put => 11
  | delete => 13
  | listBuckets => 15
  | listKeys => 17
  | getBucket => 19
  | setBucket => 21
  | mapReduce => 23
  | index => 25
  | search => 27
  | resetBucket => 29
  | counterUpdate => 50
  | counterGet => 52
  | dataTypeFetch => 80
  | dataTypeUpdate => 82

/-- The common part of the names of request and reply. -/
def stem : Operation → String
  | ping => "RpbPing"
  | getClientId => "RpbGetClientId"
  | setClientId => "RpbSetClientId"
  | getServerInfo => "RpbGetServerInfo"
  | get => "RpbGet"
  | put => "RpbPut"
  | delete => "RpbDel"
  | listBuckets => "RpbListBuckets"
  | listKeys => "RpbListKeys"
  | getBucket => "RpbGetBucket"
  | setBucket => "RpbSetBucket"
  | mapReduce => "RpbMapRed"
  | index => "RpbIndex"
  | search => "RpbSearchQuery"
  | resetBucket => "RpbResetBucket"
  | counterUpdate => "RpbCounterUpdate"
  | counterGet => "RpbCounterGet"
  | dataTypeFetch => "DtFetch"
  | dataTypeUpdate => "DtUpdate"

/-- Operations whose reply says only that the store has done as asked. -/
def isAcknowledged : Operation → Bool
  | ping | setClientId | setBucket | delete | resetBucket => true
  | _ => false

theorem mem_all (op : Operation) : op ∈ all := by
  cases op <;> decide

end Operation

inductive MessageCode where
  | error
  | request (op : Operation)
  | reply (op : Operation)
  deriving DecidableEq, Repr

namespace MessageCode

def all : List MessageCode :=
  error :: Operation.all.flatMap fun op ↦ [request op, reply op]

def toByte : MessageCode → UInt8
  | error => 0
  | request op => op.number
  | reply op => op.number + 1

def ofByte? (b : UInt8) : Option MessageCode :=
  all.find? (·.toByte = b)

def name : MessageCode → String
  | error => "RpbErrorResp"
  | request op => op.stem ++ "Req"
  | reply op => op.stem ++ "Resp"

def isEmptyAck : MessageCode → Bool
  | reply op => op.isAcknowledged
  | _ => false

def isRequest : MessageCode → Bool
  | request _ => true
  | _ => false

def reply? : MessageCode → Option MessageCode
  | request op => some (reply op)
  | _ => none

theorem mem_all (code : MessageCode) : code ∈ all := by
  cases code with
  | error => simp [all]
  | request op => simp [all, Operation.mem_all]
  | reply op => simp [all, Operation.mem_all]

@[simp] theorem ofByte?_toByte (code : MessageCode) : ofByte? code.toByte = some code := by
  cases code with
  | error => rfl
  | request op => cases op <;> decide
  | reply op => cases op <;> decide

theorem toByte_of_ofByte? {b : UInt8} {code : MessageCode} (h : ofByte? b = some code) :
    code.toByte = b := by
  simpa using List.find?_some h

theorem toByte_injective {a b : MessageCode} (h : a.toByte = b.toByte) : a = b :=
  Option.some.inj ((ofByte?_toByte a).symm.trans (h ▸ ofByte?_toByte b))

end MessageCode
end ReplicaClient
