import ReplicaClient.DataType.Op
import ReplicaClient.DataType.Stored
import ReplicaClient.Frame
import ReplicaClient.Object.Content

/-!
# Requests and replies

What a client says to the store and what it hears.  Each request knows its operation, its
payload and how its reply is read: an acknowledgement, one message, or pages up to the one
that is marked as the last.
-/

namespace ReplicaClient

open Wire

/-! ## Parts of requests -/

structure GetRequest where
  bucket : Bytes
  key : Bytes
  r : Option UInt32 := none
  pr : Option UInt32 := none
  notFoundOk : Option Bool := none
  ifModified : Option Bytes := none
  head : Option Bool := none
  deletedVclock : Option Bool := none
  bucketType : Option Bytes := none
  deriving DecidableEq, Repr

structure PutRequest where
  bucket : Bytes
  key : Option Bytes
  vclock : Option Bytes
  content : Content
  w : Option UInt32 := none
  dw : Option UInt32 := none
  pw : Option UInt32 := none
  returnHead : Option Bool := none
  bucketType : Option Bytes := none
  deriving DecidableEq, Repr

structure DeleteRequest where
  bucket : Bytes
  key : Bytes
  rw : Option UInt32 := none
  vclock : Option Bytes := none
  r : Option UInt32 := none
  w : Option UInt32 := none
  pr : Option UInt32 := none
  pw : Option UInt32 := none
  dw : Option UInt32 := none
  sloppyQuorum : Option Bool := none
  bucketType : Option Bytes := none
  deriving DecidableEq, Repr

structure PropsChange where
  nVal : Option UInt32 := none
  allowMult : Option Bool := none
  lastWriteWins : Option Bool := none
  search : Option Bool := none
  deriving DecidableEq, Repr

/-- What an index is asked for: one value, or all values from one to another. -/
inductive IndexSelection where
  | value (v : Bytes)
  | range (low high : Bytes)
  deriving DecidableEq, Repr

inductive IndexQueryType where
  | value
  | range
  deriving DecidableEq, Repr

namespace IndexQueryType

def number : IndexQueryType → Int32
  | value => 0
  | range => 1

def ofNumber? (n : Int32) : Option IndexQueryType :=
  if n = 0 then some value else if n = 1 then some range else none

def wireName : IndexQueryType → String
  | value => "Eq"
  | range => "Range"

end IndexQueryType

structure SearchRequest where
  query : Bytes
  index : Bytes
  rows : UInt32
  start : UInt32
  sort : Option Bytes := none
  filter : Option Bytes := none
  defaultField : Option Bytes := none
  defaultOperator : Option Bytes := none
  fields : List Bytes := []
  presort : Option Bytes := none
  deriving DecidableEq, Repr

structure CounterUpdate where
  bucket : Bytes
  key : Bytes
  amount : Int64
  w : Option UInt32 := none
  dw : Option UInt32 := none
  pw : Option UInt32 := none
  returnValue : Bool
  deriving DecidableEq, Repr

structure CounterGet where
  bucket : Bytes
  key : Bytes
  r : Option UInt32 := none
  pr : Option UInt32 := none
  deriving DecidableEq, Repr

structure DataTypeFetch where
  bucket : Bytes
  key : Bytes
  bucketType : Bytes
  r : Option UInt32 := none
  pr : Option UInt32 := none
  deriving DecidableEq, Repr

structure DataTypeUpdate where
  bucket : Bytes
  key : Option Bytes
  bucketType : Bytes
  context : Option Bytes
  op : DataType.Op
  w : Option UInt32 := none
  dw : Option UInt32 := none
  pw : Option UInt32 := none
  deriving Repr

inductive Request where
  | ping
  | getClientId
  | setClientId (id : Bytes)
  | getServerInfo
  | get (q : GetRequest)
  | put (q : PutRequest)
  | delete (q : DeleteRequest)
  | listBuckets
  | listKeys (bucket : Bytes) (bucketType : Option Bytes)
  | getBucket (bucket : Bytes) (bucketType : Option Bytes)
  | setBucket (bucket : Bytes) (change : PropsChange) (bucketType : Option Bytes)
  | resetBucket (bucket : Bytes) (bucketType : Option Bytes)
  | mapReduce (job contentType : Bytes)
  | index (bucket name : Bytes) (selection : IndexSelection) (bucketType : Option Bytes)
  | search (q : SearchRequest)
  | counterUpdate (q : CounterUpdate)
  | counterGet (q : CounterGet)
  | dataTypeFetch (q : DataTypeFetch)
  | dataTypeUpdate (q : DataTypeUpdate)
  deriving Repr

/-! ## Replies -/

structure ServerInfoReply where
  node : Option Bytes := none
  version : Option Bytes := none
  deriving DecidableEq, Repr, Inhabited

structure GetReply where
  contents : List Content := []
  vclock : Option Bytes := none
  unchanged : Option Bool := none
  deriving DecidableEq, Repr, Inhabited

structure PutReply where
  contents : List Content := []
  vclock : Option Bytes := none
  key : Option Bytes := none
  deriving DecidableEq, Repr, Inhabited

structure SearchReply where
  documents : List (List Pair) := []
  maxScore : Option UInt32 := none
  numFound : Option UInt32 := none
  deriving DecidableEq, Repr, Inhabited

structure DataTypeFetchReply where
  context : Option Bytes := none
  kind : Int32 := 1
  value : Option DataType.Stored := none
  deriving Repr, Inhabited

structure DataTypeUpdateReply where
  key : Option Bytes := none
  context : Option Bytes := none
  deriving DecidableEq, Repr, Inhabited

structure ErrorReply where
  text : Bytes := []
  code : UInt32 := 0
  deriving DecidableEq, Repr, Inhabited

namespace ServerInfoReply

def ofMessage : Message → ServerInfoReply
  | [node, version] => ⟨Slot.bytes? node, Slot.bytes? version⟩
  | _ => {}

end ServerInfoReply

namespace GetReply

def ofMessage : Message → GetReply
  | [contents, vclock, unchanged] =>
      ⟨(Slot.allMessages contents).map Content.ofMessage, Slot.bytes? vclock,
        Slot.flag? unchanged⟩
  | _ => {}

def toMessage (r : GetReply) : Message :=
  [Slot.ofAllMessages (r.contents.map Content.toMessage), Slot.ofBytes? r.vclock,
    Slot.ofFlag? r.unchanged]

end GetReply

namespace PutReply

def ofMessage : Message → PutReply
  | [contents, vclock, key] =>
      ⟨(Slot.allMessages contents).map Content.ofMessage, Slot.bytes? vclock, Slot.bytes? key⟩
  | _ => {}

end PutReply

namespace SearchReply

def documentOfMessage : Message → List Pair
  | [fields] => (Slot.allMessages fields).map Pair.ofMessage
  | _ => []

def ofMessage : Message → SearchReply
  | [documents, maxScore, numFound] =>
      ⟨(Slot.allMessages documents).map documentOfMessage, Slot.single? maxScore,
        Slot.word? numFound⟩
  | _ => {}

end SearchReply

namespace DataTypeFetchReply

def ofMessage : Message → DataTypeFetchReply
  | [context, kind, value] =>
      ⟨Slot.bytes? context, (Slot.choice? kind).getD 1,
        (Slot.message? value).map DataType.Stored.ofMessage⟩
  | _ => {}

end DataTypeFetchReply

namespace DataTypeUpdateReply

def ofMessage : Message → DataTypeUpdateReply
  | key :: context :: _ => ⟨Slot.bytes? key, Slot.bytes? context⟩
  | _ => {}

end DataTypeUpdateReply

namespace ErrorReply

def ofMessage : Message → ErrorReply
  | [text, code] => ⟨Slot.bytes text, (Slot.word? code).getD 0⟩
  | _ => {}

end ErrorReply

structure BucketProps where
  nVal : UInt32 := 0
  allowMult : Bool := false
  lastWriteWins : Bool := false
  search : Bool := false
  deriving DecidableEq, Repr, Inhabited

namespace BucketProps

def ofMessage : Message → BucketProps
  | nVal :: allowMult :: lastWriteWins :: _pr :: _r :: _w :: _pw :: _dw :: _rw :: _basicQuorum ::
      _notFoundOk :: _backend :: search :: _ =>
      ⟨(Slot.word? nVal).getD 0, (Slot.flag? allowMult).getD false,
        (Slot.flag? lastWriteWins).getD false, (Slot.flag? search).getD false⟩
  | _ => {}

end BucketProps

/-! ## Requests on the wire -/

def GetRequest.toMessage (q : GetRequest) : Message :=
  [Slot.ofBytes q.bucket, Slot.ofBytes q.key, Slot.ofWord? q.r, Slot.ofWord? q.pr, [],
    Slot.ofFlag? q.notFoundOk, Slot.ofBytes? q.ifModified, Slot.ofFlag? q.head,
    Slot.ofFlag? q.deletedVclock, [], [], [], Slot.ofBytes? q.bucketType]

def PutRequest.toMessage (q : PutRequest) : Message :=
  [Slot.ofBytes q.bucket, Slot.ofBytes? q.key, Slot.ofBytes? q.vclock,
    [.message q.content.toMessage], Slot.ofWord? q.w, Slot.ofWord? q.dw, [], Slot.ofWord? q.pw,
    [], [], Slot.ofFlag? q.returnHead, [], [], [], [], Slot.ofBytes? q.bucketType]

def DeleteRequest.toMessage (q : DeleteRequest) : Message :=
  [Slot.ofBytes q.bucket, Slot.ofBytes q.key, Slot.ofWord? q.rw, Slot.ofBytes? q.vclock,
    Slot.ofWord? q.r, Slot.ofWord? q.w, Slot.ofWord? q.pr, Slot.ofWord? q.pw, Slot.ofWord? q.dw,
    [], Slot.ofFlag? q.sloppyQuorum, [], Slot.ofBytes? q.bucketType]

def PropsChange.toMessage (c : PropsChange) : Message :=
  [Slot.ofWord? c.nVal, Slot.ofFlag? c.allowMult, Slot.ofFlag? c.lastWriteWins, [], [], [], [],
    [], [], [], [], [], Slot.ofFlag? c.search, [], [], []]

def IndexSelection.slots : IndexSelection → List Slot
  | value v => [[.choice IndexQueryType.value.number], Slot.ofBytes v, [], []]
  | range low high =>
      [[.choice IndexQueryType.range.number], [], Slot.ofBytes low, Slot.ofBytes high]

def SearchRequest.toMessage (q : SearchRequest) : Message :=
  [Slot.ofBytes q.query, Slot.ofBytes q.index, [.word q.rows], [.word q.start],
    Slot.ofBytes? q.sort, Slot.ofBytes? q.filter, Slot.ofBytes? q.defaultField,
    Slot.ofBytes? q.defaultOperator, Slot.ofAllBytes q.fields, Slot.ofBytes? q.presort]

def CounterUpdate.toMessage (q : CounterUpdate) : Message :=
  [Slot.ofBytes q.bucket, Slot.ofBytes q.key, [.signed q.amount], Slot.ofWord? q.w,
    Slot.ofWord? q.dw, Slot.ofWord? q.pw, [.flag q.returnValue]]

def CounterGet.toMessage (q : CounterGet) : Message :=
  [Slot.ofBytes q.bucket, Slot.ofBytes q.key, Slot.ofWord? q.r, Slot.ofWord? q.pr, [],
    [.flag true]]

def DataTypeFetch.toMessage (q : DataTypeFetch) : Message :=
  [Slot.ofBytes q.bucket, Slot.ofBytes q.key, Slot.ofBytes q.bucketType, Slot.ofWord? q.r,
    Slot.ofWord? q.pr, [], [.flag true], [], [], [], [.flag true]]

def DataTypeUpdate.toMessage (q : DataTypeUpdate) : Message :=
  [Slot.ofBytes q.bucket, Slot.ofBytes? q.key, Slot.ofBytes q.bucketType,
    Slot.ofBytes? q.context, [.message q.op.toMessage], Slot.ofWord? q.w, Slot.ofWord? q.dw,
    Slot.ofWord? q.pw, [], [], [], [], []]

/-- How a reply is read.  Pages are messages of one type, the last of which is marked. -/
inductive Reading where
  | acknowledgement
  | single (t : MessageType)
  | pages (t : MessageType)
  deriving DecidableEq, Repr

namespace Reading

def messageType : Reading → MessageType
  | acknowledgement => .acknowledgement
  | single t | pages t => t

def expected (reading : Reading) (code : MessageCode) : MessageCode :=
  match reading with
  | acknowledgement => code.reply?.getD .error
  | single t | pages t => t.code?.getD .error

/-- The message ends the reply. -/
def isLast : Reading → Message → Bool
  | pages .mapReduceReply, [_, _, done] => (Slot.flag? done).getD false
  | pages _, [_, done] => (Slot.flag? done).getD false
  | pages _, _ => false
  | _, _ => true

end Reading

namespace Request

def operation : Request → Operation
  | ping => .ping
  | getClientId => .getClientId
  | setClientId _ => .setClientId
  | getServerInfo => .getServerInfo
  | get _ => .get
  | put _ => .put
  | delete _ => .delete
  | listBuckets => .listBuckets
  | listKeys .. => .listKeys
  | getBucket .. => .getBucket
  | setBucket .. => .setBucket
  | resetBucket .. => .resetBucket
  | mapReduce .. => .mapReduce
  | index .. => .index
  | search _ => .search
  | counterUpdate _ => .counterUpdate
  | counterGet _ => .counterGet
  | dataTypeFetch _ => .dataTypeFetch
  | dataTypeUpdate _ => .dataTypeUpdate

def code (q : Request) : MessageCode :=
  .request q.operation

/-- The message of a request, if it has one; the others are bare codes. -/
def message? : Request → Option (MessageType × Message)
  | ping | getClientId | getServerInfo => none
  | setClientId id => some (.setClientIdRequest, [Slot.ofBytes id])
  | get q => some (.getRequest, q.toMessage)
  | put q => some (.putRequest, q.toMessage)
  | delete q => some (.deleteRequest, q.toMessage)
  | listBuckets => some (.listBucketsRequest, [[], [.flag true], []])
  | listKeys bucket t =>
      some (.listKeysRequest, [Slot.ofBytes bucket, [], Slot.ofBytes? t])
  | getBucket bucket t => some (.getBucketRequest, [Slot.ofBytes bucket, Slot.ofBytes? t])
  | setBucket bucket change t =>
      some (.setBucketRequest,
        [Slot.ofBytes bucket, [.message change.toMessage], Slot.ofBytes? t])
  | resetBucket bucket t => some (.resetBucketRequest, [Slot.ofBytes bucket, Slot.ofBytes? t])
  | mapReduce job contentType =>
      some (.mapReduceRequest, [Slot.ofBytes job, Slot.ofBytes contentType])
  | index bucket name selection t =>
      some (.indexRequest,
        [Slot.ofBytes bucket, Slot.ofBytes name] ++ selection.slots ++
          [[], [], [], [], [], Slot.ofBytes? t])
  | search q => some (.searchRequest, q.toMessage)
  | counterUpdate q => some (.counterUpdateRequest, q.toMessage)
  | counterGet q => some (.counterGetRequest, q.toMessage)
  | dataTypeFetch q => some (.dataTypeFetchRequest, q.toMessage)
  | dataTypeUpdate q => some (.dataTypeUpdateRequest, q.toMessage)

def frame (q : Request) : Bytes :=
  match q.message? with
  | none => Frame.encode q.code []
  | some (t, m) => Frame.encodeMessage q.code t m

/-- What a client hears in reply. -/
def Reply : Request → Type
  | getClientId => Bytes
  | getServerInfo => ServerInfoReply
  | get _ => GetReply
  | put _ => PutReply
  | listBuckets | listKeys .. | mapReduce .. | index .. => List Bytes
  | getBucket .. => BucketProps
  | search _ => SearchReply
  | counterUpdate _ | counterGet _ => Option Int64
  | dataTypeFetch _ => DataTypeFetchReply
  | dataTypeUpdate _ => DataTypeUpdateReply
  | ping | setClientId _ | delete _ | setBucket .. | resetBucket .. => Unit

def reading : Request → Reading
  | ping | setClientId _ | delete _ | setBucket .. | resetBucket .. => .acknowledgement
  | getClientId => .single .clientIdReply
  | getServerInfo => .single .serverInfoReply
  | get _ => .single .getReply
  | put _ => .single .putReply
  | listBuckets => .pages .listBucketsReply
  | listKeys .. => .pages .listKeysReply
  | mapReduce .. => .pages .mapReduceReply
  | getBucket .. => .single .getBucketReply
  | index .. => .single .indexReply
  | search _ => .single .searchReply
  | counterUpdate _ => .single .counterUpdateReply
  | counterGet _ => .single .counterGetReply
  | dataTypeFetch _ => .single .dataTypeFetchReply
  | dataTypeUpdate _ => .single .dataTypeUpdateReply

def pageEntries : Message → List Bytes
  | entries :: _ => Slot.allBytes entries
  | [] => []

def partResult : Message → List Bytes
  | [_, result, _] => (Slot.bytes? result).toList
  | _ => []

def firstMessage (ms : List Message) : Message :=
  ms.headD []

def reply (q : Request) (ms : List Message) : q.Reply :=
  match q with
  | getClientId => Slot.bytes ((firstMessage ms).headD [])
  | getServerInfo => ServerInfoReply.ofMessage (firstMessage ms)
  | get _ => GetReply.ofMessage (firstMessage ms)
  | put _ => PutReply.ofMessage (firstMessage ms)
  | listBuckets => ms.flatMap pageEntries
  | listKeys .. => ms.flatMap pageEntries
  | mapReduce .. => ms.flatMap partResult
  | index .. => pageEntries (firstMessage ms)
  | getBucket .. =>
      BucketProps.ofMessage ((Slot.message? ((firstMessage ms).headD [])).getD [])
  | search _ => SearchReply.ofMessage (firstMessage ms)
  | counterUpdate _ => Slot.signed? ((firstMessage ms).headD [])
  | counterGet _ => Slot.signed? ((firstMessage ms).headD [])
  | dataTypeFetch _ => DataTypeFetchReply.ofMessage (firstMessage ms)
  | dataTypeUpdate _ => DataTypeUpdateReply.ofMessage (firstMessage ms)
  | ping => ()
  | setClientId _ => ()
  | delete _ => ()
  | setBucket .. => ()
  | resetBucket .. => ()

end Request
end ReplicaClient
