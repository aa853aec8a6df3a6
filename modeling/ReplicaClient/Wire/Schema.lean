import ReplicaClient.Code

/-!
# The message vocabulary

The fields of every message, as data: number, name, how often the field occurs and what it
holds.  Encoder and decoder read these tables; nothing else knows the layout of a message.
-/

namespace ReplicaClient
namespace Wire

inductive MessageType where
  | error
  | pair
  | clientIdReply
  | setClientIdRequest
  | serverInfoReply
  | link
  | content
  | getRequest
  | getReply
  | putRequest
  | putReply
  | deleteRequest
  | listBucketsRequest
  | listBucketsReply
  | listKeysRequest
  | listKeysReply
  | bucketProps
  | getBucketRequest
  | getBucketReply
  | setBucketRequest
  | resetBucketRequest
  | mapReduceRequest
  | mapReduceReply
  | indexRequest
  | indexReply
  | searchDocument
  | searchRequest
  | searchReply
  | counterUpdateRequest
  | counterUpdateReply
  | counterGetRequest
  | counterGetReply
  | mapField
  | mapEntry
  | dataTypeFetchRequest
  | dataTypeValue
  | dataTypeFetchReply
  | counterOp
  | setOp
  | mapUpdate
  | mapOp
  | dataTypeOp
  | dataTypeUpdateRequest
  | dataTypeUpdateReply
  | acknowledgement
  deriving DecidableEq, Repr

/-- What one occurrence of a field holds.  An enumeration names its first value, which stands
in for a missing required field. -/
inductive Kind where
  | bytes
  | word
  | flag
  | signed
  | single
  | choice (first : Int32)
  | message (type : MessageType)
  deriving DecidableEq, Repr

/-- How often a field occurs in a message. -/
inductive Label where
  | required
  | optional
  | repeated
  deriving DecidableEq, Repr

structure Field where
  label : Label
  tag : Nat
  name : String
  kind : Kind
  deriving DecidableEq, Repr

namespace MessageType

def all : List MessageType :=
  [error, pair, clientIdReply, setClientIdRequest, serverInfoReply, link, content, getRequest,
    getReply, putRequest, putReply, deleteRequest, listBucketsRequest, listBucketsReply,
    listKeysRequest, listKeysReply, bucketProps, getBucketRequest, getBucketReply,
    setBucketRequest, resetBucketRequest, mapReduceRequest, mapReduceReply, indexRequest,
    indexReply, searchDocument, searchRequest, searchReply, counterUpdateRequest,
    counterUpdateReply, counterGetRequest, counterGetReply, mapField, mapEntry,
    dataTypeFetchRequest, dataTypeValue, dataTypeFetchReply, counterOp, setOp, mapUpdate,
    mapOp, dataTypeOp, dataTypeUpdateRequest, dataTypeUpdateReply, acknowledgement]

theorem mem_all (t : MessageType) : t ∈ all := by
  cases t <;> decide

def name : MessageType → String
  | error => "RpbErrorResp"
  | pair => "RpbPair"
  | clientIdReply => "RpbGetClientIdResp"
  | setClientIdRequest => "RpbSetClientIdReq"
  | serverInfoReply => "RpbGetServerInfoResp"
  | link => "RpbLink"
  | content => "RpbContent"
  | getRequest => "RpbGetReq"
  | getReply => "RpbGetResp"
  | putRequest => "RpbPutReq"
  | putReply => "RpbPutResp"
  | deleteRequest => "RpbDelReq"
  | listBucketsRequest => "RpbListBucketsReq"
  | listBucketsReply => "RpbListBucketsResp"
  | listKeysRequest => "RpbListKeysReq"
  | listKeysReply => "RpbListKeysResp"
  | bucketProps => "RpbBucketProps"
  | getBucketRequest => "RpbGetBucketReq"
  | getBucketReply => "RpbGetBucketResp"
  | setBucketRequest => "RpbSetBucketReq"
  | resetBucketRequest => "RpbResetBucketReq"
  | mapReduceRequest => "RpbMapRedReq"
  | mapReduceReply => "RpbMapRedResp"
  | indexRequest => "RpbIndexReq"
  | indexReply => "RpbIndexResp"
  | searchDocument => "RpbSearchDoc"
  | searchRequest => "RpbSearchQueryReq"
  | searchReply => "RpbSearchQueryResp"
  | counterUpdateRequest => "RpbCounterUpdateReq"
  | counterUpdateReply => "RpbCounterUpdateResp"
  | counterGetRequest => "RpbCounterGetReq"
  | counterGetReply => "RpbCounterGetResp"
  | mapField => "MapField"
  | mapEntry => "MapEntry"
  | dataTypeFetchRequest => "DtFetchReq"
  | dataTypeValue => "DtValue"
  | dataTypeFetchReply => "DtFetchResp"
  | counterOp => "CounterOp"
  | setOp => "SetOp"
  | mapUpdate => "MapUpdate"
  | mapOp => "MapOp"
  | dataTypeOp => "DtOp"
  | dataTypeUpdateRequest => "DtUpdateReq"
  | dataTypeUpdateReply => "DtUpdateResp"
  | acknowledgement => "Ack"

def ofName? (name : String) : Option MessageType :=
  all.find? (·.name = name)

/-- The code that a message of this type travels under, if it travels on its own. -/
def code? : MessageType → Option MessageCode
  | error => some .error
  | clientIdReply => some (.reply .getClientId)
  | setClientIdRequest => some (.request .setClientId)
  | serverInfoReply => some (.reply .getServerInfo)
  | getRequest => some (.request .get)
  | getReply => some (.reply .get)
  | putRequest => some (.request .put)
  | putReply => some (.reply .put)
  | deleteRequest => some (.request .delete)
  | listBucketsRequest => some (.request .listBuckets)
  | listBucketsReply => some (.reply .listBuckets)
  | listKeysRequest => some (.request .listKeys)
  | listKeysReply => some (.reply .listKeys)
  | getBucketRequest => some (.request .getBucket)
  | getBucketReply => some (.reply .getBucket)
  | setBucketRequest => some (.request .setBucket)
  | resetBucketRequest => some (.request .resetBucket)
  | mapReduceRequest => some (.request .mapReduce)
  | mapReduceReply => some (.reply .mapReduce)
  | indexRequest => some (.request .index)
  | indexReply => some (.reply .index)
  | searchRequest => some (.request .search)
  | searchReply => some (.reply .search)
  | counterUpdateRequest => some (.request .counterUpdate)
  | counterUpdateReply => some (.reply .counterUpdate)
  | counterGetRequest => some (.request .counterGet)
  | counterGetReply => some (.reply .counterGet)
  | dataTypeFetchRequest => some (.request .dataTypeFetch)
  | dataTypeFetchReply => some (.reply .dataTypeFetch)
  | dataTypeUpdateRequest => some (.request .dataTypeUpdate)
  | dataTypeUpdateReply => some (.reply .dataTypeUpdate)
  | _ => none

def fields : MessageType → List Field
  | error =>
      [⟨.required, 1, "errmsg", .bytes⟩, ⟨.required, 2, "errcode", .word⟩]
  | pair =>
      [⟨.required, 1, "key", .bytes⟩, ⟨.optional, 2, "value", .bytes⟩]
  | clientIdReply | setClientIdRequest =>
      [⟨.required, 1, "client_id", .bytes⟩]
  | serverInfoReply =>
      [⟨.optional, 1, "node", .bytes⟩, ⟨.optional, 2, "server_version", .bytes⟩]
  | link =>
      [⟨.optional, 1, "bucket", .bytes⟩, ⟨.optional, 2, "key", .bytes⟩,
        ⟨.optional, 3, "tag", .bytes⟩]
  | content =>
      [⟨.required, 1, "value", .bytes⟩, ⟨.optional, 2, "content_type", .bytes⟩,
        ⟨.optional, 3, "charset", .bytes⟩, ⟨.optional, 4, "content_encoding", .bytes⟩,
        ⟨.optional, 5, "vtag", .bytes⟩, ⟨.repeated, 6, "links", .message link⟩,
        ⟨.optional, 7, "last_mod", .word⟩, ⟨.optional, 8, "last_mod_usecs", .word⟩,
        ⟨.repeated, 9, "usermeta", .message pair⟩, ⟨.repeated, 10, "indexes", .message pair⟩,
        ⟨.optional, 11, "deleted", .flag⟩]
  | getRequest =>
      [⟨.required, 1, "bucket", .bytes⟩, ⟨.required, 2, "key", .bytes⟩, ⟨.optional, 3, "r", .word⟩,
        ⟨.optional, 4, "pr", .word⟩, ⟨.optional, 5, "basic_quorum", .flag⟩,
        ⟨.optional, 6, "notfound_ok", .flag⟩, ⟨.optional, 7, "if_modified", .bytes⟩,
        ⟨.optional, 8, "head", .flag⟩, ⟨.optional, 9, "deletedvclock", .flag⟩,
        ⟨.optional, 10, "timeout", .word⟩, ⟨.optional, 11, "sloppy_quorum", .flag⟩,
        ⟨.optional, 12, "n_val", .word⟩, ⟨.optional, 13, "type", .bytes⟩]
  | getReply =>
      [⟨.repeated, 1, "content", .message content⟩, ⟨.optional, 2, "vclock", .bytes⟩,
        ⟨.optional, 3, "unchanged", .flag⟩]
  | putRequest =>
      [⟨.required, 1, "bucket", .bytes⟩, ⟨.optional, 2, "key", .bytes⟩,
        ⟨.optional, 3, "vclock", .bytes⟩, ⟨.required, 4, "content", .message content⟩,
        ⟨.optional, 5, "w", .word⟩, ⟨.optional, 6, "dw", .word⟩,
        ⟨.optional, 7, "return_body", .flag⟩, ⟨.optional, 8, "pw", .word⟩,
        ⟨.optional, 9, "if_not_modified", .flag⟩, ⟨.optional, 10, "if_none_match", .flag⟩,
        ⟨.optional, 11, "return_head", .flag⟩, ⟨.optional, 12, "timeout", .word⟩,
        ⟨.optional, 13, "asis", .flag⟩, ⟨.optional, 14, "sloppy_quorum", .flag⟩,
        ⟨.optional, 15, "n_val", .word⟩, ⟨.optional, 16, "type", .bytes⟩]
  | putReply =>
      [⟨.repeated, 1, "content", .message content⟩, ⟨.optional, 2, "vclock", .bytes⟩,
        ⟨.optional, 3, "key", .bytes⟩]
  | deleteRequest =>
      [⟨.required, 1, "bucket", .bytes⟩, ⟨.required, 2, "key", .bytes⟩,
        ⟨.optional, 3, "rw", .word⟩, ⟨.optional, 4, "vclock", .bytes⟩, ⟨.optional, 5, "r", .word⟩,
        ⟨.optional, 6, "w", .word⟩, ⟨.optional, 7, "pr", .word⟩, ⟨.optional, 8, "pw", .word⟩,
        ⟨.optional, 9, "dw", .word⟩, ⟨.optional, 10, "timeout", .word⟩,
        ⟨.optional, 11, "sloppy_quorum", .flag⟩, ⟨.optional, 12, "n_val", .word⟩,
        ⟨.optional, 13, "type", .bytes⟩]
  | listBucketsRequest =>
      [⟨.optional, 1, "timeout", .word⟩, ⟨.optional, 2, "stream", .flag⟩,
        ⟨.optional, 3, "type", .bytes⟩]
  | listBucketsReply =>
      [⟨.repeated, 1, "buckets", .bytes⟩, ⟨.optional, 2, "done", .flag⟩]
  | listKeysRequest =>
      [⟨.required, 1, "bucket", .bytes⟩, ⟨.optional, 2, "timeout", .word⟩,
        ⟨.optional, 3, "type", .bytes⟩]
  | listKeysReply =>
      [⟨.repeated, 1, "keys", .bytes⟩, ⟨.optional, 2, "done", .flag⟩]
  | bucketProps =>
      [⟨.optional, 1, "n_val", .word⟩, ⟨.optional, 2, "allow_mult", .flag⟩,
        ⟨.optional, 3, "last_write_wins", .flag⟩, ⟨.optional, 14, "pr", .word⟩,
        ⟨.optional, 15, "r", .word⟩, ⟨.optional, 16, "w", .word⟩, ⟨.optional, 17, "pw", .word⟩,
        ⟨.optional, 18, "dw", .word⟩, ⟨.optional, 19, "rw", .word⟩,
        ⟨.optional, 20, "basic_quorum", .flag⟩, ⟨.optional, 21, "notfound_ok", .flag⟩,
        ⟨.optional, 22, "backend", .bytes⟩, ⟨.optional, 23, "search", .flag⟩,
        ⟨.optional, 25, "search_index", .bytes⟩, ⟨.optional, 26, "datatype", .bytes⟩,
        ⟨.optional, 27, "consistent", .flag⟩]
  | getBucketRequest =>
      [⟨.required, 1, "bucket", .bytes⟩, ⟨.optional, 2, "type", .bytes⟩]
  | getBucketReply =>
      [⟨.required, 1, "props", .message bucketProps⟩]
  | setBucketRequest =>
      [⟨.required, 1, "bucket", .bytes⟩, ⟨.required, 2, "props", .message bucketProps⟩,
        ⟨.optional, 3, "type", .bytes⟩]
  | resetBucketRequest =>
      [⟨.required, 1, "bucket", .bytes⟩, ⟨.optional, 2, "type", .bytes⟩]
  | mapReduceRequest =>
      [⟨.required, 1, "request", .bytes⟩, ⟨.required, 2, "content_type", .bytes⟩]
  | mapReduceReply =>
      [⟨.optional, 1, "phase", .word⟩, ⟨.optional, 2, "response", .bytes⟩,
        ⟨.optional, 3, "done", .flag⟩]
  | indexRequest =>
      [⟨.required, 1, "bucket", .bytes⟩, ⟨.required, 2, "index", .bytes⟩,
        ⟨.required, 3, "qtype", .choice 0⟩, ⟨.optional, 4, "key", .bytes⟩,
        ⟨.optional, 5, "range_min", .bytes⟩, ⟨.optional, 6, "range_max", .bytes⟩,
        ⟨.optional, 7, "return_terms", .flag⟩, ⟨.optional, 8, "stream", .flag⟩,
        ⟨.optional, 9, "max_results", .word⟩, ⟨.optional, 10, "continuation", .bytes⟩,
        ⟨.optional, 11, "timeout", .word⟩, ⟨.optional, 12, "type", .bytes⟩]
  | indexReply =>
      [⟨.repeated, 1, "keys", .bytes⟩, ⟨.repeated, 2, "results", .message pair⟩,
        ⟨.optional, 3, "continuation", .bytes⟩, ⟨.optional, 4, "done", .flag⟩]
  | searchDocument =>
      [⟨.repeated, 1, "fields", .message pair⟩]
  | searchRequest =>
      [⟨.required, 1, "q", .bytes⟩, ⟨.required, 2, "index", .bytes⟩, ⟨.optional, 3, "rows", .word⟩,
        ⟨.optional, 4, "start", .word⟩, ⟨.optional, 5, "sort", .bytes⟩,
        ⟨.optional, 6, "filter", .bytes⟩, ⟨.optional, 7, "df", .bytes⟩,
        ⟨.optional, 8, "op", .bytes⟩, ⟨.repeated, 9, "fl", .bytes⟩,
        ⟨.optional, 10, "presort", .bytes⟩]
  | searchReply =>
      [⟨.repeated, 1, "docs", .message searchDocument⟩, ⟨.optional, 2, "max_score", .single⟩,
        ⟨.optional, 3, "num_found", .word⟩]
  | counterUpdateRequest =>
      [⟨.required, 1, "bucket", .bytes⟩, ⟨.required, 2, "key", .bytes⟩,
        ⟨.required, 3, "amount", .signed⟩, ⟨.optional, 4, "w", .word⟩, ⟨.optional, 5, "dw", .word⟩,
        ⟨.optional, 6, "pw", .word⟩, ⟨.optional, 7, "returnvalue", .flag⟩]
  | counterGetRequest =>
      [⟨.required, 1, "bucket", .bytes⟩, ⟨.required, 2, "key", .bytes⟩, ⟨.optional, 3, "r", .word⟩,
        ⟨.optional, 4, "pr", .word⟩, ⟨.optional, 5, "basic_quorum", .flag⟩,
        ⟨.optional, 6, "notfound_ok", .flag⟩]
  | counterUpdateReply | counterGetReply =>
      [⟨.optional, 1, "value", .signed⟩]
  | mapField =>
      [⟨.required, 1, "name", .bytes⟩, ⟨.required, 2, "type", .choice 1⟩]
  | mapEntry =>
      [⟨.required, 1, "field", .message mapField⟩, ⟨.optional, 2, "counter_value", .signed⟩,
        ⟨.repeated, 3, "set_value", .bytes⟩, ⟨.optional, 4, "register_value", .bytes⟩,
        ⟨.optional, 5, "flag_value", .flag⟩, ⟨.repeated, 6, "map_value", .message mapEntry⟩]
  | dataTypeFetchRequest =>
      [⟨.required, 1, "bucket", .bytes⟩, ⟨.required, 2, "key", .bytes⟩,
        ⟨.required, 3, "type", .bytes⟩, ⟨.optional, 4, "r", .word⟩, ⟨.optional, 5, "pr", .word⟩,
        ⟨.optional, 6, "basic_quorum", .flag⟩, ⟨.optional, 7, "notfound_ok", .flag⟩,
        ⟨.optional, 8, "timeout", .word⟩, ⟨.optional, 9, "sloppy_quorum", .flag⟩,
        ⟨.optional, 10, "n_val", .word⟩, ⟨.optional, 11, "include_context", .flag⟩]
  | dataTypeValue =>
      [⟨.optional, 1, "counter_value", .signed⟩, ⟨.repeated, 2, "set_value", .bytes⟩,
        ⟨.repeated, 3, "map_value", .message mapEntry⟩]
  | dataTypeFetchReply =>
      [⟨.optional, 1, "context", .bytes⟩, ⟨.required, 2, "type", .choice 1⟩,
        ⟨.optional, 3, "value", .message dataTypeValue⟩]
  | counterOp =>
      [⟨.optional, 1, "increment", .signed⟩]
  | setOp =>
      [⟨.repeated, 1, "adds", .bytes⟩, ⟨.repeated, 2, "removes", .bytes⟩]
  | mapUpdate =>
      [⟨.required, 1, "field", .message mapField⟩, ⟨.optional, 2, "counter_op", .message counterOp⟩,
        ⟨.optional, 3, "set_op", .message setOp⟩, ⟨.optional, 4, "register_op", .bytes⟩,
        ⟨.optional, 5, "flag_op", .choice 1⟩, ⟨.optional, 6, "map_op", .message mapOp⟩]
  | mapOp =>
      [⟨.repeated, 1, "removes", .message mapField⟩, ⟨.repeated, 2, "updates", .message mapUpdate⟩]
  | dataTypeOp =>
      [⟨.optional, 1, "counter_op", .message counterOp⟩, ⟨.optional, 2, "set_op", .message setOp⟩,
        ⟨.optional, 3, "map_op", .message mapOp⟩]
  | dataTypeUpdateRequest =>
      [⟨.required, 1, "bucket", .bytes⟩, ⟨.optional, 2, "key", .bytes⟩,
        ⟨.required, 3, "type", .bytes⟩, ⟨.optional, 4, "context", .bytes⟩,
        ⟨.required, 5, "op", .message dataTypeOp⟩, ⟨.optional, 6, "w", .word⟩,
        ⟨.optional, 7, "dw", .word⟩, ⟨.optional, 8, "pw", .word⟩,
        ⟨.optional, 9, "return_body", .flag⟩, ⟨.optional, 10, "timeout", .word⟩,
        ⟨.optional, 11, "sloppy_quorum", .flag⟩, ⟨.optional, 12, "n_val", .word⟩,
        ⟨.optional, 13, "include_context", .flag⟩]
  | dataTypeUpdateReply =>
      [⟨.optional, 1, "key", .bytes⟩, ⟨.optional, 2, "context", .bytes⟩,
        ⟨.optional, 3, "counter_value", .signed⟩, ⟨.repeated, 4, "set_value", .bytes⟩,
        ⟨.repeated, 5, "map_value", .message mapEntry⟩]
  | acknowledgement => []

def field? (t : MessageType) (tag : Nat) : Option (Field × Nat) :=
  t.fields.zipIdx.find? (·.1.tag = tag)

end MessageType
end Wire
end ReplicaClient
