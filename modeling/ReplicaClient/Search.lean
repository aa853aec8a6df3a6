import ReplicaClient.Object.Store

/-!
# Search

A search names an index and a query.  Parts that are empty are left to the store; the number
of rows is ten unless it is given.
-/

namespace ReplicaClient

structure Search where
  query : String
  index : String
  rows : UInt32 := 0
  start : UInt32 := 0
  sort : String := ""
  filter : String := ""
  defaultField : String := ""
  defaultOperator : String := ""
  presort : String := ""
  fields : List String := []
  deriving DecidableEq, Repr, Inhabited

structure SearchResult where
  documents : List (List (String × Bytes))
  maxScore : UInt32
  numFound : UInt32
  deriving DecidableEq, Repr

namespace Search

def defaultRows : UInt32 := 10

def request (s : Search) : SearchRequest where
  query := Utf8.encode s.query
  index := Utf8.encode s.index
  rows := if s.rows = 0 then defaultRows else s.rows
  start := s.start
  sort := nonEmpty (Utf8.encode s.sort)
  filter := nonEmpty (Utf8.encode s.filter)
  defaultField := nonEmpty (Utf8.encode s.defaultField)
  defaultOperator := nonEmpty (Utf8.encode s.defaultOperator)
  fields := s.fields.map Utf8.encode
  presort := nonEmpty (Utf8.encode s.presort)

/-- A document by field; of fields with one name the last counts. -/
def document (fields : List Pair) : List (String × Bytes) :=
  Assoc.ofList (fields.map fun p ↦ (Utf8.decodeLossy p.key, p.value.getD []))

def run (s : Search) : Dialogue (Except ClientError SearchResult) :=
  .query (.search s.request) fun (reply : SearchReply) ↦
    .ok ⟨reply.documents.map document, reply.maxScore.getD 0, reply.numFound.getD 0⟩

end Search
end ReplicaClient
