import ReplicaClient.Json.Basic
import ReplicaClient.Number.Shortest
import ReplicaClient.Text.Quoted

/-!
# Mismatches between fields and values

A field of a document takes scalars or relations, and a scalar field takes values of one
type.  A mismatch tells what was found and what the field wants.
-/

namespace ReplicaClient

inductive FieldKind where
  | scalar
  | one
  | many
  deriving DecidableEq, Repr

def FieldKind.name : FieldKind → String
  | scalar => "scalar"
  | one => "one"
  | many => "many"

inductive ScalarType where
  | text
  | boolean
  | unsigned32
  | signed64
  | sequence
  deriving DecidableEq, Repr

def ScalarType.name : ScalarType → String
  | text => "a string"
  | boolean => "a boolean"
  | unsigned32 => "u32"
  | signed64 => "i64"
  | sequence => "a sequence"

inductive Mismatch where
  | notAnObject
  | kind (expected actual : FieldKind)
  | type (found : Json) (wanted : ScalarType)
  | range (found : Int) (wanted : ScalarType)
  deriving Repr

namespace Mismatch

/-- A value as a mismatch names it. -/
def describe : Json → String
  | .null => "null"
  | .bool true => "boolean `true`"
  | .bool false => "boolean `false`"
  | .whole n => "integer `" ++ toString n.val ++ "`"
  | .double x => "floating point `" ++ x.compact ++ "`"
  | .string s => "string " ++ Text.quote s
  | .array _ => "sequence"
  | .object _ => "map"

def message : Mismatch → String
  | notAnObject => "document body is not a JSON object"
  | kind expected actual => "expected " ++ expected.name ++ ", got " ++ actual.name
  | type found wanted => "invalid type: " ++ describe found ++ ", expected " ++ wanted.name
  | range found wanted =>
      "invalid value: integer `" ++ toString found ++ "`, expected " ++ wanted.name

end Mismatch
end ReplicaClient
