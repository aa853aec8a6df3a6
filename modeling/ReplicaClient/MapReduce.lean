import ReplicaClient.Json.Printer

/-!
# MapReduce jobs

A job names its inputs, a whole bucket or a list of keys, and the phases they pass through.
It is sent as a JSON text whose members stand in a fixed order.
-/

namespace ReplicaClient
namespace MapReduce

inductive Inputs where
  | bucket (name : String)
  | keys (pairs : List (String × String))
  deriving DecidableEq, Repr

/-- The code of a phase: its source text, or the name of a function the store knows. -/
inductive Code where
  | source (text : String)
  | named (name : String)
  deriving DecidableEq, Repr

inductive Phase where
  | map (code : Code) (keep : Bool)
  | reduce (code : Code) (keep : Bool)
  | link (bucket : String) (keep : Bool)
  deriving DecidableEq, Repr

structure Job where
  inputs : Inputs := .keys []
  phases : List Phase := []
  deriving DecidableEq, Repr, Inhabited

namespace Job

/-- Adds a key to the inputs; a bucket given before is dropped. -/
def add (job : Job) (bucket key : String) : Job :=
  match job.inputs with
  | .keys pairs => { job with inputs := .keys (pairs ++ [(bucket, key)]) }
  | .bucket _ => { job with inputs := .keys [(bucket, key)] }

def addBucket (job : Job) (bucket : String) : Job :=
  { job with inputs := .bucket bucket }

def addPhase (job : Job) (phase : Phase) : Job :=
  { job with phases := job.phases ++ [phase] }

def map (job : Job) (source : String) (keep : Bool) : Job :=
  job.addPhase (.map (.source source) keep)

/-- A map phase that reads each object as JSON. -/
def mapObjectValue (job : Job) (keep : Bool) : Job :=
  job.addPhase (.map (.named "Riak.mapValuesJson") keep)

def reduce (job : Job) (source : String) (keep : Bool) : Job :=
  job.addPhase (.reduce (.source source) keep)

def linkBucket (job : Job) (bucket : String) (keep : Bool) : Job :=
  job.addPhase (.link bucket keep)

end Job

/-! ## The text of a job -/

/-- An object whose members stand in the given order. -/
def printObject (members : List (String × List Char)) : List Char :=
  '\x7b' :: ((members.map fun (k, v) ↦ Json.printString k ++ ':' :: v).intersperse [',']).flatten ++
    ['\x7d']

def printArray (items : List (List Char)) : List Char :=
  '[' :: (items.intersperse [',']).flatten ++ [']']

def printBool (b : Bool) : List Char :=
  (Json.bool b).print

def Inputs.print : Inputs → List Char
  | bucket name => Json.printString name
  | keys pairs =>
      printArray (pairs.map fun (b, k) ↦ printArray [Json.printString b, Json.printString k])

def Code.member : Code → String × List Char
  | source text => ("source", Json.printString text)
  | named name => ("name", Json.printString name)

def printFunction (code : Code) (keep : Bool) : List Char :=
  printObject [("language", Json.printString "javascript"), code.member, ("keep", printBool keep)]

def Phase.print : Phase → List Char
  | map code keep => printObject [("map", printFunction code keep)]
  | reduce code keep => printObject [("reduce", printFunction code keep)]
  | link bucket keep =>
      printObject
        [("link", printObject [("bucket", Json.printString bucket), ("keep", printBool keep)])]

def Job.query (job : Job) : String :=
  String.ofList (printObject
    [("inputs", job.inputs.print), ("query", printArray (job.phases.map Phase.print))])

end MapReduce
end ReplicaClient
