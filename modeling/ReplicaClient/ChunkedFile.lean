import ReplicaClient.Store
import ReplicaClient.Text.Natural

/-!
# Chunked files

A file is a root object, whose metadata tell the size and the number of chunks, and one
object for each chunk.  A handle has a cursor, knows the size, and keeps the chunk it used
last.  Reads and writes never cross the end of a chunk.
-/

namespace ReplicaClient

structure ChunkedFile where
  root : Object
  chunk : Option Object := none
  chunkSize : Nat
  pos : Nat := 0
  size : Nat := 0
  deriving DecidableEq, Repr, Inhabited

namespace ChunkedFile

/-- The largest chunk: 100 MiB. -/
def maxChunkSize : Nat := 100 * 1024 * 1024

def chunkSizeName : String := "chunk_size"
def chunkCountName : String := "chunk_count"

def chunkKey (key : String) (index : Nat) : String :=
  key ++ String.ofList ('-' :: Text.padded 6 index)

def validChunkSize (n : Nat) : Bool :=
  1 ≤ n && n ≤ maxChunkSize

/-- A size as metadata tell it. -/
def parseSize? (s : String) : Option Nat :=
  Text.natural? UInt64.size s.toList

/-! ## Making and opening -/

def newRoot (bucket key contentType : String) (chunkSize : Nat) (options : Options) : Object :=
  { bucket, key, contentType, options
    metadata := Assoc.insert chunkCountName "0" (Assoc.insert chunkSizeName (toString chunkSize) []) }

def create (bucket key contentType : String) (chunkSize : Nat) (options : Options) :
    Dialogue (Except ClientError ChunkedFile) :=
  if validChunkSize chunkSize && !key.isEmpty then
    (newRoot bucket key contentType chunkSize options).store.bind fun
      | (.error e, _) => .refuse e
      | (.ok (), root) => .done (.ok { root, chunkSize })
  else .refuse (.notFile key)

/-- Size and number of chunks as the metadata of a root tell them. -/
def layout? (metadata : Meta) : Option (Nat × Nat) := do
  let chunkSize ← (Assoc.find? chunkSizeName metadata).bind parseSize?
  let chunkCount ← (Assoc.find? chunkCountName metadata).bind parseSize?
  if validChunkSize chunkSize then some (chunkSize, chunkCount) else none

/-- The chunk with the given number: the one at hand, a new one if it is to be made, or the one the
store holds. -/
def chunkAt (f : ChunkedFile) (index : Nat) (make : Bool) :
    Dialogue (Except ClientError Object × ChunkedFile) :=
  let key := chunkKey f.root.key index
  let fetch : Dialogue (Except ClientError Object × ChunkedFile) :=
    if make then
      let chunk : Object :=
        { bucket := f.root.bucket, key, options := f.root.options,
          contentType := f.root.contentType }
      .done (.ok chunk, { f with chunk := some chunk })
    else
      (Store.getFrom f.root.bucket key f.root.options).bind fun
        | .error e => .done (.error e, { f with chunk := none })
        | .ok chunk => .done (.ok chunk, { f with chunk := some chunk })
  match f.chunk with
  | some chunk => if chunk.key = key then .done (.ok chunk, f) else fetch
  | none => fetch

/-- Opens a file.  Its size follows from the length of the last chunk, in the arithmetic of a word:
metadata that tell of more octets than a word counts make a size that has wrapped. -/
def openFile (bucket key : String) (options : Options) :
    Dialogue (Except ClientError ChunkedFile) :=
  .andThen (Store.getFrom bucket key options) fun root ↦
    match layout? root.metadata with
    | none => .refuse (.notFile key)
    | some (chunkSize, chunkCount) =>
        let f : ChunkedFile := { root, chunkSize }
        if chunkCount = 0 then .done (.ok f)
        else
          (f.chunkAt (chunkCount - 1) false).bind fun
            | (.error e, _) => .refuse e
            | (.ok chunk, f) =>
                .done (.ok { f with
                  size := ((chunkCount - 1) * chunkSize + chunk.data.length) % UInt64.size })

/-! ## Writing -/

/-- Writes a piece into data at an offset, after zeros where the data end before it. -/
def overwrite (data : Bytes) (offset : Nat) (piece : Bytes) : Bytes :=
  let padded := data ++ List.replicate (offset + piece.length - data.length) 0
  padded.take offset ++ piece ++ padded.drop (offset + piece.length)

/-- Moves the cursor over what has been written.  A file that has grown by a chunk tells so in its
root before it counts as grown. -/
def advance (f : ChunkedFile) (index length : Nat) (fresh : Bool) :
    Dialogue (Except ClientError Nat × ChunkedFile) :=
  let f := { f with pos := f.pos + length }
  if f.size < f.pos then
    if fresh then
      let root := { f.root with
        metadata := Assoc.insert chunkCountName (toString (index + 1)) f.root.metadata }
      root.store.bind fun
        | (.error e, root) => .done (.error e, { f with root })
        | (.ok (), root) => .done (.ok length, { f with root, size := f.pos })
    else .done (.ok length, { f with size := f.pos })
  else .done (.ok length, f)

/-- Writes as much as the chunk at the cursor takes and returns how much that is. -/
def write (f : ChunkedFile) (buf : Bytes) : Dialogue (Except ClientError Nat × ChunkedFile) :=
  if buf.isEmpty then .done (.ok 0, f)
  else
    let index := f.pos / f.chunkSize
    let offset := f.pos % f.chunkSize
    let piece := buf.take (f.chunkSize - offset)
    let fresh := f.size ≤ index * f.chunkSize
    (f.chunkAt index fresh).bind fun
      | (.error e, f) => .done (.error e, f)
      | (.ok chunk, f) =>
          { chunk with data := overwrite chunk.data offset piece }.store.bind fun
            | (.error e, chunk) => .done (.error e, { f with chunk := some chunk })
            | (.ok (), chunk) =>
                { f with chunk := some chunk }.advance index piece.length fresh

/-- Writes until all is written.  Every write takes something, so the length bounds their number. -/
def writeUpTo : (room : Nat) → ChunkedFile → Bytes → Dialogue (Except ClientError Unit × ChunkedFile)
  | 0, f, _ => .done (.ok (), f)
  | room + 1, f, buf =>
      if buf.isEmpty then .done (.ok (), f)
      else
        (f.write buf).bind fun
          | (.error e, f) => .done (.error e, f)
          | (.ok n, f) => writeUpTo room f (buf.drop n)

def writeAll (f : ChunkedFile) (buf : Bytes) : Dialogue (Except ClientError Unit × ChunkedFile) :=
  writeUpTo buf.length f buf

/-! ## Reading -/

def read (f : ChunkedFile) (n : Nat) : Dialogue (Except ClientError Bytes × ChunkedFile) :=
  if n = 0 ∨ f.size ≤ f.pos then .done (.ok [], f)
  else
    let offset := f.pos % f.chunkSize
    (f.chunkAt (f.pos / f.chunkSize) false).bind fun
      | (.error e, f) => .done (.error e, f)
      | (.ok chunk, f) =>
          let piece := (chunk.data.drop offset).take n
          .done (.ok piece, { f with pos := f.pos + piece.length })

def readUpTo (n : Nat) : (room : Nat) → ChunkedFile →
    Dialogue (Except ClientError Bytes × ChunkedFile)
  | 0, f => .done (.ok [], f)
  | room + 1, f =>
      (f.read n).bind fun
        | (.error e, f) => .done (.error e, f)
        | (.ok piece, f) =>
            if piece.isEmpty then .done (.ok [], f)
            else
              (readUpTo n room f).bind fun
                | (.error e, f) => .done (.error e, f)
                | (.ok rest, f) => .done (.ok (piece ++ rest), f)

/-- Reads to the end in pieces of at most `n` octets.  Every read but the last moves the cursor, so
what is left bounds their number. -/
def readAll (f : ChunkedFile) (n : Nat) : Dialogue (Except ClientError Bytes × ChunkedFile) :=
  readUpTo n (f.size - f.pos + 1) f

/-! ## The cursor -/

inductive Seek where
  | start (offset : Nat)
  | current (offset : Int)
  | fromEnd (offset : Int)
  deriving DecidableEq, Repr

structure SeekError where
  target : Int
  size : Nat
  deriving DecidableEq, Repr

def SeekError.message (e : SeekError) : String :=
  s!"seek to {e.target} outside file of {e.size} bytes"

def Seek.target (f : ChunkedFile) : Seek → Int
  | start offset => offset
  | current offset => f.pos + offset
  | fromEnd offset => f.size + offset

def seek (f : ChunkedFile) (s : Seek) : Except SeekError ChunkedFile :=
  let target := s.target f
  if 0 ≤ target ∧ target ≤ f.size then .ok { f with pos := target.toNat }
  else .error ⟨target, f.size⟩

def modified (f : ChunkedFile) : Nat × Nat :=
  let usecs := f.root.lastModUsecs.toNat
  (f.root.lastMod.toNat + usecs / 1000000, usecs % 1000000 * 1000)

end ChunkedFile
end ReplicaClient
