import ReplicaClient.Text.Utf8
import ReplicaClient.Wire.Message

/-!
# Contents on the wire

One version of an object as it travels: its data with links, metadata and index entries.
-/

namespace ReplicaClient

open Wire

structure Pair where
  key : Bytes := []
  value : Option Bytes := none
  deriving DecidableEq, Repr, Inhabited

namespace Pair

def ofTexts (key value : String) : Pair :=
  ⟨Utf8.encode key, some (Utf8.encode value)⟩

/-- Both parts as text; a missing value is empty. -/
def texts (p : Pair) : String × String :=
  (Utf8.decodeLossy p.key, Utf8.decodeLossy (p.value.getD []))

def toMessage (p : Pair) : Message :=
  [Slot.ofBytes p.key, Slot.ofBytes? p.value]

def ofMessage : Message → Pair
  | [key, value] => ⟨Slot.bytes key, Slot.bytes? value⟩
  | _ => {}

end Pair

structure WireLink where
  bucket : Option Bytes := none
  key : Option Bytes := none
  tag : Option Bytes := none
  deriving DecidableEq, Repr, Inhabited

namespace WireLink

def toMessage (l : WireLink) : Message :=
  [Slot.ofBytes? l.bucket, Slot.ofBytes? l.key, Slot.ofBytes? l.tag]

def ofMessage : Message → WireLink
  | [bucket, key, tag] => ⟨Slot.bytes? bucket, Slot.bytes? key, Slot.bytes? tag⟩
  | _ => {}

end WireLink

structure Content where
  value : Bytes := []
  contentType : Option Bytes := none
  charset : Option Bytes := none
  contentEncoding : Option Bytes := none
  vtag : Option Bytes := none
  links : List WireLink := []
  lastMod : Option UInt32 := none
  lastModUsecs : Option UInt32 := none
  usermeta : List Pair := []
  indexes : List Pair := []
  deleted : Option Bool := none
  deriving DecidableEq, Repr, Inhabited

namespace Content

def toMessage (c : Content) : Message :=
  [Slot.ofBytes c.value, Slot.ofBytes? c.contentType, Slot.ofBytes? c.charset,
    Slot.ofBytes? c.contentEncoding, Slot.ofBytes? c.vtag,
    Slot.ofAllMessages (c.links.map WireLink.toMessage), Slot.ofWord? c.lastMod,
    Slot.ofWord? c.lastModUsecs, Slot.ofAllMessages (c.usermeta.map Pair.toMessage),
    Slot.ofAllMessages (c.indexes.map Pair.toMessage), Slot.ofFlag? c.deleted]

def ofMessage : Message → Content
  | [value, contentType, charset, contentEncoding, vtag, links, lastMod, lastModUsecs, usermeta,
      indexes, deleted] =>
    { value := Slot.bytes value
      contentType := Slot.bytes? contentType
      charset := Slot.bytes? charset
      contentEncoding := Slot.bytes? contentEncoding
      vtag := Slot.bytes? vtag
      links := (Slot.allMessages links).map WireLink.ofMessage
      lastMod := Slot.word? lastMod
      lastModUsecs := Slot.word? lastModUsecs
      usermeta := (Slot.allMessages usermeta).map Pair.ofMessage
      indexes := (Slot.allMessages indexes).map Pair.ofMessage
      deleted := Slot.flag? deleted }
  | _ => {}

end Content
end ReplicaClient
