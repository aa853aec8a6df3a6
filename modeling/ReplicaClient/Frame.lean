import ReplicaClient.Code
import ReplicaClient.Wire.Decoder
import ReplicaClient.Wire.Encoder

/-!
# Frames

A frame is a length, a message code and a payload.  The length is a big-endian word of four
octets that counts the code and the payload.  A reader of a buffer tells apart a frame, a
frame that is not yet complete, and a header that announces no acceptable frame.
-/

namespace ReplicaClient

structure Frame where
  code : UInt8
  payload : Bytes
  deriving DecidableEq, Repr

inductive FrameError where
  | short (available : Nat)
  | empty
  | tooLarge (size : Nat)
  | decode (e : Wire.DecodeError)
  deriving DecidableEq, Repr

namespace Frame

def headerLength : Nat := 5

/-- The longest payload a reader accepts: 512 MiB. -/
def maxPayload : Nat := 512 * 1024 * 1024

end Frame

namespace FrameError

def name : FrameError → String
  | short _ => "ShortFrame"
  | empty => "EmptyFrame"
  | tooLarge _ => "FrameTooLarge"
  | decode _ => "Decode"

def message : FrameError → String
  | short available => s!"short frame: {available} of {Frame.headerLength} header bytes available"
  | empty => "frame length prefix is zero"
  | tooLarge size => s!"frame too large: {size} bytes (max: {Frame.maxPayload})"
  | decode e => "payload decode failed: " ++ e.message

end FrameError

namespace Frame

structure Header where
  code : UInt8
  payloadLength : Nat
  deriving DecidableEq, Repr

def encodeHeader (code : MessageCode) (payloadLength : Nat) : Bytes :=
  Bytes.bigEndian 4 (payloadLength + 1) ++ [code.toByte]

def encode (code : MessageCode) (payload : Bytes) : Bytes :=
  encodeHeader code payload.length ++ payload

/-- The frame of a message, written without an intermediate payload: the header announces the size
that the message will take. -/
def encodeMessage (code : MessageCode) (t : Wire.MessageType) (m : Wire.Message) : Bytes :=
  encodeHeader code (m.encodedSize t) ++ m.encode t

def decodeHeader : Bytes → Except FrameError Header
  | a :: b :: c :: d :: code :: _ =>
      let length := Bytes.toNatBigEndian [a, b, c, d]
      if length = 0 then .error .empty
      else if maxPayload < length - 1 then .error (.tooLarge (length - 1))
      else .ok ⟨code, length - 1⟩
  | bs => .error (.short bs.length)

/-- The frame at the front of a buffer and the number of octets it takes; `none` while its
payload is incomplete. -/
def decode (bs : Bytes) : Except FrameError (Option (Frame × Nat)) := do
  let header ← decodeHeader bs
  let total := headerLength + header.payloadLength
  if bs.length < total then .ok none
  else .ok (some (⟨header.code, (bs.drop headerLength).take header.payloadLength⟩, total))

def decodePayload (t : Wire.MessageType) (payload : Bytes) : Except FrameError Wire.Message :=
  (Wire.Message.decode t payload).mapError .decode

def size (frame : Frame) : Nat :=
  headerLength + frame.payload.length

theorem size_of_decode {bs : Bytes} {frame : Frame} {used : Nat}
    (h : decode bs = .ok (some (frame, used))) : used = frame.size ∧ used ≤ bs.length := by
  unfold decode at h
  cases hh : decodeHeader bs with
  | error e => simp [hh, bind, Except.bind] at h
  | ok header =>
      simp only [hh, bind, Except.bind] at h
      split at h
      · simp at h
      · rename_i hlen
        simp only [Except.ok.injEq, Option.some.injEq, Prod.mk.injEq] at h
        obtain ⟨rfl, rfl⟩ := h
        simp only [size, List.length_take, List.length_drop]
        omega

theorem size_pos (frame : Frame) : 0 < frame.size := by
  unfold size headerLength
  omega

inductive Stop where
  | exhausted
  | incomplete
  | fault (e : FrameError)
  deriving DecidableEq, Repr

/-- The frames at the front of a buffer, one after the other, and what follows the last one. -/
def decodeAll (bs : Bytes) : List Frame × Stop :=
  match _ : decode bs with
  | .error e => ([], .fault e)
  | .ok none => ([], .incomplete)
  | .ok (some (frame, used)) =>
      if bs.length ≤ used then ([frame], .exhausted)
      else
        let (frames, stop) := decodeAll (bs.drop used)
        (frame :: frames, stop)
termination_by bs.length
decreasing_by
  have := size_of_decode ‹_›
  have := frame.size_pos
  simp only [List.length_drop]
  omega

end Frame
end ReplicaClient
