import ReplicaClient.Bytes

/-!
# UTF-8

Text is written in UTF-8 and read in two ways: strictly, where one ill-formed octet
spoils the whole, and leniently, where every maximal piece that cannot be part of a
character is replaced by U+FFFD.  Both readings come from one pass that marks each
ill-formed piece.
-/

namespace ReplicaClient
namespace Utf8

def encodeChars (cs : List Char) : Bytes :=
  cs.flatMap String.utf8EncodeChar

def encode (s : String) : Bytes :=
  encodeChars s.toList

/-- Where the reader stands: between characters, or inside one that still needs `left + 1`
octets, of which the next one must lie between `low` and `high`; `read` holds the bits
seen so far. -/
inductive Position where
  | start
  | inside (left : Nat) (low high : UInt8) (read : Nat)

/-- What the first octet of a character announces; `none` if no character begins so. -/
def Position.ofLead (b : UInt8) : Option (Char ⊕ Position) :=
  if b < 0x80 then some (.inl (Char.ofNat b.toNat))
  else if b < 0xC2 then none
  else if b < 0xE0 then some (.inr (.inside 0 0x80 0xBF (b.toNat - 0xC0)))
  else if b = 0xE0 then some (.inr (.inside 1 0xA0 0xBF 0))
  else if b = 0xED then some (.inr (.inside 1 0x80 0x9F 0xD))
  else if b < 0xF0 then some (.inr (.inside 1 0x80 0xBF (b.toNat - 0xE0)))
  else if b = 0xF0 then some (.inr (.inside 2 0x90 0xBF 0))
  else if b < 0xF4 then some (.inr (.inside 2 0x80 0xBF (b.toNat - 0xF0)))
  else if b = 0xF4 then some (.inr (.inside 2 0x80 0x8F 4))
  else none

/-- The characters of a byte string, with `none` for each maximal ill-formed piece. -/
def scan : Position → Bytes → List (Option Char)
  | .start, [] => []
  | .inside .., [] => [none]
  | .start, b :: rest =>
      match Position.ofLead b with
      | none => none :: scan .start rest
      | some (.inl c) => some c :: scan .start rest
      | some (.inr p) => scan p rest
  | .inside left low high read, b :: rest =>
      if low ≤ b ∧ b ≤ high then
        match left with
        | 0 => some (Char.ofNat (read * 64 + b.toNat % 64)) :: scan .start rest
        | left + 1 => scan (.inside left 0x80 0xBF (read * 64 + b.toNat % 64)) rest
      else
        match Position.ofLead b with
        | none => none :: none :: scan .start rest
        | some (.inl c) => none :: some c :: scan .start rest
        | some (.inr p) => none :: scan p rest

/-- Strict reading: `none` as soon as one piece is ill-formed. -/
def decode? (bs : Bytes) : Option String :=
  ((scan .start bs).mapM id).map String.ofList

/-- Lenient reading: each ill-formed piece becomes U+FFFD. -/
def decodeLossy (bs : Bytes) : String :=
  String.ofList ((scan .start bs).map (·.getD '\uFFFD'))

end Utf8
end ReplicaClient
