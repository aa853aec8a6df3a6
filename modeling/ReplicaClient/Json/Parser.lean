import ReplicaClient.Json.Basic
import ReplicaClient.Text.Utf8

/-!
# Reading JSON

The reader takes octets and is strict: nothing may follow the value, numbers have no
superfluous zeros, strings are valid UTF-8, and containers nest at most 127 deep.  A fault
is either the end of the input where more was needed, or anything else.
-/

namespace ReplicaClient
namespace Json

inductive Fault where
  | endOfInput
  | malformed
  deriving DecidableEq, Repr

def isBlank (b : UInt8) : Bool :=
  b = 0x20 || b = 0x09 || b = 0x0A || b = 0x0D

def skipBlanks (bs : Bytes) : Bytes :=
  bs.dropWhile isBlank

/-- The fault of a place where the input does not go on as it should. -/
def faultAt : Bytes → Fault
  | [] => .endOfInput
  | _ :: _ => .malformed

/-! ## Numbers -/

def isDigit (b : UInt8) : Bool :=
  0x30 ≤ b && b ≤ 0x39

def digitValue (b : UInt8) : Nat :=
  b.toNat - 0x30

def digits (bs : Bytes) : List Nat × Bytes :=
  ((bs.takeWhile isDigit).map digitValue, bs.dropWhile isDigit)

def ofDigits (ds : List Nat) : Nat :=
  ds.foldl (fun n d ↦ 10 * n + d) 0

/-- Appends digits to a significand while it fits 64 bits, and counts those that were taken. -/
def absorb (significand : Nat) : List Nat → Nat × Nat
  | [] => (significand, 0)
  | d :: ds =>
      if UInt64.size ≤ significand * 10 + d then (significand, 0)
      else
        let (s, taken) := absorb (significand * 10 + d) ds
        (s, taken + 1)

def powerOfTen? (e : Nat) : Option Double :=
  Double.ofNat? (Nat.pow 10 e)

/-- `significand * 10 ^ e` as a double: the significand is rounded and then scaled by a power of
ten between 10^-308 and 10^308, in two steps if it is smaller; `none` beyond the largest double. -/
def scale? (significand : Nat) (e : Int) : Option Double := do
  let s ← Double.ofNat? significand
  if s.isZero then some s
  else if 308 < e then none
  else if 0 ≤ e then s.mul? (← powerOfTen? e.toNat)
  else if -308 ≤ e then s.div? (← powerOfTen? (-e).toNat)
  else if -616 ≤ e then (← s.div? (← powerOfTen? 308)).div? (← powerOfTen? (-e - 308).toNat)
  else some ⟨0⟩

def ofDouble? (negative : Bool) (x : Option Double) : Except Fault Json :=
  match x with
  | none => .error .malformed
  | some x => .ok (.double (if negative then x.neg else x))

def readExponent : Bytes → Except Fault (Int × Bytes)
  | bs =>
      let (negative, bs) := match bs with
        | 0x2B :: rest => (false, rest)
        | 0x2D :: rest => (true, rest)
        | _ => (false, bs)
      let (ds, rest) := digits bs
      if ds.isEmpty then .error (faultAt bs)
      else .ok (if negative then -(ofDigits ds : Int) else ofDigits ds, rest)

def readOptionalExponent : Bytes → Except Fault (Option Int × Bytes)
  | b :: rest =>
      if b = 0x65 ∨ b = 0x45 then (readExponent rest).map fun (e, rest) ↦ (some e, rest)
      else .ok (none, b :: rest)
  | [] => .ok (none, [])

def readOptionalFraction : Bytes → Except Fault (Option (List Nat) × Bytes)
  | 0x2E :: rest =>
      let (ds, after) := digits rest
      if ds.isEmpty then .error (faultAt rest) else .ok (some ds, after)
  | bs => .ok (none, bs)

/-- The digits before the point: a zero stands alone. -/
def readInteger (bs : Bytes) : Except Fault (List Nat × Bytes) :=
  match digits bs with
  | ([], _) => .error (faultAt bs)
  | (0 :: _ :: _, _) => .error .malformed
  | (ds, rest) => .ok (ds, rest)

/-- A number without fraction and exponent, if it fits 64 bits. -/
def whole? (negative : Bool) (n : Nat) : Option Whole :=
  if negative then (if n = 0 then none else Whole.ofInt? (-n)) else Whole.ofInt? n

def numberValue (negative : Bool) (integer : List Nat) (fraction : Option (List Nat))
    (exponent : Option Int) : Except Fault Json :=
  match fraction, exponent, whole? negative (ofDigits integer) with
  | none, none, some n => .ok (.whole n)
  | _, _, _ =>
      let (s, taken) := absorb 0 integer
      let dropped := integer.length - taken
      let (s, places) := absorb s (fraction.getD [])
      ofDouble? negative (scale? s (dropped - places + exponent.getD 0))

def readNumber (negative : Bool) (bs : Bytes) : Except Fault (Json × Bytes) := do
  let (integer, rest) ← readInteger bs
  let (fraction, rest) ← readOptionalFraction rest
  let (exponent, rest) ← readOptionalExponent rest
  let j ← numberValue negative integer fraction exponent
  return (j, rest)

/-! ## Strings -/

def hexValue? (b : UInt8) : Option Nat :=
  if 0x30 ≤ b ∧ b ≤ 0x39 then some (b.toNat - 0x30)
  else if 0x41 ≤ b ∧ b ≤ 0x46 then some (b.toNat - 0x37)
  else if 0x61 ≤ b ∧ b ≤ 0x66 then some (b.toNat - 0x57)
  else none

def readUnit : Bytes → Except Fault (Nat × Bytes)
  | a :: b :: c :: d :: rest =>
      match hexValue? a, hexValue? b, hexValue? c, hexValue? d with
      | some a, some b, some c, some d => .ok (((a * 16 + b) * 16 + c) * 16 + d, rest)
      | _, _, _, _ => .error .malformed
  | _ => .error .endOfInput

def expect (b : UInt8) : Bytes → Except Fault Bytes
  | c :: rest => if c = b then .ok rest else .error .malformed
  | [] => .error .endOfInput

/-- The character of an escape by code units; one above the basic plane takes two. -/
def readEscapedChar (bs : Bytes) : Except Fault (Char × Bytes) := do
  let (n, rest) ← readUnit bs
  if 0xDC00 ≤ n ∧ n ≤ 0xDFFF then .error .malformed
  else if 0xD800 ≤ n ∧ n ≤ 0xDBFF then
    let rest ← expect 0x5C rest
    let rest ← expect 0x75 rest
    let (m, rest) ← readUnit rest
    if 0xDC00 ≤ m ∧ m ≤ 0xDFFF then
      .ok (Char.ofNat ((n - 0xD800) * 0x400 + (m - 0xDC00) + 0x10000), rest)
    else .error .malformed
  else .ok (Char.ofNat n, rest)

/-- What stands for an escape, after its backslash. -/
def readEscape : Bytes → Except Fault (Bytes × Bytes)
  | [] => .error .endOfInput
  | b :: rest =>
      if b = 0x75 then (readEscapedChar rest).map fun (c, rest) ↦ (Utf8.encodeChars [c], rest)
      else if b = 0x22 ∨ b = 0x5C ∨ b = 0x2F then .ok ([b], rest)
      else if b = 0x62 then .ok ([0x08], rest)
      else if b = 0x66 then .ok ([0x0C], rest)
      else if b = 0x6E then .ok ([0x0A], rest)
      else if b = 0x72 then .ok ([0x0D], rest)
      else if b = 0x74 then .ok ([0x09], rest)
      else .error .malformed

def readStringBytes : (fuel : Nat) → Bytes → Except Fault (Bytes × Bytes)
  | 0, _ | _, [] => .error .endOfInput
  | fuel + 1, b :: rest =>
      if b = 0x22 then .ok ([], rest)
      else if b = 0x5C then do
        let (escaped, rest) ← readEscape rest
        let (tail, rest) ← readStringBytes fuel rest
        return (escaped ++ tail, rest)
      else if b < 0x20 then .error .malformed
      else do
        let (tail, rest) ← readStringBytes fuel rest
        return (b :: tail, rest)

/-- A string after its opening quote.  Only a closed string is checked for being UTF-8. -/
def readString (bs : Bytes) : Except Fault (String × Bytes) := do
  let (content, rest) ← readStringBytes (bs.length + 1) bs
  match Utf8.decode? content with
  | none => .error .malformed
  | some s => .ok (s, rest)

/-! ## Values -/

def readWord (value : Json) : (word : Bytes) → Bytes → Except Fault (Json × Bytes)
  | [], bs => .ok (value, bs)
  | b :: word, bs => do readWord value word (← expect b bs)

mutual

def readValue : (fuel room : Nat) → Bytes → Except Fault (Json × Bytes)
  | 0, _, _ => .error .malformed
  | fuel + 1, room, bs =>
      match skipBlanks bs with
      | [] => .error .endOfInput
      | b :: rest =>
          if b = 0x6E then readWord .null [0x75, 0x6C, 0x6C] rest
          else if b = 0x74 then readWord (.bool true) [0x72, 0x75, 0x65] rest
          else if b = 0x66 then readWord (.bool false) [0x61, 0x6C, 0x73, 0x65] rest
          else if b = 0x22 then (readString rest).map fun (s, rest) ↦ (.string s, rest)
          else if b = 0x2D then readNumber true rest
          else if isDigit b then readNumber false (b :: rest)
          else if b = 0x5B then
            match room with
            | 0 => .error .malformed
            | room + 1 =>
                (readItems fuel room true rest).map fun (items, rest) ↦ (.array items, rest)
          else if b = 0x7B then
            match room with
            | 0 => .error .malformed
            | room + 1 =>
                (readMembers fuel room true rest).map fun (ms, rest) ↦ (ofMembers ms, rest)
          else .error .malformed

/-- The items up to the closing bracket; a comma stands between two of them. -/
def readItems : (fuel room : Nat) → (first : Bool) → Bytes → Except Fault (List Json × Bytes)
  | 0, _, _, _ => .error .malformed
  | fuel + 1, room, first, bs =>
      match skipBlanks bs with
      | [] => .error .endOfInput
      | b :: rest =>
          if b = 0x5D then .ok ([], rest)
          else if first then do
            let (item, rest) ← readValue fuel room (b :: rest)
            let (items, rest) ← readItems fuel room false rest
            return (item :: items, rest)
          else if b = 0x2C then
            match skipBlanks rest with
            | 0x5D :: _ => .error .malformed
            | rest => do
                let (item, rest) ← readValue fuel room rest
                let (items, rest) ← readItems fuel room false rest
                return (item :: items, rest)
          else .error .malformed

/-- The members up to the closing brace. -/
def readMembers : (fuel room : Nat) → (first : Bool) → Bytes →
    Except Fault (List (String × Json) × Bytes)
  | 0, _, _, _ => .error .malformed
  | fuel + 1, room, first, bs =>
      match skipBlanks bs with
      | [] => .error .endOfInput
      | b :: rest =>
          if b = 0x7D then .ok ([], rest)
          else do
            let rest ← if first then .ok (b :: rest) else expect 0x2C (b :: rest)
            let rest ← expect 0x22 (skipBlanks rest)
            let (key, rest) ← readString rest
            let rest ← expect 0x3A (skipBlanks rest)
            let (value, rest) ← readValue fuel room rest
            let (members, rest) ← readMembers fuel room false rest
            return ((key, value) :: members, rest)

end

def maxDepth : Nat := 127

/-- Reads a whole text.  Every value and every separator takes an octet, so twice the length of
the text is fuel enough. -/
def parse (bs : Bytes) : Except Fault Json := do
  let (j, rest) ← readValue (2 * bs.length + 1) maxDepth bs
  match skipBlanks rest with
  | [] => .ok j
  | _ => .error .malformed

end Json
end ReplicaClient
