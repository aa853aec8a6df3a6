import ReplicaClient.Json.Basic
import ReplicaClient.Number.Shortest

/-!
# Writing JSON

The compact form has no blanks.  In a string the quote, the backslash and the control
characters are escaped, and nothing else is.
-/

namespace ReplicaClient
namespace Json

def escapeChar (c : Char) : List Char :=
  if c = '"' then ['\\', '"']
  else if c = '\\' then ['\\', '\\']
  else if c = '\n' then ['\\', 'n']
  else if c = '\t' then ['\\', 't']
  else if c = '\r' then ['\\', 'r']
  else if c.toNat = 8 then ['\\', 'b']
  else if c.toNat = 12 then ['\\', 'f']
  else if c.toNat < 32 then
    ['\\', 'u', '0', '0', Nat.digitChar (c.toNat / 16), Nat.digitChar (c.toNat % 16)]
  else [c]

def printString (s : String) : List Char :=
  '"' :: s.toList.flatMap escapeChar ++ ['"']

def printInt (n : Int) : List Char :=
  if n < 0 then '-' :: Nat.toDigits 10 n.natAbs else Nat.toDigits 10 n.natAbs

mutual

def print : Json → List Char
  | null => ['n', 'u', 'l', 'l']
  | bool true => ['t', 'r', 'u', 'e']
  | bool false => ['f', 'a', 'l', 's', 'e']
  | whole n => printInt n.val
  | double x => x.compact.toList
  | string s => printString s
  | array items => '[' :: printItems items ++ [']']
  | object members => '\x7b' :: printMembers members ++ ['\x7d']

def printItems : List Json → List Char
  | [] => []
  | [j] => print j
  | j :: k :: rest => print j ++ ',' :: printItems (k :: rest)

def printMembers : List (String × Json) → List Char
  | [] => []
  | [(k, v)] => printString k ++ ':' :: print v
  | (k, v) :: m :: rest => printString k ++ ':' :: print v ++ ',' :: printMembers (m :: rest)

end

def render (j : Json) : String :=
  String.ofList j.print

end Json
end ReplicaClient
