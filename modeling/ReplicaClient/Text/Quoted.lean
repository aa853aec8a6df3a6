import ReplicaClient.Text.Visible

/-!
# Quoted text

A text in diagnostics stands between double quotes.  Quotes and backslashes are escaped, the
four common control characters have short forms, and every other character without a visible
form is given by its code point.
-/

namespace ReplicaClient
namespace Text

def quoteChar (c : Char) : List Char :=
  if c = '"' then ['\\', '"']
  else if c = '\\' then ['\\', '\\']
  else if c = '\n' then ['\\', 'n']
  else if c = '\r' then ['\\', 'r']
  else if c = '\t' then ['\\', 't']
  else if c.toNat = 0 then ['\\', '0']
  else if isVisible c then [c]
  else ['\\', 'u', '\x7b'] ++ Nat.toDigits 16 c.toNat ++ ['\x7d']

def quote (s : String) : String :=
  String.ofList ('"' :: s.toList.flatMap quoteChar ++ ['"'])

end Text
end ReplicaClient
