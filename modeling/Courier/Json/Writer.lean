import Courier.Duration
import Courier.Json.Value
/-!
# Writing JSON

Values are written without blanks. In a string, quotes, backslashes and control
characters are escaped and everything else stands for itself.
-/

namespace Courier.Json

/-- The lower-case digit of a value below sixteen. -/
def hexDigit (v : Nat) : Char := if v < 10 then Char.ofNat (v + 48) else Char.ofNat (v + 87)

/-- A character as it stands in a string. -/
def escape (c : Char) : List Char :=
  if c = '"' then ['\\', '"']
  else if c = '\\' then ['\\', '\\']
  else if c.toNat = 8 then ['\\', 'b']
  else if c.toNat = 12 then ['\\', 'f']
  else if c = '\n' then ['\\', 'n']
  else if c = '\r' then ['\\', 'r']
  else if c = '\t' then ['\\', 't']
  else if c.toNat < 32 then
    ['\\', 'u', '0', '0', hexDigit (c.toNat / 16), hexDigit (c.toNat % 16)]
  else [c]

def writeText (s : String) : List Char := '"' :: s.toList.flatMap escape ++ ['"']

/-- Items between brackets, with commas between them. -/
def enclose (left right : Char) : List (List Char) → List Char
  | [] => [left, right]
  | x :: r => left :: x ++ r.flatMap (',' :: ·) ++ [right]

namespace Value

mutual

def write : Value → List Char
  | .null => "null".toList
  | .bool true => "true".toList
  | .bool false => "false".toList
  | .number n => n.text.toList
  | .text s => writeText s
  | .list items => enclose '[' ']' (writeItems items)
  | .object members => enclose '\x7b' '\x7d' (writeMembers members)

def writeItems : List Value → List (List Char)
  | [] => []
  | v :: r => write v :: writeItems r

def writeMembers : List (String × Value) → List (List Char)
  | [] => []
  | (k, v) :: r => (writeText k ++ ':' :: write v) :: writeMembers r

end

def print (v : Value) : String := String.ofList v.write

def nat (n : Nat) : Value := .number (.natural (UInt64.ofNat n))

def ofDuration (d : Duration) : Value :=
  .object [("secs", .number (.natural d.secs)), ("nanos", nat d.nanos.val)]

end Value

end Courier.Json
