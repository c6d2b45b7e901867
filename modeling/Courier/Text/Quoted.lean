import Courier.Text.Hidden
/-!
# Quoted text

A text as it is shown for inspection: between quotes, with a backslash before
quotes and backslashes, and with names or numbers for what does not show.
-/

namespace Courier.Quoted

/-- Whether a character does not show by itself. -/
def isHidden (c : Char) : Bool := Hidden.isUnseen c || Hidden.isJoining c

/-- The lower-case digit of a value below sixteen. -/
def hexDigit (v : Nat) : Char := if v < 10 then Char.ofNat (v + 48) else Char.ofNat (v + 87)

/-- The hexadecimal digits of a number below `16 ^ n`. -/
def hex : Nat → Nat → List Char
  | 0, _ => []
  | n + 1, v => (if v < 16 then [] else hex n (v / 16)) ++ [hexDigit (v % 16)]

def escape (c : Char) : List Char :=
  if c = '"' ∨ c = '\\' then ['\\', c]
  else if c = '\n' then ['\\', 'n']
  else if c = '\r' then ['\\', 'r']
  else if c = '\t' then ['\\', 't']
  else if c.toNat = 0 then ['\\', '0']
  else if isHidden c then ['\\', 'u', '\x7b'] ++ hex 6 c.toNat ++ ['\x7d']
  else [c]

def encode (s : String) : String := String.ofList ('"' :: s.toList.flatMap escape ++ ['"'])

end Courier.Quoted
