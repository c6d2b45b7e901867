import Courier.Json.Binary
/-!
# JSON values

A number is an integer of 64 bits with or without a minus sign, or has 53
binary digits. An object keeps the order in which its names came; a name that
comes again gives the earlier place a new value.
-/

namespace Courier.Json

/-- A number as it is kept. -/
inductive Number where
  | natural (n : UInt64)
  /-- The integer `-n`, with `1 ≤ n ≤ 2 ^ 63`. -/
  | negative (n : Nat)
  /-- A number of either sign; zero has one too. -/
  | binary (negative : Bool) (magnitude : Binary)
  deriving DecidableEq, Repr

inductive Value where
  | null
  | bool (b : Bool)
  | number (n : Number)
  | text (s : String)
  | list (items : List Value)
  | object (members : List (String × Value))
  deriving Repr, Inhabited

abbrev Object := List (String × Value)

namespace Object

/-- Gives `name` a value, in its old place if it has one. -/
def insert (name : String) (v : Value) : Object → Object
  | [] => [(name, v)]
  | (n, w) :: r => if n = name then (n, v) :: r else (n, w) :: insert name v r

def get? (name : String) : Object → Option Value
  | [] => none
  | (n, v) :: r => if n = name then some v else get? name r

/-- The object of members as they came. -/
def ofList (l : List (String × Value)) : Object :=
  l.foldl (fun o (n, v) => insert n v o) []

end Object

/-! ## Texts -/

def Number.text : Number → String
  | .natural n => Nat.repr n.toNat
  | .negative n => "-" ++ Nat.repr n
  | .binary s x => Decimal.text ⟨s, x.shortest.1, x.shortest.2⟩

/-- A value as a complaint about its kind names it. -/
def Value.describe : Value → String
  | .null => "null"
  | .bool b => "boolean \u0060" ++ (if b then "true" else "false") ++ "\u0060"
  | .number (.binary s x) => "floating point \u0060" ++ (Number.binary s x).text ++ "\u0060"
  | .number n => "integer \u0060" ++ n.text ++ "\u0060"
  | .text s => "string \"" ++ s ++ "\""
  | .list _ => "sequence"
  | .object _ => "map"

end Courier.Json
