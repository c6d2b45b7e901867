import Courier.Text.Split
/-!
# Tables of characters

A property of characters is a table of ranges of code points, in ascending
order. Where characters stand for words, a row of a table has the first of some
consecutive characters and their words, with space between them.
-/

namespace Courier.Table

/-- Whether a code point lies in one of some ascending ranges. -/
def within : List (Nat × Nat) → Nat → Bool
  | [], _ => false
  | (a, b) :: r, n => if n ≤ b then decide (a ≤ n) else within r n

/-- The first value in whose ranges a code point lies. -/
def value? (groups : List (Nat × List (Nat × Nat))) (n : Nat) : Option Nat :=
  (groups.find? fun g => within g.2 n).map (·.1)

def words (s : String) : List (List Char) :=
  (Split.partsAt (fun c => c = ' ' ∨ c = '\n') s.toList).filter fun w => !w.isEmpty

/-- The rows with their words taken apart. -/
def rows (t : List (Nat × String)) : List (Nat × List (List Char)) :=
  t.map fun (first, s) => (first, words s)

/-- The word for a code point, from rows in ascending order. -/
def word? : List (Nat × List (List Char)) → Nat → Option (List Char)
  | [], _ => none
  | (first, words) :: r, n => if n < first then none else words[n - first]?.or (word? r n)

end Courier.Table
