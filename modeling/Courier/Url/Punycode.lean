import Courier.Text.Split
/-!
# Punycode

A word of any characters becomes one of letters, digits and hyphens: its ASCII
characters in order, a hyphen if there are any, and then a number for each other
character, by ascending code point, that says how many places for a character
were passed over. A number is written in base 36, least digit first, and its
last digit is the first that lies below a threshold. The thresholds follow the
size of the numbers before.
-/

namespace Courier.Url.Punycode

def digit (v : Nat) : Char := if v < 26 then Char.ofNat (v + 97) else Char.ofNat (v + 22)

def value? (c : Char) : Option Nat :=
  if 'a' ≤ c ∧ c ≤ 'z' then some (c.toNat - 97)
  else if '0' ≤ c ∧ c ≤ '9' then some (c.toNat - 22)
  else none

/-- What the `k`th digit, from 1 on, has to lie below to be the last. -/
def threshold (bias k : Nat) : Nat := max 1 (min 26 (36 * k - bias))

theorem threshold_pos (bias k : Nat) : 1 ≤ threshold bias k := by simp only [threshold]; omega

/-- Divides by 35 while the number is above 455, and counts how often. -/
def shrink (n : Nat) : Nat × Nat :=
  if 455 < n then
    let (m, k) := shrink (n / 35)
    (m, k + 1)
  else (n, 0)
termination_by n

/-- The bias after a number, with as many characters placed. -/
def adapt (n placed : Nat) (first : Bool) : Nat :=
  let n := if first then n / 700 else n / 2
  let (m, k) := shrink (n + n / placed)
  36 * k + 36 * m / (m + 38)

/-! ## Writing -/

/-- The digits of a number from the `k`th on. -/
def digits (bias k n : Nat) : List Char :=
  let t := threshold bias k
  if n < t then [digit n]
  else digit (t + (n - t) % (36 - t)) :: digits bias (k + 1) ((n - t) / (36 - t))
termination_by n
decreasing_by
  have := threshold_pos bias k
  exact Nat.lt_of_le_of_lt (Nat.div_le_self _ _) (by omega)

/-- What has been written, the places passed over since, the bias and the characters placed. -/
structure Writer where
  written : List Char := []
  passed : Nat := 0
  bias : Nat := 72
  placed : Nat

/-- Passes a character while those of code point `n` are placed. -/
def Writer.pass (first n : Nat) (s : Writer) (c : Char) : Writer :=
  if c.toNat < n then { s with passed := s.passed + 1 }
  else if c.toNat = n then
    { written := s.written ++ digits s.bias 1 s.passed
      passed := 0
      bias := adapt s.passed (s.placed + 1) (s.placed = first)
      placed := s.placed + 1 }
  else s

/-- Places the characters of ascending code points; those below `m` are placed. -/
def Writer.place (first : Nat) (word : List Char) : Nat → Writer → List Nat → Writer
  | _, s, [] => s
  | m, s, n :: r =>
    let s := { s with passed := s.passed + (n - m) * (s.placed + 1) }
    let s := word.foldl (Writer.pass first n) s
    Writer.place first word (n + 1) { s with passed := s.passed + 1 } r

def isBasic (c : Char) : Bool := decide (c.toNat < 128)

def encode (word : List Char) : List Char :=
  let basic := word.filter isBasic
  let others := ((word.filter (!isBasic ·)).map Char.toNat).mergeSort.eraseDups
  let s := Writer.place basic.length word 128 { placed := basic.length } others
  (if basic.isEmpty then [] else basic ++ ['-']) ++ s.written

/-! ## Reading -/

/-- Reads a number whose next digit is the `k`th and counts `weight`; gives the rest too. -/
def number? (bias : Nat) : Nat → Nat → List Char → Option (Nat × List Char)
  | _, _, [] => none
  | k, weight, c :: r => do
    let v ← value? c
    let t := threshold bias k
    if v < t then return (v * weight, r)
    let (n, r) ← number? bias (k + 1) (weight * (36 - t)) r
    return (v * weight + n, r)

/-- Puts one character after another in its place. `n` is the code point of the last and `i` the
place after it. -/
def places? : Nat → Nat → Nat → Nat → List Char → List Char → Option (List Char)
  | _, _, _, _, word, [] => some word
  | 0, _, _, _, _, _ :: _ => none
  | fuel + 1, bias, n, i, word, cs => do
    let (passed, r) ← number? bias 1 1 cs
    let len := word.length + 1
    let n' := n + (i + passed) / len
    let i' := (i + passed) % len
    if h : n'.isValidChar then
      places? fuel (adapt passed len (i = 0)) n' (i' + 1)
        (word.insertIdx i' (Char.ofNatAux n' h)) r
    else none

/-- The word of a written form, which is in lower case. -/
def decode? (cs : List Char) : Option (List Char) :=
  match Split.atLast (· = '-') cs with
  | (none, _) | (some [], _) => places? cs.length 72 128 0 [] cs
  | (some basic, tail) =>
    if basic.all isBasic then places? tail.length 72 128 0 basic tail else none

end Courier.Url.Punycode
