import Courier.Json.Decimal
/-!
# Numbers of 53 binary digits

A number with a fraction or an exponent is held with 53 binary digits and an
exponent of its own, as is one that is too large for 64 bits. What has more
digits is rounded to the nearest such number, and to the one with an even
mantissa if two are equally near. The text of a number has the fewest decimal
digits that are rounded back to it.
-/

namespace Courier.Json

/-- `mantissa * 2 ^ exponent`. -/
structure Binary where
  mantissa : Nat
  exponent : Int
  deriving DecidableEq, Repr, Inhabited

namespace Binary

def minExponent : Int := -1074

/-- Zero has the least exponent. -/
def zero : Binary := ⟨0, minExponent⟩

/-! ## Rounding -/

/-- The fraction `n / d` divided by a power of two, as a fraction. -/
def scale (n d : Nat) (e : Int) : Nat × Nat := (n * Nat.pow 2 (-e).toNat, d * Nat.pow 2 e.toNat)

/-- The integer nearest to a fraction, the even one if two are. -/
def nearestNat (n d : Nat) : Nat :=
  let q := n / d
  let r := n % d
  if d < 2 * r ∨ d = 2 * r ∧ q % 2 = 1 then q + 1 else q

/-- The exponent with which a fraction has 53 binary digits before the point, if it is not less
than the least. -/
def exponentFor (n d : Nat) : Int :=
  let e := max minExponent ((n.log2 : Int) - d.log2 - 53)
  let (a, b) := scale n d e
  if Nat.pow 2 53 ≤ a / b then e + 1 else e

/-- The number nearest to a fraction. -/
def nearest (n d : Nat) : Binary :=
  if n = 0 then zero
  else
    let e := exponentFor n d
    let (a, b) := scale n d e
    let m := nearestNat a b
    if m = Nat.pow 2 53 then ⟨Nat.pow 2 52, e + 1⟩ else ⟨m, e⟩

/-- Whether the exponent is beyond the greatest there is. -/
def isTooLarge (x : Binary) : Bool := decide (971 < x.exponent)

def mul (x y : Binary) : Binary :=
  let (a, b) := scale (x.mantissa * y.mantissa) 1 (-(x.exponent + y.exponent))
  nearest a b

def div (x y : Binary) : Binary :=
  let (a, b) := scale x.mantissa y.mantissa (y.exponent - x.exponent)
  nearest a b

def pow10 (k : Nat) : Binary := nearest (Nat.pow 10 k) 1

/-! ## Reading digits -/

/-- A number times a power of ten, unless it is too large. Small powers are divided by, in two
steps if need be. -/
def ofScientific? (n : Nat) (e : Int) : Option Binary :=
  let x := nearest n 1
  if n = 0 ∨ e < -616 then some zero
  else if 308 < e then none
  else if 0 ≤ e then
    let y := x.mul (pow10 e.toNat)
    if y.isTooLarge then none else some y
  else if -308 ≤ e then some (x.div (pow10 (-e).toNat))
  else some ((x.div (pow10 308)).div (pow10 (-e - 308).toNat))

/-- Reads digits onto the number read so far, up to the first that no longer fits 64 bits; the
number of digits left comes with it. -/
def readDigits (n : Nat) : List Nat → Nat × Nat
  | [] => (n, 0)
  | v :: r => if n * 10 + v < UInt64.size then readDigits (n * 10 + v) r else (n, r.length + 1)

/-- A number written as digits before and after a point, and a power of ten. -/
def ofDigits? (whole fraction : List Nat) (e : Int) : Option Binary :=
  let (n, dropped) := readDigits 0 whole
  let (n, left) := readDigits n fraction
  ofScientific? n (e + dropped - (fraction.length - left : Nat))

/-! ## Writing digits -/

/-- Compares `a * 10 ^ i` with `b * 2 ^ j`. -/
def compareScaled (a : Nat) (i : Int) (b : Nat) (j : Int) : Ordering :=
  compare (a * Nat.pow 10 i.toNat * Nat.pow 2 (-j).toNat)
    (b * Nat.pow 2 j.toNat * Nat.pow 10 (-i).toNat)

/-- Whether `a * 10 ^ i` is rounded to a number other than zero: it lies no farther than halfway
to the neighbours, the lower of which is nearer if the mantissa is the least of its exponent. A
point halfway is rounded to an even mantissa. -/
def isReadFrom (x : Binary) (a : Nat) (i : Int) : Bool :=
  let below := if x.mantissa = Nat.pow 2 52 ∧ minExponent < x.exponent then 1 else 2
  let low := compareScaled a i (4 * x.mantissa - below) (x.exponent - 2)
  let high := compareScaled a i (4 * x.mantissa + 2) (x.exponent - 2)
  if x.mantissa % 2 = 0 then low != .lt && high != .gt else low == .gt && high == .lt

/-- The least power of ten, as an exponent, that a number other than zero is below. -/
def places (x : Binary) : Int :=
  let (n, d) := scale x.mantissa 1 (-x.exponent)
  if d ≤ n then (Nat.repr (n / d)).length
  else 1 - ((Nat.repr ((d + n - 1) / n - 1)).length : Int)

/-- The nearer of the two multiples of `10 ^ i` beside a number that are rounded to it, if one
of them is; of two that are equally near, the even one. -/
def onGrid? (x : Binary) (i : Int) : Option Nat :=
  let (n, d) := scale x.mantissa 1 (-x.exponent)
  let a := n * Nat.pow 10 (-i).toNat / (d * Nat.pow 10 i.toNat)
  match x.isReadFrom a i, x.isReadFrom (a + 1) i with
  | true, true =>
    match compareScaled (2 * a + 1) i (2 * x.mantissa) x.exponent with
    | .gt => some a
    | .eq => some (a + a % 2)
    | .lt => some (a + 1)
  | true, false => some a
  | false, true => some (a + 1)
  | false, false => none

/-- Goes to finer grids until one has a point that is rounded to the number. The number itself
is on the last. -/
def search (x : Binary) : Nat → Int → Nat × Int
  | 0, _ =>
    (x.mantissa * Nat.pow 2 x.exponent.toNat * Nat.pow 5 (-x.exponent).toNat, min 0 x.exponent)
  | k + 1, i =>
    match x.onGrid? i with
    | some a => (a, i)
    | none => search x k (i - 1)

/-- The fewest digits that are rounded to the number. -/
def shortest (x : Binary) : Nat × Int :=
  if x.mantissa = 0 then (0, 0) else search x 17 (x.places - 1)

end Binary

end Courier.Json
