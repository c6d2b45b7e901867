/-!
# Decimals

A number as digits and a power of ten, and its text: positional where few zeros
are needed for that, and with an exponent otherwise.
-/

namespace Courier.Json

/-- `digits * 10 ^ exponent`, below zero if `negative`. -/
structure Decimal where
  negative : Bool
  digits : Nat
  exponent : Int
  deriving DecidableEq, Repr

namespace Decimal

/-- Moves factors of ten from the digits into the exponent. -/
def reduceWithin : Nat → Nat → Int → Nat × Int
  | 0, d, e => (d, e)
  | k + 1, d, e => if d ≠ 0 ∧ d % 10 = 0 then reduceWithin k (d / 10) (e + 1) else (d, e)

/-- Digits with the point after the first `n`, and at least one digit on either side of it. -/
def positional (ds : List Char) (n : Int) : List Char :=
  if n ≤ 0 then '0' :: '.' :: List.replicate (-n).toNat '0' ++ ds
  else
    let whole := ds ++ List.replicate (n.toNat - ds.length) '0'
    let fraction := whole.drop n.toNat
    whole.take n.toNat ++ '.' :: if fraction.isEmpty then ['0'] else fraction

/-- Digits with the point after the first, if there are more, and a power of ten. -/
def scientific (ds : List Char) (e : Int) : List Char :=
  let mantissa := match ds with
    | [] => []
    | [d] => [d]
    | d :: r => d :: '.' :: r
  mantissa ++ 'e' :: (if e < 0 then '-' else '+') :: (Nat.repr e.natAbs).toList

/-- The text is positional if the power of ten of the first digit is at least -5 and below 16. -/
def text (x : Decimal) : String :=
  let (d, e) := reduceWithin x.digits.log2 x.digits x.exponent
  let ds := (Nat.repr d).toList
  let lead := if d = 0 then 0 else e + ds.length - 1
  let sign := if x.negative then "-" else ""
  sign ++ String.ofList
    (if -5 ≤ lead ∧ lead < 16 then positional ds (lead + 1) else scientific ds lead)

end Decimal

end Courier.Json
