/-!
# Durations

Whole seconds of 64 bits and a fraction of nanoseconds. The text form uses the
largest unit with a whole part, and a fraction without trailing zeros.
-/

namespace Courier

structure Duration where
  secs : UInt64
  nanos : Fin 1000000000
  deriving DecidableEq, Repr, Inhabited

namespace Duration

def zero : Duration := ⟨0, 0⟩

def max : Duration := ⟨0xffffffffffffffff, 999999999⟩

def ofSecs (n : UInt64) : Duration := ⟨n, 0⟩

def total (d : Duration) : Nat := d.secs.toNat * 1000000000 + d.nanos.val

/-- Nanoseconds; what does not fit wraps around. -/
def ofNanos (n : Nat) : Duration :=
  ⟨UInt64.ofNat (n / 1000000000), Fin.ofNat 1000000000 n⟩

def ofMillis (n : Nat) : Duration := ofNanos (n * 1000000)

def isZero (d : Duration) : Bool := d = zero

/-- The `width` digits of a fraction, without trailing zeros. -/
def fractionDigits : Nat → Nat → List Char
  | 0, _ => []
  | w + 1, n =>
    if n % 10 = 0 then fractionDigits w (n / 10)
    else fractionDigitsAll w (n / 10) ++ [Char.ofNat (n % 10 + 48)]
where
  fractionDigitsAll : Nat → Nat → List Char
    | 0, _ => []
    | w + 1, n => fractionDigitsAll w (n / 10) ++ [Char.ofNat (n % 10 + 48)]

/-- A number with a fraction of `width` places, and its unit. -/
def decimal (whole width fraction : Nat) (unit : String) : String :=
  match fractionDigits width fraction with
  | [] => Nat.repr whole ++ unit
  | ds => Nat.repr whole ++ "." ++ String.ofList ds ++ unit

def text (d : Duration) : String :=
  let n := d.nanos.val
  if d.secs ≠ 0 then decimal d.secs.toNat 9 n "s"
  else if 1000000 ≤ n then decimal (n / 1000000) 6 (n % 1000000) "ms"
  else if 1000 ≤ n then decimal (n / 1000) 3 (n % 1000) "µs"
  else decimal n 0 0 "ns"

end Duration

end Courier
