import Courier.Bytes
import Courier.Text.Hex
/-!
# Percent signs

An octet may be written as a percent sign and two upper-case hexadecimal digits.
Reading takes digits of either case and leaves a percent sign without two digits
as it is.
-/

namespace Courier.Percent

/-- The upper-case digit of a value below sixteen. -/
def digit (v : Nat) : Char := if v < 10 then Char.ofNat (v + 48) else Char.ofNat (v + 55)

def octet (b : UInt8) : List Char := ['%', digit (b.toNat / 16), digit (b.toNat % 16)]

/-- Writes the octets of the characters that `special` picks out behind percent signs. -/
def encode (special : Char → Bool) (cs : List Char) : List Char :=
  cs.flatMap fun c => if special c then (String.utf8EncodeChar c).flatMap octet else [c]

/-- The octets that are written. -/
def decode : List Char → Bytes
  | [] => []
  | '%' :: a :: b :: r =>
    match Hex.value? a, Hex.value? b with
    | some x, some y => UInt8.ofNat (x * 16 + y) :: decode r
    | _, _ => String.utf8EncodeChar '%' ++ decode (a :: b :: r)
  | c :: r => String.utf8EncodeChar c ++ decode r

theorem value?_digit (v : Fin 16) : Hex.value? (digit v) = some v.val := by
  revert v; decide

/-- An octet that was written is read. -/
theorem decode_octet (b : UInt8) (r : List Char) : decode (octet b ++ r) = b :: decode r := by
  have hb := b.toNat_lt
  have hi := value?_digit ⟨b.toNat / 16, by omega⟩
  have lo := value?_digit ⟨b.toNat % 16, by omega⟩
  simp only at hi lo
  have hsum : b.toNat / 16 * 16 + b.toNat % 16 = b.toNat := by omega
  simp [octet, decode, hi, lo, hsum]

end Courier.Percent
