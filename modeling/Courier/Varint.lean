import Courier.Bytes
/-!
# Variable length integers

Little-endian groups of seven bits, the high bit set on every octet but the
last. A number takes at most ten octets and fits 64 bits, so a tenth octet is
zero or one. Superfluous zero groups are accepted by the reader; the writer
never makes one. It writes any number, but one that does not fit is refused by
the reader.
-/

namespace Courier.Varint

def maxLength : Nat := 10

/-- Reads a number of at most `k` octets; the last of the ten has one bit. -/
def readWithin : Nat → Bytes → Option (Nat × Bytes)
  | 0, _ => none
  | _, [] => none
  | 1, b :: r => if b.toNat < 2 then some (b.toNat, r) else none
  | k + 2, b :: r =>
    if b.toNat < 128 then some (b.toNat, r)
    else (readWithin (k + 1) r).map fun (v, rest) => (b.toNat - 128 + 128 * v, rest)

def read (s : Bytes) : Option (Nat × Bytes) := readWithin maxLength s

/-- What follows a number has no part in the reading of it. -/
theorem readWithin_append {k n : Nat} {s r : Bytes} (h : readWithin k s = some (n, r))
    (t : Bytes) : readWithin k (s ++ t) = some (n, r ++ t) := by
  induction k generalizing s n with
  | zero => simp [readWithin] at h
  | succ k ih =>
    cases s with
    | nil => simp [readWithin] at h
    | cons b s =>
      cases k with
      | zero =>
        by_cases hb : b.toNat < 2 <;> simp_all [readWithin]
      | succ k =>
        by_cases hb : b.toNat < 128
        · simp_all [readWithin]
        · simp only [readWithin, hb, if_false, Option.map_eq_some_iff, Prod.mk.injEq,
            List.cons_append] at h ⊢
          obtain ⟨⟨v, u⟩, hv, rfl, rfl⟩ := h
          exact ⟨(v, u ++ t), ih hv, rfl, rfl⟩

/-- The shortest encoding of a number in at most `k + 1` groups. -/
def writeWithin : Nat → Nat → Bytes
  | 0, n => [UInt8.ofNat (n % 128)]
  | k + 1, n =>
    if n < 128 then [UInt8.ofNat n]
    else UInt8.ofNat (n % 128 + 128) :: writeWithin k (n / 128)

def write (n : Nat) : Bytes := writeWithin (n.log2 / 7) n

end Courier.Varint
