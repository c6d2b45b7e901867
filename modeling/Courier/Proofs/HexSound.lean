import Courier.Text.Hex
import Mathlib.Algebra.Group.Nat.Defs

/-!
# Hexadecimal numbers come back

The digits of a number write that number, and the leading zeros that are
trimmed from them are none of its value. Read are the digits of either case, at
least one, that write a number of 64 bits, with or without a plus sign before
them (`read_eq_ok_iff`).
-/

namespace Courier.Hex

/-! ## Digits -/

/-- A digit of either case and its value. -/
def Stands (c : Char) (v : Nat) : Prop :=
  "0123456789abcdef".toList[v]? = some c ∨ "0123456789ABCDEF".toList[v]? = some c

instance (c : Char) (v : Nat) : Decidable (Stands c v) := inferInstanceAs (Decidable (_ ∨ _))

variable {c : Char} {v n m width : Nat} {cs ds : List Char}

theorem Stands.lt (h : Stands c v) : v < 16 := by
  obtain h | h := h
  · exact (List.getElem?_eq_some_iff.mp h).1
  · exact (List.getElem?_eq_some_iff.mp h).1

theorem lt_of_value? (h : value? c = some v) : c.toNat < 103 := by
  unfold value? at h
  by_cases hc : c.toNat < 103
  · exact hc
  · dsimp only at h
    rw [if_neg (by omega), if_neg (by omega), if_neg (by omega)] at h
    cases h

theorem value?_eq_some_iff : value? c = some v ↔ Stands c v := by
  constructor
  · intro h
    have htable : ∀ n < 103, ∀ v ∈ value? (Char.ofNat n), Stands (Char.ofNat n) v := by decide
    have := htable c.toNat (lt_of_value? h)
    rw [Char.ofNat_toNat] at this
    exact this v h
  · intro h
    have hlower : ∀ v < 16, "0123456789abcdef".toList[v]?.bind value? = some v := by decide
    have hupper : ∀ v < 16, "0123456789ABCDEF".toList[v]?.bind value? = some v := by decide
    have hv := h.lt
    obtain hc | hc := h
    · rw [← hlower v hv, hc]
      rfl
    · rw [← hupper v hv, hc]
      rfl

theorem stands_digit (h : v < 16) : Stands (digit v) v :=
  (by decide : ∀ v < 16, Stands (digit v) v) v h

/-! ## Reading -/

/-- Digits, the most significant first, and the number they write. -/
inductive Writes : List Char → Nat → Prop where
  | nil : Writes [] 0
  | snoc {cs : List Char} {n : Nat} {c : Char} {v : Nat} :
      Writes cs n → Stands c v → Writes (cs ++ [c]) (n * 16 + v)

theorem Writes.readDigits (h : Writes cs n) (hn : n < UInt64.size) (ds : List Char) :
    readDigits 0 (cs ++ ds) = readDigits n ds := by
  induction h generalizing ds with
  | nil => rfl
  | @snoc cs n c v hw hc ih =>
    rw [List.append_assoc, ih (by omega), List.singleton_append, Hex.readDigits,
      value?_eq_some_iff.mpr hc]
    exact if_pos hn

theorem Writes.of_readDigits (h : Writes cs n) (hn : n < UInt64.size)
    (hread : Hex.readDigits n ds = .ok m) : Writes (cs ++ ds) m ∧ m < UInt64.size := by
  induction ds generalizing cs n with
  | nil =>
    cases hread
    rw [List.append_nil]
    exact ⟨h, hn⟩
  | cons c ds ih =>
    rw [Hex.readDigits] at hread
    split at hread
    · cases hread
    · next v hv =>
      split at hread
      · next hlt =>
        have := ih (h.snoc (value?_eq_some_iff.mp hv)) hlt hread
        rwa [List.append_assoc] at this
      · cases hread

theorem readDigits_zero_iff : readDigits 0 cs = .ok n ↔ Writes cs n ∧ n < UInt64.size := by
  constructor
  · intro h
    exact Writes.nil.of_readDigits (by decide) h
  · intro ⟨h, hn⟩
    have := h.readDigits hn []
    rwa [List.append_nil] at this

theorem map_readDigits_iff {w : UInt64} :
    (readDigits 0 cs).map UInt64.ofNat = .ok w ↔ Writes cs w.toNat := by
  constructor
  · intro h
    cases hread : readDigits 0 cs with
    | error e =>
      rw [hread] at h
      cases h
    | ok n =>
      rw [hread] at h
      obtain ⟨hw, hn⟩ := readDigits_zero_iff.mp hread
      cases h
      have hval : (UInt64.ofNat n).toNat = n := UInt64.toNat_ofNat_of_lt hn
      rwa [hval]
  · intro h
    rw [readDigits_zero_iff.mpr ⟨h, w.toNat_lt⟩]
    exact congrArg _ (UInt64.ofNat_toNat)

theorem not_writes_plus {w : UInt64} : ¬ Writes ('+' :: cs) w.toNat := by
  intro h
  rw [← map_readDigits_iff] at h
  cases h

theorem read_eq_ok_iff {w : UInt64} :
    read cs = .ok w ↔ ∃ ds, (cs = ds ∨ cs = '+' :: ds) ∧ ds ≠ [] ∧ Writes ds w.toNat := by
  fun_cases read cs with
  | case1 =>
    refine ⟨nofun, fun ⟨ds, hds, hne, _⟩ => ?_⟩
    obtain rfl | hds := hds
    · exact absurd rfl hne
    · cases hds
  | case2 =>
    refine ⟨nofun, fun ⟨ds, hds, hne, hw⟩ => ?_⟩
    obtain rfl | hds := hds
    · exact absurd hw not_writes_plus
    · cases hds
      exact absurd rfl hne
  | case3 r hr =>
    rw [map_readDigits_iff]
    constructor
    · intro h
      exact ⟨r, .inr rfl, hr, h⟩
    · intro ⟨ds, hds, _, hw⟩
      obtain rfl | hds := hds
      · exact absurd hw not_writes_plus
      · cases hds
        exact hw
  | case4 cs hnil _ hplus =>
    rw [map_readDigits_iff]
    constructor
    · intro h
      exact ⟨cs, .inl rfl, hnil, h⟩
    · intro ⟨ds, hds, _, hw⟩
      obtain rfl | hds := hds
      · exact hw
      · exact absurd hds (hplus ds)

/-! ## Writing -/

theorem writes_lowDigits (k n : Nat) : Writes (lowDigits k n) (n % 16 ^ k) := by
  induction k generalizing n with
  | zero =>
    rw [Nat.pow_zero, Nat.mod_one]
    exact .nil
  | succ k ih =>
    have hmod : n % 16 ^ (k + 1) = n / 16 % 16 ^ k * 16 + n % 16 := by
      rw [Nat.pow_succ', Nat.mod_mul, Nat.mul_comm, Nat.add_comm]
    rw [hmod]
    exact (ih (n / 16)).snoc (stands_digit (Nat.mod_lt n (by decide)))

theorem length_lowDigits (k n : Nat) : (lowDigits k n).length = k := by
  induction k generalizing n with
  | zero => rfl
  | succ k ih => simp [lowDigits, ih]

theorem le_length_trim (h : width ≤ cs.length) : width ≤ (trim width cs).length := by
  induction cs with
  | nil => exact h
  | cons c r ih =>
    unfold trim
    split
    · next hc => exact ih hc.2
    · exact h

theorem readDigits_trim : readDigits 0 (trim width cs) = readDigits 0 cs := by
  induction cs with
  | nil => rfl
  | cons c r ih =>
    unfold trim
    split
    · next hc =>
      rw [ih, hc.1]
      rfl
    · rfl

theorem writes_digits (width : Nat) (w : UInt64) : Writes (digits width w) w.toNat := by
  have hw : w.toNat < 16 ^ 16 := w.toNat_lt
  have h := writes_lowDigits 16 w.toNat
  rw [Nat.mod_eq_of_lt hw] at h
  have hread : readDigits 0 (digits width w) = .ok w.toNat := by
    rw [digits, readDigits_trim]
    exact readDigits_zero_iff.mpr ⟨h, hw⟩
  exact (readDigits_zero_iff.mp hread).1

theorem read_digits {w : UInt64} (hpos : 0 < width) (hle : width ≤ 16) :
    read (digits width w) = .ok w := by
  rw [read_eq_ok_iff]
  refine ⟨_, .inl rfl, ?_, writes_digits width w⟩
  have hlen : width ≤ (digits width w).length := le_length_trim (by rwa [length_lowDigits])
  exact List.length_pos_iff.mp (Nat.lt_of_lt_of_le hpos hlen)

end Courier.Hex
