/-!
# Decimal digits

A number is read digit by digit and has to stay below a bound.
-/

namespace Courier.Digits

def value? (c : Char) : Option Nat :=
  if '0' ≤ c ∧ c ≤ '9' then some (c.toNat - 48) else none

/-- Reads digits onto the number read so far, which stays below `bound`. -/
def read? (bound n : Nat) : List Char → Option Nat
  | [] => some n
  | c :: r =>
    match value? c with
    | none => none
    | some v => if n * 10 + v < bound then read? bound (n * 10 + v) r else none

theorem read?_lt {bound n m : Nat} {cs : List Char} (hn : n < bound)
    (h : read? bound n cs = some m) : m < bound := by
  induction cs generalizing n with
  | nil => simp only [read?, Option.some.injEq] at h; omega
  | cons c r ih =>
    simp only [read?] at h
    split at h
    · simp at h
    · split at h
      · next hlt => exact ih hlt h
      · simp at h

theorem value?_eq_some_iff {c : Char} {v : Nat} :
    value? c = some v ↔ c.isDigit = true ∧ v = c.toNat - '0'.toNat := by
  have hc : ('0' ≤ c ∧ c ≤ '9') ↔ c.isDigit = true := by
    simp [Char.isDigit, Char.le_def]
  unfold value?
  simp only [hc]
  split
  · next h =>
    rw [Option.some.injEq]
    exact ⟨fun hv => ⟨h, hv.symm⟩, fun hv => hv.2.symm⟩
  · next h => exact ⟨nofun, fun hv => absurd hv.1 h⟩

theorem le_ofDigitChars (n : Nat) (cs : List Char) : n ≤ Nat.ofDigitChars 10 cs n := by
  induction cs generalizing n with
  | nil => exact Nat.le_refl n
  | cons c r ih =>
    calc n ≤ 10 * n + (c.toNat - '0'.toNat) := by omega
      _ ≤ Nat.ofDigitChars 10 r _ := ih _

/-- All have to be digits, and the number they make below the bound. -/
theorem read?_eq_some_iff {bound n m : Nat} {cs : List Char} (hn : n < bound) :
    read? bound n cs = some m ↔
      (∀ c ∈ cs, c.isDigit = true) ∧ Nat.ofDigitChars 10 cs n = m ∧ m < bound := by
  induction cs generalizing n with
  | nil =>
    rw [read?, Option.some.injEq]
    constructor
    · intro h
      exact ⟨nofun, h, h ▸ hn⟩
    · intro h
      exact h.2.1
  | cons c r ih =>
    rw [List.forall_mem_cons, read?]
    cases hv : value? c with
    | none =>
      refine ⟨nofun, fun h => ?_⟩
      rw [value?_eq_some_iff.mpr ⟨h.1.1, rfl⟩] at hv
      cases hv
    | some v =>
      obtain ⟨hd, rfl⟩ := value?_eq_some_iff.mp hv
      dsimp only
      split
      · next hlt =>
        rw [ih hlt, and_iff_right hd, Nat.mul_comm n 10]
        rfl
      · next hge =>
        -- more digits make no smaller number
        have hle : n * 10 + (c.toNat - '0'.toNat) ≤ Nat.ofDigitChars 10 (c :: r) n := by
          rw [Nat.mul_comm]
          exact le_ofDigitChars _ r
        refine ⟨nofun, fun h => ?_⟩
        omega

end Courier.Digits
