import Courier.Varint
import Mathlib.Algebra.Group.Nat.Defs

/-!
# Numbers in groups of seven bits

A number is written seven bits at a time, the low ones first, and every octet
but the last has its high bit set. `read` takes the number at the front of a
byte string exactly when one of at most ten octets and below 2^64 stands there
(`read_eq_some_iff`), so no byte string starts with two of them. What `write`
makes of a number is one that `read` takes exactly when it fits
(`isCode_write_iff`).
-/

namespace Courier.Varint

/-- The octets of a number. Zero groups at its high end are allowed. -/
inductive Groups : Bytes → Nat → Prop
  | last {b : UInt8} : b.toNat < 128 → Groups [b] b.toNat
  | more {b : UInt8} {w : Bytes} {n : Nat} :
      128 ≤ b.toNat → Groups w n → Groups (b :: w) (b.toNat - 128 + 128 * n)

structure IsCode (w : Bytes) (n : Nat) : Prop where
  groups : Groups w n
  short : w.length ≤ 10
  fits : n < 2 ^ 64

/-- No number stands at the front. -/
def Numberless (s : Bytes) : Prop := ∀ w n r, s = w ++ r → ¬ IsCode w n

theorem Groups.length_pos {w : Bytes} {n : Nat} (h : Groups w n) : 0 < w.length := by
  cases h <;> simp

/-! ## The front of a byte string -/

theorem exists_groups_of_readWithin : ∀ {k n : Nat} {s r : Bytes}, readWithin (k + 1) s = some (n, r) →
    ∃ w, s = w ++ r ∧ Groups w n ∧ w.length ≤ k + 1 ∧ n < 2 * 128 ^ k
  | _, _, [], _, h => by simp [readWithin] at h
  | 0, n, b :: s, r, h => by
    simp only [readWithin, Option.ite_none_right_eq_some, Option.some.injEq, Prod.mk.injEq] at h
    obtain ⟨hb, rfl, rfl⟩ := h
    exact ⟨[b], rfl, .last (by omega), by simp, by omega⟩
  | k + 1, n, b :: s, r, h => by
    unfold readWithin at h
    split at h
    · rename_i hb
      simp only [Option.some.injEq, Prod.mk.injEq] at h
      obtain ⟨rfl, rfl⟩ := h
      have : 0 < 128 ^ (k + 1) := Nat.pow_pos (by omega)
      exact ⟨[b], rfl, .last hb, by simp, by omega⟩
    · rename_i hb
      simp only [Option.map_eq_some_iff, Prod.mk.injEq] at h
      obtain ⟨⟨m, u⟩, hm, rfl, rfl⟩ := h
      obtain ⟨w, rfl, hw, hlen, hlt⟩ := exists_groups_of_readWithin hm
      refine ⟨b :: w, rfl, .more (by omega) hw, by simp; omega, ?_⟩
      have hb' := b.toNat_lt
      rw [Nat.pow_succ]
      omega

theorem readWithin_of_groups {w : Bytes} {n : Nat} (h : Groups w n) (r : Bytes) :
    ∀ {k : Nat}, w.length ≤ k + 1 → n < 2 * 128 ^ k → readWithin (k + 1) (w ++ r) = some (n, r) := by
  induction h with
  | @last b hb =>
    intro k _ hn
    cases k with
    | zero => simp only [List.singleton_append, readWithin]; rw [if_pos (by omega)]
    | succ k => simp [readWithin, hb]
  | @more b w n hb hw ih =>
    intro k hlen hn
    have hpos := hw.length_pos
    simp only [List.length_cons] at hlen
    cases k with
    | zero => omega
    | succ k =>
      rw [Nat.pow_succ] at hn
      have := ih (k := k) (by omega) (by omega)
      simp only [List.cons_append, readWithin, if_neg (Nat.not_lt.mpr hb), this, Option.map_some]

theorem read_eq_some_iff {s r : Bytes} {n : Nat} :
    read s = some (n, r) ↔ ∃ w, s = w ++ r ∧ IsCode w n := by
  constructor
  · intro h
    obtain ⟨w, hs, hw, hlen, hlt⟩ := exists_groups_of_readWithin h
    exact ⟨w, hs, hw, hlen, by omega⟩
  · rintro ⟨w, rfl, hw⟩
    exact readWithin_of_groups hw.groups r hw.short (by have := hw.fits; omega)

theorem IsCode.read_append {w : Bytes} {n : Nat} (h : IsCode w n) (r : Bytes) :
    read (w ++ r) = some (n, r) :=
  read_eq_some_iff.mpr ⟨w, rfl, h⟩

theorem read_eq_none_iff {s : Bytes} : read s = none ↔ Numberless s := by
  constructor
  · rintro h w n r rfl hw
    rw [hw.read_append] at h
    cases h
  · intro h
    rcases hr : read s with _ | ⟨n, r⟩
    · rfl
    · obtain ⟨w, hs, hw⟩ := read_eq_some_iff.mp hr
      exact absurd hw (h w n r hs)

/-! ## Whether a number ends among some octets -/

theorem exists_groups_of_any : ∀ {k : Nat} {s : Bytes}, (s.take k).any (fun b => b.toNat < 128) = true →
    ∃ w n r, s = w ++ r ∧ Groups w n ∧ w.length ≤ k
  | 0, _, h => by simp at h
  | _ + 1, [], h => by simp at h
  | k + 1, b :: s, h => by
    by_cases hb : b.toNat < 128
    · exact ⟨[b], b.toNat, s, rfl, .last hb, by simp⟩
    · simp only [List.take_succ_cons, List.any_cons, hb, decide_false, Bool.false_or] at h
      obtain ⟨w, n, r, rfl, hw, hlen⟩ := exists_groups_of_any h
      exact ⟨b :: w, _, r, rfl, .more (by omega) hw, by simp; omega⟩

theorem any_of_groups {w : Bytes} {n : Nat} (h : Groups w n) (r : Bytes) :
    ∀ {k : Nat}, w.length ≤ k → ((w ++ r).take k).any (fun b => b.toNat < 128) = true := by
  induction h with
  | @last b hb =>
    intro k hk
    cases k with
    | zero => simp at hk
    | succ k => simp [hb]
  | @more b w n hb hw ih =>
    intro k hk
    cases k with
    | zero => simp at hk
    | succ k =>
      simp only [List.length_cons] at hk
      simp [ih (k := k) (by omega)]

/-- A number has one reading, with or without a bound on its length. -/
theorem Groups.unique {w v : Bytes} {n m : Nat} (hw : Groups w n) (hv : Groups v m) {r u : Bytes}
    (h : w ++ r = v ++ u) : w = v ∧ n = m ∧ r = u := by
  induction hw generalizing v m with
  | @last b hb =>
    cases hv with
    | last _ => simp_all
    | more hc _ => simp at h; rw [h.1] at hb; omega
  | @more b w n hb hw ih =>
    cases hv with
    | last hc => simp at h; rw [h.1] at hb; omega
    | more hc hv =>
      simp only [List.cons_append, List.cons.injEq] at h
      obtain ⟨rfl, h⟩ := h
      obtain ⟨rfl, rfl, rfl⟩ := ih hv h
      exact ⟨rfl, rfl, rfl⟩

/-- The octets of a number are high but for the last. -/
theorem Groups.high {w : Bytes} {n : Nat} (h : Groups w n) (r : Bytes) :
    ∀ {k : Nat}, k < w.length → ∀ b ∈ (w ++ r).take k, 128 ≤ b.toNat := by
  induction h with
  | last hb =>
    intro k hk
    have hk0 : k = 0 := by simpa using hk
    subst hk0
    exact nofun
  | @more c w n hc hw ih =>
    intro k hk b hb
    cases k with
    | zero => cases hb
    | succ k =>
      rw [List.cons_append, List.take_succ_cons] at hb
      rcases List.mem_cons.1 hb with rfl | hb
      · exact hc
      · exact ih (Nat.lt_of_succ_lt_succ hk) b hb

/-! ## Writing a number -/

theorem groups_writeWithin : ∀ {k n : Nat}, n < 128 ^ (k + 1) →
    Groups (writeWithin k n) n ∧ (writeWithin k n).length ≤ k + 1
  | 0, n, h => by
    have hn : (UInt8.ofNat (n % 128)).toNat = n := by
      rw [UInt8.toNat_ofNat']
      omega
    have hg : Groups [UInt8.ofNat (n % 128)] (UInt8.ofNat (n % 128)).toNat := .last (by omega)
    rw [hn] at hg
    exact ⟨hg, Nat.le_refl _⟩
  | k + 1, n, h => by
    unfold writeWithin
    split
    · next hn =>
      have hb : (UInt8.ofNat n).toNat = n := by
        rw [UInt8.toNat_ofNat']
        omega
      have hg : Groups [UInt8.ofNat n] (UInt8.ofNat n).toNat := .last (by omega)
      rw [hb] at hg
      exact ⟨hg, by simp⟩
    · next hn =>
      have hlt : n / 128 < 128 ^ (k + 1) := by
        rw [Nat.div_lt_iff_lt_mul (by decide), ← Nat.pow_succ]
        exact h
      obtain ⟨hw, hlen⟩ := groups_writeWithin hlt
      have hb : (UInt8.ofNat (n % 128 + 128)).toNat = n % 128 + 128 := by
        rw [UInt8.toNat_ofNat']
        omega
      have hg := Groups.more (b := UInt8.ofNat (n % 128 + 128)) (by omega) hw
      rw [hb, Nat.add_sub_cancel, Nat.mod_add_div] at hg
      exact ⟨hg, by rw [List.length_cons]; omega⟩

/-- As many groups are written as the number has digits to the base 128. -/
theorem lt_pow_log2 (n : Nat) : n < 128 ^ (n.log2 / 7 + 1) := by
  have hlog : n < 2 ^ (n.log2 + 1) := Nat.lt_log2_self
  have hle : 2 ^ (n.log2 + 1) ≤ 2 ^ (7 * (n.log2 / 7 + 1)) :=
    Nat.pow_le_pow_right (by decide) (by omega)
  rw [Nat.pow_mul] at hle
  exact Nat.lt_of_lt_of_le hlog hle

theorem groups_write (n : Nat) : Groups (write n) n := (groups_writeWithin (lt_pow_log2 n)).1

theorem isCode_write_iff {n : Nat} : IsCode (write n) n ↔ n < 2 ^ 64 := by
  refine ⟨IsCode.fits, fun h => ⟨groups_write n, ?_, h⟩⟩
  have hlog : n.log2 < 64 := by
    by_cases hn : n = 0
    · subst hn
      decide
    · exact (Nat.log2_lt hn).2 h
  have hlen : (write n).length ≤ n.log2 / 7 + 1 := (groups_writeWithin (lt_pow_log2 n)).2
  omega

end Courier.Varint
