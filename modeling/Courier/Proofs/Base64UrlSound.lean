import Courier.Text.Base64Url
import Mathlib.Algebra.Order.Ring.Nat
import Mathlib.Data.List.Basic

/-!
# Base64url text comes back

Every value below 64 has a symbol of its own, which is neither the padding nor
outside seven bits. A byte string is written in groups of three octets, and the
reader takes the same groups, so the text of a byte string reads as that byte
string (`decode_ofText_encode`), and no other text does
(`decode_ofText_eq_ok_iff`). It is the text whose symbols have the bits of the
octets and zeros after them for less than one symbol (`spells_iff`).
-/

namespace Courier

theorem of_bind_eq_ok {ε α β : Type} {m : Except ε α} {f : α → Except ε β} {b : β}
    (h : m >>= f = .ok b) : ∃ a, m = .ok a ∧ f a = .ok b := by
  cases m with
  | error e => cases h
  | ok a => exact ⟨a, rfl, h⟩

namespace Base64Url

/-! ## Symbols -/

theorem value?_symbol {v : Nat} (h : v < 64) : value? (symbol v) = some v :=
  (by decide : ∀ v < 64, value? (symbol v) = some v) v h

theorem symbol_ne_padding {v : Nat} (h : v < 64) : symbol v ≠ padding :=
  (by decide : ∀ v < 64, symbol v ≠ padding) v h

theorem symbol_lt {v : Nat} (h : v < 64) : (symbol v).toNat < 128 :=
  (by decide : ∀ v < 64, (symbol v).toNat < 128) v h

theorem valueAt_symbol (offset : Nat) {v : Nat} (h : v < 64) : valueAt offset (symbol v) = .ok v := by
  simp only [valueAt, value?_symbol h]

/-- The symbols of three octets, and the rest of a longer string. -/
theorem symbols_cons₃ (a b c : UInt8) (r : Bytes) :
    symbols (a :: b :: c :: r) = symbol (a.toNat / 4) :: symbol (a.toNat % 4 * 16 + b.toNat / 16) ::
      symbol (b.toNat % 16 * 4 + c.toNat / 64) :: symbol (c.toNat % 64) :: symbols r := rfl

theorem symbols_lt (b : Bytes) : ∀ s ∈ symbols b, s.toNat < 128 := by
  fun_induction symbols b with
  | case1 => simp
  | case2 a =>
    have := a.toNat_lt
    simp only [List.mem_cons, List.not_mem_nil, or_false, forall_eq_or_imp, forall_eq]
    exact ⟨symbol_lt (by omega), symbol_lt (by omega)⟩
  | case3 a b =>
    have := a.toNat_lt
    have := b.toNat_lt
    simp only [List.mem_cons, List.not_mem_nil, or_false, forall_eq_or_imp, forall_eq]
    exact ⟨symbol_lt (by omega), symbol_lt (by omega), symbol_lt (by omega)⟩
  | case4 a b c r ih =>
    have := a.toNat_lt
    have := b.toNat_lt
    have := c.toNat_lt
    simp only [List.mem_cons, forall_eq_or_imp]
    exact ⟨symbol_lt (by omega), symbol_lt (by omega), symbol_lt (by omega), symbol_lt (by omega), ih⟩

theorem symbols_length_mod : ∀ b : Bytes, (symbols b).length % 4 ≠ 1
  | [] => (by decide : 0 % 4 ≠ 1)
  | [_] => (by decide : 2 % 4 ≠ 1)
  | [_, _] => (by decide : 3 % 4 ≠ 1)
  | a :: b :: c :: r => by
    rw [symbols_cons₃]
    simpa only [List.length_cons, Nat.add_mod_right, Nat.add_assoc] using symbols_length_mod r

theorem symbols_eq_nil : ∀ {b : Bytes}, symbols b = [] ↔ b = []
  | [] => ⟨fun _ => rfl, fun _ => rfl⟩
  | [_] | [_, _] | _ :: _ :: _ :: _ => ⟨nofun, nofun⟩

/-! ## Groups -/

theorem lastValues_symbols (offset : Nat) : ∀ (i : Nat) (vs : List Nat), (∀ v ∈ vs, v < 64) →
    lastValues offset i none (vs.map symbol) = .ok (vs, false)
  | _, [], _ => rfl
  | i, v :: vs, h => by
    rw [List.forall_mem_cons] at h
    simp only [List.map_cons, lastValues, symbol_ne_padding h.1, value?_symbol h.1, if_false,
      lastValues_symbols offset (i + 1) vs h.2, Except.map]

theorem ofNat_eq {n : Nat} {a : UInt8} (h : n = a.toNat) : UInt8.ofNat n = a := by
  rw [h, UInt8.ofNat_toNat]

section
variable (offset : Nat) (a b c : UInt8)

theorem lastGroup_one : lastGroup offset (symbols [a]) = .ok [a] := by
  have ha := a.toNat_lt
  have hv := lastValues_symbols offset 0 [a.toNat / 4, a.toNat % 4 * 16] (by simp; omega)
  simp only [List.map_cons, List.map_nil] at hv
  have : UInt8.ofNat (a.toNat / 4 * 4 + a.toNat % 4 * 16 / 16) = a := ofNat_eq (by omega)
  simp only [symbols, lastGroup, hv, this]
  rw [if_neg (by simp), if_neg (by simp), if_pos (Nat.mul_mod_left _ _)]

theorem lastGroup_two : lastGroup offset (symbols [a, b]) = .ok [a, b] := by
  have ha := a.toNat_lt
  have hb := b.toNat_lt
  have hv := lastValues_symbols offset 0
    [a.toNat / 4, a.toNat % 4 * 16 + b.toNat / 16, b.toNat % 16 * 4] (by simp; omega)
  simp only [List.map_cons, List.map_nil] at hv
  have h₁ : UInt8.ofNat (a.toNat / 4 * 4 + (a.toNat % 4 * 16 + b.toNat / 16) / 16) = a :=
    ofNat_eq (by omega)
  have h₂ : UInt8.ofNat ((a.toNat % 4 * 16 + b.toNat / 16) % 16 * 16 + b.toNat % 16 * 4 / 4) = b :=
    ofNat_eq (by omega)
  simp only [symbols, lastGroup, hv, h₁, h₂]
  rw [if_neg (by simp), if_neg (by simp), if_pos (Nat.mul_mod_left _ _)]

/-- The octets of four values, the values being those of three octets. -/
theorem octets_of_values :
    UInt8.ofNat (a.toNat / 4 * 4 + (a.toNat % 4 * 16 + b.toNat / 16) / 16) = a ∧
    UInt8.ofNat ((a.toNat % 4 * 16 + b.toNat / 16) % 16 * 16 +
      (b.toNat % 16 * 4 + c.toNat / 64) / 4) = b ∧
    UInt8.ofNat ((b.toNat % 16 * 4 + c.toNat / 64) % 4 * 64 + c.toNat % 64) = c := by
  have hb := b.toNat_lt
  have hc := c.toNat_lt
  exact ⟨ofNat_eq (by omega), ofNat_eq (by omega), ofNat_eq (by omega)⟩

theorem lastGroup_three : lastGroup offset (symbols [a, b, c]) = .ok [a, b, c] := by
  have ha := a.toNat_lt
  have hb := b.toNat_lt
  have hc := c.toNat_lt
  have hv := lastValues_symbols offset 0 [a.toNat / 4, a.toNat % 4 * 16 + b.toNat / 16,
    b.toNat % 16 * 4 + c.toNat / 64, c.toNat % 64] (by simp; omega)
  simp only [List.map_cons, List.map_nil] at hv
  obtain ⟨h₁, h₂, h₃⟩ := octets_of_values a b c
  simp only [symbols, lastGroup, hv, h₁, h₂, h₃]
  rw [if_neg (by simp), if_neg (by simp)]

/-- A group that is not the last is read on its own. -/
theorem groups_cons₃ {r : Bytes} (hr : r ≠ []) :
    groups offset (symbols (a :: b :: c :: r)) =
      (groups (offset + 4) (symbols r)).map fun s => a :: b :: c :: s := by
  have ha := a.toNat_lt
  have hb := b.toNat_lt
  have hc := c.toNat_lt
  obtain ⟨h₁, h₂, h₃⟩ := octets_of_values a b c
  obtain ⟨e, s, hs⟩ : ∃ e s, symbols r = e :: s := by
    cases h : symbols r with
    | nil => rw [symbols_eq_nil] at h; exact absurd h hr
    | cons e s => exact ⟨e, s, rfl⟩
  rw [symbols_cons₃, hs, groups, valueAt_symbol _ (by omega), valueAt_symbol _ (by omega),
    valueAt_symbol _ (by omega), valueAt_symbol _ (by omega)]
  cases groups (offset + 4) (e :: s) with
  | error f => rfl
  | ok t => simp only [bind, Except.bind, pure, Except.pure, Except.map, h₁, h₂, h₃]

end

theorem groups_symbols (b : Bytes) : ∀ offset, b ≠ [] → groups offset (symbols b) = .ok b := by
  fun_induction symbols b with
  | case1 => exact fun _ h => absurd rfl h
  | case2 a => exact fun offset _ => lastGroup_one offset a
  | case3 a b => exact fun offset _ => lastGroup_two offset a b
  | case4 a b c r ih =>
    intro offset _
    by_cases hr : r = []
    · subst hr
      exact lastGroup_three offset a b c
    · rw [← symbols_cons₃, groups_cons₃ offset a b c hr, ih (offset + 4) hr]
      rfl

/-! ## Texts -/

theorem utf8EncodeChar_of_lt {b : UInt8} (h : b.toNat < 128) :
    String.utf8EncodeChar (Char.ofNat b.toNat) = [b] := by
  have := (by decide : ∀ n < 128, String.utf8EncodeChar (Char.ofNat n) = [UInt8.ofNat n]) b.toNat h
  rwa [UInt8.ofNat_toNat] at this

/-- A text of seven bit characters has one octet for each. -/
theorem ofText_ofList {s : Bytes} (h : ∀ b ∈ s, b.toNat < 128) :
    Bytes.ofText (String.ofList (s.map fun b => Char.ofNat b.toNat)) = s := by
  simp only [Bytes.ofText, String.toList_ofList, List.flatMap_map]
  induction s with
  | nil => rfl
  | cons b s ih =>
    rw [List.forall_mem_cons] at h
    rw [List.flatMap_cons, ih h.2, utf8EncodeChar_of_lt h.1]
    rfl

theorem decode_symbols (b : Bytes) : decode (symbols b) = .ok b := by
  rw [decode]
  cases hl : (symbols b).getLast? with
  | none =>
    rw [List.getLast?_eq_none_iff, symbols_eq_nil] at hl
    rw [hl]
  | some s =>
    have hb : b ≠ [] := by
      rintro rfl
      simp [symbols] at hl
    simp only
    rw [if_neg (fun h => symbols_length_mod b h.1), groups_symbols b 0 hb]

theorem decode_ofText_encode (b : Bytes) : decode (Bytes.ofText (encode b)) = .ok b := by
  rw [encode, ofText_ofList (symbols_lt b), decode_symbols]

/-! ## Only written texts are read -/

theorem symbol_of_value? {b : UInt8} {v : Nat} (h : value? b = some v) : v < 64 ∧ b = symbol v := by
  simp only [value?] at h
  unfold symbol
  split at h
  · cases h
    refine ⟨by omega, ?_⟩
    rw [if_pos (by omega)]
    exact (ofNat_eq (by omega)).symm
  split at h
  · cases h
    refine ⟨by omega, ?_⟩
    rw [if_neg (by omega), if_pos (by omega)]
    exact (ofNat_eq (by omega)).symm
  split at h
  · cases h
    refine ⟨by omega, ?_⟩
    rw [if_neg (by omega), if_neg (by omega), if_pos (by omega)]
    exact (ofNat_eq (by omega)).symm
  split at h
  · next hb =>
    cases h
    exact ⟨by omega, UInt8.toNat_inj.mp hb⟩
  split at h
  · next hb =>
    cases h
    exact ⟨by omega, UInt8.toNat_inj.mp hb⟩
  · cases h

theorem eq_symbol_of_valueAt {offset : Nat} {b : UInt8} {v : Nat} (h : valueAt offset b = .ok v) :
    v < 64 ∧ b = symbol v := by
  unfold valueAt at h
  split at h
  · next w hw =>
    cases h
    exact symbol_of_value? hw
  · cases h

/-- After a padding symbol nothing but more of them is taken. -/
theorem padded_of_lastValues {offset j : Nat} {p : Bool} : ∀ {i : Nat} {g : Bytes} {vs : List Nat},
    lastValues offset i (some j) g = .ok (vs, p) → p = true
  | _, [], _, h => by
    cases h
    rfl
  | i, b :: g, vs, h => by
    rw [lastValues] at h
    split at h
    · split at h
      · cases h
      · exact padded_of_lastValues h
    · cases h

theorem eq_symbols_of_lastValues {offset : Nat} : ∀ {i : Nat} {g : Bytes} {vs : List Nat},
    lastValues offset i none g = .ok (vs, false) → (∀ v ∈ vs, v < 64) ∧ g = vs.map symbol
  | _, [], _, h => by
    cases h
    exact ⟨nofun, rfl⟩
  | i, b :: g, vs, h => by
    rw [lastValues] at h
    split at h
    · split at h
      · cases h
      · cases padded_of_lastValues h
    · cases hv : value? b with
      | none =>
        rw [hv] at h
        cases h
      | some v =>
        cases hl : lastValues offset (i + 1) none g with
        | error e =>
          simp only [hv, hl] at h
          cases h
        | ok r =>
          obtain ⟨ws, p⟩ := r
          simp only [hv, hl] at h
          cases h
          obtain ⟨hlt, rfl⟩ := symbol_of_value? hv
          obtain ⟨hws, rfl⟩ := eq_symbols_of_lastValues hl
          exact ⟨List.forall_mem_cons.mpr ⟨hlt, hws⟩, rfl⟩

theorem toNat_ofNat {n : Nat} (h : n < 256) : (UInt8.ofNat n).toNat = n := UInt8.toNat_ofNat_of_lt' h

section
variable {x y z w : Nat} (hx : x < 64) (hy : y < 64) (hz : z < 64) (hw : w < 64)
include hx hy

theorem symbols_two_values (h : y % 16 = 0) :
    symbols [UInt8.ofNat (x * 4 + y / 16)] = [symbol x, symbol y] := by
  have h₁ : (x * 4 + y / 16) / 4 = x := by omega
  have h₂ : (x * 4 + y / 16) % 4 * 16 = y := by omega
  rw [symbols, toNat_ofNat (by omega), h₁, h₂]

include hz

theorem symbols_three_values (h : z % 4 = 0) :
    symbols [UInt8.ofNat (x * 4 + y / 16), UInt8.ofNat (y % 16 * 16 + z / 4)] =
      [symbol x, symbol y, symbol z] := by
  have h₁ : (x * 4 + y / 16) / 4 = x := by omega
  have h₂ : (x * 4 + y / 16) % 4 * 16 + (y % 16 * 16 + z / 4) / 16 = y := by omega
  have h₃ : (y % 16 * 16 + z / 4) % 16 * 4 = z := by omega
  rw [symbols, toNat_ofNat (by omega), toNat_ofNat (by omega), h₁, h₂, h₃]

include hw

theorem symbols_four_values (r : Bytes) :
    symbols (UInt8.ofNat (x * 4 + y / 16) :: UInt8.ofNat (y % 16 * 16 + z / 4) ::
      UInt8.ofNat (z % 4 * 64 + w) :: r) = symbol x :: symbol y :: symbol z :: symbol w :: symbols r := by
  have h₁ : (x * 4 + y / 16) / 4 = x := by omega
  have h₂ : (x * 4 + y / 16) % 4 * 16 + (y % 16 * 16 + z / 4) / 16 = y := by omega
  have h₃ : (y % 16 * 16 + z / 4) % 16 * 4 + (z % 4 * 64 + w) / 64 = z := by omega
  have h₄ : (z % 4 * 64 + w) % 64 = w := by omega
  rw [symbols, toNat_ofNat (by omega), toNat_ofNat (by omega), toNat_ofNat (by omega), h₁, h₂, h₃, h₄]

end

theorem eq_symbols_of_lastGroup {offset : Nat} {g b : Bytes} (hg : g.length ≤ 4)
    (h : lastGroup offset g = .ok b) : g = symbols b := by
  cases hv : lastValues offset 0 none g with
  | error e =>
    rw [lastGroup, hv] at h
    cases h
  | ok r =>
    obtain ⟨vs, padded⟩ := r
    simp only [lastGroup, hv] at h
    split at h
    · cases h
    · next hlen =>
      split at h
      · cases h
      · next hpad =>
        rw [Bool.not_eq_true] at hpad
        subst hpad
        obtain ⟨hlt, rfl⟩ := eq_symbols_of_lastValues hv
        rw [List.length_map] at hg
        -- one to four values, of which one alone stands for nothing
        rcases vs with _ | ⟨x, _ | ⟨y, _ | ⟨z, _ | ⟨w, _ | ⟨v, vs⟩⟩⟩⟩⟩
        · cases h
          rfl
        · exact absurd ⟨by simp, by simp⟩ hlen
        · simp only [List.forall_mem_cons] at hlt
          simp only at h
          split at h
          · next hlow =>
            cases h
            exact (symbols_two_values hlt.1 hlt.2.1 hlow).symm
          · cases h
        · simp only [List.forall_mem_cons] at hlt
          simp only at h
          split at h
          · next hlow =>
            cases h
            exact (symbols_three_values hlt.1 hlt.2.1 hlt.2.2.1 hlow).symm
          · cases h
        · simp only [List.forall_mem_cons] at hlt
          cases h
          exact (symbols_four_values hlt.1 hlt.2.1 hlt.2.2.1 hlt.2.2.2.1 []).symm
        · simp only [List.length_cons] at hg
          omega

theorem eq_symbols_of_groups {offset : Nat} {s b : Bytes} (h : groups offset s = .ok b) :
    s = symbols b := by
  fun_induction groups offset s generalizing b with
  | case1 offset a₁ a₂ a₃ a₄ a₅ r ih =>
    obtain ⟨x, hx, h⟩ := of_bind_eq_ok h
    obtain ⟨y, hy, h⟩ := of_bind_eq_ok h
    obtain ⟨z, hz, h⟩ := of_bind_eq_ok h
    obtain ⟨w, hw, h⟩ := of_bind_eq_ok h
    obtain ⟨t, ht, h⟩ := of_bind_eq_ok h
    cases h
    obtain ⟨hx', rfl⟩ := eq_symbol_of_valueAt hx
    obtain ⟨hy', rfl⟩ := eq_symbol_of_valueAt hy
    obtain ⟨hz', rfl⟩ := eq_symbol_of_valueAt hz
    obtain ⟨hw', rfl⟩ := eq_symbol_of_valueAt hw
    rw [symbols_four_values hx' hy' hz' hw', ← ih ht]
  | case2 offset g hg =>
    refine eq_symbols_of_lastGroup ?_ h
    by_contra hlen
    match g, hlen, hg with
    | a :: b :: c :: d :: e :: r, _, hg => exact hg a b c d e r rfl
    | [], hlen, _ | [_], hlen, _ | [_, _], hlen, _ | [_, _, _], hlen, _ | [_, _, _, _], hlen, _ => simp at hlen

theorem decode_eq_ok_iff {s b : Bytes} : decode s = .ok b ↔ s = symbols b := by
  constructor
  · intro h
    unfold decode at h
    split at h
    · split at h
      · cases h
      · exact eq_symbols_of_groups h
    · next hs =>
      rw [List.getLast?_eq_none_iff] at hs
      cases h
      exact hs
  · intro h
    rw [h, decode_symbols]

theorem decode_ofText_eq_ok_iff {s : String} {b : Bytes} :
    decode (Bytes.ofText s) = .ok b ↔ s = encode b := by
  rw [decode_eq_ok_iff]
  constructor
  · intro h
    rw [← ofText_ofList (symbols_lt b)] at h
    exact Bytes.ofText_inj h
  · intro h
    rw [h, encode, ofText_ofList (symbols_lt b)]

/-! ## Bits -/

/-- The `n` low bits of a number, most significant first. -/
def bits : Nat → Nat → List Bool
  | 0, _ => []
  | n + 1, v => bits n (v / 2) ++ [decide (v % 2 = 1)]

/-- The symbols in the order of their values. -/
def alphabet : List Char :=
  "ABCDEFGHIJKLMNOPQRSTUVWXYZabcdefghijklmnopqrstuvwxyz0123456789-_".toList

/-- The symbols of a text have the bits of some octets, six each, and as few zeros after them as
fill up the last one. -/
def Spells (s : String) (b : Bytes) : Prop :=
  ∃ vs : List Nat, s.toList.map some = vs.map (alphabet[·]?) ∧
    ∃ k < 6, vs.flatMap (bits 6) = (b.map UInt8.toNat).flatMap (bits 8) ++ List.replicate k false

theorem length_bits (n v : Nat) : (bits n v).length = n := by
  induction n generalizing v with
  | zero => rfl
  | succ n ih => simp [bits, ih]

theorem length_flatMap_bits (n : Nat) (vs : List Nat) :
    (vs.flatMap (bits n)).length = n * vs.length := by
  induction vs with
  | nil => rfl
  | cons v vs ih =>
    rw [List.flatMap_cons, List.length_append, length_bits, ih, List.length_cons, Nat.mul_succ]
    omega

theorem bits_append {m n u v : Nat} (h : v < 2 ^ n) :
    bits m u ++ bits n v = bits (m + n) (u * 2 ^ n + v) := by
  induction n generalizing v with
  | zero =>
    have hv : v = 0 := by simpa using h
    simp [bits, hv]
  | succ n ih =>
    have hpow : u * 2 ^ (n + 1) = 2 * (u * 2 ^ n) := by rw [Nat.pow_succ', Nat.mul_left_comm]
    have hdiv : (u * 2 ^ (n + 1) + v) / 2 = u * 2 ^ n + v / 2 := by omega
    have hmod : (u * 2 ^ (n + 1) + v) % 2 = v % 2 := by omega
    rw [← Nat.add_assoc, bits, bits, hdiv, hmod, ← ih (by omega), List.append_assoc]

theorem bits_inj {n u v : Nat} (hu : u < 2 ^ n) (hv : v < 2 ^ n) (h : bits n u = bits n v) : u = v := by
  induction n generalizing u v with
  | zero => omega
  | succ n ih =>
    rw [bits, bits] at h
    obtain ⟨hhigh, hlow⟩ := List.append_inj h (by rw [length_bits, length_bits])
    have hhalf := ih (by omega) (by omega) hhigh
    simp at hlow
    omega

theorem values_inj {vs ws : List Nat} (hvs : ∀ v ∈ vs, v < 64) (hws : ∀ v ∈ ws, v < 64)
    (h : vs.flatMap (bits 6) = ws.flatMap (bits 6)) : vs = ws := by
  have hlen := congrArg List.length h
  rw [length_flatMap_bits, length_flatMap_bits] at hlen
  induction vs generalizing ws with
  | nil => exact (by simpa using hlen : [] = ws)
  | cons v vs ih =>
    cases ws with
    | nil => simp at hlen
    | cons w ws =>
      rw [List.forall_mem_cons] at hvs hws
      rw [List.flatMap_cons, List.flatMap_cons] at h
      obtain ⟨hhead, htail⟩ := List.append_inj h (by rw [length_bits, length_bits])
      rw [bits_inj hvs.1 hws.1 hhead, ih hvs.2 hws.2 htail (by simp at hlen; omega)]

theorem exists_values (b : Bytes) : ∃ vs : List Nat, (∀ v ∈ vs, v < 64) ∧ symbols b = vs.map symbol ∧
    ∃ k < 6, vs.flatMap (bits 6) = (b.map UInt8.toNat).flatMap (bits 8) ++ List.replicate k false := by
  fun_induction symbols b with
  | case1 => exact ⟨[], nofun, rfl, 0, by omega, rfl⟩
  | case2 a =>
    have ha := a.toNat_lt
    refine ⟨[a.toNat / 4, a.toNat % 4 * 16], by simp; omega, rfl, 4, by omega, ?_⟩
    have hzeros : List.replicate 4 false = bits 4 0 := rfl
    simp only [List.map_cons, List.map_nil, List.flatMap_cons, List.flatMap_nil, List.append_nil, hzeros]
    rw [bits_append (by omega), bits_append (by omega)]
    refine congrArg₂ bits rfl ?_
    omega
  | case3 a b =>
    have ha := a.toNat_lt
    have hb := b.toNat_lt
    refine ⟨[a.toNat / 4, a.toNat % 4 * 16 + b.toNat / 16, b.toNat % 16 * 4], by simp; omega, rfl, 2,
      by omega, ?_⟩
    have hzeros : List.replicate 2 false = bits 2 0 := rfl
    simp only [List.map_cons, List.map_nil, List.flatMap_cons, List.flatMap_nil, List.append_nil,
      List.append_assoc, hzeros]
    rw [bits_append (by omega), bits_append (by omega), bits_append (by omega), bits_append (by omega)]
    refine congrArg₂ bits rfl ?_
    omega
  | case4 a b c r ih =>
    have ha := a.toNat_lt
    have hb := b.toNat_lt
    have hc := c.toNat_lt
    obtain ⟨vs, hvs, hr, k, hk, hbits⟩ := ih
    refine ⟨a.toNat / 4 :: (a.toNat % 4 * 16 + b.toNat / 16) :: (b.toNat % 16 * 4 + c.toNat / 64) ::
      c.toNat % 64 :: vs, ?_, by rw [hr]; rfl, k, hk, ?_⟩
    · simp only [List.forall_mem_cons]
      exact ⟨by omega, by omega, by omega, by omega, hvs⟩
    have hgroup : bits 6 (a.toNat / 4) ++ (bits 6 (a.toNat % 4 * 16 + b.toNat / 16) ++
        (bits 6 (b.toNat % 16 * 4 + c.toNat / 64) ++ bits 6 (c.toNat % 64))) =
        bits 8 a.toNat ++ (bits 8 b.toNat ++ bits 8 c.toNat) := by
      rw [bits_append (by omega), bits_append (by omega), bits_append (by omega),
        bits_append (by omega), bits_append (by omega)]
      refine congrArg₂ bits rfl ?_
      omega
    simp only [List.map_cons, List.flatMap_cons, hbits]
    simp only [← List.append_assoc] at hgroup ⊢
    rw [hgroup]

theorem alphabet_eq : alphabet = (List.range 64).map fun v => Char.ofNat (symbol v).toNat :=
  -- a literal is the string of its characters, and both lists evaluate to them
  String.toList_ofList

theorem alphabet_getElem? {v : Nat} (h : v < 64) : alphabet[v]? = some (Char.ofNat (symbol v).toNat) := by
  rw [alphabet_eq, List.getElem?_map, List.getElem?_range h]
  rfl

theorem length_alphabet : alphabet.length = 64 := by
  rw [alphabet_eq, List.length_map, List.length_range]

theorem lt_of_spelled {s : String} {vs : List Nat} (hs : s.toList.map some = vs.map (alphabet[·]?)) :
    ∀ v ∈ vs, v < 64 := by
  intro v hv
  have hmem : alphabet[v]? ∈ s.toList.map some := hs ▸ List.mem_map_of_mem hv
  obtain ⟨c, -, hc⟩ := List.mem_map.mp hmem
  have := (List.getElem?_eq_some_iff.mp hc.symm).1
  rwa [length_alphabet] at this

theorem spells_encode (b : Bytes) : Spells (encode b) b := by
  obtain ⟨vs, hvs, hsymbols, hbits⟩ := exists_values b
  refine ⟨vs, ?_, hbits⟩
  rw [encode, String.toList_ofList, hsymbols, List.map_map, List.map_map]
  apply List.map_congr_left
  intro v hv
  exact (alphabet_getElem? (hvs v hv)).symm

/-- The octets leave no choice of how many zeros follow, and so none of the symbols. -/
theorem Spells.unique {s t : String} {b : Bytes} (hs : Spells s b) (ht : Spells t b) : s = t := by
  obtain ⟨vs, hvs, k, hk, hvbits⟩ := hs
  obtain ⟨ws, hws, j, hj, hwbits⟩ := ht
  have hkj : k = j := by
    have hv := congrArg List.length hvbits
    have hw := congrArg List.length hwbits
    rw [List.length_append, length_flatMap_bits, length_flatMap_bits, List.length_replicate] at hv hw
    omega
  have hsame : vs = ws :=
    values_inj (lt_of_spelled hvs) (lt_of_spelled hws) (by rw [hvbits, hwbits, hkj])
  have hchars : s.toList.map some = t.toList.map some := by rw [hvs, hws, hsame]
  exact String.toList_inj.mp ((List.map_injective_iff.mpr (Option.some_injective _)) hchars)

theorem spells_iff {s : String} {b : Bytes} : Spells s b ↔ s = encode b := by
  constructor
  · intro h
    exact h.unique (spells_encode b)
  · intro h
    rw [h]
    exact spells_encode b

end Base64Url

end Courier
