import Courier.Archive.Writer
import Mathlib.Algebra.Group.Nat.Defs
import Mathlib.Data.List.Induction

/-!
# The grammar of binary items

An item is a head and what the head announces: octets, items, or nothing. The
three high bits of its first octet are its kind. The low five are its number,
or the form in which the number stands behind them. The decoder takes a number
in its shortest form only, no item whose end is marked instead of its length
given, and text that is valid. So an item has one spelling: that is decoded as
the item (`decode_spell`), and nothing else is (`eq_spell_of_decode`).
-/

namespace Courier.Cbor

inductive Item where
  | unsigned (n : Nat)
  /-- The integer `-1 - n`. -/
  | negative (n : Nat)
  | bytes (b : Bytes)
  | text (s : String)
  | array (items : List Item)
  | map (entries : List (Item × Item))
  | tag (n : Nat) (item : Item)
  | simple (n : Nat)
  /-- A number with a point, of two, four or eight octets. -/
  | float (b : Bytes)

/-! ## Decoding -/

/-- The octets at the front, if there are as many. -/
def octets (n : Nat) (s : Bytes) : Option (Bytes × Bytes) :=
  if n ≤ s.length then some (s.take n, s.drop n) else none

/-- The number of octets, most significant first. -/
def value (b : Bytes) : Nat := b.foldl (fun n x => n * 256 + x.toNat) 0

/-- How many octets of a number a form puts behind the head, and the least number to need them. -/
def form? : Nat → Option (Nat × Nat)
  | 24 => some (1, 24)
  | 25 => some (2, 0x100)
  | 26 => some (4, 0x10000)
  | 27 => some (8, 0x100000000)
  | _ => none

/-- The number of a head with these low bits. -/
def argument (low : Nat) (s : Bytes) : Option (Nat × Bytes) :=
  if low < 24 then some (low, s)
  else do
    let (width, least) ← form? low
    let (b, r) ← octets width s
    if least ≤ value b then some (value b, r) else none

/-- What the last kind has in the place of a number. -/
def special (low : Nat) (s : Bytes) : Option (Item × Bytes) :=
  if low < 24 then some (.simple low, s)
  else do
    let (width, _) ← form? low
    let (b, r) ← octets width s
    if width ≠ 1 then some (.float b, r)
    else if 32 ≤ value b then some (.simple (value b), r)
    else none

section
variable {α : Type}

def pair (f : Bytes → Option (α × Bytes)) (s : Bytes) : Option ((α × α) × Bytes) := do
  let (a, r) ← f s
  let (b, r) ← f r
  return ((a, b), r)

def times (f : Bytes → Option (α × Bytes)) : Nat → Bytes → Option (List α × Bytes)
  | 0, s => some ([], s)
  | n + 1, s => do
    let (a, r) ← f s
    let (l, r) ← times f n r
    return (a :: l, r)

end

/-- The item of another kind whose head has the number `n`. -/
def content (inner : Bytes → Option (Item × Bytes)) (kind n : Nat) (s : Bytes) :
    Option (Item × Bytes) :=
  match kind with
  | 0 => some (.unsigned n, s)
  | 1 => some (.negative n, s)
  | 2 => (octets n s).map fun (b, r) => (.bytes b, r)
  | 3 => do
    let (b, r) ← octets n s
    let t ← Bytes.text? b
    return (.text t, r)
  | 4 => (times inner n s).map fun (l, r) => (.array l, r)
  | 5 => (times (pair inner) n s).map fun (l, r) => (.map l, r)
  | 6 => (inner s).map fun (i, r) => (.tag n i, r)
  | _ => none

/-- The item at the front, with less than `depth` others around any in it. -/
def item : Nat → Bytes → Option (Item × Bytes)
  | 0, _ => none
  | _, [] => none
  | depth + 1, b :: s =>
    if b.toNat / 32 = 7 then special (b.toNat % 32) s
    else do
      let (n, r) ← argument (b.toNat % 32) s
      content (item depth) (b.toNat / 32) n r

/-- The item that a byte string is as a whole. Each item around another takes an octet for its head,
so the length bounds the depth. -/
def decode (s : Bytes) : Option Item :=
  match item s.length s with
  | some (i, []) => some i
  | _ => none

/-! ## Numbers -/

section
variable {n l w k kind least : Nat} {s r b : Bytes}

theorem octets_eq_some_iff : octets n s = some (b, r) ↔ b.length = n ∧ s = b ++ r := by
  unfold octets
  constructor
  · intro h
    split at h
    · next hn =>
      cases h
      exact ⟨List.length_take_of_le hn, (List.take_append_drop n s).symm⟩
    · cases h
  · intro ⟨hn, hs⟩
    subst hn hs
    simp

theorem value_snoc (b : Bytes) (x : UInt8) : value (b ++ [x]) = value b * 256 + x.toNat := by
  unfold value
  rw [List.foldl_append]
  rfl

theorem value_lt (b : Bytes) : value b < 256 ^ b.length := by
  induction b using List.reverseRecOn with
  | nil => decide
  | append_singleton b x ih =>
    have hx := x.toNat_lt
    rw [value_snoc, List.length_append, List.length_singleton, Nat.pow_succ]
    omega

theorem bigEndian_value (b : Bytes) : Bytes.bigEndian b.length (value b) = b := by
  induction b using List.reverseRecOn with
  | nil => rfl
  | append_singleton b x ih =>
    have hx := x.toNat_lt
    have hdiv : (value b * 256 + x.toNat) / 256 = value b := by omega
    have hmod : (value b * 256 + x.toNat) % 256 = x.toNat := by omega
    rw [value_snoc, List.length_append, List.length_singleton, Bytes.bigEndian, hdiv, hmod, ih,
      UInt8.ofNat_toNat]

theorem value_bigEndian (h : n < 256 ^ k) : value (Bytes.bigEndian k n) = n := by
  induction k generalizing n with
  | zero =>
    rw [Nat.pow_zero] at h
    obtain rfl : n = 0 := by omega
    rfl
  | succ k ih =>
    have hlast : (UInt8.ofNat (n % 256)).toNat = n % 256 := by
      rw [UInt8.toNat_ofNat']
      omega
    have hrest : n / 256 < 256 ^ k := by
      rw [Nat.pow_succ] at h
      omega
    rw [Bytes.bigEndian, value_snoc, ih hrest, hlast]
    omega

/-- The low bits of a head and the number of octets behind it, in the shortest form. -/
def form (n : Nat) : Nat × Nat :=
  if n < 24 then (n, 0)
  else if n < 0x100 then (24, 1)
  else if n < 0x10000 then (25, 2)
  else if n < 0x100000000 then (26, 4)
  else (27, 8)

theorem form_of_lt (h : n < 24) : form n = (n, 0) := if_pos h

theorem form_of_form? (h : form? l = some (w, least)) (hn : least ≤ n) (hw : n < 256 ^ w) :
    form n = (l, w) ∧ 24 ≤ l ∧ n < 2 ^ 64 := by
  unfold form? at h
  unfold form
  split at h
  · cases h
    rw [if_neg (by omega), if_pos (by omega)]
    exact ⟨rfl, by omega, by omega⟩
  · cases h
    rw [if_neg (by omega), if_neg (by omega), if_pos (by omega)]
    exact ⟨rfl, by omega, by omega⟩
  · cases h
    rw [if_neg (by omega), if_neg (by omega), if_neg (by omega), if_pos (by omega)]
    exact ⟨rfl, by omega, by omega⟩
  · cases h
    rw [if_neg (by omega), if_neg (by omega), if_neg (by omega), if_neg (by omega)]
    exact ⟨rfl, by omega, by omega⟩
  · cases h

theorem low_of_form? (h : form? l = some (w, least)) : l = 24 + w.log2 ∧ (w = 1 → least = 24) := by
  unfold form? at h
  split at h <;> cases h <;> decide

theorem form?_form (h : 24 ≤ n) (hn : n < 2 ^ 64) :
    ∃ least, form? (form n).1 = some ((form n).2, least) ∧ least ≤ n ∧ n < 256 ^ (form n).2 := by
  unfold form
  rw [if_neg (by omega)]
  split
  · exact ⟨24, rfl, h, by omega⟩
  split
  · exact ⟨0x100, rfl, by omega, by omega⟩
  split
  · exact ⟨0x10000, rfl, by omega, by omega⟩
  · exact ⟨0x100000000, rfl, by omega, by omega⟩

/-- A number is read from its shortest form and from no other. -/
theorem argument_eq_some_iff : argument l s = some (n, r) ↔
    n < 2 ^ 64 ∧ l = (form n).1 ∧ s = Bytes.bigEndian (form n).2 n ++ r := by
  constructor
  · intro h
    unfold argument at h
    split at h
    · next hl =>
      cases h
      rw [form_of_lt hl]
      exact ⟨by omega, rfl, rfl⟩
    · simp only [bind, Option.bind_eq_some_iff] at h
      obtain ⟨⟨w, least⟩, hf, ⟨b, t⟩, ho, h⟩ := h
      split at h
      · next hle =>
        cases h
        obtain ⟨rfl, hs⟩ := octets_eq_some_iff.mp ho
        obtain ⟨hform, -, hlt⟩ := form_of_form? hf hle (value_lt b)
        rw [hform]
        refine ⟨hlt, rfl, ?_⟩
        show s = Bytes.bigEndian b.length (value b) ++ t
        rw [bigEndian_value, hs]
      · cases h
  · intro ⟨hn, hl, hs⟩
    by_cases h24 : n < 24
    · rw [form_of_lt h24] at hl hs
      subst hl hs
      exact if_pos h24
    · obtain ⟨least, hf, hle, hlt⟩ := form?_form (by omega) hn
      have hlow := (form_of_form? hf hle hlt).2.1
      have ho : octets (form n).2 s = some (Bytes.bigEndian (form n).2 n, r) :=
        octets_eq_some_iff.mpr ⟨Bytes.length_bigEndian _ n, hs⟩
      unfold argument
      rw [hl, if_neg (by omega)]
      simp only [hf, ho, bind, Option.bind_some, value_bigEndian hlt, if_pos hle]

end

/-! ## Heads -/

/-- The head of an item: its kind and a number, in the shortest form. -/
def head (kind n : Nat) : Bytes :=
  UInt8.ofNat (kind * 32 + (form n).1) :: Bytes.bigEndian (form n).2 n

mutual

/-- The one spelling of an item. -/
def spell : Item → Bytes
  | .unsigned n => head 0 n
  | .negative n => head 1 n
  | .bytes b => head 2 b.length ++ b
  | .text s => head 3 (Bytes.ofText s).length ++ Bytes.ofText s
  | .array items => head 4 items.length ++ spellItems items
  | .map entries => head 5 entries.length ++ spellEntries entries
  | .tag n i => head 6 n ++ spell i
  | .simple n => head 7 n
  | .float b => UInt8.ofNat (7 * 32 + 24 + b.length.log2) :: b

def spellItems : List Item → Bytes
  | [] => []
  | i :: r => spell i ++ spellItems r

def spellEntries : List (Item × Item) → Bytes
  | [] => []
  | (k, v) :: r => spell k ++ spell v ++ spellEntries r

end

theorem spellItems_eq (items : List Item) : spellItems items = items.flatMap spell := by
  induction items with
  | nil => rfl
  | cons i items ih => rw [spellItems, ih, List.flatMap_cons]

theorem spellEntries_eq (entries : List (Item × Item)) :
    spellEntries entries = entries.flatMap fun e => spell e.1 ++ spell e.2 := by
  induction entries with
  | nil => rfl
  | cons e entries ih => rw [spellEntries, ih, List.flatMap_cons]

section
variable {n kind depth : Nat} {s r : Bytes} {i : Item} {f : Bytes → Option (Item × Bytes)}

theorem form_lt (n : Nat) : (form n).1 < 32 := by
  unfold form
  repeat' split
  all_goals omega

/-- The first octet gives back the kind and the low bits. -/
theorem bits_first (kind : Nat) {low : Nat} (hk : kind < 8) (hlow : low < 32) :
    (UInt8.ofNat (kind * 32 + low)).toNat / 32 = kind ∧
      (UInt8.ofNat (kind * 32 + low)).toNat % 32 = low := by
  rw [UInt8.toNat_ofNat']
  omega

theorem item_head (hk : kind < 7) (hn : n < 2 ^ 64) :
    item (depth + 1) (head kind n ++ s) = content (item depth) kind n s := by
  obtain ⟨hkind, hlow⟩ := bits_first kind (by omega) (form_lt n)
  have harg : argument (form n).1 (Bytes.bigEndian (form n).2 n ++ s) = some (n, s) :=
    argument_eq_some_iff.mpr ⟨hn, rfl, rfl⟩
  rw [head, List.cons_append, item, hkind, hlow, if_neg (Nat.ne_of_lt hk), harg]
  rfl

theorem item_special {low : Nat} (h : low < 32) (s : Bytes) :
    item (depth + 1) (UInt8.ofNat (7 * 32 + low) :: s) = special low s := by
  obtain ⟨hkind, hlow⟩ := bits_first 7 (by decide) h
  rw [item, hkind, hlow]
  exact if_pos rfl

/-- A float has a width that gives back the form; a simple value has the form of a number. -/
theorem of_special {b : UInt8} (hb : b.toNat / 32 = 7)
    (h : special (b.toNat % 32) s = some (i, r)) : b :: s = spell i ++ r := by
  have hfirst : UInt8.ofNat (7 * 32 + b.toNat % 32) = b := by
    have hsum : 7 * 32 + b.toNat % 32 = b.toNat := by omega
    rw [hsum, UInt8.ofNat_toNat]
  unfold special at h
  split at h
  · next hl =>
    cases h
    rw [spell, head, form_of_lt hl, hfirst]
    rfl
  · simp only [bind, Option.bind_eq_some_iff, Prod.exists] at h
    obtain ⟨w, least, hf, o, t, ho, h⟩ := h
    obtain ⟨rfl, hs⟩ := octets_eq_some_iff.mp ho
    obtain ⟨hlow, hleast⟩ := low_of_form? hf
    split at h
    · cases h
      rw [spell, Nat.add_assoc, ← hlow, hfirst, hs]
      rfl
    · next hw =>
      rw [not_not] at hw
      split at h
      · next hv =>
        cases h
        have hform := (form_of_form? hf (by have := hleast hw; omega) (value_lt o)).1
        rw [spell, head, hform, hfirst, bigEndian_value, hs]
        rfl
      · cases h

theorem of_times {α : Type} {f : Bytes → Option (α × Bytes)} {g : α → Bytes}
    (hf : ∀ {s a r}, f s = some (a, r) → s = g a ++ r) {l : List α}
    (h : times f n s = some (l, r)) : l.length = n ∧ s = l.flatMap g ++ r := by
  induction n generalizing s l with
  | zero =>
    cases h
    exact ⟨rfl, rfl⟩
  | succ n ih =>
    simp only [times, bind, Option.bind_eq_some_iff, Prod.exists] at h
    obtain ⟨a, t, ha, as, u, has, h⟩ := h
    cases h
    obtain ⟨hlen, ht⟩ := ih has
    refine ⟨congrArg (· + 1) hlen, ?_⟩
    rw [hf ha, List.flatMap_cons, List.append_assoc, ht]

theorem of_pair (hf : ∀ {s i r}, f s = some (i, r) → s = spell i ++ r) {s r : Bytes}
    {e : Item × Item} (h : pair f s = some (e, r)) : s = spell e.1 ++ spell e.2 ++ r := by
  simp only [pair, bind, Option.bind_eq_some_iff, Prod.exists] at h
  obtain ⟨k, t, hk, v, u, hv, h⟩ := h
  cases h
  rw [hf hk, hf hv, List.append_assoc]

theorem of_content (hf : ∀ {s i r}, f s = some (i, r) → s = spell i ++ r)
    (h : content f kind n s = some (i, r)) : head kind n ++ s = spell i ++ r := by
  unfold content at h
  split at h
  · cases h
    rfl
  · cases h
    rfl
  · rw [Option.map_eq_some_iff] at h
    obtain ⟨⟨b, t⟩, ho, h⟩ := h
    cases h
    obtain ⟨hb, hs⟩ := octets_eq_some_iff.mp ho
    rw [spell, hb, hs, List.append_assoc]
  · simp only [bind, Option.bind_eq_some_iff, Prod.exists] at h
    obtain ⟨b, u, ho, t, ht, h⟩ := h
    cases h
    obtain ⟨hb, hs⟩ := octets_eq_some_iff.mp ho
    rw [spell, ← Bytes.text?_eq_some_iff.mp ht, hb, hs, List.append_assoc]
  · rw [Option.map_eq_some_iff] at h
    obtain ⟨⟨l, t⟩, ht, h⟩ := h
    cases h
    obtain ⟨hlen, hs⟩ := of_times hf ht
    rw [spell, hlen, spellItems_eq, hs, List.append_assoc]
  · rw [Option.map_eq_some_iff] at h
    obtain ⟨⟨l, t⟩, ht, h⟩ := h
    cases h
    obtain ⟨hlen, hs⟩ := of_times (of_pair hf) ht
    rw [spell, hlen, spellEntries_eq, hs, List.append_assoc]
  · rw [Option.map_eq_some_iff] at h
    obtain ⟨⟨j, t⟩, ht, h⟩ := h
    cases h
    rw [spell, hf ht, List.append_assoc]
  · cases h

theorem eq_spell_of_item (h : item depth s = some (i, r)) : s = spell i ++ r := by
  induction depth generalizing s i r with
  | zero => cases h
  | succ depth ih =>
    cases s with
    | nil => cases h
    | cons b s =>
      rw [item] at h
      split at h
      · next hb => exact of_special hb h
      · simp only [bind, Option.bind_eq_some_iff, Prod.exists] at h
        obtain ⟨n, t, ha, h⟩ := h
        obtain ⟨hn, hlow, hs⟩ := argument_eq_some_iff.mp ha
        have hfirst : UInt8.ofNat (b.toNat / 32 * 32 + (form n).1) = b := by
          rw [← hlow, Nat.div_add_mod', UInt8.ofNat_toNat]
        rw [← of_content ih h, head, hfirst, hs]
        rfl

theorem eq_spell_of_decode (h : decode s = some i) : s = spell i := by
  unfold decode at h
  split at h
  · next j hj =>
    cases h
    rw [eq_spell_of_item hj, List.append_nil]
  · cases h

/-- The number 1 has a form of its own, and takes no octet behind the head. -/
example : decode [1] = some (.unsigned 1) ∧ decode [0x18, 1] = none ∧ decode [1, 1] = none :=
  ⟨rfl, rfl, rfl⟩

end

/-! ## Items that can be read -/

/-- The numbers of an item have a form, and less than `depth` items are around any in it. -/
inductive Fits : Nat → Item → Prop where
  | unsigned {depth n : Nat} : n < 2 ^ 64 → Fits (depth + 1) (.unsigned n)
  | negative {depth n : Nat} : n < 2 ^ 64 → Fits (depth + 1) (.negative n)
  | bytes {depth : Nat} {b : Bytes} : b.length < 2 ^ 64 → Fits (depth + 1) (.bytes b)
  | text {depth : Nat} {s : String} : (Bytes.ofText s).length < 2 ^ 64 → Fits (depth + 1) (.text s)
  | array {depth : Nat} {items : List Item} : items.length < 2 ^ 64 → (∀ i ∈ items, Fits depth i) →
      Fits (depth + 1) (.array items)
  | map {depth : Nat} {entries : List (Item × Item)} : entries.length < 2 ^ 64 →
      (∀ e ∈ entries, Fits depth e.1) → (∀ e ∈ entries, Fits depth e.2) →
      Fits (depth + 1) (.map entries)
  | tag {depth n : Nat} {i : Item} : n < 2 ^ 64 → Fits depth i → Fits (depth + 1) (.tag n i)
  | simple {depth n : Nat} : n < 24 ∨ 32 ≤ n ∧ n < 0x100 → Fits (depth + 1) (.simple n)
  | float {depth : Nat} {b : Bytes} : b.length = 2 ∨ b.length = 4 ∨ b.length = 8 →
      Fits (depth + 1) (.float b)

theorem times_append {α : Type} {f : Bytes → Option (α × Bytes)} {g : α → Bytes} {l : List α}
    (hf : ∀ a ∈ l, ∀ r, f (g a ++ r) = some (a, r)) (r : Bytes) :
    times f l.length (l.flatMap g ++ r) = some (l, r) := by
  induction l with
  | nil => rfl
  | cons a l ih =>
    rw [List.forall_mem_cons] at hf
    simp only [List.flatMap_cons, List.append_assoc, List.length_cons, times, hf.1, ih hf.2, bind,
      Option.bind_some, pure]

theorem item_spell {depth : Nat} {i : Item} (h : Fits depth i) (r : Bytes) :
    item depth (spell i ++ r) = some (i, r) := by
  induction h generalizing r with
  | unsigned hn => exact item_head (by decide) hn
  | negative hn => exact item_head (by decide) hn
  | bytes hb =>
    rw [spell, List.append_assoc, item_head (by decide) hb]
    simp only [content, octets_eq_some_iff.mpr ⟨rfl, rfl⟩, Option.map_some]
  | text hb =>
    rw [spell, List.append_assoc, item_head (by decide) hb]
    simp only [content, octets_eq_some_iff.mpr ⟨rfl, rfl⟩, Bytes.text?_ofText, bind,
      Option.bind_some, pure]
  | array hlen _ ih =>
    rw [spell, List.append_assoc, item_head (by decide) hlen, spellItems_eq]
    simp only [content, times_append ih, Option.map_some]
  | @map depth entries hlen _ _ ihk ihv =>
    have hpair : ∀ e ∈ entries, ∀ r,
        pair (item depth) (spell e.1 ++ spell e.2 ++ r) = some (e, r) := by
      intro e he r
      simp only [pair, List.append_assoc, ihk e he, ihv e he, bind, Option.bind_some, pure]
    rw [spell, List.append_assoc, item_head (by decide) hlen, spellEntries_eq]
    simp only [content, times_append hpair, Option.map_some]
  | tag hn _ ih =>
    rw [spell, List.append_assoc, item_head (by decide) hn]
    simp only [content, ih, Option.map_some]
  | @simple depth n hn =>
    rw [spell, head, List.cons_append, item_special (form_lt n)]
    obtain hn | ⟨hle, hlt⟩ := hn
    · rw [form_of_lt hn]
      exact if_pos hn
    · have hform : form n = (24, 1) := (form_of_form? rfl (by omega) hlt).1
      have ho : octets 1 (Bytes.bigEndian 1 n ++ r) = some (Bytes.bigEndian 1 n, r) :=
        octets_eq_some_iff.mpr ⟨Bytes.length_bigEndian 1 n, rfl⟩
      have hvalue : value (Bytes.bigEndian 1 n) = n := value_bigEndian hlt
      rw [hform]
      show special 24 (Bytes.bigEndian 1 n ++ r) = _
      unfold special
      simp [form?, ho, hvalue, hle]
  | @float depth b hb =>
    have hform : ∃ least, form? (24 + b.length.log2) = some (b.length, least) := by
      obtain hb | hb | hb := hb <;> rw [hb] <;> exact ⟨_, rfl⟩
    obtain ⟨least, hform⟩ := hform
    have hne : b.length ≠ 1 := by omega
    have ho : octets b.length (b ++ r) = some (b, r) := octets_eq_some_iff.mpr ⟨rfl, rfl⟩
    have hlow : 24 + b.length.log2 < 32 := by
      obtain hb | hb | hb := hb <;> rw [hb] <;> decide
    rw [spell, List.cons_append, Nat.add_assoc, item_special hlow]
    unfold special
    simp [hform, ho, hne]

theorem decode_spell {i : Item} (h : Fits (spell i).length i) : decode (spell i) = some i := by
  have hitem := item_spell h []
  rw [List.append_nil] at hitem
  unfold decode
  rw [hitem]

/-! ## The narrower grammar -/

/-- The order of keys: shorter ones first, those of one length by their octets. -/
def Before (j k : String) : Prop :=
  (Bytes.ofText j).length < (Bytes.ofText k).length ∨
    (Bytes.ofText j).length = (Bytes.ofText k).length ∧
      Bytes.compare (Bytes.ofText j) (Bytes.ofText k) = .lt

/-- Keys are texts in order, a tag is that of a link, which is octets behind a zero one, and numbers
with a point have eight octets. -/
inductive IsDag : Item → Prop where
  | unsigned (n : Nat) : IsDag (.unsigned n)
  | negative (n : Nat) : IsDag (.negative n)
  | bytes (b : Bytes) : IsDag (.bytes b)
  | text (s : String) : IsDag (.text s)
  | array {items : List Item} : (∀ i ∈ items, IsDag i) → IsDag (.array items)
  | map {entries : List (String × Item)} : (entries.map (·.1)).Pairwise Before →
      (∀ e ∈ entries, IsDag e.2) → IsDag (.map (entries.map fun e => (.text e.1, e.2)))
  | link (b : Bytes) : IsDag (.tag 42 (.bytes (0 :: b)))
  | bool (b : Bool) : IsDag (.simple (if b then 21 else 20))
  | null : IsDag (.simple 22)
  | float {b : Bytes} : b.length = 8 → IsDag (.float b)

end Courier.Cbor
