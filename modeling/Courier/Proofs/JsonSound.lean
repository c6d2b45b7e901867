import Courier.Json.Shape
import Courier.Json.Writer

/-!
# What is written is read

A written value is read as a tree without a fault (`reads_of_plain`), provided
its numbers are integers. That tree is kept as the value again if no object has
a name twice and the value is not nested too deep (`keep_ofValue`), and it is
read as a record if each of its members is read by the field of its name
(`Shape.read_entries`).
-/

namespace Courier.Json

/-! ## Values without binary numbers -/

/-- An integer of 64 bits, with a minus sign only below zero. -/
inductive Number.IsInteger : Number → Prop
  | natural (n : UInt64) : IsInteger (.natural n)
  | negative {n : Nat} : 1 ≤ n → n ≤ Nat.pow 2 63 → IsInteger (.negative n)

/-- All numbers are integers, and no object has a name twice. -/
inductive Value.Plain : Value → Prop
  | null : Plain .null
  | bool (b : Bool) : Plain (.bool b)
  | number {n : Number} : n.IsInteger → Plain (.number n)
  | text (s : String) : Plain (.text s)
  | list {items : List Value} : (∀ v ∈ items, Plain v) → Plain (.list items)
  | object {ms : List (String × Value)} :
      (ms.map (·.1)).Nodup → (∀ m ∈ ms, Plain m.2) → Plain (.object ms)

namespace Value

mutual

/-- How many lists and objects lie within one another, the outermost one counted. -/
def depth : Value → Nat
  | .null | .bool _ | .number _ | .text _ => 0
  | .list items => itemsDepth items + 1
  | .object ms => membersDepth ms + 1

def itemsDepth : List Value → Nat
  | [] => 0
  | v :: r => max (depth v) (itemsDepth r)

def membersDepth : List (String × Value) → Nat
  | [] => 0
  | (_, v) :: r => max (depth v) (membersDepth r)

end

theorem itemsDepth_le_iff {n : Nat} : ∀ {items : List Value},
    itemsDepth items ≤ n ↔ ∀ v ∈ items, v.depth ≤ n
  | [] => by simp [itemsDepth]
  | v :: r => by rw [itemsDepth, Nat.max_le, itemsDepth_le_iff, List.forall_mem_cons]

theorem membersDepth_le_iff {n : Nat} : ∀ {ms : List (String × Value)},
    membersDepth ms ≤ n ↔ ∀ m ∈ ms, m.2.depth ≤ n
  | [] => by simp [membersDepth]
  | (k, v) :: r => by rw [membersDepth, Nat.max_le, membersDepth_le_iff, List.forall_mem_cons]

/-- An object without its members of some names. -/
def without (gone : List String) : Value → Value
  | .object ms => .object (ms.filter fun m => m.1 ∉ gone)
  | v => v

theorem Plain.without {v : Value} (h : v.Plain) (gone : List String) : (v.without gone).Plain := by
  cases h with
  | object hnames hms =>
    exact .object (hnames.sublist (List.filter_sublist.map _)) fun m hm => hms m (List.mem_filter.mp hm).1
  | null => exact .null
  | bool b => exact .bool b
  | number hn => exact .number hn
  | text s => exact .text s
  | list hvs => exact .list hvs

theorem without_nil (v : Value) : v.without [] = v := by
  cases v <;> simp [Value.without]

theorem Plain.list_map {g : β → Value} {l : List β} (h : ∀ b ∈ l, (g b).Plain) :
    (Value.list (l.map g)).Plain :=
  .list (List.forall_mem_map.mpr h)

theorem write_number (n : Number) : (Value.number n).write = n.text.toList := rfl

theorem write_list (items : List Value) :
    (Value.list items).write = enclose '[' ']' (writeItems items) := rfl

theorem write_object (ms : List (String × Value)) :
    (Value.object ms).write = enclose '\x7b' '\x7d' (writeMembers ms) := rfl

theorem writeItems_eq : ∀ items : List Value, writeItems items = items.map write
  | [] => rfl
  | v :: r => congrArg (write v :: ·) (writeItems_eq r)

/-- A name in quotes, a colon and a value. -/
def writeMember (m : String × Value) : List Char := writeText m.1 ++ ':' :: m.2.write

theorem writeMembers_eq : ∀ ms : List (String × Value), writeMembers ms = ms.map writeMember
  | [] => rfl
  | m :: r => congrArg (writeMember m :: ·) (writeMembers_eq r)

theorem writeMember_append (k : String) (v : Value) (r : List Char) :
    writeMember (k, v) ++ r = '"' :: (k.toList.flatMap escape ++ '"' :: ':' :: (v.write ++ r)) := by
  simp only [writeMember, writeText, List.append_assoc, List.cons_append, List.nil_append]

theorem length_lt_writeMember (m : String × Value) : m.2.write.length < (writeMember m).length := by
  simp only [writeMember, List.length_append, List.length_cons]
  omega

end Value

namespace Doc

mutual

/-- The tree of a text that is written. -/
def ofValue : Value → Doc
  | .null => .null
  | .bool b => .bool b
  | .number n => .number (.ok n) none
  | .text s => .text ⟨.ok s, none⟩
  | .list items => .list (ofItems items) .closed
  | .object ms => .object (ofMembers ms) .closed

def ofItems : List Value → List Doc
  | [] => []
  | v :: r => ofValue v :: ofItems r

def ofMembers : List (String × Value) → List (Quoted × Option Fault × Doc)
  | [] => []
  | (k, v) :: r => (⟨.ok k, none⟩, none, ofValue v) :: ofMembers r

end

theorem ofValue_list (items : List Value) : ofValue (.list items) = .list (ofItems items) .closed := rfl

theorem ofValue_object (ms : List (String × Value)) :
    ofValue (.object ms) = .object (ofMembers ms) .closed := rfl

end Doc

/-! ## Strings -/

theorem hexValue?_hexDigit {v : Nat} (h : v < 16) : hexValue? (hexDigit v) = some v :=
  (by decide : ∀ v < 16, hexValue? (hexDigit v) = some v) v h

theorem hexQuad_control {n : Nat} (h : n < 32) :
    hexQuad '0' '0' (hexDigit (n / 16)) (hexDigit (n % 16)) = some n := by
  have h₁ := hexValue?_hexDigit (v := n / 16) (by omega)
  have h₂ := hexValue?_hexDigit (v := n % 16) (by omega)
  have h₀ : hexValue? '0' = some 0 := by decide
  simp only [hexQuad, h₀, h₁, h₂, Option.bind_eq_bind, Option.bind_some, Option.pure_def]
  congr 1
  omega

/-- A character is a letter after a backslash, its number after a backslash, or itself. -/
theorem escape_cases (c : Char) :
    (∃ e, escape c = ['\\', e] ∧ e ≠ 'u' ∧ simpleEscape? e = some c) ∨
    (escape c = ['\\', 'u', '0', '0', hexDigit (c.toNat / 16), hexDigit (c.toNat % 16)] ∧ c.toNat < 32) ∨
    (escape c = [c] ∧ c ≠ '"' ∧ c ≠ '\\' ∧ 32 ≤ c.toNat) := by
  have letter {e d : Char} (hc : c = d) (he : e ≠ 'u' ∧ simpleEscape? e = some d) :
      ∃ e', ['\\', e] = ['\\', e'] ∧ e' ≠ 'u' ∧ simpleEscape? e' = some c :=
    ⟨e, rfl, he.1, hc ▸ he.2⟩
  have ofToNat {n : Nat} (hc : c.toNat = n) : c = Char.ofNat n := by rw [← hc, Char.ofNat_toNat]
  unfold escape
  split
  · exact .inl (letter ‹_› (by decide))
  split
  · exact .inl (letter ‹_› (by decide))
  split
  · exact .inl (letter (ofToNat ‹_›) (by decide))
  split
  · exact .inl (letter (ofToNat ‹_›) (by decide))
  split
  · exact .inl (letter ‹_› (by decide))
  split
  · exact .inl (letter ‹_› (by decide))
  split
  · exact .inl (letter ‹_› (by decide))
  split
  · exact .inr (.inl ⟨rfl, ‹_›⟩)
  · exact .inr (.inr ⟨rfl, ‹_›, ‹_›, by omega⟩)

theorem skipString_escape (c : Char) (r : List Char) : skipString (escape c ++ r) = skipString r := by
  obtain ⟨e, he, hu, hs⟩ | ⟨he, hc⟩ | ⟨he, hq, hb, hc⟩ := escape_cases c
  · rw [he]
    simp [skipString, hu, hs]
  · rw [he]
    simp [skipString, hexQuad_control hc]
  · rw [he]
    simp [skipString, hb, Nat.not_lt.mpr hc]

theorem keepString_escape (c : Char) (r : List Char) :
    keepString (escape c ++ r) = (keepString r).map (c :: ·) := by
  obtain ⟨e, he, hu, hs⟩ | ⟨he, hc⟩ | ⟨he, hq, hb, hc⟩ := escape_cases c
  · rw [he]
    simp [keepString, hu, hs]
  · have hl : isLowSurrogate c.toNat = false := by simp [isLowSurrogate]; omega
    have hh : isHighSurrogate c.toNat = false := by simp [isHighSurrogate]; omega
    rw [he]
    simp [keepString, hexQuad_control hc, hl, hh, Char.ofNat_toNat]
  · rw [he]
    simp [keepString, hb, Nat.not_lt.mpr hc]

theorem skipString_flatMap (cs r : List Char) :
    skipString (cs.flatMap escape ++ '"' :: r) = .ok r := by
  induction cs with
  | nil => rfl
  | cons c cs ih => rw [List.flatMap_cons, List.append_assoc, skipString_escape, ih]

theorem keepString_flatMap (cs r : List Char) :
    keepString (cs.flatMap escape ++ '"' :: r) = .ok cs := by
  induction cs with
  | nil => rfl
  | cons c cs ih =>
    rw [List.flatMap_cons, List.append_assoc, keepString_escape, ih]
    rfl

theorem quoted_flatMap (s : String) (r : List Char) :
    quoted (s.toList.flatMap escape ++ '"' :: r) = (⟨.ok s, none⟩, some r) := by
  simp only [quoted, skipString_flatMap, keepString_flatMap, Except.map, String.ofList_toList]

/-! ## Numbers -/

/-- No number goes on with what follows. -/
def EndsNumber (r : List Char) : Prop :=
  ∀ c ∈ r.head?, isDigit c = false ∧ c ≠ '.' ∧ c ≠ 'e' ∧ c ≠ 'E'

theorem isDigit_of_mem_toDigits {n : Nat} {c : Char} (h : c ∈ Nat.toDigits 10 n) : isDigit c = true := by
  have := Nat.isDigit_of_mem_toDigits (by decide) (by decide) h
  simpa [isDigit, Char.isDigit, Char.le_def] using this

theorem ne_of_isDigit {c d : Char} (hc : isDigit c = true) (hd : isDigit d = false) : c ≠ d := by
  rintro rfl
  rw [hc] at hd
  exact absurd hd (by decide)

theorem ofDigits_toDigits (n : Nat) : ofDigits (Nat.toDigits 10 n) = n := by
  have := Nat.ofDigitChars_ten_toDigits (n := n)
  rw [Nat.ofDigitChars_eq_foldl] at this
  simp only [Nat.mul_comm 10] at this
  exact this

/-- Only zero is written with a zero in front. -/
theorem exists_toDigits_cons {n : Nat} : ∃ c r, Nat.toDigits 10 n = c :: r ∧ (c = '0' → r = []) := by
  induction n using Nat.strongRecOn with
  | ind n ih =>
    rw [Nat.toDigits_eq_if (by decide)]
    split
    · exact ⟨_, _, rfl, fun _ => rfl⟩
    · obtain ⟨c, r, hr, hc⟩ := ih (n / 10) (by omega)
      refine ⟨c, r ++ [(n % 10).digitChar], by rw [hr]; rfl, fun h0 => ?_⟩
      -- the digits of `n / 10` would be a lone zero
      have := ofDigits_toDigits (n / 10)
      rw [hr, hc h0, h0] at this
      simp [ofDigits] at this
      omega

theorem takeWhile_eq_nil {r : List Char} (h : EndsNumber r) : r.takeWhile isDigit = [] := by
  cases r with
  | nil => rfl
  | cons c r => rw [List.takeWhile_cons_of_neg (by simp [(h c rfl).1])]

theorem dropWhile_eq_self {r : List Char} (h : EndsNumber r) : r.dropWhile isDigit = r := by
  cases r with
  | nil => rfl
  | cons c r => rw [List.dropWhile_cons_of_neg (by simp [(h c rfl).1])]

theorem digits1_toDigits (n : Nat) {r : List Char} (h : EndsNumber r) :
    digits1 (Nat.toDigits 10 n ++ r) = .ok (Nat.toDigits 10 n, r) := by
  obtain ⟨c, ds, hd, _⟩ := exists_toDigits_cons (n := n)
  have hall : ∀ x ∈ Nat.toDigits 10 n, isDigit x = true := fun _ => isDigit_of_mem_toDigits
  have hc : isDigit c = true := hall c (by rw [hd]; exact List.mem_cons_self ..)
  have ht : (Nat.toDigits 10 n ++ r).takeWhile isDigit = Nat.toDigits 10 n := by
    rw [List.takeWhile_append_of_pos hall, takeWhile_eq_nil h, List.append_nil]
  have hr : (Nat.toDigits 10 n ++ r).dropWhile isDigit = r := by
    rw [List.dropWhile_append_of_pos hall, dropWhile_eq_self h]
  rw [hd, List.cons_append] at ht hr ⊢
  rw [digits1, if_pos hc, ht, hr]

theorem wholePart_toDigits (n : Nat) {r : List Char} (h : EndsNumber r) :
    wholePart (Nat.toDigits 10 n ++ r) = .ok (Nat.toDigits 10 n, r) := by
  obtain ⟨c, ds, hd, hzero⟩ := exists_toDigits_cons (n := n)
  rw [wholePart.eq_def]
  split
  · -- a zero in front stands alone
    rename_i c' r' heq
    rw [hd, List.cons_append, List.cons.injEq] at heq
    rw [hd, heq.1, hzero heq.1]
    rw [hzero heq.1, List.nil_append] at heq
    rw [heq.2] at h ⊢
    simp [(h c' rfl).1]
  · exact digits1_toDigits n h

theorem unsignedNumeral_toDigits (negative : Bool) (n : Nat) {r : List Char} (h : EndsNumber r) :
    unsignedNumeral negative (Nat.toDigits 10 n ++ r) =
      .ok (⟨negative, Nat.toDigits 10 n, none, none⟩, r) := by
  have hf : fractionPart r = .ok (none, r) := by
    rw [fractionPart.eq_def]
    split
    · exact absurd rfl (h '.' rfl).2.1
    · rfl
  have he : exponentPart r = .ok (none, r) := by
    cases r with
    | nil => rfl
    | cons c r =>
      obtain ⟨-, -, he, hE⟩ := h c rfl
      simp [exponentPart, he, hE]
  simp only [unsignedNumeral, wholePart_toDigits n h, hf, he, bind, Except.bind, pure, Except.pure]

theorem numberDoc_text {n : Number} (hn : n.IsInteger) {r : List Char} (h : EndsNumber r) :
    numberDoc (n.text.toList ++ r) = (.number (.ok n) none, some r) := by
  cases hn with
  | natural n =>
    obtain ⟨c, ds, hd, _⟩ := exists_toDigits_cons (n := n.toNat)
    have hc : c ≠ '-' :=
      ne_of_isDigit (isDigit_of_mem_toDigits (n := n.toNat) (by simp [hd])) (by decide)
    have hn : numeral (Nat.toDigits 10 n.toNat ++ r) =
        .ok (⟨false, Nat.toDigits 10 n.toNat, none, none⟩, r) := by
      rw [numeral.eq_def, hd]
      split
      · rename_i heq
        exact absurd (List.cons.inj heq).1 hc
      · rw [← hd]
        exact unsignedNumeral_toDigits false n.toNat h
    have hlt : n.toNat < UInt64.size := n.toNat_lt
    rw [Number.text, Nat.toList_repr]
    simp [numberDoc, hn, Numeral.number, ofDigits_toDigits, hlt]
  | @negative n h₁ h₂ =>
    have hn : numeral ('-' :: (Nat.toDigits 10 n ++ r)) = .ok (⟨true, Nat.toDigits 10 n, none, none⟩, r) :=
      unsignedNumeral_toDigits true n h
    have h₁' : 0 < n := h₁
    rw [Number.text, String.toList_append, Nat.toList_repr]
    simp [numberDoc, hn, Numeral.number, ofDigits_toDigits, h₁', h₂]

theorem exists_text_cons {n : Number} (hn : n.IsInteger) :
    ∃ c r, n.text.toList = c :: r ∧ (c = '-' ∨ isDigit c = true) := by
  cases hn with
  | natural n =>
    obtain ⟨c, r, hd, -⟩ := exists_toDigits_cons (n := n.toNat)
    rw [Number.text, Nat.toList_repr]
    exact ⟨c, r, hd, .inr (isDigit_of_mem_toDigits (n := n.toNat) (by simp [hd]))⟩
  | @negative n h₁ h₂ =>
    rw [Number.text, String.toList_append]
    exact ⟨'-', n.repr.toList, rfl, .inl rfl⟩

/-! ## Values -/

section
variable (left right : Char)

theorem enclose_cons (x : List Char) (xs : List (List Char)) (r : List Char) :
    enclose left right (x :: xs) ++ r = left :: (x ++ (xs.flatMap (',' :: ·) ++ right :: r)) := by
  simp only [enclose, List.append_assoc, List.cons_append, List.nil_append]

end

/-- A token begins here that is not the end of a list. -/
def Begins (cs : List Char) : Prop := ∃ c r, cs = c :: r ∧ isBlank c = false ∧ c ≠ ']'

theorem Begins.of_cons {c : Char} {r : List Char} (h : isBlank c = false) (hc : c ≠ ']') :
    Begins (c :: r) :=
  ⟨c, r, rfl, h, hc⟩

theorem Begins.append {cs : List Char} (h : Begins cs) (r : List Char) : Begins (cs ++ r) := by
  obtain ⟨c, cs, rfl, hb, hc⟩ := h
  exact .of_cons hb hc

theorem skipBlanks_cons {c : Char} (h : isBlank c = false) (r : List Char) :
    skipBlanks (c :: r) = c :: r :=
  List.dropWhile_cons_of_neg (by simp [h])

theorem Begins.skipBlanks {cs : List Char} (h : Begins cs) : Json.skipBlanks cs = cs := by
  obtain ⟨c, cs, rfl, hb, -⟩ := h
  exact skipBlanks_cons hb cs

theorem begins_write {v : Value} (h : v.Plain) : Begins v.write := by
  cases h with
  | null => exact .of_cons (by decide) (by decide)
  | bool b => cases b <;> exact .of_cons (by decide) (by decide)
  | text s => exact .of_cons (by decide) (by decide)
  | @number n hn =>
    obtain ⟨c, r, hr, hc⟩ := exists_text_cons hn
    rw [Value.write_number, hr]
    obtain rfl | hc := hc
    · exact .of_cons (by decide) (by decide)
    · have hne {d : Char} (hd : isDigit d = false) : c ≠ d := ne_of_isDigit hc hd
      refine .of_cons ?_ (hne (by decide))
      simp [isBlank, hne (d := ' ') (by decide), hne (d := '\n') (by decide),
        hne (d := '\t') (by decide), hne (d := '\r') (by decide)]
  | @list items =>
    rw [Value.write_list]
    cases Value.writeItems items <;> exact .of_cons (by decide) (by decide)
  | @object ms =>
    rw [Value.write_object]
    cases Value.writeMembers ms <;> exact .of_cons (by decide) (by decide)

section
variable (fuel : Nat) (r : List Char)

theorem value_null : value (fuel + 1) ("null".toList ++ r) = (.null, some r) := rfl

theorem value_true : value (fuel + 1) ("true".toList ++ r) = (.bool true, some r) := rfl

theorem value_false : value (fuel + 1) ("false".toList ++ r) = (.bool false, some r) := rfl

theorem value_quote : value (fuel + 1) ('"' :: r) = (.text (quoted r).1, (quoted r).2) := rfl

theorem value_text (s : String) :
    value (fuel + 1) (writeText s ++ r) = (.text ⟨.ok s, none⟩, some r) := by
  have htext : writeText s ++ r = '"' :: (s.toList.flatMap escape ++ '"' :: r) := by
    rw [writeText, List.append_assoc]
    rfl
  rw [htext, value_quote, quoted_flatMap]

theorem value_list_nil : value (fuel + 1) ('[' :: ']' :: r) = (.list [] .closed, some r) := rfl

theorem value_object_nil :
    value (fuel + 1) ('\x7b' :: '\x7d' :: r) = (.object [] .closed, some r) := rfl

theorem value_list (hr : Begins r) :
    value (fuel + 1) ('[' :: r) = (.list (items fuel r).1 (items fuel r).2.1, (items fuel r).2.2) := by
  have hs := hr.skipBlanks
  obtain ⟨c, cs, rfl, -, hc⟩ := hr
  rw [value, skipBlanks_cons (by decide)]
  simp only [hs]
  split
  · rename_i heq
    exact absurd heq (List.cons_ne_nil _ _)
  · rename_i heq
    exact absurd (List.cons.inj heq).1 hc
  · rfl

theorem value_object :
    value (fuel + 1) ('\x7b' :: '"' :: r) =
      (.object (members fuel r).1 (members fuel r).2.1, (members fuel r).2.2) := rfl

end

theorem items_one {fuel : Nat} {cs r : List Char} {d : Doc}
    (h : value fuel cs = (d, some (']' :: r))) : items (fuel + 1) cs = ([d], .closed, some r) := by
  rw [items, h]
  rfl

theorem items_more {fuel : Nat} {cs r : List Char} {d : Doc}
    (h : value fuel cs = (d, some (',' :: r))) (hr : Begins r) :
    items (fuel + 1) cs = (d :: (items fuel r).1, (items fuel r).2) := by
  have hs := hr.skipBlanks
  obtain ⟨c, cs, rfl, -, hc⟩ := hr
  rw [items, h]
  simp only [skipBlanks_cons (c := ',') (by decide), hs]
  split
  · rename_i heq
    exact absurd heq (List.cons_ne_nil _ _)
  · rename_i heq
    exact absurd (List.cons.inj heq).1 hc
  · rfl

theorem members_one {fuel : Nat} {k : String} {cs r : List Char} {d : Doc}
    (h : value fuel cs = (d, some ('\x7d' :: r))) :
    members (fuel + 1) (k.toList.flatMap escape ++ '"' :: ':' :: cs) =
      ([(⟨.ok k, none⟩, none, d)], .closed, some r) := by
  rw [members, quoted_flatMap]
  simp only [skipBlanks_cons (c := ':') (by decide), h]
  rfl

theorem members_more {fuel : Nat} {k : String} {cs r : List Char} {d : Doc}
    (h : value fuel cs = (d, some (',' :: '"' :: r))) :
    members (fuel + 1) (k.toList.flatMap escape ++ '"' :: ':' :: cs) =
      ((⟨.ok k, none⟩, none, d) :: (members fuel r).1, (members fuel r).2) := by
  rw [members, quoted_flatMap]
  simp only [skipBlanks_cons (c := ':') (by decide), h]
  rfl

theorem value_number (fuel : Nat) {r : List Char} {n : Number} (hn : n.IsInteger)
    (hr : EndsNumber r) :
    value (fuel + 1) (n.text.toList ++ r) = (.number (.ok n) none, some r) := by
  rw [← numberDoc_text hn hr]
  obtain ⟨c, cs, hcs, hc⟩ := exists_text_cons hn
  have hb := ((begins_write (.number hn)).append r).skipBlanks
  rw [Value.write_number, hcs, List.cons_append] at hb
  rw [hcs, List.cons_append, value, hb]
  have hne {d : Char} (hd : isDigit d = false) (hs : '-' ≠ d) : c ≠ d := by
    obtain rfl | hc := hc
    · exact hs
    · exact ne_of_isDigit hc hd
  have hn := hne (d := 'n') (by decide) (by decide)
  have ht := hne (d := 't') (by decide) (by decide)
  have hf := hne (d := 'f') (by decide) (by decide)
  have hq := hne (d := '"') (by decide) (by decide)
  have hl := hne (d := '[') (by decide) (by decide)
  have ho := hne (d := '\x7b') (by decide) (by decide)
  simp only [hc, if_true]

/-! ## Written values -/

theorem EndsNumber.of_cons {c : Char} (h : c = ',' ∨ c = ']' ∨ c = '\x7d') (r : List Char) :
    EndsNumber (c :: r) := by
  rintro d ⟨⟩
  obtain rfl | rfl | rfl := h <;> decide

/-- The text of a value is read, with fuel for twice its length. -/
def Reads (v : Value) : Prop :=
  ∀ fuel r, 2 * v.write.length ≤ fuel → EndsNumber r →
    value fuel (v.write ++ r) = (.ofValue v, some r)

section
variable {r : List Char}

theorem items_write : ∀ {vs : List Value} {v : Value} {fuel : Nat},
    (∀ w ∈ v :: vs, w.Plain ∧ Reads w) →
    2 * (v.write ++ (vs.map Value.write).flatMap (',' :: ·)).length + 1 ≤ fuel →
    items fuel (v.write ++ ((vs.map Value.write).flatMap (',' :: ·) ++ ']' :: r)) =
      (Doc.ofItems (v :: vs), .closed, some r)
  | [], v, fuel, h, hf => by
    obtain ⟨f, rfl⟩ : ∃ f, fuel = f + 1 := ⟨fuel - 1, by omega⟩
    rw [List.forall_mem_cons] at h
    rw [List.length_append] at hf
    exact items_one (h.1.2 f _ (by omega) (.of_cons (by simp) r))
  | w :: vs, v, fuel, h, hf => by
    obtain ⟨f, rfl⟩ : ∃ f, fuel = f + 1 := ⟨fuel - 1, by omega⟩
    rw [List.forall_mem_cons] at h
    have hw := (h.2 w (List.mem_cons_self ..)).1
    simp only [List.map_cons, List.flatMap_cons, List.cons_append, List.append_assoc,
      List.length_append, List.length_cons] at hf ⊢
    rw [items_more (h.1.2 f _ (by omega) (.of_cons (by simp) _)) ((begins_write hw).append _),
      items_write h.2 (by simp only [List.length_append]; omega)]
    rfl

theorem members_write : ∀ {ms : List (String × Value)} {k : String} {v : Value} {fuel : Nat},
    (∀ m ∈ (k, v) :: ms, Reads m.2) →
    2 * (v.write ++ (ms.map Value.writeMember).flatMap (',' :: ·)).length + 1 ≤ fuel →
    members fuel (k.toList.flatMap escape ++ '"' :: ':' ::
        (v.write ++ ((ms.map Value.writeMember).flatMap (',' :: ·) ++ '\x7d' :: r))) =
      (Doc.ofMembers ((k, v) :: ms), .closed, some r)
  | [], k, v, fuel, h, hf => by
    obtain ⟨f, rfl⟩ : ∃ f, fuel = f + 1 := ⟨fuel - 1, by omega⟩
    have hv : Reads v := h (k, v) (List.mem_cons_self ..)
    rw [List.length_append] at hf
    exact members_one (hv f _ (by omega) (.of_cons (by simp) r))
  | (l, w) :: ms, k, v, fuel, h, hf => by
    obtain ⟨f, rfl⟩ : ∃ f, fuel = f + 1 := ⟨fuel - 1, by omega⟩
    rw [List.forall_mem_cons] at h
    have hv : Reads v := h.1
    have hlen := Value.length_lt_writeMember (l, w)
    simp only [List.map_cons, List.flatMap_cons, List.cons_append, List.append_assoc,
      Value.writeMember_append, List.length_append, List.length_cons] at hf hlen ⊢
    rw [members_more (hv f _ (by omega) (.of_cons (by simp) _)),
      members_write h.2 (by simp only [List.length_append]; omega)]
    rfl

end

theorem Reads.of_succ {v : Value} (hv : v.Plain)
    (h : ∀ fuel r, 2 * v.write.length ≤ fuel + 1 → EndsNumber r →
      value (fuel + 1) (v.write ++ r) = (.ofValue v, some r)) : Reads v := by
  intro fuel r hf hr
  obtain ⟨c, cs, hcs, -⟩ := begins_write hv
  obtain ⟨f, rfl⟩ : ∃ f, fuel = f + 1 := by
    rw [hcs, List.length_cons] at hf
    exact ⟨fuel - 1, by omega⟩
  exact h f r hf hr

theorem reads_of_plain {v : Value} (hv : v.Plain) : Reads v := by
  -- a value takes one step and its place in a list or an object another: twice its length is enough
  induction hv with
  | null => exact .of_succ .null fun f r _ _ => value_null f r
  | bool b =>
    refine .of_succ (.bool b) fun f r _ _ => ?_
    cases b
    · exact value_false f r
    · exact value_true f r
  | text s => exact .of_succ (.text s) fun f r _ _ => value_text f r s
  | number hn => exact .of_succ (.number hn) fun f r _ hr => value_number f hn hr
  | @list vs hvs ih =>
    refine .of_succ (.list hvs) fun f r hf _ => ?_
    rw [Value.write_list, Value.writeItems_eq] at hf ⊢
    cases vs with
    | nil => exact value_list_nil f r
    | cons v vs =>
      have hv := hvs v (List.mem_cons_self ..)
      rw [List.map_cons, enclose_cons, value_list f _ ((begins_write hv).append _),
        items_write fun w hw => ⟨hvs w hw, ih w hw⟩]
      · rfl
      · simp only [List.map_cons, enclose, List.length_append, List.length_cons, List.length_nil] at hf ⊢
        omega
  | @object ms hnames hms ih =>
    refine .of_succ (.object hnames hms) fun f r hf _ => ?_
    rw [Value.write_object, Value.writeMembers_eq] at hf ⊢
    cases ms with
    | nil => exact value_object_nil f r
    | cons m ms =>
      obtain ⟨k, v⟩ := m
      have hlen := Value.length_lt_writeMember (k, v)
      rw [List.map_cons, enclose_cons, Value.writeMember_append, value_object, members_write ih]
      · rfl
      · simp only [List.map_cons, enclose, List.length_append, List.length_cons, List.length_nil] at hf hlen ⊢
        omega

/-! ## Texts -/

theorem ofChars_write {v : Value} (hv : v.Plain) : Text.ofChars v.write = ⟨.ofValue v, none⟩ := by
  have hr : EndsNumber [] := by rintro c ⟨⟩
  have := reads_of_plain hv (2 * v.write.length + 2) [] (by omega) hr
  rw [List.append_nil] at this
  simp only [Text.ofChars, this]
  rfl

/-- A reader of a written value meets the tree of that value. -/
theorem read_written {v : Value} (hv : v.Plain) (f : Doc → Except Fault α) :
    read f v.print = f (.ofValue v) := by
  rw [read, Text.ofString, Value.print, String.toList_ofList, ofChars_write hv, Text.read]
  cases f (.ofValue v) <;> rfl

/-- What is read from a whole text is what is read from its tree, if nothing follows it. -/
theorem read_eq_ok_iff {f : Doc → Except Fault α} {t : String} {a : α} :
    read f t = .ok a ↔ f (Text.ofString t).doc = .ok a ∧ (Text.ofString t).trailing = none := by
  unfold read Text.read
  cases f (Text.ofString t).doc with
  | error e => exact ⟨nofun, nofun⟩
  | ok x =>
    cases (Text.ofString t).trailing with
    | none => simp
    | some e => simp

/-! ## Kept values -/

theorem insert_of_notMem {name : String} {v : Value} : ∀ {o : Object}, name ∉ o.map (·.1) →
    Object.insert name v o = o ++ [(name, v)]
  | [], _ => rfl
  | (n, w) :: o, h => by
    rw [List.map_cons, List.mem_cons, not_or] at h
    rw [Object.insert, if_neg (Ne.symm h.1), insert_of_notMem h.2, List.cons_append]

theorem foldl_insert : ∀ {ms o : List (String × Value)}, ((o ++ ms).map (·.1)).Nodup →
    ms.foldl (fun o (n, v) => Object.insert n v o) o = o ++ ms
  | [], o, _ => by rw [List.append_nil, List.foldl_nil]
  | (n, v) :: ms, o, h => by
    have hn : n ∉ o.map (·.1) := by
      intro hn
      rw [List.map_append, List.map_cons] at h
      exact (List.nodup_append.mp h).2.2 n hn n (List.mem_cons_self ..) rfl
    rw [List.append_cons] at h
    rw [List.foldl_cons]
    simp only [insert_of_notMem hn]
    rw [foldl_insert h, ← List.append_cons]

theorem ofList_of_nodup {ms : List (String × Value)} (h : (ms.map (·.1)).Nodup) :
    Object.ofList ms = ms := foldl_insert h

namespace Doc

theorem keepItems_ofItems {depth : Nat} : ∀ {vs : List Value},
    (∀ v ∈ vs, keep depth (ofValue v) = .ok v) → keepItems depth (ofItems vs) = .ok vs
  | [], _ => rfl
  | v :: vs, h => by
    rw [List.forall_mem_cons] at h
    simp only [ofItems, keepItems, h.1, keepItems_ofItems h.2, bind, Except.bind, pure, Except.pure]

theorem keepMembers_ofMembers {depth : Nat} : ∀ {ms : List (String × Value)},
    (∀ m ∈ ms, keep depth (ofValue m.2) = .ok m.2) → keepMembers depth (ofMembers ms) = .ok ms
  | [], _ => rfl
  | (k, v) :: ms, h => by
    rw [List.forall_mem_cons] at h
    simp only [ofMembers, keepMembers, h.1, keepMembers_ofMembers h.2, bind, Except.bind, pure,
      Except.pure]

/-- A written value is kept as it is if it fits in what is left of the depth. -/
theorem keep_ofValue {v : Value} (hv : v.Plain) {depth : Nat} (hd : v.depth < depth) :
    keep depth (ofValue v) = .ok v := by
  induction hv generalizing depth with
  | null | bool | number | text => rfl
  | @list vs hvs ih =>
    rw [Value.depth] at hd
    obtain ⟨d, rfl⟩ : ∃ d, depth = d + 2 := ⟨depth - 2, by omega⟩
    have hvs : ∀ v ∈ vs, keep (d + 1) (ofValue v) = .ok v := fun v hv =>
      ih v hv (Nat.lt_succ_of_le (Value.itemsDepth_le_iff.mp (by omega) v hv))
    simp only [ofValue_list, keep, keepItems_ofItems hvs, endFault]
  | @object ms hnames hms ih =>
    rw [Value.depth] at hd
    obtain ⟨d, rfl⟩ : ∃ d, depth = d + 2 := ⟨depth - 2, by omega⟩
    have hms : ∀ m ∈ ms, keep (d + 1) (ofValue m.2) = .ok m.2 := fun m hm =>
      ih m hm (Nat.lt_succ_of_le (Value.membersDepth_le_iff.mp (by omega) m hm))
    simp only [ofValue_object, keep, keepMembers_ofMembers hms, endFault, ofList_of_nodup hnames]

/-- A written object is kept as it is if it lies high enough in its text. -/
theorem keptObject_ofValue {o : Object} (ho : (Value.object o).Plain) {level : Nat}
    (hd : (Value.object o).depth + level ≤ 128) : keptObject level (ofValue (.object o)) = .ok o := by
  cases ho with
  | object hnames hms =>
    rw [Value.depth] at hd
    have hkeep : ∀ m ∈ o, keep (128 - level) (ofValue m.2) = .ok m.2 := fun m hm =>
      keep_ofValue (hms m hm) (by
        have := Value.membersDepth_le_iff.mp (Nat.le_refl _) m hm
        omega)
    simp only [ofValue_object, keptObject, keepMembers_ofMembers hkeep, endFault, ofList_of_nodup hnames, bind,
      Except.bind, pure, Except.pure]

/-! ## Lists and records -/

theorem each_ofItems {f : Doc → Except Fault α} {g : β → Value} {h : β → α} : ∀ {l : List β},
    (∀ b ∈ l, f (ofValue (g b)) = .ok (h b)) → each f (ofItems (l.map g)) = .ok (l.map h)
  | [], _ => rfl
  | b :: l, hl => by
    rw [List.forall_mem_cons] at hl
    simp only [List.map_cons, ofItems, each, hl.1, each_ofItems hl.2, bind, Except.bind, pure,
      Except.pure]

theorem listOf_ofValue {f : Doc → Except Fault α} {g : β → Value} {h : β → α} {l : List β}
    (hl : ∀ b ∈ l, f (ofValue (g b)) = .ok (h b)) :
    listOf f (ofValue (.list (l.map g))) = .ok (l.map h) := by
  simp only [ofValue_list, listOf, each_ofItems hl, endFault, bind, Except.bind, pure, Except.pure]

end Doc

/-- A member of a record: its name, its value and what it makes of the state. -/
structure Entry (σ : Type) where
  name : String
  value : Value
  set : σ → σ

namespace Entry

/-- The field of this name takes the value so. -/
def ReadBy (fields : List (String × (Doc → σ → Except Fault σ))) (e : Entry σ) : Prop :=
  ∃ take, Shape.find? fields e.name = some take ∧ ∀ s, take (.ofValue e.value) s = .ok (e.set s)

/-- The object of entries. -/
def object (es : List (Entry σ)) : Value := .object (es.map fun e => (e.name, e.value))

end Entry

theorem readMembers_entries {fields : List (String × (Doc → σ → Except Fault σ))} {skips : Bool} :
    ∀ {es : List (Entry σ)} {seen : List String} {s : σ}, (∀ e ∈ es, e.ReadBy fields) →
    (es.map (·.name)).Nodup → (∀ e ∈ es, e.name ∉ seen) →
    Shape.readMembers fields skips seen s (Doc.ofMembers (es.map fun e => (e.name, e.value))) =
      .ok (es.foldl (fun s e => e.set s) s)
  | [], _, _, _, _, _ => rfl
  | e :: es, seen, s, hread, hnames, hseen => by
    rw [List.forall_mem_cons] at hread hseen
    rw [List.map_cons, List.nodup_cons] at hnames
    obtain ⟨take, hfind, htake⟩ := hread.1
    have hseen' : ∀ d ∈ es, d.name ∉ e.name :: seen := by
      intro d hd hmem
      obtain h | h := List.mem_cons.mp hmem
      · exact hnames.1 (List.mem_map.mpr ⟨d, hd, h⟩)
      · exact hseen.2 d hd h
    simp only [List.map_cons, Doc.ofMembers, Shape.readMembers, hfind, htake, bind, Except.bind,
      if_neg hseen.1, List.foldl_cons]
    exact readMembers_entries hread.2 hnames.2 hseen'

theorem Shape.read_entries {shape : Shape σ ρ} {es : List (Entry σ)}
    (hread : ∀ e ∈ es, e.ReadBy shape.fields) (hnames : (es.map (·.name)).Nodup) :
    shape.read (.ofValue (Entry.object es)) = shape.finish (es.foldl (fun s e => e.set s) shape.start) := by
  simp only [Entry.object, Doc.ofValue_object, Shape.read,
    readMembers_entries hread hnames fun _ _ => List.not_mem_nil, bind, Except.bind, Doc.endFault]

end Courier.Json
