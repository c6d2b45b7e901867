import Courier.Proofs.ConfigSound
import Courier.Proofs.HexSound

/-!
# Protocols come back by their codes

The text of a protocol and the number of its code are read as the protocol of
that code. What is read has a name if its code has one, and such a protocol is
the one that its text is read as. Besides the six names, the texts that are
read are those of hexadecimal numbers of 64 bits (`codes_survive`).
-/

namespace Courier.Protocol

open Json (Doc Value)

/-- The texts with a meaning of their own. -/
def names : List (String × Protocol) :=
  [("bitswap", .bitswap), ("transport-bitswap", .bitswap),
    ("graphsync", .graphsync), ("transport-graphsync-filecoinv1", .graphsync),
    ("http", .http), ("transport-ipfs-gateway-http", .http)]

/-- A raw code is not one of those with names. -/
def Normal (p : Protocol) : Prop := ∀ c, p = .other c → c ≠ 0x0900 ∧ c ≠ 0x0910 ∧ c ≠ 0x0920

variable {s : String} {p q : Protocol}

theorem normal_ofCode (c : UInt64) : (ofCode c).Normal := by
  intro d hd
  unfold ofCode at hd
  split at hd
  · cases hd
  split at hd
  · cases hd
  split at hd
  · cases hd
  · cases hd
    exact ⟨‹_›, ‹_›, ‹_›⟩

theorem Normal.ofCode_code (h : p.Normal) : ofCode p.code = p := by
  cases p with
  | bitswap => rfl
  | graphsync => rfl
  | http => rfl
  | other c =>
    obtain ⟨hb, hg, hh⟩ := h c rfl
    show ofCode c = .other c
    unfold ofCode
    rw [if_neg hb, if_neg hg, if_neg hh]

theorem same_ofCode (p : Protocol) : (ofCode p.code).same p = true := by
  unfold same
  rw [code_ofCode]
  exact beq_self_eq_true p.code

/-! ## Texts -/

theorem parse_of_mem_names (h : (s, p) ∈ names) : parse s = .ok p :=
  (by decide : ∀ e ∈ names, parse e.1 = .ok e.2) (s, p) h

theorem parse_of_ne (h : ∀ e ∈ names, s ≠ e.1) :
    parse s = match s.toList with
      | '0' :: 'x' :: r =>
        match Hex.read r with
        | .ok c => .ok (ofCode c)
        | .error e => .error (.number e)
      | _ => .error (.unrecognized s) := by
  simp only [names, List.forall_mem_cons] at h
  obtain ⟨hb, htb, hg, htg, hh, hth, -⟩ := h
  unfold parse
  rw [if_neg (not_or.mpr ⟨hb, htb⟩), if_neg (not_or.mpr ⟨hg, htg⟩)]
  exact if_neg (not_or.mpr ⟨hh, hth⟩)

theorem toList_number (r : List Char) : ("0x" ++ String.ofList r).toList = '0' :: 'x' :: r := by
  have hr : (String.ofList r).toList = r := String.toList_ofList
  rw [String.toList_append, hr]
  rfl

/-- No name starts like a number. -/
theorem parse_number {r : List Char} {c : UInt64} (h : Hex.read r = .ok c) :
    parse ("0x" ++ String.ofList r) = .ok (ofCode c) := by
  have hzero : ∀ e ∈ names, e.1.toList.head? ≠ some '0' := by decide
  rw [parse_of_ne, toList_number]
  · simp only [h]
  · intro e he hs
    apply hzero e he
    rw [← hs, toList_number]
    rfl

theorem of_parse (h : parse s = .ok q) : (s, q) ∈ names ∨
    ∃ r c, s = "0x" ++ String.ofList r ∧ Hex.read r = .ok c ∧ q = ofCode c := by
  by_cases hs : ∃ p, (s, p) ∈ names
  · obtain ⟨p, hp⟩ := hs
    rw [parse_of_mem_names hp] at h
    cases h
    exact .inl hp
  · have hne : ∀ e ∈ names, s ≠ e.1 := by
      intro e he hse
      rw [hse] at hs
      exact hs ⟨e.2, he⟩
    rw [parse_of_ne hne] at h
    split at h
    · next r hr =>
      split at h
      · next c hc =>
        cases h
        refine .inr ⟨r, c, ?_, hc, rfl⟩
        rw [← String.toList_inj, hr, toList_number]
      · cases h
    · cases h

theorem parse_eq_ok_iff : parse s = .ok q ↔ (s, q) ∈ names ∨
    ∃ r c, s = "0x" ++ String.ofList r ∧ Hex.read r = .ok c ∧ q = ofCode c := by
  constructor
  · exact of_parse
  · intro h
    obtain h | ⟨r, c, hs, hr, hq⟩ := h
    · exact parse_of_mem_names h
    · rw [hs, hq, parse_number hr]

theorem signed_eq (ds : List Char) :
    "0x" ++ "+" ++ String.ofList ds = "0x" ++ String.ofList ('+' :: ds) := by
  have hds : (String.ofList ds).toList = ds := String.toList_ofList
  rw [← String.toList_inj, toList_number, String.toList_append, hds]
  rfl

/-- The sign may be left out. -/
theorem number_iff {c : UInt64} : (∃ r, s = "0x" ++ String.ofList r ∧ Hex.read r = .ok c) ↔
    ∃ sign ∈ ["", "+"], ∃ ds, s = "0x" ++ sign ++ String.ofList ds ∧ ds ≠ [] ∧
      Hex.Writes ds c.toNat := by
  simp only [List.mem_cons, List.not_mem_nil, or_false, exists_eq_or_imp, exists_eq_left,
    Hex.read_eq_ok_iff]
  constructor
  · intro ⟨r, hs, ds, hr, hne, hw⟩
    obtain rfl | rfl := hr
    · exact .inl ⟨r, hs, hne, hw⟩
    · exact .inr ⟨ds, hs.trans (signed_eq ds).symm, hne, hw⟩
  · intro h
    obtain ⟨ds, hs, hne, hw⟩ | ⟨ds, hs, hne, hw⟩ := h
    · exact ⟨ds, hs, ds, .inl rfl, hne, hw⟩
    · exact ⟨'+' :: ds, hs.trans (signed_eq ds), ds, .inr rfl, hne, hw⟩

theorem parse_text (p : Protocol) : parse p.text = .ok (ofCode p.code) := by
  cases p with
  | bitswap => decide
  | graphsync => decide
  | http => decide
  | other c =>
    have hread : Hex.read (Hex.digits 4 c) = .ok c := Hex.read_digits (by decide) (by decide)
    exact parse_number hread

theorem normal_of_parse (h : parse s = .ok q) : q.Normal := by
  obtain h | ⟨r, c, -, -, hq⟩ := of_parse h
  · have hnamed : ∀ e ∈ names, e.2 = ofCode e.2.code := by decide
    have hq : q = ofCode q.code := hnamed (s, q) h
    rw [hq]
    exact normal_ofCode q.code
  · rw [hq]
    exact normal_ofCode c

/-! ## Numbers in JSON -/

/-- How one of a list of protocols is read. -/
def readNumber (d : Doc) : Except Json.Fault Protocol := d.word64.map ofCode

theorem readProtocols_eq : readProtocols = Doc.listOf readNumber := rfl

theorem normal_of_readNumber {d : Doc} (h : readNumber d = .ok q) : q.Normal := by
  unfold readNumber at h
  cases hc : d.word64 with
  | error e =>
    rw [hc] at h
    cases h
  | ok c =>
    rw [hc] at h
    cases h
    exact normal_ofCode c

theorem normal_of_each {ds : List Doc} {l : List Protocol} (h : Doc.each readNumber ds = .ok l) :
    ∀ q ∈ l, q.Normal := by
  induction ds generalizing l with
  | nil =>
    cases h
    exact nofun
  | cons d ds ih =>
    obtain ⟨p, hp, h⟩ := of_bind_eq_ok h
    obtain ⟨ps, hps, h⟩ := of_bind_eq_ok h
    cases h
    rw [List.forall_mem_cons]
    exact ⟨normal_of_readNumber hp, ih hps⟩

theorem normal_of_readProtocols {d : Doc} {l : List Protocol} (h : readProtocols d = .ok l) :
    ∀ q ∈ l, q.Normal := by
  rw [readProtocols_eq] at h
  cases d with
  | list items e =>
    obtain ⟨ps, hps, h⟩ := of_bind_eq_ok h
    split at h
    · cases h
    · cases h
      exact normal_of_each hps
  | _ => cases h

theorem readNumber_ofValue (p : Protocol) :
    readNumber (.ofValue (.number (.natural p.code))) = .ok (ofCode p.code) := by
  unfold readNumber
  rw [word64_ofValue]
  rfl

/-- The text of a protocol and the number of its code are read as a protocol that is the same. What
is read is no raw code with a name, and its text is read as it. The texts that are read are the six
names and, after `0x` and maybe a plus sign, digits of either case that write a number of 64 bits,
however many zeros come first. -/
theorem codes_survive :
    (∀ p : Protocol, (ofCode p.code).same p ∧
      parse p.text = .ok (ofCode p.code) ∧
      Json.read readNumber (Value.number (.natural p.code)).print = .ok (ofCode p.code)) ∧
    (∀ s q, parse s = .ok q → q.Normal ∧ parse q.text = .ok q) ∧
    (∀ (d : Doc) q, readNumber d = .ok q → q.Normal ∧ parse q.text = .ok q) ∧
    (∀ (d : Doc) l, readProtocols d = .ok l → ∀ q ∈ l, q.Normal ∧ parse q.text = .ok q) ∧
    (∀ s q, parse s = .ok q ↔ (s, q) ∈ names ∨
      ∃ sign ∈ ["", "+"], ∃ ds n, s = "0x" ++ sign ++ String.ofList ds ∧ ds ≠ [] ∧
        Hex.Writes ds n ∧ n < 2 ^ 64 ∧ q = ofCode (UInt64.ofNat n)) := by
  have hagain : ∀ q : Protocol, q.Normal → q.Normal ∧ parse q.text = .ok q := by
    intro q hq
    refine ⟨hq, ?_⟩
    rw [parse_text, hq.ofCode_code]
  refine ⟨fun p => ⟨same_ofCode p, parse_text p, ?_⟩, ?_, ?_, ?_, ?_⟩
  · rw [Json.read_written (.number (.natural p.code)), readNumber_ofValue]
  · intro s q h
    exact hagain q (normal_of_parse h)
  · intro d q h
    exact hagain q (normal_of_readNumber h)
  · intro d l h q hq
    exact hagain q (normal_of_readProtocols h q hq)
  · intro s q
    rw [parse_eq_ok_iff]
    apply or_congr_right
    constructor
    · intro ⟨r, c, hs, hr, hq⟩
      obtain ⟨sign, hsign, ds, hs, hne, hw⟩ := number_iff.mp ⟨r, hs, hr⟩
      refine ⟨sign, hsign, ds, c.toNat, hs, hne, hw, c.toNat_lt, ?_⟩
      rw [UInt64.ofNat_toNat, hq]
    · intro ⟨sign, hsign, ds, n, hs, hne, hw, hn, hq⟩
      have hc : (UInt64.ofNat n).toNat = n := UInt64.toNat_ofNat_of_lt hn
      rw [← hc] at hw
      obtain ⟨r, hs, hr⟩ := number_iff.mpr ⟨sign, hsign, ds, hs, hne, hw⟩
      exact ⟨r, UInt64.ofNat n, hs, hr, hq⟩

/-- Zeros may come first, digits may be in capitals, and a number may not be too large. -/
example :
    parse "0x+000AbC" = .ok (.other 0xABC) ∧ parse "0x0920" = .ok .http ∧
      parse "0x10000000000000000" = .error (.number .overflow) ∧
      parse "0x" = .error (.number .empty) := by
  decide

end Courier.Protocol
