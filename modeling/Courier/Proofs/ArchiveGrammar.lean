import Courier.Archive.Reader
import Courier.Proofs.VarintSound
import Mathlib.Data.List.Forall2

/-!
# The grammar of an archive

An archive is a header frame and section frames after it. A frame is the
length of its payload, of one octet to 4 MiB, and the payload; the payload of
a section is an identifier and the data behind it. Whatever does not read as a
frame either stops before its end or has a bad length, and a payload that is
no section has a bad identifier; the grammar says which. Each case is what
`splitFrame` and `sectionBlock` decide.
-/

namespace Courier.Archive

open Varint (IsCode Groups Numberless)

/-! ## Identifiers and sections -/

/-- The octets of an identifier: a bare digest of SHA-256, or the version 1, a
codec, the code of a hash function, the length of a digest and the digest. -/
inductive IsCid : Bytes → Prop
  | bare {d : Bytes} : d.length = 32 → IsCid (0x12 :: 0x20 :: d)
  | numbered {v c h l d : Bytes} {codec hash : Nat} : IsCode v 1 → IsCode c codec → IsCode h hash →
      IsCode l d.length → IsCid (v ++ (c ++ (h ++ (l ++ d))))

structure IsSection (p : Bytes) (b : Block) : Prop where
  split : p = b.cid.bytes ++ b.data
  cid : IsCid b.cid.bytes
  links : b.links = []

/-- Whether an identifier has no number in front of its digest. -/
def Bare (p : Bytes) : Prop := ∃ r, p = 0x12 :: 0x20 :: r

/-- What is wrong with a payload that starts with no identifier. -/
inductive BadCid : Bytes → Fault → Prop
  | bareDigest {d : Bytes} : d.length < 32 → BadCid (0x12 :: 0x20 :: d) .shortSection
  | noVersion {p : Bytes} : ¬ Bare p → Numberless p → BadCid p (.cidField .version)
  | version {v r : Bytes} {n : Nat} : ¬ Bare (v ++ r) → IsCode v n → n ≠ 1 →
      BadCid (v ++ r) (.cidVersion n)
  | noCodec {v r : Bytes} : IsCode v 1 → Numberless r → BadCid (v ++ r) (.cidField .codec)
  | noHash {v c r : Bytes} {codec : Nat} : IsCode v 1 → IsCode c codec → Numberless r →
      BadCid (v ++ (c ++ r)) (.cidField .hashCode)
  | noLength {v c h r : Bytes} {codec hash : Nat} : IsCode v 1 → IsCode c codec → IsCode h hash →
      Numberless r → BadCid (v ++ (c ++ (h ++ r))) (.cidField .digestLength)
  | digest {v c h l d : Bytes} {codec hash n : Nat} : IsCode v 1 → IsCode c codec → IsCode h hash →
      IsCode l n → d.length < n → BadCid (v ++ (c ++ (h ++ (l ++ d)))) .shortSection

/-! ## Frames -/

structure IsFrame (w p : Bytes) : Prop where
  nonempty : 1 ≤ p.length
  bounded : p.length ≤ 4 * 1024 * 1024
  split : ∃ v, w = v ++ p ∧ IsCode v p.length

/-- The front of a byte string may still become a frame. -/
inductive Unfinished : Bytes → Prop
  | length {s : Bytes} : s.length < 10 → (∀ b ∈ s, 128 ≤ b.toNat) → Unfinished s
  | payload {v p : Bytes} {n : Nat} : IsCode v n → 1 ≤ n → n ≤ 4 * 1024 * 1024 → p.length < n →
      Unfinished (v ++ p)

/-- What is wrong with a byte string whose front is the length of no frame. -/
inductive BadLength : Bytes → Fault → Prop
  | endless {s : Bytes} : 10 ≤ s.length → (∀ b ∈ s.take 10, 128 ≤ b.toNat) →
      BadLength s .varintTooLong
  | large {v r : Bytes} {n : Nat} : Groups v n → v.length ≤ 10 → 2 ^ 64 ≤ n →
      BadLength (v ++ r) .invalidVarint
  | range {v r : Bytes} {n : Nat} : IsCode v n → n = 0 ∨ 4 * 1024 * 1024 < n →
      BadLength (v ++ r) (.frameLength n)

inductive Frames : Bytes → List Bytes → Prop
  | nil : Frames [] []
  | cons {w p r : Bytes} {ps : List Bytes} : IsFrame w p → Frames r ps → Frames (w ++ r) (p :: ps)

def IsArchive (s : Bytes) (bs : List Block) : Prop :=
  ∃ header ps, Frames s (header :: ps) ∧ List.Forall₂ IsSection ps bs

/-! ## Reading in one pass -/

/-- The sections at the front of a byte string, up to what is wrong with the
next one or to where the byte string ends. -/
inductive Sections : Bytes → List (Except Fault Block) → Prop
  | unfinished {s : Bytes} : Unfinished s → Sections s []
  | badLength {s : Bytes} {e : Fault} : BadLength s e → Sections s [.error e]
  | badCid {w p r : Bytes} {e : Fault} : IsFrame w p → BadCid p e → Sections (w ++ r) [.error e]
  | cons {w p r : Bytes} {b : Block} {l : List (Except Fault Block)} : IsFrame w p → IsSection p b →
      Sections r l → Sections (w ++ r) (.ok b :: l)

inductive Parses : Bytes → List (Except Fault Block) → Prop
  | unfinished {s : Bytes} : Unfinished s → Parses s []
  | badLength {s : Bytes} {e : Fault} : BadLength s e → Parses s [.error e]
  | header {w h r : Bytes} {l : List (Except Fault Block)} : IsFrame w h → Sections r l →
      Parses (w ++ r) l

/-! ## Deciding what stands at the front -/

theorem any_append_of_length {w r : Bytes} {n : Nat} (hw : Groups w n) (h : w.length ≤ 10) :
    ((w ++ r).take Varint.maxLength).any (fun b => b.toNat < 128) = true :=
  Varint.any_of_groups hw r h

theorem frameLength_of_code {v : Bytes} {n : Nat} (hv : IsCode v n) (r : Bytes) :
    frameLength (v ++ r) = .ok (some (n, r)) := by
  unfold frameLength
  rw [if_pos (any_append_of_length hv.groups hv.short), hv.read_append]

theorem splitFrame_of_code {v : Bytes} {n : Nat} (hv : IsCode v n) (h1 : 1 ≤ n)
    (hn : n ≤ 4 * 1024 * 1024) (r : Bytes) :
    splitFrame (v ++ r) =
      if (r.take n).length < n then .ok none else .ok (some (r.take n, r.drop n)) := by
  have hin : ¬ (n = 0 ∨ maxFrame < n) := by unfold maxFrame; omega
  unfold splitFrame
  simp only [frameLength_of_code hv, if_neg hin]

theorem splitFrame_of_frame {w p : Bytes} (h : IsFrame w p) (r : Bytes) :
    splitFrame (w ++ r) = .ok (some (p, r)) := by
  obtain ⟨v, rfl, hv⟩ := h.split
  have hb := h.bounded
  have hp := h.nonempty
  rw [List.append_assoc, splitFrame_of_code hv hp hb, List.take_left, List.drop_left]
  exact if_neg (Nat.lt_irrefl _)

theorem splitFrame_of_unfinished {s : Bytes} (h : Unfinished s) : splitFrame s = .ok none := by
  cases h with
  | length hs hall =>
    have hany : (s.take Varint.maxLength).any (fun b => b.toNat < 128) = false := by
      rw [List.any_eq_false]
      intro b hb
      have := hall b (List.mem_of_mem_take hb)
      simp only [decide_eq_true_eq]
      omega
    have hs' : s.length < Varint.maxLength := hs
    simp [splitFrame, frameLength, hany, hs']
  | @payload v p n hv h1 hn hp =>
    rw [splitFrame_of_code hv h1 hn]
    exact if_pos (by rw [List.length_take]; omega)

theorem splitFrame_of_badLength {s : Bytes} {e : Fault} (h : BadLength s e) :
    splitFrame s = .error e := by
  cases h with
  | endless hs hall =>
    have hany : (s.take Varint.maxLength).any (fun b => b.toNat < 128) = false := by
      rw [List.any_eq_false]
      intro b hb
      have := hall b hb
      simp only [decide_eq_true_eq]
      omega
    have hs' : ¬ s.length < Varint.maxLength := Nat.not_lt.mpr hs
    simp [splitFrame, frameLength, hany, hs']
  | @large v r n hv hlen hn =>
    have hr : Varint.read (v ++ r) = none := by
      rw [Varint.read_eq_none_iff]
      intro w m u hs hw
      obtain ⟨_, rfl, _⟩ := hv.unique hw.groups hs
      exact absurd hw.fits (Nat.not_lt.mpr hn)
    simp [splitFrame, frameLength, any_append_of_length hv hlen, hr]
  | @range v r n hv hn =>
    have hout : n = 0 ∨ maxFrame < n := hn
    simp [splitFrame, frameLength_of_code hv, hout]

theorem front_cases (s : Bytes) :
    (∃ w p r, s = w ++ r ∧ IsFrame w p) ∨ Unfinished s ∨ ∃ e, BadLength s e := by
  by_cases hany : (s.take 10).any (fun b => b.toNat < 128) = true
  · obtain ⟨v, n, r, rfl, hv, hlen⟩ := Varint.exists_groups_of_any hany
    by_cases hfit : 2 ^ 64 ≤ n
    · exact .inr (.inr ⟨_, .large hv hlen hfit⟩)
    have hc : IsCode v n := ⟨hv, hlen, Nat.lt_of_not_le hfit⟩
    by_cases hn : n = 0 ∨ 4 * 1024 * 1024 < n
    · exact .inr (.inr ⟨_, .range hc hn⟩)
    rw [not_or, Nat.not_lt] at hn
    by_cases hr : r.length < n
    · exact .inr (.inl (.payload hc (Nat.one_le_iff_ne_zero.mpr hn.1) hn.2 hr))
    · have hlen' : (r.take n).length = n := by rw [List.length_take]; omega
      refine .inl ⟨v ++ r.take n, r.take n, r.drop n, by simp, by omega, by omega, v, rfl, ?_⟩
      rw [hlen']
      exact hc
  · have hall : ∀ b ∈ s.take 10, 128 ≤ b.toNat := by
      intro b hb
      rw [List.any_eq_true, not_exists] at hany
      have := hany b
      simp only [hb, true_and, decide_eq_true_eq] at this
      omega
    by_cases hs : s.length < 10
    · rw [List.take_of_length_le (Nat.le_of_lt hs)] at hall
      exact .inr (.inl (.length hs hall))
    · exact .inr (.inr ⟨_, .endless (Nat.le_of_not_lt hs) hall⟩)

theorem splitFrame_eq_frame_iff {s p r : Bytes} :
    splitFrame s = .ok (some (p, r)) ↔ ∃ w, s = w ++ r ∧ IsFrame w p := by
  constructor
  · intro h
    rcases front_cases s with ⟨w, q, u, rfl, hw⟩ | hs | ⟨e, he⟩
    · rw [splitFrame_of_frame hw] at h
      simp only [Except.ok.injEq, Option.some.injEq, Prod.mk.injEq] at h
      obtain ⟨rfl, rfl⟩ := h
      exact ⟨w, rfl, hw⟩
    · rw [splitFrame_of_unfinished hs] at h; cases h
    · rw [splitFrame_of_badLength he] at h; cases h
  · rintro ⟨w, rfl, hw⟩
    exact splitFrame_of_frame hw r

theorem splitFrame_eq_none_iff {s : Bytes} : splitFrame s = .ok none ↔ Unfinished s := by
  refine ⟨fun h => ?_, splitFrame_of_unfinished⟩
  rcases front_cases s with ⟨w, q, u, rfl, hw⟩ | hs | ⟨e, he⟩
  · rw [splitFrame_of_frame hw] at h; cases h
  · exact hs
  · rw [splitFrame_of_badLength he] at h; cases h

theorem splitFrame_eq_error_iff {s : Bytes} {e : Fault} :
    splitFrame s = .error e ↔ BadLength s e := by
  refine ⟨fun h => ?_, splitFrame_of_badLength⟩
  rcases front_cases s with ⟨w, q, u, rfl, hw⟩ | hs | ⟨e', he⟩
  · rw [splitFrame_of_frame hw] at h; cases h
  · rw [splitFrame_of_unfinished hs] at h; cases h
  · rw [splitFrame_of_badLength he] at h; cases h; exact he

/-! ## Deciding what a payload starts with -/

theorem not_bare_of_code {v : Bytes} (hv : IsCode v 1) (r : Bytes) : ¬ Bare (v ++ r) := by
  rintro ⟨u, hu⟩
  have hg := hv.groups
  generalize hn : 1 = n at hg
  cases hg with
  | @last b _ =>
    simp only [List.singleton_append, List.cons.injEq] at hu
    rw [hu.1] at hn
    cases hn
  | @more b w n hb _ =>
    simp only [List.cons_append, List.cons.injEq] at hu
    rw [hu.1] at hb
    exact absurd hb (by decide)

theorem claimedLayout_of_not_bare {s : Bytes} (h : ¬ Bare s) :
    claimedLayout s = (do
      let (version, r) ← field .version s
      if version ≠ 1 then throw (.cidVersion version)
      let (_, r) ← field .codec r
      let (hash, r) ← field .hashCode r
      let (length, r) ← field .digestLength r
      return ⟨hash, s.length - r.length, s.length - r.length + length⟩) := by
  unfold claimedLayout
  split
  · rename_i r
    exact absurd ⟨r, rfl⟩ h
  · rfl

theorem field_append {v : Bytes} {n : Nat} (hv : IsCode v n) (f : CidField) (r : Bytes) :
    field f (v ++ r) = .ok (n, r) := by
  simp [field, hv.read_append]

theorem field_numberless {s : Bytes} (h : Numberless s) (f : CidField) :
    field f s = .error (.cidField f) := by
  simp [field, Varint.read_eq_none_iff.mpr h]

theorem layout_of_numbers {v c h l : Bytes} {codec hash n : Nat} (hv : IsCode v 1)
    (hc : IsCode c codec) (hh : IsCode h hash) (hl : IsCode l n) (d : Bytes) :
    layout (v ++ (c ++ (h ++ (l ++ d)))) =
      if d.length < n then .error .shortSection
      else .ok ⟨hash, v.length + c.length + h.length + l.length,
        v.length + c.length + h.length + l.length + n⟩ := by
  have hstart : v.length + (c.length + (h.length + (l.length + d.length))) - d.length =
      v.length + c.length + h.length + l.length := by omega
  have hlen : v.length + (c.length + (h.length + (l.length + d.length))) <
      v.length + c.length + h.length + l.length + n ↔ d.length < n := by omega
  simp only [layout, claimedLayout_of_not_bare (not_bare_of_code hv _), field_append hv,
    field_append hc, field_append hh, field_append hl, bind, Except.bind, List.length_append, hstart,
    hlen, pure, Except.pure, throw, throwThe, MonadExceptOf.throw, ne_eq, not_true_eq_false, if_false]

theorem layout_of_bare (d : Bytes) :
    layout (0x12 :: 0x20 :: d) =
      if d.length < 32 then .error .shortSection else .ok ⟨sha256Code, 2, 34⟩ := by
  have hlen : d.length + 1 + 1 < 34 ↔ d.length < 32 := by omega
  simp only [layout, claimedLayout, bind, Except.bind, List.length_cons, hlen, pure, Except.pure,
    throw, throwThe, MonadExceptOf.throw]

theorem stop_of_cid {c : Bytes} (h : IsCid c) (d : Bytes) :
    ∃ l, layout (c ++ d) = .ok l ∧ l.stop = c.length := by
  cases h with
  | @bare e he =>
    refine ⟨⟨sha256Code, 2, 34⟩, ?_, by simp [he]⟩
    rw [List.cons_append, List.cons_append, layout_of_bare]
    exact if_neg (by rw [List.length_append]; omega)
  | @numbered v c h l e codec hash hv hc hh hl =>
    refine ⟨⟨hash, v.length + c.length + h.length + l.length,
      v.length + c.length + h.length + l.length + e.length⟩, ?_, by simp; omega⟩
    simp only [List.append_assoc]
    rw [layout_of_numbers hv hc hh hl]
    exact if_neg (by rw [List.length_append]; omega)

theorem sectionBlock_of_section {p : Bytes} {b : Block} (h : IsSection p b) :
    sectionBlock p = .ok b := by
  obtain ⟨l, hl, hstop⟩ := stop_of_cid h.cid b.data
  have hp := h.split
  have hlinks := h.links
  obtain ⟨⟨c⟩, d, ls⟩ := b
  simp only at hp hl hstop hlinks
  subst hp hlinks
  simp [sectionBlock, hl, hstop]

theorem sectionBlock_of_badCid {p : Bytes} {e : Fault} (h : BadCid p e) :
    sectionBlock p = .error e := by
  have hl : layout p = .error e := by
    cases h with
    | bareDigest hd => rw [layout_of_bare]; exact if_pos hd
    | noVersion hb hn =>
      simp [layout, claimedLayout_of_not_bare hb, field_numberless hn, bind, Except.bind]
    | version hb hv hn =>
      simp [layout, claimedLayout_of_not_bare hb, field_append hv, hn, bind, Except.bind, throw,
        throwThe, MonadExceptOf.throw]
    | noCodec hv hn =>
      simp [layout, claimedLayout_of_not_bare (not_bare_of_code hv _), field_append hv,
        field_numberless hn, bind, Except.bind]
    | noHash hv hc hn =>
      simp [layout, claimedLayout_of_not_bare (not_bare_of_code hv _), field_append hv,
        field_append hc, field_numberless hn, bind, Except.bind]
    | noLength hv hc hh hn =>
      simp [layout, claimedLayout_of_not_bare (not_bare_of_code hv _), field_append hv,
        field_append hc, field_append hh, field_numberless hn, bind, Except.bind]
    | digest hv hc hh hl hd => rw [layout_of_numbers hv hc hh hl]; exact if_pos hd
  simp [sectionBlock, hl]

theorem code_or_numberless (s : Bytes) :
    (∃ w n r, s = w ++ r ∧ IsCode w n) ∨ Numberless s := by
  rcases hr : Varint.read s with _ | ⟨n, r⟩
  · exact .inr (Varint.read_eq_none_iff.mp hr)
  · obtain ⟨w, hs, hw⟩ := Varint.read_eq_some_iff.mp hr
    exact .inl ⟨w, n, r, hs, hw⟩

theorem payload_cases (p : Bytes) : (∃ b, IsSection p b) ∨ ∃ e, BadCid p e := by
  by_cases hb : Bare p
  · obtain ⟨d, rfl⟩ := hb
    by_cases hd : d.length < 32
    · exact .inr ⟨_, .bareDigest hd⟩
    · refine .inl ⟨⟨⟨0x12 :: 0x20 :: d.take 32⟩, d.drop 32, []⟩, by simp, .bare ?_, rfl⟩
      rw [List.length_take]
      omega
  rcases code_or_numberless p with ⟨v, n, r, rfl, hv⟩ | hn
  · by_cases h1 : n = 1
    · subst h1
      rcases code_or_numberless r with ⟨c, codec, r, rfl, hc⟩ | hn
      · rcases code_or_numberless r with ⟨h, hash, r, rfl, hh⟩ | hn
        · rcases code_or_numberless r with ⟨l, n, d, rfl, hl⟩ | hn
          · by_cases hd : d.length < n
            · exact .inr ⟨_, .digest hv hc hh hl hd⟩
            · have hlen : (d.take n).length = n := by rw [List.length_take]; omega
              refine .inl ⟨⟨⟨v ++ (c ++ (h ++ (l ++ d.take n)))⟩, d.drop n, []⟩, by simp,
                .numbered hv hc hh ?_, rfl⟩
              rw [hlen]
              exact hl
          · exact .inr ⟨_, .noLength hv hc hh hn⟩
        · exact .inr ⟨_, .noHash hv hc hn⟩
      · exact .inr ⟨_, .noCodec hv hn⟩
    · exact .inr ⟨_, .version hb hv h1⟩
  · exact .inr ⟨_, .noVersion hb hn⟩

theorem sectionBlock_eq_ok_iff {p : Bytes} {b : Block} : sectionBlock p = .ok b ↔ IsSection p b := by
  refine ⟨fun h => ?_, sectionBlock_of_section⟩
  rcases payload_cases p with ⟨b', hb⟩ | ⟨e, he⟩
  · rw [sectionBlock_of_section hb] at h; cases h; exact hb
  · rw [sectionBlock_of_badCid he] at h; cases h

theorem sectionBlock_eq_error_iff {p : Bytes} {e : Fault} :
    sectionBlock p = .error e ↔ BadCid p e := by
  refine ⟨fun h => ?_, sectionBlock_of_badCid⟩
  rcases payload_cases p with ⟨b', hb⟩ | ⟨e', he⟩
  · rw [sectionBlock_of_section hb] at h; cases h
  · rw [sectionBlock_of_badCid he] at h; cases h; exact he

end Courier.Archive
