import Courier.Archive.Verify
import Courier.Proofs.WriterSound

/-!
# What an identifier commits to

An identifier carries a digest and the code of the hash that made it, and its
octets determine both. A block verifies exactly if the hash is one that is
known and the digest is that of its data; `Refused` says what is wrong with
every other block. So an identifier that verifies two blocks was made from one
digest, and a section in an archive is cut where its identifier ends.
-/

namespace Courier.Archive

open Varint (IsCode)

/-! ## Identifiers and their digests -/

/-- The octets of an identifier, the code of its hash and its digest. -/
inductive Carries : Nat → Bytes → Bytes → Prop
  | bare {d : Bytes} : d.length = 32 → Carries 0x12 d (0x12 :: 0x20 :: d)
  | numbered {v c h l d : Bytes} {codec hash : Nat} : IsCode v 1 → IsCode c codec → IsCode h hash →
      IsCode l d.length → Carries hash d (v ++ (c ++ (h ++ (l ++ d))))

theorem isCid_iff_carries {c : Bytes} : IsCid c ↔ ∃ hash d, Carries hash d c := by
  constructor
  · intro h
    cases h with
    | bare hd => exact ⟨_, _, .bare hd⟩
    | numbered hv hc hh hl => exact ⟨_, _, .numbered hv hc hh hl⟩
  · rintro ⟨hash, d, h⟩
    cases h with
    | bare hd => exact .bare hd
    | numbered hv hc hh hl => exact .numbered hv hc hh hl

theorem Carries.layout {hash : Nat} {d c : Bytes} (h : Carries hash d c) :
    ∃ start, layout c = .ok ⟨hash, start, c.length⟩ ∧ c.drop start = d := by
  cases h with
  | bare hd =>
    refine ⟨2, ?_, rfl⟩
    rw [layout_of_bare, if_neg (by omega), List.length_cons, List.length_cons, hd]
    rfl
  | @numbered v c h l d codec hash hv hc hh hl =>
    have hsplit : v ++ (c ++ (h ++ (l ++ d))) = (v ++ (c ++ (h ++ l))) ++ d := by
      simp only [List.append_assoc]
    refine ⟨(v ++ (c ++ (h ++ l))).length, ?_, ?_⟩
    · rw [layout_of_numbers hv hc hh hl, if_neg (Nat.lt_irrefl _)]
      simp only [List.length_append, Nat.add_assoc]
    · rw [hsplit, List.drop_left]

theorem Carries.unique {hash hash' : Nat} {d d' c : Bytes} (h : Carries hash d c)
    (h' : Carries hash' d' c) : hash = hash' ∧ d = d' := by
  obtain ⟨start, hl, hd⟩ := h.layout
  obtain ⟨start', hl', hd'⟩ := h'.layout
  rw [hl, Except.ok.injEq, Layout.mk.injEq] at hl'
  obtain ⟨rfl, rfl, -⟩ := hl'
  exact ⟨rfl, hd.symm.trans hd'⟩

/-- Every byte string starts with one identifier or has no identifier in front. -/
theorem cid_cases (s : Bytes) :
    (∃ hash d c r, s = c ++ r ∧ Carries hash d c) ∨ ∃ e, BadCid s e := by
  rcases payload_cases s with ⟨b, hb⟩ | hbad
  · obtain ⟨hash, d, hc⟩ := isCid_iff_carries.mp hb.cid
    exact .inl ⟨hash, d, _, _, hb.split, hc⟩
  · exact .inr hbad

theorem layout_of_badCid {s : Bytes} {e : Fault} (h : BadCid s e) : layout s = .error e := by
  have hs := sectionBlock_of_badCid h
  unfold sectionBlock at hs
  split at hs
  · next hl => rw [hl]; cases hs; rfl
  · cases hs

/-! ## Hashes that are known -/

inductive Hash where
  | sha256
  | identity
  deriving DecidableEq, Repr

def Hash.code : Hash → Nat
  | .sha256 => sha256Code
  | .identity => identityCode

def Hash.digest : Hash → Bytes → Bytes
  | .sha256, data => Sha256.digest data
  | .identity, data => data

theorem Hash.code_injective {k k' : Hash} (h : k.code = k'.code) : k = k' := by
  cases k <;> cases k' <;> first | rfl | cases h

/-- An identifier was made from the data with a hash. -/
def Commits (k : Hash) (c data : Bytes) : Prop := Carries k.code (k.digest data) c

/-- What is wrong with a block that does not verify. -/
inductive Refused (b : Block) : Fault → Prop
  | malformed {e : Fault} : BadCid b.cid.bytes e → Refused b e
  | trailing {c r : Bytes} : b.cid.bytes = c ++ r → IsCid c → r ≠ [] →
      Refused b (.trailingBytes b.cid)
  | unsupported {hash : Nat} {d : Bytes} : Carries hash d b.cid.bytes → (∀ k : Hash, hash ≠ k.code) →
      Refused b (.unsupportedHash hash b.cid)
  | mismatch {k : Hash} {d : Bytes} : Carries k.code d b.cid.bytes → d ≠ k.digest b.data →
      Refused b (.mismatch b.cid)

/-! ## What verifies -/

theorem verify_of_carries {b : Block} {hash : Nat} {d : Bytes} (h : Carries hash d b.cid.bytes) :
    verify b =
      if hash = sha256Code then
        if Sha256.digest b.data = d then .ok () else .error (.mismatch b.cid)
      else if hash = identityCode then
        if b.data = d then .ok () else .error (.mismatch b.cid)
      else .error (.unsupportedHash hash b.cid) := by
  obtain ⟨start, hl, hd⟩ := h.layout
  simp only [verify, hl, bind, Except.bind, hd, ne_eq, not_true_eq_false, if_false, pure,
    Except.pure, throw, throwThe, MonadExceptOf.throw]

theorem verify_of_known {b : Block} {k : Hash} {d : Bytes} (h : Carries k.code d b.cid.bytes) :
    verify b = if k.digest b.data = d then .ok () else .error (.mismatch b.cid) := by
  rw [verify_of_carries h]
  cases k <;> rfl

theorem verify_of_commits {b : Block} {k : Hash} (h : Commits k b.cid.bytes b.data) :
    verify b = .ok () := by
  rw [verify_of_known h, if_pos rfl]

theorem verify_of_refused {b : Block} {e : Fault} (h : Refused b e) : verify b = .error e := by
  cases h with
  | malformed h => simp [verify, layout_of_badCid h, bind, Except.bind]
  | @trailing c r hs hc hr =>
    obtain ⟨l, hl, hstop⟩ := stop_of_cid hc r
    rw [← hs] at hl
    have hne : l.stop ≠ b.cid.bytes.length := by
      have := List.length_pos_of_ne_nil hr
      rw [hs, List.length_append]
      omega
    simp [verify, hl, hne, bind, Except.bind, throw, throwThe, MonadExceptOf.throw]
  | @unsupported hash d h hk =>
    have hsha : hash ≠ sha256Code := hk .sha256
    have hid : hash ≠ identityCode := hk .identity
    rw [verify_of_carries h, if_neg hsha, if_neg hid]
  | mismatch h hd => rw [verify_of_known h, if_neg (Ne.symm hd)]

theorem commits_or_refused (b : Block) :
    (∃ k, Commits k b.cid.bytes b.data) ∨ ∃ e, Refused b e := by
  rcases cid_cases b.cid.bytes with ⟨hash, d, c, r, hs, hc⟩ | ⟨e, he⟩
  · by_cases hr : r = []
    · rw [hr, List.append_nil] at hs
      rw [← hs] at hc
      by_cases hk : ∃ k : Hash, hash = k.code
      · obtain ⟨k, rfl⟩ := hk
        by_cases hd : d = k.digest b.data
        · rw [hd] at hc
          exact .inl ⟨k, hc⟩
        · exact .inr ⟨_, .mismatch hc hd⟩
      · exact .inr ⟨_, .unsupported hc (not_exists.mp hk)⟩
    · exact .inr ⟨_, .trailing hs (isCid_iff_carries.mpr ⟨hash, d, hc⟩) hr⟩
  · exact .inr ⟨e, .malformed he⟩

theorem verify_eq_ok_iff {b : Block} : verify b = .ok () ↔ ∃ k, Commits k b.cid.bytes b.data := by
  refine ⟨fun h => ?_, fun ⟨_, h⟩ => verify_of_commits h⟩
  rcases commits_or_refused b with hk | ⟨e, he⟩
  · exact hk
  · rw [verify_of_refused he] at h; cases h

theorem verify_eq_error_iff {b : Block} {e : Fault} : verify b = .error e ↔ Refused b e := by
  refine ⟨fun h => ?_, verify_of_refused⟩
  rcases commits_or_refused b with ⟨k, hk⟩ | ⟨e', he⟩
  · rw [verify_of_commits hk] at h; cases h
  · rw [verify_of_refused he] at h; cases h; exact he

theorem Commits.isCid {k : Hash} {c data : Bytes} (h : Commits k c data) : IsCid c :=
  isCid_iff_carries.mpr ⟨_, _, h⟩

theorem isCid_of_verify {b : Block} (h : verify b = .ok ()) : IsCid b.cid.bytes := by
  obtain ⟨k, hk⟩ := verify_eq_ok_iff.mp h
  exact hk.isCid

/-! ## One identifier, one digest -/

theorem Commits.binding {k k' : Hash} {c data data' : Bytes} (h : Commits k c data)
    (h' : Commits k' c data') : k = k' ∧ k.digest data = k.digest data' := by
  obtain ⟨hcode, hd⟩ := Carries.unique h h'
  obtain rfl := Hash.code_injective hcode
  exact ⟨rfl, hd⟩

theorem commits_cidFor (data : Bytes) : Commits .sha256 (cidFor data).bytes data := by
  have hlen : (Sha256.digest data).length = 32 := Sha256.length_digest data
  have code {b : UInt8} (hb : b.toNat < 128) : IsCode [b] b.toNat :=
    ⟨.last hb, by simp, by omega⟩
  refine .numbered (v := [0x01]) (c := [0x55]) (h := [0x12]) (l := [0x20]) (code (by decide))
    (code (by decide)) (code (by decide)) ?_
  rw [Hash.digest, hlen]
  exact code (by decide)

/-! ## Sections of an archive -/

theorem sectionBlock_of_verify {b : Block} (h : verify b = .ok ()) :
    sectionBlock (b.cid.bytes ++ b.data) = .ok (unlinked b) :=
  sectionBlock_of_section (isSection_unlinked_iff.mpr (isCid_of_verify h))

theorem sections_append {s r : Bytes} {ps : List Bytes} {bs : List Block}
    {l : List (Except Fault Block)} (hs : Frames s ps) (hb : List.Forall₂ IsSection ps bs)
    (hr : Sections r l) : Sections (s ++ r) (bs.map .ok ++ l) := by
  induction hs generalizing bs with
  | nil =>
    cases hb
    exact hr
  | cons hw _ ih =>
    cases hb with
    | cons hp hb =>
      rw [List.append_assoc]
      exact .cons hw hp (ih hb)

theorem IsArchive.parses_append {s r : Bytes} {bs : List Block} {l : List (Except Fault Block)}
    (hs : IsArchive s bs) (hr : Sections r l) : Parses (s ++ r) (bs.map .ok ++ l) := by
  obtain ⟨header, ps, hf, hb⟩ := hs
  cases hf with
  | cons hw hf =>
    rw [List.append_assoc]
    exact .header hw (sections_append hf hb hr)

/-- However a stream is cut into chunks, a block that verifies is read where it stands in it. -/
theorem results_of_verify {b : Block} (h : verify b = .ok ()) {s w rest : Bytes} {bs : List Block}
    {as : List Action} (hs : IsArchive s bs) (hw : IsFrame w (b.cid.bytes ++ b.data))
    (hp : pushed as = s ++ (w ++ rest)) (hd : Drained as (Reader.run {} as).2) :
    ∃ l, results (Reader.run {} as).2 = bs.map .ok ++ .ok (unlinked b) :: l := by
  obtain ⟨l, hl⟩ := exists_sections rest
  have hsections : Sections (w ++ rest) (.ok (unlinked b) :: l) :=
    .cons hw (isSection_unlinked_iff.mpr (isCid_of_verify h)) hl
  have hparses := hs.parses_append hsections
  obtain ⟨m, hm, -, -, hres, -⟩ := run_eq_parse as
  rw [hp] at hm
  exact ⟨l, (hres hd).1.trans ((hm _).mp hparses).symm⟩

/-- A block verifies exactly if its identifier commits to its data, and is refused for one reason
otherwise. No identifier commits to two data with different digests; the one that is made for some
data commits to it; and a reader cuts the section of a block that verifies behind its identifier. -/
theorem verify_commits :
    (∀ b : Block, (verify b = .ok () ↔ ∃ k, Commits k b.cid.bytes b.data) ∧
      ∀ e, verify b = .error e ↔ Refused b e) ∧
    (∀ b b' : Block, b.cid = b'.cid → verify b = .ok () → verify b' = .ok () →
      Sha256.digest b.data = Sha256.digest b'.data ∧
        (Commits .identity b.cid.bytes b.data → b.data = b'.data)) ∧
    (∀ b : Block, b.cid = cidFor b.data → verify b = .ok ()) ∧
    ∀ b : Block, verify b = .ok () →
      sectionBlock (b.cid.bytes ++ b.data) = .ok { cid := b.cid, data := b.data } ∧
      ∀ (s w rest : Bytes) (bs : List Block) (as : List Action), IsArchive s bs →
        IsFrame w (b.cid.bytes ++ b.data) → pushed as = s ++ (w ++ rest) →
        Drained as (Reader.run {} as).2 →
        ∃ l, results (Reader.run {} as).2 =
          bs.map .ok ++ .ok { cid := b.cid, data := b.data } :: l := by
  refine ⟨fun b => ⟨verify_eq_ok_iff, fun e => verify_eq_error_iff⟩, ?_, ?_, ?_⟩
  · intro b b' hc h h'
    obtain ⟨k, hk⟩ := verify_eq_ok_iff.mp h
    obtain ⟨k', hk'⟩ := verify_eq_ok_iff.mp h'
    rw [← hc] at hk'
    obtain ⟨rfl, hd⟩ := hk.binding hk'
    cases k with
    | sha256 =>
      refine ⟨hd, fun hid => ?_⟩
      cases (hk.binding hid).1
    | identity =>
      have hdata : b.data = b'.data := hd
      exact ⟨congrArg _ hdata, fun _ => hdata⟩
  · intro b hb
    have hk := commits_cidFor b.data
    rw [← hb] at hk
    exact verify_of_commits hk
  · exact fun b h => ⟨sectionBlock_of_verify h,
      fun _ _ _ _ _ hs hw hp hd => results_of_verify h hs hw hp hd⟩

end Courier.Archive
