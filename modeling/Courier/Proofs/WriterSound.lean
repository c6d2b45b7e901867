import Courier.Archive.Writer
import Courier.Proofs.ReaderSound

/-!
# What is written reads back

A writer puts a header and blocks into frames whatever their sizes, and nothing
between an identifier and the data behind it. A payload in a frame is taken as
one exactly if it has a length that a frame may have, and the length of another
is bad. So an archive that was written reads back, in any chunks, exactly if no
frame is too long and every identifier ends where its own numbers say.
-/

namespace Courier.Archive

open Varint (IsCode)

/-! ## Payloads in frames -/

/-- Whether a payload has a length that a frame may have. -/
def FitsFrame (p : Bytes) : Prop := 1 ≤ p.length ∧ p.length ≤ 4 * 1024 * 1024

theorem isFrame_frame {p : Bytes} (h : FitsFrame p) : IsFrame (frame p) p :=
  ⟨h.1, h.2, _, rfl, Varint.isCode_write_iff.2 (Nat.lt_of_le_of_lt h.2 (by decide))⟩

theorem badLength_frame {p : Bytes} (h : ¬ FitsFrame p) (r : Bytes) :
    ∃ e, BadLength (frame p ++ r) e := by
  have hg := Varint.groups_write p.length
  unfold frame
  rw [List.append_assoc]
  by_cases hfit : p.length < 2 ^ 64
  · have hrange : p.length = 0 ∨ 4 * 1024 * 1024 < p.length := by
      unfold FitsFrame at h
      omega
    exact ⟨_, .range (Varint.isCode_write_iff.2 hfit) hrange⟩
  · rw [Nat.not_lt] at hfit
    by_cases hlen : (Varint.write p.length).length ≤ 10
    · exact ⟨_, .large hg hlen hfit⟩
    · rw [Nat.not_le] at hlen
      refine ⟨_, .endless ?_ (hg.high _ hlen)⟩
      rw [List.length_append]
      omega

theorem frames_frame_iff {p r : Bytes} {ps : List Bytes} :
    Frames (frame p ++ r) ps ↔ FitsFrame p ∧ ∃ qs, ps = p :: qs ∧ Frames r qs := by
  by_cases h : FitsFrame p
  · rw [frames_front (splitFrame_of_frame (isFrame_frame h) r)]
    exact (and_iff_right h).symm
  · obtain ⟨e, he⟩ := badLength_frame h r
    refine ⟨fun hf => ?_, fun hf => absurd hf.1 h⟩
    rw [frames_cons_iff, splitFrame_of_badLength he] at hf
    rcases hf with ⟨hnil, -⟩ | ⟨p', r', qs, hf, -⟩
    · rw [hnil] at he
      have hn := splitFrame_of_badLength he
      cases hn
    · cases hf

theorem frames_flatMap_iff {ps qs : List Bytes} :
    Frames (ps.flatMap frame) qs ↔ qs = ps ∧ ∀ p ∈ ps, FitsFrame p := by
  induction ps generalizing qs with
  | nil =>
    constructor
    · intro h
      generalize hs : [].flatMap frame = s at h
      cases h with
      | nil => exact ⟨rfl, nofun⟩
      | cons hw _ =>
        obtain ⟨v, rfl, hv⟩ := hw.split
        have := hv.groups.length_pos
        have := congrArg List.length hs
        simp only [List.flatMap_nil, List.length_nil, List.length_append] at this
        omega
    · rintro ⟨rfl, -⟩
      exact .nil
  | cons p ps ih =>
    rw [List.flatMap_cons, frames_frame_iff, List.forall_mem_cons]
    constructor
    · rintro ⟨hp, qs, rfl, hqs⟩
      obtain ⟨rfl, hps⟩ := ih.1 hqs
      exact ⟨rfl, hp, hps⟩
    · rintro ⟨rfl, hp, hps⟩
      exact ⟨hp, ps, rfl, ih.2 ⟨rfl, hps⟩⟩

/-! ## Archives that were written -/

theorem write_eq (roots : List Cid) (blocks : List Block) :
    write roots blocks =
      (header roots :: blocks.map fun b => b.cid.bytes ++ b.data).flatMap frame := by
  rw [List.flatMap_cons, List.flatMap_map]
  rfl

theorem one_le_header (roots : List Cid) : 1 ≤ (header roots).length := by
  simp only [header, head, List.length_append]
  rw [if_pos (by decide), List.length_singleton]
  omega

/-- An identifier is one whose layout ends with it. -/
theorem isCid_iff {c : Bytes} : IsCid c ↔ ∃ l, layout c = .ok l ∧ l.stop = c.length := by
  constructor
  · intro h
    obtain ⟨l, hl, hstop⟩ := stop_of_cid h []
    rw [List.append_nil] at hl
    exact ⟨l, hl, hstop⟩
  · rintro ⟨l, hl, hstop⟩
    have hb : sectionBlock c = .ok ⟨⟨c⟩, [], []⟩ := by
      simp [sectionBlock, hl, hstop]
    exact (sectionBlock_eq_ok_iff.1 hb).cid

theorem IsCid.length_pos {c : Bytes} (h : IsCid c) : 1 ≤ c.length := by
  cases h with
  | bare => simp
  | numbered hv =>
    have := hv.groups.length_pos
    rw [List.length_append]
    omega

/-- A block as a reader gives it, which knows of no links. -/
def unlinked (b : Block) : Block := { b with links := [] }

theorem isSection_unlinked_iff {b : Block} :
    IsSection (b.cid.bytes ++ b.data) (unlinked b) ↔ IsCid b.cid.bytes :=
  ⟨fun h => h.cid, fun h => ⟨rfl, h, rfl⟩⟩

theorem isArchive_write_iff {roots : List Cid} {blocks : List Block} :
    IsArchive (write roots blocks) (blocks.map unlinked) ↔
      (header roots).length ≤ 4 * 1024 * 1024 ∧
        ∀ b ∈ blocks, b.cid.bytes.length + b.data.length ≤ 4 * 1024 * 1024 ∧ IsCid b.cid.bytes := by
  have hsections : List.Forall₂ IsSection (blocks.map fun b => b.cid.bytes ++ b.data)
      (blocks.map unlinked) ↔ ∀ b ∈ blocks, IsCid b.cid.bytes := by
    rw [List.forall₂_map_left_iff, List.forall₂_map_right_iff, List.forall₂_same]
    simp only [isSection_unlinked_iff]
  unfold IsArchive
  simp only [write_eq, frames_flatMap_iff, List.cons.injEq, List.forall_mem_cons,
    List.forall_mem_map]
  constructor
  · rintro ⟨h, ps, ⟨⟨rfl, rfl⟩, hheader, hfit⟩, hs⟩
    refine ⟨hheader.2, fun b hb => ⟨?_, hsections.1 hs b hb⟩⟩
    rw [← List.length_append]
    exact (hfit b hb).2
  · rintro ⟨hheader, hb⟩
    refine ⟨_, _, ⟨⟨rfl, rfl⟩, ⟨one_le_header roots, hheader⟩, fun b hm => ?_⟩,
      hsections.2 fun b hm => (hb b hm).2⟩
    -- no identifier is empty, so no payload is
    obtain ⟨hle, hc⟩ := hb b hm
    have := hc.length_pos
    rw [FitsFrame, List.length_append]
    omega

/-! ## Reading them -/

theorem error_mem_results {os : List (Except Fault (Option Block))} {e : Fault}
    (h : .error e ∈ os) : ∃ e', .error e' ∈ results os := by
  induction os with
  | nil => cases h
  | cons o os ih =>
    rcases o with e' | _ | b
    · exact ⟨e', List.mem_cons_self⟩
    · exact ih ((List.mem_cons.1 h).resolve_left nofun)
    · obtain ⟨e', he⟩ := ih ((List.mem_cons.1 h).resolve_left nofun)
      exact ⟨e', List.mem_cons_of_mem _ he⟩

/-- What a drained reader has read without a fault, its stream being at an end, is an archive. -/
theorem read_iff {as : List Action} (hd : Drained as (Reader.run {} as).2) {bs : List Block} :
    (blocksRead (Reader.run {} as).2 = bs ∧ (∀ e, .error e ∉ (Reader.run {} as).2) ∧
      (Reader.run {} as).1.finish = .ok ()) ↔ IsArchive (pushed as) bs := by
  -- without a fault, what was read is what one pass finds, and the ends of both are the same
  have faultless (hno : ∀ e, .error e ∉ (Reader.run {} as).2) :
      Parses (pushed as) ((blocksRead (Reader.run {} as).2).map .ok) ∧
        ((Reader.run {} as).1.finish = .ok () ↔ ∃ ps, ps ≠ [] ∧ Frames (pushed as) ps) := by
    obtain ⟨ha, ho⟩ := hd.resolve_left fun ⟨e, he⟩ => hno e he
    have hu : Unfinished (Reader.run {} as).1.buffer := unfinished_of_drained ha ho
    obtain ⟨hr, -⟩ := run_reads (r := {}) hno
    have hrest := hr.rest [] [] (by rw [Reader.push_nil]; exact rest_of_unfinished hu)
    have hcomplete := hr.complete []
    rw [Reader.push_nil, List.append_nil, rest_fresh] at hrest
    rw [Reader.push_nil, Reader.push_nil, complete_fresh] at hcomplete
    exact ⟨hrest, (finish_iff hu).trans hcomplete⟩
  rw [isArchive_iff]
  constructor
  · rintro ⟨rfl, hno, hf⟩
    obtain ⟨hp, hc⟩ := faultless hno
    exact ⟨hp, hc.1 hf⟩
  · rintro ⟨hp, hps⟩
    have hno : ∀ e, .error e ∉ (Reader.run {} as).2 := by
      intro e he
      obtain ⟨e', he'⟩ := error_mem_results he
      have hres : Parses (pushed as) (results (Reader.run {} as).2) := rest_fresh.1 (run_rest he)
      rw [hres.unique hp] at he'
      obtain ⟨b, -, hb⟩ := List.mem_map.1 he'
      cases hb
    obtain ⟨hq, hc⟩ := faultless hno
    have hbs := hq.unique hp
    rw [List.map_inj_right fun _ _ => Except.ok.inj] at hbs
    exact ⟨hbs, hno, hc.2 hps⟩

/-- Whatever a reader was given, it can be drained. -/
theorem exists_drained_append (as : List Action) : ∃ n, Drained (as ++ List.replicate n .next)
    (Reader.run {} (as ++ List.replicate n .next)).2 := by
  obtain ⟨n, -, hd⟩ := exists_drained (Reader.run {} as).1
  refine ⟨n, ?_⟩
  rw [run_append]
  rcases hd with ⟨e, he⟩ | ⟨ha, ho⟩
  · exact .inl ⟨e, List.mem_append_right _ he⟩
  · refine .inr ⟨?_, ?_⟩
    · rw [List.getLast?_append, ha]
      rfl
    · rw [List.getLast?_append, ho]
      rfl

/-- However what was written is cut into chunks and whenever blocks are asked for, the reader can be
drained, and then it has given the blocks, and nothing is wrong, exactly if the header and every
block have room in a frame and every identifier is one by itself. -/
theorem read_write_iff (roots : List Cid) (blocks : List Block) (as : List Action)
    (hp : pushed as = write roots blocks) :
    (∃ n, Drained (as ++ List.replicate n .next)
      (Reader.run {} (as ++ List.replicate n .next)).2) ∧
    (Drained as (Reader.run {} as).2 →
      ((blocksRead (Reader.run {} as).2 = blocks.map (fun b => ⟨b.cid, b.data, []⟩) ∧
          (∀ e, .error e ∉ (Reader.run {} as).2) ∧ (Reader.run {} as).1.finish = .ok ()) ↔
        (header roots).length ≤ 4 * 1024 * 1024 ∧
          ∀ b ∈ blocks, b.cid.bytes.length + b.data.length ≤ 4 * 1024 * 1024 ∧
            ∃ l, layout b.cid.bytes = .ok l ∧ l.stop = b.cid.bytes.length)) := by
  refine ⟨exists_drained_append as, fun hd => ?_⟩
  have hu : blocks.map (fun b => ⟨b.cid, b.data, []⟩) = blocks.map unlinked := rfl
  rw [hu, read_iff hd, hp, isArchive_write_iff]
  simp only [isCid_iff]

/-- Two blocks, one with nothing but its identifier, cut inside the header and inside an
identifier. -/
theorem reads_back_two :
    let blocks : List Block := [
      { cid := ⟨[1, 0x55, 0, 2, 7, 9]⟩, data := [7, 9], links := [⟨[1]⟩] },
      { cid := ⟨[1, 0x55, 0, 0x80, 0]⟩, data := [] }]
    let s := write [⟨[1]⟩] blocks
    let as : List Action := [.next, .push (s.take 1), .next, .push ((s.drop 1).take 32), .next,
      .push (s.drop 33), .next, .next, .next]
    pushed as = s ∧ Drained as (Reader.run {} as).2 ∧
      blocksRead (Reader.run {} as).2 = blocks.map (fun b => ⟨b.cid, b.data, []⟩) ∧
      (Reader.run {} as).1.finish = .ok () := by
  intro blocks s as
  have hp : pushed as = s := by decide
  have hd : Drained as (Reader.run {} as).2 := .inr (by decide)
  have hfit : ∀ b ∈ blocks, b.cid.bytes.length + b.data.length ≤ 4 * 1024 * 1024 ∧
      ∃ l, layout b.cid.bytes = .ok l ∧ l.stop = b.cid.bytes.length := by
    intro b hb
    rcases List.mem_cons.1 hb with rfl | hb
    · exact ⟨by decide, ⟨0, 4, 6⟩, rfl, rfl⟩
    · rw [List.mem_singleton.1 hb]
      exact ⟨by decide, ⟨0, 5, 5⟩, by decide, rfl⟩
  have hheader : (header [⟨[1]⟩]).length = 22 := by decide
  obtain ⟨hread, -, hfinish⟩ :=
    ((read_write_iff [⟨[1]⟩] blocks as hp).2 hd).2 ⟨by omega, hfit⟩
  exact ⟨hp, hd, hread, hfinish⟩

end Courier.Archive
