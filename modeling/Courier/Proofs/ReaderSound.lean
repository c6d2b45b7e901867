import Courier.Archive.Chunks
import Courier.Proofs.ArchiveGrammar

/-!
# Reading in chunks is reading in one pass

What a reader still has to say is what one pass over the rest of the stream
finds, whatever else is pushed (`Rest`). Asking it for a block takes a frame
off both (`Reads`). A reader that is pushed chunks and asked for blocks in any
order therefore gives the sections of everything pushed, and its stream may end
exactly where a frame does.
-/

namespace Courier.Archive

/-! ## A byte string has one reading -/

theorem BadLength.append {s : Bytes} {e : Fault} (h : BadLength s e) (t : Bytes) :
    BadLength (s ++ t) e := by
  cases h with
  | endless hs hall =>
    refine .endless (by rw [List.length_append]; omega) ?_
    rw [List.take_append_of_le_length hs]
    exact hall
  | large hv hlen hn => rw [List.append_assoc]; exact .large hv hlen hn
  | range hv hn => rw [List.append_assoc]; exact .range hv hn

theorem splitFrame_append {s p r : Bytes} (h : splitFrame s = .ok (some (p, r))) (t : Bytes) :
    splitFrame (s ++ t) = .ok (some (p, r ++ t)) := by
  obtain ⟨w, rfl, hw⟩ := splitFrame_eq_frame_iff.mp h
  rw [List.append_assoc]
  exact splitFrame_of_frame hw _

theorem length_of_splitFrame {s p r : Bytes} (h : splitFrame s = .ok (some (p, r))) :
    r.length < s.length := by
  obtain ⟨w, rfl, hw⟩ := splitFrame_eq_frame_iff.mp h
  obtain ⟨v, rfl, hv⟩ := hw.split
  have := hv.groups.length_pos
  simp only [List.length_append]
  omega

/-- What one pass finds goes by the frame at the front. -/
theorem sections_iff {s : Bytes} {l : List (Except Fault Block)} :
    Sections s l ↔ match splitFrame s with
      | .error e => l = [.error e]
      | .ok none => l = []
      | .ok (some (p, r)) =>
        match sectionBlock p with
        | .error e => l = [.error e]
        | .ok b => ∃ l', l = .ok b :: l' ∧ Sections r l' := by
  constructor
  · intro h
    cases h with
    | unfinished h => rw [splitFrame_of_unfinished h]
    | badLength h => rw [splitFrame_of_badLength h]
    | badCid hw h => simp only [splitFrame_of_frame hw, sectionBlock_of_badCid h]
    | cons hw hb hr =>
      simp only [splitFrame_of_frame hw, sectionBlock_of_section hb]
      exact ⟨_, rfl, hr⟩
  · intro h
    split at h
    · rename_i e he
      subst h
      exact .badLength (splitFrame_eq_error_iff.mp he)
    · rename_i hn
      subst h
      exact .unfinished (splitFrame_eq_none_iff.mp hn)
    · rename_i p r hf
      obtain ⟨w, rfl, hw⟩ := splitFrame_eq_frame_iff.mp hf
      split at h
      · rename_i e he
        subst h
        exact .badCid hw (sectionBlock_eq_error_iff.mp he)
      · rename_i b hb
        obtain ⟨l', rfl, hr⟩ := h
        exact .cons hw (sectionBlock_eq_ok_iff.mp hb) hr

theorem parses_iff {s : Bytes} {l : List (Except Fault Block)} :
    Parses s l ↔ match splitFrame s with
      | .error e => l = [.error e]
      | .ok none => l = []
      | .ok (some (_, r)) => Sections r l := by
  constructor
  · intro h
    cases h with
    | unfinished h => rw [splitFrame_of_unfinished h]
    | badLength h => rw [splitFrame_of_badLength h]
    | header hw hr => simp only [splitFrame_of_frame hw]; exact hr
  · intro h
    split at h
    · rename_i e he
      subst h
      exact .badLength (splitFrame_eq_error_iff.mp he)
    · rename_i hn
      subst h
      exact .unfinished (splitFrame_eq_none_iff.mp hn)
    · rename_i p r hf
      obtain ⟨w, rfl, hw⟩ := splitFrame_eq_frame_iff.mp hf
      exact .header hw h

theorem exists_sections (s : Bytes) : ∃ l, Sections s l := by
  induction hn : s.length using Nat.strongRecOn generalizing s with
  | ind n ih =>
    subst hn
    simp only [sections_iff (s := s)]
    split
    · exact ⟨_, rfl⟩
    · exact ⟨_, rfl⟩
    · rename_i p r hf
      split
      · exact ⟨_, rfl⟩
      · rename_i b _
        obtain ⟨l, hl⟩ := ih _ (length_of_splitFrame hf) r rfl
        exact ⟨.ok b :: l, l, rfl, hl⟩

theorem Sections.unique {s : Bytes} {l l' : List (Except Fault Block)} (h : Sections s l)
    (h' : Sections s l') : l = l' := by
  induction h generalizing l' with
  | unfinished h =>
    rw [sections_iff, splitFrame_of_unfinished h] at h'
    exact h'.symm
  | badLength h =>
    rw [sections_iff, splitFrame_of_badLength h] at h'
    exact h'.symm
  | badCid hw h =>
    simp only [sections_iff, splitFrame_of_frame hw, sectionBlock_of_badCid h] at h'
    exact h'.symm
  | cons hw hb hr ih =>
    rw [sections_iff] at h'
    simp only [splitFrame_of_frame hw, sectionBlock_of_section hb] at h'
    obtain ⟨m, rfl, hm⟩ := h'
    rw [ih hm]

theorem exists_parses (s : Bytes) : ∃ l, Parses s l := by
  simp only [parses_iff]
  split
  · exact ⟨_, rfl⟩
  · exact ⟨_, rfl⟩
  · exact exists_sections _

theorem Parses.unique {s : Bytes} {l l' : List (Except Fault Block)} (h : Parses s l)
    (h' : Parses s l') : l = l' := by
  rw [parses_iff] at h h'
  split at h
  · rename_i he
    rw [he] at h'
    exact h.trans h'.symm
  · rename_i he
    rw [he] at h'
    exact h.trans h'.symm
  · rename_i hf
    rw [hf] at h'
    exact h.unique h'

theorem frames_cons_iff {s : Bytes} {ps : List Bytes} :
    Frames s ps ↔ (s = [] ∧ ps = []) ∨
      ∃ p r qs, splitFrame s = .ok (some (p, r)) ∧ ps = p :: qs ∧ Frames r qs := by
  constructor
  · intro h
    cases h with
    | nil => exact .inl ⟨rfl, rfl⟩
    | cons hw hr => exact .inr ⟨_, _, _, splitFrame_of_frame hw _, rfl, hr⟩
  · rintro (⟨rfl, rfl⟩ | ⟨p, r, qs, hf, rfl, hr⟩)
    · exact .nil
    · obtain ⟨w, rfl, hw⟩ := splitFrame_eq_frame_iff.mp hf
      exact .cons hw hr

/-! ## What a reader still has to say -/

/-- What one pass finds in the octets a reader has not read. -/
def Rest (r : Reader) (l : List (Except Fault Block)) : Prop :=
  if r.headerDone then Sections r.buffer l else Parses r.buffer l

/-- The octets a reader has not read are frames, the header among them if it was not read. -/
def Complete (r : Reader) : Prop :=
  ∃ ps, Frames r.buffer ps ∧ (r.headerDone = false → ps ≠ [])

/-- One reader came from another by reading some blocks. Whatever the stream goes on with, the
blocks are what stands between them. -/
structure Reads (r : Reader) (bs : List Block) (r' : Reader) : Prop where
  rest : ∀ t l, Rest (r'.push t) l → Rest (r.push t) (bs.map .ok ++ l)
  complete : ∀ t, Complete (r'.push t) ↔ Complete (r.push t)
  blocks : r'.blocks = r.blocks + bs.length

theorem exists_rest (r : Reader) : ∃ l, Rest r l := by
  unfold Rest
  split
  · exact exists_sections _
  · exact exists_parses _

theorem Rest.unique {r : Reader} {l l' : List (Except Fault Block)} (h : Rest r l)
    (h' : Rest r l') : l = l' := by
  unfold Rest at h h'
  split at h
  · exact h.unique (by simpa [*] using h')
  · exact h.unique (by simpa [*] using h')

theorem Reads.refl (r : Reader) : Reads r [] r := ⟨fun _ _ h => h, fun _ => Iff.rfl, rfl⟩

theorem Reads.trans {r r' r'' : Reader} {bs cs : List Block} (h : Reads r bs r')
    (h' : Reads r' cs r'') : Reads r (bs ++ cs) r'' where
  rest t l hl := by
    have := h.rest t _ (h'.rest t l hl)
    rwa [← List.append_assoc, ← List.map_append] at this
  complete t := (h'.complete t).trans (h.complete t)
  blocks := by rw [h'.blocks, h.blocks, List.length_append, Nat.add_assoc]

theorem Reads.push {r r' : Reader} {bs : List Block} (h : Reads r bs r') (c : Bytes) :
    Reads (r.push c) bs (r'.push c) where
  rest t l hl := by
    rw [Reader.push_push] at hl ⊢
    exact h.rest _ l hl
  complete t := by
    rw [Reader.push_push, Reader.push_push]
    exact h.complete _
  blocks := h.blocks

/-! ## Asking for a block -/

theorem frames_front {s p r : Bytes} (hf : splitFrame s = .ok (some (p, r))) (ps : List Bytes) :
    Frames s ps ↔ ∃ qs, ps = p :: qs ∧ Frames r qs := by
  rw [frames_cons_iff]
  constructor
  · rintro (⟨rfl, _⟩ | ⟨p', r', qs, hf', rfl, hr⟩)
    · cases hf
    · rw [hf] at hf'
      simp only [Except.ok.injEq, Option.some.injEq, Prod.mk.injEq] at hf'
      obtain ⟨rfl, rfl⟩ := hf'
      exact ⟨qs, rfl, hr⟩
  · rintro ⟨qs, rfl, hr⟩
    exact .inr ⟨p, r, qs, hf, rfl, hr⟩

theorem reads_header {r : Reader} {h rest : Bytes} (hd : r.headerDone = false)
    (hf : splitFrame r.buffer = .ok (some (h, rest))) :
    Reads r [] { r with buffer := rest, headerDone := true } where
  rest t l hl := by
    simp only [Rest, Reader.push, if_true, hd, Bool.false_eq_true, if_false, List.map_nil,
      List.nil_append] at hl ⊢
    rw [parses_iff, splitFrame_append hf]
    exact hl
  complete t := by
    simp only [Complete, Reader.push, hd, frames_front (splitFrame_append hf t)]
    constructor
    · rintro ⟨ps, hps, -⟩
      exact ⟨h :: ps, ⟨ps, rfl, hps⟩, fun _ => List.cons_ne_nil _ _⟩
    · rintro ⟨_, ⟨qs, rfl, hqs⟩, -⟩
      exact ⟨qs, hqs, fun hc => by cases hc⟩
  blocks := rfl

theorem reads_section {r : Reader} {p rest : Bytes} {b : Block} (hd : r.headerDone = true)
    (hf : splitFrame r.buffer = .ok (some (p, rest))) (hb : sectionBlock p = .ok b) :
    Reads r [b] { r with buffer := rest, blocks := r.blocks + 1 } where
  rest t l hl := by
    simp only [Rest, Reader.push, hd, if_true] at hl ⊢
    rw [sections_iff, splitFrame_append hf]
    simp only [hb]
    exact ⟨l, rfl, hl⟩
  complete t := by
    simp only [Complete, Reader.push, hd, frames_front (splitFrame_append hf t)]
    constructor
    · rintro ⟨ps, hps, -⟩
      exact ⟨p :: ps, ⟨ps, rfl, hps⟩, fun hc => by cases hc⟩
    · rintro ⟨_, ⟨qs, rfl, hqs⟩, -⟩
      exact ⟨qs, hqs, fun hc => by cases hc⟩
  blocks := rfl

/-- All that asking for a block can come to: more of the stream is needed, a block is read, or
there is a fault, whatever the stream goes on with. -/
inductive Asked (r : Reader) : Prop
  | more {r' : Reader} : r.next = (r', .ok none) → Reads r [] r' →
      r'.buffer.length ≤ r.buffer.length → Unfinished r'.buffer → Asked r
  | block {r' : Reader} {b : Block} : r.next = (r', .ok (some b)) → Reads r [b] r' →
      r'.buffer.length < r.buffer.length → Asked r
  | fault {r' : Reader} {e : Fault} : r.next = (r', .error e) → r'.blocks = r.blocks →
      (∀ t, Rest (r.push t) [.error e]) → Asked r

theorem asked_of_headerDone {r : Reader} (hd : r.headerDone = true) : Asked r := by
  have hn : r.next = r.nextSection := if_pos hd
  rcases hf : splitFrame r.buffer with e | _ | ⟨p, rest⟩
  · refine @Asked.fault r r e (by simp [hn, Reader.nextSection, hf]) rfl fun t => ?_
    simp only [Rest, Reader.push, hd, if_true]
    exact .badLength ((splitFrame_eq_error_iff.mp hf).append t)
  · exact @Asked.more r r (by simp [hn, Reader.nextSection, hf]) (.refl r)
      (Nat.le_refl _) (splitFrame_eq_none_iff.mp hf)
  · rcases hb : sectionBlock p with e | b
    · refine @Asked.fault r { r with buffer := rest } e
        (by simp [hn, Reader.nextSection, hf, hb]) rfl fun t => ?_
      simp only [Rest, Reader.push, hd, if_true, sections_iff, splitFrame_append hf, hb]
    · exact .block (by simp [hn, Reader.nextSection, hf, hb]) (reads_section hd hf hb)
        (length_of_splitFrame hf)

theorem asked (r : Reader) : Asked r := by
  by_cases hd : r.headerDone = true
  · exact asked_of_headerDone hd
  rw [Bool.not_eq_true] at hd
  rcases hf : splitFrame r.buffer with e | _ | ⟨h, rest⟩
  · refine @Asked.fault r r e (by simp [Reader.next, hd, hf]) rfl fun t => ?_
    simp only [Rest, Reader.push, hd, Bool.false_eq_true, if_false]
    exact .badLength ((splitFrame_eq_error_iff.mp hf).append t)
  · exact @Asked.more r r (by simp [Reader.next, hd, hf]) (.refl r) (Nat.le_refl _)
      (splitFrame_eq_none_iff.mp hf)
  -- with the header gone the reader goes on as one behind it
  · let q : Reader := { r with buffer := rest, headerDone := true }
    have hn : r.next = q.next := by simp [Reader.next, hd, hf, q]
    have hq : Reads r [] q := reads_header hd hf
    have hlt : q.buffer.length < r.buffer.length := length_of_splitFrame hf
    cases asked_of_headerDone (r := q) rfl with
    | more h hr hle hu =>
      exact .more (hn.trans h) (hq.trans hr) (Nat.le_trans hle (Nat.le_of_lt hlt)) hu
    | block h hr hlt' => exact .block (hn.trans h) (hq.trans hr) (Nat.lt_trans hlt' hlt)
    | fault h hb hr => exact .fault (hn.trans h) hb fun t => hq.rest t _ (hr t)

theorem rest_of_unfinished {r : Reader} (h : Unfinished r.buffer) : Rest r [] := by
  unfold Rest
  split
  · exact .unfinished h
  · exact .unfinished h

/-- Where no frame is left the stream may end exactly if it is complete. -/
theorem finish_iff {r : Reader} (h : Unfinished r.buffer) : r.finish = .ok () ↔ Complete r := by
  have hf : ∀ ps, Frames r.buffer ps ↔ r.buffer = [] ∧ ps = [] := by
    intro ps
    rw [frames_cons_iff, splitFrame_of_unfinished h]
    simp
  simp only [Complete, hf, Reader.finish]
  cases r.headerDone with
  | false => simp
  | true => cases r.buffer <;> simp

/-! ## Runs -/

inductive Action where
  | push (chunk : Bytes)
  | next
  deriving DecidableEq, Repr

def Reader.run : Reader → List Action → Reader × List (Except Fault (Option Block))
  | r, [] => (r, [])
  | r, .push c :: as => (r.push c).run as
  | r, .next :: as => ((r.next.1.run as).1, r.next.2 :: (r.next.1.run as).2)

def pushed : List Action → Bytes
  | [] => []
  | .push c :: as => c ++ pushed as
  | .next :: as => pushed as

/-- The results of a run up to the first fault, but for those that ask for more. -/
def results : List (Except Fault (Option Block)) → List (Except Fault Block)
  | [] => []
  | .error e :: _ => [.error e]
  | .ok none :: os => results os
  | .ok (some b) :: os => .ok b :: results os

def blocksRead : List (Except Fault (Option Block)) → List Block
  | [] => []
  | .error _ :: os => blocksRead os
  | .ok none :: os => blocksRead os
  | .ok (some b) :: os => b :: blocksRead os

/-- The reader was asked for blocks after the last push until there was none, or a fault came. -/
def Drained (as : List Action) (os : List (Except Fault (Option Block))) : Prop :=
  (∃ e, .error e ∈ os) ∨ (as.getLast? = some .next ∧ os.getLast? = some (.ok none))

theorem run_append (r : Reader) (as bs : List Action) :
    r.run (as ++ bs) = (((r.run as).1.run bs).1, (r.run as).2 ++ ((r.run as).1.run bs).2) := by
  induction as generalizing r with
  | nil => rfl
  | cons a as ih => cases a <;> simp [Reader.run, ih]

theorem run_reads {as : List Action} : ∀ {r : Reader}, (∀ e, .error e ∉ (r.run as).2) →
    Reads (r.push (pushed as)) (blocksRead (r.run as).2) (r.run as).1 ∧
      results (r.run as).2 = (blocksRead (r.run as).2).map .ok := by
  induction as with
  | nil =>
    intro r _
    rw [pushed, Reader.push_nil]
    exact ⟨.refl r, rfl⟩
  | cons a as ih =>
    intro r he
    cases a with
    | push c =>
      rw [pushed, ← Reader.push_push]
      exact ih (r := r.push c) he
    | next =>
      simp only [Reader.run, List.mem_cons, not_or, pushed] at he ⊢
      have hrest := ih (r := r.next.1) fun e => (he e).2
      cases asked r with
      | more hn hr _ _ =>
        rw [hn] at hrest ⊢
        exact ⟨(hr.push _).trans hrest.1, hrest.2⟩
      | block hn hr _ =>
        rw [hn] at hrest ⊢
        exact ⟨(hr.push _).trans hrest.1, by simpa [results, blocksRead] using hrest.2⟩
      | fault hn _ _ => exact absurd (by rw [hn]) (he _).1

theorem run_rest {as : List Action} {e : Fault} : ∀ {r : Reader}, .error e ∈ (r.run as).2 →
    Rest (r.push (pushed as)) (results (r.run as).2) := by
  induction as with
  | nil => intro r he; cases he
  | cons a as ih =>
    intro r he
    cases a with
    | push c =>
      rw [pushed, ← Reader.push_push]
      exact ih he
    | next =>
      simp only [Reader.run, pushed] at he ⊢
      cases asked r with
      | more hn hr _ _ =>
        rw [hn] at he ⊢
        exact hr.rest _ _ (ih (by simpa using he))
      | block hn hr _ =>
        rw [hn] at he ⊢
        exact hr.rest _ _ (ih (by simpa using he))
      | fault hn _ hr =>
        rw [hn]
        exact hr _

theorem run_blocks (as : List Action) : ∀ (r : Reader),
    (r.run as).1.blocks = r.blocks + (blocksRead (r.run as).2).length := by
  induction as with
  | nil => intro r; rfl
  | cons a as ih =>
    intro r
    cases a with
    | push c => exact ih (r.push c)
    | next =>
      simp only [Reader.run]
      rw [ih]
      cases asked r with
      | more hn hr _ _ =>
        rw [hn, hr.blocks]
        rfl
      | block hn hr _ =>
        rw [hn, hr.blocks]
        simp only [blocksRead, List.length_cons, List.length_nil]
        omega
      | fault hn hb _ =>
        rw [hn, hb]
        rfl

theorem unfinished_of_drained {as : List Action} (ha : as.getLast? = some .next) : ∀ {r : Reader},
    (r.run as).2.getLast? = some (.ok none) → Unfinished (r.run as).1.buffer := by
  obtain ⟨as, rfl⟩ := List.getLast?_eq_some_iff.mp ha
  intro r ho
  rw [run_append] at ho ⊢
  simp only [Reader.run, List.getLast?_concat, Option.some.injEq] at ho ⊢
  cases asked (r.run as).1 with
  | more hn _ _ hu => rw [hn]; exact hu
  | block hn _ _ => rw [hn] at ho; cases ho
  | fault hn _ _ => rw [hn] at ho; cases ho

theorem exists_drained (r : Reader) : ∃ n, 0 < n ∧
    Drained (List.replicate n .next) (r.run (List.replicate n .next)).2 := by
  induction hn : r.buffer.length using Nat.strongRecOn generalizing r with
  | ind n ih =>
    cases asked r with
    | more h _ _ _ =>
      exact ⟨1, Nat.one_pos, .inr ⟨rfl, by simp [Reader.run, h]⟩⟩
    | @block r' b h _ hlt =>
      obtain ⟨k, hk, hd⟩ := ih _ (hn ▸ hlt) r' rfl
      refine ⟨k + 1, Nat.succ_pos k, ?_⟩
      rw [List.replicate_succ]
      simp only [Reader.run, h]
      rcases hd with ⟨e, he⟩ | ⟨ha, ho⟩
      · exact .inl ⟨e, List.mem_cons_of_mem _ he⟩
      · refine .inr ⟨?_, ?_⟩
        · rw [List.getLast?_cons, ha]; rfl
        · rw [List.getLast?_cons, ho]; rfl
    | @fault r' e h _ _ => exact ⟨1, Nat.one_pos, .inl ⟨e, by simp [Reader.run, h]⟩⟩

/-! ## Whole streams -/

theorem rest_fresh {s : Bytes} {l : List (Except Fault Block)} :
    Rest (({} : Reader).push s) l ↔ Parses s l := Iff.rfl

/-- What a reader has read is what the stream begins with. -/
theorem Reads.begins {s : Bytes} {bs : List Block} {r : Reader}
    (h : Reads (({} : Reader).push s) bs r) : ∃ l, Parses s l ∧ bs.map .ok <+: l := by
  obtain ⟨l, hl⟩ := exists_rest r
  have := h.rest [] l (by rwa [Reader.push_nil])
  rw [Reader.push_nil, rest_fresh] at this
  exact ⟨_, this, List.prefix_append _ _⟩

theorem complete_fresh {s : Bytes} :
    Complete (({} : Reader).push s) ↔ ∃ ps, ps ≠ [] ∧ Frames s ps :=
  ⟨fun ⟨ps, h, hne⟩ => ⟨ps, hne rfl, h⟩, fun ⟨ps, hne, h⟩ => ⟨ps, h, fun _ => hne⟩⟩

theorem sections_of_frames {s : Bytes} {ps : List Bytes} {bs : List Block} (hs : Frames s ps)
    (hb : List.Forall₂ IsSection ps bs) : Sections s (bs.map .ok) := by
  induction hs generalizing bs with
  | nil =>
    cases hb
    exact .unfinished (.length (by simp) (by simp))
  | cons hw _ ih =>
    cases hb with
    | cons hp hb => exact .cons hw hp (ih hb)

theorem forall₂_of_sections {s : Bytes} {ps : List Bytes} {bs : List Block} (hs : Frames s ps)
    (hb : Sections s (bs.map .ok)) : List.Forall₂ IsSection ps bs := by
  induction hs generalizing bs with
  | nil =>
    have hnil : Sections [] [] := .unfinished (.length (by simp) (by simp))
    rw [List.map_eq_nil_iff.mp (hb.unique hnil)]
    exact .nil
  | @cons w p r ps hw _ ih =>
    rw [sections_iff, splitFrame_of_frame hw] at hb
    rcases hp : sectionBlock p with e | b
    · simp only [hp] at hb
      cases bs <;> simp at hb
    · simp only [hp] at hb
      obtain ⟨l, hl, hr⟩ := hb
      cases bs with
      | nil => simp at hl
      | cons c bs =>
        simp only [List.map_cons, List.cons.injEq, Except.ok.injEq] at hl
        obtain ⟨rfl, rfl⟩ := hl
        exact .cons (sectionBlock_eq_ok_iff.mp hp) (ih hr)

theorem isArchive_iff {s : Bytes} {bs : List Block} :
    IsArchive s bs ↔ Parses s (bs.map .ok) ∧ ∃ ps, ps ≠ [] ∧ Frames s ps := by
  constructor
  · rintro ⟨header, ps, hs, hb⟩
    refine ⟨?_, _, List.cons_ne_nil _ _, hs⟩
    cases hs with
    | cons hw hr => exact .header hw (sections_of_frames hr hb)
  · rintro ⟨hl, ps, hne, hs⟩
    cases hs with
    | nil => exact absurd rfl hne
    | cons hw hr =>
      rw [parses_iff, splitFrame_of_frame hw] at hl
      exact ⟨_, _, .cons hw hr, forall₂_of_sections hr hl⟩

/-- However a stream is cut into chunks and whenever blocks are asked for, the results up to the
first fault begin what one pass over the stream finds. Once the reader is drained they are all of
it, and without a fault the stream may end where it is one frame or more. -/
theorem run_eq_parse (as : List Action) :
    ∃ l, (∀ l', Parses (pushed as) l' ↔ l' = l) ∧
      results (Reader.run {} as).2 <+: l ∧
      (Reader.run {} as).1.blocks = (blocksRead (Reader.run {} as).2).length ∧
      (Drained as (Reader.run {} as).2 → results (Reader.run {} as).2 = l ∧
        ((∀ e, .error e ∉ (Reader.run {} as).2) →
          ((Reader.run {} as).1.finish = .ok () ↔ ∃ ps, ps ≠ [] ∧ Frames (pushed as) ps))) ∧
      ∃ n, Drained (as ++ List.replicate n .next)
        (Reader.run {} (as ++ List.replicate n .next)).2 := by
  obtain ⟨l, hl⟩ := exists_parses (pushed as)
  have hall : ∀ l', Parses (pushed as) l' ↔ l' = l :=
    fun l' => ⟨fun h => h.unique hl, fun h => h ▸ hl⟩
  have hblocks := run_blocks as {}
  have hdrained : ∃ n, Drained (as ++ List.replicate n .next)
      (Reader.run {} (as ++ List.replicate n .next)).2 := by
    obtain ⟨n, hn, hd⟩ := exists_drained (Reader.run {} as).1
    refine ⟨n, ?_⟩
    rw [run_append]
    rcases hd with ⟨e, he⟩ | ⟨ha, ho⟩
    · exact .inl ⟨e, List.mem_append_right _ he⟩
    · refine .inr ⟨?_, ?_⟩
      · rw [List.getLast?_append, ha]; rfl
      · rw [List.getLast?_append, ho]; rfl
  by_cases he : ∃ e, .error e ∈ (Reader.run {} as).2
  · obtain ⟨e, he⟩ := he
    have hres : results (Reader.run {} as).2 = l := (hall _).mp (rest_fresh.mp (run_rest he))
    exact ⟨l, hall, hres ▸ List.prefix_rfl, by rw [hblocks, Nat.zero_add],
      fun _ => ⟨hres, fun hno => absurd he (hno e)⟩, hdrained⟩
  · have hno : ∀ e, .error e ∉ (Reader.run {} as).2 := fun e h => he ⟨e, h⟩
    obtain ⟨hr, hres⟩ := run_reads (r := {}) hno
    obtain ⟨m, hm⟩ := exists_rest (Reader.run {} as).1
    have hlm : l = results (Reader.run {} as).2 ++ m := by
      have := hr.rest [] m (by rwa [Reader.push_nil])
      rw [Reader.push_nil, rest_fresh, hall] at this
      rw [hres, ← this]
    refine ⟨l, hall, hlm ▸ List.prefix_append _ _, by rw [hblocks, Nat.zero_add], ?_, hdrained⟩
    rintro (⟨e, h⟩ | ⟨ha, ho⟩)
    · exact absurd h (hno e)
    have hu : Unfinished (Reader.run {} as).1.buffer := unfinished_of_drained ha ho
    refine ⟨?_, fun _ => ?_⟩
    · have hnil : m = [] := hm.unique (rest_of_unfinished hu)
      rw [hlm, hnil, List.append_nil]
    · rw [finish_iff hu, ← complete_fresh]
      have := hr.complete []
      rwa [Reader.push_nil, Reader.push_nil] at this

end Courier.Archive
