import Courier.Proofs.ReaderSound

/-!
# A reader can be used on after whatever came of asking it

All that asking for a block does is to skip the header and then to take one
frame, or none (`Step`). A bad length stands in the way for good. Behind a
section with a bad identifier the reader stands where it would if the section
had not been sent, so it goes on with the next one.
-/

namespace Courier.Archive

/-! ## What stands in front of the sections -/

/-- The octets before the next section: the header, until it was read. -/
def Front (r : Reader) (h : Bytes) : Prop :=
  if r.headerDone then h = [] else ∃ p, IsFrame h p

def Reader.behind (r : Reader) (rest : Bytes) : Reader :=
  { r with buffer := rest, headerDone := true }

/-- Nothing was taken off the buffer, or a complete header. -/
def Skips (r r' : Reader) : Prop :=
  r' = r ∨ ∃ w p, r.headerDone = false ∧ IsFrame w p ∧ r.buffer = w ++ r'.buffer ∧
    r' = r.behind r'.buffer

/-- All that asking for a block can come to, and what is taken off the buffer. -/
inductive Step (r : Reader) : Reader → Except Fault (Option Block) → Prop
  | more {r' : Reader} : Skips r r' → Unfinished r'.buffer → Step r r' (.ok none)
  | badLength {r' : Reader} {e : Fault} : Skips r r' → BadLength r'.buffer e → Step r r' (.error e)
  | badCid {h w p rest : Bytes} {e : Fault} : Front r h → r.buffer = h ++ (w ++ rest) →
      IsFrame w p → BadCid p e → Step r (r.behind rest) (.error e)
  | block {h w p rest : Bytes} {b : Block} : Front r h → r.buffer = h ++ (w ++ rest) →
      IsFrame w p → IsSection p b →
      Step r { r.behind rest with blocks := r.blocks + 1 } (.ok (some b))

variable {r : Reader}

theorem step_of_headerDone (hd : r.headerDone = true) : Step r r.next.1 r.next.2 := by
  have hn : r.next = r.nextSection := if_pos hd
  rw [hn]
  rcases front_cases r.buffer with ⟨w, p, rest, hb, hw⟩ | hu | ⟨e, he⟩
  · have hf : splitFrame r.buffer = .ok (some (p, rest)) := by rw [hb, splitFrame_of_frame hw]
    have hfront : Front r [] := by simp [Front, hd]
    rcases payload_cases p with ⟨b, hp⟩ | ⟨e, hp⟩
    · simp only [Reader.nextSection, hf, sectionBlock_of_section hp, hd]
      exact .block hfront hb hw hp
    · simp only [Reader.nextSection, hf, sectionBlock_of_badCid hp, hd]
      exact .badCid hfront hb hw hp
  · simp only [Reader.nextSection, splitFrame_of_unfinished hu]
    exact .more (.inl rfl) hu
  · simp only [Reader.nextSection, splitFrame_of_badLength he]
    exact .badLength (.inl rfl) he

theorem next_header {w p rest : Bytes} (hd : r.headerDone = false) (hw : IsFrame w p)
    (hb : r.buffer = w ++ rest) : r.next = (r.behind rest).next := by
  have hf : splitFrame r.buffer = .ok (some (p, rest)) := by rw [hb, splitFrame_of_frame hw]
  simp [Reader.next, Reader.behind, hd, hf]

/-- A step of the reader behind the header is one of the reader in front of it. -/
theorem Step.header {w p rest : Bytes} {r' : Reader} {o : Except Fault (Option Block)}
    (hd : r.headerDone = false) (hw : IsFrame w p) (hb : r.buffer = w ++ rest)
    (h : Step (r.behind rest) r' o) : Step r r' o := by
  have hfront : Front r w := by
    simp only [Front, hd, Bool.false_eq_true, if_false]
    exact ⟨p, hw⟩
  have hskip {r' : Reader} (h : Skips (r.behind rest) r') : Skips r r' := by
    rcases h with rfl | ⟨_, _, hd', -⟩
    · exact .inr ⟨w, p, hd, hw, hb, rfl⟩
    · cases hd'
  cases h with
  | more hs hu => exact .more (hskip hs) hu
  | badLength hs he => exact .badLength (hskip hs) he
  | badCid hf hb' hw' hp =>
    cases hf
    exact .badCid hfront (hb.trans (congrArg (w ++ ·) hb')) hw' hp
  | block hf hb' hw' hp =>
    cases hf
    exact .block hfront (hb.trans (congrArg (w ++ ·) hb')) hw' hp

theorem step (r : Reader) : Step r r.next.1 r.next.2 := by
  by_cases hd : r.headerDone = true
  · exact step_of_headerDone hd
  rw [Bool.not_eq_true] at hd
  rcases front_cases r.buffer with ⟨w, p, rest, hb, hw⟩ | hu | ⟨e, he⟩
  · rw [next_header hd hw hb]
    exact .header hd hw hb (step_of_headerDone rfl)
  · have hn : r.next = (r, .ok none) := by simp [Reader.next, hd, splitFrame_of_unfinished hu]
    rw [hn]
    exact .more (.inl rfl) hu
  · have hn : r.next = (r, .error e) := by simp [Reader.next, hd, splitFrame_of_badLength he]
    rw [hn]
    exact .badLength (.inl rfl) he

theorem Skips.blocks {r' : Reader} (h : Skips r r') : r'.blocks = r.blocks := by
  rcases h with rfl | ⟨_, _, _, _, _, h⟩
  · rfl
  · rw [h]; rfl

/-! ## What comes after -/

theorem next_badLength {e : Fault} (h : BadLength r.buffer e) : r.next = (r, .error e) := by
  simp [Reader.next, Reader.nextSection, splitFrame_of_badLength h]

theorem run_badLength {e : Fault} (as : List Action) : ∀ {r : Reader}, BadLength r.buffer e →
    ∀ o ∈ (r.run as).2, o = .error e := by
  induction as with
  | nil => intro r _ o ho; cases ho
  | cons a as ih =>
    intro r h o ho
    cases a with
    | push c => exact ih (r := r.push c) (h.append c) o ho
    | next =>
      simp only [Reader.run, next_badLength h, List.mem_cons] at ho
      rcases ho with rfl | ho
      · rfl
      · exact ih h o ho

/-- A reader gives the same answers whether the header is still in front of it or not. -/
theorem run_header {w p : Bytes} (hw : IsFrame w p) (as : List Action) :
    ∀ (n : Nat) (rest : Bytes), (Reader.run ⟨rest, true, n⟩ as).2 =
      (Reader.run ⟨w ++ rest, false, n⟩ as).2 := by
  induction as with
  | nil => intro n rest; rfl
  | cons a as ih =>
    intro n rest
    cases a with
    | push c =>
      simp only [Reader.run, Reader.push, List.append_assoc]
      exact ih n (rest ++ c)
    | next =>
      have hn : Reader.next ⟨w ++ rest, false, n⟩ = Reader.next ⟨rest, true, n⟩ :=
        next_header rfl hw rfl
      simp only [Reader.run, hn]

theorem run_front {h : Bytes} (hf : Front r h) (rest : Bytes) (as : List Action) :
    (Reader.run (r.behind rest) as).2 = (Reader.run { r with buffer := h ++ rest } as).2 := by
  obtain ⟨buffer, headerDone, blocks⟩ := r
  cases headerDone with
  | true => cases hf; rfl
  | false =>
    obtain ⟨p, hw⟩ := hf
    exact run_header hw as blocks rest

/-! ## Reading all there is -/

def fault? : Except Fault (Option Block) → Option Fault
  | .error e => some e
  | .ok _ => none

theorem length_of_frame {w p : Bytes} (h : IsFrame w p) : 2 ≤ w.length := by
  obtain ⟨v, rfl, hv⟩ := h.split
  have := hv.groups.length_pos
  have := h.nonempty
  rw [List.length_append]
  omega

theorem exists_drainWithin (k : Nat) : ∀ {r : Reader}, r.buffer.length < k → ∃ bs o,
    2 * bs.length ≤ r.buffer.length ∧ (∀ b, o ≠ .ok (some b)) ∧
      r.run (List.replicate (bs.length + 1) .next) =
        ((r.drainWithin k).1, bs.map (.ok ∘ some) ++ [o]) ∧
      (r.drainWithin k).2 = (bs, fault? o) := by
  induction k with
  | zero => intro r h; omega
  | succ k ih =>
    intro r hk
    have hs := step r
    rcases hn : r.next with ⟨r', e | _ | b⟩
    · exact ⟨[], .error e, Nat.zero_le _, by simp, by simp [Reader.run, Reader.drainWithin, hn],
        by simp [Reader.drainWithin, hn, fault?]⟩
    · exact ⟨[], .ok none, Nat.zero_le _, by simp, by simp [Reader.run, Reader.drainWithin, hn],
        by simp [Reader.drainWithin, hn, fault?]⟩
    · rw [hn] at hs
      cases hs with
      | @block h w p rest _ hf hb hw hp =>
        have hlen : rest.length + 2 ≤ r.buffer.length := by
          have := length_of_frame hw
          simp only [hb, List.length_append]
          omega
        obtain ⟨bs, o, hbs, ho, hrun, hdrain⟩ :=
          ih (r := { r.behind rest with blocks := r.blocks + 1 }) (by simp [Reader.behind]; omega)
        refine ⟨b :: bs, o, ?_, ho, ?_, ?_⟩
        · simp only [Reader.behind, List.length_cons] at hbs ⊢
          omega
        · rw [List.length_cons, List.replicate_succ]
          simp only [Reader.run, Reader.drainWithin, hn, hrun]
          rfl
        · simp only [Reader.drainWithin, hn, hdrain]

/-! ## Each outcome -/

theorem unfinished_cases {s : Bytes} (h : Unfinished s) : s.length < 4 * 1024 * 1024 + 10 ∧
    ((∃ w p, IsFrame w p ∧ s <+: w ∧ s ≠ w) ∨ s.length < 10 ∧ ∀ b ∈ s, 128 ≤ b.toNat) := by
  cases h with
  | length hs hall => exact ⟨by omega, .inr ⟨hs, hall⟩⟩
  | @payload v p n hv h1 hn hp =>
    have hshort := hv.short
    -- any octets will do for those that are missing
    let missing : Bytes := List.replicate (n - p.length) 0
    have hlen : (p ++ missing).length = n := by simp [missing]; omega
    have hne : v ++ p ≠ v ++ (p ++ missing) := by
      intro h
      have := congrArg List.length h
      simp only [List.length_append] at this hlen
      omega
    refine ⟨by rw [List.length_append]; omega, .inl ⟨_, p ++ missing, ?_, ?_, hne⟩⟩
    · exact ⟨by omega, by omega, v, rfl, hlen ▸ hv⟩
    · rw [← List.append_assoc]
      exact List.prefix_append _ _

/-- A reader is asked for a block, whatever came before. A block takes its frame off the buffer, and
the header if that was still in front, so one who goes on asking comes to an end. If more is needed,
what is left is less than a frame, or a length that has not ended. A bad length takes nothing but a
complete header, and every answer that follows is the same fault. A bad identifier takes its frame
with it, and the answers that follow are those of a reader that was never sent that frame. -/
theorem next_recovers (r : Reader) :
    (match r.next with
      | (r', .ok (some b)) => ∃ h w p, Front r h ∧ IsFrame w p ∧ IsSection p b ∧
          r.buffer = h ++ (w ++ r'.buffer) ∧ r'.blocks = r.blocks + 1
      | (r', .ok none) => Skips r r' ∧ r'.blocks = r.blocks ∧
          r'.buffer.length < 4 * 1024 * 1024 + 10 ∧
          ((∃ w p, IsFrame w p ∧ r'.buffer <+: w ∧ r'.buffer ≠ w) ∨
            r'.buffer.length < 10 ∧ ∀ b ∈ r'.buffer, 128 ≤ b.toNat)
      | (r', .error e) => r'.blocks = r.blocks ∧
          ((Skips r r' ∧ BadLength r'.buffer e ∧ ∀ as, ∀ o ∈ (r'.run as).2, o = .error e) ∨
            ∃ h w p, Front r h ∧ IsFrame w p ∧ BadCid p e ∧ r.buffer = h ++ (w ++ r'.buffer) ∧
              ∀ as, (r'.run as).2 = (Reader.run { r with buffer := h ++ r'.buffer } as).2)) ∧
      ∃ bs o, 2 * bs.length ≤ r.buffer.length ∧ (∀ b, o ≠ .ok (some b)) ∧
        r.run (List.replicate (bs.length + 1) .next) = (r.drain.1, bs.map (.ok ∘ some) ++ [o]) ∧
        r.drain.2 = (bs, fault? o) := by
  refine ⟨?_, exists_drainWithin _ (Nat.lt_succ_self _)⟩
  have hs := step r
  generalize r.next = n at hs
  obtain ⟨r', o⟩ := n
  dsimp only at hs
  cases hs with
  | more hk hu => exact ⟨hk, hk.blocks, unfinished_cases hu⟩
  | badLength hk he => exact ⟨hk.blocks, .inl ⟨hk, he, fun as => run_badLength as he⟩⟩
  | @badCid h w p rest e hf hb hw hp =>
    exact ⟨rfl, .inr ⟨h, w, p, hf, hw, hp, hb, run_front hf rest⟩⟩
  | @block h w p rest b hf hb hw hp => exact ⟨h, w, p, hf, hw, hp, hb, rfl⟩

theorem pow_le_of_groups {v p t : Bytes} {n k : Nat} (hv : Varint.Groups v n)
    (h : v ++ p = List.replicate k 0xff ++ t) : 128 ^ k ≤ n + 1 := by
  induction hv generalizing k with
  | @last b hb =>
    cases k with
    | zero => simp
    | succ k =>
      simp only [List.replicate_succ, List.cons_append, List.cons.injEq] at h
      rw [h.1] at hb
      exact absurd hb (by decide)
  | @more b v n hb hv ih =>
    cases k with
    | zero => simp
    | succ k =>
      simp only [List.replicate_succ, List.cons_append, List.cons.injEq] at h
      have := ih h.2
      have hb : b.toNat = 255 := by rw [h.1]; rfl
      rw [Nat.pow_succ]
      omega

/-- A reader that needs more may hold what no frame begins with, as the length in front is too large
already. A section with a bad identifier is taken together with the header before it. -/
theorem buffer_of_no_frame :
    (let r := (Reader.run {} [.push [0xff, 0xff, 0xff, 0xff]]).1
     r.next = (r, .ok none) ∧ ∀ w p, IsFrame w p → ¬ r.buffer <+: w) ∧
    (let r := (Reader.run {} [.push [1, 0, 1, 0]]).1
     r.next = (r.behind [], .error (.cidVersion 0)) ∧
       ∀ w p, IsFrame w p → r.buffer ≠ w ++ (r.behind []).buffer) := by
  refine ⟨⟨by decide, ?_⟩, by decide, ?_⟩
  · rintro w p hw ⟨t, ht⟩
    obtain ⟨v, rfl, hv⟩ := hw.split
    have hn := pow_le_of_groups (k := 4) hv.groups ht.symm
    have := hw.bounded
    omega
  · intro w p hw h
    have hf : splitFrame [1, 0, 1, 0] = .ok (some (p, [])) := by
      rw [show [1, 0, 1, 0] = w ++ [] from h]
      exact splitFrame_of_frame hw []
    have hrest : splitFrame [1, 0, 1, 0] = .ok (some ([0], [1, 0])) := by decide
    rw [hrest] at hf
    cases hf

end Courier.Archive
