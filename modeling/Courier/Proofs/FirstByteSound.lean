import Courier.Proofs.DownloadSound
import Courier.Proofs.StageSound
import Courier.Proofs.TradeSound
/-!
# First data is told once, and when it comes

An attempt by itself is early until it tells of its first data, and late from
then on (`Once`). So that is the next thing told after its beginning, and it is
told once. A download has received the root by then. A transfer has been
answered, which says nothing of the blocks in the answer: there may be none. A
retrieval over an exchange has been given a block by a provider that it asked.
-/

namespace Courier.Fallback

/-! ## Attempts in general -/

/-- Which phases of an attempt come before its first data and which after, and what brings it; the
former also by the looks that the attempt has had. -/
structure Once {α : Type} (t : Transport α) (root : Cid) (Early : Candidate → List Look → α → Prop)
    (Late : α → Prop) (Brings : Candidate → List Look → Look → Prop) : Prop where
  begins : ∀ {c phase}, t.start c = .ok phase → Early c [] phase
  waits : ∀ {c ls phase phase'} {l : Look}, Early c ls phase →
    (t.step root l.now phase l.input).first = none →
    (t.step root l.now phase l.input).outcome = .goes phase' → Early c (ls ++ [l]) phase'
  brings : ∀ {c ls phase d} {l : Look}, Early c ls phase →
    (t.step root l.now phase l.input).first = some d →
    Brings c ls l ∧ ∀ phase', (t.step root l.now phase l.input).outcome = .goes phase' → Late phase'
  rests : ∀ {phase} {l : Look}, Late phase →
    (t.step root l.now phase l.input).first = none ∧
      ∀ phase', (t.step root l.now phase l.input).outcome = .goes phase' → Late phase'

/-- A retrieval that has told of nothing since the beginning of an attempt, and a look that brings
first data to the attempt. -/
inductive Heralds {α : Type} (t : Transport α) (root : Cid)
    (Brings : Candidate → List Look → Look → Prop) (l : List Candidate) :
    List Look → List Effect → Look → ProviderId → Prop
  | mk {missed : List Missed} {c : Candidate} {others : List Candidate} {first m : Look}
      {ls : List Look} : (∀ m ∈ missed, m.Holds t root) →
      l = missed.map Missed.candidate ++ c :: others → Brings c ls m →
      Heralds t root Brings l (missed.flatMap Missed.looks ++ first :: ls)
        (missed.flatMap (Missed.trace t) ++ [.tell (.providerStarted c.provider t.protocol)])
        m c.provider

section Once

variable {α : Type} {t : Transport α} {root : Cid} {Early : Candidate → List Look → α → Prop}
  {Late : α → Prop} {Brings : Candidate → List Look → Look → Prop}

theorem Once.attempted (h : Once t root Early Late Brings) {c : Candidate} {first : Look}
    {ls : List Look} {es : List Effect} {phase : α}
    (ha : Attempted t root c first ls es (.goes phase)) :
    (es = [] ∧ Early c ls phase) ∨ Late phase := by
  generalize ho : Outcome.goes phase = o at ha
  induction ha generalizing phase with
  | barred | refused => cases ho
  | begun _ hs =>
    cases ho
    exact .inl ⟨rfl, h.begins hs⟩
  | @goes ls l es phase₀ _ _ hgoes ih =>
    cases ho
    rcases ih rfl with ⟨rfl, hearly⟩ | hlate
    · cases hd : (t.step root l.now phase₀ l.input).first with
      | none => exact .inl ⟨by simp [told, hd], h.waits hearly hd hgoes⟩
      | some d => exact .inr ((h.brings hearly hd).2 _ hgoes)
    · exact .inr ((h.rests hlate).2 _ hgoes)
  | ends _ _ hno => exact absurd ho.symm (hno _)

theorem not_first_settle (f : Fallback α) (now : Instant) (ended : Option Error) {o : Outcome α}
    (ho : ∀ e, o ≠ .fails e) (p : ProviderId) (pr : Protocol) (d : Duration) :
    Effect.tell (.firstByte p pr d) ∉ (settle t root now f ended o).1 := by
  cases o with
  | goes phase => exact List.not_mem_nil
  | succeeds began size blocks => simp [settle]
  | fails e => exact absurd rfl (ho e)

variable (t root) in
/-- What a look tells of an attempt is at most its first data, and that before anything else. -/
theorem next_trying (f : Fallback α) (m : Look) :
    ∃ es, ((Stage.trying f).next t root m).1 =
        told t f.candidate (t.step root m.now f.phase m.input) ++ es ∧
      ∀ p pr d, Effect.tell (.firstByte p pr d) ∉ es := by
  simp only [Stage.next]
  split
  · exact ⟨_, rfl, by simp⟩
  · next o hno => exact ⟨_, rfl, not_first_settle f m.now m.ended hno⟩

theorem first_of_next {s : Stage α} {m : Look} {p : ProviderId} {pr : Protocol} {d : Duration}
    (hm : .tell (.firstByte p pr d) ∈ (s.next t root m).1) :
    ∃ f, s = .trying f ∧ (t.step root m.now f.phase m.input).first = some d ∧
      p = f.candidate.provider ∧ pr = t.protocol := by
  cases s with
  | turning last left =>
    cases left with
    | nil => cases hm
    | cons c others =>
      simp only [Stage.next] at hm
      split at hm <;> simp [started] at hm
  | trying f =>
    obtain ⟨es, hes, hno⟩ := next_trying t root f m
    rw [hes] at hm
    rcases List.mem_append.mp hm with hm | hm
    · simp only [told, List.mem_map, Option.mem_toList, Effect.tell.injEq,
        Happening.firstByte.injEq] at hm
      obtain ⟨d', hd, rfl, rfl, rfl⟩ := hm
      exact ⟨f, rfl, hd, rfl, rfl⟩
    · exact absurd hm (hno _ _ _)
  | failing c others e =>
    simp only [Stage.next] at hm
    split at hm <;> simp [failure] at hm
  | _ => cases hm

theorem Once.next (h : Once t root Early Late Brings) {l : List Candidate} {looks : List Look}
    {es : List Effect} {s : Stage α} (hs : Accounted t root l looks es s) {m : Look}
    {p : ProviderId} {pr : Protocol} {d : Duration}
    (hm : .tell (.firstByte p pr d) ∈ (s.next t root m).1) :
    pr = t.protocol ∧ Heralds t root Brings l looks es m p ∧
      ∃ rest, (s.next t root m).1 = .tell (.firstByte p pr d) :: rest ∧
        ∀ p' pr' d', Effect.tell (.firstByte p' pr' d') ∉ rest := by
  -- nothing but an attempt tells of first data, and only while it is early
  obtain ⟨f, rfl, hd, rfl, rfl⟩ := first_of_next hm
  obtain ⟨missed, left, ls', es', hmissed, rfl, rfl, rfl, hstands⟩ := hs
  cases hstands with
  | @trying c others first ls es phase ha =>
    rcases h.attempted ha with ⟨rfl, hearly⟩ | hlate
    · refine ⟨rfl, .mk hmissed rfl (h.brings hearly hd).1, ?_⟩
      obtain ⟨rest, hrest, hno⟩ := next_trying t root ⟨c, others, first.now, phase⟩ m
      refine ⟨rest, ?_, hno⟩
      rw [hrest, told, hd]
      rfl
    · have hnone := (h.rests (l := m) hlate).1
      simp only at hd
      rw [hnone] at hd
      cases hd

end Once

end Courier.Fallback

/-! ## Transfers -/

namespace Courier.Transfer

open Fallback

/-- Whether a transfer was not answered yet. -/
def awaits : Phase → Bool
  | .storing .. => false
  | _ => true

theorem first_eq_some_iff {root : Cid} {now : Instant} {phase : Phase} {i : Input} {d : Duration} :
    (step root now phase i).first = some d ↔
      ∃ began blocks, phase = .transferring began ∧ i = .transfer blocks ∧ d = now.since began := by
  cases phase <;> cases i <;> simp [step, eq_comm]

theorem awaits_step {root : Cid} {now : Instant} {phase phase' : Phase} {i : Input}
    (h : (step root now phase i).outcome = .goes phase') :
    awaits phase' = (awaits phase && (step root now phase i).first.isNone) := by
  have stored {began : Instant} {size n : Nat} {blocks : List Block}
      (h : store began size n blocks = .goes phase') : awaits phase' = false := by
    cases blocks with
    | nil => cases h
    | cons b others =>
      cases h
      rfl
  unfold step at h ⊢
  split at h
  · cases h
  · cases h
    rfl
  · simp only at h ⊢
    split at h
    · simpa using stored h
    · cases h
  · simpa [awaits] using stored h
  · cases h
    exact (Bool.and_true _).symm

/-- A transfer is answered with some blocks. -/
def Delivers (m : Look) : Prop := ∃ b blocks, m.input = .transfer (b :: blocks)

theorem once (root : Cid) : Once transport root (fun _ _ phase => awaits phase)
    (fun phase => awaits phase = false)
    (fun _ _ m => Delivers m ↔ m.input ≠ .transfer []) where
  begins h := by
    cases h
    rfl
  waits h hfirst hgoes := by
    rw [awaits_step hgoes, h]
    exact Option.isNone_iff_eq_none.mpr hfirst
  brings h hfirst := by
    obtain ⟨began, blocks, rfl, hi, rfl⟩ := first_eq_some_iff.mp hfirst
    constructor
    · cases blocks <;> simp [Delivers, hi]
    · intro phase' hgoes
      rw [awaits_step hgoes, first_eq_some_iff.mpr ⟨began, blocks, rfl, hi, rfl⟩]
      rfl
  rests {phase l} h := by
    have hnone : (step root l.now phase l.input).first = none := by
      rw [Option.eq_none_iff_forall_ne_some]
      intro d hd
      obtain ⟨began, blocks, rfl, -, -⟩ := first_eq_some_iff.mp hd
      cases h
    refine ⟨hnone, fun phase' hgoes => ?_⟩
    rw [awaits_step hgoes, h]
    rfl

end Courier.Transfer

/-! ## Downloads -/

namespace Courier.Download

open Archive Fallback

/-- How many blocks a download has read. -/
def blocks : Phase → Nat
  | .acquiring _ | .requesting _ _ => 0
  | .receiving body | .placing body _ => body.reader.blocks

/-- What a download hears of a body. -/
def heard : Phase → Input → Bytes
  | .receiving _, .body octets => octets
  | _, _ => []

/-- The octets that a download has received in some looks since it began at a candidate. -/
inductive Received (root : Cid) (c : Candidate) : List Look → Bytes → Phase → Prop
  | begun {phase : Phase} : start c = .ok phase → Received root c [] [] phase
  | goes {ls : List Look} {octets : Bytes} {phase phase' : Phase} {l : Look} :
      Received root c ls octets phase →
      (step root l.now phase l.input).outcome = .goes phase' →
      Received root c (ls ++ [l]) (octets ++ heard phase l.input) phase'

/-- With a look the first block of what a download has received is there, and it is the root. -/
def RootRead (root : Cid) (c : Candidate) (ls : List Look) (m : Look) : Prop :=
  ∃ octets phase b l, Received root c ls octets phase ∧
    Parses (octets ++ heard phase m.input) (.ok b :: l) ∧ b.cid = root

/-- Where a download is that has read no block of what it received. -/
def Blank (octets : Bytes) : Phase → Prop
  | .acquiring _ | .requesting _ _ => octets = []
  | .receiving body => Reads (({} : Reader).push octets) [] body.reader
  | .placing _ _ => False

variable {root : Cid} {now : Instant} {body : Body} {octets : Bytes} {phase phase' : Phase}

theorem blocks_place {b : Block} (h : place body b = .goes phase) :
    blocks phase = body.reader.blocks := by
  unfold place at h
  split at h
  · cases h
  · cases h
    rfl

theorem pull_late (h : 0 < body.reader.blocks) : (pull root now body).first = none ∧
    ∀ phase', (pull root now body).outcome = .goes phase' → 0 < blocks phase' := by
  unfold pull
  cases asked body.reader with
  | @more r hn hr _ _ =>
    simp only [hn, true_and]
    intro phase' hgoes
    cases hgoes
    rw [blocks, hr.blocks]
    exact h
  | @block r b hn hr _ =>
    have hone : r.blocks ≠ 1 := by
      rw [hr.blocks]
      exact Nat.succ_ne_succ_iff.mpr (Nat.ne_of_gt h)
    simp only [hn, if_pos hone, true_and]
    intro phase' hgoes
    rw [blocks_place hgoes, hr.blocks]
    exact Nat.succ_pos _
  | fault hn _ _ =>
    simp only [hn, true_and]
    nofun

/-- What becomes of a download that has read no block: it reads the root now, or still none. -/
theorem pull_blank (h : Reads (({} : Reader).push octets) [] body.reader) :
    ((pull root now body).first = none →
      ∀ phase', (pull root now body).outcome = .goes phase' → Blank octets phase') ∧
    ∀ d, (pull root now body).first = some d →
      (∃ b l, Parses octets (.ok b :: l) ∧ b.cid = root) ∧
      ∀ phase', (pull root now body).outcome = .goes phase' → 0 < blocks phase' := by
  unfold pull
  cases asked body.reader with
  | @more r hn hr _ _ =>
    simp only [hn]
    refine ⟨fun _ phase' hgoes => ?_, nofun⟩
    cases hgoes
    exact h.trans hr
  | @block r b hn hr _ =>
    -- it is the first one, so it is told of if it is the root
    have hone : r.blocks = 1 := by
      rw [hr.blocks, h.blocks]
      rfl
    simp only [hn, hone, ne_eq, not_true_eq_false, if_false]
    split
    · exact ⟨fun _ => nofun, nofun⟩
    · next hroot =>
      refine ⟨nofun, fun d _ => ⟨?_, fun phase' hgoes => ?_⟩⟩
      · obtain ⟨l, hl, ⟨l', rfl⟩⟩ := (h.trans hr).begins
        exact ⟨b, l', hl, Decidable.not_not.mp hroot⟩
      · rw [blocks_place hgoes, hone]
        exact Nat.one_pos
  | fault hn _ _ =>
    simp only [hn]
    exact ⟨fun _ => nofun, nofun⟩

theorem step_late (h : 0 < blocks phase) (i : Input) : (step root now phase i).first = none ∧
    ∀ phase', (step root now phase i).outcome = .goes phase' → 0 < blocks phase' := by
  cases phase with
  | acquiring e => cases h
  | requesting e began => cases h
  | receiving body =>
    cases i with
    | body o => exact pull_late h
    | bodyEnd => exact ⟨rfl, fun phase' hgoes => absurd hgoes (Surroundings.close_ne_goes body phase')⟩
    | failure e => exact ⟨rfl, nofun⟩
    | silence limit => exact ⟨rfl, nofun⟩
    | _ =>
      refine ⟨rfl, fun phase' hgoes => ?_⟩
      cases hgoes
      exact h
  | placing body b =>
    cases i with
    | written => exact pull_late h
    | failure e => exact ⟨rfl, nofun⟩
    | _ =>
      refine ⟨rfl, fun phase' hgoes => ?_⟩
      cases hgoes
      exact h

theorem step_blank (h : Blank octets phase) (i : Input) :
    ((step root now phase i).first = none →
      ∀ phase', (step root now phase i).outcome = .goes phase' →
        Blank (octets ++ heard phase i) phase') ∧
    ∀ d, (step root now phase i).first = some d →
      (∃ b l, Parses (octets ++ heard phase i) (.ok b :: l) ∧ b.cid = root) ∧
      ∀ phase', (step root now phase i).outcome = .goes phase' → 0 < blocks phase' := by
  -- whatever a download does not wait for leaves it as it is
  have stays (hheard : heard phase i = []) : ∀ phase', Outcome.goes phase = .goes phase' →
      Blank (octets ++ heard phase i) phase' := by
    intro phase' hgoes
    cases hgoes
    rwa [hheard, List.append_nil]
  cases phase with
  | acquiring e =>
    cases i with
    | permit =>
      refine ⟨fun _ phase' hgoes => ?_, nofun⟩
      cases hgoes
      exact (List.append_nil octets).trans h
    | failure e => exact ⟨fun _ => nofun, nofun⟩
    | _ => exact ⟨fun _ => stays rfl, nofun⟩
  | requesting e began =>
    cases i with
    | response =>
      refine ⟨fun _ phase' hgoes => ?_, nofun⟩
      cases hgoes
      have hnil : octets ++ heard (.requesting e began) .response = [] :=
        (List.append_nil octets).trans h
      rw [Blank, hnil, Reader.push_nil]
      exact .refl _
    | failure e => exact ⟨fun _ => nofun, nofun⟩
    | silence limit => exact ⟨fun _ => nofun, nofun⟩
    | _ => exact ⟨fun _ => stays rfl, nofun⟩
  | receiving body =>
    cases i with
    | body o =>
      have hpushed := Reads.push h o
      rw [Reader.push_push] at hpushed
      exact pull_blank hpushed
    | bodyEnd => exact ⟨fun _ phase' hgoes => absurd hgoes (Surroundings.close_ne_goes body phase'), nofun⟩
    | failure e => exact ⟨fun _ => nofun, nofun⟩
    | silence limit => exact ⟨fun _ => nofun, nofun⟩
    | _ => exact ⟨fun _ => stays rfl, nofun⟩
  | placing body b => exact h.elim

theorem blank_of_start {c : Candidate} (h : start c = .ok phase) : Blank [] phase := by
  unfold start at h
  split at h
  · cases h
    rfl
  · cases h

theorem silent_of_transfer (root : Cid) (now : Instant) (phase : Phase) (bs : List Block) :
    (step root now phase (.transfer bs)).first = none := by
  cases phase <;> rfl

theorem once (root : Cid) : Once transport root
    (fun c ls phase => ∃ octets, Received root c ls octets phase ∧ Blank octets phase)
    (fun phase => 0 < blocks phase)
    (fun c ls m => RootRead root c ls m ↔ m.input ≠ .transfer []) where
  begins h := ⟨[], .begun h, blank_of_start h⟩
  waits h hfirst hgoes := by
    obtain ⟨octets, hreceived, hblank⟩ := h
    exact ⟨_, hreceived.goes hgoes, (step_blank hblank _).1 hfirst _ hgoes⟩
  brings {c ls phase d m} h hfirst := by
    obtain ⟨octets, hreceived, hblank⟩ := h
    obtain ⟨⟨b, l, hparses, hroot⟩, hlate⟩ := (step_blank hblank _).2 _ hfirst
    refine ⟨iff_of_true ⟨octets, _, b, l, hreceived, hparses, hroot⟩ fun hi => ?_, hlate⟩
    have hnone := silent_of_transfer root m.now phase []
    rw [← hi] at hnone
    cases hfirst.symm.trans hnone
  rests h := step_late h _

end Courier.Download

/-! ## Whole retrievals -/

namespace Courier

/-- In a history that grows with what is looked at, whatever can only come first in what a look
adds stands behind all that was there before some look. -/
theorem exists_look_of_eq_append {α β : Type} {f : List β → List α} {P : α → Prop}
    (hnil : f [] = []) (hsnoc : ∀ bs b, ∃ l, f (bs ++ [b]) = f bs ++ l ∧
      ∀ x ∈ l, P x → ∃ rest, l = x :: rest ∧ ∀ y ∈ rest, ¬ P y)
    {bs : List β} {x : α} {l l' : List α} (h : f bs = l ++ x :: l') (hx : P x) :
    ∃ bs' b later, bs = bs' ++ b :: later ∧ f bs' = l ∧
      ∃ rest, f (bs' ++ [b]) = f bs' ++ x :: rest := by
  induction bs using List.reverseRecOn generalizing l' with
  | nil =>
    rw [hnil] at h
    cases l <;> cases h
  | append_singleton bs b ih =>
    obtain ⟨m, hm, hfirst⟩ := hsnoc bs b
    rw [hm] at h
    rcases List.append_eq_append_iff.mp h with ⟨m', rfl, hx'⟩ | ⟨m', hbs, hx'⟩
    · obtain ⟨rest, rfl, hno⟩ := hfirst x (by rw [hx']; simp) hx
      cases m' with
      | nil => exact ⟨bs, b, [], rfl, (List.append_nil _).symm, rest, hm⟩
      | cons y m' =>
        cases hx'
        exact absurd hx (hno x (by simp))
    · cases m' with
      | nil =>
        rw [List.append_nil] at hbs
        obtain ⟨rest, rfl, -⟩ := hfirst x (by rw [← List.nil_append m, ← hx']; simp) hx
        exact ⟨bs, b, [], rfl, hbs, rest, hm⟩
      | cons y m' =>
        cases hx'
        obtain ⟨bs', b', later, rfl, hl, hrest⟩ := ih hbs
        exact ⟨bs', b', later ++ [b], by simp, hl, hrest⟩

namespace Fallback

variable {α : Type} {t : Transport α} {root : Cid} {Early : Candidate → List Look → α → Prop}
  {Late : α → Prop} {Brings : Candidate → List Look → Look → Prop}

theorem Once.run (h : Once t root Early Late Brings) {l : List Candidate} {looks : List Look}
    {es es' : List Effect} {p : ProviderId} {pr : Protocol} {d : Duration}
    (hrun : ((Stage.turning (.noCandidates root) l).run t root looks).1 =
      es ++ .tell (.firstByte p pr d) :: es') :
    pr = t.protocol ∧ ∃ earlier m later, looks = earlier ++ m :: later ∧
      ((Stage.turning (.noCandidates root) l).run t root earlier).1 = es ∧
      Heralds t root Brings l earlier es m p := by
  have hsnoc (looks : List Look) (m : Look) :
      ((Stage.turning (.noCandidates root) l).run t root (looks ++ [m])).1 =
        ((Stage.turning (.noCandidates root) l).run t root looks).1 ++
          (((Stage.turning (.noCandidates root) l).run t root looks).2.next t root m).1 := by
    simp [Stage.run_append, Stage.run]
  have hacc (looks : List Look) : Accounted t root l looks
      ((Stage.turning (.noCandidates root) l).run t root looks).1
      ((Stage.turning (.noCandidates root) l).run t root looks).2 := (Accounted.begins l).run looks
  obtain ⟨earlier, m, later, rfl, rfl, rest, hrest⟩ := exists_look_of_eq_append
    (f := fun looks => ((Stage.turning (.noCandidates root) l).run t root looks).1)
    (P := fun e => ∃ p pr d, e = .tell (.firstByte p pr d)) rfl (fun looks m => by
      refine ⟨_, hsnoc looks m, ?_⟩
      rintro _ he ⟨p, pr, d, rfl⟩
      obtain ⟨-, -, rest, hrest, hno⟩ := h.next (hacc looks) he
      refine ⟨rest, hrest, ?_⟩
      rintro _ hy ⟨p', pr', d', rfl⟩
      exact hno _ _ _ hy) hrun ⟨p, pr, d, rfl⟩
  -- what was told behind `es` is what that look adds
  have hes := List.append_cancel_left ((hsnoc earlier m).symm.trans hrest)
  have hm : .tell (.firstByte p pr d) ∈
      (((Stage.turning (.noCandidates root) l).run t root earlier).2.next t root m).1 := by
    rw [hes]
    exact List.mem_cons_self
  obtain ⟨hpr, hheralds, -⟩ := h.next (hacc earlier) hm
  exact ⟨hpr, earlier, m, later, rfl, rfl, hheralds⟩

end Fallback

theorem Trade.run_first {c : Config} {x : Exchange} (hx : Exchange.ofConfig? c = some x)
    {t : Trade} {m : Moment} {gs : List (Glance Trade.Deed)} {es es' : List Happening}
    {p : ProviderId} {pr : Protocol} {d : Duration}
    (hrun : (t.run m x gs).told = es ++ .firstByte p pr d :: es') :
    pr = .bitswap ∧ es = starts t.candidates ∧ ∃ earlier g later, gs = earlier ++ g :: later ∧
      Delivered t (t.run m x earlier) g p := by
  have hnext (gs : List (Glance Deed)) (g : Glance Deed) := ((run_sound hx t m gs).next g).2
  obtain ⟨earlier, g, later, rfl, htold, rest, hrest⟩ := exists_look_of_eq_append
    (f := fun gs => (t.run m x gs).told)
    (P := fun e => ∃ p pr d, e = .firstByte p pr d) rfl (fun gs g => by
      obtain ⟨l, hl⟩ := hnext gs g
      refine ⟨l, by rw [run_snoc]; exact hl.told, ?_⟩
      rintro _ he ⟨p, pr, d, rfl⟩
      exact ⟨[], (hl.first p pr d he).2.1, fun _ hy => absurd hy List.not_mem_nil⟩) hrun ⟨p, pr, d, rfl⟩
  obtain ⟨l, hl⟩ := hnext earlier g
  rw [run_snoc, hl.told] at hrest
  obtain rfl := List.append_cancel_left hrest
  obtain ⟨hpr, -, hdelivered⟩ := hl.first p pr d (by simp)
  exact ⟨hpr, htold.symm.trans hdelivered.2.1, earlier, g, later, rfl, hdelivered⟩

/-- An attempt of either kind has been given a block once it has had a look behind some others. -/
def Traffic.Kind.Delivers (root : Cid) :
    Traffic.Kind → Candidate → List Fallback.Look → Fallback.Look → Prop
  | .transfer => fun _ _ m => Transfer.Delivers m
  | .download => Download.RootRead root

/-- A transfer tells of first data whenever it is answered, whatever blocks are in the answer. -/
theorem Transfer.tells_first_iff {s : Fallback.Stage Transfer.Phase} {root : Cid}
    {m : Fallback.Look} :
    (∃ p pr d, .tell (.firstByte p pr d) ∈ (s.next transport root m).1) ↔
      ∃ f began blocks, s = .trying f ∧ f.phase = .transferring began ∧
        m.input = .transfer blocks := by
  constructor
  · rintro ⟨p, pr, d, hm⟩
    obtain ⟨f, rfl, hd, -, -⟩ := Fallback.first_of_next hm
    obtain ⟨began, blocks, hphase, hi, -⟩ := first_eq_some_iff.mp hd
    exact ⟨f, began, blocks, rfl, hphase, hi⟩
  · rintro ⟨f, began, blocks, rfl, hphase, hi⟩
    obtain ⟨es, hes, -⟩ := Fallback.next_trying transport root f m
    have hd : (transport.step root m.now f.phase m.input).first = some (m.now.since began) :=
      first_eq_some_iff.mpr ⟨began, blocks, hphase, hi, rfl⟩
    refine ⟨f.candidate.provider, .graphsync, m.now.since began, ?_⟩
    rw [hes, Fallback.told, hd]
    exact List.mem_cons_self

/-- Whatever a retrieval meets and whenever its context ends, it tells of first data once for an
attempt at most, and of a provider whose attempt it has told the beginning of, as the last thing
before. A block is there by then, unless a transfer was answered without any: every answer of a
transfer is told of. A retrieval over an exchange tells of first data once, when a block that it
asked for is there. -/
theorem first_told_once (k : Traffic.Kind) (root : Cid) (l : List Candidate)
    (looks : List Fallback.Look) (t : Trade) (m : Moment) (gs : List (Glance Trade.Deed)) :
    let told (looks : List Fallback.Look) :=
      ((Fallback.Stage.turning (.noCandidates root) l).run k.transport root looks).1
    (∀ es p pr d es', told looks = es ++ .tell (.firstByte p pr d) :: es' →
      pr = k.transport.protocol ∧ ∃ earlier look later, looks = earlier ++ look :: later ∧
        told earlier = es ∧ Fallback.Heralds k.transport root
          (fun c ls look => k.Delivers root c ls look ↔ look.input ≠ .transfer [])
          l earlier es look p) ∧
    (∀ s look, (∃ p pr d, .tell (.firstByte p pr d) ∈
        (Fallback.Stage.next Transfer.transport root look s).1) ↔
      ∃ f began blocks, s = .trying f ∧ f.phase = .transferring began ∧
        look.input = .transfer blocks) ∧
    ∀ c x, Exchange.ofConfig? c = some x → ∀ es p pr d es',
      (t.run m x gs).told = es ++ .firstByte p pr d :: es' →
      pr = .bitswap ∧ es = Trade.starts t.candidates ∧ ∃ earlier g later,
        gs = earlier ++ g :: later ∧ Trade.Delivered t (t.run m x earlier) g p := by
  refine ⟨fun es p pr d es' h => ?_, fun s look => Transfer.tells_first_iff,
    fun c x hx es p pr d es' h => Trade.run_first hx h⟩
  cases k with
  | transfer => exact (Transfer.once root).run h
  | download => exact (Download.once root).run h

/-- A provider that answers a transfer without any block. -/
theorem first_told_of_no_block :
    let looks : List Fallback.Look :=
      [⟨0, none, .permit⟩, ⟨0, none, .permit⟩, ⟨0, none, .transfer []⟩]
    (∀ m ∈ looks, ¬ Transfer.Delivers m) ∧
    ((Fallback.Stage.turning (.noCandidates ⟨[1]⟩) [⟨⟨[1]⟩, ⟨[7]⟩, [], [.graphsync]⟩]).run
      Transfer.transport ⟨[1]⟩ looks).1 =
      [.tell (.providerStarted ⟨[7]⟩ .graphsync), .tell (.firstByte ⟨[7]⟩ .graphsync ⟨0, 0⟩),
        .leave] := by
  refine ⟨?_, rfl⟩
  simp [Transfer.Delivers]

end Courier
