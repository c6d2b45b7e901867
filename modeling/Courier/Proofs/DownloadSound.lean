import Courier.Attempt.Download
import Courier.Proofs.ReaderSound

/-!
# Downloads place only what belongs

A download is given its permit and a good answer, then the body in chunks, and
hands its blocks to a sink. Whatever becomes of the body and the sink, the
blocks handed over begin the sections of what was received, the root is the
first of them, and each matches its identifier. The download ends, and it
succeeds exactly if everything went well (`WentWell`).
-/

namespace Courier.Download

open Archive

/-! ## Runs -/

/-- How a body ends, and after how many nanoseconds. -/
inductive Ending where
  | complete (wait : Nat)
  | broken (wait : Nat) (e : Error)
  | never
  deriving DecidableEq, Repr

structure Course where
  state : Outcome Phase
  /-- The chunks still to come, each behind the nanoseconds until it does. -/
  chunks : List (Nat × Bytes)
  received : Bytes := []
  handed : List Block := []

/-- What a download meets. -/
structure Surroundings where
  root : Cid
  endpoint : String
  chunks : List (Nat × Bytes)
  ending : Ending
  limit : Duration
  /-- The error of the last of some writes, if it fails. -/
  sink : List Block → Option Error
  clock : Course → Instant

namespace Surroundings

variable (env : Surroundings)

def octets : Bytes := (env.chunks.map (·.2)).flatten

/-- What comes after a wait, or that the wait was too long. -/
def within (wait : Nat) (i : Input) : Input :=
  if wait ≤ env.limit.total then i else .silence env.limit

def input (c : Course) : Phase → Input
  | .acquiring _ => .permit
  | .requesting _ _ => .response
  | .receiving _ =>
    match c.chunks, env.ending with
    | (wait, octets) :: _, _ => env.within wait (.body octets)
    | [], .complete wait => env.within wait .bodyEnd
    | [], .broken wait e => env.within wait (.failure e)
    | [], .never => .silence env.limit
  | .placing _ _ =>
    match env.sink c.handed with
    | none => .written
    | some e => .failure e

def placed : Outcome Phase → List Block
  | .goes (.placing _ b) => [b]
  | _ => []

def enter (c : Course) (state : Outcome Phase) : Course :=
  { c with state, handed := c.handed ++ placed state }

@[simp] theorem enter_state (c : Course) (o : Outcome Phase) : (enter c o).state = o := rfl
@[simp] theorem enter_chunks (c : Course) (o : Outcome Phase) : (enter c o).chunks = c.chunks := rfl

def step (c : Course) : Course :=
  match c.state with
  | .goes phase =>
    let i := env.input c phase
    let state := (Download.step env.root (env.clock c) phase i).outcome
    match i with
    | .body octets =>
      enter { c with chunks := c.chunks.tail, received := c.received ++ octets } state
    | _ => enter c state
  | _ => c

def run : Nat → Course
  | 0 => ⟨.goes (.acquiring env.endpoint), env.chunks, [], []⟩
  | n + 1 => env.step (run n)

/-- The body is an archive of some blocks and came in time, the root is the first of them, each
matches its identifier, and no write fails. -/
structure WentWell (bs : List Block) : Prop where
  timely : ∀ x ∈ env.chunks, x.1 ≤ env.limit.total
  ended : ∃ wait, env.ending = .complete wait ∧ wait ≤ env.limit.total
  archive : IsArchive env.octets bs
  first : ∃ b, bs.head? = some b ∧ b.cid = env.root
  verified : ∀ b ∈ bs, verify b = .ok ()
  written : ∀ l, l ≠ [] → l <+: bs → env.sink l = none

/-! ## What a download keeps -/

/-- The blocks handed over are in their place. -/
structure InPlace (c : Course) (r : Reader) : Prop where
  reads : Reads (({} : Reader).push c.received) c.handed r
  first : ∀ b, c.handed.head? = some b → b.cid = env.root
  verified : ∀ b ∈ c.handed, verify b = .ok ()

structure Underway (c : Course) (body : Body) : Prop extends InPlace env c body.reader where
  whole : c.received ++ (c.chunks.map (·.2)).flatten = env.octets
  timely : ∀ x ∈ env.chunks, x ∈ c.chunks ∨ x.1 ≤ env.limit.total
  rest : ∀ x ∈ c.chunks, x ∈ env.chunks
  size : body.size = totalSize c.handed

/-- All that can be said of a download on its way and at its end. -/
inductive Good : Course → Prop
  | acquiring {e : String} : Good ⟨.goes (.acquiring e), env.chunks, [], []⟩
  | requesting {e : String} {t : Instant} : Good ⟨.goes (.requesting e t), env.chunks, [], []⟩
  | receiving {c : Course} {body : Body} : c.state = .goes (.receiving body) → Underway env c body →
      Unfinished body.reader.buffer → (∀ l, l ≠ [] → l <+: c.handed → env.sink l = none) → Good c
  | placing {c : Course} {body : Body} {b : Block} : c.state = .goes (.placing body b) →
      Underway env c body → (∀ l, l ≠ [] → l <+: c.handed → l ≠ c.handed → env.sink l = none) →
      c.handed ≠ [] → Good c
  | fails {c : Course} {r : Reader} {e : Error} : c.state = .fails e → InPlace env c r →
      (∀ bs, ¬ env.WentWell bs) → Good c
  | succeeds {c : Course} {r : Reader} {t : Instant} : InPlace env c r →
      c.state = .succeeds t (totalSize c.handed) c.handed.length → env.WentWell c.handed → Good c

variable {env}

theorem Underway.rest_of_archive {c : Course} {body : Body} (h : Underway env c body) {bs : List Block}
    (hb : IsArchive env.octets bs) : ∃ l, bs = c.handed ++ l ∧
      Rest (body.reader.push (c.chunks.map (·.2)).flatten) (l.map .ok) := by
  obtain ⟨l, hl⟩ := exists_rest (body.reader.push (c.chunks.map (·.2)).flatten)
  have hp := h.reads.rest _ l hl
  rw [Reader.push_push, h.whole, rest_fresh] at hp
  have heq := hp.unique (isArchive_iff.mp hb).1
  obtain ⟨as, m, rfl, has, rfl⟩ := List.append_eq_map_iff.mp heq
  rw [List.map_inj_right fun _ _ => Except.ok.inj] at has
  exact ⟨m, by rw [has], hl⟩

theorem Underway.next_of_archive {c : Course} {body : Body} (h : Underway env c body) {r : Reader}
    {b : Block} (hr : Reads body.reader [b] r) {bs : List Block} (hb : IsArchive env.octets bs) :
    ∃ l, bs = c.handed ++ b :: l := by
  obtain ⟨l, rfl, hl⟩ := h.rest_of_archive hb
  obtain ⟨m, hm⟩ := exists_rest (r.push (c.chunks.map (·.2)).flatten)
  obtain ⟨b', l, rfl, hb', -⟩ := List.map_eq_cons_iff.mp (hl.unique (hr.rest _ m hm))
  cases hb'
  exact ⟨l, rfl⟩

theorem enter_fails (c : Course) (e : Error) : enter c (.fails e) = { c with state := .fails e } := by
  simp [enter, placed]

theorem Underway.fails {c : Course} {body : Body} (h : Underway env c body) {e : Error}
    (hno : ∀ bs, ¬ env.WentWell bs) : Good env (enter c (.fails e)) := by
  rw [enter_fails]
  exact .fails rfl ⟨h.reads, h.first, h.verified⟩ hno

theorem good_place {c : Course} {body : Body} {r : Reader} {b : Block} (h : Underway env c body)
    (hr : Reads body.reader [b] r) (hfirst : c.handed = [] → b.cid = env.root)
    (hw : ∀ l, l ≠ [] → l <+: c.handed → env.sink l = none) :
    Good env (enter c (place { body with reader := r } b)) := by
  unfold place
  rcases hv : verify b with f | _
  · refine h.fails fun bs hbs => ?_
    obtain ⟨l, hl⟩ := h.next_of_archive hr hbs.archive
    have := hbs.verified b (by rw [hl]; simp)
    rw [hv] at this
    cases this
  · simp only [enter, placed]
    refine .placing rfl ⟨⟨h.reads.trans hr, ?_, ?_⟩, h.whole, h.timely, h.rest, ?_⟩ ?_ (by simp)
    · intro x hx
      rcases hh : c.handed with _ | ⟨y, ys⟩
      · simp only [hh, List.nil_append, List.head?_cons, Option.some.injEq] at hx
        exact hx ▸ hfirst hh
      · refine h.first x ?_
        simpa [hh] using hx
    · intro x hx
      rcases List.mem_append.mp hx with hx | hx
      · exact h.verified x hx
      · rw [List.mem_singleton.mp hx, hv]
    · rw [totalSize_append, ← h.size]; rfl
    · intro l hne hl hlast
      refine hw l hne ?_
      rcases List.prefix_concat_iff.mp hl with rfl | hl
      · exact absurd rfl hlast
      · exact hl

theorem good_pull {c : Course} {body : Body} (now : Instant) (h : Underway env c body)
    (hw : ∀ l, l ≠ [] → l <+: c.handed → env.sink l = none) :
    Good env (enter c (pull env.root now body).outcome) := by
  unfold pull
  cases asked body.reader with
  | more hn hr _ hu =>
    simp only [hn, enter, placed, List.append_nil]
    refine .receiving rfl ⟨⟨?_, h.first, h.verified⟩, h.whole, h.timely, h.rest, h.size⟩ hu hw
    simpa using h.reads.trans hr
  | @block r b hn hr _ =>
    have hblocks : r.blocks = c.handed.length + 1 := by
      rw [(h.reads.trans hr).blocks]
      simp [Reader.push]
    simp only [hn]
    split
    · rename_i hne
      refine good_place h hr (fun hnil => ?_) hw
      rw [hblocks, hnil] at hne
      exact absurd rfl hne
    · rename_i h1
      have hnil : c.handed = [] := by
        rw [Decidable.not_not, hblocks] at h1
        exact List.eq_nil_of_length_eq_zero (by omega)
      split
      · rename_i hroot
        refine h.fails fun bs hbs => ?_
        obtain ⟨l, hl⟩ := h.next_of_archive hr hbs.archive
        obtain ⟨x, hx, hxroot⟩ := hbs.first
        rw [hl, hnil] at hx
        cases hx
        exact hroot hxroot
      · rename_i hroot
        rw [Decidable.not_not] at hroot
        exact good_place h hr (fun _ => hroot) hw
  | fault hn _ hr =>
    rw [hn]
    refine h.fails fun bs hbs => ?_
    obtain ⟨l, -, hrest⟩ := h.rest_of_archive hbs.archive
    obtain ⟨b', l, rfl, hb, -⟩ := List.map_eq_cons_iff.mp (hrest.unique (hr _))
    cases hb

theorem good_close {c : Course} {body : Body} (h : Underway env c body)
    (hu : Unfinished body.reader.buffer) (hw : ∀ l, l ≠ [] → l <+: c.handed → env.sink l = none)
    (hc : c.chunks = []) {wait : Nat} (he : env.ending = .complete wait)
    (hwait : wait ≤ env.limit.total) :
    Good env (enter c (close body)) := by
  have hoct : env.octets = c.received := by rw [← h.whole, hc]; simp
  have hcomplete : body.reader.finish = .ok () ↔ ∃ ps, ps ≠ [] ∧ Frames env.octets ps := by
    have := h.reads.complete []
    rw [Reader.push_nil, Reader.push_nil, complete_fresh] at this
    rw [finish_iff hu, this, hoct]
  have hparses : Parses env.octets (c.handed.map .ok) := by
    have := h.reads.rest [] [] (by rw [Reader.push_nil]; exact rest_of_unfinished hu)
    rwa [Reader.push_nil, List.append_nil, rest_fresh, ← hoct] at this
  have hblocks : body.reader.blocks = c.handed.length := by rw [h.reads.blocks]; simp [Reader.push]
  unfold close
  rcases hf : body.reader.finish with f | _
  · refine h.fails fun bs hbs => ?_
    rw [hcomplete.mpr (isArchive_iff.mp hbs.archive).2] at hf
    cases hf
  · simp only [hblocks, List.length_eq_zero_iff]
    split
    · rename_i hnil
      refine h.fails fun bs hbs => ?_
      have := hparses.unique (isArchive_iff.mp hbs.archive).1
      rw [hnil] at this
      obtain ⟨x, hx, -⟩ := hbs.first
      rw [List.map_eq_nil_iff.mp this.symm] at hx
      cases hx
    · rename_i hne
      obtain ⟨b, bs, hb⟩ := List.exists_cons_of_ne_nil hne
      simp only [enter, placed, List.append_nil, h.size]
      exact .succeeds ⟨h.reads, h.first, h.verified⟩ rfl
        ⟨fun x hx => (h.timely x hx).resolve_left (by simp [hc]), ⟨wait, he, hwait⟩,
          isArchive_iff.mpr ⟨hparses, hcomplete.mp hf⟩, ⟨b, by simp [hb], h.first b (by simp [hb])⟩,
          h.verified, hw⟩

/-- What is no part of the body ends the download. -/
theorem good_stop {c : Course} {body : Body} {i : Input} (h : Underway env c body)
    (hs : c.state = .goes (.receiving body)) (hi : env.input c (.receiving body) = i)
    (hstop : i = .silence env.limit ∨ ∃ e, i = .failure e)
    (hno : ∀ bs, ¬ env.WentWell bs) : Good env (env.step c) := by
  have hstep : ∃ e, env.step c = enter c (.fails e) := by
    rcases hstop with rfl | ⟨e, rfl⟩
    · exact ⟨_, by simp only [step, hs, hi]; rfl⟩
    · exact ⟨_, by simp only [step, hs, hi]; rfl⟩
  obtain ⟨e, he⟩ := hstep
  rw [he]
  exact h.fails hno

theorem good_chunk {c : Course} {body : Body} {wait : Nat} {octets : Bytes} {cs : List (Nat × Bytes)}
    (h : Underway env c body) (hs : c.state = .goes (.receiving body))
    (hw : ∀ l, l ≠ [] → l <+: c.handed → env.sink l = none) (hc : c.chunks = (wait, octets) :: cs) :
    Good env (env.step c) := by
  by_cases hwait : wait ≤ env.limit.total
  · let c' : Course := { c with chunks := cs, received := c.received ++ octets }
    let body' : Body := { body with reader := body.reader.push octets }
    have hstep : env.step c = enter c' (pull env.root (env.clock c) body').outcome := by
      simp [step, hs, input, hc, within, hwait, Download.step, c', body']
    rw [hstep]
    refine good_pull (c := c') (env.clock c) ⟨⟨?_, h.first, h.verified⟩, ?_, ?_, ?_, h.size⟩ hw
    · have := h.reads.push octets
      rwa [Reader.push_push] at this
    · rw [← h.whole, hc]
      simp [c']
    · intro x hx
      rcases h.timely x hx with hin | hle
      · rw [hc] at hin
        rcases List.mem_cons.mp hin with rfl | hin
        · exact .inr hwait
        · exact .inl hin
      · exact .inr hle
    · intro x hx
      exact h.rest x (by rw [hc]; exact List.mem_cons_of_mem _ hx)
  · refine good_stop h hs (by simp [input, hc, within, hwait]) (.inl rfl) fun bs hbs => ?_
    exact hwait (hbs.timely (wait, octets) (h.rest _ (by rw [hc]; exact List.mem_cons_self)))

theorem good_ending {c : Course} {body : Body} (h : Underway env c body)
    (hs : c.state = .goes (.receiving body)) (hu : Unfinished body.reader.buffer)
    (hw : ∀ l, l ≠ [] → l <+: c.handed → env.sink l = none) (hc : c.chunks = []) :
    Good env (env.step c) := by
  -- only an end of the body that comes in time lets a download go well
  have hended : ∀ bs, env.WentWell bs → ∃ wait, env.ending = .complete wait ∧
      wait ≤ env.limit.total := fun bs hbs => hbs.ended
  rcases he : env.ending with wait | ⟨wait, e⟩ | _
  · by_cases hwait : wait ≤ env.limit.total
    · have hstep : env.step c = enter c (close body) := by
        simp [step, hs, input, hc, he, within, hwait, Download.step]
      rw [hstep]
      exact good_close h hu hw hc he hwait
    · refine good_stop h hs (by simp [input, hc, he, within, hwait]) (.inl rfl) fun bs hbs => ?_
      obtain ⟨_, hend, hle⟩ := hended bs hbs
      rw [he] at hend
      cases hend
      exact hwait hle
  · have hno : ∀ bs, ¬ env.WentWell bs := by
      intro bs hbs
      obtain ⟨_, hend, -⟩ := hended bs hbs
      rw [he] at hend
      cases hend
    by_cases hwait : wait ≤ env.limit.total
    · exact good_stop h hs (by simp [input, hc, he, within, hwait]) (.inr ⟨e, rfl⟩) hno
    · exact good_stop h hs (by simp [input, hc, he, within, hwait]) (.inl rfl) hno
  · refine good_stop h hs (by simp [input, hc, he]) (.inl rfl) fun bs hbs => ?_
    obtain ⟨_, hend, -⟩ := hended bs hbs
    rw [he] at hend
    cases hend

theorem good_receive {c : Course} {body : Body} (h : Underway env c body)
    (hs : c.state = .goes (.receiving body)) (hu : Unfinished body.reader.buffer)
    (hw : ∀ l, l ≠ [] → l <+: c.handed → env.sink l = none) : Good env (env.step c) := by
  rcases hc : c.chunks with _ | ⟨⟨wait, octets⟩, cs⟩
  · exact good_ending h hs hu hw hc
  · exact good_chunk h hs hw hc

theorem good_write {c : Course} {body : Body} {b : Block} (h : Underway env c body)
    (hs : c.state = .goes (.placing body b)) (hne : c.handed ≠ [])
    (hw : ∀ l, l ≠ [] → l <+: c.handed → l ≠ c.handed → env.sink l = none) :
    Good env (env.step c) := by
  rcases hsink : env.sink c.handed with _ | e
  · have hstep : env.step c = enter c (pull env.root (env.clock c) body).outcome := by
      simp [step, hs, input, hsink, Download.step]
    rw [hstep]
    refine good_pull (env.clock c) h fun l hl hpre => ?_
    by_cases heq : l = c.handed
    · rw [heq, hsink]
    · exact hw l hl hpre heq
  · have hstep : env.step c = enter c (.fails e) := by
      simp [step, hs, input, hsink, Download.step]
    rw [hstep]
    refine h.fails fun bs hbs => ?_
    obtain ⟨l, rfl, -⟩ := h.rest_of_archive hbs.archive
    rw [hbs.written _ hne (List.prefix_append _ _)] at hsink
    cases hsink

theorem good_step {c : Course} (h : Good env c) : Good env (env.step c) := by
  cases h with
  | acquiring =>
    have hstep : ∀ e, ∃ t, env.step ⟨.goes (.acquiring e), env.chunks, [], []⟩ =
        ⟨.goes (.requesting e t), env.chunks, [], []⟩ := fun e => ⟨_, rfl⟩
    obtain ⟨t, ht⟩ := hstep _
    rw [ht]
    exact .requesting
  | @requesting e t =>
    have hstep : env.step ⟨.goes (.requesting e t), env.chunks, [], []⟩ =
        ⟨.goes (.receiving { endpoint := e, began := t }), env.chunks, [], []⟩ := rfl
    rw [hstep]
    refine .receiving rfl ⟨⟨?_, by simp, by simp⟩, by simp [octets], fun x hx => .inl hx,
      fun _ hx => hx, rfl⟩ (.length (by simp) (by simp))
      fun l hne hl => absurd (List.prefix_nil.mp hl) hne
    rw [Reader.push_nil]
    exact .refl _
  | receiving hs hu hf hw => exact good_receive hu hs hf hw
  | placing hs hu hw hne => exact good_write hu hs hne hw
  | fails hs hp hno =>
    have hstep : env.step c = c := by simp [step, hs]
    rw [hstep]
    exact .fails hs hp hno
  | succeeds hp hs hgo =>
    have hstep : env.step c = c := by simp [step, hs]
    rw [hstep]
    exact .succeeds hp hs hgo

theorem good_run (env : Surroundings) (n : Nat) : Good env (env.run n) := by
  induction n with
  | zero => exact .acquiring
  | succ n ih => exact good_step ih

theorem InPlace.begins {c : Course} {r : Reader} (h : InPlace env c r) :
    ∃ l, Parses c.received l ∧ c.handed.map .ok <+: l :=
  h.reads.begins

/-! ## Every download ends -/

/-- How far a state is from its end, the chunks to come apart. -/
def weight : Outcome Phase → Nat
  | .goes (.acquiring _) => 3
  | .goes (.requesting _ _) => 2
  | .goes (.receiving body) => 2 * body.reader.buffer.length + 1
  | .goes (.placing body _) => 2 * body.reader.buffer.length + 2
  | _ => 0

def left (c : Course) : Nat :=
  weight c.state + 2 * (c.chunks.length + (c.chunks.map (·.2)).flatten.length)

theorem weight_pull (root : Cid) (now : Instant) (body : Body) :
    weight (pull root now body).outcome ≤ 2 * body.reader.buffer.length + 1 := by
  unfold pull
  cases asked body.reader with
  | more hn _ hle _ =>
    simp only [hn, weight]
    omega
  | @block r b hn _ hlt =>
    have hplace : weight (place { body with reader := r } b) ≤ 2 * body.reader.buffer.length := by
      unfold place
      split
      · exact Nat.zero_le _
      · simp only [weight]
        omega
    simp only [hn]
    split
    · exact Nat.le_succ_of_le hplace
    · split
      · exact Nat.zero_le _
      · exact Nat.le_succ_of_le hplace
  | fault hn _ _ =>
    simp only [hn, weight]
    omega

theorem close_ne_goes (body : Body) (phase : Phase) : close body ≠ .goes phase := by
  unfold close
  split
  · nofun
  · split <;> nofun

theorem weight_close (body : Body) : weight (close body) = 0 := by
  cases h : close body with
  | goes phase => exact absurd h (close_ne_goes body phase)
  | fails e => rfl
  | succeeds began size blocks => rfl

theorem left_step {c : Course} {phase : Phase} (hs : c.state = .goes phase) :
    left (env.step c) < left c := by
  obtain ⟨state, chunks, received, handed⟩ := c
  subst hs
  cases phase with
  | acquiring e => simp [step, input, Download.step, left, weight]
  | requesting e t => simp [step, input, Download.step, left, weight]
  | receiving body =>
    have hreceiving : weight (.goes (.receiving body)) = 2 * body.reader.buffer.length + 1 := rfl
    have hfails : ∀ e, weight (.fails e) = 0 := fun _ => rfl
    rcases chunks with _ | ⟨⟨wait, octets⟩, cs⟩
    · rcases he : env.ending with wait | ⟨wait, e⟩ | _
      · by_cases hwait : wait ≤ env.limit.total
        · simp [step, input, he, within, hwait, Download.step, left, hreceiving, weight_close body]
        · simp [step, input, he, within, hwait, Download.step, left, hreceiving, hfails]
      · by_cases hwait : wait ≤ env.limit.total
        · simp [step, input, he, within, hwait, Download.step, left, hreceiving, hfails]
        · simp [step, input, he, within, hwait, Download.step, left, hreceiving, hfails]
      · simp [step, input, he, Download.step, left, hreceiving, hfails]
    · by_cases hwait : wait ≤ env.limit.total
      · have hpull := fun now => weight_pull env.root now { body with reader := body.reader.push octets }
        simp only [Reader.push, List.length_append] at hpull
        simp only [step, input, within, hwait, if_true, Download.step, left, List.tail_cons,
          enter_state, enter_chunks, weight,
          List.map_cons, List.flatten_cons, List.length_cons, List.length_append, Reader.push]
        refine Nat.lt_of_le_of_lt (Nat.add_le_add_right (hpull _) _) ?_
        omega
      · simp [step, input, within, hwait, Download.step, left, hreceiving, hfails]
  | placing body b =>
    rcases hsink : env.sink handed with _ | e
    · have hpull := fun now => weight_pull env.root now body
      simp only [step, input, hsink, Download.step, left, weight]
      exact Nat.add_lt_add_right (Nat.lt_succ_of_le (hpull _)) _
    · simp [step, input, hsink, Download.step, left, weight]

theorem exists_end (env : Surroundings) (n : Nat) : ∃ m, ∀ phase, (env.run m).state ≠ .goes phase := by
  induction hk : left (env.run n) using Nat.strongRecOn generalizing n with
  | ind k ih =>
    subst hk
    rcases hs : (env.run n).state with phase | e | ⟨t, size, count⟩
    · exact ih _ (left_step hs) (n + 1) rfl
    · exact ⟨n, fun phase h => by rw [hs] at h; cases h⟩
    · exact ⟨n, fun phase h => by rw [hs] at h; cases h⟩

/-- One block of one octet, behind a header and cut in its length. -/
example :
    let cid : Cid := ⟨[1, 0x55, 0, 1, 7]⟩
    let chunks := [(0, [1, 0xa0, 6, 1]), (3, [0x55, 0, 1, 7, 7])]
    let c := run ⟨cid, "gateway", chunks, .complete 1, .ofSecs 20, fun _ => none, fun _ => 0⟩ 6
    c.state = .succeeds 0 1 1 ∧ c.handed = [{ cid, data := [7] }] :=
  ⟨rfl, rfl⟩

end Surroundings

end Courier.Download
