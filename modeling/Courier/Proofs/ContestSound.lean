import Mathlib.Data.List.Induction
import Courier.Context
import Courier.Contest
import Courier.Proofs.CourseLemmas
/-!
# Who wins a contest

A contest is open while nobody succeeded, the context is not over and somebody
has not returned. The turn that closes it decides the result, and whatever
comes after that changes nothing.
-/

namespace Courier.Orchestrator

/-! ## Turns and those who return in them -/

/-- Who returns in a turn. -/
def Turn.returner? : Turn → Option Protocol
  | .returns p _ => some p
  | _ => none

theorem mem_returners {p : Protocol} {ts : List Turn} :
    p ∈ ts.filterMap Turn.returner? ↔ ∃ result, .returns p result ∈ ts := by
  rw [List.mem_filterMap]
  constructor
  · rintro ⟨t, ht, hp⟩
    cases t with
    | returns q result =>
      obtain rfl := Option.some.inj hp
      exact ⟨result, ht⟩
    | found answer => cases hp
    | does q d => cases hp
    | ends e => cases hp
  · rintro ⟨result, h⟩
    exact ⟨_, h, rfl⟩

/-- The entrants who have not returned. -/
def left (entrants : List Protocol) (ts : List Turn) : List Protocol :=
  entrants.filter (· ∉ ts.filterMap Turn.returner?)

theorem left_append (entrants : List Protocol) (ts : List Turn) {t : Turn}
    (h : t.returner? = none) : left entrants (ts ++ [t]) = left entrants ts := by
  simp [left, h]

theorem left_returns (entrants : List Protocol) (ts : List Turn) (p : Protocol)
    (result : Except Error Stats) :
    left entrants (ts ++ [.returns p result]) = (left entrants ts).filter (· ≠ p) := by
  simp only [left, List.filterMap_append, List.filterMap_cons, Turn.returner?, List.filterMap_nil,
    List.filter_filter]
  refine List.filter_congr fun q _ => ?_
  rw [Bool.eq_iff_iff]
  simp [and_comm]

theorem mem_left {entrants : List Protocol} {ts : List Turn} {p : Protocol} :
    p ∈ left entrants ts ↔ p ∈ entrants ∧ ∀ result, .returns p result ∉ ts := by
  rw [left, List.mem_filter, decide_eq_true_eq, mem_returners, not_exists]

/-- Whoever has returned before, or does not enter, leaves nobody fewer. -/
theorem left_stranger {entrants : List Protocol} {ts : List Turn} {p : Protocol}
    (hp : p ∉ left entrants ts) (result : Except Error Stats) :
    left entrants (ts ++ [.returns p result]) = left entrants ts := by
  rw [left_returns]
  refine List.filter_eq_self.mpr fun q hq => ?_
  simpa using fun h : q = p => hp (h ▸ hq)

theorem exists_returned {entrants : List Protocol} {ts : List Turn} {p : Protocol}
    (hp : p ∈ entrants) (hl : p ∉ left entrants ts) : ∃ result, .returns p result ∈ ts := by
  by_contra h
  exact hl (mem_left.mpr ⟨hp, not_exists.mp h⟩)

/-- Nobody of the entrants succeeded, somebody has not returned, and the context is not over. -/
structure Open (entrants : List Protocol) (ts : List Turn) : Prop where
  live : ∀ e, .ends e ∉ ts
  failed : ∀ p ∈ entrants, ∀ stats, .returns p (.ok stats) ∉ ts
  pending : left entrants ts ≠ []

theorem Open.init {entrants : List Protocol} {ts more : List Turn}
    (h : Open entrants (ts ++ more)) : Open entrants ts where
  live e hm := h.live e (List.mem_append_left _ hm)
  failed p hp stats hm := h.failed p hp stats (List.mem_append_left _ hm)
  pending := by
    obtain ⟨p, hp⟩ := List.exists_mem_of_ne_nil _ h.pending
    obtain ⟨hp, hn⟩ := mem_left.mp hp
    exact List.ne_nil_of_mem
      (mem_left.mpr ⟨hp, fun result hm => hn result (List.mem_append_left _ hm)⟩)

namespace Contest

variable {registered : List Protocol} {r : Request} {c : Contest}

/-! ## One turn -/

theorem goTo_close (r : Request) (c : Contest) (result : Except Error Stats) :
    c.goTo r (close result) = { c with
      course := c.course.goTo r (close result)
      attempts := [] } := by
  simp only [goTo, close_eq]
  rfl

theorem goTo_stays (r : Request) (c : Contest) : c.goTo r (c.course.phase, []) = c := rfl

/-- The retrieval has its result and holds nobody. -/
structure Closed (result : Except Error Stats) (c : Contest) : Prop where
  phase : c.course.phase = .over result
  attempts : c.attempts = []

theorem closed_goTo (c : Contest) (result : Except Error Stats) :
    Closed result (c.goTo r (close result)) := by
  rw [goTo_close]
  exact ⟨by rw [Course.goTo_close], rfl⟩

theorem Closed.turn {result : Except Error Stats} (h : Closed result c) (t : Turn) :
    c.turn registered r t = c := by
  have hlearn (i : Input) : c.learn registered r i = c := by
    have hs : step c.session registered r c.course.phase i = (c.course.phase, []) := by
      rw [h.phase]
      rfl
    rw [learn, hs, goTo_stays]
  cases t with
  | found answer => exact hlearn _
  | does p d => simp [Contest.turn, h.attempts]
  | returns p answer => simp [Contest.turn, h.attempts]
  | ends e => exact hlearn _

/-- The retrieval waits for those it holds. -/
structure Racing (l : List Protocol) (c : Contest) : Prop where
  phase : c.course.phase = .racing (.running l)
  attempts : c.attempts = l

section
variable {l : List Protocol} {p : Protocol} {e : Error}

theorem perform_phase (c : Contest) (d : Deed) : (c.perform d).course.phase = c.course.phase := by
  cases d <;> rfl

theorem perform_attempts (c : Contest) (d : Deed) : (c.perform d).attempts = c.attempts := by
  cases d <;> rfl

theorem Racing.found (h : Racing l c) (answer : Except Error (List Candidate)) :
    c.turn registered r (.found answer) = c := by
  have hs : step c.session registered r c.course.phase (.found answer) = (c.course.phase, []) := by
    rw [h.phase]
    rfl
  rw [turn, learn, hs, goTo_stays]

theorem Racing.does (h : Racing l c) (p : Protocol) (d : Deed) :
    Racing l (c.turn registered r (.does p d)) := by
  rw [turn]
  split
  · exact ⟨(perform_phase c d).trans h.phase, (perform_attempts c d).trans h.attempts⟩
  · exact h

/-- A result of somebody who is not held does not count. -/
theorem Racing.stranger (h : Racing l c) (hp : p ∉ l) (result : Except Error Stats) :
    c.turn registered r (.returns p result) = c := by
  rw [turn, h.attempts, if_neg hp]

theorem Racing.returns (h : Racing l c) (hp : p ∈ l) (result : Except Error Stats) :
    c.turn registered r (.returns p result) =
      { c with attempts := l.filter (· ≠ p) }.learn registered r (.attempted p result) := by
  rw [turn, h.attempts, if_pos hp]

theorem Racing.fails (h : Racing l c) (hp : p ∈ l) (hl : l.filter (· ≠ p) ≠ []) :
    Racing (l.filter (· ≠ p)) (c.turn registered r (.returns p (.error e))) := by
  have hs : step c.session registered r c.course.phase (.attempted p (.error e)) =
      (.racing (.running (l.filter (· ≠ p))), []) := by
    rw [h.phase]
    simp only [step, Race.settle]
  rw [h.returns hp, learn, hs]
  exact ⟨rfl, rfl⟩

theorem Racing.lastFails (h : Racing l c) (hp : p ∈ l) (hl : l.filter (· ≠ p) = []) :
    Closed (.error e) (c.turn registered r (.returns p (.error e))) := by
  have hs : step c.session registered r c.course.phase (.attempted p (.error e)) =
      close (.error e) := by
    rw [h.phase]
    simp only [step, Race.settle, hl]
  rw [h.returns hp, learn, hs]
  exact closed_goTo _ _

theorem Racing.wins (h : Racing l c) (hp : p ∈ l) (stats : Stats) :
    Closed (.ok stats) (c.turn registered r (.returns p (.ok stats))) := by
  have hs : step c.session registered r c.course.phase (.attempted p (.ok stats)) =
      close (.ok stats) := by
    rw [h.phase]
    rfl
  rw [h.returns hp, learn, hs]
  exact closed_goTo _ _

theorem Racing.ends (h : Racing l c) (e : Error) :
    Closed (.error e) (c.turn registered r (.ends e)) := by
  have hs : step c.session registered r c.course.phase (.ended e) = close (.error e) := by
    rw [h.phase]
    rfl
  rw [turn, learn, hs]
  exact closed_goTo _ _

end

/-! ## Runs -/

theorem run_append (c : Contest) (ts more : List Turn) :
    c.run registered r (ts ++ more) = (c.run registered r ts).run registered r more :=
  List.foldl_append

theorem run_snoc (c : Contest) (ts : List Turn) (t : Turn) :
    c.run registered r (ts ++ [t]) = (c.run registered r ts).turn registered r t := by
  rw [run_append]
  rfl

theorem Closed.run {result : Except Error Stats} (h : Closed result c) (ts : List Turn) :
    c.run registered r ts = c := by
  induction ts with
  | nil => rfl
  | cons t ts ih =>
    unfold Contest.run at ih ⊢
    rw [List.foldl_cons, h.turn]
    exact ih

theorem Racing.run {entrants : List Protocol} (h : Racing entrants c)
    (registered : List Protocol) (r : Request) {ts : List Turn} (ho : Open entrants ts) :
    Racing (left entrants ts) (c.run registered r ts) := by
  induction ts using List.reverseRecOn with
  | nil =>
    rw [left, List.filter_eq_self.mpr (by simp)]
    exact h
  | append_singleton ts t ih =>
    have ih := ih ho.init
    rw [run_snoc]
    cases t with
    | found answer => rwa [ih.found, left_append entrants ts rfl]
    | does p d =>
      rw [left_append entrants ts rfl]
      exact ih.does p d
    | ends e => exact absurd (by simp) (ho.live e)
    | returns p result =>
      by_cases hp : p ∈ left entrants ts
      · cases result with
        | ok stats => exact absurd (by simp) (ho.failed p (mem_left.mp hp).1 stats)
        | error e =>
          have hpending := ho.pending
          rw [left_returns] at hpending ⊢
          exact ih.fails hp hpending
      · rwa [ih.stranger hp, left_stranger hp]

/-! ## The turn that closes a contest -/

/-- How a contest is closed by a turn. -/
inductive Closing (entrants : List Protocol) (before : List Turn) :
    Turn → Except Error Stats → Prop where
  | ends (e : Error) : Closing entrants before (.ends e) (.error e)
  | wins {p : Protocol} (stats : Stats) : p ∈ entrants →
      Closing entrants before (.returns p (.ok stats)) (.ok stats)
  | lastFails {p : Protocol} {e : Error} : p ∈ entrants →
      left entrants (before ++ [.returns p (.error e)]) = [] →
      Closing entrants before (.returns p (.error e)) (.error e)

theorem Racing.closing {entrants : List Protocol} (h : Racing entrants c)
    (registered : List Protocol) (r : Request) {ts : List Turn} {t : Turn} (ho : Open entrants ts)
    (hn : ¬ Open entrants (ts ++ [t]))
    (once : ∀ p result result', .returns p result ∈ ts ++ [t] → .returns p result' ∈ ts ++ [t] →
      result = result') :
    ∃ result, Closing entrants ts t result ∧ Closed result (c.run registered r (ts ++ [t])) := by
  have hc := h.run registered r ho
  -- a turn that ends nothing, wins nothing and leaves somebody pending would keep it open
  have hopen (hlive : ∀ e, t ≠ .ends e)
      (hfail : ∀ p ∈ entrants, ∀ stats, t ≠ .returns p (.ok stats)) :
      left entrants (ts ++ [t]) = [] := by
    by_contra hne
    refine hn ⟨fun e hm => ?_, fun p hp stats hm => ?_, hne⟩
    · rcases List.mem_append.mp hm with hm | hm
      · exact ho.live e hm
      · exact hlive e (List.mem_singleton.mp hm).symm
    · rcases List.mem_append.mp hm with hm | hm
      · exact ho.failed p hp stats hm
      · exact hfail p hp stats (List.mem_singleton.mp hm).symm
  rw [run_snoc]
  cases t with
  | found answer =>
    rw [left_append entrants ts rfl] at hopen
    exact absurd (hopen nofun nofun) ho.pending
  | does p d =>
    rw [left_append entrants ts rfl] at hopen
    exact absurd (hopen nofun nofun) ho.pending
  | ends e => exact ⟨_, .ends e, hc.ends e⟩
  | returns p result =>
    by_cases hp : p ∈ left entrants ts
    · have hmem := (mem_left.mp hp).1
      cases result with
      | ok stats => exact ⟨_, .wins stats hmem, hc.wins hp stats⟩
      | error e =>
        have hnil := hopen nofun nofun
        refine ⟨_, .lastFails hmem hnil, hc.lastFails hp ?_⟩
        rwa [left_returns] at hnil
    · -- somebody unknown, or somebody who has failed before and returns the same again
      rw [left_stranger hp] at hopen
      refine absurd (hopen nofun fun q hq stats he => ?_) ho.pending
      obtain ⟨rfl, rfl⟩ : p = q ∧ result = .ok stats := by simpa using he
      obtain ⟨result', hret⟩ := exists_returned hq hp
      obtain rfl := once p result' (.ok stats) (List.mem_append_left _ hret) (by simp)
      exact ho.failed p hq stats hret

theorem open_or_closing {entrants : List Protocol} (he : entrants ≠ [])
    (ts : List (Instant × Turn)) : Open entrants (ts.map (·.2)) ∨
      ∃ before x after, ts = before ++ x :: after ∧ Open entrants (before.map (·.2)) ∧
        ¬ Open entrants (before.map (·.2) ++ [x.2]) := by
  induction ts using List.reverseRecOn with
  | nil =>
    refine .inl ⟨nofun, nofun, ?_⟩
    rwa [List.map_nil, left, List.filter_eq_self.mpr (by simp)]
  | append_singleton ts x ih =>
    rcases ih with ho | ⟨before, y, after, rfl, ho, hn⟩
    · by_cases hx : Open entrants ((ts ++ [x]).map (·.2))
      · exact .inl hx
      · exact .inr ⟨ts, x, [], rfl, ho, by simpa using hx⟩
    · exact .inr ⟨before, y, after ++ [x], by simp, ho, hn⟩

/-! ## Turns and their instants -/

theorem mem_turns {ts : List (Instant × Turn)} {turn : Turn} :
    turn ∈ ts.map (·.2) ↔ ∃ t, (t, turn) ∈ ts := by
  simp

theorem mem_left_turns {entrants : List Protocol} {ts : List (Instant × Turn)} {p : Protocol} :
    p ∈ left entrants (ts.map (·.2)) ↔
      p ∈ entrants ∧ ∀ t result, (t, .returns p result) ∉ ts := by
  rw [mem_left]
  refine and_congr_right fun _ => ?_
  simp only [mem_turns, not_exists]
  exact forall_comm

theorem open_iff {entrants : List Protocol} {ts : List (Instant × Turn)} :
    Open entrants (ts.map (·.2)) ↔ (∀ t e, (t, .ends e) ∉ ts) ∧
      (∀ p ∈ entrants, ∀ t stats, (t, .returns p (.ok stats)) ∉ ts) ∧
      ∃ p ∈ entrants, ∀ t result, (t, .returns p result) ∉ ts := by
  constructor
  · intro ho
    obtain ⟨p, hp⟩ := List.exists_mem_of_ne_nil _ ho.pending
    exact ⟨fun t e hm => ho.live e (mem_turns.mpr ⟨t, hm⟩),
      fun p hp t stats hm => ho.failed p hp stats (mem_turns.mpr ⟨t, hm⟩), p, mem_left_turns.mp hp⟩
  · rintro ⟨hlive, hfail, p, hp⟩
    refine ⟨fun e hm => ?_, fun q hq stats hm => ?_, List.ne_nil_of_mem (mem_left_turns.mpr hp)⟩
    · obtain ⟨t, hm⟩ := mem_turns.mp hm
      exact hlive t e hm
    · obtain ⟨t, hm⟩ := mem_turns.mp hm
      exact hfail q hq t stats hm

/-! ## Timetables -/

/-- When attempts return and when the context is over. No two attempts return at the same instant,
and none when the context is over, but for those that react to it. -/
structure Timetable (ts : List (Instant × Turn)) : Prop where
  ordered : ts.Pairwise (·.1 ≤ ·.1)
  once : ∀ p t t' result result', (t, .returns p result) ∈ ts → (t', .returns p result') ∈ ts →
    t = t' ∧ result = result'
  apart : ∀ p q t result result', (t, .returns p result) ∈ ts → (t, .returns q result') ∈ ts →
    p = q ∨ ∃ e, (t, .ends e) ∈ ts
  ends : ∀ t t' e e', (t, .ends e) ∈ ts → (t', .ends e') ∈ ts → t = t' ∧ e = e'
  reacts : ∀ p t e result, (t, .ends e) ∈ ts → (t, .returns p result) ∈ ts → result = .error e

/-- The context is not over at an instant. -/
def LiveAt (ts : List (Instant × Turn)) (t : Instant) : Prop := ∀ T e, (T, .ends e) ∈ ts → t < T

/-- A turn that closes a contest, and when. -/
structure Decision (entrants : List Protocol) (ts : List (Instant × Turn)) (t : Instant)
    (turn : Turn) (result : Except Error Stats) : Prop where
  mem : (t, turn) ∈ ts
  ends_le : ∀ T e, (T, .ends e) ∈ ts → t ≤ T
  success_le : ∀ p ∈ entrants, ∀ t' stats, (t', .returns p (.ok stats)) ∈ ts → t ≤ t'
  pending : ∃ p ∈ entrants, ∀ t' result, (t', .returns p result) ∈ ts → t ≤ t'
  how : (∃ e, turn = .ends e ∧ result = .error e) ∨
    (∃ p ∈ entrants, ∃ stats, turn = .returns p (.ok stats) ∧ result = .ok stats) ∨
    ∃ p ∈ entrants, ∃ e, turn = .returns p (.error e) ∧ result = .error e ∧
      ∀ q ∈ entrants, ∃ t' result', t' ≤ t ∧ (t', .returns q result') ∈ ts

/-- What does not happen before a turn does not come earlier. -/
theorem le_of_not_before {before after : List (Instant × Turn)} {t t' : Instant} {turn turn' : Turn}
    (h : (before ++ (t, turn) :: after).Pairwise (·.1 ≤ ·.1))
    (hm : (t', turn') ∈ before ++ (t, turn) :: after) (hb : turn' ∉ before.map (·.2)) :
    t ≤ t' := by
  rcases List.mem_append.mp hm with hm | hm
  · exact absurd (mem_turns.mpr ⟨t', hm⟩) hb
  · rcases List.mem_cons.mp hm with hm | hm
    · exact Nat.le_of_eq (congrArg Prod.fst hm).symm
    · exact List.rel_of_pairwise_cons (List.pairwise_append.mp h).2.1 hm

theorem Timetable.decision {entrants : List Protocol} {ts : List (Instant × Turn)}
    (h : Timetable ts) (registered : List Protocol) (r : Request) (he : entrants ≠ [])
    (hc : Racing entrants c) (hn : ¬ Open entrants (ts.map (·.2))) : ∃ t turn result,
      Decision entrants ts t turn result ∧ Closed result (c.run registered r (ts.map (·.2))) := by
  obtain ho | ⟨before, ⟨t, turn⟩, after, rfl, ho, hx⟩ := open_or_closing he ts
  · exact absurd ho hn
  have hsub {x : Instant × Turn} (hm : x ∈ before ++ [(t, turn)]) :
      x ∈ before ++ (t, turn) :: after := by
    rw [List.append_cons]
    exact List.mem_append_left _ hm
  obtain ⟨result, hclosing, hclosed⟩ := hc.closing registered r ho hx
    fun p result result' hm hm' => by
      rw [← List.map_singleton, ← List.map_append] at hm hm'
      obtain ⟨t₁, hm⟩ := mem_turns.mp hm
      obtain ⟨t₂, hm'⟩ := mem_turns.mp hm'
      exact (h.once p t₁ t₂ result result' (hsub hm) (hsub hm')).2
  have hlater {t' : Instant} {turn' : Turn} (hm : (t', turn') ∈ before ++ (t, turn) :: after)
      (hb : turn' ∉ before.map (·.2)) : t ≤ t' := le_of_not_before h.ordered hm hb
  refine ⟨t, turn, result, ⟨by simp, fun T e hm => hlater hm (ho.live e),
    fun p hp t' stats hm => hlater hm (ho.failed p hp stats), ?_, ?_⟩, ?_⟩
  · obtain ⟨p, hp⟩ := List.exists_mem_of_ne_nil _ ho.pending
    obtain ⟨hp, hl⟩ := mem_left.mp hp
    exact ⟨p, hp, fun t' result hm => hlater hm (hl result)⟩
  · cases hclosing with
    | ends e => exact .inl ⟨e, rfl, rfl⟩
    | wins stats hp => exact .inr (.inl ⟨_, hp, stats, rfl, rfl⟩)
    | @lastFails p e hp hnil =>
      refine .inr (.inr ⟨p, hp, e, rfl, rfl, fun q hq => ?_⟩)
      obtain ⟨result', hret⟩ := exists_returned hq (hnil ▸ List.not_mem_nil)
      rcases List.mem_append.mp hret with hm | hm
      · obtain ⟨t', hm⟩ := mem_turns.mp hm
        have hle := (List.pairwise_append.mp h.ordered).2.2 _ hm _ List.mem_cons_self
        exact ⟨t', result', hle, List.mem_append_left _ hm⟩
      · refine ⟨t, result', Nat.le_refl t, ?_⟩
        rw [List.mem_singleton.mp hm]
        simp
  · rw [List.append_cons, List.map_append, run_append, List.map_append, List.map_singleton,
      hclosed.run]
    exact hclosed

/-! ## From the start -/

/-- The protocols that retrieve from what was found. -/
def entrants (registered : List Protocol) (r : Request) (session : Session)
    (found : List Candidate) : List Protocol :=
  (shares registered r (eligible session registered r found)).map (·.1)

/-- A retrieval whose finder has answered. -/
def opened (registered : List Protocol) (r : Request) (session : Session) (sink : Store)
    (found : List Candidate) : Contest :=
  (begin { started := true } r none session sink).turn registered r (.found (.ok found))

theorem foldl_hold_attempts (l : List Protocol) (parts : List (Protocol × List Candidate)) :
    (parts.map fun e => Effect.attempt e.1 e.2).foldl hold l = l ++ parts.map (·.1) := by
  induction parts generalizing l with
  | nil => simp
  | cons e parts ih =>
    rw [List.map_cons, List.foldl_cons, ih]
    simp [hold]

theorem racing_opened {session : Session} {found : List Candidate} (sink : Store)
    (h : entrants registered r session found ≠ []) :
    Racing (entrants registered r session found) (opened registered r session sink found) := by
  have hs : shares registered r (eligible session registered r found) ≠ [] := by
    intro hs
    simp [entrants, hs] at h
  have ho : opened registered r session sink found =
      (begin { started := true } r none session sink).goTo r
        (dispatch session registered r found) := rfl
  rw [ho]
  constructor
  · simp only [goTo]
    rw [Course.goTo_dispatch _ hs]
    rfl
  · simp only [goTo]
    rw [(dispatch_eq session registered r found).2 hs, List.foldl_append, foldl_hold_attempts]
    rfl

/-! ## The result -/

section
variable {entrants : List Protocol} {ts : List (Instant × Turn)}

/-- A contest has no result exactly as long as it is open. -/
theorem Timetable.undecided_iff (h : Timetable ts) (registered : List Protocol) (r : Request)
    (he : entrants ≠ []) (hc : Racing entrants c) :
    (∀ result, (c.run registered r (ts.map (·.2))).course.phase ≠ .over result) ↔
      Open entrants (ts.map (·.2)) := by
  constructor
  · intro hr
    by_contra ho
    obtain ⟨-, -, result, -, hclosed⟩ := h.decision registered r he hc ho
    exact hr result hclosed.phase
  · intro ho result hr
    have hracing := (hc.run registered r ho).phase
    rw [hr] at hracing
    cases hracing

theorem Timetable.decided (h : Timetable ts) (registered : List Protocol) (r : Request)
    (he : entrants ≠ []) (hc : Racing entrants c) {result : Except Error Stats}
    (hr : (c.run registered r (ts.map (·.2))).course.phase = .over result) :
    ∃ t turn, Decision entrants ts t turn result ∧
      Closed result (c.run registered r (ts.map (·.2))) := by
  have hn : ¬ Open entrants (ts.map (·.2)) := fun ho =>
    (h.undecided_iff registered r he hc).mpr ho result hr
  obtain ⟨t, turn, result', d, hclosed⟩ := h.decision registered r he hc hn
  obtain rfl : result' = result := by simpa using hclosed.phase.symm.trans hr
  exact ⟨t, turn, d, hclosed⟩

/-- Whoever decides by a success does so before the context is over. -/
theorem Decision.success {t : Instant} {turn : Turn} {stats : Stats}
    (d : Decision entrants ts t turn (.ok stats)) (h : Timetable ts) :
    ∃ p ∈ entrants, (t, .returns p (.ok stats)) ∈ ts ∧ LiveAt ts t := by
  rcases d.how with ⟨e, -, hr⟩ | ⟨p, hp, stats, rfl, hr⟩ | ⟨p, hp, e, -, hr, -⟩
  · cases hr
  · cases hr
    refine ⟨p, hp, d.mem, fun T e hm => ?_⟩
    rcases Nat.lt_or_eq_of_le (d.ends_le T e hm) with hlt | rfl
    · exact hlt
    · cases h.reacts p t e _ hm d.mem
  · cases hr

/-- A success while the context is live leaves only a success as the turn that decides, and the
earliest success is that one. -/
theorem Timetable.success (h : Timetable ts) (registered : List Protocol) (r : Request)
    (he : entrants ≠ []) (hc : Racing entrants c)
    {p : Protocol} (hp : p ∈ entrants) {t : Instant} {stats : Stats}
    (hm : (t, .returns p (.ok stats)) ∈ ts) (hlive : LiveAt ts t) :
    ∃ q ∈ entrants, ∃ t' ≤ t, ∃ stats', (t', .returns q (.ok stats')) ∈ ts ∧
      (t' = t → stats' = stats) ∧ Closed (.ok stats') (c.run registered r (ts.map (·.2))) := by
  have hn : ¬ Open entrants (ts.map (·.2)) := fun ho => (open_iff.mp ho).2.1 p hp t stats hm
  obtain ⟨t', turn, result, d, hclosed⟩ := h.decision registered r he hc hn
  have hle : t' ≤ t := d.success_le p hp t stats hm
  -- whoever returns at the instant of the success is the one who succeeds
  have hsame {q : Protocol} {result : Except Error Stats} (ht : t' = t)
      (hq : (t', .returns q result) ∈ ts) : result = .ok stats := by
    subst ht
    rcases h.apart q p t' result (.ok stats) hq hm with rfl | ⟨e, hend⟩
    · exact (h.once q t' t' result (.ok stats) hq hm).2
    · exact absurd (hlive t' e hend) (Nat.lt_irrefl t')
  rcases d.how with ⟨e, rfl, rfl⟩ | ⟨q, hq, stats', rfl, rfl⟩ | ⟨q, hq, e, rfl, rfl, hall⟩
  · exact absurd (hlive t' e d.mem) (Nat.not_lt.mpr hle)
  · exact ⟨q, hq, t', hle, stats', d.mem, fun ht => Except.ok.inj (hsame ht d.mem), hclosed⟩
  · obtain ⟨t₁, result, ht₁, hret⟩ := hall p hp
    obtain ⟨rfl, rfl⟩ := h.once p t₁ t result (.ok stats) hret hm
    cases hsame (Nat.le_antisymm hle ht₁) d.mem

theorem Timetable.failure (h : Timetable ts) (registered : List Protocol) (r : Request)
    (he : entrants ≠ []) (hc : Racing entrants c)
    {p : Protocol} (hp : p ∈ entrants) {t : Instant} {e : Error}
    (hm : (t, .returns p (.error e)) ∈ ts)
    (hall : ∀ q ∈ entrants, ∃ t' ≤ t, ∃ e', (t', .returns q (.error e')) ∈ ts ∧ LiveAt ts t') :
    Closed (.error e) (c.run registered r (ts.map (·.2))) := by
  have hn : ¬ Open entrants (ts.map (·.2)) := by
    intro ho
    obtain ⟨-, -, q, hq, hl⟩ := open_iff.mp ho
    obtain ⟨t', -, e', hret, -⟩ := hall q hq
    exact hl t' _ hret
  obtain ⟨t', turn, result, d, hclosed⟩ := h.decision registered r he hc hn
  rcases d.how with ⟨e', rfl, rfl⟩ | ⟨q, hq, stats, rfl, rfl⟩ | ⟨q, hq, e', rfl, rfl, hret⟩
  · obtain ⟨q, hq, hpending⟩ := d.pending
    obtain ⟨t₁, -, e₁, hret, hlive⟩ := hall q hq
    exact absurd (hlive t' e' d.mem) (Nat.not_lt.mpr (hpending t₁ _ hret))
  · obtain ⟨t₁, -, e₁, hret, -⟩ := hall q hq
    cases (h.once q t' t₁ _ _ d.mem hret).2
  · -- both were the last to return
    obtain ⟨t₁, result, ht₁, hp'⟩ := hret p hp
    obtain ⟨rfl, rfl⟩ := h.once p t₁ t _ _ hp' hm
    obtain ⟨t₂, ht₂, e₂, hq', hlive⟩ := hall q hq
    obtain ⟨rfl, -⟩ := h.once q t₂ t' _ _ hq' d.mem
    obtain rfl := Nat.le_antisymm ht₁ ht₂
    rcases h.apart p q t₁ _ _ hm d.mem with rfl | ⟨e₃, hend⟩
    · cases (h.once p t₁ t₁ _ _ hm d.mem).2
      exact hclosed
    · exact absurd (hlive t₁ e₃ hend) (Nat.lt_irrefl t₁)

theorem Timetable.ended (h : Timetable ts) (registered : List Protocol) (r : Request)
    (he : entrants ≠ []) (hc : Racing entrants c)
    {T : Instant} {e : Error} (hm : (T, .ends e) ∈ ts)
    (hsucc : ∀ p ∈ entrants, ∀ t stats, (t, .returns p (.ok stats)) ∈ ts → T ≤ t)
    (hpend : ∃ p ∈ entrants, ∀ t result, (t, .returns p result) ∈ ts → T ≤ t) :
    Closed (.error e) (c.run registered r (ts.map (·.2))) := by
  have hn : ¬ Open entrants (ts.map (·.2)) := fun ho => (open_iff.mp ho).1 T e hm
  obtain ⟨t, turn, result, d, hclosed⟩ := h.decision registered r he hc hn
  have hle : t ≤ T := d.ends_le T e hm
  rcases d.how with ⟨e', rfl, rfl⟩ | ⟨q, hq, stats, rfl, rfl⟩ | ⟨q, hq, e', rfl, rfl, hret⟩
  · obtain ⟨-, rfl⟩ := h.ends t T e' e d.mem hm
    exact hclosed
  · obtain rfl := Nat.le_antisymm hle (hsucc q hq t stats d.mem)
    cases h.reacts q t e _ hm d.mem
  · obtain ⟨p, hp, hpend⟩ := hpend
    obtain ⟨t₁, result, ht₁, hp'⟩ := hret p hp
    obtain rfl := Nat.le_antisymm hle (Nat.le_trans (hpend t₁ result hp') ht₁)
    cases h.reacts q t e _ hm d.mem
    exact hclosed

end

/-- A retrieval ends with the first success, with the last failure or with its context, whichever
comes first. Until then all who have not returned go on, and then nobody does. -/
theorem first_success_or_last_failure (registered : List Protocol) (r : Request)
    (session : Session) (sink : Store) (found : List Candidate) (ts : List (Instant × Turn))
    (he : entrants registered r session found ≠ []) (h : Timetable ts) :
    let l := entrants registered r session found
    let c := (opened registered r session sink found).run registered r (ts.map (·.2))
    -- a success before the end of the context, and no other way to succeed
    ((∃ stats, c.course.phase = .over (.ok stats)) ↔
      ∃ p ∈ l, ∃ t stats, (t, .returns p (.ok stats)) ∈ ts ∧ LiveAt ts t) ∧
    (∀ p ∈ l, ∀ t stats, (t, .returns p (.ok stats)) ∈ ts → LiveAt ts t →
      (∀ q ∈ l, ∀ t' stats', (t', .returns q (.ok stats')) ∈ ts → t ≤ t') →
      c.course.phase = .over (.ok stats)) ∧
    -- all have failed, one last
    (∀ p ∈ l, ∀ t e, (t, .returns p (.error e)) ∈ ts →
      (∀ q ∈ l, ∃ t' ≤ t, ∃ e', (t', .returns q (.error e')) ∈ ts ∧ LiveAt ts t') →
      c.course.phase = .over (.error e)) ∧
    -- the context is over before either, or before anybody was called
    (∀ T e, (T, .ends e) ∈ ts →
      (∀ p ∈ l, ∀ t stats, (t, .returns p (.ok stats)) ∈ ts → T ≤ t) →
      (∃ p ∈ l, ∀ t result, (t, .returns p result) ∈ ts → T ≤ t) →
      c.course.phase = .over (.error e)) ∧
    (∀ e, Closed (.error e) (begin { started := true } r (some e) session sink) ∧
      Closed (.error e)
        ((begin { started := true } r none session sink).turn registered r (.ends e))) ∧
    -- somebody is pending, and may do what it does
    ((∀ t e, (t, .ends e) ∉ ts) → (∀ p ∈ l, ∀ t stats, (t, .returns p (.ok stats)) ∉ ts) →
      (∃ p ∈ l, ∀ t result, (t, .returns p result) ∉ ts) →
      ∀ result, c.course.phase ≠ .over result) ∧
    ((∀ result, c.course.phase ≠ .over result) →
      ∀ p ∈ l, (∀ t result, (t, .returns p result) ∉ ts) →
      ∀ d, c.turn registered r (.does p d) = c.perform d) ∧
    -- decided
    ∀ result, c.course.phase = .over result → ∀ more, c.run registered r more = c := by
  intro l c
  have hc := racing_opened sink he
  refine ⟨⟨?_, ?_⟩, ?_, ?_, ?_, ?_, ?_, ?_, ?_⟩
  · rintro ⟨stats, hr⟩
    obtain ⟨t, turn, d, -⟩ := h.decided registered r he hc hr
    obtain ⟨p, hp, hm, hlive⟩ := d.success h
    exact ⟨p, hp, t, stats, hm, hlive⟩
  · rintro ⟨p, hp, t, stats, hm, hlive⟩
    obtain ⟨-, -, -, -, stats', -, -, hclosed⟩ := h.success registered r he hc hp hm hlive
    exact ⟨stats', hclosed.phase⟩
  · intro p hp t stats hm hlive hfirst
    obtain ⟨q, hq, t', hle, stats', hm', hsame, hclosed⟩ :=
      h.success registered r he hc hp hm hlive
    obtain rfl := hsame (Nat.le_antisymm hle (hfirst q hq t' stats' hm'))
    exact hclosed.phase
  · intro p hp t e hm hall
    exact (h.failure registered r he hc hp hm hall).phase
  · intro T e hm hsucc hpend
    exact (h.ended registered r he hc hm hsucc hpend).phase
  · exact fun e => ⟨⟨rfl, rfl⟩, closed_goTo _ _⟩
  · intro hlive hfail hpend
    exact (h.undecided_iff registered r he hc).mpr (open_iff.mpr ⟨hlive, hfail, hpend⟩)
  · intro hr p hp hn d
    have ho := (h.undecided_iff registered r he hc).mp hr
    rw [turn, (hc.run registered r ho).attempts, if_pos (mem_left_turns.mpr ⟨hp, hn⟩)]
  · intro result hr more
    obtain ⟨-, -, -, hclosed⟩ := h.decided registered r he hc hr
    exact hclosed.run more

/-- One attempt fails and the other succeeds; what would have come after that does not happen. -/
theorem second_wins :
    let r : Request := { id := ⟨1⟩, root := ⟨[1]⟩ }
    let found : Candidate := { root := ⟨[1]⟩, provider := ⟨[7]⟩, protocols := [.bitswap, .http] }
    let stats : Stats := ⟨⟨[1]⟩, none, .http, 1, 1, Duration.zero⟩
    let late : Turn := .does .bitswap (.writes { cid := ⟨[2]⟩, data := [] })
    let ts : List (Instant × Turn) := [(2, .does .http (.writes { cid := ⟨[1]⟩, data := [0] })),
      (3, .returns .bitswap (.error .cancelled)), (5, .returns .http (.ok stats)),
      (9, .ends .deadlineExceeded)]
    let c := (opened [.bitswap, .http] r {} {} [found]).run [.bitswap, .http] r (ts.map (·.2))
    c.course.phase = .over (.ok stats) ∧ c.run [.bitswap, .http] r [late] = c := by
  intro r found stats late ts c
  have hl : shares [.bitswap, .http] r (eligible {} [.bitswap, .http] r [found]) =
      [(.bitswap, [found]), (.http, [found])] := by
    have : eligible {} [.bitswap, .http] r [found] = [found] := List.mergeSort_singleton found
    rw [this]
    decide
  have he : entrants [.bitswap, .http] r {} [found] = [.bitswap, .http] := by
    rw [entrants, hl]
    rfl
  have ht : Timetable ts := by
    refine ⟨by decide, ?_, ?_, ?_, ?_⟩ <;> simp [ts] <;> grind
  obtain ⟨-, hfirst, -, -, -, -, -, hover⟩ :=
    first_success_or_last_failure [.bitswap, .http] r {} {} [found] ts (by simp [he]) ht
  have hstats : c.course.phase = .over (.ok stats) := by
    refine hfirst .http (by simp [he]) 5 stats (by simp [ts]) ?_ ?_ <;> simp [ts, LiveAt]
    grind
  exact ⟨hstats, hover _ hstats [late]⟩

end Contest

end Courier.Orchestrator
