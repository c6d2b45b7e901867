import Courier.Course

/-!
# Steps of a retrieval

A retrieval takes what it learns in one of a few ways (`Takes`). What a course
goes through is the effects of the steps, one after the other.
-/

namespace Courier.Orchestrator

/-- What a retrieval tells of its result. -/
def verdict : Except Error Stats → Happening
  | .ok stats => .success stats
  | .error e => .failed e

theorem close_eq (result : Except Error Stats) :
    close result = (.over result, [.abandon, .tell (verdict result), .tell .finished]) := by
  cases result <;> rfl

/-- Whether a retrieval is in a phase it can really get to. -/
def Phase.Proper (phase : Phase) : Prop := ∀ result, phase ≠ .racing (.over result)

/-- How a retrieval takes what it learns. -/
inductive Takes (s : Session) (registered : List Protocol) (r : Request) :
    Phase → Input → Phase × List Effect → Prop
  | stays {phase : Phase} {i : Input} : Takes s registered r phase i (phase, [])
  | ends {phase : Phase} {e : Error} : (∀ result, phase ≠ .over result) →
      Takes s registered r phase (.ended e) (close (.error e))
  | misses {e : Error} : Takes s registered r .finding (.found (.error e)) (close (.error e))
  | dispatches {l : List Candidate} :
      Takes s registered r .finding (.found (.ok l)) (dispatch s registered r l)
  | decides {l : List Protocol} {p : Protocol} {result : Except Error Stats} :
      Takes s registered r (.racing (.running l)) (.attempted p result) (close result)
  | drops {l l' : List Protocol} {p : Protocol} {e : Error} :
      Takes s registered r (.racing (.running l)) (.attempted p (.error e))
        (.racing (.running l'), [])

variable {s : Session} {registered : List Protocol} {r : Request} {phase : Phase}

theorem step_takes (s : Session) (registered : List Protocol) (r : Request) (h : phase.Proper)
    (i : Input) :
    Takes s registered r phase i (step s registered r phase i) := by
  rcases phase with _ | (l | result) | result
  · -- finding
    cases i with
    | found answer =>
      cases answer with
      | error e => exact .misses
      | ok l => exact .dispatches
    | attempted p result => exact .stays
    | ended e => exact .ends nofun
  · -- racing
    cases i with
    | found answer => exact .stays
    | ended e => exact .ends nofun
    | attempted p result =>
      cases result with
      | ok stats => exact .decides
      | error e =>
        simp only [step, Race.settle]
        cases l.filter (· ≠ p) with
        | nil => exact .decides
        | cons q left => exact .drops
  · exact absurd rfl (h result)
  · exact .stays

/-! ## What is told and who is called -/

def events (r : Request) (es : List Effect) : List Event :=
  es.filterMap fun | .tell what => some (r.event what) | _ => none

def calls (es : List Effect) : List (Protocol × List Candidate) :=
  es.filterMap fun | .attempt p l => some (p, l) | _ => none

def queries (es : List Effect) : Nat := es.countP fun | .find => true | _ => false

namespace Course

variable {c : Course}

theorem goTo_eq (r : Request) (c : Course) (next : Phase × List Effect) :
    c.goTo r next = {
      phase := next.1
      told := c.told ++ events r next.2
      called := c.called ++ calls next.2
      queries := c.queries + Orchestrator.queries next.2 } := by
  obtain ⟨phase, es⟩ := next
  unfold goTo
  induction es generalizing c with
  | nil => simp [events, calls, Orchestrator.queries]
  | cons e es ih =>
    have ih := ih { c.carry r e with phase := phase }
    cases e with
    | tell what => simpa [carry, events, calls, Orchestrator.queries] using ih
    | find =>
      simpa [carry, events, calls, Orchestrator.queries, Nat.add_assoc, Nat.add_comm] using ih
    | attempt p l => simpa [carry, events, calls, Orchestrator.queries] using ih
    | abandon => simpa [carry, events, calls, Orchestrator.queries] using ih

theorem goTo_close (r : Request) (c : Course) (result : Except Error Stats) :
    c.goTo r (close result) = { c with
      phase := .over result
      told := c.told ++ [r.event (verdict result), r.event .finished] } := by
  rw [goTo_eq, close_eq]
  simp [events, calls, Orchestrator.queries]

theorem goTo_nil (r : Request) (c : Course) (phase : Phase) :
    c.goTo r (phase, []) = { c with phase } := rfl

/-- A retrieval that is over stays as it is. -/
theorem run_over (registered : List Protocol) (r : Request) {result : Except Error Stats}
    (h : c.phase = .over result) (ms : List Move) : c.run registered r ms = c := by
  induction ms with
  | nil => rfl
  | cons m ms ih =>
    have hm : c.move registered r m = c := by
      cases m with
      | learns s i => simp only [move, h, step, goTo_nil]; rw [← h]
      | emits p e => simp [move, h, Phase.runs]
    unfold run at ih ⊢
    rw [List.foldl_cons, hm]
    exact ih

end Course

/-! ## Dispatching -/

theorem mem_shares {l l' : List Candidate} {p : Protocol} : (p, l') ∈ shares registered r l ↔
    p ∈ registered ∧ r.allows p = true ∧ l' = l.filter (·.supports p) ∧ l' ≠ [] := by
  simp only [shares, List.mem_filter, List.mem_map, Prod.mk.injEq, decide_eq_true_eq]
  constructor
  · rintro ⟨⟨q, ⟨hq, ha⟩, rfl, rfl⟩, hne⟩
    exact ⟨hq, ha, rfl, hne⟩
  · rintro ⟨hp, ha, rfl, hne⟩
    exact ⟨⟨p, ⟨hp, ha⟩, rfl, rfl⟩, hne⟩

theorem shares_protocols (registered : List Protocol) (r : Request) (l : List Candidate) :
    ((shares registered r l).map (·.1)).Sublist registered := by
  have hf : ((registered.filter r.allows).map fun p => (p, l.filter (·.supports p))).map (·.1) =
      registered.filter r.allows := by
    rw [List.map_map]
    exact List.map_id _
  unfold shares
  refine (List.filter_sublist.map _).trans ?_
  rw [hf]
  exact List.filter_sublist

/-- Either nobody is called and it is over, or the called are those who race. -/
theorem dispatch_eq (s : Session) (registered : List Protocol) (r : Request)
    (found : List Candidate) :
    let l := eligible s registered r found
    (shares registered r l = [] → dispatch s registered r found =
      (.over (.error (.noCandidates r.root)), [.tell (.candidatesFound found),
        .tell (.candidatesFiltered l), .abandon, .tell (.failed (.noCandidates r.root)),
        .tell .finished])) ∧
    (shares registered r l ≠ [] → dispatch s registered r found =
      (.racing (.running ((shares registered r l).map (·.1))), [.tell (.candidatesFound found),
        .tell (.candidatesFiltered l)] ++
          (shares registered r l).map fun e => .attempt e.1 e.2)) := by
  intro l
  constructor
  · intro h
    simp only [dispatch, show shares registered r (eligible s registered r found) = [] from h]
    rfl
  · intro h
    unfold dispatch
    dsimp only
    split
    · next h' => exact absurd h' h
    · rfl

namespace Course

theorem goTo_dispatch_nobody (c : Course) {s : Session} {found : List Candidate}
    (h : shares registered r (eligible s registered r found) = []) :
    c.goTo r (dispatch s registered r found) = { c with
      phase := .over (.error (.noCandidates r.root))
      told := c.told ++ [r.event (.candidatesFound found),
        r.event (.candidatesFiltered (eligible s registered r found)),
        r.event (.failed (.noCandidates r.root)), r.event .finished] } := by
  rw [(dispatch_eq s registered r found).1 h, goTo_eq]
  simp [events, calls, Orchestrator.queries]

theorem goTo_dispatch (c : Course) {s : Session} {found : List Candidate}
    (h : shares registered r (eligible s registered r found) ≠ []) :
    c.goTo r (dispatch s registered r found) = { c with
      phase := .racing (.running ((shares registered r (eligible s registered r found)).map (·.1)))
      told := c.told ++ [r.event (.candidatesFound found),
        r.event (.candidatesFiltered (eligible s registered r found))]
      called := c.called ++ shares registered r (eligible s registered r found) } := by
  rw [(dispatch_eq s registered r found).2 h, goTo_eq]
  simp [events, calls, Orchestrator.queries, List.filterMap_map, List.countP_map,
    Function.comp_def]

end Course

end Courier.Orchestrator
