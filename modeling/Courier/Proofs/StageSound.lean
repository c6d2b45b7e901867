import Courier.Attempt.Stages
import Courier.Traffic

/-!
# Events, records and the result stay in step

A retrieval has some candidates behind it, each of which failed while the
context was live and has one failure on record and one told. `Stands` says
what it did for the candidate after them, and what its result is if there is
one. A look adds to one of the two, and so does a run of looks, whenever the
context ends. A step that was not cut is a run in which the context stays as
it is. What a retrieval asks of its session, and whom it tells, is taken to
return.
-/

namespace Courier.Fallback

variable {α : Type} (t : Transport α) (root : Cid)

/-! ## An attempt by itself -/

/-- What becomes of an attempt at a candidate, what it met first and after that, and what it
did until then. -/
inductive Attempted (c : Candidate) (first : Look) :
    List Look → List Effect → Outcome α → Prop
  | barred {e : Error} : first.ended = some e → Attempted c first [] [] (.fails e)
  | refused {e : Error} : first.ended = none → t.start c = .error e →
      Attempted c first [] [] (.fails e)
  | begun {phase : α} : first.ended = none → t.start c = .ok phase →
      Attempted c first [] [] (.goes phase)
  | goes {ls : List Look} {l : Look} {es : List Effect} {phase phase' : α} :
      Attempted c first ls es (.goes phase) →
      (t.step root l.now phase l.input).outcome = .goes phase' →
      Attempted c first (ls ++ [l]) (es ++ told t c (t.step root l.now phase l.input)) (.goes phase')
  | ends {ls : List Look} {l : Look} {es : List Effect} {phase : α} {o : Outcome α} :
      Attempted c first ls es (.goes phase) →
      (t.step root l.now phase l.input).outcome = o → (∀ phase', o ≠ .goes phase') →
      Attempted c first (ls ++ [l])
        (es ++ told t c (t.step root l.now phase l.input) ++ [.leave]) o

variable {t root}

theorem Attempted.quiet {c : Candidate} {first : Look} {ls : List Look} {es : List Effect}
    {o : Outcome α} (h : Attempted t root c first ls es o) :
    ∀ e ∈ es, e = .leave ∨ ∃ d, e = .tell (.firstByte c.provider t.protocol d) := by
  have quiet_told (a : Advance α) :
      ∀ e ∈ told t c a, ∃ d, e = .tell (.firstByte c.provider t.protocol d) := by
    intro e he
    obtain ⟨d, -, rfl⟩ := List.mem_map.mp he
    exact ⟨d, rfl⟩
  induction h with
  | barred | refused | begun =>
    intro e he
    cases he
  | goes _ _ ih =>
    intro e he
    rcases List.mem_append.mp he with he | he
    · exact ih e he
    · exact .inr (quiet_told _ e he)
  | ends _ _ _ ih =>
    intro e he
    rcases List.mem_append.mp he with he | he
    · rcases List.mem_append.mp he with he | he
      · exact ih e he
      · exact .inr (quiet_told _ e he)
    · exact .inl (List.mem_singleton.mp he)

/-! ## Where a retrieval stands -/

/-- An attempt that failed while the context was live. -/
structure Missed where
  candidate : Candidate
  first : Look
  others : List Look
  /-- The look at the context after the failure. -/
  last : Look
  effects : List Effect
  error : Error

namespace Missed

variable (t root)

structure Holds (m : Missed) : Prop where
  fails : Attempted t root m.candidate m.first m.others m.effects (.fails m.error)
  live : m.last.ended = none

def looks (m : Missed) : List Look := m.first :: m.others ++ [m.last]

def trace (m : Missed) : List Effect :=
  .tell (.providerStarted m.candidate.provider t.protocol) :: m.effects ++
    [.recordFailure m.candidate.provider,
      .tell (.providerFailed m.candidate.provider t.protocol (t.report m.error))]

/-- The error that stands when some attempts have failed. -/
def lastError (ms : List Missed) : Error :=
  (ms.getLast?.map fun m => t.report m.error).getD (.noCandidates root)

end Missed

variable (t root)

/-- How a retrieval stands with the candidates that are left, the looks it had since it turned to
the first of them, and what it did since. -/
inductive Stands (last : Error) : List Candidate → List Look → List Effect → Stage α → Prop
  | turning {left : List Candidate} : Stands last left [] [] (.turning last left)
  | exhausted {l : Look} {ignored : List Look} :
      Stands last [] (l :: ignored) [] (.over (.error last))
  | trying {c : Candidate} {others : List Candidate} {first : Look} {ls : List Look}
      {es : List Effect} {phase : α} : Attempted t root c first ls es (.goes phase) →
      Stands last (c :: others) (first :: ls)
        (.tell (.providerStarted c.provider t.protocol) :: es)
        (.trying ⟨c, others, first.now, phase⟩)
  | failing {c : Candidate} {others : List Candidate} {first : Look} {ls : List Look}
      {es : List Effect} {e : Error} : Attempted t root c first ls es (.fails e) →
      Stands last (c :: others) (first :: ls)
        (.tell (.providerStarted c.provider t.protocol) :: es) (.failing c others e)
  | ended {c : Candidate} {others : List Candidate} {first l : Look} {ls ignored : List Look}
      {es : List Effect} {e e' : Error} : Attempted t root c first ls es (.fails e) →
      l.ended = some e' →
      Stands last (c :: others) (first :: ls ++ l :: ignored)
        (.tell (.providerStarted c.provider t.protocol) :: es) (.over (.error e'))
  | succeeded {c : Candidate} {others : List Candidate} {first l : Look} {ls ignored : List Look}
      {es : List Effect} {began : Instant} {size blocks : Nat} :
      Attempted t root c first (ls ++ [l]) es (.succeeds began size blocks) →
      Stands last (c :: others) (first :: ls ++ l :: ignored)
        (.tell (.providerStarted c.provider t.protocol) :: es ++
          [.recordSuccess c.provider (l.now.since first.now)])
        (.over (.ok {
          root
          provider := some c.provider
          protocol := t.protocol
          size
          blocks
          duration := l.now.since began }))

/-- What a retrieval did for its candidates in some looks, and where it stands after them. -/
def Accounted (l : List Candidate) (ls : List Look) (es : List Effect) (s : Stage α) : Prop :=
  ∃ (missed : List Missed) (left : List Candidate) (ls' : List Look) (es' : List Effect),
    (∀ m ∈ missed, m.Holds t root) ∧
    l = missed.map Missed.candidate ++ left ∧
    ls = missed.flatMap Missed.looks ++ ls' ∧
    es = missed.flatMap (Missed.trace t) ++ es' ∧
    Stands t root (Missed.lastError t root missed) left ls' es' s

variable {t root}

theorem Stands.accounted {missed : List Missed} {left : List Candidate} {ls ls' : List Look}
    {es es' : List Effect} {s : Stage α} (hm : ∀ m ∈ missed, m.Holds t root)
    (h : Stands t root (Missed.lastError t root missed) left (ls ++ ls') (es ++ es') s) :
    Accounted t root (missed.map Missed.candidate ++ left) (missed.flatMap Missed.looks ++ ls ++ ls')
      (missed.flatMap (Missed.trace t) ++ es ++ es') s :=
  ⟨missed, left, ls ++ ls', es ++ es', hm, rfl, List.append_assoc .., List.append_assoc .., h⟩

/-! ## A look -/

theorem Missed.lastError_concat (missed : List Missed) (m : Missed) :
    lastError t root (missed ++ [m]) = t.report m.error := by
  simp [lastError]

theorem Accounted.next {l : List Candidate} {ls : List Look} {es : List Effect} {s : Stage α}
    (h : Accounted t root l ls es s) (look : Look) :
    Accounted t root l (ls ++ [look]) (es ++ (s.next t root look).1) (s.next t root look).2 := by
  obtain ⟨missed, left, ls', es', hm, rfl, rfl, rfl, h⟩ := h
  cases h with
  | @turning left =>
    cases left with
    | nil => exact Stands.accounted hm .exhausted
    | cons c others =>
      cases hended : look.ended with
      | some e =>
        simp only [Stage.next, hended]
        exact Stands.accounted hm (.failing (.barred hended))
      | none =>
        cases hstart : t.start c with
        | error e =>
          simp only [Stage.next, hended, hstart]
          exact Stands.accounted hm (.failing (.refused hended hstart))
        | ok phase =>
          simp only [Stage.next, hended, hstart]
          exact Stands.accounted hm (.trying (.begun hended hstart))
  | exhausted =>
    refine Stands.accounted hm ?_
    rw [Stage.next, List.append_nil]
    exact .exhausted
  | @trying c others first ls es phase ha =>
    cases ho : (t.step root look.now phase look.input).outcome with
    | goes phase' =>
      simp only [Stage.next, ho, settle, Verdict.stage, List.append_nil]
      exact Stands.accounted hm (.trying (.goes ha ho))
    | fails e =>
      simp only [Stage.next, ho]
      refine Stands.accounted hm ?_
      rw [List.cons_append, List.cons_append, ← List.append_assoc]
      exact .failing (.ends ha ho nofun)
    | succeeds began size blocks =>
      simp only [Stage.next, ho, settle, Verdict.stage]
      refine Stands.accounted hm ?_
      have hes (x y : Effect) :
          x :: es ++ (told t c (t.step root look.now phase look.input) ++ [.leave, y]) =
            x :: (es ++ told t c (t.step root look.now phase look.input) ++ [.leave]) ++ [y] := by
        simp only [List.cons_append, List.append_assoc, List.nil_append]
      rw [hes]
      exact .succeeded (.ends ha ho nofun)
  | @failing c others first ls es e ha =>
    cases hended : look.ended with
    | some e' =>
      simp only [Stage.next, hended]
      refine Stands.accounted hm ?_
      rw [List.append_nil]
      exact .ended ha hended
    | none =>
      simp only [Stage.next, hended]
      have hholds : Missed.Holds t root ⟨c, first, ls, look, es, e⟩ := ⟨ha, hended⟩
      refine ⟨missed ++ [⟨c, first, ls, look, es, e⟩], others, [], [], ?_, ?_, ?_, ?_, ?_⟩
      · intro m hmem
        rcases List.mem_append.mp hmem with hmem | hmem
        · exact hm m hmem
        · rw [List.mem_singleton.mp hmem]
          exact hholds
      · simp
      · simp [Missed.looks]
      · simp [Missed.trace, failure]
      · rw [Missed.lastError_concat]
        exact .turning
  | @ended c others first l ls ignored es e e' ha hended =>
    refine Stands.accounted hm ?_
    rw [Stage.next, List.append_nil, List.append_assoc]
    exact .ended ha hended
  | @succeeded c others first l ls ignored es began size blocks ha =>
    refine Stands.accounted hm ?_
    rw [Stage.next, List.append_nil, List.append_assoc]
    exact .succeeded ha

/-! ## Runs -/

theorem Accounted.begins (l : List Candidate) :
    Accounted t root l [] [] (.turning (.noCandidates root) l) := by
  refine ⟨[], l, [], [], ?_, rfl, rfl, rfl, .turning⟩
  intro m hm
  cases hm

theorem Accounted.run {l : List Candidate} {ls : List Look} {es : List Effect} {s : Stage α}
    (h : Accounted t root l ls es s) (looks : List Look) :
    Accounted t root l (ls ++ looks) (es ++ (s.run t root looks).1) (s.run t root looks).2 := by
  induction looks generalizing ls es s with
  | nil =>
    rw [Stage.run, List.append_nil, List.append_nil]
    exact h
  | cons look looks ih =>
    have hnext := ih (h.next look)
    rw [List.append_assoc, List.append_assoc] at hnext
    exact hnext

/-! ## Steps that are not cut -/

theorem Stage.run_cons (s : Stage α) (l : Look) (ls : List Look) :
    s.run t root (l :: ls) =
      ((s.next t root l).1 ++ ((s.next t root l).2.run t root ls).1,
        ((s.next t root l).2.run t root ls).2) := rfl

variable (t root)

theorem attempt_eq_run (l : Look) (last : Error) (left : List Candidate) :
    ∃ n, (Stage.turning last left).run t root (List.replicate n l) =
      ((attempt t l.now l.ended last left).1, (attempt t l.now l.ended last left).2.stage) := by
  induction left generalizing last with
  | nil => exact ⟨1, rfl⟩
  | cons c others ih =>
    unfold attempt
    cases hended : l.ended with
    | some e =>
      -- the attempt fails, and at the next look the context is over
      refine ⟨2, ?_⟩
      simp [List.replicate, Stage.run, Stage.next, hended, Verdict.stage, started]
    | none =>
      cases hstart : t.start c with
      | ok phase =>
        refine ⟨1, ?_⟩
        simp [List.replicate, Stage.run, Stage.next, hended, hstart, Verdict.stage, started]
      | error e =>
        -- the attempt fails, it counts, and then it goes on as from the next candidate
        obtain ⟨n, hn⟩ := ih (t.report e)
        rw [hended] at hn
        refine ⟨n + 2, ?_⟩
        rw [List.replicate_succ, List.replicate_succ, Stage.run_cons, Stage.run_cons]
        simp only [Stage.next, hended, hstart, hn, started, List.cons_append, List.nil_append]

theorem start_eq_run (l : Look) (left : List Candidate) :
    ∃ n, (Stage.turning (.noCandidates root) left).run t root (List.replicate n l) =
      ((start t root l.now l.ended left).1, (start t root l.now l.ended left).2.stage) :=
  attempt_eq_run t root l (.noCandidates root) left

theorem step_eq_run (f : Fallback α) (l : Look) :
    ∃ n, (Stage.trying f).run t root (List.replicate n l) =
      ((f.step t root l.now l.ended l.input).1, (f.step t root l.now l.ended l.input).2.stage) := by
  cases ho : (t.step root l.now f.phase l.input).outcome with
  | goes phase =>
    refine ⟨1, ?_⟩
    simp [List.replicate, Stage.run, Stage.next, step, ho, told]
  | succeeds began size blocks =>
    refine ⟨1, ?_⟩
    simp [List.replicate, Stage.run, Stage.next, step, ho, told]
  | fails e =>
    cases hended : l.ended with
    | some e' =>
      refine ⟨2, ?_⟩
      simp [List.replicate, Stage.run, Stage.next, step, settle, ho, hended, told, Verdict.stage]
    | none =>
      obtain ⟨n, hn⟩ := attempt_eq_run t root l (t.report e) f.others
      rw [hended] at hn
      refine ⟨n + 2, ?_⟩
      rw [List.replicate_succ, List.replicate_succ, Stage.run_cons, Stage.run_cons]
      simp [Stage.next, step, settle, ho, hended, told, hn]

/-! ## Whole retrievals -/

/-- The course of a retrieval that is not cut: what it met at its start and at each of its steps,
and what it did. -/
inductive Course (l : List Candidate) : List Look → List Effect → Verdict α → Prop
  | starts (m : Look) :
      Course l [m] (start t root m.now m.ended l).1 (start t root m.now m.ended l).2
  | steps {ms : List Look} {es : List Effect} {f : Fallback α} (m : Look) :
      Course l ms es (.goes f) →
      Course l (ms ++ [m]) (es ++ (f.step t root m.now m.ended m.input).1)
        (f.step t root m.now m.ended m.input).2

variable {t root}

theorem Stage.run_append (s : Stage α) (ls ls' : List Look) :
    s.run t root (ls ++ ls') =
      ((s.run t root ls).1 ++ ((s.run t root ls).2.run t root ls').1,
        ((s.run t root ls).2.run t root ls').2) := by
  induction ls generalizing s with
  | nil => rfl
  | cons l ls ih => simp only [List.cons_append, Stage.run_cons, ih, List.append_assoc]

/-- An uncut retrieval is one whose context stays as it is from look to look of a step. -/
theorem Course.eq_run {l : List Candidate} {ms : List Look} {es : List Effect} {v : Verdict α}
    (h : Course t root l ms es v) : ∃ ns : List Nat, ns.length = ms.length ∧
      (Stage.turning (.noCandidates root) l).run t root (List.zipWith List.replicate ns ms).flatten =
        (es, v.stage) := by
  induction h with
  | starts m =>
    obtain ⟨n, hn⟩ := start_eq_run t root m l
    refine ⟨[n], rfl, ?_⟩
    rw [List.zipWith_cons_cons, List.zipWith_nil_left, List.flatten_cons, List.flatten_nil,
      List.append_nil]
    exact hn
  | @steps ms es f m _ ih =>
    obtain ⟨ns, hlen, hns⟩ := ih
    obtain ⟨n, hn⟩ := step_eq_run t root f m
    refine ⟨ns ++ [n], by simp [hlen], ?_⟩
    rw [List.zipWith_append hlen, List.flatten_append, Stage.run_append, hns]
    simp only [List.zipWith_cons_cons, List.zipWith_nil_left, List.flatten_cons, List.flatten_nil,
      List.append_nil, Verdict.stage, hn]

/-- Whenever the context ends, what a retrieval of either kind did, told and gave as its result is
accounted for by its candidates in order: those that failed while the context was live, and the one
after them. An attempt by itself tells of its first data only and gives back its permit. -/
theorem retrieval_accounted (k : Traffic.Kind) (root : Cid) :
    (∀ l looks, Accounted k.transport root l looks
      ((Stage.turning (.noCandidates root) l).run k.transport root looks).1
      ((Stage.turning (.noCandidates root) l).run k.transport root looks).2) ∧
    (∀ c first ls es o, Attempted k.transport root c first ls es o →
      ∀ e ∈ es, e = .leave ∨ ∃ d, e = .tell (.firstByte c.provider k.transport.protocol d)) ∧
    (∀ e, k.transport.report e =
      if k = .transfer ∧ e.isContext = true then .failed .providerTimedOut else e) ∧
    ∀ l ms es v, Course k.transport root l ms es v → ∃ ns : List Nat, ns.length = ms.length ∧
      (Stage.turning (.noCandidates root) l).run k.transport root
        (List.zipWith List.replicate ns ms).flatten = (es, v.stage) := by
  refine ⟨fun l looks => (Accounted.begins l).run looks, fun _ _ _ _ _ h => h.quiet, fun e => ?_,
    fun _ _ _ _ h => h.eq_run⟩
  cases k with
  | transfer =>
    simp only [true_and]
    rfl
  | download => rfl

-- the context ends after the failure of the first of two candidates without an address
example (root : Cid) (p q : ProviderId) :
    (Stage.turning (.noCandidates root) [⟨root, p, [], []⟩, ⟨root, q, [], []⟩]).run
      Download.transport root [⟨0, none, .permit⟩, ⟨0, none, .permit⟩,
        ⟨1, some .cancelled, .permit⟩, ⟨1, some .cancelled, .permit⟩] =
      ([.tell (.providerStarted p .http), .recordFailure p,
        .tell (.providerFailed p .http (.failed .noAddress)), .tell (.providerStarted q .http)],
        .over (.error .cancelled)) := rfl

end Courier.Fallback
