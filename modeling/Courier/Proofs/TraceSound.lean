import Courier.Proofs.CourseLemmas

/-!
# What is told of a retrieval

A retrieval is told of in a fixed order, whenever its context ends and whoever
retrieves: that it started, the candidates, what becomes of providers, its
result and that it finished. Every step keeps to it (`Stands`).
-/

namespace Courier.Orchestrator

/-- What is told between the start of a retrieval and its result. -/
inductive Inner (r : Request) : List Event → Prop
  | nothing : Inner r []
  | candidates {found kept : List Candidate} {es : List Event} :
      (∀ e ∈ es, e.what.protocol?.isSome) →
      Inner r (r.event (.candidatesFound found) :: r.event (.candidatesFiltered kept) :: es)

/-- All that is told of a retrieval with a result. -/
def Told (r : Request) (result : Except Error Stats) (l : List Event) : Prop :=
  ∃ es, Inner r es ∧ l = r.event .started :: (es ++ [r.event (verdict result), r.event .finished])

/-- What was told so far of a retrieval that was started. -/
inductive Stands (r : Request) : Phase → List Event → Prop
  | finding : Stands r .finding [r.event .started]
  | racing {l : List Protocol} {found kept : List Candidate} {es : List Event} :
      (∀ e ∈ es, e.what.protocol?.isSome) → Stands r (.racing (.running l))
        (r.event .started :: r.event (.candidatesFound found) ::
          r.event (.candidatesFiltered kept) :: es)
  | done {result : Except Error Stats} {l : List Event} : Told r result l →
      Stands r (.over result) l

variable {r : Request} {phase : Phase} {l : List Event} {registered : List Protocol} {c : Course}

theorem Stands.proper (h : Stands r phase l) : phase.Proper := by
  intro result
  cases h <;> nofun

/-- Up to its result a retrieval told of nothing that follows one. -/
theorem Stands.inner (h : Stands r phase l) (hp : ∀ result, phase ≠ .over result) :
    ∃ es, Inner r es ∧ l = r.event .started :: es := by
  cases h with
  | finding => exact ⟨[], .nothing, rfl⟩
  | racing hes => exact ⟨_, .candidates hes, rfl⟩
  | @done result => exact absurd rfl (hp result)

theorem Stands.close (h : Stands r c.phase c.told) (hp : ∀ result, c.phase ≠ .over result)
    (result : Except Error Stats) :
    Stands r (c.goTo r (close result)).phase (c.goTo r (close result)).told := by
  obtain ⟨es, hes, hl⟩ := h.inner hp
  rw [Course.goTo_close, hl]
  exact .done ⟨es, hes, rfl⟩

theorem Stands.move (h : Stands r c.phase c.told) (m : Move) :
    Stands r (c.move registered r m).phase (c.move registered r m).told := by
  cases m with
  | emits p e =>
    unfold Course.move
    dsimp only
    split
    · next hr =>
      -- only while they race retrievers are heard
      generalize c.phase = phase, c.told = l at *
      cases h with
      | finding => cases hr
      | done => cases hr
      | @racing _ found kept es hes =>
        have hes' : ∀ e' ∈ es ++ [e.1], e'.what.protocol?.isSome := by
          intro e' he'
          rcases List.mem_append.1 he' with he' | he'
          · exact hes e' he'
          · rw [List.mem_singleton.1 he']
            exact e.2
        exact .racing hes'
    · exact h
  | learns s i =>
    have ht := step_takes s registered r h.proper i
    unfold Course.move
    dsimp only
    generalize step s registered r c.phase i = next at ht
    generalize hp : c.phase = phase at ht
    cases ht with
    | stays => exact hp ▸ h
    | ends hne => exact h.close (hp ▸ hne) _
    | misses => exact h.close (by rw [hp]; nofun) _
    | decides => exact h.close (by rw [hp]; nofun) _
    | @dispatches found =>
      have hl : c.told = [r.event .started] := by
        rw [hp] at h
        generalize c.told = l at h
        cases h
        rfl
      have hnone : ∀ e ∈ ([] : List Event), e.what.protocol?.isSome := nofun
      by_cases hs : shares registered r (eligible s registered r found) = []
      · rw [c.goTo_dispatch_nobody hs, hl]
        exact .done ⟨_, .candidates hnone, rfl⟩
      · rw [c.goTo_dispatch hs, hl]
        exact .racing hnone
    | drops =>
      rw [hp] at h
      rw [Course.goTo_nil]
      generalize c.told = l at h ⊢
      cases h with
      | racing hes => exact .racing hes

theorem Stands.run (h : Stands r c.phase c.told) (ms : List Move) :
    Stands r (c.run registered r ms).phase (c.run registered r ms).told := by
  induction ms generalizing c with
  | nil => exact h
  | cons m ms ih => exact ih (h.move m)

/-! ## What of the result is told -/

theorem Inner.silent {es : List Event} (h : Inner r es) :
    ∀ e ∈ es, (∀ stats, e.what ≠ .success stats) ∧ (∀ x, e.what ≠ .failed x) := by
  intro e he
  cases h with
  | nothing => cases he
  | candidates hes =>
    rcases List.mem_cons.1 he with rfl | he
    · exact ⟨nofun, nofun⟩
    rcases List.mem_cons.1 he with rfl | he
    · exact ⟨nofun, nofun⟩
    have hp := hes e he
    constructor
    · intro stats hw
      rw [hw] at hp
      cases hp
    · intro x hw
      rw [hw] at hp
      cases hp

/-- Of success or failure only the result is told. -/
theorem Told.result {result : Except Error Stats} (h : Told r result l) :
    (∀ stats, (∃ e ∈ l, e.what = .success stats) ↔ result = .ok stats) ∧
      ∀ x, (∃ e ∈ l, e.what = .failed x) ↔ result = .error x := by
  obtain ⟨es, hes, rfl⟩ := h
  have last {what : Happening} (hs : what ≠ .started) (hf : what ≠ .finished)
      (hn : ∀ e ∈ es, e.what ≠ what) :
      (∃ e ∈ r.event .started :: (es ++ [r.event (verdict result), r.event .finished]),
        e.what = what) ↔ verdict result = what := by
    constructor
    · rintro ⟨e, he, hw⟩
      simp only [List.mem_cons, List.mem_append, List.not_mem_nil, or_false] at he
      rcases he with rfl | he | rfl | rfl
      · exact absurd hw.symm hs
      · exact absurd hw (hn e he)
      · exact hw
      · exact absurd hw.symm hf
    · intro hv
      exact ⟨r.event (verdict result), by simp, hv⟩
  constructor
  · intro stats
    rw [@last (.success stats) nofun nofun fun e he => (hes.silent e he).1 stats]
    cases result <;> simp [verdict]
  · intro x
    rw [@last (.failed x) nofun nofun fun e he => (hes.silent e he).2 x]
    cases result <;> simp [verdict]

/-- What is not about a provider is told by the orchestrator, in the name of the request. -/
theorem Stands.named (h : Stands r phase l) :
    ∀ e ∈ l, e.what.protocol? = none → e.id = r.id ∧ e.root = r.root := by
  have inner {es : List Event} (hes : Inner r es) :
      ∀ e ∈ es, e.what.protocol? = none → e.id = r.id ∧ e.root = r.root := by
    intro e he hp
    cases hes with
    | nothing => cases he
    | candidates hes =>
      rcases List.mem_cons.1 he with rfl | he
      · exact ⟨rfl, rfl⟩
      rcases List.mem_cons.1 he with rfl | he
      · exact ⟨rfl, rfl⟩
      · have hs := hes e he
        rw [hp] at hs
        cases hs
  intro e he hp
  cases h with
  | finding =>
    rw [List.mem_singleton.1 he]
    exact ⟨rfl, rfl⟩
  | racing hes =>
    rcases List.mem_cons.1 he with rfl | he
    · exact ⟨rfl, rfl⟩
    · exact inner (.candidates hes) e he hp
  | done ht =>
    obtain ⟨es, hes, rfl⟩ := ht
    simp only [List.mem_cons, List.mem_append, List.not_mem_nil, or_false] at he
    rcases he with rfl | he | rfl | rfl
    · exact ⟨rfl, rfl⟩
    · exact inner hes e he hp
    · exact ⟨rfl, rfl⟩
    · exact ⟨rfl, rfl⟩

/-! ## Starting -/

/-- Launches an orchestrator some times. -/
def launches (o : Orchestrator) : Nat → List (Except Error Unit)
  | 0 => []
  | n + 1 => o.launch.2 :: launches o.launch.1 n

theorem launches_started (n : Nat) :
    launches { started := true } n = List.replicate n (.error (.failed .alreadyStarted)) := by
  induction n with
  | zero => rfl
  | succ n ih => exact congrArg _ ih

/-- Whatever happens in the course of a retrieval, what is told of it is that it started, then the
candidates, or nothing of them, then what became of providers, then its result and last that it
finished. If its context was over before, nobody is asked for candidates. An orchestrator that was
not started tells nothing, and it can be started once. -/
theorem run_told (o : Orchestrator) (registered : List Protocol) (r : Request)
    (ended : Option Error) (ms : List Move) :
    let c := (Course.begin o r ended).run registered r ms
    (o.started = true →
      (∀ result, c.phase = .over result → Told r result c.told ∧
        (∀ stats, (∃ e ∈ c.told, e.what = .success stats) ↔ result = .ok stats) ∧
        (∀ x, (∃ e ∈ c.told, e.what = .failed x) ↔ result = .error x) ∧
        ∀ more, c.run registered r more = c) ∧
      (∀ e ∈ c.told, e.what.protocol? = none → e.id = r.id ∧ e.root = r.root) ∧
      ∀ x, ended = some x → c = {
        phase := .over (.error x)
        told := [r.event .started, r.event (.failed x), r.event .finished] }) ∧
    (o.started = false → c = { phase := .over (.error (.failed .notStarted)) }) ∧
    ∀ n, launches {} (n + 1) = .ok () :: List.replicate n (.error (.failed .alreadyStarted)) := by
  intro c
  refine ⟨fun ho => ?_, fun ho => ?_, fun n => ?_⟩
  · have hbegin : Course.begin o r ended =
        ({ phase := .finding } : Course).goTo r (start ended) := by
      simp [Course.begin, Orchestrator.retrieve, ho]
    have hstart : Stands r (Course.begin o r ended).phase (Course.begin o r ended).told := by
      rw [hbegin]
      cases ended with
      | none => exact .finding
      | some x => exact .done ⟨[], .nothing, rfl⟩
    have hc : Stands r c.phase c.told := hstart.run ms
    refine ⟨?_, hc.named, ?_⟩
    · intro result hp
      have ht : Told r result c.told := by
        rw [hp] at hc
        generalize c.told = l at hc
        cases hc with
        | done ht => exact ht
      exact ⟨ht, ht.result.1, ht.result.2, fun more => Course.run_over registered r hp more⟩
    · rintro x rfl
      have hx : Course.begin o r (some x) = {
          phase := .over (.error x)
          told := [r.event .started, r.event (.failed x), r.event .finished] } := by
        rw [hbegin]
        rfl
      have hrun := Course.run_over registered r (congrArg Course.phase hx) ms
      exact hrun.trans hx
  · have hx : Course.begin o r ended = { phase := .over (.error (.failed .notStarted)) } := by
      simp [Course.begin, Orchestrator.retrieve, ho, Course.goTo_nil]
    have hrun := Course.run_over registered r (congrArg Course.phase hx) ms
    exact hrun.trans hx
  · exact congrArg _ (launches_started n)

/-- A retrieval whose only provider began and then took too long. -/
theorem told_of_a_failure :
    let r : Request := { id := ⟨1⟩, root := ⟨[1]⟩ }
    let found : Candidate := { root := ⟨[1]⟩, provider := ⟨[7]⟩, protocols := [.bitswap] }
    let begun : Event := { id := ⟨1⟩, root := ⟨[1]⟩, what := .providerStarted ⟨[7]⟩ .bitswap }
    let c := (Course.begin { started := true } r none).run [.bitswap] r
      [.learns {} (.found (.ok [found])), .emits .bitswap ⟨begun, rfl⟩,
        .learns {} (.attempted .bitswap (.error .deadlineExceeded)), .emits .bitswap ⟨begun, rfl⟩]
    Told r (.error .deadlineExceeded) c.told ∧ c.told = [r.event .started,
      r.event (.candidatesFound [found]), r.event (.candidatesFiltered [found]), begun,
      r.event (.failed .deadlineExceeded), r.event .finished] := by
  intro r found begun c
  have h := run_told { started := true } [.bitswap] r none
    [.learns {} (.found (.ok [found])), .emits .bitswap ⟨begun, rfl⟩,
      .learns {} (.attempted .bitswap (.error .deadlineExceeded)), .emits .bitswap ⟨begun, rfl⟩]
  have hl : eligible {} [.bitswap] r [found] = [found] := List.mergeSort_singleton found
  have hne : shares [.bitswap] r (eligible {} [.bitswap] r [found]) ≠ [] := by rw [hl]; decide
  have hd := (Course.begin { started := true } r none).goTo_dispatch hne
  have hc : c = ((Course.begin { started := true } r none).goTo r
      (dispatch {} [.bitswap] r [found])).run [.bitswap] r [.emits .bitswap ⟨begun, rfl⟩,
        .learns {} (.attempted .bitswap (.error .deadlineExceeded)),
        .emits .bitswap ⟨begun, rfl⟩] := rfl
  rw [hd, hl] at hc
  exact ⟨((h.1 rfl).1 _ (congrArg Course.phase hc)).1, congrArg Course.told hc⟩

end Courier.Orchestrator
