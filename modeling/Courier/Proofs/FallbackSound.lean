import Courier.Attempt.Download
import Courier.Attempt.Fallback
import Courier.Attempt.Transfer

/-!
# Permits on the way from provider to provider

A lawful transport waits for a permit first and never again. So a step of a
retrieval either stays with its provider, past the wait for a permit, or gives
the permit back before it does anything else.
-/

namespace Courier

/-- A permit is what an attempt waits for first, and never again. -/
structure Transport.Lawful {α : Type} (t : Transport α) : Prop where
  start : ∀ c phase, t.start c = .ok phase → t.demand phase = .permit
  fails : ∀ root now phase e, (t.step root now phase (.failure e)).outcome = .fails e
  goes : ∀ root now phase i phase', t.demand phase ≠ .permit ∨ i = .permit →
    (t.step root now phase i).outcome = .goes phase' → t.demand phase' ≠ .permit

/-! ## The transports -/

theorem Transfer.store_goes {began : Instant} {size blocks : Nat} {l : List Block} {phase : Phase}
    (h : store began size blocks l = .goes phase) : demand phase ≠ .permit := by
  cases l with
  | nil => cases h
  | cons b others =>
    cases h
    nofun

theorem Transfer.transport_lawful : transport.Lawful where
  start := by
    intro c phase h
    cases h
    rfl
  fails := by
    intro root now phase e
    cases phase <;> rfl
  goes := by
    intro root now phase i phase' hd h
    change demand phase ≠ .permit ∨ i = .permit at hd
    change (step root now phase i).outcome = .goes phase' at h
    change demand phase' ≠ .permit
    unfold step at h
    split at h
    · cases h
    · cases h
      nofun
    · dsimp only at h
      split at h
      · exact store_goes h
      · cases h
    · exact store_goes h
    · next hacq _ _ =>
      -- nothing was waited for; the one phase with a permit to wait for would have taken it
      cases h
      rcases hd with hd | rfl
      · exact hd
      · cases phase with
        | acquiring => exact absurd rfl (hacq rfl)
        | transferring began => nofun
        | storing began b others size blocks => nofun

theorem Download.place_goes {body : Body} {b : Block} {phase : Phase}
    (h : place body b = .goes phase) : demand phase ≠ .permit := by
  unfold place at h
  split at h
  · cases h
  · cases h
    nofun

theorem Download.pull_goes {root : Cid} {now : Instant} {body : Body} {phase : Phase}
    (h : (pull root now body).outcome = .goes phase) : demand phase ≠ .permit := by
  unfold pull at h
  split at h
  · cases h
  · cases h
    nofun
  · split at h
    · exact place_goes h
    · split at h
      · cases h
      · exact place_goes h

theorem Download.close_goes {body : Body} {phase : Phase} : close body ≠ .goes phase := by
  unfold close
  split
  · nofun
  · split <;> nofun

theorem Download.transport_lawful : transport.Lawful where
  start := by
    intro c phase h
    change Download.start c = .ok phase at h
    unfold Download.start at h
    split at h
    · cases h
      rfl
    · cases h
  fails := by
    intro root now phase e
    cases phase <;> rfl
  goes := by
    intro root now phase i phase' hd h
    change demand phase ≠ .permit ∨ i = .permit at hd
    change (step root now phase i).outcome = .goes phase' at h
    change demand phase' ≠ .permit
    unfold step at h
    split at h
    · cases h
    · cases h
      nofun
    · cases h
      nofun
    · cases h
    · exact pull_goes h
    · exact absurd h close_goes
    · cases h
    · exact pull_goes h
    · next hacq _ _ _ _ _ _ =>
      cases h
      rcases hd with hd | rfl
      · exact hd
      · cases phase with
        | acquiring e => exact absurd rfl (hacq e rfl)
        | requesting e began => nofun
        | receiving body => nofun
        | placing body b => nofun

/-! ## Steps of a retrieval -/

namespace Fallback

variable {α : Type} {t : Transport α}

/-- Nothing is given back, and whoever goes on waits for a permit. -/
structure Fresh (t : Transport α) (r : List Effect × Verdict α) : Prop where
  keeps : .leave ∉ r.1
  waits : ∀ f, r.2 = .goes f → t.demand f.phase = .permit

theorem attempt_fresh (h : t.Lawful) (now : Instant) (ended : Option Error) (last : Error)
    (l : List Candidate) : Fresh t (attempt t now ended last l) := by
  induction l generalizing last with
  | nil => exact ⟨List.not_mem_nil, nofun⟩
  | cons c others ih =>
    unfold attempt
    cases ended with
    | some e => exact ⟨by simp, nofun⟩
    | none =>
      dsimp only
      split
      · next phase hs =>
        refine ⟨by simp, fun f hf => ?_⟩
        cases hf
        exact h.start c phase hs
      · next e hs =>
        have ih := ih (t.report e)
        refine ⟨?_, ih.waits⟩
        simpa [failure] using ih.keeps

/-- What a step comes to: the attempt goes on past the wait for its permit, or gives the permit
back. -/
inductive Leads (t : Transport α) (f : Fallback α) (i : Input) :
    List Effect × Verdict α → Prop where
  | stays {told : List Effect} {phase : α} : (∀ e ∈ told, ∃ what, e = .tell what) →
      (t.demand f.phase = .permit → i = .permit) → t.demand phase ≠ .permit →
      Leads t f i (told, .goes { f with phase })
  | leaves {told : List Effect} {r : List Effect × Verdict α} :
      (∀ e ∈ told, ∃ what, e = .tell what) → Fresh t r →
      Leads t f i (told ++ .leave :: r.1, r.2)

theorem step_leads (h : t.Lawful) (root : Cid) (now : Instant) (f : Fallback α)
    (ended : Option Error) {i : Input}
    (hi : t.demand f.phase = .permit → i = .permit ∨ ∃ e, i = .failure e) :
    Leads t f i (f.step t root now ended i) := by
  unfold step
  dsimp only
  generalize ha : t.step root now f.phase i = a
  have told : ∀ e ∈ a.first.toList.map fun d =>
      Effect.tell (.firstByte f.candidate.provider t.protocol d), ∃ what, e = .tell what := by
    intro e he
    obtain ⟨d, -, rfl⟩ := List.mem_map.mp he
    exact ⟨_, rfl⟩
  cases ho : a.outcome with
  | goes phase =>
    simp only [settle, List.append_nil]
    have hp : t.demand f.phase = .permit → i = .permit := by
      intro hd
      rcases hi hd with hi | ⟨e, rfl⟩
      · exact hi
      · have := h.fails root now f.phase e
        rw [ha, ho] at this
        cases this
    refine .stays told hp (h.goes root now f.phase i phase ?_ (ha ▸ ho))
    by_cases hd : t.demand f.phase = .permit
    · exact .inr (hp hd)
    · exact .inl hd
  | succeeds began size blocks =>
    exact .leaves (r := ([.recordSuccess f.candidate.provider (now.since f.began)], .over _)) told
      ⟨by simp, nofun⟩
  | fails e =>
    cases ended with
    | some e => exact .leaves (r := ([], .over (.error e))) told ⟨List.not_mem_nil, nofun⟩
    | none =>
      have hf := attempt_fresh h now none (t.report e) f.others
      refine .leaves (r := (failure t f.candidate.provider (t.report e) ++
        (attempt t now none (t.report e) f.others).1, _)) told ⟨?_, hf.waits⟩
      simpa [failure] using hf.keeps

end Fallback

end Courier
