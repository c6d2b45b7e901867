import Courier.Attempt.Basic
/-!
# Falling back from provider to provider

The candidates of a retrieval are attempted one after the other until one of
them succeeds. A success or a failure is put on the record of its provider. A
failure while the caller's context is over is the end, and is nobody's fault.
-/

namespace Courier

/-- A retrieval that attempts a candidate. -/
structure Fallback (α : Type) where
  candidate : Candidate
  others : List Candidate
  began : Instant
  phase : α
  deriving Repr

namespace Fallback

inductive Effect where
  | tell (what : Happening)
  /-- The attempt gives back its permit, or does not want one any more. -/
  | leave
  | recordSuccess (provider : ProviderId) (elapsed : Duration)
  | recordFailure (provider : ProviderId)
  deriving DecidableEq, Repr

inductive Verdict (α : Type) where
  | goes (f : Fallback α)
  | over (r : Except Error Stats)
  deriving Repr

variable {α : Type} (t : Transport α) (root : Cid) (now : Instant)

/-- What a failure while the caller's context is live leads to. -/
def failure (p : ProviderId) (e : Error) : List Effect :=
  [.recordFailure p, .tell (.providerFailed p t.protocol e)]

/-- Attempts the first of some candidates; without any, the last error stands. `ended` is the
error of the caller's context, if that is over. -/
def attempt (ended : Option Error) : Error → List Candidate → List Effect × Verdict α
  | last, [] => ([], .over (.error last))
  | _, c :: others =>
    let told := Effect.tell (.providerStarted c.provider t.protocol)
    match ended with
    | some e => ([told], .over (.error e))
    | none =>
      match t.start c with
      | .ok phase => ([told], .goes ⟨c, others, now, phase⟩)
      | .error e =>
        let e := t.report e
        let (effects, v) := attempt ended e others
        (told :: failure t c.provider e ++ effects, v)

/-- Begins with the candidates of a retrieval. -/
def start (ended : Option Error) (l : List Candidate) : List Effect × Verdict α :=
  attempt t now ended (.noCandidates root) l

def settle (f : Fallback α) (ended : Option Error) : Outcome α → List Effect × Verdict α
  | .goes phase => ([], .goes { f with phase })
  | .succeeds began size blocks =>
    ([.leave, .recordSuccess f.candidate.provider (now.since f.began)],
      .over (.ok {
        root
        provider := some f.candidate.provider
        protocol := t.protocol
        size
        blocks
        duration := now.since began }))
  | .fails e =>
    match ended with
    | some e => ([.leave], .over (.error e))
    | none =>
      let e := t.report e
      let (effects, v) := attempt t now ended e f.others
      (.leave :: failure t f.candidate.provider e ++ effects, v)

def step (f : Fallback α) (ended : Option Error) (i : Input) : List Effect × Verdict α :=
  let a := t.step root now f.phase i
  let told := a.first.toList.map fun d =>
    Effect.tell (.firstByte f.candidate.provider t.protocol d)
  let (effects, v) := settle t root now f ended a.outcome
  (told ++ effects, v)

end Fallback

end Courier
