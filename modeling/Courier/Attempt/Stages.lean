import Courier.Attempt.Fallback
/-!
# Falling back look by look

A step of a retrieval may look at its caller's context more than once: when an
attempt fails, and again as it turns to the next candidate. The context may
end in between. So a step is cut into stages here, each with one look.
-/

namespace Courier.Fallback

/-- Where a retrieval stands between two looks. -/
inductive Stage (α : Type) where
  /-- It turns to the first of some candidates; without any, the last error stands. -/
  | turning (last : Error) (left : List Candidate)
  | trying (f : Fallback α)
  /-- An attempt failed. Whether that counts is up to the next look. -/
  | failing (c : Candidate) (others : List Candidate) (e : Error)
  | over (r : Except Error Stats)

def Verdict.stage {α : Type} : Verdict α → Stage α
  | .goes f => .trying f
  | .over r => .over r

/-- What a retrieval meets at one of its stages. -/
structure Look where
  now : Instant
  /-- The error of the caller's context, if that is over. -/
  ended : Option Error
  input : Input
  deriving DecidableEq, Repr

variable {α : Type} (t : Transport α) (root : Cid)

def started (c : Candidate) : Effect := .tell (.providerStarted c.provider t.protocol)

/-- What is told of an advance of an attempt at a candidate. -/
def told (c : Candidate) (a : Advance α) : List Effect :=
  a.first.toList.map fun d => .tell (.firstByte c.provider t.protocol d)

namespace Stage

def next (l : Look) : Stage α → List Effect × Stage α
  | .turning last [] => ([], .over (.error last))
  | .turning _ (c :: others) =>
    match l.ended, t.start c with
    | some e, _ | none, .error e => ([started t c], .failing c others e)
    | none, .ok phase => ([started t c], .trying ⟨c, others, l.now, phase⟩)
  | .trying f =>
    let a := t.step root l.now f.phase l.input
    match a.outcome with
    | .fails e => (told t f.candidate a ++ [.leave], .failing f.candidate f.others e)
    | o =>
      let (effects, v) := settle t root l.now f l.ended o
      (told t f.candidate a ++ effects, v.stage)
  | .failing c others e =>
    match l.ended with
    | some e => ([], .over (.error e))
    | none => (failure t c.provider (t.report e), .turning (t.report e) others)
  | .over r => ([], .over r)

def run (s : Stage α) : List Look → List Effect × Stage α
  | [] => ([], s)
  | l :: ls =>
    let (effects, s) := s.next t root l
    let (others, s) := s.run ls
    (effects ++ others, s)

end Stage

end Courier.Fallback
