import Courier.Context.Glance
import Courier.Exchange.Basic
/-!
# Asking for a block

A fetch that holds its slots asks one provider after the other. Each is given a
context of its own, which ends with the caller's or when the time for one
provider is up. What has come at a glance counts, even if that context is over.
The caller's context is looked at by itself once a provider has failed.
-/

namespace Courier.Exchange

structure Inquiry where
  cid : Cid
  /-- How long one provider may take. -/
  limit : Duration
  caller : Context
  deriving Repr

namespace Inquiry

inductive Stage where
  /-- It turns to the first of some providers; without any, the last error stands. -/
  | turning (last : Error) (left : List ProviderId)
  | asking (p : ProviderId) (others : List ProviderId) (context : Context)
  /-- A provider failed. Whether that counts is up to the next glance. -/
  | failing (p : ProviderId) (others : List ProviderId) (e : Error)
  | over (r : Except Error (Block × ProviderId))
  deriving Repr

structure State where
  moment : Moment
  /-- Who was asked, and when. -/
  asked : List (ProviderId × Instant) := []
  stage : Stage
  deriving Repr

def start (q : Inquiry) (m : Moment) (providers : List ProviderId) : State :=
  { moment := m, stage := .turning (.failed (.noBlockCandidate q.cid)) providers }

/-- The context for a provider, and the moment after it was derived. -/
def child (q : Inquiry) (m : Moment) : Context × Moment :=
  let (c, _, m) := q.caller.withTimeout m q.limit
  (c, m)

def turn (q : Inquiry) (s : State) (m : Moment) (last : Error) : List ProviderId → State
  | [] => { s with moment := m, stage := .over (.error last) }
  | p :: others =>
    let (context, moment) := q.child m
    match context.error? moment with
    | some e => { s with moment, stage := .failing p others e }
    | none => { moment, asked := s.asked ++ [(p, m.now)], stage := .asking p others context }

/-- A glance at a request, and the answer if it has come. -/
abbrev Look := Glance (Except Error Block)

def next (q : Inquiry) (s : State) (g : Look) : State :=
  let m := s.moment.after g
  match s.stage with
  | .turning last left => q.turn s m last left
  | .asking p others context =>
    match g.came, context.error? m with
    | some (.ok b), _ =>
      if b.cid = q.cid then { s with moment := m, stage := .over (.ok (b, p)) }
      else { s with moment := m, stage := .turning (.failed (.wrongBlock q.cid b.cid)) others }
    | some (.error e), _ | none, some e => { s with moment := m, stage := .failing p others e }
    | none, none => { s with moment := m }
  | .failing _ others e =>
    match q.caller.error? m with
    | some e => { s with moment := m, stage := .over (.error e) }
    | none => { s with moment := m, stage := .turning (blame q.limit e) others }
  | .over _ => { s with moment := m }

def run (q : Inquiry) (s : State) (gs : List Look) : State :=
  gs.foldl q.next s

end Inquiry

end Courier.Exchange
