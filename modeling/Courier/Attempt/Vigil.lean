import Courier.Attempt.Stages
import Courier.Context.Glance
import Courier.Traffic
/-!
# Falling back under a context

A retrieval that falls back heeds the context of its caller in its own way at
each of its stages. A transfer is given a context of its own, which ends when
the time for its provider is up; its writes are heeded by nobody. A download is
heeded as a whole, and the time for its provider is taken by an alarm at every
wait for the gateway, which goes before the context.
-/

namespace Courier

/-- A retrieval of either kind. -/
structure Vigil where
  kind : Traffic.Kind
  root : Cid
  caller : Context

namespace Vigil

/-- What may have come at a glance. -/
inductive Offer where
  /-- A permit, and how long the provider may take. -/
  | permit (r : Except Error Duration)
  | transfer (r : Except Error (List Block))
  | response (r : Except String Unit)
  /-- A piece of a body or its end. -/
  | body (r : Except String (Option Bytes))
  | written (r : Except Error Unit)
  deriving Repr

/-- What an offer is to an attempt that waits; none if it does not wait for that. -/
def Offer.input? : Demand → Offer → Option Input
  | .permit, .permit (.ok _) => some .permit
  | .permit, .permit (.error e) => some (.failure e)
  | .transfer, .transfer (.ok blocks) => some (.transfer blocks)
  | .transfer, .transfer (.error e) => some (.failure e)
  | .response _, .response (.ok ()) => some .response
  | .response _, .response (.error s) => some (.failure (.failed (.request s)))
  | .body _, .body (.ok (some octets)) => some (.body octets)
  | .body _, .body (.ok none) => some .bodyEnd
  | .body _, .body (.error s) => some (.failure (.failed (.body s)))
  | .writing _, .written (.ok ()) => some .written
  | .writing _, .written (.error e) => some (.failure e)
  | _, _ => none

/-- What may end a wait before what is waited for has come. -/
inductive Guard where
  /-- Nothing was begun, since the context was over. -/
  | refused (e : Error)
  | context (c : Context)
  /-- A context, and when the time for the provider is up. -/
  | timed (c : Context) (due : Option Instant) (limit : Duration)
  | absent
  deriving Repr

namespace Guard

def cuts? (m : Moment) : Guard → Option Input
  | .refused e => some (.failure e)
  | .context c => (c.error? m).map .failure
  | .timed c due limit =>
    if due.any (· ≤ m.now) then some (.silence limit) else (c.error? m).map .failure
  | .absent => none

/-- What a wait comes to at a glance. What has come goes before what may end the wait. -/
def input? (m : Moment) (came : Option Input) : Guard → Option Input
  | .refused e => some (.failure e)
  | g => came.or (g.cuts? m)

end Guard

structure State (α : Type) where
  moment : Moment
  stage : Fallback.Stage α
  guard : Guard := .absent
  /-- How long the provider may take, once there is a permit. -/
  limit : Duration := Duration.zero
  told : List Fallback.Effect := []

/-- Transfers write to the end whatever happens meanwhile. Downloads stop when their context is
over. -/
def guardsWriting : Traffic.Kind → Bool
  | .transfer => false
  | .download => true

variable (v : Vigil)

/-- How a wait is guarded that begins at a moment, and the moment after that was arranged. -/
def guard (m : Moment) (limit : Duration) : Demand → Guard × Moment
  | .permit => (.context v.caller, m)
  | .transfer =>
    let (c, _, m) := v.caller.withTimeout m limit
    match c.error? m with
    | some e => (.refused e, m)
    | none => (.context c, m)
  | .response _ | .body _ => (.timed v.caller (Instant.add? m.now limit) limit, m)
  | .writing _ => (if guardsWriting v.kind then .context v.caller else .absent, m)

/-- Goes on by a stage, with what an attempt meets at it. -/
def go (s : State v.kind.Phase) (m : Moment) (i : Input) (limit : Duration) :
    State v.kind.Phase :=
  let (es, stage) := s.stage.next v.kind.transport v.root ⟨m.now, v.caller.error? m, i⟩
  let (guard, moment) :=
    match stage with
    | .trying f => v.guard m limit (v.kind.transport.demand f.phase)
    | _ => (.absent, m)
  { moment, stage, guard, limit, told := s.told ++ es }

/-- The time for the provider comes with the permit. -/
def limitAfter (limit : Duration) : Option Offer → Duration
  | some (.permit (.ok d)) => d
  | _ => limit

def next (s : State v.kind.Phase) (g : Glance Offer) : State v.kind.Phase :=
  let m := s.moment.after g
  match s.stage with
  | .trying f =>
    let demand := v.kind.transport.demand f.phase
    match s.guard.input? m (g.came.bind (·.input? demand)) with
    | some i => v.go s m i (if demand = .permit then limitAfter s.limit g.came else s.limit)
    | none => { s with moment := m }
  -- between attempts nothing is waited for
  | _ => v.go s m .permit s.limit

/-- Runs a retrieval that is called at some moment. -/
def run (m : Moment) (l : List Candidate) (gs : List (Glance Offer)) : State v.kind.Phase :=
  gs.foldl v.next { moment := m, stage := .turning (.noCandidates v.root) l }

end Vigil

end Courier
