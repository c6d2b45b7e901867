import Courier.Context.Glance
import Courier.Exchange.Basic
/-!
# A retrieval over an exchange

A retrieval walks a graph over an exchange that it shares with others. It tells
of all its providers before it begins, and that all of them failed when it does
not succeed. Whenever nothing happens it looks at its caller's context, and
gives up its walk if that is over.
-/

namespace Courier

structure Trade where
  root : Cid
  candidates : List Candidate
  context : Context
  deriving Repr

namespace Trade

def starts (l : List Candidate) : List Happening :=
  l.map fun c => .providerStarted c.provider .bitswap

def failures (l : List Candidate) (e : Error) : List Happening :=
  l.map fun c => .providerFailed c.provider .bitswap e

inductive Stage where
  | called
  | walking (k : Exchange.Key) (began : Instant)
  | over (r : Except Error Stats)
  /-- The walk was to have more slots than there can be. -/
  | crashed
  deriving Repr

structure State where
  moment : Moment
  exchange : Exchange
  stage : Stage := .called
  told : List Happening := []
  deriving Repr

inductive Deed where
  /-- A fetch goes on or gets its answer, or another retrieval does something. -/
  | exchange (a : Exchange.Action)
  /-- The sink has taken a block of this retrieval, or has not. -/
  | written (r : Except Error Unit)
  deriving Repr

/-- A deed as this retrieval lets it happen. Its walk heeds the context it was called with, and
nobody else writes for it or drops it. -/
def amend (t : Trade) (x : Exchange) (m : Moment) (k : Exchange.Key) :
    Deed → Option Exchange.Action
  | .written r => some (.written k r)
  | .exchange (.written k' r) => if k' = k then none else some (.written k' r)
  | .exchange (.drop k') => if k' = k then none else some (.drop k')
  | .exchange (.answer ticket ended a) =>
    if (x.owner? ticket).any (·.1 = k) then some (.answer ticket (t.context.error? m) a)
    else some (.answer ticket ended a)
  | .exchange a => some a

/-- Who delivered the root of a walk, if that was just now. -/
def firsts (k : Exchange.Key) (es : List Exchange.Effect) : List ProviderId :=
  es.filterMap fun
    | .firstBlock k' p => if k' = k then some p else none
    | _ => none

def ending? (k : Exchange.Key) (es : List Exchange.Effect) :
    Option (Except Error Exchange.Tally) :=
  es.findSome? fun
    | .finish k' r => if k' = k then some r else none
    | _ => none

def fail (t : Trade) (s : State) (e : Error) : State :=
  { s with stage := .over (.error e), told := s.told ++ failures t.candidates e }

def enter (t : Trade) (s : State) : State :=
  let s := { s with told := s.told ++ starts t.candidates }
  match t.context.error? s.moment with
  | some e => t.fail s e
  | none =>
    if s.exchange.admits then
      { s with
        exchange := (s.exchange.start t.root (t.candidates.map (·.provider))).2.1
        stage := .walking s.exchange.fresh s.moment.now }
    else { s with stage := .crashed }

def heed (t : Trade) (s : State) (k : Exchange.Key) (began : Instant) (a : Exchange.Action) :
    State :=
  let (x, es) := s.exchange.step a
  let duration := s.moment.now.since began
  let s := { s with
    exchange := x
    told := s.told ++ (firsts k es).map fun p => .firstByte p .bitswap duration }
  match ending? k es with
  | none => s
  | some (.ok tally) => { s with stage := .over (.ok (tally.stats t.root duration)) }
  | some (.error e) => t.fail s e

def look (t : Trade) (s : State) (k : Exchange.Key) : State :=
  match t.context.error? s.moment with
  | none => s
  | some e => t.fail { s with exchange := (s.exchange.drop k).1 } e

/-- What others do meanwhile. -/
def State.stand (s : State) : Option Deed → State
  | some (.exchange a) => { s with exchange := (s.exchange.step a).1 }
  | _ => s

def next (t : Trade) (s : State) (g : Glance Deed) : State :=
  let s := { s with moment := s.moment.after g }
  match s.stage, g.came with
  | .called, none => t.enter s
  | .walking k _, none => t.look s k
  | .walking k began, some d =>
    match t.amend s.exchange s.moment k d with
    | some a => t.heed s k began a
    | none => s
  | _, d => s.stand d

/-- Runs a retrieval that is called at some moment. -/
def run (t : Trade) (m : Moment) (x : Exchange) (gs : List (Glance Deed)) : State :=
  gs.foldl t.next { moment := m, exchange := x }

end Trade

end Courier
