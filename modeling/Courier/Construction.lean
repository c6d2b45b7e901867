import Courier.Config.Basic
import Courier.Context.Watch
import Courier.Registry
/-!
# Constructing an instance

A finder and a host are made unless the configuration has them; then come the
session, the retrievers of the known protocols in the order in which they are
listed, the orchestrator, and its start. Whoever makes the parts decides what it
takes, so the steps are those of any monad in which making something may fail.
-/

namespace Courier

/-- What makes the parts of an instance. There are sessions `σ`, retrievers `ρ` of one protocol
each, and orchestrators `ω`. -/
structure Builder (m : Type → Type) (σ ρ ω : Type) where
  finder : m Collaborator
  host : Json.Object → m Collaborator
  session : Policy → (live : Bool) → m σ
  retriever : Protocol → Config → σ → Collaborator → m ρ
  orchestrator : σ → Collaborator → Registry ρ → m ω
  start : ω → m Unit

structure Instance (ω : Type) where
  config : Config
  orchestrator : ω

def Builder.build [Monad m] (b : Builder m σ ρ ω) (config : Config) : m (Instance ω) := do
  let config := config.setDefaults
  let finder ← config.finder.getDM b.finder
  let host ← config.host.getDM (b.host config.networkOptions)
  let config := { config with finder := some finder, host := some host }
  let session ← b.session config.policy true
  let registry ← Registry.fill (b.retriever · config session host) {} config.protocols
  let orchestrator ← b.orchestrator session finder registry
  b.start orchestrator
  return ⟨config, orchestrator⟩

namespace Construction

/-! ## Under a context -/

inductive Step where
  | finder
  | host
  | session
  | retriever (p : Protocol)
  | orchestrator
  | start
  deriving DecidableEq, Repr

/-- The steps that were taken, each with what came of it, which is nothing if it goes on forever. -/
abbrev Past := List (Step × Option (Except Error Unit))

/-- What makes the parts, each given what came before. A session, an orchestrator and its start
are there at once. -/
structure Factories (σ ρ ω : Type) where
  finder : Past → Making Collaborator
  host : Past → Json.Object → Making Collaborator
  session : Past → Policy → Bool → σ
  retriever : Past → Protocol → Config → σ → Collaborator → Making ρ
  orchestrator : Past → σ → Collaborator → Registry ρ → Except Error ω
  start : Past → ω → Except Error Unit

/-- Steps that are remembered. They stop with an error, or never come to an end. -/
abbrev Trial := ExceptT (Option Error) (StateM Past)

/-- Only what is done can be gone on with. -/
def orStop : Option (Except Error α) → Except (Option Error) α
  | some (.ok a) => .ok a
  | some (.error e) => .error (some e)
  | none => .error none

/-- Takes a step of which this comes. -/
def take (s : Step) (r : Option (Except Error α)) : Trial α := do
  modify (· ++ [(s, r.map fun r => r.map fun _ => ())])
  ExceptT.mk (return orStop r)

/-- The factories under a context that is watched. -/
def Factories.builder (f : Factories σ ρ ω) (w : Watch) : Builder Trial σ ρ ω where
  finder := do take .finder (((f.finder (← get)).settle w).map (·.2))
  host o := do take .host (((f.host (← get) o).settle w).map (·.2))
  session p live := do take .session (some (.ok (f.session (← get) p live)))
  retriever p c s h := do take (.retriever p) (((f.retriever (← get) p c s h).settle w).map (·.2))
  orchestrator s c r := do take .orchestrator (some (f.orchestrator (← get) s c r))
  start o := do take .start (some (f.start (← get) o))

end Construction

/-- A construction: the steps it took and what came of it, if anything did. -/
structure Construction (ω : Type) where
  taken : Construction.Past
  result : Option (Except Error (Instance ω))

/-- Constructs an instance from time `t` on, unless the context is over by then. -/
def Construction.run (f : Construction.Factories σ ρ ω) (w : Watch) (t : Instant) (config : Config) :
    Construction ω :=
  match w.error? t with
  | some e => ⟨[], some (.error e)⟩
  | none =>
    match StateT.run (ExceptT.run ((f.builder w).build config)) [] with
    | (.ok i, past) => ⟨past, some (.ok i)⟩
    | (.error stop, past) => ⟨past, stop.map .error⟩

end Courier
