import Courier.Construction
import Courier.Simulation.Hosts
import Courier.Simulation.World
/-!
# Constructing a simulated client

The collaborators of a simulated client are made one by one, each after the
action that comes first. The end of the context ends the construction.
-/

namespace Courier.Simulation

/-- An action that begins now. It is looked at now, when it is done and when the alarm of the
context goes off. -/
def Action.making (a : Action) (c : Context) (now : Instant) : Making Unit :=
  let p := a.begin now
  let due := if p.hangs then none else some p.due
  let alarms := (c.deadline.map Instant.alarm).toList ++ due.toList
  { due
    result := match p.error with
      | some e => .error e
      | none => .ok ()
    looks := now :: alarms.mergeSort (· ≤ ·) }

def await (c : Context) (a : Action) : Sim (Except Error Unit) := do
  let m := (← get).moment
  match (a.making c m.now).settle ⟨c, fun _ => m.given⟩ with
  | some (t, r) =>
    passTime t
    return r
  | none => return .error .cancelled

/-- Joins a network, and is reachable there under the identity it gets. -/
def joinNetwork (name : String) : Sim ProviderId :=
  modifyGet fun w =>
    let (network, id) := w.network.join name
    (id, { w with network, home := name })

/-- Makes the client's host from its options. -/
def makeHost (o : Json.Object) : Sim (Except Error ProviderId) := do
  match Network.ofOptions o with
  | .error e => return .error e
  | .ok name => return .ok (← joinNetwork name)

/-- Makes a client for transfers and waits until it is ready. One that was made this very moment
has yet to become so, and a context that is over does not wait for it. -/
def makeTransferClient (c : Context) : Sim (Except Error Unit) := do
  let cast := (← get).cast
  match ← await c cast.transferClient with
  | .error e => return .error e
  | .ok () =>
    let made ← now
    match ← await c cast.ready with
    | .error e => return .error e
    | .ok () =>
      match ← errorOf c with
      | some e => if (← now) = made then return .error e else return .ok ()
      | none => return .ok ()

/-- Makes the retriever of a known protocol, after what that takes. -/
def makeRetriever (c : Context) (config : Config) (p : Protocol) :
    Sim (Except Error Retriever) := do
  let cast := (← get).cast
  match ← await c ((cast.create.lookup p).getD {}) with
  | .error e => return .error e
  | .ok () =>
    match cast.retrieve.lookup p, p with
    | some s, _ => return .ok (.scripted p s)
    | none, .bitswap =>
      match Exchange.ofConfig? config with
      | some exchange => modify fun w => { w with exchange }
      | none => crash
      return .ok .exchange
    | none, .graphsync =>
      match ← makeTransferClient c with
      | .error e => return .error e
      | .ok () => return .ok .transfer
    | none, _ => return .ok .gateway

/-- What makes the parts of a simulated client. Each part is kept in the world. -/
def builder (c : Context) : Builder (ExceptT Error Sim) Unit Retriever Unit where
  finder := do
    addLog .finder
    ExceptT.mk (await c (← getThe World).cast.finderFactory)
    return ⟨"finder"⟩
  host o := do
    addLog (.host o)
    ExceptT.mk (await c (← getThe World).cast.hostFactory)
    let id ← ExceptT.mk (makeHost o)
    return ⟨id.text⟩
  session policy live := do
    addLog (.session live)
    modifyThe World fun w => { w with lending := { session := { policy } } }
  retriever p config _ _ := do
    addLog (.retriever p)
    ExceptT.mk (makeRetriever c config p)
  orchestrator _ _ registry := do
    addLog (.orchestrator registry.protocols)
    match (← getThe World).cast.orchestratorError with
    | some e => throw e
    | none => modifyThe World fun w => { w with registry }
  start _ := do
    match (← getThe World).cast.standIn with
    | some s =>
      addLog .start
      if let some e := s.startError then throw e
    | none => ExceptT.mk <| modifyGet fun w =>
      let (o, r) := w.orchestrator.launch
      (r, { w with orchestrator := o })

/-- Constructs a client; its configuration, if that succeeds. -/
def construct (c : Context) (config : Config) : Sim (Except Error Config) := do
  if let some e ← errorOf c then return .error e
  match ← (builder c).build config with
  | .error e => return .error e
  | .ok made =>
    modify fun w => { w with globalTimeout := made.config.globalTimeout }
    return .ok made.config

/-- Makes the retriever of one protocol by itself, with a host and a session of its own. Nobody
but the retriever keeps the host, and only the one that asks for blocks does. -/
def makeAlone (p : Protocol) (config : Config) : Sim (Except Error Retriever) := do
  match ← makeHost config.networkOptions with
  | .error e => return .error e
  | .ok id =>
    modify fun w => { w with lending := { session := { policy := config.policy } } }
    let made ← makeRetriever {} config p
    if p ≠ .bitswap then modify fun w => { w with network := w.network.leave id }
    return made

end Courier.Simulation
