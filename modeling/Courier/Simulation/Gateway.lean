import Courier.Attempt.Download
import Courier.Simulation.World
import Courier.Url.Target
/-!
# Gateways in a simulated world

A gateway answers at once or never. Where nobody listens the request fails, and
so it does if its address cannot be read or sent.
-/

namespace Courier.Simulation

/-- What a gateway comes up with next. -/
inductive Answer where
  | input (i : Input)
  /-- Nothing, ever. -/
  | nothing
  deriving Repr

def gatewayOf? (endpoint : String) : Sim (Option Gateway) := do
  match Url.parse? endpoint with
  | none => return none
  | some u => return (← get).gateways.lookup (String.ofList u.site)

/-- The words for a status that is no success. -/
def statusFault (g : Gateway) (url : String) : Option String :=
  if g.status < 400 then none
  else
    let kind := if g.status < 500 then "client" else "server"
    some ("HTTP status " ++ kind ++ " error (" ++ Nat.repr g.status ++ " " ++ g.reason ++
      ") for url (" ++ url ++ ")")

def respond (endpoint : String) (root : Cid) : Sim Answer := do
  let fails (s : String) : Answer := .input (.failure (.failed (.request s)))
  match Url.target (Download.url endpoint root) with
  | .error f => return fails f.message
  | .ok u =>
    match ← gatewayOf? endpoint with
    | none => return fails ("error sending request for url (" ++ u.text ++ ")")
    | some g =>
      if g.silent then return .nothing
      match statusFault g u.text with
      | some s => return fails s
      | none => return .input .response

/-- What comes after some pieces of a body. -/
def nextPiece (endpoint : String) (taken : Nat) : Sim Answer := do
  match ← gatewayOf? endpoint with
  | none => return .nothing
  | some g =>
    match g.pieces[taken]? with
    | some s => return .input (.body s)
    | none =>
      match g.bodyEnd with
      | .complete => return .input .bodyEnd
      | .cut => return .input (.failure (.failed (.body "error decoding response body")))
      | .stall => return .nothing

end Courier.Simulation
