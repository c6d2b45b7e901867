import Courier.Attempt.Basic
/-!
# Data transfers

A provider is asked for all blocks of a graph at once. They must start with the
root, and are written in the order in which they came.
-/

namespace Courier.Transfer

inductive Phase where
  | acquiring
  | transferring (began : Instant)
  | storing (began : Instant) (block : Block) (others : List Block) (size blocks : Nat)
  deriving DecidableEq, Repr

def demand : Phase → Demand
  | .acquiring => .permit
  | .transferring _ => .transfer
  | .storing _ b _ _ _ => .writing b

/-- Writes the next of some blocks, if there is one. `blocks` counts all of them. -/
def store (began : Instant) (size blocks : Nat) : List Block → Outcome Phase
  | [] => .succeeds began size blocks
  | b :: others => .goes (.storing began b others (size + b.data.length) blocks)

/-- Takes a transfer on. What it does not wait for leaves it as it is. -/
def step (root : Cid) (now : Instant) : Phase → Input → Advance Phase
  | _, .failure e => { outcome := .fails e }
  | .acquiring, .permit => { outcome := .goes (.transferring now) }
  | .transferring began, .transfer blocks => {
      first := some (now.since began)
      outcome :=
        if (blocks.head?.map (·.cid)) = some root then store began 0 blocks.length blocks
        else .fails (.failed .transferStart) }
  | .storing began _ others size blocks, .written => { outcome := store began size blocks others }
  | phase, _ => { outcome := .goes phase }

/-- A provider that took too long did not end its caller's context. -/
def report (e : Error) : Error := if e.isContext then .failed .providerTimedOut else e

def transport : Transport Phase where
  protocol := .graphsync
  start _ := .ok .acquiring
  demand := demand
  step := step
  report := report

end Courier.Transfer
