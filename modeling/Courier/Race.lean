import Courier.Event
/-!
# Racing protocols

The retrievals of several protocols run side by side. The first success wins;
a failure counts only if it is the last.
-/

namespace Courier

/-- Who still runs, or how it ended. -/
inductive Race where
  | running (entrants : List Protocol)
  | over (result : Except Error Stats)
  deriving Repr

namespace Race

def settle (p : Protocol) (r : Except Error Stats) : Race → Race
  | .over result => .over result
  | .running entrants =>
    match r with
    | .ok stats => .over (.ok stats)
    | .error e =>
      match entrants.filter (· ≠ p) with
      | [] => .over (.error e)
      | left => .running left

end Race

end Courier
