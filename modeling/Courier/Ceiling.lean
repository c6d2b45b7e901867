import Courier.Context
/-!
# The time a fetch may take

Every fetch runs under a child of its caller's context that ends after the
global timeout, if there is one. The child is cancelled when the fetch is over,
however it ends.
-/

namespace Courier

/-- The context of a fetch, and the signal to give once it is over. -/
structure Ceiling where
  context : Context
  signal : Option Signal := none
  deriving DecidableEq, Repr

namespace Ceiling

/-- The child context of a fetch that begins; a limit of zero is none. -/
def impose (c : Context) (m : Moment) (limit : Duration) : Ceiling × Moment :=
  if limit.isZero then ({ context := c }, m)
  else
    let (child, signal, m) := c.withTimeout m limit
    ({ context := child, signal := some signal }, m)

def lift (c : Ceiling) (m : Moment) : Moment :=
  match c.signal with
  | some s => m.give s
  | none => m

end Ceiling

end Courier
