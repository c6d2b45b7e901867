import Courier.Context
/-!
# Glances

Whoever waits under a context looks up from time to time. By then some time has
passed and some signals may have been given, and what was waited for has come
or not.
-/

namespace Courier

structure Glance (α : Type) where
  /-- Since the one before. -/
  elapsed : Nat := 0
  given : List Signal := []
  came : Option α := none
  deriving Repr

/-- The moment of a glance. A signal that nobody has is not given. -/
def Moment.after (m : Moment) {α : Type} (g : Glance α) : Moment :=
  { m with now := m.now + g.elapsed, given := g.given.filter (· < m.fresh) ++ m.given }

/-- Only signals that somebody has were given. -/
def Moment.Sane (m : Moment) : Prop := ∀ s ∈ m.given, s < m.fresh

end Courier
