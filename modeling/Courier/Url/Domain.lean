import Courier.Text.Split
import Courier.Url.Label
/-!
# Domain names

A name is folded and brought into canonical form before it is parted at its dots.
-/

namespace Courier.Url.Domain

/-- Whether no name has a character. -/
def isForbidden (c : Char) : Bool :=
  decide (c.toNat ≤ 32) || decide (127 ≤ c.toNat) || "%#/:<>?@[\\]^|".toList.contains c

/-- The labels of a name, if all of them are such and go together. -/
def labels? (name : List Char) : Option (List Label) := do
  if name.any Folding.isRefused then none
  let folded := Canonical.form (name.flatMap Folding.fold)
  let labels ← (Split.partsAt (· = '.') folded).mapM Label.ofChars?
  if labels.any (Label.runsLeft ·.text) && !labels.all (Label.fitsLeft ·.text) then none
  return labels

def toAscii? (name : List Char) : Option (List Char) := do
  let s := ['.'].intercalate ((← labels? name).map (·.ascii))
  if s.any isForbidden then none else some s

end Courier.Url.Domain
