import Courier.Ident
/-!
# Blocks
-/

namespace Courier

/-- A piece of content. Its links are known only to whoever produced it. -/
structure Block where
  cid : Cid
  data : Bytes
  links : List Cid := []
  deriving DecidableEq, Repr, Inhabited

def totalSize (blocks : List Block) : Nat := blocks.foldr (·.data.length + ·) 0

theorem totalSize_append (a b : List Block) : totalSize (a ++ b) = totalSize a + totalSize b := by
  induction a with
  | nil => simp [totalSize]
  | cons x a ih => simpa [totalSize, Nat.add_assoc] using ih

theorem totalSize_perm {a b : List Block} (h : a.Perm b) : totalSize a = totalSize b := by
  induction h with
  | nil => rfl
  | cons x _ ih => simpa [totalSize] using ih
  | swap x y l => simp only [totalSize, List.foldr_cons]; omega
  | trans _ _ ih ih' => exact ih.trans ih'

end Courier
