import Courier.Text.Canonical.Parts
import Courier.Text.Canonical.Rank
/-!
# One form for equal texts

Texts are equal in the eyes of a reader if they are made of the same characters
with the same marks. The canonical form takes everything apart, puts the marks of
a character in the order of their ranks, and puts together what can be.
-/

namespace Courier.Canonical

/-! ## The order of marks -/

/-- The text with the marks of each character in the order of their ranks. Those of one rank keep
theirs. -/
def order (cs : List Char) : List Char :=
  (cs.splitBy fun _ c => rank c ≠ 0).flatMap (·.mergeSort fun c d => rank c ≤ rank d)

/-! ## Putting together -/

/-- Whether nothing stands between a character and a mark to come, apart from marks of lower
rank. The marks so far are written backwards. -/
def reaches (marks : List Char) (c : Char) : Bool :=
  marks.head?.all fun m => decide (rank m < rank c)

/-- Puts together what can be, of a character with some marks, the last of them first, and of the
text after it. -/
def joinFrom (base : Char) (marks : List Char) : List Char → List Char
  | [] => base :: marks.reverse
  | c :: r =>
    match if reaches marks c then join? base c else none with
    | some whole => joinFrom whole marks r
    | none =>
      if rank c = 0 then base :: marks.reverse ++ joinFrom c [] r
      else joinFrom base (c :: marks) r

/-- Puts together what can be. Marks that belong to nothing stay as they are. -/
def joinAll : List Char → List Char
  | [] => []
  | c :: r => if rank c = 0 then joinFrom c [] r else c :: joinAll r

def form (cs : List Char) : List Char := joinAll (order (cs.flatMap parts))

end Courier.Canonical
