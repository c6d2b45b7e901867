import Courier.Text.Canonical.Form
import Courier.Text.Cursive
import Courier.Text.Direction
import Courier.Url.Folding
import Courier.Url.Punycode
/-!
# Labels of host names

A label is a part of a host name between two dots. It is written in small ASCII
letters. A label with other characters is `xn--` and the Punycode of it, and a
label that starts so has to be such a one.

Some characters are refused in a label, or have to stand in certain places: no
label begins with a mark, joiners stand where a script has a use for them, and in
a name with letters that run to the left no label mixes directions.
-/

namespace Courier.Url

/-- A label as it is read and as it is written. -/
structure Label where
  text : List Char
  ascii : List Char
  deriving DecidableEq, Repr, Inhabited

namespace Label

/-! ## Joiners -/

/-- The rank of the marks that silence the vowel of a letter. -/
def silencer : Nat := 9

/-- Whether a letter without its vowel comes before. The text is written backwards. -/
def isSilent (before : List Char) : Bool :=
  before.head?.any fun c => Canonical.rank c = silencer

/-- Whether two letters would be joined if nothing stood between them. The text before is written
backwards. -/
def areJoined (before after : List Char) : Bool :=
  (before.dropWhile Cursive.isPassedOver).head?.any Cursive.joinsNext &&
    (after.dropWhile Cursive.isPassedOver).head?.any Cursive.joinsBefore

/-- Whether joiners stand where they may: either kind after a letter without its vowel, and the
one that parts letters also between letters that would be joined. -/
def joinersFit (before : List Char) : List Char → Bool
  | [] => true
  | c :: r =>
    (if c = '\u200d' then isSilent before
      else if c = '\u200c' then isSilent before || areJoined before r
      else true) && joinersFit (c :: before) r

/-! ## Directions -/

/-- Whether a label makes its name one with letters that run to the left. -/
def runsLeft (w : List Char) : Bool :=
  w.any fun c => Direction.ofChar c = .leftward || Direction.ofChar c = .arabicNumber

/-- Whether some directions may be mixed in one label. The last one is that of the last character
other than a mark. -/
def mayMix (ds : List Direction) : Bool :=
  match ds.head?, (ds.reverse.dropWhile (· = .mark)).head? with
  | none, _ => true
  | some .rightward, some last =>
    !ds.contains .leftward && !ds.contains .arabicNumber &&
      (last = .rightward || last = .number)
  | some .leftward, some last =>
    !ds.contains .rightward && !(ds.contains .number && ds.contains .arabicNumber) &&
      last != .sign
  | _, _ => false

def fitsLeft (w : List Char) : Bool := mayMix (w.map Direction.ofChar)

/-! ## Reading -/

/-- What marks a label as Punycode. -/
def flag : List Char := ['x', 'n', '-', '-']

/-- The most characters of a label that is written in Punycode, and of what is read from it. -/
def longest : Nat := 1000

/-- The most characters of Punycode in a label. -/
def longestCode : Nat := 2000

/-- Whether a text with other characters than ASCII can be a label. -/
def isFit (w : List Char) : Bool :=
  !w.any Folding.isRefused && !w.head?.any Mark.isMark && joinersFit [] w &&
    decide (w.length ≤ longest)

/-- The label that is written so, in small letters and in canonical form. -/
def ofChars? (cs : List Char) : Option Label :=
  if flag.isPrefixOf cs then do
    let code := cs.drop flag.length
    if longestCode < code.length || !code.all Punycode.isBasic then none
    let w ← Punycode.decode? code
    if w.all Punycode.isBasic || Canonical.form (w.flatMap Folding.fold) ≠ w then none
    if isFit w then some ⟨w, cs⟩ else none
  else if cs.all Punycode.isBasic then some ⟨cs, cs⟩
  else if isFit cs then some ⟨cs, flag ++ Punycode.encode cs⟩
  else none

end Label

end Courier.Url
