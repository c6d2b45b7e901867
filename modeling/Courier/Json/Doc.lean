import Courier.Json.Value
/-!
# JSON text as far as it can be read

A document is the tree of a JSON text in which every fault stands at the place
where a reader meets it. What counts as a fault depends on whether a value is
kept or skipped: a skipped string may hold half a surrogate pair, a skipped
number may be too large, and a number that breaks off is merely malformed. A
reader that knows what it wants walks over the tree and stops at the first
fault, be it one of the text or a value of the wrong kind.
-/

namespace Courier.Json

inductive Fault where
  /-- The text is well formed and does not fit what is wanted. -/
  | mismatch
  | malformed
  | truncated
  deriving DecidableEq, Repr

inductive Ending where
  | closed
  | unclosed (fault : Fault) (afterComma : Bool)
  deriving DecidableEq, Repr

/-- A string, with the fault met when it is kept and the one met when it is skipped. -/
structure Quoted where
  kept : Except Fault String
  skipped : Option Fault

inductive Doc where
  | null
  | bool (b : Bool)
  | number (kept : Except Fault Number) (skipped : Option Fault)
  | text (s : Quoted)
  | list (items : List Doc) (ending : Ending)
  /-- Each member is a name, the fault in place of its colon, and a value. -/
  | object (members : List (Quoted × Option Fault × Doc)) (ending : Ending)
  /-- No value at all. -/
  | broken (fault : Fault)

instance : Inhabited Doc := ⟨.null⟩

/-! ## Words, numbers and strings -/

/-- The characters that may stand between tokens. -/
def isBlank (c : Char) : Bool := c = ' ' || c = '\n' || c = '\t' || c = '\r'

def skipBlanks (cs : List Char) : List Char := cs.dropWhile isBlank

/-- Takes the letters of a word that has begun. -/
def word : List Char → List Char → Except Fault (List Char)
  | [], cs => .ok cs
  | _ :: _, [] => .error .truncated
  | w :: ws, c :: cs => if w = c then word ws cs else .error .malformed

def isDigit (c : Char) : Bool := decide ('0' ≤ c ∧ c ≤ '9')

def ofDigits (ds : List Char) : Nat :=
  ds.foldl (fun n c => n * 10 + (c.toNat - 48)) 0

/-- The parts of a number as written. -/
structure Numeral where
  negative : Bool
  whole : List Char
  fraction : Option (List Char)
  exponent : Option Int

/-- A number stops short of its next digit: cut off by the end of the text, or by another
character. -/
inductive Numeral.Fault where
  | atEnd
  | atChar

/-- A row of digits, at least one. -/
def digits1 (cs : List Char) : Except Numeral.Fault (List Char × List Char) :=
  match cs with
  | [] => .error .atEnd
  | c :: _ => if isDigit c then .ok (cs.takeWhile isDigit, cs.dropWhile isDigit) else .error .atChar

/-- The whole part: a zero on its own, or digits that do not start with one. -/
def wholePart (cs : List Char) : Except Numeral.Fault (List Char × List Char) :=
  match cs with
  | '0' :: c :: r => if isDigit c then .error .atChar else .ok (['0'], c :: r)
  | cs => digits1 cs

def fractionPart (cs : List Char) :
    Except Numeral.Fault (Option (List Char) × List Char) :=
  match cs with
  | '.' :: r => (digits1 r).map fun (ds, r) => (some ds, r)
  | cs => .ok (none, cs)

def exponentDigits (negative : Bool) (cs : List Char) :
    Except Numeral.Fault (Option Int × List Char) :=
  (digits1 cs).map fun (ds, r) =>
    let n : Int := ofDigits ds
    (some (if negative then -n else n), r)

/-- A letter, a sign and digits, or nothing; the sign may be left out. -/
def exponentPart (cs : List Char) : Except Numeral.Fault (Option Int × List Char) :=
  match cs with
  | c :: r =>
    if c = 'e' ∨ c = 'E' then
      match r with
      | '+' :: r => exponentDigits false r
      | '-' :: r => exponentDigits true r
      | r => exponentDigits false r
    else .ok (none, cs)
  | [] => .ok (none, [])

def unsignedNumeral (negative : Bool) (cs : List Char) :
    Except Numeral.Fault (Numeral × List Char) := do
  let (whole, r) ← wholePart cs
  let (fraction, r) ← fractionPart r
  let (exponent, r) ← exponentPart r
  return (⟨negative, whole, fraction, exponent⟩, r)

def numeral (cs : List Char) : Except Numeral.Fault (Numeral × List Char) :=
  match cs with
  | '-' :: r => unsignedNumeral true r
  | cs => unsignedNumeral false cs

def digitValues (ds : List Char) : List Nat := ds.map fun c => c.toNat - 48

/-- An integer that fits 64 bits, else a number of 53 binary digits, as which minus zero counts. -/
def Numeral.number (x : Numeral) : Except Json.Fault Number :=
  let n := ofDigits x.whole
  if x.fraction.isNone ∧ x.exponent.isNone ∧ x.negative = false ∧ n < UInt64.size then
    .ok (.natural (UInt64.ofNat n))
  else if x.fraction.isNone ∧ x.exponent.isNone ∧ x.negative = true ∧ 0 < n ∧ n ≤ Nat.pow 2 63 then
    .ok (.negative n)
  else
    match Binary.ofDigits? (digitValues x.whole) (digitValues (x.fraction.getD []))
      (x.exponent.getD 0) with
    | some b => .ok (.binary x.negative b)
    | none => .error .malformed

def hexValue? (c : Char) : Option Nat :=
  let n := c.toNat
  if 48 ≤ n ∧ n ≤ 57 then some (n - 48)
  else if 97 ≤ n ∧ n ≤ 102 then some (n - 87)
  else if 65 ≤ n ∧ n ≤ 70 then some (n - 55)
  else none

def hexQuad (a b c d : Char) : Option Nat := do
  let a ← hexValue? a
  let b ← hexValue? b
  let c ← hexValue? c
  let d ← hexValue? d
  return ((a * 16 + b) * 16 + c) * 16 + d

/-- The fault of an escape without its four digits: fewer than four octets are left, or they are
not digits. -/
def quadFault (cs : List Char) : Fault :=
  if (cs.take 4).foldr (·.utf8Size + ·) 0 < 4 then .truncated else .malformed

/-- What a letter after a backslash stands for. -/
def simpleEscape? (c : Char) : Option Char :=
  if c = '"' ∨ c = '\\' ∨ c = '/' then some c
  else if c = 'b' then some (Char.ofNat 8)
  else if c = 'f' then some (Char.ofNat 12)
  else if c = 'n' then some '\n'
  else if c = 'r' then some '\r'
  else if c = 't' then some '\t'
  else none

def skipString : List Char → Except Fault (List Char)
  | [] => .error .truncated
  | '"' :: r => .ok r
  | ['\\'] => .error .truncated
  | '\\' :: 'u' :: a :: b :: c :: d :: r =>
    if (hexQuad a b c d).isSome then skipString r
    else .error (quadFault (a :: b :: c :: d :: r))
  | '\\' :: c :: r =>
    if c = 'u' then .error (quadFault r)
    else if (simpleEscape? c).isSome then skipString r
    else .error .malformed
  | c :: r => if c.toNat < 32 then .error .malformed else skipString r

def isHighSurrogate (n : Nat) : Bool := decide (0xD800 ≤ n ∧ n ≤ 0xDBFF)

def isLowSurrogate (n : Nat) : Bool := decide (0xDC00 ≤ n ∧ n ≤ 0xDFFF)

def pairChar (hi lo : Nat) : Char :=
  Char.ofNat (0x10000 + (hi - 0xD800) * 1024 + (lo - 0xDC00))

/-- The fault of a high surrogate that no low one follows. -/
def pairFault : List Char → Fault
  | [] => .truncated
  | ['\\'] => .truncated
  | '\\' :: 'u' :: a :: b :: c :: d :: r =>
    if (hexQuad a b c d).isSome then .malformed else quadFault (a :: b :: c :: d :: r)
  | '\\' :: 'u' :: r => quadFault r
  | _ => .malformed

def keepString : List Char → Except Fault (List Char)
  | [] => .error .truncated
  | '"' :: _ => .ok []
  | ['\\'] => .error .truncated
  | '\\' :: 'u' :: a :: b :: c :: d :: r =>
    match hexQuad a b c d with
    | none => .error (quadFault (a :: b :: c :: d :: r))
    | some n =>
      if isLowSurrogate n then .error .malformed
      else if isHighSurrogate n then
        match r with
        | '\\' :: 'u' :: e :: f :: g :: h :: r' =>
          match hexQuad e f g h with
          | some m =>
            if isLowSurrogate m then (keepString r').map (pairChar n m :: ·)
            else .error (pairFault r)
          | none => .error (pairFault r)
        | r => .error (pairFault r)
      else (keepString r).map (Char.ofNat n :: ·)
  | '\\' :: c :: r =>
    if c = 'u' then .error (quadFault r)
    else
      match simpleEscape? c with
      | some x => (keepString r).map (x :: ·)
      | none => .error .malformed
  | c :: r => if c.toNat < 32 then .error .malformed else (keepString r).map (c :: ·)

/-- A string after its opening quote, and what follows it if anything can. -/
def quoted (cs : List Char) : Quoted × Option (List Char) :=
  let kept := (keepString cs).map String.ofList
  match skipString cs with
  | .ok r => (⟨kept, none⟩, some r)
  | .error e => (⟨kept, some e⟩, none)

/-! ## Trees -/

/-- The value of a word, its first letter taken. -/
def wordDoc (d : Doc) (letters : String) (cs : List Char) : Doc × Option (List Char) :=
  match word letters.toList cs with
  | .ok r => (d, some r)
  | .error e => (.broken e, none)

def numberDoc (cs : List Char) : Doc × Option (List Char) :=
  match numeral cs with
  | .ok (x, r) => (.number x.number none, some r)
  | .error .atEnd => (.number (.error .truncated) (some .malformed), none)
  | .error .atChar => (.number (.error .malformed) (some .malformed), none)

mutual

/-- The value at the start of a text, and what follows it if the reading can go on. -/
def value : Nat → List Char → Doc × Option (List Char)
  | 0, _ => (.broken .malformed, none)
  | fuel + 1, cs =>
    match skipBlanks cs with
    | [] => (.broken .truncated, none)
    | 'n' :: r => wordDoc .null "ull" r
    | 't' :: r => wordDoc (.bool true) "rue" r
    | 'f' :: r => wordDoc (.bool false) "alse" r
    | '"' :: r =>
      let (s, rest) := quoted r
      (.text s, rest)
    | '[' :: r =>
      match skipBlanks r with
      | [] => (.list [] (.unclosed .truncated false), none)
      | ']' :: r => (.list [] .closed, some r)
      | r =>
        let (ds, e, rest) := items fuel r
        (.list ds e, rest)
    | '{' :: r =>
      match skipBlanks r with
      | [] => (.object [] (.unclosed .truncated false), none)
      | '}' :: r => (.object [] .closed, some r)
      | '"' :: r =>
        let (ms, e, rest) := members fuel r
        (.object ms e, rest)
      | _ => (.object [] (.unclosed .malformed false), none)
    | c :: r =>
      if c = '-' ∨ isDigit c then numberDoc (c :: r) else (.broken .malformed, none)

/-- The items of a list, one at least. -/
def items : Nat → List Char → List Doc × Ending × Option (List Char)
  | 0, _ => ([], .unclosed .malformed false, none)
  | fuel + 1, cs =>
    match value fuel cs with
    | (d, none) => ([d], .unclosed .malformed false, none)
    | (d, some r) =>
      match skipBlanks r with
      | [] => ([d], .unclosed .truncated false, none)
      | ']' :: r => ([d], .closed, some r)
      | ',' :: r =>
        match skipBlanks r with
        | [] => ([d], .unclosed .truncated true, none)
        | ']' :: _ => ([d], .unclosed .malformed true, none)
        | r =>
          let (ds, e, rest) := items fuel r
          (d :: ds, e, rest)
      | _ => ([d], .unclosed .malformed false, none)

/-- The members of an object, one at least, the first one's opening quote taken. -/
def members : Nat → List Char → List (Quoted × Option Fault × Doc) × Ending × Option (List Char)
  | 0, _ => ([], .unclosed .malformed false, none)
  | fuel + 1, cs =>
    match quoted cs with
    | (k, none) => ([(k, none, .broken .malformed)], .unclosed .malformed false, none)
    | (k, some r) =>
      match skipBlanks r with
      | [] => ([(k, some .truncated, .broken .malformed)], .unclosed .malformed false, none)
      | ':' :: r =>
        match value fuel r with
        | (d, none) => ([(k, none, d)], .unclosed .malformed false, none)
        | (d, some r) =>
          match skipBlanks r with
          | [] => ([(k, none, d)], .unclosed .truncated false, none)
          | '}' :: r => ([(k, none, d)], .closed, some r)
          | ',' :: r =>
            match skipBlanks r with
            | [] => ([(k, none, d)], .unclosed .truncated true, none)
            | '"' :: r =>
              let (ms, e, rest) := members fuel r
              ((k, none, d) :: ms, e, rest)
            | _ => ([(k, none, d)], .unclosed .malformed true, none)
          | _ => ([(k, none, d)], .unclosed .malformed false, none)
      | _ => ([(k, some .malformed, .broken .malformed)], .unclosed .malformed false, none)

end

/-- A whole text: its value and the fault of anything that follows it. -/
structure Text where
  doc : Doc
  trailing : Option Fault

/-- Reads a text, blanks around the value included. -/
def Text.ofChars (cs : List Char) : Text :=
  match value (2 * cs.length + 2) cs with
  | (d, none) => ⟨d, none⟩
  | (d, some r) => ⟨d, if (skipBlanks r).isEmpty then none else some .malformed⟩

def Text.ofString (s : String) : Text := Text.ofChars s.toList

end Courier.Json
