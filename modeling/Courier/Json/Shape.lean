import Courier.Duration
import Courier.Json.Doc
/-!
# Reading what is wanted from a document

Each reader takes a document in the order of its text and stops at the first
fault. A record is an object whose known names come at most once, or a list of
its fields in their declared order.
-/

namespace Courier.Json

namespace Doc

/-! ## Skipping and keeping -/

mutual

/-- The first fault of a skipped value. -/
def skip : Doc → Option Fault
  | .null | .bool _ => none
  | .number _ f => f
  | .text s => s.skipped
  | .list items e => (skipItems items).or (endFault e)
  | .object ms e => (skipMembers ms).or (endFault e)
  | .broken f => some f

def skipItems : List Doc → Option Fault
  | [] => none
  | d :: r => (skip d).or (skipItems r)

def skipMembers : List (Quoted × Option Fault × Doc) → Option Fault
  | [] => none
  | (k, colon, d) :: r => k.skipped.or (colon.or ((skip d).or (skipMembers r)))

/-- The fault of an ending after the last item that is there. -/
def endFault : Ending → Option Fault
  | .closed => none
  | .unclosed f _ => some f

end

mutual

/-- A kept value may lie within fewer than `depth` lists and objects of its own. -/
def keep (depth : Nat) : Doc → Except Fault Value
  | .null => .ok .null
  | .bool b => .ok (.bool b)
  | .number kept _ => kept.map .number
  | .text s => s.kept.map .text
  | .list items e =>
    match depth with
    | 0 | 1 => .error .malformed
    | depth + 2 =>
      match keepItems (depth + 1) items with
      | .error f => .error f
      | .ok vs =>
        match endFault e with
        | some f => .error f
        | none => .ok (.list vs)
  | .object ms e =>
    match depth with
    | 0 | 1 => .error .malformed
    | depth + 2 =>
      match keepMembers (depth + 1) ms with
      | .error f => .error f
      | .ok vs =>
        match endFault e with
        | some f => .error f
        | none => .ok (.object (Object.ofList vs))
  | .broken f => .error f

def keepItems (depth : Nat) : List Doc → Except Fault (List Value)
  | [] => .ok []
  | d :: r => do
    let v ← keep depth d
    let vs ← keepItems depth r
    return v :: vs

def keepMembers (depth : Nat) :
    List (Quoted × Option Fault × Doc) → Except Fault (List (String × Value))
  | [] => .ok []
  | (k, colon, d) :: r => do
    let name ← k.kept
    match colon with
    | some f => throw f
    | none => pure ()
    let v ← keep depth d
    let vs ← keepMembers depth r
    return (name, v) :: vs

end

/-! ## Single values -/

/-- The fault of a value of the wrong kind. A list or an object is seen by its first character;
anything else is read first. -/
def wrongKind : Doc → Fault
  | .number (.error f) _ => f
  | .text ⟨.error f, _⟩ => f
  | .broken f => f
  | _ => .mismatch

/-- A natural number below `bound`. -/
def natural (bound : Nat) : Doc → Except Fault Nat
  | .number (.ok (.natural n)) _ => if n.toNat < bound then .ok n.toNat else .error .mismatch
  | d => .error d.wrongKind

def word64 (d : Doc) : Except Fault UInt64 := (d.natural UInt64.size).map UInt64.ofNat

def string : Doc → Except Fault String
  | .text s => s.kept
  | d => .error d.wrongKind

/-! ## Lists and records -/

def each (f : Doc → Except Fault α) : List Doc → Except Fault (List α)
  | [] => .ok []
  | d :: r => do
    let a ← f d
    let as ← each f r
    return a :: as

def listOf (f : Doc → Except Fault α) : Doc → Except Fault (List α)
  | .list items e => do
    let as ← each f items
    match endFault e with
    | some f => throw f
    | none => return as
  | d => .error d.wrongKind

def nullOr (f : Doc → Except Fault α) : Doc → Except Fault (Option α)
  | .null => .ok none
  | .broken f => .error f
  | d => (f d).map some

/-- An object of kept values, itself the `level`th list or object of the text. -/
def keptObject (level : Nat) : Doc → Except Fault Object
  | .object ms e => do
    let vs ← keepMembers (128 - level) ms
    match endFault e with
    | some f => throw f
    | none => return Object.ofList vs
  | d => .error d.wrongKind

end Doc

/-- How a record is read into a state `σ`: its fields in order, each with a name and a way to
read it, what becomes of unknown names, and a last look at the whole. -/
structure Shape (σ : Type) (ρ : Type) where
  fields : List (String × (Doc → σ → Except Fault σ))
  skipsUnknown : Bool
  start : σ
  finish : σ → Except Fault ρ

namespace Shape

def find? (fields : List (String × (Doc → σ → Except Fault σ))) (name : String) :
    Option (Doc → σ → Except Fault σ) :=
  (fields.find? fun f => f.1 = name).map (·.2)

/-- Reads members in order, knowing which names came before. -/
def readMembers (fields : List (String × (Doc → σ → Except Fault σ))) (skipsUnknown : Bool) :
    List String → σ → List (Quoted × Option Fault × Doc) → Except Fault σ
  | _, s, [] => .ok s
  | seen, s, (k, colon, d) :: r => do
    let name ← k.kept
    match find? fields name with
    | none =>
      if skipsUnknown then
        match colon.or d.skip with
        | some f => throw f
        | none => readMembers fields skipsUnknown seen s r
      else throw .mismatch
    | some take =>
      if name ∈ seen then throw .mismatch
      match colon with
      | some f => throw f
      | none =>
        let s ← take d s
        readMembers fields skipsUnknown (name :: seen) s r

/-- Reads items as fields; gives the state and the items left over. -/
def readItems : List (String × (Doc → σ → Except Fault σ)) → σ → List Doc →
    Except Fault (σ × Nat × List Doc)
  | [], s, ds => .ok (s, 0, ds)
  | fs, s, [] => .ok (s, fs.length, [])
  | f :: fs, s, d :: ds => do
    let s ← f.2 d s
    readItems fs s ds

def read (shape : Shape σ ρ) : Doc → Except Fault ρ
  | .object ms e => do
    let s ← readMembers shape.fields shape.skipsUnknown [] shape.start ms
    match Doc.endFault e with
    | some f => throw f
    | none => shape.finish s
  | .list items e => do
    let (s, missing, rest) ← readItems shape.fields shape.start items
    match missing, e with
    | 0, e =>
      let r ← shape.finish s
      match rest, e with
      | _ :: _, _ => throw .malformed
      | [], .closed => return r
      | [], .unclosed f afterComma => throw (if afterComma then .malformed else f)
    | _, .unclosed f _ => throw f
    | _, .closed => shape.finish s
  | d => .error d.wrongKind

end Shape

def Text.read (t : Text) (f : Doc → Except Fault α) : Except Fault α :=
  match f t.doc, t.trailing with
  | .error e, _ => .error e
  | .ok _, some e => .error e
  | .ok a, none => .ok a

def read (f : Doc → Except Fault α) (s : String) : Except Fault α := (Text.ofString s).read f

/-! ## Durations -/

namespace Shape

structure DurationFields where
  secs : Option Nat := none
  nanos : Option Nat := none

/-- Nanoseconds beyond a second carry into the seconds, which must still fit. -/
def duration : Shape DurationFields Duration where
  fields := [
    ("secs", fun d s => do return { s with secs := some (← d.natural UInt64.size) }),
    ("nanos", fun d s => do return { s with nanos := some (← d.natural UInt32.size) })]
  skipsUnknown := false
  start := {}
  finish
    | ⟨some s, some n⟩ =>
      if s + n / 1000000000 < UInt64.size then
        .ok ⟨UInt64.ofNat (s + n / 1000000000), n % 1000000000, Nat.mod_lt n (by decide)⟩
      else .error .mismatch
    | _ => .error .mismatch

end Shape

end Courier.Json
