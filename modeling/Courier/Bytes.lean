/-!
# Byte strings

A byte string is a list of octets, so that the codecs of this library are
recursions over their input. The order is bytewise, shorter first among
strings that begin alike.
-/

namespace Courier

abbrev Bytes := List UInt8

namespace Bytes

def compare : Bytes → Bytes → Ordering
  | [], [] => .eq
  | [], _ :: _ => .lt
  | _ :: _, [] => .gt
  | a :: r, b :: s => if a < b then .lt else if b < a then .gt else compare r s

def le (a b : Bytes) : Bool := compare a b != .gt

/-- Sorted bytewise, each string once. -/
def sortedDistinct (l : List Bytes) : List Bytes :=
  (l.mergeSort le).foldr (fun b r => if r.head? = some b then r else b :: r) []

def ofText (s : String) : Bytes := s.toList.flatMap String.utf8EncodeChar

def text? (b : Bytes) : Option String := String.fromUTF8? b.toByteArray

theorem toByteArray_ofText (s : String) : (ofText s).toByteArray = s.toByteArray :=
  String.utf8Encode_toList

theorem text?_eq_some_iff {b : Bytes} {s : String} : text? b = some s ↔ b = ofText s := by
  unfold text? String.fromUTF8?
  rw [← List.toByteArray_inj, toByteArray_ofText]
  constructor
  · intro h
    split at h
    · cases h
      rfl
    · cases h
  · intro h
    rw [h, dif_pos s.isValidUTF8]
    rfl

theorem text?_ofText (s : String) : text? (ofText s) = some s := text?_eq_some_iff.mpr rfl

theorem ofText_inj {s t : String} (h : ofText s = ofText t) : s = t := by
  have := congrArg text? h
  rwa [text?_ofText, text?_ofText, Option.some.injEq] at this

/-- The `n` low octets of a number, most significant first. -/
def bigEndian : Nat → Nat → Bytes
  | 0, _ => []
  | n + 1, v => bigEndian n (v / 256) ++ [UInt8.ofNat (v % 256)]

@[simp] theorem length_bigEndian (n v : Nat) : (bigEndian n v).length = n := by
  induction n generalizing v with
  | zero => rfl
  | succ n ih => simp [bigEndian, ih]

end Bytes

end Courier
