import Courier.Archive.Section
import Courier.Block
/-!
# Reading an archive as it arrives

An archive is a sequence of frames, each a variable length integer and as many
octets. The first frame is a header, which is skipped; every other one is a
section, an identifier followed by the data of its block. The reader takes the
stream in chunks of any size. A fault in the length of a frame takes nothing
away, so it comes again; a section with a bad identifier is taken away.
-/

namespace Courier.Archive

def maxFrame : Nat := 4 * 1024 * 1024

/-- What has arrived and is not read yet, and how far the reading is. -/
structure Reader where
  buffer : Bytes := []
  headerDone : Bool := false
  blocks : Nat := 0
  deriving DecidableEq, Repr

/-- The length in front of a frame and what follows it, once it is all there. -/
def frameLength (s : Bytes) : Except Fault (Option (Nat × Bytes)) :=
  if (s.take Varint.maxLength).any (fun b => b.toNat < 128) then
    match Varint.read s with
    | some r => .ok (some r)
    | none => .error .invalidVarint
  else if s.length < Varint.maxLength then .ok none
  else .error .varintTooLong

/-- The first frame and what follows it, once it is all there. -/
def splitFrame (s : Bytes) : Except Fault (Option (Bytes × Bytes)) :=
  match frameLength s with
  | .error e => .error e
  | .ok none => .ok none
  | .ok (some (n, r)) =>
    if n = 0 ∨ maxFrame < n then .error (.frameLength n)
    else
      let frame := r.take n
      if frame.length < n then .ok none else .ok (some (frame, r.drop n))

theorem frameLength_append {n : Nat} {s r : Bytes} (h : frameLength s = .ok (some (n, r)))
    (t : Bytes) : frameLength (s ++ t) = .ok (some (n, r ++ t)) := by
  unfold frameLength at h
  split at h
  · next hs =>
    split at h
    · next hr =>
      cases h
      have hst : ((s ++ t).take Varint.maxLength).any (fun b => b.toNat < 128) := by
        rw [List.take_append, List.any_append, hs, Bool.true_or]
      simp [frameLength, hst, Varint.read, Varint.readWithin_append hr t]
    · cases h
  · split at h <;> cases h

def sectionBlock (s : Bytes) : Except Fault Block :=
  match layout s with
  | .error e => .error e
  | .ok l => .ok { cid := ⟨s.take l.stop⟩, data := s.drop l.stop }

namespace Reader

def push (r : Reader) (chunk : Bytes) : Reader := { r with buffer := r.buffer ++ chunk }

/-- The next block of a reader past the header. -/
def nextSection (r : Reader) : Reader × Except Fault (Option Block) :=
  match splitFrame r.buffer with
  | .error e => (r, .error e)
  | .ok none => (r, .ok none)
  | .ok (some (frame, rest)) =>
    match sectionBlock frame with
    | .error e => ({ r with buffer := rest }, .error e)
    | .ok b => ({ r with buffer := rest, blocks := r.blocks + 1 }, .ok (some b))

/-- The next block, or none if more of the stream is needed. -/
def next (r : Reader) : Reader × Except Fault (Option Block) :=
  if r.headerDone then r.nextSection
  else
    match splitFrame r.buffer with
    | .error e => (r, .error e)
    | .ok none => (r, .ok none)
    | .ok (some (_, rest)) => nextSection { r with buffer := rest, headerDone := true }

def finish (r : Reader) : Except Fault Unit :=
  if r.headerDone = false then .error .noHeader
  else if r.buffer ≠ [] then .error (.truncated r.buffer.length)
  else .ok ()

/-- At most `n` blocks and how the reading of them ended. -/
def drainWithin : Nat → Reader → Reader × List Block × Option Fault
  | 0, r => (r, [], none)
  | n + 1, r =>
    match r.next with
    | (r, .error e) => (r, [], some e)
    | (r, .ok none) => (r, [], none)
    | (r, .ok (some b)) =>
      let (r, bs, e) := drainWithin n r
      (r, b :: bs, e)

/-- Every block that is complete. A block takes two octets at the least. -/
def drain (r : Reader) : Reader × List Block × Option Fault :=
  drainWithin (r.buffer.length + 1) r

end Reader

end Courier.Archive
