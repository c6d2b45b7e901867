import Courier.Archive.Reader
/-!
# Reading chunk by chunk

A stream is cut into chunks and read as they arrive. Reading after every chunk and
reading only once the frame at the front may be complete give the same
(`readWhenDue_eq_readChunks`), but the second looks at each octet of a long frame
once and not at every chunk.
-/

namespace Courier.Archive

/-- A byte string cut into chunks of `size` octets. -/
def chunks (size : Nat) (s : Bytes) : List Bytes := go s.length s
where
  go : Nat → Bytes → List Bytes
    | 0, _ => []
    | n + 1, s => if s = [] then [] else s.take size :: go n (s.drop size)

namespace Reader

/-- Pushes chunks, draining after each, up to the first fault. -/
def readChunks : Reader → List Bytes → Reader × List Block × Option Fault
  | r, [] => (r, [], none)
  | r, c :: cs =>
    match (r.push c).drain with
    | (r, bs, some e) => (r, bs, some e)
    | (r, bs, none) =>
      let (r, rest, e) := readChunks r cs
      (r, bs ++ rest, e)

/-- How much of the frame at the front has not arrived, as far as that is known. -/
def lacking (r : Reader) : Nat :=
  match frameLength r.buffer with
  | .ok (some (n, rest)) => if maxFrame < n then 0 else n - rest.length
  | _ => 0

/-- Keeps chunks, the last of them first, until they have `lack` octets, and then pushes and
drains. -/
def readHeld : Nat → List Bytes → Reader → List Bytes → Reader × List Block × Option Fault
  | _, held, r, [] => (r.push held.reverse.flatten, [], none)
  | lack, held, r, c :: cs =>
    if c.length < lack then readHeld (lack - c.length) (c :: held) r cs
    else
      match (r.push (c :: held).reverse.flatten).drain with
      | (r, bs, some e) => (r, bs, some e)
      | (r, bs, none) =>
        let (r, rest, e) := readHeld r.lacking [] r cs
        (r, bs ++ rest, e)

/-- Pushes chunks, draining once the frame at the front may be complete, up to the first fault. -/
def readWhenDue (r : Reader) (cs : List Bytes) : Reader × List Block × Option Fault :=
  readHeld r.lacking [] r cs

/-! ## Nothing is missed -/

theorem push_nil (r : Reader) : r.push [] = r := by simp [push]

theorem push_push (r : Reader) (a b : Bytes) : (r.push a).push b = r.push (a ++ b) := by
  simp [push]

theorem lacking_eq {r : Reader} {n : Nat} {rest : Bytes} (hn : n ≤ maxFrame)
    (h : frameLength r.buffer = .ok (some (n, rest))) : r.lacking = n - rest.length := by
  simp only [lacking, h]
  exact if_neg (by omega)

theorem exists_of_lacking_pos {r : Reader} (h : 0 < r.lacking) :
    ∃ n rest, n ≤ maxFrame ∧ frameLength r.buffer = .ok (some (n, rest)) := by
  unfold lacking at h
  split at h
  · next n rest hf =>
    split at h
    · omega
    · exact ⟨n, rest, by omega, hf⟩
  · omega

theorem splitFrame_of_lacking {r : Reader} (h : 0 < r.lacking) :
    splitFrame r.buffer = .ok none := by
  obtain ⟨n, rest, hn, hf⟩ := exists_of_lacking_pos h
  have hl := lacking_eq hn hf
  have : ¬ (n = 0 ∨ maxFrame < n) := by omega
  simp only [splitFrame, hf, this, if_false, List.length_take]
  rw [if_pos (by omega)]

theorem drain_of_lacking {r : Reader} (h : 0 < r.lacking) : r.drain = (r, [], none) := by
  have hn : r.next = (r, .ok none) := by
    by_cases hd : r.headerDone <;>
      simp [next, nextSection, hd, splitFrame_of_lacking h]
  simp [drain, drainWithin, hn]

theorem lacking_push {r : Reader} {c : Bytes} (h : c.length < r.lacking) :
    (r.push c).lacking = r.lacking - c.length := by
  obtain ⟨n, rest, hn, hf⟩ := exists_of_lacking_pos (Nat.zero_lt_of_lt h)
  rw [lacking_eq hn hf, lacking_eq (r := r.push c) hn (frameLength_append hf c), List.length_append]
  omega

theorem readHeld_eq (r : Reader) (held cs : List Bytes) :
    readHeld (r.push held.reverse.flatten).lacking held r cs =
      (r.push held.reverse.flatten).readChunks cs := by
  induction cs generalizing r held with
  | nil => rfl
  | cons c cs ih =>
    have hp : (r.push held.reverse.flatten).push c = r.push (c :: held).reverse.flatten := by
      simp [push_push]
    simp only [readHeld, readChunks, hp]
    split
    · next h =>
      have hl := lacking_push h
      rw [hp] at hl
      rw [← hl, ih, drain_of_lacking (by omega)]
      rfl
    · next h =>
      split
      · rfl
      · next r' bs _ =>
        have := ih r' []
        simp only [List.reverse_nil, List.flatten_nil, push_nil] at this
        rw [this]

theorem readWhenDue_eq_readChunks (r : Reader) (cs : List Bytes) :
    r.readWhenDue cs = r.readChunks cs := by
  have := readHeld_eq r [] cs
  simpa only [readWhenDue, List.reverse_nil, List.flatten_nil, push_nil] using this

end Reader

end Courier.Archive
