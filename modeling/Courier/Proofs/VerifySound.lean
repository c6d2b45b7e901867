import Courier.Proofs.CommitmentSound

/-!
# An archive of blocks that verify

The digest of a block that verifies has 32 octets or is the data itself, so its
identifier is hardly longer than the data. With room for each of the blocks in a
frame there is room for a header that names one of them.
-/

namespace Courier.Archive

/-! ## Blocks that verify -/

theorem Carries.length_le {hash : Nat} {d c : Bytes} (h : Carries hash d c) :
    c.length ≤ 40 + d.length := by
  cases h with
  | bare =>
    simp only [List.length_cons]
    omega
  | numbered hv hc hh hl =>
    have := hv.short
    have := hc.short
    have := hh.short
    have := hl.short
    simp only [List.length_append]
    omega

theorem length_cid_le {b : Block} (h : verify b = .ok ()) :
    b.cid.bytes.length ≤ 40 + max 32 b.data.length := by
  obtain ⟨k, hk⟩ := verify_eq_ok_iff.mp h
  have hlen := Carries.length_le hk
  cases k with
  | sha256 =>
    rw [Hash.digest, Sha256.length_digest] at hlen
    omega
  | identity =>
    rw [Hash.digest] at hlen
    omega

/-! ## Headers -/

theorem length_head_le (kind n : Nat) : (head kind n).length ≤ 5 := by
  unfold head
  split
  · simp
  · split
    · simp
    · split <;> simp

theorem length_header_le (root : Cid) : (header [root]).length ≤ root.bytes.length + 40 := by
  have hroots : (textItem "roots").length = 6 := by decide
  have hversion : (textItem "version").length = 8 := by decide
  have hmap := length_head_le 5 2
  have harray := length_head_le 4 (0 + 1)
  have htag := length_head_le 6 42
  have hbytes := length_head_le 2 (root.bytes.length + 1)
  have hone := length_head_le 0 1
  simp only [header, rootItem, List.flatMap_cons, List.flatMap_nil, List.length_append, List.length_cons,
    List.length_nil]
  omega

/-! ## Archives -/

/-- A block that verifies and has room in a frame. -/
structure Servable (b : Block) : Prop where
  verified : verify b = .ok ()
  room : b.cid.bytes.length + b.data.length ≤ 4 * 1024 * 1024

theorem verify_unlinked (b : Block) : verify (unlinked b) = verify b := rfl

theorem isArchive_of_servable {root : Cid} {bs : List Block} (h : ∀ b ∈ bs, Servable b)
    (hroot : ∃ b ∈ bs, b.cid = root) : IsArchive (write [root] bs) (bs.map unlinked) := by
  refine isArchive_write_iff.mpr ⟨?_, fun b hb => ⟨(h b hb).room, isCid_of_verify (h b hb).verified⟩⟩
  obtain ⟨b, hb, rfl⟩ := hroot
  have hheader := length_header_le b.cid
  have hcid := length_cid_le (h b hb).verified
  have hroom := (h b hb).room
  omega

end Courier.Archive
