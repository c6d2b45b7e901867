import Courier.Proofs.CborGrammar
import Courier.Proofs.VarintSound

/-!
# The header of an archive is one item

The octets of a header are the spelling of a map of two entries, its roots and
the version, and of no other item (`header_canonical`). Up to a bound on the
number and the sizes of the roots, heads of four octets are enough for it.
-/

namespace Courier.Archive

open Cbor (Item spell decode)

/-- What a header says. -/
def headerMap (roots : List Cid) : Item :=
  .map [(.text "roots", .array (roots.map fun c => .tag 42 (.bytes (0 :: c.bytes)))),
    (.text "version", .unsigned 1)]

/-- The number of roots and the size of each fit four octets. -/
structure Bounded (roots : List Cid) : Prop where
  count : roots.length < 2 ^ 32
  sizes : ∀ c ∈ roots, c.bytes.length < 2 ^ 32 - 1

variable {roots roots' : List Cid} {c : Cid} {kind n : Nat}

/-! ## Spelling -/

/-- Heads of eight octets are not written. -/
theorem head_eq (h : n < 0x100000000) : head kind n = Cbor.head kind n := by
  unfold head Cbor.head Cbor.form
  by_cases h₀ : n < 24
  · rw [if_pos h₀, if_pos h₀]
    rfl
  by_cases h₁ : n < 0x100
  · rw [if_neg h₀, if_neg h₀, if_pos h₁, if_pos h₁]
    show [_, UInt8.ofNat n] = [_, UInt8.ofNat (n % 256)]
    rw [Nat.mod_eq_of_lt h₁]
  by_cases h₂ : n < 0x10000
  · rw [if_neg h₀, if_neg h₀, if_neg h₁, if_neg h₁, if_pos h₂, if_pos h₂]
  · rw [if_neg h₀, if_neg h₀, if_neg h₁, if_neg h₁, if_neg h₂, if_neg h₂, if_pos h]

theorem textItem_eq {s : String} (h : (Bytes.ofText s).length < 2 ^ 32) :
    textItem s = spell (.text s) := by
  rw [spell, ← head_eq h]
  rfl

theorem rootItem_eq (h : c.bytes.length < 2 ^ 32 - 1) :
    rootItem c = spell (.tag 42 (.bytes (0 :: c.bytes))) := by
  unfold rootItem
  rw [spell, spell, List.length_cons, head_eq (by decide), head_eq (by omega), List.append_assoc]

theorem flatMap_rootItem (h : ∀ c ∈ roots, c.bytes.length < 2 ^ 32 - 1) :
    roots.flatMap rootItem =
      Cbor.spellItems (roots.map fun c => .tag 42 (.bytes (0 :: c.bytes))) := by
  induction roots with
  | nil => rfl
  | cons c roots ih =>
    rw [List.forall_mem_cons] at h
    rw [List.flatMap_cons, rootItem_eq h.1, ih h.2]
    rfl

theorem header_eq (h : Bounded roots) : header roots = spell (headerMap roots) := by
  unfold header headerMap
  rw [head_eq (by decide), textItem_eq (by decide), head_eq h.count, flatMap_rootItem h.sizes,
    textItem_eq (by decide), head_eq (by decide)]
  simp [spell, Cbor.spellEntries]

theorem fits_headerMap (h : Bounded roots) (depth : Nat) :
    Cbor.Fits (depth + 4) (headerMap roots) := by
  have hroot : ∀ c ∈ roots, Cbor.Fits (depth + 2) (.tag 42 (.bytes (0 :: c.bytes))) := by
    intro c hc
    have hsize := h.sizes c hc
    have hlen : (0 :: c.bytes).length < 2 ^ 64 := by
      rw [List.length_cons]
      omega
    exact .tag (by decide) (.bytes hlen)
  have hcount : (roots.map fun c => Item.tag 42 (.bytes (0 :: c.bytes))).length < 2 ^ 64 := by
    rw [List.length_map]
    exact Nat.lt_trans h.count (by decide)
  refine .map ?_ ?_ ?_
  · show 2 < 2 ^ 64
    decide
  · simp only [List.forall_mem_cons, List.not_mem_nil, false_imp_iff, implies_true, and_true]
    exact ⟨.text (by decide), .text (by decide)⟩
  · simp only [List.forall_mem_cons, List.not_mem_nil, false_imp_iff, implies_true, and_true]
    exact ⟨.array hcount (List.forall_mem_map.mpr hroot), .unsigned (by decide)⟩

theorem isDag_headerMap (roots : List Cid) : Cbor.IsDag (headerMap roots) := by
  have hkeys : ["roots", "version"].Pairwise Cbor.Before := by
    rw [List.pairwise_pair]
    exact .inl (by decide)
  have hroots : Cbor.IsDag (.array (roots.map fun c => .tag 42 (.bytes (0 :: c.bytes)))) := by
    refine .array (List.forall_mem_map.mpr ?_)
    intro c _
    exact .link c.bytes
  refine @Cbor.IsDag.map [("roots", _), ("version", _)] hkeys ?_
  simp only [List.forall_mem_cons, List.not_mem_nil, false_imp_iff, implies_true, and_true]
  exact ⟨hroots, .unsigned 1⟩

theorem headerMap_inj (h : headerMap roots = headerMap roots') : roots = roots' := by
  have hinj : ∀ c c' : Cid, Item.tag 42 (.bytes (0 :: c.bytes)) = .tag 42 (.bytes (0 :: c'.bytes)) →
      c = c' := by
    intro c c' hc
    simp only [Item.tag.injEq, Item.bytes.injEq, List.cons.injEq, true_and] at hc
    exact congrArg Cid.mk hc
  simp only [headerMap, Item.map.injEq, List.cons.injEq, Prod.mk.injEq, Item.array.injEq, true_and,
    and_true] at h
  exact (List.map_inj_right hinj).mp h

theorem decode_eq_header_iff (h : Bounded roots) {s : Bytes} :
    decode s = some (headerMap roots) ↔ s = header roots := by
  rw [header_eq h]
  constructor
  · exact Cbor.eq_spell_of_decode
  · intro hs
    -- the octets of a root lie in a tag, an array and the map
    have hlen : 4 ≤ (spell (headerMap roots)).length := by
      simp only [headerMap, spell, Cbor.spellEntries, List.length_append]
      have : (Bytes.ofText "version").length = 7 := by decide
      omega
    have hfits := fits_headerMap h ((spell (headerMap roots)).length - 4)
    rw [Nat.sub_add_cancel hlen] at hfits
    rw [hs, Cbor.decode_spell hfits]

/-- The header of some roots is decoded as the map of these and the version, and no other octets
are. The map keeps to the narrower grammar. In an archive the length of the header stands before it,
and the headers of other roots are others. -/
theorem header_canonical (h : Bounded roots) :
    (∀ s, decode s = some (headerMap roots) ↔ s = header roots) ∧
    Cbor.IsDag (headerMap roots) ∧
    (∀ blocks, ∃ w r, write roots blocks = w ++ (header roots ++ r) ∧
      Varint.Groups w (header roots).length) ∧
    (∀ roots', Bounded roots' → header roots' = header roots → roots' = roots) := by
  refine ⟨fun s => decode_eq_header_iff h, isDag_headerMap roots, ?_, ?_⟩
  · intro blocks
    have hsplit : write roots blocks = Varint.write (header roots).length ++
        (header roots ++ blocks.flatMap fun b => frame (b.cid.bytes ++ b.data)) := by
      unfold write frame
      rw [List.append_assoc]
    exact ⟨_, _, hsplit, Varint.groups_write (header roots).length⟩
  · intro roots' h' heq
    have hdecode := (decode_eq_header_iff h).mpr heq
    rw [(decode_eq_header_iff h').mpr rfl, Option.some.injEq] at hdecode
    exact headerMap_inj hdecode

/-- With one root of five octets. -/
theorem header_canonical_one :
    Bounded [⟨[1, 0x55, 0x12, 1, 9]⟩] ∧
      header [⟨[1, 0x55, 0x12, 1, 9]⟩] =
        [0xA2, 0x65] ++ Bytes.ofText "roots" ++ [0x81, 0xD8, 42, 0x46, 0, 1, 0x55, 0x12, 1, 9] ++
          [0x67] ++ Bytes.ofText "version" ++ [1] ∧
      decode (header [⟨[1, 0x55, 0x12, 1, 9]⟩]) =
        some (.map [(.text "roots", .array [.tag 42 (.bytes [0, 1, 0x55, 0x12, 1, 9])]),
          (.text "version", .unsigned 1)]) := by
  have hbounded : Bounded [⟨[1, 0x55, 0x12, 1, 9]⟩] := ⟨by decide, by decide⟩
  exact ⟨hbounded, by decide, ((header_canonical hbounded).1 _).mpr rfl⟩

end Courier.Archive
