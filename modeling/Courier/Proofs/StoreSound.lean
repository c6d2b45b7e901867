import Courier.Proofs.KeyLemmas
import Courier.Store
import Mathlib.Algebra.BigOperators.Group.Finset.Basic

/-!
# What the counters of a store say

A store that was written to has the identifiers that were written, each with the
last block written under it, and counts every write. The octets it counts are
those of the first block under each identifier. So they are the octets it holds
exactly if what later blocks have more than the first is what others have less
(`run_counts`).
-/

namespace Courier.Store

/-- The blocks that some actions write, in order. -/
def written (as : List Action) : List Block :=
  as.flatMap fun
    | .insert b | .put b => [b]
    | .extend bs => bs

/-- The octets of data in a block, if it is there. -/
def octets : Option Block → Nat
  | none => 0
  | some b => b.data.length

def first? (l : List Block) (c : Cid) : Option Block := l.find? (·.cid = c)

def last? (l : List Block) (c : Cid) : Option Block := l.reverse.find? (·.cid = c)

/-- The identifiers of some blocks, each once. -/
def cids (l : List Block) : Finset Cid := (l.map (·.cid)).toFinset

variable {s : Store} {l : List Block} {b : Block} {c : Cid}

theorem run_eq_extend (s : Store) (as : List Action) : s.run as = s.extend (written as) := by
  induction as generalizing s with
  | nil => rfl
  | cons a as ih =>
    rw [run, List.foldl_cons, ← run, ih]
    cases a with
    | insert b => rfl
    | put b => rfl
    | extend bs => exact (List.foldl_append ..).symm

/-! ## One more write -/

theorem first?_append (l : List Block) (b : Block) (c : Cid) :
    first? (l ++ [b]) c = (first? l c).or (if b.cid = c then some b else none) := by
  rw [first?, List.find?_append]
  by_cases hb : b.cid = c
  · simp [first?, hb]
  · simp [first?, hb]

theorem last?_append (l : List Block) (b : Block) (c : Cid) :
    last? (l ++ [b]) c = if b.cid = c then some b else last? l c := by
  by_cases hb : b.cid = c
  · simp [last?, hb]
  · simp [last?, hb]

theorem cids_append (l : List Block) (b : Block) : cids (l ++ [b]) = Insert.insert b.cid (cids l) := by
  ext c
  simp [cids]

theorem first?_isSome : (first? l c).isSome ↔ c ∈ cids l := by
  simp [first?, cids]

theorem last?_isSome : (last? l c).isSome ↔ c ∈ cids l := by
  simp [last?, cids]

theorem mem_of_first? (h : first? l c = some b) : b ∈ l ∧ b.cid = c :=
  ⟨List.mem_of_find?_eq_some h, by simpa using List.find?_some h⟩

theorem mem_of_last? (h : last? l c = some b) : b ∈ l ∧ b.cid = c :=
  ⟨List.mem_reverse.mp (List.mem_of_find?_eq_some h), by simpa using List.find?_some h⟩

theorem contains_iff : s.contains c ↔ c ∈ cids s.blocks := first?_isSome

/-- A block in whose place another one comes has the identifier of that. -/
theorem cid_replace (a b : Block) : (if a.cid = b.cid then b else a).cid = a.cid := by
  split
  · next h => exact h.symm
  · rfl

theorem cids_insert (s : Store) (b : Block) :
    (s.insert b).blocks.map (·.cid) =
      if s.contains b.cid then s.blocks.map (·.cid) else s.blocks.map (·.cid) ++ [b.cid] := by
  unfold insert
  split
  · simp [Function.comp_def, cid_replace]
  · simp

theorem get?_insert (s : Store) (b : Block) (c : Cid) :
    (s.insert b).get? c = if b.cid = c then some b else s.get? c := by
  unfold insert
  split
  · next h =>
    have hmap : (s.blocks.map fun a => if a.cid = b.cid then b else a).find? (·.cid = c) =
        (s.get? c).map fun a => if a.cid = b.cid then b else a := by
      simp only [List.find?_map, Function.comp_def, cid_replace, get?]
    rw [get?, hmap]
    cases hg : s.get? c with
    | none =>
      have hb : b.cid ≠ c := by
        intro hb
        rw [hb, contains, hg] at h
        cases h
      rw [if_neg hb]
      rfl
    | some a =>
      have hac : a.cid = c := (mem_of_first? hg).2
      rw [Option.map_some, hac]
      by_cases hb : b.cid = c
      · rw [if_pos hb.symm, if_pos hb]
      · rw [if_neg (Ne.symm hb), if_neg hb]
  · next h =>
    have hnone : s.get? b.cid = none := by
      rw [contains, Bool.not_eq_true, Option.isSome_eq_false_iff, Option.isNone_iff_eq_none] at h
      exact h
    rw [get?, List.find?_append]
    by_cases hb : b.cid = c
    · rw [← hb, ← get?, hnone]
      simp
    · simp [get?, hb]

/-! ## All writes -/

/-- A store, to which some blocks were written. -/
structure Counts (l : List Block) (s : Store) : Prop where
  once : (s.blocks.map (·.cid)).Nodup
  kept : cids s.blocks = cids l
  last : ∀ c, s.get? c = last? l c
  puts : s.puts = l.length
  size : s.size = ∑ c ∈ cids l, octets (first? l c)

theorem Counts.insert (h : Counts l s) (b : Block) : Counts (l ++ [b]) (s.insert b) := by
  have hcontains : s.contains b.cid ↔ b.cid ∈ cids l := by rw [contains_iff, h.kept]
  have hfirst : ∀ c ∈ cids l, first? (l ++ [b]) c = first? l c := by
    intro c hc
    obtain ⟨a, ha⟩ := Option.isSome_iff_exists.mp (first?_isSome.mpr hc)
    rw [first?_append, ha, Option.some_or]
  have hkeys := cids_insert s b
  refine ⟨?_, ?_, fun c => ?_, ?_, ?_⟩
  · rw [hkeys]
    split
    · exact h.once
    · next hnew =>
      rw [hcontains, ← h.kept, cids, List.mem_toFinset] at hnew
      rw [List.nodup_append_comm, List.singleton_append]
      exact List.nodup_cons.mpr ⟨hnew, h.once⟩
  · rw [cids_append, ← h.kept, cids, hkeys]
    split
    · next hold =>
      rw [hcontains, ← h.kept] at hold
      exact (Finset.insert_eq_self.mpr hold).symm
    · rw [List.toFinset_append, Finset.union_comm]
      rfl
  · rw [get?_insert, last?_append, h.last]
  · rw [List.length_append, List.length_singleton, ← h.puts]
    unfold Store.insert
    split <;> rfl
  · rw [cids_append]
    unfold Store.insert
    split
    · next hold =>
      rw [Finset.insert_eq_self.mpr (hcontains.mp hold), h.size]
      exact Finset.sum_congr rfl fun c hc => by rw [hfirst c hc]
    · next hnew =>
      have hnone : first? l b.cid = none := by
        rw [← Option.not_isSome_iff_eq_none, first?_isSome]
        exact fun hc => hnew (hcontains.mpr hc)
      rw [Finset.sum_insert fun hc => hnew (hcontains.mpr hc), first?_append, hnone, h.size, Nat.add_comm,
        Finset.sum_congr rfl fun c hc => congrArg octets (hfirst c hc)]
      simp [octets]

theorem counts_extend (l : List Block) : Counts l (({} : Store).extend l) := by
  induction l using List.reverseRecOn with
  | nil => exact ⟨List.nodup_nil, rfl, fun _ => rfl, rfl, rfl⟩
  | append_singleton l b ih =>
    rw [extend, List.foldl_append]
    exact ih.insert b

/-- The octets of some blocks with distinct identifiers, counted by these. -/
theorem totalSize_of_nodup {bs : List Block} (h : (bs.map (·.cid)).Nodup) :
    totalSize bs = ∑ c ∈ cids bs, octets (first? bs c) := by
  have hfound : bs.map (fun b => octets (first? bs b.cid)) = bs.map (·.data.length) :=
    List.map_congr_left fun b hb => congrArg octets (Keyed.find?_of_mem h hb)
  have hsum : totalSize bs = (bs.map (·.data.length)).sum := (List.foldr_map ..).symm
  rw [hsum, ← hfound, cids, List.sum_toFinset _ h, List.map_map]
  rfl

theorem Counts.totalSize (h : Counts l s) :
    totalSize s.blocks = ∑ c ∈ cids l, octets (last? l c) := by
  rw [totalSize_of_nodup h.once, h.kept]
  exact Finset.sum_congr rfl fun c _ => congrArg octets (h.last c)

/-- After any writes the identifiers of a store are those that were written, each with the last
block written under it, and every write is counted. The octets that are counted are those of each
identifier's first block, so they are those of the blocks in the store exactly if the first and the
last blocks have equally many. -/
theorem run_counts (as : List Action) :
    (run {} as).length = (cids (written as)).card ∧
    (∀ c, (run {} as).get? c = last? (written as) c) ∧
    (run {} as).puts = (written as).length ∧
    (run {} as).size = ∑ c ∈ cids (written as), octets (first? (written as) c) ∧
    ((run {} as).size = totalSize (run {} as).blocks ↔
      ∑ c ∈ cids (written as), octets (first? (written as) c) =
        ∑ c ∈ cids (written as), octets (last? (written as) c)) := by
  have h := counts_extend (written as)
  rw [← run_eq_extend] at h
  have hlength : (run {} as).length = (cids (written as)).card := by
    rw [← h.kept, cids, List.toFinset_card_of_nodup h.once, List.length_map]
    rfl
  refine ⟨hlength, h.last, h.puts, h.size, ?_⟩
  rw [h.totalSize, h.size]

/-- A longer block takes the place of one of one octet, and the count stays one. -/
theorem size_of_overwritten :
    let s : Store := run {} [.insert { cid := ⟨[1]⟩, data := [7] }, .put { cid := ⟨[1]⟩, data := [7, 9] }]
    s.size = 1 ∧ totalSize s.blocks = 2 := by
  decide

/-- Where all blocks under an identifier are equally long, the octets in the store are the ones that
are counted. -/
theorem size_of_agreeing {as : List Action}
    (h : ∀ a ∈ written as, ∀ b ∈ written as, a.cid = b.cid → a.data.length = b.data.length) :
    (run {} as).size = totalSize (run {} as).blocks := by
  have hcounts := counts_extend (written as)
  rw [← run_eq_extend] at hcounts
  rw [hcounts.totalSize, hcounts.size]
  refine Finset.sum_congr rfl fun c hc => ?_
  obtain ⟨a, ha⟩ := Option.isSome_iff_exists.mp (first?_isSome.mpr hc)
  obtain ⟨b, hb⟩ := Option.isSome_iff_exists.mp (last?_isSome.mpr hc)
  obtain ⟨hal, hac⟩ := mem_of_first? ha
  obtain ⟨hbl, hbc⟩ := mem_of_last? hb
  rw [ha, hb]
  exact h a hal b hbl (hac.trans hbc.symm)

end Courier.Store
