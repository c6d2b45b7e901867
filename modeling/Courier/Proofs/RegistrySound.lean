import Courier.Proofs.ConstructionSound
import Courier.Proofs.DispatchSound

/-!
# A registry holds what was built last

Of a list of protocols the known ones are built in order, each under its name,
until one cannot be built. The registry then has one retriever for every code
that was built, and it is the one the last call for that code gave (`Holds`).
Every call keeps that, whatever the calls before it gave.
-/

namespace Courier.Registry

/-! ## Protocols that are known -/

/-- The protocols of a list that have one of the three known codes, under their names. -/
def recognised (ps : List Protocol) : List Protocol :=
  (ps.filter fun p => p.code ∈ [0x0900, 0x0910, 0x0920]).map fun p => Protocol.ofCode p.code

theorem known?_eq (p : Protocol) : p.known? =
    if p.code ∈ [0x0900, 0x0910, 0x0920] then some (Protocol.ofCode p.code) else none := by
  unfold Protocol.known? Protocol.ofCode
  by_cases hb : p.code = 0x0900
  · simp [hb]
  · by_cases hg : p.code = 0x0910
    · simp [hg]
    · by_cases hh : p.code = 0x0920 <;> simp [hb, hg, hh]

theorem recognised_cons (p : Protocol) (ps : List Protocol) :
    recognised (p :: ps) = p.known?.toList ++ recognised ps := by
  rw [known?_eq, recognised, List.filter_cons]
  by_cases h : p.code ∈ [0x0900, 0x0910, 0x0920]
  · simp only [h, decide_true, if_true]; rfl
  · simp only [h, decide_false, if_false]; rfl

theorem mem_codes_recognised {c : UInt64} {ps : List Protocol} :
    c ∈ (recognised ps).map Protocol.code ↔
      c ∈ [0x0900, 0x0910, 0x0920] ∧ ∃ p ∈ ps, p.code = c := by
  simp only [recognised, List.map_map, List.mem_map, List.mem_filter, Function.comp_apply,
    Protocol.code_ofCode, decide_eq_true_eq]
  constructor
  · rintro ⟨p, ⟨hp, hc⟩, rfl⟩
    exact ⟨hc, p, hp, rfl⟩
  · rintro ⟨hc, p, hp, rfl⟩
    exact ⟨p, ⟨hp, hc⟩, rfl⟩

/-! ## Retrievers that are registered -/

variable {ρ : Type} {reg : Registry ρ} {p q : Protocol} {x : ρ}

theorem find?_eq_none_of_not_mem (h : p.code ∉ reg.entries.map (·.1.code)) :
    reg.find? p = none := by
  rw [find?, Option.map_eq_none_iff, List.find?_eq_none]
  intro e he hs
  exact h (List.mem_map.2 ⟨e, he, beq_iff_eq.1 hs⟩)

theorem find?_insert (reg : Registry ρ) (p q : Protocol) (x : ρ) :
    (reg.insert p x).find? q = if q.code = p.code then some x else reg.find? q := by
  unfold insert
  split
  · next hc =>
    -- the entry that is found is the one that was found before, with another retriever
    have hmap : ∀ l : List (Protocol × ρ),
        (l.map fun e => if e.1.same p then (e.1, x) else e).find? (·.1.same q) =
          (l.find? (·.1.same q)).map fun e => if e.1.same p then (e.1, x) else e := by
      intro l
      rw [List.find?_map]
      congr 2
      funext e
      simp only [Function.comp_apply]
      split <;> rfl
    simp only [find?, hmap, Option.map_map]
    cases hf : reg.entries.find? (·.1.same q) with
    | none =>
      have hq : q.code ≠ p.code := by
        intro hq
        obtain ⟨e, he, hp⟩ := List.mem_map.1 (contains_iff.1 hc)
        exact List.find?_eq_none.1 hf e he (beq_iff_eq.2 (hp.trans hq.symm))
      rw [if_neg hq]; rfl
    | some e =>
      have he : e.1.code = q.code := by simpa [Protocol.same] using List.find?_some hf
      by_cases hq : q.code = p.code
      · have hs : e.1.same p = true := beq_iff_eq.2 (he.trans hq)
        simp [hq, hs]
      · have hs : e.1.same p = false := beq_false_of_ne fun h => hq (he.symm.trans h)
        simp [hq, hs]
  · next hc =>
    rw [contains_iff] at hc
    by_cases hq : q.code = p.code
    · have hn : reg.find? q = none := find?_eq_none_of_not_mem (hq ▸ hc)
      have hs : p.same q = true := beq_iff_eq.2 hq.symm
      rw [find?, Option.map_eq_none_iff] at hn
      simp [find?, List.find?_append, hn, hs, hq]
    · have hs : p.same q = false := beq_false_of_ne (Ne.symm hq)
      simp [find?, List.find?_append, hs, hq]

/-! ## Building -/

/-- Every one of these calls gave a retriever. -/
def Succeeds (make : List Protocol → Protocol → Except Error ρ) (calls : List Protocol) : Prop :=
  ∀ k q r, calls = k ++ q :: r → ∃ x, make k q = .ok x

/-- A registry after some calls: there is one retriever for each code, from the last of them. -/
structure Holds (make : List Protocol → Protocol → Except Error ρ) (calls : List Protocol)
    (reg : Registry ρ) : Prop where
  distinct : reg.Distinct
  keys : ∀ c, c ∈ reg.entries.map (·.1.code) ↔ c ∈ calls.map Protocol.code
  latest : ∀ k q r, calls = k ++ q :: r → (∀ q' ∈ r, q'.code ≠ q.code) →
    ∀ p, p.code = q.code → (reg.find? p).map .ok = some (make k q)

variable {make : List Protocol → Protocol → Except Error ρ} {calls : List Protocol}

theorem Succeeds.snoc (h : Succeeds make calls) (hq : make calls q = .ok x) :
    Succeeds make (calls ++ [q]) := by
  intro k p r hk
  rcases snoc_eq_append_cons hk with ⟨rfl, rfl, -⟩ | ⟨r', hk, -⟩
  · exact ⟨x, hq⟩
  · exact h k p r' hk

theorem Holds.snoc (h : Holds make calls reg) (hq : make calls q = .ok x) :
    Holds make (calls ++ [q]) (reg.insert q x) := by
  refine ⟨h.distinct.insert q x, fun c => ?_, fun k p r hk hr p' hp => ?_⟩
  · rw [codes_insert, List.mem_append, h.keys, List.map_append, List.mem_append]
    split
    · next hc =>
      have hm : q.code ∈ calls.map Protocol.code := (h.keys _).1 (contains_iff.1 hc)
      simp only [List.not_mem_nil, or_false, List.map_cons, List.map_nil, List.mem_singleton]
      exact ⟨.inl, fun h => h.elim id fun h => h ▸ hm⟩
    · rfl
  · rcases snoc_eq_append_cons hk with ⟨rfl, rfl, -⟩ | ⟨r', hl, rfl⟩
    · rw [find?_insert, if_pos hp, hq]; rfl
    · -- a later call for another code leaves what was found
      have hne : q.code ≠ p.code := hr q (by simp)
      rw [find?_insert, if_neg fun h => hne (h.symm.trans hp)]
      exact h.latest k p r' hl (fun q' hq' => hr q' (List.mem_append_left _ hq')) p' hp

theorem buildOnto_holds (make : List Protocol → Protocol → Except Error ρ) (ps : List Protocol)
    (h : Holds make calls reg) (hs : Succeeds make calls) :
    (∃ k q rest e, recognised ps = k ++ q :: rest ∧ Succeeds make (calls ++ k) ∧
      make (calls ++ k) q = .error e ∧
      buildOnto make calls reg ps = (calls ++ k ++ [q], .error e)) ∨
    ∃ reg', Succeeds make (calls ++ recognised ps) ∧ Holds make (calls ++ recognised ps) reg' ∧
      buildOnto make calls reg ps = (calls ++ recognised ps, .ok reg') := by
  induction ps generalizing calls reg with
  | nil => exact .inr ⟨reg, by simpa [recognised] using hs, by simpa [recognised] using h,
      by simp [buildOnto, recognised]⟩
  | cons p ps ih =>
    rw [recognised_cons]
    cases hp : p.known? with
    | none =>
      simp only [buildOnto, hp]
      exact ih h hs
    | some q =>
      cases hq : make calls q with
      | error e =>
        simp only [buildOnto, hp, hq]
        exact .inl ⟨[], q, recognised ps, e, rfl, by simpa using hs, by simpa using hq, by simp⟩
      | ok x =>
        have happ (l : List Protocol) : calls ++ q :: l = calls ++ [q] ++ l := by simp
        simp only [buildOnto, hp, hq, Option.toList_some, List.singleton_append]
        rw [happ (recognised ps)]
        rcases ih (h.snoc hq) (hs.snoc hq) with ⟨k, q', rest, e, hk, hh⟩ | hh
        · refine .inl ⟨q :: k, q', rest, e, by simp [hk], ?_⟩
          rw [happ k]
          exact hh
        · exact .inr hh

/-- The known protocols of a list are built in order, by themselves as in a construction. The first
failure ends it and is what comes of it. Otherwise there is a retriever for every known code that is
in the list and for no other, each once, and it is the one that was built last for that code. -/
theorem build_last_wins (make : List Protocol → Protocol → Except Error ρ) (ps : List Protocol) :
    let known := recognised ps
    (fill (call make) {} ps).run.run [] = ((build make ps).2, (build make ps).1) ∧
    ((∃ k q rest e, known = k ++ q :: rest ∧ Succeeds make k ∧ make k q = .error e ∧
      build make ps = (k ++ [q], .error e)) ∨
    ∃ reg, Succeeds make known ∧ build make ps = (known, .ok reg) ∧
      (reg.entries.map (·.1.code)).Nodup ∧
      (∀ c, c ∈ reg.entries.map (·.1.code) ↔
        c ∈ [0x0900, 0x0910, 0x0920] ∧ ∃ p ∈ ps, p.code = c) ∧
      ∀ k q r, known = k ++ q :: r → (∀ q' ∈ r, q'.code ≠ q.code) →
        ∀ p, p.code = q.code → (reg.find? p).map .ok = some (make k q)) := by
  have hnil {k r : List Protocol} {q : Protocol} : [] ≠ k ++ q :: r := by simp
  have hempty : Holds make [] {} :=
    ⟨List.nodup_nil, fun c => .rfl, fun k q r hk => absurd hk hnil⟩
  have hnone : Succeeds make [] := fun k q r hk => absurd hk hnil
  refine ⟨run_fill make ps [] {}, ?_⟩
  rcases buildOnto_holds make ps hempty hnone with h | ⟨reg, hs, hh, hb⟩
  · exact .inl h
  · refine .inr ⟨reg, hs, hb, hh.distinct, fun c => ?_, hh.latest⟩
    rw [hh.keys, List.nil_append, mem_codes_recognised]

/-- A raw code that is known is built under its name, and again when the name comes. -/
example :
    let r := build (fun made _ => .ok made.length) [.other 0x0900, .http, .other 7, .bitswap]
    r.1 = [.bitswap, .http, .bitswap] ∧
      r.2.toOption.bind (·.find? (.other 0x0900)) = some 2 := by
  decide

end Courier.Registry
