import Courier.Proofs.CourseLemmas
import Mathlib.Data.List.Nodup

/-!
# Retrievers get the candidates that are wanted

A candidate is wanted if the policy of the session admits its provider and it
announces a protocol that the request allows and there is a retriever for. A
retrieval calls the retrievers of just these protocols, each once and with just
the candidates that announce it. Protocols are told apart by their codes only.
-/

namespace Courier.Registry

/-! ## Who is registered -/

variable {ρ : Type} {reg reg' : Registry ρ} {p : Protocol}

/-- Whether there is one retriever for a code at the most. -/
def Distinct (reg : Registry ρ) : Prop := (reg.entries.map (·.1.code)).Nodup

theorem contains_iff : reg.contains p = true ↔ p.code ∈ reg.entries.map (·.1.code) := by
  simp [contains, Protocol.same]

/-- A retriever that is replaced leaves the protocol it was registered under. -/
theorem codes_insert (reg : Registry ρ) (p : Protocol) (x : ρ) :
    (reg.insert p x).entries.map (·.1.code) =
      reg.entries.map (·.1.code) ++ if reg.contains p then [] else [p.code] := by
  unfold Registry.insert
  split
  · rw [List.map_map, List.append_nil]
    refine List.map_congr_left fun e he => ?_
    simp only [Function.comp_apply]
    split <;> rfl
  · rw [List.map_append]; rfl

theorem Distinct.insert (h : reg.Distinct) (p : Protocol) (x : ρ) : (reg.insert p x).Distinct := by
  unfold Distinct at *
  rw [codes_insert]
  split
  · rw [List.append_nil]
    exact h
  · next hn =>
    rw [contains_iff] at hn
    exact h.append (List.nodup_singleton _) (List.disjoint_singleton.2 hn)

theorem Distinct.buildOnto {make : List Protocol → Protocol → Except Error ρ} (h : reg.Distinct) :
    ∀ {ps made made' : List Protocol},
      Registry.buildOnto make made reg ps = (made', .ok reg') → reg'.Distinct := by
  intro ps
  induction ps generalizing reg with
  | nil =>
    intro made made' hb
    cases hb
    exact h
  | cons p ps ih =>
    intro made made' hb
    unfold Registry.buildOnto at hb
    split at hb
    · exact ih h hb
    · split at hb
      · cases hb
      · exact ih (h.insert _ _) hb

/-- The protocols of a registry that was built differ by their codes. -/
theorem protocols_nodup {make : List Protocol → Protocol → Except Error ρ}
    {ps made : List Protocol} (h : build make ps = (made, .ok reg)) :
    (reg.protocols.map Protocol.code).Nodup := by
  have hempty : Distinct ({} : Registry ρ) := List.nodup_nil
  have hd : reg.Distinct := hempty.buildOnto h
  have hp : (reg.protocols.map Protocol.code).Perm ((reg.entries.map (·.1)).map Protocol.code) :=
    (List.mergeSort_perm _ _).map _
  rw [hp.nodup_iff, List.map_map]
  exact hd

end Courier.Registry

namespace Courier.Orchestrator

/-! ## Who is wanted -/

def Announces (c : Candidate) (code : UInt64) : Prop := ∃ p ∈ c.protocols, p.code = code

/-- A request without a list of protocols allows all of them. -/
def Allowed (r : Request) (code : UInt64) : Prop :=
  ∀ l, r.protocols = some l → ∃ p ∈ l, p.code = code

/-- Who is on no block list and on the allow list, if there is one, and can be retrieved from. -/
structure Wanted (s : Session) (registered : List Protocol) (r : Request) (c : Candidate) :
    Prop where
  unblocked : ∀ b, s.policy.block = some b → c.provider ∉ b.members
  listed : ∀ a, s.policy.allow = some a → c.provider ∈ a.members
  usable : ∃ p ∈ registered, Allowed r p.code ∧ Announces c p.code

variable {s : Session} {registered : List Protocol} {r : Request} {c : Candidate} {p : Protocol}

theorem same_iff {q : Protocol} : q.same p = true ↔ q.code = p.code := beq_iff_eq

theorem any_same {l : List Protocol} : l.any (·.same p) = true ↔ ∃ q ∈ l, q.code = p.code := by
  simp only [List.any_eq_true, same_iff]

theorem supports_iff : c.supports p = true ↔ Announces c p.code := any_same

theorem allows_iff : r.allows p = true ↔ Allowed r p.code := by
  unfold Request.allows Allowed
  cases h : r.protocols with
  | none => simp
  | some l => simp [same_iff]

theorem accepts_iff : s.accepts c = true ↔ (∀ b, s.policy.block = some b → c.provider ∉ b.members) ∧
    ∀ a, s.policy.allow = some a → c.provider ∈ a.members := by
  unfold Session.accepts Policy.accepts ProviderSet.contains
  cases hb : s.policy.block with
  | none => cases ha : s.policy.allow <;> simp
  | some b =>
    by_cases hm : c.provider ∈ b.members
    · simp [hm]
    · cases ha : s.policy.allow <;> simp [hm]

theorem any_usable : c.protocols.any (usable registered r) = true ↔
    ∃ p ∈ registered, Allowed r p.code ∧ Announces c p.code := by
  simp only [List.any_eq_true, usable, Bool.and_eq_true, same_iff, allows_iff]
  constructor
  · rintro ⟨q, hq, ha, p, hp, he⟩
    exact ⟨p, hp, he ▸ ha, q, hq, he.symm⟩
  · rintro ⟨p, hp, ha, q, hq, he⟩
    exact ⟨q, hq, he ▸ ha, p, hp, he.symm⟩

theorem wanted_iff :
    Wanted s registered r c ↔ (s.accepts c && c.protocols.any (usable registered r)) = true := by
  rw [Bool.and_eq_true, accepts_iff, any_usable]
  exact ⟨fun h => ⟨⟨h.unblocked, h.listed⟩, h.usable⟩, fun h => ⟨h.1.1, h.1.2, h.2⟩⟩

instance : Decidable (Wanted s registered r c) := decidable_of_iff _ wanted_iff.symm

instance {code : UInt64} : Decidable (Announces c code) :=
  inferInstanceAs (Decidable (∃ p ∈ c.protocols, p.code = code))

/-- The wanted of the candidates that were found, the best first. -/
def ranked (s : Session) (registered : List Protocol) (r : Request) (found : List Candidate) :
    List Candidate :=
  s.sortCandidates (found.filter fun c => decide (Wanted s registered r c))

theorem eligible_eq (s : Session) (registered : List Protocol) (r : Request)
    (found : List Candidate) : eligible s registered r found = ranked s registered r found := by
  unfold eligible ranked
  congr 1
  refine List.filter_congr fun c hc => ?_
  rw [Bool.eq_iff_iff, decide_eq_true_iff, wanted_iff]

theorem mem_ranked {found : List Candidate} :
    c ∈ ranked s registered r found ↔ c ∈ found ∧ Wanted s registered r c := by
  unfold ranked Session.sortCandidates
  rw [List.mem_mergeSort, List.mem_filter, decide_eq_true_iff]

/-! ## Who is called -/

/-- Whom a retriever is called with. -/
theorem mem_shares_iff {l l' : List Candidate} : (p, l') ∈ shares registered r l ↔
    p ∈ registered ∧ Allowed r p.code ∧ l' = l.filter (fun c => decide (Announces c p.code)) ∧
      l' ≠ [] := by
  have hs : l.filter (·.supports p) = l.filter fun c => decide (Announces c p.code) := by
    refine List.filter_congr fun c hc => ?_
    rw [Bool.eq_iff_iff, decide_eq_true_iff, supports_iff]
  rw [mem_shares, allows_iff, hs]

/-- Whoever is wanted is wanted for some retriever. -/
theorem shares_eq_nil {found : List Candidate} :
    shares registered r (ranked s registered r found) = [] ↔ ranked s registered r found = [] := by
  constructor
  · intro h
    by_contra hne
    obtain ⟨c, hc⟩ := List.exists_mem_of_ne_nil _ hne
    obtain ⟨p, hp, ha, hann⟩ := (mem_ranked.1 hc).2.usable
    have hm : c ∈ (ranked s registered r found).filter fun c => decide (Announces c p.code) :=
      List.mem_filter.2 ⟨hc, decide_eq_true hann⟩
    have hs := mem_shares_iff.2 ⟨hp, ha, rfl, List.ne_nil_of_mem hm⟩
    rw [h] at hs
    cases hs
  · intro h
    refine List.eq_nil_iff_forall_not_mem.2 fun e he => ?_
    obtain ⟨-, -, hl, hne⟩ := mem_shares_iff.1 he
    rw [h] at hl
    exact hne hl

/-! ## After the dispatch -/

/-- What was told of the candidates that remained. -/
def filtered (l : List Event) : List (List Candidate) :=
  l.filterMap fun e => match e.what with
    | .candidatesFiltered l => some l
    | _ => none

/-- A retrieval that was dispatched tells of no candidates any more and calls nobody. Its result is
that of a retriever, or its context ended it. -/
theorem Course.move_dispatched (registered : List Protocol) (r : Request) {c : Course}
    (hp : c.phase.Proper) (hf : c.phase ≠ .finding)
    (m : Move) :
    (c.move registered r m).phase.Proper ∧ (c.move registered r m).phase ≠ .finding ∧
      (c.move registered r m).called = c.called ∧
      filtered (c.move registered r m).told = filtered c.told ∧
      ∀ result, (c.move registered r m).phase = .over result → c.phase = .over result ∨
        (∃ s p, m = .learns s (.attempted p result)) ∨
        ∃ s e, result = .error e ∧ m = .learns s (.ended e) := by
  have closed (result : Except Error Stats) :
      filtered (c.told ++ [r.event (verdict result), r.event .finished]) = filtered c.told := by
    cases result <;> simp [filtered, Request.event, verdict]
  cases m with
  | emits p e =>
    unfold Course.move
    dsimp only
    split
    · refine ⟨hp, hf, rfl, ?_, fun result h => .inl h⟩
      obtain ⟨⟨id, root, what⟩, he⟩ := e
      cases what with
      | providerStarted | firstByte | providerFailed => simp [filtered]
      | _ => cases he
    · exact ⟨hp, hf, rfl, rfl, fun result h => .inl h⟩
  | learns s i =>
    have ht := step_takes s registered r hp i
    unfold Course.move
    dsimp only
    generalize step s registered r c.phase i = next at ht
    generalize hph : c.phase = phase at ht hp hf
    cases ht with
    | stays => exact ⟨hp, hf, rfl, by rw [Course.goTo_nil], fun result h => .inl h⟩
    | misses => exact absurd rfl hf
    | dispatches => exact absurd rfl hf
    | drops =>
      refine ⟨nofun, nofun, rfl, by rw [Course.goTo_nil], nofun⟩
    | @ends phase e hne =>
      rw [Course.goTo_close]
      refine ⟨nofun, nofun, rfl, closed _, ?_⟩
      rintro result ⟨rfl⟩
      exact .inr (.inr ⟨s, e, rfl, rfl⟩)
    | @decides l p result =>
      rw [Course.goTo_close]
      refine ⟨nofun, nofun, rfl, closed _, ?_⟩
      rintro result' ⟨rfl⟩
      exact .inr (.inl ⟨s, p, rfl⟩)

theorem Course.run_dispatched (registered : List Protocol) (r : Request) {c : Course}
    (hp : c.phase.Proper) (hf : c.phase ≠ .finding)
    (ms : List Move) :
    (c.run registered r ms).called = c.called ∧
      filtered (c.run registered r ms).told = filtered c.told ∧
      ∀ result, (c.run registered r ms).phase = .over result → c.phase = .over result ∨
        (∃ s p, .learns s (.attempted p result) ∈ ms) ∨
        ∃ s e, result = .error e ∧ .learns s (.ended e) ∈ ms := by
  induction ms generalizing c with
  | nil => exact ⟨rfl, rfl, fun result h => .inl h⟩
  | cons m ms ih =>
    obtain ⟨hp', hf', hcalled, htold, hphase⟩ :=
      Course.move_dispatched registered r hp hf m
    obtain ⟨ihc, iht, ihp⟩ := ih hp' hf'
    refine ⟨ihc.trans hcalled, iht.trans htold, fun result h => ?_⟩
    rcases ihp result h with h | ⟨s, p, h⟩ | ⟨s, e, he, h⟩
    · rcases hphase result h with h | ⟨s, p, rfl⟩ | ⟨s, e, he, rfl⟩
      · exact .inl h
      · exact .inr (.inl ⟨s, p, List.mem_cons_self⟩)
      · exact .inr (.inr ⟨s, e, he, List.mem_cons_self⟩)
    · exact .inr (.inl ⟨s, p, List.mem_cons_of_mem _ h⟩)
    · exact .inr (.inr ⟨s, e, he, List.mem_cons_of_mem _ h⟩)

theorem Course.goTo_dispatch_wanted (registered : List Protocol) (r : Request) (s : Session)
    (found : List Candidate) (c : Course) :
    let wanted := ranked s registered r found
    let d := c.goTo r (dispatch s registered r found)
    d.called = c.called ++ shares registered r wanted ∧
      filtered d.told = filtered c.told ++ [wanted] ∧
      d.phase = if wanted = [] then .over (.error (.noCandidates r.root))
        else .racing (.running ((shares registered r wanted).map (·.1))) := by
  intro wanted d
  have hw : eligible s registered r found = wanted := eligible_eq s registered r found
  have hnil : shares registered r wanted = [] ↔ wanted = [] := shares_eq_nil
  by_cases h : wanted = []
  · have hs : shares registered r (eligible s registered r found) = [] := by rw [hw, hnil, h]
    have hd : d = _ := c.goTo_dispatch_nobody hs
    rw [hd, hnil.2 h, hw, if_pos h]
    exact ⟨(List.append_nil _).symm, by simp [filtered, Request.event], rfl⟩
  · have hs : shares registered r (eligible s registered r found) ≠ [] := by rwa [hw, Ne, hnil]
    have hd : d = _ := c.goTo_dispatch hs
    rw [hd, hw, if_neg h]
    exact ⟨rfl, by simp [filtered, Request.event], rfl⟩

/-- Whatever the finder answers, and whatever comes after, the candidates that remain are the wanted
ones of those found. Each retriever whose protocol the request allows and one of them announces is
called once, with those who announce it in the same order, and no other is called. There is nobody
to retrieve from just if nobody is wanted; otherwise the result is that of a retriever, or the
context ends the retrieval. -/
theorem run_dispatches (registered : List Protocol) (hr : (registered.map Protocol.code).Nodup)
    (r : Request) (s : Session) (found : List Candidate) (ms : List Move) :
    let wanted := s.sortCandidates (found.filter fun c => decide (Wanted s registered r c))
    let c := (Course.begin { started := true } r none).run registered r
      (.learns s (.found (.ok found)) :: ms)
    filtered c.told = [wanted] ∧
    (∀ p l, (p, l) ∈ c.called ↔ p ∈ registered ∧ Allowed r p.code ∧
      l = wanted.filter (fun x => decide (Announces x p.code)) ∧ l ≠ []) ∧
    (c.called.map (·.1.code)).Nodup ∧
    (∀ e ∈ c.called, ∀ x ∈ e.2, ∀ b, s.policy.block = some b → x.provider ∉ b.members) ∧
    (wanted = [] → c.phase = .over (.error (.noCandidates r.root))) ∧
    (wanted ≠ [] → ∀ result, c.phase = .over result →
      (∃ s' p, .learns s' (.attempted p result) ∈ ms) ∨
        ∃ s' e, result = .error e ∧ .learns s' (.ended e) ∈ ms) := by
  intro wanted c
  obtain ⟨d, hd⟩ : ∃ d : Course, d = (Course.begin { started := true } r none).goTo r
    (dispatch s registered r found) := ⟨_, rfl⟩
  have hc : c = d.run registered r ms := by rw [hd]; rfl
  obtain ⟨hcalled, htold, hphase⟩ :=
    (Course.begin { started := true } r none).goTo_dispatch_wanted registered r s found
  have hw : ranked s registered r found = wanted := rfl
  rw [← hd, hw] at hcalled htold hphase
  have hproper : d.phase.Proper ∧ d.phase ≠ .finding := by
    rw [hphase]
    split <;> exact ⟨nofun, nofun⟩
  obtain ⟨hrun, hfil, hres⟩ := Course.run_dispatched registered r hproper.1 hproper.2 ms
  rw [← hc] at hrun hfil hres
  have hshares : c.called = shares registered r wanted := hrun.trans hcalled
  refine ⟨hfil.trans htold, fun p l => ?_, ?_, ?_, ?_, ?_⟩
  · rw [hshares]
    exact mem_shares_iff
  · rw [hshares]
    have hs := (shares_protocols registered r wanted).map Protocol.code
    rw [List.map_map] at hs
    exact hr.sublist hs
  · intro e he x hx
    rw [hshares] at he
    obtain ⟨-, -, hl, -⟩ := mem_shares_iff.1 he
    rw [hl] at hx
    exact (mem_ranked.1 (List.mem_filter.1 hx).1).2.unblocked
  · intro h
    rw [if_pos h] at hphase
    rw [hc, Course.run_over registered r hphase]
    exact hphase
  · intro h result hover
    rw [if_neg h] at hphase
    rcases hres result hover with h | h
    · rw [hphase] at h
      cases h
    · exact h

/-- A retriever registered under a raw code is called for the protocol of that code, without the
provider that is blocked and the one that announces another protocol. -/
theorem dispatches_by_code :
    let s : Session := { policy := { block := some (.ofList [⟨[8]⟩]) } }
    let r : Request := { id := ⟨1⟩, root := ⟨[1]⟩, protocols := some [.bitswap] }
    let good : Candidate := { root := ⟨[1]⟩, provider := ⟨[7]⟩, protocols := [.http, .bitswap] }
    let blocked : Candidate := { root := ⟨[1]⟩, provider := ⟨[8]⟩, protocols := [.bitswap] }
    let other : Candidate := { root := ⟨[1]⟩, provider := ⟨[9]⟩, protocols := [.http] }
    let c := (Course.begin { started := true } r none).run [.other 0x0900, .http] r
      [.learns s (.found (.ok [blocked, other, good]))]
    filtered c.told = [[good]] ∧ (.other 0x0900, [good]) ∈ c.called ∧
      (∀ l, (.http, l) ∉ c.called) ∧ ∀ result, c.phase ≠ .over result := by
  intro s r good blocked other c
  obtain ⟨htold, hcalled, -, -, -, hresult⟩ := run_dispatches [.other 0x0900, .http] (by decide) r s
    [blocked, other, good] []
  have hkept : [blocked, other, good].filter
      (fun c => decide (Wanted s [.other 0x0900, .http] r c)) = [good] := by decide
  have hwanted : s.sortCandidates [good] = [good] := List.mergeSort_singleton good
  rw [hkept, hwanted] at htold hcalled hresult
  refine ⟨htold, ?_, fun l hl => ?_, fun result h => ?_⟩
  · exact (hcalled _ _).2 ⟨List.mem_cons_self, allows_iff.1 (by decide), by decide, nofun⟩
  · have ha := allows_iff.2 ((hcalled _ _).1 hl).2.1
    exact absurd ha (by decide)
  · rcases hresult nofun result h with ⟨s', p, hm⟩ | ⟨s', e, -, hm⟩ <;> cases hm

end Courier.Orchestrator
