import Courier.Proofs.GatherSound
import Mathlib.Data.Set.Card

/-!
# A walk finds what can be reached

While a walk is there it gathers, and once it is over its result stands for what
it wrote (`At`). Every action that fits uses up some of a bounded load, so a walk
comes to its end in any order; and it has written all that can be reached, if
every block of that can be delivered.
-/

namespace Courier.Exchange.Quest

variable {q : Quest} {w w' : Walk} {k : Key} {es es' : List Effect} {f f' : Fetch} {b : Block}
  {c : Cid} {p : ProviderId} {l : List (Key × Walk)}

/-! ## Until it is over -/

/-- What the result of a walk stands for. -/
def Ends (q : Quest) (es : List Effect) : Except Error Tally → Prop
  | .error _ => ∃ c, q.Reaches c ∧ q.delivery? c = none
  | .ok t => t = q.tallyOf (writes es) ∧
      ∀ c, q.Reaches c → asked c es = q.turns c ∧ ∃ b ∈ writes es, b.cid = c

/-- The walk that is there, or what it came to. -/
inductive At (q : Quest) : List (Key × Walk) → List Effect → Prop
  | walking {k : Key} {w : Walk} {es : List Effect} : q.Gathers w es → results es = [] →
      At q [(k, w)] es
  | done {es : List Effect} {r : Except Error Tally} : q.Follows es → results es = [r] →
      q.Ends es r → At q [] es

theorem Gathers.moves (h : q.Gathers w es) (hr : results es = [])
    (ht : (w.fetches.map (·.ticket)).Nodup) (hm : q.Moves k w l es') : q.At l (es ++ es') := by
  have ended {n : List Effect} (r : Except Error Tally) (hn : ∀ e ∈ n, e.isNote = true)
      (he : q.Ends es r) : q.At [] (es ++ (n ++ [.finish k r])) := by
    obtain ⟨hnw, hnr, hna⟩ := silent_of_notes hn
    have hwr : writes (es ++ (n ++ [.finish k r])) = writes es := by simp [hnw]
    have has (c : Cid) : asked c (es ++ (n ++ [.finish k r])) = asked c es := by simp [hna]
    refine .done (r := r) (h.follows.congr hwr has) (by simp [hr, hnr]) ?_
    cases r with
    | error e => exact he
    | ok t =>
      simp only [Ends, hwr, has]
      exact he
  cases hm with
  | goes hf hw hg hn hs => exact .walking (h.goes ht hf hg hn) (by simp [hr])
  | fails hf hg hn hs hes =>
    refine ended _ hes ?_
    rw [h.providers] at hg
    have hst := (h.standing _ hf).goes hg hn
    unfold Standing at hst
    rw [hs, hg.cid] at hst
    exact ⟨_, h.reached _ (h.seen_of_fetch hf), delivery?_eq_none hst.2⟩
  | delivers hf hw hp hb hes =>
    obtain ⟨-, hnr, -⟩ := silent_of_notes hes
    exact .walking (h.delivers ht hw hf hp hb _ _ hes) (by simp [hr, hnr])
  | spawns hw hes =>
    obtain ⟨-, hnr, -⟩ := silent_of_notes hes
    exact .walking (h.spawns hw _ hes) (by simp [hr, hnr])
  | completes hw hf hes =>
    refine ended _ hes ⟨h.tally, fun c hc => ?_⟩
    have hparts := h.parts
    rw [hw, hf] at hparts
    have hall : ∀ c ∈ w.seen, c ∈ (writes es).map (·.cid) := fun c hc => by
      simpa using hparts.symm.subset hc
    obtain ⟨b, hb, rfl⟩ := List.mem_map.1 (hall c (h.reaches_seen hall hc))
    exact ⟨(h.served b hb).1, b, hb, rfl⟩

/-! ## Every walk comes to its end -/

/-- How many steps a fetch may yet take. -/
def ahead (n : Nat) (f : Fetch) : Nat :=
  match f.phase with
  | .fresh => n + 4
  | .awaitingOwn => n + 3
  | .awaitingShared => n + 2
  | .asking _ others => others.length + 2
  | .spent => 1

/-- A bound on the steps of a walk that may see `m` identifiers. -/
def load (m n : Nat) (w : Walk) : Nat :=
  (m - w.seen.length + (w.writing.getD []).length) * (n + 5) + (w.fetches.map (ahead n)).sum +
    if w.writing.isSome then 1 else 0

theorem ahead_turned (n : Nat) (f : Fetch) (l : List ProviderId) :
    ahead n (f.turned l) = l.length + 1 := by
  cases l <;> rfl

theorem ahead_goes {providers : List ProviderId} {own shared own' shared' : Slots} {a : Action}
    (hg : f.Goes providers own shared a f' own' shared') :
    ahead providers.length f' < ahead providers.length f := by
  cases hg with
  | linesUp hp => simp [ahead, hp]
  | enters hp hr => simp [ahead, hp]
  | begins hp hr => rw [ahead_turned]; simp [ahead, hp]
  | turns hp hne => rw [ahead_turned]; simp [ahead, hp]

theorem Moves.load_lt {m : Nat} (hm : q.Moves k w l es) (ht : (w.fetches.map (·.ticket)).Nodup)
    (hl : ∀ e ∈ l, e.2.seen.length ≤ m) :
    (l.map (load m w.providers.length ·.2)).sum < load m w.providers.length w := by
  have split {f : Fetch} (hf : f ∈ w.fetches) :
      (w.fetches.map (ahead w.providers.length)).sum = ahead w.providers.length f +
        ((w.fetches.filter (·.ticket ≠ f.ticket)).map (ahead w.providers.length)).sum :=
    ((Walk.fetches_perm ht hf).map _).sum_eq.trans List.sum_cons
  cases hm with
  | @goes f f' own own' shared shared' a hf hw hg hn hs =>
    have hlt := ahead_goes hg
    have hsum : ((Walk.setFetch { w with own := own' } f').fetches.map
        (ahead w.providers.length)).sum = ahead w.providers.length f' +
          ((w.fetches.filter (·.ticket ≠ f.ticket)).map (ahead w.providers.length)).sum :=
      ((Walk.setFetch_perm (w := { w with own := own' }) ht hf hg.ticket).map _).sum_eq.trans
        List.sum_cons
    simp only [List.map_cons, List.map_nil, List.sum_cons, List.sum_nil, load, split hf, hsum]
    simp only [Walk.setFetch, hw]
    omega
  | @fails f f' _ _ _ _ _ _ _ hf hg hn hs hes =>
    have hlt := ahead_goes hg
    simp only [List.map_nil, List.sum_nil, load, split hf]
    omega
  | @delivers f p others b own es hf hw hp hb hes =>
    have hle := hl _ List.mem_cons_self
    simp only [Walk.take, Walk.dropFetch, List.length_append, List.length_reverse] at hle
    have hf' : 2 ≤ ahead w.providers.length f := by simp [ahead, hp]
    simp only [List.map_cons, List.map_nil, List.sum_cons, List.sum_nil, load, split hf, hw,
      Walk.take, Walk.dropFetch, List.length_append, List.length_reverse, Option.getD_some,
      Option.getD_none, List.length_nil, Option.isSome_some, Option.isSome_none]
    have hroom : m - ((Walk.unseen w.seen b.links).length + w.seen.length) +
        (Walk.unseen w.seen b.links).length = m - w.seen.length := by omega
    rw [hroom]
    simp
    omega
  | @spawns links t es hw hes =>
    have hnew : ((spawned t links).map (ahead w.providers.length)).sum =
        links.length * (w.providers.length + 4) := by
      have hc : ∀ a ∈ (spawned t links).map (ahead w.providers.length),
          a = w.providers.length + 4 := by
        intro a ha
        obtain ⟨f, hf, rfl⟩ := List.mem_map.1 ha
        simp [ahead, (mem_spawned hf).1]
      rw [List.eq_replicate_of_mem hc, List.sum_replicate]
      simp [spawned]
    have hsum : ((Walk.spawn { w with writing := none } t links).fetches.map
        (ahead w.providers.length)).sum = (w.fetches.map (ahead w.providers.length)).sum +
          links.length * (w.providers.length + 4) := by
      rw [← hnew, ← List.sum_append, ← List.map_append]
      rfl
    simp only [List.map_cons, List.map_nil, List.sum_cons, List.sum_nil, load, hsum, hw]
    simp only [Walk.spawn, Option.getD_some, Option.getD_none, List.length_nil,
      Option.isSome_some, Option.isSome_none, Nat.add_mul, Nat.mul_add]
    simp
    omega
  | completes hw hf hes =>
    simp [load, hw]

/-! ## Runs -/

variable {x : Exchange} {a : Action} {n : Nat}

theorem length_le_ncard {l : List Cid} (hl : l.Nodup) (hr : ∀ c ∈ l, q.Reaches c)
    (hq : {c | q.Reaches c}.Finite) : l.length ≤ {c | q.Reaches c}.ncard := by
  rw [← List.toFinset_card_of_nodup hl, ← Set.ncard_coe_finset]
  refine Set.ncard_le_ncard (fun c hc => ?_) hq
  exact hr c (List.mem_toFinset.1 (Finset.mem_coe.1 hc))

theorem At.seen_le (h : q.At l es) (hq : {c | q.Reaches c}.Finite) :
    ∀ e ∈ l, e.2.seen.length ≤ {c | q.Reaches c}.ncard := by
  intro e he
  cases h with
  | walking hg hr =>
    rw [List.mem_singleton.1 he]
    exact length_le_ncard hg.distinct hg.reached hq
  | done => cases he

theorem Fits.walks_ne_nil (h : q.Fits x a) : x.walks ≠ [] := by
  have known {k : Key} {w : Walk} (hk : x.walk? k = some w) : x.walks ≠ [] :=
    List.ne_nil_of_mem (mem_of_walk? hk)
  cases a with
  | advance t => obtain ⟨k, w, f, hk, -⟩ := h; exact known hk
  | answer t ended a => obtain ⟨-, k, w, f, p, others, hk, -⟩ := h; exact known hk
  | written k r => obtain ⟨⟨w, links, hk, -⟩, -⟩ := h; exact known hk
  | _ => exact h.elim

/-- A bound on the steps of all walks. -/
def totalLoad (m n : Nat) (l : List (Key × Walk)) : Nat := (l.map (load m n ·.2)).sum

theorem At.step (hx : x.Tidy) (hq : {c | q.Reaches c}.Finite) (h : q.At x.walks es)
    (ha : q.Fits x a) :
    q.At (x.step a).1.walks (es ++ (x.step a).2) ∧
      totalLoad {c | q.Reaches c}.ncard q.providers.length (x.step a).1.walks <
        totalLoad {c | q.Reaches c}.ncard q.providers.length x.walks := by
  generalize hl : x.walks = l at h
  cases h with
  | done => exact absurd hl ha.walks_ne_nil
  | @walking k w _ hg hr =>
    have hk : x.walk? k = some w := by simp [walk?, hl]
    have ht := hx.walk_tickets hk
    have hm := ha.moves hx hl
    have hat := hg.moves hr ht hm
    refine ⟨hat, ?_⟩
    have hlt := hm.load_lt ht (hat.seen_le hq)
    rw [hg.providers] at hlt
    unfold totalLoad
    simpa using hlt

theorem At.run (hx : x.Sound n) (hq : {c | q.Reaches c}.Finite) (h : q.At x.walks es)
    {as : List Action} (has : q.Fitting x as) :
    q.At (x.run as).1.walks (es ++ (x.run as).2) ∧
      as.length ≤ totalLoad {c | q.Reaches c}.ncard q.providers.length x.walks := by
  induction as generalizing x es with
  | nil => exact ⟨by simpa [Exchange.run] using h, Nat.zero_le _⟩
  | cons a as ih =>
    obtain ⟨ha, has⟩ := has
    obtain ⟨hat, hlt⟩ := h.step hx.toTidy hq ha
    obtain ⟨hat', hle⟩ := ih (hx.step a) hat has
    rw [List.append_assoc] at hat'
    exact ⟨hat', Nat.lt_of_le_of_lt hle hlt⟩

/-- A walk that is not over can go on. -/
theorem exists_fits (q : Quest) (hx : x.Sound n) (hn : n ≠ 0) (hm : x.width ≠ 0)
    (hne : x.walks ≠ []) : ∃ a, q.Fits x a := by
  rcases hx.under_way hn hm hne with ⟨k, w, links, hk, hl⟩ | ⟨k, w, f, hk, hw, hf, ha⟩ | ⟨t, ht⟩
  · exact ⟨.written k (.ok ()), ⟨w, links, hk, hl⟩, rfl⟩
  · unfold Fetch.isAsking at ha
    split at ha
    · next p others hp =>
      exact ⟨.answer f.ticket none (q.host p f.cid), rfl, k, w, f, p, others, hk, hf, rfl, hw, hp,
        rfl⟩
    · cases ha
  · exact ⟨.advance t, ht⟩

/-! ## What a walk finds -/

theorem exists_found (q : Quest) (hq : {c | q.Reaches c}.Finite) :
    ∃ found : List Block, (found.map (·.cid)).Nodup ∧
      ∀ b, b ∈ found ↔ q.Reaches b.cid ∧ ∃ p, q.delivery? b.cid = some (b, p) := by
  refine ⟨hq.toFinset.toList.filterMap fun c => (q.delivery? c).map (·.1), ?_, fun b => ?_⟩
  · have hs (l : List Cid) :
        ((l.filterMap fun c => (q.delivery? c).map (·.1)).map (·.cid)).Sublist l := by
      induction l with
      | nil => exact .slnil
      | cons c l ih =>
        rw [List.filterMap_cons]
        cases hd : q.delivery? c with
        | none => exact ih.cons c
        | some e =>
          rw [Option.map_some, List.map_cons, cid_of_delivery? (b := e.1) (p := e.2) hd]
          exact ih.cons_cons c
    exact hq.toFinset.nodup_toList.sublist (hs _)
  · simp only [List.mem_filterMap, Finset.mem_toList, Set.Finite.mem_toFinset, Set.mem_ofPred_eq,
      Option.map_eq_some_iff]
    constructor
    · rintro ⟨c, hc, ⟨b', p⟩, hd, rfl⟩
      have hcid : b'.cid = c := cid_of_delivery? hd
      rw [hcid]
      exact ⟨hc, p, hd⟩
    · rintro ⟨hc, p, hd⟩
      exact ⟨b.cid, hc, (b, p), hd, rfl⟩

theorem length_found {found : List Block} (hf : (found.map (·.cid)).Nodup)
    (h : ∀ c, q.Reaches c ↔ c ∈ found.map (·.cid)) : found.length = {c | q.Reaches c}.ncard := by
  have hs : {c | q.Reaches c} = ((found.map (·.cid)).toFinset : Set Cid) := by
    ext c
    simp only [Set.mem_ofPred_eq, h c, Finset.mem_coe, List.mem_toFinset]
  rw [hs, Set.ncard_coe_finset, List.toFinset_card_of_nodup hf, List.length_map]

/-- The result of a walk that is over, told from what there is to find. -/
theorem Ends.found {r : Except Error Tally} (h : q.Ends es r) (hf : q.Follows es)
    {found : List Block} (hnd : (found.map (·.cid)).Nodup)
    (hmem : ∀ b, b ∈ found ↔ q.Reaches b.cid ∧ ∃ p, q.delivery? b.cid = some (b, p)) :
    ((∃ t, r = .ok t) ↔ ∀ c, q.Reaches c → (q.delivery? c).isSome) ∧
      ∀ t, r = .ok t → (writes es).Perm found ∧ (∀ c, q.Reaches c → asked c es = q.turns c) ∧
        t = { provider := (q.delivery? q.root).map (·.2), size := totalSize found,
              blocks := {c | q.Reaches c}.ncard } := by
  cases r with
  | error e =>
    obtain ⟨c, hc, hd⟩ := h
    refine ⟨⟨nofun, fun hall => ?_⟩, nofun⟩
    have hs := hall c hc
    rw [hd] at hs
    cases hs
  | ok t =>
    obtain ⟨ht, hall⟩ := h
    refine ⟨⟨fun _ c hc => ?_, fun _ => ⟨t, rfl⟩⟩, ?_⟩
    · obtain ⟨-, b, hb, rfl⟩ := hall c hc
      obtain ⟨-, p, hd⟩ := hf.delivered b hb
      simp [hd]
    rintro t' ⟨rfl⟩
    have hperm : (writes es).Perm found := by
      refine (List.perm_ext_iff_of_nodup hf.once.of_map hnd.of_map).2 fun b => ?_
      rw [hmem]
      refine ⟨hf.delivered b, fun ⟨hr, p, hd⟩ => ?_⟩
      obtain ⟨-, a, ha, hab⟩ := hall _ hr
      obtain ⟨-, p', hd'⟩ := hf.delivered a ha
      rw [hab, hd] at hd'
      cases hd'
      exact ha
    refine ⟨hperm, fun c hc => (hall c hc).1, ?_⟩
    have hne : writes es ≠ [] := by
      obtain ⟨-, b, hb, -⟩ := hall _ .root
      exact List.ne_nil_of_mem hb
    have hcids : ∀ c, q.Reaches c ↔ c ∈ found.map (·.cid) := by
      intro c
      constructor
      · intro hc
        obtain ⟨-, b, hb, rfl⟩ := hall c hc
        exact List.mem_map_of_mem (hperm.subset hb)
      · intro hc
        obtain ⟨b, hb, rfl⟩ := List.mem_map.1 hc
        exact ((hmem b).1 hb).1
    rw [ht, ← tallyOf_provider hf.linked hne, ← totalSize_perm hperm, ← length_found hnd hcids,
      ← hperm.length_eq]
    rfl

/-- A walk over finitely many blocks comes to its end in whichever order fetches go on and providers
answer, and with whichever settings. It succeeds if every block that can be reached is delivered by
some provider. Then it has written them all, each once and after one that links to it, and asked for
each those in whose turn it was; its result is the same in every order. Otherwise, too, it writes
nothing else and nothing twice. -/
theorem run_gathers (q : Quest) (hq : {c | q.Reaches c}.Finite) :
    ∃ found : List Block, (found.map (·.cid)).Nodup ∧
      (∀ b, b ∈ found ↔ q.Reaches b.cid ∧ ∃ p, q.delivery? b.cid = some (b, p)) ∧
      ∀ (c : Config) (x : Exchange), ofConfig? c = some x → x.admits = true →
      ∀ as, q.Fitting (x.step (.start q.root q.providers)).1 as →
        let z := x.run (.start q.root q.providers :: as)
        as.length ≤ {c | q.Reaches c}.ncard * (q.providers.length + 5) ∧
        q.Follows z.2 ∧
        ((∀ a, ¬ q.Fits z.1 a) → z.1.walks = [] ∧ ∃ r, results z.2 = [r] ∧
          ((∃ t, r = .ok t) ↔ ∀ c, q.Reaches c → (q.delivery? c).isSome) ∧
          ∀ t, r = .ok t → (writes z.2).Perm found ∧
            (∀ c, q.Reaches c → asked c z.2 = q.turns c) ∧
            t = { provider := (q.delivery? q.root).map (·.2), size := totalSize found,
                  blocks := {c | q.Reaches c}.ncard }) := by
  obtain ⟨found, hnd, hmem⟩ := q.exists_found hq
  refine ⟨found, hnd, hmem, ?_⟩
  intro c x hx hadm as has z
  have hsound := sound_ofConfig hx
  have hstep : x.step (.start q.root q.providers) = (x.start q.root q.providers).2 := if_pos hadm
  have hwalks : x.walks = [] := by rw [ofConfig?_eq hx]
  have hstart : q.At (x.step (.start q.root q.providers)).1.walks
      (x.step (.start q.root q.providers)).2 := by
    rw [hstep]
    simp only [start, hwalks, List.nil_append]
    exact .walking (.starts q _ _ (by simp [Effect.isNote])) rfl
  obtain ⟨hat, hle⟩ := hstart.run (hsound.step _) hq has
  have hload : totalLoad {c | q.Reaches c}.ncard q.providers.length
      (x.step (.start q.root q.providers)).1.walks ≤
        {c | q.Reaches c}.ncard * (q.providers.length + 5) := by
    have hone := length_le_ncard (List.nodup_singleton q.root)
      (fun c hc => List.mem_singleton.1 hc ▸ .root) hq
    rw [hstep]
    obtain ⟨m, hm⟩ := Nat.exists_eq_add_of_le' hone
    simp only [start, hwalks, List.nil_append, totalLoad, load, Walk.spawn, hm]
    simp [Nat.add_mul, ahead]
  have hz : q.At z.1.walks z.2 := hat
  refine ⟨Nat.le_trans hle hload, ?_, ?_⟩
  · generalize z.1.walks = l at hz
    cases hz with
    | walking hg hr => exact hg.follows
    | done hf hr he => exact hf
  · intro hstuck
    obtain ⟨hs, hw⟩ := hsound.run (.start q.root q.providers :: as)
    have hwidth : z.1.width ≠ 0 := by
      rw [hw, ofConfig?_eq hx]
      exact Nat.ne_of_gt (Nat.le_max_left 1 _)
    have hover : z.1.walks = [] := by
      by_contra hne
      obtain ⟨a, ha⟩ := q.exists_fits hs (Nat.ne_of_gt (Nat.le_max_left 1 _)) hwidth hne
      exact hstuck a ha
    refine ⟨hover, ?_⟩
    rw [hover] at hz
    cases hz with
    | done hf hr he => exact ⟨_, hr, he.found hf hnd hmem⟩

/-- Two blocks that link to each other, and the first to itself; only one of two providers has the
second. -/
def cycle : Quest where
  root := ⟨[1]⟩
  providers := [⟨[7]⟩, ⟨[8]⟩]
  host p c :=
    if c = ⟨[1]⟩ then .ok { cid := c, data := [0, 0], links := [⟨[1]⟩, ⟨[2]⟩, ⟨[2]⟩] }
    else if p = ⟨[8]⟩ then .ok { cid := c, data := [0], links := [⟨[1]⟩] }
    else .error .deadlineExceeded

theorem reaches_cycle (h : cycle.Reaches c) : c = ⟨[1]⟩ ∨ c = ⟨[2]⟩ := by
  induction h with
  | root => exact .inl rfl
  | link hr hd hl ih =>
    have h₁ : cycle.delivery? ⟨[1]⟩ =
        some ({ cid := ⟨[1]⟩, data := [0, 0], links := [⟨[1]⟩, ⟨[2]⟩, ⟨[2]⟩] }, ⟨[7]⟩) := by decide
    have h₂ : cycle.delivery? ⟨[2]⟩ =
        some ({ cid := ⟨[2]⟩, data := [0], links := [⟨[1]⟩] }, ⟨[8]⟩) := by decide
    rcases ih with rfl | rfl
    · rw [h₁] at hd
      cases hd
      simpa using hl
    · rw [h₂] at hd
      cases hd
      exact .inl (by simpa using hl)

theorem finite_cycle : {c | cycle.Reaches c}.Finite :=
  (Set.toFinite {⟨[1]⟩, ⟨[2]⟩}).subset fun _ hc => reaches_cycle hc

/-- With one slot the blocks of the cycle are fetched one after the other. -/
theorem gathers_cycle :
    ∃ x, ofConfig? { concurrency := 1, concurrencyPerRetrieval := 1 } = some x ∧
      let z := x.run (.start cycle.root cycle.providers ::
        [.advance 1, .advance 1, .advance 1, .answer 1 none (cycle.host ⟨[7]⟩ ⟨[1]⟩),
          .written 0 (.ok ()), .advance 2, .advance 2, .advance 2,
          .answer 2 none (cycle.host ⟨[7]⟩ ⟨[2]⟩), .answer 2 none (cycle.host ⟨[8]⟩ ⟨[2]⟩),
          .written 0 (.ok ())])
      cycle.Follows z.2 ∧ results z.2 = [.ok { provider := some ⟨[7]⟩, size := 3, blocks := 2 }] ∧
        ∀ t, results z.2 = [.ok t] → t.blocks = {c | cycle.Reaches c}.ncard := by
  obtain ⟨found, -, -, h⟩ := run_gathers cycle finite_cycle
  refine ⟨_, rfl, ?_⟩
  intro z
  have hz := h { concurrency := 1, concurrencyPerRetrieval := 1 } _ rfl (by decide)
    [.advance 1, .advance 1, .advance 1, .answer 1 none (cycle.host ⟨[7]⟩ ⟨[1]⟩),
      .written 0 (.ok ()), .advance 2, .advance 2, .advance 2,
      .answer 2 none (cycle.host ⟨[7]⟩ ⟨[2]⟩), .answer 2 none (cycle.host ⟨[8]⟩ ⟨[2]⟩),
      .written 0 (.ok ())]
    ⟨⟨0, _, _, rfl, List.mem_cons_self, rfl, rfl, by decide⟩,
      ⟨0, _, _, rfl, List.mem_cons_self, rfl, rfl, by decide⟩,
      ⟨0, _, _, rfl, List.mem_cons_self, rfl, rfl, by decide⟩,
      ⟨rfl, 0, _, _, _, _, rfl, List.mem_cons_self, rfl, rfl, rfl, rfl⟩,
      ⟨⟨_, _, rfl, rfl⟩, rfl⟩,
      ⟨0, _, _, rfl, List.mem_cons_self, rfl, rfl, by decide⟩,
      ⟨0, _, _, rfl, List.mem_cons_self, rfl, rfl, by decide⟩,
      ⟨0, _, _, rfl, List.mem_cons_self, rfl, rfl, by decide⟩,
      ⟨rfl, 0, _, _, _, _, rfl, List.mem_cons_self, rfl, rfl, rfl, rfl⟩,
      ⟨rfl, 0, _, _, _, _, rfl, List.mem_cons_self, rfl, rfl, rfl, rfl⟩,
      ⟨⟨_, _, rfl, rfl⟩, rfl⟩, trivial⟩
  have hover : ∀ a, ¬ cycle.Fits z.1 a := fun a ha => ha.walks_ne_nil rfl
  obtain ⟨-, r, hr, -, hok⟩ := hz.2.2 hover
  refine ⟨hz.2.1, rfl, fun t ht => ?_⟩
  rw [ht, List.cons.injEq] at hr
  rw [(hok t hr.1.symm).2.2]

/-! ## Settings that are too large -/

theorem run_idle (hx : x.Tidy) (hw : x.walks = []) (ha : x.admits = false) (as : List Action) :
    x.run as = (x, []) := by
  have hstep (a : Action) : x.step a = (x, []) := by
    refine step_of_not_heeds hx fun h => ?_
    have known {k : Key} {w : Walk} (hk : x.walk? k = some w) : False := by
      have hm := mem_of_walk? hk
      rw [hw] at hm
      cases hm
    cases a with
    | start root providers => exact absurd (ha.symm.trans h) nofun
    | advance t => obtain ⟨k, w, f, hk, -⟩ := h; exact known hk
    | answer t ended a => obtain ⟨k, w, f, p, others, hk, -⟩ := h; exact known hk
    | written k r => obtain ⟨w, links, hk, -⟩ := h; exact known hk
    | drop k => obtain ⟨w, hk⟩ := h; exact known hk
  induction as with
  | nil => rfl
  | cons a as ih => simp only [Exchange.run, hstep a, ih, List.append_nil]

/-- With more slots for a retrieval than there can be no walk begins, so there is no result, be
every block delivered or not. -/
theorem no_result_of_too_many_slots :
    ∃ x, ofConfig? { concurrency := 6, concurrencyPerRetrieval := 2305843009213693952 } = some x ∧
      (∀ c, cycle.Reaches c → (cycle.delivery? c).isSome) ∧
      ∀ as, results (x.run (.start cycle.root cycle.providers :: as)).2 = [] := by
  refine ⟨_, rfl, ?_, fun as => ?_⟩
  · intro c hc
    rcases reaches_cycle hc with rfl | rfl <;> decide
  · have hx := sound_ofConfig
      (c := { concurrency := 6, concurrencyPerRetrieval := 2305843009213693952 }) rfl
    exact congrArg (results ·.2) (run_idle hx.toTidy rfl (by decide) _)

end Courier.Exchange.Quest
