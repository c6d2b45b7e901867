import Mathlib.Data.List.Induction
import Courier.Exchange.Inquiry
import Courier.Proofs.FamilySound
import Courier.Proofs.HoldingSound
/-!
# Fetches fall back from provider to provider

A fetch has some providers behind it, each of which was asked in its turn and
did not deliver (`Rounds`). `Stands` says what has become of the one after
them, and what the result is if there is one. Every glance adds to one of the
two, whatever comes and whenever contexts end.
-/

namespace Courier.Exchange.Inquiry

variable (q : Inquiry)

/-! ## One provider -/

/-- A provider was asked at some instant, and has been waited for since. -/
inductive Awaited (m : Moment) :
    Instant → List Look → Moment → Context → Prop
  | asked {g : Look} :
      (q.child (m.after g)).1.error? (q.child (m.after g)).2 = none →
      Awaited m (m.after g).now [g] (q.child (m.after g)).2 (q.child (m.after g)).1
  | waits {t : Instant} {gs : List Look} {m' : Moment} {c : Context}
      {g : Look} : Awaited m t gs m' c → g.came = none →
      c.error? (m'.after g) = none → Awaited m t (gs ++ [g]) (m'.after g) c

/-- A provider failed, and when it was asked, if it was. -/
inductive Failed (m : Moment) :
    Option Instant → List Look → Moment → Error → Prop
  | barred {g : Look} {e : Error} :
      (q.child (m.after g)).1.error? (q.child (m.after g)).2 = some e →
      Failed m none [g] (q.child (m.after g)).2 e
  | answered {t : Instant} {gs : List Look} {m' : Moment} {c : Context}
      {g : Look} {e : Error} : Awaited q m t gs m' c →
      g.came = some (.error e) → Failed m (some t) (gs ++ [g]) (m'.after g) e
  | ranOut {t : Instant} {gs : List Look} {m' : Moment} {c : Context}
      {g : Look} {e : Error} : Awaited q m t gs m' c → g.came = none →
      c.error? (m'.after g) = some e → Failed m (some t) (gs ++ [g]) (m'.after g) e

/-- A provider did not deliver, and the error that stands for it. -/
inductive Missed (m : Moment) :
    Option Instant → List Look → Moment → Error → Prop
  | failed {t : Option Instant} {gs : List Look} {m' : Moment}
      {g : Look} {e : Error} : Failed q m t gs m' e →
      q.caller.error? (m'.after g) = none →
      Missed m t (gs ++ [g]) (m'.after g) (blame q.limit e)
  | strayed {t : Instant} {gs : List Look} {m' : Moment} {c : Context}
      {g : Look} {b : Block} : Awaited q m t gs m' c →
      g.came = some (.ok b) → b.cid ≠ q.cid →
      Missed m (some t) (gs ++ [g]) (m'.after g) (.failed (.wrongBlock q.cid b.cid))

/-! ## One after the other -/

/-- Some providers in order, none of which delivered, and the error of the last of them. -/
inductive Rounds (m : Moment) : List ProviderId → List Look → Moment →
    List (ProviderId × Instant) → Error → Prop
  | begun : Rounds m [] [] m [] (.failed (.noBlockCandidate q.cid))
  | more {ps : List ProviderId} {gs gs' : List Look} {m' m'' : Moment}
      {asked : List (ProviderId × Instant)} {last e : Error} {p : ProviderId} {t : Option Instant} :
      Rounds m ps gs m' asked last → Missed q m' t gs' m'' e →
      Rounds m (ps ++ [p]) (gs ++ gs') m'' (asked ++ t.toList.map (p, ·)) e

/-- How a fetch stands after some glances. -/
inductive Stands (m : Moment) (providers : List ProviderId) :
    List Look → State → Prop
  | turning {ps left : List ProviderId} {gs : List Look} {m' : Moment}
      {asked : List (ProviderId × Instant)} {last : Error} : Rounds q m ps gs m' asked last →
      providers = ps ++ left → Stands m providers gs ⟨m', asked, .turning last left⟩
  | exhausted {gs : List Look} {m' : Moment}
      {asked : List (ProviderId × Instant)} {last : Error} {g : Look} :
      Rounds q m providers gs m' asked last →
      Stands m providers (gs ++ [g]) ⟨m'.after g, asked, .over (.error last)⟩
  | asking {ps others : List ProviderId} {gs gs' : List Look}
      {m' m'' : Moment} {asked : List (ProviderId × Instant)} {last : Error} {p : ProviderId}
      {t : Instant} {c : Context} : Rounds q m ps gs m' asked last → providers = ps ++ p :: others →
      Awaited q m' t gs' m'' c →
      Stands m providers (gs ++ gs') ⟨m'', asked ++ [(p, t)], .asking p others c⟩
  | failing {ps others : List ProviderId} {gs gs' : List Look}
      {m' m'' : Moment} {asked : List (ProviderId × Instant)} {last e : Error} {p : ProviderId}
      {t : Option Instant} : Rounds q m ps gs m' asked last → providers = ps ++ p :: others →
      Failed q m' t gs' m'' e →
      Stands m providers (gs ++ gs') ⟨m'', asked ++ t.toList.map (p, ·), .failing p others e⟩
  | ended {ps others : List ProviderId} {gs gs' : List Look}
      {m' m'' : Moment} {asked : List (ProviderId × Instant)} {last e e' : Error} {p : ProviderId}
      {t : Option Instant} {g : Look} : Rounds q m ps gs m' asked last →
      providers = ps ++ p :: others → Failed q m' t gs' m'' e →
      q.caller.error? (m''.after g) = some e' →
      Stands m providers (gs ++ (gs' ++ [g]))
        ⟨m''.after g, asked ++ t.toList.map (p, ·), .over (.error e')⟩
  | delivered {ps others : List ProviderId} {gs gs' : List Look}
      {m' m'' : Moment} {asked : List (ProviderId × Instant)} {last : Error} {p : ProviderId}
      {t : Instant} {c : Context} {g : Look} {b : Block} :
      Rounds q m ps gs m' asked last → providers = ps ++ p :: others → Awaited q m' t gs' m'' c →
      g.came = some (.ok b) → b.cid = q.cid →
      Stands m providers (gs ++ (gs' ++ [g])) ⟨m''.after g, asked ++ [(p, t)], .over (.ok (b, p))⟩
  | rests {gs : List Look} {m' : Moment}
      {asked : List (ProviderId × Instant)} {r : Except Error (Block × ProviderId)}
      {g : Look} : Stands m providers gs ⟨m', asked, .over r⟩ →
      Stands m providers (gs ++ [g]) ⟨m'.after g, asked, .over r⟩

variable {q} {m m' : Moment} {providers : List ProviderId}
  {gs : List Look} {s : State}

/-! ## A glance -/

theorem Stands.next (h : Stands q m providers gs s) (g : Look) :
    Stands q m providers (gs ++ [g]) (q.next s g) := by
  cases h with
  | @turning ps left gs m' asked last hr hp =>
    cases left with
    | nil =>
      rw [List.append_nil] at hp
      exact .exhausted (hp ▸ hr)
    | cons p others =>
      cases he : (q.child (m'.after g)).1.error? (q.child (m'.after g)).2 with
      | some e =>
        simp only [Inquiry.next, turn, he]
        have h := Stands.failing hr hp (Failed.barred he)
        rw [Option.toList_none, List.map_nil, List.append_nil] at h
        exact h
      | none =>
        simp only [Inquiry.next, turn, he]
        exact .asking hr hp (.asked he)
  | exhausted hr => exact .rests (.exhausted hr)
  | @asking ps others gs gs' m' m'' asked last p t c hr hp ha =>
    rw [List.append_assoc]
    cases hcame : g.came with
    | some a =>
      cases a with
      | ok b =>
        by_cases hb : b.cid = q.cid
        · simp only [Inquiry.next, hcame, hb, if_true]
          exact .delivered hr hp ha hcame hb
        · simp only [Inquiry.next, hcame, hb, if_false]
          refine .turning (.more hr (.strayed ha hcame hb)) ?_
          rw [hp, List.append_assoc, List.singleton_append]
      | error e =>
        simp only [Inquiry.next, hcame]
        exact .failing hr hp (.answered ha hcame)
    | none =>
      cases he : c.error? (m''.after g) with
      | some e =>
        simp only [Inquiry.next, hcame, he]
        exact .failing hr hp (.ranOut ha hcame he)
      | none =>
        simp only [Inquiry.next, hcame, he]
        exact .asking hr hp (.waits ha hcame he)
  | @failing ps others gs gs' m' m'' asked last e p t hr hp hf =>
    rw [List.append_assoc]
    cases he : q.caller.error? (m''.after g) with
    | some e' =>
      simp only [Inquiry.next, he]
      exact .ended hr hp hf he
    | none =>
      simp only [Inquiry.next, he]
      refine .turning (.more hr (.failed hf he)) ?_
      rw [hp, List.append_assoc, List.singleton_append]
  | ended hr hp hf he => exact .rests (.ended hr hp hf he)
  | delivered hr hp ha hcame hb => exact .rests (.delivered hr hp ha hcame hb)
  | rests h => exact .rests (.rests h)

theorem Stands.run (h : Stands q m providers gs s) (gs' : List Look) :
    Stands q m providers (gs ++ gs') (q.run s gs') := by
  induction gs' generalizing gs s with
  | nil => rwa [List.append_nil]
  | cons g gs' ih =>
    have h' := ih (h.next g)
    rw [List.append_assoc] at h'
    exact h'

/-- A provider is waited for until the time for one is up, and no longer. -/
theorem Awaited.before {t : Instant} {c : Context} (h : Awaited q m t gs m' c) :
    c.deadline = Context.earlier q.caller.deadline (Instant.add? t q.limit) ∧
      c.error? m' = none := by
  induction h with
  | asked he => exact ⟨rfl, he⟩
  | waits _ _ he ih => exact ⟨ih.1, he⟩

theorem Awaited.now_lt {t u : Instant} {c : Context} (h : Awaited q m t gs m' c)
    (hu : Instant.add? t q.limit = some u) : m'.now < u := by
  obtain ⟨hd, he⟩ := h.before
  obtain ⟨-, hlt⟩ := (Context.error_eq_none_iff c m').mp he
  rw [hu] at hd
  cases hq : q.caller.deadline with
  | none => exact hlt u (by rw [hd, hq]; rfl)
  | some d => exact Nat.lt_of_lt_of_le (hlt (min d u) (by rw [hd, hq]; rfl)) (Nat.min_le_right d u)

theorem Stands.waiting (h : Stands q m providers gs s) {p : ProviderId} {others : List ProviderId}
    {c : Context} (hs : s.stage = .asking p others c) :
    ∃ t, s.asked.getLast? = some (p, t) ∧
      ∀ u, Instant.add? t q.limit = some u → s.moment.now < u := by
  cases h with
  | @asking ps others' gs gs' m' m'' asked last p' t c' hr hp ha =>
    obtain ⟨rfl, rfl, rfl⟩ : p' = p ∧ others' = others ∧ c' = c := by simpa using hs
    exact ⟨t, by simp, fun u => ha.now_lt⟩
  | _ => cases hs

/-! ## Who is asked -/

theorem sane_after (m : Moment) (hm : m.Sane) (g : Look) : (m.after g).Sane := by
  intro s hs
  rcases List.mem_append.mp hs with hs | hs
  · exact of_decide_eq_true (List.mem_filter.mp hs).2
  · exact hm s hs

theorem sane_child (hm : m.Sane) : (q.child m).2.Sane :=
  fun s hs => Nat.lt_succ_of_lt (hm s hs)

theorem Awaited.sane {t : Instant} {c : Context} (h : Awaited q m t gs m' c) (hm : m.Sane) :
    m'.Sane := by
  induction h with
  | asked => exact sane_child (sane_after m hm _)
  | waits _ _ _ ih => exact sane_after _ ih _

theorem Failed.sane {t : Option Instant} {e : Error} (h : Failed q m t gs m' e) (hm : m.Sane) :
    m'.Sane := by
  cases h with
  | barred => exact sane_child (sane_after m hm _)
  | answered ha => exact sane_after _ (ha.sane hm) _
  | ranOut ha => exact sane_after _ (ha.sane hm) _

theorem Missed.sane {t : Option Instant} {e : Error} (h : Missed q m t gs m' e) (hm : m.Sane) :
    m'.Sane := by
  cases h with
  | failed hf => exact sane_after _ (hf.sane hm) _
  | strayed ha => exact sane_after _ (ha.sane hm) _

/-- Under a live caller there is time to ask, if there is any time for one provider. -/
theorem child_live (hm : m.Sane) (hlimit : 0 < q.limit.total) (h : q.caller.error? m = none) :
    (q.child m).1.error? (q.child m).2 = none := by
  obtain ⟨hno, hlt⟩ := (Context.error_eq_none_iff _ _).mp h
  refine (Context.error_eq_none_iff _ _).mpr ⟨?_, fun d hd => ?_⟩
  · rintro ⟨j, hj, hg⟩
    rcases List.mem_append.mp hj with hj | hj
    · exact hno ⟨j, hj, hg⟩
    · rw [List.mem_singleton.mp hj] at hg
      exact Nat.lt_irrefl _ (hm _ hg)
  · have hown : ∀ u, Instant.add? m.now q.limit = some u → m.now < u := by
      intro u hu
      unfold Instant.add? at hu
      split at hu
      · obtain rfl := Option.some.inj hu
        exact Nat.lt_add_of_pos_right hlimit
      · cases hu
    have hd : Context.earlier q.caller.deadline (Instant.add? m.now q.limit) = some d := hd
    cases hq : q.caller.deadline with
    | none =>
      rw [hq] at hd
      exact hown d hd
    | some d' =>
      rw [hq] at hd
      cases hu : Instant.add? m.now q.limit with
      | none =>
        rw [hu] at hd
        obtain rfl := Option.some.inj hd
        exact hlt d' hq
      | some u =>
        rw [hu] at hd
        obtain rfl := Option.some.inj hd
        exact Nat.lt_min.mpr ⟨hlt d' hq, hown u hu⟩

theorem Missed.asked {t : Option Instant} {e : Error} (h : Missed q m t gs m' e) (hm : m.Sane)
    (hlimit : 0 < q.limit.total) : t.isSome := by
  cases h with
  | @failed t gs m' g e hf hlive =>
    cases hf with
    | @barred g₀ e he =>
      -- the caller's context was live already when it was turned to
      have hlive₀ : q.caller.error? (m.after g₀) = none := by
        cases he₀ : q.caller.error? (m.after g₀) with
        | none => rfl
        | some e₀ =>
          have hlast := Context.over_after (m := (q.child (m.after g₀)).2) (c := q.caller) g
            (Option.isSome_iff_exists.mpr ⟨e₀, he₀⟩)
          rw [hlive] at hlast
          cases hlast
      rw [child_live (sane_after m hm g₀) hlimit hlive₀] at he
      cases he
    | answered => rfl
    | ranOut => rfl
  | strayed => rfl

theorem map_asked (p : ProviderId) (t : Option Instant) :
    ((t.toList.map (p, ·)).map Prod.fst).Sublist [p] := by
  cases t with
  | none => exact List.nil_sublist _
  | some t => exact .refl _

theorem Rounds.asked {ps : List ProviderId} {asked : List (ProviderId × Instant)} {last : Error}
    (h : Rounds q m ps gs m' asked last) : (asked.map Prod.fst).Sublist ps ∧
      (m.Sane → 0 < q.limit.total → asked.map Prod.fst = ps ∧ m'.Sane) := by
  induction h with
  | begun => exact ⟨.refl _, fun hm _ => ⟨rfl, hm⟩⟩
  | @more ps gs gs' m' m'' asked last e p t hr hmiss ih =>
    rw [List.map_append]
    refine ⟨ih.1.append (map_asked p t), fun hm hlimit => ?_⟩
    obtain ⟨heq, hsane⟩ := ih.2 hm hlimit
    obtain ⟨t, rfl⟩ := Option.isSome_iff_exists.mp (hmiss.asked hsane hlimit)
    exact ⟨by rw [heq]; rfl, hmiss.sane hsane⟩

/-- Providers are asked in order and each at most once; none is passed over, unless there is no
time for a provider at all. -/
theorem Stands.order (h : Stands q m providers gs s) :
    (s.asked.map Prod.fst).Sublist providers ∧
      (m.Sane → 0 < q.limit.total → s.asked.map Prod.fst <+: providers) := by
  -- what was asked before, and then perhaps one more
  have more {ps others : List ProviderId} {gs : List Look} {m' : Moment}
      {asked : List (ProviderId × Instant)} {last : Error} {p : ProviderId}
      (hr : Rounds q m ps gs m' asked last) (hp : providers = ps ++ p :: others)
      (t : Option Instant) : ((asked ++ t.toList.map (p, ·)).map Prod.fst).Sublist providers ∧
        (m.Sane → 0 < q.limit.total →
          (asked ++ t.toList.map (p, ·)).map Prod.fst <+: providers) := by
    rw [List.map_append, hp]
    refine ⟨hr.asked.1.append ((map_asked p t).trans (by simp)), fun hm hlimit => ?_⟩
    rw [(hr.asked.2 hm hlimit).1, List.prefix_append_right_inj]
    cases t with
    | none => exact List.nil_prefix
    | some t => exact ⟨others, rfl⟩
  induction h with
  | turning hr hp =>
    rw [hp]
    refine ⟨hr.asked.1.trans (List.sublist_append_left _ _), fun hm hlimit => ?_⟩
    rw [(hr.asked.2 hm hlimit).1]
    exact List.prefix_append _ _
  | exhausted hr =>
    refine ⟨hr.asked.1, fun hm hlimit => ?_⟩
    exact (hr.asked.2 hm hlimit).1 ▸ List.prefix_rfl
  | @asking _ _ _ _ _ _ _ _ _ t _ hr hp => exact more hr hp (some t)
  | @failing _ _ _ _ _ _ _ _ _ _ t hr hp => exact more hr hp t
  | @ended _ _ _ _ _ _ _ _ _ _ _ t _ hr hp => exact more hr hp t
  | @delivered _ _ _ _ _ _ _ _ _ t _ _ _ hr hp => exact more hr hp (some t)
  | rests _ ih => exact ih

/-! ## What comes of it -/

theorem Rounds.last {ps : List ProviderId} {asked : List (ProviderId × Instant)} {last : Error}
    (h : Rounds q m ps gs m' asked last) : last.isContext = false := by
  cases h with
  | begun => rfl
  | more _ hm =>
    cases hm with
    | failed => exact blame_isContext _ _
    | strayed => rfl

theorem error_isContext {c : Context} {e : Error} (h : c.error? m = some e) :
    e.isContext = true := by
  unfold Context.error? at h
  split at h
  · cases h; rfl
  · split at h
    · split at h
      · cases h; rfl
      · cases h
    · cases h

/-- The error of a context is the caller's own. Any other is the last one's, and nobody delivered. -/
theorem Stands.error (h : Stands q m providers gs s) {e : Error}
    (hs : s.stage = .over (.error e)) :
    (e.isContext = true ∧ (q.caller.error? s.moment).isSome) ∨
      (e.isContext = false ∧ ∃ gs' m', Rounds q m providers gs' m' s.asked e) := by
  induction h with
  | @exhausted gs m' asked last g hr =>
    obtain rfl : last = e := by simpa using hs
    exact .inr ⟨hr.last, gs, m', hr⟩
  | @ended ps others gs gs' m' m'' asked last e₀ e' p t g hr hp hf hended =>
    obtain rfl : e' = e := by simpa using hs
    exact .inl ⟨error_isContext hended, by rw [hended]; rfl⟩
  | rests _ ih => exact (ih hs).imp_left fun h => ⟨h.1, Context.over_after _ h.2⟩
  | _ => cases hs

theorem run_over {r : Except Error (Block × ProviderId)} (hs : s.stage = .over r)
    (more : List Look) : (q.run s more).stage = .over r ∧ (q.run s more).asked = s.asked := by
  induction more generalizing s with
  | nil => exact ⟨hs, rfl⟩
  | cons g more ih =>
    have hnext : q.next s g = { s with moment := s.moment.after g } := by
      simp only [Inquiry.next, hs]
    rw [run, List.foldl_cons, hnext]
    exact ih hs

/-- What the exchange gets to know. -/
def Stage.told : Stage → Turn
  | .turning last [] | .over (.error last) => .fails last
  | .turning _ (p :: _) => .asks p
  | .asking _ _ _ | .failing _ _ _ => .waits
  | .over (.ok (b, p)) => .delivers b p

variable {f : Fetch} {p : ProviderId} {others : List ProviderId}

-- of three providers the first has another block, the second takes too long
example :
    let q : Inquiry := { cid := ⟨[1]⟩, limit := ⟨0, 5⟩, caller := {} }
    (q.run (q.start {} [⟨[7]⟩, ⟨[8]⟩, ⟨[9]⟩])
      [{}, { came := some (.ok { cid := ⟨[2]⟩, data := [], links := [] }) }, {}, { elapsed := 4 },
        { elapsed := 1 }, {}, {},
        { came := some (.ok { cid := ⟨[1]⟩, data := [], links := [] }) }]).asked =
      [(⟨[7]⟩, 0), (⟨[8]⟩, 0), (⟨[9]⟩, 5)] := by
  decide

end Courier.Exchange.Inquiry
