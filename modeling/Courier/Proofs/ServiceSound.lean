import Courier.Proofs.FamilySound
import Courier.Service
/-!
# Fetches keep their ceilings to themselves

A fetch that has a ceiling runs in its caller's context, if there is no limit,
and else in a member that was derived from it and whose signal is given exactly
if the fetch has left (`Under`). No two fetches have a signal in common and
nobody else may give one, so what a fetch leaves behind ends nothing but what
was derived from its own context.
-/

namespace Courier.Service

variable {s : Service} {f : Family} {g : Fetch} {c : Context} {k : Ceiling} {i j : Nat}
  {limit : Duration} {m : Moment} {a : Act}

/-! ## Ceilings -/

theorem impose_free (h : limit.isZero = true) : (Ceiling.impose c m limit).1 = { context := c } := by
  simp [Ceiling.impose, h]

theorem impose_bound (h : limit.isZero = false) : (Ceiling.impose c m limit).1 =
    { context := ⟨Context.earlier c.deadline (Instant.add? m.now limit), c.signals ++ [m.fresh]⟩,
      signal := some m.fresh } := by
  simp [Ceiling.impose, h, Context.withTimeout, Context.derive]

/-- Where a fetch runs, once it is looked after. -/
inductive Under (limit : Duration) (f : Family) (g : Fetch) : Prop
  | waiting : g.ceiling = none → Under limit f g
  | free {c : Context} {t : Instant} : limit.isZero = true → f.context? g.caller = some c →
      g.ceiling = some (t, { context := c }) → Under limit f g
  | bound {j : Nat} {c : Context} {t : Instant} {h : Option Signal} : limit.isZero = false →
      f.members[j]? = some ⟨g.caller, .timeout limit, t, c, h⟩ →
      g.ceiling = some (t, { context := c, signal := some j }) →
      (j ∈ f.moment.given ↔ g.exit.isSome = true) → Under limit f g

theorem Under.member (h : Under limit f g) (hj : g.handle = some j) : ∃ m, f.members[j]? = some m := by
  cases h with
  | waiting hk => simp [Fetch.handle, hk] at hj
  | free _ _ hk => simp [Fetch.handle, hk] at hj
  | bound _ hm hk _ =>
    obtain rfl : _ = j := by simpa [Fetch.handle, hk] using hj
    exact ⟨_, hm⟩

/-- More contexts, and signals that are not its own, are nothing to a fetch. -/
theorem Under.extends {f' : Family} (h : Under limit f g) (hf : Family.Extends f f')
    (hg : ∀ j, g.handle = some j → (j ∈ f'.moment.given ↔ j ∈ f.moment.given)) :
    Under limit f' g := by
  cases h with
  | waiting hk => exact .waiting hk
  | free hl hc hk => exact .free hl (hf.context? hc) hk
  | bound hl hm hk he =>
    obtain ⟨h, hm'⟩ := hf _ _ hm
    exact .bound hl hm' hk ((hg _ (by simp [Fetch.handle, hk])).trans he)

/-! ## What every client keeps to -/

structure Sound (s : Service) : Prop where
  linked : s.family.Linked
  given : ∀ j ∈ s.family.moment.given, j < s.family.members.length
  known : ∀ (i : Nat) (g : Fetch), s.fetches[i]? = some g → ∃ c, s.family.context? g.caller = some c
  under : ∀ (i : Nat) (g : Fetch), s.fetches[i]? = some g → Under s.limit s.family g
  apart : ∀ (i i' : Nat) (g g' : Fetch) (j : Nat), s.fetches[i]? = some g →
    s.fetches[i']? = some g' → g.handle = some j → g'.handle = some j → i = i'

theorem given_act (hf : f.Linked) (h : ∀ j ∈ f.moment.given, j < f.members.length)
    (a : Family.Act) : ∀ j ∈ (f.act a).moment.given, j < (f.act a).members.length := by
  intro j hj
  have hlt : j < f.members.length := by
    rcases (Family.mem_given_act hf a).mp hj with hj | ⟨-, hj⟩
    · exact h j hj
    · exact hj
  obtain ⟨n, hn⟩ := Family.act_extends f a j _ (List.getElem?_eq_getElem hlt)
  exact (List.getElem?_eq_some_iff.mp hn).1

theorem Sound.outside (h : s.Sound) (a : Family.Act) : (s.act (.outside a)).Sound := by
  rw [act]
  split
  · next hout =>
    have hext := Family.act_extends s.family a
    refine ⟨h.linked.act a, given_act h.linked h.given a, ?_, ?_, h.apart⟩
    · intro i g hg
      obtain ⟨c, hc⟩ := h.known i g hg
      exact ⟨c, hext.context? hc⟩
    · intro i g hg
      refine (h.under i g hg).extends hext fun j hj => ?_
      have hown : s.owns j = true := by simpa [owns] using ⟨g, List.mem_of_getElem? hg, hj⟩
      have hc : a ≠ .cancel j := by
        rintro rfl
        simp [isOutside, hown] at hout
      have hd : a ≠ .drop j := by
        rintro rfl
        simp [isOutside, hown] at hout
      rw [Family.mem_given_act h.linked]
      simp [hc, hd]
  · exact h

theorem getElem?_replace {l : List Fetch} {g' o : Fetch} (ho : (l.set j g')[i]? = some o) :
    i = j ∧ o = g' ∨ i ≠ j ∧ l[i]? = some o := by
  rw [List.getElem?_set] at ho
  split at ho
  · next hi =>
    split at ho
    · exact .inl ⟨hi.symm, (Option.some.inj ho).symm⟩
    · cases ho
  · next hi => exact .inr ⟨Ne.symm hi, ho⟩

theorem Sound.call (h : s.Sound) (p : Option Nat) : (s.act (.call p)).Sound := by
  rw [act]
  split
  · next hp =>
    obtain ⟨c, hc⟩ := Option.isSome_iff_exists.mp hp
    refine ⟨h.linked, h.given, ?_, ?_, ?_⟩
    · intro i g hg
      rcases getElem?_snoc hg with hg | ⟨-, rfl⟩
      · exact h.known i g hg
      · exact ⟨c, hc⟩
    · intro i g hg
      rcases getElem?_snoc hg with hg | ⟨-, rfl⟩
      · exact h.under i g hg
      · exact .waiting rfl
    · intro i i' g g' j hg hg' hj hj'
      rcases getElem?_snoc hg with hg | ⟨-, rfl⟩
      · rcases getElem?_snoc hg' with hg' | ⟨-, rfl⟩
        · exact h.apart i i' g g' j hg hg' hj hj'
        · cases hj'
      · cases hj
  · exact h

/-- One fetch may change along with the contexts, if the others do not notice. -/
theorem Sound.change {f' : Family} {g' : Fetch} (h : s.Sound) (hg : s.fetches[i]? = some g)
    (hl : f'.Linked) (hlt : ∀ j ∈ f'.moment.given, j < f'.members.length)
    (hext : Family.Extends s.family f') (hcaller : g'.caller = g.caller)
    (hu : Under s.limit f' g')
    (hothers : ∀ (i' : Nat) (o : Fetch) (j : Nat), i' ≠ i → s.fetches[i']? = some o →
      o.handle = some j → (j ∈ f'.moment.given ↔ j ∈ s.family.moment.given) ∧ g'.handle ≠ some j) :
    Sound { s with family := f', fetches := s.fetches.set i g' } := by
  refine ⟨hl, hlt, ?_, ?_, ?_⟩
  · intro i' o ho
    rcases getElem?_replace ho with ⟨rfl, rfl⟩ | ⟨-, ho⟩
    · obtain ⟨c, hc⟩ := h.known i' g hg
      exact ⟨c, hext.context? (hcaller ▸ hc)⟩
    · obtain ⟨c, hc⟩ := h.known i' o ho
      exact ⟨c, hext.context? hc⟩
  · intro i' o ho
    rcases getElem?_replace ho with ⟨rfl, rfl⟩ | ⟨hne, ho⟩
    · exact hu
    · exact (h.under i' o ho).extends hext fun j hj => (hothers i' o j hne ho hj).1
  · intro i₁ i₂ g₁ g₂ j h₁ h₂ hj₁ hj₂
    rcases getElem?_replace h₁ with ⟨rfl, rfl⟩ | ⟨hne₁, ho₁⟩
    · rcases getElem?_replace h₂ with ⟨rfl, rfl⟩ | ⟨hne₂, ho₂⟩
      · rfl
      · exact absurd hj₁ (hothers i₂ g₂ j hne₂ ho₂ hj₂).2
    · rcases getElem?_replace h₂ with ⟨rfl, rfl⟩ | ⟨hne₂, ho₂⟩
      · exact absurd hj₂ (hothers i₁ g₁ j hne₁ ho₁ hj₁).2
      · exact h.apart i₁ i₂ g₁ g₂ j ho₁ ho₂ hj₁ hj₂

theorem Sound.enter (h : s.Sound) (i : Nat) : (s.enter i).Sound := by
  unfold Service.enter
  split
  · next g hg =>
    split
    · next c hc hk he =>
      cases hl : s.limit.isZero with
      | true =>
        simp only [impose_free hl, if_true]
        refine h.change hg h.linked h.given (.refl _) rfl (.free hl hc rfl) ?_
        intro i' o j hne ho hj
        exact ⟨.rfl, nofun⟩
      | false =>
        simp only [impose_bound hl, Bool.false_eq_true, if_false]
        have hext := Family.derive_extends s.family g.caller (.timeout s.limit)
        have heq := Family.derive_eq hc (.timeout s.limit)
        have hlen := h.linked.fresh
        have hnew : (s.family.derive g.caller (.timeout s.limit)).members[s.family.moment.fresh]? =
            some ⟨g.caller, .timeout s.limit, s.family.moment.now,
              ⟨Context.earlier c.deadline (Instant.add? s.family.moment.now s.limit),
                c.signals ++ [s.family.moment.fresh]⟩, some s.family.moment.fresh⟩ := by
          rw [heq, hlen, List.getElem?_concat_length]
          rfl
        refine h.change hg (h.linked.derive _ _)
          (given_act h.linked h.given (.derive g.caller (.timeout s.limit))) hext rfl
          (.bound hl hnew rfl ?_) ?_
        · -- its signal is new
          refine iff_of_false (fun hin => ?_) (by simp [he])
          rw [heq] at hin
          have := h.given _ hin
          exact absurd (hlen ▸ this) (Nat.lt_irrefl _)
        · intro i' o j hne ho hj
          obtain ⟨m, hm⟩ := (h.under i' o ho).member hj
          have hj' := (List.getElem?_eq_some_iff.mp hm).1
          refine ⟨by rw [heq], fun hj => ?_⟩
          have hfresh : s.family.moment.fresh = j := by simpa [Fetch.handle] using hj
          exact Nat.ne_of_gt hj' (hlen.symm.trans hfresh)
    · exact h
  · exact h

theorem Sound.leave (h : s.Sound) (i : Nat) (e : Exit) : (s.leave i e).Sound := by
  unfold Service.leave
  split
  · next g hg =>
    split
    · next hmay =>
      have hu := h.under i g hg
      cases hu with
      | waiting hk =>
        have hnone : g.handle = none := by simp [Fetch.handle, hk]
        rw [hnone, Option.elim_none]
        exact h.change hg h.linked h.given (.refl _) rfl (.waiting hk)
          fun _ _ _ _ _ _ => ⟨.rfl, by simp [Fetch.handle, hk]⟩
      | free hl hc hk =>
        have hnone : g.handle = none := by simp [Fetch.handle, hk]
        rw [hnone, Option.elim_none]
        exact h.change hg h.linked h.given (.refl _) rfl (.free hl hc hk)
          fun _ _ _ _ _ _ => ⟨.rfl, by simp [Fetch.handle, hk]⟩
      | @bound j c t h' hl hm hk he =>
        have hsome : g.handle = some j := by simp [Fetch.handle, hk]
        rw [hsome, Option.elim_some]
        have hlt := (List.getElem?_eq_some_iff.mp hm).1
        have hgiven (j' : Nat) : j' ∈ (s.family.drop j).moment.given ↔
            j' ∈ s.family.moment.given ∨ j = j' ∧ j' < s.family.members.length := by
          have hdrop := Family.mem_given_act (j := j') h.linked (.drop j)
          simp only [reduceCtorEq, false_or, Family.Act.drop.injEq] at hdrop
          exact hdrop
        have hm' : (s.family.drop j).members[j]? = some ⟨g.caller, .timeout s.limit, t, c, none⟩ := by
          simp [Family.drop_members, hm]
        refine h.change hg (h.linked.drop j) (given_act h.linked h.given (.drop j))
          (Family.act_extends s.family (.drop j)) rfl (.bound hl hm' hk ?_) ?_
        · exact iff_of_true ((hgiven j).mpr (.inr ⟨rfl, hlt⟩)) rfl
        · intro i' o j' hne ho hj'
          have hjj : j ≠ j' := by
            rintro rfl
            exact hne (h.apart i' i o g j ho hg hj' hsome)
          refine ⟨by rw [hgiven j']; simp [hjj], fun hj => hjj ?_⟩
          simpa [Fetch.handle, hk] using hj
    · exact h
  · exact h

theorem Sound.act (h : s.Sound) (a : Act) : (s.act a).Sound := by
  cases a with
  | outside a => exact h.outside a
  | call p => exact h.call p
  | enter i => exact h.enter i
  | leave i e => exact h.leave i e

/-! ## Runs -/

theorem run_snoc (limit : Duration) (acts : List Act) (a : Act) :
    run limit (acts ++ [a]) = (run limit acts).act a := by
  simp [run]

@[simp] theorem act_limit (s : Service) (a : Act) : (s.act a).limit = s.limit := by
  cases a with
  | outside a => rw [Service.act]; split <;> rfl
  | call p => rw [Service.act]; split <;> rfl
  | enter i =>
    rw [Service.act, Service.enter]
    split
    · split <;> rfl
    · rfl
  | leave i e =>
    rw [Service.act, Service.leave]
    split
    · split <;> rfl
    · rfl

theorem run_sound (limit : Duration) (acts : List Act) :
    (run limit acts).Sound ∧ (run limit acts).limit = limit := by
  induction acts using List.reverseRecOn with
  | nil =>
    have hlinked : Family.Linked {} := ⟨rfl, nofun, nofun, nofun⟩
    have hempty : Sound { limit } := ⟨hlinked, by simp, by simp, by simp, by simp⟩
    exact ⟨hempty, rfl⟩
  | append_singleton acts a ih =>
    rw [run_snoc]
    exact ⟨ih.1.act a, (act_limit _ a).trans ih.2⟩

/-! ## What becomes of a fetch -/

/-- What an act makes of the fetch at some place. -/
inductive Comes (s : Service) (i : Nat) : Act → Fetch → Prop
  | stays {a : Act} {g : Fetch} : s.fetches[i]? = some g → Comes s i a g
  | called {p : Option Nat} : s.fetches[i]? = none → Comes s i (.call p) { caller := p }
  | entered {g : Fetch} {k : Ceiling} : s.fetches[i]? = some g → g.exit = none →
      Comes s i (.enter i) { g with ceiling := some (s.family.moment.now, k) }
  | left {g : Fetch} {e : Exit} : s.fetches[i]? = some g → g.exit = none →
      Comes s i (.leave i e) { g with exit := some e }

theorem earlier_none (d : Option Instant) : Context.earlier d none = d := by
  cases d <;> rfl

/-- What a fetch with a ceiling has of its caller's context. -/
theorem Under.context (h : Under limit f g) (hf : f.Linked) {t : Instant}
    (hk : g.ceiling = some (t, k)) (hc : f.context? g.caller = some c) :
    k.context.deadline = (if limit.isZero = true ∨ Instant.limit ≤ t + limit.total then c.deadline
      else Context.earlier c.deadline (some (t + limit.total))) ∧
    k.context.signals = c.signals ++ g.handle.toList ∧
    f.context? g.member = some k.context ∧
    (limit.isZero = false → ∃ j, g.handle = some j) ∧
    ∀ j, g.handle = some j → (j ∈ f.moment.given ↔ g.exit ≠ none) := by
  cases h with
  | waiting hnone => rw [hnone] at hk; cases hk
  | @free c' t' hl hc' hk' =>
    obtain ⟨rfl, rfl⟩ : t' = t ∧ { context := c' } = k := by simpa [hk'] using hk
    obtain rfl := Option.some.inj (hc'.symm.trans hc)
    have hnone : g.handle = none := by simp [Fetch.handle, hk']
    simp [hnone, hl, Fetch.member, hc]
  | @bound j c' t' h' hl hm hk' he =>
    obtain ⟨rfl, rfl⟩ : t' = t ∧ { context := c', signal := some j } = k := by simpa [hk'] using hk
    have hsome : g.handle = some j := by simp [Fetch.handle, hk']
    obtain ⟨c'', hc'', hctx⟩ := hf.context j _ hm
    obtain rfl := Option.some.inj (hc''.symm.trans hc)
    have hctx : c' = ⟨Context.earlier c''.deadline (Instant.add? t' limit), c''.signals ++ [j]⟩ := hctx
    refine ⟨?_, by simp [hctx, hsome], ?_, by simp [hsome, hl], ?_⟩
    · rw [hctx]
      unfold Instant.add?
      by_cases hlt : t' + limit.total < Instant.limit
      · simp [hl, hlt, Nat.not_le.mpr hlt]
      · simp [hlt, Nat.not_lt.mp hlt, earlier_none]
    · simp [Fetch.member, hsome, Family.context?, hm]
    · intro j' hj'
      obtain rfl := Option.some.inj (hsome.symm.trans hj')
      rw [he, Option.isSome_iff_ne_none]

-- of two fetches with one caller, the one that is dropped ends by itself
example :
    let s := run ⟨5, 0⟩ [.call none, .call none, .enter 0, .enter 1, .leave 0 .dropped]
    s.fetches.map (fun g => g.ceiling.map fun k => k.2.context.error? s.family.moment) =
      [some (some .cancelled), some none] := by
  decide

end Courier.Service
