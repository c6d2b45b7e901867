import Mathlib.Data.List.Induction
import Mathlib.Order.Bounds.Basic
import Courier.Context.Family
import Courier.Context.Glance
import Courier.Proofs.ListLemmas
/-!
# What a context owes to its line

The line of a context leads from it to the background, by the contexts it was
derived from. Each carries the signal of every context on its line and the
earliest of the deadlines asked for along it. Signals stay given and time does
not go back, so whatever ends on a line has ended for good.
-/

namespace Courier

namespace Context

/-! ## Deadlines -/

/-- The earliest instant of a set; none, if the set is empty. -/
def Earliest (s : Set Instant) : Option Instant → Prop
  | none => s = ∅
  | some t => IsLeast s t

theorem Earliest.union {s t : Set Instant} {a b : Option Instant} (ha : Earliest s a)
    (hb : Earliest t b) : Earliest (s ∪ t) (earlier a b) := by
  cases a with
  | none =>
    obtain rfl : s = ∅ := ha
    simpa [earlier] using hb
  | some x =>
    cases b with
    | none =>
      obtain rfl : t = ∅ := hb
      simpa [earlier] using ha
    | some y => exact IsLeast.union ha hb

theorem earliest_singleton (a : Option Instant) : Earliest {t | a = some t} a := by
  cases a with
  | none => simp [Earliest]
  | some t => simp [Earliest, IsLeast, lowerBounds]

theorem earlier_le {a b : Option Instant} {t : Instant} (h : a = some t) :
    ∃ u ≤ t, earlier a b = some u := by
  subst h
  cases b with
  | none => exact ⟨t, Nat.le_refl t, rfl⟩
  | some b => exact ⟨min t b, Nat.min_le_left t b, rfl⟩

theorem child_eq (c : Context) (m : Moment) (way : Way) :
    c.child m way = (⟨earlier c.deadline (way.requested m.now), c.signals ++ [m.fresh]⟩,
      m.fresh, { m with fresh := m.fresh + 1 }) := by
  cases way <;> rfl

/-! ## Why a context is over -/

theorem error_eq_cancelled_iff (c : Context) (m : Moment) :
    c.error? m = some .cancelled ↔ ∃ s ∈ c.signals, s ∈ m.given := by
  unfold error?
  split
  · next h => simpa using h
  · next h =>
    refine iff_of_false ?_ (by simpa using h)
    split
    · split <;> simp
    · simp

theorem error_of_not_cancelled {c : Context} {m : Moment} (h : ¬ ∃ s ∈ c.signals, s ∈ m.given) :
    c.error? m = match c.deadline with
      | some d => if d ≤ m.now then some .deadlineExceeded else none
      | none => none := by
  unfold error?
  exact if_neg (by simpa using h)

theorem error_eq_exceeded_iff (c : Context) (m : Moment) :
    c.error? m = some .deadlineExceeded ↔
      (¬ ∃ s ∈ c.signals, s ∈ m.given) ∧ ∃ d, c.deadline = some d ∧ d ≤ m.now := by
  by_cases h : ∃ s ∈ c.signals, s ∈ m.given
  · simp [(error_eq_cancelled_iff c m).mpr h, h]
  · rw [error_of_not_cancelled h]
    cases c.deadline <;> simp [h]

theorem error_eq_none_iff (c : Context) (m : Moment) :
    c.error? m = none ↔
      (¬ ∃ s ∈ c.signals, s ∈ m.given) ∧ ∀ d, c.deadline = some d → m.now < d := by
  by_cases h : ∃ s ∈ c.signals, s ∈ m.given
  · simp [(error_eq_cancelled_iff c m).mpr h, h]
  · rw [error_of_not_cancelled h]
    cases c.deadline <;> simp [h]

/-- What is over stays over while time passes and signals are given. -/
theorem error_lasts {c : Context} {m m' : Moment} (hnow : m.now ≤ m'.now)
    (hgiven : ∀ s ∈ m.given, s ∈ m'.given) {e : Error} (h : c.error? m = some e) :
    ∃ e', c.error? m' = some e' ∧ (e = .cancelled → e' = .cancelled) := by
  by_cases hc : ∃ s ∈ c.signals, s ∈ m.given
  · obtain ⟨s, hs, hg⟩ := hc
    exact ⟨.cancelled, (error_eq_cancelled_iff c m').mpr ⟨s, hs, hgiven s hg⟩, fun _ => rfl⟩
  · have hne : e ≠ .cancelled := by
      rintro rfl
      exact hc ((error_eq_cancelled_iff c m).mp h)
    cases h' : c.error? m' with
    | some e' => exact ⟨e', rfl, fun he => absurd he hne⟩
    | none =>
      -- live later, it would have been live before
      obtain ⟨-, hd⟩ := (error_eq_none_iff c m').mp h'
      have : c.error? m = none :=
        (error_eq_none_iff c m).mpr ⟨hc, fun d h => Nat.lt_of_le_of_lt hnow (hd d h)⟩
      simp [this] at h

theorem over_lasts {c : Context} {m m' : Moment} (hnow : m.now ≤ m'.now)
    (hgiven : ∀ s ∈ m.given, s ∈ m'.given) (h : (c.error? m).isSome) : (c.error? m').isSome := by
  obtain ⟨e, he⟩ := Option.isSome_iff_exists.mp h
  obtain ⟨e', he', -⟩ := error_lasts hnow hgiven he
  rw [he']
  rfl

/-- A context that is over at a glance is so at the next. -/
theorem over_after {c : Context} {m : Moment} {α : Type} (g : Glance α) (h : (c.error? m).isSome) :
    (c.error? (m.after g)).isSome :=
  over_lasts (Nat.le_add_right ..) (fun _ hs => List.mem_append_right _ hs) h

/-- A signal that a context does not have is nothing to it. -/
theorem error_congr {c : Context} {m m' : Moment} (hnow : m.now = m'.now)
    (hgiven : ∀ s ∈ c.signals, s ∈ m.given ↔ s ∈ m'.given) : c.error? m = c.error? m' := by
  have : c.signals.any (· ∈ m.given) = c.signals.any (· ∈ m'.given) := by
    rw [Bool.eq_iff_iff]
    simp only [List.any_eq_true, decide_eq_true_eq]
    exact exists_congr fun s => and_congr_right (hgiven s)
  unfold error?
  rw [this, hnow]

end Context

namespace Family

variable {f g : Family} {i j k : Nat} {m : Member}

/-! ## Lines -/

/-- The member `i` is `j`, or it was derived from `j` in one or more steps. -/
inductive Line (f : Family) (j : Nat) : Nat → Prop where
  | self {m : Member} : f.members[j]? = some m → Line f j j
  | child {i k : Nat} {m : Member} : f.members[i]? = some m → m.parent = some k → Line f j k →
      Line f j i

/-- The deadlines asked for along the line of a member. -/
def requests (f : Family) (i : Nat) : Set Instant :=
  {t | ∃ j m, Line f j i ∧ f.members[j]? = some m ∧ m.requested = some t}

theorem line_iff (hm : f.members[i]? = some m) :
    Line f j i ↔ j = i ∨ ∃ k, m.parent = some k ∧ Line f j k := by
  constructor
  · intro h
    cases h with
    | self => exact .inl rfl
    | child hm' hk hl =>
      obtain rfl := Option.some.inj (hm.symm.trans hm')
      exact .inr ⟨_, hk, hl⟩
  · rintro (rfl | ⟨k, hk, hl⟩)
    · exact .self hm
    · exact .child hm hk hl

theorem mem_requests_iff (hm : f.members[i]? = some m) (t : Instant) :
    t ∈ f.requests i ↔ m.requested = some t ∨ ∃ k, m.parent = some k ∧ t ∈ f.requests k := by
  constructor
  · rintro ⟨j, n, hl, hn, ht⟩
    rcases (line_iff hm).mp hl with rfl | ⟨k, hk, hl⟩
    · obtain rfl := Option.some.inj (hm.symm.trans hn)
      exact .inl ht
    · exact .inr ⟨k, hk, j, n, hl, hn, ht⟩
  · rintro (ht | ⟨k, hk, j, n, hl, hn, ht⟩)
    · exact ⟨i, m, .self hm, hm, ht⟩
    · exact ⟨j, n, .child hm hk hl, hn, ht⟩

/-! ## What every family keeps to -/

/-- Members are linked to those they were derived from. -/
structure Linked (f : Family) : Prop where
  fresh : f.moment.fresh = f.members.length
  older : ∀ (i : Nat) (m : Member) (k : Nat), f.members[i]? = some m → m.parent = some k → k < i
  /-- A context adds its own signal, and what it asked for, to those of its parent. -/
  context : ∀ (i : Nat) (m : Member), f.members[i]? = some m → ∃ c, f.context? m.parent = some c ∧
    m.context = ⟨Context.earlier c.deadline m.requested, c.signals ++ [i]⟩
  /-- A handle gives the signal of its context; one that is gone has given it. -/
  handle : ∀ (i : Nat) (m : Member), f.members[i]? = some m →
    (∀ s, m.handle = some s → s = i) ∧ (m.handle = none → i ∈ f.moment.given)

/-- What was there is still there; only handles may be gone. -/
def Extends (f g : Family) : Prop :=
  ∀ (i : Nat) (m : Member), f.members[i]? = some m →
    ∃ h : Option Signal, g.members[i]? = some { m with handle := h }

theorem Extends.refl (f : Family) : Extends f f := fun _ m h => ⟨m.handle, h⟩

theorem Extends.trans {e : Family} (h₁ : Extends e f) (h₂ : Extends f g) : Extends e g := by
  intro i m hm
  obtain ⟨h, hf⟩ := h₁ i m hm
  exact h₂ i { m with handle := h } hf

theorem Extends.context? (h : Extends f g) {p : Option Nat} {c : Context}
    (hc : f.context? p = some c) : g.context? p = some c := by
  cases p with
  | none => exact hc
  | some k =>
    simp only [Family.context?, Option.map_eq_some_iff] at hc ⊢
    obtain ⟨m, hm, rfl⟩ := hc
    obtain ⟨_, hg⟩ := h k m hm
    exact ⟨_, hg, rfl⟩

/-! ## One act -/

theorem derive_eq {p : Option Nat} {c : Context} (hc : f.context? p = some c) (way : Way) :
    f.derive p way = {
      moment := { f.moment with fresh := f.moment.fresh + 1 }
      members := f.members ++ [⟨p, way, f.moment.now,
        ⟨Context.earlier c.deadline (way.requested f.moment.now), c.signals ++ [f.moment.fresh]⟩,
        some f.moment.fresh⟩] } := by
  simp only [derive, hc, Context.child_eq]

theorem derive_extends (f : Family) (p : Option Nat) (way : Way) : Extends f (f.derive p way) := by
  intro i m hm
  refine ⟨m.handle, ?_⟩
  unfold derive
  split
  · exact (List.getElem?_append_left (List.getElem?_eq_some_iff.mp hm).1).trans hm
  · exact hm

@[simp] theorem cancel_members (f : Family) (i : Nat) : (f.cancel i).members = f.members := by
  unfold cancel
  split <;> rfl

@[simp] theorem cancel_now (f : Family) (i : Nat) : (f.cancel i).moment.now = f.moment.now := by
  unfold cancel
  split <;> rfl

@[simp] theorem cancel_fresh (f : Family) (i : Nat) :
    (f.cancel i).moment.fresh = f.moment.fresh := by
  unfold cancel
  split <;> rfl

theorem drop_members (f : Family) (i j : Nat) :
    (f.drop i).members[j]? =
      (f.members[j]?).map fun m => if i = j then { m with handle := none } else m := by
  simp only [drop, List.getElem?_modify]
  cases f.members[j]? <;> simp

theorem act_extends (f : Family) (a : Act) : Extends f (f.act a) := by
  intro i m hm
  cases a with
  | derive p way => exact derive_extends f p way i m hm
  | advance t => exact ⟨m.handle, hm⟩
  | cancel j => exact ⟨m.handle, by simpa [act] using hm⟩
  | drop j =>
    by_cases h : j = i
    · exact ⟨none, by simp [act, drop_members, hm, h]⟩
    · exact ⟨m.handle, by simp [act, drop_members, hm, h]⟩

/-- A cancelled member has its signal given, whether its handle is still held or is gone. -/
theorem mem_given_cancel (hf : Linked f) :
    j ∈ (f.cancel i).moment.given ↔ j ∈ f.moment.given ∨ j = i ∧ i < f.members.length := by
  unfold cancel
  cases hm : f.members[i]? with
  | none => simp [List.getElem?_eq_none_iff.mp hm]
  | some m =>
    have hi := (List.getElem?_eq_some_iff.mp hm).1
    cases hh : m.handle with
    | none =>
      have := (hf.handle i m hm).2 hh
      simp only [Option.bind_some, hh]
      constructor
      · exact .inl
      · rintro (h | ⟨rfl, -⟩)
        · exact h
        · exact this
    | some s =>
      obtain rfl := (hf.handle i m hm).1 s hh
      simp [hh, Moment.give, hi, or_comm]

/-- Nothing but its own handle gives the signal of a member. -/
theorem mem_given_act (hf : Linked f) (a : Act) :
    j ∈ (f.act a).moment.given ↔
      j ∈ f.moment.given ∨ (a = .cancel j ∨ a = .drop j) ∧ j < f.members.length := by
  cases a with
  | derive p way =>
    have : (f.derive p way).moment.given = f.moment.given := by
      unfold derive
      split
      · rw [Context.child_eq]
      · rfl
    simp [act, this]
  | advance t => simp [act, Moment.advanceTo]
  | cancel i =>
    rw [act, mem_given_cancel hf]
    constructor <;> rintro (h | ⟨h, hl⟩) <;> simp_all
  | drop i =>
    rw [act, drop, mem_given_cancel hf]
    constructor <;> rintro (h | ⟨h, hl⟩) <;> simp_all

theorem now_le_act (f : Family) (a : Act) : f.moment.now ≤ (f.act a).moment.now := by
  cases a with
  | derive p way =>
    simp only [act, derive]
    split
    · rw [Context.child_eq]
    · exact Nat.le_refl _
  | advance t => exact Nat.le_max_left _ _
  | cancel i => simp [act]
  | drop i => simp [act, drop]

theorem Linked.derive (hf : Linked f) (p : Option Nat) (way : Way) : Linked (f.derive p way) := by
  have hext := derive_extends f p way
  cases hc : f.context? p with
  | none => simpa only [Family.derive, hc] using hf
  | some c =>
    rw [derive_eq hc way, hf.fresh] at hext ⊢
    -- the new member comes last; the others have not changed
    refine ⟨by simp, ?_, ?_, ?_⟩
    · intro i m k hm hk
      rcases getElem?_snoc hm with h | ⟨rfl, rfl⟩
      · exact hf.older i m k h hk
      · obtain rfl : p = some k := hk
        simp only [context?, Option.map_eq_some_iff] at hc
        obtain ⟨n, hn, -⟩ := hc
        exact (List.getElem?_eq_some_iff.mp hn).1
    · intro i m hm
      rcases getElem?_snoc hm with h | ⟨rfl, rfl⟩
      · obtain ⟨c', hc', he⟩ := hf.context i m h
        exact ⟨c', hext.context? hc', he⟩
      · exact ⟨c, hext.context? hc, rfl⟩
    · intro i m hm
      rcases getElem?_snoc hm with h | ⟨rfl, rfl⟩
      · exact hf.handle i m h
      · exact ⟨fun s hs => (Option.some.inj hs).symm, nofun⟩

theorem Linked.cancel (hf : Linked f) (i : Nat) : Linked (f.cancel i) := by
  have hext : Extends f (f.cancel i) := act_extends f (.cancel i)
  refine ⟨by simp [hf.fresh], by simpa using hf.older, ?_, ?_⟩
  · intro j m hm
    obtain ⟨c, hc, he⟩ := hf.context j m (by simpa using hm)
    exact ⟨c, hext.context? hc, he⟩
  · intro j m hm
    obtain ⟨hs, hn⟩ := hf.handle j m (by simpa using hm)
    exact ⟨hs, fun h => (mem_given_cancel hf).mpr (.inl (hn h))⟩

theorem Linked.drop (hf : Linked f) (i : Nat) : Linked (f.drop i) := by
  have hext : Extends f (f.drop i) := act_extends f (.drop i)
  have hcases {j : Nat} {m : Member} (h : (f.drop i).members[j]? = some m) :
      ∃ n, f.members[j]? = some n ∧ m = if i = j then { n with handle := none } else n := by
    rw [drop_members, Option.map_eq_some_iff] at h
    obtain ⟨n, hn, rfl⟩ := h
    exact ⟨n, hn, rfl⟩
  refine ⟨by simp [Family.drop, hf.fresh], ?_, ?_, ?_⟩
  · intro j m k hm hk
    obtain ⟨n, hn, rfl⟩ := hcases hm
    exact hf.older j n k hn (by split at hk <;> exact hk)
  · intro j m hm
    obtain ⟨n, hn, rfl⟩ := hcases hm
    obtain ⟨c, hc, he⟩ := hf.context j n hn
    exact ⟨c, hext.context? (by split <;> exact hc), by split <;> exact he⟩
  · intro j m hm
    obtain ⟨n, hn, rfl⟩ := hcases hm
    obtain ⟨hs, hnone⟩ := hf.handle j n hn
    split
    · next h =>
      subst h
      have hi := (List.getElem?_eq_some_iff.mp hn).1
      exact ⟨nofun, fun _ => (mem_given_cancel hf).mpr (.inr ⟨rfl, hi⟩)⟩
    · exact ⟨hs, fun h => (mem_given_cancel hf).mpr (.inl (hnone h))⟩

theorem Linked.act (hf : Linked f) (a : Act) : Linked (f.act a) := by
  cases a with
  | derive p way => exact hf.derive p way
  | advance t => exact ⟨hf.fresh, hf.older, hf.context, hf.handle⟩
  | cancel i => exact hf.cancel i
  | drop i => exact hf.drop i

/-! ## Whole runs -/

theorem run_snoc (acts : List Act) (a : Act) : run (acts ++ [a]) = (run acts).act a := by
  simp [run]

theorem run_linked (acts : List Act) : Linked (run acts) := by
  induction acts using List.reverseRecOn with
  | nil => exact ⟨rfl, nofun, nofun, nofun⟩
  | append_singleton acts a ih =>
    rw [run_snoc]
    exact ih.act a

/-- What later acts cannot take back. -/
theorem run_append (acts more : List Act) : Extends (run acts) (run (acts ++ more)) ∧
    (run acts).moment.now ≤ (run (acts ++ more)).moment.now ∧
    ∀ s ∈ (run acts).moment.given, s ∈ (run (acts ++ more)).moment.given := by
  induction more using List.reverseRecOn with
  | nil => simp [Extends.refl]
  | append_singleton more a ih =>
    obtain ⟨hext, hnow, hgiven⟩ := ih
    rw [← List.append_assoc, run_snoc]
    exact ⟨hext.trans (act_extends _ a), hnow.trans (now_le_act _ a),
      fun s hs => (mem_given_act (run_linked _) a).mpr (.inl (hgiven s hs))⟩

/-- The handle of a member was cancelled or dropped at some time. -/
def Ended (acts : List Act) (j : Nat) : Prop :=
  ∃ before a after, acts = before ++ a :: after ∧ (a = .cancel j ∨ a = .drop j) ∧
    j < (run before).members.length

theorem ended_snoc (acts : List Act) (a : Act) (j : Nat) : Ended (acts ++ [a]) j ↔
    Ended acts j ∨ (a = .cancel j ∨ a = .drop j) ∧ j < (run acts).members.length := by
  constructor
  · rintro ⟨before, b, after, he, hb, hj⟩
    rcases snoc_eq_append_cons he with ⟨rfl, rfl, -⟩ | ⟨after, he, -⟩
    · exact .inr ⟨hb, hj⟩
    · exact .inl ⟨before, b, after, he, hb, hj⟩
  · rintro (⟨before, b, after, rfl, hb, hj⟩ | ⟨ha, hj⟩)
    · exact ⟨before, b, after ++ [a], by simp, hb, hj⟩
    · exact ⟨acts, a, [], rfl, ha, hj⟩

theorem mem_given_iff (acts : List Act) (j : Nat) :
    j ∈ (run acts).moment.given ↔ Ended acts j := by
  induction acts using List.reverseRecOn with
  | nil => simp [run, Ended]
  | append_singleton acts a ih =>
    rw [run_snoc, mem_given_act (run_linked acts), ended_snoc, ih]

/-! ## Along a line -/

theorem Linked.mem_signals_iff (hf : Linked f) : ∀ {i : Nat} {m : Member},
    f.members[i]? = some m → ∀ j, j ∈ m.context.signals ↔ Line f j i := by
  intro i
  induction i using Nat.strongRecOn with
  | ind i ih =>
    intro m hm j
    obtain ⟨c, hc, he⟩ := hf.context i m hm
    rw [he, line_iff hm, List.mem_append, List.mem_singleton, or_comm]
    refine or_congr_right ?_
    cases hp : m.parent with
    | none =>
      obtain rfl : Context.background = c := by simpa [hp, context?] using hc
      simp [Context.background]
    | some k =>
      simp only [hp, context?, Option.map_eq_some_iff] at hc
      obtain ⟨n, hn, rfl⟩ := hc
      simp [ih k (hf.older i m k hm hp) hn]

theorem Linked.le_of_line (hf : Linked f) (h : Line f j i) : j ≤ i := by
  induction h with
  | self => exact Nat.le_refl _
  | child hm hk _ ih => exact ih.trans (hf.older _ _ _ hm hk).le

/-- Nothing is derived from what came later, nor from what has the same parent. -/
theorem Linked.not_line (hf : Linked f) {n : Member} (hm : f.members[i]? = some m)
    (hn : f.members[j]? = some n) (hne : i ≠ j) (h : Line f i j ∨ m.parent = n.parent) :
    ¬ Line f j i := by
  intro hl
  rcases h with h | h
  · exact hne (Nat.le_antisymm (hf.le_of_line h) (hf.le_of_line hl))
  · rcases (line_iff hm).mp hl with rfl | ⟨k, hk, hl⟩
    · exact hne rfl
    · have := hf.older j n k hn (h ▸ hk)
      have := hf.le_of_line hl
      omega

theorem Linked.earliest (hf : Linked f) : ∀ {i : Nat} {m : Member}, f.members[i]? = some m →
    Context.Earliest (f.requests i) m.context.deadline := by
  intro i
  induction i using Nat.strongRecOn with
  | ind i ih =>
    intro m hm
    obtain ⟨c, hc, he⟩ := hf.context i m hm
    have hset : f.requests i =
        {t | ∃ k, m.parent = some k ∧ t ∈ f.requests k} ∪ {t | m.requested = some t} := by
      ext t
      rw [mem_requests_iff hm, or_comm]
      rfl
    rw [hset, he]
    refine Context.Earliest.union ?_ (Context.earliest_singleton m.requested)
    cases hp : m.parent with
    | none =>
      obtain rfl : Context.background = c := by simpa [hp, context?] using hc
      simp [Context.background, Context.Earliest]
    | some k =>
      simp only [hp, context?, Option.map_eq_some_iff] at hc
      obtain ⟨n, hn, rfl⟩ := hc
      simpa using ih k (hf.older i m k hm hp) hn

/-! ## The whole family -/

/-- The handle of the member, or of one it was derived from, was cancelled or dropped. -/
def CutOff (acts : List Act) (i : Nat) : Prop := ∃ j, Line (run acts) j i ∧ Ended acts j

theorem cutOff_iff {acts : List Act} (hm : (run acts).members[i]? = some m) :
    (∃ s ∈ m.context.signals, s ∈ (run acts).moment.given) ↔ CutOff acts i :=
  exists_congr fun j => and_congr ((run_linked acts).mem_signals_iff hm j) (mem_given_iff acts j)

/-- Whatever happens to a family, the background stays live, and the deadline and the error of a
member follow from its line. One more cancellation ends those below and no others, and what is over
stays over. -/
theorem run_governed (acts : List Act) :
    Context.background.error? (run acts).moment = none ∧
    ∀ i m, (run acts).members[i]? = some m →
      Context.Earliest ((run acts).requests i) m.context.deadline ∧
      (∀ c t, (run acts).context? m.parent = some c → c.deadline = some t →
        ∃ u ≤ t, m.context.deadline = some u) ∧
      (m.context.error? (run acts).moment = some .cancelled ↔ CutOff acts i) ∧
      (m.context.error? (run acts).moment = some .deadlineExceeded ↔
        ¬ CutOff acts i ∧ ∃ d, m.context.deadline = some d ∧ d ≤ (run acts).moment.now) ∧
      (m.context.error? (run acts).moment = none ↔
        ¬ CutOff acts i ∧ ∀ d, m.context.deadline = some d → (run acts).moment.now < d) ∧
      (∀ a j n, a = .cancel j ∨ a = .drop j → (run acts).members[j]? = some n →
        (Line (run acts) j i →
          m.context.error? (run (acts ++ [a])).moment = some .cancelled) ∧
        (¬ Line (run acts) j i →
          m.context.error? (run (acts ++ [a])).moment = m.context.error? (run acts).moment) ∧
        (i ≠ j → Line (run acts) i j ∨ m.parent = n.parent → ¬ Line (run acts) j i)) ∧
      ∀ more, (∃ h, (run (acts ++ more)).members[i]? = some { m with handle := h }) ∧
        ∀ e, m.context.error? (run acts).moment = some e →
          ∃ e', m.context.error? (run (acts ++ more)).moment = some e' ∧
            (e = .cancelled → e' = .cancelled) := by
  have hf := run_linked acts
  refine ⟨by simp [Context.error?, Context.background], fun i m hm => ?_⟩
  have hcut := cutOff_iff hm
  refine ⟨hf.earliest hm, ?_, ?_, ?_, ?_, ?_, ?_⟩
  · intro c t hc ht
    obtain ⟨c', hc', he⟩ := hf.context i m hm
    obtain rfl := Option.some.inj (hc.symm.trans hc')
    rw [he]
    exact Context.earlier_le ht
  · rw [Context.error_eq_cancelled_iff, hcut]
  · rw [Context.error_eq_exceeded_iff, hcut]
  · rw [Context.error_eq_none_iff, hcut]
  · intro a j n ha hn
    have hj := (List.getElem?_eq_some_iff.mp hn).1
    have hgiven (s : Nat) := mem_given_act (j := s) hf a
    rw [run_snoc]
    refine ⟨fun hl => ?_, fun hl => ?_, hf.not_line hm hn⟩
    · exact (Context.error_eq_cancelled_iff _ _).mpr
        ⟨j, (hf.mem_signals_iff hm j).mpr hl, (hgiven j).mpr (.inr ⟨ha, hj⟩)⟩
    · refine Context.error_congr (by rcases ha with rfl | rfl <;> simp [act, drop]) fun s hs => ?_
      have hne : s ≠ j := by
        rintro rfl
        exact hl ((hf.mem_signals_iff hm s).mp hs)
      rw [hgiven s]
      rcases ha with rfl | rfl <;> simp [hne.symm]
  · intro more
    obtain ⟨hext, hnow, hgiven⟩ := run_append acts more
    exact ⟨hext i m hm, fun e => Context.error_lasts hnow hgiven⟩

/-- A timeout that leads to no instant asks for nothing, and a dropped handle ends those below. -/
example :
    let f := run [.derive none (.timeout ⟨5, 0⟩), .derive (some 0) (.timeout Duration.max),
      .derive (some 1) (.deadline 7), .derive (some 0) .cancel, .drop 1, .advance 8]
    f.members.map (fun m => (m.context.deadline, m.context.error? f.moment)) =
      [(some 5000000000, none), (some 5000000000, some .cancelled), (some 7, some .cancelled),
        (some 5000000000, none)] := by
  decide

end Family

end Courier
