import Courier.Finder
import Mathlib.Data.List.Basic
import Mathlib.Data.List.Induction

/-!
# The latest announcement of every provider stands

An action on the table is about one provider and one root. What is found for a
root are the candidates of those announcements that no later action is about,
in the order of their times (`run_latest`). One more action takes away what it
is about and, if it is an announcement, puts its candidate last.
-/

namespace Courier.Finder

/-! ## Histories -/

def Action.About (a : Action) (r : Cid) (p : ProviderId) : Prop := a.root = r ∧ a.provider = p

instance (a : Action) (r : Cid) (p : ProviderId) : Decidable (a.About r p) :=
  inferInstanceAs (Decidable (_ ∧ _))

/-- The last action about a provider and a root. -/
def latest? (as : List Action) (r : Cid) (p : ProviderId) : Option Action :=
  as.reverse.find? fun a => a.About r p

/-- The candidate announced at a time of a history, if that is for the root and no later action is
about its provider there. -/
def standsAt (as : List Action) (r : Cid) (t : Nat) : Option Candidate :=
  match as.drop t with
  | .announce c :: later =>
    if c.root = r ∧ ∀ a ∈ later, ¬ a.About r c.provider then some c else none
  | _ => none

def standing (as : List Action) (r : Cid) : List Candidate :=
  (List.range as.length).filterMap (standsAt as r)

/-- What an action adds to the candidates of a root. -/
def Action.news (r : Cid) : Action → List Candidate
  | .announce c => if c.root = r then [c] else []
  | .withdraw _ _ => []

variable {f : Finder} {as : List Action} {a : Action} {c : Candidate} {r root : Cid}
  {p : ProviderId} {t : Nat}

theorem news_of_ne (h : a.root ≠ r) : a.news r = [] := by
  cases a with
  | announce c => exact if_neg h
  | withdraw root p => rfl

theorem provider_of_mem_news (h : c ∈ a.news r) : a.About r c.provider := by
  cases a with
  | withdraw root p => cases h
  | announce d =>
    by_cases hd : d.root = r
    · rw [Action.news, if_pos hd] at h
      cases List.mem_singleton.mp h
      exact ⟨hd, rfl⟩
    · rw [Action.news, if_neg hd] at h
      cases h

theorem filter_about_of_ne (h : a.root ≠ r) (l : List Candidate) :
    l.filter (fun c => ¬ a.About r c.provider) = l := by
  rw [List.filter_eq_self]
  intro c _
  simp [Action.About, h]

theorem latest?_snoc :
    latest? (as ++ [a]) r p = if a.About r p then some a else latest? as r p := by
  unfold latest?
  by_cases h : a.About r p
  · simp [h]
  · simp [h]

theorem about_of_latest? (h : latest? as r p = some a) : a.About r p := by
  unfold latest? at h
  simpa using List.find?_some h

theorem standsAt_snoc (ht : t < as.length) :
    standsAt (as ++ [a]) r t = (standsAt as r t).filter fun c => ¬ a.About r c.provider := by
  unfold standsAt
  rw [List.drop_append_of_le_length (Nat.le_of_lt ht), List.drop_eq_getElem_cons ht]
  cases as[t] with
  | withdraw r' p => rfl
  | announce c =>
    simp only [List.cons_append, List.forall_mem_append, List.forall_mem_singleton]
    by_cases hc : c.root = r ∧ ∀ b ∈ as.drop (t + 1), ¬ b.About r c.provider
    · by_cases ha : a.About r c.provider
      · rw [if_neg (fun h => h.2.2 ha), if_pos hc]
        simp [Option.filter, ha]
      · rw [if_pos ⟨hc.1, hc.2, ha⟩, if_pos hc]
        simp [Option.filter, ha]
    · rw [if_neg (fun h => hc ⟨h.1, h.2.1⟩), if_neg hc]
      rfl

theorem standsAt_last : (standsAt (as ++ [a]) r as.length).toList = a.news r := by
  unfold standsAt
  rw [List.drop_left]
  cases a with
  | withdraw r' p => rfl
  | announce c =>
    by_cases hc : c.root = r
    · simp [Action.news, hc]
    · simp [Action.news, hc]

theorem standing_snoc :
    standing (as ++ [a]) r =
      ((standing as r).filter fun c => ¬ a.About r c.provider) ++ a.news r := by
  have hlast : [as.length].filterMap (standsAt (as ++ [a]) r) = a.news r := by
    rw [← standsAt_last, List.filterMap_cons]
    cases standsAt (as ++ [a]) r as.length <;> rfl
  unfold standing
  rw [List.length_append, List.length_singleton, List.range_succ, List.filterMap_append, hlast,
    List.filter_filterMap]
  congr 1
  apply List.filterMap_congr
  intro t ht
  exact standsAt_snoc (List.mem_range.mp ht)

/-! ## The table -/

theorem lookup_others (l : List (Cid × List Candidate)) :
    (l.filter (·.1 ≠ root)).lookup r = if r = root then none else l.lookup r := by
  induction l with
  | nil => simp
  | cons e l ih =>
    by_cases he : e.1 = root
    · rw [List.filter_cons_of_neg (by simp [he]), ih, List.lookup_cons]
      by_cases hr : r = root
      · simp [hr]
      · simp [hr, beq_false_of_ne fun h => hr (h.trans he)]
    · rw [List.filter_cons_of_pos (by simp [he]), List.lookup_cons, List.lookup_cons, ih]
      by_cases hr : r = root
      · subst hr
        simp [beq_false_of_ne (Ne.symm he)]
      · simp [hr]

theorem find_set (f : Finder) (root : Cid) (l : List Candidate) :
    (f.set root l).find r = if r = root then l else f.find r := by
  unfold find set
  by_cases hl : l = []
  · simp only [hl, if_true, lookup_others]
    by_cases hr : r = root <;> simp [hr]
  · simp only [hl, if_false, List.lookup_cons, lookup_others]
    by_cases hr : r = root
    · simp [hr]
    · simp [hr, beq_false_of_ne hr]

theorem find_act (f : Finder) (a : Action) :
    (f.act a).find r = ((f.find r).filter fun c => ¬ a.About r c.provider) ++ a.news r := by
  by_cases hr : a.root = r
  · subst hr
    cases a with
    | announce c => simp [act, announce, find_set, Action.About, Action.root, Action.provider,
        Action.news, eq_comm]
    | withdraw root p => simp [act, withdraw, find_set, Action.About, Action.root, Action.provider,
        Action.news, eq_comm]
  · rw [filter_about_of_ne hr, news_of_ne hr, List.append_nil]
    cases a with
    | announce c => exact (find_set ..).trans (if_neg (Ne.symm hr))
    | withdraw root p => exact (find_set ..).trans (if_neg (Ne.symm hr))

/-- Roots without candidates have no entry, and no root has two. -/
structure Tidy (f : Finder) : Prop where
  once : (f.table.map (·.1)).Nodup
  filled : ∀ e ∈ f.table, e.2 ≠ []

theorem Tidy.set (h : f.Tidy) (root : Cid) (l : List Candidate) : (f.set root l).Tidy := by
  have hothers : ((f.table.filter (·.1 ≠ root)).map (·.1)).Nodup :=
    h.once.sublist (List.filter_sublist.map _)
  have hfilled : ∀ e ∈ f.table.filter (·.1 ≠ root), e.2 ≠ [] :=
    fun e he => h.filled e (List.mem_filter.mp he).1
  unfold Finder.set
  by_cases hl : l = []
  · simp only [hl, if_true]
    exact ⟨hothers, hfilled⟩
  · simp only [hl, if_false]
    refine ⟨List.nodup_cons.mpr ⟨?_, hothers⟩, ?_⟩
    · simp
    · intro e he
      cases he with
      | head => exact hl
      | tail _ he => exact hfilled e he

theorem Tidy.act (h : f.Tidy) (a : Action) : (f.act a).Tidy := by
  cases a with
  | announce c => exact h.set _ _
  | withdraw root p => exact h.set _ _

theorem Tidy.mem_iff (h : f.Tidy) : r ∈ f.table.map (·.1) ↔ f.find r ≠ [] := by
  unfold find
  constructor
  · intro hr
    cases hl : f.table.lookup r with
    | none =>
      obtain ⟨e, he, hre⟩ := List.mem_map.mp hr
      have := List.lookup_eq_none_iff.mp hl e he
      simp [hre] at this
    | some l =>
      obtain ⟨l₁, l₂, htable, -⟩ := List.lookup_eq_some_iff.mp hl
      exact h.filled (r, l) (by simp [htable])
  · intro hr
    cases hl : f.table.lookup r with
    | none => simp [hl] at hr
    | some l =>
      obtain ⟨l₁, l₂, htable, -⟩ := List.lookup_eq_some_iff.mp hl
      simp [htable]

/-! ## Runs -/

theorem run_snoc (f : Finder) (as : List Action) (a : Action) :
    f.run (as ++ [a]) = (f.run as).act a := by
  unfold run
  rw [List.foldl_append]
  rfl

theorem run_tidy (as : List Action) : (run {} as).Tidy := by
  induction as using List.reverseRecOn with
  | nil => exact ⟨List.nodup_nil, nofun⟩
  | append_singleton as a ih =>
    rw [run_snoc]
    exact ih.act a

theorem find_run (as : List Action) (r : Cid) : (run {} as).find r = standing as r := by
  induction as using List.reverseRecOn with
  | nil => rfl
  | append_singleton as a ih => rw [run_snoc, find_act, ih, standing_snoc]

/-- Of one provider there is what the last action about it announced. -/
theorem filter_provider_run (as : List Action) (r : Cid) (p : ProviderId) :
    ((run {} as).find r).filter (·.provider = p) = ((latest? as r p).map (·.news r)).getD [] := by
  induction as using List.reverseRecOn with
  | nil => rfl
  | append_singleton as a ih =>
    rw [run_snoc, find_act, latest?_snoc, List.filter_append, List.filter_filter]
    by_cases ha : a.About r p
    · have hgone : ((run {} as).find r).filter (fun c => decide (c.provider = p) &&
          decide ¬ a.About r c.provider) = [] := by
        rw [List.filter_eq_nil_iff]
        intro c _ hc
        simp only [Bool.and_eq_true, decide_eq_true_eq] at hc
        exact hc.2 (hc.1 ▸ ha)
      have hnews : (a.news r).filter (·.provider = p) = a.news r := by
        rw [List.filter_eq_self]
        intro c hc
        exact decide_eq_true ((provider_of_mem_news hc).2.symm.trans ha.2)
      rw [hgone, hnews, if_pos ha]
      rfl
    · have hkept : ((run {} as).find r).filter (fun c => decide (c.provider = p) &&
          decide ¬ a.About r c.provider) = ((run {} as).find r).filter (·.provider = p) := by
        apply List.filter_congr
        intro c _
        by_cases hc : c.provider = p
        · simp [hc, ha]
        · simp [hc]
      have hnews : (a.news r).filter (·.provider = p) = [] := by
        rw [List.filter_eq_nil_iff]
        intro c hc hp
        exact ha (of_decide_eq_true hp ▸ provider_of_mem_news hc)
      rw [hkept, hnews, List.append_nil, if_neg ha, ih]

theorem find_run_filter (as : List Action) (r : Cid) :
    (run {} as).find r = (run {} (as.filter (·.root = r))).find r := by
  induction as using List.reverseRecOn with
  | nil => rfl
  | append_singleton as a ih =>
    rw [run_snoc, find_act, ih, List.filter_append]
    by_cases ha : a.root = r
    · rw [List.filter_cons_of_pos (by simp [ha]), List.filter_nil, run_snoc, find_act]
    · rw [List.filter_cons_of_neg (by simp [ha]), List.filter_nil, List.append_nil,
        filter_about_of_ne ha, news_of_ne ha, List.append_nil]

/-- What is found for a root are the candidates whose announcements stand, in the order of their
times. So of a provider there is the candidate that the last action about it announced, and none if
that was a withdrawal. Actions on other roots do not matter, and the roots with an entry, each of
which has one, are those for which an announcement stands. -/
theorem run_latest (as : List Action) (r : Cid) :
    (run {} as).find r = (List.range as.length).filterMap (standsAt as r) ∧
    (∀ p, ((run {} as).find r).filter (·.provider = p) =
      match latest? as r p with
      | some (.announce c) => [c]
      | _ => []) ∧
    (run {} as).find r = (run {} (as.filter (·.root = r))).find r ∧
    ((run {} as).table.map (·.1)).Nodup ∧
    (r ∈ (run {} as).table.map (·.1) ↔ ∃ p c, latest? as r p = some (.announce c)) := by
  have hfound : ∀ p, ((run {} as).find r).filter (·.provider = p) =
      match latest? as r p with
      | some (.announce c) => [c]
      | _ => [] := by
    intro p
    rw [filter_provider_run]
    cases hl : latest? as r p with
    | none => rfl
    | some a =>
      cases a with
      | withdraw root q => rfl
      | announce c => exact if_pos (about_of_latest? hl).1
  refine ⟨find_run as r, hfound, find_run_filter as r, (run_tidy as).once, ?_⟩
  rw [(run_tidy as).mem_iff]
  constructor
  · intro h
    obtain ⟨c, hc⟩ := List.exists_mem_of_ne_nil _ h
    have hmem : c ∈ ((run {} as).find r).filter (·.provider = c.provider) :=
      List.mem_filter.mpr ⟨hc, by simp⟩
    rw [hfound] at hmem
    split at hmem
    · next d hd => exact ⟨c.provider, d, hd⟩
    · cases hmem
  · intro ⟨p, c, hl⟩ hnil
    have := hfound p
    rw [hnil, hl] at this
    cases this

/-- Announced again, a candidate comes after those that were announced since. -/
example :
    let c (p : UInt8) (addr : String) : Candidate :=
      { root := ⟨[1]⟩, provider := ⟨[p]⟩, addrs := [addr] }
    let as : List Action := [.announce (c 1 "a"), .announce (c 2 "b"), .announce (c 1 "c")]
    (run {} as).find ⟨[1]⟩ = [c 2 "b", c 1 "c"] ∧
      (run {} (as ++ [.withdraw ⟨[1]⟩ ⟨[1]⟩, .withdraw ⟨[1]⟩ ⟨[2]⟩])).table = [] := by
  decide

end Courier.Finder
