/-!
# Parts between separators

A list with `n` separators has `n + 1` parts, empty ones included.
-/

namespace Courier.Split

/-- The parts of a list between the items that `p` picks out. -/
def partsAt (p : α → Bool) : List α → List (List α)
  | [] => [[]]
  | a :: r =>
    if p a then [] :: partsAt p r
    else
      match partsAt p r with
      | [] => [[a]]
      | q :: qs => (a :: q) :: qs

theorem partsAt_ne_nil (p : α → Bool) (l : List α) : partsAt p l ≠ [] := by
  cases l with
  | nil => simp [partsAt]
  | cons a r => simp only [partsAt]; split <;> (try split) <;> simp

theorem length_partsAt (p : α → Bool) (l : List α) : (partsAt p l).length = l.countP p + 1 := by
  induction l with
  | nil => rfl
  | cons a r ih =>
    simp only [partsAt]
    split
    · next h => simp [ih, h]
    · next h =>
      split
      · next hn => exact absurd hn (partsAt_ne_nil p r)
      · next hq => simp_all

/-- What comes before the first item that `p` picks out, and what comes after it if it is there. -/
def atFirst (p : α → Bool) : List α → List α × Option (List α)
  | [] => ([], none)
  | a :: r =>
    if p a then ([], some r)
    else
      let (before, after) := atFirst p r
      (a :: before, after)

/-- What comes before the last item that `p` picks out, if it is there, and what comes after. -/
def atLast (p : α → Bool) (l : List α) : Option (List α) × List α :=
  let (after, before) := atFirst p l.reverse
  (before.map List.reverse, after.reverse)

/-- Parts with the separators put back are the list. -/
theorem intercalate_partsAt [DecidableEq α] (sep : α) (l : List α) :
    [sep].intercalate (partsAt (· = sep) l) = l := by
  induction l with
  | nil => rfl
  | cons a r ih =>
    cases h : partsAt (fun x => decide (x = sep)) r with
    | nil => exact absurd h (partsAt_ne_nil _ r)
    | cons q qs =>
      rw [h] at ih
      by_cases ha : a = sep
      · simpa [partsAt, ha, h, List.intercalate] using ih
      · cases qs <;> simpa [partsAt, ha, h, List.intercalate] using ih

theorem partsAt_of_not {p : α → Bool} {l : List α} (hl : ∀ a ∈ l, p a = false) : partsAt p l = [l] := by
  induction l with
  | nil => rfl
  | cons a l ih =>
    rw [List.forall_mem_cons] at hl
    simp [partsAt, hl.1, ih hl.2]

theorem partsAt_append {p : α → Bool} {l : List α} {sep : α} (hl : ∀ a ∈ l, p a = false)
    (hsep : p sep = true) (r : List α) : partsAt p (l ++ sep :: r) = l :: partsAt p r := by
  induction l with
  | nil => simp [partsAt, hsep]
  | cons a l ih =>
    rw [List.forall_mem_cons] at hl
    simp [partsAt, hl.1, ih hl.2]

theorem eq_false_of_mem_partsAt {p : α → Bool} {l q : List α} (hq : q ∈ partsAt p l) {a : α}
    (ha : a ∈ q) : p a = false := by
  induction l generalizing q with
  | nil =>
    rw [partsAt, List.mem_singleton] at hq
    rw [hq] at ha
    cases ha
  | cons c r ih =>
    rw [partsAt] at hq
    split at hq
    · rcases List.mem_cons.mp hq with rfl | hq
      · cases ha
      · exact ih hq ha
    · next hc =>
      split at hq
      · next hn => exact absurd hn (partsAt_ne_nil p r)
      · next t ts ht =>
        rw [ht] at ih
        rcases List.mem_cons.mp hq with rfl | hq
        · rcases List.mem_cons.mp ha with rfl | ha
          · simpa using hc
          · exact ih List.mem_cons_self ha
        · exact ih (List.mem_cons_of_mem _ hq) ha

/-- Each part but the first comes after a separator, and no part has one. -/
theorem partsAt_eq_cons_iff [DecidableEq α] {sep : α} {l q : List α} {qs : List (List α)} :
    partsAt (· = sep) l = q :: qs ↔
      l = q ++ qs.flatMap (sep :: ·) ∧ ∀ x ∈ q :: qs, sep ∉ x := by
  constructor
  · intro h
    refine ⟨?_, fun x hx hs => ?_⟩
    · have hl := intercalate_partsAt sep l
      rw [h] at hl
      rw [← hl]
      clear h hl
      induction qs generalizing q with
      | nil => simp [List.intercalate]
      | cons x qs ih =>
        rw [List.flatMap_cons, List.cons_append, ← ih]
        simp [List.intercalate]
    · rw [← h] at hx
      simpa using eq_false_of_mem_partsAt hx hs
  · rintro ⟨rfl, h⟩
    induction qs generalizing q with
    | nil =>
      rw [List.flatMap_nil, List.append_nil]
      refine partsAt_of_not fun a ha => decide_eq_false fun hs => ?_
      exact h q List.mem_cons_self (hs ▸ ha)
    | cons x qs ih =>
      rw [List.forall_mem_cons] at h
      have hq : ∀ a ∈ q, decide (a = sep) = false := fun a ha => decide_eq_false fun hs => h.1 (hs ▸ ha)
      rw [List.flatMap_cons, List.cons_append, partsAt_append hq (by simp), ih h.2]

end Courier.Split
