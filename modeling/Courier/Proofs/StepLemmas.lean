import Courier.Proofs.ExchangeLemmas

/-!
# Steps of an exchange

An exchange heeds an action that it waits for and takes no other. What it does
then is one of a few things (`Step`), each of which changes a single walk and at
most one of its fetches.
-/

namespace Courier.Exchange

variable {x : Exchange} {k : Key} {w w' : Walk} {t : Ticket} {f f' : Fetch}

/-! ## Nothing happens -/

theorem setWalk_self (hx : (x.walks.map (·.1)).Nodup) (h : x.walk? k = some w) :
    x.setWalk k w = x := by
  have hm : x.walks.map (fun e => if e.1 = k then (k, w) else e) = x.walks := by
    refine (List.map_congr_left fun e he => ?_).trans (List.map_id _)
    split
    · next hk => exact (List.inj_on_of_nodup_map hx he (mem_of_walk? h) hk).symm
    · rfl
  unfold setWalk
  rw [hm]

theorem Walk.setFetch_self (hw : (w.fetches.map (·.ticket)).Nodup) (hf : f ∈ w.fetches) :
    w.setFetch f = w := by
  have hm : w.fetches.map (fun g => if g.ticket = f.ticket then f else g) = w.fetches := by
    refine (List.map_congr_left fun g hg => ?_).trans (List.map_id _)
    split
    · next ht => exact (List.inj_on_of_nodup_map hw hg hf ht).symm
    · rfl
  unfold Walk.setFetch
  rw [hm]

theorem settle_waits (hx : x.Tidy) (h : x.walk? k = some w) (hf : f ∈ w.fetches) :
    x.settle k w f .waits = (x, []) := by
  rw [settle, Walk.setFetch_self (hx.walk_tickets h) hf, setWalk_self hx.keys h]

/-- Whether the exchange waits for an action. A fetch waits for nothing but the answer it asked
for, or for a slot until that is handed to it; one whose walk writes a block takes no step. -/
def Heeds (x : Exchange) : Action → Prop
  | .start _ _ => x.admits = true
  | .advance t => ∃ k w f, x.walk? k = some w ∧ f ∈ w.fetches ∧ f.ticket = t ∧ w.writing = none ∧
      f.need w.own x.shared ≠ .others
  | .answer t _ _ => ∃ k w f p others, x.walk? k = some w ∧ f ∈ w.fetches ∧ f.ticket = t ∧
      w.writing = none ∧ f.phase = .asking p others
  | .written k _ => ∃ w links, x.walk? k = some w ∧ w.writing = some links
  | .drop k => ∃ w, x.walk? k = some w

theorem step_of_not_heeds (hx : x.Tidy) {a : Action} (h : ¬ x.Heeds a) : x.step a = (x, []) := by
  cases a with
  | start root providers => exact if_neg h
  | advance t =>
    simp only [step, advance]
    split
    · rfl
    · next k w ho =>
      have hk := walk?_of_owner? hx.keys ho
      split
      · next f hw hf =>
        obtain ⟨hf, ht⟩ := Walk.mem_of_fetch? hf
        have hn : f.need w.own x.shared = .others := by
          by_contra hn
          exact h ⟨k, w, f, hk, hf, ht, hw, hn⟩
        rw [Fetch.advance_others hn]
        exact settle_waits hx hk hf
      · rfl
  | answer t ended a =>
    simp only [step, answer]
    split
    · rfl
    · next k w ho =>
      have hk := walk?_of_owner? hx.keys ho
      split
      · next f hw hf =>
        obtain ⟨hf, ht⟩ := Walk.mem_of_fetch? hf
        have hn : f.answer x.limit ended a = (f, .waits) := by
          unfold Fetch.answer
          split
          · next p others hp => exact absurd ⟨k, w, f, p, others, hk, hf, ht, hw, hp⟩ h
          · rfl
        rw [hn]
        exact settle_waits hx hk hf
      · rfl
  | written k r =>
    simp only [step, written]
    split
    · rfl
    · next w hk =>
      split
      · rfl
      · next links hw => exact absurd ⟨w, links, hk, hw⟩ h
  | drop k =>
    simp only [step, drop]
    split
    · rfl
    · next w hk => exact absurd ⟨w, hk⟩ h

/-! ## Something happens -/

def Effect.isNote : Effect → Bool
  | .wake _ | .firstBlock _ _ => true
  | _ => false

/-- What a heeded action makes of an exchange, and the effects it has. -/
inductive Step (x : Exchange) : Action → Exchange → List Effect → Prop
  | starts {root : Cid} {providers : List ProviderId} : x.admits = true →
      Step x (.start root providers) (x.start root providers).2.1 (x.start root providers).2.2
  | goes {k : Key} {w : Walk} {f f' : Fetch} {own shared : Slots} {a : Action} :
      x.walk? k = some w → f ∈ w.fetches → w.writing = none →
      f.Goes w.providers w.own x.shared a f' own shared → f'.phase ≠ .spent →
      Step x a ({ x with shared }.setWalk k ({ w with own }.setFetch f')) f'.asks
  | fails {k : Key} {w : Walk} {f f' : Fetch} {own shared : Slots} {a : Action} {e : Error} :
      x.walk? k = some w → f ∈ w.fetches → w.writing = none →
      f.Goes w.providers w.own x.shared a f' own shared → f'.phase = .spent →
      Step x a ((({ x with shared }.setWalk k ({ w with own }.setFetch f')).finish k (.error e)).1)
        ((({ x with shared }.setWalk k ({ w with own }.setFetch f')).finish k (.error e)).2)
  | halts {k : Key} {w : Walk} {f : Fetch} {p : ProviderId} {others : List ProviderId}
      {e e' : Error} : x.walk? k = some w → f ∈ w.fetches → w.writing = none →
      f.phase = .asking p others →
      Step x (.answer f.ticket (some e) (.error e')) (x.finish k (.error e)).1
        (x.finish k (.error e)).2
  | delivers {k : Key} {w : Walk} {f : Fetch} {p : ProviderId} {others : List ProviderId}
      {ended : Option Error} {b : Block} {es : List Effect} : x.walk? k = some w →
      f ∈ w.fetches → w.writing = none → f.phase = .asking p others → b.cid = f.cid →
      (∀ e ∈ es, e.isNote = true) →
      Step x (.answer f.ticket ended (.ok b))
        ({ x with shared := x.shared.release.1 }.setWalk k
          (({ w with own := w.own.release.1 }.dropFetch f.ticket).take b p))
        (es ++ [.write k b])
  | spawns {k : Key} {w : Walk} {links : List Cid} {es : List Effect} : x.walk? k = some w →
      w.writing = some links → (links ≠ [] ∨ w.fetches ≠ []) → (∀ e ∈ es, e.isNote = true) →
      Step x (.written k (.ok ()))
        { x.setWalk k ({ w with writing := none }.spawn x.fresh links) with
          fresh := x.fresh + links.length } es
  | completes {k : Key} {w : Walk} : x.walk? k = some w → w.writing = some [] → w.fetches = [] →
      Step x (.written k (.ok ())) (x.finish k (.ok w.tally)).1 (x.finish k (.ok w.tally)).2
  | refuses {k : Key} {w : Walk} {links : List Cid} {e : Error} : x.walk? k = some w →
      w.writing = some links →
      Step x (.written k (.error e)) (x.finish k (.error e)).1 (x.finish k (.error e)).2
  | drops {k : Key} {w : Walk} : x.walk? k = some w →
      Step x (.drop k) (x.drop k).1 (x.drop k).2

theorem filter_setWalk (x : Exchange) (k : Key) (w : Walk) :
    (x.setWalk k w).walks.filter (·.1 ≠ k) = x.walks.filter (·.1 ≠ k) := by
  simp only [setWalk, List.filter_map]
  have hc : ((fun e : Key × Walk => decide (e.1 ≠ k)) ∘ fun e => if e.1 = k then (k, w) else e) =
      fun e => decide (e.1 ≠ k) := by
    funext e
    by_cases he : e.1 = k
    · simp [he]
    · simp [he]
  rw [hc]
  refine (List.map_congr_left fun e he => ?_).trans (List.map_id _)
  have hk : e.1 ≠ k := by simpa using (List.mem_filter.1 he).2
  exact if_neg hk

theorem walk?_setWalk (w' : Walk) (hx : (x.walks.map (·.1)).Nodup) (h : x.walk? k = some w) :
    (x.setWalk k w').walk? k = some w' := by
  have hp := setWalk_perm w' hx h
  refine walk?_of_mem ((hp.map (·.1)).nodup_iff.2 ?_) (hp.symm.subset List.mem_cons_self)
  exact ((walks_perm hx h).map (·.1)).nodup_iff.1 hx

theorem drop_eq (h : x.walk? k = some w) :
    x.drop k = ({ x with shared := (w.leave x.shared).1, walks := x.walks.filter (·.1 ≠ k) },
      (w.leave x.shared).2.map .wake) := by
  simp [drop, h]

theorem settle_turn (x : Exchange) (k : Key) (w : Walk) (f : Fetch) (e : Error) :
    x.settle k w f (f.turn e) =
      if f.phase = .spent then (x.setWalk k (w.setFetch f)).finish k (.error e)
      else (x.setWalk k (w.setFetch f), f.asks) := by
  unfold Fetch.turn Fetch.asks
  cases hp : f.phase with
  | asking p others => simp [settle]
  | spent => simp [settle]
  | _ => simp [settle]

theorem settle_delivers (x : Exchange) (k : Key) (w : Walk) (f : Fetch) (b : Block)
    (p : ProviderId) :
    ∃ es : List Effect, (∀ e ∈ es, e.isNote = true) ∧ x.settle k w f (.delivers b p) =
      ({ x with shared := x.shared.release.1 }.setWalk k
        (({ w with own := w.own.release.1 }.dropFetch f.ticket).take b p), es ++ [.write k b]) := by
  refine ⟨_, ?_, rfl⟩
  intro e he
  simp only [List.mem_append, List.mem_map] at he
  rcases he with (⟨_, -, rfl⟩ | ⟨_, -, rfl⟩) | he
  · rfl
  · rfl
  · split at he
    · rw [List.mem_singleton.1 he]; rfl
    · cases he

theorem Step.of_turn (hk : x.walk? k = some w) (hf : f ∈ w.fetches) (hw : w.writing = none)
    {a : Action} {own shared : Slots} (hg : f.Goes w.providers w.own x.shared a f' own shared)
    (e : Error) :
    x.Step a ({ x with shared }.settle k { w with own } f' (f'.turn e)).1
      ({ x with shared }.settle k { w with own } f' (f'.turn e)).2 := by
  rw [settle_turn]
  by_cases hs : f'.phase = .spent
  · rw [if_pos hs]
    exact .fails hk hf hw hg hs
  · rw [if_neg hs]
    exact .goes hk hf hw hg hs

theorem step_advance (hx : x.Tidy) (hk : x.walk? k = some w) (hf : f ∈ w.fetches)
    (hw : w.writing = none) (hn : f.need w.own x.shared ≠ .others) :
    x.Step (.advance f.ticket) (x.step (.advance f.ticket)).1 (x.step (.advance f.ticket)).2 := by
  obtain ⟨ho, hf'⟩ := owner?_of_mem hx hk hf
  obtain ⟨f', own, shared, e, hg, ha⟩ := Fetch.advance_goes w.providers hn
  have hs : x.step (.advance f.ticket) =
      { x with shared }.settle k { w with own } f' (f'.turn e) := by
    simp only [step, advance, ho, hw, hf', ha]
  rw [hs]
  exact .of_turn hk hf hw hg e

theorem step_answer (hx : x.Tidy) (hk : x.walk? k = some w) (hf : f ∈ w.fetches)
    (hw : w.writing = none) {p : ProviderId} {others : List ProviderId}
    (hp : f.phase = .asking p others) (ended : Option Error) (a : Except Error Block) :
    x.Step (.answer f.ticket ended a) (x.step (.answer f.ticket ended a)).1
      (x.step (.answer f.ticket ended a)).2 := by
  obtain ⟨ho, hf'⟩ := owner?_of_mem hx hk hf
  have hs : x.step (.answer f.ticket ended a) =
      x.settle k w (f.answer x.limit ended a).1 (f.answer x.limit ended a).2 := by
    simp only [step, answer, ho, hw, hf']
  have turned (e : Error) (hne : ∀ b, a = .ok b → b.cid ≠ f.cid)
      (ha : f.answer x.limit ended a = f.turnTo e others) :
      x.Step (.answer f.ticket ended a) (x.step (.answer f.ticket ended a)).1
        (x.step (.answer f.ticket ended a)).2 := by
    rw [hs, ha, Fetch.turnTo_eq]
    exact .of_turn hk hf hw (.turns hp hne) e
  cases a with
  | ok b =>
    by_cases hb : b.cid = f.cid
    · have ha : f.answer x.limit ended (.ok b) = (f, .delivers b p) := by
        simp [Fetch.answer, hp, hb]
      obtain ⟨es, hes, he⟩ := settle_delivers x k w f b p
      rw [hs, ha, he]
      exact .delivers hk hf hw hp hb hes
    · refine turned (.failed (.wrongBlock f.cid b.cid)) (fun b' hb' => ?_) ?_
      · cases hb'
        exact hb
      · simp [Fetch.answer, hp, hb]
  | error e =>
    cases ended with
    | some e' =>
      have ha : f.answer x.limit (some e') (.error e) = (f, .fails e') := by
        simp [Fetch.answer, hp]
      rw [hs, ha, settle, Walk.setFetch_self (hx.walk_tickets hk) hf, setWalk_self hx.keys hk]
      exact .halts hk hf hw hp
    | none => exact turned (blame x.limit e) nofun (by simp [Fetch.answer, hp])

theorem step_written (hx : x.Tidy) (hk : x.walk? k = some w) {links : List Cid}
    (hw : w.writing = some links) (r : Except Error Unit) :
    x.Step (.written k r) (x.step (.written k r)).1 (x.step (.written k r)).2 := by
  cases r with
  | error e =>
    simp only [step, written, hk, hw]
    exact .refuses hk hw
  | ok u =>
    simp only [step, written, hk, hw]
    by_cases he : links = [] ∧ w.fetches = []
    · obtain ⟨rfl, hf⟩ := he
      have hs := walk?_setWalk (Walk.spawn { w with writing := none } x.fresh []) hx.keys hk
      have hd := drop_eq (x := { x.setWalk k (Walk.spawn { w with writing := none } x.fresh [])
        with fresh := x.fresh + 0 }) hs
      have hl : ∀ v : Walk, v.fetches = [] → v.leave x.shared = (x.shared, []) := by
        intro v hv
        simp [Walk.leave, hv]
      have hempty : (Walk.spawn { w with writing := none } x.fresh []).fetches = [] := by
        simp [Walk.spawn, hf]
      have hfin : ({ x.setWalk k (Walk.spawn { w with writing := none } x.fresh []) with
          fresh := x.fresh + 0 } : Exchange).finish k (.ok w.tally) = x.finish k (.ok w.tally) := by
        simp only [finish, hd, drop_eq hk, filter_setWalk]
        simp only [setWalk, hl w hf, hl _ hempty, Nat.add_zero]
      rw [List.length_nil, if_pos (by rw [hempty]; rfl), List.mapIdx_nil, List.nil_append]
      rw [show (Walk.spawn { w with writing := none } x.fresh []).tally = w.tally from rfl, hfin]
      exact .completes hk hw hf
    · have hne : (Walk.spawn { w with writing := none } x.fresh links).fetches.isEmpty = false := by
        rw [Walk.spawn, List.isEmpty_eq_false_iff]
        intro hn
        rw [List.append_eq_nil_iff, List.mapIdx_eq_nil_iff] at hn
        exact he ⟨hn.2, hn.1⟩
      rw [if_neg (by rw [hne]; exact Bool.false_ne_true)]
      refine .spawns hk hw ?_ fun e he => ?_
      · by_cases hl : links = []
        · exact .inr fun hf => he ⟨hl, hf⟩
        · exact .inl hl
      · obtain ⟨i, hi, rfl⟩ := List.mem_mapIdx.1 he
        rfl

theorem step_heeds (hx : x.Tidy) {a : Action} (h : x.Heeds a) :
    x.Step a (x.step a).1 (x.step a).2 := by
  cases a with
  | start root providers =>
    have hs : x.step (.start root providers) = (x.start root providers).2 := if_pos h
    rw [hs]
    exact .starts h
  | advance t =>
    obtain ⟨k, w, f, hk, hf, rfl, hw, hn⟩ := h
    exact step_advance hx hk hf hw hn
  | answer t ended a =>
    obtain ⟨k, w, f, p, others, hk, hf, rfl, hw, hp⟩ := h
    exact step_answer hx hk hf hw hp ended a
  | written k r =>
    obtain ⟨w, links, hk, hw⟩ := h
    exact step_written hx hk hw r
  | drop k =>
    obtain ⟨w, hk⟩ := h
    exact .drops hk

/-! ## What a step leaves as it is -/

theorem keys_setWalk (x : Exchange) (k : Key) (w : Walk) :
    (x.setWalk k w).walks.map (·.1) = x.walks.map (·.1) := by
  simp only [setWalk, List.map_map]
  refine List.map_congr_left fun e he => ?_
  by_cases hk : e.1 = k
  · simp [hk]
  · simp [hk]

theorem drop_sublist (x : Exchange) (k : Key) : (x.drop k).1.walks.Sublist x.walks := by
  cases hk : x.walk? k with
  | none => simp [drop, hk]
  | some w =>
    rw [drop_eq hk]
    exact List.filter_sublist

theorem drop_frame (x : Exchange) (k : Key) :
    (x.drop k).1.limit = x.limit ∧ (x.drop k).1.width = x.width ∧ (x.drop k).1.fresh = x.fresh := by
  cases hk : x.walk? k with
  | none => simp [drop, hk]
  | some w => simp [drop_eq hk]

theorem walk?_drop (x : Exchange) (k : Key) : (x.drop k).1.walk? k = none := by
  cases hk : x.walk? k with
  | none => simp [drop, hk]
  | some w =>
    rw [drop_eq hk]
    refine List.lookup_eq_none_iff.2 fun e he => ?_
    have hne : e.1 ≠ k := by simpa using (List.mem_filter.1 he).2
    exact bne_iff_ne.2 hne.symm

variable {a : Action} {y : Exchange} {es : List Effect}

theorem Step.frame (h : x.Step a y es) :
    y.limit = x.limit ∧ y.width = x.width ∧ x.fresh ≤ y.fresh := by
  cases h with
  | starts => exact ⟨rfl, rfl, Nat.le_add_right _ 2⟩
  | goes => exact ⟨rfl, rfl, Nat.le_refl _⟩
  | delivers => exact ⟨rfl, rfl, Nat.le_refl _⟩
  | spawns => exact ⟨rfl, rfl, Nat.le_add_right _ _⟩
  | fails => exact (drop_frame _ _).imp_right fun h => ⟨h.1, Nat.le_of_eq h.2.symm⟩
  | halts => exact (drop_frame _ _).imp_right fun h => ⟨h.1, Nat.le_of_eq h.2.symm⟩
  | completes => exact (drop_frame _ _).imp_right fun h => ⟨h.1, Nat.le_of_eq h.2.symm⟩
  | refuses => exact (drop_frame _ _).imp_right fun h => ⟨h.1, Nat.le_of_eq h.2.symm⟩
  | drops => exact (drop_frame _ _).imp_right fun h => ⟨h.1, Nat.le_of_eq h.2.symm⟩

/-- Only a start adds a walk, under a number that was never in use. -/
theorem Step.keys (h : x.Step a y es) :
    y.walks.map (·.1) ⊆ x.fresh :: x.walks.map (·.1) := by
  have kept (z : Exchange) (hz : z.walks.map (·.1) = x.walks.map (·.1)) :
      z.walks.map (·.1) ⊆ x.fresh :: x.walks.map (·.1) := by
    rw [hz]
    exact List.subset_cons_self _ _
  have dropped (z : Exchange) (k : Key) (hz : z.walks.map (·.1) = x.walks.map (·.1)) :
      (z.drop k).1.walks.map (·.1) ⊆ x.fresh :: x.walks.map (·.1) := by
    rw [← hz]
    exact List.subset_cons_of_subset _ ((drop_sublist z k).map _).subset
  cases h with
  | starts =>
    simp only [start, List.map_append, List.map_cons, List.map_nil]
    exact List.perm_append_comm.subset
  | goes => exact kept _ (keys_setWalk _ _ _)
  | delivers => exact kept _ (keys_setWalk _ _ _)
  | spawns => exact kept _ (keys_setWalk _ _ _)
  | fails => exact dropped _ _ (keys_setWalk _ _ _)
  | halts => exact dropped _ _ rfl
  | completes => exact dropped _ _ rfl
  | refuses => exact dropped _ _ rfl
  | drops => exact dropped _ _ rfl

theorem drop_notes (x : Exchange) (k : Key) : ∀ e ∈ (x.drop k).2, e.isNote = true := by
  intro e he
  cases hk : x.walk? k with
  | none =>
    rw [drop, hk] at he
    cases he
  | some w =>
    rw [drop_eq hk] at he
    obtain ⟨t, -, rfl⟩ := List.mem_map.1 he
    rfl

theorem mem_finish {r r' : Except Error Tally} {k k' : Key}
    (h : .finish k r ∈ (x.finish k' r').2) : k = k' ∧ r = r' := by
  rcases List.mem_append.1 h with h | h
  · exact absurd (drop_notes x k' _ h) nofun
  · cases List.mem_singleton.1 h
    exact ⟨rfl, rfl⟩

/-- A walk that gives its result is no longer there. -/
theorem Step.finish_gone {r : Except Error Tally} (h : x.Step a y es) (hr : .finish k r ∈ es) :
    y.walk? k = none ∧ k ∈ x.walks.map (·.1) := by
  have known {k' : Key} {w : Walk} (hk : x.walk? k' = some w) : k' ∈ x.walks.map (·.1) :=
    List.mem_map_of_mem (mem_of_walk? hk)
  cases h with
  | starts => simp [start] at hr
  | @goes _ _ _ f' =>
    unfold Fetch.asks at hr
    split at hr
    · simp at hr
    · cases hr
  | delivers _ _ _ _ _ hes =>
    rcases List.mem_append.1 hr with hr | hr
    · cases hes _ hr
    · simp at hr
  | spawns _ _ _ hes => cases hes _ hr
  | fails hk =>
    obtain ⟨rfl, -⟩ := mem_finish hr
    exact ⟨walk?_drop _ _, known hk⟩
  | halts hk =>
    obtain ⟨rfl, -⟩ := mem_finish hr
    exact ⟨walk?_drop _ _, known hk⟩
  | completes hk =>
    obtain ⟨rfl, -⟩ := mem_finish hr
    exact ⟨walk?_drop _ _, known hk⟩
  | refuses hk =>
    obtain ⟨rfl, -⟩ := mem_finish hr
    exact ⟨walk?_drop _ _, known hk⟩
  | drops => cases drop_notes _ _ _ hr

end Courier.Exchange
