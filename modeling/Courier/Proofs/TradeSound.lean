import Mathlib.Data.List.Induction
import Courier.Exchange.Trade
import Courier.Proofs.ExchangeSound
import Courier.Proofs.FamilySound

/-!
# A retrieval over an exchange tells what its walk does

An action does one of a few things to a walk (`Fares`): the walk goes on, its
root arrives, or it ends. A retrieval has told of its providers, of the first
block if its walk has the root, and of the failures of all if it has failed
(`Trade.Keeps`).
-/

namespace Courier.Exchange

open Trade

variable {x : Exchange} {k k' : Key} {w w' : Walk} {a : Action} {n : Nat} {f : Fetch}
  {p : ProviderId} {others : List ProviderId} {e : Error}

/-! ## What is told of one walk -/

@[simp] theorem firsts_append (k : Key) (es es' : List Effect) :
    firsts k (es ++ es') = firsts k es ++ firsts k es' := List.filterMap_append

@[simp] theorem ending?_append (k : Key) (es es' : List Effect) :
    ending? k (es ++ es') = (ending? k es).or (ending? k es') := List.findSome?_append

@[simp] theorem firsts_wake (k : Key) (ts : List Ticket) : firsts k (ts.map .wake) = [] := by
  simp [firsts, List.filterMap_map]

@[simp] theorem ending?_wake (k : Key) (ts : List Ticket) : ending? k (ts.map .wake) = none := by
  simp [ending?, List.findSome?_eq_none_iff]

@[simp] theorem firsts_finish (k k' : Key) (r : Except Error Tally) :
    firsts k [.finish k' r] = [] := rfl

@[simp] theorem firsts_firstBlock (k k' : Key) (p : ProviderId) :
    firsts k [.firstBlock k' p] = if k' = k then [p] else [] := by
  by_cases h : k' = k <;> simp [firsts, h]

@[simp] theorem firsts_write (k k' : Key) (b : Block) : firsts k [.write k' b] = [] := rfl

@[simp] theorem ending?_firstBlock (k k' : Key) (p : ProviderId) :
    ending? k [.firstBlock k' p] = none := rfl

@[simp] theorem ending?_write (k k' : Key) (b : Block) : ending? k [.write k' b] = none := rfl

@[simp] theorem ending?_finish (k k' : Key) (r : Except Error Tally) :
    ending? k [.finish k' r] = if k' = k then some r else none := by
  simp [ending?]

theorem silent_of_wakes {es : List Effect} (h : ∀ e ∈ es, ∃ t, e = .wake t) (k : Key) :
    firsts k es = [] ∧ ending? k es = none := by
  constructor
  · refine List.filterMap_eq_nil_iff.2 fun e he => ?_
    obtain ⟨t, rfl⟩ := h e he
    rfl
  · refine List.findSome?_eq_none_iff.2 fun e he => ?_
    obtain ⟨t, rfl⟩ := h e he
    rfl

theorem firsts_drop (x : Exchange) (k k' : Key) : firsts k (x.drop k').2 = [] := by
  unfold drop
  split
  · rfl
  · exact firsts_wake k _

theorem ending?_drop (x : Exchange) (k k' : Key) : ending? k (x.drop k').2 = none := by
  unfold drop
  split
  · rfl
  · exact ending?_wake k _

theorem walk?_setWalk_ne (x : Exchange) (w : Walk) (h : k' ≠ k) :
    (x.setWalk k w).walk? k' = x.walk? k' := by
  have hl (l : List (Key × Walk)) :
      (l.map fun e => if e.1 = k then (k, w) else e).lookup k' = l.lookup k' := by
    induction l with
    | nil => rfl
    | cons e l ih =>
      obtain ⟨i, v⟩ := e
      by_cases hi : i = k
      · subst hi
        have hne : (k' == i) = false := by simpa using h
        simp [List.lookup_cons, hne, ih]
      · simp [List.lookup_cons, hi, ih]
  exact hl x.walks

theorem walk?_drop_ne (x : Exchange) (h : k' ≠ k) : (x.drop k).1.walk? k' = x.walk? k' := by
  have hl (l : List (Key × Walk)) : (l.filter (·.1 ≠ k)).lookup k' = l.lookup k' := by
    induction l with
    | nil => rfl
    | cons e l ih =>
      obtain ⟨i, v⟩ := e
      by_cases hi : i = k
      · subst hi
        have hne : (k' == i) = false := by simpa using h
        rw [List.filter_cons_of_neg (by simp), ih, List.lookup_cons, hne]
      · rw [List.filter_cons_of_pos (by simpa using hi), List.lookup_cons, List.lookup_cons, ih]
  unfold drop
  split
  · rfl
  · exact hl x.walks

/-! ## What an action does to one walk -/

/-- What becomes of a walk, who delivered its root just now, and how it ends. -/
inductive Fares (k : Key) (w : Walk) :
    Action → Option Walk → List ProviderId → Option (Except Error Tally) → Prop
  | goes {a : Action} {w' : Walk} : w'.providers = w.providers →
      w'.tally.provider = w.tally.provider → Fares k w a (some w') [] none
  | begins {ended : Option Error} {b : Block} {f : Fetch} {p : ProviderId}
      {others : List ProviderId} {w' : Walk} : f ∈ w.fetches → f.phase = .asking p others →
      b.cid = f.cid → w.tally.provider = none → w'.providers = w.providers →
      w'.tally.provider = some p → Fares k w (.answer f.ticket ended (.ok b)) (some w') [p] none
  | completes {t : Tally} : Fares k w (.written k (.ok ())) none [] (some (.ok t))
  | fails {a : Action} {e : Error} : e.isContext = false → Fares k w a none [] (some (.error e))
  | halts {f : Fetch} {e e' : Error} : f ∈ w.fetches →
      Fares k w (.answer f.ticket (some e) (.error e')) none [] (some (.error e))
  | refuses {e : Error} : Fares k w (.written k (.error e)) none [] (some (.error e))

theorem fares_finish (x : Exchange) (hk : k' ≠ k → x.walk? k = some w) (r : Except Error Tally)
    (h : k' = k → Fares k w a none [] (some r)) :
    Fares k w a ((x.finish k' r).1.walk? k) (firsts k (x.finish k' r).2)
      (ending? k (x.finish k' r).2) := by
  simp only [finish, firsts_append, firsts_drop, firsts_finish, ending?_append, ending?_drop,
    ending?_finish, List.append_nil, Option.none_or]
  by_cases hkk : k' = k
  · subst hkk
    rw [if_pos rfl, walk?_drop]
    exact h rfl
  · rw [if_neg hkk, walk?_drop_ne _ (Ne.symm hkk), hk hkk]
    exact .goes rfl rfl

theorem fares_setWalk (hk : x.walk? k = some w) (hk' : x.walk? k' = some w')
    (hx : (x.walks.map (·.1)).Nodup) {v : Walk} (hp : v.providers = w'.providers)
    (ht : v.tally.provider = w'.tally.provider) :
    Fares k w a ((x.setWalk k' v).walk? k) [] none := by
  by_cases hkk : k' = k
  · subst hkk
    obtain rfl := Option.some.inj (hk.symm.trans hk')
    rw [walk?_setWalk v hx hk]
    exact .goes hp ht
  · rw [walk?_setWalk_ne _ _ (Ne.symm hkk), hk]
    exact .goes rfl rfl

theorem fares_settle (hk : x.walk? k = some w) (hk' : x.walk? k' = some w')
    (hx : (x.walks.map (·.1)).Nodup) (own : Slots) (f : Fetch) (turn : Turn)
    (hfails : ∀ e, turn = .fails e → k' = k → Fares k w a none [] (some (.error e)))
    (hbegins : ∀ b p, turn = .delivers b p → k' = k → w.tally.provider = none →
      ∀ v : Walk, v.providers = w.providers → v.tally.provider = some p →
        Fares k w a (some v) [p] none) :
    Fares k w a ((x.settle k' { w' with own } f turn).1.walk? k)
      (firsts k (x.settle k' { w' with own } f turn).2)
      (ending? k (x.settle k' { w' with own } f turn).2) := by
  cases turn with
  | waits => exact fares_setWalk hk hk' hx rfl rfl
  | asks p => exact fares_setWalk hk hk' hx rfl rfl
  | fails e =>
    refine fares_finish _ (fun hkk => ?_) _ (hfails e rfl)
    rw [walk?_setWalk_ne _ _ (Ne.symm hkk), hk]
  | delivers b p =>
    simp only [settle, firsts_append, firsts_wake, ending?_append, ending?_wake, List.nil_append,
      Option.none_or]
    cases hw : w'.tally.provider with
    | some p' =>
      exact fares_setWalk (x := { x with shared := x.shared.release.1 }) hk hk' hx rfl
        (by simp [Walk.take, Walk.dropFetch, hw])
    | none =>
      simp only [Option.isNone_none, if_true, firsts_firstBlock, firsts_write, ending?_firstBlock,
        ending?_write, List.append_nil, Option.none_or]
      by_cases hkk : k' = k
      · subst hkk
        obtain rfl := Option.some.inj (hk.symm.trans hk')
        rw [if_pos rfl, walk?_setWalk (x := { x with shared := x.shared.release.1 }) _ hx hk]
        exact hbegins b p rfl rfl hw _ rfl (by simp [Walk.take, Walk.dropFetch, hw])
      · rw [if_neg hkk, walk?_setWalk_ne _ _ (Ne.symm hkk)]
        exact hk ▸ .goes rfl rfl

theorem Fetch.advance_fails {f : Fetch} {providers : List ProviderId} {own shared : Slots}
    (h : (f.advance providers own shared).2.2.2 = .fails e) : e.isContext = false := by
  unfold Fetch.advance at h
  split at h
  · cases h
  · split at h <;> cases h
  · split at h
    · cases h
    · cases providers with
      | nil => cases h; rfl
      | cons => cases h
  · cases h
  · cases h

theorem Fetch.advance_delivers {f : Fetch} {providers : List ProviderId} {own shared : Slots}
    {b : Block} (h : (f.advance providers own shared).2.2.2 = .delivers b p) : False := by
  unfold Fetch.advance at h
  split at h
  · cases h
  · split at h <;> cases h
  · split at h
    · cases h
    · cases providers <;> cases h
  · cases h
  · cases h

theorem Fetch.answer_fails {f : Fetch} {limit : Duration} {ended : Option Error}
    {r : Except Error Block} (h : (f.answer limit ended r).2 = .fails e) :
    e.isContext = false ∨ ended = some e ∧ ∃ e', r = .error e' := by
  have turned {l : List ProviderId} {last : Error} (hlast : last.isContext = false)
      (h : (f.turnTo last l).2 = .fails e) : e.isContext = false := by
    cases l with
    | nil => cases h; exact hlast
    | cons => cases h
  unfold Fetch.answer at h
  split at h
  · split at h
    · split at h
      · cases h
      · exact .inl (turned rfl h)
    · split at h
      · cases h
        exact .inr ⟨rfl, _, rfl⟩
      · exact .inl (turned (blame_isContext _ _) h)
  · cases h

theorem Fetch.answer_delivers {f : Fetch} {limit : Duration} {ended : Option Error}
    {r : Except Error Block} {b : Block} (h : (f.answer limit ended r).2 = .delivers b p) :
    ∃ others, f.phase = .asking p others ∧ r = .ok b ∧ b.cid = f.cid := by
  have turned {l : List ProviderId} {last : Error} (h : (f.turnTo last l).2 = .delivers b p) :
      False := by
    cases l <;> cases h
  unfold Fetch.answer at h
  split at h
  · next q others hp =>
    split at h
    · next b' =>
      split at h
      · next hb =>
        cases h
        exact ⟨others, hp, rfl, hb⟩
      · exact (turned h).elim
    · split at h
      · cases h
      · exact (turned h).elim
  · cases h

theorem fares_idle (hk : x.walk? k = some w) : Fares k w a (x.walk? k) [] none :=
  hk ▸ .goes rfl rfl

theorem fares_start (hk : x.walk? k = some w) (root : Cid) (providers : List ProviderId) :
    Fares k w (.start root providers) ((x.step (.start root providers)).1.walk? k)
      (firsts k (x.step (.start root providers)).2)
      (ending? k (x.step (.start root providers)).2) := by
  rw [step]
  split
  · have hw : (x.start root providers).2.1.walk? k = some w := by
      have hk : x.walks.lookup k = some w := hk
      simp [start, walk?, List.lookup_append, hk]
    rw [hw]
    exact .goes rfl rfl
  · exact fares_idle hk

theorem fares_advance (hx : (x.walks.map (·.1)).Nodup) (hk : x.walk? k = some w) (t : Ticket) :
    Fares k w (.advance t) ((x.step (.advance t)).1.walk? k) (firsts k (x.step (.advance t)).2)
      (ending? k (x.step (.advance t)).2) := by
  simp only [step, advance]
  split
  · exact fares_idle hk
  · next k' w' ho =>
    split
    · next f hw hf =>
      refine fares_settle (x := { x with shared := (f.advance w'.providers w'.own x.shared).2.2.1 })
        hk (walk?_of_owner? hx ho) hx _ _ _ (fun e he _ => ?_) fun b p hb _ => ?_
      · exact .fails (Fetch.advance_fails he)
      · exact (Fetch.advance_delivers hb).elim
    · exact fares_idle hk

theorem fares_answer (hx : (x.walks.map (·.1)).Nodup) (hk : x.walk? k = some w) (t : Ticket)
    (ended : Option Error) (r : Except Error Block) :
    Fares k w (.answer t ended r) ((x.step (.answer t ended r)).1.walk? k)
      (firsts k (x.step (.answer t ended r)).2) (ending? k (x.step (.answer t ended r)).2) := by
  simp only [step, answer]
  split
  · exact fares_idle hk
  · next k' w' ho =>
    have hk' := walk?_of_owner? hx ho
    split
    · next f hw hf =>
      obtain ⟨hmem, rfl⟩ := Walk.mem_of_fetch? hf
      have own (hkk : k' = k) : f ∈ w.fetches := by
        subst hkk
        obtain rfl := Option.some.inj (hk.symm.trans hk')
        exact hmem
      refine fares_settle hk hk' hx w'.own _ _ (fun e he hkk => ?_) fun b p hb hkk hnone v hv hv' => ?_
      · rcases Fetch.answer_fails he with he | ⟨rfl, e', rfl⟩
        · exact .fails he
        · exact .halts (own hkk)
      · obtain ⟨others, hp, rfl, hcid⟩ := Fetch.answer_delivers hb
        exact .begins (own hkk) hp hcid hnone hv hv'
    · exact fares_idle hk

theorem fares_written (hx : (x.walks.map (·.1)).Nodup) (hk : x.walk? k = some w) (k' : Key)
    (r : Except Error Unit) :
    Fares k w (.written k' r) ((x.step (.written k' r)).1.walk? k)
      (firsts k (x.step (.written k' r)).2) (ending? k (x.step (.written k' r)).2) := by
  simp only [step, written]
  split
  · exact fares_idle hk
  · next w' hk' =>
    split
    · exact fares_idle hk
    · next links hl =>
      cases r with
      | error e =>
        refine fares_finish x (fun _ => hk) _ fun hkk => ?_
        subst hkk
        exact .refuses
      | ok u =>
        have hset : Fares k w (.written k' (.ok ()))
            ((x.setWalk k' ({ w' with writing := none }.spawn x.fresh links)).walk? k) [] none :=
          fares_setWalk hk hk' hx rfl rfl
        have hwakes : ∀ e ∈ links.mapIdx fun i _ => Effect.wake (x.fresh + i),
            ∃ t, e = .wake t := fun e he => by
          obtain ⟨i, hi, rfl⟩ := List.mem_mapIdx.1 he
          exact ⟨_, rfl⟩
        obtain ⟨hfirsts, hending⟩ := silent_of_wakes hwakes k
        simp only
        split
        · rw [firsts_append, ending?_append, hfirsts, hending, List.nil_append, Option.none_or]
          refine fares_finish _ (fun hkk => ?_) _ fun hkk => ?_
          · exact (walk?_setWalk_ne x _ (Ne.symm hkk)).trans hk
          · subst hkk
            exact .completes
        · rw [hfirsts, hending]
          exact hset

theorem step_fares (hx : (x.walks.map (·.1)).Nodup) (hk : x.walk? k = some w) (ha : a ≠ .drop k) :
    Fares k w a ((x.step a).1.walk? k) (firsts k (x.step a).2) (ending? k (x.step a).2) := by
  cases a with
  | start root providers => exact fares_start hk root providers
  | advance t => exact fares_advance hx hk t
  | answer t ended r => exact fares_answer hx hk t ended r
  | written k' r => exact fares_written hx hk k' r
  | drop k' =>
    have hkk : k ≠ k' := by
      rintro rfl
      exact ha rfl
    rw [step, firsts_drop, ending?_drop, walk?_drop_ne x hkk]
    exact fares_idle hk

/-! ## Who is asked -/

/-- Fetches ask, and have left to ask, providers of their walks. -/
def InTurn (x : Exchange) : Prop :=
  ∀ e ∈ x.walks, ∀ f ∈ e.2.fetches, ∀ p others, f.phase = .asking p others →
    p ∈ e.2.providers ∧ others ⊆ e.2.providers

theorem turned_inTurn {f : Fetch} {l providers : List ProviderId} (hl : l ⊆ providers)
    (hp : (f.turned l).phase = .asking p others) : p ∈ providers ∧ others ⊆ providers := by
  cases l with
  | nil => cases hp
  | cons q r =>
    cases hp
    exact ⟨hl List.mem_cons_self, fun _ hr => hl (List.mem_cons_of_mem _ hr)⟩

theorem InTurn.setWalk (h : x.InTurn) (hx : (x.walks.map (·.1)).Nodup) (hk : x.walk? k = some w)
    (s : Slots) (hw : ∀ f ∈ w'.fetches, ∀ p others, f.phase = .asking p others →
      p ∈ w'.providers ∧ others ⊆ w'.providers) :
    InTurn (Exchange.setWalk { x with shared := s } k w') := by
  intro e he
  rcases mem_setWalk (x := { x with shared := s }) hx hk he with rfl | he
  · exact hw
  · exact h e he

theorem InTurn.sublist {y : Exchange} (h : x.InTurn) (hy : y.walks.Sublist x.walks) : y.InTurn :=
  fun e he => h e (hy.subset he)

theorem InTurn.step_of {y : Exchange} {es : List Effect} (h : x.InTurn) (hx : x.Tidy)
    (hs : x.Step a y es) : y.InTurn := by
  cases hs with
  | starts =>
    intro e he f hf p others hp
    rcases List.mem_append.1 he with he | he
    · exact h e he f hf p others hp
    · obtain rfl := List.mem_singleton.1 he
      have hfresh : f.phase = .fresh := (mem_spawned hf).1
      rw [hfresh] at hp
      cases hp
  | @goes k w f f' own shared _ hk hf hw hg hp =>
    refine h.setWalk hx.keys hk shared fun f₁ hf₁ p others hp₁ => ?_
    have ht := hx.walk_tickets hk
    have hset := Walk.setFetch_perm (w := { w with own }) ht hf hg.ticket
    rcases List.mem_cons.1 (hset.subset hf₁) with rfl | hf₁
    · cases hg with
      | linesUp => cases hp₁
      | enters => cases hp₁
      | begins => exact turned_inTurn (List.Subset.refl _) hp₁
      | turns hp' => exact turned_inTurn (h _ (mem_of_walk? hk) f hf _ _ hp').2 hp₁
    · exact h _ (mem_of_walk? hk) f₁ (List.filter_sublist.subset hf₁) p others hp₁
  | @fails k w f f' own shared _ _ hk =>
    refine h.sublist ?_
    have hk' := walk?_setWalk (x := { x with shared }) ({ w with own }.setFetch f') hx.keys hk
    simp only [finish]
    rw [drop_eq hk', filter_setWalk]
    exact List.filter_sublist
  | halts => exact h.sublist (drop_sublist _ _)
  | @delivers k w f p others _ b _ hk hf =>
    refine h.setWalk hx.keys hk _ fun f₁ hf₁ => ?_
    exact h _ (mem_of_walk? hk) f₁ (List.filter_sublist.subset hf₁)
  | @spawns k w links _ hk =>
    refine h.setWalk hx.keys hk x.shared fun f₁ hf₁ p others hp₁ => ?_
    rcases List.mem_append.1 hf₁ with hf₁ | hf₁
    · exact h _ (mem_of_walk? hk) f₁ hf₁ p others hp₁
    · have hfresh : f₁.phase = .fresh := (mem_spawned hf₁).1
      rw [hfresh] at hp₁
      cases hp₁
  | completes => exact h.sublist (drop_sublist _ _)
  | refuses => exact h.sublist (drop_sublist _ _)
  | drops => exact h.sublist (drop_sublist _ _)

theorem InTurn.step (h : x.InTurn) (hx : x.Tidy) (a : Action) : (x.step a).1.InTurn := by
  by_cases ha : x.Heeds a
  · exact h.step_of hx (step_heeds hx ha)
  · rw [step_of_not_heeds hx ha]
    exact h

end Courier.Exchange

namespace Courier.Trade

open Exchange

variable {t : Trade} {s : State} {m : Moment} {x : Exchange} {k : Key} {d : Deed} {a : Action}
  {n : Nat}

/-! ## Deeds -/

theorem amend_ne_drop (h : t.amend x m k d = some a) : a ≠ .drop k := by
  rintro rfl
  cases d with
  | written r => cases h
  | exchange b =>
    cases b with
    | drop k' =>
      simp only [amend, Option.ite_none_left_eq_some, Option.some.injEq, Action.drop.injEq] at h
      exact h.1 h.2
    | written k' r => simp [amend] at h
    | answer ticket ended r =>
      simp only [amend] at h
      split at h <;> cases h
    | _ => cases h

/-- Nothing but its own sink writes for a walk. -/
theorem amend_written {r : Except Error Unit} (h : t.amend x m k d = some (.written k r)) :
    d = .written r := by
  cases d with
  | written r' => cases h; rfl
  | exchange b =>
    cases b with
    | drop k' => simp [amend] at h
    | written k' r' =>
      simp only [amend, Option.ite_none_left_eq_some, Option.some.injEq,
        Action.written.injEq] at h
      exact absurd h.2.1 h.1
    | answer ticket ended r' =>
      simp only [amend] at h
      split at h <;> cases h
    | _ => cases h

/-- The answers of a walk are taken under the context it was called with. -/
theorem amend_answer {ticket : Ticket} {ended : Option Error} {r : Except Error Block}
    (h : t.amend x m k d = some (.answer ticket ended r)) :
    (∃ ended', d = .exchange (.answer ticket ended' r)) ∧
      ∀ w, x.owner? ticket = some (k, w) → ended = t.context.error? m := by
  cases d with
  | written r' => cases h
  | exchange b =>
    cases b with
    | drop k' => simp [amend] at h
    | written k' r' => simp [amend] at h
    | answer ticket' ended' r' =>
      simp only [amend] at h
      split at h
      · cases h
        exact ⟨⟨ended', rfl⟩, fun _ _ => rfl⟩
      · next hno =>
        cases h
        refine ⟨⟨ended, rfl⟩, fun w hw => ?_⟩
        simp [hw] at hno
    | _ => cases h

/-! ## What is told of a retrieval -/

def providers (t : Trade) : List ProviderId := t.candidates.map (·.provider)

/-- What is told of the root, by who delivered it. -/
inductive First : Option ProviderId → List Happening → Prop
  | none : First .none []
  | some (p : ProviderId) (d : Duration) : First (.some p) [.firstByte p .bitswap d]

/-- What a retrieval has told, in its order. -/
inductive Keeps (t : Trade) (s : State) : Prop
  | called : s.stage = .called → s.told = [] → Keeps t s
  | walking {k : Key} {began : Instant} {w : Walk} {l : List Happening} :
      s.stage = .walking k began → s.exchange.walk? k = some w → w.providers = t.providers →
      First w.tally.provider l → s.told = starts t.candidates ++ l → Keeps t s
  | succeeded {st : Stats} {p : Option ProviderId} {l : List Happening} :
      s.stage = .over (.ok st) → First p l → s.told = starts t.candidates ++ l → Keeps t s
  | failed {e : Error} {p : Option ProviderId} {l : List Happening} :
      s.stage = .over (.error e) → First p l →
      s.told = starts t.candidates ++ l ++ failures t.candidates e → Keeps t s
  | crashed : s.stage = .crashed → s.told = starts t.candidates → Keeps t s

/-- The first block of a retrieval comes from a provider that is asked for it. -/
def Delivered (t : Trade) (s : State) (g : Glance Deed) (p : ProviderId) : Prop :=
  p ∈ t.providers ∧ s.told = starts t.candidates ∧
    ∃ k began w f others ended b, s.stage = .walking k began ∧ s.exchange.walk? k = some w ∧
      f ∈ w.fetches ∧ f.phase = .asking p others ∧
      g.came = some (.exchange (.answer f.ticket ended (.ok b))) ∧ b.cid = f.cid

/-- What a glance at a retrieval comes to. -/
structure Turns (t : Trade) (s : State) (g : Glance Deed) (s' : State) (l : List Happening) :
    Prop where
  keeps : Keeps t s'
  told : s'.told = s.told ++ l
  first : ∀ p pr d, .firstByte p pr d ∈ l → pr = .bitswap ∧ l = [.firstByte p pr d] ∧
    Delivered t s g p
  error : ∀ e, s'.stage = .over (.error e) → s.stage = .over (.error e) ∨ e.isContext = false ∨
    g.came = some (.written (.error e)) ∨ t.context.error? s'.moment = some e

theorem not_first_starts (l : List Candidate) (p : ProviderId) (pr : Protocol) (d : Duration) :
    .firstByte p pr d ∉ starts l := by
  simp [starts]

theorem not_first_failures (l : List Candidate) (e : Error) (p : ProviderId) (pr : Protocol)
    (d : Duration) : .firstByte p pr d ∉ failures l e := by
  simp [failures]

variable {g : Glance Deed} {w : Walk} {began : Instant} {l : List Happening}

theorem fail_turns {p : Option ProviderId} {e : Error} (hl : First p l)
    (htold : s.told = starts t.candidates ++ l) (m : Moment) (x : Exchange)
    (he : e.isContext = false ∨ g.came = some (.written (.error e)) ∨ t.context.error? m = some e) :
    Turns t s g (t.fail { s with moment := m, exchange := x } e) (failures t.candidates e) := by
  refine ⟨.failed rfl hl (by simp [fail, htold]), rfl, fun p pr d h => ?_, fun e' he' => ?_⟩
  · exact absurd h (not_first_failures _ _ _ _ _)
  · cases he'
    exact .inr he

theorem first_turns {x' : Exchange} {w' : Walk} (hs : s.stage = .walking k began)
    (hwalk : x'.walk? k = some w') (hw : w'.providers = t.providers)
    (hp : w'.tally.provider = some p) (h : Delivered t s g p) (m : Moment) (d : Duration) :
    Turns t s g
      { s with moment := m, exchange := x', told := s.told ++ [.firstByte p .bitswap d] }
      [.firstByte p .bitswap d] := by
  have hl : First w'.tally.provider [.firstByte p .bitswap d] := by
    rw [hp]
    exact .some p d
  refine ⟨.walking hs hwalk hw hl (by rw [h.2.1]), rfl, fun p' pr d' h' => ?_, fun e he => ?_⟩
  · obtain ⟨rfl, rfl, rfl⟩ : p' = p ∧ pr = .bitswap ∧ d' = d := by simpa using h'
    exact ⟨rfl, rfl, h⟩
  · rw [hs] at he
    cases he

theorem heed_turns (hx : s.exchange.Tidy) (hturn : s.exchange.InTurn)
    (hs : s.stage = .walking k began) (hk : s.exchange.walk? k = some w)
    (hw : w.providers = t.providers) (hl : First w.tally.provider l)
    (htold : s.told = starts t.candidates ++ l) (m : Moment) (hd : g.came = some d)
    (ha : t.amend s.exchange m k d = some a) :
    ∃ l', Turns t s g (t.heed { s with moment := m } k began a) l' := by
  have hfares := step_fares hx.keys hk (amend_ne_drop ha)
  unfold heed
  simp only
  generalize s.exchange.step a = y at hfares ⊢
  obtain ⟨x', es⟩ := y
  simp only at hfares ⊢
  generalize hwalk : x'.walk? k = w' at hfares
  generalize firsts k es = fs at hfares ⊢
  generalize ending? k es = r at hfares ⊢
  cases hfares with
  | goes hp ht =>
    refine ⟨[], .walking hs hwalk (hp.trans hw) (ht ▸ hl) ?_, rfl, nofun, fun e he => ?_⟩
    · exact (List.append_nil _).trans htold
    · rw [hs] at he
      cases he
  | @begins ended b f p others w' hf hphase hb hnone hp ht =>
    -- nothing is there before the root, so nothing was told of it either
    obtain ⟨⟨ended', rfl⟩, -⟩ := amend_answer ha
    have hempty : l = [] := by
      rw [hnone] at hl
      cases hl
      rfl
    rw [hempty, List.append_nil] at htold
    have hasked : p ∈ t.providers := hw ▸ (hturn _ (mem_of_walk? hk) f hf _ _ hphase).1
    refine ⟨_, first_turns hs hwalk (hp.trans hw) ht ⟨hasked, htold, ?_⟩ m _⟩
    exact ⟨k, began, w, f, others, ended', b, hs, hk, hf, hphase, hd, hb⟩
  | completes =>
    refine ⟨[], .succeeded rfl hl ?_, rfl, nofun, nofun⟩
    exact (List.append_nil _).trans htold
  | @fails _ e he =>
    simp only [List.map_nil, List.append_nil]
    exact ⟨_, fail_turns hl htold m x' (.inl he)⟩
  | @halts f e e' hf =>
    have hended := (amend_answer ha).2 w (owner?_of_mem hx hk hf).1
    simp only [List.map_nil, List.append_nil]
    exact ⟨_, fail_turns hl htold m x' (.inr (.inr hended.symm))⟩
  | @refuses e =>
    rw [amend_written ha] at hd
    simp only [List.map_nil, List.append_nil]
    exact ⟨_, fail_turns hl htold m x' (.inr (.inl hd))⟩

theorem enter_turns (hx : s.exchange.Kept n) (htold : s.told = []) (m : Moment) :
    ∃ l, Turns t s g (t.enter { s with moment := m }) l := by
  cases he : t.context.error? m with
  | some e =>
    simp only [enter, he]
    refine ⟨starts t.candidates ++ failures t.candidates e,
      .failed rfl .none (by simp [fail, htold]), by simp [fail], fun p pr d h => ?_,
      fun e' he' => ?_⟩
    · rcases List.mem_append.1 h with h | h
      · exact absurd h (not_first_starts _ _ _ _)
      · exact absurd h (not_first_failures _ _ _ _ _)
    · cases he'
      exact .inr (.inr (.inr he))
  | none =>
    simp only [enter, he]
    refine ⟨starts t.candidates, ?_⟩
    have quiet : ∀ p pr d, Happening.firstByte p pr d ∈ starts t.candidates → pr = .bitswap ∧
        starts t.candidates = [.firstByte p pr d] ∧ Delivered t s g p :=
      fun p pr d h => absurd h (not_first_starts _ _ _ _)
    split
    · let w : Walk :=
        { root := t.root, providers := t.providers, own := { free := s.exchange.width },
          seen := [t.root] }
      have hnew : (s.exchange.start t.root t.providers).2.1.walk? s.exchange.fresh =
          some (w.spawn (s.exchange.fresh + 1) [t.root]) := by
        have hno : s.exchange.walks.lookup s.exchange.fresh = none := by
          refine List.lookup_eq_none_iff.2 fun e he => bne_iff_ne.2 fun hek => ?_
          exact Nat.lt_irrefl _ (hek ▸ hx.keyed e he)
        simp [start, walk?, List.lookup_append, hno, w]
      refine ⟨.walking rfl hnew rfl .none (by simp [htold]), rfl, quiet, fun e he' => ?_⟩
      cases he'
    · refine ⟨.crashed rfl (by simp [htold]), rfl, quiet, fun e he' => ?_⟩
      cases he'

theorem look_turns (hs : s.stage = .walking k began) (hk : s.exchange.walk? k = some w)
    (hw : w.providers = t.providers) (hl : First w.tally.provider l)
    (htold : s.told = starts t.candidates ++ l) (m : Moment) :
    ∃ l', Turns t s g (t.look { s with moment := m } k) l' := by
  cases he : t.context.error? m with
  | some e =>
    simp only [look, he]
    exact ⟨_, fail_turns hl htold m _ (.inr (.inr he))⟩
  | none =>
    simp only [look, he]
    refine ⟨[], .walking hs hk hw hl htold, (List.append_nil _).symm, nofun, fun e he => ?_⟩
    exact .inl he

theorem stand_eq (s : State) (d : Option Deed) : ∃ x, s.stand d = { s with exchange := x } ∧
    (x = s.exchange ∨ ∃ a, x = (s.exchange.step a).1) := by
  unfold State.stand
  split
  · exact ⟨_, rfl, .inr ⟨_, rfl⟩⟩
  · exact ⟨_, rfl, .inl rfl⟩

/-- A retrieval that has not begun or is over tells nothing. -/
theorem Keeps.stand (h : Keeps t s) (hs : ∀ k began, s.stage ≠ .walking k began) (m : Moment)
    (d : Option Deed) : Turns t s g (State.stand { s with moment := m } d) [] := by
  obtain ⟨x, hx, -⟩ := stand_eq { s with moment := m } d
  rw [hx]
  refine ⟨?_, (List.append_nil _).symm, nofun, fun e he => .inl he⟩
  cases h with
  | called hs' ht => exact .called hs' ht
  | walking hs' => exact absurd hs' (hs _ _)
  | succeeded hs' hl ht => exact .succeeded hs' hl ht
  | failed hs' hl ht => exact .failed hs' hl ht
  | crashed hs' ht => exact .crashed hs' ht

theorem Keeps.next (h : Keeps t s) (hx : s.exchange.Kept n) (hturn : s.exchange.InTurn)
    (g : Glance Deed) : ∃ l, Turns t s g (t.next s g) l := by
  obtain ⟨m, x, stage, told⟩ := s
  cases stage with
  | called =>
    cases hcame : g.came with
    | none =>
      have htold : told = [] := by
        cases h with
        | called _ ht => exact ht
        | walking hs | succeeded hs | failed hs | crashed hs => cases hs
      simp only [Trade.next, hcame]
      exact enter_turns hx htold (m.after g)
    | some d =>
      simp only [Trade.next, hcame]
      exact ⟨[], h.stand nofun _ _⟩
  | walking k began =>
    cases h with
    | @walking _ _ w l hs hk hw hl htold =>
      cases hs
      cases hcame : g.came with
      | none =>
        simp only [Trade.next, hcame]
        exact look_turns rfl hk hw hl htold (m.after g)
      | some d =>
        cases ha : t.amend x (m.after g) k d with
        | some a =>
          simp only [Trade.next, hcame, ha]
          exact heed_turns hx.toTidy hturn rfl hk hw hl htold _ hcame ha
        | none =>
          simp only [Trade.next, hcame, ha]
          exact ⟨[], .walking rfl hk hw hl htold, (List.append_nil _).symm, nofun, nofun⟩
    | called hs | succeeded hs | failed hs | crashed hs => cases hs
  | _ =>
    simp only [Trade.next]
    exact ⟨[], h.stand nofun _ _⟩

/-! ## Runs -/

theorem run_snoc (t : Trade) (m : Moment) (x : Exchange) (gs : List (Glance Deed))
    (g : Glance Deed) : t.run m x (gs ++ [g]) = t.next (t.run m x gs) g := by
  simp [run]

theorem heed_exchange (t : Trade) (s : State) (k : Key) (began : Instant) (a : Action) :
    (t.heed s k began a).exchange = (s.exchange.step a).1 ∧
      (t.heed s k began a).moment = s.moment := by
  unfold heed
  simp only
  split <;> exact ⟨rfl, rfl⟩

/-- The moment of a state comes after another by a glance, and its exchange by a step at most. -/
def Moves (s : State) (g : Glance Deed) (s' : State) : Prop :=
  s'.moment = s.moment.after g ∧
    (s'.exchange = s.exchange ∨ ∃ a, s'.exchange = (s.exchange.step a).1)

theorem enter_moves (t : Trade) (s : State) (g : Glance Deed) :
    Moves s g (t.enter { s with moment := s.moment.after g }) := by
  unfold enter
  simp only
  split
  · exact ⟨rfl, .inl rfl⟩
  · split
    · next hadm =>
      refine ⟨rfl, .inr ⟨.start t.root t.providers, ?_⟩⟩
      rw [step, if_pos hadm]
      rfl
    · exact ⟨rfl, .inl rfl⟩

theorem next_moves (t : Trade) (s : State) (g : Glance Deed) : Moves s g (t.next s g) := by
  have stand : Moves s g (State.stand { s with moment := s.moment.after g } g.came) := by
    obtain ⟨x, hx, hstep⟩ := stand_eq { s with moment := s.moment.after g } g.came
    rw [hx]
    exact ⟨rfl, hstep⟩
  unfold Trade.next
  simp only
  split
  · exact enter_moves t s g
  · unfold look
    split
    · exact ⟨rfl, .inl rfl⟩
    · exact ⟨rfl, .inr ⟨.drop _, rfl⟩⟩
  · split
    · next k began _ _ _ _ a _ =>
      obtain ⟨hx, hm⟩ := heed_exchange t { s with moment := s.moment.after g } k began a
      exact ⟨hm, .inr ⟨a, hx⟩⟩
    · exact ⟨rfl, .inl rfl⟩
  · exact stand

/-- What holds of a retrieval that is called on an exchange. -/
structure Sound (t : Trade) (n : Nat) (s : State) : Prop where
  exchange : s.exchange.Sound n
  inTurn : s.exchange.InTurn
  keeps : Keeps t s

theorem Sound.next (h : Sound t n s) (g : Glance Deed) :
    Sound t n (t.next s g) ∧ ∃ l, Turns t s g (t.next s g) l := by
  obtain ⟨l, hl⟩ := h.keeps.next h.exchange.toKept h.inTurn g
  refine ⟨?_, l, hl⟩
  rcases (next_moves t s g).2 with hx | ⟨a, hx⟩
  · exact ⟨hx ▸ h.exchange, hx ▸ h.inTurn, hl.keeps⟩
  · exact ⟨hx ▸ h.exchange.step a, hx ▸ h.inTurn.step h.exchange.toTidy a, hl.keeps⟩

theorem run_sound {c : Config} (hx : ofConfig? c = some x) (t : Trade) (m : Moment)
    (gs : List (Glance Deed)) : Sound t (max 1 c.concurrency.toNat) (t.run m x gs) := by
  induction gs using List.reverseRecOn with
  | nil =>
    have hturn : x.InTurn := by
      rw [ofConfig?_eq hx]
      nofun
    exact ⟨sound_ofConfig hx, hturn, .called rfl rfl⟩
  | append_singleton gs g ih =>
    rw [run_snoc]
    exact (ih.next g).1

/-- A retrieval ends with the error of a context only if its caller's is over, unless its sink gave
such an error. -/
theorem run_error {c : Config} (hx : ofConfig? c = some x) (t : Trade) (m : Moment)
    (gs : List (Glance Deed))
    (hsink : ∀ g ∈ gs, ∀ e, g.came = some (.written (.error e)) → e.isContext = false) {e : Error}
    (he : (t.run m x gs).stage = .over (.error e)) (hctx : e.isContext = true) :
    (t.context.error? (t.run m x gs).moment).isSome := by
  induction gs using List.reverseRecOn with
  | nil => cases he
  | append_singleton gs g ih =>
    rw [run_snoc] at he ⊢
    obtain ⟨-, l, hl⟩ := (run_sound hx t m gs).next g
    -- it was over before, or what this glance brings gives the error
    rcases hl.error e he with hs | hno | hcame | hover
    · have h := ih (fun g hg => hsink g (List.mem_append_left _ hg)) hs
      rw [(next_moves t (t.run m x gs) g).1]
      exact Context.over_after g h
    · rw [hno] at hctx
      cases hctx
    · rw [hsink g (by simp) e hcame] at hctx
      cases hctx
    · rw [hover]
      rfl

end Courier.Trade
