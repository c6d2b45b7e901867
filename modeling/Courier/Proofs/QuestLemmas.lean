import Courier.Proofs.ExchangeSound
import Mathlib.Data.List.TakeWhile

/-!
# A walk on its own

Who would deliver which block, and so which blocks can be reached from the root,
is fixed for a `Quest`. The actions that fit it advance fetches, pass on what the
providers answer and report that a block was written. Each of them moves the
walk in one of five ways (`Moves`).
-/

namespace Courier.Exchange

/-! ## What is asked for and written -/

def writes (es : List Effect) : List Block :=
  es.filterMap fun | .write _ b => some b | _ => none

def results (es : List Effect) : List (Except Error Tally) :=
  es.filterMap fun | .finish _ r => some r | _ => none

/-- Who was asked for a block, in order. -/
def asked (c : Cid) (es : List Effect) : List ProviderId :=
  es.filterMap fun | .ask _ p d => if d = c then some p else none | _ => none

variable {es es' : List Effect} {c d : Cid} {f f' : Fetch}

@[simp] theorem writes_append (es es' : List Effect) :
    writes (es ++ es') = writes es ++ writes es' := List.filterMap_append

@[simp] theorem results_append (es es' : List Effect) :
    results (es ++ es') = results es ++ results es' := List.filterMap_append

@[simp] theorem asked_append (c : Cid) (es es' : List Effect) :
    asked c (es ++ es') = asked c es ++ asked c es' := List.filterMap_append

@[simp] theorem writes_write (k : Key) (b : Block) : writes [.write k b] = [b] := rfl

@[simp] theorem results_write (k : Key) (b : Block) : results [.write k b] = [] := rfl

@[simp] theorem asked_write (c : Cid) (k : Key) (b : Block) : asked c [.write k b] = [] := rfl

@[simp] theorem writes_finish (k : Key) (r : Except Error Tally) : writes [.finish k r] = [] := rfl

@[simp] theorem results_finish (k : Key) (r : Except Error Tally) : results [.finish k r] = [r] :=
  rfl

@[simp] theorem asked_finish (c : Cid) (k : Key) (r : Except Error Tally) :
    asked c [.finish k r] = [] := rfl

theorem silent_of_notes (h : ∀ e ∈ es, e.isNote = true) :
    writes es = [] ∧ results es = [] ∧ ∀ c, asked c es = [] := by
  refine ⟨List.filterMap_eq_nil_iff.2 ?_, List.filterMap_eq_nil_iff.2 ?_,
    fun c => List.filterMap_eq_nil_iff.2 ?_⟩ <;>
  · intro e he
    have hn := h e he
    cases e with
    | wake | firstBlock => rfl
    | _ => cases hn

@[simp] theorem writes_asks (f : Fetch) : writes f.asks = [] := by
  unfold Fetch.asks
  split <;> rfl

@[simp] theorem results_asks (f : Fetch) : results f.asks = [] := by
  unfold Fetch.asks
  split <;> rfl

theorem asked_asks_of_ne (h : c ≠ f.cid) : asked c f.asks = [] := by
  unfold Fetch.asks asked
  split
  · simp [h.symm]
  · rfl

/-! ## What a walk is to find -/

/-- What a walk is to fetch, from whom, and what each of them answers. -/
structure Quest where
  root : Cid
  providers : List ProviderId
  host : ProviderId → Cid → Except Error Block

namespace Quest

/-- The block a provider delivers. -/
def block? (q : Quest) (p : ProviderId) (c : Cid) : Option Block :=
  match q.host p c with
  | .ok b => if b.cid = c then some b else none
  | .error _ => none

/-- The block that is delivered, and by whom: the first of the providers who can. -/
def delivery? (q : Quest) (c : Cid) : Option (Block × ProviderId) :=
  q.providers.findSome? fun p => (q.block? p c).map (·, p)

/-- Those in whose turn it is to be asked for a block: up to the first who delivers it. -/
def turns (q : Quest) (c : Cid) : List ProviderId :=
  (q.providers.takeWhile fun p => (q.block? p c).isNone) ++ ((q.delivery? c).map (·.2)).toList

/-- What can be reached from the root through the links of blocks that are delivered. -/
inductive Reaches (q : Quest) : Cid → Prop
  | root : Reaches q q.root
  | link {c d : Cid} {b : Block} {p : ProviderId} : Reaches q c → q.delivery? c = some (b, p) →
      d ∈ b.links → Reaches q d

variable {q : Quest} {b : Block} {p : ProviderId} {pre others : List ProviderId}

theorem cid_of_block? (h : q.block? p c = some b) : b.cid = c := by
  unfold block? at h
  split at h
  · split at h
    · next hb => cases h; exact hb
    · cases h
  · cases h

theorem block?_eq_none (h : ∀ b, q.host p c = .ok b → b.cid ≠ c) : q.block? p c = none := by
  unfold block?
  split
  · next b hb => exact if_neg (h b hb)
  · rfl

theorem cid_of_delivery? (h : q.delivery? c = some (b, p)) : b.cid = c := by
  obtain ⟨r, -, hr⟩ := List.exists_of_findSome?_eq_some h
  obtain ⟨b', hb, he⟩ := Option.map_eq_some_iff.1 hr
  cases he
  exact cid_of_block? hb

theorem findSome?_of_none {l : List ProviderId} (hn : ∀ r ∈ l, q.block? r c = none) :
    (l.findSome? fun p => (q.block? p c).map (·, p)) = none := by
  rw [List.findSome?_eq_none_iff]
  intro r hr
  rw [hn r hr]
  rfl

theorem delivery?_of_split (hp : q.providers = pre ++ p :: others)
    (hn : ∀ r ∈ pre, q.block? r c = none) (hb : q.block? p c = some b) :
    q.delivery? c = some (b, p) := by
  unfold delivery?
  rw [hp, List.findSome?_append, findSome?_of_none hn, List.findSome?_cons, hb]
  rfl

theorem delivery?_eq_none (hn : ∀ r ∈ q.providers, q.block? r c = none) :
    q.delivery? c = none := findSome?_of_none hn

theorem turns_of_split (hp : q.providers = pre ++ p :: others)
    (hn : ∀ r ∈ pre, q.block? r c = none) (hb : q.block? p c = some b) :
    q.turns c = pre ++ [p] := by
  unfold turns
  rw [delivery?_of_split hp hn hb, hp, List.takeWhile_append_of_pos (by simpa using hn)]
  simp [hb]

theorem prefix_turns (hp : q.providers = pre ++ p :: others)
    (hn : ∀ r ∈ pre, q.block? r c = none) : pre ++ [p] <+: q.turns c := by
  cases hb : q.block? p c with
  | some b =>
    exact ⟨[], by rw [List.append_nil, turns_of_split hp hn hb]⟩
  | none =>
    unfold turns
    rw [hp, List.takeWhile_append_of_pos (by simpa using hn)]
    simp [hb]

/-! ## How far a fetch has come -/

/-- Nobody was asked for the block before its fetch had its slots; from then on those before the one
who is asked now did not deliver it. -/
def Standing (q : Quest) (f : Fetch) (es : List Effect) : Prop :=
  match f.phase with
  | .asking p others => ∃ pre, q.providers = pre ++ p :: others ∧ asked f.cid es = pre ++ [p] ∧
      ∀ r ∈ pre, q.block? r f.cid = none
  | .spent => asked f.cid es = q.providers ∧ ∀ r ∈ q.providers, q.block? r f.cid = none
  | _ => asked f.cid es = []

theorem Standing.congr (h : q.Standing f es) (he : asked f.cid es' = asked f.cid es) :
    q.Standing f es' := by
  unfold Standing at *
  rw [he]
  exact h

theorem Standing.turned (pre : List ProviderId) {l : List ProviderId} (hp : q.providers = pre ++ l)
    (ha : asked f.cid es = pre) (hn : ∀ r ∈ pre, q.block? r f.cid = none) :
    q.Standing (f.turned l) (es ++ (f.turned l).asks) := by
  cases l with
  | nil =>
    rw [List.append_nil] at hp
    subst hp
    refine ⟨?_, hn⟩
    rw [asked_append]
    simp [asked, Fetch.turned, Fetch.asks] at ha ⊢
    exact ha
  | cons p others =>
    refine ⟨pre, hp, ?_, hn⟩
    rw [asked_append]
    simp [asked, Fetch.turned, Fetch.asks] at ha ⊢
    exact ha

theorem Standing.goes {own shared own' shared' : Slots} {a : Action} (h : q.Standing f es)
    (hg : f.Goes q.providers own shared a f' own' shared')
    (hn : ∀ p others, f.phase = .asking p others → q.block? p f.cid = none) :
    q.Standing f' (es ++ f'.asks) := by
  unfold Standing at h
  cases hg with
  | linesUp hp =>
    rw [hp] at h
    simpa [Standing, Fetch.asks] using h
  | enters hp hr =>
    rw [hp] at h
    simpa [Standing, Fetch.asks] using h
  | begins hp hr =>
    rw [hp] at h
    exact .turned [] rfl h nofun
  | @turns p others _ _ hp hne =>
    rw [hp] at h
    obtain ⟨pre, hs, ha, hpre⟩ := h
    refine .turned (pre ++ [p]) ?_ ha ?_
    · rw [hs, List.append_assoc]
      rfl
    · intro r hr
      rcases List.mem_append.1 hr with hr | hr
      · exact hpre r hr
      · rw [List.mem_singleton.1 hr]
        exact hn p others hp

theorem Standing.in_turn (h : q.Standing f es) : asked f.cid es <+: q.turns f.cid := by
  unfold Standing at h
  cases hp : f.phase with
  | asking p others =>
    rw [hp] at h
    obtain ⟨pre, hs, ha, hpre⟩ := h
    rw [ha]
    exact prefix_turns hs hpre
  | spent =>
    rw [hp] at h
    obtain ⟨ha, hn⟩ := h
    rw [ha, turns, List.takeWhile_eq_self_iff.2 (by simpa using hn)]
    exact ⟨_, rfl⟩
  | _ =>
    rw [hp] at h
    simp only at h
    rw [h]
    exact ⟨_, rfl⟩

/-! ## What a walk does next -/

/-- What can happen to a walk while its context is live and its blocks can be written: a fetch goes
on, a provider that was asked answers, or a block was written. -/
def Fits (q : Quest) (x : Exchange) : Action → Prop
  | .advance t => x.Heeds (.advance t)
  | .answer t ended a => ended = none ∧ ∃ k w f p others, x.walk? k = some w ∧ f ∈ w.fetches ∧
      f.ticket = t ∧ w.writing = none ∧ f.phase = .asking p others ∧ a = q.host p f.cid
  | .written k r => x.Heeds (.written k r) ∧ r = .ok ()
  | _ => False

/-- Actions that fit one after the other. -/
def Fitting (q : Quest) : Exchange → List Action → Prop
  | _, [] => True
  | x, a :: as => q.Fits x a ∧ q.Fitting (x.step a).1 as

/-- What comes of a walk, and the effects that has. -/
inductive Moves (q : Quest) (k : Key) (w : Walk) : List (Key × Walk) → List Effect → Prop
  | goes {f f' : Fetch} {own own' shared shared' : Slots} {a : Action} : f ∈ w.fetches →
      w.writing = none → f.Goes w.providers own shared a f' own' shared' →
      (∀ p others, f.phase = .asking p others → q.block? p f.cid = none) → f'.phase ≠ .spent →
      Moves q k w [(k, { w with own := own' }.setFetch f')] f'.asks
  | fails {f f' : Fetch} {own own' shared shared' : Slots} {a : Action} {e : Error}
      {es : List Effect} : f ∈ w.fetches → f.Goes w.providers own shared a f' own' shared' →
      (∀ p others, f.phase = .asking p others → q.block? p f.cid = none) → f'.phase = .spent →
      (∀ e ∈ es, e.isNote = true) → Moves q k w [] (es ++ [.finish k (.error e)])
  | delivers {f : Fetch} {p : ProviderId} {others : List ProviderId} {b : Block} {own : Slots}
      {es : List Effect} : f ∈ w.fetches → w.writing = none → f.phase = .asking p others →
      q.block? p f.cid = some b → (∀ e ∈ es, e.isNote = true) →
      Moves q k w [(k, ({ w with own }.dropFetch f.ticket).take b p)] (es ++ [.write k b])
  | spawns {links : List Cid} {t : Ticket} {es : List Effect} : w.writing = some links →
      (∀ e ∈ es, e.isNote = true) → Moves q k w [(k, { w with writing := none }.spawn t links)] es
  | completes {es : List Effect} : w.writing = some [] → w.fetches = [] →
      (∀ e ∈ es, e.isNote = true) → Moves q k w [] (es ++ [.finish k (.ok w.tally)])

variable {x : Exchange} {k k' : Key} {w w' : Walk} {a : Action}

theorem Fits.heeds (h : q.Fits x a) : x.Heeds a := by
  cases a with
  | advance t => exact h
  | answer t ended a =>
    obtain ⟨-, k, w, f, p, others, hk, hf, ht, hw, hp, -⟩ := h
    exact ⟨k, w, f, p, others, hk, hf, ht, hw, hp⟩
  | written k r => exact h.1
  | _ => exact h.elim

theorem alone (h : x.walks = [(k, w)]) (hk : x.walk? k' = some w') : k' = k ∧ w' = w := by
  have hm := mem_of_walk? hk
  rw [h, List.mem_singleton] at hm
  cases hm
  exact ⟨rfl, rfl⟩

theorem setWalk_alone (s : Slots) (h : x.walks = [(k, w)]) :
    (Exchange.setWalk { x with shared := s } k w').walks = [(k, w')] := by
  simp [setWalk, h]

theorem finish_alone (h : x.walks = [(k, w)]) (r : Except Error Tally) :
    (x.finish k r).1.walks = [] := by
  have hk : x.walk? k = some w := by simp [walk?, h]
  unfold finish
  simp [drop_eq hk, h]

/-- The answer that a fitting action gives to a fetch is that of the provider it asked. -/
theorem Fits.answer_eq {ended : Option Error} {r : Except Error Block} (hx : x.Tidy)
    (h : x.walks = [(k, w)]) (hf : f ∈ w.fetches) (hp : f.phase = .asking p others)
    (ha : q.Fits x (.answer f.ticket ended r)) : ended = none ∧ r = q.host p f.cid := by
  obtain ⟨he, k', w', g, p', others', hk, hg, ht, -, hp', hr⟩ := ha
  obtain ⟨rfl, rfl⟩ := alone h hk
  cases List.inj_on_of_nodup_map (hx.walk_tickets hk) hg hf ht
  rw [hp] at hp'
  cases hp'
  exact ⟨he, hr⟩

theorem Fits.moves (ha : q.Fits x a) (hx : x.Tidy) (h : x.walks = [(k, w)]) :
    q.Moves k w (x.step a).1.walks (x.step a).2 := by
  have hs := step_heeds hx ha.heeds
  have turned {f f' : Fetch} {own shared : Slots} (hf : f ∈ w.fetches)
      (hg : f.Goes w.providers w.own x.shared a f' own shared) :
      ∀ p others, f.phase = .asking p others → q.block? p f.cid = none := by
    intro p others hp
    cases hg with
    | turns hp' hne =>
      obtain ⟨-, hr⟩ := ha.answer_eq hx h hf hp
      rw [hr] at hne
      exact block?_eq_none hne
    | linesUp hp' => rw [hp] at hp'; cases hp'
    | enters hp' => rw [hp] at hp'; cases hp'
    | begins hp' => rw [hp] at hp'; cases hp'
  generalize (x.step a).1 = y, (x.step a).2 = es at hs
  cases hs with
  | starts => exact ha.elim
  | drops => exact ha.elim
  | halts hk hf hw hp => exact absurd ha.1 nofun
  | refuses => exact absurd ha.2 nofun
  | goes hk hf hw hg hs =>
    obtain ⟨rfl, rfl⟩ := alone h hk
    rw [setWalk_alone _ h]
    exact .goes hf hw hg (turned hf hg) hs
  | fails hk hf hw hg hs =>
    obtain ⟨rfl, rfl⟩ := alone h hk
    rw [finish_alone (setWalk_alone _ h)]
    exact .fails hf hg (turned hf hg) hs (drop_notes _ _)
  | @delivers _ _ f p others ended b es hk hf hw hp hb hes =>
    obtain ⟨rfl, rfl⟩ := alone h hk
    obtain ⟨-, hr⟩ := ha.answer_eq hx h hf hp
    rw [setWalk_alone _ h]
    refine .delivers hf hw hp ?_ hes
    simp [block?, ← hr, hb]
  | spawns hk hw hne hes =>
    obtain ⟨rfl, rfl⟩ := alone h hk
    rw [show (x.setWalk _ _).walks = _ from setWalk_alone x.shared h]
    exact .spawns hw hes
  | completes hk hw hf =>
    obtain ⟨rfl, rfl⟩ := alone h hk
    rw [finish_alone h]
    exact .completes hw hf (drop_notes _ _)

end Quest

end Courier.Exchange
