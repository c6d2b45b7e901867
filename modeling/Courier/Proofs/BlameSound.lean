import Courier.Attempt.Vigil
import Courier.Proofs.StageSound
import Courier.Proofs.TradeSound
/-!
# Whose context is over

The contexts and alarms that a retrieval sets up for its providers end with the
same errors as the context of its caller. So what an attempt fails with is told
of only as long as that context is live, and by then it is no error of a
context: a transfer reports another in its place, and a download fails with
such an error by its caller's context alone (`Keeps`). A retrieval over an
exchange gives every fetch the context of its caller.
-/

/-! ## What an attempt fails with -/

namespace Courier.Download

theorem place_fails {body : Body} {b : Block} {e : Error}
    (h : place body b = .fails e) : e.isContext = false := by
  unfold place at h
  split at h
  · cases h
    rfl
  · cases h

theorem pull_fails {root : Cid} {now : Instant} {body : Body} {e : Error}
    (h : (pull root now body).outcome = .fails e) : e.isContext = false := by
  unfold pull at h
  split at h
  · cases h
    rfl
  · cases h
  · split at h
    · exact place_fails h
    · split at h
      · cases h
        rfl
      · exact place_fails h

theorem close_fails {body : Body} {e : Error} (h : close body = .fails e) :
    e.isContext = false := by
  unfold close at h
  split at h
  · cases h
    rfl
  · split at h
    · cases h
      rfl
    · cases h

/-- A download comes to no error of a context by itself. -/
theorem step_fails {root : Cid} {now : Instant} {phase : Phase} {i : Input} {e : Error}
    (h : (step root now phase i).outcome = .fails e) :
    i = .failure e ∨ e.isContext = false := by
  unfold step at h
  split at h
  · cases h
    exact .inl rfl
  · cases h
  · cases h
  · cases h
    exact .inr rfl
  · exact .inr (pull_fails h)
  · exact .inr (close_fails h)
  · cases h
    exact .inr rfl
  · exact .inr (pull_fails h)
  · cases h

end Courier.Download

namespace Courier.Vigil

open Fallback

theorem isContext_of_report {k : Traffic.Kind} {e : Error}
    (h : (k.transport.report e).isContext = true) : k = .download ∧ e.isContext = true := by
  cases k with
  | transfer =>
    simp only [Traffic.Kind.transport, Transfer.transport, Transfer.report] at h
    split at h
    · cases h
    · next hno => exact absurd h hno
  | download => exact ⟨rfl, h⟩

theorem start_fails {k : Traffic.Kind} {c : Candidate} {e : Error}
    (h : k.transport.start c = .error e) : e.isContext = false := by
  cases k with
  | transfer => cases h
  | download =>
    simp only [Traffic.Kind.transport, Download.transport, Download.start] at h
    split at h
    · cases h
    · cases h
      rfl

variable {v : Vigil} {m : Moment} {e : Error}

/-- A download fails with an error of a context only if its caller's is over. A transfer may, since
it reports another. -/
def Excused (v : Vigil) (m : Moment) (e : Error) : Prop :=
  v.kind = .download → e.isContext = true → (v.caller.error? m).isSome

theorem excused_of_not_context (h : e.isContext = false) : v.Excused m e := by
  intro _ hctx
  rw [h] at hctx
  cases hctx

theorem Excused.step {root : Cid} {phase : v.kind.Phase} {i : Input}
    (hi : ∀ e, i = .failure e → v.Excused m e)
    (h : (v.kind.transport.step root m.now phase i).outcome = .fails e) : v.Excused m e := by
  obtain ⟨kind, root', caller⟩ := v
  cases kind with
  | transfer => exact nofun
  | download =>
    rcases Download.step_fails h with hf | hno
    · exact hi e hf
    · exact excused_of_not_context hno

/-! ## What a wait comes to -/

/-- The permit and the sink do not fail with an error of a context. -/
def Offer.Quiet : Offer → Prop
  | .permit (.error e) | .written (.error e) => e.isContext = false
  | _ => True

theorem Offer.excused {o : Offer} (h : o.Quiet) {d : Demand} (ho : o.input? d = some (.failure e))
    (hd : d = .transfer → v.kind = .transfer) : v.Excused m e := by
  unfold Offer.input? at ho
  split at ho <;> cases ho
  · exact excused_of_not_context h
  · intro hk
    rw [hd rfl] at hk
    cases hk
  · exact excused_of_not_context rfl
  · exact excused_of_not_context rfl
  · exact excused_of_not_context h

theorem demand_transfer {k : Traffic.Kind} {phase : k.Phase}
    (h : k.transport.demand phase = .transfer) : k = .transfer := by
  cases k with
  | transfer => rfl
  | download =>
    simp only [Traffic.Kind.transport, Download.transport] at h
    cases phase <;> cases h

/-- A download is heeded under no context but its caller's. -/
def Guard.Of (v : Vigil) : Guard → Prop
  | .refused _ => v.kind = .transfer
  | .context c => v.kind = .transfer ∨ c = v.caller
  | .timed c _ _ => c = v.caller
  | .absent => True

theorem Guard.Of.excused {w : Guard} (h : w.Of v) (hc : w.cuts? m = some (.failure e)) :
    v.Excused m e := by
  have ended {c : Context} (hc : (c.error? m).map Input.failure = some (.failure e)) :
      c.error? m = some e := by
    obtain ⟨e', he', heq⟩ := Option.map_eq_some_iff.mp hc
    cases heq
    exact he'
  intro hk hctx
  cases w with
  | refused e' =>
    rw [show v.kind = .transfer from h] at hk
    cases hk
  | context c =>
    rcases h with h | rfl
    · rw [h] at hk
      cases hk
    · rw [ended hc]
      rfl
  | timed c due limit =>
    simp only [cuts?] at hc
    split at hc
    · cases hc
    · rw [← show c = v.caller from h, ended hc]
      rfl
  | absent => cases hc

theorem Guard.Of.input {w : Guard} (h : w.Of v) {came : Option Input}
    (hcame : came = some (.failure e) → v.Excused m e)
    (hi : w.input? m came = some (.failure e)) : v.Excused m e := by
  unfold input? at hi
  split at hi
  · exact h.excused hi
  · rcases Option.or_eq_some_iff.mp hi with hi | ⟨-, hi⟩
    · exact hcame hi
    · exact h.excused hi

theorem guard_of (v : Vigil) (m : Moment) (limit : Duration) {d : Demand}
    (hd : d = .transfer → v.kind = .transfer) : (v.guard m limit d).1.Of v := by
  cases d with
  | permit => exact .inr rfl
  | transfer =>
    simp only [guard]
    split
    · exact hd rfl
    · exact .inl (hd rfl)
  | response e => rfl
  | body e => rfl
  | writing b =>
    simp only [guard]
    split
    · exact .inr rfl
    · trivial

theorem guard_moment (v : Vigil) (m : Moment) (limit : Duration) (d : Demand) :
    (v.guard m limit d).2.now = m.now ∧ (v.guard m limit d).2.given = m.given := by
  unfold guard
  split
  · exact ⟨rfl, rfl⟩
  · simp only
    split <;> exact ⟨rfl, rfl⟩
  · exact ⟨rfl, rfl⟩
  · exact ⟨rfl, rfl⟩
  · exact ⟨rfl, rfl⟩

/-! ## A glance -/

/-- What holds of a retrieval whenever somebody looks at it. -/
inductive Keeps (v : Vigil) (m : Moment) : Stage v.kind.Phase → Guard → Prop
  | turning {last : Error} {left : List Candidate} {w : Guard} : last.isContext = false →
      Keeps v m (.turning last left) w
  | trying {f : Fallback v.kind.Phase} {w : Guard} : w.Of v → Keeps v m (.trying f) w
  | failing {c : Candidate} {others : List Candidate} {e' : Error} {w : Guard} : v.Excused m e' →
      Keeps v m (.failing c others e') w
  | ended {r : Except Error Stats} {w : Guard} :
      (∀ e, r = .error e → e.isContext = true → (v.caller.error? m).isSome) →
      Keeps v m (.over r) w

theorem Excused.later {m' : Moment} (h : v.Excused m e) (hnow : m.now ≤ m'.now)
    (hgiven : ∀ s ∈ m.given, s ∈ m'.given) : v.Excused m' e :=
  fun hk hctx => Context.over_lasts hnow hgiven (h hk hctx)

theorem Keeps.later {m' : Moment} {s : Stage v.kind.Phase} {w : Guard} (h : Keeps v m s w)
    (hnow : m.now ≤ m'.now) (hgiven : ∀ s ∈ m.given, s ∈ m'.given) : Keeps v m' s w := by
  cases h with
  | turning h => exact .turning h
  | trying h => exact .trying h
  | failing h => exact .failing (h.later hnow hgiven)
  | ended h => exact .ended fun e he hctx => Context.over_lasts hnow hgiven (h e he hctx)

/-- None of some effects tells of a failure with the error of a context. -/
def Discreet (es : List Effect) : Prop :=
  ∀ p pr e, .tell (.providerFailed p pr e) ∈ es → e.isContext = false

theorem discreet_nil : Discreet [] := fun _ _ _ he => absurd he List.not_mem_nil

theorem Discreet.append {es es' : List Effect} (h : Discreet es) (h' : Discreet es') :
    Discreet (es ++ es') := fun p pr e he => (List.mem_append.mp he).elim (h p pr e) (h' p pr e)

theorem discreet_told {k : Traffic.Kind} (c : Candidate) (a : Advance k.Phase) :
    Discreet (told k.transport c a) := by
  intro p pr e he
  simp [told] at he

/-- What was not the context's fault is told, and stands for the failure. -/
theorem report_of_live (h : v.Excused m e) (hlive : v.caller.error? m = none) :
    (v.kind.transport.report e).isContext = false := by
  rw [Bool.eq_false_iff]
  intro hctx
  obtain ⟨hk, he⟩ := isContext_of_report hctx
  have hover := h hk he
  rw [hlive] at hover
  cases hover

/-- What a stage comes to at a look tells of no error of a context, and keeps what has to hold. -/
def Passes (v : Vigil) (m : Moment) (r : List Effect × Stage v.kind.Phase) : Prop :=
  Discreet r.1 ∧ ∀ w, (∀ f, r.2 = .trying f → w.Of v) → Keeps v m r.2 w

variable {i : Input}

theorem passes_turning {last : Error} (hlast : last.isContext = false) (left : List Candidate) :
    Passes v m ((Stage.turning last left).next v.kind.transport v.root
      ⟨m.now, v.caller.error? m, i⟩) := by
  have begun (c : Candidate) : Discreet [started v.kind.transport c] := by
    intro p pr e he
    simp [started] at he
  cases left with
  | nil =>
    refine ⟨discreet_nil, fun w _ => .ended fun e he hctx => ?_⟩
    cases he
    rw [hlast] at hctx
    cases hctx
  | cons c others =>
    cases hended : v.caller.error? m with
    | some e =>
      simp only [Stage.next]
      exact ⟨begun c, fun w _ => .failing fun _ _ => by rw [hended]; rfl⟩
    | none =>
      cases hstart : v.kind.transport.start c with
      | error e =>
        simp only [Stage.next, hstart]
        exact ⟨begun c, fun w _ => .failing (excused_of_not_context (start_fails hstart))⟩
      | ok phase =>
        simp only [Stage.next, hstart]
        exact ⟨begun c, fun w hw => .trying (hw _ rfl)⟩

theorem passes_trying (f : Fallback v.kind.Phase) (hi : ∀ e, i = .failure e → v.Excused m e) :
    Passes v m ((Stage.trying f).next v.kind.transport v.root ⟨m.now, v.caller.error? m, i⟩) := by
  cases ho : (v.kind.transport.step v.root m.now f.phase i).outcome with
  | goes phase =>
    simp only [Stage.next, ho, settle, Verdict.stage, List.append_nil]
    exact ⟨discreet_told _ _, fun w hw => .trying (hw _ rfl)⟩
  | fails e =>
    simp only [Stage.next, ho]
    refine ⟨(discreet_told _ _).append fun p pr e he => ?_, fun w _ => .failing (.step hi ho)⟩
    simp at he
  | succeeds began size blocks =>
    simp only [Stage.next, ho, settle, Verdict.stage]
    refine ⟨(discreet_told _ _).append fun p pr e he => ?_, fun w _ => .ended fun e he => ?_⟩
    · simp at he
    · cases he

theorem passes_failing {c : Candidate} (he : v.Excused m e) (others : List Candidate) :
    Passes v m ((Stage.failing c others e).next v.kind.transport v.root
      ⟨m.now, v.caller.error? m, i⟩) := by
  cases hended : v.caller.error? m with
  | some e' =>
    simp only [Stage.next]
    refine ⟨discreet_nil, fun w _ => .ended fun _ _ _ => ?_⟩
    rw [hended]
    rfl
  | none =>
    -- with the caller's context live it was no error of a context, or another stands for it
    have hreport := report_of_live he hended
    simp only [Stage.next]
    refine ⟨fun p pr e' he' => ?_, fun w _ => .turning hreport⟩
    obtain ⟨-, -, rfl⟩ : p = c.provider ∧ pr = v.kind.transport.protocol ∧
        e' = v.kind.transport.report e := by simpa [Fallback.failure] using he'
    exact hreport

theorem Keeps.stage {s : Stage v.kind.Phase} {w : Guard} (h : Keeps v m s w)
    (hi : ∀ f, s = .trying f → ∀ e, i = .failure e → v.Excused m e) :
    Passes v m (s.next v.kind.transport v.root ⟨m.now, v.caller.error? m, i⟩) := by
  cases h with
  | turning hlast => exact passes_turning hlast _
  | trying _ => exact passes_trying _ (hi _ rfl)
  | failing he => exact passes_failing he _
  | ended hr => exact ⟨discreet_nil, fun w _ => .ended hr⟩

/-- A retrieval has blamed nobody for the context of another. -/
structure Blameless (v : Vigil) (s : State v.kind.Phase) : Prop where
  keeps : Keeps v s.moment s.stage s.guard
  told : Discreet s.told

variable {s : State v.kind.Phase}

theorem Blameless.go {m : Moment} (hkeeps : Keeps v m s.stage s.guard) (htold : Discreet s.told)
    (i : Input) (hi : ∀ f, s.stage = .trying f → ∀ e, i = .failure e → v.Excused m e)
    (limit : Duration) : Blameless v (v.go s m i limit) := by
  obtain ⟨hdiscreet, hstage⟩ := hkeeps.stage hi
  simp only [Vigil.go]
  generalize s.stage.next v.kind.transport v.root ⟨m.now, v.caller.error? m, i⟩ = r at *
  obtain ⟨es, stage⟩ := r
  cases stage with
  | trying f =>
    obtain ⟨hnow, hgiven⟩ := guard_moment v m limit (v.kind.transport.demand f.phase)
    refine ⟨?_, htold.append hdiscreet⟩
    refine (hstage _ fun f' hf => ?_).later (Nat.le_of_eq hnow.symm) fun x hx => hgiven ▸ hx
    exact guard_of v m limit demand_transfer
  | _ => exact ⟨hstage _ nofun, htold.append hdiscreet⟩

theorem Blameless.next (h : Blameless v s) {g : Glance Offer} (hg : ∀ o, g.came = some o → o.Quiet) :
    Blameless v (v.next s g) := by
  have hkeeps : Keeps v (s.moment.after g) s.stage s.guard :=
    h.keeps.later (Nat.le_add_right _ _) fun x hx => List.mem_append_right _ hx
  have idle (hs : ∀ f, s.stage ≠ .trying f) :
      Blameless v (v.go s (s.moment.after g) .permit s.limit) :=
    .go hkeeps h.told _ (fun f hf => absurd hf (hs f)) _
  unfold Vigil.next
  simp only
  split
  · next f hf =>
    split
    · next i hi =>
      refine .go hkeeps h.told i (fun f' hf' e he => ?_) _
      subst he
      have hw : s.guard.Of v := by
        have hk := h.keeps
        rw [hf] at hk
        cases hk with
        | trying hw => exact hw
      -- the attempt fails by its guard or by what has come
      refine hw.input (fun hcame => ?_) hi
      obtain ⟨o, ho, hin⟩ := Option.bind_eq_some_iff.mp hcame
      exact Offer.excused (hg o ho) hin demand_transfer
    · exact ⟨hkeeps, h.told⟩
  · next hs => exact idle fun f hf => hs f hf

/-! ## Whole retrievals -/

theorem run_blameless (v : Vigil) (m : Moment) (l : List Candidate) {gs : List (Glance Offer)}
    (hgs : ∀ g ∈ gs, ∀ o, g.came = some o → o.Quiet) : Blameless v (v.run m l gs) := by
  induction gs using List.reverseRecOn with
  | nil => exact ⟨.turning rfl, discreet_nil⟩
  | append_singleton gs g ih =>
    rw [run, List.foldl_append]
    exact (ih fun g' hg' => hgs g' (List.mem_append_left _ hg')).next (hgs g (by simp))

/-- What is done and told under a context is what a retrieval does look by look. -/
theorem run_stages (v : Vigil) (m : Moment) (l : List Candidate) (gs : List (Glance Offer)) :
    ∃ looks, (Stage.turning (.noCandidates v.root) l).run v.kind.transport v.root looks =
      ((v.run m l gs).told, (v.run m l gs).stage) := by
  induction gs using List.reverseRecOn with
  | nil => exact ⟨[], rfl⟩
  | append_singleton gs g ih =>
    obtain ⟨looks, hlooks⟩ := ih
    rw [run, List.foldl_append, ← run]
    generalize v.run m l gs = s at hlooks
    have gone (m : Moment) (i : Input) (limit : Duration) :
        (Stage.turning (.noCandidates v.root) l).run v.kind.transport v.root
            (looks ++ [⟨m.now, v.caller.error? m, i⟩]) =
          ((v.go s m i limit).told, (v.go s m i limit).stage) := by
      simp [Stage.run_append, Stage.run, hlooks, Vigil.go]
    simp only [List.foldl_cons, List.foldl_nil, Vigil.next]
    split
    · split
      · exact ⟨_, gone _ _ _⟩
      · exact ⟨looks, hlooks⟩
    · exact ⟨_, gone _ _ _⟩

end Courier.Vigil

namespace Courier

/-- Whatever the providers do or leave undone, a retrieval ends with the error of a context only if
its caller's is over by then, and never tells of a failure with such an error, as long as the
permits and the sink do not give one. -/
theorem context_errors_are_callers :
    (∀ (v : Vigil) m l gs, (∀ g ∈ gs, ∀ o, g.came = some o → o.Quiet) → let s := v.run m l gs
      (∀ e, s.stage = .over (.error e) → e.isContext = true → (v.caller.error? s.moment).isSome) ∧
      (∀ p pr e, .tell (.providerFailed p pr e) ∈ s.told → e.isContext = false) ∧
      ∃ looks, (Fallback.Stage.turning (.noCandidates v.root) l).run v.kind.transport v.root looks =
        (s.told, s.stage)) ∧
    ∀ c x, Exchange.ofConfig? c = some x → ∀ (t : Trade) m gs,
      (∀ g ∈ gs, ∀ e, g.came = some (.written (.error e)) → e.isContext = false) →
      let s := t.run m x gs
      ∀ e, s.stage = .over (.error e) → e.isContext = true →
        (t.context.error? s.moment).isSome := by
  refine ⟨fun v m l gs hgs => ?_, fun c x hx t m gs hgs e he hctx => ?_⟩
  · have h := Vigil.run_blameless v m l hgs
    refine ⟨fun e he hctx => ?_, h.told, Vigil.run_stages v m l gs⟩
    have hkeeps := h.keeps
    rw [he] at hkeeps
    cases hkeeps with
    | ended hr => exact hr e rfl hctx
  · exact Trade.run_error hx t m gs hgs he hctx

-- the time for a provider is up, and the context of the caller is live
example :
    let s := Vigil.run ⟨.transfer, ⟨[1]⟩, {}⟩ {} [⟨⟨[1]⟩, ⟨[7]⟩, [], [.graphsync]⟩]
      [{}, { came := some (.permit (.ok ⟨0, 5⟩)) }, { elapsed := 5 }, {}, {}]
    s.told = [.tell (.providerStarted ⟨[7]⟩ .graphsync), .leave, .recordFailure ⟨[7]⟩,
        .tell (.providerFailed ⟨[7]⟩ .graphsync (.failed .providerTimedOut))] ∧
      s.stage = .over (.error (.failed .providerTimedOut)) :=
  ⟨rfl, rfl⟩

end Courier
