import Courier.Attempt.Fallback
import Courier.Attempt.Transfer
import Courier.Proofs.DownloadSound

/-!
# One retrieval from one provider

A retrieval is handed a permit, what the provider transfers or the chunks of a
gateway, and every block it hands to its sink is written. A transfer then ends
with what was transferred. A download does what it does by itself, so it ends
with the blocks of an archive that is sound.
-/

namespace Courier

/-- What is told of blocks that came from a provider. -/
structure Stats.Tells (st : Stats) (root : Cid) (p : ProviderId) (size blocks : Nat) : Prop where
  root : st.root = root
  provider : st.provider = some p
  size : st.size = size
  blocks : st.blocks = blocks

/-- Where a retrieval stands, the chunks that are still to come, and the blocks handed over. -/
structure Trip (α : Type) where
  verdict : Fallback.Verdict α
  chunks : List Bytes
  handed : List Block := []

/-- A retrieval from one provider, and what it is given. -/
structure Errand (α : Type) where
  root : Cid
  candidate : Candidate
  transfer : Except Error (List Block)
  chunks : List Bytes
  began : Instant
  clock : Trip α → Instant

namespace Errand

variable {α : Type} (t : Transport α) (e : Errand α)

def give (chunks : List Bytes) : Demand → Input × List Bytes
  | .permit => (.permit, chunks)
  | .transfer =>
    match e.transfer with
    | .ok bs => (.transfer bs, chunks)
    | .error err => (.failure err, chunks)
  | .response _ => (.response, chunks)
  | .body _ =>
    match chunks with
    | [] => (.bodyEnd, [])
    | c :: chunks => (.body c, chunks)
  | .writing _ => (.written, chunks)

/-- The block that a retrieval hands over where it stands. -/
def placed : Fallback.Verdict α → List Block
  | .goes f =>
    match t.demand f.phase with
    | .writing b => [b]
    | _ => []
  | .over _ => []

def step (x : Trip α) : Trip α :=
  match x.verdict with
  | .over _ => x
  | .goes f =>
    let given := e.give x.chunks (t.demand f.phase)
    let verdict := (f.step t e.root (e.clock x) none given.1).2
    { verdict, chunks := given.2, handed := x.handed ++ placed t verdict }

def run : Nat → Trip α
  | 0 => { verdict := (Fallback.start t e.root e.began none [e.candidate]).2, chunks := e.chunks }
  | n + 1 => e.step t (run n)

def inPhase (phase : α) : Fallback α := ⟨e.candidate, [], e.began, phase⟩

variable {t e}

variable {x : Trip α} {phase phase' : α} {i : Input} {chunks : List Bytes}

theorem step_over {r : Except Error Stats} (h : x.verdict = .over r) : e.step t x = x := by
  simp only [step, h]

theorem step_goes (hx : x.verdict = .goes (e.inPhase phase))
    (hi : e.give x.chunks (t.demand phase) = (i, chunks))
    (ho : (t.step e.root (e.clock x) phase i).outcome = .goes phase') :
    e.step t x = ⟨.goes (e.inPhase phase'), chunks, x.handed ++ placed t (.goes (e.inPhase phase'))⟩ := by
  simp only [step, hx, inPhase, hi, Fallback.step, ho, Fallback.settle]

theorem step_fails {err : Error} (hx : x.verdict = .goes (e.inPhase phase))
    (hi : e.give x.chunks (t.demand phase) = (i, chunks))
    (ho : (t.step e.root (e.clock x) phase i).outcome = .fails err) :
    e.step t x = ⟨.over (.error (t.report err)), chunks, x.handed⟩ := by
  simp only [step, hx, inPhase, hi, Fallback.step, ho, Fallback.settle, Fallback.attempt, placed,
    List.append_nil]

theorem step_succeeds {began : Instant} {size n : Nat} (hx : x.verdict = .goes (e.inPhase phase))
    (hi : e.give x.chunks (t.demand phase) = (i, chunks))
    (ho : (t.step e.root (e.clock x) phase i).outcome = .succeeds began size n) :
    ∃ st, e.step t x = ⟨.over (.ok st), chunks, x.handed⟩ ∧
      st.Tells e.root e.candidate.provider size n := by
  simp only [step, hx, inPhase, hi, Fallback.step, ho, Fallback.settle, placed, List.append_nil]
  exact ⟨_, rfl, ⟨rfl, rfl, rfl, rfl⟩⟩

/-! ## Transfers -/

section
variable {e : Errand Transfer.Phase}

open Transfer (Phase transport)

theorem run_storing {k : Nat} {began : Instant} {b : Block} {others : List Block} {size n : Nat}
    {chunks : List Bytes} {handed : List Block}
    (h : e.run transport k = ⟨.goes (e.inPhase (.storing began b others size n)), chunks, handed⟩) :
    ∃ m st, e.run transport m = ⟨.over (.ok st), chunks, handed ++ others⟩ ∧
      st.Tells e.root e.candidate.provider (size + totalSize others) n := by
  have hx : (e.run transport k).verdict = .goes (e.inPhase (.storing began b others size n)) := by rw [h]
  -- each block is handed over when the one before it is written; the one in hand already was
  induction others generalizing k b size handed with
  | nil =>
    obtain ⟨st, hst, htells⟩ := step_succeeds (t := transport) hx rfl rfl
    refine ⟨k + 1, st, ?_, htells⟩
    rw [run, hst, h, List.append_nil]
  | cons c others ih =>
    have hnext : e.run transport (k + 1) =
        ⟨.goes (e.inPhase (.storing began c others (size + c.data.length) n)), _, _⟩ :=
      step_goes (t := transport) hx rfl rfl
    rw [h] at hnext
    obtain ⟨m, st, hm, htells⟩ := ih hnext (by rw [hnext])
    refine ⟨m, st, ?_, ?_⟩
    · rw [hm, List.append_assoc]
      rfl
    · rw [Nat.add_assoc] at htells
      exact htells

theorem run_transferring : ∃ began,
    e.run transport 1 = ⟨.goes (e.inPhase (.transferring began)), e.chunks, []⟩ := ⟨_, rfl⟩

/-- A transfer ends with what was transferred, if that starts at the root. -/
theorem run_transfer {bs : List Block} (h : e.transfer = .ok bs)
    (hfirst : ∃ b, bs.head? = some b ∧ b.cid = e.root) :
    ∃ m st, e.run transport m = ⟨.over (.ok st), e.chunks, bs⟩ ∧
      st.Tells e.root e.candidate.provider (totalSize bs) bs.length := by
  obtain ⟨b, hb, hroot⟩ := hfirst
  obtain ⟨others, rfl⟩ := List.head?_eq_some_iff.mp hb
  obtain ⟨began, h₁⟩ := run_transferring (e := e)
  have hgive : e.give (e.run transport 1).chunks .transfer = (.transfer (b :: others), e.chunks) := by
    simp only [h₁, give, h]
  have hstore : (Transfer.step e.root (e.clock (e.run transport 1)) (.transferring began)
      (.transfer (b :: others))).outcome =
        .goes (.storing began b others (0 + b.data.length) (b :: others).length) :=
    if_pos (congrArg some hroot)
  have h₂ := step_goes (t := transport) (by rw [h₁]) hgive hstore
  rw [← run, h₁] at h₂
  obtain ⟨m, st, hm, htells⟩ := run_storing h₂
  refine ⟨m, st, hm, ?_⟩
  rw [Nat.zero_add] at htells
  exact htells

theorem run_no_transfer {err : Error} (h : e.transfer = .error err) :
    ∃ m err', e.run transport m = ⟨.over (.error err'), e.chunks, []⟩ := by
  obtain ⟨began, h₁⟩ := run_transferring (e := e)
  have hgive : e.give (e.run transport 1).chunks .transfer = (.failure err, e.chunks) := by
    simp only [h₁, give, h]
  have hx : (e.run transport 1).verdict = .goes (e.inPhase (.transferring began)) := by rw [h₁]
  have h₂ := step_fails (t := transport) hx hgive rfl
  rw [← run, h₁] at h₂
  exact ⟨2, _, h₂⟩

end

/-! ## Downloads -/

section
variable {e : Errand Download.Phase} {endpoint : String}

open Download (Phase transport)
open Download.Surroundings (enter)

/-- What the download meets, taken by itself. -/
def gateway (e : Errand Phase) (endpoint : String) : Download.Surroundings where
  root := e.root
  endpoint
  chunks := e.chunks.map (0, ·)
  ending := .complete 0
  limit := .zero
  sink _ := none
  clock c :=
    match c.state with
    | .goes phase => e.clock ⟨.goes (e.inPhase phase), c.chunks.map (·.2), c.handed⟩
    | _ => 0

theorem octets_gateway (e : Errand Phase) (endpoint : String) :
    (e.gateway endpoint).octets = e.chunks.flatten := by
  simp [Download.Surroundings.octets, gateway, Function.comp_def]

/-- The retrieval stands where the download does. -/
inductive Mirrors (e : Errand Phase) : Download.Course → Trip Phase → Prop
  | goes {phase : Phase} {chunks : List Bytes} {received : Bytes} {handed : List Block} :
      Mirrors e ⟨.goes phase, chunks.map (0, ·), received, handed⟩ ⟨.goes (e.inPhase phase), chunks, handed⟩
  | fails {err err' : Error} {chunks : List Bytes} {received : Bytes} {handed : List Block} :
      Mirrors e ⟨.fails err, chunks.map (0, ·), received, handed⟩ ⟨.over (.error err'), chunks, handed⟩
  | succeeds {began : Instant} {size n : Nat} {st : Stats} {chunks : List Bytes} {received : Bytes}
      {handed : List Block} : st.Tells e.root e.candidate.provider size n →
      Mirrors e ⟨.succeeds began size n, chunks.map (0, ·), received, handed⟩ ⟨.over (.ok st), chunks, handed⟩

theorem mirrors_enter {x : Trip Phase} {phase : Phase} {i : Input} {c : Download.Course}
    {chunks : List Bytes} (hx : x.verdict = .goes (e.inPhase phase))
    (hi : e.give x.chunks (transport.demand phase) = (i, chunks)) (hc : c.chunks = chunks.map (0, ·))
    (hh : x.handed = c.handed) :
    Mirrors e (enter c (Download.step e.root (e.clock x) phase i).outcome) (e.step transport x) := by
  obtain ⟨state, _, received, handed⟩ := c
  subst hc hh
  rcases ho : (Download.step e.root (e.clock x) phase i).outcome with phase' | err | ⟨began, size, n⟩
  · rw [step_goes (t := transport) hx hi ho]
    have hplaced : placed transport (.goes (e.inPhase phase')) =
        Download.Surroundings.placed (.goes phase') := by
      cases phase' <;> rfl
    rw [hplaced]
    exact .goes
  · rw [step_fails (t := transport) hx hi ho, Download.Surroundings.enter_fails]
    exact .fails
  · obtain ⟨st, hst, htells⟩ := step_succeeds (t := transport) hx hi ho
    rw [hst]
    simp only [enter, Download.Surroundings.placed, List.append_nil]
    exact .succeeds htells

theorem gateway_clock (e : Errand Phase) (endpoint : String) {phase : Phase} {chunks : List Bytes}
    {received : Bytes} {handed : List Block} :
    (e.gateway endpoint).clock ⟨.goes phase, chunks.map (0, ·), received, handed⟩ =
      e.clock ⟨.goes (e.inPhase phase), chunks, handed⟩ := by
  simp [gateway, Function.comp_def]

theorem Mirrors.step {c : Download.Course} {x : Trip Phase} (h : Mirrors e c x) :
    Mirrors e ((e.gateway endpoint).step c) (e.step transport x) := by
  cases h with
  | fails => rw [step_over rfl]; exact .fails
  | succeeds htells => rw [step_over rfl]; exact .succeeds htells
  | @goes phase chunks received handed =>
    have hwithin (i : Input) : (e.gateway endpoint).within 0 i = i := if_pos (Nat.zero_le _)
    unfold Download.Surroundings.step
    dsimp only
    rw [gateway_clock]
    cases phase with
    | acquiring => exact mirrors_enter rfl rfl rfl rfl
    | requesting => exact mirrors_enter rfl rfl rfl rfl
    | placing => exact mirrors_enter rfl rfl rfl rfl
    | receiving body =>
      cases chunks with
      | nil =>
        have hinput : (e.gateway endpoint).input ⟨.goes (.receiving body), [], received, handed⟩
            (.receiving body) = .bodyEnd := hwithin _
        rw [List.map_nil, hinput]
        exact mirrors_enter rfl rfl List.map_nil.symm rfl
      | cons chunk chunks =>
        have hinput : (e.gateway endpoint).input
            ⟨.goes (.receiving body), (0, chunk) :: chunks.map (0, ·), received, handed⟩
            (.receiving body) = .body chunk := hwithin _
        rw [List.map_cons, hinput]
        exact mirrors_enter rfl rfl rfl rfl

theorem mirrors_run {e : Errand Phase} (h : e.candidate.addrs.findSome? Endpoint.ofAddress = some endpoint)
    (n : Nat) : Mirrors e ((e.gateway endpoint).run n) (e.run transport n) := by
  induction n with
  | zero =>
    have hstart : transport.start e.candidate = .ok (.acquiring endpoint) := by
      simp only [transport, Download.start, h]
    simp only [run, Fallback.start, Fallback.attempt, hstart]
    exact .goes
  | succ n ih => exact ih.step

/-- A download ends with the blocks of its archive, if all is well with that. -/
theorem run_download {bs : List Block} (h : e.candidate.addrs.findSome? Endpoint.ofAddress = some endpoint)
    (hbs : (e.gateway endpoint).WentWell bs) :
    ∃ m st, (e.run transport m).verdict = .over (.ok st) ∧ (e.run transport m).handed = bs ∧
      st.Tells e.root e.candidate.provider (totalSize bs) bs.length := by
  obtain ⟨m, hm⟩ := Download.Surroundings.exists_end (e.gateway endpoint) 0
  have hgood := Download.Surroundings.good_run (e.gateway endpoint) m
  have hmirrors := mirrors_run h m
  refine ⟨m, ?_⟩
  generalize (e.gateway endpoint).run m = c, e.run transport m = x at hm hgood hmirrors
  cases hgood with
  | acquiring => exact absurd rfl (hm _)
  | requesting => exact absurd rfl (hm _)
  | receiving hs => exact absurd hs (hm _)
  | placing hs => exact absurd hs (hm _)
  | fails _ _ hno => exact absurd hbs (hno bs)
  | succeeds _ hs hgo =>
    -- the octets are an archive of what was handed over and of `bs`, and an archive has one reading
    have hparses := (Archive.isArchive_iff.mp hgo.archive).1.unique (Archive.isArchive_iff.mp hbs.archive).1
    rw [List.map_inj_right fun _ _ => Except.ok.inj] at hparses
    cases hmirrors with
    | goes => exact absurd rfl (hm _)
    | fails => cases hs
    | succeeds htells =>
      obtain ⟨-, hsize, hn⟩ := Outcome.succeeds.inj hs
      refine ⟨_, rfl, hparses, ?_⟩
      rw [← hparses, ← hsize, ← hn]
      exact htells

end

end Errand

end Courier
