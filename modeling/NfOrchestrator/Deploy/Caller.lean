import NfOrchestrator.Deploy.Commands
import NfOrchestrator.Effects.Protocol

/-!
# NfOrchestrator.Deploy.Caller

The **protocol of a caller** of the probe cache: take the lock, look, measure if there
is nothing to reuse, release; and once more, with more time, when the answer never got
kubectl started. `Moves` are its transitions, and `runBounded` keeps to them
(`wp_runBounded_moves`), however its own command ends.

The state keeps the caller's books next to its place in the protocol: which probes it
started, how often it found the cache empty, and how often an answer it took never got
kubectl started. `Balanced` says how these figures fit together.
-/

namespace NfOrchestrator.Deploy

variable (cfg : Settings)

/-! ### The protocol -/

/-- A caller's place in the protocol. `escalated` is the second request, with more
time. -/
inductive Phase where
  /-- Without the lock. `escalated`: it holds an answer that never got kubectl started. -/
  | free (escalated : Bool)
  | asking (escalated : Bool)
  /-- It found an answer, and has yet to see how old it is. -/
  | found (t : ℚ) (p : Probe)
  /-- It found nothing it may reuse. -/
  | missed (escalated : Bool)
  | measuring (escalated : Bool)
  | running (escalated : Bool)
  | ended (escalated : Bool)
  /-- It has its answer, and has yet to release the lock. -/
  | holding (escalated : Bool) (p : Probe)

structure Caller where
  phase : Phase := .free false
  /-- How often it looked and found the cache empty. -/
  empty : ℕ := 0
  /-- The probes it started, by whether they had more time. -/
  spawned : List Bool := []
  /-- The answers it took from the cache, and those it measured on an empty one, that
  never got kubectl started. -/
  taken : ℕ := 0
  failed : ℕ := 0

/-- The bound of a probe. -/
def probeBound (escalated : Bool) : ℚ :=
  if escalated then cfg.escalatedProbeTimeout else cfg.probeTimeout

/-- The operations that neither use the probe cache nor run the probe. -/
def Outside (o : Op) : Prop :=
  match o with
  | .acquireProbeLock | .releaseProbeLock | .getProbe | .setProbe _ _ => False
  | .spawn command | .finish command _ => command ≠ probeCommand cfg
  | .monotonic | .time | .localtime _ | .which _ | .getLastSuccess | .setLastSuccess _
  | .getVersions | .setVersions _ _ => True

/-- One, if the answer never got kubectl started. -/
def unstarted (p : Probe) : ℕ := if p.started then 0 else 1

inductive Moves : Protocol sig Caller
  | acquire {c : Caller} {b : Bool} (h : c.phase = .free b) :
      Moves c ⟨.acquireProbeLock, ()⟩ { c with phase := .asking b }
  | find {c : Caller} {t : ℚ} {p : Probe} (h : c.phase = .asking false) :
      Moves c ⟨.getProbe, some (t, p)⟩ { c with phase := .found t p }
  | miss {c : Caller} (h : c.phase = .asking false) :
      Moves c ⟨.getProbe, none⟩ { c with phase := .missed false, empty := c.empty + 1 }
  | ignore {c : Caller} {r : Option (ℚ × Probe)} (h : c.phase = .asking true) :
      Moves c ⟨.getProbe, r⟩ { c with phase := .missed true }
  | take {c : Caller} {t m : ℚ} {p : Probe} (h : c.phase = .found t p) :
      Moves c ⟨.monotonic, m⟩
        { c with phase := .holding false p, taken := c.taken + unstarted p }
  | begin {c : Caller} {b : Bool} {t : ℚ} (h : c.phase = .missed b) :
      Moves c ⟨.time, t⟩ { c with phase := .measuring b }
  | clock {c : Caller} {b : Bool} {m : ℚ} (h : c.phase = .measuring b) :
      Moves c ⟨.monotonic, m⟩ c
  | spawn {c : Caller} {b : Bool} {r : Option OSError} (h : c.phase = .measuring b) :
      Moves c ⟨.spawn (probeCommand cfg), r⟩
        { c with phase := if r.isSome then .ended b else .running b,
                 spawned := c.spawned ++ [b] }
  | finish {c : Caller} {b : Bool} {r : Outcome} (h : c.phase = .running b) :
      Moves c ⟨.finish (probeCommand cfg) (probeBound cfg b), r⟩ { c with phase := .ended b }
  | answer {c : Caller} {b : Bool} {t : ℚ} {p : Probe} (h : c.phase = .ended b) :
      Moves c ⟨.setProbe t p, ()⟩
        { c with phase := .holding b p,
                 failed := c.failed + if b then 0 else unstarted p }
  /-- The measurement raised. -/
  | giveUp {c : Caller} {b : Bool} (h : c.phase = .ended b) :
      Moves c ⟨.releaseProbeLock, ()⟩ { c with phase := .free false }
  | release {c : Caller} {b : Bool} {p : Probe} (h : c.phase = .holding b p) :
      Moves c ⟨.releaseProbeLock, ()⟩ { c with phase := .free (!b && !p.started) }
  | outside {c : Caller} {b : Bool} {e : Event sig} (h : c.phase = .free b ∨ c.phase = .ended b)
      (he : Outside cfg e.op) : Moves c e c

/-- An answer that a caller finds is no older than `PROBE_TTL`. -/
def Fresh (c : Caller) (e : Event sig) : Prop :=
  ∀ t p m, c.phase = .found t p → e = ⟨.monotonic, m⟩ → m - t ≤ cfg.probeTtl

/-! ### A call keeps to it -/

abbrev calling : Spec sig Caller := (Moves cfg).spec (Fresh cfg)

variable {cfg}

theorem calling_mono : (calling cfg).Mono := Protocol.spec_mono

variable {c : Caller} {b : Bool} {α β : Type}

/-- A program that calls an operation first keeps to the protocol if that call is one of
its moves, and the rest keeps to it from there. -/
theorem wp_move {o : Op} {f : Resp o → Eff β} {Q : Except Exc β → Caller → Prop}
    (h : ∀ r, Fresh cfg c ⟨o, r⟩ → ∃ c', Moves cfg c ⟨o, r⟩ c' ∧ (f r).wp (calling cfg) Q c') :
    (perform o >>= f).wp (calling cfg) Q c := h

/-- Operations outside the cache leave a caller that is free, or done measuring, where
it is. -/
theorem wp_outside (h : c.phase = .free b ∨ c.phase = .ended b) {p : Eff α}
    (hp : p.Within (Outside cfg)) : p.wp (calling cfg) (fun _ c' => c' = c) c :=
  Protocol.wp_within (fun _ _ ho => .outside h ho) hp

theorem outside_ofPy (x : Except PyError α) : (ofPy x).Within (Outside cfg) :=
  Prog.within_ofExcept _

theorem outside_noteSuccess : noteSuccess.Within (Outside cfg) :=
  (Prog.within_op trivial).bind fun _ => Prog.within_op trivial

theorem outside_startupDelay (log : String) (spawned : ℚ) :
    (startupDelay log spawned).Within (Outside cfg) := by
  unfold startupDelay
  cases firstStamp log with
  | none => trivial
  | some first => exact (Prog.within_op trivial).bind fun _ => trivial

theorem outside_answeredRecently : (answeredRecently cfg).Within (Outside cfg) := by
  refine (Prog.within_op trivial).bind fun t => ?_
  cases t with
  | none => trivial
  | some _ =>
      refine (Prog.within_op trivial).bind fun now => (Prog.within_op trivial).bind fun t => ?_
      cases t <;> trivial

/-- Once its probe has ended, what is left of the measurement is outside the cache. -/
theorem outside_measured (outcome : Outcome) (spawned started : ℚ) :
    (match outcome with
      | .timedOut stderr => killedProbe (stderr.getD "") spawned started
      | .osError exc => do
          let now ← monotonic
          return { answered := false, seconds := now - started, started := false,
                   spawnFailure := spawnFailure "kubectl" exc,
                   spawnFailure_of := fun _ h => ⟨exc, h⟩ }
      | .completed returncode _ stderr => do
          let answered := returncode == 0
          if answered then noteSuccess
          exitedProbe answered stderr spawned started).Within (Outside cfg) := by
  cases outcome with
  | timedOut stderr =>
      exact (Prog.within_op trivial).bind fun _ => (outside_ofPy _).bind fun _ =>
        (outside_startupDelay _ spawned).bind fun _ => trivial
  | osError exc => exact (Prog.within_op trivial).bind fun _ => trivial
  | completed returncode stdout stderr =>
      have hexited : ∀ answered,
          (exitedProbe answered stderr spawned started).Within (Outside cfg) :=
        fun answered => (Prog.within_op trivial).bind fun _ => (outside_ofPy _).bind fun _ =>
          (outside_startupDelay stderr spawned).bind fun _ => trivial
      dsimp only
      split_ifs
      · exact outside_noteSuccess.bind fun _ => hexited _
      · exact hexited _

/-- A measurement starts one probe, and ends with the lock still held. -/
theorem wp_measureProbe_moves (h : c.phase = .missed b) :
    (measureProbe cfg (probeBound cfg b)).wp (calling cfg)
      (fun _ c' => c'.phase = .ended b) c := by
  have hafter : ∀ (outcome : Outcome) (spawned started : ℚ) (c' : Caller),
      c'.phase = .ended b → Prog.wp (calling cfg) _ (fun _ c' => c'.phase = .ended b) c' :=
    fun outcome spawned started c' hc' => Prog.wp_mono calling_mono
      (by rintro _ _ rfl; exact hc')
      (wp_outside (.inr hc') (outside_measured outcome spawned started))
  refine wp_move fun spawned _ => ⟨_, .begin h, ?_⟩
  refine wp_move fun started _ => ⟨_, .clock rfl, ?_⟩
  rw [Prog.wp_bind, wp_subprocessRun]
  refine fun failure _ => ⟨_, .spawn rfl, ?_⟩
  cases failure with
  | some exc => exact hafter (.osError exc) spawned started _ rfl
  | none => exact fun outcome _ => ⟨_, .finish rfl, hafter outcome spawned started _ rfl⟩

/-- What holds while the lock is held: an answer in hand, or a measurement that raised. -/
def Held (b : Bool) : Except Exc Probe → Caller → Prop
  | .ok p, c => c.phase = .holding b p
  | .error _, c => c.phase = .ended b

theorem wp_freshProbe_moves (h : c.phase = .missed b) :
    (freshProbe cfg (probeBound cfg b)).wp (calling cfg) (Held b) c := by
  rw [freshProbe, Prog.wp_bind]
  refine Prog.wp_mono calling_mono ?_ (wp_measureProbe_moves h)
  intro x c' hc'
  cases x with
  | error exc => exact hc'
  | ok measured =>
      rw [Prog.bindPost_ok]
      refine wp_move fun now _ => ⟨_, .outside (.inr hc') trivial, ?_⟩
      exact wp_move fun _ _ => ⟨_, .answer hc', rfl⟩

theorem wp_cachedProbe_look (httl : 0 < cfg.probeTtl) (h : c.phase = .asking false) :
    (cachedProbe cfg cfg.probeTtl cfg.probeTimeout).wp (calling cfg) (Held false) c := by
  refine wp_move fun cached _ => ?_
  cases cached with
  | none => exact ⟨_, .miss h, wp_freshProbe_moves (b := false) rfl⟩
  | some found =>
      obtain ⟨measuredAt, probe⟩ := found
      refine ⟨_, .find h, ?_⟩
      dsimp only
      rw [if_pos httl]
      refine wp_move fun now hfresh => ⟨_, .take rfl, ?_⟩
      have hage : now - measuredAt ≤ cfg.probeTtl := hfresh measuredAt probe now rfl rfl
      rw [if_pos hage]
      rfl

theorem wp_cachedProbe_escalated (h : c.phase = .asking true) :
    (cachedProbe cfg 0 cfg.escalatedProbeTimeout).wp (calling cfg) (Held true) c := by
  refine wp_move fun cached _ => ⟨_, .ignore h, ?_⟩
  cases cached with
  | none => exact wp_freshProbe_moves (b := true) rfl
  | some found => exact wp_freshProbe_moves (b := true) rfl

/-- The lock is released in any case, and an answer that never got kubectl started is
owed a second one. -/
theorem wp_apiServerProbe_moves {maxAge : ℚ} (timeout : Option ℚ) (h : c.phase = .free b)
    (hcached : ∀ c' : Caller, c'.phase = .asking b →
      (cachedProbe cfg maxAge (timeout.getD cfg.probeTimeout)).wp (calling cfg) (Held b) c') :
    (apiServerProbe cfg maxAge timeout).wp (calling cfg)
      (fun x c' => match x with
        | .ok p => c'.phase = .free (!b && !p.started)
        | .error _ => c'.phase = .free false) c := by
  refine wp_move fun _ _ => ⟨_, .acquire h, ?_⟩
  rw [Prog.wp_bind, Prog.wp_tryCatch]
  refine Prog.wp_mono calling_mono ?_ (hcached _ rfl)
  intro x c' hc'
  cases x with
  | error exc => exact wp_move fun _ _ => ⟨_, .giveUp hc', rfl⟩
  | ok probe => exact wp_move fun _ _ => ⟨_, .release hc', rfl⟩

/-- The program leaves a caller that is free, and owes nothing, so. -/
def KeepsFree (cfg : Settings) (p : Eff α) : Prop :=
  ∀ c : Caller, c.phase = .free false →
    p.wp (calling cfg) (fun _ c' => c'.phase = .free false) c

theorem keepsFree_of_outside {p : Eff α} (hp : p.Within (Outside cfg)) : KeepsFree cfg p := by
  intro c hc
  refine Prog.wp_mono calling_mono ?_ (wp_outside (.inl hc) hp)
  intro _ _ h
  subst h
  exact hc

theorem KeepsFree.bind {p : Eff α} {f : α → Eff β} (hp : KeepsFree cfg p)
    (hf : ∀ a, KeepsFree cfg (f a)) : KeepsFree cfg (p >>= f) := by
  intro c hc
  rw [Prog.wp_bind]
  refine Prog.wp_mono calling_mono ?_ (hp c hc)
  intro x c' hc'
  cases x with
  | error exc => exact hc'
  | ok a => exact hf a c' hc'

theorem keepsFree_settledProbe (httl : 0 < cfg.probeTtl) : KeepsFree cfg (settledProbe cfg) := by
  intro c hc
  rw [settledProbe, Prog.wp_bind]
  refine Prog.wp_mono calling_mono ?_
    (wp_apiServerProbe_moves none hc fun _ h => wp_cachedProbe_look httl h)
  intro x c' hc'
  cases x with
  | error exc => exact hc'
  | ok probe =>
      rw [Prog.bindPost_ok]
      cases hs : probe.started with
      | true =>
          rw [if_pos rfl]
          simpa [hs] using hc'
      | false =>
          rw [if_neg (by decide)]
          have howed : c'.phase = .free true := by simpa [hs] using hc'
          refine Prog.wp_mono calling_mono ?_ (wp_apiServerProbe_moves
            (some cfg.escalatedProbeTimeout) howed fun _ h => wp_cachedProbe_escalated h)
          intro y c'' hc''
          cases y with
          | error exc => exact hc''
          | ok second => simpa using hc''

theorem keepsFree_afterTimeout (httl : 0 < cfg.probeTtl) (verb : String) (args : List String)
    (timeout : ℚ) : KeepsFree cfg (afterTimeout cfg (settledProbe cfg) verb args timeout) := by
  have hret : ∀ {γ : Type} (p : Eff γ), p.Within (Outside cfg) → KeepsFree cfg p :=
    fun p => keepsFree_of_outside
  have hlocal : KeepsFree cfg (localDelay cfg (settledProbe cfg)) := by
    refine (keepsFree_settledProbe httl).bind fun probe => ?_
    split_ifs
    · exact hret _ trivial
    · cases probe.localSeconds with
      | none => exact hret _ trivial
      | some here =>
          dsimp only
          split_ifs
          · cases probe.roundTrip with
            | none => exact hret _ trivial
            | some r => exact hret _ trivial
          · exact hret _ trivial
  have hevidence : KeepsFree cfg (reachabilityEvidence cfg (settledProbe cfg)) := by
    refine (keepsFree_settledProbe httl).bind fun probe => ?_
    split_ifs
    · exact hret _ trivial
    · refine (keepsFree_of_outside outside_answeredRecently).bind fun answered => ?_
      split_ifs
      · exact hret _ trivial
      · exact hret _ trivial
  unfold afterTimeout
  split_ifs
  · refine (keepsFree_settledProbe httl).bind fun probe => ?_
    cases probe.spawnFailure with
    | some failure => exact hret _ trivial
    | none =>
        refine hlocal.bind fun here => ?_
        split_ifs
        · exact hret _ trivial
        · refine hevidence.bind fun evidence => ?_
          split_ifs
          · exact hret _ trivial
          · exact hret _ trivial
  · exact hret _ trivial

/-- A call keeps to the protocol, and is done with the cache when it ends. -/
theorem wp_runBounded_moves (httl : 0 < cfg.probeTtl) {command : List String}
    (hcommand : command ≠ probeCommand cfg) (args : List String) (timeout : ℚ) :
    KeepsFree cfg (runBounded cfg command args timeout) := by
  have hrun : (subprocessRun command timeout).Within (Outside cfg) := by
    refine (Prog.within_op hcommand).bind fun failure => ?_
    cases failure with
    | some exc => trivial
    | none => exact Prog.within_op hcommand
  refine (keepsFree_of_outside hrun).bind fun outcome => ?_
  cases outcome with
  | timedOut stderr => exact keepsFree_afterTimeout httl _ args timeout
  | osError exc =>
      refine keepsFree_of_outside ?_
      dsimp only
      unfold afterOSError
      cases spawnFailure (command.headD "") exc with
      | none => trivial
      | some failure => trivial
  | completed returncode stdout stderr =>
      refine keepsFree_of_outside ?_
      dsimp only
      unfold afterExit refuse
      generalize classifyError (complaint stdout stderr) = error
      split_ifs
      · exact outside_noteSuccess.bind fun _ => trivial
      · trivial
      · exact outside_noteSuccess.bind fun _ => trivial

/-! ### A caller's books -/

/-- One, between finding the cache empty and starting a probe. -/
def Phase.missing : Phase → ℕ
  | .missed false | .measuring false => 1
  | _ => 0

/-- One, while the caller has an answer that never got kubectl started, and has not
started its second probe. -/
def Phase.owing : Phase → ℕ
  | .free true | .asking true | .missed true | .measuring true => 1
  | .holding false p => unstarted p
  | _ => 0

/-- One, while a first probe runs. -/
def Phase.pending : Phase → ℕ
  | .running false | .ended false => 1
  | _ => 0

/-- A caller starts a first probe for each empty cache it finds, and one with more time
for each answer that never got kubectl started. -/
structure Balanced (c : Caller) : Prop where
  first : c.spawned.count false + c.phase.missing = c.empty
  second : c.spawned.count true + c.phase.owing = c.taken + c.failed
  failed : c.failed + c.phase.pending ≤ c.spawned.count false
  head : c.spawned.head? = some true → 1 ≤ c.taken

theorem balanced_start : Balanced {} where
  first := rfl
  second := rfl
  failed := Nat.le_refl _
  head := fun h => by cases h

theorem unstarted_le (p : Probe) : unstarted p ≤ 1 := by
  unfold unstarted
  split_ifs <;> omega

theorem owing_free (b : Bool) (p : Probe) :
    (Phase.free (!b && !p.started)).owing = (Phase.holding b p).owing := by
  cases b <;> cases hs : p.started <;> simp [Phase.owing, unstarted, hs]

theorem Moves.balanced {c' : Caller} {e : Event sig} (h : Moves cfg c e c') (hc : Balanced c) :
    Balanced c' := by
  obtain ⟨phase, empty, spawned, taken, failed⟩ := c
  obtain ⟨hfirst, hsecond, hfailed, hhead⟩ := hc
  dsimp only at hfirst hsecond hfailed hhead
  cases h with
  | @acquire _ b h =>
      obtain rfl := h
      cases b <;> exact ⟨hfirst, hsecond, hfailed, hhead⟩
  | @begin _ b t h =>
      obtain rfl := h
      cases b <;> exact ⟨hfirst, hsecond, hfailed, hhead⟩
  | find h | ignore h =>
      obtain rfl := h
      exact ⟨hfirst, hsecond, hfailed, hhead⟩
  | miss h =>
      obtain rfl := h
      refine ⟨?_, hsecond, hfailed, hhead⟩
      simp only [Phase.missing] at hfirst ⊢
      omega
  | take h =>
      obtain rfl := h
      refine ⟨hfirst, ?_, hfailed, fun hh => ?_⟩
      · simp only [Phase.owing] at hsecond ⊢
        omega
      · have := hhead hh
        dsimp only
        omega
  | clock h => exact ⟨hfirst, hsecond, hfailed, hhead⟩
  | outside h he => exact ⟨hfirst, hsecond, hfailed, hhead⟩
  | @spawn _ b r h =>
      obtain rfl := h
      have hphase : (if r.isSome then Phase.ended b else .running b).missing = 0 ∧
          (if r.isSome then Phase.ended b else .running b).owing = 0 ∧
          (if r.isSome then Phase.ended b else .running b).pending = if b then 0 else 1 := by
        cases b <;> cases r <;> exact ⟨rfl, rfl, rfl⟩
      obtain ⟨hmissing, howing, hpending⟩ := hphase
      cases b with
      | false =>
          simp only [Phase.missing, Phase.owing, Phase.pending] at hfirst hsecond hfailed
          refine ⟨?_, ?_, ?_, fun hh => ?_⟩
          · rw [hmissing]
            simp [hfirst]
          · rw [howing]
            simpa using hsecond
          · rw [hpending]
            simp only [List.count_append, List.count_singleton_self, Bool.false_eq_true, if_false]
            omega
          · cases spawned with
            | nil => cases hh
            | cons x rest => exact hhead hh
      | true =>
          simp only [Phase.missing, Phase.owing, Phase.pending] at hfirst hsecond hfailed
          refine ⟨?_, ?_, ?_, fun hh => ?_⟩
          · rw [hmissing]
            simpa using hfirst
          · rw [howing]
            simp [hsecond]
          · rw [hpending]
            simpa using hfailed
          · cases spawned with
            | nil =>
                simp only [List.count_nil] at hsecond hfailed
                dsimp only
                omega
            | cons x rest => exact hhead hh
  | @finish _ b r h =>
      obtain rfl := h
      cases b <;> exact ⟨hfirst, hsecond, hfailed, hhead⟩
  | @answer _ b t p h =>
      obtain rfl := h
      cases b with
      | false =>
          have := unstarted_le p
          simp only [Phase.missing, Phase.owing, Phase.pending] at hfirst hsecond hfailed
          refine ⟨hfirst, ?_, ?_, hhead⟩
          · simp only [Phase.owing, Bool.false_eq_true, if_false]
            omega
          · simp only [Phase.pending, Bool.false_eq_true, if_false]
            omega
      | true => exact ⟨hfirst, hsecond, hfailed, hhead⟩
  | @giveUp _ b h =>
      obtain rfl := h
      refine ⟨?_, ?_, ?_, hhead⟩
      · cases b <;> exact hfirst
      · cases b <;> exact hsecond
      · exact le_trans (Nat.le_add_right _ _) hfailed
  | @release _ b p h =>
      obtain rfl := h
      refine ⟨hfirst, ?_, hfailed, hhead⟩
      rw [owing_free]
      exact hsecond

/-- The probe that runs, or has just ended, is one the caller started. -/
def Underway (c : Caller) : Prop :=
  ∀ b, c.phase = .running b ∨ c.phase = .ended b → b ∈ c.spawned

theorem Moves.underway {c' : Caller} {e : Event sig} (h : Moves cfg c e c') (hc : Underway c) :
    Underway c' := by
  intro b hb
  cases h with
  | @spawn _ b' r h =>
      have hbb : b = b' := by
        cases r with
        | none => rcases hb with hb | hb <;> cases hb; rfl
        | some exc => rcases hb with hb | hb <;> cases hb; rfl
      simp [hbb]
  | @finish _ b' r h =>
      rcases hb with hb | hb
      · cases hb
      · cases hb
        exact hc b (.inl h)
  | clock h => exact hc b hb
  | outside h he => exact hc b hb
  | _ => rcases hb with hb | hb <;> cases hb

end NfOrchestrator.Deploy
