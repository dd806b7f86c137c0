import NfOrchestrator.Deploy.Engine

/-!
# NfOrchestrator.Deploy.Measured

The **probes that can be measured**. The fields of a probe are not independent: each
of the three ways kubectl can end fixes most of them (`Measured`), and leaves open
only how long it took and what time of day it was (`produces_exited`,
`produces_killed`).
-/

namespace NfOrchestrator.Deploy

variable (cfg : Settings)

/-- Starting kubectl and waiting for it ends in `outcome`. -/
def probing (outcome : Outcome) : Env sig Unit := fun o _ r _ =>
  match o, r with
  | .spawn _, failure => failure = match outcome with
      | .osError exc => some exc
      | .completed _ _ _ | .timedOut _ => none
  | .finish _ _, finished => finished = outcome
  | _, _ => True

/-! ### What a probe says of its kubectl -/

/-- What a probe is, for each way kubectl can end. -/
def Measured (outcome : Outcome) (p : Probe) : Prop :=
  match outcome with
  | .timedOut stderr =>
      p.answered = false ∧ roundTrip (stderr.getD "") = .ok p.roundTrip ∧
        p.started = (Str.strip (stderr.getD "") != "") ∧ p.error = "" ∧ p.spawnFailure = none
  | .osError exc =>
      p.answered = false ∧ p.roundTrip = none ∧ p.started = false ∧ p.error = "" ∧
        p.spawnFailure = spawnFailure "kubectl" exc
  | .completed returncode _ stderr =>
      p.answered = (returncode == 0) ∧ roundTrip stderr = .ok p.roundTrip ∧ p.started = true ∧
        p.error = (if returncode == 0 then "" else errorText stderr) ∧ p.spawnFailure = none

/-- `measureProbe` can measure `p` when kubectl ends in `outcome`. -/
def Produces (outcome : Outcome) (p : Probe) : Prop :=
  ∃ timeout, (measureProbe cfg timeout).Ends (probing outcome) () (.ok p)

theorem wp_startupDelay {E : Env sig Unit} {log : String} {spawned : ℚ}
    {Q : Except Exc (Option ℚ) → Unit → Prop} (h : ∀ d, Q (.ok d) ()) :
    (startupDelay log spawned).wp E.spec Q () := by
  unfold startupDelay
  cases firstStamp log with
  | none => exact h none
  | some first =>
      rw [Prog.wp_bind, wp_localtime]
      intro t _ _
      exact h _

theorem wp_noteSuccess_still {W : Type} {E : Env sig W} {w : W} (hE : E.Still w)
    {Q : Except Exc Unit → W → Prop} (h : Q (.ok ()) w) : noteSuccess.wp E.spec Q w := by
  rw [noteSuccess, Prog.wp_bind, wp_monotonic]
  intro now w₁ hnow
  obtain rfl := hE _ _ _ hnow
  intro _ w₂ hset
  obtain rfl := hE _ _ _ hset
  exact h

theorem wp_noteSuccess {E : Env sig Unit} {Q : Except Exc Unit → Unit → Prop}
    (h : Q (.ok ()) ()) : noteSuccess.wp E.spec Q () := wp_noteSuccess_still E.still_unit h

/-- What a probe reads in kubectl's log. -/
def readLog (log : String) (spawned : ℚ) (f : Option ℚ → Option ℚ → Probe) : Eff Probe := do
  let roundTrip ← ofPy (roundTrip log)
  let startup ← startupDelay log spawned
  return f roundTrip startup

theorem wp_readLog {E : Env sig Unit} {log : String} {spawned : ℚ}
    {f : Option ℚ → Option ℚ → Probe} {Q : Probe → Prop}
    (h : ∀ r startup, roundTrip log = .ok r → Q (f r startup)) :
    (readLog log spawned f).wp E.spec (fun x _ => ∀ p, x = .ok p → Q p) () := by
  rw [readLog, Prog.wp_bind, wp_ofPy]
  cases hr : roundTrip log with
  | error e =>
      intro p hp
      cases hp
  | ok r =>
      rw [Except.mapError, Prog.bindPost_ok, Prog.wp_bind]
      refine wp_startupDelay fun startup p hp => ?_
      obtain rfl := Except.ok.inj hp
      exact h r startup hr

theorem wp_killedProbe {E : Env sig Unit} (stderr : Option String) (spawned started : ℚ) :
    (killedProbe (stderr.getD "") spawned started).wp E.spec
      (fun x _ => ∀ p, x = .ok p → Measured (.timedOut stderr) p) () := by
  rw [killedProbe, Prog.wp_bind, wp_monotonic]
  intro now _ _
  exact wp_readLog fun r startup hr => ⟨rfl, hr, rfl, rfl, rfl⟩

theorem wp_exitedProbe {E : Env sig Unit} (returncode : ℤ) (stdout log : String)
    (spawned started : ℚ) :
    (exitedProbe (returncode == 0) log spawned started).wp E.spec
      (fun x _ => ∀ p, x = .ok p → Measured (.completed returncode stdout log) p) () := by
  rw [exitedProbe, Prog.wp_bind, wp_monotonic]
  intro now _ _
  exact wp_readLog fun r startup hr => ⟨rfl, hr, rfl, rfl, rfl⟩

theorem wp_measureProbe_probing (outcome : Outcome) (timeout : ℚ) :
    (measureProbe cfg timeout).wp (probing outcome).spec
      (fun x _ => ∀ p, x = .ok p → Measured outcome p) () := by
  simp only [measureProbe, Prog.wp_bind, wp_time, wp_monotonic, wp_subprocessRun, Env.spec_apply,
    probing, Prog.bindPost_ok]
  rintro spawned - - started - - failure ⟨⟩ rfl
  cases outcome with
  | osError exc =>
      rintro now ⟨⟩ - p hp
      obtain rfl := Except.ok.inj hp
      exact ⟨rfl, rfl, rfl, rfl, rfl⟩
  | timedOut stderr =>
      rintro outcome ⟨⟩ rfl
      exact wp_killedProbe stderr spawned started
  | completed returncode stdout stderr =>
      rintro outcome ⟨⟩ rfl
      have hexited := wp_exitedProbe returncode stdout stderr spawned started
        (E := probing (.completed returncode stdout stderr))
      dsimp only
      split
      · exact (Prog.wp_bind _ _ _).mpr (wp_noteSuccess hexited)
      · exact hexited

theorem Produces.measured {outcome : Outcome} {p : Probe} (h : Produces cfg outcome p) :
    Measured outcome p := by
  obtain ⟨timeout, w, hr⟩ := h
  exact hr.post (wp_measureProbe_probing cfg outcome timeout) p rfl

/-- kubectl's start-up as `startupDelay` measures it, when it was spawned at `atSpawn`. -/
def startupFrom (atSpawn : LocalTime) (log : String) : Option ℚ :=
  (firstStamp log).map fun first => foldMidnight (first - atSpawn.seconds)

theorem runs_startupDelay {E : Env sig Unit} {atSpawn : LocalTime} (log : String)
    (h : E (.localtime 0) () atSpawn ()) :
    (startupDelay log 0).Runs E () (.ok (startupFrom atSpawn log)) () := by
  unfold startupDelay startupFrom
  cases firstStamp log with
  | none => exact ⟨rfl, rfl⟩
  | some first =>
      refine ⟨atSpawn, (), h, ?_, rfl⟩
      simp

theorem runs_readLog {E : Env sig Unit} {atSpawn : LocalTime} {log : String} {r : Option ℚ}
    {f : Option ℚ → Option ℚ → Probe} (hr : roundTrip log = .ok r)
    (h : E (.localtime 0) () atSpawn ()) :
    (readLog log 0 f).Runs E () (.ok (f r (startupFrom atSpawn log))) () := by
  rw [readLog, hr]
  exact Prog.Runs.bind ⟨rfl, rfl⟩ (Prog.Runs.bind (runs_startupDelay log h) ⟨rfl, rfl⟩)

/-- A kubectl that exited can have been started at any time of day and have taken any
time. -/
theorem produces_exited {returncode : ℤ} {stdout log : String} {r : Option ℚ}
    (hr : roundTrip log = .ok r) (atSpawn : LocalTime) (seconds : ℚ) :
    Produces cfg (.completed returncode stdout log)
      { answered := returncode == 0, seconds := seconds, roundTrip := r,
        startup := startupFrom atSpawn log,
        error := if returncode == 0 then "" else errorText log } := by
  have hspawn : (subprocessRun (probeCommand cfg) 0).Runs
      (probing (.completed returncode stdout log)) ()
      (.ok (.completed returncode stdout log)) () := ⟨none, (), rfl, _, (), rfl, rfl, rfl⟩
  have hnote : noteSuccess.Runs (probing (.completed returncode stdout log)) () (.ok ()) () :=
    ⟨(0 : ℚ), (), trivial, (), (), trivial, rfl, rfl⟩
  have hexited : (exitedProbe (returncode == 0) log 0 0).Runs
      (probing (.completed returncode stdout log)) ()
      (.ok { answered := returncode == 0, seconds := seconds, roundTrip := r,
             startup := startupFrom atSpawn log,
             error := if returncode == 0 then "" else errorText log }) () := by
    rw [exitedProbe]
    refine Prog.Runs.bind ⟨seconds, (), trivial, rfl, rfl⟩ ?_
    rw [sub_zero]
    exact runs_readLog hr trivial
  refine ⟨0, (), Prog.Runs.bind ⟨(0 : ℚ), (), trivial, rfl, rfl⟩ ?_⟩
  refine Prog.Runs.bind ⟨(0 : ℚ), (), trivial, rfl, rfl⟩ (Prog.Runs.bind hspawn ?_)
  dsimp only
  generalize (returncode == 0) = answered at hexited ⊢
  cases answered with
  | true => exact Prog.Runs.bind hnote hexited
  | false => exact hexited

/-- So can a kubectl killed at its bound. -/
theorem produces_killed {log : String} {r : Option ℚ} (hr : roundTrip log = .ok r)
    (atSpawn : LocalTime) (seconds : ℚ) :
    Produces cfg (.timedOut (some log))
      { answered := false, seconds := seconds, roundTrip := r,
        started := Str.strip log != "", startup := startupFrom atSpawn log } := by
  have hspawn : (subprocessRun (probeCommand cfg) 0).Runs (probing (.timedOut (some log))) ()
      (.ok (.timedOut (some log))) () := ⟨none, (), rfl, _, (), rfl, rfl, rfl⟩
  refine ⟨0, (), Prog.Runs.bind ⟨(0 : ℚ), (), trivial, rfl, rfl⟩ ?_⟩
  refine Prog.Runs.bind ⟨(0 : ℚ), (), trivial, rfl, rfl⟩ (Prog.Runs.bind hspawn ?_)
  dsimp only
  rw [Option.getD_some, killedProbe]
  refine Prog.Runs.bind ⟨seconds, (), trivial, rfl, rfl⟩ ?_
  rw [sub_zero]
  exact runs_readLog hr trivial

theorem Measured.answered {outcome : Outcome} {p : Probe} (h : Measured outcome p)
    (ha : p.answered = true) : p.started = true ∧ p.spawnFailure = none := by
  cases outcome with
  | timedOut stderr => rw [h.1] at ha; cases ha
  | osError exc => rw [h.1] at ha; cases ha
  | completed returncode stdout stderr => exact ⟨h.2.2.1, h.2.2.2.2⟩

theorem Measured.not_started {outcome : Outcome} {p : Probe} (h : Measured outcome p)
    (hs : p.started = false) : p.error = "" := by
  cases outcome with
  | timedOut stderr => exact h.2.2.2.1
  | osError exc => exact h.2.2.2.1
  | completed returncode stdout stderr => rw [h.2.2.1] at hs; cases hs

theorem Measured.spawn_failed {outcome : Outcome} {p : Probe} (h : Measured outcome p)
    {failure : DeployError} (hf : p.spawnFailure = some failure) : p.started = false := by
  cases outcome with
  | timedOut stderr => rw [h.2.2.2.2] at hf; cases hf
  | osError exc => exact h.2.2.1
  | completed returncode stdout stderr => rw [h.2.2.2.2] at hf; cases hf

end NfOrchestrator.Deploy
