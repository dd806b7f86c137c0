import NfOrchestrator.Deploy.Escapes
import NfOrchestrator.Deploy.Measured
import NfOrchestrator.Deploy.Startup

/-!
# NfOrchestrator.Deploy.Attribution

**Attributing a delay.** `localDelay` blames this host for an answer that came at once from
the server and took long here, and asserts that such a probe has a round trip. What a probe
says is a function of what was observed of its kubectl (`Observation.probe`), with two clocks
in it that need not agree: `slow` looks at one of them, `localSeconds` at the other.
`attributed_iff` says when the assertion holds.
-/

namespace NfOrchestrator.Deploy

variable {cfg : Settings}

/-! ### Observations -/

/-- What one measurement of the probe observes. -/
structure Observation where
  /-- How kubectl ended. -/
  outcome : Outcome
  /-- Wall-clock time at the spawn, and the local time it stands for. -/
  spawned : ℚ
  atSpawn : LocalTime
  /-- Monotonic time at the spawn, and at the end. -/
  started : ℚ
  finished : ℚ

namespace Observation

/-- kubectl's start-up, by the wall clock. -/
def startup (o : Observation) (log : String) : Option ℚ := startupAt o.spawned o.atSpawn log

/-- The probe's duration, by the monotonic clock. -/
def seconds (o : Observation) : ℚ := o.finished - o.started

/-- What `measureProbe` makes of it. -/
def probe (o : Observation) : Except PyError Probe :=
  match o.outcome with
  | .timedOut stderr => do
      let roundTrip ← roundTrip (stderr.getD "")
      return { answered := false, seconds := o.seconds, roundTrip := roundTrip,
               started := Str.strip (stderr.getD "") != "",
               startup := o.startup (stderr.getD "") }
  | .osError exc =>
      return { answered := false, seconds := o.seconds, started := false,
               spawnFailure := spawnFailure "kubectl" exc,
               spawnFailure_of := failure_of_osError exc }
  | .completed returncode _ stderr => do
      let roundTrip ← roundTrip stderr
      return { answered := returncode == 0, seconds := o.seconds, roundTrip := roundTrip,
               startup := o.startup stderr,
               error := if returncode == 0 then "" else errorText stderr }

end Observation

theorem traces_readLog {log : String} {spawned : ℚ} {f : Option ℚ → Option ℚ → Probe}
    {tr : List (Event sig)} {x : Except Exc Probe} (h : (readLog log spawned f).Traces tr x) :
    ∃ atSpawn,
      x = ((roundTrip log).map fun r => f r (startupAt spawned atSpawn log)).mapError .py := by
  rw [readLog] at h
  cases hr : roundTrip log with
  | error e =>
      rw [hr] at h
      exact ⟨⟨0, 0, 0⟩, h.2⟩
  | ok r =>
      rw [hr] at h
      change (startupDelay log spawned >>= fun startup => .ret (f r startup)).Traces tr x at h
      rcases Prog.traces_bind.mp h with ⟨startup, _, _, -, hstartup, -, rfl⟩ | ⟨e, hstartup, -⟩
      · obtain ⟨atSpawn, heq⟩ := traces_startupDelay hstartup
        rw [Except.ok.inj heq]
        exact ⟨atSpawn, rfl⟩
      · obtain ⟨atSpawn, heq⟩ := traces_startupDelay hstartup
        cases heq

theorem exists_readLog (log : String) (spawned : ℚ) (atSpawn : LocalTime)
    (f : Option ℚ → Option ℚ → Probe) : ∃ tr, (readLog log spawned f).Traces tr
      (((roundTrip log).map fun r => f r (startupAt spawned atSpawn log)).mapError .py) := by
  rw [readLog]
  cases roundTrip log with
  | error e => exact ⟨[], rfl, rfl⟩
  | ok r =>
      obtain ⟨tr, htr⟩ := exists_startupDelay spawned atSpawn log
      have hreturn : (startupDelay log spawned >>= fun startup => .ret (f r startup)).Traces tr
          (.ok (f r (startupAt spawned atSpawn log))) := htr.bind_nil ⟨rfl, rfl⟩
      exact ⟨_, hreturn⟩

/-- What a measurement ends with is what it makes of an observation. -/
theorem traces_measureProbe {timeout : ℚ} {tr : List (Event sig)} {x : Except Exc Probe}
    (h : (measureProbe cfg timeout).Traces tr x) :
    ∃ o : Observation, x = o.probe.mapError .py := by
  obtain ⟨spawned, _, -, started, _, -, failure, _, -, h⟩ := h
  have hexited : ∀ (returncode : ℤ) (stdout stderr : String) (tr : List (Event sig)),
      (exitedProbe (returncode == 0) stderr spawned started).Traces tr x →
        ∃ o : Observation, x = o.probe.mapError .py := by
    intro returncode stdout stderr tr h
    obtain ⟨now, _, -, h⟩ := h
    obtain ⟨atSpawn, rfl⟩ := traces_readLog h
    exact ⟨⟨.completed returncode stdout stderr, spawned, atSpawn, started, now⟩, rfl⟩
  cases failure with
  | some exc =>
      obtain ⟨now, _, -, -, rfl⟩ := h
      exact ⟨⟨.osError exc, spawned, ⟨0, 0, 0⟩, started, now⟩, rfl⟩
  | none =>
      obtain ⟨outcome, _, -, h⟩ := h
      cases outcome with
      | osError exc =>
          obtain ⟨now, _, -, -, rfl⟩ := h
          exact ⟨⟨.osError exc, spawned, ⟨0, 0, 0⟩, started, now⟩, rfl⟩
      | timedOut stderr =>
          obtain ⟨now, _, -, h⟩ := h
          obtain ⟨atSpawn, rfl⟩ := traces_readLog h
          exact ⟨⟨.timedOut stderr, spawned, atSpawn, started, now⟩, rfl⟩
      | completed returncode stdout stderr =>
          change (if (returncode == 0) = true then
            noteSuccess >>= fun _ => exitedProbe (returncode == 0) stderr spawned started
            else exitedProbe (returncode == 0) stderr spawned started).Traces _ x at h
          split_ifs at h
          · obtain ⟨_, _, -, _, _, -, h⟩ := h
            exact hexited returncode stdout stderr _ h
          · exact hexited returncode stdout stderr _ h

/-- Every observation is what some measurement observes. -/
theorem exists_measureProbe (o : Observation) (timeout : ℚ) :
    ∃ tr, (measureProbe cfg timeout).Traces tr (o.probe.mapError .py) := by
  obtain ⟨outcome, spawned, atSpawn, started, finished⟩ := o
  cases outcome with
  | osError exc =>
      exact ⟨_, spawned, _, rfl, started, _, rfl, some exc, _, rfl, finished, _, rfl, rfl, rfl⟩
  | timedOut stderr =>
      obtain ⟨tr, htr⟩ := exists_readLog (stderr.getD "") spawned atSpawn fun r startup =>
        { answered := false, seconds := finished - started, roundTrip := r,
          started := Str.strip (stderr.getD "") != "", startup := startup }
      exact ⟨_, spawned, _, rfl, started, _, rfl, none, _, rfl, .timedOut stderr, _, rfl, finished,
        tr, rfl, htr⟩
  | completed returncode stdout stderr =>
      obtain ⟨tr, htr⟩ := exists_readLog stderr spawned atSpawn fun r startup =>
        { answered := returncode == 0, seconds := finished - started, roundTrip := r,
          startup := startup, error := if returncode == 0 then "" else errorText stderr }
      have hexited : ∃ tr, (if (returncode == 0) = true then
          noteSuccess >>= fun _ => exitedProbe (returncode == 0) stderr spawned started
          else exitedProbe (returncode == 0) stderr spawned started).Traces tr
            ((Observation.mk (.completed returncode stdout stderr) spawned atSpawn started
              finished).probe.mapError .py) := by
        split_ifs
        · exact ⟨_, (0 : ℚ), _, rfl, (), _, rfl, finished, tr, rfl, htr⟩
        · exact ⟨_, finished, tr, rfl, htr⟩
      obtain ⟨tr', htr'⟩ := hexited
      exact ⟨_, spawned, _, rfl, started, _, rfl, none, _, rfl,
        .completed returncode stdout stderr, tr', rfl, htr'⟩

/-! ### The settled probe -/

/-- What the cache gave in this trace had been measured. -/
def CacheMeasured (tr : List (Event sig)) : Prop :=
  ∀ measuredAt p, (⟨.getProbe, some (measuredAt, p)⟩ : Event sig) ∈ tr →
    ∃ o : Observation, o.probe = .ok p

/-- A way of asking for the probe ends with what it makes of an observation. -/
def EndsObserved (asked : Eff Probe) : Prop :=
  ∀ ⦃tr x⦄, CacheMeasured tr → asked.Traces tr x → ∃ o : Observation, x = o.probe.mapError .py

theorem CacheMeasured.sublist {tr tr' : List (Event sig)} (h : CacheMeasured tr)
    (hsub : tr'.Sublist tr) : CacheMeasured tr' :=
  fun measuredAt p hmem => h measuredAt p (hsub.mem hmem)

theorem endsObserved_freshProbe (timeout : ℚ) : EndsObserved (freshProbe cfg timeout) := by
  intro tr x _ h
  rcases Prog.traces_bind.mp h with ⟨p, _, _, -, hmeasured, hstored⟩ | ⟨e, hmeasured, rfl⟩
  · obtain ⟨now, _, -, -, _, -, -, rfl⟩ := hstored
    exact traces_measureProbe hmeasured
  · exact traces_measureProbe hmeasured

theorem endsObserved_cachedProbe (maxAge timeout : ℚ) :
    EndsObserved (cachedProbe cfg maxAge timeout) := by
  intro tr x hcache h
  obtain ⟨cached, tr', rfl, h⟩ := h
  have hrest : CacheMeasured tr' := hcache.sublist (List.sublist_cons_self _ _)
  cases cached with
  | none => exact endsObserved_freshProbe timeout hrest h
  | some c =>
      obtain ⟨measuredAt, p⟩ := c
      dsimp only at h
      split_ifs at h
      · obtain ⟨now, tr'', rfl, h⟩ := h
        change (if now - measuredAt ≤ maxAge then (.ret p : Eff Probe)
          else freshProbe cfg timeout).Traces tr'' x at h
        split_ifs at h
        · obtain ⟨o, ho⟩ := hcache measuredAt p List.mem_cons_self
          exact ⟨o, by rw [h.2, ho]; rfl⟩
        · exact endsObserved_freshProbe timeout (hrest.sublist (List.sublist_cons_self _ _)) h
      · exact endsObserved_freshProbe timeout hrest h

/-- Asking under the lock is asking the cache, between taking the lock and releasing it. -/
theorem traces_apiServerProbe {maxAge : ℚ} {timeout : Option ℚ} {tr : List (Event sig)}
    {x : Except Exc Probe} : (apiServerProbe cfg maxAge timeout).Traces tr x ↔
      ∃ tr', tr = ⟨.acquireProbeLock, ()⟩ :: (tr' ++ [⟨.releaseProbeLock, ()⟩]) ∧
        (cachedProbe cfg maxAge (timeout.getD cfg.probeTimeout)).Traces tr' x := by
  have hbody : ∀ tr', (tryCatch (cachedProbe cfg maxAge (timeout.getD cfg.probeTimeout))
      (fun exc => releaseProbeLock >>= fun _ => throw exc) >>= fun probe =>
        releaseProbeLock >>= fun _ => pure probe).Traces tr' x ↔
      ∃ tr₁, tr' = tr₁ ++ [⟨.releaseProbeLock, ()⟩] ∧
        (cachedProbe cfg maxAge (timeout.getD cfg.probeTimeout)).Traces tr₁ x := by
    intro tr'
    rw [Prog.traces_bind]
    simp only [Prog.traces_tryCatch]
    constructor
    · intro hx
      rcases hx with ⟨p, tr₁, tr₂, rfl, ⟨_, hcached, heq⟩ | ⟨e, _, _, -, -, hraised⟩, hreleased⟩ |
        ⟨e, ⟨_, -, heq⟩ | ⟨e', tr₁, tr₂, rfl, hcached, hraised⟩, rfl⟩
      · obtain ⟨_, _, rfl, rfl, rfl⟩ := hreleased
        exact ⟨tr₁, rfl, heq ▸ hcached⟩
      · obtain ⟨_, _, -, -, heq⟩ := hraised
        cases heq
      · cases heq
      · obtain ⟨_, _, rfl, rfl, heq⟩ := hraised
        exact ⟨tr₁, rfl, heq ▸ hcached⟩
    · intro hx
      obtain ⟨tr₁, rfl, hcached⟩ := hx
      cases x with
      | ok p => exact .inl ⟨p, tr₁, _, rfl, .inl ⟨p, hcached, rfl⟩, (), [], rfl, rfl, rfl⟩
      | error e =>
          exact .inr ⟨e, .inr ⟨e, tr₁, _, rfl, hcached, (), [], rfl, rfl, rfl⟩, rfl⟩
  constructor
  · intro h
    obtain ⟨_, tr', rfl, h⟩ := h
    obtain ⟨tr₁, rfl, hcached⟩ := (hbody tr').mp h
    exact ⟨tr₁, rfl, hcached⟩
  · intro hx
    obtain ⟨tr₁, rfl, hcached⟩ := hx
    exact ⟨(), _, rfl, (hbody _).mpr ⟨tr₁, rfl, hcached⟩⟩

theorem endsObserved_apiServerProbe (maxAge : ℚ) (timeout : Option ℚ) :
    EndsObserved (apiServerProbe cfg maxAge timeout) := by
  intro tr x hcache h
  obtain ⟨tr', rfl, hcached⟩ := traces_apiServerProbe.mp h
  refine endsObserved_cachedProbe _ _ (hcache.sublist ?_) hcached
  exact (List.sublist_append_left _ _).cons _

theorem endsObserved_settledProbe : EndsObserved (settledProbe cfg) := by
  intro tr x hcache h
  rcases Prog.traces_bind.mp h with ⟨p, tr₁, tr₂, rfl, hprobe, hthen⟩ | ⟨e, hfailed, rfl⟩
  · split_ifs at hthen
    · obtain ⟨rfl, rfl⟩ := hthen
      exact endsObserved_apiServerProbe _ _ (hcache.sublist (List.sublist_append_left _ _)) hprobe
    · exact endsObserved_apiServerProbe _ _ (hcache.sublist (List.sublist_append_right _ _)) hthen
  · exact endsObserved_apiServerProbe _ _ hcache hfailed

/-- Every observation is what some question ends with, if no answer is reused. -/
theorem exists_apiServerProbe (o : Observation) {maxAge : ℚ} (timeout : Option ℚ)
    (cached : Option (ℚ × Probe)) (hfresh : 0 < maxAge → cached = none) :
    ∃ tr, (apiServerProbe cfg maxAge timeout).Traces tr (o.probe.mapError .py) := by
  have hmeasured : ∃ tr, (freshProbe cfg (timeout.getD cfg.probeTimeout)).Traces tr
      (o.probe.mapError .py) := by
    obtain ⟨tr, htr⟩ : ∃ tr, (measureProbe cfg (timeout.getD cfg.probeTimeout)).Traces tr
      (o.probe.mapError .py) := exists_measureProbe o _
    cases hprobe : o.probe with
    | error e =>
        rw [hprobe] at htr
        exact ⟨tr, htr.bind_error⟩
    | ok p =>
        rw [hprobe] at htr
        exact ⟨_, htr.bind ⟨o.finished, _, rfl, (), [], rfl, rfl, rfl⟩⟩
  obtain ⟨tr, htr⟩ := hmeasured
  have hcached : (cachedProbe cfg maxAge (timeout.getD cfg.probeTimeout)).Traces
      (⟨.getProbe, cached⟩ :: tr) (o.probe.mapError .py) := by
    refine ⟨cached, tr, rfl, ?_⟩
    cases cached with
    | none => exact htr
    | some c =>
        obtain ⟨measuredAt, p⟩ := c
        have hold : ¬0 < maxAge := fun h => by cases hfresh h
        change (if 0 < maxAge then
            (monotonic >>= fun now => if now - measuredAt ≤ maxAge then .ret p
              else freshProbe cfg (timeout.getD cfg.probeTimeout))
          else freshProbe cfg (timeout.getD cfg.probeTimeout)).Traces tr _
        rwa [if_neg hold]
  exact ⟨_, traces_apiServerProbe.mpr ⟨_, rfl, hcached⟩⟩

/-- Every observation is what some settled probe comes from: if kubectl did not even start, the
first question and the second observe the same. -/
theorem exists_settledProbe (o : Observation) :
    ∃ tr, (settledProbe cfg).Traces tr (o.probe.mapError .py) := by
  obtain ⟨tr, htr⟩ : ∃ tr, (apiServerProbe cfg cfg.probeTtl none).Traces tr
    (o.probe.mapError .py) := exists_apiServerProbe o none none fun _ => rfl
  cases hprobe : o.probe with
  | error e =>
      rw [hprobe] at htr
      exact ⟨tr, htr.bind_error⟩
  | ok p =>
      rw [hprobe] at htr
      cases hs : p.started with
      | true =>
          refine ⟨tr, htr.bind_nil ?_⟩
          rw [hs]
          exact ⟨rfl, rfl⟩
      | false =>
          obtain ⟨tr', htr'⟩ : ∃ tr', (apiServerProbe cfg 0 (some cfg.escalatedProbeTimeout)).Traces
            tr' (o.probe.mapError .py) :=
            exists_apiServerProbe o _ (some (o.finished, p)) fun h => absurd h (lt_irrefl 0)
          refine ⟨tr ++ tr', htr.bind ?_⟩
          rw [hs, ← hprobe]
          exact htr'

/-! ### Attribution -/

/-- In this run the settled probe comes from this observation. -/
def Judges (cfg : Settings) (o : Observation) (tr : List (Event sig)) : Prop :=
  (settledProbe cfg).Traces tr (o.probe.mapError .py)

/-- The probe takes `localDelay` into its second branch. -/
structure BlamesHost (cfg : Settings) (p : Probe) : Prop where
  started : p.started = true
  answered : p.answered = true
  prompt : p.slow cfg = false
  slow_here : ∃ here, p.localSeconds = some here ∧ cfg.slowProbe ≤ here

/-- A delay is attributed from this observation without a crash: telling it returns a text, and
has a round trip where it asserts that there is one. -/
structure Attributes (cfg : Settings) (o : Observation) : Prop where
  returns : ∀ tr x, Judges cfg o tr → (localDelay cfg (settledProbe cfg)).Traces tr x →
    ∃ text, x = .ok text
  timed : ∀ p, o.probe = .ok p → BlamesHost cfg p → p.roundTrip.isSome = true

/-- The round trip that kubectl logged, if any, is a number Python converts. -/
def Observation.Readable (o : Observation) : Prop :=
  ∀ log, o.outcome.log? = some log → ∃ r, roundTrip log = .ok r

/-- kubectl answered at once without logging a response whose timing can be read, and by the
wall clock its first line came late. -/
def Observation.Untimed (cfg : Settings) (o : Observation) : Prop :=
  ∃ stdout log delay, o.outcome = .completed 0 stdout log ∧ roundTrip log = .ok none ∧
    o.seconds < cfg.slowProbe ∧ o.startup log = some delay ∧ cfg.slowProbe ≤ delay

theorem exists_judges (cfg : Settings) (o : Observation) : ∃ tr, Judges cfg o tr :=
  exists_settledProbe o

/-- A run of `localDelay` judges an observation, if what is in the cache had been measured. -/
theorem exists_judged {tr : List (Event sig)} {x : Except Exc String} (hcache : CacheMeasured tr)
    (h : (localDelay cfg (settledProbe cfg)).Traces tr x) : ∃ o, Judges cfg o tr := by
  rcases delay_cases h with ⟨exc, hfailed, -⟩ | ⟨p, hsettled, -⟩
  · obtain ⟨o, ho⟩ := endsObserved_settledProbe hcache hfailed
    exact ⟨o, by rwa [Judges, ← ho]⟩
  · obtain ⟨o, ho⟩ := endsObserved_settledProbe hcache hsettled
    exact ⟨o, by rwa [Judges, ← ho]⟩

/-- What telling the delay ends with, from an observation. -/
theorem Judges.localDelay_iff {o : Observation} {tr : List (Event sig)} (h : Judges cfg o tr)
    {x : Except Exc String} : (localDelay cfg (settledProbe cfg)).Traces tr x ↔
      x = o.probe.mapError .py >>= localVerdict cfg := by
  rw [Judges] at h
  constructor
  · intro hx
    rcases delay_cases hx with ⟨exc, hfailed, rfl⟩ | ⟨p, hsettled, rfl⟩
    · rw [(h.eq_of_prefix hfailed (List.prefix_refl tr) (List.prefix_refl tr)).2]
      rfl
    · rw [(h.eq_of_prefix hsettled (List.prefix_refl tr) (List.prefix_refl tr)).2]
      rfl
  · intro hx
    rw [hx, localDelay_eq]
    cases hprobe : o.probe with
    | error e =>
        rw [hprobe] at h
        exact h.bind_error
    | ok p =>
        rw [hprobe] at h
        exact h.bind_nil (Prog.traces_ofExcept.mpr ⟨rfl, rfl⟩)

/-- The probe of an observation cannot be had exactly when its round trip cannot be read. -/
theorem Observation.readable_iff (o : Observation) : o.Readable ↔ ∃ p, o.probe = .ok p := by
  obtain ⟨outcome, spawned, atSpawn, started, finished⟩ := o
  cases outcome with
  | osError exc => exact iff_of_true (fun log hlog => by cases hlog) ⟨_, rfl⟩
  | timedOut stderr =>
      simp only [Observation.Readable, Outcome.log?, Option.some.injEq, forall_eq',
        Observation.probe]
      cases roundTrip (stderr.getD "") <;> simp
  | completed returncode stdout stderr =>
      simp only [Observation.Readable, Outcome.log?, Option.some.injEq, forall_eq',
        Observation.probe]
      cases roundTrip stderr <;> simp

/-- A probe is an answer without a round trip on a slow host exactly if it was observed so. -/
theorem Observation.untimed_iff {o : Observation} {p : Probe} (hp : o.probe = .ok p) :
    o.Untimed cfg ↔ p.started = true ∧ p.answered = true ∧ UntimedAnswer cfg p := by
  obtain ⟨outcome, spawned, atSpawn, started, finished⟩ := o
  cases outcome with
  | osError exc =>
      obtain rfl := Except.ok.inj hp
      simp [Observation.Untimed]
  | timedOut stderr =>
      cases hr : roundTrip (stderr.getD "") with
      | error e => simp [Observation.probe, hr] at hp
      | ok r =>
          dsimp only [Observation.probe] at hp
          rw [hr] at hp
          obtain rfl := Except.ok.inj hp
          simp [Observation.Untimed]
  | completed returncode stdout stderr =>
      cases hr : roundTrip stderr with
      | error e => simp [Observation.probe, hr] at hp
      | ok r =>
          dsimp only [Observation.probe] at hp
          rw [hr] at hp
          obtain rfl := Except.ok.inj hp
          constructor
          · intro hx
            obtain ⟨_, _, delay, heq, hnone, hfast, hstartup, hslow⟩ := hx
            obtain ⟨rfl, rfl, rfl⟩ := Outcome.completed.inj heq
            obtain rfl := Except.ok.inj (hr.symm.trans hnone)
            exact ⟨rfl, rfl, rfl, hfast, delay, hstartup, hslow⟩
          · intro hx
            obtain ⟨-, hanswered, hnone, hfast, delay, hstartup, hslow⟩ := hx
            obtain rfl : returncode = 0 := by simpa using hanswered
            obtain rfl : r = none := hnone
            exact ⟨stdout, stderr, delay, rfl, hr, hfast, hstartup, hslow⟩

theorem Observation.Untimed.readable {o : Observation} (h : o.Untimed cfg) : o.Readable := by
  obtain ⟨stdout, log, _, houtcome, hr, -, -, -⟩ := h
  intro log' hlog
  rw [houtcome] at hlog
  obtain rfl := Option.some.inj hlog
  exact ⟨none, hr⟩

/-- From such an observation the assertion fails. -/
theorem Observation.Untimed.crashes {o : Observation} (h : o.Untimed cfg) {tr : List (Event sig)}
    (hjudges : Judges cfg o tr) :
    (localDelay cfg (settledProbe cfg)).Traces tr (.error (.py .assertionError)) := by
  obtain ⟨p, hprobe⟩ := o.readable_iff.mp h.readable
  obtain ⟨hs, ha, hu⟩ := (Observation.untimed_iff hprobe).mp h
  rw [hjudges.localDelay_iff, hprobe]
  exact (localVerdict_untimed hs ha hu).symm

/-- The second branch is taken without a round trip for such a probe only. -/
theorem BlamesHost.untimed {p : Probe} (h : BlamesHost cfg p) (hr : p.roundTrip = none) :
    UntimedAnswer cfg p := by
  obtain ⟨here, hlocal, hslow⟩ := h.slow_here
  have hprompt := h.prompt
  simp only [Probe.slow, Probe.localSeconds, hr, h.started, h.answered, Bool.not_true,
    Bool.false_eq_true, if_false, Bool.false_or, decide_eq_false_iff_not, not_le] at hprompt hlocal
  exact ⟨hr, hprompt, here, hlocal, hslow⟩

/-- Attributing a delay never crashes, but for a round trip that cannot be read and an answer
whose timing was not logged. -/
theorem attributed_iff (cfg : Settings) (o : Observation) :
    Attributes cfg o ↔ o.Readable ∧ ¬o.Untimed cfg := by
  constructor
  · intro h
    refine ⟨o.readable_iff.mpr ?_, fun huntimed => ?_⟩
    · obtain ⟨tr, hjudges⟩ := exists_judges cfg o
      obtain ⟨text, htext⟩ := h.returns tr _ hjudges (hjudges.localDelay_iff.mpr rfl)
      cases hprobe : o.probe with
      | ok p => exact ⟨p, rfl⟩
      | error e =>
          rw [hprobe] at htext
          cases htext
    · obtain ⟨tr, hjudges⟩ := exists_judges cfg o
      obtain ⟨text, htext⟩ := h.returns tr _ hjudges (huntimed.crashes hjudges)
      cases htext
  · intro ⟨hreadable, huntimed⟩
    obtain ⟨p, hprobe⟩ := o.readable_iff.mp hreadable
    refine ⟨fun tr x hjudges hx => ?_, fun p' hprobe' hblames => ?_⟩
    · rw [hjudges.localDelay_iff, hprobe] at hx
      cases hverdict : localVerdict cfg p with
      | ok text => exact ⟨text, hx.trans hverdict⟩
      | error exc =>
          exact absurd ((Observation.untimed_iff hprobe).mpr (localVerdict_raises hverdict))
            huntimed
    · rw [Option.isSome_iff_ne_none]
      intro hnone
      exact huntimed ((Observation.untimed_iff hprobe').mpr
        ⟨hblames.started, hblames.answered, hblames.untimed hnone⟩)

/-- What a kubectl of another log format writes. -/
def bareLog : String :=
  "I0926 15:47:11.250000   4242 loader.go:407] Config loaded from file:  /root/.kube/config\n"

/-- It answered within 0.3 s, and the wall clock was put forward by two seconds meanwhile. -/
def steppedClock : Observation where
  outcome := .completed 0 "ok" bareLog
  spawned := 7161750517 / 4
  atSpawn := ⟨15, 47, 9⟩
  started := 100
  finished := 1003 / 10

theorem bareLog_roundTrip : roundTrip bareLog = .ok none := by decide +kernel

theorem steppedClock_untimed : steppedClock.Untimed {} := by
  have hfast : steppedClock.seconds < defaultSettings.slowProbe := by decide +kernel
  have hstartup : steppedClock.startup bareLog = some 2 := by decide +kernel
  have hslow : defaultSettings.slowProbe ≤ 2 := by decide +kernel
  exact ⟨"ok", bareLog, 2, rfl, bareLog_roundTrip, hfast, hstartup, hslow⟩

/-- The assertion fails. -/
theorem delay_crashes : (∃ tr, Judges {} steppedClock tr ∧
      (localDelay {} (settledProbe {})).Traces tr (.error (.py .assertionError))) ∧
    ¬Attributes {} steppedClock := by
  obtain ⟨tr, hjudges⟩ := exists_judges {} steppedClock
  have hraised := steppedClock_untimed.crashes hjudges
  refine ⟨⟨tr, hjudges, hraised⟩, fun h => ?_⟩
  obtain ⟨text, heq⟩ := h.returns tr _ hjudges hraised
  cases heq

end NfOrchestrator.Deploy
