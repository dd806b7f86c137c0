import NfOrchestrator.Deploy.Engine

/-!
# NfOrchestrator.Deploy.Verdicts

What each of the two routes **concludes from one probe**: the readiness check
(`checkCluster`) and a call that was killed for silence (`runBounded`).

**Key idea.** Once the probe is given, a route calls few operations more, and on a
host that answers those in one way it has one result: a function of the probe
(`checkVerdict`, `callVerdict`). Comparing the routes is then comparing two
functions.
-/

namespace NfOrchestrator.Deploy

variable (cfg : Settings)

/-! ### The hosts the routes run on -/

/-- Both tools are on `PATH`, and helm is of the right version whenever it says one. -/
def toolsInOrder : Env sig Unit := fun o _ r _ =>
  match o, r with
  | .which _, found => found = true
  | .getVersions, cached => ∀ c, cached = some c → c.2 = []
  | .finish _ _, .completed _ stdout _ => problemsOfVersion (Str.strip stdout) = .ok []
  | _, _ => True

/-- The process is killed at its bound; `last` is what `_last_success` holds then,
and `now` is what the clock reads. -/
def killed (last : Option ℚ) (now : ℚ) : Env sig Unit := fun o _ r _ =>
  match o, r with
  | .spawn _, failure => failure = none
  | .finish _ _, outcome => ∃ stderr, outcome = .timedOut stderr
  | .getLastSuccess, t => t = last
  | .monotonic, t => t = now
  | _, _ => True

/-- A reply of the right type to each operation. -/
def blankReply : (o : Op) → Resp o
  | .monotonic | .time => (0 : ℚ)
  | .localtime _ => ⟨0, 0, 0⟩
  | .which _ => true
  | .spawn _ => none
  | .finish _ _ => .timedOut none
  | .getProbe | .getLastSuccess | .getVersions => none
  | .acquireProbeLock | .releaseProbeLock => ()
  | .setProbe _ _ | .setLastSuccess _ | .setVersions _ _ => ()

theorem toolsInOrder_total : toolsInOrder.Total := by
  intro o w
  have r : Resp o := blankReply o
  cases o with
  | getVersions => exact ⟨none, (), fun c hc => by cases hc⟩
  | which tool => exact ⟨true, (), rfl⟩
  | finish command timeout => exact ⟨.timedOut none, (), trivial⟩
  | _ => exact ⟨r, (), trivial⟩

theorem killed_total (last : Option ℚ) (now : ℚ) : (killed last now).Total := by
  intro o w
  have r : Resp o := blankReply o
  cases o with
  | spawn command => exact ⟨none, (), rfl⟩
  | finish command timeout => exact ⟨.timedOut none, (), none, rfl⟩
  | getLastSuccess => exact ⟨last, (), rfl⟩
  | monotonic => exact ⟨now, (), rfl⟩
  | _ => exact ⟨r, (), trivial⟩

/-! ### The readiness check -/

theorem wp_missingTools_inOrder (names : List String) :
    (missingTools names).wp toolsInOrder.spec (fun x _ => x = .ok []) () := by
  induction names with
  | nil => rfl
  | cons tool rest ih =>
      rw [missingTools, Prog.wp_bind, wp_which, Env.spec_apply]
      rintro found - rfl
      rw [Prog.bindPost_ok, Prog.wp_bind]
      refine Prog.wp_mono toolsInOrder.spec_mono ?_ ih
      rintro x - rfl
      rfl

theorem wp_askVersion_inOrder (now : ℚ) :
    (askVersion cfg now).wp toolsInOrder.spec (fun x _ => x = .ok []) () := by
  have hblank : problemsOfVersion "" = .ok [] := by decide +kernel
  simp only [askVersion, Prog.wp_bind, wp_subprocessRun, Env.spec_apply]
  rintro (_ | failure) - -
  · rintro (⟨rc, stdout, stderr⟩ | stderr | failure) ⟨⟩ hr
    · simp only [toolsInOrder] at hr
      simp [hr, Except.mapError]
    · simp [hblank, Except.mapError]
    · simp [hblank, Except.mapError]
  · simp [hblank, Except.mapError]

theorem wp_versionProblems_inOrder :
    (versionProblems cfg).wp toolsInOrder.spec (fun x _ => x = .ok []) () := by
  simp only [versionProblems, Prog.wp_bind, wp_monotonic, wp_getVersions, Env.spec_apply,
    Prog.bindPost_ok]
  intro now _ _ cached _ hcached
  cases cached with
  | none => exact wp_askVersion_inOrder cfg now
  | some c =>
      obtain ⟨askedAt, problems⟩ := c
      obtain rfl : problems = [] := hcached _ rfl
      dsimp only
      split
      · rfl
      · exact wp_askVersion_inOrder cfg now

theorem wp_requireTools_inOrder :
    (requireTools cfg).wp toolsInOrder.spec (fun x _ => x = .ok ()) () := by
  simp only [requireTools, toolProblems, Prog.wp_bind]
  refine Prog.wp_mono toolsInOrder.spec_mono ?_ (wp_missingTools_inOrder tools)
  rintro x ⟨⟩ rfl
  rw [Prog.bindPost_ok, if_neg List.not_mem_nil, Prog.wp_bind]
  refine Prog.wp_mono toolsInOrder.spec_mono ?_ (wp_versionProblems_inOrder cfg)
  rintro x ⟨⟩ rfl
  rfl

/-- What the readiness check ends with when it measures `p`. -/
def checkVerdict (p : Probe) : Except Exc String :=
  if p.answered then .ok "ok"
  else
    match p.spawnFailure with
    | some failure => .error (.deploy failure)
    | none =>
        if p.error ≠ "" then .error (.deploy (classifyError p.error))
        else if !p.started then
          .error (.deploy ⟨.hostOverloaded, "kubectl get did not start within " ++
            Str.general cfg.readTimeout ++ "s: this host is too overloaded to tell whether the " ++
            "cluster is answering"⟩)
        else .error (.deploy ⟨.clusterUnreachable, noAnswer "kubectl get" cfg.readTimeout⟩)

theorem wp_checkCluster_inOrder (p : Probe) :
    (checkClusterWith cfg (pure p)).wp toolsInOrder.spec (fun x _ => x = checkVerdict cfg p)
      () := by
  rw [checkClusterWith, Prog.wp_bind]
  refine Prog.wp_mono toolsInOrder.spec_mono ?_ (wp_requireTools_inOrder cfg)
  rintro x ⟨⟩ rfl
  rw [Prog.bindPost_ok, checkVerdict, Prog.pure_def, Prog.ret_bind]
  cases p.answered with
  | true => rfl
  | false =>
      cases p.spawnFailure with
      | some failure => rfl
      | none =>
          dsimp only
          split_ifs <;> rfl

/-! ### A call that was killed for silence -/

/-- What `localDelay` says of a probe. -/
def localVerdict (p : Probe) : Except Exc String :=
  if !p.started then
    .ok ("this host could not start its readiness probe within " ++ Str.fixed 2 p.seconds ++
      "s: it is too overloaded to tell whether the cluster is answering")
  else
    match p.localSeconds with
    | none => .ok ""
    | some here =>
        if p.answered && !p.slow cfg && decide (cfg.slowProbe ≤ here) then
          match p.roundTrip with
          | none => .error (.py .assertionError)
          | some r =>
              .ok ("the API server answered its readiness probe in " ++ Str.fixed 0 (r * 1000) ++
                "ms while this host took " ++ Str.fixed 2 here ++
                "s to run it: the delay is this host's, not the cluster's")
        else .ok ""

theorem localDelay_pure (p : Probe) :
    localDelay cfg (pure p) = Prog.ofExcept (localVerdict cfg p) := by
  simp only [localDelay, localVerdict, Prog.pure_def, Prog.ret_bind, Prog.throw_def]
  cases p.started with
  | false => rfl
  | true =>
      rw [Bool.not_true, if_neg Bool.false_ne_true, if_neg Bool.false_ne_true]
      cases p.localSeconds with
      | none => rfl
      | some here =>
          dsimp only
          split_ifs
          · cases p.roundTrip <;> rfl
          · rfl

/-- Does `_last_success`, read when the clock says `now`, count as an answer moments
ago? -/
def recent (last : Option ℚ) (now : ℚ) : Bool :=
  match last with
  | none => false
  | some t => decide (now - t ≤ cfg.recentSuccess)

/-- What `reachabilityEvidence` says of a probe. -/
def evidenceVerdict (last : Option ℚ) (now : ℚ) (p : Probe) : String :=
  if p.answered then probeEvidence else if recent cfg last now then recentEvidence else ""

/-- What a call other than the readiness check ends with when it was killed and the
settled probe is `p`. -/
def callVerdict (last : Option ℚ) (now : ℚ) (p : Probe) (verb : String) (timeout : ℚ) :
    Except Exc String :=
  match p.spawnFailure with
  | some failure => .error (.deploy failure)
  | none =>
      match localVerdict cfg p with
      | .error e => .error e
      | .ok here =>
          if here ≠ "" then
            .error (.deploy ⟨.hostOverloaded, noAnswer verb timeout ++ ", and " ++ here⟩)
          else if evidenceVerdict cfg last now p ≠ "" then
            .error (.deploy (busyReport verb timeout (evidenceVerdict cfg last now p)))
          else .error (.deploy ⟨.clusterUnreachable, noAnswer verb timeout⟩)

variable {cfg} {last : Option ℚ} {now : ℚ}

theorem wp_answeredRecently_killed :
    (answeredRecently cfg).wp (killed last now).spec (fun x _ => x = .ok (recent cfg last now))
      () := by
  simp only [answeredRecently, Prog.wp_bind, wp_getLastSuccess, Env.spec_apply, killed]
  rintro t ⟨⟩ rfl
  cases t with
  | none => rfl
  | some t =>
      simp only [Prog.bindPost_ok, Prog.wp_bind, wp_monotonic, wp_getLastSuccess, Env.spec_apply,
        killed]
      rintro n ⟨⟩ rfl u ⟨⟩ rfl
      rfl

theorem wp_reachabilityEvidence_killed (p : Probe) :
    (reachabilityEvidence cfg (pure p)).wp (killed last now).spec
      (fun x _ => x = .ok (evidenceVerdict cfg last now p)) () := by
  rw [reachabilityEvidence, Prog.pure_def, Prog.ret_bind, evidenceVerdict]
  cases p.answered with
  | true => rfl
  | false =>
      simp only [Bool.false_eq_true, if_false, Prog.pure_def, Prog.wp_bind]
      refine Prog.wp_mono (killed last now).spec_mono ?_ wp_answeredRecently_killed
      rintro x ⟨⟩ rfl
      rw [Prog.bindPost_ok]
      split <;> rfl

theorem wp_afterTimeout_killed (p : Probe) {args : List String} (hargs : args ≠ readyz)
    (verb : String) (timeout : ℚ) :
    (afterTimeout cfg (pure p) verb args timeout).wp (killed last now).spec
      (fun x _ => x = callVerdict cfg last now p verb timeout) () := by
  rw [afterTimeout, if_pos hargs, Prog.pure_def, Prog.ret_bind, callVerdict]
  cases p.spawnFailure with
  | some failure => rfl
  | none =>
      dsimp only
      rw [← Prog.pure_def, localDelay_pure, Prog.wp_bind, Prog.wp_ofExcept]
      cases localVerdict cfg p with
      | error e => rfl
      | ok here =>
          rw [Prog.bindPost_ok]
          by_cases hhere : here = ""
          · simp only [hhere, ne_eq, not_true_eq_false, if_false, Prog.wp_bind]
            refine Prog.wp_mono (killed last now).spec_mono ?_ (wp_reachabilityEvidence_killed p)
            rintro x ⟨⟩ rfl
            rw [Prog.bindPost_ok]
            split <;> rfl
          · simp only [ne_eq, hhere, not_false_eq_true, if_true]
            rfl

theorem wp_runBounded_killed (p : Probe) (command : List String) {args : List String}
    (hargs : args ≠ readyz) (timeout : ℚ) :
    (runBoundedWith cfg (pure p) command args timeout).wp (killed last now).spec
      (fun x _ => x = callVerdict cfg last now p
        (Str.join " " (command.take 1 ++ args.take 1)) timeout) () := by
  simp only [runBoundedWith, Prog.wp_bind, wp_subprocessRun, Env.spec_apply, killed]
  rintro failure ⟨⟩ rfl outcome ⟨⟩ ⟨stderr, rfl⟩
  exact wp_afterTimeout_killed p hargs _ timeout

/-! ### What the verdicts say -/

/-- The class of the `DeployError` a route raised, if it raised one. -/
def raisedClass : Except Exc String → Option DeployErrorClass
  | .error (.deploy e) => some e.cls
  | _ => none

/-- A probe that answered fast and logged no round trip, on a host that took long to
start kubectl. `localDelay` has no round trip to report for it and fails an
assertion. -/
def UntimedAnswer (cfg : Settings) (p : Probe) : Prop :=
  p.roundTrip = none ∧ p.seconds < cfg.slowProbe ∧ ∃ s, p.startup = some s ∧ cfg.slowProbe ≤ s

theorem localVerdict_not_started {p : Probe} (h : p.started = false) :
    ∃ here, here ≠ "" ∧ localVerdict cfg p = .ok here := by
  refine ⟨_, ?_, by rw [localVerdict, h]; rfl⟩
  simp

/-- A probe that started and did not answer says nothing about this host. -/
theorem localVerdict_silent {p : Probe} (hs : p.started = true) (ha : p.answered = false) :
    localVerdict cfg p = .ok "" := by
  simp only [localVerdict, hs, ha, Bool.not_true, Bool.false_eq_true, if_false, Bool.false_and]
  cases p.localSeconds <;> rfl

theorem localVerdict_untimed {p : Probe} (hs : p.started = true) (ha : p.answered = true)
    (hu : UntimedAnswer cfg p) : localVerdict cfg p = .error (.py .assertionError) := by
  obtain ⟨hr, hfast, s, hstartup, hslow⟩ := hu
  have hnot : p.slow cfg = false := by
    simp [Probe.slow, hr, hs, ha, hfast]
  simp [localVerdict, Probe.localSeconds, hr, hs, ha, hnot, hstartup, hslow]

theorem localVerdict_timed {p : Probe} (hs : p.started = true) (ha : p.answered = true)
    (hu : ¬ UntimedAnswer cfg p) : ∃ here, localVerdict cfg p = .ok here := by
  simp only [localVerdict, hs, ha, Bool.not_true, Bool.false_eq_true, if_false, Bool.true_and]
  cases hr : p.roundTrip with
  | some r =>
      simp only [Probe.localSeconds, hr]
      split
      · exact ⟨_, rfl⟩
      · exact ⟨_, rfl⟩
  | none =>
      simp only [Probe.localSeconds, hr, hs, Bool.not_true, Bool.false_eq_true, if_false]
      cases hst : p.startup with
      | none => exact ⟨_, rfl⟩
      | some here =>
          have hgap : (!p.slow cfg && decide (cfg.slowProbe ≤ here)) = false := by
            rw [Bool.eq_false_iff]
            intro hboth
            simp only [Probe.slow, hr, hs, ha, Bool.and_eq_true, Bool.not_eq_true',
              decide_eq_true_eq] at hboth
            refine hu ⟨hr, ?_, here, hst, hboth.2⟩
            simpa using hboth.1
          simp only [hgap, Bool.false_eq_true, if_false]
          exact ⟨_, rfl⟩

/-- A killed call whose settled probe answered is never reported as an unreachable
cluster. -/
theorem callVerdict_answered {p : Probe} {verb : String} {timeout : ℚ}
    (hf : p.spawnFailure = none) (hs : p.started = true) (ha : p.answered = true)
    (hu : ¬ UntimedAnswer cfg p) :
    raisedClass (callVerdict cfg last now p verb timeout) = some .hostOverloaded ∨
      raisedClass (callVerdict cfg last now p verb timeout) = some .clusterBusy := by
  obtain ⟨here, hlocal⟩ := localVerdict_timed hs ha hu
  have hevidence : evidenceVerdict cfg last now p ≠ "" := by
    simp [evidenceVerdict, ha, probeEvidence]
  simp only [callVerdict, hf, hlocal]
  by_cases hhere : here = ""
  · rw [if_neg (not_not.mpr hhere), if_pos hevidence]
    exact .inr rfl
  · rw [if_pos hhere]
    exact .inl rfl

theorem callVerdict_answered_ne {p : Probe} {verb : String} {timeout : ℚ}
    (hf : p.spawnFailure = none) (hs : p.started = true) (ha : p.answered = true)
    (hu : ¬ UntimedAnswer cfg p) :
    raisedClass (callVerdict cfg last now p verb timeout) ≠ some .clusterUnreachable := by
  have hcls : raisedClass (callVerdict cfg last now p verb timeout) = some .hostOverloaded ∨
      raisedClass (callVerdict cfg last now p verb timeout) = some .clusterBusy :=
    callVerdict_answered hf hs ha hu
  rcases hcls with h | h
  · rw [h]; decide
  · rw [h]; decide

theorem callVerdict_untimed {p : Probe} {verb : String} {timeout : ℚ}
    (hf : p.spawnFailure = none) (hs : p.started = true) (ha : p.answered = true)
    (hu : UntimedAnswer cfg p) :
    callVerdict cfg last now p verb timeout = .error (.py .assertionError) := by
  simp only [callVerdict, hf, localVerdict_untimed hs ha hu]

theorem callVerdict_not_started {p : Probe} {verb : String} {timeout : ℚ}
    (hf : p.spawnFailure = none) (hs : p.started = false) :
    raisedClass (callVerdict cfg last now p verb timeout) = some .hostOverloaded := by
  have hnot : ∃ here, here ≠ "" ∧ localVerdict cfg p = .ok here := localVerdict_not_started hs
  obtain ⟨here, hhere, hlocal⟩ := hnot
  simp only [callVerdict, hf, hlocal, if_pos hhere]
  rfl

/-- A killed call whose settled probe started and did not answer is a busy cluster
when another call was answered recently, and an unreachable one otherwise. -/
theorem callVerdict_silent {p : Probe} {verb : String} {timeout : ℚ}
    (hf : p.spawnFailure = none) (hs : p.started = true) (ha : p.answered = false) :
    raisedClass (callVerdict cfg last now p verb timeout) =
      some (if recent cfg last now then .clusterBusy else .clusterUnreachable) := by
  simp only [callVerdict, hf, localVerdict_silent hs ha, ne_eq, not_true_eq_false, if_false,
    evidenceVerdict, ha, Bool.false_eq_true]
  cases recent cfg last now with
  | true => rw [if_pos rfl, if_pos (by simp [recentEvidence])]; rfl
  | false => rw [if_neg Bool.false_ne_true, if_neg (by simp)]; rfl

end NfOrchestrator.Deploy
