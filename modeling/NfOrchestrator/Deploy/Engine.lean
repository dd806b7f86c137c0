import NfOrchestrator.Effects.Prog
import NfOrchestrator.Deploy.Intent
import NfOrchestrator.Deploy.Probe

/-!
# NfOrchestrator.Deploy.Engine

The **deploy engine**: how a helm or kubectl process is run under a bound, what a
call that was killed for silence is reported as, the readiness check, and the
deploy itself.

Programs are written over the operations of `Op`: the clock, the lookup of a tool
on `PATH`, starting a process and waiting for it, and the module's globals
`_probe`, `_last_success` and `_versions`, one operation for each read and each
assignment, so that an interleaving of several threads is an interleaving of
these. Where the tests replace a module function by a fake, the function that
looks it up takes it as an argument here (`runBoundedWith`, `checkClusterWith`).
-/

namespace NfOrchestrator.Deploy

/-! ### Operations -/

/-- How `subprocess.run` can end. The texts are those after decoding. -/
inductive Outcome where
  | completed (returncode : ℤ) (stdout stderr : String)
  /-- Killed at the bound, with what it had written to stderr by then, if any. -/
  | timedOut (stderr : Option String)
  | osError (exc : OSError)
  deriving DecidableEq

inductive Op where
  | monotonic
  /-- Wall-clock time. -/
  | time
  | localtime (t : ℚ)
  | which (tool : String)
  /-- Start a process; the reply is the exception, if starting it raised one. -/
  | spawn (command : List String)
  /-- Wait for the process just started, and kill it at the bound. -/
  | finish (command : List String) (timeout : ℚ)
  | acquireProbeLock
  | releaseProbeLock
  | getProbe
  | setProbe (measuredAt : ℚ) (probe : Probe)
  | getLastSuccess
  | setLastSuccess (t : ℚ)
  | getVersions
  | setVersions (askedAt : ℚ) (problems : List String)

/-- The type of the reply to each operation. -/
abbrev Resp : Op → Type
  | .monotonic | .time => ℚ
  | .localtime _ => LocalTime
  | .which _ => Bool
  | .spawn _ => Option OSError
  | .finish _ _ => Outcome
  | .acquireProbeLock | .releaseProbeLock => Unit
  | .getProbe => Option (ℚ × Probe)
  | .getLastSuccess => Option ℚ
  | .getVersions => Option (ℚ × List String)
  | .setProbe _ _ | .setLastSuccess _ | .setVersions _ _ => Unit

abbrev sig : Signature := ⟨Op, Resp⟩

/-- A program of the engine. -/
abbrev Eff (α : Type) := Prog sig Exc α

/-- Call one operation. -/
def perform (o : Op) : Eff (Resp o) := .call (show sig.Op from o) .ret

def monotonic : Eff ℚ := perform .monotonic
def time : Eff ℚ := perform .time
def localtime (t : ℚ) : Eff LocalTime := perform (.localtime t)
def which (tool : String) : Eff Bool := perform (.which tool)
def spawn (command : List String) : Eff (Option OSError) := perform (.spawn command)
def finish (command : List String) (timeout : ℚ) : Eff Outcome :=
  perform (.finish command timeout)
def acquireProbeLock : Eff Unit := perform .acquireProbeLock
def releaseProbeLock : Eff Unit := perform .releaseProbeLock
def getProbe : Eff (Option (ℚ × Probe)) := perform .getProbe
def setProbe (measuredAt : ℚ) (probe : Probe) : Eff Unit := perform (.setProbe measuredAt probe)
def getLastSuccess : Eff (Option ℚ) := perform .getLastSuccess
def setLastSuccess (t : ℚ) : Eff Unit := perform (.setLastSuccess t)
def getVersions : Eff (Option (ℚ × List String)) := perform .getVersions
def setVersions (askedAt : ℚ) (problems : List String) : Eff Unit :=
  perform (.setVersions askedAt problems)

section wp

variable {W : Type} {Φ : Spec sig W} {w : W}

@[simp] theorem wp_monotonic {Q : Except Exc ℚ → W → Prop} :
    monotonic.wp Φ Q w ↔ Φ Op.monotonic w fun r w' => Q (.ok r) w' := Iff.rfl
@[simp] theorem wp_time {Q : Except Exc ℚ → W → Prop} :
    time.wp Φ Q w ↔ Φ Op.time w fun r w' => Q (.ok r) w' := Iff.rfl
@[simp] theorem wp_localtime {t : ℚ} {Q : Except Exc LocalTime → W → Prop} :
    (localtime t).wp Φ Q w ↔ Φ (Op.localtime t) w fun r w' => Q (.ok r) w' := Iff.rfl
@[simp] theorem wp_which {tool : String} {Q : Except Exc Bool → W → Prop} :
    (which tool).wp Φ Q w ↔ Φ (Op.which tool) w fun r w' => Q (.ok r) w' := Iff.rfl
@[simp] theorem wp_spawn {command : List String} {Q : Except Exc (Option OSError) → W → Prop} :
    (spawn command).wp Φ Q w ↔ Φ (Op.spawn command) w fun r w' => Q (.ok r) w' := Iff.rfl
@[simp] theorem wp_finish {command : List String} {timeout : ℚ}
    {Q : Except Exc Outcome → W → Prop} :
    (finish command timeout).wp Φ Q w ↔
      Φ (Op.finish command timeout) w fun r w' => Q (.ok r) w' := Iff.rfl
@[simp] theorem wp_acquireProbeLock {Q : Except Exc Unit → W → Prop} :
    acquireProbeLock.wp Φ Q w ↔ Φ Op.acquireProbeLock w fun r w' => Q (.ok r) w' := Iff.rfl
@[simp] theorem wp_releaseProbeLock {Q : Except Exc Unit → W → Prop} :
    releaseProbeLock.wp Φ Q w ↔ Φ Op.releaseProbeLock w fun r w' => Q (.ok r) w' := Iff.rfl
@[simp] theorem wp_getProbe {Q : Except Exc (Option (ℚ × Probe)) → W → Prop} :
    getProbe.wp Φ Q w ↔ Φ Op.getProbe w fun r w' => Q (.ok r) w' := Iff.rfl
@[simp] theorem wp_setProbe {t : ℚ} {p : Probe} {Q : Except Exc Unit → W → Prop} :
    (setProbe t p).wp Φ Q w ↔ Φ (Op.setProbe t p) w fun r w' => Q (.ok r) w' := Iff.rfl
@[simp] theorem wp_getLastSuccess {Q : Except Exc (Option ℚ) → W → Prop} :
    getLastSuccess.wp Φ Q w ↔ Φ Op.getLastSuccess w fun r w' => Q (.ok r) w' := Iff.rfl
@[simp] theorem wp_setLastSuccess {t : ℚ} {Q : Except Exc Unit → W → Prop} :
    (setLastSuccess t).wp Φ Q w ↔ Φ (Op.setLastSuccess t) w fun r w' => Q (.ok r) w' := Iff.rfl
@[simp] theorem wp_getVersions {Q : Except Exc (Option (ℚ × List String)) → W → Prop} :
    getVersions.wp Φ Q w ↔ Φ Op.getVersions w fun r w' => Q (.ok r) w' := Iff.rfl
@[simp] theorem wp_setVersions {t : ℚ} {problems : List String} {Q : Except Exc Unit → W → Prop} :
    (setVersions t problems).wp Φ Q w ↔
      Φ (Op.setVersions t problems) w fun r w' => Q (.ok r) w' := Iff.rfl

end wp

/-- Raise an exception of the `DeployError` hierarchy. -/
def raise {α : Type} (cls : DeployErrorClass) (message : String) : Eff α :=
  throw (.deploy ⟨cls, message⟩)

/-- A computation on Python values, as part of a program. -/
def ofPy {α : Type} (x : Except PyError α) : Eff α := Prog.ofExcept (x.mapError .py)

@[simp] theorem wp_raise_cls {W α : Type} {Φ : Spec sig W} {w : W} {cls : DeployErrorClass}
    {message : String} {Q : Except Exc α → W → Prop} :
    (raise cls message).wp Φ Q w ↔ Q (.error (.deploy ⟨cls, message⟩)) w := Iff.rfl

@[simp] theorem wp_ofPy {W α : Type} {Φ : Spec sig W} {w : W} {x : Except PyError α}
    {Q : Except Exc α → W → Prop} : (ofPy x).wp Φ Q w ↔ Q (x.mapError .py) w :=
  Prog.wp_ofExcept _

theorem wp_ofPy_eq {W α : Type} {Φ : Spec sig W} {w : W} (x : Except PyError α) :
    (ofPy x).wp Φ (fun y _ => y = x.mapError .py) w := wp_ofPy.mpr rfl

/-- What a computation on Python values returned in a run, it returns. -/
theorem returned_of_runs {W α : Type} {E : Env sig W} {x : Except PyError α} {a : α} {w w' : W}
    (h : (ofPy x).Runs E w (.ok a) w') : x = .ok a := by
  cases x with
  | ok b => exact congrArg Except.ok (Except.ok.inj h.1).symm
  | error e => cases h.1

/-- `subprocess.run(command, timeout=timeout)`. -/
def subprocessRun (command : List String) (timeout : ℚ) : Eff Outcome := do
  match ← spawn command with
  | some exc => return .osError exc
  | none => finish command timeout

@[simp] theorem wp_subprocessRun {W : Type} {Φ : Spec sig W} {w : W} {command : List String}
    {timeout : ℚ} {Q : Except Exc Outcome → W → Prop} :
    (subprocessRun command timeout).wp Φ Q w ↔ Φ (Op.spawn command) w fun r w₁ =>
      match r with
      | some exc => Q (.ok (.osError exc)) w₁
      | none => Φ (Op.finish command timeout) w₁ fun r w₂ => Q (.ok r) w₂ :=
  iff_of_eq (congrArg (Φ _ w) (funext fun r => funext fun _ => by cases r <;> rfl))

variable (cfg : Settings)

/-! ### The tools -/

def tools : List String := ["helm", "kubectl"]

/-- The tools that are not on `PATH`. -/
def missingTools : List String → Eff (List String)
  | [] => return []
  | tool :: rest => do
      let found ← which tool
      let missing ← missingTools rest
      return if found then missing else tool :: missing

def requiredHelmMajor : ℕ := 4

/-- `HELM_VERSION`. -/
def helmVersion : Regex :=
  .seq (.lit ['v']) <| .seq (.group 1 (.plus .digit)) <| .seq (.lit ['.']) <|
    .seq (.plus .digit) <| .seq (.lit ['.']) <| .seq (.plus .digit)
      (.star (.char fun c => !Unicode.isSpace c))

def versionTtl : ℚ := 60

/-- What the text of `helm version --short` says is wrong. A text that is not a
version says nothing. -/
def problemsOfVersion (reported : String) : Except PyError (List String) :=
  match helmVersion.matchAt reported.toList with
  | none => .ok []
  | some found => do
      let major ← groupInt? found 1
      if major ≠ requiredHelmMajor then
        let version := reported.toList.take (reported.toList.length - found.after.length)
        return ["helm " ++ String.ofList version ++ " is installed but Helm " ++
          toString requiredHelmMajor ++ " is required " ++
          "(server-side apply that refuses conflicting field owners, and --set-json taking a " ++
          "whole object): install Helm 4; retrying will not help"]
      else return []

/-- Ask helm its version, and keep the finding. A helm that cannot be run says
nothing. -/
def askVersion (now : ℚ) : Eff (List String) := do
  let reported := match ← subprocessRun ["helm", "version", "--short"] cfg.readTimeout with
    | .completed _ stdout _ => Str.strip stdout
    | _ => ""
  let problems ← ofPy (problemsOfVersion reported)
  setVersions now problems
  return problems

/-- Why the installed helm cannot do this orchestrator's job, or nothing. A finding
is reused for a minute. -/
def versionProblems : Eff (List String) := do
  let now ← monotonic
  match ← getVersions with
  | some (askedAt, problems) =>
      if now - askedAt < versionTtl then return problems else askVersion cfg now
  | none => askVersion cfg now

/-- Everything about this host's helm and kubectl that stops the orchestrator
working. -/
def toolProblems : Eff (List String) := do
  let missing ← missingTools tools
  let notFound := if missing.isEmpty then [] else
    [Str.join " and " missing ++ " not found on PATH on this host: install or fix PATH; " ++
      "retrying will not help"]
  if "helm" ∈ missing then return notFound
  else return notFound ++ (← versionProblems cfg)

def requireTools : Eff Unit := do
  let problems ← toolProblems cfg
  if problems.isEmpty then return () else raise .hostMisconfigured (Str.join "; " problems)

/-! ### Evidence that the cluster answered -/

/-- Record that the cluster answered us just now, whatever it answered. -/
def noteSuccess : Eff Unit := do
  let now ← monotonic
  setLastSuccess now

/-- Did any call complete within `RECENT_SUCCESS`? The global is read twice, without
the lock. -/
def answeredRecently : Eff Bool := do
  match ← getLastSuccess with
  | none => return false
  | some _ => do
      let now ← monotonic
      match ← getLastSuccess with
      | none => throw (.py .typeError)
      | some last => return decide (now - last ≤ cfg.recentSuccess)

/-! ### The readiness probe -/

def readyz : List String := ["get", "--raw=/readyz"]

/-- `-v=6`, at which client-go logs every response. -/
def probeVerbosity : String := "-v=6"

def probeCommand : List String :=
  ["kubectl", "--context", cfg.kubeContext] ++ readyz ++ [probeVerbosity]

/-- Seconds from spawning kubectl to its first log line, or `none` without one. -/
def startupDelay (log : String) (spawned : ℚ) : Eff (Option ℚ) := do
  match firstStamp log with
  | none => return none
  | some first => do
      let local' ← localtime spawned
      return some (foldMidnight (first - (local'.seconds + Int.fract spawned)))

/-- The probe of a kubectl killed at its bound, from what it had logged by then. -/
def killedProbe (written : String) (spawned started : ℚ) : Eff Probe := do
  let now ← monotonic
  let roundTrip ← ofPy (roundTrip written)
  let startup ← startupDelay written spawned
  return { answered := false, seconds := now - started, roundTrip := roundTrip,
           started := Str.strip written != "", startup := startup }

/-- The probe of a kubectl that exited. -/
def exitedProbe (answered : Bool) (log : String) (spawned started : ℚ) : Eff Probe := do
  let now ← monotonic
  let roundTrip ← ofPy (roundTrip log)
  let startup ← startupDelay log spawned
  return { answered := answered, seconds := now - started, roundTrip := roundTrip,
           startup := startup, error := if answered then "" else errorText log }

def measureProbe (timeout : ℚ) : Eff Probe := do
  let spawned ← time
  let started ← monotonic
  match ← subprocessRun (probeCommand cfg) timeout with
  | .timedOut stderr => killedProbe (stderr.getD "") spawned started
  | .osError exc => do
      let now ← monotonic
      return { answered := false, seconds := now - started, started := false,
               spawnFailure := spawnFailure "kubectl" exc,
               spawnFailure_of := fun _ h => ⟨exc, h⟩ }
  | .completed returncode _ stderr => do
      let answered := returncode == 0
      if answered then noteSuccess
      exitedProbe answered stderr spawned started

/-- Measure a probe and keep it. -/
def freshProbe (timeout : ℚ) : Eff Probe := do
  let measured ← measureProbe cfg timeout
  let now ← monotonic
  setProbe now measured
  return measured

/-- What `apiServerProbe` does while it holds the lock. -/
def cachedProbe (maxAge timeout : ℚ) : Eff Probe := do
  match ← getProbe with
  | none => freshProbe cfg timeout
  | some (measuredAt, probe) =>
      if 0 < maxAge then
        let now ← monotonic
        if now - measuredAt ≤ maxAge then return probe else freshProbe cfg timeout
      else freshProbe cfg timeout

/-- Ask `/readyz`, or reuse an answer no older than `maxAge` seconds. A `maxAge` of
zero or less always measures. -/
def apiServerProbe (maxAge : ℚ) (timeout : Option ℚ) : Eff Probe := do
  acquireProbeLock
  let probe ← tryCatch (cachedProbe cfg maxAge (timeout.getD cfg.probeTimeout)) fun exc => do
    releaseProbeLock
    throw exc
  releaseProbeLock
  return probe

/-- The cached probe, or — if it never got kubectl started — one asked with more
time. -/
def settledProbe : Eff Probe := do
  let probe ← apiServerProbe cfg cfg.probeTtl none
  if probe.started then return probe
  else apiServerProbe cfg 0 (some cfg.escalatedProbeTimeout)

/-! ### A call that was killed for silence

`settled` is the program that yields the settled probe: `settledProbe`, or what a
caller puts in its place. -/

/-- Why this host, rather than the cluster, is the likely reason a call was slow. -/
def localDelay (settled : Eff Probe) : Eff String := do
  let probe ← settled
  if !probe.started then
    return "this host could not start its readiness probe within " ++ Str.fixed 2 probe.seconds ++
      "s: it is too overloaded to tell whether the cluster is answering"
  match probe.localSeconds with
  | none => return ""
  | some here =>
      if probe.answered && !probe.slow cfg && decide (cfg.slowProbe ≤ here) then
        match probe.roundTrip with
        | none => throw (.py .assertionError)
        | some r =>
            return "the API server answered its readiness probe in " ++ Str.fixed 0 (r * 1000) ++
              "ms while this host took " ++ Str.fixed 2 here ++
              "s to run it: the delay is this host's, not the cluster's"
      else return ""

def probeEvidence : String := "the API server answers its readiness probe"

def recentEvidence : String := "the cluster answered another call moments ago"

/-- Why we can say the cluster is there, after a call of ours was killed for
silence. -/
def reachabilityEvidence (settled : Eff Probe) : Eff String := do
  let probe ← settled
  if probe.answered then return probeEvidence
  if ← answeredRecently cfg then return recentEvidence
  return ""

/-- What every report of a killed call starts with. -/
def noAnswer (verb : String) (timeout : ℚ) : String :=
  verb ++ " did not answer within " ++ Str.general timeout ++ "s"

/-- The report of a killed call that something else says the cluster is there for. -/
def busyReport (verb : String) (timeout : ℚ) (evidence : String) : DeployError :=
  ⟨.clusterBusy, noAnswer verb timeout ++ ", but " ++ evidence ++
    ": it is reachable and not serving this client (throttled or overloaded)"⟩

/-- What a killed call is reported as: this host, then a busy cluster, then an
unreachable one. The readiness check does not ask itself for evidence. -/
def afterTimeout (settled : Eff Probe) (verb : String) (args : List String) (timeout : ℚ) :
    Eff String := do
  if args ≠ readyz then
    match (← settled).spawnFailure with
    | some failure => throw (.deploy failure)
    | none => do
        let here ← localDelay cfg settled
        if here ≠ "" then
          raise .hostOverloaded (noAnswer verb timeout ++ ", and " ++ here)
        else do
          let evidence ← reachabilityEvidence cfg settled
          if evidence ≠ "" then throw (.deploy (busyReport verb timeout evidence))
          else raise .clusterUnreachable (noAnswer verb timeout)
  else raise .clusterUnreachable (noAnswer verb timeout)

/-! ### Running a command -/

/-- `stderr.strip() or stdout.strip()`. -/
def complaint (stdout stderr : String) : String :=
  if Str.strip stderr != "" then Str.strip stderr else Str.strip stdout

/-- What a process that could not be started is reported as. -/
def afterOSError (tool : String) (exc : OSError) : Eff String :=
  match spawnFailure tool exc with
  | none => throw (.os exc)
  | some failure => throw (.deploy failure)

/-- Raise a classified error. Whatever it says, the cluster was there to say it, unless
it was unreachable. -/
def refuse (error : DeployError) : Eff String := do
  if error.cls ≠ .clusterUnreachable then noteSuccess
  throw (.deploy error)

/-- What a process that exited is reported as. -/
def afterExit (returncode : ℤ) (stdout stderr : String) : Eff String :=
  if returncode ≠ 0 then refuse (classifyError (complaint stdout stderr))
  else do
    noteSuccess
    return stdout

/-- Run a cluster command, and say which end failed rather than wait indefinitely. -/
def runBoundedWith (settled : Eff Probe) (command args : List String) (timeout : ℚ) :
    Eff String := do
  match ← subprocessRun command timeout with
  | .timedOut _ =>
      afterTimeout cfg settled (Str.join " " (command.take 1 ++ args.take 1)) args timeout
  | .osError exc => afterOSError (command.headD "") exc
  | .completed returncode stdout stderr => afterExit returncode stdout stderr

def runBounded (command args : List String) (timeout : ℚ) : Eff String :=
  runBoundedWith cfg (settledProbe cfg) command args timeout

def writeVerbs : List String := ["upgrade", "install", "uninstall", "rollback"]

def timeoutFor (args : List String) : ℚ :=
  match args with
  | [] => cfg.readTimeout
  | verb :: _ => if verb ∈ writeVerbs then cfg.writeTimeout else cfg.readTimeout

def runHelm (args : List String) : Eff String :=
  runBounded cfg ("helm" :: args) args (timeoutFor cfg args)

def runKubectl (args : List String) : Eff String :=
  runBounded cfg (["kubectl", "--context", cfg.kubeContext] ++ args) args (timeoutFor cfg args)

/-! ### The readiness check -/

/-- Raise unless the probe answered, and say whose fault it is. -/
def checkClusterWith (measure : Eff Probe) : Eff String := do
  requireTools cfg
  let probe ← measure
  if probe.answered then return "ok"
  match probe.spawnFailure with
  | some failure => throw (.deploy failure)
  | none =>
      if probe.error ≠ "" then throw (.deploy (classifyError probe.error))
      else if !probe.started then
        raise .hostOverloaded ("kubectl get did not start within " ++
          Str.general cfg.readTimeout ++ "s: this host is too overloaded to tell whether the " ++
          "cluster is answering")
      else raise .clusterUnreachable (noAnswer "kubectl get" cfg.readTimeout)

def checkCluster : Eff String :=
  checkClusterWith cfg (apiServerProbe cfg 0 (some cfg.readTimeout))

/-! ### Deploying -/

/-- What `deploy` returns. -/
structure Deployed where
  release : String
  status : Json
  revision : Json
  values : Json

def deployArgs (intent : Intent) (forceConflicts : Bool) : List String :=
  ["upgrade", "--install", releaseName intent, cfg.chartPath, "--kube-context", cfg.kubeContext,
    "--set-json", Json.dumps (renderValues intent), "--output", "json"] ++
    if forceConflicts then ["--force-conflicts"] else []

/-- Apply an intent; `forceConflicts` takes ownership of fields another manager
holds. -/
def deploy (intent : Intent) (forceConflicts : Bool) : Eff Deployed := do
  requireTools cfg
  let output ← runHelm cfg (deployArgs cfg intent forceConflicts)
  let info ← ofPy (do (← Json.loads output).subscript "info")
  let status ← ofPy (info.subscript "status")
  let revision ← ofPy (do (← Json.loads output).subscript "version")
  return { release := releaseName intent, status := status, revision := revision,
           values := renderValues intent }

end NfOrchestrator.Deploy
