import NfOrchestrator.Deploy.Listing
import NfOrchestrator.Metrics.Scrape

/-!
# NfOrchestrator.Metrics.Collect

`LifecycleCollector.collect`: **one scrape**, from listing the releases to the gauges it
emits. The names come from `release_names`, which the tests replace by a fake, so it is an
argument of `collect`; `releaseNames` is the one it is run with.

A sample's value is an exact rational, as a float's is elsewhere. A replica count comes
from a release's values and may be too large for a float; the other counts are lengths of
lists, and never are.
-/

namespace NfOrchestrator.Metrics

open Deploy Reconciler

/-! ### Gauges -/

structure GaugeMetricFamily where
  name : String
  documentation : String
  /-- The names of the labels. -/
  labels : List String := []
  /-- The values of the labels of each sample, and its own. -/
  samples : List (List String × ℚ) := []
  deriving DecidableEq

def GaugeMetricFamily.addMetric (family : GaugeMetricFamily) (labels : List String) (value : ℚ) :
    GaugeMetricFamily :=
  { family with samples := family.samples ++ [(labels, value)] }

@[simp] theorem GaugeMetricFamily.addMetric_name (family : GaugeMetricFamily)
    (labels : List String) (value : ℚ) : (family.addMetric labels value).name = family.name := rfl

@[simp] theorem GaugeMetricFamily.addMetric_samples (family : GaugeMetricFamily)
    (labels : List String) (value : ℚ) :
    (family.addMetric labels value).samples = family.samples ++ [(labels, value)] := rfl

def clusterReachable : GaugeMetricFamily where
  name := "nf_cluster_reachable"
  documentation := "1 when the orchestrator could reach the cluster during this scrape"

def deploymentState : GaugeMetricFamily where
  name := "nf_deployment_state"
  documentation := "1 for the release's current lifecycle state, 0 for the others"
  labels := ["release", "state"]

def deploymentDesiredReplicas : GaugeMetricFamily where
  name := "nf_deployment_desired_replicas"
  documentation := "Replicas the intent asked for, read back from the release values"
  labels := ["release"]

def deploymentReadyReplicas : GaugeMetricFamily where
  name := "nf_deployment_ready_replicas"
  documentation := "Pods of the release whose containers all report ready"
  labels := ["release"]

def lastOperationState : GaugeMetricFamily where
  name := "nf_last_operation_state"
  documentation := "1 for the state of the release's last lifecycle operation, 0 for the others"
  labels := ["release", "state"]

def clusterBusy : GaugeMetricFamily where
  name := "nf_cluster_busy"
  documentation := "1 when the API server was reachable but did not serve the orchestrator " ++
    "this scrape (throttled or overloaded)"

def clusterProbeSeconds : GaugeMetricFamily where
  name := "nf_cluster_probe_seconds"
  documentation := "How long the API server took to answer its readiness probe this scrape, " ++
    "request to response as client-go measured it"

def orchestratorProbeLocalSeconds : GaugeMetricFamily where
  name := "nf_orchestrator_probe_local_seconds"
  documentation := "How much of this scrape's readiness probe was spent on the orchestrator's " ++
    "own host, mostly starting kubectl"

def orchestratorExhausted : GaugeMetricFamily where
  name := "nf_orchestrator_exhausted"
  documentation := "1 when this scrape could not start a process or thread it needed: a pids " ++
    "or memory limit on the orchestrator's own host"

def orchestratorMisconfigured : GaugeMetricFamily where
  name := "nf_orchestrator_misconfigured"
  documentation := "1 when this scrape found helm or kubectl missing or not executable on the " ++
    "orchestrator's own host"

def releasesUnreported : GaugeMetricFamily where
  name := "nf_releases_unreported"
  documentation := "Releases listed this scrape that emitted no lifecycle series, by reason"
  labels := ["reason"]

def releaseReported : GaugeMetricFamily where
  name := "nf_release_reported"
  documentation := "1 if the release's lifecycle series were emitted this scrape, 0 if not"
  labels := ["release"]

attribute [simps name samples] clusterReachable clusterBusy orchestratorExhausted
  orchestratorMisconfigured

/-- `1.0 if b else 0.0`. -/
def flag (b : Bool) : ℚ := if b then 1 else 0

/-- `float(n)`. -/
def toFloat (n : ℤ) : Except PyError ℚ :=
  if Json.doubleOverflow ≤ |(n : ℚ)| then .error .overflowError else .ok n

/-! ### The probe -/

/-- Wait for the scrape's probe and record what it says about each end. -/
def recordProbe (started : Bool) (deadline : ℚ) (clusterSeconds localSeconds : GaugeMetricFamily) :
    Scrape (Option Probe × GaugeMetricFamily × GaugeMetricFamily) := do
  if !started then return (none, clusterSeconds, localSeconds)
  let now ← engine monotonic
  let _ ← perform (.joinProber (max 0 (deadline - now) + 1 / 4))
  match ← perform .measured with
  | none => return (none, clusterSeconds, localSeconds)
  | some probe => do
      let clusterSeconds := match probe.roundTrip with
        | some seconds => clusterSeconds.addMetric [] seconds
        | none => if probe.started then clusterSeconds.addMetric [] probe.seconds
            else clusterSeconds
      let localSeconds := match probe.localSeconds with
        | some seconds => localSeconds.addMetric [] seconds
        | none => localSeconds
      return (some probe, clusterSeconds, localSeconds)

/-! ### The releases -/

/-- The members of the two enumerations, in their order. -/
def states : List State := [.notInstantiated, .instantiating, .instantiated, .failed]

def operationStates : List OperationState := [.processing, .completed, .failed, .unknown]

/-- What `collect` knows while it goes through the futures. -/
structure Tally where
  exhausted : Bool
  misconfigured : Bool
  late : ℕ := 0
  errored : ℕ := 0
  refused : ℕ := 0
  ours : ℕ := 0
  reported : GaugeMetricFamily := releaseReported
  state : GaugeMetricFamily := deploymentState
  desired : GaugeMetricFamily := deploymentDesiredReplicas
  ready : GaugeMetricFamily := deploymentReadyReplicas
  operation : GaugeMetricFamily := lastOperationState

/-- One sample for each member of an enumeration: 1 for the current one. -/
def addMembers {α : Type} [DecidableEq α] (family : GaugeMetricFamily) (name : String)
    (members : List α) (value : α → String) (current : α) : GaugeMetricFamily :=
  members.foldl (fun family member =>
    family.addMetric [name, value member] (flag (current = member))) family

/-- The lifecycle series of a release that was read. -/
def Tally.emit (t : Tally) (name : String) (current : Report) : Except PyError Tally := do
  let desired ← toFloat current.desiredReplicas
  return { t with
    reported := t.reported.addMetric [name] 1
    state := addMembers t.state name states State.value current.state
    desired := t.desired.addMetric [name] desired
    ready := t.ready.addMetric [name] current.readyReplicas
    operation := addMembers t.operation name operationStates OperationState.value
      current.lastOperation.state }

/-- What the loop does with one release. -/
def Tally.add (t : Tally) (name : String) (current : Option Snapshot) : Except PyError Tally :=
  let silent := t.reported.addMetric [name] 0
  match current with
  | none => .ok { t with late := t.late + 1, reported := silent }
  | some (.unread .exhausted) =>
      .ok { t with exhausted := true, ours := t.ours + 1, reported := silent }
  | some (.unread .misconfigured) =>
      .ok { t with misconfigured := true, ours := t.ours + 1, reported := silent }
  | some (.unread .host) => .ok { t with ours := t.ours + 1, reported := silent }
  | some (.unread .busy) => .ok { t with refused := t.refused + 1, reported := silent }
  | some (.unread .none) => .ok { t with errored := t.errored + 1, reported := silent }
  | some (.dict current) => t.emit name current

/-- The loop over the futures. -/
def account (t : Tally) : List (String × Future) → Scrape Tally
  | [] => return t
  | (name, future) :: rest => do
      let current ← future.poll
      let t ← engine (ofPy (t.add name current))
      account t rest

def Tally.unreported (t : Tally) : GaugeMetricFamily :=
  (((releasesUnreported.addMetric ["deadline"] t.late).addMetric ["error"] t.errored).addMetric
    ["busy"] t.refused).addMetric ["host"] t.ours

@[simp] theorem Tally.unreported_name (t : Tally) :
    t.unreported.name = "nf_releases_unreported" := rfl

variable (cfg : Settings)

/-- What is known before the releases are reconciled. -/
structure Findings where
  deadline : ℚ
  proberStarted : Bool
  exhausted : Bool
  misconfigured : Bool
  throttled : Bool := false
  deriving DecidableEq

/-- What `collect` does once the releases and their pods are listed. -/
def collectListed (found : Findings) (names : List String) (pods : Option PodsByRelease) :
    Scrape (List GaugeMetricFamily) := do
  let futures ← reconcileWithin cfg names pods found.deadline
  let t ← account { exhausted := found.exhausted, misconfigured := found.misconfigured } futures
  let (probe, probeSeconds, probeLocal) ← recordProbe found.proberStarted found.deadline
    clusterProbeSeconds orchestratorProbeLocalSeconds
  let exhausted := t.exhausted || probe.any Probe.exhausted
  let misconfigured := t.misconfigured || probe.any fun p =>
    p.spawnFailure.any fun e => e.cls == .hostMisconfigured
  let busy := found.throttled || t.refused != 0 || probe.any (Probe.slow cfg)
  return [clusterReachable.addMetric [] 1, clusterBusy.addMetric [] (flag busy), probeSeconds,
    probeLocal, orchestratorExhausted.addMetric [] (flag exhausted),
    orchestratorMisconfigured.addMetric [] (flag misconfigured), t.unreported, t.reported, t.state,
    t.desired, t.ready, t.operation]

/-! ### The scrape -/

/-- What `collect` emits when the releases could not be listed. -/
def collectUnlisted (found : Findings) (exc : Exc) : Scrape (List GaugeMetricFamily) := do
  let recorded := recordProbe found.proberStarted found.deadline clusterProbeSeconds
    orchestratorProbeLocalSeconds
  let unreachable : Scrape (List GaugeMetricFamily) := do
    let (_, _, probeLocal) ← recorded
    return [clusterReachable.addMetric [] 0, probeLocal]
  match exc with
  | .deploy e =>
      if e.cls = .hostMisconfigured then
        let (_, probeSeconds, probeLocal) ← recorded
        return [probeSeconds, probeLocal, orchestratorMisconfigured.addMetric [] 1]
      else if e.isHostOverloaded then
        let (probe, probeSeconds, probeLocal) ← recorded
        let exhausted := found.exhausted || e.cls == .hostExhausted || probe.any Probe.exhausted
        return [probeSeconds, probeLocal, orchestratorExhausted.addMetric [] (flag exhausted)]
      else if e.cls = .clusterBusy then
        let (_, probeSeconds, probeLocal) ← recorded
        return [clusterReachable.addMetric [] 1, clusterBusy.addMetric [] 1, probeSeconds,
          probeLocal]
      else unreachable
  | .os _ => unreachable
  | .py _ => throw exc

/-- Every release's pods, or none when listing them failed in one of the known ways, with
what the failure says. -/
def listPods (found : Findings) : Scrape (Findings × Option PodsByRelease) :=
  tryCatch (do return (found, some (← engine (podsByRelease cfg)))) fun exc =>
    match exc with
    | .deploy e =>
        if e.cls = .hostMisconfigured then return ({ found with misconfigured := true }, none)
        else if e.isHostOverloaded then
          return ({ found with exhausted := found.exhausted || e.cls == .hostExhausted }, none)
        else if e.cls = .clusterBusy then return ({ found with throttled := true }, none)
        else return (found, none)
    | .os _ => return (found, none)
    | .py _ => throw exc

/-- What the prober's thread does. Its result is what it appends to `measured`. -/
def prober : Eff Probe := apiServerProbe cfg 0 (some cfg.scrapeProbeTimeout)

/-- The budget, the tools and the prober's thread. -/
def setUp : Scrape Findings := do
  let deadline := (← engine monotonic) + cfg.scrapeBudget
  let problems ← engine (toolProblems cfg)
  let started ← perform .startProber
  return { deadline := deadline, proberStarted := started, exhausted := !started,
           misconfigured := !problems.isEmpty }

/-- The result of a program, or the exception it raised. -/
def attempt {α : Type} (p : Scrape α) : Scrape (Except Exc α) :=
  tryCatch (.ok <$> p) fun exc => return .error exc

/-- A name, as the text that commands are made of. Python takes another value for a name
too, and raises where it first uses it as part of a command. -/
def asName : Json → Except PyError String
  | .str s => .ok s
  | _ => .error .typeError

/-- `release_names`, for a listing of at most this many pages. One that goes on beyond them
has no result yet; the exception in its place says nothing about the code. -/
def releaseNames (pages : ℕ) : Eff (List String) := do
  match ← listReleases cfg listPage pages with
  | some names => ofPy (names.mapM asName)
  | none => throw (.py .runtimeError)

/-- One scrape. -/
def collect (releaseNames : Eff (List String)) : Scrape (List GaugeMetricFamily) := do
  let found ← setUp cfg
  match ← attempt (engine releaseNames) with
  | .error exc => collectUnlisted found exc
  | .ok names => do
      let (found, pods) ← listPods cfg found
      collectListed cfg found names pods

end NfOrchestrator.Metrics
