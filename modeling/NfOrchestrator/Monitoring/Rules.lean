import NfOrchestrator.Metrics.HostFaults
import NfOrchestrator.Prom.Alert

/-!
# NfOrchestrator.Monitoring.Rules

**The alerting rules over the scrapes.** Prometheus stores what each attempt to scrape the
orchestrator brought, the gauges that `collect` emitted or nothing, and evaluates the rules
of `nf-lifecycle.rules.yml` on what it stored.

The counters of deployments and repairs are not among what is stored here, and the texts of
the alerts are left out: no rule reads them.
-/

namespace NfOrchestrator.Monitoring

open Prom Metrics Deploy

/-! ### The scrapes -/

/-- The labels of the one target of `prometheus.yml`. -/
def target : Labels := [("instance", "host.docker.internal:8000"), ("job", "nf-orchestrator")]

/-- The series that says of each attempt whether it succeeded. -/
def up : Series := ⟨"up", target⟩

/-- The series of a sample of a family. -/
def seriesOf (family : GaugeMetricFamily) (values : List String) : Series :=
  ⟨family.name, target ++ family.labels.zip values⟩

/-- What is stored of an attempt: the families of a scrape that answered in time. -/
def stored : Option (List GaugeMetricFamily) → List (Series × ℚ)
  | some families => (up, 1) :: families.flatMap fun family =>
      family.samples.map fun sample => (seriesOf family sample.1, sample.2)
  | none => [(up, 0)]

/-! ### The rules -/

/-- The alerts, in the order of their rules. -/
inductive AlertName where
  | nfNotInstantiated
  | nfFailed
  | nfReplicaShortfall
  | clusterUnreachable
  | nfLastOperationFailed
  | orchestratorScrapeFailing
  | nfReleaseUnreported
  | clusterThrottlingOrchestrator
  | orchestratorHostOverloaded
  | orchestratorMisconfigured
  deriving DecidableEq

/-- `metric == c`. -/
def equals (sel : Selector) (c : ℚ) : Expr := compared (instant sel) fun v => v = c

/-- `e >= c`. -/
def atLeast (e : Expr) (c : ℚ) : Expr := compared e fun v => c ≤ v

/-- `nf_deployment_state{state="..."}`. -/
def stateIs (state : String) : Selector := ⟨"nf_deployment_state", [("state", state)]⟩

def reachable : Selector := ⟨"nf_cluster_reachable", []⟩

/-- `up{job="nf-orchestrator"}`. -/
def upOfJob : Selector := ⟨"up", [("job", "nf-orchestrator")]⟩

/-- `sum_over_time(metric[2m]) / count_over_time(up{job="nf-orchestrator"}[2m])`: the share of
the attempts of two minutes. -/
def shareOfAttempts (metric : String) : Expr :=
  divided (sumOverTime ⟨metric, []⟩ 120) (countOverTime upOfJob 120)

/-- `expr` and `for` of each rule. -/
def rule : AlertName → AlertingRule
  | .nfNotInstantiated => ⟨equals (stateIs "INSTANTIATED") 0, 120⟩
  | .nfFailed => ⟨equals (stateIs "FAILED") 1, 60⟩
  | .nfReplicaShortfall =>
      ⟨below (instant ⟨"nf_deployment_ready_replicas", []⟩)
        (instant ⟨"nf_deployment_desired_replicas", []⟩), 120⟩
  | .clusterUnreachable => ⟨equals reachable 0, 60⟩
  | .nfLastOperationFailed => ⟨equals ⟨"nf_last_operation_state", [("state", "FAILED")]⟩ 1, 300⟩
  | .orchestratorScrapeFailing => ⟨equals upOfJob 0, 60⟩
  | .nfReleaseUnreported => ⟨equals ⟨"nf_release_reported", []⟩ 0, 300⟩
  | .clusterThrottlingOrchestrator =>
      ⟨unlessOn ["instance", "job"] (atLeast (shareOfAttempts "nf_cluster_busy") (1 / 2))
        (equals reachable 0), 60⟩
  | .orchestratorHostOverloaded =>
      ⟨orElse (atLeast (avgOverTime ⟨"nf_orchestrator_probe_local_seconds", []⟩ 120) (1 / 2))
        (atLeast (shareOfAttempts "nf_orchestrator_exhausted") (1 / 4)), 60⟩
  | .orchestratorMisconfigured => ⟨equals ⟨"nf_orchestrator_misconfigured", []⟩ 1, 60⟩

end NfOrchestrator.Monitoring
