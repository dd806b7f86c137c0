import NfOrchestrator.Api.HttpError
import NfOrchestrator.Metrics.Exits

/-!
# NfOrchestrator.Metrics.Reachable

**What a failed listing says of the cluster.** The scrape and the routes each sort the
exceptions of one hierarchy, by clauses and tests of their own. They agree on a listing
that failed unless the cluster refused it (`reachability_agrees_iff`): a refusal falls to
the clause for an outage, and the scrape calls a cluster that answered unreachable.
-/

namespace NfOrchestrator.Metrics

open Deploy Reconciler Api

/-- This host failed, so nothing is known about the cluster. -/
def hostFailed (e : DeployError) : Bool := e.isHostOverloaded || e.cls == .hostMisconfigured

/-- The families say of the cluster what the class of the failure says of it, and call it
unreachable when the routes do. -/
structure ReachabilityAgrees (e : DeployError) (families : List GaugeMetricFamily) : Prop where
  unreachable : samplesOf families "nf_cluster_reachable" = [([], 0)] ↔ e.cls = .clusterUnreachable
  host : samplesOf families "nf_cluster_reachable" = [] ↔ hostFailed e = true
  answered : clusterReplied e = true → samplesOf families "nf_cluster_reachable" = [([], 1)]
  routes : samplesOf families "nf_cluster_reachable" = [([], 0)] ↔ SaysUnreachable (httpError e)

/-- The value the scrape gives to the cluster's reachability, if it gives one. -/
def reachableFor (e : DeployError) : List (List String × ℚ) :=
  if hostFailed e then []
  else if e.cls = .clusterBusy then [([], 1)]
  else [([], 0)]

theorem samplesOf_unlisted {found : Findings} {e : DeployError} {r : Recorded}
    (hseconds : r.2.1.name = "nf_cluster_probe_seconds")
    (hlocal : r.2.2.name = "nf_orchestrator_probe_local_seconds") :
    samplesOf (unlistedFamilies found (.deploy e) r) "nf_cluster_reachable" = reachableFor e := by
  obtain ⟨cls, message⟩ := e
  cases cls <;>
    simp [samplesOf, unlistedFamilies, reachableFor, hostFailed, DeployError.isHostOverloaded,
      hseconds, hlocal]

/-- The two dispatches agree on a value exactly where the failure is not a refusal. -/
theorem agrees_iff {e : DeployError} {families : List GaugeMetricFamily}
    (h : samplesOf families "nf_cluster_reachable" = reachableFor e) :
    ReachabilityAgrees e families ↔ e.cls ≠ .deployError ∧ e.cls ≠ .clusterConflict := by
  have hvalue : ReachabilityAgrees e families ↔
      (reachableFor e = [([], 0)] ↔ e.cls = .clusterUnreachable) ∧
      (reachableFor e = [] ↔ hostFailed e = true) ∧
      (clusterReplied e = true → reachableFor e = [([], 1)]) := by
    rw [← h]
    constructor
    · intro ha
      exact ⟨ha.unreachable, ha.host, ha.answered⟩
    · intro hx
      obtain ⟨hunreachable, hhost, hanswered⟩ := hx
      exact ⟨hunreachable, hhost, hanswered, hunreachable.trans (saysUnreachable_iff e).symm⟩
  rw [hvalue]
  obtain ⟨cls, message⟩ := e
  cases cls <;> simp [reachableFor, hostFailed, clusterReplied, DeployError.isHostOverloaded]

variable {W : Type} {E : Env sig W} {w w' : W}

/-- A scrape whose listing failed with an exception of the hierarchy ends with families that
say of the cluster what the class says, exactly when the cluster did not refuse. -/
theorem reachability_agrees_iff (cfg : Settings) (releaseNames : Eff (List String)) {facts : Facts}
    {x : Except Exc (List GaugeMetricFamily)} (h : Scraped cfg releaseNames E w facts x w')
    {e : DeployError} (hlisting : facts.listing = some (.error (.deploy e))) :
    (∃ families, x = .ok families ∧ ReachabilityAgrees e families) ↔
      e.cls ≠ .deployError ∧ e.cls ≠ .clusterConflict := by
  cases h with
  | unchecked => cases hlisting
  | passed hbegun hlist hexc =>
      obtain rfl := Except.error.inj (Option.some.inj hlisting)
      exact hexc.elim
  | unlisted hbegun hlist hexc hprobe =>
      obtain rfl := Except.error.inj (Option.some.inj hlisting)
      obtain ⟨hseconds, hlocal⟩ := recordProbe_families hprobe
      rw [← agrees_iff (samplesOf_unlisted hseconds hlocal)]
      constructor
      · intro hx
        obtain ⟨families, hfamilies, hagrees⟩ := hx
        obtain rfl := Except.ok.inj hfamilies
        exact hagrees
      · intro hagrees
        exact ⟨_, rfl, hagrees⟩
  | unparsed | stopped | listed => cases Option.some.inj hlisting

/-- What helm says when it may not list the releases. -/
def forbidden : String := "Error: secrets is forbidden"

/-- A host whose listing is answered in this way. -/
def listingReply (outcome : Outcome) : (o : sig.Op) → sig.Resp o :=
  promptReply (fun command =>
    if command = "helm" :: listArgs defaultSettings listPage 0 then outcome else .timedOut none)
    true none

/-- Such a listing fails with an exception of the hierarchy, if it is made to. -/
theorem scraped_listing (outcome : Outcome) (e : DeployError)
    (hset : ((setUp {}).run (fun o _ => (listingReply outcome o, ())) ()).1 =
      .ok ⟨4, true, false, false, false⟩)
    (hlist : ((engine (releaseNames {} 1)).run (fun o _ => (listingReply outcome o, ())) ()).1 =
      .error (.deploy e)) :
    ∃ facts families, Scraped {} (releaseNames {} 1)
        (replying fun o r => r = listingReply outcome o) () facts (.ok families) () ∧
      facts.listing = some (.error (.deploy e)) ∧
      samplesOf families "nf_cluster_reachable" = reachableFor e := by
  obtain ⟨facts, r, _, h, hlisting, -, hseconds, hlocal⟩ := exists_unlisted {} (releaseNames {} 1)
    (E := replying fun o r => r = listingReply outcome o)
    (h := fun o _ => (listingReply outcome o, ())) (fun _ _ => rfl) hset hlist id
  exact ⟨facts, _, h, hlisting, samplesOf_unlisted hseconds hlocal⟩

theorem reachability_agrees_iff_unreachable :
    ∃ facts families, Scraped {} (releaseNames {} 1)
        (replying fun o r =>
          r = listingReply (.completed 1 "" "Error: Kubernetes cluster unreachable") o)
        () facts (.ok families) () ∧
      ((∃ families', (.ok families : Except Exc _) = .ok families' ∧
          ReachabilityAgrees ⟨.clusterUnreachable, "Error: Kubernetes cluster unreachable"⟩
            families') ↔
        DeployErrorClass.clusterUnreachable ≠ .deployError ∧
          DeployErrorClass.clusterUnreachable ≠ .clusterConflict) := by
  obtain ⟨facts, families, h, hlisting, -⟩ := scraped_listing
    (.completed 1 "" "Error: Kubernetes cluster unreachable")
    ⟨.clusterUnreachable, "Error: Kubernetes cluster unreachable"⟩
    (by decide +kernel) (by decide +kernel)
  exact ⟨facts, families, h, reachability_agrees_iff {} _ h hlisting⟩

/-- A scrape that may not list the releases calls the cluster that refused it unreachable. -/
theorem refusal_called_unreachable :
    ∃ facts families, Scraped {} (releaseNames {} 1)
        (replying fun o r => r = listingReply (.completed 1 "" forbidden) o) () facts
        (.ok families) () ∧
      facts.listing = some (.error (.deploy ⟨.deployError, forbidden⟩)) ∧
      samplesOf families "nf_cluster_reachable" = [([], 0)] ∧
      (httpError ⟨.deployError, forbidden⟩).statusCode = 502 ∧
      ¬ReachabilityAgrees ⟨.deployError, forbidden⟩ families := by
  obtain ⟨facts, families, h, hlisting, hsamples⟩ := scraped_listing
    (.completed 1 "" forbidden) ⟨.deployError, forbidden⟩
    (by decide +kernel) (by decide +kernel)
  refine ⟨facts, families, h, hlisting, hsamples, rfl, ?_⟩
  rw [agrees_iff hsamples]
  exact fun hclass => hclass.1 rfl

end NfOrchestrator.Metrics
