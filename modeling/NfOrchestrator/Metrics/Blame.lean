import NfOrchestrator.Deploy.Measured
import NfOrchestrator.Metrics.HostFaults
import NfOrchestrator.Metrics.Reachable

/-!
# NfOrchestrator.Metrics.Blame

**Whose fault a failed probe is.** A probe can fail because of this host in two ways:
kubectl could not be started, or it was and crashed for want of threads. The first never
makes the cluster look busy. The second does (`unblamed_iff`): kubectl had started and did
not answer, which is what a cluster that is slow looks like.
-/

namespace NfOrchestrator.Metrics

open Deploy Reconciler

/-! ### The probe -/

/-- The probe failed because of this host. -/
def HostFailed (p : Probe) : Prop := p.exhausted = true ∨ p.spawnFailure.isSome = true

/-- A kubectl that crashed for want of threads. -/
structure Crashed (p : Probe) : Prop where
  spawned : p.spawnFailure = none
  started : p.started = true
  answered : p.answered = false

/-- A kubectl that could not be started. -/
structure Unspawned (p : Probe) : Prop where
  failure : p.spawnFailure.isSome = true
  started : p.started = false
  roundTrip : p.roundTrip = none

theorem mentions_empty : mentions exhaustionMarkers (Str.lower "") = false := by decide +kernel

/-- A probe that failed because of this host is of one of the two kinds. -/
theorem host_cases {cfg : Settings} {outcome : Outcome} {p : Probe}
    (h : Produces cfg outcome p) (hhost : HostFailed p) : Unspawned p ∨ Crashed p := by
  have hmeasured := h.measured
  cases outcome with
  | timedOut stderr =>
      obtain ⟨-, -, -, herror, hspawn⟩ := hmeasured
      simp [HostFailed, Probe.exhausted, herror, hspawn, mentions_empty] at hhost
  | osError exc =>
      obtain ⟨-, hround, hstarted, herror, -⟩ := hmeasured
      refine .inl ⟨?_, hstarted, hround⟩
      rcases hhost with hexhausted | hspawn
      · cases hf : p.spawnFailure with
        | some failure => rfl
        | none => simp [Probe.exhausted, herror, hf, mentions_empty] at hexhausted
      · exact hspawn
  | completed returncode stdout stderr =>
      obtain ⟨hanswered, -, hstarted, herror, hspawn⟩ := hmeasured
      refine .inr ⟨hspawn, hstarted, ?_⟩
      by_contra hne
      rw [Bool.not_eq_false, hanswered] at hne
      rw [if_pos hne] at herror
      simp [HostFailed, Probe.exhausted, herror, hspawn, mentions_empty] at hhost

theorem Unspawned.not_slow (cfg : Settings) {p : Probe} (h : Unspawned p) : p.slow cfg = false := by
  simp [Probe.slow, h.roundTrip, h.started]

/-- A crashed kubectl counts as a slow cluster, unless the cluster was seen to be quick. -/
theorem Crashed.not_slow_iff (cfg : Settings) {p : Probe} (h : Crashed p) :
    p.slow cfg = false ↔ ∃ r, p.roundTrip = some r ∧ r < cfg.slowProbe := by
  cases hr : p.roundTrip with
  | none => simp [Probe.slow, hr, h.started, h.answered]
  | some r => simp [Probe.slow, hr]

/-! ### What is recorded of it -/

theorem Unspawned.secondsSamples {p : Probe} (h : Unspawned p) : secondsSamples p = [] := by
  simp [Metrics.secondsSamples, h.roundTrip, h.started]

theorem Crashed.secondsSamples_ne {p : Probe} (h : Crashed p) : secondsSamples p ≠ [] := by
  cases hr : p.roundTrip with
  | none => simp [Metrics.secondsSamples, hr, h.started]
  | some r => simp [Metrics.secondsSamples, hr]

variable {W : Type} {E : Env sig W} {w w' : W}

theorem recordProbe_seconds {started : Bool} {deadline : ℚ}
    {clusterSeconds localSeconds : GaugeMetricFamily} {r : Recorded} {p : Probe}
    (h : (recordProbe started deadline clusterSeconds localSeconds).Runs E w (.ok r) w')
    (hp : r.1 = some p) :
    r.2.1.samples = clusterSeconds.samples ++ secondsSamples p := by
  refine h.post (wp_recordProbe (P := fun _ => True) (Q := fun x _ => ∀ (r : Recorded) p,
    x = .ok r → r.1 = some p → r.2.1.samples = clusterSeconds.samples ++ secondsSamples p)
    (fun _ _ _ _ _ => trivial) (fun _ _ _ _ _ _ => trivial) (fun _ _ _ _ _ => trivial)
    trivial (fun w _ r p hr hp => ?_) fun w probe seconds here _ _ _ hsamples r p hr hp => ?_)
    r p rfl hp
  · obtain rfl := Except.ok.inj hr
    cases hp
  · obtain rfl := Except.ok.inj hr
    obtain rfl := Option.some.inj hp
    exact hsamples

/-! ### No call was refused -/

/-- Nothing the scrape called, itself or in its workers, is known to have raised
`ClusterBusy`. -/
structure Unrefused (facts : Facts) : Prop where
  listing : ∀ e, facts.listing = some (.error (.deploy e)) → e.cls ≠ .clusterBusy
  podListing : ∀ e, facts.podListing = some (.error (.deploy e)) → e.cls ≠ .clusterBusy
  workers : some (.ok (.unread .busy)) ∉ facts.polled

theorem add_refused {t t' : Tally} {name : String} {current : Option Snapshot}
    (h : t.add name current = .ok t') (hcurrent : current ≠ some (.unread .busy)) :
    t'.refused = t.refused := by
  rcases current with _ | current | why
  · obtain rfl := Except.ok.inj h
    rfl
  · change t.emit name current = _ at h
    obtain ⟨desired, -, h⟩ := bind_eq_ok.mp h
    obtain rfl := Except.ok.inj h
    rfl
  · cases why with
    | busy => exact absurd rfl hcurrent
    | host | exhausted | misconfigured | none =>
        obtain rfl := Except.ok.inj h
        rfl

theorem Polled.refused {t t' : Tally} {futures : List (String × Future)}
    {polled : List (Option (Except Exc Snapshot))} {x : Except Exc Tally}
    (h : Polled E t futures w polled x w') (hx : x = .ok t')
    (hpolled : some (.ok (.unread .busy)) ∉ polled) : t'.refused = t.refused := by
  induction h with
  | nil =>
      obtain rfl := Except.ok.inj hx
      rfl
  | raised => cases hx
  | overflow => cases hx
  | cons hpoll hadd _ ih =>
      rw [List.mem_cons, not_or] at hpolled
      rw [ih hx hpolled.2]
      refine add_refused hadd fun hbusy => hpolled.1 ?_
      rw [hbusy]
      rfl

theorem throttled_of_podsFound {found found' : Findings} {pods : Except Exc PodsByRelease}
    {given : Option PodsByRelease} (h : podsFound found pods = .ok (found', given))
    (hpods : ∀ e, pods = .error (.deploy e) → e.cls ≠ .clusterBusy) :
    found'.throttled = found.throttled := by
  rcases pods with (e | e | e) | pods
  · have hbusy := hpods e rfl
    simp only [podsFound, if_neg hbusy] at h
    split_ifs at h <;> (cases h; rfl)
  · cases h
    rfl
  · cases h
  · cases h
    rfl

/-! ### What is emitted -/

variable {cfg : Settings}

theorem samplesOf_listed_cluster {found : Findings} {t : Tally} {r : Recorded}
    {told : List (String × Told)} (ht : Tallied told t)
    (hseconds : r.2.1.name = "nf_cluster_probe_seconds")
    (hlocal : r.2.2.name = "nf_orchestrator_probe_local_seconds") :
    samplesOf (listedFamilies cfg found t r) "nf_cluster_busy" =
        [([], flag (found.throttled || t.refused != 0 || r.1.any (Probe.slow cfg)))] ∧
      samplesOf (listedFamilies cfg found t r) "nf_cluster_probe_seconds" = r.2.1.samples := by
  constructor <;>
    simp [samplesOf, listedFamilies, hseconds, hlocal, ht.reported_name, ht.state_name,
      ht.desired_name, ht.ready_name, ht.operation_name]

/-- The listing failed in a way that says the cluster was not there. -/
def Outage (exc : Exc) : Prop := ∀ e, exc = .deploy e → hostFailed e = false

theorem samplesOf_unlisted_cluster {found : Findings} {exc : Exc} {r : Recorded}
    (hseconds : r.2.1.name = "nf_cluster_probe_seconds")
    (hlocal : r.2.2.name = "nf_orchestrator_probe_local_seconds")
    (hexc : ∀ e, exc = .deploy e → e.cls ≠ .clusterBusy) :
    samplesOf (unlistedFamilies found exc r) "nf_cluster_busy" = [] ∧
      (Outage exc → samplesOf (unlistedFamilies found exc r) "nf_cluster_probe_seconds" = []) ∧
      (¬Outage exc →
        samplesOf (unlistedFamilies found exc r) "nf_cluster_probe_seconds" = r.2.1.samples) := by
  rcases exc with ⟨cls, message⟩ | e | e
  · have hbusy := hexc _ rfl
    cases cls <;>
      simp_all [samplesOf, unlistedFamilies, Outage, hostFailed, DeployError.isHostOverloaded]
  · simp [samplesOf, unlistedFamilies, Outage, hlocal]
  · simp [samplesOf, unlistedFamilies, Outage, hlocal]

/-! ### The probe and the families -/

/-- The cluster is not blamed for this probe. A scrape that listed no releases says nothing of
a busy cluster, in either way. -/
structure Unblamed (cfg : Settings) (facts : Facts) (p : Probe)
    (families : List GaugeMetricFamily) : Prop where
  not_slow : p.slow cfg = false
  listed : ∀ names, facts.listing = some (.ok names) →
    samplesOf families "nf_cluster_busy" = [([], 0)]
  not_busy : ∀ sample ∈ samplesOf families "nf_cluster_busy", sample.2 = 0
  seconds : samplesOf families "nf_cluster_probe_seconds" = []

variable {lister : Eff (List String)}

/-- What a scrape that listed the releases says of the cluster is what the probe says. -/
theorem Scraped.samples_listed {facts : Facts} {families : List GaugeMetricFamily} {p : Probe}
    {names : List String} (h : Scraped cfg lister E w facts (.ok families) w')
    (hlisted : facts.listing = some (.ok names)) (hp : facts.probe = some p)
    (hrefused : Unrefused facts) :
    samplesOf families "nf_cluster_busy" = [([], flag (p.slow cfg))] ∧
      samplesOf families "nf_cluster_probe_seconds" = secondsSamples p := by
  cases h with
  | unlisted => cases hlisted
  | @listed problems started found found' _ _ _ _ _ _ _ pods given futures polled t r
      hbegun hlist hpods hfound hrec hpolled hprobe =>
      obtain ⟨hseconds, hlocal⟩ := recordProbe_families hprobe
      obtain ⟨told, ht⟩ := hpolled.tallied (tallied_nil _ _)
      have hthrottled : found'.throttled = false := by
        rw [throttled_of_podsFound hfound fun e he => hrefused.podListing e (he ▸ rfl)]
        obtain ⟨hnow, htools, hprober⟩ := hbegun
        rfl
      have hcount : t.refused = 0 := hpolled.refused rfl hrefused.workers
      have hr : r.1 = some p := hp
      obtain ⟨hbusy, hsamples⟩ := @samplesOf_listed_cluster cfg found' _ _ _ ht
        hseconds hlocal
      rw [hbusy, hsamples, recordProbe_seconds hprobe hr, hthrottled, hcount, hr]
      exact ⟨by simp, rfl⟩

theorem Scraped.samples_unlisted {facts : Facts} {families : List GaugeMetricFamily} {p : Probe}
    {exc : Exc} (h : Scraped cfg lister E w facts (.ok families) w')
    (hlisting : facts.listing = some (.error exc)) (hp : facts.probe = some p)
    (hrefused : Unrefused facts) :
    samplesOf families "nf_cluster_busy" = [] ∧
      (Outage exc → samplesOf families "nf_cluster_probe_seconds" = []) ∧
      (¬Outage exc → samplesOf families "nf_cluster_probe_seconds" = secondsSamples p) := by
  cases h with
  | @unlisted problems started found _ _ _ exc' r hbegun hlist hexc hprobe =>
      obtain rfl := Except.error.inj (Option.some.inj hlisting)
      obtain ⟨hseconds, hlocal⟩ := recordProbe_families hprobe
      have hsamples := @samplesOf_unlisted_cluster found _ _ hseconds hlocal
        fun e he => hrefused.listing e (he ▸ rfl)
      rw [recordProbe_seconds hprobe hp] at hsamples
      exact hsamples
  | listed => cases Option.some.inj hlisting

theorem Scraped.listing_cases {facts : Facts} {families : List GaugeMetricFamily}
    (h : Scraped cfg lister E w facts (.ok families) w') :
    (∃ names, facts.listing = some (.ok names)) ∨ ∃ exc, facts.listing = some (.error exc) := by
  cases h with
  | unlisted => exact .inr ⟨_, rfl⟩
  | listed => exact .inl ⟨_, rfl⟩

/-- A probe that failed because of this host is not held against the cluster if kubectl could
not be started. One that crashed is, unless client-go had logged a quick answer and the scrape
took the exit of an outage, which says nothing of it. -/
theorem unblamed_iff {facts : Facts} {families : List GaugeMetricFamily} {p : Probe}
    {outcome : Outcome} (h : Scraped cfg lister E w facts (.ok families) w')
    (hp : facts.probe = some p) (hproduced : Produces cfg outcome p) (hhost : HostFailed p)
    (hrefused : Unrefused facts) :
    Unblamed cfg facts p families ↔
      p.spawnFailure.isSome = true ∨
        (∃ exc, facts.listing = some (.error exc) ∧ Outage exc) ∧
          ∃ r, p.roundTrip = some r ∧ r < cfg.slowProbe := by
  rcases host_cases hproduced hhost with hunspawned | hcrashed
  · -- kubectl never ran, and no exit says anything of the cluster
    refine iff_of_true ?_ (.inl hunspawned.failure)
    have hquiet := hunspawned.not_slow cfg
    rcases h.listing_cases with ⟨names, hlisted⟩ | ⟨exc, hlisting⟩
    · obtain ⟨hbusy, hseconds⟩ := h.samples_listed hlisted hp hrefused
      rw [hquiet] at hbusy
      rw [hunspawned.secondsSamples] at hseconds
      refine ⟨hquiet, fun _ _ => hbusy, ?_, hseconds⟩
      rw [hbusy]
      simp [flag]
    · obtain ⟨hbusy, hout, hnot⟩ := h.samples_unlisted hlisting hp hrefused
      rw [hunspawned.secondsSamples] at hnot
      refine ⟨hquiet, fun _ hlisted => ?_, by simp [hbusy], ?_⟩
      · rw [hlisting] at hlisted
        cases hlisted
      · by_cases h : Outage exc
        · exact hout h
        · exact hnot h
  · -- kubectl ran and crashed, and only the exit of an outage is silent about it
    have hno : ¬p.spawnFailure.isSome = true := by simp [hcrashed.spawned]
    rw [or_iff_right hno, ← hcrashed.not_slow_iff cfg]
    rcases h.listing_cases with ⟨names, hlisted⟩ | ⟨exc, hlisting⟩
    · obtain ⟨-, hseconds⟩ := h.samples_listed hlisted hp hrefused
      refine iff_of_false (fun hunblamed => ?_) ?_
      · exact hcrashed.secondsSamples_ne (hseconds.symm.trans hunblamed.seconds)
      · intro hx
        obtain ⟨⟨exc, hlisting, -⟩, -⟩ := hx
        rw [hlisted] at hlisting
        cases hlisting
    · obtain ⟨hbusy, hout, hnot⟩ := h.samples_unlisted hlisting hp hrefused
      constructor
      · intro hunblamed
        refine ⟨⟨exc, hlisting, ?_⟩, hunblamed.not_slow⟩
        by_contra h
        exact hcrashed.secondsSamples_ne ((hnot h).symm.trans hunblamed.seconds)
      · intro hx
        obtain ⟨⟨exc', hlisting', h⟩, hquiet⟩ := hx
        obtain rfl := Except.error.inj (Option.some.inj (hlisting.symm.trans hlisting'))
        refine ⟨hquiet, fun _ hlisted => ?_, by simp [hbusy], hout h⟩
        rw [hlisting] at hlisted
        cases hlisted

/-! ### A scrape with such a probe -/

/-- A cluster with nothing deployed in it, and what the scrape's probe was. -/
def emptyReply (probe : Probe) : (o : sig.Op) → sig.Resp o :=
  promptReply (fun command =>
    if command = ["helm", "version", "--short"] then .completed 0 "v4.0.0" ""
    else if command.head? = some "helm" then .completed 0 "[]" ""
    else .completed 0 "\x7b\"items\": []\x7d" "") true (some probe)

theorem recordProbe_emptyReply {probe : Probe} {deadline : ℚ}
    {clusterSeconds localSeconds : GaugeMetricFamily} {r : Recorded}
    (h : (recordProbe true deadline clusterSeconds localSeconds).Runs
      (replying fun o r => r = emptyReply probe o) () (.ok r) ()) : r.1 = some probe := by
  suffices hwp : (recordProbe true deadline clusterSeconds localSeconds).wp
      (Env.spec (replying fun o r => r = emptyReply probe o))
      (fun x _ => ∀ r : Recorded, x = .ok r → r.1 = some probe) () from h.post hwp r rfl
  rw [recordProbe, if_neg (by simp), Prog.wp_bind, wp_engine, wp_monotonic]
  intro now _ _
  rw [Prog.bindPost_ok, Prog.wp_bind, wp_perform]
  rintro ⟨⟩ _ -
  rw [Prog.bindPost_ok, Prog.wp_bind, wp_perform]
  intro (measured : Option Probe) _ hmeasured
  obtain rfl : measured = some probe := hmeasured
  intro r hr
  obtain rfl := Except.ok.inj hr
  rfl

/-- A scrape of that cluster goes through no futures, and waits for that probe. -/
theorem scraped_empty {probe : Probe}
    (hset : ((setUp defaultSettings).run (fun o _ => (emptyReply probe o, ())) ()).1 =
      .ok ⟨4, true, false, false, false⟩)
    (hlist : ((engine (releaseNames defaultSettings 1)).run
      (fun o _ => (emptyReply probe o, ())) ()).1 = .ok [])
    (hpods : ((engine (podsByRelease defaultSettings)).run
      (fun o _ => (emptyReply probe o, ())) ()).1 = .ok []) :
    ∃ facts families, Scraped defaultSettings (releaseNames defaultSettings 1)
        (replying fun o r => r = emptyReply probe o) () facts (.ok families) () ∧
      facts.listing = some (.ok []) ∧ facts.probe = some probe ∧ Unrefused facts := by
  have hset := hset ▸ runs_replying (emptyReply probe) (setUp defaultSettings)
  have hlist := hlist ▸ runs_replying (emptyReply probe)
    (engine (releaseNames defaultSettings 1))
  have hpods := hpods ▸ runs_replying (emptyReply probe)
    (engine (podsByRelease defaultSettings))
  obtain ⟨problems, started, hbegun⟩ := runs_setUp.mp hset
  have hrec : (reconcileWithin defaultSettings [] (some []) 4).Runs
      (replying fun o r => r = emptyReply probe o) () (.ok []) () := by
    rw [reconcileWithin, waves]
    exact ⟨(), (), rfl, rfl, rfl⟩
  have hprobe := runs_replying (emptyReply probe)
    (recordProbe true 4 clusterProbeSeconds orchestratorProbeLocalSeconds)
  obtain ⟨r, hr⟩ := (returns_recordProbe _ _ _ _).ok hprobe
  rw [hr] at hprobe
  refine ⟨_, _, .listed hbegun hlist hpods rfl hrec .nil hprobe, rfl,
    recordProbe_emptyReply hprobe, ?_⟩
  refine ⟨fun _ h => ?_, fun _ h => ?_, List.not_mem_nil⟩
  · cases h
  · cases h

/-- The host has no room for kubectl. -/
def noRoom : OSError := ⟨.other, some 11, some "Resource temporarily unavailable"⟩

/-- The probe it could not be started for. -/
def unspawnedProbe : Probe where
  answered := false
  seconds := 0
  started := false
  spawnFailure := spawnFailure "kubectl" noRoom
  spawnFailure_of := fun _ h => ⟨noRoom, h⟩

theorem unspawnedProbe_produced : Produces defaultSettings (.osError noRoom) unspawnedProbe := by
  refine ⟨0, (), Prog.Runs.bind ⟨(0 : ℚ), (), trivial, rfl, rfl⟩ ?_⟩
  refine Prog.Runs.bind ⟨(0 : ℚ), (), trivial, rfl, rfl⟩ ?_
  refine Prog.Runs.bind ⟨some noRoom, (), rfl, rfl, rfl⟩ ?_
  exact Prog.Runs.bind ⟨(0 : ℚ), (), trivial, rfl, rfl⟩ ⟨congrArg _ (by simp [unspawnedProbe]), rfl⟩

theorem unblamed_iff_unspawned :
    ∃ facts families, Scraped defaultSettings (releaseNames defaultSettings 1)
        (replying fun o r => r = emptyReply unspawnedProbe o) () facts (.ok families) () ∧
      facts.probe = some unspawnedProbe ∧
      (Unblamed defaultSettings facts unspawnedProbe families ↔
        unspawnedProbe.spawnFailure.isSome = true ∨
          (∃ exc, facts.listing = some (.error exc) ∧ Outage exc) ∧
            ∃ r, unspawnedProbe.roundTrip = some r ∧ r < defaultSettings.slowProbe) := by
  obtain ⟨facts, families, h, -, hp, hrefused⟩ := @scraped_empty unspawnedProbe
    (by decide +kernel) (by decide +kernel) (by decide +kernel)
  exact ⟨facts, families, h, hp, unblamed_iff h hp unspawnedProbe_produced
    (.inr (by decide +kernel)) hrefused⟩

/-- What the Go runtime writes when it cannot start a thread. -/
def crashLog : String :=
  "runtime: failed to create new OS thread (have 10 already; errno=11)\n" ++
    "runtime: may need to increase max user processes (ulimit -u)\nfatal error: newosproc\n\n"

/-- The probe of a kubectl that crashed so. -/
def crashedProbe : Probe where
  answered := false
  seconds := 1 / 20
  error := errorText crashLog

theorem crashedProbe_produced :
    Produces defaultSettings (.completed 2 "" crashLog) crashedProbe := by
  have hr : roundTrip crashLog = .ok none := by decide +kernel
  have hstartup : startupFrom ⟨0, 0, 0⟩ crashLog = none := by decide +kernel
  have h := @produces_exited defaultSettings 2 "" crashLog none hr ⟨0, 0, 0⟩ (1 / 20)
  rw [hstartup, if_neg (by decide)] at h
  exact h

/-- A kubectl that crashes for want of threads makes the scrape call a cluster busy that it
never asked anything, and publish the crash as the cluster's answering time. -/
theorem crash_blamed_on_cluster :
    ∃ facts families, Scraped defaultSettings (releaseNames defaultSettings 1)
        (replying fun o r => r = emptyReply crashedProbe o) () facts (.ok families) () ∧
      facts.probe = some crashedProbe ∧
      Produces defaultSettings (.completed 2 "" crashLog) crashedProbe ∧
      crashedProbe.exhausted = true ∧ Unrefused facts ∧
      crashedProbe.slow defaultSettings = true ∧
      samplesOf families "nf_cluster_busy" = [([], 1)] ∧
      samplesOf families "nf_cluster_probe_seconds" = [([], 1 / 20)] ∧
      ¬Unblamed defaultSettings facts crashedProbe families := by
  obtain ⟨facts, families, h, hlisted, hp, hrefused⟩ := @scraped_empty crashedProbe
    (by decide +kernel) (by decide +kernel) (by decide +kernel)
  have hslow : crashedProbe.slow defaultSettings = true := by decide +kernel
  obtain ⟨hbusy, hseconds⟩ := h.samples_listed hlisted hp hrefused
  rw [hslow] at hbusy
  refine ⟨facts, families, h, hp, crashedProbe_produced, by decide +kernel, hrefused, hslow, hbusy,
    hseconds, fun hunblamed => ?_⟩
  rw [hunblamed.not_slow] at hslow
  cases hslow

end NfOrchestrator.Metrics
