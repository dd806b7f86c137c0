import NfOrchestrator.Metrics.Coverage
import NfOrchestrator.Monitoring.Stored

/-!
# NfOrchestrator.Monitoring.Exit

**The scrapes as the rules see them.** Of what `collect` emits the rules read, besides the
seconds of the probe, what this small type holds: where the scrape ended, and what it told
there (`exists_exit`). A series has a value after a scrape exactly if its exit has the
sample (`value_iff`).
-/

namespace NfOrchestrator.Monitoring

open Prom Metrics Deploy Reconciler

variable {cfg : Settings} {families : List GaugeMetricFamily}

/-- Where a scrape ended, and what it told there. -/
inductive Exit where
  | hostMisconfigured
  | hostOverloaded (exhausted : Bool)
  | clusterBusy
  | clusterUnreachable
  | listed (told : List (String × Told)) (busy exhausted misconfigured : Bool)

/-- The samples, if the metric is this one. -/
def only (name : String) (samples : List (List String × ℚ)) (metric : String) :
    List (List String × ℚ) := if name = metric then samples else []

/-- The samples of an exit, but for those of the probe. -/
def Exit.samples : Exit → String → List (List String × ℚ)
  | .hostMisconfigured, metric => only "nf_orchestrator_misconfigured" [([], 1)] metric
  | .hostOverloaded exhausted, metric =>
      only "nf_orchestrator_exhausted" [([], flag exhausted)] metric
  | .clusterBusy, metric =>
      only "nf_cluster_reachable" [([], 1)] metric ++ only "nf_cluster_busy" [([], 1)] metric
  | .clusterUnreachable, metric => only "nf_cluster_reachable" [([], 0)] metric
  | .listed told busy exhausted misconfigured, metric =>
      only "nf_cluster_reachable" [([], 1)] metric ++
      (only "nf_cluster_busy" [([], flag busy)] metric ++
      (only "nf_orchestrator_exhausted" [([], flag exhausted)] metric ++
      (only "nf_orchestrator_misconfigured" [([], flag misconfigured)] metric ++
      (only "nf_releases_unreported"
        (reasons.map fun reason => ([reason.label], (unreportedFor reason told : ℚ))) metric ++
      (only "nf_release_reported" (told.map reportedSample) metric ++
      (only "nf_deployment_state" (told.flatMap stateSamples) metric ++
      (only "nf_deployment_desired_replicas" (told.flatMap desiredSamples) metric ++
      (only "nf_deployment_ready_replicas" (told.flatMap readySamples) metric ++
      only "nf_last_operation_state" (told.flatMap operationSamples) metric))))))))

/-- No release is told of twice. -/
def Exit.Distinct : Exit → Prop
  | .listed told _ _ _ => (told.map Prod.fst).Nodup
  | .hostMisconfigured | .hostOverloaded _ | .clusterBusy | .clusterUnreachable => True

/-- The metrics of the probe's seconds. -/
def ofProbe (metric : String) : Prop :=
  metric = "nf_cluster_probe_seconds" ∨ metric = "nf_orchestrator_probe_local_seconds"

instance (metric : String) : Decidable (ofProbe metric) := inferInstanceAs (Decidable (_ ∨ _))

theorem samplesOf_cons (family : GaugeMetricFamily) (metric : String) :
    samplesOf (family :: families) metric =
      only family.name family.samples metric ++ samplesOf families metric := by
  by_cases h : family.name = metric <;> simp [samplesOf, only, h]

@[simp] theorem samplesOf_nil (metric : String) : samplesOf [] metric = [] := rfl

theorem only_of_ofProbe {name metric : String} (hname : ofProbe name) (hmetric : ¬ofProbe metric)
    (samples : List (List String × ℚ)) : only name samples metric = [] := by
  have hne : name ≠ metric := fun h => hmetric (h ▸ hname)
  exact if_neg hne

/-! ### The exits of `collect` -/

/-- The exit of a scrape that could not list the releases. -/
def unlistedExit (found : Findings) (exc : Exc) (r : Recorded) : Exit :=
  match exc with
  | .deploy e =>
      if e.cls = .hostMisconfigured then .hostMisconfigured
      else if e.isHostOverloaded then
        .hostOverloaded (found.exhausted || e.cls == .hostExhausted || r.1.any Probe.exhausted)
      else if e.cls = .clusterBusy then .clusterBusy
      else .clusterUnreachable
  | .os _ | .py _ => .clusterUnreachable

/-- The exit of a scrape that went through the futures. -/
def listedExit (cfg : Settings) (found : Findings) (t : Tally) (r : Recorded)
    (told : List (String × Told)) : Exit :=
  .listed told (found.throttled || t.refused != 0 || r.1.any (Probe.slow cfg))
    (t.exhausted || r.1.any Probe.exhausted)
    (t.misconfigured || r.1.any fun p => p.spawnFailure.any fun e => e.cls == .hostMisconfigured)

/-- What a scrape emitted is, but for the probe's seconds, what its exit says. -/
structure Describes (exit : Exit) (families : List GaugeMetricFamily) : Prop where
  distinct : exit.Distinct
  samples : ∀ metric, ¬ofProbe metric → samplesOf families metric = exit.samples metric
  labelled : ∀ family ∈ families, ¬ofProbe family.name → Labelled family

section exits

variable {r : Recorded} (hr : Named r)

include hr

theorem describes_unlisted (found : Findings) (exc : Exc) :
    Describes (unlistedExit found exc r) (unlistedFamilies found exc r) := by
  have hseconds : ofProbe r.2.1.name := .inl hr.1
  have hlocal : ofProbe r.2.2.name := .inr hr.2
  have hunreachable : Describes .clusterUnreachable [clusterReachable.addMetric [] 0, r.2.2] := by
    refine ⟨trivial, fun metric hmetric => ?_, ?_⟩
    · simp [samplesOf_cons, only_of_ofProbe hlocal hmetric, Exit.samples]
    · simp [Labelled, labelsOf, hlocal, GaugeMetricFamily.addMetric, clusterReachable]
  rcases exc with e | e | e
  · simp only [unlistedFamilies, unlistedExit]
    split_ifs
    · refine ⟨trivial, fun metric hmetric => ?_, ?_⟩
      · simp [samplesOf_cons, only_of_ofProbe hseconds hmetric, only_of_ofProbe hlocal hmetric,
          Exit.samples]
      · simp [Labelled, labelsOf, hseconds, hlocal, GaugeMetricFamily.addMetric,
          orchestratorMisconfigured]
    · refine ⟨trivial, fun metric hmetric => ?_, ?_⟩
      · simp [samplesOf_cons, only_of_ofProbe hseconds hmetric, only_of_ofProbe hlocal hmetric,
          Exit.samples]
      · simp [Labelled, labelsOf, hseconds, hlocal, GaugeMetricFamily.addMetric,
          orchestratorExhausted]
    · refine ⟨trivial, fun metric hmetric => ?_, ?_⟩
      · simp [samplesOf_cons, only_of_ofProbe hseconds hmetric, only_of_ofProbe hlocal hmetric,
          Exit.samples]
      · simp [Labelled, labelsOf, hseconds, hlocal, GaugeMetricFamily.addMetric,
          clusterReachable, clusterBusy]
    · exact hunreachable
  · exact hunreachable
  · exact hunreachable

theorem describes_listed (found : Findings) {t : Tally} {told : List (String × Told)}
    (ht : Tallied told t) (hdistinct : (told.map Prod.fst).Nodup)
    (hlabels : ∀ family ∈ Tally.families t, Labelled family) :
    Describes (listedExit cfg found t r told) (listedFamilies cfg found t r) := by
  have hseconds : ofProbe r.2.1.name := .inl hr.1
  have hlocal : ofProbe r.2.2.name := .inr hr.2
  refine ⟨hdistinct, fun metric hmetric => ?_, ?_⟩
  · have hunreported : t.unreported.samples =
        reasons.map fun reason => ([reason.label], (unreportedFor reason told : ℚ)) := by
      simp [Tally.unreported, releasesUnreported, reasons, Reason.label, ht.late, ht.errored,
        ht.refused, ht.ours]
    simp [listedFamilies, samplesOf_cons, only_of_ofProbe hseconds hmetric,
      only_of_ofProbe hlocal hmetric, hunreported, ht.reported_name, ht.reported, ht.state_name,
      ht.state, ht.desired_name, ht.desired, ht.ready_name, ht.ready, ht.operation_name,
      ht.operation, Exit.samples, listedExit]
  · simp only [Tally.families, List.forall_mem_cons] at hlabels
    obtain ⟨hreported, hstate, hdesired, hready, hoperation, -⟩ := hlabels
    have hunreported : Labelled t.unreported := rfl
    simp only [listedFamilies, List.forall_mem_cons]
    exact ⟨fun _ => rfl, fun _ => rfl, fun h => absurd hseconds h, fun h => absurd hlocal h,
      fun _ => rfl, fun _ => rfl, fun _ => hunreported, fun _ => hreported, fun _ => hstate,
      fun _ => hdesired, fun _ => hready, fun _ => hoperation, by simp⟩

end exits

/-- Whatever a scrape emitted, an exit describes it. -/
theorem exists_exit (h : Exposed cfg families) : ∃ exit, Describes exit families := by
  rcases h.exit with ⟨found, exc, r, rfl, hr⟩ | ⟨found, t, r, told, rfl, hr, ht, hdistinct, hlabels⟩
  · exact ⟨_, describes_unlisted hr found exc⟩
  · exact ⟨_, describes_listed hr found ht hdistinct hlabels⟩

/-! ### The series after a scrape -/

/-- What an attempt saw: nothing if it failed, and otherwise where `collect` ended. -/
def Saw (s : Scrape) : Option Exit → Prop
  | some exit => ∃ families, s.samples = stored (some families) ∧ Describes exit families
  | none => s.samples = stored none

theorem exists_saw {outcome : Option (List GaugeMetricFamily)} {s : Scrape}
    (h : Attempted cfg outcome s) : ∃ o, Saw s o := by
  cases outcome with
  | none => exact ⟨none, h.1⟩
  | some families =>
      obtain ⟨exit, hexit⟩ := exists_exit (h.2 families rfl)
      exact ⟨some exit, families, h.1, hexit⟩

section saw

variable {s : Scrape} {exit : Exit} {metric : String} {labels : Labels} {v : ℚ}

theorem mem_stored_iff (h : Describes exit families) (hup : metric ≠ "up")
    (hprobe : ¬ofProbe metric) :
    (⟨metric, labels⟩, v) ∈ stored (some families) ↔
      ∃ values, (values, v) ∈ exit.samples metric ∧
        labels = target ++ (labelsOf metric).zip values := by
  rw [stored, List.mem_cons, List.mem_flatMap, ← h.samples metric hprobe, samplesOf]
  constructor
  · rintro (heq | ⟨family, hfamily, hsample⟩)
    · exact absurd (congrArg (fun e => e.1.metric) heq) hup
    · obtain ⟨⟨values, w⟩, hmem, heq⟩ := List.mem_map.mp hsample
      obtain ⟨hseries, rfl⟩ := Prod.mk.inj heq
      obtain ⟨rfl, rfl⟩ := Series.mk.inj hseries
      refine ⟨values, List.mem_flatMap.mpr ⟨family, ?_, hmem⟩, ?_⟩
      · exact List.mem_filter.mpr ⟨hfamily, decide_eq_true rfl⟩
      rw [h.labelled family hfamily hprobe]
  · rintro ⟨values, hmem, rfl⟩
    obtain ⟨family, hfamily, hsample⟩ := List.mem_flatMap.mp hmem
    obtain ⟨hin, hname⟩ := List.mem_filter.mp hfamily
    obtain rfl := of_decide_eq_true hname
    refine .inr ⟨family, hin, List.mem_map.mpr ⟨_, hsample, ?_⟩⟩
    rw [seriesOf, h.labelled family hin hprobe]

/-- Every series that is stored has the labels of the target. -/
theorem target_of_value {o : Option Exit} (h : Saw s o) (hv : s.value ⟨metric, labels⟩ = some v) :
    ∃ own, labels = target ++ own := by
  have hmem := Scrape.mem_of_value hv
  cases o with
  | none =>
      rw [show s.samples = _ from h, stored, List.mem_singleton] at hmem
      exact ⟨[], congrArg (fun e => e.1.labels) hmem⟩
  | some exit =>
      obtain ⟨families, hsamples, -⟩ := h
      rw [hsamples, stored, List.mem_cons, List.mem_flatMap] at hmem
      rcases hmem with heq | ⟨family, -, hsample⟩
      · exact ⟨[], congrArg (fun e => e.1.labels) heq⟩
      · obtain ⟨sample, -, heq⟩ := List.mem_map.mp hsample
        exact ⟨_, (congrArg (fun e => e.1.labels) heq).symm⟩

/-- A failed attempt stores nothing but that it failed. -/
theorem value_of_failed (h : Saw s none) (hup : metric ≠ "up") :
    s.value ⟨metric, labels⟩ = none := by
  rw [Scrape.value, h, stored, List.lookup_cons, beq_false_of_ne, List.lookup_nil]
  exact fun heq => hup (congrArg Series.metric heq)

/-- No family has the name of the series that says whether an attempt succeeded. -/
theorem mem_stored_up_iff (h : Describes exit families) :
    (⟨"up", labels⟩, v) ∈ stored (some families) ↔ labels = target ∧ v = 1 := by
  have hnone : samplesOf families "up" = [] := by
    rw [h.samples "up" (by decide)]
    cases exit <;> simp [Exit.samples, only]
  rw [stored, List.mem_cons, List.mem_flatMap]
  constructor
  · rintro (heq | ⟨family, hfamily, hsample⟩)
    · obtain ⟨hseries, rfl⟩ := Prod.mk.inj heq
      exact ⟨congrArg Series.labels hseries, rfl⟩
    · obtain ⟨sample, hmem, heq⟩ := List.mem_map.mp hsample
      have hname : family.name = "up" := congrArg (fun e => e.1.metric) heq
      have hsamples : sample ∈ samplesOf families "up" :=
        List.mem_flatMap.mpr ⟨family, List.mem_filter.mpr ⟨hfamily, decide_eq_true hname⟩, hmem⟩
      rw [hnone] at hsamples
      cases hsamples
  · rintro ⟨rfl, rfl⟩
    exact .inl rfl

/-- `up` says of each attempt whether it succeeded. -/
theorem value_up_iff {o : Option Exit} (h : Saw s o) :
    s.value ⟨"up", labels⟩ = some v ↔ labels = target ∧ v = if o.isSome then 1 else 0 := by
  have hmem : ∀ w, (⟨"up", labels⟩, w) ∈ s.samples ↔
      labels = target ∧ w = if o.isSome then 1 else 0 := by
    intro w
    cases o with
    | none => simp [show s.samples = _ from h, stored, up]
    | some exit =>
        obtain ⟨families, hsamples, hexit⟩ := h
        rw [hsamples, mem_stored_up_iff hexit]
        rfl
  constructor
  · exact fun hv => (hmem v).mp (Scrape.mem_of_value hv)
  · rintro hv
    exact Scrape.value_eq_of_unique ((hmem v).mpr hv) fun v' hv' =>
      ((hmem v').mp hv').2.trans hv.2.symm

theorem sample_of_value (h : Saw s (some exit)) (hup : metric ≠ "up") (hprobe : ¬ofProbe metric)
    (hv : s.value ⟨metric, labels⟩ = some v) :
    ∃ values, (values, v) ∈ exit.samples metric ∧
      labels = target ++ (labelsOf metric).zip values := by
  obtain ⟨families, hsamples, hexit⟩ := h
  have hmem := Scrape.mem_of_value hv
  rw [hsamples] at hmem
  exact (mem_stored_iff hexit hup hprobe).mp hmem

/-- A sample of the exit is stored under its labels, if it is the only one under them. -/
theorem value_of_sample (h : Saw s (some exit)) (hup : metric ≠ "up") (hprobe : ¬ofProbe metric)
    {values : List String} (hsample : (values, v) ∈ exit.samples metric)
    (hunique : ∀ values' v', (values', v') ∈ exit.samples metric →
      (labelsOf metric).zip values' = (labelsOf metric).zip values → v' = v) :
    s.value ⟨metric, target ++ (labelsOf metric).zip values⟩ = some v := by
  obtain ⟨families, hsamples, hexit⟩ := h
  refine Scrape.value_eq_of_unique ?_ fun v' hv' => ?_
  · rw [hsamples]
    exact (mem_stored_iff hexit hup hprobe).mpr ⟨values, hsample, rfl⟩
  · rw [hsamples] at hv'
    obtain ⟨values', hmem, heq⟩ := (mem_stored_iff hexit hup hprobe).mp hv'
    exact hunique values' v' hmem (List.append_cancel_left heq).symm

/-- A gauge without labels has the one value of its sample. -/
theorem value_of_gauge (h : Saw s (some exit)) (hup : metric ≠ "up") (hprobe : ¬ofProbe metric)
    (hgauge : exit.samples metric = [([], v)]) : s.value ⟨metric, target⟩ = some v := by
  have hvalue := value_of_sample h hup hprobe (by rw [hgauge]; exact List.mem_singleton_self _)
    fun values' v' hmem _ => by
      rw [hgauge] at hmem
      exact (Prod.mk.inj (List.mem_singleton.mp hmem)).2
  rwa [List.zip_nil_right, List.append_nil] at hvalue

end saw

end NfOrchestrator.Monitoring
