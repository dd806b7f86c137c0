import NfOrchestrator.Monitoring.Lifecycle

/-!
# NfOrchestrator.Monitoring.Silence

**What it means that no alert stands.** A rule that reads the last scrape shows something
after exactly some of the ways that a scrape ends (`shows_iff_raises`). So silence says what
the last scrape was (`quiet_iff`): a listing by a host that has its tools, which found every
release as its intent asks, or one that a busy cluster or an overloaded host cut short. The
alert about this host is left aside: it measures the host by the probe's seconds as well.

An incident that lasts is not silent (`incident_fires`): if every attempt tells of it, the
alert for it fires; and where it cut every attempt short, none of the others stands.
-/

namespace NfOrchestrator.Monitoring

open Prom Metrics Deploy Reconciler

variable {cfg : Settings} {moments : List Moment} {look : ℚ × List Prom.Scrape}
  {s : Prom.Scrape} {o : Option Exit} {exit : Exit} {labels : Labels} {a : AlertName}

/-! ### What a scrape raises -/

/-- The scrape found that this host cannot run helm or kubectl. -/
def Exit.LacksTools : Exit → Prop
  | .hostMisconfigured => True
  | .listed _ _ _ misconfigured => misconfigured = true
  | .hostOverloaded _ | .clusterBusy | .clusterUnreachable => False

/-- The rules that do not read the last scrape, but those of two minutes. -/
def overTwoMinutes : List AlertName := [.clusterThrottlingOrchestrator, .orchestratorHostOverloaded]

theorem notMem_overTwoMinutes : ∀ a ∈ releaseAlerts, a ∉ overTwoMinutes := by decide

/-- What an attempt that ended so makes the other rules show. -/
def Raises : Option Exit → AlertName → Prop
  | none, a => a = .orchestratorScrapeFailing
  | some exit, a => (a = .clusterUnreachable ∧ exit = .clusterUnreachable) ∨
      (a = .orchestratorMisconfigured ∧ exit.LacksTools) ∨
      a ∈ releaseAlerts ∧ ∃ e ∈ exit.told, Symptom a e.2

theorem shows_scrapeFailing_iff (h : Timely look.2) (hseen : seen look.2 look.1 = some s)
    (hsaw : Saw s o) : Shows labels ((rule .orchestratorScrapeFailing).at look) ↔
      labels = target ∧ o = none := by
  constructor
  · intro hshows
    obtain ⟨-, s', hseen', hv⟩ := (shows_equals_iff h).mp hshows
    obtain rfl := Option.some.inj (hseen.symm.trans hseen')
    obtain ⟨hlabels, hup⟩ := (value_up_iff hsaw).mp hv
    cases o with
    | none => exact ⟨hlabels, rfl⟩
    | some exit => simp at hup
  · rintro ⟨rfl, rfl⟩
    have hmatches : upOfJob.Matches target := by decide
    exact (shows_equals_iff h).mpr ⟨hmatches, s, hseen, (value_up_iff hsaw).mpr ⟨rfl, rfl⟩⟩

theorem shows_misconfigured_iff (h : Timely look.2) (hseen : seen look.2 look.1 = some s)
    (hsaw : Saw s (some exit)) :
    Shows labels ((rule .orchestratorMisconfigured).at look) ↔
      labels = target ∧ exit.LacksTools := by
  constructor
  · intro hshows
    obtain ⟨-, s', hseen', hv⟩ := (shows_equals_iff h).mp hshows
    obtain rfl := Option.some.inj (hseen.symm.trans hseen')
    obtain ⟨values, hsample, rfl⟩ := sample_of_value hsaw (by decide) (by decide) hv
    refine ⟨by simp [labelsOf], ?_⟩
    cases exit with
    | listed told busy exhausted misconfigured =>
        cases misconfigured
        · simp [Exit.samples, only, flag] at hsample
        · rfl
    | hostMisconfigured => trivial
    | hostOverloaded | clusterBusy | clusterUnreachable => simp [Exit.samples, only] at hsample
  · rintro ⟨rfl, hexit⟩
    refine (shows_equals_iff h).mpr ⟨by simp [Selector.Matches], s, hseen, ?_⟩
    refine value_of_gauge hsaw (by decide) (by decide) ?_
    cases exit with
    | listed told busy exhausted misconfigured =>
        obtain rfl : misconfigured = true := hexit
        simp [Exit.samples, only, flag]
    | hostMisconfigured => simp [Exit.samples, only]
    | hostOverloaded | clusterBusy | clusterUnreachable => exact hexit.elim

/-- A failed attempt leaves no series to read but the one that says so. -/
theorem not_shows_of_failed (h : Timely look.2) (hseen : seen look.2 look.1 = some s)
    (hsaw : Saw s none) (hover : a ∉ overTwoMinutes) (ha : a ≠ .orchestratorScrapeFailing) :
    ¬Shows labels ((rule a).at look) := by
  have hequals : ∀ {sel : Selector} {c : ℚ}, sel.metric ≠ "up" →
      ¬Shows labels (equals sel c look.2 look.1) := by
    intro sel c hup hshows
    obtain ⟨-, s', hseen', hv⟩ := (shows_equals_iff h).mp hshows
    obtain rfl := Option.some.inj (hseen.symm.trans hseen')
    rw [Selector.series, value_of_failed hsaw hup] at hv
    cases hv
  cases a with
  | nfNotInstantiated | nfFailed | nfLastOperationFailed | nfReleaseUnreported
  | clusterUnreachable | orchestratorMisconfigured => exact hequals (by decide)
  | nfReplicaShortfall =>
      rintro ⟨v, hv⟩
      obtain ⟨-, s', hseen', hvalue⟩ := (mem_instant h).mp (mem_below.mp hv).1
      obtain rfl := Option.some.inj (hseen.symm.trans hseen')
      rw [Selector.series, value_of_failed hsaw (by decide)] at hvalue
      cases hvalue
  | orchestratorScrapeFailing => exact absurd rfl ha
  | clusterThrottlingOrchestrator | orchestratorHostOverloaded => exact absurd (by decide) hover

/-- What a rule that reads the last scrape shows is what the way it ended raises. -/
theorem shows_iff_raises (h : Monitors cfg moments) (horder : InOrder moments)
    (hlook : look ∈ looks moments) (hseen : seen look.2 look.1 = some s) (hsaw : Saw s o)
    (hover : a ∉ overTwoMinutes) :
    (∃ labels, Shows labels ((rule a).at look)) ↔ Raises o a := by
  have htimely := horder.timely hlook
  cases o with
  | none =>
      by_cases ha : a = .orchestratorScrapeFailing
      · subst ha
        exact ⟨fun _ => rfl, fun _ => ⟨target,
          (shows_scrapeFailing_iff htimely hseen hsaw).mpr ⟨rfl, rfl⟩⟩⟩
      · refine iff_of_false ?_ ha
        rintro ⟨labels, hshows⟩
        exact not_shows_of_failed htimely hseen hsaw hover ha hshows
  | some exit =>
      by_cases ha : a ∈ releaseAlerts
      · have hraises : Raises (some exit) a ↔ ∃ e ∈ exit.told, Symptom a e.2 := by
          refine ⟨?_, fun htold => .inr (.inr ⟨ha, htold⟩)⟩
          rintro (⟨rfl, -⟩ | ⟨rfl, -⟩ | ⟨-, htold⟩)
          · exact absurd ha (by decide)
          · exact absurd ha (by decide)
          · exact htold
        rw [hraises]
        constructor
        · rintro ⟨labels, hshows⟩
          obtain ⟨name, rfl, -⟩ := labels_of_shows h horder hlook ha hshows
          obtain ⟨t, htold, hsymptom⟩ := (shows_symptom_iff htimely hseen hsaw ha).mp hshows
          exact ⟨_, htold, hsymptom⟩
        · rintro ⟨⟨name, t⟩, htold, hsymptom⟩
          exact ⟨_, (shows_symptom_iff htimely hseen hsaw ha).mpr ⟨t, htold, hsymptom⟩⟩
      · cases a with
        | nfNotInstantiated | nfFailed | nfReplicaShortfall | nfLastOperationFailed
        | nfReleaseUnreported => exact absurd (by decide) ha
        | clusterThrottlingOrchestrator | orchestratorHostOverloaded =>
            exact absurd (by decide) hover
        | clusterUnreachable =>
            simp only [Raises, ha, false_and, or_false, true_and, reduceCtorEq]
            constructor
            · rintro ⟨labels, hshows⟩
              exact (clusterUnreachable_of_shows htimely hseen hsaw hshows).2
            · rintro rfl
              have hdown : Unreachable look := ⟨s, hseen, hsaw⟩
              exact ⟨target, hdown.shows htimely⟩
        | orchestratorScrapeFailing =>
            simp only [Raises, ha, false_and, or_false, reduceCtorEq, iff_false]
            rintro ⟨labels, hshows⟩
            cases ((shows_scrapeFailing_iff htimely hseen hsaw).mp hshows).2
        | orchestratorMisconfigured =>
            simp only [Raises, ha, false_and, or_false, false_or, true_and, reduceCtorEq]
            constructor
            · rintro ⟨labels, hshows⟩
              exact ((shows_misconfigured_iff htimely hseen hsaw).mp hshows).2
            · intro hexit
              exact ⟨target, (shows_misconfigured_iff htimely hseen hsaw).mpr ⟨rfl, hexit⟩⟩

/-- A rule that reads the last scrape shows nothing if there is none to read. -/
theorem exists_seen_of_shows (h : Timely look.2) (hover : a ∉ overTwoMinutes)
    (hshows : Shows labels ((rule a).at look)) : ∃ s, seen look.2 look.1 = some s := by
  have hequals : ∀ {sel : Selector} {c : ℚ}, Shows labels (equals sel c look.2 look.1) →
      ∃ s, seen look.2 look.1 = some s := by
    intro sel c hshows
    obtain ⟨-, s, hseen, -⟩ := (shows_equals_iff h).mp hshows
    exact ⟨s, hseen⟩
  cases a with
  | nfNotInstantiated | nfFailed | nfLastOperationFailed | nfReleaseUnreported
  | clusterUnreachable | orchestratorMisconfigured | orchestratorScrapeFailing =>
      exact hequals hshows
  | nfReplicaShortfall =>
      obtain ⟨v, hv⟩ := hshows
      obtain ⟨-, s, hseen, -⟩ := (mem_instant h).mp (mem_below.mp hv).1
      exact ⟨s, hseen⟩
  | clusterThrottlingOrchestrator | orchestratorHostOverloaded => exact absurd (by decide) hover

/-! ### Silence -/

/-- A release is as its intent asks, and its last operation did not fail. -/
def Healthy : Told → Prop
  | .reported current => current.state = .instantiated ∧
      current.desiredReplicas ≤ current.readyReplicas ∧ current.lastOperation.state ≠ .failed
  | .unreported _ => False

theorem healthy_iff {t : Told} : Healthy t ↔ ∀ a ∈ releaseAlerts, ¬Symptom a t := by
  cases t with
  | unreported reason => simp [Healthy, releaseAlerts, Symptom]
  | reported current =>
      simp only [Healthy, releaseAlerts, Symptom, List.forall_mem_cons, List.not_mem_nil, not_not,
        not_lt, not_false_eq_true, IsEmpty.forall_iff, implies_true, and_true]
      constructor
      · rintro ⟨hstate, hready, hoperation⟩
        exact ⟨hstate, by simp [hstate], hready, hoperation⟩
      · rintro ⟨hstate, -, hready, hoperation⟩
        exact ⟨hstate, hready, hoperation⟩

/-- An attempt that ended so tells of no trouble that a rule reads from it. -/
def Calm : Option Exit → Prop
  | some (.listed told _ _ misconfigured) => misconfigured = false ∧ ∀ e ∈ told, Healthy e.2
  | some (.hostOverloaded _) | some .clusterBusy => True
  | some .hostMisconfigured | some .clusterUnreachable | none => False

theorem calm_iff : Calm o ↔ ∀ a, a ∉ overTwoMinutes → ¬Raises o a := by
  constructor
  · rintro hcalm a -
    match o, hcalm with
    | some (.listed told busy exhausted misconfigured), hcalm =>
        rintro (⟨-, h⟩ | ⟨-, h⟩ | ⟨ha, e, he, hsymptom⟩)
        · cases h
        · exact Bool.false_ne_true (hcalm.1.symm.trans h)
        · exact healthy_iff.mp (hcalm.2 e he) a ha hsymptom
    | some (.hostOverloaded _), _ | some .clusterBusy, _ =>
        simp [Raises, Exit.LacksTools, Exit.told]
  · intro hraises
    match o with
    | none => exact hraises .orchestratorScrapeFailing (by decide) rfl
    | some .hostMisconfigured =>
        exact hraises .orchestratorMisconfigured (by decide) (.inr (.inl ⟨rfl, trivial⟩))
    | some .clusterUnreachable => exact hraises .clusterUnreachable (by decide) (.inl ⟨rfl, rfl⟩)
    | some (.hostOverloaded _) | some .clusterBusy => trivial
    | some (.listed told busy exhausted misconfigured) =>
        refine ⟨eq_false_of_ne_true fun htools => ?_, fun e he => healthy_iff.mpr ?_⟩
        · exact hraises .orchestratorMisconfigured (by decide) (.inr (.inl ⟨rfl, htools⟩))
        · intro a ha hsymptom
          exact hraises a (notMem_overTwoMinutes a ha) (.inr (.inr ⟨ha, e, he, hsymptom⟩))

/-- No alert stands, but perhaps the one about this host, exactly if the last attempt of five
minutes was calm and the attempts of two minutes were not throttled. -/
theorem quiet_iff (h : Monitors cfg moments) (horder : InOrder moments) :
    (∀ a, a ≠ .orchestratorHostOverloaded →
      ∀ labels, ¬IsActive (run (rule a) moments).active labels) ↔
        ∀ look, (looks moments).getLast? = some look → ¬Throttled look ∧
          ∀ s, seen look.2 look.1 = some s → ∃ o, Saw s o ∧ Calm o := by
  simp only [isActive_iff, not_exists, not_and]
  constructor
  · intro hsilent look hlast
    have hlook := List.mem_of_getLast? hlast
    refine ⟨fun hthrottled => ?_, fun s hseen => ?_⟩
    · exact hsilent .clusterThrottlingOrchestrator (by decide) target look hlast
        ((shows_throttling_iff h horder hlook).mpr ⟨rfl, hthrottled⟩)
    · obtain ⟨o, hsaw⟩ := h.saw hlook (mem_of_seen hseen)
      refine ⟨o, hsaw, calm_iff.mpr fun a hover hraises => ?_⟩
      obtain ⟨labels, hshows⟩ := (shows_iff_raises h horder hlook hseen hsaw hover).mpr hraises
      exact hsilent a (fun ha => hover (ha ▸ by decide)) labels look hlast hshows
  · intro hquiet a hhost labels look hlast hshows
    have hlook := List.mem_of_getLast? hlast
    obtain ⟨hthrottled, hcalm⟩ := hquiet look hlast
    by_cases ha : a = .clusterThrottlingOrchestrator
    · subst ha
      exact hthrottled ((shows_throttling_iff h horder hlook).mp hshows).2
    have hover : a ∉ overTwoMinutes := by simp [overTwoMinutes, ha, hhost]
    obtain ⟨s, hseen⟩ := exists_seen_of_shows (horder.timely hlook) hover hshows
    obtain ⟨o, hsaw, hcalm⟩ := hcalm s hseen
    exact calm_iff.mp hcalm a hover
      ((shows_iff_raises h horder hlook hseen hsaw hover).mp ⟨labels, hshows⟩)

/-- A host whose one release serves with its one replica. -/
def calmReply : (o : Metrics.sig.Op) → Metrics.sig.Resp o
  | .inr (.poll _ _) => some (.ok (.dict serving))
  | o => promptReply (fun command =>
      if command = "helm" :: listArgs defaultSettings listPage 0 then
        .completed 0 "[\x7b\"name\": \"smf\"\x7d]" ""
      else .timedOut none) true none o

/-- What a scrape emits of a release that serves. -/
def calmFamilies : List GaugeMetricFamily :=
  listedFamilies defaultSettings ⟨4, true, false, false, false⟩
    { exhausted := false, misconfigured := false
      reported := releaseReported.addMetric ["smf"] 1
      state := addMembers deploymentState "smf" states State.value .instantiated
      desired := deploymentDesiredReplicas.addMetric ["smf"] 1
      ready := deploymentReadyReplicas.addMetric ["smf"] 1
      operation := addMembers lastOperationState "smf" operationStates OperationState.value
        .completed }
    (none, clusterProbeSeconds, orchestratorProbeLocalSeconds)

theorem exposed_calm : Exposed defaultSettings calmFamilies :=
  exposed_of_run calmReply (by decide +kernel)

/-- The release serves for a minute. -/
def calmMinute : List Moment :=
  [scrapedAt 0 calmFamilies, .evaluated 1, scrapedAt 30 calmFamilies, .evaluated 61]

theorem monitors_calmMinute : Monitors defaultSettings calmMinute := by
  simpa [Monitors, scrapesOf, calmMinute, scrapedAt] using
    And.intro (attempted_scrapedAt exposed_calm 0) (attempted_scrapedAt exposed_calm 30)

theorem inOrder_calmMinute : InOrder calmMinute where
  scrapes := by simp [Timely, scrapesOf, calmMinute, scrapedAt]
  evaluations := by simp [looks, looksFrom, calmMinute, scrapedAt]

/-- There is silence while a release serves, and none while one does not finish in time. -/
theorem quiet_iff_calm :
    (∀ a, a ≠ .orchestratorHostOverloaded →
      ∀ labels, ¬IsActive (run (rule a) calmMinute).active labels) ∧
    (∀ look, (looks calmMinute).getLast? = some look → ¬Throttled look ∧
      ∀ s, seen look.2 look.1 = some s → ∃ o, Saw s o ∧ Calm o) ∧
    ¬∀ look, (looks lateFiveMinutes).getLast? = some look → ¬Throttled look ∧
      ∀ s, seen look.2 look.1 = some s → ∃ o, Saw s o ∧ Calm o := by
  have hsilent : ∀ a, a ≠ .orchestratorHostOverloaded →
      ∀ labels, ¬IsActive (run (rule a) calmMinute).active labels := by
    intro a _ labels hactive
    have hnone : (run (rule a) calmMinute).active = [] := by
      cases a <;> decide +kernel
    rw [hnone] at hactive
    obtain ⟨alert, halert⟩ := hactive
    cases halert
  have hactive : IsActive (run (rule .nfReleaseUnreported) lateFiveMinutes).active
      (alertLabels .nfReleaseUnreported "upf") := ⟨⟨1, true⟩, by decide +kernel⟩
  refine ⟨hsilent, (quiet_iff monitors_calmMinute inOrder_calmMinute).mp hsilent, ?_⟩
  rw [← quiet_iff monitors_lateFiveMinutes inOrder_lateFiveMinutes]
  exact fun hsilent => hsilent _ (by decide) _ hactive

/-! ### Incidents -/

/-- A trouble with an alert of its own. -/
inductive Incident where
  | scrapeFails
  | noTools
  | unreachable
  | busy
  | exhausted

/-- How an attempt ends that it cuts short. -/
def Incident.outcome : Incident → Option Exit
  | .scrapeFails => none
  | .noTools => some .hostMisconfigured
  | .unreachable => some .clusterUnreachable
  | .busy => some .clusterBusy
  | .exhausted => some (.hostOverloaded true)

/-- The alert for it. -/
def Incident.alert : Incident → AlertName
  | .scrapeFails => .orchestratorScrapeFailing
  | .noTools => .orchestratorMisconfigured
  | .unreachable => .clusterUnreachable
  | .busy => .clusterThrottlingOrchestrator
  | .exhausted => .orchestratorHostOverloaded

/-- The scrape was turned away by the API server, or some call of it was. -/
def Exit.FoundBusy : Exit → Prop
  | .clusterBusy => True
  | .listed _ busy _ _ => busy = true
  | .hostMisconfigured | .hostOverloaded _ | .clusterUnreachable => False

/-- The scrape found that this host has run out of what a process takes. -/
def Exit.FoundExhausted : Exit → Prop
  | .hostOverloaded exhausted | .listed _ _ exhausted _ => exhausted = true
  | .hostMisconfigured | .clusterBusy | .clusterUnreachable => False

/-- An attempt that ended so tells of the incident. -/
def Incident.IsTold : Incident → Option Exit → Prop
  | .scrapeFails, o => o = none
  | .unreachable, o => o = some .clusterUnreachable
  | .noTools, some exit => exit.LacksTools
  | .busy, some exit => exit.FoundBusy
  | .exhausted, some exit => exit.FoundExhausted
  | .noTools, none | .busy, none | .exhausted, none => False

/-- Each attempt of the last two minutes, and there was one, told of it. -/
def Incident.Seen (incident : Incident) (look : ℚ × List Prom.Scrape) : Prop :=
  recent look ≠ [] ∧ ∀ s ∈ recent look, ∃ o, Saw s o ∧ incident.IsTold o

/-- It cut each attempt of the last two minutes short. -/
def Incident.CutShort (incident : Incident) (look : ℚ × List Prom.Scrape) : Prop :=
  ∀ s ∈ recent look, Saw s incident.outcome

theorem Exit.FoundBusy.gauge (h : exit.FoundBusy) :
    exit.samples "nf_cluster_busy" = [([], 1)] := by
  cases exit with
  | clusterBusy => simp [Exit.samples, only]
  | listed told busy exhausted misconfigured =>
      obtain rfl : busy = true := h
      simp [Exit.samples, only, flag]
  | hostMisconfigured | hostOverloaded | clusterUnreachable => exact h.elim

theorem Exit.FoundExhausted.gauge (h : exit.FoundExhausted) :
    exit.samples "nf_orchestrator_exhausted" = [([], 1)] := by
  cases exit with
  | hostOverloaded exhausted =>
      obtain rfl : exhausted = true := h
      simp [Exit.samples, only, flag]
  | listed told busy exhausted misconfigured =>
      obtain rfl : exhausted = true := h
      simp [Exit.samples, only, flag]
  | hostMisconfigured | clusterBusy | clusterUnreachable => exact h.elim

theorem exists_seen_of_recent (h : Timely look.2) (hrecent : recent look ≠ []) :
    ∃ s, seen look.2 look.1 = some s ∧ s ∈ recent look := by
  obtain ⟨s₀, hs₀⟩ := List.exists_mem_of_ne_nil _ hrecent
  obtain ⟨hmem₀, hspan⟩ := List.mem_filter.mp hs₀
  have htime₀ : look.1 - 120 < s₀.time ∧ s₀.time ≤ look.1 := of_decide_eq_true hspan
  have hpast : s₀ ∈ look.2.filter fun s => s.time ≤ look.1 :=
    List.mem_filter.mpr ⟨hmem₀, decide_eq_true htime₀.2⟩
  obtain ⟨s, hs⟩ :=
    Option.isSome_iff_exists.mp (List.getLast?_isSome.mpr (List.ne_nil_of_mem hpast))
  obtain ⟨hmem, hle⟩ := List.mem_filter.mp (List.mem_of_getLast? hs)
  -- the last one is no older than the one of the last two minutes
  have hlater : s₀.time ≤ s.time := by
    obtain ⟨init, hinit⟩ := List.getLast?_eq_some_iff.mp hs
    have hsorted : Timely (look.2.filter fun s => s.time ≤ look.1) := h.sublist List.filter_sublist
    rw [hinit] at hpast hsorted
    rcases List.mem_append.mp hpast with hpast | hpast
    · exact (List.pairwise_append.mp hsorted).2.2 s₀ hpast s (List.mem_singleton_self _)
    · rw [List.mem_singleton.mp hpast]
  have hnew : look.1 - 120 < s.time := htime₀.1.trans_le hlater
  have hfresh : look.1 - lookbackDelta < s.time := by
    unfold lookbackDelta
    linarith
  refine ⟨s, Option.filter_eq_some_iff.mpr ⟨hs, decide_eq_true hfresh⟩, ?_⟩
  exact List.mem_filter.mpr ⟨hmem, decide_eq_true ⟨hnew, of_decide_eq_true hle⟩⟩

section incident

variable {incident : Incident} (h : Monitors cfg moments) (horder : InOrder moments)
  (hlook : look ∈ looks moments) (hincident : incident.Seen look)

/-- Every attempt of the last two minutes found that the gauge is 1. -/
theorem found_of_forall {metric : String}
    (hall : ∀ s ∈ recent look, s.value ⟨metric, target⟩ = some 1) :
    found metric look = (recent look).length :=
  List.countP_eq_length.mpr fun s hs => decide_eq_true (hall s hs)

theorem Incident.CutShort.not_throttled (hcut : incident.CutShort look)
    (hne : incident.alert ≠ .clusterThrottlingOrchestrator) : ¬Throttled look := by
  intro hthrottled
  have hnone : ∀ s ∈ recent look, ¬(s.value ⟨"nf_cluster_busy", target⟩ = some 1) := by
    intro s hs hv
    have hsaw := hcut s hs
    cases incident with
    | scrapeFails =>
        rw [value_of_failed hsaw (by decide)] at hv
        cases hv
    | busy => exact hne rfl
    | noTools | unreachable | exhausted =>
        obtain ⟨values, hsample, -⟩ := sample_of_value hsaw (by decide) (by decide) hv
        simp [Exit.samples, only] at hsample
  have hfound : found "nf_cluster_busy" look = 0 :=
    List.countP_eq_zero.mpr fun s hs heq => hnone s hs (of_decide_eq_true heq)
  have hlength := List.length_pos_iff.mpr hthrottled.attempted
  have hhalf := hthrottled.half
  omega

include horder hlook hincident

/-- The last attempt is one that told of the incident. -/
theorem Incident.Seen.last :
    ∃ s o, seen look.2 look.1 = some s ∧ s ∈ recent look ∧ Saw s o ∧ incident.IsTold o := by
  obtain ⟨s, hseen, hs⟩ := exists_seen_of_recent (horder.timely hlook) hincident.1
  obtain ⟨o, hsaw, htold⟩ := hincident.2 s hs
  exact ⟨s, o, hseen, hs, hsaw, htold⟩

include h

theorem Incident.Seen.shows : Shows target ((rule incident.alert).at look) := by
  obtain ⟨s, o, hseen, -, hsaw, htold⟩ := hincident.last horder hlook
  have htimely := horder.timely hlook
  cases incident with
  | scrapeFails => exact (shows_scrapeFailing_iff htimely hseen hsaw).mpr ⟨rfl, htold⟩
  | noTools =>
      cases o with
      | none => exact htold.elim
      | some exit => exact (shows_misconfigured_iff htimely hseen hsaw).mpr ⟨rfl, htold⟩
  | unreachable =>
      obtain rfl : o = some .clusterUnreachable := htold
      have hdown : Unreachable look := ⟨s, hseen, hsaw⟩
      exact hdown.shows htimely
  | busy =>
      have hfound := @found_of_forall look "nf_cluster_busy" fun s hs => by
        obtain ⟨o, hsaw, htold⟩ := hincident.2 s hs
        cases o with
        | none => exact htold.elim
        | some exit => exact value_of_gauge hsaw (by decide) (by decide) htold.gauge
      refine (shows_throttling_iff h horder hlook).mpr ⟨rfl, hincident.1, by omega, fun hdown => ?_⟩
      obtain ⟨v, hv⟩ := hdown.shows htimely
      cases o with
      | none => exact htold.elim
      | some exit =>
          obtain ⟨-, rfl⟩ := clusterUnreachable_of_shows htimely hseen hsaw ⟨v, hv⟩
          exact htold.elim
  | exhausted =>
      have hfound := @found_of_forall look "nf_orchestrator_exhausted" fun s hs => by
        obtain ⟨o, hsaw, htold⟩ := hincident.2 s hs
        cases o with
        | none => exact htold.elim
        | some exit => exact value_of_gauge hsaw (by decide) (by decide) htold.gauge
      refine labels_mem_orElse.mpr (.inr ?_)
      refine (isFlag_exhausted.shows_share_iff h hlook (by norm_num)).mpr ⟨rfl, hincident.1, ?_⟩
      rw [hfound]
      have hpos : (0 : ℚ) ≤ (recent look).length := Nat.cast_nonneg _
      linarith

theorem Incident.Seen.not_shows (hcut : incident.CutShort look) (ha : a ≠ incident.alert)
    (hhost : a ≠ .orchestratorHostOverloaded) : ¬Shows labels ((rule a).at look) := by
  intro hshows
  obtain ⟨s, _, hseen, hs, -, -⟩ := hincident.last horder hlook
  have hsaw := hcut s hs
  by_cases hbusy : a = .clusterThrottlingOrchestrator
  · subst hbusy
    exact hcut.not_throttled (Ne.symm ha) ((shows_throttling_iff h horder hlook).mp hshows).2
  have hover : a ∉ overTwoMinutes := by simp [overTwoMinutes, hbusy, hhost]
  have hraises := (shows_iff_raises h horder hlook hseen hsaw hover).mp ⟨labels, hshows⟩
  cases incident with
  | scrapeFails => exact ha hraises
  | noTools | unreachable | busy | exhausted =>
      rcases hraises with ⟨rfl, hexit⟩ | ⟨rfl, hexit⟩ | ⟨-, e, he, -⟩
      · first | exact ha rfl | cases hexit
      · first | exact ha rfl | exact hexit
      · cases he

end incident

/-- An incident that every attempt tells of for a minute fires its alert; and if it cut the
last attempts short, it leaves no other alert but the one about this host. -/
theorem incident_fires (h : Monitors cfg moments) (horder : InOrder moments) {incident : Incident}
    {suffix : List (ℚ × List Prom.Scrape)} {first last : ℚ × List Prom.Scrape}
    (hsuffix : suffix <:+ looks moments) (hfirst : suffix.head? = some first)
    (hlast : suffix.getLast? = some last) (hminute : 60 ≤ last.1 - first.1)
    (hincident : ∀ look ∈ suffix, incident.Seen look) :
    Firing (run (rule incident.alert) moments).active target ∧
      (incident.CutShort last → ∀ a, a ≠ incident.alert → a ≠ .orchestratorHostOverloaded →
        ∀ labels, ¬IsActive (run (rule a) moments).active labels) := by
  have hhold : (rule incident.alert).hold = 60 := by cases incident <;> rfl
  constructor
  · refine (firing_iff horder).mpr ⟨suffix, first, last, hsuffix, hfirst, hlast, ?_, ?_⟩
    · rwa [hhold]
    · exact fun look hlook => (hincident look hlook).shows h horder (hsuffix.subset hlook)
  · intro hcut a ha hhost labels hactive
    obtain ⟨look, hlook, hshows⟩ := isActive_iff.mp hactive
    obtain ⟨earlier, hearlier⟩ := hsuffix
    have hlast' : (looks moments).getLast? = some last := by
      rw [← hearlier, List.getLast?_append, hlast, Option.some_or]
    obtain rfl := Option.some.inj (hlook.symm.trans hlast')
    exact (hincident _ (List.mem_of_getLast? hlast)).not_shows h horder
      (List.mem_of_getLast? hlook) hcut ha hhost hshows

theorem saw_down (time : ℚ) :
    Saw ⟨time, stored (some downFamilies)⟩ (some .clusterUnreachable) := by
  have hnamed : Named (none, clusterProbeSeconds, orchestratorProbeLocalSeconds) := ⟨rfl, rfl⟩
  exact ⟨downFamilies, rfl, describes_unlisted hnamed ⟨4, true, false, false, false⟩
    (.deploy ⟨.clusterUnreachable, ""⟩)⟩

theorem incident_fires_minute :
    Firing (run (rule .clusterUnreachable) downAMinute).active target ∧
      ∀ a, a ≠ .clusterUnreachable → a ≠ .orchestratorHostOverloaded →
        ∀ labels, ¬IsActive (run (rule a) downAMinute).active labels := by
  have hcut : ∀ look ∈ looks downAMinute,
      recent look ≠ [] ∧ Incident.unreachable.CutShort look := by
    simp only [looks, looksFrom, downAMinute, scrapedAt, List.nil_append, List.cons_append,
      List.forall_mem_cons, List.not_mem_nil, IsEmpty.forall_iff, implies_true, and_true]
    refine ⟨⟨by simp [recent], fun s hs => ?_⟩, by simp [recent]; norm_num, fun s hs => ?_⟩
    · rw [List.mem_singleton.mp (List.mem_of_mem_filter hs)]
      exact saw_down 0
    · rcases List.mem_cons.mp (List.mem_of_mem_filter hs) with rfl | hs
      · exact saw_down 0
      · rw [List.mem_singleton.mp hs]
        exact saw_down 30
  have hseen : ∀ look ∈ looks downAMinute, Incident.unreachable.Seen look :=
    fun look hlook => ⟨(hcut look hlook).1, fun s hs => ⟨_, (hcut look hlook).2 s hs, rfl⟩⟩
  have hminute : (60 : ℚ) ≤ 61 - 1 := by norm_num
  obtain ⟨hfiring, halone⟩ := @incident_fires _ _ monitors_downAMinute inOrder_downAMinute
    .unreachable _ _ _ List.suffix_rfl rfl rfl hminute hseen
  exact ⟨hfiring, halone (hcut _ (by simp [looks, looksFrom, downAMinute, scrapedAt])).2⟩

end NfOrchestrator.Monitoring
