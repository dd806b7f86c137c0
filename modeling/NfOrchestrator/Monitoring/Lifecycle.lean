import NfOrchestrator.Monitoring.Outages

/-!
# NfOrchestrator.Monitoring.Lifecycle

**The alerts about a release.** Each of them reads a family that has samples for every
release that was told of (`PerRelease`). What is told in the last scrape decides whether the
rule shows the release, and the rule's `for:` is the time it has to be told so
(`release_alert_fires_iff`): nothing is remembered of a release, and a scrape in between that
tells otherwise starts the time again.
-/

namespace NfOrchestrator.Monitoring

open Prom Metrics Deploy Reconciler

variable {cfg : Settings} {moments : List Moment} {look : ℚ × List Prom.Scrape}
  {s : Prom.Scrape} {exit : Exit} {name : String} {labels : Labels} {v : ℚ}

/-! ### The samples of a release -/

/-- What a scrape told of the releases it listed. -/
def Exit.told : Exit → List (String × Told)
  | .listed told _ _ _ => told
  | .hostMisconfigured | .hostOverloaded _ | .clusterBusy | .clusterUnreachable => []

theorem Exit.Distinct.told (h : exit.Distinct) : (exit.told.map Prod.fst).Nodup := by
  cases exit with
  | listed told busy exhausted misconfigured => exact h
  | hostMisconfigured | hostOverloaded | clusterBusy | clusterUnreachable => exact List.nodup_nil

/-- The family has these samples for each release that is told of, and no others. -/
structure PerRelease (metric : String) (g : String × Told → List (List String × ℚ)) : Prop where
  not_up : metric ≠ "up"
  not_probe : ¬ofProbe metric
  samples : ∀ exit : Exit, exit.samples metric = exit.told.flatMap g
  keyed : ∀ e values v, (values, v) ∈ g e → values.head? = some e.1 ∧
    values.length = (labelsOf metric).length
  functional : ∀ e values v v', (values, v) ∈ g e → (values, v') ∈ g e → v = v'

theorem eq_of_distinct {told : List (String × Told)} (h : (told.map Prod.fst).Nodup)
    {t t' : Told} (ht : (name, t) ∈ told) (ht' : (name, t') ∈ told) : t = t' := by
  have heq := List.inj_on_of_nodup_map h ht ht' rfl
  exact (Prod.mk.inj heq).2

section values

variable {metric : String} {g : String × Told → List (List String × ℚ)}

/-- Every series of the family is of a release that was told of. -/
theorem PerRelease.labels_of_value (hg : PerRelease metric g) (hsaw : Saw s (some exit))
    (hv : s.value ⟨metric, labels⟩ = some v) : ∃ name rest,
      (name :: rest).length = (labelsOf metric).length ∧
        labels = target ++ (labelsOf metric).zip (name :: rest) := by
  obtain ⟨values, hsample, rfl⟩ := sample_of_value hsaw hg.not_up hg.not_probe hv
  rw [hg.samples] at hsample
  obtain ⟨e, -, hin⟩ := List.mem_flatMap.mp hsample
  obtain ⟨hhead, hlength⟩ := hg.keyed _ _ _ hin
  obtain ⟨rest, rfl⟩ := List.head?_eq_some_iff.mp hhead
  exact ⟨e.1, rest, hlength, rfl⟩

/-- A series of the family has a value if its release was told of, and as it was told. -/
theorem PerRelease.value_iff (hg : PerRelease metric g) (hsaw : Saw s (some exit))
    {rest : List String} (hlength : (name :: rest).length = (labelsOf metric).length) :
    s.value ⟨metric, target ++ (labelsOf metric).zip (name :: rest)⟩ = some v ↔
      ∃ t, (name, t) ∈ exit.told ∧ (name :: rest, v) ∈ g (name, t) := by
  have hzip : ∀ values, values.length = (labelsOf metric).length →
      (labelsOf metric).zip values = (labelsOf metric).zip (name :: rest) →
        values = name :: rest := by
    intro values hvalues heq
    have hsnd := congrArg (List.map Prod.snd) heq
    rwa [List.map_snd_zip hvalues.le, List.map_snd_zip hlength.le] at hsnd
  have hmem : ∀ values v, (values, v) ∈ exit.samples metric →
      (labelsOf metric).zip values = (labelsOf metric).zip (name :: rest) →
        ∃ t, (name, t) ∈ exit.told ∧ (name :: rest, v) ∈ g (name, t) := by
    intro values v hsample heq
    rw [hg.samples] at hsample
    obtain ⟨⟨name', t⟩, htold, hin⟩ := List.mem_flatMap.mp hsample
    obtain ⟨hhead, hvalues⟩ := hg.keyed _ _ _ hin
    obtain rfl := hzip values hvalues heq
    obtain rfl := Option.some.inj hhead
    exact ⟨t, htold, hin⟩
  constructor
  · intro hv
    obtain ⟨values, hsample, hlabels⟩ := sample_of_value hsaw hg.not_up hg.not_probe hv
    exact hmem values v hsample (List.append_cancel_left hlabels).symm
  · rintro ⟨t, htold, hin⟩
    have hdistinct : (exit.told.map Prod.fst).Nodup := by
      obtain ⟨families, -, hdescribes⟩ := hsaw
      exact hdescribes.distinct.told
    refine value_of_sample hsaw hg.not_up hg.not_probe ?_ fun values' v' hsample heq => ?_
    · rw [hg.samples]
      exact List.mem_flatMap.mpr ⟨_, htold, hin⟩
    · obtain ⟨t', htold', hin'⟩ := hmem values' v' hsample heq
      obtain rfl := eq_of_distinct hdistinct htold htold'
      exact hg.functional _ _ _ _ hin' hin

end values

/-! ### The families -/

/-- A family that only a scrape of the releases has samples of. -/
theorem samples_of_listed {metric : String} {g : String × Told → List (List String × ℚ)}
    (hmetric : metric ∈ ["nf_release_reported", "nf_deployment_state",
      "nf_deployment_desired_replicas", "nf_deployment_ready_replicas", "nf_last_operation_state"])
    (hlisted : ∀ told busy exhausted misconfigured,
      (Exit.listed told busy exhausted misconfigured).samples metric = told.flatMap g)
    (exit : Exit) : exit.samples metric = exit.told.flatMap g := by
  simp only [List.mem_cons, List.not_mem_nil, or_false] at hmetric
  cases exit with
  | listed told busy exhausted misconfigured => exact hlisted _ _ _ _
  | hostMisconfigured | hostOverloaded | clusterBusy | clusterUnreachable =>
      rcases hmetric with rfl | rfl | rfl | rfl | rfl <;> rfl

theorem perRelease_reported :
    PerRelease "nf_release_reported" fun e => [reportedSample e] where
  not_up := by decide
  not_probe := by decide
  samples := samples_of_listed (by decide) (by simp [Exit.samples, only, List.map_eq_flatMap])
  keyed := by simp [reportedSample, labelsOf]
  functional := by
    rintro e values v v' h h'
    exact (Prod.mk.inj ((List.mem_singleton.mp h).trans (List.mem_singleton.mp h').symm)).2

/-- A sample of a reported release with one value. -/
theorem mem_series_singleton {f : Report → ℚ} {e : String × Told} {values : List String} :
    (values, v) ∈ e.2.series (fun current => [([e.1], f current)]) ↔
      ∃ current, e.2 = .reported current ∧ values = [e.1] ∧ v = f current := by
  rcases e with ⟨name, _ | _⟩ <;> simp [Told.series]

/-- The family of a number has one sample for each release that is reported. -/
theorem perRelease_number {metric : String} {f : Report → ℚ}
    (hmetric : metric = "nf_deployment_desired_replicas" ∨
      metric = "nf_deployment_ready_replicas")
    (hlisted : ∀ told busy exhausted misconfigured,
      (Exit.listed told busy exhausted misconfigured).samples metric = told.flatMap fun e =>
        e.2.series fun current => [([e.1], f current)]) :
    PerRelease metric fun e => e.2.series fun current => [([e.1], f current)] where
  not_up := by rcases hmetric with rfl | rfl <;> decide
  not_probe := by rcases hmetric with rfl | rfl <;> decide
  samples := samples_of_listed (by rcases hmetric with rfl | rfl <;> decide) hlisted
  keyed := by
    intro e values v h
    obtain ⟨current, -, rfl, -⟩ := mem_series_singleton.mp h
    rcases hmetric with rfl | rfl <;> simp [labelsOf]
  functional := by
    intro e values v v' h h'
    obtain ⟨current, htold, -, rfl⟩ := mem_series_singleton.mp h
    obtain ⟨current', htold', -, rfl⟩ := mem_series_singleton.mp h'
    obtain rfl := Told.reported.inj (htold.symm.trans htold')
    rfl

theorem perRelease_desired : PerRelease "nf_deployment_desired_replicas" desiredSamples :=
  perRelease_number (.inl rfl) fun _ _ _ _ => by
    simp [Exit.samples, only]
    rfl

theorem perRelease_ready : PerRelease "nf_deployment_ready_replicas" readySamples :=
  perRelease_number (.inr rfl) fun _ _ _ _ => by
    simp [Exit.samples, only]
    rfl

/-- A sample of a reported release for a member of an enumeration. -/
theorem mem_series_members {α : Type} [DecidableEq α] {members : List α} {value : α → String}
    {f : Report → α} {e : String × Told} {values : List String} :
    (values, v) ∈ e.2.series (fun current => memberSamples e.1 members value (f current)) ↔
      ∃ current member, e.2 = .reported current ∧ member ∈ members ∧
        values = [e.1, value member] ∧ v = flag (f current = member) := by
  rcases e with ⟨name, _ | _⟩ <;> simp [Told.series, memberSamples, eq_comm]

/-- The family of an enumeration has, for each release that is reported, one sample for each
member. -/
theorem perRelease_members {α : Type} [DecidableEq α] {metric : String} {members : List α}
    {value : α → String} {f : Report → α} (hvalue : Function.Injective value)
    (hmetric : metric = "nf_deployment_state" ∨ metric = "nf_last_operation_state")
    (hlisted : ∀ told busy exhausted misconfigured,
      (Exit.listed told busy exhausted misconfigured).samples metric = told.flatMap fun e =>
        e.2.series fun current => memberSamples e.1 members value (f current)) :
    PerRelease metric fun e =>
      e.2.series fun current => memberSamples e.1 members value (f current) where
  not_up := by rcases hmetric with rfl | rfl <;> decide
  not_probe := by rcases hmetric with rfl | rfl <;> decide
  samples := samples_of_listed (by rcases hmetric with rfl | rfl <;> decide) hlisted
  keyed := by
    intro e values v h
    obtain ⟨current, member, -, -, rfl, -⟩ := mem_series_members.mp h
    rcases hmetric with rfl | rfl <;> simp [labelsOf]
  functional := by
    intro e values v v' h h'
    obtain ⟨current, member, htold, -, rfl, rfl⟩ := mem_series_members.mp h
    obtain ⟨current', member', htold', -, hvalues, rfl⟩ := mem_series_members.mp h'
    obtain rfl := Told.reported.inj (htold.symm.trans htold')
    obtain rfl := hvalue (by simpa using hvalues)
    rfl

theorem state_value_injective : Function.Injective State.value := by
  intro state state' h
  cases state <;> cases state' <;> simp_all [State.value]

theorem operationState_value_injective : Function.Injective OperationState.value := by
  intro state state' h
  cases state <;> cases state' <;> simp_all [OperationState.value]

theorem perRelease_state : PerRelease "nf_deployment_state" stateSamples :=
  perRelease_members state_value_injective (.inl rfl) fun _ _ _ _ => by
    simp [Exit.samples, only]
    rfl

theorem perRelease_operation : PerRelease "nf_last_operation_state" operationSamples :=
  perRelease_members operationState_value_injective (.inr rfl)
    fun _ _ _ _ => by
      simp [Exit.samples, only]
      rfl

/-! ### The symptoms -/

/-- The alerts about a release. -/
def releaseAlerts : List AlertName :=
  [.nfNotInstantiated, .nfFailed, .nfReplicaShortfall, .nfLastOperationFailed,
    .nfReleaseUnreported]

/-- What an alert about a release stands for. -/
def Symptom : AlertName → Told → Prop
  | .nfNotInstantiated, .reported current => current.state ≠ .instantiated
  | .nfFailed, .reported current => current.state = .failed
  | .nfReplicaShortfall, .reported current => current.readyReplicas < current.desiredReplicas
  | .nfLastOperationFailed, .reported current => current.lastOperation.state = .failed
  | .nfReleaseUnreported, .unreported _ => True
  | _, _ => False

/-- The labels of an alert about a release. -/
def alertLabels (a : AlertName) (name : String) : Labels :=
  target ++ ("release", name) :: match a with
    | .nfNotInstantiated => [("state", State.instantiated.value)]
    | .nfFailed => [("state", State.failed.value)]
    | .nfLastOperationFailed => [("state", OperationState.failed.value)]
    | _ => []

/-- The last scrape told that the release has the symptom. -/
def Shown (a : AlertName) (name : String) (look : ℚ × List Prom.Scrape) : Prop :=
  ∃ s exit t, seen look.2 look.1 = some s ∧ Saw s (some exit) ∧ (name, t) ∈ exit.told ∧ Symptom a t

/-! ### What the rules show -/

/-- A selected series has one newest value. -/
theorem instant_functional (h : Timely look.2) {sel : Selector} {w : ℚ}
    (hv : (labels, v) ∈ instant sel look.2 look.1) (hw : (labels, w) ∈ instant sel look.2 look.1) :
    v = w := by
  obtain ⟨-, s, hseen, hv⟩ := (mem_instant h).mp hv
  obtain ⟨-, s', hseen', hw⟩ := (mem_instant h).mp hw
  obtain rfl := Option.some.inj (hseen.symm.trans hseen')
  exact Option.some.inj (hv.symm.trans hw)

section shown

variable {metric : String} {g : String × Told → List (List String × ℚ)} {a : AlertName}
  {sel : Selector} {rest : List String}

theorem PerRelease.mem_instant_iff (hg : PerRelease metric g) (h : Timely look.2)
    (hseen : seen look.2 look.1 = some s) (hsaw : Saw s (some exit)) (hsel : sel.metric = metric)
    (hlength : (name :: rest).length = (labelsOf metric).length)
    (hmatches : sel.Matches (target ++ (labelsOf metric).zip (name :: rest))) :
    (target ++ (labelsOf metric).zip (name :: rest), v) ∈ instant sel look.2 look.1 ↔
      ∃ t, (name, t) ∈ exit.told ∧ (name :: rest, v) ∈ g (name, t) := by
  obtain rfl := hsel
  rw [mem_instant h, ← hg.value_iff hsaw hlength]
  constructor
  · rintro ⟨-, s', hseen', hv⟩
    obtain rfl := Option.some.inj (hseen.symm.trans hseen')
    exact hv
  · exact fun hv => ⟨hmatches, s, hseen, hv⟩

/-- A rule that asks for one value of one sample of a release. -/
theorem PerRelease.shows_iff (hg : PerRelease metric g) (h : Timely look.2)
    (hseen : seen look.2 look.1 = some s) (hsaw : Saw s (some exit)) {c : ℚ}
    (hrule : (rule a).expr = equals sel c) (hsel : sel.metric = metric)
    (hlabels : alertLabels a name = target ++ (labelsOf metric).zip (name :: rest))
    (hlength : (name :: rest).length = (labelsOf metric).length)
    (hmatches : sel.Matches (alertLabels a name))
    (hsymptom : ∀ t, (name :: rest, c) ∈ g (name, t) ↔ Symptom a t) :
    Shows (alertLabels a name) ((rule a).at look) ↔ ∃ t, (name, t) ∈ exit.told ∧ Symptom a t := by
  rw [hlabels] at hmatches ⊢
  simp only [← hsymptom]
  rw [← hg.mem_instant_iff h hseen hsaw hsel hlength hmatches, AlertingRule.at, hrule]
  constructor
  · rintro ⟨v, hv⟩
    rw [equals, mem_compared, decide_eq_true_iff] at hv
    obtain ⟨hv, rfl⟩ := hv
    exact hv
  · intro hv
    exact ⟨c, mem_compared.mpr ⟨hv, decide_eq_true rfl⟩⟩

theorem shows_shortfall_iff (h : Timely look.2) (hseen : seen look.2 look.1 = some s)
    (hsaw : Saw s (some exit)) :
    Shows (alertLabels .nfReplicaShortfall name) ((rule .nfReplicaShortfall).at look) ↔
      ∃ t, (name, t) ∈ exit.told ∧ Symptom .nfReplicaShortfall t := by
  have hmatches : ∀ metric labels, Selector.Matches ⟨metric, []⟩ labels := by
    simp [Selector.Matches]
  have hready : ∀ v, (alertLabels .nfReplicaShortfall name, v) ∈
      instant ⟨"nf_deployment_ready_replicas", []⟩ look.2 look.1 ↔
        ∃ t, (name, t) ∈ exit.told ∧ ([name], v) ∈ readySamples (name, t) :=
    fun v => perRelease_ready.mem_instant_iff h hseen hsaw rfl rfl (hmatches _ _)
  have hdesired : ∀ v, (alertLabels .nfReplicaShortfall name, v) ∈
      instant ⟨"nf_deployment_desired_replicas", []⟩ look.2 look.1 ↔
        ∃ t, (name, t) ∈ exit.told ∧ ([name], v) ∈ desiredSamples (name, t) :=
    fun v => perRelease_desired.mem_instant_iff h hseen hsaw rfl rfl (hmatches _ _)
  constructor
  · rintro ⟨v, hv⟩
    obtain ⟨hv, w, hw, hlt⟩ := mem_below.mp hv
    obtain ⟨t, htold, hin⟩ := (hready v).mp hv
    obtain ⟨current, rfl, -, rfl⟩ := mem_series_singleton.mp hin
    -- the other number is told with it
    have hother := (hdesired current.desiredReplicas).mpr
      ⟨_, htold, mem_series_singleton.mpr ⟨current, rfl, rfl, rfl⟩⟩
    obtain rfl := instant_functional h hw hother
    have hshort : (current.readyReplicas : ℤ) < current.desiredReplicas := by exact_mod_cast hlt
    exact ⟨_, htold, hshort⟩
  · rintro ⟨t, htold, hsymptom⟩
    cases t with
    | unreported reason => exact hsymptom.elim
    | reported current =>
        have hshort : (current.readyReplicas : ℤ) < current.desiredReplicas := hsymptom
        have hlt : (current.readyReplicas : ℚ) < current.desiredReplicas := by exact_mod_cast hshort
        have hnumber : ∀ w : ℚ, ([name], w) ∈ [([name], w)] := fun _ => List.mem_singleton_self _
        exact ⟨_, mem_below.mpr ⟨(hready _).mpr ⟨_, htold, hnumber _⟩, _,
          (hdesired _).mpr ⟨_, htold, hnumber _⟩, hlt⟩⟩

theorem lookup_state (name state : String) :
    (target ++ [("release", name), ("state", state)]).lookup "state" = some state := rfl

/-- After a scrape that ended so, the rule shows the labels of a release exactly if it was told
that the release has the symptom. -/
theorem shows_symptom_iff (h : Timely look.2) (hseen : seen look.2 look.1 = some s)
    (hsaw : Saw s (some exit)) (ha : a ∈ releaseAlerts) :
    Shows (alertLabels a name) ((rule a).at look) ↔ ∃ t, (name, t) ∈ exit.told ∧ Symptom a t := by
  have hstate : ∀ state : Reconciler.State,
      target ++ [("release", name), ("state", state.value)] =
        target ++ (labelsOf "nf_deployment_state").zip [name, state.value] := fun _ => rfl
  have hoperation : alertLabels .nfLastOperationFailed name =
      target ++ (labelsOf "nf_last_operation_state").zip [name, OperationState.failed.value] := rfl
  simp only [releaseAlerts, List.mem_cons, List.not_mem_nil, or_false] at ha
  rcases ha with rfl | rfl | rfl | rfl | rfl
  · refine perRelease_state.shows_iff h hseen hsaw rfl rfl (hstate .instantiated) rfl ?_ fun t => ?_
    · simp [Selector.Matches, stateIs, alertLabels, State.value, lookup_state]
    · cases t <;> simp [stateSamples, Told.series, memberSamples, states, State.value, flag,
        Symptom]
  · refine perRelease_state.shows_iff h hseen hsaw rfl rfl (hstate .failed) rfl ?_ fun t => ?_
    · simp [Selector.Matches, stateIs, alertLabels, State.value, lookup_state]
    · cases t <;> simp [stateSamples, Told.series, memberSamples, states, State.value, flag,
        Symptom]
  · exact shows_shortfall_iff h hseen hsaw
  · refine perRelease_operation.shows_iff h hseen hsaw rfl rfl hoperation rfl ?_ fun t => ?_
    · simp [Selector.Matches, alertLabels, OperationState.value, lookup_state]
    · cases t <;> simp [operationSamples, Told.series, memberSamples, operationStates,
        OperationState.value, flag, Symptom]
  · refine perRelease_reported.shows_iff h hseen hsaw rfl rfl rfl rfl ?_ fun t => ?_
    · simp [Selector.Matches]
    · cases t <;> simp [reportedSample, Told.isReported, flag, Symptom]

/-- What a rule reads of a family of the releases is about one of them. -/
theorem PerRelease.labels_of_mem_instant (hg : PerRelease sel.metric g) (h : Monitors cfg moments)
    (horder : InOrder moments) (hlook : look ∈ looks moments)
    (hmem : (labels, v) ∈ instant sel look.2 look.1) : sel.Matches labels ∧ ∃ name rest,
      (name :: rest).length = (labelsOf sel.metric).length ∧
        labels = target ++ (labelsOf sel.metric).zip (name :: rest) ∧
          ∃ s exit, seen look.2 look.1 = some s ∧ Saw s (some exit) := by
  obtain ⟨hmatches, s, hseen, hv⟩ := (mem_instant (horder.timely hlook)).mp hmem
  obtain ⟨_ | exit, hsaw⟩ := h.saw hlook (mem_of_seen hseen)
  · rw [Selector.series, value_of_failed hsaw hg.not_up] at hv
    cases hv
  · obtain ⟨name, rest, hlength, hlabels⟩ := hg.labels_of_value hsaw hv
    exact ⟨hmatches, name, rest, hlength, hlabels, s, exit, hseen, hsaw⟩

/-- What the rule shows is about a release, after a scrape that answered. -/
theorem labels_of_shows (h : Monitors cfg moments) (horder : InOrder moments)
    (hlook : look ∈ looks moments) (ha : a ∈ releaseAlerts)
    (hshows : Shows labels ((rule a).at look)) : ∃ name, labels = alertLabels a name ∧
      ∃ s exit, seen look.2 look.1 = some s ∧ Saw s (some exit) := by
  -- a rule that asks for one value reads a family
  have hequals : ∀ {sel : Selector} {c : ℚ}, Shows labels (equals sel c look.2 look.1) →
      ∃ v, (labels, v) ∈ instant sel look.2 look.1 :=
    fun ⟨v, hv⟩ => ⟨v, (mem_compared.mp hv).1⟩
  have hstate : ∀ {rest : List String} {name state : String}, (name :: rest).length = 2 →
      labels = target ++ ["release", "state"].zip (name :: rest) →
      labels.lookup "state" = some state →
        labels = target ++ [("release", name), ("state", state)] := by
    intro rest name state hlength hlabels hlookup
    obtain ⟨state', rfl⟩ := List.length_eq_one_iff.mp (Nat.succ.inj hlength)
    obtain rfl : state' = state := by
      rw [hlabels] at hlookup
      exact Option.some.inj hlookup
    exact hlabels
  have hone : ∀ {rest : List String} {name : String}, (name :: rest).length = 1 →
      labels = target ++ ["release"].zip (name :: rest) →
        labels = target ++ [("release", name)] := by
    intro rest name hlength hlabels
    obtain rfl := List.length_eq_zero_iff.mp (Nat.succ.inj hlength)
    exact hlabels
  simp only [releaseAlerts, List.mem_cons, List.not_mem_nil, or_false] at ha
  rcases ha with rfl | rfl | rfl | rfl | rfl
  · obtain ⟨v, hv⟩ := hequals hshows
    obtain ⟨hmatches, name, rest, hlength, hlabels, hanswered⟩ :=
      perRelease_state.labels_of_mem_instant h horder hlook hv
    exact ⟨name, hstate hlength hlabels (hmatches _ List.mem_cons_self), hanswered⟩
  · obtain ⟨v, hv⟩ := hequals hshows
    obtain ⟨hmatches, name, rest, hlength, hlabels, hanswered⟩ :=
      perRelease_state.labels_of_mem_instant h horder hlook hv
    exact ⟨name, hstate hlength hlabels (hmatches _ List.mem_cons_self), hanswered⟩
  · obtain ⟨v, hv⟩ := hshows
    obtain ⟨-, name, rest, hlength, hlabels, hanswered⟩ :=
      perRelease_ready.labels_of_mem_instant h horder hlook (mem_below.mp hv).1
    exact ⟨name, hone hlength hlabels, hanswered⟩
  · obtain ⟨v, hv⟩ := hequals hshows
    obtain ⟨hmatches, name, rest, hlength, hlabels, hanswered⟩ :=
      perRelease_operation.labels_of_mem_instant h horder hlook hv
    exact ⟨name, hstate hlength hlabels (hmatches _ List.mem_cons_self), hanswered⟩
  · obtain ⟨v, hv⟩ := hequals hshows
    obtain ⟨-, name, rest, hlength, hlabels, hanswered⟩ :=
      perRelease_reported.labels_of_mem_instant h horder hlook hv
    exact ⟨name, hone hlength hlabels, hanswered⟩

/-- The rule shows the labels of a release exactly if the last scrape told that it has the
symptom. -/
theorem shows_release_iff (h : Monitors cfg moments) (horder : InOrder moments)
    (hlook : look ∈ looks moments) (ha : a ∈ releaseAlerts) :
    Shows (alertLabels a name) ((rule a).at look) ↔ Shown a name look := by
  have htimely := horder.timely hlook
  constructor
  · intro hshows
    obtain ⟨-, -, s, exit, hseen, hsaw⟩ := labels_of_shows h horder hlook ha hshows
    obtain ⟨t, htold, hsymptom⟩ := (shows_symptom_iff htimely hseen hsaw ha).mp hshows
    exact ⟨s, exit, t, hseen, hsaw, htold, hsymptom⟩
  · rintro ⟨s, exit, t, hseen, hsaw, htold, hsymptom⟩
    exact (shows_symptom_iff htimely hseen hsaw ha).mpr ⟨t, htold, hsymptom⟩

/-- An alert about a release stands exactly as long as, over the time of its rule, every
evaluation finds that the last scrape told the symptom. -/
theorem release_alert_fires_iff (h : Monitors cfg moments) (horder : InOrder moments)
    (ha : a ∈ releaseAlerts) : Firing (run (rule a) moments).active (alertLabels a name) ↔
      ∃ suffix first last, suffix <:+ looks moments ∧ suffix.head? = some first ∧
        suffix.getLast? = some last ∧ (rule a).hold ≤ last.1 - first.1 ∧
          ∀ look ∈ suffix, Shown a name look := by
  have hshows : ∀ look ∈ looks moments,
      Shows (alertLabels a name) ((rule a).at look) ↔ Shown a name look :=
    fun look hlook => shows_release_iff h horder hlook ha
  rw [firing_iff horder]
  constructor
  · rintro ⟨suffix, first, last, hsuffix, hfirst, hlast, hhold, hall⟩
    exact ⟨suffix, first, last, hsuffix, hfirst, hlast, hhold, fun look hlook =>
      (hshows look (hsuffix.subset hlook)).mp (hall look hlook)⟩
  · rintro ⟨suffix, first, last, hsuffix, hfirst, hlast, hhold, hall⟩
    exact ⟨suffix, first, last, hsuffix, hfirst, hlast, hhold, fun look hlook =>
      (hshows look (hsuffix.subset hlook)).mpr (hall look hlook)⟩

end shown

/-- A host whose one release does not finish in time. -/
def lateReply : (o : Metrics.sig.Op) → Metrics.sig.Resp o
  | .inr (.done _ _) => false
  | o => promptReply (fun command =>
      if command = "helm" :: listArgs defaultSettings listPage 0 then
        .completed 0 "[\x7b\"name\": \"upf\"\x7d]" ""
      else .timedOut none) true none o

/-- What a scrape emits of a release that does not finish in time. -/
def lateFamilies : List GaugeMetricFamily :=
  listedFamilies defaultSettings ⟨4, true, false, false, false⟩
    { exhausted := false, misconfigured := false, late := 1,
      reported := releaseReported.addMetric ["upf"] 0 }
    (none, clusterProbeSeconds, orchestratorProbeLocalSeconds)

theorem exposed_late : Exposed defaultSettings lateFamilies :=
  exposed_of_run lateReply (by decide +kernel)

/-- The release does not finish in time for five minutes. -/
def lateFiveMinutes : List Moment :=
  [scrapedAt 0 lateFamilies, .evaluated 1, scrapedAt 150 lateFamilies, .evaluated 151,
    scrapedAt 300 lateFamilies, .evaluated 301]

theorem monitors_lateFiveMinutes : Monitors defaultSettings lateFiveMinutes := by
  simpa [Monitors, scrapesOf, lateFiveMinutes, scrapedAt] using
    And.intro (attempted_scrapedAt exposed_late 0)
      (And.intro (attempted_scrapedAt exposed_late 150) (attempted_scrapedAt exposed_late 300))

theorem inOrder_lateFiveMinutes : InOrder lateFiveMinutes where
  scrapes := by simp [Timely, scrapesOf, lateFiveMinutes, scrapedAt]; norm_num
  evaluations := by simp [looks, looksFrom, lateFiveMinutes, scrapedAt]; norm_num

theorem release_alert_fires_iff_late :
    Firing (run (rule .nfReleaseUnreported) lateFiveMinutes).active
        (alertLabels .nfReleaseUnreported "upf") ∧
      ∃ suffix first last, suffix <:+ looks lateFiveMinutes ∧ suffix.head? = some first ∧
        suffix.getLast? = some last ∧ 300 ≤ last.1 - first.1 ∧
          ∀ look ∈ suffix, Shown .nfReleaseUnreported "upf" look := by
  have hfiring : Firing (run (rule .nfReleaseUnreported) lateFiveMinutes).active
      (alertLabels .nfReleaseUnreported "upf") := ⟨⟨1, true⟩, by decide +kernel, rfl⟩
  exact ⟨hfiring, (release_alert_fires_iff monitors_lateFiveMinutes inOrder_lateFiveMinutes
    (by decide)).mp hfiring⟩

end NfOrchestrator.Monitoring
