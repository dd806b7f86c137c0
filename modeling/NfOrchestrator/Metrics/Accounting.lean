import NfOrchestrator.Metrics.Admission

/-!
# NfOrchestrator.Metrics.Accounting

**What becomes of each release.** The loop of `collect` reads every future once and
sorts its release: reported with its lifecycle series, or unreported for one of four
reasons (`Told`). The families it builds are a function of the releases told so far
(`Tallied`), and so are those the scrape emits (`Tells`).
-/

namespace NfOrchestrator.Metrics

open Deploy Reconciler

/-! ### Outcomes -/

/-- The `reason` labels of `nf_releases_unreported`. -/
inductive Reason where
  | deadline
  | error
  | busy
  | host
  deriving DecidableEq

def Reason.label : Reason → String
  | .deadline => "deadline"
  | .error => "error"
  | .busy => "busy"
  | .host => "host"

/-- The reasons in the order they are emitted. -/
def reasons : List Reason := [.deadline, .error, .busy, .host]

/-- What a scrape tells about a release. -/
inductive Told where
  | reported (current : Report)
  | unreported (reason : Reason)
  deriving DecidableEq

namespace Told

def isReported : Told → Bool
  | .reported _ => true
  | .unreported _ => false

/-- The samples emitted for a release that is reported. -/
def series (f : Report → List (List String × ℚ)) : Told → List (List String × ℚ)
  | .reported current => f current
  | .unreported _ => []

end Told

def Unread.reason : Unread → Reason
  | .busy => .busy
  | .host | .exhausted | .misconfigured => .host
  | .none => .error

/-- How a release is sorted by what its future held. -/
def tell : Option Snapshot → Told
  | none => .unreported .deadline
  | some (.unread why) => .unreported why.reason
  | some (.dict current) => .reported current

/-- The desired count converts to a float. -/
def Fits (current : Report) : Prop := |(current.desiredReplicas : ℚ)| < Json.doubleOverflow

instance (current : Report) : Decidable (Fits current) :=
  inferInstanceAs (Decidable (_ < _))

theorem toFloat_of_lt {n : ℤ} (h : |(n : ℚ)| < Json.doubleOverflow) : toFloat n = .ok (n : ℚ) := by
  rw [toFloat, if_neg (not_le.mpr h)]

theorem toFloat_of_le {n : ℤ} (h : Json.doubleOverflow ≤ |(n : ℚ)|) :
    toFloat n = .error .overflowError := by
  rw [toFloat, if_pos h]

/-! ### The samples of a release -/

def reportedSample (e : String × Told) : List String × ℚ := ([e.1], flag e.2.isReported)

/-- One sample for each member of an enumeration. -/
def memberSamples {α : Type} [DecidableEq α] (name : String) (members : List α)
    (value : α → String) (current : α) : List (List String × ℚ) :=
  members.map fun member => ([name, value member], flag (current = member))

def stateSamples (e : String × Told) : List (List String × ℚ) :=
  e.2.series fun current => memberSamples e.1 states State.value current.state

def desiredSamples (e : String × Told) : List (List String × ℚ) :=
  e.2.series fun current => [([e.1], (current.desiredReplicas : ℚ))]

def readySamples (e : String × Told) : List (List String × ℚ) :=
  e.2.series fun current => [([e.1], (current.readyReplicas : ℚ))]

def operationSamples (e : String × Told) : List (List String × ℚ) :=
  e.2.series fun current =>
    memberSamples e.1 operationStates OperationState.value current.lastOperation.state

/-- How many releases are unreported for this reason. -/
def unreportedFor (reason : Reason) (told : List (String × Told)) : ℕ :=
  told.countP fun e => e.2 = .unreported reason

theorem addMembers_samples {α : Type} [DecidableEq α] (family : GaugeMetricFamily) (name : String)
    (members : List α) (value : α → String) (current : α) :
    (addMembers family name members value current).samples =
      family.samples ++ memberSamples name members value current := by
  induction members generalizing family with
  | nil => simp [addMembers, memberSamples]
  | cons member rest ih =>
      have hrest := ih (family.addMetric [name, value member] (flag (current = member)))
      rw [addMembers] at hrest ⊢
      simpa [memberSamples] using hrest

theorem addMembers_name {α : Type} [DecidableEq α] (family : GaugeMetricFamily) (name : String)
    (members : List α) (value : α → String) (current : α) :
    (addMembers family name members value current).name = family.name := by
  induction members generalizing family with
  | nil => rfl
  | cons member rest ih => exact ih (family.addMetric [name, value member] _)

/-! ### The loop -/

/-- The tally is that of the releases told so far. -/
structure Tallied (told : List (String × Told)) (t : Tally) : Prop where
  reported_name : t.reported.name = "nf_release_reported"
  reported : t.reported.samples = told.map reportedSample
  state_name : t.state.name = "nf_deployment_state"
  state : t.state.samples = told.flatMap stateSamples
  desired_name : t.desired.name = "nf_deployment_desired_replicas"
  desired : t.desired.samples = told.flatMap desiredSamples
  ready_name : t.ready.name = "nf_deployment_ready_replicas"
  ready : t.ready.samples = told.flatMap readySamples
  operation_name : t.operation.name = "nf_last_operation_state"
  operation : t.operation.samples = told.flatMap operationSamples
  late : t.late = unreportedFor .deadline told
  errored : t.errored = unreportedFor .error told
  refused : t.refused = unreportedFor .busy told
  ours : t.ours = unreportedFor .host told

theorem tallied_nil (exhausted misconfigured : Bool) :
    Tallied [] { exhausted := exhausted, misconfigured := misconfigured } :=
  ⟨rfl, rfl, rfl, rfl, rfl, rfl, rfl, rfl, rfl, rfl, rfl, rfl, rfl, rfl⟩

theorem unreportedFor_snoc (reason : Reason) (told : List (String × Told)) (e : String × Told) :
    unreportedFor reason (told ++ [e]) =
      unreportedFor reason told + if e.2 = .unreported reason then 1 else 0 := by
  simp [unreportedFor, List.countP_cons]

/-- A release that is not reported adds to one of the counts, and nothing to the series. -/
theorem Tallied.silent {told : List (String × Told)} {t t' : Tally} (h : Tallied told t)
    {name : String} {reason : Reason}
    (hreported : t'.reported = t.reported.addMetric [name] 0) (hstate : t'.state = t.state)
    (hdesired : t'.desired = t.desired) (hready : t'.ready = t.ready)
    (hoperation : t'.operation = t.operation)
    (hlate : t'.late = t.late + if reason = .deadline then 1 else 0)
    (herrored : t'.errored = t.errored + if reason = .error then 1 else 0)
    (hrefused : t'.refused = t.refused + if reason = .busy then 1 else 0)
    (hours : t'.ours = t.ours + if reason = .host then 1 else 0) :
    Tallied (told ++ [(name, .unreported reason)]) t' where
  reported_name := by rw [hreported, GaugeMetricFamily.addMetric_name, h.reported_name]
  reported := by
    rw [hreported, GaugeMetricFamily.addMetric_samples, h.reported, List.map_append]
    rfl
  state_name := by rw [hstate, h.state_name]
  state := by simp [hstate, h.state, stateSamples, Told.series]
  desired_name := by rw [hdesired, h.desired_name]
  desired := by simp [hdesired, h.desired, desiredSamples, Told.series]
  ready_name := by rw [hready, h.ready_name]
  ready := by simp [hready, h.ready, readySamples, Told.series]
  operation_name := by rw [hoperation, h.operation_name]
  operation := by simp [hoperation, h.operation, operationSamples, Told.series]
  late := by simp [hlate, h.late, unreportedFor_snoc]
  errored := by simp [herrored, h.errored, unreportedFor_snoc]
  refused := by simp [hrefused, h.refused, unreportedFor_snoc]
  ours := by simp [hours, h.ours, unreportedFor_snoc]

/-- A release that is reported adds its lifecycle series, and nothing to the counts. -/
theorem Tallied.emit {told : List (String × Told)} {t : Tally} (h : Tallied told t) (name : String)
    {current : Report} (hfits : Fits current) :
    ∃ t', t.emit name current = .ok t' ∧ Tallied (told ++ [(name, .reported current)]) t' := by
  refine ⟨_, by rw [Tally.emit, toFloat_of_lt hfits]; rfl, ?_⟩
  constructor
  · exact h.reported_name
  · rw [GaugeMetricFamily.addMetric_samples, h.reported, List.map_append]
    rfl
  · rw [addMembers_name, h.state_name]
  · rw [addMembers_samples, h.state]
    simp [stateSamples, Told.series]
  · exact h.desired_name
  · rw [GaugeMetricFamily.addMetric_samples, h.desired]
    simp [desiredSamples, Told.series]
  · exact h.ready_name
  · rw [GaugeMetricFamily.addMetric_samples, h.ready]
    simp [readySamples, Told.series]
  · rw [addMembers_name, h.operation_name]
  · rw [addMembers_samples, h.operation]
    simp [operationSamples, Told.series]
  · simp [h.late, unreportedFor_snoc]
  · simp [h.errored, unreportedFor_snoc]
  · simp [h.refused, unreportedFor_snoc]
  · simp [h.ours, unreportedFor_snoc]

/-- The future's result, if it has one, is not an exception and can be emitted. -/
def Emittable : Option (Except Exc Snapshot) → Prop
  | none => True
  | some (.ok (.dict current)) => Fits current
  | some (.ok (.unread _)) => True
  | some (.error _) => False

/-- How the loop sorts a release by its future. -/
def sorted : Option (Except Exc Snapshot) → Told
  | some (.ok s) => tell (some s)
  | none | some (.error _) => tell none

/-- One turn of the loop keeps the tally. -/
theorem Tallied.add {told : List (String × Told)} {t : Tally} (h : Tallied told t) (name : String)
    {current : Option Snapshot} (hcurrent : Emittable (current.map .ok)) :
    ∃ t', t.add name current = .ok t' ∧ Tallied (told ++ [(name, tell current)]) t' := by
  rcases current with _ | current | why
  · exact ⟨_, rfl, h.silent rfl rfl rfl rfl rfl rfl rfl rfl rfl⟩
  · exact h.emit name hcurrent
  · cases why with
    | busy => exact ⟨_, rfl, h.silent rfl rfl rfl rfl rfl rfl rfl rfl rfl⟩
    | host => exact ⟨_, rfl, h.silent rfl rfl rfl rfl rfl rfl rfl rfl rfl⟩
    | exhausted => exact ⟨_, rfl, h.silent rfl rfl rfl rfl rfl rfl rfl rfl rfl⟩
    | misconfigured => exact ⟨_, rfl, h.silent rfl rfl rfl rfl rfl rfl rfl rfl rfl⟩
    | none => exact ⟨_, rfl, h.silent rfl rfl rfl rfl rfl rfl rfl rfl rfl⟩

/-- A count too large for a float ends the loop. -/
theorem add_of_not_emittable (t : Tally) (name : String) {current : Snapshot}
    (hcurrent : ¬Emittable (some (.ok current))) :
    t.add name (some current) = .error .overflowError := by
  cases current with
  | unread why => exact absurd trivial hcurrent
  | dict current =>
      change t.emit name current = _
      rw [Tally.emit, toFloat_of_le (not_lt.mp hcurrent)]
      rfl

/-! ### The futures -/

/-- What is found of a future, when `outcome` is found of the jobs that were started. -/
def held (outcome : Job → Option (Except Exc Snapshot)) :
    Future → Option (Except Exc Snapshot)
  | .started name pods => outcome (name, pods)
  | .settled => some (.ok (.unread .exhausted))
  | .neverStarted => none

/-- What is told of the releases of these futures. -/
def toldOf (outcome : Job → Option (Except Exc Snapshot)) (futures : List (String × Future)) :
    List (String × Told) :=
  futures.map fun e => (e.1, sorted (held outcome e.2))

variable {R : (o : Deploy.Op) → Deploy.Resp o → Prop}
  {outcome : Job → Option (Except Exc Snapshot)} {jobs : List Job}

theorem wp_poll {future : Future} {Q : Except Exc (Option Snapshot) → List Job → Prop}
    (hnone : held outcome future = none → Q (.ok none) jobs)
    (hok : ∀ s, held outcome future = some (.ok s) → Q (.ok (some s)) jobs)
    (herror : ∀ exc, held outcome future = some (.error exc) → Q (.error exc) jobs) :
    future.poll.wp (scraping R fun job found => found = outcome job).spec Q jobs := by
  cases future with
  | settled => exact hok _ rfl
  | neverStarted => exact hnone rfl
  | started name pods =>
      rw [Future.poll, Prog.wp_bind, wp_perform]
      intro found _ h
      obtain ⟨rfl, rfl⟩ := h
      rw [Prog.bindPost_ok]
      cases hfound : outcome (name, pods) with
      | none => exact hnone hfound
      | some result =>
          cases result with
          | ok s => exact hok s hfound
          | error exc => exact herror exc hfound

/-- How the loop over these futures can end: with the tally of all releases, or at the
first future whose result cannot be emitted. -/
def Accounts (outcome : Job → Option (Except Exc Snapshot)) (told : List (String × Told))
    (futures : List (String × Future)) (x : Except Exc Tally) : Prop :=
  ((∀ e ∈ futures, Emittable (held outcome e.2)) ∧
      ∃ t, x = .ok t ∧ Tallied (told ++ toldOf outcome futures) t) ∨
    (∃ e ∈ futures, ¬Emittable (held outcome e.2)) ∧ ∃ exc, x = .error exc

theorem Accounts.cons {told : List (String × Told)} {e : String × Future}
    {rest : List (String × Future)} {x : Except Exc Tally}
    (h : Accounts outcome (told ++ toldOf outcome [e]) rest x)
    (he : Emittable (held outcome e.2)) : Accounts outcome told (e :: rest) x := by
  rcases h with ⟨hrest, t, rfl, ht⟩ | ⟨⟨e', he', hbad⟩, exc, rfl⟩
  · refine .inl ⟨List.forall_mem_cons.mpr ⟨he, hrest⟩, t, rfl, ?_⟩
    simpa [toldOf] using ht
  · exact .inr ⟨⟨e', List.mem_cons_of_mem _ he', hbad⟩, exc, rfl⟩

theorem accounts_error {told : List (String × Told)} {e : String × Future}
    (rest : List (String × Future)) (he : ¬Emittable (held outcome e.2)) (exc : Exc) :
    Accounts outcome told (e :: rest) (.error exc) :=
  .inr ⟨⟨e, List.mem_cons_self, he⟩, exc, rfl⟩

theorem wp_account {told : List (String × Told)} {t : Tally} (h : Tallied told t)
    (futures : List (String × Future)) :
    (account t futures).wp (scraping R fun job found => found = outcome job).spec
      (fun x jobs' => jobs' = jobs ∧ Accounts outcome told futures x) jobs := by
  induction futures generalizing told t with
  | nil => exact ⟨rfl, .inl ⟨by simp, t, rfl, by simpa [toldOf] using h⟩⟩
  | cons e rest ih =>
      obtain ⟨name, future⟩ := e
      -- The loop goes on from what this future was sorted as.
      have hgo : ∀ current : Option Snapshot, held outcome future = current.map .ok →
          (engine (ofPy (t.add name current)) >>= fun t => account t rest).wp
            (scraping R fun job found => found = outcome job).spec
            (fun x jobs' => jobs' = jobs ∧ Accounts outcome told ((name, future) :: rest) x)
            jobs := by
        intro current hheld
        rw [Prog.wp_bind, wp_engine, wp_ofPy]
        by_cases hcurrent : Emittable (current.map .ok)
        · obtain ⟨t', hadd, ht'⟩ := h.add name hcurrent
          have hsorted : toldOf outcome [(name, future)] = [(name, tell current)] := by
            rw [toldOf, List.map_singleton, hheld]
            cases current <;> rfl
          rw [← hsorted] at ht'
          rw [hadd]
          refine Prog.wp_mono (Env.spec_mono _) ?_ (ih ht')
          intro x jobs' hx
          obtain ⟨rfl, hrest⟩ := hx
          exact ⟨rfl, hrest.cons (hheld ▸ hcurrent)⟩
        · cases current with
          | none => exact absurd trivial hcurrent
          | some s =>
              rw [add_of_not_emittable t name hcurrent]
              exact ⟨rfl, accounts_error rest (hheld ▸ hcurrent) _⟩
      rw [account, Prog.wp_bind]
      refine wp_poll (hgo none) (fun s hs => hgo (some s) hs) fun exc hexc => ?_
      refine ⟨rfl, accounts_error rest ?_ exc⟩
      rw [hexc]
      exact id

/-! ### What is emitted -/

/-- The samples of the families of this name. -/
def samplesOf (families : List GaugeMetricFamily) (family : String) : List (List String × ℚ) :=
  (families.filter fun f => f.name = family).flatMap GaugeMetricFamily.samples

/-- The families say what was told of the releases, and say it of no others. -/
structure Tells (told : List (String × Told)) (families : List GaugeMetricFamily) : Prop where
  reported : samplesOf families "nf_release_reported" = told.map reportedSample
  state : samplesOf families "nf_deployment_state" = told.flatMap stateSamples
  desired : samplesOf families "nf_deployment_desired_replicas" = told.flatMap desiredSamples
  ready : samplesOf families "nf_deployment_ready_replicas" = told.flatMap readySamples
  operation : samplesOf families "nf_last_operation_state" = told.flatMap operationSamples
  unreported : samplesOf families "nf_releases_unreported" =
    reasons.map fun reason => ([reason.label], (unreportedFor reason told : ℚ))

theorem Tallied.tells {told : List (String × Told)} {t : Tally} (h : Tallied told t)
    {probeSeconds probeLocal : GaugeMetricFamily}
    (hseconds : probeSeconds.name = "nf_cluster_probe_seconds")
    (hlocal : probeLocal.name = "nf_orchestrator_probe_local_seconds") (busy exhausted
    misconfigured : ℚ) :
    Tells told [clusterReachable.addMetric [] 1, clusterBusy.addMetric [] busy, probeSeconds,
      probeLocal, orchestratorExhausted.addMetric [] exhausted,
      orchestratorMisconfigured.addMetric [] misconfigured, t.unreported, t.reported, t.state,
      t.desired, t.ready, t.operation] := by
  constructor <;>
    simp [samplesOf, hseconds, hlocal, h.reported_name, h.state_name, h.desired_name,
      h.ready_name, h.operation_name]
  · exact h.reported
  · exact h.state
  · exact h.desired
  · exact h.ready
  · exact h.operation
  · simp [Tally.unreported, releasesUnreported, reasons, Reason.label, h.late, h.errored,
      h.refused, h.ours]

/-- The sample of the cluster's seconds. -/
def secondsSamples (p : Probe) : List (List String × ℚ) :=
  match p.roundTrip with
  | some seconds => [([], seconds)]
  | none => if p.started then [([], p.seconds)] else []

/-- What is recorded is nothing, or a probe in its two families. The calls keep what holds of
the world. -/
theorem wp_recordProbe {W : Type} {E : Env sig W} {P : W → Prop} {w : W} {started : Bool}
    {deadline : ℚ} {clusterSeconds localSeconds : GaugeMetricFamily}
    {Q : Except Exc (Option Probe × GaugeMetricFamily × GaugeMetricFamily) → W → Prop}
    (hclock : ∀ w now w', P w → E (.inl .monotonic) w now w' → P w')
    (hjoin : ∀ seconds w r w', P w → E (.inr (.joinProber seconds)) w r w' → P w')
    (hmeasured : ∀ w r w', P w → E (.inr .measured) w r w' → P w') (hw : P w)
    (hnone : ∀ w, P w → Q (.ok (none, clusterSeconds, localSeconds)) w)
    (hsome : ∀ w probe seconds here, P w → seconds.name = clusterSeconds.name →
      here.name = localSeconds.name →
      seconds.samples = clusterSeconds.samples ++ secondsSamples probe →
      Q (.ok (some probe, seconds, here)) w) :
    (recordProbe started deadline clusterSeconds localSeconds).wp E.spec Q w := by
  rw [recordProbe]
  split_ifs
  · exact hnone w hw
  rw [Prog.wp_bind, wp_engine, wp_monotonic]
  intro now w₁ hnow
  rw [Prog.bindPost_ok, Prog.wp_bind, wp_perform]
  intro (r : Unit) w₂ hr
  rw [Prog.bindPost_ok, Prog.wp_bind, wp_perform]
  intro (probe : Option Probe) w₃ hprobe
  have hw₃ : P w₃ := hmeasured _ _ _ (hjoin _ _ _ _ (hclock _ _ _ hw hnow) hr) hprobe
  rw [Prog.bindPost_ok]
  cases probe with
  | none => exact hnone w₃ hw₃
  | some probe =>
      refine hsome w₃ probe _ _ hw₃ ?_ ?_ ?_
      · cases probe.roundTrip with
        | some seconds => rfl
        | none =>
            dsimp only
            split_ifs <;> rfl
      · cases probe.localSeconds with
        | some seconds => rfl
        | none => rfl
      · cases hround : probe.roundTrip with
        | some seconds => simp [secondsSamples, hround]
        | none =>
            cases hstarted : probe.started with
            | true => simp [secondsSamples, hround, hstarted]
            | false => simp [secondsSamples, hround, hstarted]

/-- What a scrape emits, once the releases are listed, is what it is told of each of
them; if a result cannot be emitted, it emits nothing. -/
theorem wp_collectListed (cfg : Settings) {names : List String} (hnodup : names.Nodup)
    (found : Findings) (pods : Option PodsByRelease) :
    (collectListed cfg found names pods).wp
      (scraping R fun job found => found = outcome job).spec
      (fun x jobs => ∃ futures, Admitting pods names futures [] jobs ∧
        ((∀ e ∈ futures, Emittable (held outcome e.2)) ∧
            (∃ families, x = .ok families ∧ Tells (toldOf outcome futures) families) ∨
          (∃ e ∈ futures, ¬Emittable (held outcome e.2)) ∧ ∃ exc, x = .error exc)) [] := by
  rw [collectListed, Prog.wp_bind]
  refine Prog.wp_mono (Env.spec_mono _) ?_ (wp_reconcileWithin cfg hnodup found.deadline)
  intro x jobs h
  obtain ⟨futures, rfl, hfutures⟩ := h
  rw [Prog.bindPost_ok, Prog.wp_bind]
  refine Prog.wp_mono (Env.spec_mono _) ?_ (wp_account (tallied_nil _ _) futures)
  intro x jobs h
  rcases h with ⟨rfl, ⟨hgood, t, rfl, ht⟩ | ⟨hbad, exc, rfl⟩⟩
  · rw [Prog.bindPost_ok, Prog.wp_bind]
    refine wp_recordProbe (P := (· = jobs)) ?_ ?_ ?_ rfl ?_ ?_
    · intro _ _ _ hw hclock
      exact hclock.2.trans hw
    · intro _ _ _ _ hw hjoin
      exact Eq.trans hjoin hw
    · intro _ _ _ hw hmeasured
      exact Eq.trans hmeasured hw
    · intro _ hw
      exact ⟨futures, hw ▸ hfutures, .inl ⟨hgood, _, rfl, ht.tells rfl rfl _ _ _⟩⟩
    · intro _ probe seconds here hw hseconds hhere _
      exact ⟨futures, hw ▸ hfutures, .inl ⟨hgood, _, rfl, ht.tells hseconds hhere _ _ _⟩⟩
  · exact ⟨futures, hfutures, .inr ⟨hbad, exc, rfl⟩⟩

end NfOrchestrator.Metrics
