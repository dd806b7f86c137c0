import Mathlib.Data.List.Nodup
import NfOrchestrator.Metrics.Accounting
import NfOrchestrator.Reconciler.Verdict

/-!
# NfOrchestrator.Metrics.Coverage

**A scrape accounts for every listed release once**: with its lifecycle series, or under
one of the four reasons it has none.
-/

namespace NfOrchestrator.Metrics

open Deploy Reconciler

/-! ### What a scrape must say -/

/-- The samples of a family about one release. -/
def seriesOf (families : List GaugeMetricFamily) (family name : String) :
    List (List String × ℚ) :=
  (samplesOf families family).filter fun s => s.1.head? = some name

/-- The release's lifecycle series are emitted, and name one state of each kind. -/
structure Emitted (families : List GaugeMetricFamily) (name : String) : Prop where
  state : (seriesOf families "nf_deployment_state" name).map Prod.fst =
    states.map fun state => [name, state.value]
  one_state : (seriesOf families "nf_deployment_state" name).countP (·.2 = 1) = 1
  desired : ∃ v, seriesOf families "nf_deployment_desired_replicas" name = [([name], v)]
  ready : ∃ v, seriesOf families "nf_deployment_ready_replicas" name = [([name], v)]
  operation : (seriesOf families "nf_last_operation_state" name).map Prod.fst =
    operationStates.map fun state => [name, state.value]
  one_operation : (seriesOf families "nf_last_operation_state" name).countP (·.2 = 1) = 1

/-- The families of the lifecycle series. -/
def lifecycle : List String :=
  ["nf_deployment_state", "nf_deployment_desired_replicas", "nf_deployment_ready_replicas",
    "nf_last_operation_state"]

/-- No lifecycle series of the release is emitted. -/
def Silent (families : List GaugeMetricFamily) (name : String) : Prop :=
  ∀ family ∈ lifecycle, seriesOf families family name = []

/-- The scrape says of every listed release, and of no other, whether it was reported,
and counts those that were not. -/
structure Covers (names : List String) (families : List GaugeMetricFamily) : Prop where
  sampled : (samplesOf families "nf_release_reported").map Prod.fst = names.map fun name => [name]
  zero_or_one : ∀ s ∈ samplesOf families "nf_release_reported", s.2 = 0 ∨ s.2 = 1
  emitted_iff : ∀ name ∈ names,
    (([name], 1) ∈ samplesOf families "nf_release_reported" ↔ Emitted families name)
  silent_iff : ∀ name ∈ names,
    (([name], 0) ∈ samplesOf families "nf_release_reported" ↔ Silent families name)
  reasons_eq : (samplesOf families "nf_releases_unreported").map Prod.fst =
    reasons.map fun reason => [reason.label]
  total : ((samplesOf families "nf_release_reported").countP (·.2 = 1) : ℚ) +
    ((samplesOf families "nf_releases_unreported").map Prod.snd).sum = names.length

/-! ### What is told of one release -/

section told

variable {told : List (String × Told)} {e : String × Told}

/-- Where names are distinct, the samples about a release are those told of it. -/
theorem filter_flatMap_of_mem {g : String × Told → List (List String × ℚ)}
    (hg : ∀ e, ∀ s ∈ g e, s.1.head? = some e.1) (hnodup : (told.map Prod.fst).Nodup)
    (he : e ∈ told) :
    (told.flatMap g).filter (fun s => s.1.head? = some e.1) = g e := by
  induction told with
  | nil => cases he
  | cons d rest ih =>
      obtain ⟨hd, hrest⟩ := List.nodup_cons.mp hnodup
      rw [List.flatMap_cons, List.filter_append]
      rcases List.mem_cons.mp he with rfl | he
      · have hself : (g e).filter (fun s => s.1.head? = some e.1) = g e :=
          List.filter_eq_self.mpr fun s hs => decide_eq_true (hg e s hs)
        have hothers : (rest.flatMap g).filter (fun s => s.1.head? = some e.1) = [] := by
          rw [List.filter_eq_nil_iff]
          intro s hs hkey
          obtain ⟨d, hmem, hsd⟩ := List.mem_flatMap.mp hs
          have hsame : d.1 = e.1 :=
            Option.some.inj ((hg d s hsd).symm.trans (of_decide_eq_true hkey))
          exact hd (hsame ▸ List.mem_map_of_mem hmem)
        rw [hself, hothers, List.append_nil]
      · have hne : d.1 ≠ e.1 := fun h => hd (h ▸ List.mem_map_of_mem he)
        have hself : (g d).filter (fun s => s.1.head? = some e.1) = [] := by
          rw [List.filter_eq_nil_iff]
          intro s hs hkey
          exact hne (Option.some.inj ((hg d s hs).symm.trans (of_decide_eq_true hkey)))
        rw [hself, List.nil_append]
        exact ih hrest he

theorem head_of_mem_series {f : String → Report → List (List String × ℚ)}
    (hf : ∀ name current, ∀ s ∈ f name current, s.1.head? = some name) (e : String × Told) :
    ∀ s ∈ e.2.series (f e.1), s.1.head? = some e.1 := by
  intro s hs
  cases h : e.2 with
  | reported current =>
      rw [h] at hs
      exact hf e.1 current s hs
  | unreported reason =>
      rw [h] at hs
      cases hs

theorem head_of_mem_memberSamples {α : Type} [DecidableEq α] {name : String} {members : List α}
    {value : α → String} {current : α} :
    ∀ s ∈ memberSamples name members value current, s.1.head? = some name := by
  intro s hs
  obtain ⟨member, -, rfl⟩ := List.mem_map.mp hs
  rfl

/-- Of the samples for the members of an enumeration one is 1. -/
theorem countP_memberSamples {α : Type} [DecidableEq α] (name : String) {members : List α}
    (value : α → String) {current : α} (hnodup : members.Nodup) (hmem : current ∈ members) :
    (memberSamples name members value current).countP (·.2 = 1) = 1 := by
  have hone : ∀ b : Bool, flag b = 1 ↔ b = true := by decide
  rw [memberSamples, List.countP_map, ← List.count_eq_one_of_mem hnodup hmem, List.count]
  refine List.countP_congr fun member _ => ?_
  rw [Function.comp_apply, decide_eq_true_eq, hone, decide_eq_true_eq, beq_iff_eq]
  exact eq_comm

theorem memberSamples_labels {α : Type} [DecidableEq α] (name : String) (members : List α)
    (value : α → String) (current : α) :
    (memberSamples name members value current).map Prod.fst =
      members.map fun member => [name, value member] := by
  simp [memberSamples]

variable {families : List GaugeMetricFamily} (h : Tells told families)
  (hnodup : (told.map Prod.fst).Nodup) (he : e ∈ told)

include h hnodup he

theorem Tells.seriesOf_state : seriesOf families "nf_deployment_state" e.1 = stateSamples e := by
  rw [seriesOf, h.state]
  refine filter_flatMap_of_mem ?_ hnodup he
  exact head_of_mem_series
    (f := fun name current => memberSamples name states State.value current.state)
    fun _ _ => head_of_mem_memberSamples

theorem Tells.seriesOf_operation :
    seriesOf families "nf_last_operation_state" e.1 = operationSamples e := by
  rw [seriesOf, h.operation]
  refine filter_flatMap_of_mem ?_ hnodup he
  exact head_of_mem_series
    (f := fun name current =>
      memberSamples name operationStates OperationState.value current.lastOperation.state)
    fun _ _ => head_of_mem_memberSamples

theorem Tells.seriesOf_desired :
    seriesOf families "nf_deployment_desired_replicas" e.1 = desiredSamples e := by
  rw [seriesOf, h.desired]
  refine filter_flatMap_of_mem ?_ hnodup he
  exact head_of_mem_series (f := fun name current => [([name], (current.desiredReplicas : ℚ))])
    (by simp)

theorem Tells.seriesOf_ready :
    seriesOf families "nf_deployment_ready_replicas" e.1 = readySamples e := by
  rw [seriesOf, h.ready]
  refine filter_flatMap_of_mem ?_ hnodup he
  exact head_of_mem_series (f := fun name current => [([name], (current.readyReplicas : ℚ))])
    (by simp)

theorem Tells.emitted {current : Report} (hcurrent : e.2 = .reported current) :
    Emitted families e.1 where
  state := by
    rw [h.seriesOf_state hnodup he, stateSamples, hcurrent]
    exact memberSamples_labels _ _ _ _
  one_state := by
    rw [h.seriesOf_state hnodup he, stateSamples, hcurrent]
    exact countP_memberSamples _ _ (by decide) (by cases current.state <;> decide)
  desired := by
    rw [h.seriesOf_desired hnodup he, desiredSamples, hcurrent]
    exact ⟨_, rfl⟩
  ready := by
    rw [h.seriesOf_ready hnodup he, readySamples, hcurrent]
    exact ⟨_, rfl⟩
  operation := by
    rw [h.seriesOf_operation hnodup he, operationSamples, hcurrent]
    exact memberSamples_labels _ _ _ _
  one_operation := by
    rw [h.seriesOf_operation hnodup he, operationSamples, hcurrent]
    exact countP_memberSamples _ _ (by decide) (by cases current.lastOperation.state <;> decide)

theorem Tells.silent {reason : Reason} (hreason : e.2 = .unreported reason) :
    Silent families e.1 := by
  intro family hfamily
  have hcases : family = "nf_deployment_state" ∨ family = "nf_deployment_desired_replicas" ∨
      family = "nf_deployment_ready_replicas" ∨ family = "nf_last_operation_state" := by
    simpa [lifecycle] using hfamily
  rcases hcases with rfl | rfl | rfl | rfl
  · rw [h.seriesOf_state hnodup he, stateSamples, hreason]
    rfl
  · rw [h.seriesOf_desired hnodup he, desiredSamples, hreason]
    rfl
  · rw [h.seriesOf_ready hnodup he, readySamples, hreason]
    rfl
  · rw [h.seriesOf_operation hnodup he, operationSamples, hreason]
    rfl

theorem Tells.mem_reported {v : ℚ} :
    ([e.1], v) ∈ samplesOf families "nf_release_reported" ↔ v = flag e.2.isReported := by
  rw [h.reported, List.mem_map]
  constructor
  · intro hx
    obtain ⟨d, hd, hsample⟩ := hx
    have hkey : d.1 = e.1 := by
      simpa [reportedSample] using congrArg (fun s => s.1.head?) hsample
    obtain rfl : d = e := List.inj_on_of_nodup_map hnodup hd he hkey
    exact (congrArg Prod.snd hsample).symm
  · rintro rfl
    exact ⟨e, he, rfl⟩

end told

/-- Every release is reported, or counted under one reason. -/
theorem reported_add_unreported (told : List (String × Told)) :
    told.countP (fun e => e.2.isReported) +
      (reasons.map fun reason => unreportedFor reason told).sum = told.length := by
  induction told with
  | nil => rfl
  | cons e rest ih =>
      have hone : (if e.2.isReported = true then 1 else 0) +
          (reasons.map fun reason => if e.2 = .unreported reason then 1 else 0).sum = 1 := by
        rcases e.2 with current | reason
        · rfl
        · cases reason <;> rfl
      simp only [reasons, List.map_cons, List.map_nil, List.sum_cons, List.sum_nil, unreportedFor,
        List.countP_cons, List.length_cons, decide_eq_true_eq] at ih hone ⊢
      omega

/-- What tells of the listed releases covers them. -/
theorem Tells.covers {told : List (String × Told)} {families : List GaugeMetricFamily}
    (h : Tells told families) (hnodup : (told.map Prod.fst).Nodup) :
    Covers (told.map Prod.fst) families where
  sampled := by
    rw [h.reported, List.map_map, List.map_map]
    rfl
  zero_or_one := by
    rw [h.reported]
    intro s hs
    obtain ⟨e, -, rfl⟩ := List.mem_map.mp hs
    cases h : e.2.isReported with
    | true => exact .inr (by rw [reportedSample, h]; rfl)
    | false => exact .inl (by rw [reportedSample, h]; rfl)
  emitted_iff := by
    intro name hname
    obtain ⟨e, he, rfl⟩ := List.mem_map.mp hname
    rw [h.mem_reported hnodup he]
    cases htold : e.2 with
    | reported current => exact iff_of_true rfl (h.emitted hnodup he htold)
    | unreported reason =>
        refine iff_of_false (by simp [Told.isReported, flag]) fun hemitted => ?_
        have hstate := hemitted.state
        rw [h.silent hnodup he htold _ (by decide)] at hstate
        cases hstate
  silent_iff := by
    intro name hname
    obtain ⟨e, he, rfl⟩ := List.mem_map.mp hname
    rw [h.mem_reported hnodup he]
    cases htold : e.2 with
    | unreported reason => exact iff_of_true rfl (h.silent hnodup he htold)
    | reported current =>
        refine iff_of_false (by simp [Told.isReported, flag]) fun hsilent => ?_
        have hstate := (h.emitted hnodup he htold).state
        rw [hsilent _ (by decide)] at hstate
        cases hstate
  reasons_eq := by
    rw [h.unreported, List.map_map]
    rfl
  total := by
    -- each listed release is counted once, as reported or under one reason
    have hcount : (told.map reportedSample).countP (·.2 = 1) =
        told.countP (fun e => e.2.isReported) := by
      rw [List.countP_map]
      refine List.countP_congr fun e _ => ?_
      cases h : e.2.isReported <;> simp [reportedSample, flag, h]
    have hsum : ((reasons.map fun reason => ([reason.label], (unreportedFor reason told : ℚ))).map
        Prod.snd).sum = ((reasons.map fun reason => unreportedFor reason told).sum : ℕ) := by
      simp [reasons]
    rw [h.reported, h.unreported, hcount, hsum, ← Nat.cast_add, reported_add_unreported,
      List.length_map]

/-! ### The scrape -/

/-- The pool finds `outcome name` of each release it started; nothing when it is still
running, or was cancelled, by the deadline. -/
abbrev polling (outcome : String → Option Snapshot) : Env sig (List Job) :=
  scraping (fun _ _ => True) fun job found => found = (outcome job.1).map .ok

variable {outcome : Job → Option (Except Exc Snapshot)}

theorem toldOf_names (futures : List (String × Future)) :
    (toldOf outcome futures).map Prod.fst = futures.map Prod.fst := by
  rw [toldOf, List.map_map]
  rfl

/-- A future that holds something was started, or settled as `EXHAUSTED`. -/
theorem emittable_iff_jobs {pods : Option PodsByRelease} {names queue : List String}
    {futures : List (String × Future)} {jobs : List Job}
    (h : Admitting pods names futures queue jobs) :
    (∀ e ∈ futures, Emittable (held outcome e.2)) ↔ ∀ job ∈ jobs, Emittable (outcome job) := by
  rw [h.jobs_eq]
  constructor
  · intro hall job hjob
    obtain ⟨⟨name, future⟩, he, hfuture⟩ := List.mem_filterMap.mp hjob
    cases future with
    | started name pods =>
        obtain rfl := Option.some.inj hfuture
        exact hall _ he
    | settled => cases hfuture
    | neverStarted => cases hfuture
  · rintro hall ⟨name, future⟩ he
    cases future with
    | started name pods => exact hall (name, pods) (List.mem_filterMap.mpr ⟨_, he, rfl⟩)
    | settled => trivial
    | neverStarted => trivial

theorem emittable_map_ok {found : Option Snapshot} :
    Emittable (found.map .ok) ↔ ∀ current, found = some (.dict current) → Fits current := by
  rcases found with _ | current | why
  · exact iff_of_true trivial (by simp)
  · simp [Emittable]
  · exact iff_of_true trivial (by simp)

/-- Every listed release has one future; and the scrape says of each whether it was
reported, and counts the others, exactly when the desired count of every release that
was read in time converts to a float. -/
theorem coverage_iff (cfg : Settings) {names : List String} (hnodup : names.Nodup)
    (pods : Option PodsByRelease) (found : Findings) (outcome : String → Option Snapshot) :
    (∀ x jobs, (reconcileWithin cfg names pods found.deadline).Runs (polling outcome) [] x jobs →
      ∃ futures, x = .ok futures ∧ futures.map Prod.fst = names) ∧
    ∀ x jobs, (collectListed cfg found names pods).Runs (polling outcome) [] x jobs →
      ((∃ families, x = .ok families ∧ Covers names families) ↔
        ∀ job ∈ jobs, ∀ current, outcome job.1 = some (.dict current) → Fits current) := by
  constructor
  · intro x jobs hr
    obtain ⟨futures, rfl, hfutures⟩ := hr.post (wp_reconcileWithin cfg hnodup found.deadline)
    exact ⟨futures, rfl, by simpa using hfutures.names_eq⟩
  · intro x jobs hr
    obtain ⟨futures, hfutures, hend⟩ := hr.post (wp_collectListed cfg hnodup found pods)
    have hnames : (toldOf (fun job => (outcome job.1).map .ok) futures).map Prod.fst = names := by
      rw [toldOf_names]
      simpa using hfutures.names_eq
    simp only [← emittable_map_ok]
    have hjobs := @emittable_iff_jobs (fun job => (outcome job.1).map .ok) _ _ _ _ _ hfutures
    rw [← hjobs]
    rcases hend with ⟨hgood, families, rfl, htells⟩ | ⟨⟨e, he, hbad⟩, exc, rfl⟩
    · refine iff_of_true ⟨families, rfl, ?_⟩ hgood
      have hcovers := htells.covers (by rwa [hnames])
      rwa [hnames] at hcovers
    · refine iff_of_false ?_ fun hall => hbad (hall e he)
      intro h
      obtain ⟨families, hx, -⟩ := h
      cases hx

/-! ### A release read in time, and one not -/

/-- A scrape whose threads all start and finish at once. -/
def atOnce (reply : (o : Deploy.Op) → Deploy.Resp o)
    (outcome : Job → Option (Except Exc Snapshot)) :
    (o : sig.Op) → List Job → sig.Resp o × List Job
  | .inl o, jobs => (reply o, jobs)
  | .inr (.submit name pods), jobs => (true, jobs ++ [(name, pods)])
  | .inr (.done _ _), jobs => (true, jobs)
  | .inr (.poll name pods), jobs => (outcome (name, pods), jobs)
  | .inr .startProber, jobs => (true, jobs)
  | .inr .measured, jobs => (none, jobs)
  | .inr (.wait _ _), jobs => ((), jobs)
  | .inr .shutdown, jobs => ((), jobs)
  | .inr (.joinProber _), jobs => ((), jobs)

theorem scraping_atOnce {R : (o : Deploy.Op) → Deploy.Resp o → Prop}
    {P : Job → Option (Except Exc Snapshot) → Prop} {reply : (o : Deploy.Op) → Deploy.Resp o}
    (hR : ∀ o, R o (reply o)) (hP : ∀ job, P job (outcome job)) (o : sig.Op) (jobs : List Job) :
    scraping R P o jobs (atOnce reply outcome o jobs).1 (atOnce reply outcome o jobs).2 := by
  rcases o with o | o
  · exact ⟨hR o, rfl⟩
  · cases o with
    | poll name pods => exact ⟨hP (name, pods), rfl⟩
    | _ => rfl

/-- A release that serves with its one replica. -/
def serving : Report where
  release := "smf"
  state := .instantiated
  helmStatus := .str "deployed"
  desiredReplicas := 1
  readyReplicas := 1
  lastOperation := ⟨.int 1, .completed, .str "Install complete"⟩
  pods := [⟨.str "Running", .null, true⟩]

/-- The pool has the report of `smf`, and nothing of `upf`. -/
def smfInTime (name : String) : Option Snapshot :=
  if name = "smf" then some (.dict serving) else none

theorem coverage_iff_smfInTime :
    ∃ families jobs, (collectListed {} ⟨4, true, false, false, false⟩ ["smf", "upf"] none).Runs
        (polling smfInTime) [] (.ok families) jobs ∧
      samplesOf families "nf_release_reported" = [(["smf"], 1), (["upf"], 0)] ∧
        Covers ["smf", "upf"] families := by
  have hr := Prog.runs_run (E := polling smfInTime)
    (@scraping_atOnce _ _ _ blankReply (fun _ => trivial) fun _ => rfl)
    (collectListed {} ⟨4, true, false, false, false⟩ ["smf", "upf"] none) []
  have hfits : ∀ name current, smfInTime name = some (.dict current) → Fits current := by
    intro name current h
    rw [smfInTime] at h
    split_ifs at h
    obtain rfl := Snapshot.dict.inj (Option.some.inj h)
    change |((1 : ℤ) : ℚ)| < Json.doubleOverflow
    decide +kernel
  obtain ⟨families, hx, hcovers⟩ :=
    ((coverage_iff {} (by decide) none _ smfInTime).2 _ _ hr).mpr fun job _ => hfits job.1
  have hsamples : Except.map (samplesOf · "nf_release_reported")
      ((collectListed {} ⟨4, true, false, false, false⟩ ["smf", "upf"] none).run
        (atOnce blankReply fun job => (smfInTime job.1).map .ok) []).1 =
      .ok [(["smf"], 1), (["upf"], 0)] := by
    decide +kernel
  rw [hx] at hr hsamples
  exact ⟨families, _, hr, Except.ok.inj hsamples, hcovers⟩

/-! ### A count no float holds -/

/-- A number of 310 digits, which `int` reads from a string. -/
def hugeDigits : List Char := List.replicate 310 '9'

/-- A release with one revision, deployed with that many replicas. -/
def hugeCount : Printed where
  history := some "[\x7b\"revision\": 1, \"status\": \"deployed\"\x7d]"
  values := fun _ =>
    String.ofList ("\x7b\"replicaCount\": \"".toList ++ hugeDigits ++ ['"', '\x7d'])
  pods := ""

def hugeReport : Report where
  release := "upf"
  state := .instantiating
  helmStatus := .str "deployed"
  desiredReplicas := 10 ^ 310 - 1
  readyReplicas := 0
  lastOperation := ⟨.int 1, .completed, .null⟩
  pods := []

theorem readReplicas_hugeCount (revision : String) :
    readReplicas "upf" (hugeCount.values revision) = .ok (10 ^ 310 - 1) := by
  have hloads : Json.loads (hugeCount.values revision) =
      .ok (.obj [("replicaCount", .str (String.ofList hugeDigits))]) := by
    apply Json.loads_ofList
    decide +kernel
  have hint : Json.intOfStr (String.ofList hugeDigits) = .ok (10 ^ 310 - 1) := by
    rw [Json.intOfStr, String.toList_ofList]
    decide +kernel
  exact readReplicas_of_toInt hloads rfl (by simp) hint "upf"

theorem reading_hugeCount : reading "upf" hugeCount (some []) = .ok hugeReport := by
  have hhistory : SaysHistory hugeCount [⟨1, "deployed", .null⟩] :=
    ⟨.arr [.obj [("revision", .int 1), ("status", .str "deployed")]], by decide +kernel,
      _, rfl, .cons ⟨rfl, rfl, rfl⟩ .nil⟩
  have hdesired : desiredOf "upf" hugeCount.values [⟨1, "deployed", .null⟩] =
      .ok (10 ^ 310 - 1) := readReplicas_hugeCount _
  have hpods : ShowsPods hugeCount (some []) [] := showsPods_shown hugeCount []
  have hreported : reported "upf" [⟨1, "deployed", .null⟩] ⟨1, "deployed", .null⟩ []
      (10 ^ 310 - 1) = hugeReport := by
    decide +kernel
  rw [reading_verdict hhistory hpods, verdict_of_newest rfl hdesired, hreported]

/-- Both releases are read in time: one is absent, the other asks for too much. -/
def oneHuge (name : String) : Option Snapshot :=
  some (.dict (if name = "upf" then hugeReport else absent name))

/-- A release read in time, whose count no float holds, leaves every other release
without a sample. -/
theorem huge_count_hides_others :
    (reconcile {} "upf" (some [])).Ends (printing {} "upf" hugeCount) () (.ok hugeReport) ∧
    ∃ x jobs, (collectListed {} ⟨4, true, false, false, false⟩ ["smf", "upf"] (some [])).Runs
        (polling oneHuge) [] x jobs ∧
      ¬∃ families, x = .ok families ∧ Covers ["smf", "upf"] families := by
  constructor
  · rw [ends_printing_iff, reading_hugeCount]
  · have hrun := Prog.runs_run (E := polling oneHuge)
      (@scraping_atOnce _ _ _ blankReply (fun _ => trivial) fun _ => rfl)
      (collectListed {} ⟨4, true, false, false, false⟩ ["smf", "upf"] (some [])) []
    have hraises : ((collectListed {} ⟨4, true, false, false, false⟩ ["smf", "upf"]
        (some [])).run (atOnce blankReply fun job => (oneHuge job.1).map .ok) []).1 =
        .error (.py .overflowError) := by
      decide +kernel
    rw [hraises] at hrun
    refine ⟨_, _, hrun, ?_⟩
    intro h
    obtain ⟨families, hx, -⟩ := h
    cases hx

end NfOrchestrator.Metrics
