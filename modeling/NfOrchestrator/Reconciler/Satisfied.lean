import NfOrchestrator.Reconciler.Verdict

/-!
# NfOrchestrator.Reconciler.Satisfied

What the reported state says of the network function. INSTANTIATED means that the intent
in effect is satisfied (`instantiated_means_satisfied`), whatever became of the last
operation; and an operation that failed makes a network function FAILED only where no
revision is labelled `deployed` any more (`failed_operation_iff`).
-/

namespace NfOrchestrator.Reconciler

open Deploy

variable {cfg : Settings} {name : String} {d : Printed} {given : Option (List PodState)}
  {entries : List Entry} {pods : List Pod}

/-! ### The state of a release -/

theorem Pod.ready_iff {p : Pod} :
    p.ready = true ↔ p.containers ≠ [] ∧ ∀ c ∈ p.containers, c.ready = true := by
  simp [Pod.ready]

/-- A pod in which nothing waits shows the reason it gives itself. -/
theorem Pod.shownReason_of_not_waiting {p : Pod} (h : ∀ c ∈ p.containers, c.waiting = none) :
    p.shownReason = p.reason := by
  have hnone : p.containers.findSome? Container.waiting = none := List.findSome?_eq_none_iff.mpr h
  rw [Pod.shownReason, Pod.waitingReason, hnone]
  rfl

theorem stateOf_instantiated {desired : ℤ} {operation : OperationState} {everDeployed : Bool}
    (h : stateOf pods desired operation everDeployed = .instantiated) : Satisfied pods desired := by
  rw [stateOf] at h
  split_ifs at h
  assumption

theorem stateOf_of_satisfied {desired : ℤ} {operation : OperationState} {everDeployed : Bool}
    (hfine : ∀ p ∈ livePods pods, p.failing = false) (h : Satisfied pods desired) :
    stateOf pods desired operation everDeployed = .instantiated := by
  have hnone : ¬ ∃ p ∈ livePods pods, p.failing = true := by
    intro hx
    obtain ⟨p, hp, hfails⟩ := hx
    rw [hfine p hp] at hfails
    cases hfails
  rw [stateOf, if_neg hnone, if_pos h]

/-- Every live pod that is ready counts as ready in the report. -/
theorem livePods_ready_le (h : ∀ p ∈ livePods pods, p.ready = true) :
    (livePods pods).length ≤ (shownPods pods).countP PodState.ready := by
  have hcount : (shownPods pods).countP PodState.ready =
      (pods.filter fun p => !p.terminating).countP Pod.ready := by
    rw [shownPods, List.countP_map]
    rfl
  have hlive :
      livePods pods = (pods.filter fun p => !p.terminating).filter fun p => !p.terminal := by
    rw [List.filter_filter, livePods]
    exact List.filter_congr fun p _ => Bool.and_comm _ _
  calc (livePods pods).length
      = (livePods pods).countP Pod.ready := (List.countP_eq_length.mpr h).symm
    _ = ((pods.filter fun p => !p.terminating).filter fun p => !p.terminal).countP Pod.ready := by
        rw [hlive]
    _ ≤ (pods.filter fun p => !p.terminating).countP Pod.ready := List.filter_sublist.countP_le
    _ = (shownPods pods).countP PodState.ready := hcount.symm

/-! ### INSTANTIATED -/

/-- The replica count of the intent in effect is the one in the values of the last
deployed revision, and 0 without such a revision. -/
def IntentReplicas (d : Printed) (entries : List Entry) (n : ℤ) : Prop :=
  match lastDeployed entries with
  | none => n = 0
  | some revision => SaysReplicas (d.values (toString revision)) n

/-- A release that exists, and an intent for `n` replicas: there are as many live pods,
each with a container and with all of them ready. -/
structure IntentSatisfied (n : ℤ) (entries : List Entry) (pods : List Pod) : Prop where
  exists_release : entries ≠ []
  wanted : 1 ≤ n
  live : ((livePods pods).length : ℤ) = n
  ready : ∀ p ∈ livePods pods, p.containers ≠ [] ∧ ∀ c ∈ p.containers, c.ready = true

/-- No container of the pod waits, and the reason it gives itself is no failure. -/
def Pod.Untroubled (p : Pod) : Prop :=
  (∀ c ∈ p.containers, c.waiting = none) ∧ isAmong failedPodReasons p.reason = false

theorem IntentReplicas.desiredOf {n : ℤ} (h : IntentReplicas d entries n) (name : String) :
    Reconciler.desiredOf name d.values entries = .ok n := by
  rw [IntentReplicas] at h
  rw [Reconciler.desiredOf]
  cases hlast : lastDeployed entries with
  | none =>
      rw [hlast] at h
      exact congrArg Except.ok h.symm
  | some revision =>
      rw [hlast] at h
      exact h.readReplicas name

theorem lastDeployed_nil : lastDeployed [] = none := rfl

/-- INSTANTIATED means exactly that the intent is satisfied: what `reconcile` reports as
desired is the replica count of the values of the last deployed revision; where it
reports INSTANTIATED, as many pods are live, all of them ready, and counted as ready;
and where they are, and none of them is in trouble, it reports INSTANTIATED. -/
theorem instantiated_means_satisfied (cfg : Settings) (name : String) {d : Printed}
    {given : Option (List PodState)} {entries : List Entry} {pods : List Pod} {n : ℤ}
    (hh : SaysHistory d entries) (hp : ShowsPods d given pods) (hn : IntentReplicas d entries n) :
    ∃ report : Report,
      (∀ x, (reconcile cfg name given).Ends (printing cfg name d) () x ↔ x = .ok report) ∧
      report.desiredReplicas = n ∧
      (report.state = .instantiated → IntentSatisfied n entries pods ∧ n ≤ report.readyReplicas) ∧
      (IntentSatisfied n entries pods → (∀ p ∈ livePods pods, p.Untroubled) →
        report.state = .instantiated) := by
  have hends := fun x => @ends_verdict_iff cfg name _ _ _ _ hh hp x
  cases he : newest entries with
  | none =>
      obtain rfl : entries = [] := List.argmax_eq_none.mp he
      rw [IntentReplicas, lastDeployed_nil] at hn
      refine ⟨absent name, hends, hn.symm, ?_, ?_⟩
      · intro h
        cases h
      · intro h
        exact absurd rfl h.exists_release
  | some e =>
      rw [verdict_of_newest he (hn.desiredOf name)] at hends
      refine ⟨reported name entries e pods n, hends, rfl, ?_, ?_⟩
      · intro h
        have hsat : Satisfied pods n := stateOf_instantiated h
        obtain ⟨hpos, hlen, hready⟩ := hsat
        refine ⟨⟨ne_nil_of_newest he, hpos, hlen, fun p hp => Pod.ready_iff.mp (hready p hp)⟩, ?_⟩
        have hle : (livePods pods).length ≤ (shownPods pods).countP PodState.ready :=
          livePods_ready_le hready
        calc n = ((livePods pods).length : ℤ) := hlen.symm
          _ ≤ ((shownPods pods).countP PodState.ready : ℕ) := by exact_mod_cast hle
      · -- no pod that is not ready could hide a failure, as none of them waits for one
        intro h huntroubled
        refine stateOf_of_satisfied (fun p hp => ?_)
          ⟨h.wanted, h.live, fun p hp => Pod.ready_iff.mpr (h.ready p hp)⟩
        rw [Pod.failing, Pod.shownReason_of_not_waiting (huntroubled p hp).1]
        exact (huntroubled p hp).2

/-- A release with one revision, deployed with one replica. -/
def oneReplica : Printed where
  history := some "[\x7b\"revision\": 1, \"status\": \"deployed\"\x7d]"
  values := fun _ => "\x7b\"replicaCount\": 1\x7d"
  pods := ""

def readyPod : Pod := ⟨false, some "Running", none, [⟨none, true⟩]⟩

theorem oneReplica_saysHistory : SaysHistory oneReplica [⟨1, "deployed", .null⟩] :=
  ⟨.arr [.obj [("revision", .int 1), ("status", .str "deployed")]], by decide +kernel,
    _, rfl, .cons ⟨rfl, rfl, rfl⟩ .nil⟩

theorem oneReplica_saysReplicas (revision : String) :
    SaysReplicas (oneReplica.values revision) 1 := by
  have hloads : Json.loads "\x7b\"replicaCount\": 1\x7d" =
      .ok (.obj [("replicaCount", .int 1)]) := by decide +kernel
  exact ⟨_, hloads, rfl⟩

/-- A release deployed with one replica, which an upgrade to five failed to replace. -/
def failedUpgrade : Printed where
  history := some ("[\x7b\"revision\": 1, \"status\": \"deployed\"\x7d, " ++
    "\x7b\"revision\": 2, \"status\": \"failed\"\x7d]")
  values := fun revision =>
    if revision = "1" then "\x7b\"replicaCount\": 1\x7d" else "\x7b\"replicaCount\": 5\x7d"
  pods := ""

def failedUpgradeEntries : List Entry := [⟨1, "deployed", .null⟩, ⟨2, "failed", .null⟩]

theorem failedUpgrade_saysHistory : SaysHistory failedUpgrade failedUpgradeEntries :=
  ⟨.arr [.obj [("revision", .int 1), ("status", .str "deployed")],
      .obj [("revision", .int 2), ("status", .str "failed")]], by decide +kernel,
    _, rfl, .cons ⟨rfl, rfl, rfl⟩ (.cons ⟨rfl, rfl, rfl⟩ .nil)⟩

theorem failedUpgrade_intentReplicas : IntentReplicas failedUpgrade failedUpgradeEntries 1 :=
  oneReplica_saysReplicas "1"

/-- The pod that serves, one that was evicted and one that is on its way out. -/
def servingPods : List Pod :=
  [readyPod, ⟨false, some "Failed", some "Evicted", []⟩, ⟨true, some "Running", none, []⟩]

theorem instantiated_means_satisfied_failedUpgrade :
    ∃ report : Report,
      (reconcile {} "nf" (some (shownPods servingPods))).Ends (printing {} "nf" failedUpgrade) ()
        (.ok report) ∧
      report.desiredReplicas = 1 ∧ report.state = .instantiated ∧ 1 ≤ report.readyReplicas := by
  obtain ⟨report, hends, hdesired, hmeans, hconverse⟩ := instantiated_means_satisfied {} "nf"
    failedUpgrade_saysHistory (showsPods_shown failedUpgrade servingPods)
    failedUpgrade_intentReplicas
  have hlive : livePods servingPods = [readyPod] := by decide +kernel
  have hstate : report.state = .instantiated := by
    refine hconverse ⟨by simp [failedUpgradeEntries], le_refl 1, by rw [hlive]; rfl, ?_⟩ ?_
    · rw [hlive]
      decide +kernel
    · rw [hlive]
      intro p hp
      obtain rfl := List.mem_singleton.mp hp
      exact ⟨by decide +kernel, by decide +kernel⟩
  exact ⟨report, (hends _).mpr rfl, hdesired, hstate, by exact_mod_cast (hmeans hstate).2⟩

/-! ### A failed operation -/

theorem Entry.operation_failed {e : Entry} : e.operation = .failed ↔ e.status = "failed" := by
  constructor
  · intro h
    rw [Entry.operation] at h
    cases hlookup : operationStatus.lookup e.status with
    | none => rw [hlookup] at h; cases h
    | some operation =>
        rw [hlookup] at h
        obtain rfl : operation = .failed := h
        obtain ⟨before, after, hsplit, -⟩ := List.lookup_eq_some_iff.mp hlookup
        have hmem : (e.status, OperationState.failed) ∈ operationStatus := by simp [hsplit]
        simpa [operationStatus] using hmem
  · intro h
    rw [Entry.operation, h]
    rfl

/-- No pod has stopped, and none shows a failure. -/
def Pod.Sound (p : Pod) : Prop := p.terminating = false → p.terminal = false ∧ p.failing = false

/-- With sound pods the release is FAILED only for an operation that failed on a release
that never deployed. -/
theorem stateOf_failed_iff (hpods : ∀ p ∈ pods, p.Sound) {desired : ℤ}
    {operation : OperationState} {everDeployed : Bool} :
    stateOf pods desired operation everDeployed = .failed ↔
      ¬ Satisfied pods desired ∧ everDeployed = false ∧ operation = .failed := by
  have hfine : ¬ ∃ p ∈ livePods pods, p.failing = true := by
    intro h
    obtain ⟨p, hp, hfails⟩ := h
    obtain ⟨hmem, hlive⟩ := List.mem_filter.mp hp
    have hnot : p.terminating = false := by
      rw [Pod.live, Bool.and_eq_true, Bool.not_eq_true'] at hlive
      exact hlive.1
    rw [(hpods p hmem hnot).2] at hfails
    cases hfails
  have hcorpse : ¬ ∃ p ∈ pods, p.terminating = false ∧ p.terminal = true := by
    intro h
    obtain ⟨p, hp, hnot, hterminal⟩ := h
    rw [(hpods p hp hnot).1] at hterminal
    cases hterminal
  rw [stateOf, if_neg hfine]
  by_cases hsat : Satisfied pods desired
  · simp [hsat]
  · simp [hsat, Stopped, hcorpse]

theorem not_satisfied_zero : ¬ Satisfied pods 0 := fun h => lt_irrefl 0 h.1

/-- No verdict is FAILED exactly when a revision is deployed, or the newest one has not
failed. -/
theorem verdict_never_failed_iff {name : String} {values : String → String}
    {entries : List Entry} {pods : List Pod} (hpods : ∀ p ∈ pods, p.Sound) :
    (∀ report : Report, .ok report = verdict name values entries pods → report.state ≠ .failed) ↔
      (∃ e ∈ entries, e.status = "deployed") ∨
        ∀ e, newest entries = some e → e.status ≠ "failed" := by
  simp only [verdict]
  cases he : newest entries with
  | none =>
      constructor
      · intro _
        exact .inr fun _ h => absurd h (by simp)
      · intro _ report hreport
        obtain rfl := Except.ok.inj hreport
        simp [absent]
  | some e =>
      constructor
      · intro h
        by_contra hnot
        obtain ⟨hnever, hfailed⟩ := not_or.mp hnot
        have hlast : lastDeployed entries = none := by
          rw [← lastDeployed_isSome, Bool.not_eq_true, Option.isSome_eq_false_iff,
            Option.isNone_iff_eq_none] at hnever
          exact hnever
        have hstatus : e.operation = .failed := by
          obtain ⟨e', hfailed⟩ := not_forall.mp hfailed
          obtain ⟨he', hstatus⟩ := Classical.not_imp.mp hfailed
          obtain rfl := Option.some.inj he'
          exact Entry.operation_failed.mpr (not_not.mp hstatus)
        -- no intent is in effect, so the failed operation is what the state is
        refine h (reported name entries e pods 0) (by rw [desiredOf, hlast]; rfl) ?_
        refine (stateOf_failed_iff hpods).mpr ⟨not_satisfied_zero, ?_, hstatus⟩
        rw [hlast]
        rfl
      · intro h report hreport hstate
        cases hd : desiredOf name values entries with
        | error exc =>
            rw [hd] at hreport
            cases hreport
        | ok n =>
            rw [hd] at hreport
            obtain rfl := Except.ok.inj hreport
            obtain ⟨-, hnever, hfailed⟩ := (stateOf_failed_iff hpods).mp hstate
            rcases h with hdeployed | hfine
            · rw [lastDeployed_isSome.mpr hdeployed] at hnever
              cases hnever
            · exact hfine e rfl (Entry.operation_failed.mp hfailed)

/-- What the reconciler reads as ever deployed is what the history says. -/
theorem everDeployed_printed_iff {d : Printed} {entries : List Entry} (hh : SaysHistory d entries) :
    (∃ text history, d.history = some text ∧ Json.loads text = .ok history ∧
        everDeployed history = .ok true) ↔
      ∃ e ∈ entries, e.status = "deployed" := by
  rw [SaysHistory] at hh
  rw [← lastDeployed_isSome]
  cases hhistory : d.history with
  | none =>
      rw [hhistory] at hh
      obtain rfl : entries = [] := hh
      refine iff_of_false ?_ (by simp [lastDeployed])
      intro hread
      obtain ⟨text, history, htext, -⟩ := hread
      cases htext
  | some text =>
      rw [hhistory] at hh
      obtain ⟨history, hloads, hreads⟩ := hh
      constructor
      · intro hread
        obtain ⟨text', history', htext, hloads', hever⟩ := hread
        obtain rfl := Option.some.inj htext
        obtain rfl := Except.ok.inj (hloads.symm.trans hloads')
        rw [everDeployed_reads hreads] at hever
        exact Except.ok.inj hever
      · intro hsome
        exact ⟨text, history, rfl, hloads, by rw [everDeployed_reads hreads, hsome]⟩

/-- A history keeps the release from being FAILED by its last operation alone exactly
when some revision is still labelled `deployed` or that operation did not fail. -/
theorem failed_operation_iff (cfg : Settings) (name : String) {d : Printed}
    {given : Option (List PodState)} {entries : List Entry} {pods : List Pod}
    (hh : SaysHistory d entries) (hp : ShowsPods d given pods) (hpods : ∀ p ∈ pods, p.Sound) :
    ((∀ report : Report, (reconcile cfg name given).Ends (printing cfg name d) () (.ok report) →
        report.state ≠ .failed) ↔
      (∃ e ∈ entries, e.status = "deployed") ∨
        ∀ e, newest entries = some e → e.status ≠ "failed") ∧
    ((∃ text history, d.history = some text ∧ Json.loads text = .ok history ∧
        everDeployed history = .ok true) ↔
      ∃ e ∈ entries, e.status = "deployed") := by
  refine ⟨?_, everDeployed_printed_iff hh⟩
  simp only [ends_verdict_iff hh hp]
  exact verdict_never_failed_iff hpods

/-- The upgrade failed, and the pod of the revision before it serves. -/
theorem failed_operation_iff_failedUpgrade :
    SaysHistory failedUpgrade failedUpgradeEntries ∧ ∀ report : Report,
      (reconcile {} "nf" (some (shownPods [readyPod]))).Ends (printing {} "nf" failedUpgrade) ()
        (.ok report) → report.state ≠ .failed := by
  have hsound : ∀ p ∈ [readyPod], p.Sound := by
    simp only [List.mem_singleton, forall_eq]
    exact fun _ => by decide +kernel
  refine ⟨failedUpgrade_saysHistory, (failed_operation_iff {} "nf" failedUpgrade_saysHistory
    (showsPods_shown failedUpgrade [readyPod]) hsound).1.mpr (.inl ?_)⟩
  exact ⟨_, List.mem_cons_self, rfl⟩

/-- The history of a rollback that failed, as helm records it. -/
def failedRollback : Printed where
  history := some ("[\x7b\"revision\": 1, \"status\": \"superseded\"\x7d, " ++
    "\x7b\"revision\": 2, \"status\": \"failed\"\x7d]")
  values := fun _ => "\x7b\"replicaCount\": 1\x7d"
  pods := ""

/-- A network function that serves is reported FAILED for a rollback that failed. -/
theorem failed_rollback_reported :
    ∃ entries pods, SaysHistory failedRollback entries ∧
      ShowsPods failedRollback (some (shownPods pods)) pods ∧
      (∃ e ∈ entries, e.status = "superseded") ∧ (∀ p ∈ pods, p.Sound) ∧
      ∃ report : Report,
        (reconcile {} "nf" (some (shownPods pods))).Ends (printing {} "nf" failedRollback) ()
          (.ok report) ∧ report.state = .failed := by
  have hh : SaysHistory failedRollback [⟨1, "superseded", .null⟩, ⟨2, "failed", .null⟩] :=
    ⟨.arr [.obj [("revision", .int 1), ("status", .str "superseded")],
        .obj [("revision", .int 2), ("status", .str "failed")]], by decide +kernel,
      _, rfl, .cons ⟨rfl, rfl, rfl⟩ (.cons ⟨rfl, rfl, rfl⟩ .nil)⟩
  have hp : ShowsPods failedRollback (some (shownPods [readyPod])) [readyPod] :=
    showsPods_shown failedRollback [readyPod]
  refine ⟨_, _, hh, hp, ⟨_, List.mem_cons_self, rfl⟩, ?_, _, (ends_verdict_iff hh hp).mpr rfl, ?_⟩
  · simp only [List.mem_singleton, forall_eq]
    exact fun _ => by decide +kernel
  · decide +kernel

end NfOrchestrator.Reconciler
