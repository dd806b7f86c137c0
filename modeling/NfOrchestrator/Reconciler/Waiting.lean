import NfOrchestrator.Reconciler.Satisfied

/-!
# NfOrchestrator.Reconciler.Waiting

Which **failing containers** a report shows. `parse_pods` reports one reason for a pod,
that of the first container that waits, so what is reported depends on the order the
containers come in.

**Key idea.** The reasons a pod can show, in some order of its containers, do not depend
on the order (`Pod.canShow`). A failing container is reported in every order exactly when
the other rules report FAILED anyway, or no live pod can show a failure, or some live pod
shows one in every order (`never_hidden_iff`).
-/

namespace NfOrchestrator.Reconciler

open Deploy

/-! ### The order of a listing -/

theorem perm_nil_iff {α : Type} {l l' : List α} (h : l.Perm l') : l = [] ↔ l' = [] := by
  rw [← List.length_eq_zero_iff, ← List.length_eq_zero_iff, h.length_eq]

/-- The same pod, with its containers in another order. -/
structure Pod.Reordered (p q : Pod) : Prop where
  terminating : q.terminating = p.terminating
  phase : q.phase = p.phase
  reason : q.reason = p.reason
  containers : p.containers.Perm q.containers

/-- The same listing, with its pods, and the containers of each, in another order. -/
def Shuffled (pods pods' : List Pod) : Prop :=
  ∃ qs, pods.Perm qs ∧ List.Forall₂ Pod.Reordered qs pods'

namespace Pod

theorem Reordered.refl (p : Pod) : p.Reordered p := ⟨rfl, rfl, rfl, .refl _⟩

/-- The waiting containers' reasons, in their order. -/
def waitingReasons (p : Pod) : List (Option String) := p.containers.filterMap Container.waiting

/-- The reasons the pod can show, in one order of its containers or another. -/
def canShow (p : Pod) : List (Option String) :=
  if p.waitingReasons = [] then [p.reason] else p.waitingReasons.map (· <|> p.reason)

/-- The pod shows a failure in some order of its containers. -/
def CanFail (p : Pod) : Prop := ∃ r ∈ p.canShow, isAmong failedPodReasons r = true

/-- The pod shows a failure in every order of its containers. -/
def MustFail (p : Pod) : Prop := ∀ r ∈ p.canShow, isAmong failedPodReasons r = true

theorem shownReason_eq (p : Pod) : p.shownReason = (p.waitingReasons.head?.join <|> p.reason) := by
  rw [shownReason, waitingReason, waitingReasons, List.head?_filterMap]

theorem shownReason_mem_canShow (p : Pod) : p.shownReason ∈ p.canShow := by
  rw [shownReason_eq, canShow]
  cases p.waitingReasons with
  | nil => simp
  | cons r rest => simp

namespace Reordered

variable {p q : Pod}

theorem canShow (h : p.Reordered q) : p.canShow.Perm q.canShow := by
  have hperm : p.waitingReasons.Perm q.waitingReasons := h.containers.filterMap _
  rw [Pod.canShow, Pod.canShow, h.reason]
  by_cases hnil : p.waitingReasons = []
  · rw [if_pos hnil, if_pos (perm_nil_iff hperm |>.mp hnil)]
  · rw [if_neg hnil, if_neg (perm_nil_iff hperm |>.not.mp hnil)]
    exact hperm.map _

theorem canFail (h : p.Reordered q) : p.CanFail ↔ q.CanFail := by
  simp only [CanFail, h.canShow.mem_iff]

theorem mustFail (h : p.Reordered q) : p.MustFail ↔ q.MustFail := by
  simp only [MustFail, h.canShow.mem_iff]

theorem terminal (h : p.Reordered q) : q.terminal = p.terminal := by
  rw [Pod.terminal, Pod.terminal, h.phase]

theorem live (h : p.Reordered q) : q.live = p.live := by
  rw [Pod.live, Pod.live, h.terminal, h.terminating]

theorem ready (h : p.Reordered q) : q.ready = p.ready := by
  rw [Bool.eq_iff_iff, Pod.ready_iff, Pod.ready_iff]
  simp only [ne_eq, perm_nil_iff h.containers, h.containers.mem_iff]

end Reordered

/-- Every reason a pod can show, it shows in some order. -/
theorem exists_reordered {p : Pod} {r : Option String} (h : r ∈ p.canShow) :
    ∃ q, p.Reordered q ∧ q.shownReason = r := by
  rw [canShow] at h
  split_ifs at h with hnil
  · obtain rfl := List.mem_singleton.mp h
    refine ⟨p, .refl p, ?_⟩
    rw [shownReason_eq, hnil]
    rfl
  · obtain ⟨w, hw, rfl⟩ := List.mem_map.mp h
    obtain ⟨c, hc, hwaiting⟩ := List.mem_filterMap.mp hw
    -- the container that waits for this reason comes first
    refine ⟨{ p with containers := c :: p.containers.erase c }, ⟨rfl, rfl, rfl, ?_⟩, ?_⟩
    · exact List.perm_cons_erase hc
    · rw [shownReason, waitingReason, List.findSome?_cons, hwaiting]
      rfl

theorem CanFail.of_failing {p : Pod} (h : p.failing = true) : p.CanFail :=
  ⟨p.shownReason, p.shownReason_mem_canShow, h⟩

theorem MustFail.failing {p : Pod} (h : p.MustFail) : p.failing = true :=
  h p.shownReason p.shownReason_mem_canShow

end Pod

namespace Shuffled

variable {pods pods' : List Pod}

theorem livePods (h : Shuffled pods pods') : Shuffled (livePods pods) (livePods pods') := by
  obtain ⟨qs, hperm, hqs⟩ := h
  refine ⟨qs.filter Pod.live, hperm.filter _, ?_⟩
  refine List.rel_filter (fun p q hpq => ?_) hqs
  exact iff_of_eq (congrArg (· = true) hpq.live.symm)

/-- A property of pods that does not look at the order of their containers holds of some
pod in every order of the listing or in none. -/
theorem exists_iff (h : Shuffled pods pods') {Q : Pod → Prop}
    (hQ : ∀ p q, Pod.Reordered p q → (Q p ↔ Q q)) : (∃ p ∈ pods, Q p) ↔ ∃ q ∈ pods', Q q := by
  obtain ⟨qs, hperm, hqs⟩ := h
  simp only [hperm.mem_iff]
  clear hperm
  induction hqs with
  | nil => simp
  | cons hpq _ ih => simp [hQ _ _ hpq, ih]

theorem satisfied_iff (h : Shuffled pods pods') (desired : ℤ) :
    Satisfied pods desired ↔ Satisfied pods' desired := by
  have hlen : (Reconciler.livePods pods).length = (Reconciler.livePods pods').length := by
    obtain ⟨qs, hperm, hqs⟩ := h.livePods
    rw [hperm.length_eq, hqs.length_eq]
  have hready := h.livePods.exists_iff (Q := fun p => p.ready = false)
    fun p q hpq => by rw [hpq.ready]
  have hall : (∀ p ∈ Reconciler.livePods pods, p.ready = true) ↔
      ∀ p ∈ Reconciler.livePods pods', p.ready = true := by
    rw [← not_iff_not]
    simpa using hready
  rw [Satisfied, Satisfied, hlen, hall]

theorem stopped_iff (h : Shuffled pods pods') (operation : OperationState) (everDeployed : Bool) :
    Stopped pods operation everDeployed ↔ Stopped pods' operation everDeployed := by
  have hcorpse := h.exists_iff (Q := fun p => p.terminating = false ∧ p.terminal = true)
    fun p q hpq => by rw [hpq.terminating, hpq.terminal]
  rw [Stopped, Stopped, hcorpse]

end Shuffled

/-! ### Choosing an order -/

/-- Some order of the containers in which no live pod shows a failure. -/
theorem exists_shuffled_fine {pods : List Pod} (h : ∀ p ∈ livePods pods, ¬ p.MustFail) :
    ∃ pods', Shuffled pods pods' ∧ ∀ q ∈ livePods pods', q.failing = false := by
  have hchoice : ∃ pods', List.Forall₂ Pod.Reordered pods pods' ∧
      ∀ q ∈ livePods pods', q.failing = false := by
    induction pods with
    | nil => exact ⟨[], .nil, by simp [livePods]⟩
    | cons p rest ih =>
        have hrest : ∀ q ∈ livePods rest, ¬ q.MustFail := by
          intro q hq
          refine h q (List.mem_filter.mpr ⟨List.mem_cons_of_mem p (List.mem_filter.mp hq).1, ?_⟩)
          exact (List.mem_filter.mp hq).2
        obtain ⟨rest', hrest', hfine⟩ := ih hrest
        cases hlive : p.live with
        | false =>
            exact ⟨p :: rest', .cons (.refl p) hrest', by simpa [livePods, hlive] using hfine⟩
        | true =>
            have hnot : ¬ p.MustFail := h p (List.mem_filter.mpr ⟨List.mem_cons_self, hlive⟩)
            obtain ⟨r, hr⟩ := not_forall.mp hnot
            obtain ⟨hmem, hr⟩ := Classical.not_imp.mp hr
            obtain ⟨q, hq, hshown⟩ := Pod.exists_reordered hmem
            have hqfine : q.failing = false := by
              rw [Pod.failing, hshown]
              simpa using hr
            refine ⟨q :: rest', .cons hq hrest', ?_⟩
            simpa [livePods, hq.live, hlive, hqfine] using hfine
  obtain ⟨pods', hpods', hfine⟩ := hchoice
  exact ⟨pods', ⟨pods, .refl _, hpods'⟩, hfine⟩

/-- Some order of the containers in which a live pod shows a failure. -/
theorem exists_shuffled_failing {pods : List Pod} {p : Pod} (hp : p ∈ livePods pods)
    (h : p.CanFail) : ∃ pods', Shuffled pods pods' ∧ ∃ q ∈ livePods pods', q.failing = true := by
  obtain ⟨r, hmem, hr⟩ := h
  obtain ⟨q, hq, hshown⟩ := Pod.exists_reordered hmem
  obtain ⟨hpods, hlive⟩ := List.mem_filter.mp hp
  obtain ⟨before, after, rfl⟩ := List.append_of_mem hpods
  have hsame : ∀ l : List Pod, List.Forall₂ Pod.Reordered l l :=
    fun l => List.forall₂_same.mpr fun p _ => .refl p
  refine ⟨before ++ q :: after, ⟨_, .refl _, ?_⟩, q, ?_, ?_⟩
  · exact List.rel_append (hsame before) (.cons hq (hsame after))
  · exact List.mem_filter.mpr ⟨by simp, hq.live.trans hlive⟩
  · rw [Pod.failing, hshown, hr]

/-! ### What is reported -/

/-- Some live pod has a container that waits for a failure. -/
def HasFailing (pods : List Pod) : Prop :=
  ∃ p ∈ livePods pods, ∃ c ∈ p.containers, ∃ r, c.waiting = some (some r) ∧ r ∈ failedPodReasons

theorem HasFailing.canFail {pods : List Pod} (h : HasFailing pods) :
    ∃ p ∈ livePods pods, p.CanFail := by
  obtain ⟨p, hp, c, hc, r, hwaiting, hr⟩ := h
  refine ⟨p, hp, some r, ?_, by simpa [isAmong] using hr⟩
  have hmem : some r ∈ p.waitingReasons := List.mem_filterMap.mpr ⟨c, hc, hwaiting⟩
  rw [Pod.canShow, if_neg (List.ne_nil_of_mem hmem)]
  exact List.mem_map.mpr ⟨some r, hmem, rfl⟩

/-- A failing container is reported, in every order of the pods and their containers. -/
structure NeverHidden (cfg : Settings) (name : String) (d : Printed)
    (given : Option (List PodState)) (pods : List Pod) : Prop where
  failing : HasFailing pods → ∀ report : Report,
    (reconcile cfg name given).Ends (printing cfg name d) () (.ok report) → report.state = .failed
  order : ∀ (listing : String) (given' : Option (List PodState)) (pods' : List Pod),
    Shuffled pods pods' → ShowsPods { d with pods := listing } given' pods' →
      ∀ report report' : Report,
        (reconcile cfg name given).Ends (printing cfg name d) () (.ok report) →
        (reconcile cfg name given').Ends (printing cfg name { d with pods := listing }) ()
          (.ok report') → report'.state = report.state

/-- The rules after the one about reasons report FAILED. -/
def FailedAnyway (entries : List Entry) (pods : List Pod) (desired : ℤ) : Prop :=
  ¬ Satisfied pods desired ∧ ∃ e, newest entries = some e ∧
    Stopped pods e.operation (lastDeployed entries).isSome

theorem stateOf_failed_of {pods : List Pod} {desired : ℤ} {operation : OperationState}
    {everDeployed : Bool} (h : (∃ p ∈ livePods pods, p.failing = true) ∨
      ¬ Satisfied pods desired ∧ Stopped pods operation everDeployed) :
    stateOf pods desired operation everDeployed = .failed := by
  rw [stateOf]
  by_cases hfails : ∃ p ∈ livePods pods, p.failing = true
  · rw [if_pos hfails]
  · obtain ⟨hsat, hstopped⟩ := h.resolve_left hfails
    rw [if_neg hfails, if_neg hsat, if_pos hstopped]

theorem stateOf_failed_elim {pods : List Pod} {desired : ℤ} {operation : OperationState}
    {everDeployed : Bool} (h : stateOf pods desired operation everDeployed = .failed) :
    (∃ p ∈ livePods pods, p.failing = true) ∨
      ¬ Satisfied pods desired ∧ Stopped pods operation everDeployed := by
  rw [stateOf] at h
  split_ifs at h with hfails hsat hstopped
  · exact .inl hfails
  · exact .inr ⟨hsat, hstopped⟩

theorem stateOf_congr {pods pods' : List Pod} (h : Shuffled pods pods')
    (hfails : (∃ p ∈ livePods pods, p.failing = true) ↔ ∃ p ∈ livePods pods', p.failing = true)
    (desired : ℤ) (operation : OperationState) (everDeployed : Bool) :
    stateOf pods' desired operation everDeployed = stateOf pods desired operation everDeployed := by
  simp only [stateOf, hfails, h.satisfied_iff, h.stopped_iff]

/-- The verdict on a release with a history, when its values give a replica count. -/
theorem verdict_ok {name : String} {values : String → String} {entries : List Entry}
    {pods : List Pod} {e : Entry} {report : Report} (he : newest entries = some e)
    (h : .ok report = verdict name values entries pods) :
    ∃ n, desiredOf name values entries = .ok n ∧ report = reported name entries e pods n := by
  rw [verdict, he] at h
  cases hd : desiredOf name values entries with
  | error exc => rw [hd] at h; cases h
  | ok n =>
      rw [hd] at h
      exact ⟨n, rfl, Except.ok.inj h⟩

/-- The three ways in which the order of a listing does not matter. -/
def OrderFree (entries : List Entry) (pods : List Pod) (desired : ℤ) : Prop :=
  FailedAnyway entries pods desired ∨ (∀ p ∈ livePods pods, ¬ p.CanFail) ∨
    ∃ p ∈ livePods pods, p.MustFail

section reports

variable {cfg : Settings} {name : String} {d : Printed} {given : Option (List PodState)}
  {entries : List Entry} {pods : List Pod} {e : Entry} {n : ℤ}

/-- Where the order matters, one order of the listing shows a failure and another none. -/
theorem NeverHidden.orderFree (h : NeverHidden cfg name d given pods)
    (hh : SaysHistory d entries) (hp : ShowsPods d given pods) (he : newest entries = some e)
    (hn : desiredOf name d.values entries = .ok n) : OrderFree entries pods n := by
  by_contra hnot
  obtain ⟨hanyway, hnot⟩ := not_or.mp hnot
  obtain ⟨hcan, hnever⟩ := not_or.mp hnot
  have hreport : ∀ qs, verdict name d.values entries qs = .ok (reported name entries e qs n) := by
    intro qs
    rw [verdict, he, hn]
    rfl
  have hsame : ∀ qs, Shuffled pods qs → stateOf qs n e.operation (lastDeployed entries).isSome =
      stateOf pods n e.operation (lastDeployed entries).isSome := by
    intro qs hqs
    exact h.order d.pods (some (shownPods qs)) qs hqs (showsPods_shown d qs) _ _
      ((ends_verdict_iff hh hp).mpr (hreport pods).symm)
      ((ends_verdict_iff hh (showsPods_shown d qs)).mpr (hreport qs).symm)
  obtain ⟨p, hcan⟩ := not_forall.mp hcan
  obtain ⟨hlive, hcan⟩ := Classical.not_imp.mp hcan
  obtain ⟨qs, hqs, hfailing⟩ := exists_shuffled_failing hlive (not_not.mp hcan)
  obtain ⟨rs, hrs, hfine⟩ := exists_shuffled_fine fun p hp hmust => hnever ⟨p, hp, hmust⟩
  have hfailed : stateOf rs n e.operation (lastDeployed entries).isSome = .failed := by
    rw [hsame rs hrs, ← hsame qs hqs]
    exact stateOf_failed_of (.inl hfailing)
  rcases stateOf_failed_elim hfailed with ⟨q, hq, hfails⟩ | ⟨hsat, hstopped⟩
  · rw [hfine q hq] at hfails
    cases hfails
  · exact hanyway ⟨(hrs.satisfied_iff n).not.mpr hsat, e, he, (hrs.stopped_iff _ _).mpr hstopped⟩

theorem OrderFree.failing (h : OrderFree entries pods n) (he : newest entries = some e)
    (hfailing : HasFailing pods) :
    stateOf pods n e.operation (lastDeployed entries).isSome = .failed := by
  rcases h with ⟨hsat, e', he', hstopped⟩ | hnone | ⟨p, hp, hfail⟩
  · obtain rfl := Option.some.inj (he'.symm.trans he)
    exact stateOf_failed_of (.inr ⟨hsat, hstopped⟩)
  · obtain ⟨p, hp, hcan⟩ := hfailing.canFail
    exact absurd hcan (hnone p hp)
  · exact stateOf_failed_of (.inl ⟨p, hp, hfail.failing⟩)

theorem OrderFree.order (h : OrderFree entries pods n) (he : newest entries = some e)
    {pods' : List Pod} (hshuffled : Shuffled pods pods') :
    stateOf pods' n e.operation (lastDeployed entries).isSome =
      stateOf pods n e.operation (lastDeployed entries).isSome := by
  rcases h with ⟨hsat, e', he', hstopped⟩ | hnone | hmust
  · obtain rfl := Option.some.inj (he'.symm.trans he)
    have hsat' : ¬ Satisfied pods' n := (hshuffled.satisfied_iff n).not.mp hsat
    have hstopped' := (hshuffled.stopped_iff _ _).mp hstopped
    rw [stateOf_failed_of (.inr ⟨hsat, hstopped⟩), stateOf_failed_of (.inr ⟨hsat', hstopped'⟩)]
  · have hfine : ¬ ∃ p ∈ livePods pods, p.CanFail := fun ⟨p, hp, hcan⟩ => hnone p hp hcan
    have hfine' : ¬ ∃ p ∈ livePods pods', p.CanFail :=
      (hshuffled.livePods.exists_iff fun _ _ h => h.canFail).not.mp hfine
    refine stateOf_congr hshuffled (iff_of_false ?_ ?_) n _ _
    · intro hx
      obtain ⟨p, hp, hfails⟩ := hx
      exact hfine ⟨p, hp, .of_failing hfails⟩
    · intro hx
      obtain ⟨p, hp, hfails⟩ := hx
      exact hfine' ⟨p, hp, .of_failing hfails⟩
  · obtain ⟨q, hq, hfail'⟩ := (hshuffled.livePods.exists_iff fun _ _ h => h.mustFail).mp hmust
    obtain ⟨p, hp, hfail⟩ := hmust
    exact stateOf_congr hshuffled
      (iff_of_true ⟨p, hp, hfail.failing⟩ ⟨q, hq, hfail'.failing⟩) n _ _

end reports

/-- A failing container is reported in every order exactly when the other rules report
FAILED anyway, or no live pod can show a failure, or some live pod must show one. -/
theorem never_hidden_iff (cfg : Settings) (name : String) {d : Printed}
    {given : Option (List PodState)} {entries : List Entry} {pods : List Pod}
    (hh : SaysHistory d entries) (hp : ShowsPods d given pods) (hne : entries ≠ []) :
    NeverHidden cfg name d given pods ↔
      ∀ desired, desiredOf name d.values entries = .ok desired →
        OrderFree entries pods desired := by
  obtain ⟨e, he⟩ : ∃ e, newest entries = some e :=
    Option.ne_none_iff_exists'.mp fun h => hne (List.argmax_eq_none.mp h)
  constructor
  · intro h n hn
    exact h.orderFree hh hp he hn
  · intro h
    constructor
    · intro hfailing report hends
      obtain ⟨n, hn, rfl⟩ := verdict_ok he ((ends_verdict_iff hh hp).mp hends)
      exact (h n hn).failing he hfailing
    · intro listing given' pods' hshuffled hp' report report' hends hends'
      have hh' : SaysHistory { d with pods := listing } entries := hh
      obtain ⟨n, hn, rfl⟩ := verdict_ok he ((ends_verdict_iff hh hp).mp hends)
      obtain ⟨n', hn', rfl⟩ := verdict_ok he ((ends_verdict_iff hh' hp').mp hends')
      obtain rfl : n = n' := Except.ok.inj (hn.symm.trans hn')
      exact (h n hn).order he hshuffled

/-- A pod with one container ready and one that crashes. -/
def crashing : Pod :=
  ⟨false, some "Running", none, [⟨none, true⟩, ⟨some (some "CrashLoopBackOff"), false⟩]⟩

theorem never_hidden_iff_crashing :
    HasFailing [crashing] ∧
      NeverHidden {} "nf" oneReplica (some (shownPods [crashing])) [crashing] := by
  have hlive : crashing ∈ livePods [crashing] :=
    List.mem_filter.mpr ⟨List.mem_singleton_self _, by decide +kernel⟩
  have hmust : crashing.MustFail := by
    intro r hr
    obtain rfl : r = some "CrashLoopBackOff" := by
      simpa [crashing, Pod.canShow, Pod.waitingReasons] using hr
    decide +kernel
  refine ⟨⟨crashing, hlive, ⟨some (some "CrashLoopBackOff"), false⟩, by simp [crashing],
    "CrashLoopBackOff", rfl, by simp [failedPodReasons]⟩, ?_⟩
  exact (never_hidden_iff {} "nf" oneReplica_saysHistory (showsPods_shown oneReplica [crashing])
    (by simp)).mpr fun desired _ => .inr (.inr ⟨crashing, hlive, hmust⟩)

/-- A pod whose first container is being created while its second crashes. -/
def sidecarFirst : Pod :=
  ⟨false, some "Pending", none,
    [⟨some (some "ContainerCreating"), false⟩, ⟨some (some "CrashLoopBackOff"), false⟩]⟩

/-- The crashing container of such a pod is hidden behind the other. -/
theorem crash_hidden :
    ShowsPods oneReplica (some (shownPods [sidecarFirst])) [sidecarFirst] ∧
      HasFailing [sidecarFirst] ∧
      ∃ report : Report,
        (reconcile {} "nf" (some (shownPods [sidecarFirst]))).Ends (printing {} "nf" oneReplica) ()
          (.ok report) ∧ report.state = .instantiating := by
  have hp : ShowsPods oneReplica (some (shownPods [sidecarFirst])) [sidecarFirst] :=
    showsPods_shown oneReplica [sidecarFirst]
  have hlive : sidecarFirst ∈ livePods [sidecarFirst] :=
    List.mem_filter.mpr ⟨List.mem_singleton_self _, by decide +kernel⟩
  have hfailing : HasFailing [sidecarFirst] :=
    ⟨sidecarFirst, hlive, ⟨some (some "CrashLoopBackOff"), false⟩, by simp [sidecarFirst],
      "CrashLoopBackOff", rfl, by simp [failedPodReasons]⟩
  have hverdict : verdict "nf" oneReplica.values [⟨1, "deployed", .null⟩] [sidecarFirst] =
      .ok (reported "nf" [⟨1, "deployed", .null⟩] ⟨1, "deployed", .null⟩ [sidecarFirst] 1) := by
    have hdesired : desiredOf "nf" oneReplica.values [⟨1, "deployed", .null⟩] = .ok 1 :=
      SaysReplicas.readReplicas (oneReplica_saysReplicas _) "nf"
    rw [verdict, show newest [⟨1, "deployed", .null⟩] = some ⟨1, "deployed", .null⟩ from rfl,
      hdesired]
    rfl
  refine ⟨hp, hfailing, _, (ends_verdict_iff oneReplica_saysHistory hp).mpr hverdict.symm, ?_⟩
  decide +kernel

end NfOrchestrator.Reconciler
