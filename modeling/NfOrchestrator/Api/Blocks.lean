import NfOrchestrator.Api.Counted
import NfOrchestrator.Api.Serial
import NfOrchestrator.Reconciler.Blocks

/-!
# NfOrchestrator.Api.Blocks

**What the server's threads are made of.** A request, a scrape and the threads it starts are
composed of the engine's blocks, of the operations on a scrape's threads, and of increments
(`Blocks.thread`). So what is kept by composing is proved of the whole server by proving it of
these few programs.
-/

namespace NfOrchestrator.Api

open Deploy Reconciler Metrics

/-- The property is kept by composing, and holds of what the server's threads are made of. -/
structure Blocks (cfg : Settings) (Q : List String → Prop)
    (C : ∀ ⦃α : Type⦄, Serving α → Prop) : Prop where
  closed : Closed C
  engine : Deploy.Blocks cfg Q fun _ p => C (serve p)
  perform (o : Metrics.Op) : C (scrape (Metrics.perform o))
  increment (c : Count) : C (increment c)

namespace Blocks

variable {cfg : Settings} {out : Outside} {pages : ℕ} {Q : List String → Prop}
  {C : ∀ ⦃α : Type⦄, Serving α → Prop} (hC : Blocks cfg Q C) {α : Type}

include hC

/-! ### A scrape -/

/-- The property, of the programs of a scrape. -/
theorem scraping : Closed fun _ (p : Scrape _) => C (scrape p) := hC.closed.inl

theorem clock : C (scrape (Metrics.engine monotonic)) := hC.engine.single .monotonic

theorem recordProbe (started : Bool) (deadline : ℚ)
    (clusterSeconds localSeconds : GaugeMetricFamily) :
    C (scrape (recordProbe started deadline clusterSeconds localSeconds)) := by
  have h := hC.scraping
  rw [Metrics.recordProbe]
  split_ifs
  · exact h.ret _
  · refine h.bind hC.clock fun now => h.bind (hC.perform _) fun _ => h.bind (hC.perform _)
      fun probe => ?_
    cases probe with
    | none => exact h.ret _
    | some probe => exact h.ret _

theorem collectUnlisted (found : Findings) (exc : Exc) :
    C (scrape (collectUnlisted found exc)) := by
  have h := hC.scraping
  have hrecorded := hC.recordProbe found.proberStarted found.deadline clusterProbeSeconds
    orchestratorProbeLocalSeconds
  cases exc with
  | py e => exact h.raise _ _
  | os e => exact h.bind hrecorded fun _ => h.ret _
  | deploy e =>
      rw [Metrics.collectUnlisted]
      dsimp only
      split_ifs <;> exact h.bind hrecorded fun _ => h.ret _

theorem waves (pods : Option PodsByRelease) (deadline : ℚ) (wave : ℕ+) (previousCost : ℚ)
    (futures : List (String × Future)) (queue : List String) :
    C (scrape (waves cfg pods deadline wave previousCost futures queue)) := by
  have h := hC.scraping
  have hsubmitAll : ∀ names batch, C (scrape (submitAll pods batch names)) := by
    intro names
    induction names with
    | nil => exact fun _ => h.ret _
    | cons name rest ih =>
        intro batch
        refine h.bind (h.bind (hC.perform _) fun started => ?_) fun _ => ih _
        split_ifs <;> exact h.ret _
  have hallDone : ∀ futures, C (scrape (allDone futures)) := by
    intro futures
    induction futures with
    | nil => exact h.ret _
    | cons future rest ih =>
        refine h.bind ?_ fun done => ?_
        · cases future with
          | started name given => exact hC.perform _
          | settled | neverStarted => exact h.ret _
        · split_ifs
          · exact ih
          · exact h.ret _
  induction wave, previousCost, futures, queue using (Metrics.waves.induct cfg) with
  | case1 wave previousCost futures =>
      rw [Metrics.waves]
      exact h.ret _
  | case2 wave previousCost futures name rest queue =>
      rename_i ih
      rw [Metrics.waves]
      refine h.bind hC.clock fun now => ?_
      dsimp only
      split_ifs
      · exact h.ret _
      · refine h.bind hC.clock fun started => h.bind (hsubmitAll _ _) fun batch =>
          h.bind hC.clock fun now => h.bind (hC.perform _) fun _ =>
            h.bind hC.clock fun now => h.bind (hallDone _) fun done => ?_
        split_ifs
        · exact ih started batch now
        · exact h.ret _

theorem collectListed (found : Findings) (names : List String) (pods : Option PodsByRelease) :
    C (scrape (collectListed cfg found names pods)) := by
  have h := hC.scraping
  have haccount : ∀ futures t, C (scrape (account t futures)) := by
    intro futures
    induction futures with
    | nil => exact fun _ => h.ret _
    | cons e rest ih =>
        intro t
        refine h.bind ?_ fun current => h.bind (hC.engine.ofPy _) fun t => ih t
        obtain ⟨name, future⟩ := e
        cases future with
        | started name given =>
            refine h.bind (hC.perform _) fun result => ?_
            cases result with
            | none => exact h.ret _
            | some result => exact h.map _ (h.ofExcept _)
        | settled | neverStarted => exact h.ret _
  refine h.bind ?_ fun futures => h.bind (haccount _ _) fun t =>
    h.bind (hC.recordProbe _ _ _ _) fun _ => h.ret _
  exact h.bind (hC.waves _ _ _ _ _ _) fun _ => h.bind (hC.perform _) fun _ => h.ret _

theorem listPods (found : Findings)
    (hpods : Q (["kubectl", "--context", cfg.kubeContext] ++ allPodsArgs)) :
    C (scrape (listPods cfg found)) := by
  have h := hC.scraping
  refine h.tryCatch (h.bind (hC.engine.podsByRelease hpods) fun _ => h.ret _) fun exc => ?_
  rcases exc with e | e | e
  · dsimp only
    split_ifs <;> exact h.ret _
  · exact h.ret _
  · exact h.raise _ _

theorem collect (hpods : Q (["kubectl", "--context", cfg.kubeContext] ++ allPodsArgs))
    {releaseNames : Eff (List String)} (hlist : C (serve releaseNames)) :
    C (scrape (collect cfg releaseNames)) := by
  have h := hC.scraping
  have hsetUp : C (scrape (setUp cfg)) :=
    h.bind hC.clock fun now => h.bind hC.engine.toolProblems fun problems =>
      h.bind (hC.perform _) fun _ => h.ret _
  have hattempt : C (scrape (attempt (Metrics.engine releaseNames))) :=
    h.tryCatch (h.map _ hlist) fun _ => h.ret _
  refine h.bind hsetUp fun found => h.bind hattempt fun listing => ?_
  cases listing with
  | error exc => exact hC.collectUnlisted found exc
  | ok names => exact h.bind (hC.listPods found hpods) fun r => hC.collectListed _ _ _

theorem releaseNames (hlist : ∀ offset, Q ("helm" :: listArgs cfg listPage offset)) (pages : ℕ) :
    C (serve (releaseNames cfg pages)) := by
  refine hC.engine.bind (hC.engine.listReleases listPage hlist pages) fun names => ?_
  cases names with
  | none => exact hC.engine.throw _
  | some names => exact hC.engine.ofPy _

theorem snapshot {name : String} (hhistory : Q ("helm" :: historyArgs cfg name))
    (hvalues : ∀ revision, Q ("helm" :: valuesArgs cfg name revision))
    (hpods : Q (["kubectl", "--context", cfg.kubeContext] ++ podsArgs name))
    (pods : Option (List PodState)) : C (serve (snapshot cfg name pods)) :=
  hC.engine.tryCatch (hC.engine.map _ (hC.engine.reconcile hhistory hvalues hpods pods))
    fun _ => hC.engine.ofExcept _

/-! ### A route -/

theorem caught {p : Eff α} (hp : C (serve p)) : C (serve (caught p)) := by
  refine hC.engine.tryCatch (hC.engine.map _ hp) fun exc => ?_
  cases exc with
  | deploy e => exact hC.engine.ret _
  | os e | py e => exact hC.engine.throw _

theorem answering {p : Eff α} {failed : Serving Unit} {returned : α → Serving Response}
    (hp : C (serve p)) (hfailed : C failed) (hreturned : ∀ a, C (returned a)) :
    C (answering p failed returned) := by
  refine hC.closed.bind (hC.caught hp) fun result => ?_
  cases result with
  | ok a => exact hreturned a
  | error e => exact hC.closed.bind hfailed fun _ => hC.closed.ret _

theorem submitted {p : Eff α} {c c' : Count} {statusCode : ℕ} {body : α → Body}
    (hp : C (serve p)) : C (Api.answering p (Api.increment c) fun result => do
      Api.increment c'
      return .ok statusCode (body result)) :=
  hC.answering hp (hC.increment _) fun _ => hC.closed.bind (hC.increment _) fun _ => hC.closed.ret _

/-- The processes that a thread starts are among these. -/
theorem thread (t : Thread)
    (hread : ∀ command, Reading command → Q command)
    (hupgrade : ∀ counter intent, t = .request (submission counter intent) →
      Q ("helm" :: deployArgs cfg intent (forces counter)))
    (huninstall : ∀ name, t = .request (.deleteDeployment name) →
      Q ("helm" :: uninstallArgs cfg name)) : C (t.prog cfg out pages) := by
  have hhelm : ∀ {verb : String} {args : List String}, verb ∉ writeVerbs →
      Q ("helm" :: verb :: args) := fun h => hread _ (reading_helm h _)
  have hkubectl : ∀ args, Q ("kubectl" :: args) := fun _ => hread _ (reading_kubectl _)
  cases t with
  | worker name pods =>
      exact hC.snapshot (hhelm (by decide)) (fun _ => hhelm (by decide)) (hkubectl _) pods
  | prober => exact hC.engine.probe _ _
  | request r =>
      cases r with
      | healthz | intentSchema | validateIntent => exact hC.closed.ret _
      | readyz =>
          exact hC.answering hC.engine.checkCluster (hC.closed.ret _) fun _ => hC.closed.ret _
      | translateIntent text =>
          rw [Thread.prog, handle, translateIntent]
          split
          · exact hC.closed.ret _
          · exact hC.closed.ret _
          · exact hC.closed.raise _ _
      | prometheusMetrics =>
          exact hC.closed.bind (hC.collect (hkubectl _)
            (hC.releaseNames (fun _ => hhelm (by decide)) pages)) fun _ => hC.closed.ret _
      | createDeployment intent =>
          exact hC.submitted (hC.engine.deploy (hupgrade .deploymentsTotal intent rfl))
      | repairDeployment name intent =>
          rw [Thread.prog, handle, repairDeployment]
          split_ifs with hname
          · exact hC.closed.ret _
          · obtain rfl := not_not.mp hname
            exact hC.submitted (hC.engine.deploy (hupgrade .repairsTotal intent rfl))
      | getDeployment name =>
          exact hC.answering (hC.engine.reconcile (hhelm (by decide)) (fun _ => hhelm (by decide))
            (hkubectl _) none) (hC.closed.ret _) fun _ => hC.closed.ret _
      | deleteDeployment name =>
          exact hC.answering (hC.engine.teardown (hhelm (by decide)) (huninstall name rfl))
            (hC.closed.ret _) fun _ => hC.closed.ret _

end Blocks

end NfOrchestrator.Api
