import NfOrchestrator.Metrics.Collect
import NfOrchestrator.Reconciler.Commands

/-!
# NfOrchestrator.Metrics.Commands

Which **processes** a scrape starts, in its own thread (`within_collect`), in its workers
(`within_snapshot`) and in its prober (`within_prober`).
-/

namespace NfOrchestrator.Metrics

open Deploy Reconciler

/-- Of the engine's operations those that `P` allows, and any on the scrape's threads. -/
abbrev Scraping (P : Deploy.Op → Prop) : sig.Op → Prop := Sum.elim P fun _ => True

variable (cfg : Settings) {P : Deploy.Op → Prop} {α : Type}

theorem within_engine {p : Eff α} (hp : p.Within P) : (engine p).Within (Scraping P) := hp.inl

theorem within_perform (o : Op) : (perform o).Within (Scraping P) := Prog.within_op trivial

theorem within_attempt {p : Scrape α} (hp : p.Within (Scraping P)) :
    (attempt p).Within (Scraping P) := by
  refine Prog.Within.tryCatch ?_ fun _ => trivial
  rw [map_eq_pure_bind]
  exact hp.bind fun _ => trivial

section clock

variable (hclock : P .monotonic)

include hclock

theorem within_clock : (engine monotonic).Within (Scraping P) :=
  within_engine (Prog.within_op hclock)

theorem within_recordProbe (started : Bool) (deadline : ℚ) (clusterSeconds localSeconds) :
    (recordProbe started deadline clusterSeconds localSeconds).Within (Scraping P) := by
  rw [recordProbe]
  split_ifs
  · trivial
  · refine (within_clock hclock).bind fun now => (within_perform _).bind fun _ =>
      (within_perform _).bind fun probe => ?_
    cases probe <;> trivial

theorem within_collectUnlisted (found : Findings) (exc : Exc) :
    (collectUnlisted found exc).Within (Scraping P) := by
  have hrecorded := within_recordProbe hclock found.proberStarted found.deadline
    clusterProbeSeconds orchestratorProbeLocalSeconds
  cases exc with
  | py e => trivial
  | os e => exact hrecorded.bind fun _ => trivial
  | deploy e =>
      rw [collectUnlisted]
      dsimp only
      split_ifs <;> exact hrecorded.bind fun _ => trivial

theorem within_waves (pods : Option PodsByRelease) (deadline : ℚ) (wave : ℕ+) (previousCost : ℚ)
    (futures : List (String × Future)) (queue : List String) :
    (waves cfg pods deadline wave previousCost futures queue).Within (Scraping P) := by
  have hsubmitAll : ∀ names batch, (submitAll pods batch names).Within (Scraping P) := by
    intro names
    induction names with
    | nil => exact fun _ => trivial
    | cons name rest ih =>
        intro batch
        refine Prog.Within.bind ?_ fun _ => ih _
        refine (within_perform _).bind fun started => ?_
        split_ifs <;> trivial
  have hallDone : ∀ futures, (allDone futures).Within (Scraping P) := by
    intro futures
    induction futures with
    | nil => trivial
    | cons future rest ih =>
        refine Prog.Within.bind ?_ fun done => ?_
        · cases future with
          | started name given => exact within_perform _
          | settled | neverStarted => trivial
        · split_ifs
          · exact ih
          · trivial
  induction wave, previousCost, futures, queue using (waves.induct cfg) with
  | case1 wave previousCost futures =>
      rw [waves]
      trivial
  | case2 wave previousCost futures name rest queue =>
      rename_i ih
      rw [waves]
      refine (within_clock hclock).bind fun now => ?_
      dsimp only
      split_ifs
      · trivial
      · refine (within_clock hclock).bind fun started => (hsubmitAll _ _).bind fun batch =>
          (within_clock hclock).bind fun now => (within_perform _).bind fun _ =>
            (within_clock hclock).bind fun now => (hallDone _).bind fun done => ?_
        split_ifs
        · exact ih started batch now
        · trivial

theorem within_collectListed (found : Findings) (names : List String)
    (pods : Option PodsByRelease) :
    (collectListed cfg found names pods).Within (Scraping P) := by
  have haccount : ∀ futures t, (account t futures).Within (Scraping P) := by
    intro futures
    induction futures with
    | nil => exact fun _ => trivial
    | cons e rest ih =>
        intro t
        refine Prog.Within.bind ?_ fun current =>
          (within_engine (Prog.within_ofExcept _)).bind fun t => ih t
        obtain ⟨name, future⟩ := e
        cases future with
        | started name given =>
            refine (within_perform _).bind fun result => ?_
            cases result with
            | none => trivial
            | some result =>
                dsimp only
                rw [map_eq_pure_bind]
                exact (Prog.within_ofExcept _).bind fun _ => trivial
        | settled | neverStarted => trivial
  refine Prog.Within.bind ?_ fun futures => (haccount _ _).bind fun t =>
    (within_recordProbe hclock _ _ _ _).bind fun _ => trivial
  exact (within_waves cfg hclock _ _ _ _ _ _).bind fun _ => (within_perform _).bind fun _ =>
    trivial

end clock

/-! ### A whole scrape -/

variable {Q : List String → Prop} {L : Prop}

theorem calls_monotonic : Calls Q L .monotonic := by
  refine ⟨fun command h => ?_, fun tool h => by cases h⟩
  obtain h | ⟨timeout, h⟩ := h <;> cases h

theorem within_listPods (found : Findings)
    (hpods : (podsByRelease cfg).Within P) : (listPods cfg found).Within (Scraping P) := by
  have hlist : (do return (found, some (← engine (podsByRelease cfg))) :
      Scrape (Findings × Option PodsByRelease)).Within (Scraping P) :=
    (within_engine hpods).bind fun _ => trivial
  refine hlist.tryCatch fun exc => ?_
  rcases exc with e | e | e
  · dsimp only
    split_ifs <;> trivial
  · trivial
  · trivial

theorem within_collect (hL : L) (hprobe : Q (probeCommand cfg))
    (hversion : Q ["helm", "version", "--short"])
    (hpods : Q (["kubectl", "--context", cfg.kubeContext] ++ allPodsArgs))
    {releaseNames : Eff (List String)} (hlist : releaseNames.Within (Calls Q L)) :
    (collect cfg releaseNames).Within (Scraping (Calls Q L)) := by
  have hsetUp : (setUp cfg).Within (Scraping (Calls Q L)) :=
    (within_clock calls_monotonic).bind fun now =>
      (within_engine (within_toolProblems cfg hL hversion)).bind fun problems =>
        (within_perform _).bind fun _ => trivial
  refine hsetUp.bind fun found => (within_attempt (within_engine hlist)).bind fun listing => ?_
  cases listing with
  | error exc => exact within_collectUnlisted calls_monotonic found exc
  | ok names =>
      exact (within_listPods cfg found (within_podsByRelease cfg hprobe hpods)).bind fun r =>
        within_collectListed cfg calls_monotonic _ _ _

theorem within_releaseNames (hprobe : Q (probeCommand cfg))
    (hlist : ∀ offset, Q ("helm" :: listArgs cfg listPage offset)) (pages : ℕ) :
    (releaseNames cfg pages).Within (Calls Q L) := by
  refine (within_listReleases cfg hprobe listPage hlist pages).bind fun names => ?_
  cases names with
  | none => trivial
  | some names => exact within_ofPy _

theorem within_snapshot (hprobe : Q (probeCommand cfg)) {name : String}
    (hhistory : Q ("helm" :: historyArgs cfg name))
    (hvalues : ∀ revision, Q ("helm" :: valuesArgs cfg name revision))
    (hpods : Q (["kubectl", "--context", cfg.kubeContext] ++ podsArgs name))
    (pods : Option (List PodState)) : (snapshot cfg name pods).Within (Calls Q L) := by
  refine Prog.Within.tryCatch ?_ fun _ => Prog.within_ofExcept _
  rw [map_eq_pure_bind]
  exact (within_reconcile cfg hprobe hhistory hvalues hpods pods).bind fun _ => trivial

theorem within_prober (hprobe : Q (probeCommand cfg)) : (prober cfg).Within (Calls Q L) :=
  within_apiServerProbe cfg hprobe 0 _

end NfOrchestrator.Metrics
