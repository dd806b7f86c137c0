import NfOrchestrator.Deploy.Listing
import NfOrchestrator.Effects.Closed

/-!
# NfOrchestrator.Deploy.Blocks

**What the engine is made of.** Every program of the engine is composed of single operations,
of processes, of the cached probe, and of the cached findings about helm's version. So a
property that composing keeps (`Closed`) holds of all of them once it holds of these blocks
(`Blocks`).
-/

namespace NfOrchestrator.Deploy

/-- The operations that the engine's programs use outside of the two caches. -/
inductive Uncached : Op → Prop
  | monotonic : Uncached .monotonic
  | which {tool : String} : Uncached (.which tool)
  | getLastSuccess : Uncached .getLastSuccess
  | setLastSuccess {t : ℚ} : Uncached (.setLastSuccess t)

/-! ### Inside the two caches -/

/-- The operations of a caller of the probe that holds the lock. -/
inductive Probing (cfg : Settings) : Op → Prop
  | monotonic : Probing cfg .monotonic
  | time : Probing cfg .time
  | localtime {t : ℚ} : Probing cfg (.localtime t)
  | spawn : Probing cfg (.spawn (probeCommand cfg))
  | finish {timeout : ℚ} : Probing cfg (.finish (probeCommand cfg) timeout)
  | getProbe : Probing cfg .getProbe
  | setProbe {t : ℚ} {p : Probe} : Probing cfg (.setProbe t p)
  | setLastSuccess {t : ℚ} : Probing cfg (.setLastSuccess t)

section caches

variable (cfg : Settings)

theorem probing_startupDelay (log : String) (spawned : ℚ) :
    (startupDelay log spawned).Within (Probing cfg) := by
  unfold startupDelay
  cases firstStamp log with
  | none => trivial
  | some first => exact (Prog.within_op .localtime).bind fun _ => trivial

theorem probing_measureProbe (timeout : ℚ) :
    (measureProbe cfg timeout).Within (Probing cfg) := by
  have hexited : ∀ answered log spawned started,
      (exitedProbe answered log spawned started).Within (Probing cfg) :=
    fun answered log spawned started => (Prog.within_op .monotonic).bind fun _ =>
      (Prog.within_ofExcept _).bind fun _ => (probing_startupDelay cfg log spawned).bind
        fun _ => trivial
  have hnote : noteSuccess.Within (Probing cfg) :=
    (Prog.within_op .monotonic).bind fun _ => Prog.within_op .setLastSuccess
  refine (Prog.within_op .time).bind fun spawned => (Prog.within_op .monotonic).bind
    fun started => Prog.Within.bind ?_ fun outcome => ?_
  · refine (Prog.within_op .spawn).bind fun failure => ?_
    cases failure with
    | some exc => trivial
    | none => exact Prog.within_op .finish
  · cases outcome with
    | timedOut stderr =>
        exact (Prog.within_op .monotonic).bind fun _ => (Prog.within_ofExcept _).bind fun _ =>
          (probing_startupDelay cfg _ spawned).bind fun _ => trivial
    | osError exc => exact (Prog.within_op .monotonic).bind fun _ => trivial
    | completed returncode stdout stderr =>
        dsimp only
        split_ifs
        · exact hnote.bind fun _ => hexited _ stderr spawned started
        · exact hexited _ stderr spawned started

theorem probing_cachedProbe (maxAge timeout : ℚ) :
    (cachedProbe cfg maxAge timeout).Within (Probing cfg) := by
  have hfresh : (freshProbe cfg timeout).Within (Probing cfg) :=
    (probing_measureProbe cfg timeout).bind fun _ => (Prog.within_op .monotonic).bind fun _ =>
      (Prog.within_op .setProbe).bind fun _ => trivial
  refine (Prog.within_op .getProbe).bind fun cached => ?_
  cases cached with
  | none => exact hfresh
  | some c =>
      dsimp only
      split_ifs
      · refine (Prog.within_op .monotonic).bind fun now => ?_
        split_ifs
        · trivial
        · exact hfresh
      · exact hfresh

/-- The operations of a look at the findings about helm's version. -/
inductive Versioning : Op → Prop
  | monotonic : Versioning .monotonic
  | getVersions : Versioning .getVersions
  | spawn : Versioning (.spawn ["helm", "version", "--short"])
  | finish {timeout : ℚ} : Versioning (.finish ["helm", "version", "--short"] timeout)
  | setVersions {t : ℚ} {problems : List String} : Versioning (.setVersions t problems)

theorem versioning_versionProblems : (versionProblems cfg).Within Versioning := by
  have hask : ∀ now, (askVersion cfg now).Within Versioning := by
    intro now
    refine Prog.Within.bind ?_ fun outcome => (Prog.within_ofExcept _).bind fun _ =>
      (Prog.within_op .setVersions).bind fun _ => trivial
    refine (Prog.within_op .spawn).bind fun failure => ?_
    cases failure with
    | some exc => trivial
    | none => exact Prog.within_op .finish
  refine (Prog.within_op .monotonic).bind fun now => (Prog.within_op .getVersions).bind
    fun cached => ?_
  cases cached with
  | none => exact hask now
  | some c =>
      dsimp only
      split_ifs
      · trivial
      · exact hask now

end caches

/-! ### The blocks -/

/-- The property is kept by composing, and holds of the blocks: of processes, those that `Q`
allows. -/
structure Blocks (cfg : Settings) (Q : List String → Prop) (C : ∀ ⦃α : Type⦄, Eff α → Prop) : Prop
    extends Closed C where
  single {o : Op} (ho : Uncached o) : C (perform o)
  process {command : List String} (h : Q command) (timeout : ℚ) :
    C (subprocessRun command timeout)
  probe (maxAge : ℚ) (timeout : Option ℚ) : C (apiServerProbe cfg maxAge timeout)
  versions : C (versionProblems cfg)

namespace Blocks

variable {cfg : Settings} {Q : List String → Prop} {C : ∀ ⦃α : Type⦄, Eff α → Prop}
  (hC : Blocks cfg Q C) {α : Type}

include hC

theorem ofPy (x : Except PyError α) : C (ofPy x) := hC.ofExcept _

theorem throw (exc : Exc) : C (throw exc : Eff α) := hC.raise α exc

theorem noteSuccess : C noteSuccess :=
  hC.bind (hC.single .monotonic) fun _ => hC.single .setLastSuccess

theorem answeredRecently : C (answeredRecently cfg) := by
  refine hC.bind (hC.single .getLastSuccess) fun t => ?_
  cases t with
  | none => exact hC.ret _
  | some _ =>
      refine hC.bind (hC.single .monotonic) fun now =>
        hC.bind (hC.single .getLastSuccess) fun t => ?_
      cases t with
      | none => exact hC.throw _
      | some last => exact hC.ret _

/-! ### A command -/

theorem settledProbe : C (settledProbe cfg) := by
  refine hC.bind (hC.probe _ _) fun probe => ?_
  split_ifs
  · exact hC.ret _
  · exact hC.probe _ _

theorem localDelay : C (localDelay cfg (Deploy.settledProbe cfg)) := by
  refine hC.bind hC.settledProbe fun probe => ?_
  split_ifs
  · exact hC.ret _
  · cases probe.localSeconds with
    | none => exact hC.ret _
    | some here =>
        dsimp only
        split_ifs
        · cases probe.roundTrip with
          | none => exact hC.throw _
          | some r => exact hC.ret _
        · exact hC.ret _

theorem reachabilityEvidence : C (reachabilityEvidence cfg (Deploy.settledProbe cfg)) := by
  refine hC.bind hC.settledProbe fun probe => ?_
  split_ifs
  · exact hC.ret _
  · refine hC.bind hC.answeredRecently fun answered => ?_
    split_ifs <;> exact hC.ret _

theorem afterTimeout (verb : String) (args : List String) (timeout : ℚ) :
    C (afterTimeout cfg (Deploy.settledProbe cfg) verb args timeout) := by
  unfold Deploy.afterTimeout
  split_ifs
  · refine hC.bind hC.settledProbe fun probe => ?_
    cases probe.spawnFailure with
    | some failure => exact hC.throw _
    | none =>
        refine hC.bind hC.localDelay fun here => ?_
        split_ifs
        · exact hC.throw _
        · refine hC.bind hC.reachabilityEvidence fun evidence => ?_
          split_ifs <;> exact hC.throw _
  · exact hC.throw _

theorem afterOSError (tool : String) (exc : OSError) : C (afterOSError tool exc) := by
  unfold Deploy.afterOSError
  cases spawnFailure tool exc <;> exact hC.throw _

theorem afterExit (returncode : ℤ) (stdout stderr : String) :
    C (afterExit returncode stdout stderr) := by
  unfold Deploy.afterExit refuse
  generalize classifyError (complaint stdout stderr) = error
  split_ifs
  · exact hC.bind hC.noteSuccess fun _ => hC.throw _
  · exact hC.throw _
  · exact hC.bind hC.noteSuccess fun _ => hC.ret _

theorem runBounded {command : List String} (h : Q command) (args : List String) (timeout : ℚ) :
    C (runBounded cfg command args timeout) := by
  refine hC.bind (hC.process h timeout) fun outcome => ?_
  cases outcome with
  | timedOut stderr => exact hC.afterTimeout _ args timeout
  | osError exc => exact hC.afterOSError _ exc
  | completed returncode stdout stderr => exact hC.afterExit returncode stdout stderr

theorem runHelm {args : List String} (h : Q ("helm" :: args)) : C (runHelm cfg args) :=
  hC.runBounded h args _

theorem runKubectl {args : List String}
    (h : Q (["kubectl", "--context", cfg.kubeContext] ++ args)) :
    C (runKubectl cfg args) := hC.runBounded h args _

/-! ### The tools -/

theorem toolProblems : C (toolProblems cfg) := by
  have hmissing : ∀ names, C (missingTools names) := by
    intro names
    induction names with
    | nil => exact hC.ret _
    | cons tool rest ih =>
        exact hC.bind (hC.single .which) fun found => hC.bind ih fun _ => hC.ret _
  refine hC.bind (hmissing tools) fun missing => ?_
  by_cases hhelm : "helm" ∈ missing
  · rw [if_pos hhelm]
    exact hC.ret _
  · rw [if_neg hhelm]
    exact hC.bind hC.versions fun _ => hC.ret _

theorem requireTools : C (requireTools cfg) := by
  refine hC.bind hC.toolProblems fun problems => ?_
  split_ifs
  · exact hC.ret _
  · exact hC.throw _

theorem checkCluster : C (checkCluster cfg) := by
  refine hC.bind hC.requireTools fun _ => hC.bind (hC.probe _ _) fun probe => ?_
  by_cases hanswered : probe.answered = true
  · rw [if_pos hanswered]
    exact hC.ret _
  · rw [if_neg hanswered]
    cases probe.spawnFailure with
    | some failure => exact hC.throw _
    | none =>
        dsimp only
        generalize classifyError probe.error = error
        split_ifs <;> exact hC.throw _

/-! ### Listing and deploying -/

theorem listReleases (page : ℕ) (hlist : ∀ offset, Q ("helm" :: listArgs cfg page offset))
    (pages : ℕ) : C (listReleases cfg page pages) := by
  have hfrom : ∀ offset names, C (listFrom cfg page pages offset names) := by
    induction pages with
    | zero => exact fun _ _ => hC.ret _
    | succ pages ih =>
        intro offset names
        refine hC.bind (hC.runHelm (hlist offset)) fun output => hC.bind (hC.ofPy _) fun read => ?_
        dsimp only
        split_ifs
        · exact hC.ret _
        · exact ih _ _
  exact hfrom 0 []

/-- What a deployment does once the tools were checked. -/
theorem upgrade {intent : Intent} {forceConflicts : Bool}
    (h : Q ("helm" :: deployArgs cfg intent forceConflicts)) :
    C (do
      let output ← Deploy.runHelm cfg (deployArgs cfg intent forceConflicts)
      let info ← Deploy.ofPy (do (← Json.loads output).subscript "info")
      let status ← Deploy.ofPy (info.subscript "status")
      let revision ← Deploy.ofPy (do (← Json.loads output).subscript "version")
      return { release := releaseName intent, status := status, revision := revision,
               values := renderValues intent } : Eff Deployed) :=
  hC.bind (hC.runHelm h) fun _ => hC.bind (hC.ofPy _) fun _ => hC.bind (hC.ofPy _) fun _ =>
    hC.bind (hC.ofPy _) fun _ => hC.ret _

theorem deploy {intent : Intent} {forceConflicts : Bool}
    (h : Q ("helm" :: deployArgs cfg intent forceConflicts)) :
    C (deploy cfg intent forceConflicts) :=
  hC.bind hC.requireTools fun _ => hC.upgrade h

end Blocks

end NfOrchestrator.Deploy
