import NfOrchestrator.Deploy.Listing

/-!
# NfOrchestrator.Deploy.Commands

Which **processes** the engine starts and waits for. Running a command starts that command,
and, when it is killed for silence, the readiness probe; nothing else (`within_runHelm`).
So what a call can do to the cluster is read off its own arguments.
-/

namespace NfOrchestrator.Deploy

variable (cfg : Settings)

/-- If the operation starts a process or waits for one, it is one that `Q` allows. -/
def Processes (Q : List String → Prop) (o : Op) : Prop :=
  ∀ command, (o = .spawn command ∨ ∃ timeout, o = .finish command timeout) → Q command

/-- If the operation waits for a process, it is one that `Q` allows. -/
def Finishing (Q : List String → Prop) (o : Op) : Prop :=
  ∀ command timeout, o = .finish command timeout → Q command

/-- The operation keeps to the processes that `Q` allows, and looks a tool up on `PATH` only
if `L` holds. -/
def Calls (Q : List String → Prop) (L : Prop) (o : Op) : Prop :=
  Processes Q o ∧ ∀ tool, o = .which tool → L

variable {Q : List String → Prop} {L : Prop} {α : Type}

theorem Processes.finishing {o : Op} (h : Processes Q o) : Finishing Q o :=
  fun command timeout ho => h command (.inr ⟨timeout, ho⟩)

theorem Calls.finishing {o : Op} (h : Calls Q L o) : Finishing Q o := h.1.finishing

theorem within_any {o : Op} (ho : (∀ command, o ≠ .spawn command) ∧
    (∀ command timeout, o ≠ .finish command timeout) ∧ ∀ tool, o ≠ .which tool) :
    (perform o).Within (Calls Q L) := by
  obtain ⟨hspawn, hfinish, hwhich⟩ := ho
  refine Prog.within_op ⟨fun command h => ?_, fun tool h => absurd h (hwhich tool)⟩
  rcases h with h | ⟨timeout, h⟩
  · exact absurd h (hspawn command)
  · exact absurd h (hfinish command timeout)

theorem within_ofPy (x : Except PyError α) : (ofPy x).Within (Calls Q L) :=
  Prog.within_ofExcept _

theorem within_subprocessRun {command : List String} (h : Q command) (timeout : ℚ) :
    (subprocessRun command timeout).Within (Calls Q L) := by
  refine Prog.Within.bind (Prog.within_op ⟨fun command' ho => ?_, fun tool ho => ?_⟩)
    fun failure => ?_
  · obtain ho | ⟨timeout', ho⟩ := ho
    · cases ho
      exact h
    · cases ho
  · cases ho
  · cases failure with
    | some exc => trivial
    | none =>
        refine Prog.within_op ⟨fun command' ho => ?_, fun tool ho => by cases ho⟩
        obtain ho | ⟨timeout', ho⟩ := ho
        · cases ho
        · cases ho
          exact h

theorem within_noteSuccess : noteSuccess.Within (Calls Q L) :=
  (within_any (by simp)).bind fun _ => within_any (by simp)

theorem within_answeredRecently : (answeredRecently cfg).Within (Calls Q L) := by
  refine (within_any (by simp)).bind fun t => ?_
  cases t with
  | none => trivial
  | some _ =>
      refine (within_any (by simp)).bind fun now => (within_any (by simp)).bind fun t => ?_
      cases t <;> trivial

/-! ### The probe -/

theorem within_startupDelay (log : String) (spawned : ℚ) :
    (startupDelay log spawned).Within (Calls Q L) := by
  unfold startupDelay
  cases firstStamp log with
  | none => trivial
  | some first => exact (within_any (by simp)).bind fun _ => trivial

theorem within_killedProbe (written : String) (spawned started : ℚ) :
    (killedProbe written spawned started).Within (Calls Q L) :=
  (within_any (by simp)).bind fun _ => (within_ofPy _).bind fun _ =>
    (within_startupDelay written spawned).bind fun _ => trivial

theorem within_exitedProbe (answered : Bool) (log : String) (spawned started : ℚ) :
    (exitedProbe answered log spawned started).Within (Calls Q L) :=
  (within_any (by simp)).bind fun _ => (within_ofPy _).bind fun _ =>
    (within_startupDelay log spawned).bind fun _ => trivial

section probe

variable (hprobe : Q (probeCommand cfg))

include hprobe

theorem within_measureProbe (timeout : ℚ) : (measureProbe cfg timeout).Within (Calls Q L) := by
  refine (within_any (by simp)).bind fun spawned => (within_any (by simp)).bind fun started => ?_
  refine (within_subprocessRun hprobe timeout).bind fun outcome => ?_
  cases outcome with
  | timedOut stderr => exact within_killedProbe _ spawned started
  | osError exc => exact (within_any (by simp)).bind fun _ => trivial
  | completed returncode stdout stderr =>
      dsimp only
      split_ifs
      · exact within_noteSuccess.bind fun _ => within_exitedProbe _ stderr spawned started
      · exact within_exitedProbe _ stderr spawned started

theorem within_freshProbe (timeout : ℚ) : (freshProbe cfg timeout).Within (Calls Q L) :=
  (within_measureProbe cfg hprobe timeout).bind fun _ => (within_any (by simp)).bind fun _ =>
    (within_any (by simp)).bind fun _ => trivial

theorem within_cachedProbe (maxAge timeout : ℚ) :
    (cachedProbe cfg maxAge timeout).Within (Calls Q L) := by
  refine (within_any (by simp)).bind fun cached => ?_
  cases cached with
  | none => exact within_freshProbe cfg hprobe timeout
  | some c =>
      dsimp only
      split_ifs
      · refine (within_any (by simp)).bind fun now => ?_
        split_ifs
        · trivial
        · exact within_freshProbe cfg hprobe timeout
      · exact within_freshProbe cfg hprobe timeout

theorem within_apiServerProbe (maxAge : ℚ) (timeout : Option ℚ) :
    (apiServerProbe cfg maxAge timeout).Within (Calls Q L) := by
  refine (within_any (by simp)).bind fun _ => Prog.Within.bind ?_ fun _ =>
    (within_any (by simp)).bind fun _ => trivial
  exact (within_cachedProbe cfg hprobe maxAge _).tryCatch fun _ =>
    (within_any (by simp)).bind fun _ => trivial

theorem within_settledProbe : (settledProbe cfg).Within (Calls Q L) := by
  refine (within_apiServerProbe cfg hprobe _ _).bind fun probe => ?_
  split_ifs
  · trivial
  · exact within_apiServerProbe cfg hprobe _ _

/-! ### A command -/

theorem within_localDelay : (localDelay cfg (settledProbe cfg)).Within (Calls Q L) := by
  refine (within_settledProbe cfg hprobe).bind fun probe => ?_
  split_ifs
  · trivial
  · cases probe.localSeconds with
    | none => trivial
    | some here =>
        dsimp only
        split_ifs
        · cases probe.roundTrip <;> trivial
        · trivial

theorem within_reachabilityEvidence :
    (reachabilityEvidence cfg (settledProbe cfg)).Within (Calls Q L) := by
  refine (within_settledProbe cfg hprobe).bind fun probe => ?_
  split_ifs
  · trivial
  · refine (within_answeredRecently cfg).bind fun answered => ?_
    split_ifs <;> trivial

theorem within_afterTimeout (verb : String) (args : List String) (timeout : ℚ) :
    (afterTimeout cfg (settledProbe cfg) verb args timeout).Within (Calls Q L) := by
  unfold afterTimeout
  split_ifs
  · refine (within_settledProbe cfg hprobe).bind fun probe => ?_
    cases probe.spawnFailure with
    | some failure => trivial
    | none =>
        refine (within_localDelay cfg hprobe).bind fun here => ?_
        split_ifs
        · trivial
        · refine (within_reachabilityEvidence cfg hprobe).bind fun evidence => ?_
          split_ifs <;> trivial
  · trivial

theorem within_runBounded {command : List String} (h : Q command) (args : List String)
    (timeout : ℚ) : (runBounded cfg command args timeout).Within (Calls Q L) := by
  refine (within_subprocessRun h timeout).bind fun outcome => ?_
  cases outcome with
  | timedOut stderr => exact within_afterTimeout cfg hprobe _ args timeout
  | osError exc =>
      dsimp only
      unfold afterOSError
      cases spawnFailure (command.headD "") exc <;> trivial
  | completed returncode stdout stderr =>
      dsimp only
      unfold afterExit
      generalize classifyError (complaint stdout stderr) = error
      split_ifs
      · unfold refuse
        split_ifs
        · exact within_noteSuccess.bind fun _ => trivial
        · trivial
      · exact within_noteSuccess.bind fun _ => trivial

theorem within_runHelm {args : List String} (h : Q ("helm" :: args)) :
    (runHelm cfg args).Within (Calls Q L) := within_runBounded cfg hprobe h args _

theorem within_runKubectl {args : List String}
    (h : Q (["kubectl", "--context", cfg.kubeContext] ++ args)) :
    (runKubectl cfg args).Within (Calls Q L) := within_runBounded cfg hprobe h args _

end probe

/-! ### The tools -/

theorem within_missingTools (hL : L) (names : List String) :
    (missingTools names).Within (Calls Q L) := by
  induction names with
  | nil => trivial
  | cons tool rest ih =>
      refine Prog.Within.bind (Prog.within_op ⟨fun command ho => ?_, fun _ _ => hL⟩) fun _ =>
        ih.bind fun _ => trivial
      obtain ho | ⟨timeout, ho⟩ := ho <;> cases ho

theorem within_askVersion (hversion : Q ["helm", "version", "--short"]) (now : ℚ) :
    (askVersion cfg now).Within (Calls Q L) := by
  refine (within_subprocessRun hversion _).bind fun outcome => ?_
  exact (within_ofPy _).bind fun _ => (within_any (by simp)).bind fun _ => trivial

theorem within_toolProblems (hL : L) (hversion : Q ["helm", "version", "--short"]) :
    (toolProblems cfg).Within (Calls Q L) := by
  have hproblems : (versionProblems cfg).Within (Calls Q L) := by
    refine (within_any (by simp)).bind fun now => (within_any (by simp)).bind fun cached => ?_
    cases cached with
    | none => exact within_askVersion cfg hversion now
    | some c =>
        dsimp only
        split_ifs
        · trivial
        · exact within_askVersion cfg hversion now
  refine (within_missingTools hL tools).bind fun missing => ?_
  by_cases hhelm : "helm" ∈ missing
  · rw [if_pos hhelm]
    trivial
  · rw [if_neg hhelm]
    exact hproblems.bind fun _ => trivial

theorem within_requireTools (hL : L) (hversion : Q ["helm", "version", "--short"]) :
    (requireTools cfg).Within (Calls Q L) := by
  refine (within_toolProblems cfg hL hversion).bind fun problems => ?_
  split_ifs <;> trivial

theorem within_checkCluster (hL : L) (hprobe : Q (probeCommand cfg))
    (hversion : Q ["helm", "version", "--short"]) : (checkCluster cfg).Within (Calls Q L) := by
  refine (within_requireTools cfg hL hversion).bind fun _ =>
    (within_apiServerProbe cfg hprobe _ _).bind fun probe => ?_
  by_cases hanswered : probe.answered = true
  · rw [if_pos hanswered]
    trivial
  · rw [if_neg hanswered]
    cases probe.spawnFailure with
    | some failure => trivial
    | none =>
        dsimp only
        generalize classifyError probe.error = error
        split_ifs <;> trivial

/-! ### Listing and deploying -/

theorem within_listReleases (hprobe : Q (probeCommand cfg)) (page : ℕ)
    (hlist : ∀ offset, Q ("helm" :: listArgs cfg page offset)) (pages : ℕ) :
    (listReleases cfg page pages).Within (Calls Q L) := by
  have hfrom : ∀ offset names, (listFrom cfg page pages offset names).Within (Calls Q L) := by
    induction pages with
    | zero => exact fun _ _ => trivial
    | succ pages ih =>
        intro offset names
        refine (within_runHelm cfg hprobe (hlist offset)).bind fun output =>
          (within_ofPy _).bind fun read => ?_
        dsimp only
        split_ifs
        · trivial
        · exact ih _ _
  exact hfrom 0 []

theorem within_deployed (output : String) (intent : Intent) :
    (do
      let info ← ofPy (do (← Json.loads output).subscript "info")
      let status ← ofPy (info.subscript "status")
      let revision ← ofPy (do (← Json.loads output).subscript "version")
      return { release := releaseName intent, status := status, revision := revision,
               values := renderValues intent } : Eff Deployed).Within (Calls Q L) :=
  (within_ofPy _).bind fun _ => (within_ofPy _).bind fun _ => (within_ofPy _).bind fun _ => trivial

theorem within_deploy (hL : L) {intent : Intent} {forceConflicts : Bool}
    (hprobe : Q (probeCommand cfg)) (hversion : Q ["helm", "version", "--short"])
    (hupgrade : Q ("helm" :: deployArgs cfg intent forceConflicts)) :
    (deploy cfg intent forceConflicts).Within (Calls Q L) :=
  (within_requireTools cfg hL hversion).bind fun _ =>
    (within_runHelm cfg hprobe hupgrade).bind fun output => within_deployed output intent

end NfOrchestrator.Deploy
