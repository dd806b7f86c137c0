import NfOrchestrator.Api.Cluster

/-!
# NfOrchestrator.Api.HelmCall

**A call of helm, among others.** Of all that a call does, the probes and the caches that tell
why it failed included, only the start and the end of its own process change the cluster or
tell of it (`wp_runHelm_atomic`), and how it ends is what the call reports (`Reports`).
-/

namespace NfOrchestrator.Api

open Deploy Reconciler

variable {cfg : Settings} {defaults : List (String × Json)} {truthful : Prop}
  {builds clears torn : String → Prop}

/-- The programs of the engine, in a thread that upgrades and uninstalls these releases at most,
among threads that keep the cluster so. -/
abbrev turning (cfg : Settings) (defaults : List (String × Json)) (truthful : Prop)
    (builds clears torn : String → Prop) (c₀ : Cluster) :
    Spec Deploy.sig (List (Cluster × Cluster)) :=
  atomic (helm cfg defaults truthful) (Acts builds clears) (Keeps torn) c₀

/-- The failures by which the cluster turns an operation down. -/
def Refusal (e : DeployError) : Prop := e.cls = .deployError ∨ e.cls = .clusterConflict

/-- What a helm call ends in, for each way its process can end. -/
def Reports (outcome : Outcome) (x : Except Exc String) : Prop :=
  CallResult Worded outcome x ∧
    ∀ stderr, outcome = .timedOut stderr → ∀ e, x = .error (.deploy e) → ¬Refusal e

theorem not_refusal_of_start {tool : String} {exc : OSError} {e : DeployError}
    (h : spawnFailure tool exc = some e) : ¬Refusal e := by
  rcases spawnFailure_cls h with h | h <;> simp [Refusal, h]

section killed

variable {A : List (Event Deploy.sig) → Event Deploy.sig → Prop}

/-- A call that was killed is not reported as a refusal. -/
theorem wp_afterTimeout_refusal (cfg : Settings) (verb : String) (args : List String) (timeout : ℚ)
    (tr : List (Event Deploy.sig)) :
    (afterTimeout cfg (settledProbe cfg) verb args timeout).wp (recorded A NotesAnswers)
      (fun x _ => ∀ e, x = .error (.deploy e) → ¬Refusal e) tr := by
  have hraised : ∀ {cls : DeployErrorClass} {message : String},
      cls ≠ .deployError → cls ≠ .clusterConflict → ∀ e,
        (.error (.deploy ⟨cls, message⟩) : Except Exc String) = .error (.deploy e) →
          ¬Refusal e := by
    intro cls message hrefused hconflict e he
    obtain rfl := Exc.deploy.inj (Except.error.inj he)
    exact fun h => h.elim hrefused hconflict
  have hother : ∀ exc (tr' : List (Event Deploy.sig)), (∀ e, exc ≠ .deploy e) → ∀ e,
      (.error exc : Except Exc String) = .error (.deploy e) → ¬Refusal e :=
    fun exc tr' hne e he => absurd (Except.error.inj he) (hne e)
  unfold afterTimeout
  split_ifs
  · rw [Prog.wp_bind]
    refine (plain_settledProbe cfg (startsWith_any A)).wp hother fun probe tr₁ _ => ?_
    rw [Prog.bindPost_ok]
    cases hf : probe.spawnFailure with
    | some failure =>
        obtain ⟨exc, hexc⟩ := probe.spawnFailure_of failure hf
        intro e he
        obtain rfl := Exc.deploy.inj (Except.error.inj he)
        exact not_refusal_of_start hexc
    | none =>
        rw [Prog.wp_bind]
        refine (plain_localDelay cfg (startsWith_any A)).wp hother fun here tr₂ _ => ?_
        rw [Prog.bindPost_ok]
        split_ifs
        · exact hraised (by decide) (by decide)
        · rw [Prog.wp_bind]
          refine Prog.wp_mono (recorded_mono A NotesAnswers) ?_ (wp_reachabilityEvidence cfg tr₂)
          rintro (exc | evidence) tr₃ hread
          · exact hother exc tr₃ (plainly_error.mp hread)
          · rw [Prog.bindPost_ok]
            split_ifs
            · exact hraised (by decide) (by decide)
            · exact hraised (by decide) (by decide)
  · exact hraised (by decide) (by decide)

end killed

theorem startsWith_worded :
    StartsWith Worded fun _ e => WordedReply e.op e.resp :=
  ⟨fun _ _ exc h => h exc rfl, fun _ _ _ exc h => h exc rfl, fun _ t p h => h t p rfl⟩

variable {c₀ : Cluster} {moves : List (Cluster × Cluster)} {α : Type} {L : Prop}

theorem turning_mono : (turning cfg defaults truthful builds clears torn c₀).Mono := atomic_mono

/-- A program that only reads changes nothing, and ends as its replies allow. -/
theorem wp_reading_atomic {p : Eff α} (hp : p.Within (Calls Reading L)) {X : Except Exc α → Prop}
    (hX : p.wp (replying WordedReply).spec (fun x _ => X x) ()) :
    p.wp (turning cfg defaults truthful builds clears torn c₀) (fun x g => g = moves ∧ X x)
      moves := by
  refine wp_atomic_within acts_refl still_of_calls (fun _ _ _ _ h => h.1) hp ?_ moves
  exact fun tr x htr hx => (hx.runs htr).post hX

/-- What is left of a helm call once its process has ended. -/
def afterHelm (cfg : Settings) (args : List String) : Outcome → Eff String
  | .timedOut _ =>
      afterTimeout cfg (settledProbe cfg) (Str.join " " (["helm"] ++ args.take 1)) args
        (timeoutFor cfg args)
  | .osError exc => afterOSError "helm" exc
  | .completed returncode stdout stderr => afterExit returncode stdout stderr

theorem runHelm_eq (cfg : Settings) (verb : String) (rest : List String) :
    runHelm cfg (verb :: rest) =
      subprocessRun ("helm" :: verb :: rest) (timeoutFor cfg (verb :: rest)) >>=
        afterHelm cfg (verb :: rest) := by
  refine congrArg (subprocessRun _ _ >>= ·) (funext fun outcome => ?_)
  cases outcome <;> rfl

theorem within_afterExit (returncode : ℤ) (stdout stderr : String) :
    (afterExit returncode stdout stderr).Within (Calls Reading L) := by
  unfold afterExit
  generalize classifyError (complaint stdout stderr) = error
  split_ifs
  · unfold refuse
    split_ifs
    · exact within_noteSuccess.bind fun _ => trivial
    · trivial
  · exact within_noteSuccess.bind fun _ => trivial

theorem within_afterOSError (tool : String) (exc : OSError) :
    (afterOSError tool exc).Within (Calls Reading L) := by
  unfold afterOSError
  cases spawnFailure tool exc <;> trivial

theorem within_afterHelm (args : List String) (outcome : Outcome) :
    (afterHelm cfg args outcome).Within (Calls Reading L) := by
  cases outcome with
  | timedOut stderr => exact within_afterTimeout cfg reading_probe _ _ _
  | osError exc => exact within_afterOSError "helm" exc
  | completed returncode stdout stderr => exact within_afterExit returncode stdout stderr

theorem wp_afterHelm {verb : String} (hverb : Apart verb) (rest : List String)
    (outcome : Outcome) :
    (afterHelm cfg (verb :: rest) outcome).wp (replying WordedReply).spec
      (fun x _ => Reports outcome x) () := by
  cases outcome with
  | timedOut stderr =>
      have hcomposed := wp_replying (wp_afterTimeout_composed cfg startsWith_worded
        (apart_commandName hverb) (verb :: rest) (timeoutFor cfg (verb :: rest)) [])
      have hrefusal := wp_replying
        (wp_afterTimeout_refusal (A := fun _ e => WordedReply e.op e.resp) cfg
          (Str.join " " (["helm"] ++ [verb])) (verb :: rest) (timeoutFor cfg (verb :: rest)) [])
      refine Prog.wp_iff_runs.mpr fun x _ hr => ⟨hr.post hcomposed, fun _ _ => ?_⟩
      exact hr.post hrefusal
  | osError exc =>
      refine Prog.wp_mono (Env.spec_mono _) ?_ (wp_afterOSError "helm" exc)
      exact fun x _ hx => ⟨hx.2, fun _ h => by cases h⟩
  | completed returncode stdout stderr =>
      refine Prog.wp_mono (Env.spec_mono _) ?_
        (wp_afterExit (Env.still_unit _) returncode stdout stderr)
      exact fun x _ hx => ⟨hx.2, fun _ h => by cases h⟩

/-- What a helm call ends in, by how its process started and ended; the rest of it changes
nothing. -/
theorem wp_runHelm_atomic {verb : String} (hverb : Apart verb) (rest : List String)
    {Q : Except Exc String → List (Cluster × Cluster) → Prop}
    (h : turning cfg defaults truthful builds clears torn c₀ (.spawn ("helm" :: verb :: rest)) moves
      fun failure g =>
        match failure with
        | some exc => Q (.error (startResult "helm" exc)) g
        | none => turning cfg defaults truthful builds clears torn c₀
            (.finish ("helm" :: verb :: rest) (timeoutFor cfg (verb :: rest))) g
            fun outcome g => ∀ x, Reports outcome x → Q x g) :
    (runHelm cfg (verb :: rest)).wp (turning cfg defaults truthful builds clears torn c₀) Q
      moves := by
  have hafter : ∀ (outcome : Outcome) (g : List (Cluster × Cluster)),
      (∀ x, Reports outcome x → Q x g) →
      (afterHelm cfg (verb :: rest) outcome).wp
        (turning cfg defaults truthful builds clears torn c₀) Q g := by
    intro outcome g hQ
    refine Prog.wp_mono turning_mono ?_
      (wp_reading_atomic (L := True) (within_afterHelm _ outcome) (wp_afterHelm hverb rest outcome))
    intro x g' hx
    obtain ⟨rfl, hreports⟩ := hx
    exact hQ x hreports
  rw [runHelm_eq, Prog.wp_bind, wp_subprocessRun]
  refine turning_mono _ _ (fun failure g hfailure => ?_) h
  cases failure with
  | some exc =>
      refine hafter (.osError exc) g fun x hx => ?_
      obtain rfl : x = .error (startResult "helm" exc) := hx.1
      exact hfailure
  | none => exact turning_mono _ _ (fun outcome g hQ => hafter outcome g hQ) hfailure

/-- A helm call that only reads is decided where its process ends. -/
theorem wp_runHelm_reading {verb : String} (hverb : Apart verb)
    (hreads : verb ∉ writeVerbs) (rest : List String)
    {Q : Except Exc String → List (Cluster × Cluster) → Prop}
    (hstart : ∀ exc, Worded exc → Q (.error (startResult "helm" exc)) moves)
    (hfinish : ∀ w outcome, Keeps torn (worldAfter c₀ moves) w →
      helm cfg defaults truthful
        (.finish ("helm" :: verb :: rest) (timeoutFor cfg (verb :: rest))) w outcome w →
      (∀ x, Reports outcome x → Q x moves) ∨ ∀ x, Reports outcome x → Q x (moves ++ [(w, w)])) :
    (runHelm cfg (verb :: rest)).wp (turning cfg defaults truthful builds clears torn c₀) Q
      moves := by
  refine wp_runHelm_atomic hverb rest (atomic_still acts_refl ?_ fun failure c c' hE => ?_)
  · exact fun c failure c' hE => funext fun _ =>
      same_of_spawned (isUpgradeOf_reading (reading_helm hreads rest))
        (isUninstall_of_reading (reading_helm hreads rest)) hE
  · cases failure with
    | some exc => exact hstart exc (hE.1 exc rfl)
    | none =>
        intro w outcome w' hw hE
        obtain rfl := still_of_reading (reading_helm hreads rest) hE
        exact ⟨acts_refl w', (hfinish w' outcome hw hE).imp (And.intro rfl) id⟩

end NfOrchestrator.Api
