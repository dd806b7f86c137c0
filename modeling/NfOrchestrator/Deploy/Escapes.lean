import NfOrchestrator.Deploy.Verdicts
import NfOrchestrator.Effects.Trace

/-!
# NfOrchestrator.Deploy.Escapes

**How a deployment ends without a `DeployError`.** Most exceptions that `deploy` raises by
themselves are announced by one reply: a text that cannot be read, or an `OSError` that
says nothing known about the host (`Unreadable`). Reporting a killed call has two more,
which depend on the settled probe (`Untimed`, `Forgotten`). `deploy_escapes_iff` says that
there are no others.
-/

namespace NfOrchestrator.Deploy

/-- Not an exception of the `DeployError` hierarchy. -/
def Uncaught (exc : Exc) : Prop := ∀ e, exc ≠ .deploy e

theorem not_uncaught (e : DeployError) : ¬Uncaught (.deploy e) := fun h => h e rfl

theorem uncaught_py (e : PyError) : Uncaught (.py e) := fun _ h => by cases h

variable (cfg : Settings) (intent : Intent) (forceConflicts : Bool)

/-- What kubectl had logged, if the probe's process was started. -/
def Outcome.log? : Outcome → Option String
  | .completed _ _ stderr => some stderr
  | .timedOut stderr => some (stderr.getD "")
  | .osError _ => none

/-- What `deploy` reads in what `helm upgrade` printed. -/
def readDeployed (output : String) : Except PyError (Json × Json) := do
  let info ← (← Json.loads output).subscript "info"
  let status ← info.subscript "status"
  let revision ← (← Json.loads output).subscript "version"
  return (status, revision)

def upgradeCommand : List String := "helm" :: deployArgs cfg intent forceConflicts

/-- This end of a process makes the code that reads it raise: a version or a round trip of
more digits than `int` converts, an output that is not the expected document, an `OSError`
that says nothing known. -/
def UnreadableOutcome (command : List String) (outcome : Outcome) : Prop :=
  (command = ["helm", "version", "--short"] ∧ ∃ returncode stdout stderr e,
    outcome = .completed returncode stdout stderr ∧
      problemsOfVersion (Str.strip stdout) = .error e) ∨
  (command = probeCommand cfg ∧ ∃ log e, outcome.log? = some log ∧ roundTrip log = .error e) ∨
  (command = upgradeCommand cfg intent forceConflicts ∧
    ((∃ stdout stderr e, outcome = .completed 0 stdout stderr ∧ readDeployed stdout = .error e) ∨
      ∃ exc, outcome = .osError exc ∧ spawnFailure "helm" exc = none))

/-- A reply that makes the code raise by itself. -/
def Unreadable (e : Event sig) : Prop :=
  match e with
  | ⟨.finish command _, outcome⟩ => UnreadableOutcome cfg intent forceConflicts command outcome
  | ⟨.spawn command, some exc⟩ =>
      command = upgradeCommand cfg intent forceConflicts ∧ spawnFailure "helm" exc = none
  | _ => False

variable {cfg intent forceConflicts} {α : Type}

/-- The program raises by itself when it gets an unreadable reply, and only then. -/
abbrev Announced (cfg : Settings) (intent : Intent) (forceConflicts : Bool) (p : Eff α) : Prop :=
  p.FailsBy False Uncaught (Unreadable cfg intent forceConflicts)

/-- The program raises by itself when the end of a process that it is given is unreadable,
or it gets an unreadable reply. -/
abbrev AnnouncedBy (cfg : Settings) (intent : Intent) (forceConflicts : Bool)
    (command : List String) (outcome : Outcome) (p : Eff α) : Prop :=
  p.FailsBy (UnreadableOutcome cfg intent forceConflicts command outcome) Uncaught
    (Unreadable cfg intent forceConflicts)

theorem failsBy_any {P : Prop} {o : Op} {f : Resp o → Eff α} (ho : (∀ command, o ≠ .spawn command) ∧
    ∀ command timeout, o ≠ .finish command timeout)
    (hf : ∀ r, (f r).FailsBy P Uncaught (Unreadable cfg intent forceConflicts)) :
    (perform o >>= f).FailsBy P Uncaught (Unreadable cfg intent forceConflicts) := by
  refine Prog.failsBy_call (fun r h => ?_) hf
  cases o with
  | spawn command => exact ho.1 command rfl
  | finish command timeout => exact ho.2 command timeout rfl
  | _ => exact h

theorem announced_ret {a : α} : Announced cfg intent forceConflicts (.ret a) :=
  Prog.failsBy_ret id

/-- Reading a text raises by itself when the text cannot be read. -/
theorem failsBy_ofPy {β : Type} {y : Except PyError α} {f : α → Eff β}
    (hf : ∀ a, Announced cfg intent forceConflicts (f a)) :
    (ofPy y >>= f).FailsBy (∃ e, y = .error e) Uncaught (Unreadable cfg intent forceConflicts) := by
  refine (Prog.failsBy_ofExcept_bind hf).congr ⟨?_, ?_⟩
  · intro h
    obtain ⟨exc, hexc, -⟩ := h
    cases y with
    | ok a => cases hexc
    | error e => exact ⟨e, rfl⟩
  · intro h
    obtain ⟨e, rfl⟩ := h
    exact ⟨.py e, rfl, uncaught_py e⟩

/-- A process that is not `helm upgrade`, and what is made of how it ended. -/
theorem announced_process {command : List String} {timeout : ℚ} {f : Outcome → Eff α}
    (hcommand : command ≠ upgradeCommand cfg intent forceConflicts)
    (hf : ∀ outcome, AnnouncedBy cfg intent forceConflicts command outcome (f outcome))
    (hfailed : ∀ exc, ¬UnreadableOutcome cfg intent forceConflicts command (.osError exc)) :
    Announced cfg intent forceConflicts (subprocessRun command timeout >>= f) := by
  intro tr x hx
  obtain ⟨failure, tr', rfl, h⟩ := hx
  cases failure with
  | some exc =>
      rw [hf _ h]
      simp [Unreadable, hcommand, hfailed]
  | none =>
      obtain ⟨outcome, tr'', rfl, h⟩ := h
      rw [hf outcome h]
      simp [Unreadable]

/-! ### The tools -/

theorem unreadable_version {outcome : Outcome} :
    UnreadableOutcome cfg intent forceConflicts ["helm", "version", "--short"] outcome ↔
      ∃ returncode stdout stderr e, outcome = .completed returncode stdout stderr ∧
        problemsOfVersion (Str.strip stdout) = .error e := by
  simp [UnreadableOutcome, probeCommand, upgradeCommand, deployArgs]

theorem announced_askVersion (now : ℚ) :
    Announced cfg intent forceConflicts (askVersion cfg now) := by
  refine announced_process (by simp [upgradeCommand, deployArgs]) (fun outcome => ?_)
    fun exc h => ?_
  · refine (failsBy_ofPy fun problems => failsBy_any (by simp) fun _ => announced_ret).congr ?_
    rw [unreadable_version]
    have hblank : problemsOfVersion "" = .ok [] := by decide +kernel
    cases outcome with
    | completed returncode stdout stderr => simp
    | timedOut stderr => simp [hblank]
    | osError exc => simp [hblank]
  · obtain ⟨returncode, stdout, stderr, e, heq, -⟩ := unreadable_version.mp h
    cases heq

theorem announced_requireTools : Announced cfg intent forceConflicts (requireTools cfg) := by
  have hmissing : ∀ names, Announced cfg intent forceConflicts (missingTools names) := by
    intro names
    induction names with
    | nil => exact announced_ret
    | cons tool rest ih => exact failsBy_any (by simp) fun _ => ih.bind fun _ => announced_ret
  have hversion : Announced cfg intent forceConflicts (versionProblems cfg) := by
    refine failsBy_any (by simp) fun now => failsBy_any (by simp) fun cached => ?_
    cases cached with
    | none => exact announced_askVersion now
    | some c =>
        dsimp only
        split_ifs
        · exact announced_ret
        · exact announced_askVersion now
  have hproblems : Announced cfg intent forceConflicts (toolProblems cfg) := by
    refine (hmissing tools).bind fun missing => ?_
    by_cases hhelm : "helm" ∈ missing
    · rw [if_pos hhelm]
      exact announced_ret
    · rw [if_neg hhelm]
      exact hversion.bind fun _ => announced_ret
  refine hproblems.bind fun problems => ?_
  split_ifs
  · exact announced_ret
  · exact Prog.failsBy_raise id (not_uncaught _)

/-! ### The probe -/

theorem unreadable_probe {outcome : Outcome} :
    UnreadableOutcome cfg intent forceConflicts (probeCommand cfg) outcome ↔
      ∃ log e, outcome.log? = some log ∧ roundTrip log = .error e := by
  simp [UnreadableOutcome, probeCommand, upgradeCommand, deployArgs]

theorem announced_startupDelay (log : String) (spawned : ℚ) {f : Option ℚ → Eff α}
    (hf : ∀ d, Announced cfg intent forceConflicts (f d)) :
    Announced cfg intent forceConflicts (startupDelay log spawned >>= f) := by
  unfold startupDelay
  cases firstStamp log with
  | none => exact hf none
  | some first => exact failsBy_any (by simp) fun _ => hf _

theorem announced_measureProbe (timeout : ℚ) :
    Announced cfg intent forceConflicts (measureProbe cfg timeout) := by
  refine failsBy_any (by simp) fun spawned => failsBy_any (by simp) fun started => ?_
  refine announced_process (by simp [probeCommand, upgradeCommand]) (fun outcome => ?_)
    fun exc h => ?_
  · have hexited : ∀ answered log, outcome.log? = some log →
        AnnouncedBy cfg intent forceConflicts (probeCommand cfg) outcome
          (exitedProbe answered log spawned started) := by
      intro answered log hlog
      refine failsBy_any (by simp) fun now => (failsBy_ofPy fun _ =>
        announced_startupDelay _ _ fun _ => announced_ret).congr ?_
      rw [unreadable_probe]
      simp [hlog]
    cases outcome with
    | timedOut stderr =>
        refine failsBy_any (by simp) fun now => (failsBy_ofPy fun _ =>
          announced_startupDelay _ _ fun _ => announced_ret).congr ?_
        rw [unreadable_probe]
        simp [Outcome.log?]
    | osError exc =>
        refine failsBy_any (by simp) fun now => Prog.failsBy_ret ?_
        rw [unreadable_probe]
        simp [Outcome.log?]
    | completed returncode stdout stderr =>
        dsimp only
        split_ifs
        · exact failsBy_any (by simp) fun _ => failsBy_any (by simp) fun _ => hexited _ stderr rfl
        · exact hexited _ stderr rfl
  · obtain ⟨log, e, hlog, -⟩ := unreadable_probe.mp h
    cases hlog

theorem announced_apiServerProbe (maxAge : ℚ) (timeout : Option ℚ) :
    Announced cfg intent forceConflicts (apiServerProbe cfg maxAge timeout) := by
  have hfresh : ∀ timeout, Announced cfg intent forceConflicts (freshProbe cfg timeout) :=
    fun timeout => (announced_measureProbe timeout).bind fun _ => failsBy_any (by simp) fun _ =>
      failsBy_any (by simp) fun _ => announced_ret
  have hcached : Announced cfg intent forceConflicts
      (cachedProbe cfg maxAge (timeout.getD cfg.probeTimeout)) := by
    refine failsBy_any (by simp) fun cached => ?_
    cases cached with
    | none => exact hfresh _
    | some c =>
        dsimp only
        split_ifs
        · refine failsBy_any (by simp) fun now => ?_
          split_ifs
          · exact announced_ret
          · exact hfresh _
        · exact hfresh _
  refine failsBy_any (by simp) fun _ => Prog.FailsBy.bind ?_ fun probe =>
    failsBy_any (by simp) fun _ => announced_ret
  refine hcached.rethrow fun exc tr x h => ?_
  obtain ⟨r, tr', rfl, rfl, rfl⟩ := h
  exact ⟨rfl, by simp [Unreadable]⟩

theorem announced_settledProbe : Announced cfg intent forceConflicts (settledProbe cfg) := by
  refine (announced_apiServerProbe _ _).bind fun probe => ?_
  split_ifs
  · exact announced_ret
  · exact announced_apiServerProbe _ _

/-! ### A call that was killed -/

/-- A killed call looks at one settled probe for its spawn failure, which has none, and at
another for the delay. -/
def Looked (cfg : Settings) (tr : List (Event sig)) (probe : Probe) (rest : List (Event sig)) :
    Prop :=
  ∃ first tr₁ tr₂, tr = tr₁ ++ (tr₂ ++ rest) ∧ (settledProbe cfg).Traces tr₁ (.ok first) ∧
    first.spawnFailure = none ∧ (settledProbe cfg).Traces tr₂ (.ok probe)

/-- The delay is to be told from an answer without a round trip. -/
def Untimed (cfg : Settings) (tr : List (Event sig)) : Prop :=
  ∃ probe, Looked cfg tr probe [] ∧ probe.started = true ∧ probe.answered = true ∧
    UntimedAnswer cfg probe

/-- The time of the last success is gone between the two looks at it. -/
def Forgotten (cfg : Settings) (tr : List (Event sig)) : Prop :=
  ∃ probe third tr₃ t now, Looked cfg tr probe (tr₃ ++ [⟨.getLastSuccess, some t⟩,
      ⟨.monotonic, now⟩, ⟨.getLastSuccess, none⟩]) ∧
    localVerdict cfg probe = .ok "" ∧ (settledProbe cfg).Traces tr₃ (.ok third) ∧
    third.answered = false

theorem localDelay_eq (settled : Eff Probe) :
    localDelay cfg settled = settled >>= fun p => Prog.ofExcept (localVerdict cfg p) := by
  simp only [← localDelay_pure]
  rfl

/-- The delay of a probe cannot be told exactly when it is an answer without a round trip. -/
theorem localVerdict_raises {p : Probe} {exc : Exc} (h : localVerdict cfg p = .error exc) :
    p.started = true ∧ p.answered = true ∧ UntimedAnswer cfg p := by
  cases hs : p.started with
  | false =>
      obtain ⟨here, -, hok⟩ := @localVerdict_not_started cfg _ hs
      rw [hok] at h
      cases h
  | true =>
      cases ha : p.answered with
      | false =>
          rw [localVerdict_silent hs ha] at h
          cases h
      | true =>
          refine ⟨rfl, rfl, by_contra fun hu => ?_⟩
          obtain ⟨here, hok⟩ := localVerdict_timed hs ha hu
          rw [hok] at h
          cases h

variable {verb : String} {args : List String} {timeout : ℚ} {tr : List (Event sig)}

theorem traces_untimed (hargs : args ≠ readyz) (h : Untimed cfg tr) :
    (afterTimeout cfg (settledProbe cfg) verb args timeout).Traces tr
      (.error (.py .assertionError)) := by
  obtain ⟨probe, ⟨first, tr₁, tr₂, rfl, hfirst, hnone, hprobe⟩, hs, ha, hu⟩ := h
  rw [afterTimeout, if_pos hargs, localDelay_eq]
  refine hfirst.bind ?_
  rw [hnone]
  refine Prog.Traces.bind_error (hprobe.bind ?_)
  rw [localVerdict_untimed hs ha hu]
  exact ⟨rfl, rfl⟩

theorem traces_forgotten (hargs : args ≠ readyz) (h : Forgotten cfg tr) :
    (afterTimeout cfg (settledProbe cfg) verb args timeout).Traces tr
      (.error (.py .typeError)) := by
  obtain ⟨probe, third, tr₃, t, now, ⟨first, tr₁, tr₂, rfl, hfirst, hnone, hprobe⟩, hverdict,
    hthird, hanswered⟩ := h
  rw [afterTimeout, if_pos hargs, localDelay_eq]
  refine hfirst.bind ?_
  rw [hnone]
  refine Prog.Traces.bind (a := "") ?_ ?_
  · refine hprobe.bind_nil ?_
    rw [hverdict]
    exact ⟨rfl, rfl⟩
  · refine Prog.Traces.bind_error (hthird.bind ?_)
    rw [hanswered]
    exact ⟨some t, _, rfl, now, _, rfl, none, [], rfl, rfl, rfl⟩

/-- No reply of these makes the code raise by itself. -/
def Readable (cfg : Settings) (intent : Intent) (forceConflicts : Bool) (tr : List (Event sig)) :
    Prop := ∀ ev ∈ tr, ¬Unreadable cfg intent forceConflicts ev

theorem Readable.append {tr₁ tr₂ : List (Event sig)} (h₁ : Readable cfg intent forceConflicts tr₁)
    (h₂ : Readable cfg intent forceConflicts tr₂) :
    Readable cfg intent forceConflicts (tr₁ ++ tr₂) := by
  intro ev hev
  exact (List.mem_append.mp hev).elim (h₁ ev) (h₂ ev)

/-- A program that returned got no such reply. -/
theorem readable_of_ok {p : Eff α} (hp : Announced cfg intent forceConflicts p) {a : α}
    (h : p.Traces tr (.ok a)) : Readable cfg intent forceConflicts tr := by
  intro ev hev hbad
  obtain ⟨e, heq, -⟩ := (hp h).mpr (.inr ⟨ev, hev, hbad⟩)
  cases heq

theorem readable_settled {p : Probe} (h : (settledProbe cfg).Traces tr (.ok p)) :
    Readable cfg intent forceConflicts tr := readable_of_ok announced_settledProbe h

/-- How telling the delay can end: the probe could not be settled, or it was. -/
theorem delay_cases {x : Except Exc String}
    (h : (localDelay cfg (settledProbe cfg)).Traces tr x) :
    (∃ exc, (settledProbe cfg).Traces tr (.error exc) ∧ x = .error exc) ∨
    ∃ probe, (settledProbe cfg).Traces tr (.ok probe) ∧ x = localVerdict cfg probe := by
  rw [localDelay_eq] at h
  rcases Prog.traces_bind.mp h with ⟨probe, tr₁, tr₂, rfl, hprobe, hverdict⟩ | ⟨exc, hexc, rfl⟩
  · obtain ⟨rfl, rfl⟩ := Prog.traces_ofExcept.mp hverdict
    exact .inr ⟨probe, by simpa using hprobe, rfl⟩
  · exact .inl ⟨exc, hexc, rfl⟩

/-- How looking for evidence can end: the probe could not be settled, the time of the last
success was gone between two looks, or there is an answer. -/
theorem evidence_cases (intent : Intent) (forceConflicts : Bool) {x : Except Exc String}
    (h : (reachabilityEvidence cfg (settledProbe cfg)).Traces tr x) :
    (∃ exc, (settledProbe cfg).Traces tr (.error exc) ∧ x = .error exc) ∨
    (∃ third tr₁ t now, tr = tr₁ ++ [⟨.getLastSuccess, some t⟩, ⟨.monotonic, now⟩,
        ⟨.getLastSuccess, none⟩] ∧
      (settledProbe cfg).Traces tr₁ (.ok third) ∧ third.answered = false ∧
      x = .error (.py .typeError)) ∨
    Readable cfg intent forceConflicts tr ∧ ∃ evidence, x = .ok evidence := by
  rcases Prog.traces_bind.mp h with ⟨third, tr₁, tr₂, rfl, hthird, hrest⟩ | ⟨exc, hexc, rfl⟩
  swap
  · exact .inl ⟨exc, hexc, rfl⟩
  have hread : Readable cfg intent forceConflicts tr₁ := readable_settled hthird
  cases hanswered : third.answered with
  | true =>
      rw [hanswered] at hrest
      obtain ⟨rfl, rfl⟩ := hrest
      exact .inr (.inr ⟨by simpa using hread, _, rfl⟩)
  | false =>
      rw [hanswered] at hrest
      obtain ⟨last, tr₃, rfl, hlast⟩ := hrest
      cases last with
      | none =>
          obtain ⟨rfl, rfl⟩ := hlast
          exact .inr (.inr ⟨hread.append (by simp [Readable, Unreadable]), _, rfl⟩)
      | some t =>
          obtain ⟨now, _, rfl, again, tr₄, rfl, hagain⟩ := hlast
          cases again with
          | none =>
              obtain ⟨rfl, rfl⟩ := hagain
              exact .inr (.inl ⟨third, tr₁, t, now, rfl, hthird, hanswered, rfl⟩)
          | some last =>
              have hend : tr₄ = [] ∧ ∃ evidence, x = .ok evidence := by
                change (if decide (now - last ≤ cfg.recentSuccess) = true then
                  (.ret recentEvidence : Eff String) else .ret "").Traces tr₄ x at hagain
                split_ifs at hagain
                · exact ⟨hagain.1, _, hagain.2⟩
                · exact ⟨hagain.1, _, hagain.2⟩
              obtain ⟨rfl, evidence, rfl⟩ := hend
              exact .inr (.inr ⟨hread.append (by simp [Readable, Unreadable]), evidence, rfl⟩)

/-- How reporting a killed call can end. -/
theorem killed_cases (intent : Intent) (forceConflicts : Bool) (hargs : args ≠ readyz)
    {x : Except Exc String}
    (h : (afterTimeout cfg (settledProbe cfg) verb args timeout).Traces tr x) :
    (∃ tr₁ tr₂ exc, tr = tr₁ ++ tr₂ ∧ Readable cfg intent forceConflicts tr₁ ∧
      (settledProbe cfg).Traces tr₂ (.error exc) ∧ x = .error exc) ∨
    Untimed cfg tr ∨ Forgotten cfg tr ∨
    Readable cfg intent forceConflicts tr ∧ ∃ e, x = .error (.deploy e) := by
  rw [afterTimeout, if_pos hargs] at h
  -- the probe comes first, then the delay of this host, then the evidence
  rcases Prog.traces_bind.mp h with ⟨first, tr₁, tr', rfl, hfirst, hthen⟩ | ⟨exc, hexc, rfl⟩
  swap
  · exact .inl ⟨[], tr, exc, rfl, by simp [Readable], hexc, rfl⟩
  have hread₁ : Readable cfg intent forceConflicts tr₁ := readable_settled hfirst
  cases hfailure : first.spawnFailure with
  | some failure =>
      rw [hfailure] at hthen
      obtain ⟨rfl, rfl⟩ := hthen
      exact .inr (.inr (.inr ⟨by simpa using hread₁, failure, rfl⟩))
  | none =>
      rw [hfailure] at hthen
      rcases Prog.traces_bind.mp hthen with ⟨here, tr₂, tr'', rfl, hhere, hrest⟩ | ⟨exc, hexc, rfl⟩
      · rcases delay_cases hhere with ⟨exc, -, heq⟩ | ⟨probe, hprobe, hverdict⟩
        · cases heq
        have hread := hread₁.append (readable_settled hprobe)
        by_cases hblank : here = ""
        · rw [if_neg (not_not.mpr hblank)] at hrest
          subst hblank
          rcases Prog.traces_bind.mp hrest with ⟨evidence, tr₃, tr₄, rfl, hevidence, hend⟩ |
            ⟨exc, hexc, rfl⟩
          · obtain ⟨exc, -, heq⟩ | ⟨third, _, t, now, -, -, -, heq⟩ | ⟨hread₃, -⟩ :=
              evidence_cases intent forceConflicts hevidence
            · cases heq
            · cases heq
            · have hlast : tr₄ = [] ∧ ∃ e, x = .error (.deploy e) := by
                split_ifs at hend
                · exact ⟨hend.1, _, hend.2⟩
                · exact ⟨hend.1, _, hend.2⟩
              obtain ⟨rfl, hraised⟩ := hlast
              refine .inr (.inr (.inr ⟨?_, hraised⟩))
              simpa using hread.append hread₃
          · obtain ⟨exc', hsettled, heq⟩ | ⟨third, tr₃, t, now, rfl, hthird, hanswered, -⟩ |
              ⟨-, evidence, heq⟩ :=
              evidence_cases intent forceConflicts hexc
            · obtain rfl := Except.error.inj heq
              exact .inl ⟨tr₁ ++ tr₂, tr'', exc, by simp, hread, hsettled, rfl⟩
            · exact .inr (.inr (.inl ⟨probe, third, tr₃, t, now, ⟨first, tr₁, tr₂, rfl, hfirst,
                hfailure, hprobe⟩, hverdict.symm, hthird, hanswered⟩))
            · cases heq
        · rw [if_pos hblank] at hrest
          obtain ⟨rfl, rfl⟩ := hrest
          exact .inr (.inr (.inr ⟨by simpa using hread, _, rfl⟩))
      · rcases delay_cases hexc with ⟨exc', hsettled, heq⟩ | ⟨probe, hprobe, hverdict⟩
        · obtain rfl := Except.error.inj heq
          exact .inl ⟨tr₁, tr', exc, rfl, hread₁, hsettled, rfl⟩
        · exact .inr (.inl ⟨probe, ⟨first, tr₁, tr', by simp, hfirst, hfailure, hprobe⟩,
            localVerdict_raises hverdict.symm⟩)

/-- Reporting a killed call raises by itself for an unreadable reply, an answer without a
round trip or a lost time of the last success, and for nothing else. -/
theorem killed_escapes_iff (intent : Intent) (forceConflicts : Bool) (hargs : args ≠ readyz)
    {x : Except Exc String}
    (h : (afterTimeout cfg (settledProbe cfg) verb args timeout).Traces tr x) :
    (∃ e, x = .error e ∧ Uncaught e) ↔
      (∃ ev ∈ tr, Unreadable cfg intent forceConflicts ev) ∨ Untimed cfg tr ∨
        Forgotten cfg tr := by
  -- a trace has one result, so where the two late exceptions are raised they are it
  have hlate : Untimed cfg tr ∨ Forgotten cfg tr → ∃ e, x = .error e ∧ Uncaught e := by
    intro hx
    rcases hx with huntimed | hforgotten
    · have hraise : (afterTimeout cfg (settledProbe cfg) verb args timeout).Traces tr _ :=
        traces_untimed hargs huntimed
      exact ⟨_, (h.eq_of_prefix hraise (List.prefix_refl tr) (List.prefix_refl tr)).2,
        uncaught_py _⟩
    · have hraise : (afterTimeout cfg (settledProbe cfg) verb args timeout).Traces tr _ :=
        traces_forgotten hargs hforgotten
      exact ⟨_, (h.eq_of_prefix hraise (List.prefix_refl tr) (List.prefix_refl tr)).2,
        uncaught_py _⟩
  rcases killed_cases intent forceConflicts hargs h with
    ⟨tr₁, tr₂, exc, rfl, hread, hsettled, rfl⟩ | huntimed | hforgotten | ⟨hread, e, rfl⟩
  · have hmem : (∃ ev ∈ tr₁ ++ tr₂, Unreadable cfg intent forceConflicts ev) ↔
        ∃ ev ∈ tr₂, Unreadable cfg intent forceConflicts ev := by
      have hnone : ¬∃ ev ∈ tr₁, Unreadable cfg intent forceConflicts ev := by
        simpa [Readable] using hread
      simp only [List.mem_append, or_and_right, exists_or, hnone, false_or]
    have hannounced : Announced cfg intent forceConflicts (settledProbe cfg) :=
      announced_settledProbe
    rw [hmem]
    constructor
    · intro hraised
      exact .inl ((or_iff_right id).mp ((hannounced hsettled).mp (by simpa using hraised)))
    · intro hx
      rcases hx with hbad | hlate'
      · simpa using (hannounced hsettled).mpr (.inr hbad)
      · exact hlate hlate'
  · exact iff_of_true (hlate (.inl huntimed)) (.inr (.inl huntimed))
  · exact iff_of_true (hlate (.inr hforgotten)) (.inr (.inr hforgotten))
  · refine iff_of_false ?_ ?_
    · intro hx
      obtain ⟨exc, heq, hexc⟩ := hx
      exact hexc e (Except.error.inj heq).symm
    · intro hx
      rcases hx with ⟨ev, hev, hbad⟩ | hlate'
      · exact hread ev hev hbad
      · obtain ⟨exc, heq, hexc⟩ := hlate hlate'
        exact hexc e (Except.error.inj heq).symm

/-- A killed call never returns. -/
theorem killed_raises (intent : Intent) (forceConflicts : Bool) (hargs : args ≠ readyz)
    {output : String} :
    ¬(afterTimeout cfg (settledProbe cfg) verb args timeout).Traces tr (.ok output) := by
  intro h
  have hunique : ∀ {e}, (afterTimeout cfg (settledProbe cfg) verb args timeout).Traces tr
      (.error e) → False := by
    intro e hraise
    cases (h.eq_of_prefix hraise (List.prefix_refl tr) (List.prefix_refl tr)).2
  rcases killed_cases intent forceConflicts hargs h with
    ⟨_, _, _, _, _, _, heq⟩ | huntimed | hforgotten | ⟨_, _, heq⟩
  · cases heq
  · exact hunique (traces_untimed hargs huntimed)
  · exact hunique (traces_forgotten hargs hforgotten)
  · cases heq

/-! ### A deployment -/

/-- Something in this trace of a deployment makes it end without a `DeployError` and without
a result. -/
def Escapes (cfg : Settings) (intent : Intent) (forceConflicts : Bool) (tr : List (Event sig)) :
    Prop :=
  (∃ ev ∈ tr, Unreadable cfg intent forceConflicts ev) ∨
  ∃ checked log rest,
    tr = checked ++ ⟨.spawn (upgradeCommand cfg intent forceConflicts), none⟩ ::
      ⟨.finish (upgradeCommand cfg intent forceConflicts)
        (timeoutFor cfg (deployArgs cfg intent forceConflicts)), .timedOut log⟩ :: rest ∧
    (requireTools cfg).Traces checked (.ok ()) ∧ (Untimed cfg rest ∨ Forgotten cfg rest)

theorem ofPy_bind {β : Type} (x : Except PyError α) (f : α → Except PyError β) :
    ofPy (x >>= f) = ofPy x >>= fun a => ofPy (f a) := by
  cases x <;> rfl

theorem ofPy_pure (a : α) : ofPy (pure a) = pure a := rfl

theorem deploy_eq :
    deploy cfg intent forceConflicts = requireTools cfg >>= fun _ =>
      runHelm cfg (deployArgs cfg intent forceConflicts) >>= fun output =>
        ofPy (readDeployed output) >>= fun read =>
          pure { release := releaseName intent, status := read.1, revision := read.2,
                 values := renderValues intent } := by
  simp only [deploy, readDeployed, ofPy_bind, ofPy_pure, bind_assoc, pure_bind]

theorem unreadable_upgrade {outcome : Outcome} :
    UnreadableOutcome cfg intent forceConflicts (upgradeCommand cfg intent forceConflicts)
        outcome ↔
      (∃ stdout stderr e, outcome = .completed 0 stdout stderr ∧
        readDeployed stdout = .error e) ∨
      ∃ exc, outcome = .osError exc ∧ spawnFailure "helm" exc = none := by
  simp [UnreadableOutcome, probeCommand, upgradeCommand, deployArgs]

/-- A failure to start a process is raised as it is when it says nothing known. -/
theorem traces_afterOSError {β : Type} {exc : OSError} {f : String → Eff β} {x : Except Exc β}
    (h : (afterOSError "helm" exc >>= f).Traces tr x) :
    tr = [] ∧ ((∃ e, x = .error e ∧ Uncaught e) ↔ spawnFailure "helm" exc = none) := by
  rw [afterOSError] at h
  cases hfailure : spawnFailure "helm" exc with
  | none =>
      rw [hfailure] at h
      obtain ⟨rfl, rfl⟩ := h
      exact ⟨rfl, iff_of_true ⟨_, rfl, fun _ heq => by cases heq⟩ rfl⟩
  | some failure =>
      rw [hfailure] at h
      obtain ⟨rfl, rfl⟩ := h
      refine ⟨rfl, iff_of_false ?_ (by simp)⟩
      intro hx
      obtain ⟨e, heq, he⟩ := hx
      exact he failure (Except.error.inj heq).symm

/-- What is read of a `helm upgrade` that exited. -/
theorem exited_escapes_iff {tr : List (Event sig)} {x : Except Exc Deployed} {returncode : ℤ}
    {stdout stderr : String}
    (h : (afterExit returncode stdout stderr >>= fun output =>
      ofPy (readDeployed output) >>= fun read =>
        pure ({ release := releaseName intent, status := read.1, revision := read.2,
                values := renderValues intent } : Deployed)).Traces tr x) :
    (∃ e, x = .error e ∧ Uncaught e) ↔
      (returncode = 0 ∧ ∃ e, readDeployed stdout = .error e) ∨
        ∃ ev ∈ tr, Unreadable cfg intent forceConflicts ev := by
  by_cases hcode : returncode = 0
  · subst hcode
    have hread : (noteSuccess >>= fun _ => ofPy (readDeployed stdout) >>= fun read =>
        pure ({ release := releaseName intent, status := read.1, revision := read.2,
                values := renderValues intent } : Deployed)).FailsBy
        (∃ e, readDeployed stdout = .error e) Uncaught
        (Unreadable cfg intent forceConflicts) :=
      failsBy_any (by simp) fun _ => failsBy_any (by simp) fun _ =>
        failsBy_ofPy fun _ => announced_ret
    rw [hread h]
    simp
  · have hrefused : Announced cfg intent forceConflicts
        (afterExit returncode stdout stderr >>= fun output =>
          ofPy (readDeployed output) >>= fun read =>
            pure ({ release := releaseName intent, status := read.1, revision := read.2,
                    values := renderValues intent } : Deployed)) := by
      rw [afterExit, if_pos hcode, refuse]
      generalize classifyError (complaint stdout stderr) = error
      split_ifs
      · exact failsBy_any (by simp) fun _ => failsBy_any (by simp) fun _ =>
          Prog.failsBy_raise id (not_uncaught error)
      · exact Prog.failsBy_raise id (not_uncaught error)
    rw [hrefused h]
    simp [hcode]

/-- `helm upgrade` and what is read of it raise by themselves for an unreadable reply, and in
the two ways a killed call can. -/
theorem upgrade_escapes_iff {tr : List (Event sig)} {x : Except Exc Deployed}
    (h : (runHelm cfg (deployArgs cfg intent forceConflicts) >>= fun output =>
      ofPy (readDeployed output) >>= fun read =>
        pure { release := releaseName intent, status := read.1, revision := read.2,
               values := renderValues intent }).Traces tr x) :
    (∃ e, x = .error e ∧ Uncaught e) ↔
      (∃ ev ∈ tr, Unreadable cfg intent forceConflicts ev) ∨
      ∃ log rest, tr = ⟨.spawn (upgradeCommand cfg intent forceConflicts), none⟩ ::
          ⟨.finish (upgradeCommand cfg intent forceConflicts)
            (timeoutFor cfg (deployArgs cfg intent forceConflicts)), .timedOut log⟩ :: rest ∧
        (Untimed cfg rest ∨ Forgotten cfg rest) := by
  obtain ⟨failure, tr', rfl, h⟩ := h
  cases failure with
  | some exc =>
      obtain ⟨rfl, hiff⟩ := traces_afterOSError h
      rw [hiff]
      simp [Unreadable, upgradeCommand]
  | none =>
      obtain ⟨outcome, tr, rfl, h⟩ := h
      have hbad : (∃ ev ∈ (⟨.spawn (upgradeCommand cfg intent forceConflicts), none⟩ ::
          ⟨.finish (upgradeCommand cfg intent forceConflicts)
            (timeoutFor cfg (deployArgs cfg intent forceConflicts)), outcome⟩ :: tr :
              List (Event sig)), Unreadable cfg intent forceConflicts ev) ↔
          UnreadableOutcome cfg intent forceConflicts (upgradeCommand cfg intent forceConflicts)
            outcome ∨ ∃ ev ∈ tr, Unreadable cfg intent forceConflicts ev := by
        simp [Unreadable]
      have hlate : (∃ log rest, (⟨.spawn (upgradeCommand cfg intent forceConflicts), none⟩ ::
          ⟨.finish (upgradeCommand cfg intent forceConflicts)
            (timeoutFor cfg (deployArgs cfg intent forceConflicts)), outcome⟩ :: tr :
              List (Event sig)) = ⟨.spawn (upgradeCommand cfg intent forceConflicts), none⟩ ::
            ⟨.finish (upgradeCommand cfg intent forceConflicts)
              (timeoutFor cfg (deployArgs cfg intent forceConflicts)), .timedOut log⟩ :: rest ∧
          (Untimed cfg rest ∨ Forgotten cfg rest)) ↔
          (∃ log, outcome = .timedOut log) ∧ (Untimed cfg tr ∨ Forgotten cfg tr) := by
        simp
      refine Iff.trans ?_ (or_congr hbad hlate).symm
      rw [unreadable_upgrade]
      cases outcome with
      | timedOut log =>
          have hargs : deployArgs cfg intent forceConflicts ≠ readyz := by
            simp [deployArgs, readyz]
          rcases Prog.traces_bind.mp h with ⟨output, tr₁, tr₂, rfl, hok, -⟩ | ⟨exc, hexc, rfl⟩
          · exact absurd hok (killed_raises intent forceConflicts hargs)
          · have hiff := killed_escapes_iff intent forceConflicts hargs hexc
            simpa using hiff
      | osError exc =>
          obtain ⟨rfl, hiff⟩ := traces_afterOSError h
          rw [hiff]
          simp
      | completed returncode stdout stderr =>
          have hiff := @exited_escapes_iff cfg intent forceConflicts tr x returncode stdout stderr h
          simpa using hiff

/-- A deployment ends without a result and without a `DeployError` exactly in the ways that
`Escapes` lists. -/
theorem deploy_escapes_iff {tr : List (Event sig)} {x : Except Exc Deployed}
    (h : (deploy cfg intent forceConflicts).Traces tr x) :
    (∃ e, x = .error e ∧ Uncaught e) ↔ Escapes cfg intent forceConflicts tr := by
  rw [deploy_eq] at h
  rcases Prog.traces_bind.mp h with ⟨⟨⟩, tr₁, tr₂, rfl, htools, hrest⟩ | ⟨exc, hexc, rfl⟩
  · have hread : ¬∃ ev ∈ tr₁, Unreadable cfg intent forceConflicts ev := by
      have htoolsRead : Readable cfg intent forceConflicts tr₁ :=
        readable_of_ok announced_requireTools htools
      simpa [Readable] using htoolsRead
    rw [upgrade_escapes_iff hrest, Escapes]
    simp only [List.mem_append, or_and_right, exists_or, hread, false_or]
    refine or_congr_right ⟨?_, ?_⟩
    · intro hx
      obtain ⟨log, rest, rfl, hlate⟩ := hx
      exact ⟨tr₁, log, rest, rfl, htools, hlate⟩
    · intro hx
      obtain ⟨checked, log, rest, heq, hok, hlate⟩ := hx
      obtain ⟨rfl, -⟩ := htools.eq_of_prefix hok ⟨tr₂, heq⟩ (List.prefix_append _ _)
      exact ⟨log, rest, List.append_cancel_left heq, hlate⟩
  · have hannounced : Announced cfg intent forceConflicts (requireTools cfg) :=
      announced_requireTools
    have hiff := hannounced hexc
    simp only [Except.error.injEq, exists_eq_left', false_or] at hiff
    simp only [Except.error.injEq, exists_eq_left', hiff, Escapes]
    refine (or_iff_left ?_).symm
    intro hx
    obtain ⟨checked, log, rest, rfl, hok, -⟩ := hx
    cases (hexc.eq_of_prefix hok (List.prefix_refl _) (List.prefix_append _ _)).2

end NfOrchestrator.Deploy
