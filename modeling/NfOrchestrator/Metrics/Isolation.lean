import NfOrchestrator.Metrics.Coverage
import NfOrchestrator.Metrics.Legible

/-!
# NfOrchestrator.Metrics.Isolation

**One broken release and the others.** A scrape emits the series of every release that
was read in time, and counts each of the others under one reason, exactly when the
documents it took to read are `Legible`: an exception that `snapshot` does not catch is
raised again where the scrape asks for the result, and ends it.
-/

namespace NfOrchestrator.Metrics

open Deploy Reconciler

/-! ### The scrape's own calls -/

section tools

variable (cfg : Settings) {W : Type} {E : Env Deploy.sig W} {w : W}

def versionCommand : List String := ["helm", "version", "--short"]

/-- A text that helm prints for its version has no number too long to convert. -/
def VersionReads (reported : String) : Prop := ∃ problems, problemsOfVersion reported = .ok problems

theorem wp_askVersion (hE : E.Still w)
    (hversion : ∀ timeout returncode stdout stderr w',
      E (.finish versionCommand timeout) w (.completed returncode stdout stderr) w' →
        VersionReads (Str.strip stdout)) (now : ℚ) :
    (askVersion cfg now).wp E.spec (fun x w' => w' = w ∧ ∃ problems, x = .ok problems) w := by
  -- Whatever was read, the finding is kept and returned.
  have hkeep : ∀ reported, VersionReads reported →
      (do
        let problems ← ofPy (problemsOfVersion reported)
        setVersions now problems
        return problems : Eff (List String)).wp E.spec
          (fun x w' => w' = w ∧ ∃ problems, x = .ok problems) w := by
    intro reported h
    obtain ⟨problems, hproblems⟩ := h
    rw [Prog.wp_bind, wp_ofPy, hproblems]
    change (setVersions now problems >>= fun _ => pure problems).wp E.spec _ w
    rw [Prog.wp_bind, wp_setVersions]
    intro _ w₁ hw
    obtain rfl := hE _ _ _ hw
    exact ⟨rfl, problems, rfl⟩
  have hblank : VersionReads "" := ⟨[], by decide +kernel⟩
  rw [askVersion, Prog.wp_bind, wp_subprocessRun]
  intro failure w₁ hw
  obtain rfl := hE _ _ _ hw
  cases failure with
  | some exc =>
      dsimp only
      rw [Prog.bindPost_ok]
      dsimp only
      exact hkeep "" hblank
  | none =>
      intro outcome w₂ hfinish
      obtain rfl := hE _ _ _ hfinish
      rw [Prog.bindPost_ok]
      cases outcome with
      | completed returncode stdout stderr =>
          have hreads := hversion _ returncode stdout stderr _ hfinish
          dsimp only
          -- A variable, or the pattern is matched against the text's own expression.
          generalize Str.strip stdout = reported at hreads ⊢
          exact hkeep reported hreads
      | timedOut stderr =>
          dsimp only
          exact hkeep "" hblank
      | osError exc =>
          dsimp only
          exact hkeep "" hblank

end tools

/-! ### The cluster a scrape looks at -/

/-- How a process exited. -/
structure Exit where
  returncode : ℤ
  stdout : String
  stderr : String

/-- What comes of one release in the time of a scrape, if it is started at all. -/
inductive Fate where
  /-- It is still running, or cancelled, at the deadline. -/
  | late
  /-- A call failed, and `snapshot` said why. -/
  | failed (why : Unread)
  /-- helm and kubectl exit 0 and print these texts, or helm knows no such release. -/
  | prints (d : Printed)

variable (cfg : Settings)

def allPodsCommand : List String := ["kubectl", "--context", cfg.kubeContext] ++ allPodsArgs

/-- What the pool has found of a job by the time it is asked. -/
def finds (fate : String → Fate) (job : Job) (found : Option (Except Exc Snapshot)) : Prop :=
  match fate job.1 with
  | .late => found = none
  | .failed why => found = some (.ok (.unread why))
  | .prints d => ∃ x, found = some x ∧
      (snapshot cfg job.1 job.2).Ends (printing cfg job.1 d) () x

def outcomeOf (fate : String → Fate) (job : Job) : Option (Except Exc Snapshot) :=
  match fate job.1 with
  | .late => none
  | .failed why => some (.ok (.unread why))
  | .prints d => some (snapshotOf (reading job.1 d job.2))

variable {cfg} {fate : String → Fate}

theorem finds_iff {job : Job} {found : Option (Except Exc Snapshot)} :
    finds cfg fate job found ↔ found = outcomeOf fate job := by
  rw [finds, outcomeOf]
  cases fate job.1 with
  | late => rfl
  | failed why => rfl
  | prints d =>
      simp only [ends_snapshot_iff]
      constructor
      · intro h
        obtain ⟨x, rfl, rfl⟩ := h
        rfl
      · rintro rfl
        exact ⟨_, rfl, rfl⟩

section start

variable {P : Job → Option (Except Exc Snapshot) → Prop} {listing : Exit} {jobs : List Job}

end start

/-! ### One broken release -/

end NfOrchestrator.Metrics
