import NfOrchestrator.Reconciler.NotFound

/-!
# NfOrchestrator.Reconciler.Absence

When the reconciler says that a **release does not exist**. Both readers of a release,
`existingHistory` and `helmReleaseStatus`, decide it by looking for two words in the
text of an exception; `absence_sound_iff` says for which outcomes of the helm call that
is what helm said.
-/

namespace NfOrchestrator.Reconciler

open Deploy

variable (cfg : Settings)

def releaseAbsent : String := "release: not found"

/-- helm exited with its own words for a release that does not exist, and nothing in
them is more specific than a refusal. -/
def Absent : Outcome → Prop
  | .completed returncode stdout stderr =>
      returncode ≠ 0 ∧ Str.contains releaseAbsent (Str.lower (complaint stdout stderr)) = true ∧
        (classifyError (complaint stdout stderr)).cls = .deployError
  | .timedOut _ | .osError _ => False

/-! ### The two readers of a release -/

/-- Does the code take this exception for the absence of the release? -/
def takenForAbsent : Exc → Bool
  | .deploy e => decide (e.cls ≠ .clusterUnreachable) && saysNotFound e.message
  | .os _ | .py _ => false

/-- What `unlessNotFound` makes of a call. -/
def unlessAbsent {α : Type} : Except Exc α → Except Exc (Option α)
  | .ok a => .ok (some a)
  | .error exc => if takenForAbsent exc then .ok none else .error exc

theorem wp_unlessNotFound {α W : Type} {Φ : Spec sig W} {w : W} {call : Eff α}
    {Q : Except Exc (Option α) → W → Prop} :
    (unlessNotFound call).wp Φ Q w ↔
      call.wp Φ (fun x w' => Q (unlessAbsent x) w') w := by
  rw [unlessNotFound, map_eq_pure_bind, Prog.wp_tryCatch, Prog.wp_bind]
  refine iff_of_eq (congrArg (fun R => call.wp Φ R w) (funext fun x => funext fun w' => ?_))
  rcases x with (e | e | e) | a
  · have hrefusal : unlessAbsent (.error (.deploy e) : Except Exc α) =
        if e.cls = .clusterUnreachable then .error (.deploy e)
        else if saysNotFound e.message then .ok none else .error (.deploy e) := by
      by_cases hcls : e.cls = .clusterUnreachable
      · simp [unlessAbsent, takenForAbsent, hcls]
      · simp [unlessAbsent, takenForAbsent, hcls]
    rw [hrefusal, Prog.bindPost_error, Prog.catchPost_error, saysNotFound]
    dsimp only
    split_ifs
    · rfl
    · rfl
    · rfl
  · rfl
  · rfl
  · rfl

/-- What a reader makes of its helm call. -/
def readResult (read : String → Except PyError Json) : Except Exc String → Except Exc Json
  | .ok output => (read output).mapError .py
  | .error exc => if takenForAbsent exc then .ok .null else .error exc

/-- A program that makes one helm call and reads its output, unless the release does not
exist. -/
def ReadsBy (p : Eff Json) (args : List String) (read : String → Except PyError Json) : Prop :=
  ∀ {W : Type} {E : Env sig W} {w : W} {Q : Except Exc Json → W → Prop},
    p.wp E.spec Q w ↔ (runHelm cfg args).wp E.spec (fun r w' => Q (readResult read r) w') w

theorem existingHistory_reads (name : String) :
    ReadsBy cfg (existingHistory cfg name) (historyArgs cfg name) Json.loads := by
  intro W E w Q
  rw [existingHistory, Prog.wp_bind, wp_unlessNotFound, releaseHistory, Prog.wp_bind]
  refine iff_of_eq (congrArg (fun R => (runHelm cfg (historyArgs cfg name)).wp E.spec R w)
    (funext fun r => funext fun w' => ?_))
  cases r with
  | ok output =>
      rw [Prog.bindPost_ok, wp_ofPy, readResult]
      cases Json.loads output with
      | ok document => rfl
      | error e => rfl
  | error exc =>
      rw [Prog.bindPost_error, readResult, unlessAbsent]
      cases takenForAbsent exc with
      | true => rfl
      | false => rfl

theorem helmReleaseStatus_reads (name : String) :
    ReadsBy cfg (helmReleaseStatus cfg name) (statusArgs cfg name) readStatus := by
  intro W E w Q
  rw [helmReleaseStatus, Prog.wp_bind, wp_unlessNotFound]
  refine iff_of_eq (congrArg (fun R => (runHelm cfg (statusArgs cfg name)).wp E.spec R w)
    (funext fun r => funext fun w' => ?_))
  cases r with
  | ok output => exact propext (wp_ofPy (x := readStatus output))
  | error exc =>
      rw [readResult, unlessAbsent]
      cases takenForAbsent exc with
      | true => rfl
      | false => rfl

/-! ### When absence is not reported by mistake -/

/-- No text of the call's own end, nor of a kubectl that `errs` lets fail to start, is
mistaken for the absence of the release. -/
def NotMistaken (errs : OSError → Prop) (read : String → Except PyError Json) : Outcome → Prop
  | .completed returncode stdout stderr =>
      if returncode = 0 then read stdout ≠ .ok .null
      else takenForAbsent (.deploy (classifyError (complaint stdout stderr))) = true →
        Absent (.completed returncode stdout stderr)
  | .osError exc => takenForAbsent (startResult "helm" exc) = false
  | .timedOut _ => ∀ exc, errs exc → takenForAbsent (startResult "kubectl" exc) = false

theorem Composed.readResult_ne {errs : OSError → Prop} {x : Except Exc String}
    (h : Composed errs x)
    (herrs : ∀ exc, errs exc → takenForAbsent (startResult "kubectl" exc) = false)
    (read : String → Except PyError Json) : readResult read x ≠ .ok .null := by
  rcases x with (e | e | e) | output
  · have hnot : takenForAbsent (.deploy e) = false := by
      rcases h with hsays | ⟨exc, hexc, hfailure⟩
      · simp [takenForAbsent, hsays]
      · have hstart : startResult "kubectl" exc = .deploy e := by rw [startResult, hfailure]
        exact hstart ▸ herrs exc hexc
    simp [readResult, hnot]
  · simp [readResult, takenForAbsent]
  · simp [readResult, takenForAbsent]
  · exact h.elim

/-- `helm <verb>` is killed, and kubectl cannot be started. -/
def unstartable (verb : String) (stderr : Option String) (exc : OSError) : Env sig Unit :=
  fun o _ r _ =>
  match o, r with
  | .spawn command, failure =>
      failure = if command.take 2 = ["helm", verb] then none else some exc
  | .finish _ _, outcome => outcome = .timedOut stderr
  | .getProbe, cached => cached = none
  | _, _ => True

variable {verb : String} {stderr : Option String} {exc : OSError}

theorem unstartable_helmHost {errs : OSError → Prop} (hexc : errs exc) (o : Op) (w : Unit)
    (r : Resp o) (w' : Unit) (h : unstartable verb stderr exc o w r w') :
    helmHost verb errs (.timedOut stderr) o w r w' := by
  cases o with
  | spawn command =>
      refine ⟨fun hcommand => ?_, fun _ exc' hexc' => ?_⟩
      · rw [h, if_pos hcommand]
        rfl
      · rw [h] at hexc'
        split_ifs at hexc'
        exact Option.some.inj hexc' ▸ hexc
  | finish command timeout =>
      refine ⟨fun _ => h, fun _ exc' hexc' => ?_⟩
      rw [h] at hexc'
      cases hexc'
  | getProbe => exact fun t p hp => by rw [h] at hp; cases hp
  | _ => trivial

theorem unstartable_total (verb : String) (stderr : Option String) (exc : OSError) :
    (unstartable verb stderr exc).Total := by
  intro o w
  have r : Resp o := blankReply o
  cases o with
  | spawn command => exact ⟨_, (), rfl⟩
  | finish command timeout => exact ⟨.timedOut stderr, (), rfl⟩
  | getProbe => exact ⟨none, (), rfl⟩
  | _ => exact ⟨r, (), trivial⟩

/-- The result is a probe of a kubectl that could not be started. -/
def Unstarted (exc : OSError) (x : Except Exc Probe) : Prop :=
  ∃ p, x = .ok p ∧ p.started = false ∧ p.spawnFailure = spawnFailure "kubectl" exc

theorem wp_measureProbe_unstartable (timeout : ℚ) :
    (measureProbe cfg timeout).wp (unstartable verb stderr exc).spec (fun x _ => Unstarted exc x)
      () := by
  have hcommand : (probeCommand cfg).take 2 ≠ ["helm", verb] := by simp [probeCommand]
  simp only [measureProbe, Prog.wp_bind, wp_time, wp_monotonic, wp_subprocessRun, Env.spec_apply,
    unstartable, if_neg hcommand, Prog.bindPost_ok]
  rintro spawned ⟨⟩ - started ⟨⟩ - failure ⟨⟩ rfl now ⟨⟩ -
  exact ⟨_, rfl, rfl, rfl⟩

theorem wp_apiServerProbe_unstartable (maxAge : ℚ) (timeout : Option ℚ) :
    (apiServerProbe cfg maxAge timeout).wp (unstartable verb stderr exc).spec
      (fun x _ => Unstarted exc x) () := by
  rw [apiServerProbe, Prog.wp_bind, wp_acquireProbeLock]
  rintro ⟨⟩ ⟨⟩ -
  rw [Prog.bindPost_ok, Prog.wp_bind, Prog.wp_tryCatch, cachedProbe, Prog.wp_bind, wp_getProbe]
  rintro cached ⟨⟩ (rfl : cached = none)
  rw [Prog.bindPost_ok, freshProbe, Prog.wp_bind]
  refine Prog.wp_mono (Env.spec_mono _) ?_ (wp_measureProbe_unstartable cfg _)
  rintro x ⟨⟩ ⟨p, rfl, hp⟩
  rintro now ⟨⟩ - ⟨⟩ ⟨⟩ - ⟨⟩ ⟨⟩ -
  exact ⟨p, rfl, hp⟩

theorem wp_settledProbe_unstartable :
    (settledProbe cfg).wp (unstartable verb stderr exc).spec (fun x _ => Unstarted exc x) () := by
  rw [settledProbe, Prog.wp_bind]
  refine Prog.wp_mono (Env.spec_mono _) ?_ (wp_apiServerProbe_unstartable cfg _ _)
  rintro x ⟨⟩ ⟨p, rfl, hstarted, -⟩
  rw [Prog.bindPost_ok, hstarted]
  exact wp_apiServerProbe_unstartable cfg _ _

theorem wp_runHelm_unstartable {rest : List String} (hargs : verb :: rest ≠ readyz)
    {failure : DeployError}
    (hfailure : spawnFailure "kubectl" exc = some failure) :
    (runHelm cfg (verb :: rest)).wp (unstartable verb stderr exc).spec
      (fun x _ => x = .error (.deploy failure)) () := by
  rw [runHelm, runBounded, runBoundedWith, Prog.wp_bind, wp_subprocessRun, Env.spec_apply]
  rintro spawned ⟨⟩ hspawned
  obtain rfl : spawned = none := hspawned.trans (if_pos rfl)
  rintro outcome ⟨⟩ rfl
  rw [Prog.bindPost_ok, afterTimeout, if_pos hargs, Prog.wp_bind]
  refine Prog.wp_mono (Env.spec_mono _) ?_ (wp_settledProbe_unstartable cfg)
  rintro x ⟨⟩ ⟨p, rfl, -, hp⟩
  rw [Prog.bindPost_ok, hp, hfailure]
  exact Eq.refl _

/-! ### Exactly when it is reported by mistake -/

theorem not_kubectl {command : List String} (h : command.take 2 = ["helm", verb]) :
    command.head? ≠ some "kubectl" := by
  cases command with
  | nil => simp
  | cons tool rest =>
      have htool : tool = "helm" := by simpa using (List.cons.inj h).1
      simp [htool]

theorem helmHost_total (verb : String) (errs : OSError → Prop) (own : Outcome) :
    (helmHost verb errs own).Total := by
  intro o w
  have r : Resp o := blankReply o
  cases o with
  | spawn command =>
      by_cases hcommand : command.take 2 = ["helm", verb]
      · exact ⟨startFailure own, (), fun _ => rfl, fun h => absurd h (not_kubectl hcommand)⟩
      · exact ⟨none, (), fun h => absurd h hcommand, fun _ exc h => by cases h⟩
  | finish command timeout =>
      by_cases hcommand : command.take 2 = ["helm", verb]
      · exact ⟨own, (), fun _ => rfl, fun h => absurd h (not_kubectl hcommand)⟩
      · exact ⟨.timedOut none, (), fun h => absurd h hcommand, fun _ exc h => by cases h⟩
  | getProbe => exact ⟨none, (), fun t p h => by cases h⟩
  | _ => exact ⟨r, (), trivial⟩

theorem readResult_error_null {read : String → Except PyError Json} {exc : Exc} :
    readResult read (.error exc) = .ok .null ↔ takenForAbsent exc = true := by
  rw [readResult]
  cases takenForAbsent exc with
  | true => simp
  | false => simp

theorem readResult_ok_null {read : String → Except PyError Json} {output : String} :
    readResult read (.ok output) = .ok .null ↔ read output = .ok .null := by
  rw [readResult]
  cases read output with
  | ok document => simp [Except.mapError]
  | error e => simp [Except.mapError]

theorem ReadsBy.wp {p : Eff Json} {rest : List String} {read : String → Except PyError Json}
    (hreads : ReadsBy cfg p (verb :: rest) read) (hverb : Apart verb) (errs : OSError → Prop)
    (own : Outcome) :
    p.wp (helmHost verb errs own).spec
      (fun x _ => ∃ r, CallResult errs own r ∧ x = readResult read r) () :=
  hreads.mpr (Prog.wp_mono (Env.spec_mono _) (fun r _ hr => ⟨r, hr, rfl⟩)
    (wp_runHelm cfg hverb rest errs own))

/-- A reader returns null without helm's own word for an absent release exactly when a
text is mistaken for it. -/
theorem reader_null_iff {p : Eff Json} {rest : List String}
    {read : String → Except PyError Json} (hreads : ReadsBy cfg p (verb :: rest) read)
    (hverb : Apart verb) (hargs : verb :: rest ≠ readyz) (errs : OSError → Prop) (own : Outcome) :
    (p.Ends (helmHost verb errs own) () (.ok .null) → Absent own) ↔
      NotMistaken errs read own := by
  have hwp : p.wp (helmHost verb errs own).spec
      (fun x _ => ∃ r, CallResult errs own r ∧ x = readResult read r) () :=
    hreads.wp cfg hverb errs own
  -- where `own` fixes how the call ends, the reader has one result
  have hends : ∀ v, (∀ r, CallResult errs own r → r = v) →
      (p.Ends (helmHost verb errs own) () (.ok .null) ↔ readResult read v = .ok .null) := by
    intro v hv
    have hone : p.wp (helmHost verb errs own).spec (fun x _ => x = readResult read v) () := by
      refine Prog.wp_mono (Env.spec_mono _) ?_ hwp
      intro x w hx
      obtain ⟨r, hr, rfl⟩ := hx
      rw [hv r hr]
    rw [Prog.ends_iff_eq (helmHost_total verb errs own) hone, eq_comm]
  cases own with
  | completed returncode stdout stderr =>
      rw [hends _ fun r hr => hr, NotMistaken, exitResult]
      by_cases hrc : returncode = 0
      · rw [if_neg (not_not.mpr hrc), if_pos hrc, readResult_ok_null]
        exact ⟨fun h hnull => (h hnull).1 hrc, fun h hnull => absurd hnull h⟩
      · rw [if_pos hrc, if_neg hrc, readResult_error_null]
  | osError exc =>
      rw [hends _ fun r hr => hr, NotMistaken, readResult_error_null, Bool.eq_false_iff]
      rfl
  | timedOut stderr =>
      constructor
      · -- a probe that cannot be spawned is reported in words of its own
        intro h exc hexc
        rw [Bool.eq_false_iff]
        intro hmistaken
        cases hfailure : spawnFailure "kubectl" exc with
        | none => simp [startResult, hfailure, takenForAbsent] at hmistaken
        | some failure =>
            rw [startResult, hfailure] at hmistaken
            have hnull : p.wp (unstartable verb stderr exc).spec (fun x _ => x = .ok .null) () := by
              refine hreads.mpr (Prog.wp_mono (Env.spec_mono _) ?_
                (wp_runHelm_unstartable cfg hargs hfailure))
              intro r w hx
              subst hx
              exact readResult_error_null.mpr hmistaken
            obtain ⟨x, w, hr⟩ := Prog.exists_ends (unstartable_total verb stderr exc) p ()
            obtain rfl : x = .ok .null := hr.post hnull
            exact h ⟨w, hr.mono (unstartable_helmHost hexc)⟩
      · intro herrs hx
        obtain ⟨w, hr⟩ := hx
        obtain ⟨r, hr, hnull⟩ := hr.post hwp
        exact absurd hnull.symm (Composed.readResult_ne hr herrs read)

/-! ### What is reported -/

/-- A release whose newest revision has a status is not reported as absent. -/
theorem deriveState_absent {helmStatus : Json} {pods : List PodState} {desired : ℤ}
    {operation : OperationState} {everDeployed : Bool}
    (h : deriveState helmStatus pods desired operation everDeployed = .ok .notInstantiated) :
    helmStatus = .null := by
  by_contra hne
  rw [deriveState, if_neg hne] at h
  obtain ⟨live, -, h⟩ := bind_eq_ok.mp h
  obtain ⟨terminal, -, h⟩ := bind_eq_ok.mp h
  obtain ⟨failing, -, h⟩ := bind_eq_ok.mp h
  split_ifs at h <;> cases h

/-- helm exited 0 with a document that shows no revision, or none with a status. -/
def ShowsNone : Outcome → Prop
  | .completed returncode stdout _ =>
      returncode = 0 ∧ ∃ history, Json.loads stdout = .ok history ∧
        (history.truthy = false ∨
          newestStatus history = .ok .null)
  | .timedOut _ | .osError _ => False

/-- A release that helm does not call absent is not reported as absent, when its
`helm history` ends in `history` and its `helm status` in `status`. -/
structure AbsenceSound (name : String) (errs : OSError → Prop) (history status : Outcome) :
    Prop where
  existingHistory : (existingHistory cfg name).Ends (helmHost "history" errs history) ()
    (.ok .null) → Absent history
  helmReleaseStatus : (helmReleaseStatus cfg name).Ends (helmHost "status" errs status) ()
    (.ok .null) → Absent status
  get : ∀ pods report, (reconcile cfg name pods).Ends (helmHost "history" errs history) ()
    (.ok report) → report.state = .notInstantiated → Absent history ∨ ShowsNone history
  delete : ∀ torn, (teardown cfg name).Ends (helmHost "status" errs status) () (.ok torn) →
    torn.uninstalled = false → Absent status

variable {cfg} {name : String} {errs : OSError → Prop}

/-- Once the release has a status, the rest of `reconcile` does not report it absent. -/
theorem wp_reportOn_absent {E : Env sig Unit} (history helmStatus : Json)
    (pods : Option (List PodState)) :
    (do
      let operation ← ofPy (lastOperation history)
      let desired ← desiredReplicas cfg name history
      let pods ← podsOf cfg name pods
      ofPy (reportOn name history helmStatus operation desired pods) : Eff Report).wp E.spec
      (fun x _ => ∀ report, x = .ok report → report.state = .notInstantiated →
        helmStatus = .null) () := by
  refine Prog.wp_bind_of_forall (by simp) fun operation _ => ?_
  refine Prog.wp_bind_of_forall (by simp) fun desired _ => ?_
  refine Prog.wp_bind_of_forall (by simp) fun pods _ => ?_
  rw [wp_ofPy]
  intro report hreport hstate
  cases hread : reportOn name history helmStatus operation desired pods with
  | error e => rw [hread] at hreport; cases hreport
  | ok r =>
      rw [hread] at hreport
      obtain rfl : r = report := Except.ok.inj hreport
      obtain ⟨ever, -, hread⟩ := bind_eq_ok.mp hread
      obtain ⟨state, hderived, hread⟩ := bind_eq_ok.mp hread
      obtain rfl := Except.ok.inj hread
      obtain rfl : state = .notInstantiated := hstate
      exact deriveState_absent hderived

/-- A report of an absent release comes from a history that shows none. -/
theorem reconcile_absent {E : Env sig Unit} {pods : Option (List PodState)} {report : Report}
    (hr : (reconcile cfg name pods).Ends E () (.ok report))
    (hstate : report.state = .notInstantiated) :
    ∃ history, (existingHistory cfg name).Ends E () (.ok history) ∧
      (history.truthy = false ∨ newestStatus history = .ok .null) := by
  obtain ⟨w, hr⟩ := hr
  obtain ⟨history, w₁, hhistory, hrest⟩ | ⟨e, -, he⟩ := Prog.runs_bind.mp hr
  · refine ⟨history, ⟨w₁, hhistory⟩, ?_⟩
    by_cases htruthy : history.truthy = false
    · exact .inl htruthy
    · rw [if_neg (by simpa using htruthy)] at hrest
      obtain ⟨helmStatus, w₂, hstatus, hrest⟩ | ⟨e, -, he⟩ := Prog.runs_bind.mp hrest
      · have hnull : helmStatus = .null :=
          hrest.post (wp_reportOn_absent history helmStatus pods) report rfl hstate
        exact .inr (hnull ▸ returned_of_runs hstatus)
      · cases he
  · cases he

/-- A teardown that found nothing to uninstall was told so by `helmReleaseStatus`. -/
theorem teardown_absent {E : Env sig Unit} {torn : TornDown}
    (hr : (teardown cfg name).Ends E () (.ok torn)) (htorn : torn.uninstalled = false) :
    (helmReleaseStatus cfg name).Ends E () (.ok .null) := by
  obtain ⟨w, hr⟩ := hr
  obtain ⟨status, w₁, hstatus, hrest⟩ | ⟨e, -, he⟩ := Prog.runs_bind.mp hr
  · by_cases hnull : status = .null
    · exact ⟨w₁, hnull ▸ hstatus⟩
    · rw [if_neg hnull] at hrest
      obtain ⟨output, w₂, -, hrest⟩ | ⟨e, -, he⟩ := Prog.runs_bind.mp hrest
      · obtain rfl := Except.ok.inj hrest.1
        cases htorn
      · cases he
  · cases he

/-- What a reader returned is null, or read from a call that exited 0. -/
theorem reader_document {p : Eff Json} {rest : List String} {read : String → Except PyError Json}
    (hreads : ReadsBy cfg p (verb :: rest) read) (hverb : Apart verb) {own : Outcome} {v : Json}
    (h : p.Ends (helmHost verb errs own) () (.ok v)) :
    v = .null ∨ ∃ stdout stderr, own = .completed 0 stdout stderr ∧ read stdout = .ok v := by
  obtain ⟨w, hr⟩ := h
  obtain ⟨r, hcall, hread⟩ := hr.post (hreads.wp cfg hverb errs own)
  cases r with
  | error exc =>
      rw [readResult] at hread
      split_ifs at hread
      exact .inl (Except.ok.inj hread)
  | ok output =>
      refine .inr ?_
      cases own with
      | osError exc => cases hcall
      | timedOut stderr => exact hcall.elim
      | completed returncode stdout stderr =>
          rw [CallResult, exitResult] at hcall
          split_ifs at hcall with hrc
          obtain rfl := Except.ok.inj hcall
          obtain rfl : returncode = 0 := not_not.mp hrc
          refine ⟨output, stderr, rfl, ?_⟩
          cases hdoc : read output with
          | ok document =>
              rw [readResult, hdoc] at hread
              exact congrArg Except.ok (Except.ok.inj hread).symm
          | error e => rw [readResult, hdoc] at hread; cases hread

theorem apart_history : Apart "history" := by decide

theorem apart_status : Apart "status" := by decide

/-- Absence is reported only when helm says the release is absent, exactly when no text
is mistaken for helm saying so. -/
theorem absence_sound_iff (cfg : Settings) (name : String) (errs : OSError → Prop)
    (history status : Outcome) :
    AbsenceSound cfg name errs history status ↔
      NotMistaken errs Json.loads history ∧ NotMistaken errs readStatus status := by
  have hhistory : ((existingHistory cfg name).Ends (helmHost "history" errs history) ()
      (.ok .null) → Absent history) ↔ NotMistaken errs Json.loads history :=
    reader_null_iff cfg (existingHistory_reads cfg name) apart_history (by simp [readyz]) errs
      history
  have hstatus : ((helmReleaseStatus cfg name).Ends (helmHost "status" errs status) ()
      (.ok .null) → Absent status) ↔ NotMistaken errs readStatus status :=
    reader_null_iff cfg (helmReleaseStatus_reads cfg name) apart_status (by simp [readyz]) errs
      status
  constructor
  · intro h
    exact ⟨hhistory.mp h.existingHistory, hstatus.mp h.helmReleaseStatus⟩
  · intro hx
    obtain ⟨hh, hs⟩ := hx
    have hnull := hhistory.mpr hh
    have hgone := hstatus.mpr hs
    refine ⟨hnull, hgone, ?_, ?_⟩
    · intro pods report hr hstate
      obtain ⟨document, hends, hshows⟩ := reconcile_absent hr hstate
      have hdoc := reader_document (existingHistory_reads cfg name) apart_history hends
      rcases hdoc with rfl | ⟨stdout, stderr, rfl, hloads⟩
      · exact .inl (hnull hends)
      · exact .inr ⟨rfl, document, hloads, hshows⟩
    · intro torn hr htorn
      exact hgone (teardown_absent hr htorn)

/-- helm's refusal because of a namespace it did not find. -/
def namespaceNotFound : String :=
  "Error: query: failed to query with labels: namespaces \"nf\" not found\n"

def otherNotFound : Outcome := .completed 1 "" namespaceNotFound

/-- A refusal about another object is read as the absence of the release. -/
theorem refusal_taken_for_absence :
    ¬ Absent otherNotFound ∧
      (existingHistory {} "nf").Ends (helmHost "history" (fun _ => False) otherNotFound) ()
        (.ok .null) ∧
      (reconcile {} "nf" none).Ends (helmHost "history" (fun _ => False) otherNotFound) ()
        (.ok (absent "nf")) := by
  have htaken :
      takenForAbsent (.deploy (classifyError (complaint "" namespaceNotFound))) = true := by
    decide +kernel
  have hother :
      Str.contains releaseAbsent (Str.lower (complaint "" namespaceNotFound)) = false := by
    decide +kernel
  have hmistaken : ¬ NotMistaken (fun _ => False) Json.loads otherNotFound := by
    intro h
    rw [otherNotFound, NotMistaken, if_neg one_ne_zero] at h
    exact absurd (h htaken).2.1 (by simp [hother])
  have hnull := (not_congr (reader_null_iff {} (existingHistory_reads {} "nf") apart_history
    (by simp [readyz]) (fun _ => False) otherNotFound)).mpr hmistaken
  obtain ⟨⟨w, hr⟩, hnot⟩ := Classical.not_imp.mp hnull
  exact ⟨hnot, ⟨w, hr⟩, w, hr.bind ⟨rfl, rfl⟩⟩

end NfOrchestrator.Reconciler
