import NfOrchestrator.Deploy.Engine
import NfOrchestrator.Effects.Pool

/-!
# NfOrchestrator.Deploy.Noting

What **one thread** does to the evidence that the cluster answered. A thread that
assigns `_last_success` has just waited for a process and read the clock, so its own
trace says what it noted (`Noted`); and a killed call that cites another call's answer
has just read a recent time (`ReadRecent`). Both are facts about a thread alone,
whatever the replies it gets, and are proved as guarantees in the sense of `recorded`.
-/

namespace NfOrchestrator.Deploy

variable (cfg : Settings)

/-! ### What a thread notes -/

/-- The outcomes in which the API server really answered: exit 0, or a non-zero exit
whose text is the cluster's reply. -/
def Answer : Outcome → Prop
  | .completed returncode stdout stderr =>
      returncode = 0 ∨ clusterReplied (classifyError (complaint stdout stderr)) = true
  | .timedOut _ | .osError _ => False

/-- The thread last read the clock, as `t`, right after a process ended in an answer. -/
def Noted (tr : List (Event sig)) (t : ℚ) : Prop :=
  ∃ pre command timeout outcome,
    tr = pre ++ [⟨.finish command timeout, outcome⟩, ⟨.monotonic, t⟩] ∧ Answer outcome

/-- An assignment to `_last_success` notes an answer. -/
def NotesAnswers (tr : List (Event sig)) (e : Event sig) : Prop :=
  ∀ t, e.op = .setLastSuccess t → Noted tr t

/-- The failure to start kubectl, if the probe has one, is one that `errs` allows. -/
def FailedWith (errs : OSError → Prop) (p : Probe) : Prop :=
  ∀ e, p.spawnFailure = some e → ∃ exc, errs exc ∧ spawnFailure "kubectl" exc = some e

theorem failedWith_any (p : Probe) : FailedWith (fun _ => True) p := by
  intro e he
  obtain ⟨exc, hexc⟩ := p.spawnFailure_of e he
  exact ⟨exc, trivial, hexc⟩

/-- The replies assumed: kubectl fails to start only with the errors `errs` allows, now
and when the cached probe was measured. -/
structure StartsWith (errs : OSError → Prop) (A : List (Event sig) → Event sig → Prop) : Prop where
  spawn : ∀ tr command exc, A tr ⟨.spawn ("kubectl" :: command), some exc⟩ → errs exc
  finish : ∀ tr command timeout exc,
    A tr ⟨.finish ("kubectl" :: command) timeout, .osError exc⟩ → errs exc
  cached : ∀ tr t p, A tr ⟨.getProbe, some (t, p)⟩ → FailedWith errs p

theorem startsWith_any (A : List (Event sig) → Event sig → Prop) :
    StartsWith (fun _ => True) A :=
  ⟨fun _ _ _ _ => trivial, fun _ _ _ _ _ => trivial, fun _ _ p _ => failedWith_any p⟩

section threads

variable {A : List (Event sig) → Event sig → Prop} {errs : OSError → Prop} {α β : Type}

theorem recorded_forall {o : Op} {tr : List (Event sig)} {K : Resp o → List (Event sig) → Prop}
    (ho : ∀ t, o ≠ .setLastSuccess t) (h : ∀ r, A tr ⟨o, r⟩ → K r (tr ++ [⟨o, r⟩])) :
    recorded A NotesAnswers o tr K :=
  fun r hr => ⟨fun t ht => absurd ht (ho t), h r hr⟩

/-- The result is one that `G` allows, or an exception that is not a `DeployError`. -/
def Plainly (G : α → Prop) : Except Exc α → Prop
  | .ok a => G a
  | .error (.deploy _) => False
  | .error (.os _) | .error (.py _) => True

/-- The program notes nothing but answers, raises no `DeployError` of its own, and
returns what `G` allows. -/
def Plain (A : List (Event sig) → Event sig → Prop) (G : α → Prop) (p : Eff α) : Prop :=
  ∀ tr, p.wp (recorded A NotesAnswers) (fun x _ => Plainly G x) tr

theorem plainly_error {G : α → Prop} {exc : Exc} :
    Plainly G (.error exc : Except Exc α) ↔ ∀ e, exc ≠ .deploy e := by
  rcases exc with e | e | e
  · exact ⟨False.elim, fun h => h e rfl⟩
  · exact ⟨fun _ => by simp, fun _ => trivial⟩
  · exact ⟨fun _ => by simp, fun _ => trivial⟩

/-- What holds after a plain program holds of every result it allows and of every other
exception. -/
theorem Plain.wp {G : α → Prop} {p : Eff α} (hp : Plain A G p) {tr : List (Event sig)}
    {Q : Except Exc α → List (Event sig) → Prop}
    (herror : ∀ exc tr', (∀ e, exc ≠ .deploy e) → Q (.error exc) tr')
    (hok : ∀ a tr', G a → Q (.ok a) tr') : p.wp (recorded A NotesAnswers) Q tr := by
  refine Prog.wp_mono (recorded_mono A NotesAnswers) ?_ (hp tr)
  rintro (exc | a) tr' h
  · exact herror exc tr' (plainly_error.mp h)
  · exact hok a tr' h

theorem plain_ret {G : α → Prop} {a : α} (h : G a) : Plain A G (.ret a) := fun _ => h

theorem plain_py {G : α → Prop} (e : PyError) : Plain A G (throw (.py e)) := fun _ => trivial

theorem plain_ofPy (x : Except PyError α) : Plain A (fun _ => True) (ofPy x) := by
  intro tr
  rw [wp_ofPy]
  cases x with
  | ok a => trivial
  | error e => trivial

theorem Plain.bind {G : α → Prop} {H : β → Prop} {p : Eff α} {f : α → Eff β} (hp : Plain A G p)
    (hf : ∀ a, G a → Plain A H (f a)) : Plain A H (p >>= f) := by
  intro tr
  rw [Prog.wp_bind]
  exact hp.wp (fun exc tr' h => plainly_error.mpr h) fun a tr' h => hf a h tr'

theorem plain_op {o : Op} {G : Resp o → Prop} (ho : ∀ t, o ≠ .setLastSuccess t)
    (hG : ∀ tr r, A tr ⟨o, r⟩ → G r) : Plain A G (perform o) :=
  fun tr => recorded_forall ho fun r hr => hG tr r hr

theorem plain_any {o : Op} (ho : ∀ t, o ≠ .setLastSuccess t) :
    Plain A (fun _ => True) (perform o) := plain_op ho fun _ _ _ => trivial

theorem plain_startupDelay (log : String) (spawned : ℚ) :
    Plain A (fun _ => True) (startupDelay log spawned) := by
  unfold startupDelay
  cases firstStamp log with
  | none => exact plain_ret trivial
  | some first => exact (plain_any (by simp)).bind fun t _ => plain_ret trivial

theorem plain_killedProbe (written : String) (spawned started : ℚ) :
    Plain A (FailedWith errs) (killedProbe written spawned started) :=
  (plain_any (by simp)).bind fun _ _ => (plain_ofPy _).bind fun _ _ =>
    (plain_startupDelay written spawned).bind fun _ _ => plain_ret fun _ h => by cases h

theorem plain_exitedProbe (answered : Bool) (log : String) (spawned started : ℚ) :
    Plain A (FailedWith errs) (exitedProbe answered log spawned started) :=
  (plain_any (by simp)).bind fun _ _ => (plain_ofPy _).bind fun _ _ =>
    (plain_startupDelay log spawned).bind fun _ _ => plain_ret fun _ h => by cases h

/-- Right after a process ended in an answer, `noteSuccess` notes it. -/
theorem wp_noteSuccess_answer {pre : List (Event sig)} {command : List String} {timeout : ℚ}
    {outcome : Outcome} (h : Answer outcome) {Q : Except Exc Unit → List (Event sig) → Prop}
    (hQ : ∀ now, Q (.ok ()) (pre ++ [⟨.finish command timeout, outcome⟩, ⟨.monotonic, now⟩,
      ⟨.setLastSuccess now, ()⟩])) :
    noteSuccess.wp (recorded A NotesAnswers) Q (pre ++ [⟨.finish command timeout, outcome⟩]) := by
  rw [noteSuccess, Prog.wp_bind, wp_monotonic]
  refine recorded_forall (by simp) fun now _ => ?_
  rw [Prog.bindPost_ok, wp_setLastSuccess]
  intro r _
  refine ⟨?_, by simpa using hQ now⟩
  rintro t ⟨⟩
  exact ⟨pre, command, timeout, outcome, by simp, h⟩

theorem plain_measureProbe (hA : StartsWith errs A) (timeout : ℚ) :
    Plain A (FailedWith errs) (measureProbe cfg timeout) := by
  have hfailed : ∀ (exc : OSError), errs exc → ∀ started : ℚ, Plain A (FailedWith errs)
      (do let now ← monotonic
          return { answered := false, seconds := now - started, started := false,
                   spawnFailure := spawnFailure "kubectl" exc,
                   spawnFailure_of := fun _ h => ⟨exc, h⟩ }) :=
    fun exc hexc started =>
      (plain_any (by simp)).bind fun _ _ => plain_ret fun _ h => ⟨exc, hexc, h⟩
  refine (plain_any (by simp)).bind fun spawned _ => (plain_any (by simp)).bind
    fun started _ tr => ?_
  rw [Prog.wp_bind, wp_subprocessRun]
  refine recorded_forall (by simp) fun failure hspawn => ?_
  cases failure with
  | some exc => exact hfailed exc (hA.spawn _ _ _ hspawn) started _
  | none =>
      refine recorded_forall (by simp) fun outcome hfinish => ?_
      cases outcome with
      | timedOut stderr => exact plain_killedProbe _ spawned started _
      | osError exc => exact hfailed exc (hA.finish _ _ _ _ hfinish) started _
      | completed returncode stdout stderr =>
          by_cases hrc : returncode = 0
          · subst hrc
            have hanswer : Answer (.completed 0 stdout stderr) := Or.inl rfl
            refine (Prog.wp_bind _ _ _).mpr (wp_noteSuccess_answer hanswer fun now => ?_)
            exact plain_exitedProbe _ stderr spawned started _
          · have hne : (returncode == 0) = false := by simpa using hrc
            simp only [Prog.bindPost_ok, hne, Bool.false_eq_true, if_false]
            exact plain_exitedProbe _ stderr spawned started _

theorem plain_freshProbe (hA : StartsWith errs A) (timeout : ℚ) :
    Plain A (FailedWith errs) (freshProbe cfg timeout) :=
  (plain_measureProbe cfg hA timeout).bind fun _ h => (plain_any (by simp)).bind fun _ _ =>
    (plain_any (by simp)).bind fun _ _ => plain_ret h

theorem plain_cachedProbe (hA : StartsWith errs A) (maxAge timeout : ℚ) :
    Plain A (FailedWith errs) (cachedProbe cfg maxAge timeout) := by
  have hcached : Plain A (fun c => ∀ t p, c = some (t, p) → FailedWith errs p) getProbe :=
    plain_op (by simp) fun tr r hr t p hc => hA.cached tr t p (hc ▸ hr)
  refine hcached.bind fun cached hgood => ?_
  rcases cached with - | ⟨measuredAt, probe⟩
  · exact plain_freshProbe cfg hA timeout
  · split_ifs
    · refine (plain_any (by simp)).bind fun now _ => ?_
      split_ifs
      · exact plain_ret (hgood measuredAt probe rfl)
      · exact plain_freshProbe cfg hA timeout
    · exact plain_freshProbe cfg hA timeout

theorem plain_apiServerProbe (hA : StartsWith errs A) (maxAge : ℚ) (timeout : Option ℚ) :
    Plain A (FailedWith errs) (apiServerProbe cfg maxAge timeout) := by
  refine (plain_any (by simp)).bind fun _ _ => Plain.bind (G := FailedWith errs) (fun tr => ?_)
    fun probe h => (plain_any (by simp)).bind fun _ _ => plain_ret h
  rw [Prog.wp_tryCatch]
  refine Prog.wp_mono (recorded_mono A NotesAnswers) ?_ (plain_cachedProbe cfg hA maxAge _ tr)
  rintro (exc | probe) tr' h
  · -- the lock is released, and the same exception is raised again
    rw [Prog.catchPost_error, Prog.wp_bind, wp_releaseProbeLock]
    exact recorded_forall (by simp) fun _ _ => h
  · exact h

theorem plain_settledProbe (hA : StartsWith errs A) :
    Plain A (FailedWith errs) (settledProbe cfg) := by
  refine (plain_apiServerProbe cfg hA _ _).bind fun probe h => ?_
  split_ifs
  · exact plain_ret h
  · exact plain_apiServerProbe cfg hA _ _

theorem plain_localDelay (hA : StartsWith errs A) :
    Plain A (fun _ => True) (localDelay cfg (settledProbe cfg)) := by
  refine (plain_settledProbe cfg hA).bind fun probe _ => ?_
  split_ifs
  · exact plain_ret trivial
  · cases probe.localSeconds with
    | none => exact plain_ret trivial
    | some here =>
        dsimp only
        split_ifs
        · cases probe.roundTrip with
          | none => exact plain_py .assertionError
          | some r => exact plain_ret trivial
        · exact plain_ret trivial

theorem plain_answeredRecently : Plain A (fun _ => True) (answeredRecently cfg) := by
  refine (plain_any (by simp)).bind fun first _ => ?_
  cases first with
  | none => exact plain_ret trivial
  | some t =>
      refine (plain_any (by simp)).bind fun now _ => (plain_any (by simp)).bind fun last _ => ?_
      cases last with
      | none => exact plain_py .typeError
      | some last => exact plain_ret trivial

/-! ### What a killed call cites -/

/-- The thread's last two calls read the clock and then `_last_success`, which held a
time within `RECENT_SUCCESS`. -/
def ReadRecent (tr : List (Event sig)) : Prop :=
  ∃ pre now last, tr = pre ++ [⟨.monotonic, now⟩, ⟨.getLastSuccess, some last⟩] ∧
    now - last ≤ cfg.recentSuccess

theorem wp_answeredRecently (tr : List (Event sig)) :
    (answeredRecently cfg).wp (recorded A NotesAnswers)
      (fun x tr' => Plainly (fun a => a = true → ReadRecent cfg tr') x) tr := by
  rw [answeredRecently, Prog.wp_bind, wp_getLastSuccess]
  refine recorded_forall (by simp) fun first _ => ?_
  cases first with
  | none => exact fun h => by cases h
  | some t =>
      simp only [Prog.bindPost_ok, Prog.wp_bind, wp_monotonic]
      refine recorded_forall (by simp) fun now _ => ?_
      rw [wp_getLastSuccess]
      refine recorded_forall (by simp) fun last _ => ?_
      cases last with
      | none => exact trivial
      | some last =>
          intro h
          refine ⟨tr ++ [⟨.getLastSuccess, some t⟩], now, last, by simp, ?_⟩
          simpa using h

theorem wp_reachabilityEvidence (tr : List (Event sig)) :
    (reachabilityEvidence cfg (settledProbe cfg)).wp (recorded A NotesAnswers)
      (fun x tr' => Plainly (fun a => a = recentEvidence → ReadRecent cfg tr') x) tr := by
  rw [reachabilityEvidence, Prog.wp_bind]
  refine (plain_settledProbe cfg (startsWith_any A)).wp (fun exc tr' h => plainly_error.mpr h) ?_
  intro probe tr' _
  rw [Prog.bindPost_ok]
  split
  · exact fun he => absurd he (by decide)
  · rw [Prog.wp_bind]
    refine Prog.wp_mono (recorded_mono A NotesAnswers) ?_ (wp_answeredRecently cfg tr')
    rintro (exc | answered) tr'' hread
    · exact plainly_error.mpr (plainly_error.mp hread)
    · cases answered with
      | false => exact fun he => absurd he (by decide)
      | true => exact fun _ => hread rfl

theorem busyReport_inj {verb : String} {timeout : ℚ} {e f : String}
    (h : busyReport verb timeout e = busyReport verb timeout f) : e = f := by
  have hmessage := congrArg DeployError.message h
  simp only [busyReport] at hmessage
  rw [String.append_left_inj, String.append_right_inj] at hmessage
  exact hmessage

theorem wp_afterTimeout (verb : String) (args : List String) (timeout : ℚ)
    (tr : List (Event sig)) :
    (afterTimeout cfg (settledProbe cfg) verb args timeout).wp (recorded A NotesAnswers)
      (fun x tr' => x = .error (.deploy (busyReport verb timeout recentEvidence)) →
        ReadRecent cfg tr') tr := by
  have hcls : ∀ {cls : DeployErrorClass} {message : String}, cls ≠ .clusterBusy →
      (.error (.deploy ⟨cls, message⟩) : Except Exc String) ≠
        .error (.deploy (busyReport verb timeout recentEvidence)) := by
    intro cls message hne h
    exact hne (congrArg DeployError.cls (Exc.deploy.inj (Except.error.inj h)))
  have hother : ∀ exc (tr' : List (Event sig)), (∀ e, exc ≠ .deploy e) →
      (.error exc : Except Exc String) = .error (.deploy (busyReport verb timeout recentEvidence)) →
        ReadRecent cfg tr' :=
    fun exc tr' hne he => absurd (Except.error.inj he) (hne _)
  unfold afterTimeout
  split_ifs with hargs
  · rw [Prog.wp_bind]
    refine (plain_settledProbe cfg (startsWith_any A)).wp hother fun probe tr₁ _ => ?_
    rw [Prog.bindPost_ok]
    cases hf : probe.spawnFailure with
    | some failure =>
        -- a failure to start kubectl is this host's, so it is not a busy cluster
        obtain ⟨exc, hexc⟩ := probe.spawnFailure_of failure hf
        refine fun he => absurd he (hcls ?_)
        rcases spawnFailure_cls hexc with h | h <;> rw [h] <;> decide
    | none =>
        rw [Prog.wp_bind]
        refine (plain_localDelay cfg (startsWith_any A)).wp hother fun here tr₂ _ => ?_
        rw [Prog.bindPost_ok]
        split_ifs
        · exact fun he => absurd he (hcls (by decide))
        · rw [Prog.wp_bind]
          refine Prog.wp_mono (recorded_mono A NotesAnswers) ?_ (wp_reachabilityEvidence cfg tr₂)
          rintro (exc | evidence) tr₃ hread
          · exact hother exc tr₃ (plainly_error.mp hread)
          · rw [Prog.bindPost_ok]
            split_ifs
            · intro he
              exact hread (busyReport_inj (Exc.deploy.inj (Except.error.inj he)))
            · exact fun he => absurd he (hcls (by decide))
  · exact fun he => absurd he (hcls (by decide))

/-! ### A call -/

/-- How the first process a thread started ended: for a call, its own. -/
def ownOutcome : List (Event sig) → Option Outcome
  | ⟨.spawn _, _⟩ :: ⟨.finish _ _, outcome⟩ :: _ => some outcome
  | _ => none

@[simp] theorem ownOutcome_started {c c' : List String} {timeout : ℚ} {r : Option OSError}
    {outcome : Outcome} {tr : List (Event sig)} :
    ownOutcome (⟨.spawn c, r⟩ :: ⟨.finish c' timeout, outcome⟩ :: tr) = some outcome := rfl

@[simp] theorem ownOutcome_spawned {c : List String} {r : Option OSError} :
    ownOutcome [⟨.spawn c, r⟩] = none := rfl

/-- The text of a non-zero exit is a failure of this host, not a reply. -/
def HostFault : Outcome → Prop
  | .completed returncode stdout stderr => returncode ≠ 0 ∧
      ((classifyError (complaint stdout stderr)).cls = .hostExhausted ∨
        (classifyError (complaint stdout stderr)).cls = .hostMisconfigured)
  | .timedOut _ | .osError _ => False

/-- The thread's own process, once it has ended, did not end in a failure of this
host. -/
def OwnExitFine (pre : List (Event sig)) (e : Event sig) : Prop :=
  ∀ outcome, ownOutcome (pre ++ [e]) = some outcome → ¬ HostFault outcome

theorem classifyError_replied {message : String}
    (hu : (classifyError message).cls ≠ .clusterUnreachable)
    (hx : (classifyError message).cls ≠ .hostExhausted)
    (hm : (classifyError message).cls ≠ .hostMisconfigured) :
    clusterReplied (classifyError message) = true := by
  have hcls : (classifyError message).cls ≠ .hostOverloaded := by
    unfold classifyError
    dsimp only
    split_ifs <;> simp [fromCrash]
  cases h : (classifyError message).cls <;> simp_all [clusterReplied]

theorem wp_afterOSError {tool : String} {exc : OSError} {tr : List (Event sig)}
    {P : Except Exc String → List (Event sig) → Prop}
    (hown : ∀ e, ownOutcome tr ≠ some (.timedOut e)) :
    (afterOSError tool exc).wp (recorded A NotesAnswers)
      (fun x tr => ∀ e, ownOutcome tr = some (.timedOut e) → P x tr) tr := by
  unfold afterOSError
  cases spawnFailure tool exc with
  | none => exact fun e h => absurd h (hown e)
  | some failure => exact fun e h => absurd h (hown e)

/-- A process that exited is noted if it answered, and is not one that was killed. -/
theorem wp_afterExit {command command' : List String} {timeout : ℚ} {returncode : ℤ}
    {stdout stderr : String} (hown : ¬ HostFault (.completed returncode stdout stderr))
    {P : Except Exc String → List (Event sig) → Prop} :
    (afterExit returncode stdout stderr).wp (recorded A NotesAnswers)
      (fun x tr => ∀ e, ownOutcome tr = some (.timedOut e) → P x tr)
      ([⟨.spawn command, none⟩] ++
        [⟨.finish command' timeout, .completed returncode stdout stderr⟩]) := by
  unfold afterExit
  split_ifs with hrc
  · simp only [HostFault, not_and, not_or] at hown
    have hanswer : (classifyError (complaint stdout stderr)).cls ≠ .clusterUnreachable →
        Answer (.completed returncode stdout stderr) :=
      fun hcls => .inr (classifyError_replied hcls (hown hrc).1 (hown hrc).2)
    generalize classifyError (complaint stdout stderr) = error at hanswer ⊢
    unfold refuse
    split_ifs with hcls
    · rw [Prog.wp_bind]
      refine wp_noteSuccess_answer (hanswer hcls) fun now e h => ?_
      simp at h
    · intro e h
      simp at h
  · have hanswer : Answer (.completed returncode stdout stderr) := .inl (not_not.mp hrc)
    rw [Prog.wp_bind]
    refine wp_noteSuccess_answer hanswer fun now e h => ?_
    simp at h

theorem wp_runBounded (command args : List String) (timeout : ℚ) :
    (runBounded cfg command args timeout).wp (recorded OwnExitFine NotesAnswers)
      (fun x tr => ∀ stderr, ownOutcome tr = some (.timedOut stderr) →
        x = .error (.deploy (busyReport (Str.join " " (command.take 1 ++ args.take 1))
          timeout recentEvidence)) → ReadRecent cfg tr) [] := by
  rw [runBounded, runBoundedWith, Prog.wp_bind, wp_subprocessRun]
  refine recorded_forall (by simp) fun failure _ => ?_
  cases failure with
  | some exc =>
      refine wp_afterOSError ?_
      simp
  | none =>
      intro outcome hfine
      refine ⟨fun t ht => absurd ht (by simp), ?_⟩
      have hown : ¬ HostFault outcome := hfine outcome rfl
      cases outcome with
      | timedOut stderr =>
          refine Prog.wp_mono (recorded_mono OwnExitFine NotesAnswers) ?_
            (wp_afterTimeout cfg _ args timeout _)
          exact fun x tr h _ _ he => h he
      | osError exc =>
          refine wp_afterOSError ?_
          simp
      | completed returncode stdout stderr => exact wp_afterExit hown

end threads

end NfOrchestrator.Deploy
