import NfOrchestrator.Deploy.Measured
import NfOrchestrator.Deploy.Verdicts

/-!
# NfOrchestrator.Deploy.Routes

The readiness check and a killed call **compared on the same probe**: when they reach
the same conclusion (`routes_agree_iff`), and when neither calls a server unreachable
whose answer kubectl had logged (`logged_answer_not_unreachable_iff`).
-/

namespace NfOrchestrator.Deploy

variable {cfg : Settings} {last : Option ℚ} {now : ℚ}

/-! ### The two routes together -/

/-- `check_cluster`, measuring `p` on a host whose tools are in order, can end with
`x`. -/
def CheckEnds (cfg : Settings) (p : Probe) (x : Except Exc String) : Prop :=
  (checkClusterWith cfg (pure p)).Ends toolsInOrder () x

/-- `run_bounded`, killed for silence with `p` as the settled probe, can end with `x`. -/
def CallEnds (cfg : Settings) (last : Option ℚ) (now : ℚ) (command args : List String)
    (timeout : ℚ) (p : Probe) (x : Except Exc String) : Prop :=
  (runBoundedWith cfg (pure p) command args timeout).Ends (killed last now) () x

theorem checkEnds_iff {p : Probe} {x : Except Exc String} :
    CheckEnds cfg p x ↔ x = checkVerdict cfg p :=
  Prog.ends_iff_eq toolsInOrder_total (wp_checkCluster_inOrder cfg p)

theorem callEnds_iff {command args : List String} (hargs : args ≠ readyz) {timeout : ℚ}
    {p : Probe} {x : Except Exc String} :
    CallEnds cfg last now command args timeout p x ↔
      x = callVerdict cfg last now p (Str.join " " (command.take 1 ++ args.take 1)) timeout :=
  Prog.ends_iff_eq (killed_total last now) (wp_runBounded_killed p command hargs timeout)

/-- The readiness check (`x`) and a killed call (`y`) agree about one probe. -/
def SameConclusion (p : Probe) (x y : Except Exc String) : Prop :=
  if p.answered then
    x = .ok "ok" ∧
      (raisedClass y = some .hostOverloaded ∨ raisedClass y = some .clusterBusy)
  else (raisedClass x).isSome ∧ raisedClass y = raisedClass x

/-- kubectl exited non-zero with a text of its own that is not about an unreachable
cluster. -/
def OtherError (p : Probe) : Prop :=
  p.error ≠ "" ∧ (classifyError p.error).cls ≠ .clusterUnreachable

theorem sameConclusion_answered {p : Probe} {verb : String} {timeout : ℚ}
    (hf : p.spawnFailure = none) (hs : p.started = true) (ha : p.answered = true) :
    SameConclusion p (checkVerdict cfg p) (callVerdict cfg last now p verb timeout) ↔
      ¬ UntimedAnswer cfg p := by
  have hcheck : checkVerdict cfg p = .ok "ok" := by rw [checkVerdict, if_pos ha]
  rw [SameConclusion, if_pos ha, hcheck, eq_self, true_and]
  by_cases hu : UntimedAnswer cfg p
  · simp [callVerdict_untimed hf hs ha hu, raisedClass, hu]
  · exact iff_of_true (callVerdict_answered hf hs ha hu) hu

/-- Without an answer the routes agree, unless kubectl exited with an error text that
is not about an unreachable cluster: the readiness check classifies the text, and the
killed call does not look at it. -/
theorem sameConclusion_unanswered {outcome : Outcome} {p : Probe} {verb : String} {timeout : ℚ}
    (hm : Measured outcome p) (ha : p.answered = false) (hlast : recent cfg last now = false) :
    SameConclusion p (checkVerdict cfg p) (callVerdict cfg last now p verb timeout) ↔
      ¬ OtherError p := by
  rw [SameConclusion, ha, if_neg Bool.false_ne_true]
  cases hf : p.spawnFailure with
  | some failure =>
      have herr : p.error = "" := hm.not_started (hm.spawn_failed hf)
      simp [checkVerdict, callVerdict, ha, hf, raisedClass, OtherError, herr]
  | none =>
      cases hs : p.started with
      | false =>
          have herr : p.error = "" := hm.not_started hs
          rw [callVerdict_not_started hf hs]
          simp [checkVerdict, ha, hf, hs, herr, raisedClass, OtherError]
      | true =>
          rw [callVerdict_silent hf hs ha, hlast, if_neg Bool.false_ne_true]
          by_cases herr : p.error = ""
          · simp [checkVerdict, ha, hf, hs, herr, raisedClass, OtherError]
          · simp [checkVerdict, ha, hf, herr, raisedClass, OtherError, eq_comm]

/-- What kubectl says when its readiness check was answered with 429. -/
def throttledLog : String := "Error from server (TooManyRequests): too many requests"

def throttledProbe : Probe :=
  { answered := false, seconds := 3 / 10, roundTrip := none, error := throttledLog }

theorem throttledProbe_produced :
    Produces ({} : Settings) (.completed 1 "" throttledLog) throttledProbe := by
  have hr : roundTrip throttledLog = .ok none := by decide +kernel
  have hp : throttledProbe =
      { answered := (1 : ℤ) == 0, seconds := 3 / 10, roundTrip := none,
        startup := startupFrom ⟨12, 0, 0⟩ throttledLog,
        error := if (1 : ℤ) == 0 then "" else errorText throttledLog } := by decide +kernel
  rw [hp]
  exact produces_exited {} hr ⟨12, 0, 0⟩ (3 / 10)

/-- The routes agree about exactly these probes: an answered one whose timing
`localDelay` can report, and an unanswered one without an error text of its own, or
with one about an unreachable cluster. -/
theorem routes_agree_iff {outcome : Outcome} {p : Probe} (hp : Produces cfg outcome p)
    {command args : List String} (hargs : args ≠ readyz) {timeout : ℚ}
    (hlast : recent cfg last now = false) :
    (∀ x y, CheckEnds cfg p x → CallEnds cfg last now command args timeout p y →
        SameConclusion p x y) ↔
      if p.answered then ¬ UntimedAnswer cfg p else ¬ OtherError p := by
  simp only [checkEnds_iff, callEnds_iff hargs, forall_eq_apply_imp_iff, forall_eq]
  cases ha : p.answered with
  | true => exact sameConclusion_answered (hp.measured.answered ha).2 (hp.measured.answered ha).1 ha
  | false => exact sameConclusion_unanswered hp.measured ha hlast

/-- About the throttled probe they agree exactly if its text were not a 429. -/
theorem routes_agree_iff_throttled :
    (∀ x y, CheckEnds {} throttledProbe x →
        CallEnds {} none 0 ["helm", "list"] ["list"] 3 throttledProbe y →
        SameConclusion throttledProbe x y) ↔
      if throttledProbe.answered then ¬ UntimedAnswer {} throttledProbe
      else ¬ OtherError throttledProbe :=
  routes_agree_iff throttledProbe_produced (by decide) rfl

/-- The readiness check reads the 429; the killed call calls the cluster unreachable. -/
theorem routes_disagree_throttled :
    Produces ({} : Settings) (.completed 1 "" throttledLog) throttledProbe ∧
      recent {} none 0 = false ∧
      ∃ x y, CheckEnds {} throttledProbe x ∧
        CallEnds {} none 0 ["helm", "list"] ["list"] 3 throttledProbe y ∧
        raisedClass x = some .clusterBusy ∧ raisedClass y = some .clusterUnreachable ∧
        ¬ SameConclusion throttledProbe x y := by
  have hx : raisedClass (checkVerdict {} throttledProbe) = some .clusterBusy := by decide +kernel
  have hy : raisedClass (callVerdict {} none 0 throttledProbe "helm list" 3) =
      some .clusterUnreachable := callVerdict_silent rfl rfl rfl
  refine ⟨throttledProbe_produced, rfl, _, _, checkEnds_iff.mpr rfl,
    (callEnds_iff (by decide)).mpr rfl, hx, hy, ?_⟩
  intro h
  obtain ⟨-, hsame⟩ := h
  rw [hx, show Str.join " " (["helm", "list"].take 1 ++ ["list"].take 1) = "helm list" by rfl,
    hy] at hsame
  cases hsame

/-! ### A server whose answer was logged -/

/-- What the process had written to stderr. -/
def Outcome.log : Outcome → String
  | .completed _ _ stderr => stderr
  | .timedOut stderr => stderr.getD ""
  | .osError _ => ""

/-- The log has a line on which client-go logs a `/readyz` response with a status. -/
def ResponseLogged (log : String) : Prop :=
  ∃ pre url status ms post : List Char,
    log.toList = pre ++ ("\"Response\" verb=\"GET\" url=\"".toList ++ (url ++
      ("/readyz\" status=\"".toList ++ (status ++ ("\" milliseconds=".toList ++ (ms ++ post)))))) ∧
    (∀ c ∈ url, notQuote c = true) ∧ (∀ c ∈ status, notQuote c = true) ∧ status ≠ [] ∧
    ms ≠ [] ∧ ∀ c ∈ ms, Unicode.isDecimal c = true

theorem ResponseLogged.search {log : String} (h : ResponseLogged log) :
    (roundTripPattern.search log).isSome = true := by
  obtain ⟨pre, url, status, ms, post, hlog, hurl, hstatus, -, hms, hdigits⟩ := h
  obtain ⟨d, ds, rfl⟩ := List.exists_cons_of_ne_nil hms
  have hd : Unicode.isDecimal d = true := hdigits d (by simp)
  have hds : ∀ c ∈ ds, Unicode.isDecimal c = true := fun c hc => hdigits c (by simp [hc])
  rw [Regex.search, hlog]
  exact Regex.searchFrom_isSome <|
    .seq (Regex.match_lit _ _ _ _) <| .seq (Regex.match_star_char hurl _ _ _) <|
      .seq (Regex.match_lit _ _ _ _) <| .seq (Regex.match_star_char hstatus _ _ _) <|
        .seq (Regex.match_lit _ _ _ _) (.group (Regex.match_plus_char hd hds _ _ _))

theorem ResponseLogged.roundTrip_isSome {log : String} (h : ResponseLogged log) {r : Option ℚ}
    (hr : roundTrip log = .ok r) : r.isSome = true := by
  obtain ⟨m, hm⟩ := Option.isSome_iff_exists.mp h.search
  rw [roundTrip, hm] at hr
  cases hn : groupInt? m 1 with
  | error e => simp [hn, bind, Except.bind] at hr
  | ok n =>
      simp only [hn, bind, Except.bind] at hr
      split_ifs at hr
      rw [← Except.ok.inj hr]
      rfl

/-- A log with a response line is not blank. -/
theorem ResponseLogged.strip_ne {log : String} (h : ResponseLogged log) : Str.strip log ≠ "" := by
  obtain ⟨pre, url, status, ms, post, hlog, -⟩ := h
  have hquote : '"' ∈ log.toList := by simp [hlog]
  exact Str.strip_ne_of_mem hquote (by decide)

/-- kubectl exited zero, or exited with a text of its own that is not about an
unreachable cluster just after another call was answered. -/
def AnswerHeard (cfg : Settings) (last : Option ℚ) (now : ℚ) : Outcome → Prop
  | .completed returncode _ log =>
      returncode = 0 ∨ (errorText log ≠ "" ∧
        (classifyError (errorText log)).cls ≠ .clusterUnreachable ∧ recent cfg last now = true)
  | .timedOut _ | .osError _ => False

/-- What client-go logs of a `/readyz` answered with 200. -/
def answeredLog : String :=
  "\"Response\" verb=\"GET\" url=\"/readyz\" status=\"200 OK\" milliseconds=31"

/-- The probe of a kubectl killed just after it logged that answer. -/
def answeredProbe : Probe :=
  { answered := false, seconds := 3, roundTrip := some (31 / 1000) }

theorem answeredProbe_produced :
    Produces ({} : Settings) (.timedOut (some answeredLog)) answeredProbe := by
  have hr : roundTrip answeredLog = .ok (some (31 / 1000)) := by decide +kernel
  have hp : answeredProbe =
      { answered := false, seconds := 3, roundTrip := some (31 / 1000),
        started := Str.strip answeredLog != "",
        startup := startupFrom ⟨12, 0, 0⟩ answeredLog } := by decide +kernel
  rw [hp]
  exact produces_killed {} hr ⟨12, 0, 0⟩ 3

theorem answeredLog_logged : ResponseLogged answeredLog :=
  ⟨[], [], "200 OK".toList, "31".toList, [], by decide +kernel, by simp,
    List.all_eq_true.mp (by decide +kernel), by decide +kernel, by decide +kernel,
    List.all_eq_true.mp (by decide +kernel)⟩

/-- After a logged answer, neither route says unreachable, exactly if kubectl lived to say
what it was told. -/
theorem logged_answer_not_unreachable_iff {outcome : Outcome} {p : Probe}
    (hp : Produces cfg outcome p) (hlog : ResponseLogged outcome.log) {command args : List String}
    (hargs : args ≠ readyz) {timeout : ℚ} :
    ((∀ x, CheckEnds cfg p x → raisedClass x ≠ some .clusterUnreachable) ∧
        ∀ y, CallEnds cfg last now command args timeout p y →
          raisedClass y ≠ some .clusterUnreachable) ↔
      AnswerHeard cfg last now outcome := by
  simp only [checkEnds_iff, callEnds_iff hargs, forall_eq]
  have hm := hp.measured
  cases outcome with
  | osError exc =>
      obtain ⟨pre, url, status, ms, post, hnil, -⟩ := hlog
      simp [Outcome.log] at hnil
  | timedOut stderr =>
      obtain ⟨ha, hr, hs, herr, hf⟩ := hm
      have hstarted : p.started = true := by
        rw [hs]
        exact bne_iff_ne.mpr hlog.strip_ne
      simp [checkVerdict, ha, hf, herr, hstarted, raisedClass, AnswerHeard]
  | completed returncode stdout log =>
      obtain ⟨ha, hr, hs, herr, hf⟩ := hm
      have hsome : p.roundTrip.isSome = true := hlog.roundTrip_isSome hr
      by_cases hrc : returncode = 0
      · have hanswered : p.answered = true := by simp [ha, hrc]
        have hu : ¬ UntimedAnswer cfg p := fun hu => by simp [hu.1] at hsome
        have hcheck : checkVerdict cfg p = .ok "ok" := by rw [checkVerdict, if_pos hanswered]
        refine iff_of_true ⟨by simp [hcheck, raisedClass], ?_⟩ (.inl hrc)
        exact callVerdict_answered_ne hf hs hanswered hu
      · have hsilent : p.answered = false := by simp [ha, hrc]
        -- kubectl exited with an error, whose text both routes classify if there is one
        have htext : p.error = errorText log := by simp [herr, hrc]
        rw [callVerdict_silent hf hs hsilent]
        by_cases hblank : errorText log = ""
        · simp [checkVerdict, hsilent, hf, htext, hs, hblank, raisedClass, AnswerHeard, hrc]
        · have hcheck : checkVerdict cfg p = .error (.deploy (classifyError (errorText log))) := by
            simp [checkVerdict, hsilent, hf, htext, hblank]
          rw [hcheck]
          cases hrecent : recent cfg last now <;>
            simp [raisedClass, AnswerHeard, hrc, hblank, hrecent]

theorem logged_answer_not_unreachable_iff_killed :
    ((∀ x, CheckEnds {} answeredProbe x → raisedClass x ≠ some .clusterUnreachable) ∧
        ∀ y, CallEnds {} none 0 ["helm", "list"] ["list"] 3 answeredProbe y →
          raisedClass y ≠ some .clusterUnreachable) ↔
      AnswerHeard {} none 0 (.timedOut (some answeredLog)) :=
  logged_answer_not_unreachable_iff answeredProbe_produced answeredLog_logged (by decide)

/-- Killed after the answer was logged and before kubectl could exit: both routes call
the cluster unreachable. -/
theorem logged_answer_unreachable :
    ResponseLogged answeredLog ∧
      Produces ({} : Settings) (.timedOut (some answeredLog)) answeredProbe ∧
      (∃ x, CheckEnds {} answeredProbe x ∧ raisedClass x = some .clusterUnreachable) ∧
      ∃ y, CallEnds {} none 0 ["helm", "list"] ["list"] 3 answeredProbe y ∧
        raisedClass y = some .clusterUnreachable :=
  ⟨answeredLog_logged, answeredProbe_produced, ⟨_, checkEnds_iff.mpr rfl, rfl⟩,
    ⟨_, (callEnds_iff (by decide)).mpr rfl, callVerdict_silent rfl rfl rfl⟩⟩

end NfOrchestrator.Deploy

