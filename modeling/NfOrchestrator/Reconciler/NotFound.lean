import NfOrchestrator.Deploy.Measured
import NfOrchestrator.Deploy.Noting
import NfOrchestrator.Deploy.Verdicts
import NfOrchestrator.Reconciler.Reconcile

/-!
# NfOrchestrator.Reconciler.NotFound

Which ends of a **helm call** leave a text that says "not found". The text of a process
that exited, or could not be started, is in its outcome. The text of a call that was
killed is composed by `afterTimeout`, from words and numbers none of which has the
letter `f` (`Apart`), so it says "not found" only in the text of a failure to start
kubectl (`Composed`).
-/

namespace NfOrchestrator.Reconciler

open Deploy

variable (cfg : Settings)

/-! ### What a text says -/

/-- Does the text say "not found", in either case? -/
def saysNotFound (message : String) : Bool := Str.contains releaseNotFound (Str.lower message)

/-- No character of the text lowercases to `f`. -/
def Apart (s : String) : Prop := ∀ d ∈ s.toList, Str.LowersApart 'f' d

instance (s : String) : Decidable (Apart s) :=
  List.decidableBAll _ s.toList

theorem Apart.saysNotFound {s : String} (h : Apart s) : saysNotFound s = false :=
  Str.not_contains_lower (c := 'f') (by decide) h

theorem Apart.append {s t : String} (hs : Apart s) (ht : Apart t) : Apart (s ++ t) := by
  intro d hd
  rw [String.toList_append, List.mem_append] at hd
  rcases hd with hd | hd
  · exact hs d hd
  · exact ht d hd

theorem apart_numerals {cs : List Char} (h : Str.Numerals cs) : Apart (String.ofList cs) := by
  intro d hd
  rw [String.toList_ofList] at hd
  exact .of_numeral (h d hd) (by decide)

theorem apart_fixed (places : ℕ) (q : ℚ) : Apart (Str.fixed places q) :=
  apart_numerals (Str.numerals_fixed places q)

theorem apart_general (q : ℚ) : Apart (Str.general q) := apart_numerals (Str.numerals_general q)

theorem apart_noAnswer {verb : String} (hverb : Apart verb) (timeout : ℚ) :
    Apart (noAnswer verb timeout) :=
  ((hverb.append (by decide +kernel)).append (apart_general timeout)).append (by decide +kernel)

theorem apart_busyReport {verb : String} (hverb : Apart verb) (timeout : ℚ) {evidence : String}
    (he : Apart evidence) : Apart (busyReport verb timeout evidence).message :=
  (((apart_noAnswer hverb timeout).append (by decide +kernel)).append he).append
    (by decide +kernel)

/-- What a killed call is named by. -/
theorem apart_commandName {verb : String} (hverb : Apart verb) :
    Apart (Str.join " " (["helm"] ++ [verb])) := by
  have hname : Str.join " " (["helm"] ++ [verb]) = "helm" ++ " " ++ verb := rfl
  rw [hname]
  exact Apart.append (by decide +kernel) hverb

/-! ### A call that was killed -/

section killed

variable {A : List (Event sig) → Event sig → Prop} {errs : OSError → Prop}

theorem plain_localDelay_apart (hA : StartsWith errs A) :
    Plain A Apart (localDelay cfg (settledProbe cfg)) := by
  refine (plain_settledProbe cfg hA).bind fun probe _ => ?_
  split_ifs
  · exact plain_ret (((by decide +kernel : Apart _).append (apart_fixed 2 _)).append
      (by decide +kernel))
  · cases probe.localSeconds with
    | none => exact plain_ret (by decide +kernel)
    | some here =>
        dsimp only
        split_ifs
        · cases probe.roundTrip with
          | none => exact plain_py .assertionError
          | some r =>
              exact plain_ret (((((by decide +kernel : Apart _).append (apart_fixed 0 _)).append
                (by decide +kernel)).append (apart_fixed 2 _)).append (by decide +kernel))
        · exact plain_ret (by decide +kernel)

theorem plain_reachabilityEvidence_apart (hA : StartsWith errs A) :
    Plain A Apart (reachabilityEvidence cfg (settledProbe cfg)) := by
  refine (plain_settledProbe cfg hA).bind fun probe _ => ?_
  split_ifs
  · exact plain_ret (by decide +kernel)
  · refine (plain_answeredRecently cfg).bind fun answered _ => ?_
    split_ifs
    · exact plain_ret (by decide +kernel)
    · exact plain_ret (by decide +kernel)

/-- What a killed call is reported as: it says "not found" only in the text of a failure
to start kubectl. -/
def Composed (errs : OSError → Prop) : Except Exc String → Prop
  | .ok _ => False
  | .error (.deploy e) =>
      saysNotFound e.message = false ∨ ∃ exc, errs exc ∧ spawnFailure "kubectl" exc = some e
  | .error (.os _) | .error (.py _) => True

theorem composed_other {exc : Exc} (h : ∀ e, exc ≠ .deploy e) :
    Composed errs (.error exc) := by
  rcases exc with e | e | e
  · exact absurd rfl (h e)
  · trivial
  · trivial

theorem wp_afterTimeout_composed (hA : StartsWith errs A) {verb : String} (hverb : Apart verb)
    (args : List String) (timeout : ℚ) (tr : List (Event sig)) :
    (afterTimeout cfg (settledProbe cfg) verb args timeout).wp (recorded A NotesAnswers)
      (fun x _ => Composed errs x) tr := by
  have hother : ∀ exc (_ : List (Event sig)), (∀ e, exc ≠ .deploy e) →
      Composed errs (.error exc : Except Exc String) := fun exc _ h => composed_other h
  have hsilent : Composed errs
      (.error (.deploy ⟨.clusterUnreachable, noAnswer verb timeout⟩)) :=
    .inl (apart_noAnswer hverb timeout).saysNotFound
  unfold afterTimeout
  split_ifs with hargs
  · rw [Prog.wp_bind]
    refine (plain_settledProbe cfg hA).wp hother fun probe tr₁ hfailed => ?_
    rw [Prog.bindPost_ok]
    cases hf : probe.spawnFailure with
    | some failure => exact .inr (hfailed failure hf)
    | none =>
        rw [Prog.wp_bind]
        refine (plain_localDelay_apart cfg hA).wp hother fun here tr₂ hhere => ?_
        rw [Prog.bindPost_ok]
        split_ifs
        · exact .inl (((apart_noAnswer hverb timeout).append (by decide +kernel)).append
            hhere).saysNotFound
        · rw [Prog.wp_bind]
          refine (plain_reachabilityEvidence_apart cfg hA).wp hother fun evidence tr₃ he => ?_
          rw [Prog.bindPost_ok]
          split_ifs
          · exact .inl (apart_busyReport hverb timeout he).saysNotFound
          · exact hsilent
  · exact hsilent

end killed

/-! ### The helm call -/

/-- The exception starting the process raises, when it ends that way. -/
def startFailure : Outcome → Option OSError
  | .osError exc => some exc
  | .completed _ _ _ | .timedOut _ => none

/-- A host on which `helm <verb>` ends in `own`, and kubectl fails to start only with
the errors `errs` allows. -/
def helmReplies (verb : String) (errs : OSError → Prop) (own : Outcome) (o : Op) (r : Resp o) :
    Prop :=
  match o, r with
  | .spawn command, failure =>
      (command.take 2 = ["helm", verb] → failure = startFailure own) ∧
        (command.head? = some "kubectl" → ∀ exc, failure = some exc → errs exc)
  | .finish command _, outcome =>
      (command.take 2 = ["helm", verb] → outcome = own) ∧
        (command.head? = some "kubectl" → ∀ exc, outcome = .osError exc → errs exc)
  | .getProbe, cached => ∀ t p, cached = some (t, p) → FailedWith errs p
  | _, _ => True

abbrev helmHost (verb : String) (errs : OSError → Prop) (own : Outcome) : Env sig Unit :=
  replying (helmReplies verb errs own)

theorem startsWith_helmReplies (verb : String) (errs : OSError → Prop) (own : Outcome) :
    StartsWith errs (fun _ e => helmReplies verb errs own e.op e.resp) :=
  ⟨fun _ _ exc h => h.2 rfl exc rfl, fun _ _ _ exc h => h.2 rfl exc rfl,
    fun _ t p h => h t p rfl⟩

/-- What a process that exited is reported as. -/
def exitResult (returncode : ℤ) (stdout stderr : String) : Except Exc String :=
  if returncode ≠ 0 then .error (.deploy (classifyError (complaint stdout stderr))) else .ok stdout

/-- What a process that could not be started is reported as. -/
def startResult (tool : String) (exc : OSError) : Exc :=
  match spawnFailure tool exc with
  | none => .os exc
  | some failure => .deploy failure

/-- What a call is reported as, for each way its own process can end. -/
def CallResult (errs : OSError → Prop) (own : Outcome) (x : Except Exc String) : Prop :=
  match own with
  | .completed returncode stdout stderr => x = exitResult returncode stdout stderr
  | .osError exc => x = .error (startResult "helm" exc)
  | .timedOut _ => Composed errs x

section ends

variable {W : Type} {E : Env sig W} {w : W}

theorem wp_afterOSError (tool : String) (exc : OSError) :
    (afterOSError tool exc).wp E.spec
      (fun x w' => w' = w ∧ x = .error (startResult tool exc)) w := by
  unfold afterOSError startResult
  cases spawnFailure tool exc with
  | none => exact ⟨rfl, rfl⟩
  | some failure => exact ⟨rfl, rfl⟩

theorem wp_refuse (hE : E.Still w) (error : DeployError) :
    (refuse error).wp E.spec (fun x w' => w' = w ∧ x = .error (.deploy error)) w := by
  unfold refuse
  split_ifs
  · rw [Prog.wp_bind]
    exact wp_noteSuccess_still hE ⟨rfl, rfl⟩
  · exact ⟨rfl, rfl⟩

theorem wp_afterExit (hE : E.Still w) (returncode : ℤ) (stdout stderr : String) :
    (afterExit returncode stdout stderr).wp E.spec
      (fun x w' => w' = w ∧ x = exitResult returncode stdout stderr) w := by
  by_cases hrc : returncode ≠ 0
  · rw [afterExit, if_pos hrc, exitResult, if_pos hrc]
    generalize classifyError (complaint stdout stderr) = error
    exact wp_refuse hE error
  · rw [afterExit, if_neg hrc, exitResult, if_neg hrc, Prog.wp_bind]
    exact wp_noteSuccess_still hE ⟨rfl, rfl⟩

/-- A command that is started and exits is reported by its exit alone. -/
theorem wp_runBounded_exits (hE : E.Still w) {command args : List String} {timeout : ℚ}
    {T : ℤ → String → String → Prop}
    (hspawn : ∀ r w', E (.spawn command) w r w' → r = none)
    (hfinish : ∀ r w', E (.finish command timeout) w r w' →
      ∃ returncode stdout stderr, r = .completed returncode stdout stderr ∧
        T returncode stdout stderr) :
    (runBounded cfg command args timeout).wp E.spec
      (fun x w' => w' = w ∧ ∃ returncode stdout stderr, T returncode stdout stderr ∧
        x = exitResult returncode stdout stderr) w := by
  rw [runBounded, runBoundedWith, Prog.wp_bind, wp_subprocessRun, Env.spec_apply]
  intro failure w₁ hs
  obtain rfl := hE _ _ _ hs
  obtain rfl := hspawn _ _ hs
  intro outcome w₂ hf
  obtain rfl := hE _ _ _ hf
  obtain ⟨returncode, stdout, stderr, rfl, hT⟩ := hfinish _ _ hf
  rw [Prog.bindPost_ok]
  refine Prog.wp_mono E.spec_mono ?_ (wp_afterExit hE returncode stdout stderr)
  intro x w' h
  obtain ⟨rfl, rfl⟩ := h
  exact ⟨rfl, returncode, stdout, stderr, hT, rfl⟩

end ends

theorem wp_runHelm {verb : String} (hverb : Apart verb) (rest : List String)
    (errs : OSError → Prop) (own : Outcome) :
    (runHelm cfg (verb :: rest)).wp (helmHost verb errs own).spec
      (fun x _ => CallResult errs own x) () := by
  rw [runHelm, runBounded, runBoundedWith, Prog.wp_bind, wp_subprocessRun, Env.spec_apply]
  rintro failure ⟨⟩ hspawn
  obtain rfl : failure = startFailure own := hspawn.1 rfl
  cases own with
  | osError exc =>
      exact Prog.wp_mono (Env.spec_mono _) (fun x _ hx => hx.2) (wp_afterOSError "helm" exc)
  | completed returncode stdout stderr =>
      rintro outcome ⟨⟩ hfinish
      obtain rfl : outcome = .completed returncode stdout stderr := hfinish.1 rfl
      exact Prog.wp_mono (Env.spec_mono _) (fun x _ hx => hx.2)
        (wp_afterExit (Env.still_unit _) returncode stdout stderr)
  | timedOut stderr =>
      rintro outcome ⟨⟩ hfinish
      obtain rfl : outcome = .timedOut stderr := hfinish.1 rfl
      exact wp_replying (wp_afterTimeout_composed cfg (startsWith_helmReplies verb errs _)
        (apart_commandName hverb) (verb :: rest) _ [])

end NfOrchestrator.Reconciler
