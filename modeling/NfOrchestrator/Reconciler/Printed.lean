import NfOrchestrator.Reconciler.Absence

/-!
# NfOrchestrator.Reconciler.Printed

**Reconciling from texts.** Where helm and kubectl exit 0 and print what they print
(`printing`), `reconcile` has one result, a function of the texts (`reading`), whatever
the clock and the module's globals hold.
-/

namespace NfOrchestrator.Reconciler

open Deploy

/-! ### The texts -/

/-- What helm and kubectl print about one release. -/
structure Printed where
  /-- Nothing, where helm answers that the release does not exist. -/
  history : Option String
  /-- The values of each revision, as `--revision` names it. -/
  values : String → String
  pods : String

/-- The process exited 0 and printed this. -/
def Prints (outcome : Outcome) (text : String) : Prop :=
  ∃ stderr, outcome = .completed 0 text stderr

def AnswersHistory (outcome : Outcome) : Option String → Prop
  | none => Absent outcome
  | some text => Prints outcome text

variable (cfg : Settings)

def podsCommand (name : String) : List String :=
  ["kubectl", "--context", cfg.kubeContext] ++ podsArgs name

/-- A host on which helm and kubectl print these texts. -/
def printReplies (name : String) (d : Printed) (o : Op) (r : Resp o) : Prop :=
  match o, r with
  | .spawn _, failure => failure = none
  | .finish command _, outcome =>
      (command = "helm" :: historyArgs cfg name → AnswersHistory outcome d.history) ∧
        (∀ revision, command = "helm" :: valuesArgs cfg name revision →
          Prints outcome (d.values revision.pyStr)) ∧
        (command = podsCommand cfg name → Prints outcome d.pods)
  | _, _ => True

abbrev printing (name : String) (d : Printed) : Env sig Unit := replying (printReplies cfg name d)

theorem exists_answersHistory (history : Option String) :
    ∃ outcome, AnswersHistory outcome history := by
  cases history with
  | none => exact ⟨.completed 1 "" "Error: release: not found", by decide, by decide +kernel,
      by decide +kernel⟩
  | some text => exact ⟨.completed 0 text "", "", rfl⟩

theorem printing_total (name : String) (d : Printed) : (printing cfg name d).Total := by
  intro o w
  have r : Resp o := blankReply o
  cases o with
  | spawn command => exact ⟨none, (), rfl⟩
  | finish command timeout =>
      by_cases hhistory : command = "helm" :: historyArgs cfg name
      · obtain ⟨outcome, houtcome⟩ := exists_answersHistory d.history
        refine ⟨outcome, (), fun _ => houtcome, ?_, ?_⟩
        · intro revision hx
          subst hx
          simp [historyArgs, valuesArgs] at hhistory
        · rintro rfl
          simp [historyArgs, podsCommand] at hhistory
      by_cases hvalues : ∃ revision, command = "helm" :: valuesArgs cfg name revision
      · obtain ⟨revision, rfl⟩ := hvalues
        refine ⟨.completed 0 (d.values revision.pyStr) "", (), fun h => absurd h hhistory, ?_, ?_⟩
        · intro revision' h
          have hsame : revision.pyStr = revision'.pyStr := by simpa [valuesArgs] using h
          exact ⟨"", by rw [hsame]⟩
        · intro h
          simp [valuesArgs, podsCommand] at h
      · exact ⟨.completed 0 d.pods "", (), fun h => absurd h hhistory,
          fun revision h => absurd ⟨revision, h⟩ hvalues, fun _ => ⟨"", rfl⟩⟩
  | _ => exact ⟨r, (), trivial⟩

/-! ### What is read from them -/

/-- The desired count, from the values of the deployed revision. -/
def desiredFrom (name : String) (values : String → String) (history : Json) : Except Exc ℤ := do
  let revision ← (deployedRevision history).mapError .py
  if revision = .null then return 0 else readReplicas name (values revision.pyStr)

/-- The pods a caller passed, or else those in the listing. -/
def podsFrom (given : Option (List PodState)) (listing : String) :
    Except PyError (List PodState) :=
  match given with
  | some states => .ok states
  | none => do parsePods (← (← Json.loads listing).subscript "items")

/-- The report made from a history and the other texts. -/
def readingOf (name : String) (d : Printed) (given : Option (List PodState)) (history : Json) :
    Except Exc Report := do
  if !history.truthy then return absent name
  else do
    let helmStatus ← (newestStatus history).mapError .py
    let operation ← (lastOperation history).mapError .py
    let desired ← desiredFrom name d.values history
    let pods ← (podsFrom given d.pods).mapError .py
    (reportOn name history helmStatus operation desired pods).mapError .py

/-- What `reconcile` makes of the texts. -/
def reading (name : String) (d : Printed) (given : Option (List PodState)) : Except Exc Report :=
  match d.history with
  | none => .ok (absent name)
  | some text => do readingOf name d given (← (Json.loads text).mapError .py)

/-- What helm says of a release it does not find is taken for its absence. -/
theorem Absent.taken {returncode : ℤ} {stdout stderr : String}
    (h : Absent (.completed returncode stdout stderr)) :
    takenForAbsent (.deploy (classifyError (complaint stdout stderr))) = true := by
  obtain ⟨-, hsays, hcls⟩ := h
  have hmessage : (classifyError (complaint stdout stderr)).message = complaint stdout stderr :=
    classifyError_message (by rw [clusterReplied, hcls])
  have hwords : Str.contains releaseNotFound releaseAbsent = true := by decide +kernel
  have hnotFound : saysNotFound (complaint stdout stderr) = true :=
    Str.contains_trans hwords hsays
  simp [takenForAbsent, hcls, hmessage, hnotFound]

variable {cfg} {name : String} {d : Printed} {given : Option (List PodState)}

theorem wp_runBounded_prints {command args : List String} {timeout : ℚ} {text : String}
    (hfinish : ∀ r : Outcome, printReplies cfg name d (.finish command timeout) r →
      Prints r text) :
    (runBounded cfg command args timeout).wp (printing cfg name d).spec
      (fun x _ => x = .ok text) () := by
  refine Prog.wp_mono (Env.spec_mono _) ?_ (wp_runBounded_exits cfg (Env.still_unit _)
    (T := fun returncode stdout _ => returncode = 0 ∧ stdout = text) (fun _ _ h => h) ?_)
  · intro x w hx
    obtain ⟨-, returncode, stdout, stderr, ⟨rfl, rfl⟩, rfl⟩ := hx
    rfl
  · intro r w hr
    obtain ⟨stderr, rfl⟩ := hfinish r hr
    exact ⟨0, text, stderr, rfl, rfl, rfl⟩

theorem wp_existingHistory :
    (existingHistory cfg name).wp (printing cfg name d).spec
      (fun x _ => x = match d.history with
        | none => .ok .null
        | some text => (Json.loads text).mapError .py) () := by
  rw [existingHistory_reads]
  cases hhistory : d.history with
  | some text =>
      have hcall : ∀ r : Outcome, printReplies cfg name d (.finish ("helm" :: historyArgs cfg name)
          (timeoutFor cfg (historyArgs cfg name))) r → Prints r text := by
        intro r hr
        have hanswer : AnswersHistory r d.history := hr.1 rfl
        rwa [hhistory] at hanswer
      refine Prog.wp_mono (Env.spec_mono _) ?_ (wp_runBounded_prints hcall)
      intro x w hx
      subst hx
      rfl
  | none =>
      refine Prog.wp_mono (Env.spec_mono _) ?_ (wp_runBounded_exits cfg (Env.still_unit _)
        (T := fun returncode stdout stderr => Absent (.completed returncode stdout stderr))
        (fun _ _ h => h) ?_)
      · intro x w hx
        obtain ⟨-, returncode, stdout, stderr, habsent, rfl⟩ := hx
        rw [exitResult, if_pos habsent.1, readResult_error_null]
        exact habsent.taken
      · intro r w hr
        have hanswer : AnswersHistory r d.history := hr.1 rfl
        rw [hhistory] at hanswer
        cases r with
        | completed returncode stdout stderr => exact ⟨returncode, stdout, stderr, rfl, hanswer⟩
        | timedOut stderr => exact hanswer.elim
        | osError exc => exact hanswer.elim

theorem wp_desiredReplicas (history : Json) :
    (desiredReplicas cfg name history).wp (printing cfg name d).spec
      (fun x _ => x = desiredFrom name d.values history) () := by
  refine Prog.wp_bind_eq (wp_ofPy_eq _) fun revision _ => ?_
  split_ifs with hnull
  · rfl
  · have hvalues : (runHelm cfg (valuesArgs cfg name revision)).wp (printing cfg name d).spec
        (fun x _ => x = .ok (d.values revision.pyStr)) () :=
      wp_runBounded_prints fun r hr => hr.2.1 revision rfl
    exact Prog.wp_bind_eq hvalues fun output _ => (Prog.wp_ofExcept _).mpr rfl

theorem wp_podsOf :
    (podsOf cfg name given).wp (printing cfg name d).spec
      (fun x _ => x = (podsFrom given d.pods).mapError .py) () := by
  cases given with
  | some states => rfl
  | none =>
      change (podStates cfg name).wp (printing cfg name d).spec _ ()
      rw [podStates, Prog.wp_bind, runKubectl]
      refine Prog.wp_mono (Env.spec_mono _) ?_ (wp_runBounded_prints fun r hr => hr.2.2 rfl)
      intro x w h
      subst h
      exact wp_ofPy_eq _

theorem wp_reconcile :
    (reconcile cfg name given).wp (printing cfg name d).spec
      (fun x _ => x = reading name d given) () := by
  have hreport : ∀ history : Json, (if !history.truthy then return absent name
      else do
        let helmStatus ← ofPy (newestStatus history)
        let operation ← ofPy (lastOperation history)
        let desired ← desiredReplicas cfg name history
        let pods ← podsOf cfg name given
        ofPy (reportOn name history helmStatus operation desired pods) : Eff Report).wp
          (printing cfg name d).spec (fun x _ => x = readingOf name d given history) () := by
    intro history
    rw [readingOf]
    split_ifs
    · rfl
    · refine Prog.wp_bind_eq (wp_ofPy_eq _) fun helmStatus _ => ?_
      refine Prog.wp_bind_eq (wp_ofPy_eq _) fun operation _ => ?_
      refine Prog.wp_bind_eq (wp_desiredReplicas history) fun desired _ => ?_
      exact Prog.wp_bind_eq wp_podsOf fun pods _ => wp_ofPy_eq _
  have hbind := Prog.wp_bind_eq wp_existingHistory fun history _ => hreport history
  refine Prog.wp_mono (Env.spec_mono _) ?_ hbind
  intro x w h
  subst h
  rw [reading]
  cases d.history with
  | none => rfl
  | some text => rfl

/-- `reconcile` ends with what it reads, and with nothing else. -/
theorem ends_printing_iff {x : Except Exc Report} :
    (reconcile cfg name given).Ends (printing cfg name d) () x ↔ x = reading name d given :=
  Prog.ends_iff_eq (printing_total cfg name d) wp_reconcile

end NfOrchestrator.Reconciler
