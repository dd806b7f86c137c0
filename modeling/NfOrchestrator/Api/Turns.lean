import NfOrchestrator.Api.HelmCall

/-!
# NfOrchestrator.Api.Turns

Which **moves** a deployment, a teardown and a status read make. A deployment and a teardown
change the cluster by one helm process each, when it starts and when it ends
(`wp_deploy_atomic`, `wp_teardown_atomic`), and a status read tells of one moment
(`wp_reconcile_atomic`).

For a status read that is the end of `helm history`. It reads the values of a revision later,
in a process of its own, but no deployment changes the values of a revision that is there. A
teardown may, so of a release that is being torn down the desired count is not known.
-/

namespace NfOrchestrator.Api

open Deploy Reconciler

variable {cfg : Settings} {defaults : List (String × Json)} {truthful : Prop} {name : String}
  {c c₀ : Cluster} {builds clears torn : String → Prop} {moves : List (Cluster × Cluster)}

/-! ### A deployment -/

/-- Not one of the failures by which the cluster turns an operation down. -/
def Inconclusive (exc : Exc) : Prop := ∀ e, exc = .deploy e → ¬Refusal e

/-- One upgrade of the release was started and, when it ended, made one store of the other. -/
def Upgrade (name : String) (s s' : Store) (moves : List (Cluster × Cluster)) : Prop :=
  ∃ a c : Cluster, s = (c name).toStore ∧
    moves = [(a, Function.update a name (a name).upgradeStarted),
      (c, Function.update c name ((c name).upgradeEnded s'))]

/-- The moves of a deployment that ended so. One that failed may have left a revision that is
not deployed; where the failure is no refusal, the intent may be in effect all the same. -/
def Deploys (intent : Intent) (x : Except Exc Deployed) (moves : List (Cluster × Cluster)) : Prop :=
  match x with
  | .ok result => ∃ s s', Upgrade (releaseName intent) s s' moves ∧
      s.Installs (some intent) (renderValues intent) s' ∧
      result = { release := releaseName intent, status := .str "deployed",
                 revision := .int (nextRevision s.records), values := renderValues intent }
  | .error exc => moves = [] ∨ ∃ s s', Upgrade (releaseName intent) s s' moves ∧
      (s.Attempts s' ∨ Inconclusive exc ∧ s.Installs (some intent) (renderValues intent) s')

/-- What the upgrade did is what its outcome says. -/
theorem attempts_of_upgraded {intent : Intent} {outcome : Outcome} {exc : Exc} {s s' : Store}
    (hupgraded : Upgraded (some intent) (Json.dumps (renderValues intent)) outcome s s')
    (hreports : Reports outcome (.error exc)) :
    s.Attempts s' ∨ Inconclusive exc ∧ s.Installs (some intent) (renderValues intent) s' := by
  obtain ⟨hcall, hkilled⟩ := hreports
  cases outcome with
  | completed returncode stdout stderr =>
      rw [Upgraded] at hupgraded
      rw [CallResult, exitResult] at hcall
      split_ifs at hcall with hrc
      rw [if_neg hrc] at hupgraded
      exact .inl hupgraded
  | timedOut stderr =>
      rcases hupgraded with ⟨values, hloads, hinstalls⟩ | hattempts
      · rw [loads_dumps_renderValues] at hloads
        obtain rfl := Except.ok.inj hloads
        exact .inr ⟨fun e he => hkilled stderr rfl e (congrArg Except.error he), hinstalls⟩
      · exact .inl hattempts
  | osError exc => exact .inl (.inl hupgraded)

/-- A helm call that returned ended in exit 0. -/
theorem Reports.exited {outcome : Outcome} {output : String} (h : Reports outcome (.ok output)) :
    ∃ stderr, outcome = .completed 0 output stderr := by
  obtain ⟨hcall, -⟩ := h
  cases outcome with
  | completed returncode stdout stderr =>
      rw [CallResult, exitResult] at hcall
      split_ifs at hcall with hrc
      obtain rfl := Except.ok.inj hcall
      exact ⟨stderr, by rw [not_not.mp hrc]⟩
  | timedOut stderr => exact hcall.elim
  | osError exc => cases hcall

/-- A deployment moves when its upgrade starts and when it ends. -/
theorem wp_deploy_atomic (cfg : Settings) (defaults : List (String × Json)) (truthful : Prop)
    (c₀ : Cluster) {intent : Intent} (hbuilds : builds (releaseName intent))
    (forceConflicts : Bool) :
    (deploy cfg intent forceConflicts).wp
      (turning cfg defaults truthful builds clears torn c₀) (Deploys intent) [] := by
  have hchecked : (requireTools cfg).wp (replying WordedReply).spec (fun _ _ => True) () :=
    Prog.wp_iff_runs.mpr fun _ _ _ => trivial
  rw [deploy, Prog.wp_bind]
  refine Prog.wp_mono turning_mono ?_ (wp_reading_atomic
    (within_requireTools (L := True) cfg trivial reading_version) hchecked)
  rintro (exc | ⟨⟩) g ⟨rfl, -⟩
  · exact .inl rfl
  rw [Prog.bindPost_ok, Prog.wp_bind]
  refine wp_runHelm_atomic (show Apart "upgrade" by decide) _ fun a failure a' _ hstart => ?_
  cases failure with
  | some exc =>
      obtain rfl := still_of_failed hstart
      exact ⟨acts_refl a', .inl ⟨rfl, .inl rfl⟩⟩
  | none =>
      -- the start of the upgrade is the first move, its end the second
      obtain rfl := upgradeStarted_of_helm hstart
      refine ⟨acts_update (.inl ⟨hbuilds, grows_refl _, rfl⟩), .inr ?_⟩
      intro c outcome c' _ hend
      obtain ⟨s', rfl, hupgraded, hprints⟩ := upgradeEnded_of_helm hend
      refine ⟨acts_update (.inl ⟨hbuilds, grows_upgraded hupgraded, rfl⟩), .inr ?_⟩
      have hupgrade : ∀ {moves}, moves = _ →
          Upgrade (releaseName intent) (c (releaseName intent)).toStore s' moves :=
        fun h => ⟨a, c, rfl, h⟩
      rintro (exc | output) hreports
      · exact .inr ⟨_, s', hupgrade rfl, attempts_of_upgraded hupgraded hreports⟩
      · obtain ⟨stderr, rfl⟩ := hreports.exited
        obtain ⟨document, info, hloads, hinfo, hstatus, hversion⟩ := hprints output stderr rfl
        obtain ⟨values, hvalues, hinstalls⟩ := hupgraded
        rw [loads_dumps_renderValues] at hvalues
        obtain rfl := Except.ok.inj hvalues
        have hread : ∀ key,
            (do (← Json.loads output).subscript key) = document.subscript key := by
          intro key
          rw [hloads]
          rfl
        simp only [Prog.bindPost_ok, Prog.wp_bind, wp_ofPy, hread, hinfo, hstatus, hversion,
          Except.mapError]
        exact ⟨_, s', hupgrade rfl, hinstalls, rfl⟩

/-! ### A teardown -/

/-- One uninstall of the release was started and, when it ended, left this store. -/
def Uninstall (name : String) (k : HelmRelease) (s' : Store)
    (moves : List (Cluster × Cluster)) : Prop :=
  ∃ a c : Cluster, k = c name ∧
    moves = [(a, Function.update a name (a name).uninstallStarted),
      (c, Function.update c name ((c name).uninstallEnded s'))]

/-- The moves of a teardown that ended so. -/
def TearsDown (truthful : Prop) (name : String) (x : Except Exc TornDown)
    (moves : List (Cluster × Cluster)) : Prop :=
  match x with
  | .ok result =>
      result = { release := name, state := .notInstantiated, uninstalled := false } ∧
          (∃ c : Cluster, moves = [(c, c)] ∧ (truthful → (c name).records = [])) ∨
        result = { release := name, state := .notInstantiated, uninstalled := true } ∧
          ∃ k, Uninstall name k .empty moves ∧ (k.records ≠ [] ∨ 0 < k.upgrading)
  | .error exc => moves = [] ∨ ∃ k s', Uninstall name k s' moves ∧
      (s' = k.toStore ∨ Inconclusive exc ∧ s' = .empty)

theorem empty_of_uninstalled {outcome : Outcome} {exc : Exc} {s s' : Store}
    (huninstalled : Uninstalled outcome s s') (hreports : Reports outcome (.error exc)) :
    s' = s ∨ Inconclusive exc ∧ s' = .empty := by
  obtain ⟨hcall, hkilled⟩ := hreports
  cases outcome with
  | completed returncode stdout stderr =>
      rw [Uninstalled] at huninstalled
      rw [CallResult, exitResult] at hcall
      split_ifs at hcall with hrc
      rw [if_neg hrc] at huninstalled
      exact .inl huninstalled
  | timedOut stderr =>
      rcases huninstalled with hempty | hsame
      · exact .inr ⟨fun e he => hkilled stderr rfl e (congrArg Except.error he), hempty⟩
      · exact .inl hsame
  | osError exc => exact .inl huninstalled

/-- What reads a release makes of a call that failed: the release is absent only if helm said
so. -/
theorem Reports.absent_iff {outcome : Outcome} {exc : Exc} (h : Reports outcome (.error exc))
    (hworded : ∀ e, outcome = .osError e → Worded e) :
    takenForAbsent exc = true ↔ SaysAbsent outcome := by
  obtain ⟨hcall, -⟩ := h
  cases outcome with
  | completed returncode stdout stderr =>
      rw [CallResult, exitResult] at hcall
      split_ifs at hcall with hrc
      obtain rfl := Except.error.inj hcall
      refine ⟨fun habsent => ⟨returncode, stdout, stderr, rfl, hrc, habsent⟩, ?_⟩
      rintro ⟨_, _, _, ⟨⟩, -, habsent⟩
      exact habsent
  | timedOut stderr =>
      have hne := Composed.readResult_ne hcall
        (fun e he => he "kubectl" (by simp [tools])) Json.loads
      refine iff_of_false (fun habsent => hne (readResult_error_null.mpr habsent)) ?_
      rintro ⟨_, _, _, ⟨⟩, -⟩
  | osError e =>
      obtain rfl := Except.error.inj hcall
      refine iff_of_false (by simp [hworded e rfl "helm" (by simp [tools])]) ?_
      rintro ⟨_, _, _, ⟨⟩, -⟩

/-- A teardown moves when its uninstall starts and when it ends, or when helm tells it that the
release is absent. -/
theorem wp_teardown_atomic (cfg : Settings) (defaults : List (String × Json)) (truthful : Prop)
    (c₀ : Cluster) {name : String} (hclears : clears name) :
    (teardown cfg name).wp (turning cfg defaults truthful builds clears torn c₀)
      (TearsDown truthful name) [] := by
  rw [teardown, Prog.wp_bind, helmReleaseStatus, Prog.wp_bind, wp_unlessNotFound]
  refine wp_runHelm_reading (show Apart "status" by decide) (by decide) _ (fun exc hexc => ?_)
    fun c outcome _ hstatus => ?_
  · have hplain := hexc "helm" (by simp [tools])
    rw [unlessAbsent, hplain]
    exact .inl rfl
  have htells := (hstatus.2 name).2.2.2
  by_cases habsent : SaysAbsent outcome
  · -- the release is taken for absent, and this reading is the one move
    refine .inr ?_
    rintro (exc | output) hreports
    · rw [unlessAbsent, (hreports.absent_iff hstatus.1).mpr habsent]
      exact .inl ⟨rfl, c, rfl, fun h => htells.refuses h (.inl rfl) habsent⟩
    · obtain ⟨stderr, rfl⟩ := hreports.exited
      obtain ⟨_, _, _, ⟨⟩, hrc, -⟩ := habsent
      exact absurd rfl hrc
  · -- the release is there, and only its uninstall moves
    refine .inl ?_
    rintro (exc | output) hreports
    · rw [unlessAbsent, Bool.eq_false_iff.mpr (mt (hreports.absent_iff hstatus.1).mp habsent)]
      exact .inl rfl
    · obtain ⟨stderr, rfl⟩ := hreports.exited
      have hnotNull := (htells.status rfl output stderr rfl).2
      rw [unlessAbsent, Prog.bindPost_ok, wp_ofPy]
      cases hread : readStatus output with
      | error e => exact .inl rfl
      | ok status =>
          have hnull : status ≠ .null := fun h => hnotNull (by rw [hread, h])
          rw [Except.mapError, Prog.bindPost_ok, if_neg hnull, Prog.wp_bind]
          refine wp_runHelm_atomic (show Apart "uninstall" by decide) _
            fun a failure a' _ hstart => ?_
          cases failure with
          | some exc =>
              obtain rfl := still_of_failed hstart
              exact ⟨acts_refl a', .inl ⟨rfl, .inl rfl⟩⟩
          | none =>
              obtain rfl := uninstallStarted_of_helm hstart
              refine ⟨acts_update (.inr ⟨hclears, rfl, fun _ hr => hr⟩), .inr ?_⟩
              intro c₁ outcome c₂ _ hend
              obtain ⟨s', rfl, huninstalled, hthere⟩ := uninstallEnded_of_helm hend
              refine ⟨acts_update (.inr ⟨hclears, clears_uninstallEnded huninstalled⟩), .inr ?_⟩
              rintro (exc | printed) hreports
              · exact .inr ⟨_, s', ⟨a, c₁, rfl, rfl⟩, empty_of_uninstalled huninstalled hreports⟩
              · obtain ⟨stderr', rfl⟩ := hreports.exited
                obtain rfl : s' = .empty := huninstalled
                exact .inr ⟨rfl, _, ⟨a, c₁, rfl, rfl⟩, hthere printed stderr' rfl⟩

/-! ### A status read -/

/-- So many replicas are wanted by the values of this revision; none by no revision. -/
def Wanted (k : HelmRelease) (n : ℤ) : Option ℤ → Prop
  | none => n = 0
  | some revision => ∀ r ∈ k.records, r.revision = revision →
      ∀ i, r.values = renderValues i → n = i.replicas

/-- The report is the one on a release of which helm shows these revisions, `e` the newest: of
some pods, those that were given if any were, with the state that the rules derive of them.
Unless the release is being torn down, it asks for the replicas of the last revision shown as
deployed. -/
structure Describes (torn : Prop) (name : String) (given : Option (List PodState)) (k : HelmRelease)
    (entries : List Entry) (e : Entry) (report : Report) : Prop where
  shown : k.Shows entries
  newest : newest entries = some e
  release : report.release = name
  helmStatus : report.helmStatus = .str e.status
  lastOperation : report.lastOperation = e.asOperation
  desired : ¬torn → Wanted k report.desiredReplicas (lastDeployed entries)
  pods : ∀ states, given = some states → report.pods = states
  ready : report.readyReplicas = report.pods.countP PodState.ready
  state : deriveState report.helmStatus report.pods report.desiredReplicas e.operation
    (lastDeployed entries).isSome = .ok report.state

/-- The report is true of what helm keeps of the release. -/
def TrueOf (truthful torn : Prop) (name : String) (given : Option (List PodState)) (k : HelmRelease)
    (report : Report) : Prop :=
  report = absent name ∧ (truthful → k.records = []) ∨
    ∃ entries e, Describes torn name given k entries e report

/-- A status read that returned a report moved once, and the report was true then. -/
def ReadsStatus (truthful torn : Prop) (name : String) (given : Option (List PodState))
    (x : Except Exc Report) (moves : List (Cluster × Cluster)) : Prop :=
  ∀ report, x = .ok report →
    ∃ c : Cluster, moves = [(c, c)] ∧ TrueOf truthful torn name given (c name) report

/-- Where a history lists nothing, helm keeps nothing. -/
theorem HelmRelease.Shows.nil {k : HelmRelease} (h : k.Shows []) : k.records = [] := by
  obtain ⟨listed, hlists, hperm | ⟨-, older, e, -, hperm⟩⟩ := h
  · have hnil := hperm.symm.eq_nil
    cases hlists with
    | kept => exact List.map_eq_nil_iff.mp hnil
    | upgrading => simp at hnil
  · exact absurd hperm.symm.eq_nil (by simp)

/-- helm prints the values of a revision that is still there as they were. -/
theorem replicas_of_values {timeout : ℚ} {output stderr : String} {i : Intent} {r : Record}
    {w w' : Cluster} (hkeeps : Keeps torn c w) (hname : ¬torn name) (hr : r ∈ (c name).records)
    (hvalues : r.values = renderValues i)
    (hE : helm cfg defaults truthful
      (.finish ("helm" :: valuesArgs cfg name (.int r.revision)) timeout) w
        (.completed 0 output stderr) w') :
    readReplicas name output = .ok i.replicas := by
  obtain ⟨r', hr', hrevision, hsame⟩ := (hkeeps.grows name hname).kept r hr
  obtain ⟨document, hloads, hover⟩ :=
    (hE.2 name).2.2.2.values r.revision rfl output stderr rfl r' hr' hrevision
  rw [hsame, hvalues] at hover
  exact readReplicas_rendered hloads hover name

/-- The desired count that a status read finds is that of the last revision deployed when it
read the history. -/
theorem wp_desiredReplicas_atomic {history : Json} {entries : List Entry}
    (hreads : ReadsHistory history entries) :
    (desiredReplicas cfg name history).wp (turning cfg defaults truthful builds clears torn c₀)
      (fun x g => g = [(c, c)] ∧ ∀ n, x = .ok n → ¬torn name →
        Wanted (c name) n (lastDeployed entries)) [(c, c)] := by
  rw [desiredReplicas, Prog.wp_bind, wp_ofPy, deployedRevision_reads hreads]
  cases lastDeployed entries with
  | none => exact ⟨rfl, fun n hn _ => (Except.ok.inj hn).symm⟩
  | some revision =>
      rw [Except.mapError, revisionOrNull, Prog.bindPost_ok, if_neg (by simp), Prog.wp_bind]
      refine wp_runHelm_reading (show Apart "get" by decide) (by decide) _
        (fun exc _ => ⟨rfl, by simp⟩) fun w outcome hkeeps hE => .inl ?_
      rintro (exc | output) hreports
      · exact ⟨rfl, by simp⟩
      · obtain ⟨stderr, rfl⟩ := hreports.exited
        rw [Prog.bindPost_ok, Prog.wp_ofExcept]
        refine ⟨rfl, fun n hn hname r hr hrevision i hvalues => ?_⟩
        subst hrevision
        rw [replicas_of_values hkeeps hname hr hvalues hE] at hn
        exact (Except.ok.inj hn).symm

/-- What a status read goes on to read of a release that has a history. -/
theorem wp_reportOn_atomic {given : Option (List PodState)} {history : Json}
    {entries : List Entry} {e : Entry} (hshows : (c name).Shows entries)
    (hreads : ReadsHistory history entries) (hnewest : newest entries = some e) :
    (do
      let helmStatus ← ofPy (newestStatus history)
      let operation ← ofPy (lastOperation history)
      let desired ← desiredReplicas cfg name history
      let pods ← podsOf cfg name given
      ofPy (reportOn name history helmStatus operation desired pods) : Eff Report).wp
      (turning cfg defaults truthful builds clears torn c₀)
      (ReadsStatus truthful (torn name) name given) [(c, c)] := by
  have hpods : (podsOf cfg name given).wp (turning cfg defaults truthful builds clears torn c₀)
      (fun x g => g = [(c, c)] ∧ ∀ pods, x = .ok pods → ∀ states, given = some states →
        pods = states) [(c, c)] := by
    cases given with
    | none =>
        have hwithin : (podsOf cfg name none).Within (Calls Reading True) :=
          (within_runKubectl cfg reading_probe (reading_kubectl _)).bind fun _ => within_ofPy _
        refine Prog.wp_mono turning_mono ?_ (wp_reading_atomic hwithin (X := fun _ => True)
          (Prog.wp_iff_runs.mpr fun _ _ _ => trivial))
        exact fun x g h => ⟨h.1, by simp⟩
    | some states => exact ⟨rfl, by simp⟩
  rw [Prog.wp_bind, wp_ofPy, newestStatus_reads hreads hnewest, Except.mapError, Prog.bindPost_ok,
    Prog.wp_bind, wp_ofPy, lastOperation_reads hreads hnewest, Except.mapError, Prog.bindPost_ok,
    Prog.wp_bind]
  refine Prog.wp_mono turning_mono ?_ (wp_desiredReplicas_atomic hreads)
  rintro (exc | desired) g ⟨rfl, hdesired⟩
  · exact fun report hreport => by cases hreport
  rw [Prog.bindPost_ok, Prog.wp_bind]
  refine Prog.wp_mono turning_mono ?_ hpods
  rintro (exc | pods) g ⟨rfl, hgiven⟩
  · exact fun report hreport => by cases hreport
  rw [Prog.bindPost_ok, wp_ofPy]
  intro report hreport
  refine ⟨c, rfl, .inr ⟨entries, e, ?_⟩⟩
  rw [reportOn, everDeployed_reads hreads] at hreport
  cases hstate : deriveState (.str e.status) pods desired e.operation
      (lastDeployed entries).isSome with
  | error exc =>
      simp only [bind, Except.bind, hstate] at hreport
      cases hreport
  | ok state =>
      simp only [bind, Except.bind, hstate, Except.mapError] at hreport
      obtain rfl := Except.ok.inj hreport
      exact ⟨hshows, hnewest, rfl, rfl, rfl, hdesired desired rfl, hgiven pods rfl, rfl, hstate⟩

/-- A status read moves where it reads the history. -/
theorem wp_reconcile_atomic (cfg : Settings) (defaults : List (String × Json)) (truthful : Prop)
    (builds clears torn : String → Prop) (c₀ : Cluster) (name : String)
    (given : Option (List PodState)) :
    (reconcile cfg name given).wp (turning cfg defaults truthful builds clears torn c₀)
      (ReadsStatus truthful (torn name) name given) [] := by
  have hfailed : ∀ exc moves,
      ReadsStatus truthful (torn name) name given (.error exc) moves :=
    fun exc moves report hreport => by cases hreport
  rw [reconcile, Prog.wp_bind, existingHistory, Prog.wp_bind, wp_unlessNotFound, releaseHistory,
    Prog.wp_bind]
  refine wp_runHelm_reading (show Apart "history" by decide) (by decide) _ (fun exc hexc => ?_)
    fun c outcome _ hE => .inr ?_
  · rw [Prog.bindPost_error, unlessAbsent, hexc "helm" (by simp [tools])]
    exact hfailed _ _
  have htells := (hE.2 name).2.2.2
  rintro (exc | output) hreports
  · rw [Prog.bindPost_error, unlessAbsent]
    split_ifs with htaken
    · intro report hreport
      obtain rfl := Except.ok.inj hreport
      exact ⟨c, rfl, .inl ⟨rfl, fun h =>
        htells.refuses h (.inr rfl) ((hreports.absent_iff hE.1).mp htaken)⟩⟩
    · exact hfailed _ _
  · obtain ⟨stderr, rfl⟩ := hreports.exited
    obtain ⟨entries, history, hshows, hloads, hreads⟩ := htells.history rfl output stderr rfl
    rw [Prog.bindPost_ok, wp_ofPy, hloads, Except.mapError, unlessAbsent, Prog.bindPost_ok,
      Prog.pure_def, Option.getD_some, Prog.wp_ret, Prog.bindPost_ok, hreads.truthy]
    cases hnewest : newest entries with
    | none =>
        -- an empty history is read as an absent release
        obtain rfl : entries = [] := List.argmax_eq_none.mp hnewest
        intro report hreport
        obtain rfl := Except.ok.inj hreport
        exact ⟨c, rfl, .inl ⟨rfl, fun _ => hshows.nil⟩⟩
    | some e =>
        rw [if_neg (by simpa using ne_nil_of_newest hnewest)]
        exact wp_reportOn_atomic hshows hreads hnewest

end NfOrchestrator.Api
