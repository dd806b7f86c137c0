import NfOrchestrator.Reconciler.Commands
import NfOrchestrator.Reconciler.HelmStore
import NfOrchestrator.Reconciler.Verdict

/-!
# NfOrchestrator.Reconciler.Session

**Any sequence of deploys and teardowns** of a release, and the `reconcile` that follows
it. While the orchestrator works, helm changes its store by the command lines it is
given, and may fail or be killed at any of them (`working`); the reconcile reads the
store as it stands (`Store.Tells`). A teardown that says it uninstalled the release leaves
nothing of it (`teardown_empties`).

**Key idea.** The store stays consistent with the intent helm last recorded as deployed,
because the one upgrade a deploy can run carries the values of its own intent
(`carrying_deploy`). What the writer rendered is then what the reader finds.
-/

namespace NfOrchestrator.Reconciler

open Deploy

variable (cfg : Settings) (name : String)

/-! ### Helm at work -/

/-- The JSON that a command line gives `helm upgrade` for this release. -/
def upgradeJson (command : List String) : Option String :=
  match command with
  | "helm" :: "upgrade" :: "--install" :: release :: _ :: "--kube-context" :: _ ::
      "--set-json" :: json :: _ => if release = name then some json else none
  | _ => none

def isUninstall (command : List String) : Bool :=
  match command with
  | "helm" :: "uninstall" :: release :: _ => release == name
  | _ => false

/-- How `helm upgrade --install` leaves the store. Killed, it may have got to the end or
not. -/
def Upgraded (intent : Option Intent) (json : String) (outcome : Outcome) (s s' : Store) : Prop :=
  match outcome with
  | .completed returncode _ _ =>
      if returncode = 0 then ∃ values, Json.loads json = .ok values ∧ s.Installs intent values s'
      else s.Attempts s'
  | .timedOut _ =>
      (∃ values, Json.loads json = .ok values ∧ s.Installs intent values s') ∨ s.Attempts s'
  | .osError _ => s' = s

/-- How `helm uninstall` leaves the store. -/
def Uninstalled (outcome : Outcome) (s s' : Store) : Prop :=
  match outcome with
  | .completed returncode _ _ => if returncode = 0 then s' = .empty else s' = s
  | .timedOut _ => s' = .empty ∨ s' = s
  | .osError _ => s' = s

/-- helm and kubectl while the orchestrator works for `intent`: every process may end in
any way, and only an upgrade or uninstall of this release changes its store. -/
def working (intent : Option Intent) : Env sig Store := fun o s r s' =>
  match o, r with
  | .finish command _, outcome =>
      match upgradeJson name command with
      | some json => Upgraded intent json outcome s s'
      | none => if isUninstall name command then Uninstalled outcome s s' else s' = s
  | _, _ => s' = s

/-- Deploys and teardowns of the release, one after another. -/
inductive Session : Store → Prop
  | start : Session .empty
  | deploy {s s' : Store} {intent : Intent} {forceConflicts : Bool} {x : Except Exc Deployed}
      (h : Session s) (hname : releaseName intent = name)
      (hr : (deploy cfg intent forceConflicts).Runs (working name (some intent)) s x s') :
      Session s'
  | teardown {s s' : Store} {x : Except Exc TornDown} (h : Session s)
      (hr : (teardown cfg name).Runs (working name none) s x s') : Session s'

/-! ### The store stays consistent -/

/-- An upgrade that the command runs carries the values of `intent`. -/
def Carries (intent : Option Intent) (command : List String) : Prop :=
  ∀ json, upgradeJson name command = some json →
    ∃ i, intent = some i ∧ json = Json.dumps (renderValues i)

variable {cfg name} {intent : Option Intent}

theorem carries_probe : Carries name intent (probeCommand cfg) := by
  intro json h
  cases h

theorem carries_version : Carries name intent ["helm", "version", "--short"] := by
  intro json h
  cases h

theorem carrying_deploy (i : Intent) (forceConflicts : Bool) (hname : releaseName i = name) :
    (deploy cfg i forceConflicts).Within (Calls (Carries name (some i)) True) := by
  have hupgrade : Carries name (some i) ("helm" :: deployArgs cfg i forceConflicts) := by
    intro json h
    have hjson : upgradeJson name ("helm" :: deployArgs cfg i forceConflicts) =
        some (Json.dumps (renderValues i)) := if_pos hname
    exact ⟨i, rfl, (Option.some.inj (hjson.symm.trans h)).symm⟩
  exact within_deploy cfg trivial carries_probe carries_version hupgrade

theorem carrying_teardown : (teardown cfg name).Within (Calls (Carries name none) True) := by
  have hstatus : Carries name none ("helm" :: statusArgs cfg name) := by
    intro json h
    cases h
  have huninstall : Carries name none ("helm" :: uninstallArgs cfg name) := by
    intro json h
    cases h
  exact within_teardown cfg carries_probe hstatus huninstall

theorem upgraded_consistent {i : Intent} {outcome : Outcome} {s s' : Store}
    (hs : Upgraded (some i) (Json.dumps (renderValues i)) outcome s s') (h : s.Consistent) :
    s'.Consistent := by
  have hinstalls : (∃ values, Json.loads (Json.dumps (renderValues i)) = .ok values ∧
      s.Installs (some i) values s') → s'.Consistent := by
    intro hx
    obtain ⟨values, hloads, hi⟩ := hx
    rw [loads_dumps_renderValues] at hloads
    obtain rfl := Except.ok.inj hloads
    exact h.installs hi
  cases outcome with
  | completed returncode stdout stderr =>
      rw [Upgraded] at hs
      split_ifs at hs
      · exact hinstalls hs
      · exact h.attempts hs
  | timedOut stderr =>
      rcases hs with hs | hs
      · exact hinstalls hs
      · exact h.attempts hs
  | osError exc =>
      obtain rfl : s' = s := hs
      exact h

theorem uninstalled_consistent {outcome : Outcome} {s s' : Store}
    (hs : Uninstalled outcome s s') (h : s.Consistent) : s'.Consistent := by
  have hends : s' = .empty ∨ s' = s := by
    cases outcome with
    | completed returncode stdout stderr =>
        rw [Uninstalled] at hs
        split_ifs at hs
        · exact .inl hs
        · exact .inr hs
    | timedOut stderr => exact hs
    | osError exc => exact .inr hs
  rcases hends with rfl | rfl
  · exact Store.consistent_empty
  · exact h

/-- What one operation does to the store. -/
theorem working_consistent (o : Op) (s : Store) (r : Resp o) (s' : Store)
    (ho : Finishing (Carries name intent) o) (hstep : working name intent o s r s')
    (h : s.Consistent) : s'.Consistent := by
  cases o with
  | finish command timeout =>
      rw [working] at hstep
      cases hjson : upgradeJson name command with
      | some json =>
          rw [hjson] at hstep
          obtain ⟨i, rfl, rfl⟩ := ho command timeout rfl json hjson
          exact upgraded_consistent hstep h
      | none =>
          rw [hjson] at hstep
          dsimp only at hstep
          split_ifs at hstep
          · exact uninstalled_consistent hstep h
          · exact hstep ▸ h
  | _ =>
      obtain rfl : s' = s := hstep
      exact h

/-- The store is consistent after any sequence of deploys and teardowns. -/
theorem Session.consistent {s : Store} (h : Session cfg name s) : s.Consistent := by
  induction h with
  | start => exact Store.consistent_empty
  | deploy _ hname hr ih =>
      exact ((carrying_deploy _ _ hname).mono fun _ => Calls.finishing).invariant
        working_consistent hr ih
  | teardown _ hr ih =>
      exact (carrying_teardown.mono fun _ => Calls.finishing).invariant working_consistent hr ih

/-! ### A teardown that answers -/

/-- A call that was killed is reported by an exception. -/
theorem wp_afterTimeout_raises {W : Type} {E : Env sig W} {w : W} (settled : Eff Probe)
    (verb : String) (args : List String) (timeout : ℚ) :
    (afterTimeout cfg settled verb args timeout).wp E.spec (fun x _ => ∀ out, x ≠ .ok out) w := by
  unfold afterTimeout
  split_ifs
  · refine Prog.wp_bind_of_forall (by simp) fun probe _ => ?_
    cases probe.spawnFailure with
    | some failure => exact fun out h => by cases h
    | none =>
        refine Prog.wp_bind_of_forall (by simp) fun here _ => ?_
        split_ifs
        · exact fun out h => by cases h
        · refine Prog.wp_bind_of_forall (by simp) fun evidence _ => ?_
          split_ifs
          · exact fun out h => by cases h
          · exact fun out h => by cases h
  · exact fun out h => by cases h

/-- Where `helm uninstall` returns, the release is gone. -/
theorem wp_uninstall_empties (s : Store) :
    (runHelm cfg (uninstallArgs cfg name)).wp (working name none).spec
      (fun x s' => ∀ out, x = .ok out → s' = .empty) s := by
  have hraised : ∀ {e : Exc} {s' : Store} (out : String),
      (.error e : Except Exc String) = .ok out → s' = .empty := fun out h => by cases h
  have hosError : ∀ exc s', (afterOSError "helm" exc).wp (working name none).spec
      (fun x s' => ∀ out, x = .ok out → s' = .empty) s' := by
    intro exc s'
    unfold afterOSError
    cases spawnFailure "helm" exc <;> exact hraised
  rw [runHelm, runBounded, runBoundedWith, Prog.wp_bind, wp_subprocessRun]
  intro failure s₁ _
  cases failure with
  | some exc => exact hosError exc s₁
  | none =>
      intro outcome s₂ hfinish
      have huninstalled : Uninstalled outcome s₁ s₂ := by
        have hname : isUninstall name ("helm" :: uninstallArgs cfg name) = true :=
          beq_self_eq_true _
        have hstep : (if isUninstall name ("helm" :: uninstallArgs cfg name) then
            Uninstalled outcome s₁ s₂ else s₂ = s₁) := hfinish
        rwa [if_pos hname] at hstep
      cases outcome with
      | timedOut stderr =>
          refine Prog.wp_mono (Env.spec_mono _) ?_ (wp_afterTimeout_raises (settledProbe cfg) _ _ _)
          exact fun x s' hx out h => absurd h (hx out)
      | osError exc => exact hosError exc s₂
      | completed returncode stdout stderr =>
          change (afterExit returncode stdout stderr).wp _ _ _
          rw [Uninstalled] at huninstalled
          by_cases hrc : returncode = 0
          · rw [if_pos hrc] at huninstalled
            subst huninstalled
            rw [afterExit, if_neg (not_not.mpr hrc), noteSuccess, Prog.wp_bind, Prog.wp_bind,
              wp_monotonic]
            rintro now _ rfl
            rw [Prog.bindPost_ok, wp_setLastSuccess]
            rintro _ _ rfl
            exact fun _ _ => rfl
          · rw [afterExit, if_pos hrc]
            generalize classifyError (complaint stdout stderr) = error
            unfold refuse
            split_ifs
            · exact Prog.wp_bind_of_forall (by simp) fun _ _ => hraised
            · exact hraised

/-- A teardown that says it uninstalled the release leaves nothing of it. -/
theorem teardown_empties {s s' : Store} {torn : TornDown}
    (hr : (teardown cfg name).Runs (working name none) s (.ok torn) s')
    (h : torn.uninstalled = true) : s' = .empty := by
  refine hr.post (Q := fun x s' => ∀ torn : TornDown, x = .ok torn → torn.uninstalled = true →
    s' = .empty) ?_ torn rfl h
  rw [teardown]
  refine Prog.wp_bind_of_forall (by simp) fun status s₁ => ?_
  split_ifs
  · intro torn htorn huninstalled
    obtain rfl := Except.ok.inj htorn
    cases huninstalled
  · rw [Prog.wp_bind]
    refine Prog.wp_mono (Env.spec_mono _) ?_ (wp_uninstall_empties s₁)
    rintro (e | out) s₂ hempty torn htorn _
    · cases htorn
    · exact hempty out rfl

/-! ### The reconcile that follows -/

/-- The values of a revision, over the chart's defaults. -/
def OverDefaults (defaults : List (String × Json)) (values document : Json) : Prop :=
  ∃ given fields, values = .obj given ∧ document = .obj fields ∧
    ∀ key, fields.lookup key = (given.lookup key <|> defaults.lookup key)

/-- helm prints what the store holds: its history in any order, or that there is no
release, and the values of each revision over the chart's defaults. -/
structure Store.Tells (defaults : List (String × Json)) (s : Store) (d : Printed) : Prop where
  history : ∃ entries, entries.Perm s.entries ∧ SaysHistory d entries
  values : ∀ record ∈ s.records, ∃ document,
    Json.loads (d.values (toString record.revision)) = .ok document ∧
      OverDefaults defaults record.values document

/-- The values a deploy renders give the replicas of its intent, over any defaults. -/
theorem readReplicas_rendered {defaults : List (String × Json)} {i : Intent} {text : String}
    {document : Json} (hloads : Json.loads text = .ok document)
    (hover : OverDefaults defaults (renderValues i) document) (name : String) :
    readReplicas name text = .ok i.replicas := by
  obtain ⟨given, fields, hgiven, rfl, hlookup⟩ := hover
  obtain rfl := Json.obj.inj hgiven
  refine SaysReplicas.readReplicas ⟨_, hloads, ?_⟩ name
  rw [Json.get, Json.getD, hlookup]
  rfl

theorem stateOf_ne_notInstantiated (pods : List Pod) (desired : ℤ) (operation : OperationState)
    (everDeployed : Bool) :
    stateOf pods desired operation everDeployed ≠ .notInstantiated := by
  rw [stateOf]
  split_ifs <;> simp

/-- The report agrees with the store: the desired count is that of the intent helm last
recorded as deployed, and what is said of the operation is said of the newest revision. -/
structure Follows (s : Store) (report : Report) : Prop where
  desired : report.desiredReplicas = (s.current.map Intent.replicas).getD 0
  newest : ∀ r, s.records.getLast? = some r →
    report.helmStatus = .str r.status ∧ report.lastOperation = r.asOperation
  absent : report.state = .notInstantiated ↔ s.records = []

theorem follows_absent {name : String} {s : Store} (hconsistent : s.Consistent)
    (hnil : s.records = []) : Follows s (Reconciler.absent name) := by
  have hcurrent : s.current = none :=
    hconsistent.not_deployed (show [].Perm s.entries by rw [Store.entries, hnil]; rfl) rfl
  refine ⟨by rw [hcurrent]; rfl, ?_, by simp [Reconciler.absent, hnil]⟩
  intro r hr
  rw [hnil] at hr
  cases hr

/-- The values helm prints give the desired count of the store. -/
theorem desiredOf_tells {name : String} {defaults : List (String × Json)} {s : Store} {d : Printed}
    {entries : List Entry} (hconsistent : s.Consistent) (ht : s.Tells defaults d)
    (hperm : entries.Perm s.entries) :
    desiredOf name d.values entries = .ok ((s.current.map Intent.replicas).getD 0) := by
  rw [desiredOf]
  cases hdeployed : lastDeployed entries with
  | none =>
      rw [hconsistent.not_deployed hperm hdeployed]
      rfl
  | some revision =>
      obtain ⟨i, hi, record, hrecord, rfl, hvalues⟩ := hconsistent.lastDeployed hperm hdeployed
      obtain ⟨document, hloads, hover⟩ := ht.values record hrecord
      rw [hvalues] at hover
      dsimp only
      rw [readReplicas_rendered hloads hover name, hi]
      rfl

/-- After any sequence of deploys and teardowns, with any of their outcomes, a reconcile
reports the intent in effect. -/
theorem reconcile_follows (cfg : Settings) (name : String) (defaults : List (String × Json))
    {s : Store} {d : Printed} {given : Option (List PodState)} {pods : List Pod}
    (h : Session cfg name s) (ht : s.Tells defaults d) (hp : ShowsPods d given pods) :
    ∃ report : Report,
      (∀ x, (reconcile cfg name given).Ends (printing cfg name d) () x ↔ x = .ok report) ∧
        Follows s report := by
  have hconsistent := h.consistent
  obtain ⟨entries, hperm, hh⟩ := ht.history
  have hends := fun x => @ends_verdict_iff cfg name _ _ _ _ hh hp x
  by_cases hnil : s.records = []
  · obtain rfl : entries = [] := by
      rw [Store.entries, hnil] at hperm
      exact hperm.eq_nil
    exact ⟨Reconciler.absent name, hends, follows_absent hconsistent hnil⟩
  · obtain ⟨last, hlast⟩ : ∃ last, s.records.getLast? = some last :=
      ⟨_, List.getLast?_eq_some_getLast hnil⟩
    have hverdict : verdict name d.values entries pods = .ok (reported name entries last.toEntry
        pods ((s.current.map Intent.replicas).getD 0)) := by
      rw [verdict, hconsistent.newest hperm hlast, desiredOf_tells hconsistent ht hperm]
      rfl
    rw [hverdict] at hends
    refine ⟨_, hends, rfl, ?_, ?_⟩
    · intro r hr
      obtain rfl := Option.some.inj (hlast.symm.trans hr)
      exact ⟨rfl, rfl⟩
    · exact iff_of_false (stateOf_ne_notInstantiated _ _ _ _) hnil

/-- An intent for three replicas. -/
def threeReplicas : Intent where
  name := "amf"
  replicas := 3
  environment := .dev
  name_ok := by decide +kernel
  replicas_ok := by decide

/-- helm does what the command line says, and succeeds at every upgrade it can parse. -/
def obedient (o : Op) (s : Store) : Resp o × Store :=
  match o with
  | .finish command _ =>
      match upgradeJson "amf" command with
      | some json =>
          match Json.loads json with
          | .ok values =>
              (.completed 0 "" "", ⟨s.records.map Record.supersede ++
                [⟨⟨nextRevision s.records, "deployed", .null⟩, values⟩], some threeReplicas⟩)
          | .error _ => (.completed 1 "" "", s)
      | none => (.completed 1 "" "", s)
  | o => (blankReply o, s)

theorem obedient_working (o : Op) (s : Store) :
    working "amf" (some threeReplicas) o s (obedient o s).1 (obedient o s).2 := by
  cases o with
  | finish command timeout =>
      simp only [working, obedient]
      cases upgradeJson "amf" command with
      | some json =>
          dsimp only
          cases hloads : Json.loads json with
          | ok values => exact ⟨values, hloads, .null, rfl⟩
          | error e => exact .inl rfl
      | none =>
          dsimp only
          split_ifs <;> rfl
  | _ => rfl

/-- The store after the first deploy. -/
def deployedOnce : Store where
  records := [⟨⟨1, "deployed", .null⟩, renderValues threeReplicas⟩]
  current := some threeReplicas

theorem session_deployedOnce : Session {} "amf" deployedOnce := by
  have hr := Prog.runs_run obedient_working (deploy {} threeReplicas false) .empty
  have hstore : ((deploy {} threeReplicas false).run obedient .empty).2 = deployedOnce := by
    decide +kernel
  exact .deploy .start rfl (hstore ▸ hr)

/-- What helm prints about this store. -/
def printedOnce : Printed where
  history := some "[\x7b\"revision\": 1, \"status\": \"deployed\"\x7d]"
  values := fun _ => "\x7b\"replicaCount\": 3, \"environment\": \"dev\"\x7d"
  pods := ""

theorem deployedOnce_tells : deployedOnce.Tells [] printedOnce where
  history := ⟨[⟨1, "deployed", .null⟩], .refl _,
    .arr [.obj [("revision", .int 1), ("status", .str "deployed")]], by decide +kernel,
    _, rfl, .cons ⟨rfl, rfl, rfl⟩ .nil⟩
  values := by
    intro record hrecord
    obtain rfl := List.mem_singleton.mp hrecord
    have hloads : Json.loads "\x7b\"replicaCount\": 3, \"environment\": \"dev\"\x7d" =
        .ok (renderValues threeReplicas) := by decide +kernel
    exact ⟨_, hloads, _, _, rfl, rfl, fun key => by simp⟩

theorem reconcile_follows_deployedOnce :
    ∃ report : Report,
      (reconcile {} "amf" (some (shownPods []))).Ends (printing {} "amf" printedOnce) ()
        (.ok report) ∧ report.desiredReplicas = 3 := by
  obtain ⟨report, hends, hfollows⟩ := reconcile_follows {} "amf" [] session_deployedOnce
    deployedOnce_tells (showsPods_shown printedOnce [])
  exact ⟨report, (hends _).mpr rfl, hfollows.desired⟩

end NfOrchestrator.Reconciler
