import NfOrchestrator.Api.Threads

/-!
# NfOrchestrator.Api.Serial

**Requests, one after another or all at once.** The server serves any number of requests at
the same time, over one cluster, with the threads their scrapes start beside them. Whatever
the interleaving of their calls, the cluster comes to be what it is by moves made one after
another: each deployment and each deletion starts one helm process and sees it end, and each
status is read at one moment (`requests_serial`).
-/

namespace NfOrchestrator.Api

open Deploy Reconciler

section pool

variable {ι : Type} [DecidableEq ι] {cfg : Settings} {out : Outside} {pages : ℕ}
  {defaults : List (String × Json)} {truthful : Prop} {threads : ι → Thread}
  {stores : String → Store}

/-- The threads of the server at work. -/
abbrev Server (threads : ι → Thread) : Type := Pool sig Exc (fun i => (threads i).Answer) Cluster

/-- Some request deletes the release. -/
def Deleted (threads : ι → Thread) (name : String) : Prop := ∃ i, (threads i).Deletes name

/-- `P` is reached by some interleaving of the calls of these threads, from these stores. -/
abbrev Serves (cfg : Settings) (out : Outside) (pages : ℕ) (defaults : List (String × Json))
    (truthful : Prop) (threads : ι → Thread) (stores : String → Store) (P : Server threads) :
    Prop :=
  Pool.Reachable (serving cfg defaults truthful)
    (Pool.start (fun i => (threads i).prog cfg out pages) (atRest stores)) P

/-- The moves of the server's threads, in this order. -/
abbrev Turns (truthful : Prop) (threads : ι → Thread) (stores : String → Store)
    (P : Server threads) (history : List (ι × Cluster × Cluster)) : Prop :=
  Pool.Linearized (fun i => Acts (threads i).Upgrades (threads i).Deletes)
    (fun i => Does truthful (Deleted threads) (threads i)) (atRest stores) P history

theorem exists_turns {P : Server threads}
    (hr : Serves cfg out pages defaults truthful threads stores P) :
    ∃ history, Turns truthful threads stores P history :=
  Pool.linearize (R := Keeps (Deleted threads)) keeps_refl (fun _ _ _ => Keeps.trans)
    (fun i _ _ h => h.keeps fun _ hi => ⟨i, hi⟩) (fun i => wp_thread (threads i)) hr

/-- Requests served at the same time leave the cluster, and are answered, as by moves made one
after another. -/
theorem requests_serial {P : Server threads}
    (hr : Serves cfg out pages defaults truthful threads stores P) :
    ∃ history, Turns truthful threads stores P history := exists_turns hr

end pool

/-! ### A cluster that answers -/

/-- helm printed this of a release that it installed. -/
def installedText (revision : String) : String :=
  "\x7b\"info\": \x7b\"status\": \"deployed\"\x7d, \"version\": " ++ revision ++ "\x7d"

/-- helm printed this history of one revision. -/
def historyText (status : String) : String :=
  "[\x7b\"revision\": 1, \"status\": \"" ++ status ++ "\"\x7d]"

/-- The store after the second deploy. -/
def deployedTwice : Store where
  records := [⟨⟨1, "superseded", .null⟩, renderValues threeReplicas⟩,
    ⟨⟨2, "deployed", .null⟩, renderValues threeReplicas⟩]
  current := some threeReplicas

def upgradeAmf : List String := "helm" :: deployArgs defaultSettings threeReplicas false

def uninstallAmf : List String := "helm" :: uninstallArgs defaultSettings "amf"

/-- A helm command that changes the cluster. -/
def changes : List String → Bool
  | "helm" :: verb :: _ => decide (verb ∈ writeVerbs)
  | _ => false

/-- What helm and kubectl tell of the release. -/
def told (command : List String) (k : HelmRelease) : Outcome :=
  if command = "helm" :: statusArgs defaultSettings "amf" ∧ k.toStore = deployedOnce then
    .completed 0 (installedText "1") ""
  else if command = "helm" :: historyArgs defaultSettings "amf" ∧ k.toStore = .empty then
    if 0 < k.upgrading then .completed 0 (historyText "pending-install") ""
    else .completed 1 "" "Error: release: not found"
  else if command = "helm" :: historyArgs defaultSettings "amf" ∧ k.toStore = deployedOnce then
    .completed 0 (historyText "deployed") ""
  else if command = "helm" :: valuesArgs defaultSettings "amf" (.int 1) ∧
      k.toStore = deployedOnce then
    .completed 0 "\x7b\"replicaCount\": 3, \"environment\": \"dev\"\x7d" ""
  else if command = podsCommand defaultSettings "amf" then
    .completed 0 "\x7b\"items\": []\x7d" ""
  else .completed 1 "" ""

/-- How an upgrade or an uninstall of the release ends, and what it leaves of it. -/
def ends (command : List String) (s : Store) : Option (Outcome × Store) :=
  if command = upgradeAmf then
    if s = .empty then some (.completed 0 (installedText "1") "", deployedOnce)
    else if s = deployedOnce then some (.completed 0 (installedText "2") "", deployedTwice)
    else none
  else if s = deployedOnce then some (.completed 0 "" "", .empty)
  else none

/-- The answer to each call of the engine, and what is kept of the release then. -/
def keptReply (o : Op) (k : HelmRelease) : Option (Resp o × HelmRelease) :=
  match o with
  | .spawn command =>
      if command = upgradeAmf then some (none, k.upgradeStarted)
      else if command = uninstallAmf then some (none, k.uninstallStarted)
      else if changes command then none
      else some (none, k)
  | .finish command _ =>
      if command = upgradeAmf then
        (ends command k.toStore).map fun x => (x.1, k.upgradeEnded x.2)
      else if command = uninstallAmf then
        (ends command k.toStore).map fun x => (x.1, k.uninstallEnded x.2)
      else if changes command then none
      else some (told command k, k)
  | o => some (blankReply o, k)

/-- The answer to each call of the server's threads. -/
def clusterReply (o : sig.Op) (c : Cluster) : Option (sig.Resp o × Cluster) :=
  match o with
  | .inl (.inl o) => (keptReply o (c "amf")).map fun x => (x.1, Function.update c "amf" x.2)
  | .inl (.inr _) => none
  | .inr _ => some ((), c)

theorem dumps_renderValues_injective {i j : Intent} (hname : releaseName i = releaseName j)
    (h : Json.dumps (renderValues i) = Json.dumps (renderValues j)) : i = j := by
  have hvalues : renderValues i = renderValues j := by
    have hloads := congrArg Json.loads h
    rw [loads_dumps_renderValues, loads_dumps_renderValues] at hloads
    exact Except.ok.inj hloads
  obtain ⟨name, replicas, environment, _, _⟩ := i
  obtain ⟨name', replicas', environment', _, _⟩ := j
  simp only [renderValues, Json.obj.injEq, List.cons.injEq, Prod.mk.injEq, Json.int.injEq,
    Json.str.injEq, true_and, and_true] at hvalues
  obtain ⟨rfl, henvironment⟩ := hvalues
  obtain rfl : environment = environment' := by
    cases environment <;> cases environment' <;>
      first | rfl | exact absurd henvironment (by decide)
  obtain rfl : name = name' := hname
  rfl

/-- There is one intent at most that an operation is for. -/
theorem exists_bears (name : String) (o : Op) : ∃ intent, Bears name intent o := by
  by_cases h : ∃ i command timeout, o = .finish command timeout ∧ releaseName i = name ∧
      upgradeJson name command = some (Json.dumps (renderValues i))
  · obtain ⟨i, command, timeout, rfl, hname, hjson⟩ := h
    refine ⟨some i, fun j command' timeout' ho hname' hjson' => ?_⟩
    cases ho
    rw [hjson] at hjson'
    exact congrArg some (dumps_renderValues_injective (hname.trans hname'.symm)
      (Option.some.inj hjson'))
  · exact ⟨none, fun i command timeout ho hname hjson =>
      absurd ⟨i, command, timeout, ho, hname, hjson⟩ h⟩

/-- A command neither upgrades the release nor uninstalls it. -/
def Spares (name : String) (command : List String) : Prop :=
  isUpgradeOf name command = false ∧ isUninstall name command = false

theorem spares_of_reading {name : String} {command : List String} (h : Reading command) :
    Spares name command := ⟨isUpgradeOf_reading h, isUninstall_of_reading h⟩

theorem working_spared {name : String} {intent : Option Intent} {command : List String}
    {timeout : ℚ} {outcome : Outcome} {s : Store} (h : Spares name command) :
    working name intent (.finish command timeout) s outcome s := by
  have hnone : upgradeJson name command = none := by
    have hupgrade := h.1
    rw [isUpgradeOf] at hupgrade
    simpa using hupgrade
  rw [working, hnone]
  dsimp only
  rw [h.2, if_neg (by simp)]

theorem reading_of_not_changes {command : List String} (h : changes command = false) :
    Reading command := by
  rintro verb hverb args rfl
  rw [changes, decide_eq_true hverb] at h
  cases h

/-- A process of the release starts. -/
theorem helm_spawn {command : List String} {c : Cluster} {k : HelmRelease}
    (hother : ∀ name ≠ "amf", Spares name command) (hstore : k.toStore = (c "amf").toStore)
    (hupgrading : k.upgrading = (c "amf").upgrading +
      started (isUpgradeOf "amf") (.spawn command) none)
    (huninstalling : k.uninstalling = (c "amf").uninstalling +
      started (isUninstall "amf") (.spawn command) none) :
    helm defaultSettings [] True (.spawn command) c none (Function.update c "amf" k) := by
  refine ⟨fun exc h => (by cases h), fun name => ?_⟩
  obtain ⟨intent, hbears⟩ := exists_bears name (.spawn command)
  by_cases hname : name = "amf"
  · subst hname
    rw [Function.update_self]
    exact ⟨⟨intent, hbears, hstore⟩, hupgrading, huninstalling, trivial⟩
  · obtain ⟨hupgrade, huninstall⟩ := hother name hname
    rw [Function.update_of_ne hname]
    refine ⟨⟨intent, hbears, rfl⟩, ?_, ?_, trivial⟩
    · rw [started, hupgrade, if_neg (by simp), add_zero]
    · rw [started, huninstall, if_neg (by simp), add_zero]

/-- A process of the release ends. -/
theorem helm_finish {command : List String} {timeout : ℚ} {returncode : ℤ}
    {stdout stderr : String} {c : Cluster} {k : HelmRelease}
    (hother : ∀ name ≠ "amf", Spares name command)
    (hstore : ∃ intent, Bears "amf" intent (.finish command timeout) ∧
      working "amf" intent (.finish command timeout) (c "amf").toStore
        (.completed returncode stdout stderr) k.toStore)
    (hupgrading : k.upgrading = (c "amf").upgrading + started (isUpgradeOf "amf")
      (.finish command timeout) (.completed returncode stdout stderr))
    (huninstalling : k.uninstalling = (c "amf").uninstalling + started (isUninstall "amf")
      (.finish command timeout) (.completed returncode stdout stderr))
    (htells : ∀ name, Tells defaultSettings [] True name (c name) command
      (.completed returncode stdout stderr)) :
    helm defaultSettings [] True (.finish command timeout) c
      (.completed returncode stdout stderr) (Function.update c "amf" k) := by
  refine ⟨fun exc h => (by cases h), fun name => ?_⟩
  by_cases hname : name = "amf"
  · subst hname
    rw [Function.update_self]
    exact ⟨hstore, hupgrading, huninstalling, htells "amf"⟩
  · have hspares := hother name hname
    obtain ⟨intent, hbears⟩ := exists_bears name (.finish command timeout)
    rw [Function.update_of_ne hname]
    refine ⟨⟨intent, hbears, working_spared hspares⟩, ?_, ?_, htells name⟩
    · rw [started, hspares.1, if_neg (by simp), add_zero]
    · rw [started, hspares.2, if_neg (by simp), add_zero]

/-- A command that only reads, answered for one release. -/
theorem helm_of_reading {command : List String} {timeout : ℚ} {returncode : ℤ}
    {stdout stderr : String} {c : Cluster} (hreading : Reading command)
    (htells : ∀ name, Tells defaultSettings [] True name (c name) command
      (.completed returncode stdout stderr)) :
    helm defaultSettings [] True (.finish command timeout) c
      (.completed returncode stdout stderr) c := by
  obtain ⟨intent, hbears⟩ := exists_bears "amf" (.finish command timeout)
  have hspares : ∀ name, Spares name command := fun _ => spares_of_reading hreading
  have h := @helm_finish command timeout returncode stdout stderr c (c "amf")
    (fun name _ => hspares name) ⟨intent, hbears, working_spared (hspares "amf")⟩
    (by rw [started, (hspares "amf").1, if_neg (by simp), add_zero])
    (by rw [started, (hspares "amf").2, if_neg (by simp), add_zero]) htells
  rwa [Function.update_eq_self] at h

theorem not_saysAbsent {stdout stderr : String} : ¬SaysAbsent (.completed 0 stdout stderr) := by
  rintro ⟨returncode, _, _, ⟨⟩, hrc, -⟩
  exact hrc rfl

/-- A helm that failed without a word tells nothing. -/
theorem tells_failed (name : String) (k : HelmRelease) (command : List String) :
    Tells defaultSettings [] True name k command (.completed 1 "" "") where
  refuses := by
    rintro - - ⟨_, _, _, ⟨⟩, -, h⟩
    exact absurd h (by decide +kernel)
  status := by simp
  history := by simp
  values := by simp
  upgraded := by simp
  uninstalled := by simp

theorem printsInstalled_first : PrintsInstalled (installedText "1") 1 :=
  ⟨.obj [("info", .obj [("status", .str "deployed")]), ("version", .int 1)], _, by decide +kernel,
    rfl, rfl, rfl⟩

theorem printsInstalled_second : PrintsInstalled (installedText "2") 2 :=
  ⟨.obj [("info", .obj [("status", .str "deployed")]), ("version", .int 2)], _, by decide +kernel,
    rfl, rfl, rfl⟩

theorem spares_upgradeAmf {name : String} (h : name ≠ "amf") : Spares name upgradeAmf :=
  ⟨by rw [upgradeAmf, isUpgradeOf_deployArgs]; exact decide_eq_false (Ne.symm h), rfl⟩

theorem spares_uninstallAmf {name : String} (h : name ≠ "amf") : Spares name uninstallAmf :=
  ⟨rfl, by rw [uninstallAmf, isUninstall_uninstallArgs]; exact decide_eq_false (Ne.symm h)⟩

theorem isUpgradeOf_upgradeAmf : isUpgradeOf "amf" upgradeAmf = true := by
  rw [upgradeAmf, isUpgradeOf_deployArgs]
  exact decide_eq_true rfl

/-- The upgrade has ended. -/
theorem helm_upgradeAmf {timeout : ℚ} {c : Cluster} {text : String} {s : Store}
    (hinstalls : (c "amf").Installs (some threeReplicas) (renderValues threeReplicas) s)
    (hprints : PrintsInstalled text (nextRevision (c "amf").records)) :
    helm defaultSettings [] True (.finish upgradeAmf timeout) c (.completed 0 text "")
      (Function.update c "amf" ((c "amf").upgradeEnded s)) := by
  have hjson : upgradeJson (releaseName threeReplicas)
      ("helm" :: deployArgs defaultSettings threeReplicas false) =
        some (Json.dumps (renderValues threeReplicas)) :=
    (upgradeJson_deployArgs _).trans (if_pos rfl)
  refine helm_finish (fun name => spares_upgradeAmf) ⟨some threeReplicas, ?_, ?_⟩ ?_ ?_
    fun name => ?_
  · intro i command timeout' ho hi hi'
    cases ho
    exact congrArg some (dumps_renderValues_injective (i := threeReplicas) hi.symm
      (Option.some.inj (hjson.symm.trans hi')))
  · have hworking : working (releaseName threeReplicas) (some threeReplicas)
        (.finish ("helm" :: deployArgs defaultSettings threeReplicas false) timeout)
        (c "amf").toStore (.completed 0 text "") s := by
      simp only [working, hjson]
      exact ⟨_, loads_dumps_renderValues threeReplicas, hinstalls⟩
    exact hworking
  · rw [started, isUpgradeOf_upgradeAmf, if_pos rfl]
    rfl
  · exact (add_zero _).symm
  · exact
      { refuses := fun _ _ h => absurd h not_saysAbsent
        status := fun h => by simp [upgradeAmf, deployArgs, statusArgs] at h
        history := fun h => by simp [upgradeAmf, deployArgs, historyArgs] at h
        values := fun _ h => by simp [upgradeAmf, deployArgs, valuesArgs] at h
        upgraded := by
          rintro h stdout stderr ⟨⟩
          rw [upgradeAmf, isUpgradeOf_deployArgs] at h
          obtain rfl : "amf" = name := of_decide_eq_true h
          exact hprints
        uninstalled := fun h => by cases h }

/-- The uninstall has ended. -/
theorem helm_uninstallAmf {timeout : ℚ} {c : Cluster} (hthere : (c "amf").records ≠ []) :
    helm defaultSettings [] True (.finish uninstallAmf timeout) c (.completed 0 "" "")
      (Function.update c "amf" ((c "amf").uninstallEnded .empty)) := by
  have hself : isUninstall "amf" uninstallAmf = true := rfl
  obtain ⟨intent, hbears⟩ := exists_bears "amf" (.finish uninstallAmf timeout)
  refine helm_finish (fun name => spares_uninstallAmf) ⟨intent, hbears, rfl⟩ ?_ ?_ fun name => ?_
  · exact (add_zero _).symm
  · rw [started, hself, if_pos rfl]
    rfl
  · exact
      { refuses := fun _ _ h => absurd h not_saysAbsent
        status := fun h => by simp [uninstallAmf, uninstallArgs, statusArgs] at h
        history := fun h => by simp [uninstallAmf, uninstallArgs, historyArgs] at h
        values := fun _ h => by simp [uninstallAmf, uninstallArgs, valuesArgs] at h
        upgraded := fun h => by cases h
        uninstalled := by
          intro h _ _ _
          rw [uninstallAmf, isUninstall_uninstallArgs] at h
          obtain rfl : "amf" = name := of_decide_eq_true h
          exact .inl hthere }

theorem historyArgs_inj {cfg : Settings} {a b : String}
    (h : historyArgs cfg a = historyArgs cfg b) :
    a = b := (List.cons.inj (List.cons.inj h).2).1

theorem valuesArgs_inj {cfg : Settings} {a b : String} {m n : Json}
    (h : valuesArgs cfg a m = valuesArgs cfg b n) : a = b ∧ m.pyStr = n.pyStr := by
  simpa [valuesArgs] using h

theorem statusArgs_inj {cfg : Settings} {a b : String} (h : statusArgs cfg a = statusArgs cfg b) :
    a = b := (List.cons.inj (List.cons.inj h).2).1

/-- helm told the status of a release. -/
theorem tells_status {k : HelmRelease} {text : String} (name : String)
    (hstatus : readStatus text ≠ .ok .null) (hthere : name = "amf" → k.records ≠ []) :
    Tells defaultSettings [] True name k ("helm" :: statusArgs defaultSettings "amf")
      (.completed 0 text "") where
  refuses := fun _ _ h => absurd h not_saysAbsent
  status := by
    rintro h stdout stderr ⟨⟩
    exact ⟨.inl (hthere (statusArgs_inj (List.cons.inj h).2).symm), hstatus⟩
  history := fun h => by simp [historyArgs, statusArgs] at h
  values := fun _ h => by simp [valuesArgs, statusArgs] at h
  upgraded := fun h => by cases h
  uninstalled := fun h => by cases h

/-- helm told the history of one release. -/
theorem tells_history {k : HelmRelease} {outcome : Outcome} (name : String)
    (hrefuses : name = "amf" → SaysAbsent outcome → k.records = [])
    (hhistory : name = "amf" → ∀ stdout stderr, outcome = .completed 0 stdout stderr →
      ∃ entries history, k.Shows entries ∧ Json.loads stdout = .ok history ∧
        ReadsHistory history entries) :
    Tells defaultSettings [] True name k ("helm" :: historyArgs defaultSettings "amf") outcome := by
  have hamf : "helm" :: historyArgs defaultSettings "amf" =
      "helm" :: historyArgs defaultSettings name → name = "amf" :=
    fun h => (historyArgs_inj (List.cons.inj h).2).symm
  exact
    { refuses := by
        rintro - (h | h) habsent
        · simp [historyArgs, statusArgs] at h
        · exact hrefuses (hamf h) habsent
      status := fun h => by simp [historyArgs, statusArgs] at h
      history := fun h => hhistory (hamf h)
      values := fun _ h => by simp [historyArgs, valuesArgs] at h
      upgraded := fun h => by cases h
      uninstalled := fun h => by cases h }

/-- helm told the values of a revision of one release. -/
theorem tells_values {k : HelmRelease} {text : String} {n : ℤ} {document : Json} (name : String)
    (hloads : Json.loads text = .ok document)
    (hvalues : name = "amf" → ∀ r ∈ k.records, OverDefaults [] r.values document) :
    Tells defaultSettings [] True name k ("helm" :: valuesArgs defaultSettings "amf" (.int n))
      (.completed 0 text "") where
  refuses := fun _ _ h => absurd h not_saysAbsent
  status := fun h => by simp [valuesArgs, statusArgs] at h
  history := fun h => by simp [valuesArgs, historyArgs] at h
  values := by
    rintro revision h stdout stderr ⟨⟩ r hr -
    exact ⟨document, hloads, hvalues (valuesArgs_inj (List.cons.inj h).2).1.symm r hr⟩
  upgraded := fun h => by cases h
  uninstalled := fun h => by cases h

/-- kubectl tells nothing of what helm keeps. -/
theorem tells_pods {k : HelmRelease} {text : String} (name : String) :
    Tells defaultSettings [] True name k (podsCommand defaultSettings "amf")
      (.completed 0 text "") where
  refuses := fun _ _ h => absurd h not_saysAbsent
  status := fun h => by simp [podsCommand] at h
  history := fun h => by simp [podsCommand] at h
  values := fun _ h => by simp [podsCommand] at h
  upgraded := fun h => by cases h
  uninstalled := fun h => by cases h

theorem readsHistory_one (status : String) :
    ReadsHistory (.arr [.obj [("revision", .int 1), ("status", .str status)]])
      [⟨1, status, .null⟩] := ⟨_, rfl, .cons ⟨rfl, rfl, rfl⟩ .nil⟩

/-- What is told of the release is so, whatever is kept of the others. -/
theorem helm_told {command : List String} {timeout : ℚ} {c : Cluster}
    (hreading : Reading command) :
    helm defaultSettings [] True (.finish command timeout) c (told command (c "amf")) c := by
  rw [told]
  split_ifs with hstatus hempty hupgrading hhistory hvalues hpods
  · obtain ⟨rfl, honce⟩ := hstatus
    refine helm_of_reading hreading fun name => tells_status name (by decide +kernel) ?_
    rintro rfl hnil
    exact absurd (congrArg Store.records honce) (by rw [hnil]; simp [deployedOnce])
  · obtain ⟨rfl, hempty⟩ := hempty
    refine helm_of_reading hreading fun name =>
      tells_history name (fun _ h => absurd h not_saysAbsent) ?_
    rintro rfl stdout stderr ⟨⟩
    have hrecords : (c "amf").records = [] := congrArg Store.records hempty
    have hlists := @HelmRelease.Lists.upgrading (c "amf") _ "pending-install" .null hupgrading
      (.inl rfl) (by decide)
    rw [hrecords] at hlists
    exact ⟨_, _, ⟨_, hlists, .inl (.refl _)⟩, by decide +kernel, readsHistory_one _⟩
  · obtain ⟨rfl, hempty⟩ := hempty
    refine helm_of_reading hreading fun name => tells_history name ?_ (by simp)
    rintro rfl -
    exact congrArg Store.records hempty
  · obtain ⟨rfl, honce⟩ := hhistory
    refine helm_of_reading hreading fun name =>
      tells_history name (fun _ h => absurd h not_saysAbsent) ?_
    rintro rfl stdout stderr ⟨⟩
    refine ⟨[⟨1, "deployed", .null⟩], _, ⟨_, .kept, .inl ?_⟩, by decide +kernel,
      readsHistory_one _⟩
    rw [show (c "amf").entries = deployedOnce.entries from congrArg Store.entries honce]
    rfl
  · obtain ⟨rfl, honce⟩ := hvalues
    have hloads : Json.loads "\x7b\"replicaCount\": 3, \"environment\": \"dev\"\x7d" =
        .ok (renderValues threeReplicas) := by decide +kernel
    refine helm_of_reading hreading fun name => tells_values name hloads ?_
    rintro rfl r hr
    rw [show (c "amf").records = deployedOnce.records from congrArg Store.records honce] at hr
    obtain rfl := List.mem_singleton.mp hr
    exact ⟨_, _, rfl, rfl, fun key => by simp⟩
  · subst hpods
    exact helm_of_reading hreading fun name => tells_pods name
  · exact helm_of_reading hreading fun name => tells_failed name _ _

theorem helm_blankReply {o : Op} {c : Cluster} (hspawn : ∀ command, o ≠ .spawn command)
    (hfinish : ∀ command timeout, o ≠ .finish command timeout) :
    helm defaultSettings [] True o c (blankReply o) c := by
  have hkept : ∀ name, (∃ intent, Bears name intent o ∧
      working name intent o (c name).toStore (blankReply o) (c name).toStore) ∧
      (c name).upgrading = (c name).upgrading + started (isUpgradeOf name) o (blankReply o) ∧
      (c name).uninstalling = (c name).uninstalling +
        started (isUninstall name) o (blankReply o) := by
    intro name
    obtain ⟨intent, hbears⟩ := exists_bears name o
    cases o with
    | spawn command => exact absurd rfl (hspawn command)
    | finish command timeout => exact absurd rfl (hfinish command timeout)
    | _ => exact ⟨⟨intent, hbears, rfl⟩, (add_zero _).symm, (add_zero _).symm⟩
  cases o with
  | spawn command => exact absurd rfl (hspawn command)
  | finish command timeout => exact absurd rfl (hfinish command timeout)
  | getProbe =>
      exact ⟨fun t p h => (by cases h), fun name =>
        ⟨(hkept name).1, (hkept name).2.1, (hkept name).2.2, trivial⟩⟩
  | _ =>
      exact ⟨trivial, fun name =>
        ⟨(hkept name).1, (hkept name).2.1, (hkept name).2.2, trivial⟩⟩

theorem helm_keptReply {o : Op} {c : Cluster} {x : Resp o × HelmRelease}
    (h : keptReply o (c "amf") = some x) :
    helm defaultSettings [] True o c x.1 (Function.update c "amf" x.2) := by
  cases o with
  | spawn command =>
      simp only [keptReply] at h
      split_ifs at h with hupgrade huninstall hchanges
      · obtain rfl := Option.some.inj h
        subst hupgrade
        refine helm_spawn (fun name => spares_upgradeAmf) rfl ?_ (add_zero _).symm
        rw [started, isUpgradeOf_upgradeAmf, if_pos rfl]
        rfl
      · obtain rfl := Option.some.inj h
        subst huninstall
        exact helm_spawn (fun name => spares_uninstallAmf) rfl (add_zero _).symm rfl
      · obtain rfl := Option.some.inj h
        have hreading := reading_of_not_changes (Bool.eq_false_iff.mpr hchanges)
        refine helm_spawn (fun name _ => spares_of_reading hreading) rfl ?_ ?_
        · rw [started, isUpgradeOf_reading hreading, if_neg (by simp), add_zero]
        · rw [started, isUninstall_of_reading hreading, if_neg (by simp), add_zero]
  | finish command timeout =>
      simp only [keptReply] at h
      split_ifs at h with hupgrade huninstall hchanges
      · subst hupgrade
        obtain ⟨y, hy, rfl⟩ := Option.map_eq_some_iff.mp h
        rw [ends, if_pos rfl] at hy
        split_ifs at hy with hempty honce
        · obtain rfl := Option.some.inj hy
          refine helm_upgradeAmf ⟨.null, ?_⟩ ?_
          · rw [hempty]
            decide +kernel
          · rw [hempty]
            exact printsInstalled_first
        · obtain rfl := Option.some.inj hy
          refine helm_upgradeAmf ⟨.null, ?_⟩ ?_
          · rw [honce]
            decide +kernel
          · rw [honce]
            exact printsInstalled_second
      · subst huninstall
        obtain ⟨y, hy, rfl⟩ := Option.map_eq_some_iff.mp h
        rw [ends, if_neg hupgrade] at hy
        split_ifs at hy with honce
        obtain rfl := Option.some.inj hy
        refine helm_uninstallAmf ?_
        rw [honce]
        exact List.cons_ne_nil _ _
      · obtain rfl := Option.some.inj h
        rw [Function.update_eq_self]
        exact helm_told (reading_of_not_changes (Bool.eq_false_iff.mpr hchanges))
  | _ =>
      obtain rfl := Option.some.inj h
      rw [Function.update_eq_self]
      exact helm_blankReply (by simp) (by simp)

theorem serving_clusterReply (o : sig.Op) (c : Cluster) (x : sig.Resp o × Cluster)
    (h : clusterReply o c = some x) : serving defaultSettings [] True o c x.1 x.2 := by
  rcases o with (o | o) | o
  · obtain ⟨y, hy, rfl⟩ := Option.map_eq_some_iff.mp h
    exact helm_keptReply hy
  · cases h
  · obtain rfl := Option.some.inj h
    rfl

/-- A deployment and a status read at the same time. -/
def twoRequests : Bool → Thread
  | false => .request (.createDeployment threeReplicas)
  | true => .request (.getDeployment "amf")

def inert : Outside := ⟨fun _ => .error "", fun _ => .error (.py .typeError), id⟩

def served {ι : Type} [DecidableEq ι] (threads : ι → Thread) (schedule : List ι) :
    Server threads :=
  Pool.exec clusterReply schedule
    (Pool.start (fun i => (threads i).prog defaultSettings inert 1) (atRest fun _ => .empty))

theorem served_serves {ι : Type} [DecidableEq ι] (threads : ι → Thread) (schedule : List ι) :
    Serves defaultSettings inert 1 [] True threads (fun _ => .empty) (served threads schedule) :=
  Pool.exec_reachable serving_clusterReply schedule _

/-- The status is read while the upgrade is under way. -/
def amid : List Bool :=
  List.replicate 8 false ++ List.replicate 12 true ++ List.replicate 4 false

/-- The status read finds the revision pending that the deployment is making. -/
theorem requests_serial_amid :
    ((served twoRequests amid).thread false).result.isSome = true ∧
    ((served twoRequests amid).thread true).result.isSome = true ∧
    ∃ history, Turns True twoRequests (fun _ => .empty) (served twoRequests amid) history :=
  ⟨by decide +kernel, by decide +kernel, requests_serial (served_serves twoRequests amid)⟩

end NfOrchestrator.Api
