import NfOrchestrator.Api.Gate
import NfOrchestrator.Effects.Linear
import NfOrchestrator.Reconciler.Session

/-!
# NfOrchestrator.Api.Cluster

**One cluster for all requests.** helm keeps the revisions of every release, and whatever
thread calls it, it changes them and tells of them by the command lines it is given
(`helm`). A process may end in any way at any time. It changes a release when it ends; until
then helm may list the revision an upgrade is making as pending, and the newest one as being
uninstalled (`HelmRelease.Shows`).
-/

namespace NfOrchestrator.Api

open Deploy Reconciler

/-! ### What helm keeps -/

/-- What helm keeps of a release, and how many of its processes are at work on it. -/
@[ext] structure HelmRelease extends Store where
  /-- The upgrades that were started and have not ended. -/
  upgrading : ℤ
  uninstalling : ℤ

abbrev Cluster := String → HelmRelease

/-- No helm process is at work. -/
def atRest (stores : String → Store) : Cluster := fun name => ⟨stores name, 0, 0⟩

/-- The revisions there are, with the one that an upgrade is making if it is there already. The
upgrade may have failed by now, and superseded the others or not. -/
inductive HelmRelease.Lists (k : HelmRelease) : List Entry → Prop
  | kept : k.Lists k.entries
  | upgrading {records : List Record} {status : String} {description : Json}
      (h : 0 < k.upgrading) (hrecords : records = k.records ∨
        records = k.records.map Record.supersede) (hstatus : status ∈ unfinishedStatuses) :
      k.Lists (records.map Record.toEntry ++ [⟨nextRevision k.records, status, description⟩])

/-- What a history of the release may list, in any order. -/
def HelmRelease.Shows (k : HelmRelease) (entries : List Entry) : Prop :=
  ∃ listed, k.Lists listed ∧ (entries.Perm listed ∨
    0 < k.uninstalling ∧ ∃ older e, listed = older ++ [e] ∧
      entries.Perm (older ++ [{ e with status := "uninstalling" }]))

/-! ### What helm does and tells -/

/-- An upgrade of this release that carries the values of an intent is for this intent. -/
def Bears (name : String) (intent : Option Intent) (o : Op) : Prop :=
  ∀ i command timeout, o = .finish command timeout → releaseName i = name →
    upgradeJson name command = some (Json.dumps (renderValues i)) → intent = some i

/-- By how much a call changes the number of processes at work on such a command. -/
def started (p : List String → Bool) : (o : Op) → Resp o → ℤ
  | .spawn command, none => if p command then 1 else 0
  | .finish command _, _ => if p command then -1 else 0
  | _, _ => 0

def isUpgradeOf (name : String) (command : List String) : Bool := (upgradeJson name command).isSome

/-- helm printed the release it installed, under this revision. -/
def PrintsInstalled (text : String) (revision : ℤ) : Prop :=
  ∃ document info, Json.loads text = .ok document ∧ document.subscript "info" = .ok info ∧
    info.subscript "status" = .ok (.str "deployed") ∧
    document.subscript "version" = .ok (.int revision)

/-- helm failed, with a text that the code takes for the absence of the release. -/
def SaysAbsent (outcome : Outcome) : Prop :=
  ∃ returncode stdout stderr, outcome = .completed returncode stdout stderr ∧ returncode ≠ 0 ∧
    takenForAbsent (.deploy (classifyError (complaint stdout stderr))) = true

variable (cfg : Settings) (defaults : List (String × Json)) (truthful : Prop) (name : String)

/-- What a helm that ended so says of a release. It may fail at anything; if it is truthful, no
failure of it reads as the absence of a release that is there. -/
structure Tells (k : HelmRelease) (command : List String) (outcome : Outcome) : Prop where
  refuses : truthful →
    command = "helm" :: statusArgs cfg name ∨ command = "helm" :: historyArgs cfg name →
      SaysAbsent outcome → k.records = []
  status : command = "helm" :: statusArgs cfg name → ∀ stdout stderr,
    outcome = .completed 0 stdout stderr →
      (k.records ≠ [] ∨ 0 < k.upgrading) ∧ readStatus stdout ≠ .ok .null
  history : command = "helm" :: historyArgs cfg name → ∀ stdout stderr,
    outcome = .completed 0 stdout stderr → ∃ entries history, k.Shows entries ∧
      Json.loads stdout = .ok history ∧ ReadsHistory history entries
  values : ∀ revision : ℤ, command = "helm" :: valuesArgs cfg name (.int revision) →
    ∀ stdout stderr, outcome = .completed 0 stdout stderr →
      ∀ r ∈ k.records, r.revision = revision → ∃ document,
        Json.loads stdout = .ok document ∧ OverDefaults defaults r.values document
  upgraded : isUpgradeOf name command = true → ∀ stdout stderr,
    outcome = .completed 0 stdout stderr → PrintsInstalled stdout (nextRevision k.records)
  uninstalled : isUninstall name command = true → ∀ stdout stderr,
    outcome = .completed 0 stdout stderr → k.records ≠ [] ∨ 0 < k.upgrading

/-- No message made of this error says "not found". -/
def Worded (exc : OSError) : Prop := ∀ tool ∈ tools, takenForAbsent (startResult tool exc) = false

/-- The errors of starting a process, as they come and as a cached probe holds them. -/
def WordedReply (o : Op) (r : Resp o) : Prop :=
  match o, r with
  | .spawn _, failure => ∀ exc, failure = some exc → Worded exc
  | .finish _ _, outcome => ∀ exc, outcome = .osError exc → Worded exc
  | .getProbe, cached => ∀ t p, cached = some (t, p) → FailedWith Worded p
  | _, _ => True

/-- helm and kubectl for all threads. -/
def helm : Env Deploy.sig Cluster := fun o c r c' =>
  WordedReply o r ∧ ∀ name,
    (∃ intent, Bears name intent o ∧
      working name intent o (c name).toStore r (c' name).toStore) ∧
    (c' name).upgrading = (c name).upgrading + started (isUpgradeOf name) o r ∧
    (c' name).uninstalling = (c name).uninstalling + started (isUninstall name) o r ∧
    match o, r with
    | .finish command _, outcome => Tells cfg defaults truthful name (c name) command outcome
    | _, _ => True

variable {cfg defaults truthful name} {c c' : Cluster}

/-! ### What one call does -/

theorem isUpgradeOf_reading {command : List String} (h : Reading command) :
    isUpgradeOf name command = false := by
  unfold isUpgradeOf upgradeJson
  split
  · exact absurd rfl (h "upgrade" (by decide) _)
  · rfl

theorem isUninstall_of_reading {command : List String} (h : Reading command) :
    isUninstall name command = false := by
  unfold isUninstall
  split
  · exact absurd rfl (h "uninstall" (by decide) _)
  · rfl

/-- A call that starts no process and ends none changes no release. -/
theorem still_of_helm {o : Op} {r : Resp o} (hspawn : ∀ command, o ≠ .spawn command)
    (hfinish : ∀ command timeout, o ≠ .finish command timeout)
    (h : helm cfg defaults truthful o c r c') : c' = c := by
  funext name
  obtain ⟨⟨intent, -, hworking⟩, hupgrading, huninstalling, -⟩ := h.2 name
  cases o with
  | spawn command => exact absurd rfl (hspawn command)
  | finish command timeout => exact absurd rfl (hfinish command timeout)
  | _ =>
      exact HelmRelease.ext (congrArg Store.records hworking) (congrArg Store.current hworking)
        (hupgrading.trans (add_zero _)) (huninstalling.trans (add_zero _))

/-- A process that could not be started changes no release. -/
theorem still_of_failed {command : List String} {exc : OSError}
    (h : helm cfg defaults truthful (.spawn command) c (some exc) c') : c' = c := by
  funext name
  obtain ⟨⟨intent, -, hworking⟩, hupgrading, huninstalling, -⟩ := h.2 name
  exact HelmRelease.ext (congrArg Store.records hworking) (congrArg Store.current hworking)
    (hupgrading.trans (add_zero _)) (huninstalling.trans (add_zero _))

/-- A process that neither upgrades a release nor uninstalls it does not change it by starting. -/
theorem same_of_spawned {command : List String} {failure : Option OSError}
    (hupgrade : isUpgradeOf name command = false) (huninstall : isUninstall name command = false)
    (h : helm cfg defaults truthful (.spawn command) c failure c') : c' name = c name := by
  cases failure with
  | some exc => rw [still_of_failed h]
  | none =>
      obtain ⟨⟨intent, -, hworking⟩, hupgrading, huninstalling, -⟩ := h.2 name
      rw [started, hupgrade, if_neg (by simp), add_zero] at hupgrading
      rw [started, huninstall, if_neg (by simp), add_zero] at huninstalling
      exact HelmRelease.ext (congrArg Store.records hworking) (congrArg Store.current hworking)
        hupgrading huninstalling

/-- Nor by ending. -/
theorem same_of_finished {command : List String} {timeout : ℚ} {outcome : Outcome}
    (hupgrade : isUpgradeOf name command = false) (huninstall : isUninstall name command = false)
    (h : helm cfg defaults truthful (.finish command timeout) c outcome c') :
    c' name = c name := by
  obtain ⟨⟨intent, -, hworking⟩, hupgrading, huninstalling, -⟩ := h.2 name
  have hnone : upgradeJson name command = none := by
    rw [isUpgradeOf] at hupgrade
    simpa using hupgrade
  rw [started, hupgrade, if_neg (by simp), add_zero] at hupgrading
  rw [started, huninstall, if_neg (by simp), add_zero] at huninstalling
  rw [working, hnone] at hworking
  dsimp only at hworking
  rw [huninstall, if_neg (by simp)] at hworking
  exact HelmRelease.ext (congrArg Store.records hworking) (congrArg Store.current hworking)
    hupgrading huninstalling

/-- A command that only reads changes no release. -/
theorem still_of_reading {command : List String} {timeout : ℚ} {outcome : Outcome}
    (hreading : Reading command)
    (h : helm cfg defaults truthful (.finish command timeout) c outcome c') : c' = c :=
  funext fun _ =>
    same_of_finished (isUpgradeOf_reading hreading) (isUninstall_of_reading hreading) h

theorem still_of_calls {L : Prop} (o : Op) (c : Cluster) (r : Resp o) (c' : Cluster)
    (ho : Calls Reading L o) (h : helm cfg defaults truthful o c r c') : c' = c := by
  cases o with
  | spawn command =>
      have hreading := ho.1 command (.inl rfl)
      exact funext fun _ =>
        same_of_spawned (isUpgradeOf_reading hreading) (isUninstall_of_reading hreading) h
  | finish command timeout => exact still_of_reading (ho.finishing command timeout rfl) h
  | _ => exact still_of_helm (by simp) (by simp) h


/-! ### The start and the end of an upgrade and of an uninstall -/

def HelmRelease.upgradeStarted (k : HelmRelease) : HelmRelease :=
  { k with upgrading := k.upgrading + 1 }

/-- An upgrade has ended, and left this store. -/
def HelmRelease.upgradeEnded (k : HelmRelease) (s : Store) : HelmRelease :=
  { toStore := s, upgrading := k.upgrading - 1, uninstalling := k.uninstalling }

def HelmRelease.uninstallStarted (k : HelmRelease) : HelmRelease :=
  { k with uninstalling := k.uninstalling + 1 }

/-- An uninstall has ended, and left this store. -/
def HelmRelease.uninstallEnded (k : HelmRelease) (s : Store) : HelmRelease :=
  { toStore := s, upgrading := k.upgrading, uninstalling := k.uninstalling - 1 }

theorem eq_update {k : HelmRelease} (hother : ∀ other ≠ name, c' other = c other)
    (hname : c' name = k) : c' = Function.update c name k := by
  funext other
  by_cases h : other = name
  · subst h
    rw [Function.update_self, hname]
  · rw [Function.update_of_ne h, hother other h]

theorem upgradeJson_deployArgs {intent : Intent} {forceConflicts : Bool} (other : String) :
    upgradeJson other ("helm" :: deployArgs cfg intent forceConflicts) =
      if releaseName intent = other then some (Json.dumps (renderValues intent)) else none := rfl

theorem isUpgradeOf_deployArgs {intent : Intent} {forceConflicts : Bool} (other : String) :
    isUpgradeOf other ("helm" :: deployArgs cfg intent forceConflicts) =
      decide (releaseName intent = other) := by
  rw [isUpgradeOf, upgradeJson_deployArgs]
  by_cases h : releaseName intent = other
  · rw [if_pos h, decide_eq_true h]
    rfl
  · rw [if_neg h, decide_eq_false h]
    rfl

theorem isUninstall_uninstallArgs (other : String) :
    isUninstall other ("helm" :: uninstallArgs cfg name) = decide (name = other) := rfl

theorem upgradeStarted_of_helm {intent : Intent} {forceConflicts : Bool}
    (h : helm cfg defaults truthful (.spawn ("helm" :: deployArgs cfg intent forceConflicts)) c
      none c') :
    c' = Function.update c (releaseName intent) (c (releaseName intent)).upgradeStarted := by
  refine eq_update (fun other hother => same_of_spawned ?_ rfl h) ?_
  · rw [isUpgradeOf_deployArgs, decide_eq_false (Ne.symm hother)]
  · obtain ⟨⟨_, -, hworking⟩, hupgrading, huninstalling, -⟩ := h.2 (releaseName intent)
    rw [started, isUpgradeOf_deployArgs, if_pos (by simp)] at hupgrading
    exact HelmRelease.ext (congrArg Store.records hworking) (congrArg Store.current hworking)
      hupgrading (huninstalling.trans (add_zero _))

theorem upgradeEnded_of_helm {intent : Intent} {forceConflicts : Bool} {timeout : ℚ}
    {outcome : Outcome}
    (h : helm cfg defaults truthful
      (.finish ("helm" :: deployArgs cfg intent forceConflicts) timeout) c outcome c') :
    ∃ s : Store,
      c' = Function.update c (releaseName intent) ((c (releaseName intent)).upgradeEnded s) ∧
      Upgraded (some intent) (Json.dumps (renderValues intent)) outcome
        (c (releaseName intent)).toStore s ∧
      ∀ stdout stderr, outcome = .completed 0 stdout stderr →
        PrintsInstalled stdout (nextRevision (c (releaseName intent)).records) := by
  have hjson : upgradeJson (releaseName intent) ("helm" :: deployArgs cfg intent forceConflicts) =
      some (Json.dumps (renderValues intent)) := (upgradeJson_deployArgs _).trans (if_pos rfl)
  obtain ⟨⟨i, hbears, hworking⟩, hupgrading, huninstalling, htells⟩ := h.2 (releaseName intent)
  obtain rfl := hbears intent _ timeout rfl rfl hjson
  refine ⟨(c' (releaseName intent)).toStore,
    eq_update (fun other hother => same_of_finished ?_ rfl h) ?_, ?_, htells.upgraded ?_⟩
  · rw [isUpgradeOf_deployArgs, decide_eq_false (Ne.symm hother)]
  · rw [started, isUpgradeOf_deployArgs, if_pos (by simp)] at hupgrading
    exact HelmRelease.ext rfl rfl hupgrading (huninstalling.trans (add_zero _))
  · simpa only [working, hjson] using hworking
  · rw [isUpgradeOf_deployArgs, decide_eq_true rfl]

theorem uninstallStarted_of_helm
    (h : helm cfg defaults truthful (.spawn ("helm" :: uninstallArgs cfg name)) c none c') :
    c' = Function.update c name (c name).uninstallStarted := by
  refine eq_update (fun other hother => same_of_spawned rfl ?_ h) ?_
  · rw [isUninstall_uninstallArgs, decide_eq_false (Ne.symm hother)]
  · obtain ⟨⟨_, -, hworking⟩, hupgrading, huninstalling, -⟩ := h.2 name
    rw [started, isUninstall_uninstallArgs, if_pos (by simp)] at huninstalling
    exact HelmRelease.ext (congrArg Store.records hworking) (congrArg Store.current hworking)
      (hupgrading.trans (add_zero _)) huninstalling

theorem uninstallEnded_of_helm {timeout : ℚ} {outcome : Outcome}
    (h : helm cfg defaults truthful (.finish ("helm" :: uninstallArgs cfg name) timeout) c outcome
      c') :
    ∃ s : Store, c' = Function.update c name ((c name).uninstallEnded s) ∧
      Uninstalled outcome (c name).toStore s ∧
      ∀ stdout stderr, outcome = .completed 0 stdout stderr →
        (c name).records ≠ [] ∨ 0 < (c name).upgrading := by
  have hself : isUninstall name ("helm" :: uninstallArgs cfg name) = true := decide_eq_true rfl
  obtain ⟨⟨i, -, hworking⟩, hupgrading, huninstalling, htells⟩ := h.2 name
  refine ⟨(c' name).toStore, eq_update (fun other hother => same_of_finished rfl ?_ h) ?_, ?_,
    htells.uninstalled hself⟩
  · rw [isUninstall_uninstallArgs, decide_eq_false (Ne.symm hother)]
  · rw [started, hself, if_pos rfl] at huninstalling
    exact HelmRelease.ext rfl rfl (hupgrading.trans (add_zero _)) huninstalling
  · have hstep : (if isUninstall name ("helm" :: uninstallArgs cfg name) then
        Uninstalled outcome (c name).toStore (c' name).toStore
        else (c' name).toStore = (c name).toStore) := hworking
    rwa [if_pos hself] at hstep

/-! ### What the others may do meanwhile -/

/-- Every revision is still there, with the values it was made from, and if anything changed
there is a newer one. -/
structure Grows (s s' : Store) : Prop where
  kept : ∀ r ∈ s.records, ∃ r' ∈ s'.records, r'.revision = r.revision ∧ r'.values = r.values
  newer : s' = s ∨ ∃ last ∈ s'.records, ∀ r ∈ s.records, r.revision < last.revision

theorem grows_refl (s : Store) : Grows s s := ⟨fun r hr => ⟨r, hr, rfl, rfl⟩, .inl rfl⟩

theorem Grows.trans {s₁ s₂ s₃ : Store} (h : Grows s₁ s₂) (h' : Grows s₂ s₃) : Grows s₁ s₃ where
  kept := by
    intro r hr
    obtain ⟨r', hr', hrevision, hvalues⟩ := h.kept r hr
    obtain ⟨r'', hr'', hrevision', hvalues'⟩ := h'.kept r' hr'
    exact ⟨r'', hr'', hrevision'.trans hrevision, hvalues'.trans hvalues⟩
  newer := by
    rcases h'.newer with rfl | ⟨last, hlast, hnewer⟩
    · exact h.newer
    · refine .inr ⟨last, hlast, fun r hr => ?_⟩
      obtain ⟨r', hr', hrevision, -⟩ := h.kept r hr
      exact hrevision ▸ hnewer r' hr'

theorem grows_installs {s s' : Store} {intent : Option Intent} {values : Json}
    (h : s.Installs intent values s') : Grows s s' := by
  obtain ⟨description, rfl⟩ := h
  refine ⟨fun r hr => ?_, .inr ⟨_, List.mem_append_right _ (List.mem_singleton_self _),
    fun r => lt_nextRevision⟩⟩
  refine ⟨r.supersede, List.mem_append_left _ (List.mem_map_of_mem hr), r.supersede_revision, ?_⟩
  rw [Record.supersede]
  split_ifs <;> rfl

theorem grows_attempts {s s' : Store} (h : s.Attempts s') : Grows s s' := by
  obtain rfl | ⟨status, -, description, values, rfl⟩ := h
  · exact grows_refl s'
  · refine ⟨fun r hr => ⟨r, List.mem_append_left _ hr, rfl, rfl⟩, .inr ?_⟩
    exact ⟨_, List.mem_append_right _ (List.mem_singleton_self _), fun r => lt_nextRevision⟩

theorem grows_upgraded {intent : Option Intent} {json : String} {outcome : Outcome} {s s' : Store}
    (h : Upgraded intent json outcome s s') : Grows s s' := by
  cases outcome with
  | completed returncode stdout stderr =>
      rw [Upgraded] at h
      split_ifs at h
      · obtain ⟨values, -, hinstalls⟩ := h
        exact grows_installs hinstalls
      · exact grows_attempts h
  | timedOut stderr =>
      rcases h with ⟨values, -, hinstalls⟩ | hattempts
      · exact grows_installs hinstalls
      · exact grows_attempts hattempts
  | osError exc =>
      obtain rfl : s' = s := h
      exact grows_refl s'

/-- helm numbers the next revision above all that were there. -/
theorem Grows.lt_nextRevision {s s' : Store} (h : Grows s s') {r : Record} (hr : r ∈ s.records) :
    r.revision < nextRevision s'.records := by
  obtain ⟨r', hr', hrevision, -⟩ := h.kept r hr
  exact hrevision ▸ Reconciler.lt_nextRevision hr'

/-- What an upgrade does to its release. -/
def Builds (k k' : HelmRelease) : Prop :=
  Grows k.toStore k'.toStore ∧ k'.uninstalling = k.uninstalling

/-- What an uninstall does to its release. -/
def Clears (k k' : HelmRelease) : Prop :=
  k'.upgrading = k.upgrading ∧ ∀ r ∈ k'.records, r ∈ k.records

/-- A change by a thread that upgrades these releases at most, and uninstalls those. -/
def Acts (builds clears : String → Prop) (c c' : Cluster) : Prop :=
  ∀ name, c' name = c name ∨ builds name ∧ Builds (c name) (c' name) ∨
    clears name ∧ Clears (c name) (c' name)

/-- A release that nobody tears down keeps its revisions, and is not being uninstalled unless it
was. -/
structure Keeps (torn : String → Prop) (c c' : Cluster) : Prop where
  grows : ∀ name, ¬torn name → Grows (c name).toStore (c' name).toStore
  uninstalling : ∀ name, ¬torn name → (c' name).uninstalling = (c name).uninstalling

variable {torn builds clears : String → Prop}

theorem acts_refl (c : Cluster) : Acts builds clears c c := fun _ => .inl rfl

theorem keeps_refl (c : Cluster) : Keeps torn c c := ⟨fun _ _ => grows_refl _, fun _ _ => rfl⟩

theorem Keeps.trans {c₁ c₂ c₃ : Cluster} (h : Keeps torn c₁ c₂) (h' : Keeps torn c₂ c₃) :
    Keeps torn c₁ c₃ where
  grows := fun name hname => (h.grows name hname).trans (h'.grows name hname)
  uninstalling := fun name hname => (h'.uninstalling name hname).trans (h.uninstalling name hname)

theorem Acts.keeps (h : Acts builds clears c c') (htorn : ∀ name, clears name → torn name) :
    Keeps torn c c' where
  grows := by
    intro name hname
    rcases h name with hsame | ⟨-, hgrows, -⟩ | ⟨hclears, -⟩
    · rw [hsame]
      exact grows_refl _
    · exact hgrows
    · exact absurd (htorn name hclears) hname
  uninstalling := by
    intro name hname
    rcases h name with hsame | ⟨-, -, huninstalling⟩ | ⟨hclears, -⟩
    · rw [hsame]
    · exact huninstalling
    · exact absurd (htorn name hclears) hname

/-- A change of one release. -/
theorem acts_update {k : HelmRelease}
    (h : builds name ∧ Builds (c name) k ∨ clears name ∧ Clears (c name) k) :
    Acts builds clears c (Function.update c name k) := by
  intro other
  by_cases hother : other = name
  · subst hother
    rw [Function.update_self]
    exact .inr h
  · exact .inl (Function.update_of_ne hother ..)

theorem clears_uninstallEnded {outcome : Outcome} {k : HelmRelease} {s : Store}
    (h : Uninstalled outcome k.toStore s) : Clears k (k.uninstallEnded s) := by
  refine ⟨rfl, fun r hr => ?_⟩
  have hends : s = .empty ∨ s = k.toStore := by
    cases outcome with
    | completed returncode stdout stderr =>
        rw [Uninstalled] at h
        split_ifs at h
        · exact .inl h
        · exact .inr h
    | timedOut stderr => exact h
    | osError exc => exact .inr h
  obtain rfl | rfl := hends
  · cases hr
  · exact hr

end NfOrchestrator.Api
