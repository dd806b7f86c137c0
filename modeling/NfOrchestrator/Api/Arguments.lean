import NfOrchestrator.Api.Gate
import NfOrchestrator.Text.Options

/-!
# NfOrchestrator.Api.Arguments

**What a caller can put on a command line.** The name in an intent starts with a letter or a
digit. The name in a path is any text, and the two routes that hand it to helm pass it where
helm reads options (`arguments_kept_iff`).
-/

namespace NfOrchestrator.Api

open Deploy Reconciler Metrics Options

/-! ### Command lines -/

/-- An argument and where it comes from. -/
inductive Arg where
  /-- Written in the code. -/
  | code (text : String)
  /-- A setting, or something that helm answered. -/
  | found (text : String)
  /-- Made of what the caller sent. -/
  | caller (text : String)
  deriving DecidableEq

def Arg.text : Arg → String
  | .code text | .found text | .caller text => text

variable (cfg : Settings)

def probeLine : List Arg :=
  [.code "kubectl", .code "--context", .found cfg.kubeContext] ++ Deploy.readyz.map .code ++
    [.code probeVerbosity]

def versionLine : List Arg := [.code "helm", .code "version", .code "--short"]

def listLine (page offset : ℕ) : List Arg :=
  [.code "helm", .code "list", .code "--kube-context", .found cfg.kubeContext, .code "--max",
    .code (toString page), .code "--offset", .code (toString offset), .code "--output",
    .code "json"]

def historyLine (name : Arg) : List Arg :=
  [.code "helm", .code "history", name, .code "--kube-context", .found cfg.kubeContext,
    .code "--output", .code "json"]

def valuesLine (name : Arg) (revision : Json) : List Arg :=
  [.code "helm", .code "get", .code "values", name, .code "--kube-context",
    .found cfg.kubeContext, .code "--revision", .found revision.pyStr, .code "--all",
    .code "--output", .code "json"]

/-- The pods with a label. -/
def podsLine (selector : Arg) : List Arg :=
  [.code "kubectl", .code "--context", .found cfg.kubeContext, .code "get", .code "pods",
    .code "-l", selector, .code "--output", .code "json"]

def statusLine (name : String) : List Arg :=
  [.code "helm", .code "status", .caller name, .code "--kube-context", .found cfg.kubeContext,
    .code "--output", .code "json"]

def uninstallLine (name : String) : List Arg :=
  [.code "helm", .code "uninstall", .caller name, .code "--kube-context",
    .found cfg.kubeContext]

def deployLine (intent : Intent) (forceConflicts : Bool) : List Arg :=
  [.code "helm", .code "upgrade", .code "--install", .caller (releaseName intent),
    .found cfg.chartPath, .code "--kube-context", .found cfg.kubeContext, .code "--set-json",
    .caller (Json.dumps (renderValues intent)), .code "--output", .code "json"] ++
    if forceConflicts then [.code "--force-conflicts"] else []

/-- The command lines each request may start. A scrape reads the names from the cluster. -/
inductive Line : Request → List Arg → Prop
  | probe {request : Request} : Line request (probeLine cfg)
  | version {request : Request} : Line request versionLine
  | list {page offset : ℕ} : Line .prometheusMetrics (listLine cfg page offset)
  | allPods : Line .prometheusMetrics (podsLine cfg (.code "app"))
  | listedHistory {name : String} : Line .prometheusMetrics (historyLine cfg (.found name))
  | listedValues {name : String} {revision : Json} :
      Line .prometheusMetrics (valuesLine cfg (.found name) revision)
  | listedPods {name : String} : Line .prometheusMetrics (podsLine cfg (.found ("app=" ++ name)))
  | create {intent : Intent} : Line (.createDeployment intent) (deployLine cfg intent false)
  | repair {name : String} {intent : Intent} :
      Line (.repairDeployment name intent) (deployLine cfg intent true)
  | history {name : String} : Line (.getDeployment name) (historyLine cfg (.caller name))
  | values {name : String} {revision : Json} :
      Line (.getDeployment name) (valuesLine cfg (.caller name) revision)
  | pods {name : String} : Line (.getDeployment name) (podsLine cfg (.caller ("app=" ++ name)))
  | status {name : String} : Line (.deleteDeployment name) (statusLine cfg name)
  | uninstall {name : String} : Line (.deleteDeployment name) (uninstallLine cfg name)

/-! ### What a caller may not do -/

/-- `--force-conflicts` is among the arguments, and not as a setting or an answer of helm's
that happens to read like that. -/
def Forces (line : List Arg) : Prop :=
  .code "--force-conflicts" ∈ line ∨ .caller "--force-conflicts" ∈ line

/-- What the caller sent is read as an option's value or as positional and does not start
with a dash, and only a repair that names its own release forces. -/
structure Kept (takesValue : String → Bool) (request : Request) (args : List Arg) : Prop where
  undashed : ∀ text, .caller text ∈ args → dashed text = false
  placed : ∀ (i : ℕ) text, args[i]? = some (.caller text) →
    (places takesValue (args.map Arg.text))[i]? = some .value ∨
      (places takesValue (args.map Arg.text))[i]? = some .positional
  forced : Forces args →
    ∃ name intent, request = .repairDeployment name intent ∧ intent.name = name

variable {cfg} {out : Outside} {pages : ℕ} {request : Request}

/-- A process that serving the request started, in its own thread or in another. -/
def Started (s : Served cfg out pages request) (command : List String) : Prop :=
  ∃ e r, e = ofEngine ⟨.spawn command, r⟩ ∧ (e ∈ s.tr ∨ ∃ t ∈ s.threads, e ∈ t)

/-- A process that may be started for the request. -/
def Permitted (cfg : Settings) (takesValue : String → Bool) (request : Request)
    (command : List String) : Prop :=
  ∃ line, Line cfg request line ∧ line.map Arg.text = command ∧ Kept takesValue request line

/-- Every process that serving the request started is one that may be. -/
def ArgumentsKept (takesValue : String → Bool) (s : Served cfg out pages request) : Prop :=
  ∀ command, Started s command → Permitted cfg takesValue request command

/-- The request names a release in its path, with a dash in front, and no intent. -/
def DashedPath : Request → Prop
  | .getDeployment name | .deleteDeployment name => dashed name = true
  | _ => False

/-! ### Lines that keep to it -/

section kept

variable {takesValue : String → Bool} {line : List Arg}

theorem Kept.of_undashed (hcaller : ∀ text, .caller text ∈ line → dashed text = false)
    (hforced : Arg.code "--force-conflicts" ∈ line →
      ∃ name intent, request = .repairDeployment name intent ∧ intent.name = name) :
    Kept takesValue request line where
  undashed := hcaller
  placed i text hi := by
    refine place_of_undashed ?_ (hcaller text (List.mem_of_getElem? hi))
    rw [List.getElem?_map, hi]
    rfl
  forced h := by
    rcases h with h | h
    · exact hforced h
    · cases hcaller _ h

/-- The name in an intent starts with a letter or a digit. -/
theorem dashed_releaseName (intent : Intent) : dashed (releaseName intent) = false := by
  have hname := intent.name_ok.1
  rw [releaseName, dashed]
  cases hcs : intent.name.toList with
  | nil => rfl
  | cons c rest =>
      rw [hcs, namePattern, Bool.and_eq_true, Bool.and_eq_true] at hname
      have hedge : nameEdge c = true := hname.1.1
      have hc : c ≠ '-' := by
        rintro rfl
        exact absurd hedge (by decide)
      simpa using hc

theorem dashed_dumps_renderValues (intent : Intent) :
    dashed (Json.dumps (renderValues intent)) = false := by
  simp [renderValues, Json.dumps, dashed, String.toList_append]

theorem dashed_selector (name : String) : dashed ("app=" ++ name) = false := by
  simp [dashed, String.toList_append]

/-- A number is not an option. -/
theorem force_ne_repr (n : ℕ) : "--force-conflicts" ≠ n.repr := by
  intro h
  have hmem : '-' ∈ Nat.toDigits 10 n := by
    rw [← Nat.toList_repr, ← h]
    decide
  cases Nat.isDigit_of_mem_toDigits (by decide) (by decide) hmem

theorem permitted_probe : Permitted cfg takesValue request (probeCommand cfg) :=
  ⟨_, .probe, rfl, .of_undashed (by simp [probeLine])
    (by simp [probeLine, Deploy.readyz, probeVerbosity])⟩

theorem permitted_version : Permitted cfg takesValue request ["helm", "version", "--short"] :=
  ⟨_, .version, rfl, .of_undashed (by simp [versionLine]) (by simp [versionLine])⟩

/-- A deployment hands helm the name and the values, and forces when it was told to. -/
theorem kept_deployLine {intent : Intent} {forceConflicts : Bool}
    (hforce : forceConflicts = true →
      ∃ name intent, request = .repairDeployment name intent ∧ intent.name = name) :
    Kept takesValue request (deployLine cfg intent forceConflicts) := by
  refine .of_undashed (fun text htext => ?_) fun hcode => ?_
  · have hmem : text = releaseName intent ∨ text = Json.dumps (renderValues intent) := by
      cases forceConflicts <;> simpa [deployLine] using htext
    rcases hmem with rfl | rfl
    · exact dashed_releaseName intent
    · exact dashed_dumps_renderValues intent
  · cases forceConflicts with
    | true => exact hforce rfl
    | false => simp [deployLine] at hcode

theorem text_deployLine (intent : Intent) (forceConflicts : Bool) :
    (deployLine cfg intent forceConflicts).map Arg.text =
      "helm" :: deployArgs cfg intent forceConflicts := by
  cases forceConflicts <;> rfl

end kept

/-! ### The processes of a request -/

/-- A program of the server that starts no process but those that `Q` allows. -/
abbrev Starting (Q : List String → Prop) : sig.Op → Prop :=
  Sum.elim (Scraping (Calls Q True)) fun _ => True

section starting

variable {Q : List String → Prop} {α : Type}

theorem within_serve {p : Eff α} (hp : p.Within (Calls Q True)) : (serve p).Within (Starting Q) :=
  (within_engine hp).inl

theorem within_increment (c : Count) : (increment c).Within (Starting Q) :=
  Prog.within_op trivial

theorem within_answering {p : Eff α} {failed : Serving Unit} {returned : α → Serving Response}
    (hp : p.Within (Calls Q True)) (hfailed : failed.Within (Starting Q))
    (hreturned : ∀ a, (returned a).Within (Starting Q)) :
    (answering p failed returned).Within (Starting Q) := by
  have hcaught : (caught p).Within (Calls Q True) := by
    refine Prog.Within.tryCatch ?_ fun exc => ?_
    · rw [map_eq_pure_bind]
      exact hp.bind fun _ => trivial
    · cases exc <;> trivial
  refine (within_serve hcaught).bind fun result => ?_
  cases result with
  | ok a => exact hreturned a
  | error e => exact hfailed.bind fun _ => trivial

end starting

section handle

variable {takesValue : String → Bool}

/-- Reading a release starts processes that may be started, if no dash is in front of its
name. -/
theorem within_getDeployment {name : String} (hname : dashed name = false) :
    (reconcile cfg name none).Within
      (Calls (Permitted cfg takesValue (.getDeployment name)) True) := by
  refine within_reconcile cfg permitted_probe ?_ (fun revision => ?_) ?_ none
  · exact ⟨_, .history, rfl,
      .of_undashed (by simp [historyLine, hname]) (by simp [historyLine])⟩
  · exact ⟨_, .values, rfl, .of_undashed (by simp [valuesLine, hname]) (by simp [valuesLine])⟩
  · exact ⟨_, .pods, rfl,
      .of_undashed (by simp [podsLine, dashed_selector]) (by simp [podsLine])⟩

theorem within_deleteDeployment {name : String} (hname : dashed name = false) :
    (teardown cfg name).Within
      (Calls (Permitted cfg takesValue (.deleteDeployment name)) True) := by
  refine within_teardown cfg permitted_probe ?_ ?_
  · exact ⟨_, .status, rfl, .of_undashed (by simp [statusLine, hname]) (by simp [statusLine])⟩
  · exact ⟨_, .uninstall, rfl,
      .of_undashed (by simp [uninstallLine, hname]) (by simp [uninstallLine])⟩

/-- A scrape passes nothing from its caller on. -/
theorem within_prometheusMetrics :
    (prometheusMetrics cfg pages).Within
      (Starting (Permitted cfg takesValue .prometheusMetrics)) := by
  have hlist : ∀ offset, Permitted cfg takesValue .prometheusMetrics
      ("helm" :: listArgs cfg listPage offset) := fun offset =>
    ⟨_, .list, rfl, .of_undashed (by simp [listLine]) (by simp [listLine, force_ne_repr])⟩
  have hpods : Permitted cfg takesValue .prometheusMetrics
      (["kubectl", "--context", cfg.kubeContext] ++ allPodsArgs) :=
    ⟨_, .allPods, rfl, .of_undashed (by simp [podsLine]) (by simp [podsLine])⟩
  exact (within_collect cfg trivial permitted_probe permitted_version hpods
    (within_releaseNames cfg permitted_probe hlist pages)).inl.bind fun _ => trivial

/-- What a request may start besides, in the threads of a scrape. -/
theorem permitted_beside {t : List (Event sig)} (h : Beside cfg request t) {command : List String}
    {r : Option OSError} (he : ofEngine ⟨.spawn command, r⟩ ∈ t) :
    Permitted cfg takesValue request command := by
  cases h with
  | @worker name pods _ _ h =>
      have hp : (snapshot cfg name pods).Within
          (Calls (Permitted cfg takesValue .prometheusMetrics) True) := by
        refine within_snapshot cfg permitted_probe ?_ (fun revision => ?_) ?_ pods
        · exact ⟨_, .listedHistory, rfl,
            .of_undashed (by simp [historyLine]) (by simp [historyLine])⟩
        · exact ⟨_, .listedValues, rfl,
            .of_undashed (by simp [valuesLine]) (by simp [valuesLine])⟩
        · exact ⟨_, .listedPods, rfl, .of_undashed (by simp [podsLine]) (by simp [podsLine])⟩
      exact ((within_serve hp).traces h _ he).1 _ (.inl rfl)
  | prober h =>
      exact ((within_serve (within_prober cfg permitted_probe)).traces h _ he).1 _ (.inl rfl)

/-- Every process of a request is one that may be started, unless a dashed path reaches helm. -/
theorem within_handle (hpath : ¬DashedPath request) :
    (handle cfg out pages request).Within (Starting (Permitted cfg takesValue request)) := by
  cases request with
  | readyz =>
      exact within_answering (within_checkCluster cfg trivial permitted_probe permitted_version)
        trivial fun _ => trivial
  | prometheusMetrics => exact within_prometheusMetrics
  | createDeployment intent =>
      have hupgrade : Permitted cfg takesValue (.createDeployment intent)
          ("helm" :: deployArgs cfg intent false) :=
        ⟨_, .create, text_deployLine intent false, kept_deployLine (by simp)⟩
      exact within_answering
        (within_deploy cfg trivial permitted_probe permitted_version hupgrade)
        (within_increment _) fun _ => (within_increment _).bind fun _ => trivial
  | repairDeployment name intent =>
      show (repairDeployment cfg out name intent).Within _
      rw [repairDeployment]
      split_ifs with hname
      · trivial
      · have hforce : ∃ name' intent', Request.repairDeployment name intent =
            .repairDeployment name' intent' ∧ intent'.name = name' :=
          ⟨name, intent, rfl, not_not.mp hname⟩
        have hupgrade : Permitted cfg takesValue (.repairDeployment name intent)
            ("helm" :: deployArgs cfg intent true) :=
          ⟨_, .repair, text_deployLine intent true, kept_deployLine fun _ => hforce⟩
        exact within_answering
          (within_deploy cfg trivial permitted_probe permitted_version hupgrade)
          (within_increment _) fun _ => (within_increment _).bind fun _ => trivial
  | getDeployment name =>
      exact within_answering (within_getDeployment (by simpa [DashedPath] using hpath)) trivial
        fun _ => trivial
  | deleteDeployment name =>
      exact within_answering (within_deleteDeployment (by simpa [DashedPath] using hpath)) trivial
        fun _ => trivial
  | translateIntent text =>
      show (translateIntent out text).Within _
      rw [translateIntent]
      split <;> trivial
  | healthz | intentSchema | validateIntent intent => trivial

/-- The first process of a request that names a release in its path and no intent. -/
theorem started_first {s : Served cfg out pages request} {command : List String}
    {rest : List (Event sig)} {r : Option OSError}
    (htr : s.tr = ofEngine ⟨.spawn command, r⟩ :: rest) : Started s command :=
  ⟨_, r, rfl, .inl (by simp [htr])⟩

/-- The history of a release is asked for by the caller's name for it. -/
theorem caller_of_history {name : String} {line : List Arg}
    (hline : Line cfg (.getDeployment name) line)
    (htext : line.map Arg.text = "helm" :: historyArgs cfg name) : .caller name ∈ line := by
  cases hline with
  | history => simp [historyLine]
  | probe | version | values | pods =>
      simp [probeLine, versionLine, valuesLine, podsLine, historyArgs, Arg.text] at htext

theorem caller_of_status {name : String} {line : List Arg}
    (hline : Line cfg (.deleteDeployment name) line)
    (htext : line.map Arg.text = "helm" :: statusArgs cfg name) : .caller name ∈ line := by
  cases hline with
  | status => simp [statusLine]
  | probe | version | uninstall =>
      simp [probeLine, versionLine, uninstallLine, statusArgs, Arg.text] at htext

/-- A request with a dashed path starts a process with the name among its arguments. -/
theorem not_kept_of_dashedPath {s : Served cfg out pages request} (hpath : DashedPath request) :
    ¬ArgumentsKept takesValue s := by
  intro hkept
  have htraces := s.traces
  cases request with
  | getDeployment name =>
      obtain ⟨r, rest, htr, -⟩ := htraces
      -- the first process reads the history, under the name from the path
      obtain ⟨line, hline, htext, hgood⟩ := hkept _ (started_first htr)
      have hundashed := hgood.undashed name (caller_of_history hline htext)
      cases hpath.symm.trans hundashed
  | deleteDeployment name =>
      obtain ⟨r, rest, htr, -⟩ := htraces
      obtain ⟨line, hline, htext, hgood⟩ := hkept _ (started_first htr)
      have hundashed := hgood.undashed name (caller_of_status hline htext)
      cases hpath.symm.trans hundashed
  | healthz | readyz | intentSchema | validateIntent | translateIntent | prometheusMetrics
  | createDeployment | repairDeployment => exact hpath

/-- Serving a request keeps to what a caller may do, unless the request names a release with
a dash in front. -/
theorem arguments_kept_iff (takesValue : String → Bool) (s : Served cfg out pages request) :
    ArgumentsKept takesValue s ↔ ¬DashedPath request := by
  constructor
  · intro hkept hpath
    exact not_kept_of_dashedPath hpath hkept
  · intro hpath command h
    rcases h with ⟨e, r, rfl, he | ⟨t, ht, he⟩⟩
    · exact ((within_handle hpath).traces s.traces _ he).1 _ (.inl rfl)
    · obtain ⟨t', hbegun, hbeside⟩ := s.threads_begun t ht
      exact permitted_beside hbeside (hbegun.subset he)

end handle

/-- A history that helm printed, and that is not JSON. -/
theorem history_unread {name output : String} {e : PyError} (hread : Json.loads output = .error e) :
    (reconcile cfg name none).Traces
      [⟨.spawn ("helm" :: historyArgs cfg name), none⟩,
        ⟨.finish ("helm" :: historyArgs cfg name) (timeoutFor cfg (historyArgs cfg name)),
          .completed 0 output ""⟩,
        ⟨.monotonic, (1 : ℚ)⟩, ⟨.setLastSuccess 1, ()⟩]
      (.error (.py e)) := by
  -- the exception leaves the history, then the check of whether the release exists
  refine Prog.Traces.bind_error (Prog.Traces.bind_error ?_)
  refine Prog.traces_tryCatch.mpr (.inr ⟨.py e, _, [], (List.append_nil _).symm, ?_, rfl, rfl⟩)
  refine Prog.traces_map.mpr ⟨.error (.py e), ?_, rfl⟩
  refine Prog.Traces.bind_nil (a := output) ?_ ?_
  · exact ⟨none, _, rfl, .completed 0 output "", _, rfl, (1 : ℚ), _, rfl, (), _, rfl, rfl, rfl⟩
  · exact Prog.traces_ofExcept.mpr ⟨rfl, by rw [hread]; rfl⟩

/-- Reading a release of the name `--help` asks helm for help, and the answer is a bare 500. -/
theorem help_asked :
    ∃ (out : Outside) (s : Served {} out 1 (.getDeployment "--help")),
      s.tr.map Event.op =
        ([.spawn ["helm", "history", "--help", "--kube-context", "kind-nf-orchestrator",
            "--output", "json"],
          .finish ["helm", "history", "--help", "--kube-context", "kind-nf-orchestrator",
            "--output", "json"] 3,
          .monotonic, .setLastSuccess 1] : List Deploy.Op).map (Sum.inl ∘ Sum.inl) ∧
      s.answer = .error (.py .valueError) ∧
      (∀ takesValue, (places takesValue ["helm", "history", "--help", "--kube-context",
        "kind-nf-orchestrator", "--output", "json"])[2]? = some .option) ∧
      ∀ takesValue, ¬ArgumentsKept takesValue s := by
  have hread : Json.loads "Usage:\n  helm history RELEASE_NAME [flags]\n" = .error .valueError := by
    decide +kernel
  have hrun : (reconcile {} "--help" none).Traces _ _ := history_unread hread
  let out : Outside := ⟨fun _ => .error "", fun _ => .error (.py .typeError), id⟩
  have hserved : (handle {} out 1 (.getDeployment "--help")).Traces _ _ :=
    traces_answering.mpr (.inr (.inr ⟨_, _, by simp, rfl, hrun, rfl⟩))
  refine ⟨out, ⟨_, _, hserved, [], by simp⟩, rfl, rfl, fun takesValue => rfl, fun takesValue => ?_⟩
  have hpath : DashedPath (.getDeployment "--help") := by
    show dashed "--help" = true
    decide
  exact not_kept_of_dashedPath hpath

end NfOrchestrator.Api
