import NfOrchestrator.Deploy.Intent
import NfOrchestrator.Yaml.Read

/-!
# NfOrchestrator.Chart.Deployment

The **Deployment manifest** that the chart renders, as text: the release name and the chart
values are put into the template as they are. `deployment_read` says what a YAML reader makes
of it.
-/

namespace NfOrchestrator.Chart

open Yaml

/-! ### Values -/

/-- The chart values that the template looks at. -/
structure Values where
  replicaCount : ℤ
  environment : String
  repository : String
  tag : String
  pullPolicy : String
  containerPort : ℕ
  /-- What `toYaml` makes of the resources. -/
  resources : List String

/-- `values.yaml` -/
def defaults : Values where
  replicaCount := 1
  environment := "dev"
  repository := "nginxinc/nginx-unprivileged"
  tag := "1.27"
  pullPolicy := "IfNotPresent"
  containerPort := 8080
  resources :=
    ["limits:",
     "  cpu: 200m",
     "  memory: 128Mi",
     "requests:",
     "  cpu: 10m",
     "  memory: 32Mi"]

/-- One field of `--set-json`. -/
def Values.set (values : Values) : String × Json → Values
  | ("replicaCount", .int n) => { values with replicaCount := n }
  | ("environment", .str s) => { values with environment := s }
  | _ => values

/-- The values a release of this intent is rendered with. -/
def valuesFor (intent : Intent) : Values :=
  match Deploy.renderValues intent with
  | .obj fields => fields.foldl Values.set defaults
  | _ => defaults

/-! ### The template -/

/-- The template down to the metadata of the pods. -/
def front (release : String) (values : Values) : List String :=
  ["apiVersion: apps/v1",
   "kind: Deployment",
   "metadata:",
   "  name: " ++ release,
   "  labels:",
   "    app: " ++ release,
   "    environment: " ++ values.environment,
   "    managed-by: nf-orchestrator",
   "spec:",
   "  replicas: " ++ toString values.replicaCount,
   "  selector:",
   "    matchLabels:",
   "      app: " ++ release,
   "  template:",
   "    metadata:",
   "      labels:",
   "        app: " ++ release,
   "        environment: " ++ values.environment]

/-- The template of what the pods are. -/
def podSpec (values : Values) : List String :=
  ["    spec:",
   "      securityContext:",
   "        runAsNonRoot: true",
   "        runAsUser: 101",
   "        runAsGroup: 101",
   "        fsGroup: 101",
   "        seccompProfile:",
   "          type: RuntimeDefault",
   "      containers:",
   "        - name: nf",
   "          image: \"" ++ values.repository ++ ":" ++ values.tag ++ "\"",
   "          imagePullPolicy: " ++ values.pullPolicy,
   "          ports:",
   "            - containerPort: " ++ toString values.containerPort,
   "          env:",
   "            - name: NF_ENVIRONMENT",
   "              value: \"" ++ values.environment ++ "\"",
   "          securityContext:",
   "            allowPrivilegeEscalation: false",
   "            readOnlyRootFilesystem: true",
   "            capabilities:",
   "              drop:",
   "                - ALL",
   "          resources:"] ++
  values.resources.map ("            " ++ ·) ++
  ["          # A read-only root filesystem still needs somewhere to write. nginx keeps its",
   "          # pid and its client-body buffers under these two paths and nowhere else.",
   "          volumeMounts:",
   "            - name: tmp",
   "              mountPath: /tmp",
   "            - name: cache",
   "              mountPath: /var/cache/nginx",
   "      volumes:",
   "        - name: tmp",
   "          emptyDir: \x7b\x7d",
   "        - name: cache",
   "          emptyDir: \x7b\x7d"]

/-- `templates/deployment.yaml`, rendered. -/
def deployment (release : String) (values : Values) : String :=
  String.join ((front release values ++ podSpec values).map (· ++ "\n"))

/-! ### Reading it back -/

theorem lexes_value {lead value : String} {column : ℕ} {name : List Char}
    (hlead : lead.toList = List.replicate column ' ' ++ (name ++ [':', ' '])) (hname : Word name)
    (hvalue : Word value.toList) :
    Lexes (lead ++ value).toList (entry column name value.toList) := by
  have hline : (lead ++ value).toList =
      List.replicate column ' ' ++ (name ++ ':' :: ' ' :: value.toList) := by
    rw [String.toList_append, hlead]
    simp
  rw [hline]
  exact lexes_entry hname hvalue column

/-- The tokens of the lines of `front`. -/
def frontTokens (release environment replicas : List Char) : List (List Token) :=
  [entry 0 "apiVersion".toList "apps/v1".toList,
   entry 0 "kind".toList "Deployment".toList,
   [.key 0 "metadata".toList],
   entry 2 "name".toList release,
   [.key 2 "labels".toList],
   entry 4 "app".toList release,
   entry 4 "environment".toList environment,
   entry 4 "managed-by".toList "nf-orchestrator".toList,
   [.key 0 "spec".toList],
   entry 2 "replicas".toList replicas,
   [.key 2 "selector".toList],
   [.key 4 "matchLabels".toList],
   entry 6 "app".toList release,
   [.key 2 "template".toList],
   [.key 4 "metadata".toList],
   [.key 6 "labels".toList],
   entry 8 "app".toList release,
   entry 8 "environment".toList environment]

theorem lexes_front {release : String} {values : Values} (hrelease : Word release.toList)
    (henvironment : Word values.environment.toList)
    (hreplicas : Word (toString values.replicaCount).toList) :
    List.Forall₂ Lexes ((front release values).map String.toList)
      (frontTokens release.toList values.environment.toList
        (toString values.replicaCount).toList) := by
  rw [List.forall₂_map_left_iff]
  refine .cons (by decide +kernel) (.cons (by decide +kernel) (.cons (by decide +kernel) ?_))
  refine .cons (lexes_value (by decide +kernel) (by decide +kernel) hrelease) ?_
  refine .cons (by decide +kernel) ?_
  refine .cons (lexes_value (by decide +kernel) (by decide +kernel) hrelease) ?_
  refine .cons (lexes_value (by decide +kernel) (by decide +kernel) henvironment) ?_
  refine .cons (by decide +kernel) (.cons (by decide +kernel) ?_)
  refine .cons (lexes_value (by decide +kernel) (by decide +kernel) hreplicas) ?_
  refine .cons (by decide +kernel) (.cons (by decide +kernel) ?_)
  refine .cons (lexes_value (by decide +kernel) (by decide +kernel) hrelease) ?_
  refine .cons (by decide +kernel) (.cons (by decide +kernel) (.cons (by decide +kernel) ?_))
  refine .cons (lexes_value (by decide +kernel) (by decide +kernel) hrelease) ?_
  exact .cons (lexes_value (by decide +kernel) (by decide +kernel) henvironment) .nil

/-- Whatever the environment is, what the pods are reads as one value. -/
theorem reads_podSpec (environment : Environment) : ∃ tokens spec,
    (∀ line ∈ (podSpec { defaults with environment := environment.value }).map String.toList,
      '\n' ∉ line) ∧
    lexLines ((podSpec { defaults with environment := environment.value }).map String.toList) =
      some (.key 4 "spec".toList :: tokens) ∧
    Reads (valueColumn 4 tokens) tokens spec [] := by
  have hall : ∀ e ∈ [Environment.dev, .staging, .prod],
      (∀ line ∈ (podSpec { defaults with environment := e.value }).map String.toList,
        '\n' ∉ line) ∧
      (lexLines ((podSpec { defaults with environment := e.value }).map String.toList)).bind
        (fun tokens => (node 60 (valueColumn 4 tokens.tail) tokens.tail).map fun r =>
          (tokens.head?, tokens.tail.length, r.2)) =
        some (some (.key 4 "spec".toList), 72, []) := by decide +kernel
  obtain ⟨hlines, hread⟩ := hall environment (by cases environment <;> simp)
  obtain ⟨tokens, htokens, hnode⟩ := Option.bind_eq_some_iff.mp hread
  obtain ⟨⟨spec, rest⟩, hspec, hends⟩ := Option.map_eq_some_iff.mp hnode
  obtain ⟨hhead, hlength, hrest⟩ : tokens.head? = some (.key 4 "spec".toList) ∧
      tokens.tail.length = 72 ∧ rest = [] := by simpa using hends
  subst hrest
  refine ⟨tokens.tail, spec, hlines, ?_, Nat.zero_le _, fun fuel hfuel => node_mono hspec ?_⟩
  · rw [htokens, List.cons_head?_tail hhead]
  · rw [hlength] at hfuel
    exact (by decide : 60 ≤ 2 * (72 - 0) + 2).trans hfuel

/-- What is read back. -/
def manifest (release environment replicas : List Char) (spec : Yaml) : Yaml :=
  .map [(resolve "apiVersion".toList, resolve "apps/v1".toList),
    (resolve "kind".toList, resolve "Deployment".toList),
    (resolve "metadata".toList, .map [
      (resolve "name".toList, resolve release),
      (resolve "labels".toList, .map [
        (resolve "app".toList, resolve release),
        (resolve "environment".toList, resolve environment),
        (resolve "managed-by".toList, resolve "nf-orchestrator".toList)])]),
    (resolve "spec".toList, .map [
      (resolve "replicas".toList, resolve replicas),
      (resolve "selector".toList, .map [
        (resolve "matchLabels".toList, .map [(resolve "app".toList, resolve release)])]),
      (resolve "template".toList, .map [
        (resolve "metadata".toList, .map [
          (resolve "labels".toList, .map [
            (resolve "app".toList, resolve release),
            (resolve "environment".toList, resolve environment)])]),
        (resolve "spec".toList, spec)])])]

theorem reads_front {release environment replicas : List Char} {tokens : List Token}
    {spec : Yaml} (hspec : Reads (valueColumn 4 tokens) tokens spec []) :
    Reads 0 ((frontTokens release environment replicas).flatten ++
      .key 4 "spec".toList :: tokens) (manifest release environment replicas spec) [] := by
  simp only [frontTokens, List.flatten_cons, List.flatten_nil, List.append_assoc,
    List.cons_append, List.nil_append, List.append_nil]
  apply Reads.map (Nat.zero_le _)
  apply ReadsEntries.entry
  apply ReadsEntries.entry
  apply ReadsEntries.key
  · -- the metadata of the Deployment
    apply Reads.map (Nat.le_succ 1)
    apply ReadsEntries.entry
    apply ReadsEntries.key
    · apply Reads.map (Nat.le_succ 3)
      apply ReadsEntries.entry
      apply ReadsEntries.entry
      apply ReadsEntries.entry
      exact .stop (by simp)
    · exact .stop (by simp)
  apply ReadsEntries.key
  · apply Reads.map (Nat.le_succ 1)
    apply ReadsEntries.entry
    apply ReadsEntries.key
    · -- the selector
      apply Reads.map (Nat.le_succ 3)
      apply ReadsEntries.key
      · apply Reads.map (Nat.le_succ 5)
        apply ReadsEntries.entry
        exact .stop (by simp)
      · exact .stop (by simp)
    apply ReadsEntries.key
    · -- the template of the pods
      apply Reads.map (Nat.le_succ 3)
      apply ReadsEntries.key
      · apply Reads.map (Nat.le_succ 5)
        apply ReadsEntries.key
        · apply Reads.map (Nat.le_succ 7)
          apply ReadsEntries.entry
          apply ReadsEntries.entry
          exact .stop (by simp)
        · exact .stop (by simp)
      exact .key hspec (.stop (by simp))
    · exact .stop (by simp)
  · exact .stop (by simp)

theorem word_environment (e : Environment) : Word e.value.toList := by
  cases e <;> decide +kernel

theorem word_replicas {n : ℤ} (h : 1 ≤ n ∧ n ≤ 10) : Word (toString n).toList := by
  obtain ⟨hlow, hhigh⟩ := h
  interval_cases n <;> decide +kernel

/-- What a YAML reader makes of the manifest of an intent. -/
theorem deployment_read (intent : Intent) (hname : Word intent.name.toList) :
    ∃ spec, read (deployment (Deploy.releaseName intent) (valuesFor intent)) =
      some (manifest intent.name.toList intent.environment.value.toList
        (toString intent.replicas).toList spec) := by
  obtain ⟨tokens, spec, hpodLines, hpod, hspec⟩ := reads_podSpec intent.environment
  have hlexes := @lexes_front intent.name (valuesFor intent) hname
    (word_environment intent.environment) (word_replicas intent.replicas_ok)
  obtain ⟨hfrontLines, hfront⟩ := lexLines_of_forall₂ hlexes
  have hpod' : lexLines ((podSpec (valuesFor intent)).map String.toList) =
      some (.key 4 "spec".toList :: tokens) := hpod
  have hlines : ∀ line ∈ (front intent.name (valuesFor intent)).map String.toList ++
      (podSpec (valuesFor intent)).map String.toList, '\n' ∉ line :=
    List.forall_mem_append.mpr ⟨hfrontLines, hpodLines⟩
  have htext : deployment (Deploy.releaseName intent) (valuesFor intent) =
      String.ofList (((front intent.name (valuesFor intent)).map String.toList ++
        (podSpec (valuesFor intent)).map String.toList).flatMap fun line => line ++ ['\n']) := by
    rw [deployment, ← List.map_append, List.flatMap_map, ← String.toList_inj, String.toList_join,
      List.flatMap_map, String.toList_ofList]
    simp [Deploy.releaseName]
  refine ⟨spec, ?_⟩
  rw [htext, read_lines hlines (lexLines_append hfront hpod')]
  exact (reads_front hspec).ofTokens

end NfOrchestrator.Chart
