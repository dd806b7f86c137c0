import NfOrchestrator.Deploy.Engine

/-!
# NfOrchestrator.Reconciler.Reconcile

The **reconciler**: one release's state, derived from what helm and kubectl say about
it now.

What they say is an untyped document, and the code indexes into it as it comes. The
definitions here do the same: they run on `Json`, and raise what Python raises where a
document does not have the shape the code expects. Python's `None` is `Json.null`.
-/

namespace NfOrchestrator.Reconciler

open Deploy

/-! ### States -/

/-- What is true of the network function itself. -/
inductive State where
  | notInstantiated
  | instantiating
  | instantiated
  | failed
  deriving DecidableEq, Repr

def State.value : State → String
  | .notInstantiated => "NOT_INSTANTIATED"
  | .instantiating => "INSTANTIATING"
  | .instantiated => "INSTANTIATED"
  | .failed => "FAILED"

/-- What happened to the last lifecycle operation, separately from the NF. -/
inductive OperationState where
  | processing
  | completed
  | failed
  | unknown
  deriving DecidableEq, Repr

def OperationState.value : OperationState → String
  | .processing => "PROCESSING"
  | .completed => "COMPLETED"
  | .failed => "FAILED"
  | .unknown => "UNKNOWN"

/-- `OPERATION_STATUS`. -/
def operationStatus : List (String × OperationState) :=
  [("deployed", .completed), ("uninstalled", .completed), ("superseded", .completed),
    ("failed", .failed), ("pending-install", .processing), ("pending-upgrade", .processing),
    ("pending-rollback", .processing), ("uninstalling", .processing)]

/-- `OPERATION_STATUS.get(status, UNKNOWN)`. -/
def statusOperation (status : Json) : Except PyError OperationState :=
  match status with
  | .str s => .ok ((operationStatus.lookup s).getD .unknown)
  | v => if v.hashable then .ok .unknown else .error .typeError

def failedPodReasons : List String := ["ImagePullBackOff", "ErrImagePull", "CrashLoopBackOff"]

def terminalPodPhases : List String := ["Succeeded", "Failed"]

/-- Is the value in this frozenset of strings? -/
def isIn (set : List String) (v : Json) : Except PyError Bool :=
  if v.hashable then .ok (set.any v.isStr) else .error .typeError

/-- One pod, as `parse_pods` reports it. -/
structure PodState where
  phase : Json
  reason : Json
  ready : Bool
  deriving DecidableEq

/-- `pod.get("phase") in TERMINAL_POD_PHASES`. -/
def isTerminal (pod : PodState) : Except PyError Bool := isIn terminalPodPhases pod.phase

def isFailing (pod : PodState) : Except PyError Bool := isIn failedPodReasons pod.reason

/-- Project the live signals onto one state describing the network function. -/
def deriveState (helmStatus : Json) (pods : List PodState) (desired : ℤ)
    (operation : OperationState) (everDeployed : Bool) : Except PyError State := do
  if helmStatus = .null then return .notInstantiated
  let live ← pods.filterM fun pod => not <$> isTerminal pod
  let terminal ← pods.filterM isTerminal
  let failing ← live.mapM isFailing
  if failing.any id then return .failed
  if 0 < desired ∧ (live.length : ℤ) = desired ∧ live.all PodState.ready then
    return .instantiated
  if !terminal.isEmpty then return .failed
  if !everDeployed ∧ operation = .failed then return .failed
  return .instantiating

/-! ### The release -/

def releaseNotFound : String := "not found"

variable (cfg : Settings)

/-- Run a helm call, or say that the release does not exist. -/
def unlessNotFound {α : Type} (call : Eff α) : Eff (Option α) :=
  tryCatch (some <$> call) fun exc =>
    match exc with
    | .deploy e =>
        if e.cls = .clusterUnreachable then throw exc
        else if Str.contains releaseNotFound (Str.lower e.message) then return none
        else throw exc
    | _ => throw exc

def statusArgs (name : String) : List String :=
  ["status", name, "--kube-context", cfg.kubeContext, "--output", "json"]

/-- The status in what `helm status` printed. -/
def readStatus (output : String) : Except PyError Json := do
  (← (← Json.loads output).subscript "info").subscript "status"

/-- The release status, or null only when the release genuinely does not exist. -/
def helmReleaseStatus (name : String) : Eff Json := do
  match ← unlessNotFound (runHelm cfg (statusArgs cfg name)) with
  | none => return .null
  | some output => ofPy (readStatus output)

def historyArgs (name : String) : List String :=
  ["history", name, "--kube-context", cfg.kubeContext, "--output", "json"]

/-- Every revision Helm still holds for the release. -/
def releaseHistory (name : String) : Eff Json := do
  let output ← runHelm cfg (historyArgs cfg name)
  ofPy (Json.loads output)

/-- The release's history, or null only when the release genuinely does not exist. -/
def existingHistory (name : String) : Eff Json := do
  return (← unlessNotFound (releaseHistory cfg name)).getD .null

/-- The revisions of the entries whose status is `deployed`. -/
def deployedRevisions : List Json → Except PyError (List Json)
  | [] => .ok []
  | entry :: rest => do
      if (← entry.get "status").isStr "deployed" then
        let revision ← entry.subscript "revision"
        return revision :: (← deployedRevisions rest)
      else deployedRevisions rest

/-- The highest revision that has the status `deployed`, or null if none has. -/
def deployedRevision (history : Json) : Except PyError Json := do
  let revisions ← deployedRevisions (← history.iter)
  if revisions.isEmpty then return .null else Json.maxBy .ok revisions

/-- `deployed_revision(history) is not None`. -/
def everDeployed (history : Json) : Except PyError Bool := do
  return (← deployedRevision history) != .null

/-- `max(history, key=lambda entry: entry["revision"])`. -/
def newestEntry (history : Json) : Except PyError Json := do
  Json.maxBy (·.subscript "revision") (← history.iter)

/-- The status of the newest revision, which is the release's. -/
def newestStatus (history : Json) : Except PyError Json := do
  (← newestEntry history).subscript "status"

structure LastOperation where
  revision : Json
  state : OperationState
  description : Json
  deriving DecidableEq

/-- What happened to the most recent lifecycle operation, whatever the NF is doing. -/
def lastOperation (history : Json) : Except PyError LastOperation :=
  if !history.truthy then .ok ⟨.null, .unknown, .null⟩
  else do
    let latest ← newestEntry history
    let state ← statusOperation (← latest.get "status")
    return ⟨← latest.subscript "revision", state, ← latest.get "description"⟩

def valuesArgs (name : String) (revision : Json) : List String :=
  ["get", "values", name, "--kube-context", cfg.kubeContext, "--revision", revision.pyStr,
    "--all", "--output", "json"]

/-- The replica count in what `helm get values` printed. A release with a history has a
name of plain characters, whose `repr` is the name in quotes. -/
def readReplicas (name output : String) : Except Exc ℤ := do
  let values ← (Json.loads output).mapError .py
  let replicas ← (values.get "replicaCount").mapError .py
  if replicas = .null then
    throw (.deploy ⟨.deployError, "release '" ++ name ++ "' has no replicaCount in its values"⟩)
  else replicas.toInt.mapError .py

/-- The replica count of the intent that is actually in effect. -/
def desiredReplicas (name : String) (history : Json) : Eff ℤ := do
  let revision ← ofPy (deployedRevision history)
  if revision = .null then return 0
  else do
    let output ← runHelm cfg (valuesArgs cfg name revision)
    Prog.ofExcept (readReplicas name output)

/-! ### The pods -/

/-- The reason of the first container that is waiting, or null. -/
def waitingReason : List Json → Except PyError Json
  | [] => .ok .null
  | container :: rest => do
      let waiting ← (← container.getD "state" (.obj [])).get "waiting"
      if waiting.truthy then waiting.get "reason" else waitingReason rest

/-- `all(c.get("ready") for c in containers)`. -/
def allReady : List Json → Except PyError Bool
  | [] => .ok true
  | container :: rest => do
      if (← container.get "ready").truthy then allReady rest else return false

/-- One item of a pod listing, or nothing for a pod that is being deleted. -/
def parsePod (item : Json) : Except PyError (Option PodState) := do
  if (← (← item.subscript "metadata").get "deletionTimestamp").truthy then return none
  let containers ← (← item.subscript "status").getD "containerStatuses" (.arr [])
  let waiting ← waitingReason (← containers.iter)
  let reason ← if waiting = .null then (← item.subscript "status").get "reason" else .ok waiting
  let phase ← (← item.subscript "status").get "phase"
  let ready ← if containers.truthy then allReady (← containers.iter) else .ok false
  return some ⟨phase, reason, ready⟩

def parsePods (items : Json) : Except PyError (List PodState) := do
  let states ← (← items.iter).mapM parsePod
  return states.reduceOption

def podsArgs (name : String) : List String :=
  ["get", "pods", "-l", "app=" ++ name, "--output", "json"]

/-- Phase, waiting reason and readiness of each live pod of the release. -/
def podStates (name : String) : Eff (List PodState) := do
  let output ← runKubectl cfg (podsArgs name)
  ofPy (do parsePods (← (← Json.loads output).subscript "items"))

/-- Put an item under its key, in a dict of lists. -/
def addUnder (key item : Json) : List (Json × List Json) → List (Json × List Json)
  | [] => [(key, [item])]
  | (k, items) :: rest =>
      if Json.pyEq k key then (k, items ++ [item]) :: rest else (k, items) :: addUnder key item rest

/-- The items of a listing, by their `app` label. -/
def groupByApp (grouped : List (Json × List Json)) :
    List Json → Except PyError (List (Json × List Json))
  | [] => .ok grouped
  | item :: rest => do
      let app ← (← (← item.subscript "metadata").subscript "labels").subscript "app"
      if app.hashable then groupByApp (addUnder app item grouped) rest else .error .typeError

/-- The pods of each release in what kubectl printed, keyed by the `app` label. -/
def readPodsByRelease (output : String) : Except PyError (List (Json × List PodState)) := do
  let items ← (← Json.loads output).subscript "items"
  let grouped ← groupByApp [] (← items.iter)
  grouped.mapM fun (app, items) => do return (app, ← parsePods (.arr items))

def allPodsArgs : List String := ["get", "pods", "-l", "app", "--output", "json"]

/-- Every release's pods from one kubectl call. -/
def podsByRelease : Eff (List (Json × List PodState)) := do
  let output ← runKubectl cfg allPodsArgs
  ofPy (readPodsByRelease output)

/-! ### Reconciling -/

/-- What `reconcile` returns. -/
structure Report where
  release : String
  state : State
  helmStatus : Json
  desiredReplicas : ℤ
  readyReplicas : ℕ
  lastOperation : LastOperation
  pods : List PodState
  deriving DecidableEq

/-- The report on a release that does not exist. -/
def absent (name : String) : Report :=
  { release := name, state := .notInstantiated, helmStatus := .null, desiredReplicas := 0,
    readyReplicas := 0, lastOperation := ⟨.null, .unknown, .null⟩, pods := [] }

/-- The pods the caller passed, or else those listed for this release. -/
def podsOf (name : String) : Option (List PodState) → Eff (List PodState)
  | some pods => return pods
  | none => podStates cfg name

/-- The report on a release with a history, once everything about it has been read. -/
def reportOn (name : String) (history helmStatus : Json) (operation : LastOperation) (desired : ℤ)
    (pods : List PodState) : Except PyError Report := do
  let state ← deriveState helmStatus pods desired operation.state (← everDeployed history)
  return { release := name, state := state, helmStatus := helmStatus, desiredReplicas := desired,
           readyReplicas := pods.countP PodState.ready, lastOperation := operation, pods := pods }

/-- Derive one release's state. `pods` lets a caller that already listed every pod pass
this release's share. -/
def reconcile (name : String) (pods : Option (List PodState)) : Eff Report := do
  let history ← existingHistory cfg name
  if !history.truthy then return absent name
  else do
    let helmStatus ← ofPy (newestStatus history)
    let operation ← ofPy (lastOperation history)
    let desired ← desiredReplicas cfg name history
    let pods ← podsOf cfg name pods
    ofPy (reportOn name history helmStatus operation desired pods)

/-- What `teardown` returns. -/
structure TornDown where
  release : String
  state : State
  uninstalled : Bool
  deriving DecidableEq

def uninstallArgs (name : String) : List String :=
  ["uninstall", name, "--kube-context", cfg.kubeContext]

def teardown (name : String) : Eff TornDown := do
  if (← helmReleaseStatus cfg name) = .null then
    return { release := name, state := .notInstantiated, uninstalled := false }
  let _ ← runHelm cfg (uninstallArgs cfg name)
  return { release := name, state := .notInstantiated, uninstalled := true }

end NfOrchestrator.Reconciler
