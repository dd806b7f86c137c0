import NfOrchestrator.Json.Value

/-!
# NfOrchestrator.Deploy.Errors

The **failure classes** of the deploy engine and the two functions that choose
one: `classifyError`, from the text of a command that exited non-zero, and
`spawnFailure`, from the `OSError` of a command that could not be started.

The classes form a hierarchy, with `HostExhausted` below `HostOverloaded` and
everything below `DeployError`; an `except` clause is a test on the class
(`DeployError.isHostOverloaded` and its siblings).
-/

namespace NfOrchestrator

/-! ### Exceptions -/

/-- The classes of the `DeployError` hierarchy. -/
inductive DeployErrorClass where
  /-- `DeployError` itself: the cluster answered and refused. -/
  | deployError
  | clusterUnreachable
  | clusterBusy
  | hostOverloaded
  | hostExhausted
  | hostMisconfigured
  | clusterConflict
  deriving DecidableEq, Repr

/-- An exception of the hierarchy, with its text. -/
structure DeployError where
  cls : DeployErrorClass
  message : String
  deriving DecidableEq

/-- The subclass of `OSError` that Python picks from the errno. -/
inductive OSErrorClass where
  | fileNotFoundError
  | permissionError
  | other
  deriving DecidableEq, Repr

structure OSError where
  cls : OSErrorClass
  errno : Option ℤ
  strerror : Option String
  deriving DecidableEq

/-- Everything the modelled code can raise. -/
inductive Exc where
  | deploy (e : DeployError)
  | os (e : OSError)
  | py (e : PyError)
  deriving DecidableEq

namespace DeployError

/-- `isinstance(e, HostOverloaded)`. -/
def isHostOverloaded (e : DeployError) : Bool :=
  e.cls == .hostOverloaded || e.cls == .hostExhausted

end DeployError

namespace Deploy

/-! ### Reading an error text -/

/-- "The cluster could not be reached", in helm's and kubectl's wordings. -/
def unreachableMarkers : List String :=
  ["kubernetes cluster unreachable", "unable to connect to the server", "connection refused",
    "actively refused", "no such host", "i/o timeout"]

/-- The API server answered and said "not now". -/
def busyMarkers : List String := ["too many requests", "has asked us to try again later"]

/-- A Go program that could not start its threads. -/
def exhaustionMarkers : List String :=
  ["failed to create new os thread", "fatal error: newosproc"]

/-- helm refusing its own arguments, before it contacted anything. -/
def rejectedArgumentMarkers : List String := ["failed parsing --set-json data"]

/-- Server-side apply refusing to take a field from another manager. -/
def conflictMarkers : List String := ["conflict occurred while applying", "apply failed with"]

/-- `any(marker in lowered for marker in markers)`. -/
def mentions (markers : List String) (lowered : String) : Bool :=
  markers.any fun marker => Str.contains marker lowered

/-- `HostExhausted.from_crash`: the runtime's own first lines, without the stack
that follows them. -/
def fromCrash (message : String) : DeployError :=
  let head := Str.splitlines (Str.strip (Str.before "runtime stack:" message))
  ⟨.hostExhausted, "this host could not start the threads helm or kubectl need: " ++
    Str.join " / " (head.take 2)⟩

/-- The first line of a text, cut to 200 characters. A text that mentions a marker
is not blank, so it has a first line. -/
def firstLine200 (message : String) : String :=
  String.ofList (((Str.splitlines (Str.strip message)).headD "").toList.take 200)

/-- The exception a non-zero exit with this text stands for. The order of the tests
decides a text that several of them recognise. -/
def classifyError (message : String) : DeployError :=
  let lowered := Str.lower message
  if mentions exhaustionMarkers lowered then fromCrash message
  else if mentions rejectedArgumentMarkers lowered then
    ⟨.hostMisconfigured, "helm rejected the orchestrator's arguments, so its version or install " ++
      "does not match what this orchestrator needs: " ++ firstLine200 message⟩
  else if mentions busyMarkers lowered then ⟨.clusterBusy, message⟩
  else if mentions unreachableMarkers lowered then ⟨.clusterUnreachable, message⟩
  else if mentions conflictMarkers lowered then ⟨.clusterConflict, message⟩
  else ⟨.deployError, message⟩

/-! ### Reading a failure to start -/

/-- `EAGAIN` and `ENOMEM`: no room to start a process right now. -/
def spawnExhaustion : List ℤ := [11, 12]

/-- Python's `str` of an optional value. -/
def orNone (s : Option String) : String := s.getD "None"

/-- What a failure to start `tool` says about this host, or `none` if it says
nothing known. -/
def spawnFailure (tool : String) (exc : OSError) : Option DeployError :=
  if exc.cls = .fileNotFoundError ∨ exc.cls = .permissionError then
    some ⟨.hostMisconfigured, tool ++ " is not installed or not executable on this host (" ++
      orNone exc.strerror ++ "): install it or fix PATH; retrying will not help"⟩
  else
    match exc.errno with
    | none => none
    | some errno =>
        if errno ∈ spawnExhaustion then
          some ⟨.hostExhausted, "this host could not start " ++ tool ++ ": " ++
            orNone exc.strerror ++ " (errno " ++ toString errno ++
            "), a pids or memory limit on the orchestrator's host"⟩
        else none

/-! ### What the class says about who answered -/

/-- A text that is none of this host's own failures and not an unreachable cluster
is the cluster's reply. -/
def clusterReplied (e : DeployError) : Bool :=
  match e.cls with
  | .deployError | .clusterBusy | .clusterConflict => true
  | .clusterUnreachable | .hostOverloaded | .hostExhausted | .hostMisconfigured => false

/-- A plain refusal carries the text it was classified from. -/
theorem classifyError_message {message : String}
    (h : clusterReplied (classifyError message) = true) :
    (classifyError message).message = message := by
  unfold classifyError at h ⊢
  dsimp only at h ⊢
  split_ifs at h ⊢ <;> first | rfl | simp [clusterReplied, fromCrash] at h

/-- `spawnFailure` blames this host, never the cluster. -/
theorem spawnFailure_cls {tool : String} {exc : OSError} {e : DeployError}
    (h : spawnFailure tool exc = some e) :
    e.cls = .hostMisconfigured ∨ e.cls = .hostExhausted := by
  unfold spawnFailure at h
  split_ifs at h with hmissing
  · exact .inl (by rw [← Option.some.inj h])
  · cases hno : exc.errno with
    | none => rw [hno] at h; exact absurd h (by simp)
    | some errno =>
        rw [hno] at h
        dsimp only at h
        split_ifs at h
        exact .inr (by rw [← Option.some.inj h])

end Deploy

end NfOrchestrator
