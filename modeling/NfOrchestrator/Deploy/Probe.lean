import NfOrchestrator.Deploy.Errors
import NfOrchestrator.Json.Text
import NfOrchestrator.Text.Regex

/-!
# NfOrchestrator.Deploy.Probe

The **readiness probe** as a value: what asking the API server for `/readyz` cost,
and the readings of kubectl's log it is made from — the round trip client-go
measured, the delay until kubectl's first log line, and kubectl's own error text.

Durations are exact rational seconds.
-/

namespace NfOrchestrator.Deploy

/-- The settings the module reads from the environment when it is imported, with
their defaults. -/
structure Settings where
  kubeContext : String := "kind-nf-orchestrator"
  /-- The chart's directory, beside the package. -/
  chartPath : String := "charts/stand-in-nf"
  readTimeout : ℚ := 3
  writeTimeout : ℚ := 60
  probeTimeout : ℚ := 3 / 4
  probeTtl : ℚ := 2
  slowProbe : ℚ := 1 / 2
  escalatedProbeTimeout : ℚ := 3
  recentSuccess : ℚ := 30
  scrapeBudget : ℚ := 4
  scrapeProbeTimeout : ℚ := 3
  scrapeWorkers : ℕ := 8
  /-- A thread pool refuses to be built with no worker. -/
  scrapeWorkers_pos : 0 < scrapeWorkers := by decide

/-- The settings of an environment that sets none. -/
abbrev defaultSettings : Settings := {}

/-! ### kubectl's log -/

def notQuote (c : Char) : Bool := c != '"'

/-- `ROUND_TRIP`: the line on which client-go logs a `/readyz` response. -/
def roundTripPattern : Regex :=
  .seq (.lit "\"Response\" verb=\"GET\" url=\"".toList) <| .seq (.star (.char notQuote)) <|
    .seq (.lit "/readyz\" status=\"".toList) <| .seq (.star (.char notQuote)) <|
      .seq (.lit "\" milliseconds=".toList) (.group 1 (.plus .digit))

/-- `FIRST_LINE`: a line klog stamped with the local time of day. -/
def firstLine : Regex :=
  .seq .lineStart <| .seq (.char fun c => c ∈ ['I', 'W', 'E', 'F']) <|
    .seq (Regex.digit.times 4) <| .seq (.lit [' ']) <|
      .seq (.group 1 (Regex.digit.times 2)) <| .seq (.lit [':']) <|
        .seq (.group 2 (Regex.digit.times 2)) <| .seq (.lit [':']) <|
          .seq (.group 3 (Regex.digit.times 2)) <| .seq (.lit ['.'])
            (.group 4 (Regex.digit.times 6))

/-- `int(match.group(n))` for a group of a few decimal digits. -/
def groupInt (m : Cursor) (n : ℕ) : ℕ :=
  Json.ofDigits (((m.captured n).getD []).filterMap Unicode.decimalValue?)

/-- `int(match.group(n))` for a group of any number of them: Python converts no
more than `maxDigits`. -/
def groupInt? (m : Cursor) (n : ℕ) : Except PyError ℕ :=
  if Json.maxDigits < ((m.captured n).getD []).length then .error .valueError
  else .ok (groupInt m n)

/-- The round trip client-go measured, in seconds, or `none` when no response was
logged. A number of milliseconds too long to convert, or too large for a float,
raises. -/
def roundTrip (log : String) : Except PyError (Option ℚ) :=
  match roundTripPattern.search log with
  | none => .ok none
  | some m => do
      let q : ℚ := (← groupInt? m 1) / 1000
      if Json.doubleOverflow ≤ q then .error .overflowError else .ok (some q)

/-- A local time of day, as `time.localtime` returns it. -/
structure LocalTime where
  hour : ℕ
  minute : ℕ
  second : ℕ

def LocalTime.seconds (t : LocalTime) : ℚ := t.hour * 3600 + t.minute * 60 + t.second

/-- The time of day of klog's first stamp, in seconds, if there is one. -/
def firstStamp (log : String) : Option ℚ :=
  (firstLine.search log).map fun m =>
    groupInt m 1 * 3600 + groupInt m 2 * 60 + groupInt m 3 + groupInt m 4 / 1000000

/-- A difference of two times of day, folded back when it wraps midnight and zero
when it comes out negative. -/
def foldMidnight (delay : ℚ) : ℚ :=
  max 0 (if delay < -43200 then delay + 86400 else if 43200 < delay then delay - 86400 else delay)

/-- kubectl's own error message: the lines of its log that klog did not stamp. -/
def errorText (log : String) : String :=
  Str.join "\n" (((Str.splitlines log).filter fun line =>
    Str.strip line != "" && (firstLine.matchAt line.toList).isNone).map Str.strip)

/-! ### The probe -/

/-- No failure says nothing of this host. -/
theorem started_no_failure :
    ∀ e ∈ (none : Option DeployError), ∃ exc, spawnFailure "kubectl" exc = some e :=
  fun _ h => absurd h (Option.not_mem_none _)

/-- What an `OSError` says of this host is a failure to start kubectl. -/
theorem failure_of_osError (exc : OSError) :
    ∀ e ∈ spawnFailure "kubectl" exc, ∃ exc, spawnFailure "kubectl" exc = some e :=
  fun _ h => ⟨exc, h⟩

/-- What asking the API server for `/readyz` cost, and whether it answered at all. -/
structure Probe where
  answered : Bool
  /-- Wall time, including starting kubectl on this host. -/
  seconds : ℚ
  /-- The part client-go measured itself, when it logged one. -/
  roundTrip : Option ℚ := none
  /-- Whether kubectl logged anything before it finished or was killed. -/
  started : Bool := true
  startup : Option ℚ := none
  error : String := ""
  spawnFailure : Option DeployError := none
  /-- A failure to start kubectl is what an `OSError` says of this host. -/
  spawnFailure_of : ∀ e ∈ spawnFailure, ∃ exc, Deploy.spawnFailure "kubectl" exc = some e := by
    exact started_no_failure
  deriving DecidableEq

namespace Probe

variable (cfg : Settings)

/-- Whether the cluster, rather than this host, was slow to answer. -/
def slow (p : Probe) : Bool :=
  match p.roundTrip with
  | some r => decide (cfg.slowProbe ≤ r)
  | none =>
      if !p.started then false
      else !p.answered || decide (cfg.slowProbe ≤ p.seconds)

/-- Whether kubectl could not be started, or could not start its threads. -/
def exhausted (p : Probe) : Bool :=
  (match p.spawnFailure with
    | some e => e.cls == .hostExhausted
    | none => false) ||
    mentions exhaustionMarkers (Str.lower p.error)

/-- How much of the probe was spent on this host, when that can be said. -/
def localSeconds (p : Probe) : Option ℚ :=
  match p.roundTrip with
  | some r => some (max 0 (p.seconds - r))
  | none => if !p.started then some p.seconds else p.startup

end Probe

end NfOrchestrator.Deploy
