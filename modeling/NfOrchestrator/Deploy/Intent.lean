import Mathlib.Tactic.IntervalCases
import NfOrchestrator.Json.Text

/-!
# NfOrchestrator.Deploy.Intent

The validated **intent** a deployment is asked for with, and the chart values it
is rendered to. An `Intent` carries the constraints of its schema, so one that
violates them cannot be built.
-/

namespace NfOrchestrator

inductive Environment where
  | dev
  | staging
  | prod
  deriving DecidableEq, Repr

def Environment.value : Environment → String
  | .dev => "dev"
  | .staging => "staging"
  | .prod => "prod"

/-- A letter or digit of a Kubernetes name. -/
def nameEdge (c : Char) : Bool := ('a' ≤ c && c ≤ 'z') || ('0' ≤ c && c ≤ '9')

def nameInner (c : Char) : Bool := nameEdge c || c == '-'

/-- `NAME_PATTERN`: edges that are letters or digits, hyphens allowed between. -/
def namePattern (cs : List Char) : Bool :=
  match cs with
  | [] => false
  | c :: rest => nameEdge c && rest.all nameInner && nameEdge ((c :: rest).getLast (by simp))

def nameMaxLength : ℕ := 53

/-- A validated intent. -/
structure Intent where
  name : String
  replicas : ℤ
  environment : Environment
  name_ok : namePattern name.toList = true ∧ name.toList.length ≤ nameMaxLength
  replicas_ok : 1 ≤ replicas ∧ replicas ≤ 10
  deriving DecidableEq

namespace Deploy

/-- The chart values of an intent. -/
def renderValues (intent : Intent) : Json :=
  .obj [("replicaCount", .int intent.replicas), ("environment", .str intent.environment.value)]

def releaseName (intent : Intent) : String := intent.name

/-- The values helm parses from the command line are the values rendered. -/
theorem loads_dumps_renderValues (intent : Intent) :
    Json.loads (Json.dumps (renderValues intent)) = .ok (renderValues intent) := by
  obtain ⟨name, replicas, environment, hname, hlo, hhi⟩ := intent
  simp only [renderValues]
  interval_cases replicas <;> cases environment <;> decide +kernel

end Deploy

end NfOrchestrator
