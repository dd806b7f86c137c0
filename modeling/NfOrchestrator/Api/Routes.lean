import NfOrchestrator.Api.HttpError
import NfOrchestrator.Effects.Trace
import NfOrchestrator.Metrics.Collect
import NfOrchestrator.Translate.Boundary

/-!
# NfOrchestrator.Api.Routes

**The routes.** A request is served by a program over everything a scrape may call and the
two counters. A request that the framework's validation turns away reaches no route; one
that does carries a validated intent where it carries an intent.

An `HTTPException` is an answer like any other here. An exception that no route catches
stays an exception: the framework answers it with a bare 500.
-/

namespace NfOrchestrator.Api

open Deploy Reconciler Metrics Translate

/-! ### Counters -/

inductive Counter where
  | deploymentsTotal
  | repairsTotal
  deriving DecidableEq, Repr

/-- One increment: of which counter, and under which labels. -/
structure Count where
  counter : Counter
  result : String
  environment : Environment
  deriving DecidableEq

abbrev sig : Signature := Metrics.sig.sum ⟨Count, fun _ => Unit⟩

/-- A program that serves a request. -/
abbrev Serving (α : Type) := Prog sig Exc α

def increment (c : Count) : Serving Unit := .call (show sig.Op from .inr c) .ret

def recordDeploy (result : String) (environment : Environment) : Serving Unit :=
  increment ⟨.deploymentsTotal, result, environment⟩

def recordRepair (result : String) (environment : Environment) : Serving Unit :=
  increment ⟨.repairsTotal, result, environment⟩

/-- Run a scrape in the request's thread. -/
def scrape {α : Type} (p : Scrape α) : Serving α := p.inl

/-- Run a program of the engine in the request's thread. -/
def serve {α : Type} (p : Eff α) : Serving α := scrape (engine p)

/-! ### Requests and answers -/

inductive Request where
  | healthz
  | readyz
  | intentSchema
  | validateIntent (intent : Intent)
  | translateIntent (text : String)
  | prometheusMetrics
  | createDeployment (intent : Intent)
  | repairDeployment (name : String) (intent : Intent)
  | getDeployment (name : String)
  | deleteDeployment (name : String)
  deriving DecidableEq

/-- The body of an answer that is not an `HTTPException`. -/
inductive Body where
  | strings (items : List (String × String))
  /-- `Intent.model_json_schema()`. -/
  | schema
  | validated (intent : Intent)
  | translated (candidate : Translated Empty)
  /-- What the collector emitted, in the exposition. -/
  | families (families : List GaugeMetricFamily)
  | deployed (result : Deployed)
  /-- `{**result, "forced": True}`. -/
  | repaired (result : Deployed)
  | report (report : Report)
  | tornDown (result : TornDown)

inductive Response where
  | ok (statusCode : ℕ) (body : Body)
  | http (exc : HTTPException)

/-- What the routes use of pydantic, of the translator and of Python itself. -/
structure Outside where
  modelValidate : List (String × Value Empty) → Except String Intent
  /-- `RuleTranslator().propose`. -/
  propose : String → Except Raised (Proposal Empty)
  repr : String → String

/-! ### Routes -/

/-- `try: ... except DeployError as exc: ...`, around one call of the engine. -/
def caught {α : Type} (p : Eff α) : Eff (Except DeployError α) :=
  tryCatch (.ok <$> p) fun exc =>
    match exc with
    | .deploy e => return .error e
    | _ => throw exc

/-- Answer with what the call of the engine returned, or with the HTTP error of its
failure once that was recorded. -/
def answering {α : Type} (p : Eff α) (failed : Serving Unit) (returned : α → Serving Response) :
    Serving Response := do
  match ← serve (caught p) with
  | .ok result => returned result
  | .error exc => do
      failed
      return .http (httpError exc)

variable (cfg : Settings) (out : Outside)

def healthz : Serving Response := return .ok 200 (.strings [("status", "ok")])

def readyz : Serving Response :=
  answering (checkCluster cfg) (return ()) fun _ =>
    return .ok 200 (.strings [("status", "ready"), ("cluster", "reachable")])

def intentSchema : Serving Response := return .ok 200 .schema

def validateIntent (intent : Intent) : Serving Response := return .ok 200 (.validated intent)

/-- The translator is asked at most once, and computes. -/
def translateIntent (text : String) : Serving Response :=
  match ((translate out.modelValidate "rules" text).run (fun t _ => (out.propose t, ())) ()).1 with
  | .ok candidate => return .ok 200 (.translated candidate)
  | .error (.translationError message) => return .http { statusCode := 422, detail := message }
  | .error (.py e) => throw (.py e)

/-- `metrics.render()`, with a listing of at most this many pages. -/
def prometheusMetrics (pages : ℕ) : Serving Response := do
  return .ok 200 (.families (← scrape (collect cfg (releaseNames cfg pages))))

def createDeployment (intent : Intent) : Serving Response :=
  answering (deploy cfg intent false) (recordDeploy "failed" intent.environment) fun result => do
    recordDeploy "success" intent.environment
    return .ok 201 (.deployed result)

def repairDeployment (name : String) (intent : Intent) : Serving Response :=
  if intent.name ≠ name then
    return .http { statusCode := 400,
                   detail := "intent name " ++ out.repr intent.name ++ " does not match path " ++
                     out.repr name }
  else
    answering (deploy cfg intent true) (recordRepair "failed" intent.environment) fun result => do
      recordRepair "success" intent.environment
      return .ok 200 (.repaired result)

def getDeployment (name : String) : Serving Response :=
  answering (reconcile cfg name none) (return ()) fun report => return .ok 200 (.report report)

def deleteDeployment (name : String) : Serving Response :=
  answering (teardown cfg name) (return ()) fun result => return .ok 200 (.tornDown result)

/-- The program that serves a request. -/
def handle (pages : ℕ) : Request → Serving Response
  | .healthz => healthz
  | .readyz => readyz cfg
  | .intentSchema => intentSchema
  | .validateIntent intent => validateIntent intent
  | .translateIntent text => translateIntent out text
  | .prometheusMetrics => prometheusMetrics cfg pages
  | .createDeployment intent => createDeployment cfg intent
  | .repairDeployment name intent => repairDeployment cfg out name intent
  | .getDeployment name => getDeployment cfg name
  | .deleteDeployment name => deleteDeployment cfg name

/-! ### Traces -/

/-- A call of the engine, as one of the request's. -/
abbrev ofEngine (e : Event Deploy.sig) : Event sig := Event.inl (Event.inl e)

variable {tr : List (Event sig)} {x : Except Exc Response} {α : Type}

theorem traces_serve {p : Eff α} {y : Except Exc α} :
    (serve p).Traces tr y ↔ ∃ tr', tr = tr'.map ofEngine ∧ p.Traces tr' y := by
  rw [serve, scrape, Prog.traces_inl]
  simp only [engine, Prog.traces_inl]
  constructor
  · intro hx
    obtain ⟨_, rfl, tr', rfl, h⟩ := hx
    exact ⟨tr', by simp [ofEngine], h⟩
  · intro hx
    obtain ⟨tr', rfl, h⟩ := hx
    exact ⟨tr'.map Event.inl, by simp [ofEngine], tr', rfl, h⟩

theorem traces_caught {p : Eff α} {tr : List (Event Deploy.sig)}
    {y : Except Exc (Except DeployError α)} :
    (caught p).Traces tr y ↔
      (∃ a, p.Traces tr (.ok a) ∧ y = .ok (.ok a)) ∨
      (∃ e, p.Traces tr (.error (.deploy e)) ∧ y = .ok (.error e)) ∨
      (∃ exc, (∀ e, exc ≠ .deploy e) ∧ p.Traces tr (.error exc) ∧ y = .error exc) := by
  rw [caught, Prog.traces_tryCatch]
  simp only [Prog.traces_map]
  constructor
  · intro h
    rcases h with ⟨result, ⟨_ | a, hp, hresult⟩, rfl⟩ | ⟨exc, tr₁, tr₂, rfl, ⟨_ | a, hp, hexc⟩, hy⟩
    · cases hresult
    · obtain rfl := Except.ok.inj hresult
      exact .inl ⟨a, hp, rfl⟩
    · obtain rfl := Except.error.inj hexc
      cases exc with
      | deploy e =>
          obtain ⟨rfl, rfl⟩ := hy
          exact .inr (.inl ⟨e, by simpa using hp, rfl⟩)
      | os e =>
          obtain ⟨rfl, rfl⟩ := hy
          exact .inr (.inr ⟨.os e, by simp, by simpa using hp, rfl⟩)
      | py e =>
          obtain ⟨rfl, rfl⟩ := hy
          exact .inr (.inr ⟨.py e, by simp, by simpa using hp, rfl⟩)
    · cases hexc
  · intro h
    rcases h with ⟨a, hp, rfl⟩ | ⟨e, hp, rfl⟩ | ⟨exc, hexc, hp, rfl⟩
    · exact .inl ⟨.ok a, ⟨.ok a, hp, rfl⟩, rfl⟩
    · exact .inr ⟨.deploy e, tr, [], (List.append_nil tr).symm, ⟨_, hp, rfl⟩, rfl, rfl⟩
    · refine .inr ⟨exc, tr, [], (List.append_nil tr).symm, ⟨_, hp, rfl⟩, ?_⟩
      cases exc with
      | deploy e => exact absurd rfl (hexc e)
      | os e | py e => exact ⟨rfl, rfl⟩

/-- A route that answers with a call of the engine makes that call, and then what follows
from its result. -/
theorem traces_answering {p : Eff α} {failed : Serving Unit} {returned : α → Serving Response} :
    (answering p failed returned).Traces tr x ↔
      (∃ a tr₁ tr₂, tr = tr₁.map ofEngine ++ tr₂ ∧ p.Traces tr₁ (.ok a) ∧
        (returned a).Traces tr₂ x) ∨
      (∃ e tr₁ tr₂, tr = tr₁.map ofEngine ++ tr₂ ∧ p.Traces tr₁ (.error (.deploy e)) ∧
        (failed >>= fun _ => .ret (.http (httpError e))).Traces tr₂ x) ∨
      (∃ exc tr₁, (∀ e, exc ≠ .deploy e) ∧ tr = tr₁.map ofEngine ∧ p.Traces tr₁ (.error exc) ∧
        x = .error exc) := by
  rw [answering, Prog.traces_bind]
  simp only [traces_serve, traces_caught]
  constructor
  · rintro (⟨_, _, tr₂, rfl, ⟨tr₁, rfl, ⟨a, hp, heq⟩ | ⟨e, hp, heq⟩ | ⟨_, _, _, heq⟩⟩, h⟩ |
      ⟨exc, ⟨tr₁, rfl, ⟨_, _, heq⟩ | ⟨_, _, heq⟩ | ⟨_, hexc, hp, heq⟩⟩, rfl⟩)
    · obtain rfl := Except.ok.inj heq
      exact .inl ⟨a, tr₁, tr₂, rfl, hp, h⟩
    · obtain rfl := Except.ok.inj heq
      exact .inr (.inl ⟨e, tr₁, tr₂, rfl, hp, h⟩)
    · cases heq
    · cases heq
    · cases heq
    · obtain rfl := Except.error.inj heq
      exact .inr (.inr ⟨exc, tr₁, hexc, rfl, hp, rfl⟩)
  · intro hx
    rcases hx with ⟨a, tr₁, tr₂, rfl, hp, h⟩ | ⟨e, tr₁, tr₂, rfl, hp, h⟩ |
      ⟨exc, tr₁, hexc, rfl, hp, rfl⟩
    · exact .inl ⟨.ok a, _, tr₂, rfl, ⟨tr₁, rfl, .inl ⟨a, hp, rfl⟩⟩, h⟩
    · exact .inl ⟨.error e, _, tr₂, rfl, ⟨tr₁, rfl, .inr (.inl ⟨e, hp, rfl⟩)⟩, h⟩
    · exact .inr ⟨exc, ⟨tr₁, rfl, .inr (.inr ⟨exc, hexc, hp, rfl⟩)⟩, rfl⟩

end NfOrchestrator.Api
