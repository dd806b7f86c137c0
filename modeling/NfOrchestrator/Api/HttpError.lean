import NfOrchestrator.Deploy.Errors

/-!
# NfOrchestrator.Api.HttpError

The **HTTP answer to a failed call**: the status code, the detail and the headers that
`http_error` picks from the class of the exception, in the order of its tests.
-/

namespace NfOrchestrator.Api

/-- The `HTTPException` a route raises. -/
structure HTTPException where
  statusCode : ℕ
  detail : String
  headers : List (String × String) := []
  deriving DecidableEq

def busyRetryAfter : String := "5"

/-- The detail of a field-ownership conflict says what to do about it. -/
def conflictDetail (message : String) : String :=
  message ++ " -- another field manager owns a field this intent would " ++
    "change. Resubmitting will not help. To take ownership, POST the " ++
    "same intent to /deployments/\x7bname\x7d/repair."

/-- 500 for a host that cannot run its tools, 503 for one that is overloaded and for a
cluster that is busy or unreachable, 409 for a conflict and 502 for any other refusal. -/
def httpError (exc : DeployError) : HTTPException :=
  let retry := [("Retry-After", busyRetryAfter)]
  if exc.cls = .hostMisconfigured then { statusCode := 500, detail := exc.message }
  else if exc.isHostOverloaded then
    { statusCode := 503, detail := exc.message, headers := retry }
  else if exc.cls = .clusterBusy then
    { statusCode := 503, detail := exc.message, headers := retry }
  else if exc.cls = .clusterUnreachable then { statusCode := 503, detail := exc.message }
  else if exc.cls = .clusterConflict then
    { statusCode := 409, detail := conflictDetail exc.message }
  else { statusCode := 502, detail := exc.message }

/-- A 503 that does not ask the caller to come back. -/
def SaysUnreachable (answer : HTTPException) : Prop :=
  answer.statusCode = 503 ∧ "Retry-After" ∉ answer.headers.map Prod.fst

instance (answer : HTTPException) : Decidable (SaysUnreachable answer) :=
  inferInstanceAs (Decidable (_ ∧ _))

/-- A failed call is answered with 503 without `Retry-After` when the cluster was
unreachable, and only then. -/
theorem saysUnreachable_iff (exc : DeployError) :
    SaysUnreachable (httpError exc) ↔ exc.cls = .clusterUnreachable := by
  obtain ⟨cls, message⟩ := exc
  cases cls <;> simp [SaysUnreachable, httpError, DeployError.isHostOverloaded]

end NfOrchestrator.Api
