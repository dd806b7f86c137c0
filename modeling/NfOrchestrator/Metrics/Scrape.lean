import Mathlib.Data.PNat.Order
import NfOrchestrator.Reconciler.Reconcile

/-!
# NfOrchestrator.Metrics.Scrape

**Reconciling many releases within a budget.** A scrape hands releases to a thread pool
a wave at a time, and stops when the budget says that the next wave cannot finish.

The scrape's own thread is a program over the engine's operations and those on its pool
and its prober thread. What a worker does is `snapshot`; a future stands for one such
piece of work, and asking it for its result is an operation.
-/

namespace NfOrchestrator.Metrics

open Deploy Reconciler

/-! ### What a scrape learns about one release -/

/-- Why a release could not be read: `BUSY`, `HOST`, `EXHAUSTED`, `MISCONFIGURED`, or
`None` when reading it failed otherwise. -/
inductive Unread where
  | busy
  | host
  | exhausted
  | misconfigured
  | none
  deriving DecidableEq

inductive Snapshot where
  /-- The dict that `reconcile` returned. -/
  | dict (current : Report)
  | unread (why : Unread)
  deriving DecidableEq

/-- The `except` clauses of `snapshot`, in their order. -/
def unreadFor (exc : Exc) : Except Exc Snapshot :=
  match exc with
  | .deploy e =>
      if e.cls = .hostExhausted then .ok (.unread .exhausted)
      else if e.cls = .hostMisconfigured then .ok (.unread .misconfigured)
      else if e.isHostOverloaded then .ok (.unread .host)
      else if e.cls = .clusterBusy then .ok (.unread .busy)
      else .ok (.unread .none)
  | .os _ => .ok (.unread .none)
  | .py _ => .error exc

/-- Reconcile one release, or say why it could not be read this scrape. -/
def snapshot (cfg : Settings) (name : String) (pods : Option (List PodState)) : Eff Snapshot :=
  tryCatch (.dict <$> reconcile cfg name pods) fun exc => Prog.ofExcept (unreadFor exc)

/-! ### The scrape's threads -/

inductive Op where
  /-- `pool.submit(snapshot, name, pods)`; the reply is `false` when it raised
  `RuntimeError`, since no thread could be started. -/
  | submit (name : String) (pods : Option (List PodState))
  /-- Wait for these releases, at most this long. -/
  | wait (names : List String) (timeout : ℚ)
  | done (name : String) (pods : Option (List PodState))
  /-- The result of a future that is done and was not cancelled, if it is. -/
  | poll (name : String) (pods : Option (List PodState))
  | shutdown
  /-- `prober.start()`; the reply is `false` when it raised `RuntimeError`. -/
  | startProber
  | joinProber (timeout : ℚ)
  /-- The first element of `measured`, if it has one. -/
  | measured

/-- The type of the reply to each operation. -/
abbrev Resp : Op → Type
  | .submit _ _ | .done _ _ | .startProber => Bool
  | .wait _ _ | .shutdown | .joinProber _ => Unit
  | .poll _ _ => Option (Except Exc Snapshot)
  | .measured => Option Probe

abbrev sig : Signature := Deploy.sig.sum ⟨Op, Resp⟩

/-- A program of the scrape's thread. -/
abbrev Scrape (α : Type) := Prog sig Exc α

/-- Call one operation on the threads. -/
def perform (o : Op) : Scrape (Resp o) := .call (show sig.Op from .inr o) .ret

@[simp] theorem wp_perform {W : Type} {Φ : Spec sig W} {w : W} {o : Op}
    {Q : Except Exc (Resp o) → W → Prop} :
    (perform o).wp Φ Q w ↔ Φ (Sum.inr o) w fun r w' => Q (.ok r) w' := Iff.rfl

/-- Run a program of the engine in the scrape's thread. -/
def engine {α : Type} (p : Eff α) : Scrape α := p.inl

@[simp] theorem wp_engine {W α : Type} {E : Env sig W} {p : Eff α}
    {Q : Except Exc α → W → Prop} {w : W} : (engine p).wp E.spec Q w ↔ p.wp E.inl.spec Q w :=
  Prog.wp_inl

/-! ### Futures -/

/-- A future of a scrape, known by the work it stands for. -/
inductive Future where
  | started (name : String) (pods : Option (List PodState))
  /-- The future `submit` settles as `EXHAUSTED` when no thread could be started. -/
  | settled
  /-- `_never_started()`: nothing ever sets its result. -/
  | neverStarted
  deriving DecidableEq

/-- `future.done()`. -/
def Future.done : Future → Scrape Bool
  | .started name pods => perform (.done name pods)
  | .settled => return true
  | .neverStarted => return false

/-- Nothing when `not future.done() or future.cancelled()`, and `future.result()`
otherwise. -/
def Future.poll : Future → Scrape (Option Snapshot)
  | .started name pods => do
      match ← perform (.poll name pods) with
      | none => return none
      | some result => some <$> Prog.ofExcept result
  | .settled => return some (.unread .exhausted)
  | .neverStarted => return none

/-- `d[key] = value` on a dict, which keeps the order of insertion. -/
def setItem {α : Type} (d : List (String × α)) (key : String) (value : α) : List (String × α) :=
  if d.any (·.1 == key) then d.map fun e => if e.1 == key then (key, value) else e
  else d ++ [(key, value)]

/-- `d.update(e)`. -/
def update {α : Type} (d e : List (String × α)) : List (String × α) :=
  e.foldl (fun d kv => setItem d kv.1 kv.2) d

/-- `d.setdefault(key, value)`. -/
def setDefault {α : Type} (d : List (String × α)) (key : String) (value : α) :
    List (String × α) :=
  if d.any (·.1 == key) then d else d ++ [(key, value)]

/-! ### Waves -/

/-- Every release's pods, by the `app` label. -/
abbrev PodsByRelease := List (Json × List PodState)

/-- `pods.get(name, [])`. -/
def podsFor (pods : PodsByRelease) (name : String) : List PodState :=
  ((pods.find? fun entry => entry.1.isStr name).map Prod.snd).getD []

/-- Start reconciling one release, or record that this host could not start a thread. -/
def submit (name : String) (pods : Option (List PodState)) : Scrape Future := do
  if ← perform (.submit name pods) then return .started name pods else return .settled

/-- The futures of one wave. -/
def submitAll (pods : Option PodsByRelease) (batch : List (String × Future)) :
    List String → Scrape (List (String × Future))
  | [] => return batch
  | name :: rest => do
      let future ← submit name (pods.map fun p => podsFor p name)
      submitAll pods (setItem batch name future) rest

/-- `all(future.done() for future in futures)`. -/
def allDone : List Future → Scrape Bool
  | [] => return true
  | future :: rest => do
      if ← future.done then allDone rest else return false

variable (cfg : Settings)

/-- `SCRAPE_WORKERS`. -/
def scrapeWorkers : ℕ+ := ⟨cfg.scrapeWorkers, cfg.scrapeWorkers_pos⟩

/-- Admit the queue a wave at a time, until it is empty or the budget ends. Returns the
futures and what is left of the queue. -/
def waves (pods : Option PodsByRelease) (deadline : ℚ) (wave : ℕ+) (previousCost : ℚ)
    (futures : List (String × Future)) :
    List String → Scrape (List (String × Future) × List String)
  | [] => return (futures, [])
  | name :: rest => do
      let queue := name :: rest
      let remaining := deadline - (← engine monotonic)
      if remaining ≤ 0 ∨ (previousCost ≠ 0 ∧ remaining < previousCost) then
        return (futures, queue)
      let started ← engine monotonic
      let batch ← submitAll pods [] (queue.take wave)
      let now ← engine monotonic
      let _ ← perform (.wait (batch.map Prod.fst) (max 0 (deadline - now)))
      let cost := (← engine monotonic) - started
      if ← allDone (batch.map Prod.snd) then
        waves pods deadline (min (wave * 2) (scrapeWorkers cfg)) cost (update futures batch)
          (queue.drop wave)
      else return (update futures batch, queue.drop wave)
termination_by queue => queue.length
decreasing_by
  have := wave.pos
  simp only [List.length_drop, List.length_cons]
  omega

/-- Reconcile as many releases as the budget allows, in waves that grow while the cluster
keeps up. Nothing in the waves raises, so the pool is shut down in any case. -/
def reconcileWithin (names : List String) (pods : Option PodsByRelease) (deadline : ℚ) :
    Scrape (List (String × Future)) := do
  let (futures, queue) ← waves cfg pods deadline (min 2 (scrapeWorkers cfg)) 0 [] names
  let _ ← perform .shutdown
  return queue.foldl (fun d name => setDefault d name .neverStarted) futures

end NfOrchestrator.Metrics
