import NfOrchestrator.Api.Counted
import NfOrchestrator.Api.Turns

/-!
# NfOrchestrator.Api.Threads

The **threads of the server**, each with the program it runs and the moves it makes (`Does`).
A request makes the moves of the one call of the engine that it answers with, a worker of a
scrape those of its `reconcile`, and every other thread none (`wp_thread`).
-/

namespace NfOrchestrator.Api

open Deploy Reconciler

/-! ### Threads -/

/-- A thread of the server: it serves a request, or a scrape started it. -/
inductive Thread where
  | request (r : Request)
  | worker (name : String) (pods : Option (List PodState))
  | prober

/-- What the program of a thread returns. -/
def Thread.Answer : Thread → Type
  | .request _ => Response
  | .worker _ _ => Metrics.Snapshot
  | .prober => Probe

variable (cfg : Settings) (out : Outside) (pages : ℕ) (defaults : List (String × Json))
  (truthful : Prop)

def Thread.prog : (t : Thread) → Serving t.Answer
  | .request r => handle cfg out pages r
  | .worker name pods => serve (Metrics.snapshot cfg name pods)
  | .prober => serve (Metrics.prober cfg)

/-- helm and kubectl for the threads of the server, whose counters and workers are no business
of the cluster's. -/
def serving : Env sig Cluster := fun o c r c' =>
  match o, r with
  | .inl (.inl o), r => helm cfg defaults truthful o c r c'
  | .inl (.inr _), _ | .inr _, _ => c' = c

/-! ### What a thread does -/

/-- The thread submits this intent, for deployment or for repair. -/
def Submits (t : Thread) (intent : Intent) : Prop :=
  ∃ counter, t = .request (submission counter intent)

/-- The thread deploys the release, or repairs it. -/
def Thread.Upgrades (t : Thread) (name : String) : Prop :=
  ∃ intent, Submits t intent ∧ releaseName intent = name

def Thread.Deletes (t : Thread) (name : String) : Prop := t = .request (.deleteDeployment name)

/-- The answer of a route, from how its call of the engine ended. -/
def answerOf {α : Type} (statusCode : ℕ) (body : α → Body) : Except Exc α → Except Exc Response
  | .ok a => .ok (.ok statusCode (body a))
  | .error (.deploy e) => .ok (.http (httpError e))
  | .error exc => .error exc

/-- What a worker returns, from how its `reconcile` ended. -/
def snapshotOf : Except Exc Report → Except Exc Metrics.Snapshot
  | .ok report => .ok (.dict report)
  | .error exc => Metrics.unreadFor exc

/-- The moves of a thread that ended so. `torn` are the releases that are being torn down. -/
def Does (torn : String → Prop) :
    (t : Thread) → Except Exc t.Answer → List (Cluster × Cluster) → Prop
  | .request (.createDeployment intent), x, moves =>
      ∃ y, x = answerOf 201 .deployed y ∧ Deploys intent y moves
  | .request (.repairDeployment name intent), x, moves =>
      if intent.name ≠ name then moves = []
      else ∃ y, x = answerOf 200 .repaired y ∧ Deploys intent y moves
  | .request (.deleteDeployment name), x, moves =>
      ∃ y, x = answerOf 200 .tornDown y ∧ TearsDown truthful name y moves
  | .request (.getDeployment name), x, moves =>
      ∃ y, x = answerOf 200 .report y ∧ ReadsStatus truthful (torn name) name none y moves
  | .worker name pods, x, moves =>
      ∃ y, x = snapshotOf y ∧ ReadsStatus truthful (torn name) name pods y moves
  | _, _, moves => moves = []

variable {cfg out pages defaults truthful} {builds clears torn : String → Prop} {c₀ : Cluster}

/-- The programs of the threads, among threads that keep the cluster so. -/
abbrev taking (cfg : Settings) (defaults : List (String × Json)) (truthful : Prop)
    (builds clears torn : String → Prop) (c₀ : Cluster) : Spec sig (List (Cluster × Cluster)) :=
  atomic (serving cfg defaults truthful) (Acts builds clears) (Keeps torn) c₀

theorem taking_mono : (taking cfg defaults truthful builds clears torn c₀).Mono := atomic_mono

variable {α : Type} {g : List (Cluster × Cluster)}

theorem wp_serve {p : Eff α} {Q : Except Exc α → List (Cluster × Cluster) → Prop} :
    (serve p).wp (taking cfg defaults truthful builds clears torn c₀) Q g ↔
      p.wp (turning cfg defaults truthful builds clears torn c₀) Q g := by
  rw [serve, scrape, Metrics.engine, wp_atomic_inl, wp_atomic_inl]
  rfl

theorem wp_increment {c : Count} {Q : Except Exc Unit → List (Cluster × Cluster) → Prop}
    (h : Q (.ok ()) g) :
    (increment c).wp (taking cfg defaults truthful builds clears torn c₀) Q g :=
  atomic_still acts_refl (fun _ _ _ hc => hc) fun _ _ _ _ => h

/-- A route that answers with a call of the engine makes the moves of the call. -/
theorem wp_answering {p : Eff α} {failed : Serving Unit} {returned : α → Serving Response}
    {D : Except Exc α → List (Cluster × Cluster) → Prop} {statusCode : ℕ} {body : α → Body}
    (hp : p.wp (turning cfg defaults truthful builds clears torn c₀) D [])
    (hfailed : ∀ (Q : Except Exc Unit → List (Cluster × Cluster) → Prop) g, Q (.ok ()) g →
      failed.wp (taking cfg defaults truthful builds clears torn c₀) Q g)
    (hreturned : ∀ a (Q : Except Exc Response → List (Cluster × Cluster) → Prop) g,
      Q (.ok (.ok statusCode (body a))) g →
        (returned a).wp (taking cfg defaults truthful builds clears torn c₀) Q g) :
    (answering p failed returned).wp (taking cfg defaults truthful builds clears torn c₀)
      (fun x g => ∃ y, x = answerOf statusCode body y ∧ D y g) [] := by
  rw [answering, Prog.wp_bind, wp_serve, caught, Prog.wp_tryCatch, Prog.wp_map]
  refine Prog.wp_mono turning_mono ?_ hp
  rintro (exc | a) g hy
  · cases exc with
    | deploy e =>
        change (failed >>= fun _ => _).wp _ _ g
        rw [Prog.wp_bind]
        exact hfailed _ g ⟨_, rfl, hy⟩
    | os e | py e => exact ⟨_, rfl, hy⟩
  · exact hreturned a _ g ⟨_, rfl, hy⟩

/-- A program of which every process only reads. -/
abbrev Looking : sig.Op → Prop :=
  Sum.elim (Metrics.Scraping (Calls Reading True)) fun _ => True

/-- A program that only reads makes no move, whatever it returns. -/
theorem wp_looking {p : Serving α} (hp : p.Within Looking) :
    p.wp (taking cfg defaults truthful builds clears torn c₀) (fun _ g => g = []) [] := by
  have hstill : ∀ o c r c', Looking o → serving cfg defaults truthful o c r c' → c' = c := by
    intro o c r c' ho h
    rcases o with (o | o) | o
    · exact still_of_calls o c r c' ho h
    · exact h
    · exact h
  refine Prog.wp_mono taking_mono ?_ (wp_atomic_within (A := fun _ _ => True) (X := fun _ => True)
    acts_refl hstill (fun _ _ _ _ _ => trivial) hp (fun _ _ _ _ => trivial) [])
  exact fun x g h => h.1

theorem looking_serve {p : Eff α} (hp : p.Within (Calls Reading True)) :
    (serve p).Within Looking := hp.inl.inl

/-! ### Every thread makes the moves of its answer -/

theorem wp_submission {intent : Intent} (hbuilds : builds (releaseName intent))
    {forceConflicts : Bool} {statusCode : ℕ} {body : Deployed → Body} (count : String → Count) :
    (answering (deploy cfg intent forceConflicts) (increment (count "failed")) fun result => do
        increment (count "success")
        return .ok statusCode (body result)).wp
      (taking cfg defaults truthful builds clears torn c₀)
      (fun x g => ∃ y, x = answerOf statusCode body y ∧ Deploys intent y g) [] := by
  refine wp_answering (wp_deploy_atomic cfg defaults truthful c₀ hbuilds forceConflicts)
    (fun Q g h => wp_increment h) fun a Q g h => ?_
  rw [Prog.wp_bind]
  exact wp_increment h

/-- A repair under another name than the intent's is turned away, any other deploys the intent. -/
theorem wp_repairDeployment {name : String} {intent : Intent}
    (hbuilds : intent.name = name → builds (releaseName intent)) :
    (repairDeployment cfg out name intent).wp
      (taking cfg defaults truthful builds clears torn c₀)
      (Does truthful torn (.request (.repairDeployment name intent))) [] := by
  by_cases hname : intent.name ≠ name
  · have hdoes : Does truthful torn (.request (.repairDeployment name intent)) =
        fun _ moves => moves = [] := by
      funext x moves
      exact if_pos hname
    rw [repairDeployment, if_pos hname, hdoes]
    rfl
  · have hdoes : Does truthful torn (.request (.repairDeployment name intent)) =
        fun x moves => ∃ y, x = answerOf 200 .repaired y ∧ Deploys intent y moves := by
      funext x moves
      exact if_neg hname
    rw [repairDeployment, if_neg hname, hdoes]
    exact wp_submission (hbuilds (not_not.mp hname)) fun result =>
      ⟨.repairsTotal, result, intent.environment⟩

/-- A worker moves where its `reconcile` does. -/
theorem wp_snapshot (name : String) (pods : Option (List PodState)) :
    (serve (Metrics.snapshot cfg name pods)).wp
      (taking cfg defaults truthful builds clears torn c₀)
      (fun x g => ∃ y, x = snapshotOf y ∧ ReadsStatus truthful (torn name) name pods y g) [] := by
  rw [wp_serve, Metrics.snapshot, Prog.wp_tryCatch, Prog.wp_map]
  refine Prog.wp_mono turning_mono ?_
    (wp_reconcile_atomic cfg defaults truthful builds clears torn c₀ name pods)
  rintro (exc | report) g h
  · change (Prog.ofExcept (Metrics.unreadFor exc)).wp _ _ g
    rw [Prog.wp_ofExcept]
    exact ⟨.error exc, rfl, h⟩
  · exact ⟨.ok report, rfl, h⟩

/-- Whatever a thread serves, it makes the moves of how it ends. -/
theorem wp_thread (t : Thread) :
    (t.prog cfg out pages).wp (taking cfg defaults truthful t.Upgrades t.Deletes torn c₀)
      (Does truthful torn t) [] := by
  cases t with
  | worker name pods => exact wp_snapshot name pods
  | prober => exact wp_looking (looking_serve (Metrics.within_prober cfg reading_probe))
  | request r =>
      cases r with
      | healthz | intentSchema | validateIntent intent => exact rfl
      | readyz =>
          have hcheck := within_checkCluster (Q := Reading) (L := True) cfg trivial reading_probe
            reading_version
          have hcaught : (caught (checkCluster cfg)).Within (Calls Reading True) := by
            refine Prog.Within.tryCatch ?_ fun exc => ?_
            · rw [map_eq_pure_bind]
              exact hcheck.bind fun _ => trivial
            · cases exc <;> trivial
          have hlooking : (readyz cfg).Within Looking :=
            (looking_serve hcaught).bind fun result => by cases result <;> trivial
          exact wp_looking hlooking
      | translateIntent text =>
          have hlooking : (translateIntent out text).Within Looking := by
            unfold translateIntent
            split <;> trivial
          exact wp_looking hlooking
      | prometheusMetrics =>
          have hcollect := Metrics.within_collect (L := True) cfg trivial reading_probe
            reading_version (reading_kubectl _) (Metrics.within_releaseNames cfg reading_probe
              (fun _ => reading_helm (by decide) _) pages)
          exact wp_looking (hcollect.inl.bind fun _ => trivial)
      | createDeployment intent =>
          have hupgrades : (Thread.request (.createDeployment intent)).Upgrades
              (releaseName intent) := ⟨intent, ⟨.deploymentsTotal, rfl⟩, rfl⟩
          exact wp_submission hupgrades fun result =>
            ⟨.deploymentsTotal, result, intent.environment⟩
      | repairDeployment name intent =>
          refine wp_repairDeployment fun hname => ?_
          subst hname
          exact ⟨intent, ⟨.repairsTotal, rfl⟩, rfl⟩
      | getDeployment name =>
          exact wp_answering
            (wp_reconcile_atomic cfg defaults truthful _ _ torn c₀ name none)
            (fun Q g h => h) fun a Q g h => h
      | deleteDeployment name =>
          have hdeletes : (Thread.request (.deleteDeployment name)).Deletes name := rfl
          exact wp_answering (wp_teardown_atomic cfg defaults truthful c₀ hdeletes)
            (fun Q g h => h) fun a Q g h => h

end NfOrchestrator.Api
