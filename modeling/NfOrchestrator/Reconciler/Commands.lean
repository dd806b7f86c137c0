import NfOrchestrator.Deploy.Commands
import NfOrchestrator.Reconciler.Reconcile

/-!
# NfOrchestrator.Reconciler.Commands

Which **processes** the reconciler starts: it reads with `helm status`, `helm history`,
`helm get values` and `kubectl get pods`, and a teardown uninstalls.
-/

namespace NfOrchestrator.Reconciler

open Deploy

variable (cfg : Settings) {Q : List String → Prop} {L : Prop} {α : Type}

theorem within_unlessNotFound {call : Eff α} (h : call.Within (Calls Q L)) :
    (unlessNotFound call).Within (Calls Q L) := by
  refine Prog.Within.tryCatch ?_ fun exc => ?_
  · rw [map_eq_pure_bind]
    exact h.bind fun _ => trivial
  · rcases exc with e | e | e
    · dsimp only
      split_ifs <;> trivial
    · trivial
    · trivial

section probe

variable (hprobe : Q (probeCommand cfg))

include hprobe

theorem within_helmReleaseStatus {name : String} (h : Q ("helm" :: statusArgs cfg name)) :
    (helmReleaseStatus cfg name).Within (Calls Q L) := by
  refine (within_unlessNotFound (within_runHelm cfg hprobe h)).bind fun output => ?_
  cases output with
  | none => trivial
  | some output => exact within_ofPy _

theorem within_podsByRelease (h : Q (["kubectl", "--context", cfg.kubeContext] ++ allPodsArgs)) :
    (podsByRelease cfg).Within (Calls Q L) :=
  (within_runKubectl cfg hprobe h).bind fun _ => within_ofPy _

theorem within_reconcile {name : String} (hhistory : Q ("helm" :: historyArgs cfg name))
    (hvalues : ∀ revision, Q ("helm" :: valuesArgs cfg name revision))
    (hpods : Q (["kubectl", "--context", cfg.kubeContext] ++ podsArgs name))
    (pods : Option (List PodState)) : (reconcile cfg name pods).Within (Calls Q L) := by
  have hread : (existingHistory cfg name).Within (Calls Q L) := by
    refine (within_unlessNotFound ?_).bind fun _ => trivial
    exact (within_runHelm cfg hprobe hhistory).bind fun _ => within_ofPy _
  have hdesired : ∀ history, (desiredReplicas cfg name history).Within (Calls Q L) := by
    intro history
    refine (within_ofPy _).bind fun revision => ?_
    split_ifs
    · trivial
    · exact (within_runHelm cfg hprobe (hvalues revision)).bind fun _ => Prog.within_ofExcept _
  have hgiven : (podsOf cfg name pods).Within (Calls Q L) := by
    cases pods with
    | some pods => trivial
    | none => exact (within_runKubectl cfg hprobe hpods).bind fun _ => within_ofPy _
  refine hread.bind fun history => ?_
  split_ifs
  · trivial
  · exact (within_ofPy _).bind fun _ => (within_ofPy _).bind fun _ => (hdesired history).bind
      fun _ => hgiven.bind fun _ => within_ofPy _

theorem within_teardown {name : String} (hstatus : Q ("helm" :: statusArgs cfg name))
    (huninstall : Q ("helm" :: uninstallArgs cfg name)) :
    (teardown cfg name).Within (Calls Q L) := by
  refine (within_helmReleaseStatus cfg hprobe hstatus).bind fun status => ?_
  split_ifs
  · trivial
  · exact (within_runHelm cfg hprobe huninstall).bind fun _ => trivial

end probe

end NfOrchestrator.Reconciler
