import NfOrchestrator.Deploy.Blocks
import NfOrchestrator.Reconciler.Reconcile

/-!
# NfOrchestrator.Reconciler.Blocks

The reconciler is made of the engine's blocks.
-/

namespace NfOrchestrator.Deploy.Blocks

open Reconciler

variable {cfg : Settings} {Q : List String → Prop} {C : ∀ ⦃α : Type⦄, Eff α → Prop}
  (hC : Blocks cfg Q C) {α : Type}

include hC

theorem unlessNotFound {call : Eff α} (h : C call) : C (unlessNotFound call) := by
  refine hC.tryCatch (hC.map _ h) fun exc => ?_
  rcases exc with e | e | e
  · dsimp only
    split_ifs
    · exact hC.throw _
    · exact hC.ret _
    · exact hC.throw _
  · exact hC.throw _
  · exact hC.throw _

theorem helmReleaseStatus {name : String} (h : Q ("helm" :: statusArgs cfg name)) :
    C (helmReleaseStatus cfg name) := by
  refine hC.bind (hC.unlessNotFound (hC.runHelm h)) fun output => ?_
  cases output with
  | none => exact hC.ret _
  | some output => exact hC.ofPy _

theorem podsByRelease (h : Q (["kubectl", "--context", cfg.kubeContext] ++ allPodsArgs)) :
    C (podsByRelease cfg) := hC.bind (hC.runKubectl h) fun _ => hC.ofPy _

theorem reconcile {name : String} (hhistory : Q ("helm" :: historyArgs cfg name))
    (hvalues : ∀ revision, Q ("helm" :: valuesArgs cfg name revision))
    (hpods : Q (["kubectl", "--context", cfg.kubeContext] ++ podsArgs name))
    (pods : Option (List PodState)) : C (reconcile cfg name pods) := by
  have hread : C (existingHistory cfg name) := by
    refine hC.bind (hC.unlessNotFound ?_) fun _ => hC.ret _
    exact hC.bind (hC.runHelm hhistory) fun _ => hC.ofPy _
  have hdesired : ∀ history, C (desiredReplicas cfg name history) := by
    intro history
    refine hC.bind (hC.ofPy _) fun revision => ?_
    split_ifs
    · exact hC.ret _
    · exact hC.bind (hC.runHelm (hvalues revision)) fun _ => hC.ofExcept _
  have hgiven : C (podsOf cfg name pods) := by
    cases pods with
    | some pods => exact hC.ret _
    | none => exact hC.bind (hC.runKubectl hpods) fun _ => hC.ofPy _
  refine hC.bind hread fun history => ?_
  split_ifs
  · exact hC.ret _
  · exact hC.bind (hC.ofPy _) fun _ => hC.bind (hC.ofPy _) fun _ => hC.bind (hdesired history)
      fun _ => hC.bind hgiven fun _ => hC.ofPy _

theorem teardown {name : String} (hstatus : Q ("helm" :: statusArgs cfg name))
    (huninstall : Q ("helm" :: uninstallArgs cfg name)) : C (teardown cfg name) := by
  refine hC.bind (hC.helmReleaseStatus hstatus) fun status => ?_
  split_ifs
  · exact hC.ret _
  · exact hC.bind (hC.runHelm huninstall) fun _ => hC.ret _

end NfOrchestrator.Deploy.Blocks
