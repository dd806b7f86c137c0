import NfOrchestrator.Reconciler.Documents
import NfOrchestrator.Reconciler.Printed

/-!
# NfOrchestrator.Reconciler.Verdict

What `reconcile` reports **from texts that read** as a history and a listing: the
`verdict` on the revisions and pods they list.
-/

namespace NfOrchestrator.Reconciler

open Deploy

/-! ### What the texts say -/

/-- The history lists these revisions; a release without one has none. -/
def SaysHistory (d : Printed) (entries : List Entry) : Prop :=
  match d.history with
  | none => entries = []
  | some text => ∃ history, Json.loads text = .ok history ∧ ReadsHistory history entries

/-- The pods `reconcile` works on: those kubectl lists, or those a caller passes, parsed
from such a listing. -/
def ShowsPods (d : Printed) (given : Option (List PodState)) (pods : List Pod) : Prop :=
  match given with
  | none => ∃ listing, Json.loads d.pods = .ok listing ∧ ReadsListing listing pods
  | some states => ∃ items, List.Forall₂ Pod.Reads items pods ∧ parsePods (.arr items) = .ok states

/-- The values give the replica count as an integer. -/
def SaysReplicas (text : String) (n : ℤ) : Prop :=
  ∃ values, Json.loads text = .ok values ∧ values.get "replicaCount" = .ok (.int n)

theorem showsPods_shown (d : Printed) (pods : List Pod) :
    ShowsPods d (some (shownPods pods)) pods :=
  ⟨pods.map Pod.toItem, forall₂_toItem pods, parsePods_reads (forall₂_toItem pods)⟩

theorem ShowsPods.podsFrom {d : Printed} {given : Option (List PodState)} {pods : List Pod}
    (h : ShowsPods d given pods) : podsFrom given d.pods = .ok (shownPods pods) := by
  cases given with
  | none =>
      obtain ⟨listing, hloads, items, hitems, hreads⟩ := h
      simp only [Reconciler.podsFrom, bind, Except.bind, hloads, hitems, parsePods_reads hreads]
  | some states =>
      obtain ⟨items, hreads, hparse⟩ := h
      rw [Reconciler.podsFrom, ← hparse, parsePods_reads hreads]

theorem readReplicas_of_toInt {text : String} {values replicas : Json} {n : ℤ}
    (hloads : Json.loads text = .ok values) (hget : values.get "replicaCount" = .ok replicas)
    (hnull : replicas ≠ .null) (hint : replicas.toInt = .ok n) (name : String) :
    readReplicas name text = .ok n := by
  rw [readReplicas, hloads]
  simp only [Except.mapError, bind, Except.bind, hget, if_neg hnull, hint]

theorem SaysReplicas.readReplicas {text : String} {n : ℤ} (h : SaysReplicas text n)
    (name : String) : Reconciler.readReplicas name text = .ok n := by
  obtain ⟨values, hloads, hget⟩ := h
  exact readReplicas_of_toInt hloads hget (by simp) rfl name

/-! ### The verdict -/

/-- The desired count: that of the last deployed revision's values, or 0 without one. -/
def desiredOf (name : String) (values : String → String) (entries : List Entry) :
    Except Exc ℤ :=
  match lastDeployed entries with
  | none => .ok 0
  | some revision => readReplicas name (values (toString revision))

/-- The report on the release, or the exception that reading its values raised. -/
def verdict (name : String) (values : String → String) (entries : List Entry) (pods : List Pod) :
    Except Exc Report :=
  match newest entries with
  | none => .ok (absent name)
  | some e => (desiredOf name values entries).map (reported name entries e pods)

theorem verdict_of_newest {entries : List Entry} {e : Entry} {n : ℤ} {name : String}
    {values : String → String} (he : newest entries = some e)
    (hn : desiredOf name values entries = .ok n) (pods : List Pod) :
    verdict name values entries pods = .ok (reported name entries e pods n) := by
  rw [verdict, he]
  simp only [hn, Except.map]

theorem desiredFrom_reads {history : Json} {entries : List Entry}
    (h : ReadsHistory history entries) (name : String) (values : String → String) :
    desiredFrom name values history = desiredOf name values entries := by
  rw [desiredFrom, deployedRevision_reads h, desiredOf]
  cases lastDeployed entries with
  | none => rfl
  | some revision => rfl

theorem readingOf_reads {name : String} {d : Printed} {given : Option (List PodState)}
    {history : Json} {entries : List Entry} {pods : List Pod}
    (hreads : ReadsHistory history entries) (hp : ShowsPods d given pods) :
    readingOf name d given history = verdict name d.values entries pods := by
  rw [readingOf, verdict, hreads.truthy]
  cases he : newest entries with
  | none =>
      obtain rfl : entries = [] := List.argmax_eq_none.mp he
      rfl
  | some e =>
      have hne : entries ≠ [] := by
        rintro rfl
        cases he
      rw [if_neg (by simpa using hne), newestStatus_reads hreads he,
        lastOperation_reads hreads he, desiredFrom_reads hreads, hp.podsFrom]
      cases desiredOf name d.values entries with
      | error exc => rfl
      | ok n => exact congrArg (Except.mapError Exc.py) (reportOn_reads hreads name e pods n)

theorem reading_verdict {name : String} {d : Printed} {given : Option (List PodState)}
    {entries : List Entry} {pods : List Pod} (hh : SaysHistory d entries)
    (hp : ShowsPods d given pods) :
    reading name d given = verdict name d.values entries pods := by
  rw [SaysHistory] at hh
  rw [reading]
  cases hhistory : d.history with
  | none =>
      rw [hhistory] at hh
      obtain rfl : entries = [] := hh
      rfl
  | some text =>
      rw [hhistory] at hh
      obtain ⟨history, hloads, hreads⟩ := hh
      rw [← readingOf_reads hreads hp]
      simp only [hloads, Except.mapError, bind, Except.bind]

/-- `reconcile` ends with the verdict and with nothing else. -/
theorem ends_verdict_iff {cfg : Settings} {name : String} {d : Printed}
    {given : Option (List PodState)} {entries : List Entry} {pods : List Pod}
    (hh : SaysHistory d entries) (hp : ShowsPods d given pods) {x : Except Exc Report} :
    (reconcile cfg name given).Ends (printing cfg name d) () x ↔
      x = verdict name d.values entries pods := by
  rw [ends_printing_iff, reading_verdict hh hp]

end NfOrchestrator.Reconciler
