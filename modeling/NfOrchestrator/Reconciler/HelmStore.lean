import NfOrchestrator.Reconciler.Documents

/-!
# NfOrchestrator.Reconciler.HelmStore

**What Helm keeps of a release**, and how its operations change it. Beside the revisions
a store carries the intent Helm last recorded as deployed, which no program reads; the
two agree (`Store.Consistent`), and every operation keeps them so.
-/

namespace NfOrchestrator.Reconciler

open Deploy

/-! ### Revisions -/

/-- A revision with the values it was made from. -/
structure Record extends Entry where
  values : Json
  deriving DecidableEq

/-- The revision Helm numbers next. -/
def nextRevision (records : List Record) : ℤ :=
  ((newest (records.map Record.toEntry)).map Entry.revision).getD 0 + 1

/-- A later revision deployed. -/
def Record.supersede (r : Record) : Record :=
  if r.status = "deployed" then { r with status := "superseded" } else r

/-- The statuses of a revision whose operation did not succeed. -/
def unfinishedStatuses : List String :=
  ["failed", "pending-install", "pending-upgrade", "pending-rollback"]

theorem Record.supersede_revision (r : Record) : r.supersede.revision = r.revision := by
  rw [supersede]
  split_ifs <;> rfl

theorem Record.supersede_status (r : Record) : r.supersede.status ≠ "deployed" := by
  rw [supersede]
  split_ifs with h
  · simp
  · exact h

theorem lt_nextRevision {records : List Record} {r : Record} (hr : r ∈ records) :
    r.revision < nextRevision records := by
  have hmem : r.toEntry ∈ records.map Record.toEntry := List.mem_map_of_mem hr
  rw [nextRevision]
  cases hmax : newest (records.map Record.toEntry) with
  | none =>
      rw [List.argmax_eq_none.mp hmax] at hmem
      cases hmem
  | some m =>
      have hle : r.revision ≤ m.revision := List.le_of_mem_argmax hmem hmax
      simp only [Option.map_some, Option.getD_some]
      omega

/-! ### The store -/

/-- Helm's revisions of one release, the last one made last, and the intent it last
recorded as deployed. -/
structure Store where
  records : List Record
  current : Option Intent
  deriving DecidableEq

namespace Store

/-- No release. -/
def empty : Store := ⟨[], none⟩

/-- An operation for `intent` that succeeded, with the values it was given. -/
def Installs (intent : Option Intent) (values : Json) (s s' : Store) : Prop :=
  ∃ description, s' = ⟨s.records.map Record.supersede ++
    [⟨⟨nextRevision s.records, "deployed", description⟩, values⟩], intent⟩

/-- An operation that did not succeed, and left at most one revision. -/
def Attempts (s s' : Store) : Prop :=
  s' = s ∨ ∃ status ∈ unfinishedStatuses, ∃ description values,
    s' = ⟨s.records ++ [⟨⟨nextRevision s.records, status, description⟩, values⟩], s.current⟩

/-- The revisions are in order, and those labelled `deployed` hold the values rendered
from the intent recorded last. -/
structure Consistent (s : Store) : Prop where
  increasing : s.records.Pairwise fun r r' => r.revision < r'.revision
  deployed : ∀ r ∈ s.records, r.status = "deployed" →
    ∃ intent, s.current = some intent ∧ r.values = renderValues intent
  recorded : ∀ intent, s.current = some intent → ∃ r ∈ s.records, r.status = "deployed"

theorem consistent_empty : empty.Consistent := ⟨.nil, nofun, nofun⟩

theorem increasing_snoc {records : List Record} {r : Record}
    (h : records.Pairwise fun r r' => r.revision < r'.revision)
    (hr : r.revision = nextRevision records) :
    (records ++ [r]).Pairwise fun r r' => r.revision < r'.revision := by
  refine List.pairwise_append.mpr ⟨h, List.pairwise_singleton _ _, fun a ha b hb => ?_⟩
  obtain rfl := List.mem_singleton.mp hb
  rw [hr]
  exact lt_nextRevision ha

theorem nextRevision_supersede (records : List Record) :
    ∀ r ∈ records.map Record.supersede, r.revision < nextRevision records := by
  intro r hr
  obtain ⟨r', hr', rfl⟩ := List.mem_map.mp hr
  rw [r'.supersede_revision]
  exact lt_nextRevision hr'

theorem Consistent.installs {s s' : Store} (h : s.Consistent) {intent : Intent}
    (hs : Installs (some intent) (renderValues intent) s s') : s'.Consistent := by
  obtain ⟨description, rfl⟩ := hs
  refine ⟨?_, ?_, ?_⟩
  · refine List.pairwise_append.mpr ⟨?_, List.pairwise_singleton _ _, fun a ha b hb => ?_⟩
    · rw [List.pairwise_map]
      simpa only [Record.supersede_revision] using h.increasing
    · obtain rfl := List.mem_singleton.mp hb
      exact nextRevision_supersede s.records a ha
  · intro r hr hstatus
    rcases List.mem_append.mp hr with hr | hr
    · obtain ⟨r', -, rfl⟩ := List.mem_map.mp hr
      exact absurd hstatus r'.supersede_status
    · obtain rfl := List.mem_singleton.mp hr
      exact ⟨intent, rfl, rfl⟩
  · intro _ _
    exact ⟨_, List.mem_append_right _ (List.mem_singleton_self _), rfl⟩

theorem Consistent.attempts {s s' : Store} (h : s.Consistent) (hs : Attempts s s') :
    s'.Consistent := by
  obtain rfl | ⟨status, hstatus, description, values, rfl⟩ := hs
  · exact h
  · refine ⟨increasing_snoc h.increasing rfl, ?_, ?_⟩
    · intro r hr hdeployed
      rcases List.mem_append.mp hr with hr | hr
      · exact h.deployed r hr hdeployed
      · obtain rfl := List.mem_singleton.mp hr
        obtain rfl : status = "deployed" := hdeployed
        simp [unfinishedStatuses] at hstatus
    · intro intent hintent
      obtain ⟨r, hr, hdeployed⟩ := h.recorded intent hintent
      exact ⟨r, List.mem_append_left _ hr, hdeployed⟩

/-! ### What a history says of the store -/

/-- The revisions as a history lists them. -/
def entries (s : Store) : List Entry := s.records.map Record.toEntry

/-- Whatever the order of the history, its newest entry is the last record. -/
theorem Consistent.newest {s : Store} (h : s.Consistent) {es : List Entry}
    (hperm : es.Perm s.entries) {r : Record} (hr : s.records.getLast? = some r) :
    newest es = some r.toEntry := by
  obtain ⟨before, hrecords⟩ := List.getLast?_eq_some_iff.mp hr
  have hmem : r.toEntry ∈ es := by
    rw [hperm.mem_iff, entries, hrecords]
    simp
  cases hmax : Reconciler.newest es with
  | none =>
      rw [List.argmax_eq_none.mp hmax] at hmem
      cases hmem
  | some e =>
      have hle : r.revision ≤ e.revision := List.le_of_mem_argmax hmem hmax
      have he : e ∈ s.entries := hperm.mem_iff.mp (List.argmax_mem hmax)
      obtain ⟨r', hr', rfl⟩ := List.mem_map.mp he
      rw [hrecords] at hr'
      rcases List.mem_append.mp hr' with hbefore | hlast
      · have hincreasing := h.increasing
        rw [hrecords] at hincreasing
        have hlt := (List.pairwise_append.mp hincreasing).2.2 r' hbefore r (by simp)
        omega
      · rw [List.mem_singleton.mp hlast]

/-- Whatever the order of the history, its highest revision labelled `deployed` holds
the values of the intent recorded last. -/
theorem Consistent.lastDeployed {s : Store} (h : s.Consistent) {es : List Entry}
    (hperm : es.Perm s.entries) {revision : ℤ} (hlast : lastDeployed es = some revision) :
    ∃ intent, s.current = some intent ∧
      ∃ r ∈ s.records, r.revision = revision ∧ r.values = renderValues intent := by
  obtain ⟨e, he, hstatus, rfl⟩ := lastDeployed_mem hlast
  obtain ⟨r, hr, rfl⟩ := List.mem_map.mp (hperm.mem_iff.mp he)
  obtain ⟨intent, hcurrent, hvalues⟩ := h.deployed r hr hstatus
  exact ⟨intent, hcurrent, r, hr, rfl, hvalues⟩

theorem Consistent.not_deployed {s : Store} (h : s.Consistent) {es : List Entry}
    (hperm : es.Perm s.entries) (hlast : Reconciler.lastDeployed es = none) :
    s.current = none := by
  cases hcurrent : s.current with
  | none => rfl
  | some intent =>
      obtain ⟨r, hr, hstatus⟩ := h.recorded intent hcurrent
      have hmem : r.toEntry ∈ es := hperm.mem_iff.mpr (List.mem_map_of_mem hr)
      have hsome := lastDeployed_isSome.mpr ⟨r.toEntry, hmem, hstatus⟩
      rw [hlast] at hsome
      cases hsome

end Store

end NfOrchestrator.Reconciler
