import NfOrchestrator.Prom.Store

/-!
# NfOrchestrator.Prom.Vector

**Expressions** over the stored series: selectors, functions over a span of time, and the
operators between two vectors. An element of a vector is known by its labels; the name of
the metric is dropped, as it is from the labels of an alert.

Each operator has a lemma that says which elements its result has.
-/

namespace NfOrchestrator.Prom

/-- The value of an expression at a time. -/
abbrev Vector := List (Labels × ℚ)

/-- An expression, by what it evaluates to. -/
abbrev Expr := List Scrape → ℚ → Vector

/-! ### Selectors -/

/-- `metric{name="value", ...}`. -/
structure Selector where
  metric : String
  matchers : List (String × String) := []

/-- The labels are among those that the selector asks for. -/
def Selector.Matches (sel : Selector) (labels : Labels) : Prop :=
  ∀ m ∈ sel.matchers, labels.lookup m.1 = some m.2

instance (sel : Selector) (labels : Labels) : Decidable (sel.Matches labels) :=
  inferInstanceAs (Decidable (∀ m ∈ sel.matchers, _))

/-- The labels of the stored series that are selected. -/
def Selector.labelsIn (sel : Selector) (scrapes : List Scrape) : List Labels :=
  ((scrapes.flatMap fun s => s.samples.filterMap fun e =>
    if e.1.metric = sel.metric ∧ sel.Matches e.1.labels then some e.1.labels else none)).dedup

/-- The selected series of those labels. -/
def Selector.series (sel : Selector) (labels : Labels) : Series := ⟨sel.metric, labels⟩

/-- The newest values of the selected series. -/
def instant (sel : Selector) : Expr := fun scrapes t =>
  (sel.labelsIn scrapes).filterMap fun labels =>
    (instantValue scrapes (sel.series labels) t).map fun v => (labels, v)

/-- A function of the values in `sel[span]`, for each selected series that has any. -/
def overTime (f : List ℚ → ℚ) (sel : Selector) (span : ℚ) : Expr := fun scrapes t =>
  (sel.labelsIn scrapes).filterMap fun labels =>
    let values := rangeValues scrapes (sel.series labels) span t
    if values.isEmpty then none else some (labels, f values)

def sumOverTime : Selector → ℚ → Expr := overTime List.sum

def countOverTime : Selector → ℚ → Expr := overTime fun values => values.length

def avgOverTime : Selector → ℚ → Expr := overTime fun values => values.sum / values.length

/-! ### Operators -/

/-- `e == c`, `e >= c`: the elements whose value compares so. -/
def compared (e : Expr) (p : ℚ → Bool) : Expr := fun scrapes t =>
  (e scrapes t).filter fun x => p x.2

/-- `a < b`: the elements of `a` that are below the element of `b` with their labels. -/
def below (a b : Expr) : Expr := fun scrapes t =>
  (a scrapes t).filter fun x => (b scrapes t).any fun y => y.1 = x.1 ∧ x.2 < y.2

/-- `a / b`. A divisor of 0 is not for it: the counts that it divides by are positive. -/
def divided (a b : Expr) : Expr := fun scrapes t =>
  (a scrapes t).flatMap fun x =>
    ((b scrapes t).filter fun y => y.1 = x.1).map fun y => (x.1, x.2 / y.2)

/-- `a unless on(names) b`. -/
def unlessOn (names : List String) (a b : Expr) : Expr := fun scrapes t =>
  (a scrapes t).filter fun x =>
    !(b scrapes t).any fun y => names.all fun name => x.1.lookup name == y.1.lookup name

/-- `a or b`. -/
def orElse (a b : Expr) : Expr := fun scrapes t =>
  a scrapes t ++ (b scrapes t).filter fun y => !(a scrapes t).any fun x => x.1 = y.1

/-! ### Their elements -/

section elements

variable {sel : Selector} {scrapes : List Scrape} {t : ℚ} {labels : Labels} {v : ℚ}

theorem mem_labelsIn {s : Scrape} (hs : s ∈ scrapes) (hmatches : sel.Matches labels)
    (hv : s.value (sel.series labels) = some v) : labels ∈ sel.labelsIn scrapes := by
  have hsample := Scrape.mem_of_value hv
  refine List.mem_dedup.mpr (List.mem_flatMap.mpr ⟨s, hs, List.mem_filterMap.mpr ⟨_, hsample, ?_⟩⟩)
  exact if_pos ⟨rfl, hmatches⟩

theorem matches_of_mem (h : labels ∈ sel.labelsIn scrapes) : sel.Matches labels := by
  obtain ⟨s, -, h⟩ := List.mem_flatMap.mp (List.mem_dedup.mp h)
  obtain ⟨e, -, h⟩ := List.mem_filterMap.mp h
  split_ifs at h with hmatches
  obtain rfl := Option.some.inj h
  exact hmatches.2

theorem mem_of_seen {s : Scrape} (h : seen scrapes t = some s) : s ∈ scrapes := by
  have hlast := List.mem_of_getLast? (Option.filter_eq_some_iff.mp h).1
  exact (List.mem_filter.mp hlast).1

/-- A selected series is read from the last scrape. -/
theorem mem_instant (hscrapes : Timely scrapes) :
    (labels, v) ∈ instant sel scrapes t ↔ sel.Matches labels ∧
      ∃ s, seen scrapes t = some s ∧ s.value (sel.series labels) = some v := by
  simp only [instant, List.mem_filterMap, Option.map_eq_some_iff, instantValue_eq hscrapes,
    Option.bind_eq_some_iff]
  constructor
  · rintro ⟨_, hmem, v', hv, h⟩
    obtain ⟨rfl, rfl⟩ := Prod.mk.inj h
    exact ⟨matches_of_mem hmem, hv⟩
  · rintro ⟨hmatches, s, hs, hv⟩
    exact ⟨labels, mem_labelsIn (mem_of_seen hs) hmatches hv, v, ⟨s, hs, hv⟩, rfl⟩

/-- The values that the scrapes of a span gave a selected series. -/
def readings (sel : Selector) (labels : Labels) (span : ℚ) (scrapes : List Scrape) (t : ℚ) :
    List ℚ :=
  scrapes.filterMap fun s =>
    if t - span < s.time ∧ s.time ≤ t then s.value (sel.series labels) else none

theorem mem_overTime {f : List ℚ → ℚ} {span : ℚ} :
    (labels, v) ∈ overTime f sel span scrapes t ↔ sel.Matches labels ∧
      readings sel labels span scrapes t ≠ [] ∧ f (readings sel labels span scrapes t) = v := by
  have hreadings : ∀ l, rangeValues scrapes (sel.series l) span t = readings sel l span scrapes t :=
    fun l => rangeValues_eq scrapes _ span t
  simp only [overTime, List.mem_filterMap, hreadings, List.isEmpty_iff]
  constructor
  · rintro ⟨_, hmem, h⟩
    split_ifs at h with hempty
    obtain ⟨rfl, rfl⟩ := Prod.mk.inj (Option.some.inj h)
    exact ⟨matches_of_mem hmem, hempty, rfl⟩
  · rintro ⟨hmatches, hne, rfl⟩
    obtain ⟨w, hw⟩ := List.exists_mem_of_ne_nil _ hne
    obtain ⟨s, hs, hv⟩ := List.mem_filterMap.mp hw
    split_ifs at hv
    exact ⟨labels, mem_labelsIn hs hmatches hv, if_neg hne⟩

variable {a b : Expr}

theorem mem_compared {p : ℚ → Bool} :
    (labels, v) ∈ compared a p scrapes t ↔ (labels, v) ∈ a scrapes t ∧ p v = true :=
  List.mem_filter

theorem mem_below : (labels, v) ∈ below a b scrapes t ↔
    (labels, v) ∈ a scrapes t ∧ ∃ w, (labels, w) ∈ b scrapes t ∧ v < w := by
  simp [below, and_comm]

theorem mem_divided : (labels, v) ∈ divided a b scrapes t ↔
    ∃ x y, (labels, x) ∈ a scrapes t ∧ (labels, y) ∈ b scrapes t ∧ x / y = v := by
  simp only [divided, List.mem_flatMap, List.mem_map, List.mem_filter]
  constructor
  · rintro ⟨⟨_, x⟩, hx, ⟨l, y⟩, ⟨hy, hl⟩, h⟩
    obtain ⟨rfl, rfl⟩ := Prod.mk.inj h
    obtain rfl := of_decide_eq_true hl
    exact ⟨x, y, hx, hy, rfl⟩
  · rintro ⟨x, y, hx, hy, rfl⟩
    exact ⟨_, hx, _, ⟨hy, decide_eq_true rfl⟩, rfl⟩

theorem mem_unlessOn {names : List String} : (labels, v) ∈ unlessOn names a b scrapes t ↔
    (labels, v) ∈ a scrapes t ∧
      ∀ y ∈ b scrapes t, ∃ name ∈ names, labels.lookup name ≠ y.1.lookup name := by
  simp [unlessOn]

/-- Either side puts its labels into the result. -/
theorem labels_mem_orElse : (∃ v, (labels, v) ∈ orElse a b scrapes t) ↔
    (∃ v, (labels, v) ∈ a scrapes t) ∨ ∃ v, (labels, v) ∈ b scrapes t := by
  simp only [orElse, List.mem_append, List.mem_filter]
  constructor
  · rintro ⟨v, h | ⟨h, -⟩⟩
    · exact .inl ⟨v, h⟩
    · exact .inr ⟨v, h⟩
  · rintro (⟨v, h⟩ | ⟨v, h⟩)
    · exact ⟨v, .inl h⟩
    · by_cases ha : ∃ w, (labels, w) ∈ a scrapes t
      · obtain ⟨w, hw⟩ := ha
        exact ⟨w, .inl hw⟩
      · refine ⟨v, .inr ⟨h, ?_⟩⟩
        rw [Bool.not_eq_true', List.any_eq_false]
        rintro ⟨l, w⟩ hw hl
        exact ha ⟨w, of_decide_eq_true hl ▸ hw⟩

end elements

end NfOrchestrator.Prom
