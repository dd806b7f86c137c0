import Mathlib.Algebra.Order.Field.Rat
import Mathlib.Data.List.Dedup
import Mathlib.Data.List.Induction

/-!
# NfOrchestrator.Prom.Store

**Time series, as the scrapes of one target fill them.** A scrape gives a series a value,
and marks it stale if the scrape before it had one and this one has none. What an
expression reads is the points of a series: the newest of them (`instantValue`), or those
of a span of time (`rangeValues`).

For the marks, what is read at an instant is what the last scrape said and nothing older
(`instantValue_eq`).
-/

namespace NfOrchestrator.Prom

/-! ### Series -/

/-- The labels of a series, by their names. -/
abbrev Labels := List (String × String)

/-- A series is known by the name of its metric and its labels. -/
structure Series where
  metric : String
  labels : Labels
  deriving DecidableEq

/-- What one scrape stores, and the time it is stored under. -/
structure Scrape where
  time : ℚ
  samples : List (Series × ℚ)

/-- The value that a scrape gives a series. Of two the first one counts. -/
def Scrape.value (s : Scrape) (k : Series) : Option ℚ := s.samples.lookup k

theorem Scrape.mem_of_value {s : Scrape} {k : Series} {v : ℚ} (h : s.value k = some v) :
    (k, v) ∈ s.samples := by
  obtain ⟨before, after, heq, -⟩ := List.lookup_eq_some_iff.mp h
  rw [heq]
  exact List.mem_append_right _ List.mem_cons_self

theorem Scrape.value_eq_of_unique {s : Scrape} {k : Series} {v : ℚ} (h : (k, v) ∈ s.samples)
    (hunique : ∀ v', (k, v') ∈ s.samples → v' = v) : s.value k = some v := by
  cases hv : s.value k with
  | none =>
      have hne := List.lookup_eq_none_iff.mp hv _ h
      simp at hne
  | some v' => rw [hunique v' (Scrape.mem_of_value hv)]

/-- What is stored of a series at one time. -/
inductive Point where
  | value (v : ℚ)
  | stale
  deriving DecidableEq

/-- The points of a series, oldest first, if the scrape before these had it or not. -/
def pointsFrom (k : Series) : Bool → List Scrape → List (ℚ × Point)
  | _, [] => []
  | present, s :: rest =>
      match s.value k with
      | some v => (s.time, .value v) :: pointsFrom k true rest
      | none =>
          if present then (s.time, .stale) :: pointsFrom k false rest
          else pointsFrom k false rest

def points (k : Series) (scrapes : List Scrape) : List (ℚ × Point) := pointsFrom k false scrapes

/-- How far back an expression looks for the newest point. -/
def lookbackDelta : ℚ := 300

/-- The value of a series at a time: of its newest point, unless that is stale or too old. -/
def instantValue (scrapes : List Scrape) (k : Series) (t : ℚ) : Option ℚ :=
  ((points k scrapes).filter fun p => p.1 ≤ t).getLast?.bind fun p =>
    match p.2 with
    | .value v => if t - lookbackDelta < p.1 then some v else none
    | .stale => none

/-- The values of a series in the span of time that ends then. -/
def rangeValues (scrapes : List Scrape) (k : Series) (span t : ℚ) : List ℚ :=
  (points k scrapes).filterMap fun p =>
    match p.2 with
    | .value v => if t - span < p.1 ∧ p.1 ≤ t then some v else none
    | .stale => none

/-! ### The last scrape -/

/-- The scrapes in the order of their times. -/
def Timely (scrapes : List Scrape) : Prop := scrapes.Pairwise fun a b => a.time ≤ b.time

/-- The last scrape up to a time, if it is not too old to be read. -/
def seen (scrapes : List Scrape) (t : ℚ) : Option Scrape :=
  (scrapes.filter fun s => s.time ≤ t).getLast?.filter fun s => t - lookbackDelta < s.time

section points

variable {k : Series} {scrapes : List Scrape} {s : Scrape} {t : ℚ}

/-- Whether the last of these scrapes had the series. -/
def presentAfter (k : Series) (present : Bool) (scrapes : List Scrape) : Bool :=
  (scrapes.getLast?.map fun s => (s.value k).isSome).getD present

/-- What one more scrape adds. -/
def pointsOf (k : Series) (present : Bool) (s : Scrape) : List (ℚ × Point) :=
  match s.value k with
  | some v => [(s.time, .value v)]
  | none => if present then [(s.time, .stale)] else []

theorem pointsFrom_cons (present : Bool) (rest : List Scrape) :
    pointsFrom k present (s :: rest) =
      pointsOf k present s ++ pointsFrom k (s.value k).isSome rest := by
  cases hvalue : s.value k with
  | some v => simp [pointsFrom, pointsOf, hvalue]
  | none => cases present <;> simp [pointsFrom, pointsOf, hvalue]

theorem pointsFrom_snoc (present : Bool) :
    pointsFrom k present (scrapes ++ [s]) =
      pointsFrom k present scrapes ++ pointsOf k (presentAfter k present scrapes) s := by
  induction scrapes generalizing present with
  | nil => simp [pointsFrom_cons, pointsFrom, presentAfter]
  | cons s' rest ih =>
      rw [List.cons_append, pointsFrom_cons, ih, pointsFrom_cons, List.append_assoc]
      cases rest <;> rfl

/-- The newest point is a value exactly if the last scrape had the series. -/
theorem getLast?_points (v time : ℚ) :
    (points k scrapes).getLast? = some (time, .value v) ↔
      ∃ s, scrapes.getLast? = some s ∧ s.time = time ∧ s.value k = some v := by
  induction scrapes using List.reverseRecOn with
  | nil => simp [points, pointsFrom]
  | append_singleton rest s ih =>
      rw [points, pointsFrom_snoc, List.getLast?_concat, pointsOf]
      cases hvalue : s.value k with
      | some w => simp [hvalue]
      | none =>
          have habsent : ¬∃ s', some s = some s' ∧ s'.time = time ∧ s'.value k = some v := by
            rintro ⟨s', hs', -, hv⟩
            obtain rfl := Option.some.inj hs'
            rw [hvalue] at hv
            cases hv
          refine iff_of_false ?_ habsent
          cases hpresent : presentAfter k false rest with
          | true => simp
          | false =>
              -- the series was marked before, or was never there
              rw [if_neg Bool.false_ne_true, List.append_nil, ← points, ih]
              rintro ⟨s', hs', -, hv⟩
              rw [presentAfter, hs', Option.map_some, hv] at hpresent
              cases hpresent

/-- Points up to a time are those of the scrapes up to it. -/
theorem filter_pointsFrom (hscrapes : Timely scrapes) (present : Bool) :
    (pointsFrom k present scrapes).filter (fun p => p.1 ≤ t) =
      pointsFrom k present (scrapes.filter fun s => s.time ≤ t) := by
  induction scrapes generalizing present with
  | nil => rfl
  | cons s rest ih =>
      obtain ⟨hs, hrest⟩ := List.pairwise_cons.mp hscrapes
      have hof : ∀ p ∈ pointsOf k present s, p.1 = s.time := by
        intro p hp
        rw [pointsOf] at hp
        split at hp
        · rw [List.mem_singleton.mp hp]
        · split_ifs at hp
          · rw [List.mem_singleton.mp hp]
          · cases hp
      rw [pointsFrom_cons, List.filter_append, ih hrest]
      by_cases ht : s.time ≤ t
      · rw [List.filter_cons_of_pos (by simpa using ht), pointsFrom_cons]
        congr 1
        exact List.filter_eq_self.mpr fun p hp => by simpa [hof p hp] using ht
      · have hnone : rest.filter (fun s => s.time ≤ t) = [] := by
          refine List.filter_eq_nil_iff.mpr fun s' hs' => ?_
          simpa using (not_le.mp ht).trans_le (hs s' hs')
        rw [List.filter_cons_of_neg (by simpa using ht), hnone, pointsFrom, List.append_nil]
        exact List.filter_eq_nil_iff.mpr fun p hp => by simpa [hof p hp] using ht

/-- At an instant a series has the value that the last scrape gave it. -/
theorem instantValue_eq (hscrapes : Timely scrapes) :
    instantValue scrapes k t = (seen scrapes t).bind fun s => s.value k := by
  ext v
  have hpoint : instantValue scrapes k t = some v ↔
      ∃ time, ((points k scrapes).filter fun p => p.1 ≤ t).getLast? = some (time, .value v) ∧
        t - lookbackDelta < time := by
    rw [instantValue, Option.bind_eq_some_iff]
    constructor
    · rintro ⟨⟨time, _ | _⟩, hp, hv⟩
      · dsimp only at hv
        split_ifs at hv with ht
        obtain rfl := Option.some.inj hv
        exact ⟨time, hp, ht⟩
      · cases hv
    · rintro ⟨time, hp, ht⟩
      exact ⟨_, hp, if_pos ht⟩
  have hscrape : ((seen scrapes t).bind fun s => s.value k) = some v ↔
      ∃ s, (scrapes.filter fun s => s.time ≤ t).getLast? = some s ∧ t - lookbackDelta < s.time ∧
        s.value k = some v := by
    simp [seen, Option.bind_eq_some_iff, Option.filter_eq_some_iff, and_assoc]
  rw [hpoint, hscrape, points, filter_pointsFrom hscrapes]
  constructor
  · rintro ⟨time, hp, ht⟩
    obtain ⟨s, hs, rfl, hv⟩ := (getLast?_points v time).mp hp
    exact ⟨s, hs, ht, hv⟩
  · rintro ⟨s, hs, ht, hv⟩
    exact ⟨s.time, (getLast?_points v s.time).mpr ⟨s, hs, rfl, hv⟩, ht⟩

/-- The values of a span are what the scrapes of that span gave. -/
theorem rangeValues_eq (scrapes : List Scrape) (k : Series) (span t : ℚ) :
    rangeValues scrapes k span t = scrapes.filterMap fun s =>
      if t - span < s.time ∧ s.time ≤ t then s.value k else none := by
  have hfrom : ∀ present, (pointsFrom k present scrapes).filterMap (fun p =>
      match p.2 with
      | .value v => if t - span < p.1 ∧ p.1 ≤ t then some v else none
      | .stale => none) = scrapes.filterMap fun s =>
        if t - span < s.time ∧ s.time ≤ t then s.value k else none := by
    induction scrapes with
    | nil => simp [pointsFrom]
    | cons s rest ih =>
        intro present
        rw [pointsFrom_cons, List.filterMap_append, ih, List.filterMap_cons]
        cases hvalue : s.value k with
        | some v =>
            by_cases ht : t - span < s.time ∧ s.time ≤ t <;> simp [pointsOf, hvalue, ht]
        | none => cases present <;> simp [pointsOf, hvalue]
  exact hfrom false

end points

end NfOrchestrator.Prom
