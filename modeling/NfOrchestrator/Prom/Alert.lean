import Mathlib.Data.List.DropRight
import Mathlib.Tactic.Linarith
import NfOrchestrator.Prom.Vector

/-!
# NfOrchestrator.Prom.Alert

**Alerting rules.** At each evaluation of its rule an alert is active if its expression has
an element with its labels. It is active since the first of the evaluations that had one
without a break, and fires once it has been active for the time the rule holds it
(`firing_iff`).
-/

namespace NfOrchestrator.Prom

/-! ### One rule -/

structure AlertingRule where
  expr : Expr
  /-- `for:`, in seconds. -/
  hold : ℚ

structure Alert where
  activeAt : ℚ
  firing : Bool
  deriving DecidableEq

/-- The active alerts of a rule, by their labels. -/
abbrev Active := List (Labels × Alert)

/-- What one evaluation makes of the active alerts. -/
def update (hold : ℚ) (active : Active) (t : ℚ) (v : Vector) : Active :=
  v.map fun e =>
    let activeAt := ((active.lookup e.1).map Alert.activeAt).getD t
    let firing := ((active.lookup e.1).map Alert.firing).getD false
    (e.1, ⟨activeAt, firing || decide (hold ≤ t - activeAt)⟩)

/-- The active alerts after these evaluations. -/
def alerts (hold : ℚ) (evaluations : List (ℚ × Vector)) : Active :=
  evaluations.foldl (fun active e => update hold active e.1 e.2) []

/-- The last evaluations, as far back as all of them had these labels. -/
def window (labels : Labels) (evaluations : List (ℚ × Vector)) : List (ℚ × Vector) :=
  evaluations.rtakeWhile fun e => e.2.any fun x => x.1 = labels

section rule

variable {hold : ℚ} {labels : Labels} {evaluations : List (ℚ × Vector)}

theorem lookup_update (active : Active) (t : ℚ) (v : Vector) :
    (update hold active t v).lookup labels =
      if v.any fun x => x.1 = labels then
        let activeAt := ((active.lookup labels).map Alert.activeAt).getD t
        let firing := ((active.lookup labels).map Alert.firing).getD false
        some ⟨activeAt, firing || decide (hold ≤ t - activeAt)⟩
      else none := by
  induction v with
  | nil => rfl
  | cons e rest ih =>
      rw [update, List.map_cons, ← update]
      by_cases he : e.1 = labels
      · subst he
        simp
      · have hne : (labels == e.1) = false := beq_false_of_ne (Ne.symm he)
        simp only [List.lookup_cons, hne, ih, List.any_cons, he, decide_false, Bool.false_or]

theorem window_snoc (e : ℚ × Vector) :
    window labels (evaluations ++ [e]) =
      if e.2.any fun x => x.1 = labels then window labels evaluations ++ [e] else [] := by
  rw [window, List.rtakeWhile_concat]
  rfl

/-- An alert is active since its window began, and fires once the window was long enough. -/
theorem lookup_alerts :
    (alerts hold evaluations).lookup labels =
      (window labels evaluations).head?.map fun first =>
        ⟨first.1, (window labels evaluations).any fun e => hold ≤ e.1 - first.1⟩ := by
  induction evaluations using List.reverseRecOn with
  | nil => rfl
  | append_singleton rest e ih =>
      rw [alerts, List.foldl_concat, ← alerts, lookup_update, window_snoc]
      split_ifs with he
      · rw [ih]
        cases hwindow : window labels rest with
        | nil => simp
        | cons first between => simp [Bool.or_assoc]
      · rfl

/-- The vector has an element with these labels. -/
def Shows (labels : Labels) (v : Vector) : Prop := ∃ value, (labels, value) ∈ v

theorem any_iff_shows {v : Vector} : (v.any fun x => x.1 = labels) = true ↔ Shows labels v := by
  simp [Shows]

/-- The alert with these labels is pending or firing. -/
def IsActive (active : Active) (labels : Labels) : Prop :=
  ∃ alert, active.lookup labels = some alert

def Firing (active : Active) (labels : Labels) : Prop :=
  ∃ alert, active.lookup labels = some alert ∧ alert.firing = true

theorem Firing.isActive {active : Active} (h : Firing active labels) : IsActive active labels := by
  obtain ⟨alert, halert, -⟩ := h
  exact ⟨alert, halert⟩

/-- An alert is active if the last evaluation showed it. -/
theorem isActive_alerts_iff :
    IsActive (alerts hold evaluations) labels ↔
      ∃ last, evaluations.getLast? = some last ∧ Shows labels last.2 := by
  induction evaluations using List.reverseRecOn with
  | nil => simp [IsActive, alerts]
  | append_singleton rest e ih =>
      rw [IsActive, alerts, List.foldl_concat, lookup_update, List.getLast?_concat]
      by_cases he : Shows labels e.2
      · simp [any_iff_shows.mpr he, he]
      · simp [mt any_iff_shows.mp he, he]

/-- The evaluations of the window are the last ones, and all of them show the labels. -/
theorem window_suffix : window labels evaluations <:+ evaluations := List.rtakeWhile_suffix _ _

theorem shows_of_mem_window {e : ℚ × Vector} (h : e ∈ window labels evaluations) :
    Shows labels e.2 := by
  have hany := List.mem_rtakeWhile_imp (p := fun e : ℚ × Vector => e.2.any fun x => x.1 = labels) h
  exact any_iff_shows.mp hany

/-- No longer suffix shows the labels throughout. -/
theorem suffix_window {suffix : List (ℚ × Vector)} (h : suffix <:+ evaluations)
    (hshows : ∀ e ∈ suffix, Shows labels e.2) : suffix <:+ window labels evaluations := by
  obtain ⟨before, rfl⟩ := h
  induction suffix using List.reverseRecOn with
  | nil => exact List.nil_suffix
  | append_singleton rest e ih =>
      rw [← List.append_assoc, window_snoc, if_pos (any_iff_shows.mpr (hshows e (by simp)))]
      obtain ⟨more, hmore⟩ := ih fun e' he' => hshows e' (List.mem_append_left _ he')
      exact ⟨more, by rw [← hmore, List.append_assoc]⟩

/-- An alert fires if the last evaluations have shown it for as long as its rule holds it. -/
theorem firing_alerts_iff (hevaluations : evaluations.Pairwise fun a b => a.1 ≤ b.1) :
    Firing (alerts hold evaluations) labels ↔
      ∃ suffix first last, suffix <:+ evaluations ∧ suffix.head? = some first ∧
        suffix.getLast? = some last ∧ hold ≤ last.1 - first.1 ∧
          ∀ e ∈ suffix, Shows labels e.2 := by
  have hsorted := hevaluations.sublist (@window_suffix labels evaluations).sublist
  constructor
  · rintro ⟨alert, halert, hfiring⟩
    rw [lookup_alerts] at halert
    obtain ⟨first, hfirst, rfl⟩ := Option.map_eq_some_iff.mp halert
    obtain ⟨e, he, hlong⟩ := List.any_eq_true.mp hfiring
    obtain ⟨last, hlast⟩ : ∃ last, (window labels evaluations).getLast? = some last :=
      ⟨_, List.getLast?_eq_some_getLast (List.ne_nil_of_mem he)⟩
    refine ⟨_, first, last, window_suffix, hfirst, hlast, ?_, fun e => shows_of_mem_window⟩
    obtain ⟨init, hinit⟩ := List.getLast?_eq_some_iff.mp hlast
    have hle : e.1 ≤ last.1 := by
      rw [hinit] at he hsorted
      rcases List.mem_append.mp he with he | he
      · exact (List.pairwise_append.mp hsorted).2.2 e he last (List.mem_singleton_self _)
      · rw [List.mem_singleton.mp he]
    have := of_decide_eq_true hlong
    linarith
  · rintro ⟨suffix, first, last, hsuffix, hfirst, hlast, hlong, hshows⟩
    obtain ⟨more, hmore⟩ := suffix_window hsuffix hshows
    obtain ⟨rest, rfl⟩ : ∃ rest, suffix = first :: rest := List.head?_eq_some_iff.mp hfirst
    obtain ⟨start, hstart, hle⟩ : ∃ start, (window labels evaluations).head? = some start ∧
        start.1 ≤ first.1 := by
      cases more with
      | nil => exact ⟨first, by rw [← hmore]; rfl, le_rfl⟩
      | cons start between =>
          refine ⟨start, by rw [← hmore]; rfl, ?_⟩
          rw [← hmore] at hsorted
          exact (List.pairwise_append.mp hsorted).2.2 start List.mem_cons_self first
            List.mem_cons_self
    have hmem : last ∈ window labels evaluations := by
      rw [← hmore]
      exact List.mem_append_right _ (List.mem_of_getLast? hlast)
    refine ⟨_, by rw [lookup_alerts, hstart]; rfl, List.any_eq_true.mpr ⟨last, hmem, ?_⟩⟩
    exact decide_eq_true (by linarith)

end rule

/-! ### A run -/

/-- What happens to a server that scrapes one target and evaluates rules. -/
inductive Moment where
  | scraped (s : Scrape)
  | evaluated (t : ℚ)

/-- What it knows of one of its rules. -/
structure State where
  scrapes : List Scrape
  active : Active

def step (rule : AlertingRule) (s : State) : Moment → State
  | .scraped scrape => { s with scrapes := s.scrapes ++ [scrape] }
  | .evaluated t => { s with active := update rule.hold s.active t (rule.expr s.scrapes t) }

def run (rule : AlertingRule) (moments : List Moment) : State := moments.foldl (step rule) ⟨[], []⟩

/-- The scrapes of a run. -/
def scrapesOf (moments : List Moment) : List Scrape :=
  moments.filterMap fun
    | .scraped s => some s
    | .evaluated _ => none

/-- The evaluations of a run: the time of each, and the scrapes there were by then. -/
def looksFrom : List Scrape → List Moment → List (ℚ × List Scrape)
  | _, [] => []
  | scrapes, .scraped s :: rest => looksFrom (scrapes ++ [s]) rest
  | scrapes, .evaluated t :: rest => (t, scrapes) :: looksFrom scrapes rest

def looks (moments : List Moment) : List (ℚ × List Scrape) := looksFrom [] moments

/-- What an expression comes to at an evaluation. -/
def AlertingRule.at (rule : AlertingRule) (look : ℚ × List Scrape) : Vector :=
  rule.expr look.2 look.1

theorem run_active (rule : AlertingRule) (moments : List Moment) :
    (run rule moments).active =
      alerts rule.hold ((looks moments).map fun look => (look.1, rule.at look)) := by
  have hfrom : ∀ scrapes active, (moments.foldl (step rule) ⟨scrapes, active⟩).active =
      ((looksFrom scrapes moments).map fun look => (look.1, rule.at look)).foldl
        (fun active e => update rule.hold active e.1 e.2) active := by
    induction moments with
    | nil => simp [looksFrom]
    | cons moment rest ih =>
        intro scrapes active
        cases moment with
        | scraped s => exact ih (scrapes ++ [s]) active
        | evaluated t => exact ih scrapes (update rule.hold active t (rule.expr scrapes t))
  exact hfrom [] []

/-- The scrapes an evaluation sees are the first ones of the run. -/
theorem prefix_of_mem_looks {moments : List Moment} {look : ℚ × List Scrape}
    (h : look ∈ looks moments) : look.2 <+: scrapesOf moments := by
  have hfrom : ∀ moments scrapes, look ∈ looksFrom scrapes moments →
      look.2 <+: scrapes ++ scrapesOf moments := by
    intro moments
    induction moments with
    | nil => simp [looksFrom]
    | cons moment rest ih =>
        intro scrapes h
        cases moment with
        | scraped s =>
            have hrest := ih (scrapes ++ [s]) h
            rwa [List.append_assoc] at hrest
        | evaluated t =>
            rcases List.mem_cons.mp h with rfl | h
            · exact List.prefix_append _ _
            · exact ih scrapes h
  exact hfrom moments [] h

/-- The clock of the evaluations does not go back, nor do the times of the scrapes. -/
structure InOrder (moments : List Moment) : Prop where
  scrapes : Timely (scrapesOf moments)
  evaluations : (looks moments).Pairwise fun a b => a.1 ≤ b.1

section run

variable {rule : AlertingRule} {moments : List Moment} {labels : Labels}

theorem InOrder.timely (h : InOrder moments) {look : ℚ × List Scrape}
    (hlook : look ∈ looks moments) : Timely look.2 :=
  h.scrapes.sublist (prefix_of_mem_looks hlook).sublist

/-- An alert is active if the last evaluation shows it. -/
theorem isActive_iff : IsActive (run rule moments).active labels ↔
    ∃ look, (looks moments).getLast? = some look ∧ Shows labels (rule.at look) := by
  rw [run_active, isActive_alerts_iff, List.getLast?_map]
  simp

/-- An alert fires if the last evaluations, over the time its rule holds it, all show it. -/
theorem firing_iff (h : InOrder moments) : Firing (run rule moments).active labels ↔
    ∃ suffix first last, suffix <:+ looks moments ∧ suffix.head? = some first ∧
      suffix.getLast? = some last ∧ rule.hold ≤ last.1 - first.1 ∧
        ∀ look ∈ suffix, Shows labels (rule.at look) := by
  rw [run_active, firing_alerts_iff (List.pairwise_map.mpr h.evaluations)]
  constructor
  · rintro ⟨_, first, last, hmap, hfirst, hlast, hhold, hshows⟩
    obtain ⟨suffix, hsuffix, rfl⟩ := List.suffix_map_iff.mp hmap
    rw [List.head?_map, Option.map_eq_some_iff] at hfirst
    rw [List.getLast?_map, Option.map_eq_some_iff] at hlast
    obtain ⟨first, hfirst, rfl⟩ := hfirst
    obtain ⟨last, hlast, rfl⟩ := hlast
    exact ⟨suffix, first, last, hsuffix, hfirst, hlast, hhold, fun look hlook =>
      hshows _ (List.mem_map_of_mem hlook)⟩
  · rintro ⟨suffix, first, last, hsuffix, hfirst, hlast, hhold, hshows⟩
    refine ⟨suffix.map fun look => (look.1, rule.at look), (first.1, rule.at first),
      (last.1, rule.at last), hsuffix.map _, ?_, ?_, hhold, ?_⟩
    · rw [List.head?_map, hfirst, Option.map_some]
    · rw [List.getLast?_map, hlast, Option.map_some]
    · intro e he
      obtain ⟨look, hlook, rfl⟩ := List.mem_map.mp he
      exact hshows look hlook

end run

end NfOrchestrator.Prom
