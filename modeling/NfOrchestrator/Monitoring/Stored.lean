import NfOrchestrator.Monitoring.Rules

/-!
# NfOrchestrator.Monitoring.Stored

**What is stored of a scrape**, for the scrapes that `collect` answers. A series of the
orchestrator has the labels of its family (`mem_stored_iff`), and which series there are
depends on where the scrape ended (`Exposed.exit`).
-/

namespace NfOrchestrator.Monitoring

open Prom Metrics Deploy

variable {cfg : Settings}

/-- Families that some run of `collect` emitted. -/
def Exposed (cfg : Settings) (families : List GaugeMetricFamily) : Prop :=
  ∃ (releaseNames : Eff (List String)) (W : Type) (E : Env Metrics.sig W) (w w' : W),
    (collect cfg releaseNames).Runs E w (.ok families) w'

/-- An attempt to scrape the orchestrator: it failed, or brought what `collect` emitted. -/
def Attempted (cfg : Settings) (outcome : Option (List GaugeMetricFamily)) (s : Scrape) : Prop :=
  s.samples = stored outcome ∧ ∀ families, outcome = some families → Exposed cfg families

/-- Every scrape of the run is such an attempt. -/
def Monitors (cfg : Settings) (moments : List Moment) : Prop :=
  ∀ s ∈ scrapesOf moments, ∃ outcome, Attempted cfg outcome s

/-! ### The labels of a family -/

/-- The names of the labels of a family. -/
def labelsOf (family : String) : List String :=
  if family = "nf_deployment_state" ∨ family = "nf_last_operation_state" then ["release", "state"]
  else if family = "nf_deployment_desired_replicas" ∨ family = "nf_deployment_ready_replicas" ∨
    family = "nf_release_reported" then ["release"]
  else if family = "nf_releases_unreported" then ["reason"]
  else []

/-- The family has its labels. -/
def Labelled (family : GaugeMetricFamily) : Prop := family.labels = labelsOf family.name

theorem labelled_addMetric {family : GaugeMetricFamily} (h : Labelled family)
    (labels : List String) (value : ℚ) : Labelled (family.addMetric labels value) := h

theorem labelled_addMembers {α : Type} [DecidableEq α] {family : GaugeMetricFamily}
    (h : Labelled family) (name : String) (members : List α) (value : α → String) (current : α) :
    Labelled (addMembers family name members value current) := by
  induction members generalizing family with
  | nil => exact h
  | cons member rest ih => exact ih (labelled_addMetric h [name, value member] _)

/-- The families that the loop adds to. -/
def Tally.families (t : Tally) : List GaugeMetricFamily :=
  [t.reported, t.state, t.desired, t.ready, t.operation]

theorem labelled_add {t t' : Tally} {name : String} {current : Option Snapshot}
    (h : ∀ family ∈ Tally.families t, Labelled family) (hadd : t.add name current = .ok t') :
    ∀ family ∈ Tally.families t', Labelled family := by
  simp only [Tally.families, List.forall_mem_cons] at h ⊢
  obtain ⟨hreported, hstate, hdesired, hready, hoperation, -⟩ := h
  have hsilent := labelled_addMetric hreported [name] 0
  rcases current with _ | current | why
  · obtain rfl := Except.ok.inj hadd
    exact ⟨hsilent, hstate, hdesired, hready, hoperation, by simp⟩
  · change t.emit name current = .ok t' at hadd
    rw [Tally.emit] at hadd
    obtain ⟨desired, -, hadd⟩ := bind_eq_ok.mp hadd
    obtain rfl := Except.ok.inj hadd
    exact ⟨labelled_addMetric hreported _ _, labelled_addMembers hstate _ _ _ _,
      labelled_addMetric hdesired _ _, labelled_addMetric hready _ _,
      labelled_addMembers hoperation _ _ _ _, by simp⟩
  · cases why <;>
    · obtain rfl := Except.ok.inj hadd
      exact ⟨hsilent, hstate, hdesired, hready, hoperation, by simp⟩

/-! ### The releases of a scrape -/

section keys

variable {α : Type}

theorem nodup_setItem {d : List (String × α)} (h : (d.map Prod.fst).Nodup) (key : String)
    (value : α) : ((setItem d key value).map Prod.fst).Nodup := by
  by_cases hkey : key ∈ d.map Prod.fst
  · obtain ⟨e, he, hek⟩ := List.mem_map.mp hkey
    have hany : (d.any fun e => e.1 == key) = true :=
      List.any_eq_true.mpr ⟨e, he, beq_iff_eq.mpr hek⟩
    have hkeys : (d.map fun e => if e.1 == key then (key, value) else e).map Prod.fst =
        d.map Prod.fst := by
      rw [List.map_map]
      refine List.map_congr_left fun e _ => ?_
      by_cases hek : e.1 = key <;> simp [hek]
    rw [setItem, if_pos hany, hkeys]
    exact h
  · rw [setItem_fresh hkey, List.map_append, List.map_singleton]
    exact List.nodup_append.mpr ⟨h, List.nodup_singleton key, by
      rintro a ha _ hb rfl
      have hkey' : a = key := List.mem_singleton.mp hb
      exact hkey (hkey' ▸ ha)⟩

theorem nodup_update {d : List (String × α)} (h : (d.map Prod.fst).Nodup)
    (e : List (String × α)) : ((Metrics.update d e).map Prod.fst).Nodup := by
  induction e generalizing d with
  | nil => exact h
  | cons kv rest ih => exact ih (nodup_setItem h kv.1 kv.2)

theorem nodup_setDefault {d : List (String × α)} (h : (d.map Prod.fst).Nodup) (key : String)
    (value : α) : ((setDefault d key value).map Prod.fst).Nodup := by
  by_cases hkey : (d.any fun e => e.1 == key) = true
  · rw [setDefault, if_pos hkey]
    exact h
  · have hsame : setDefault d key value = setItem d key value := by
      rw [setDefault, setItem, if_neg hkey, if_neg hkey]
    rw [hsame]
    exact nodup_setItem h key value

end keys

section run

variable {W : Type} {E : Env Metrics.sig W} {w w' : W} {α : Type}

/-- Whatever a program returns, in any environment. -/
theorem wp_anything {p : Scrape α} {Q : Except Exc α → W → Prop} (h : ∀ x w, Q x w) :
    p.wp E.spec Q w := Prog.wp_iff_runs.mpr fun x w' _ => h x w'

theorem wp_waves_nodup (pods : Option PodsByRelease) (deadline : ℚ) (wave : ℕ+)
    (previousCost : ℚ) {futures : List (String × Future)} (h : (futures.map Prod.fst).Nodup)
    (queue : List String) :
    (waves cfg pods deadline wave previousCost futures queue).wp E.spec
      (fun x _ => ∀ y, x = .ok y → (y.1.map Prod.fst).Nodup) w := by
  have hend : ∀ (futures : List (String × Future)) (queue : List String) (w : W),
      (futures.map Prod.fst).Nodup →
        (pure (futures, queue) : Scrape (List (String × Future) × List String)).wp E.spec
          (fun x _ => ∀ y, x = .ok y → (y.1.map Prod.fst).Nodup) w := by
    rintro futures queue w h y hy
    obtain rfl := Except.ok.inj hy
    exact h
  have herror : ∀ (exc : Exc) (y : List (String × Future) × List String),
      (.error exc : Except Exc _) = .ok y → (y.1.map Prod.fst).Nodup := by simp
  induction wave, previousCost, futures, queue using (waves.induct cfg) generalizing w with
  | case1 wave previousCost futures =>
      rw [waves]
      exact hend futures [] w h
  | case2 wave previousCost futures name rest queue =>
      rename_i ih
      rw [waves, Prog.wp_bind]
      refine wp_anything ?_
      rintro (exc | now) w₁
      · exact herror exc
      rw [Prog.bindPost_ok]
      dsimp only
      split_ifs
      · exact hend futures (name :: rest) w₁ h
      rw [Prog.wp_bind]
      refine wp_anything ?_
      rintro (exc | started) w₂
      · exact herror exc
      rw [Prog.bindPost_ok, Prog.wp_bind]
      refine wp_anything ?_
      rintro (exc | batch) w₃
      · exact herror exc
      -- the futures of the wave replace those of the same names
      have hnext := nodup_update h batch
      rw [Prog.bindPost_ok, Prog.wp_bind]
      refine wp_anything ?_
      rintro (exc | now) w₄
      · exact herror exc
      rw [Prog.bindPost_ok, Prog.wp_bind]
      refine wp_anything ?_
      rintro (exc | ⟨⟩) w₅
      · exact herror exc
      rw [Prog.bindPost_ok, Prog.wp_bind]
      refine wp_anything ?_
      rintro (exc | now) w₆
      · exact herror exc
      rw [Prog.bindPost_ok, Prog.wp_bind]
      refine wp_anything ?_
      rintro (exc | _ | _) w₇
      · exact herror exc
      · exact hend _ _ w₇ hnext
      · exact ih started _ now hnext

/-- A scrape has one future for each release. -/
theorem nodup_reconcileWithin {names : List String} {pods : Option PodsByRelease} {deadline : ℚ}
    {futures : List (String × Future)}
    (h : (reconcileWithin cfg names pods deadline).Runs E w (.ok futures) w') :
    (futures.map Prod.fst).Nodup := by
  have hwp : (reconcileWithin cfg names pods deadline).wp E.spec
      (fun x _ => ∀ futures, x = .ok futures → (futures.map Prod.fst).Nodup) w := by
    rw [reconcileWithin, Prog.wp_bind]
    refine Prog.wp_mono (Env.spec_mono _) ?_
      (wp_waves_nodup pods deadline _ 0 (by simp) names)
    rintro (exc | ⟨started, queue⟩) w₁ hx
    · simp
    have hstarted := hx _ rfl
    rw [Prog.bindPost_ok, Prog.wp_bind]
    refine wp_anything ?_
    rintro (exc | ⟨⟩) w₂
    · simp
    rw [Prog.bindPost_ok]
    intro futures hfutures
    obtain rfl := Except.ok.inj hfutures
    clear hfutures hx
    induction queue generalizing started with
    | nil => exact hstarted
    | cons name rest ih => exact ih _ (nodup_setDefault hstarted name _)
  exact h.post hwp futures rfl

/-- What the loop told of the releases, one entry for each of the futures. -/
theorem told_of_polled {t t' : Tally} {told : List (String × Told)}
    {futures : List (String × Future)} {polled : List (Option (Except Exc Snapshot))}
    (ht : Tallied told t) (hlabels : ∀ family ∈ Tally.families t, Labelled family)
    (h : Polled E t futures w polled (.ok t') w') :
    ∃ told', told'.map Prod.fst = told.map Prod.fst ++ futures.map Prod.fst ∧ Tallied told' t' ∧
      ∀ family ∈ Tally.families t', Labelled family := by
  generalize hx : (.ok t' : Except Exc Tally) = x at h
  induction h generalizing told with
  | nil =>
      obtain rfl := Except.ok.inj hx
      exact ⟨told, by simp, ht, hlabels⟩
  | raised | overflow => cases hx
  | @cons t t₂ name future rest _ _ _ _ _ _ hpoll hadd _ ih =>
      obtain ⟨t₃, hadded, ht₃⟩ := ht.add _ ((exists_add_iff _ _ _).mp ⟨_, hadd⟩)
      obtain rfl := Except.ok.inj (hadd.symm.trans hadded)
      obtain ⟨told', hnames, hrest⟩ := ih ht₃ (labelled_add hlabels hadd) hx
      exact ⟨told', by simpa using hnames, hrest⟩

/-- The names of the families that the probe's samples are in. -/
def Named (r : Recorded) : Prop :=
  r.2.1.name = "nf_cluster_probe_seconds" ∧ r.2.2.name = "nf_orchestrator_probe_local_seconds"

/-- A scrape that emitted families either could not list the releases, or went through all of
them and told of each once. -/
theorem Exposed.exit {families : List GaugeMetricFamily} (h : Exposed cfg families) :
    (∃ found exc r, families = unlistedFamilies found exc r ∧ Named r) ∨
    ∃ found t r told, families = listedFamilies cfg found t r ∧ Named r ∧ Tallied told t ∧
      (told.map Prod.fst).Nodup ∧ ∀ family ∈ Tally.families t, Labelled family := by
  obtain ⟨releaseNames, W, E, w, w', hruns⟩ := h
  obtain ⟨facts, hscraped⟩ := scraped_iff.mp hruns
  cases hscraped with
  | unlisted hbegun hlist hexc hprobe =>
      exact .inl ⟨_, _, _, rfl, recordProbe_families hprobe⟩
  | listed hbegun hlist hpods hfound hrec hpolled hprobe =>
      obtain ⟨told, hnames, ht, hlabels⟩ := told_of_polled (tallied_nil _ _)
        (by simp [Tally.families, Labelled, labelsOf, releaseReported, deploymentState,
          deploymentDesiredReplicas, deploymentReadyReplicas, lastOperationState]) hpolled
      refine .inr ⟨_, _, _, told, rfl, recordProbe_families hprobe, ht, ?_, hlabels⟩
      rw [hnames]
      exact nodup_reconcileWithin hrec

end run

end NfOrchestrator.Monitoring
