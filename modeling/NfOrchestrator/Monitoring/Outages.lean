import NfOrchestrator.Metrics.Reachable
import NfOrchestrator.Monitoring.Exit

/-!
# NfOrchestrator.Monitoring.Outages

**One incident, one page.** While the cluster is unreachable nothing else pages
(`outage_alone`): the scrape that says so emits no other series that a rule reads at an
instant, and the rule for a cluster that throttles gives way to it. The page for throttling
stands for what the attempts of the last two minutes saw (`throttling_fires_iff`).
-/

namespace NfOrchestrator.Monitoring

open Prom Metrics Deploy

variable {cfg : Settings} {families : List GaugeMetricFamily} {moments : List Moment}
  {look : ℚ × List Prom.Scrape} {labels : Labels}

/-! ### What a rule sees -/

theorem shows_equals_iff {sel : Selector} {c : ℚ} (h : Timely look.2) :
    Shows labels (equals sel c look.2 look.1) ↔ sel.Matches labels ∧
      ∃ s, seen look.2 look.1 = some s ∧ s.value (sel.series labels) = some c := by
  have hvalue : ∀ v, (labels, v) ∈ equals sel c look.2 look.1 ↔
      (labels, v) ∈ instant sel look.2 look.1 ∧ v = c := by
    intro v
    rw [equals, mem_compared, decide_eq_true_iff]
  constructor
  · rintro ⟨v, hv⟩
    obtain ⟨hinstant, rfl⟩ := (hvalue v).mp hv
    exact (mem_instant h).mp hinstant
  · intro hinstant
    exact ⟨c, (hvalue c).mpr ⟨(mem_instant h).mpr hinstant, rfl⟩⟩

theorem Monitors.saw (h : Monitors cfg moments) (hlook : look ∈ looks moments)
    {s : Prom.Scrape} (hs : s ∈ look.2) : ∃ o, Saw s o := by
  obtain ⟨outcome, hattempted⟩ := h s ((prefix_of_mem_looks hlook).subset hs)
  exact exists_saw hattempted

/-! ### An outage -/

/-- The last scrape could not reach the cluster. -/
def Unreachable (look : ℚ × List Prom.Scrape) : Prop :=
  ∃ s, seen look.2 look.1 = some s ∧ Saw s (some .clusterUnreachable)

/-- The rule for an outage shows nothing but after a scrape that could not reach the cluster. -/
theorem clusterUnreachable_of_shows (h : Timely look.2) {s : Prom.Scrape} {exit : Exit}
    (hseen : seen look.2 look.1 = some s) (hsaw : Saw s (some exit))
    (hshows : Shows labels (equals reachable 0 look.2 look.1)) :
    labels = target ∧ exit = .clusterUnreachable := by
  obtain ⟨-, s', hseen', hv⟩ := (shows_equals_iff h).mp hshows
  obtain rfl := Option.some.inj (hseen.symm.trans hseen')
  obtain ⟨values, hsample, rfl⟩ := sample_of_value hsaw (by decide) (by decide) hv
  refine ⟨by simp [labelsOf, reachable], ?_⟩
  cases exit <;> simp [Exit.samples, only, reachable] at hsample ⊢

theorem unreachable_of_shows (h : Monitors cfg moments) (horder : InOrder moments)
    (hlook : look ∈ looks moments) (hshows : Shows labels (equals reachable 0 look.2 look.1)) :
    labels = target ∧ Unreachable look := by
  have htimely := horder.timely hlook
  obtain ⟨-, s, hseen, hv⟩ := (shows_equals_iff htimely).mp hshows
  obtain ⟨_ | exit, hsaw⟩ := h.saw hlook (mem_of_seen hseen)
  · rw [Selector.series, value_of_failed hsaw (by decide)] at hv
    cases hv
  · obtain ⟨hlabels, rfl⟩ := clusterUnreachable_of_shows htimely hseen hsaw hshows
    exact ⟨hlabels, s, hseen, hsaw⟩

theorem Unreachable.shows (h : Unreachable look) (htimely : Timely look.2) :
    Shows target (equals reachable 0 look.2 look.1) := by
  obtain ⟨s, hseen, hsaw⟩ := h
  have hzero : s.value (reachable.series target) = some 0 :=
    value_of_gauge hsaw (by decide) (by decide) (by simp [Exit.samples, only, reachable])
  exact (shows_equals_iff htimely).mpr ⟨by simp [Selector.Matches, reachable], s, hseen, hzero⟩

/-- A scrape that could not reach the cluster has no other series, but for the probe's. -/
theorem Unreachable.value_none (h : Unreachable look) {s : Prom.Scrape}
    (hseen : seen look.2 look.1 = some s) {metric : String} (hup : metric ≠ "up")
    (hprobe : ¬ofProbe metric) (hreachable : metric ≠ "nf_cluster_reachable") :
    s.value ⟨metric, labels⟩ = none := by
  obtain ⟨s', hseen', hsaw⟩ := h
  obtain rfl := Option.some.inj (hseen.symm.trans hseen')
  rw [← Option.not_isSome_iff_eq_none, Option.isSome_iff_exists]
  rintro ⟨v, hv⟩
  obtain ⟨values, hsample, -⟩ := sample_of_value hsaw hup hprobe hv
  rw [Exit.samples, only, if_neg (Ne.symm hreachable)] at hsample
  cases hsample

theorem Unreachable.not_shows_equals (h : Unreachable look) (htimely : Timely look.2)
    {sel : Selector} {c : ℚ} (hup : sel.metric ≠ "up") (hprobe : ¬ofProbe sel.metric)
    (hreachable : sel.metric ≠ "nf_cluster_reachable") :
    ¬Shows labels (equals sel c look.2 look.1) := by
  intro hshows
  obtain ⟨-, s, hseen, hv⟩ := (shows_equals_iff htimely).mp hshows
  rw [Selector.series, h.value_none hseen hup hprobe hreachable] at hv
  cases hv

/-- An element of a function over a span of time was read from one of the scrapes. -/
theorem target_of_mem_overTime (h : Monitors cfg moments) (hlook : look ∈ looks moments)
    {f : List ℚ → ℚ} {sel : Selector} {span v : ℚ}
    (hmem : (labels, v) ∈ overTime f sel span look.2 look.1) : ∃ own, labels = target ++ own := by
  obtain ⟨-, hne, -⟩ := mem_overTime.mp hmem
  obtain ⟨w, hw⟩ := List.exists_mem_of_ne_nil _ hne
  obtain ⟨s, hs, hvalue⟩ := List.mem_filterMap.mp hw
  split_ifs at hvalue
  obtain ⟨o, hsaw⟩ := h.saw hlook hs
  exact target_of_value hsaw hvalue

theorem lookup_target (own : Labels) {name : String} (hname : name ∈ ["instance", "job"]) :
    (target ++ own).lookup name = target.lookup name := by
  simp only [List.mem_cons, List.not_mem_nil, or_false] at hname
  rcases hname with rfl | rfl <;> rfl

/-- The rule for a cluster that throttles gives way to an outage. -/
theorem Unreachable.not_throttling (h : Monitors cfg moments) (horder : InOrder moments)
    (hlook : look ∈ looks moments) (hdown : Unreachable look) :
    ¬Shows labels ((rule .clusterThrottlingOrchestrator).at look) := by
  rintro ⟨v, hv⟩
  obtain ⟨hshare, hunless⟩ := mem_unlessOn.mp hv
  obtain ⟨x, y, hbusy, -, -⟩ := mem_divided.mp (mem_compared.mp hshare).1
  obtain ⟨own, rfl⟩ := target_of_mem_overTime h hlook hbusy
  -- the outage is an element of the right side, with the labels of the target
  obtain ⟨w, hw⟩ := hdown.shows (horder.timely hlook)
  obtain ⟨name, hname, hne⟩ := hunless _ hw
  exact hne (lookup_target own hname)

/-- While an alert for an outage is pending or fires, none of the others does, but for the one
about this host. -/
theorem outage_alone (h : Monitors cfg moments) (horder : InOrder moments)
    (hdown : IsActive (run (rule .clusterUnreachable) moments).active labels) {a : AlertName}
    (ha : a ≠ .clusterUnreachable) (hhost : a ≠ .orchestratorHostOverloaded) (others : Labels) :
    ¬IsActive (run (rule a) moments).active others := by
  obtain ⟨look, hlast, hshows⟩ := isActive_iff.mp hdown
  have hlook := List.mem_of_getLast? hlast
  have htimely := horder.timely hlook
  have hunreachable := (unreachable_of_shows h horder hlook hshows).2
  rw [isActive_iff]
  rintro ⟨look', hlast', hshows⟩
  obtain rfl := Option.some.inj (hlast.symm.trans hlast')
  cases a with
  | nfNotInstantiated | nfFailed | nfLastOperationFailed | nfReleaseUnreported
  | orchestratorMisconfigured =>
      exact hunreachable.not_shows_equals htimely (by decide) (by decide) (by decide) hshows
  | nfReplicaShortfall =>
      obtain ⟨v, hv⟩ := hshows
      obtain ⟨-, s, hseen, hvalue⟩ := (mem_instant htimely).mp (mem_below.mp hv).1
      rw [Selector.series, hunreachable.value_none hseen (by decide) (by decide) (by decide)]
        at hvalue
      cases hvalue
  | orchestratorScrapeFailing =>
      obtain ⟨-, s, hseen, hvalue⟩ := (shows_equals_iff htimely).mp hshows
      obtain ⟨s', hseen', hsaw⟩ := hunreachable
      obtain rfl := Option.some.inj (hseen.symm.trans hseen')
      have hup := ((value_up_iff hsaw).mp hvalue).2
      simp at hup
  | clusterThrottlingOrchestrator => exact hunreachable.not_throttling h horder hlook hshows
  | clusterUnreachable => exact absurd rfl ha
  | orchestratorHostOverloaded => exact absurd rfl hhost

/-- A scrape of a host that answers each of its calls so. -/
theorem exposed_of_run (reply : (o : Metrics.sig.Op) → Metrics.sig.Resp o)
    (h : ((collect defaultSettings (releaseNames defaultSettings 1)).run
      (fun o _ => (reply o, ())) ()).1 = .ok families) : Exposed defaultSettings families :=
  ⟨_, Unit, _, (), _, h ▸ runs_replying reply (collect defaultSettings _)⟩

/-- A scrape that stores these families at a time. -/
def scrapedAt (time : ℚ) (families : List GaugeMetricFamily) : Moment :=
  .scraped ⟨time, stored (some families)⟩

theorem attempted_scrapedAt (h : Exposed defaultSettings families) (time : ℚ) :
    ∃ outcome, Attempted defaultSettings outcome ⟨time, stored (some families)⟩ :=
  ⟨some families, rfl, fun _ heq => Option.some.inj heq ▸ h⟩

/-- What a scrape emits that cannot reach the cluster, and measures nothing. -/
def downFamilies : List GaugeMetricFamily :=
  [clusterReachable.addMetric [] 0, orchestratorProbeLocalSeconds]

theorem exposed_down : Exposed defaultSettings downFamilies :=
  exposed_of_run (listingReply (.completed 1 "" "Error: Kubernetes cluster unreachable"))
    (by decide +kernel)

/-- The cluster cannot be reached for a minute. -/
def downAMinute : List Moment :=
  [scrapedAt 0 downFamilies, .evaluated 1, scrapedAt 30 downFamilies, .evaluated 61]

theorem monitors_downAMinute : Monitors defaultSettings downAMinute := by
  simpa [Monitors, scrapesOf, downAMinute, scrapedAt] using
    And.intro (attempted_scrapedAt exposed_down 0) (attempted_scrapedAt exposed_down 30)

theorem inOrder_downAMinute : InOrder downAMinute where
  scrapes := by simp [Timely, scrapesOf, downAMinute, scrapedAt]
  evaluations := by simp [looks, looksFrom, downAMinute, scrapedAt]

theorem outage_alone_minute :
    Firing (run (rule .clusterUnreachable) downAMinute).active target ∧
      ¬IsActive (run (rule .orchestratorMisconfigured) downAMinute).active target := by
  have hfiring : Firing (run (rule .clusterUnreachable) downAMinute).active target :=
    ⟨⟨1, true⟩, by decide +kernel, rfl⟩
  exact ⟨hfiring, outage_alone monitors_downAMinute inOrder_downAMinute hfiring.isActive
    (by decide) (by decide) target⟩

/-! ### Shares of the attempts -/

/-- The attempts of the last two minutes. -/
def recent (look : ℚ × List Prom.Scrape) : List Prom.Scrape :=
  look.2.filter fun s => look.1 - 120 < s.time ∧ s.time ≤ look.1

/-- How many of them found that a gauge is 1. -/
def found (metric : String) (look : ℚ × List Prom.Scrape) : ℕ :=
  (recent look).countP fun s => s.value ⟨metric, target⟩ = some 1

theorem readings_eq (sel : Selector) (look : ℚ × List Prom.Scrape) :
    readings sel target 120 look.2 look.1 =
      (recent look).filterMap fun s => s.value (sel.series target) := by
  rw [readings, recent, List.filterMap_filter]
  refine List.filterMap_congr fun s _ => ?_
  by_cases ht : look.1 - 120 < s.time ∧ s.time ≤ look.1 <;> simp [ht]

/-- A gauge without labels that is 0 or 1 wherever a scrape emits it. -/
structure IsFlag (metric : String) : Prop where
  not_up : metric ≠ "up"
  not_probe : ¬ofProbe metric
  labels : labelsOf metric = []
  zero_or_one : ∀ (exit : Exit) values v, (values, v) ∈ exit.samples metric → v = 0 ∨ v = 1

theorem zero_or_one_of_flag {b : Bool} {v : ℚ} (h : v = flag b) : v = 0 ∨ v = 1 := by
  cases b <;> simp_all [flag]

theorem isFlag_busy : IsFlag "nf_cluster_busy" where
  not_up := by decide
  not_probe := by decide
  labels := by decide
  zero_or_one := by
    intro exit values v h
    cases exit <;> simp [Exit.samples, only] at h
    · exact .inr h.2
    · exact zero_or_one_of_flag h.2

theorem isFlag_exhausted : IsFlag "nf_orchestrator_exhausted" where
  not_up := by decide
  not_probe := by decide
  labels := by decide
  zero_or_one := by
    intro exit values v h
    cases exit <;> simp [Exit.samples, only] at h
    · exact zero_or_one_of_flag h.2
    · exact zero_or_one_of_flag h.2

section share

variable {metric : String} (hflag : IsFlag metric)

include hflag

theorem IsFlag.value_cases {s : Prom.Scrape} {o : Option Exit} (hsaw : Saw s o) {v : ℚ}
    (hv : s.value ⟨metric, labels⟩ = some v) : labels = target ∧ (v = 0 ∨ v = 1) := by
  cases o with
  | none =>
      rw [value_of_failed hsaw hflag.not_up] at hv
      cases hv
  | some exit =>
      obtain ⟨values, hsample, rfl⟩ := sample_of_value hsaw hflag.not_up hflag.not_probe hv
      refine ⟨?_, hflag.zero_or_one exit values v hsample⟩
      rw [hflag.labels, List.zip_nil_left, List.append_nil]

/-- The sum of the gauge over the attempts is the number of those that found it to be 1. -/
theorem IsFlag.sum_eq {scrapes : List Prom.Scrape} (hsaw : ∀ s ∈ scrapes, ∃ o, Saw s o) :
    (scrapes.filterMap fun s => s.value ⟨metric, target⟩).sum =
      (scrapes.countP fun s => s.value ⟨metric, target⟩ = some 1 : ℕ) := by
  induction scrapes with
  | nil => rfl
  | cons s rest ih =>
      have hrest := ih fun s' hs' => hsaw s' (List.mem_cons_of_mem _ hs')
      obtain ⟨o, ho⟩ := hsaw s List.mem_cons_self
      rw [List.countP_cons, List.filterMap_cons]
      cases hv : s.value ⟨metric, target⟩ with
      | none => simpa using hrest
      | some v =>
          rcases (hflag.value_cases ho hv).2 with rfl | rfl
          · simpa using hrest
          · simp [hrest, add_comm]

/-- The share of the attempts of the last two minutes that found the gauge to be 1. -/
theorem IsFlag.mem_share_iff (h : Monitors cfg moments) (hlook : look ∈ looks moments) {v : ℚ} :
    (labels, v) ∈ shareOfAttempts metric look.2 look.1 ↔
      labels = target ∧ readings ⟨metric, []⟩ target 120 look.2 look.1 ≠ [] ∧
        v = found metric look / (recent look).length := by
  have hsaw : ∀ s ∈ recent look, ∃ o, Saw s o := fun s hs =>
    h.saw hlook (List.mem_filter.mp hs).1
  have hsum : (readings ⟨metric, []⟩ target 120 look.2 look.1).sum = found metric look := by
    rw [readings_eq]
    exact hflag.sum_eq hsaw
  have hcount : (readings upOfJob target 120 look.2 look.1).length = (recent look).length := by
    rw [readings_eq, List.filterMap_length_eq_length.mpr]
    intro s hs
    obtain ⟨o, ho⟩ := hsaw s hs
    have hup : s.value ⟨"up", target⟩ = _ := (value_up_iff ho).mpr ⟨rfl, rfl⟩
    exact Option.isSome_iff_exists.mpr ⟨_, hup⟩
  have hlabels : ∀ {x : ℚ}, (labels, x) ∈ sumOverTime ⟨metric, []⟩ 120 look.2 look.1 →
      labels = target := by
    intro x hx
    obtain ⟨-, hne, -⟩ := mem_overTime.mp hx
    obtain ⟨w, hw⟩ := List.exists_mem_of_ne_nil _ hne
    obtain ⟨s, hs, hvalue⟩ := List.mem_filterMap.mp hw
    split_ifs at hvalue
    obtain ⟨o, ho⟩ := h.saw hlook hs
    exact (hflag.value_cases ho hvalue).1
  rw [shareOfAttempts, mem_divided]
  constructor
  · rintro ⟨x, y, hx, hy, rfl⟩
    obtain rfl := hlabels hx
    obtain ⟨-, hne, rfl⟩ := mem_overTime.mp hx
    obtain ⟨-, -, rfl⟩ := mem_overTime.mp hy
    exact ⟨rfl, hne, by rw [hsum, hcount]⟩
  · rintro ⟨rfl, hne, rfl⟩
    refine ⟨_, _, mem_overTime.mpr ⟨by simp [Selector.Matches], hne, hsum⟩,
      mem_overTime.mpr ⟨by decide, ?_, by rw [hcount]⟩, rfl⟩
    -- an attempt that has the gauge has `up`
    rw [← List.length_pos_iff, hcount, List.length_pos_iff]
    intro hnil
    rw [readings_eq, hnil] at hne
    exact hne rfl

/-- The share reaches a bound above 0. -/
theorem IsFlag.shows_share_iff (h : Monitors cfg moments) (hlook : look ∈ looks moments) {c : ℚ}
    (hc : 0 < c) :
    Shows labels (atLeast (shareOfAttempts metric) c look.2 look.1) ↔
      labels = target ∧ recent look ≠ [] ∧ c * (recent look).length ≤ found metric look := by
  have hreadings : readings ⟨metric, []⟩ target 120 look.2 look.1 =
      (recent look).filterMap fun s => s.value ⟨metric, target⟩ :=
    readings_eq _ _
  have hpos : recent look ≠ [] → (0 : ℚ) < (recent look).length := fun hne =>
    Nat.cast_pos.mpr (List.length_pos_iff.mpr hne)
  have hmem : ∀ v, (labels, v) ∈ atLeast (shareOfAttempts metric) c look.2 look.1 ↔
      (labels, v) ∈ shareOfAttempts metric look.2 look.1 ∧ c ≤ v := by
    intro v
    rw [atLeast, mem_compared, decide_eq_true_iff]
  constructor
  · rintro ⟨v, hv⟩
    obtain ⟨hshare, hle⟩ := (hmem v).mp hv
    obtain ⟨rfl, hne, rfl⟩ := (hflag.mem_share_iff h hlook).mp hshare
    have hrecent : recent look ≠ [] := by
      intro hnil
      rw [hreadings, hnil] at hne
      exact hne rfl
    exact ⟨rfl, hrecent, (le_div_iff₀ (hpos hrecent)).mp hle⟩
  · rintro ⟨rfl, hrecent, hle⟩
    refine ⟨_, (hmem _).mpr ⟨(hflag.mem_share_iff h hlook).mpr ⟨rfl, ?_, rfl⟩,
      (le_div_iff₀ (hpos hrecent)).mpr hle⟩⟩
    -- one of them found it, so it was read
    have hfound : 0 < found metric look := by
      have := mul_pos hc (hpos hrecent)
      exact_mod_cast this.trans_le hle
    obtain ⟨s, hs, hv⟩ := List.countP_pos_iff.mp hfound
    rw [hreadings]
    exact List.ne_nil_of_mem (List.mem_filterMap.mpr ⟨s, hs, of_decide_eq_true hv⟩)

end share

/-! ### Throttling -/

/-- At least half of the attempts of the last two minutes found the cluster busy, and the last
one did not find it unreachable. -/
structure Throttled (look : ℚ × List Prom.Scrape) : Prop where
  attempted : recent look ≠ []
  half : (recent look).length ≤ 2 * found "nf_cluster_busy" look
  not_unreachable : ¬Unreachable look

theorem shows_throttling_iff (h : Monitors cfg moments) (horder : InOrder moments)
    (hlook : look ∈ looks moments) :
    Shows labels ((rule .clusterThrottlingOrchestrator).at look) ↔
      labels = target ∧ Throttled look := by
  have hhalf : (1 / 2 : ℚ) * (recent look).length ≤ found "nf_cluster_busy" look ↔
      (recent look).length ≤ 2 * found "nf_cluster_busy" look := by
    rw [one_div, inv_mul_le_iff₀ two_pos]
    norm_cast
  have hshare := @IsFlag.shows_share_iff _ _ _ labels _ isFlag_busy h hlook _ one_half_pos
  rw [hhalf] at hshare
  constructor
  · intro hshows
    have hnot : ¬Unreachable look := fun hdown => hdown.not_throttling h horder hlook hshows
    obtain ⟨v, hv⟩ := hshows
    obtain ⟨hlabels, hrecent, hle⟩ := hshare.mp ⟨v, (mem_unlessOn.mp hv).1⟩
    exact ⟨hlabels, hrecent, hle, hnot⟩
  · rintro ⟨hlabels, hthrottled⟩
    obtain ⟨v, hv⟩ := hshare.mpr ⟨hlabels, hthrottled.attempted, hthrottled.half⟩
    refine ⟨v, mem_unlessOn.mpr ⟨hv, fun y hy => ?_⟩⟩
    have hshows : Shows y.1 (equals reachable 0 look.2 look.1) := ⟨y.2, hy⟩
    exact absurd (unreachable_of_shows h horder hlook hshows).2 hthrottled.not_unreachable

/-- The page for throttling stands exactly as long as, for a minute of evaluations, half of the
attempts of two minutes find the cluster busy and no last one finds it unreachable. -/
theorem throttling_fires_iff (h : Monitors cfg moments) (horder : InOrder moments) :
    Firing (run (rule .clusterThrottlingOrchestrator) moments).active labels ↔
      labels = target ∧ ∃ suffix first last, suffix <:+ looks moments ∧
        suffix.head? = some first ∧ suffix.getLast? = some last ∧ 60 ≤ last.1 - first.1 ∧
          ∀ look ∈ suffix, Throttled look := by
  rw [firing_iff horder]
  constructor
  · rintro ⟨suffix, first, last, hsuffix, hfirst, hlast, hhold, hshows⟩
    have hthrottled := fun look hlook =>
      (shows_throttling_iff h horder (hsuffix.subset hlook)).mp (hshows look hlook)
    exact ⟨(hthrottled _ (List.mem_of_getLast? hlast)).1, suffix, first, last, hsuffix, hfirst,
      hlast, hhold, fun look hlook => (hthrottled look hlook).2⟩
  · rintro ⟨hlabels, suffix, first, last, hsuffix, hfirst, hlast, hhold, hthrottled⟩
    exact ⟨suffix, first, last, hsuffix, hfirst, hlast, hhold, fun look hlook =>
      (shows_throttling_iff h horder (hsuffix.subset hlook)).mpr ⟨hlabels, hthrottled look hlook⟩⟩

/-- What a scrape emits that the API server turns away. -/
def busyFamilies : List GaugeMetricFamily :=
  [clusterReachable.addMetric [] 1, clusterBusy.addMetric [] 1, clusterProbeSeconds,
    orchestratorProbeLocalSeconds]

theorem exposed_busy : Exposed defaultSettings busyFamilies :=
  exposed_of_run (listingReply (.completed 1 "" "Error: too many requests")) (by decide +kernel)

/-- The API server turns the orchestrator away for a minute. -/
def busyAMinute : List Moment :=
  [scrapedAt 0 busyFamilies, .evaluated 1, scrapedAt 30 busyFamilies, .evaluated 61]

theorem monitors_busyAMinute : Monitors defaultSettings busyAMinute := by
  simpa [Monitors, scrapesOf, busyAMinute, scrapedAt] using
    And.intro (attempted_scrapedAt exposed_busy 0) (attempted_scrapedAt exposed_busy 30)

theorem inOrder_busyAMinute : InOrder busyAMinute where
  scrapes := by simp [Timely, scrapesOf, busyAMinute, scrapedAt]
  evaluations := by simp [looks, looksFrom, busyAMinute, scrapedAt]

theorem throttling_fires_iff_minute :
    Firing (run (rule .clusterThrottlingOrchestrator) busyAMinute).active target ∧
      target = target ∧ ∃ suffix first last, suffix <:+ looks busyAMinute ∧
        suffix.head? = some first ∧ suffix.getLast? = some last ∧ 60 ≤ last.1 - first.1 ∧
          ∀ look ∈ suffix, Throttled look := by
  have hfiring : Firing (run (rule .clusterThrottlingOrchestrator) busyAMinute).active target :=
    ⟨⟨1, true⟩, by decide +kernel, rfl⟩
  exact ⟨hfiring, (throttling_fires_iff monitors_busyAMinute inOrder_busyAMinute).mp hfiring⟩

end NfOrchestrator.Monitoring
