import Mathlib.Algebra.Order.Ring.Rat
import Mathlib.Tactic.Linarith
import NfOrchestrator.Metrics.Exits

/-!
# NfOrchestrator.Metrics.Budget

**How long a scrape takes.** Time is a clock that helm and kubectl processes, and waiting
for a thread that runs one, advance; nothing else takes any. The waves and the wait for
the prober look at the deadline. The scrape's own calls before them do not: the version
check, each page of the listing, the pod listing and the probes after a killed call run
one after the other, each under its own bound. So the scrape is in time if and only if
these calls together are (`scrape_in_time_iff`).
-/

namespace NfOrchestrator.Metrics

open Deploy Reconciler

/-! ### The clock -/

/-- The clock, and what the scrape has spent of it where. -/
structure Elapsed where
  clock : ℚ
  /-- In its own helm and kubectl calls, a wait for the lock of the probe included. -/
  calls : ℚ
  /-- Waiting for the prober at the end. -/
  joined : ℚ
  deriving DecidableEq

/-- The scrape begins. -/
def Elapsed.start (now : ℚ) : Elapsed := ⟨now, 0, 0⟩

/-- One of the scrape's own calls takes this long. -/
def Elapsed.call (w : Elapsed) (seconds : ℚ) : Elapsed :=
  { w with clock := w.clock + seconds, calls := w.calls + seconds }

def Elapsed.wait (w : Elapsed) (seconds : ℚ) : Elapsed := { w with clock := w.clock + seconds }

def Elapsed.join (w : Elapsed) (seconds : ℚ) : Elapsed :=
  { w with clock := w.clock + seconds, joined := w.joined + seconds }

/-- A call under this bound can take this long. A negative bound is one that has passed. -/
def Takes (timeout seconds : ℚ) : Prop := 0 ≤ seconds ∧ seconds ≤ max 0 timeout

/-- A process takes any time up to its bound, and ends in any way; a wait takes any time up
to its own. -/
def timed : Env sig Elapsed := fun o w r w' =>
  match o, r with
  | .inl .monotonic, now => now = w.clock ∧ w' = w
  | .inl (.finish _ timeout), _ => ∃ seconds, Takes timeout seconds ∧ w' = w.call seconds
  | .inl .acquireProbeLock, _ => ∃ seconds, 0 ≤ seconds ∧ w' = w.call seconds
  | .inr (.wait _ timeout), _ => ∃ seconds, Takes timeout seconds ∧ w' = w.wait seconds
  | .inr (.joinProber timeout), _ => ∃ seconds, Takes timeout seconds ∧ w' = w.join seconds
  | _, _ => w' = w

/-! ### The scrape's own calls -/

/-- What is so after some of the scrape's own calls. -/
def Calling (w w' : Elapsed) : Prop :=
  w'.clock - w'.calls = w.clock - w.calls ∧ w'.joined = w.joined

/-- Until the waves begin, all the time that passes is spent in the scrape's own calls. -/
theorem calling_of_runs {α : Type} {p : Eff α} {w w' : Elapsed} {x : Except Exc α}
    (h : (engine p).Runs timed w x w') : Calling w w' := by
  refine (runs_engine.mp h).invariant (I := fun w' => Calling w w') ?_ ⟨rfl, rfl⟩
  intro o w₁ r w₂ hstep hw
  cases o with
  | monotonic =>
      obtain ⟨-, rfl⟩ := hstep
      exact hw
  | finish command timeout =>
      obtain ⟨seconds, -, rfl⟩ := hstep
      refine ⟨?_, hw.2⟩
      have hclock := hw.1
      simp only [Elapsed.call]
      linarith
  | acquireProbeLock =>
      obtain ⟨seconds, -, rfl⟩ := hstep
      refine ⟨?_, hw.2⟩
      have hclock := hw.1
      simp only [Elapsed.call]
      linarith
  | _ =>
      obtain rfl : w₂ = w₁ := hstep
      exact hw

/-! ### The waves -/

/-- What is so in the waves: they wait no longer than to the deadline. -/
structure Waiting (deadline : ℚ) (w w' : Elapsed) : Prop where
  calls : w'.calls = w.calls
  joined : w'.joined = w.joined
  later : w.clock ≤ w'.clock
  bounded : w'.clock ≤ max w.clock deadline

/-- Calls that take no time. -/
def Instant (o : sig.Op) : Prop := ∀ w r w', timed o w r w' → w' = w

theorem wp_instant {α : Type} {p : Scrape α} (hp : p.Within Instant) (w : Elapsed) :
    p.wp timed.spec (fun _ w' => w' = w) w := by
  rw [Prog.wp_iff_runs]
  intro x w' hr
  exact hp.invariant (I := fun w' => w' = w)
    (fun o w₁ r w₂ ho hstep hw => (ho w₁ r w₂ hstep).trans hw) hr rfl

theorem instant_submitAll (pods : Option PodsByRelease) (names : List String)
    (batch : List (String × Future)) : (submitAll pods batch names).Within Instant := by
  induction names generalizing batch with
  | nil => trivial
  | cons name rest ih =>
      refine Prog.Within.bind ?_ fun future => ih _
      refine Prog.Within.bind (Prog.within_op fun w r w' h => h) fun started => ?_
      split_ifs
      · trivial
      · trivial

theorem instant_allDone (futures : List Future) : (allDone futures).Within Instant := by
  induction futures with
  | nil => trivial
  | cons future rest ih =>
      refine Prog.Within.bind ?_ fun done => ?_
      · cases future with
        | started name given => exact Prog.within_op fun w r w' h => h
        | settled => trivial
        | neverStarted => trivial
      · split_ifs
        · exact ih
        · trivial

/-- A wait for the rest of the budget ends by the deadline, unless that has passed. -/
theorem Waiting.wait {deadline seconds : ℚ} {w w' : Elapsed} (h : Waiting deadline w w')
    (hseconds : Takes (max 0 (deadline - w'.clock)) seconds) :
    Waiting deadline w (w'.wait seconds) where
  calls := h.calls
  joined := h.joined
  later := by
    have hlater := h.later
    have hnonneg := hseconds.1
    simp only [Elapsed.wait]
    linarith
  bounded := by
    have hbounded := h.bounded
    have hbound := hseconds.2
    rw [max_eq_right (le_max_left _ _)] at hbound
    simp only [Elapsed.wait]
    rcases max_cases 0 (deadline - w'.clock) with ⟨hmax, -⟩ | ⟨hmax, -⟩
    · linarith
    · exact le_max_of_le_right (by linarith)

variable (cfg : Settings)

theorem wp_waves_waiting {w : Elapsed} (pods : Option PodsByRelease) (deadline : ℚ) (wave : ℕ+)
    (previousCost : ℚ) (futures : List (String × Future)) (queue : List String) {w₀ : Elapsed}
    (h : Waiting deadline w w₀) :
    (waves cfg pods deadline wave previousCost futures queue).wp timed.spec
      (fun _ w' => Waiting deadline w w') w₀ := by
  induction wave, previousCost, futures, queue using (waves.induct cfg) generalizing w₀ with
  | case1 wave previousCost futures =>
      rw [waves]
      exact h
  | case2 wave previousCost futures name rest queue =>
      rename_i ih
      rw [waves, Prog.wp_bind, wp_engine, wp_monotonic]
      intro now _ hx
      obtain ⟨rfl, rfl⟩ := hx
      rw [Prog.bindPost_ok]
      dsimp only
      split_ifs
      · exact h
      · rw [Prog.wp_bind, wp_engine, wp_monotonic]
        intro started _ hx
        obtain ⟨rfl, rfl⟩ := hx
        rw [Prog.bindPost_ok, Prog.wp_bind]
        refine Prog.wp_mono (Env.spec_mono _) ?_ (wp_instant (instant_submitAll _ _ _) _)
        rintro (e | batch) w₁ rfl
        · exact h
        rw [Prog.bindPost_ok, Prog.wp_bind, wp_engine, wp_monotonic]
        intro now _ hx
        obtain ⟨rfl, rfl⟩ := hx
        rw [Prog.bindPost_ok, Prog.wp_bind, wp_perform]
        rintro ⟨⟩ _ ⟨seconds, hseconds, rfl⟩
        -- only this wait takes time, and its bound ends at the deadline
        have hwaited := h.wait hseconds
        rw [Prog.bindPost_ok, Prog.wp_bind, wp_engine, wp_monotonic]
        intro now _ hx
        obtain ⟨rfl, rfl⟩ := hx
        rw [Prog.bindPost_ok, Prog.wp_bind]
        refine Prog.wp_mono (Env.spec_mono _) ?_ (wp_instant (instant_allDone _) _)
        rintro (e | done) w₁ rfl
        · exact hwaited
        rw [Prog.bindPost_ok]
        split_ifs
        · exact ih _ _ _ hwaited
        · exact hwaited

theorem wp_reconcileWithin_waiting (names : List String) (pods : Option PodsByRelease)
    (deadline : ℚ) (w : Elapsed) :
    (reconcileWithin cfg names pods deadline).wp timed.spec (fun _ w' => Waiting deadline w w')
      w := by
  have hstart : Waiting deadline w w := ⟨rfl, rfl, le_rfl, le_max_left _ _⟩
  rw [reconcileWithin, Prog.wp_bind]
  refine Prog.wp_mono (Env.spec_mono _) ?_ (wp_waves_waiting cfg pods deadline _ 0 [] names hstart)
  rintro (e | ⟨futures, queue⟩) w₁ hwaiting
  · exact hwaiting
  · rintro ⟨⟩ _ rfl
    exact hwaiting

theorem instant_poll (future : Future) : future.poll.Within Instant := by
  cases future with
  | started name given =>
      refine Prog.Within.bind (Prog.within_op fun w r w' h => h) fun result => ?_
      cases result with
      | none => trivial
      | some result => exact Prog.Within.bind (Prog.within_ofExcept _) fun _ => trivial
  | settled => trivial
  | neverStarted => trivial

/-- Going through the futures takes no time. -/
theorem Polled.still {t : Tally} {futures : List (String × Future)} {w w' : Elapsed}
    {polled : List (Option (Except Exc Snapshot))} {x : Except Exc Tally}
    (h : Polled timed t futures w polled x w') : w' = w := by
  have hpoll : ∀ {future : Future} {y : Except Exc (Option Snapshot)} {w w' : Elapsed},
      future.poll.Runs timed w y w' → w' = w := fun hrun =>
    hrun.post (wp_instant (instant_poll _) _)
  induction h with
  | nil => rfl
  | raised h => exact hpoll h
  | overflow h _ => exact hpoll h
  | cons h _ _ ih => exact ih.trans (hpoll h)

/-! ### The whole scrape -/

/-- Waiting for the prober takes no longer than to the deadline and the grace after it. -/
theorem recordProbe_joins {started : Bool} {deadline : ℚ}
    {clusterSeconds localSeconds : GaugeMetricFamily} {x : Except Exc Recorded} {w w' : Elapsed}
    (h : (recordProbe started deadline clusterSeconds localSeconds).Runs timed w x w') :
    ∃ seconds, seconds ≤ max 0 (deadline - w.clock) + 1 / 4 ∧ w' = w.join seconds := by
  refine h.post (Q := fun _ w' => ∃ seconds, seconds ≤ max 0 (deadline - w.clock) + 1 / 4 ∧
    w' = w.join seconds) ?_
  have hgrace : 0 ≤ max 0 (deadline - w.clock) + 1 / 4 :=
    add_nonneg (le_max_left _ _) (by norm_num)
  rw [recordProbe]
  split_ifs
  · exact ⟨0, hgrace, by simp [Elapsed.join]⟩
  · rw [Prog.wp_bind, wp_engine, wp_monotonic]
    intro now _ hx
    obtain ⟨rfl, rfl⟩ := hx
    rw [Prog.bindPost_ok, Prog.wp_bind, wp_perform]
    rintro ⟨⟩ _ ⟨seconds, ⟨-, hbound⟩, rfl⟩
    rw [max_eq_right hgrace] at hbound
    rw [Prog.bindPost_ok, Prog.wp_bind, wp_perform]
    rintro (_ | probe) _ rfl
    · exact ⟨seconds, hbound, rfl⟩
    · exact ⟨seconds, hbound, rfl⟩

/-- The scrape's own calls, then the waves, then the wait for the prober. -/
theorem Waiting.in_time_iff {t₀ budget seconds : ℚ} {w w' : Elapsed}
    (hcalling : Calling (.start t₀) w) (hwaiting : Waiting (t₀ + budget) w w')
    (hbound : seconds ≤ max 0 (t₀ + budget - w'.clock) + 1 / 4) :
    (w'.join seconds).clock ≤ t₀ + budget + 1 / 4 ↔
      (w'.join seconds).calls ≤ budget ∨
        (w'.join seconds).calls + (w'.join seconds).joined ≤ budget + 1 / 4 := by
  have hclock : w.clock = t₀ + w.calls := by
    have h := hcalling.1
    simp only [Elapsed.start, sub_zero] at h
    linarith
  have hjoined : w'.joined = 0 := hwaiting.joined.trans hcalling.2
  have hcalls := hwaiting.calls
  simp only [Elapsed.join, hjoined, hcalls, zero_add]
  rcases le_or_gt w.calls budget with hle | hgt
  · -- The deadline had not passed before the waves, so they and the prober kept to it.
    have hmax : max w.clock (t₀ + budget) = t₀ + budget := max_eq_right (by linarith)
    have hbefore : w'.clock ≤ t₀ + budget := hmax ▸ hwaiting.bounded
    rw [max_eq_right (by linarith)] at hbound
    exact iff_of_true (by linarith) (.inl hle)
  · -- The deadline had passed, so no wave was started and no time spent on one.
    have hmax : max w.clock (t₀ + budget) = w.clock := max_eq_left (by linarith)
    have hafter : w'.clock = w.clock := le_antisymm (hmax ▸ hwaiting.bounded) hwaiting.later
    rw [hafter, hclock]
    constructor
    · intro h
      exact .inr (by linarith)
    · intro hx
      rcases hx with h | h
      · linarith
      · linarith

variable {cfg} {names : Eff (List String)}

/-- Setting up takes the time of its own calls, and the deadline is counted from before
them. -/
theorem Begun.calling {t₀ : ℚ} {problems : List String} {started : Bool} {found : Findings}
    {w : Elapsed} (h : Begun cfg timed (.start t₀) problems started found w) :
    found.deadline = t₀ + cfg.scrapeBudget ∧ Calling (.start t₀) w := by
  obtain ⟨hnow, htools, hprober⟩ := h
  obtain ⟨now, w₁, ⟨rfl, rfl⟩, hret⟩ := runs_engine.mp hnow
  obtain ⟨hok, rfl⟩ := hret
  obtain rfl := Except.ok.inj hok
  obtain ⟨started, w₂, rfl, -, rfl⟩ := hprober
  exact ⟨rfl, calling_of_runs htools⟩

theorem Calling.trans {w w₁ w₂ : Elapsed} (h : Calling w w₁) (h' : Calling w₁ w₂) :
    Calling w w₂ := ⟨h'.1.trans h.1, h'.2.trans h.2⟩

theorem deadline_of_podsFound {found found' : Findings} {pods : Except Exc PodsByRelease}
    {given : Option PodsByRelease} (h : podsFound found pods = .ok (found', given)) :
    found'.deadline = found.deadline := by
  rcases pods with (e | e | e) | pods
  · simp only [podsFound] at h
    split_ifs at h <;> (cases h; rfl)
  · cases h
    rfl
  · cases h
  · cases h
    rfl

/-- A scrape that ends in time spent, in its own calls, no more than its budget, or what
the wait for the prober left of the grace. -/
theorem scrape_in_time_iff {t₀ : ℚ} {families : List GaugeMetricFamily} {w : Elapsed}
    (h : (collect cfg names).Runs timed (.start t₀) (.ok families) w) :
    w.clock ≤ t₀ + cfg.scrapeBudget + 1 / 4 ↔
      w.calls ≤ cfg.scrapeBudget ∨ w.calls + w.joined ≤ cfg.scrapeBudget + 1 / 4 := by
  obtain ⟨facts, hscraped⟩ := scraped_iff.mp h
  cases hscraped with
  | unlisted hbegun hlist _ hprobe =>
      obtain ⟨hdeadline, hcalling⟩ := hbegun.calling
      obtain ⟨seconds, hbound, rfl⟩ := recordProbe_joins hprobe
      have hcalling := hcalling.trans (calling_of_runs hlist)
      rw [hdeadline] at hbound
      exact Waiting.in_time_iff hcalling ⟨rfl, rfl, le_rfl, le_max_left _ _⟩ hbound
  | listed hbegun hlist hpods hfound hrec hpolled hprobe =>
      obtain ⟨hdeadline, hcalling⟩ := hbegun.calling
      rw [← deadline_of_podsFound hfound] at hdeadline
      have hcalling := (hcalling.trans (calling_of_runs hlist)).trans (calling_of_runs hpods)
      have hwaiting := hrec.post (wp_reconcileWithin_waiting cfg _ _ _ _)
      obtain ⟨seconds, hbound, rfl⟩ := recordProbe_joins hprobe
      rw [hpolled.still, hdeadline] at hbound
      rw [hpolled.still]
      rw [hdeadline] at hwaiting
      exact Waiting.in_time_iff hcalling hwaiting hbound

/-- A cluster of which helm prints this listing, where each process takes this long, and
each wait this long, or ends just at its bound. -/
def quickCluster (listing : String) (seconds waited : ℚ) :
    (o : sig.Op) → Elapsed → sig.Resp o × Elapsed
  | .inl .monotonic, w => (w.clock, w)
  | .inl (.finish command timeout), w =>
      (if command = ["helm", "version", "--short"] then .completed 0 "v4.0.0" ""
        else if command.head? = some "helm" then .completed 0 listing ""
        else .completed 0 "\x7b\"items\": []\x7d" "",
       w.call (min (max 0 seconds) (max 0 timeout)))
  | .inl o, w => (blankReply o, w)
  | .inr .startProber, w => (true, w)
  | .inr (.submit _ _), w | .inr (.done _ _), w => (true, w)
  | .inr (.poll name _), w => (some (.ok (.dict (absent name))), w)
  | .inr .measured, w => (none, w)
  | .inr (.wait _ timeout), w => ((), w.wait (min (max 0 waited) (max 0 timeout)))
  | .inr .shutdown, w => ((), w)
  | .inr (.joinProber timeout), w => ((), w.join (min (max 0 waited) (max 0 timeout)))

theorem timed_quickCluster (listing : String) (seconds waited : ℚ) (o : sig.Op) (w : Elapsed) :
    timed o w (quickCluster listing seconds waited o w).1
      (quickCluster listing seconds waited o w).2 := by
  have htakes : ∀ seconds timeout : ℚ, Takes timeout (min (max 0 seconds) (max 0 timeout)) :=
    fun _ _ => ⟨le_min (le_max_left _ _) (le_max_left _ _), min_le_right _ _⟩
  rcases o with o | o
  · cases o with
    | monotonic => exact ⟨rfl, rfl⟩
    | finish command timeout => exact ⟨_, htakes seconds timeout, rfl⟩
    | acquireProbeLock => exact ⟨0, le_rfl, by simp [quickCluster, Elapsed.call]⟩
    | _ => rfl
  · cases o with
    | wait names timeout => exact ⟨_, htakes waited timeout, rfl⟩
    | joinProber timeout => exact ⟨_, htakes waited timeout, rfl⟩
    | _ => rfl

/-- A scrape of that cluster. -/
def scrapeOf (listing : String) (seconds waited : ℚ) :
    Except Exc (List GaugeMetricFamily) × Elapsed :=
  (collect defaultSettings (releaseNames defaultSettings 1)).run
    (quickCluster listing seconds waited) (.start 0)

theorem scrapeOf_runs {listing : String} {seconds waited : ℚ}
    (h : (scrapeOf listing seconds waited).1.isOk) :
    ∃ families, (collect defaultSettings (releaseNames defaultSettings 1)).Runs timed (.start 0)
      (.ok families) (scrapeOf listing seconds waited).2 := by
  have hrun : (collect defaultSettings (releaseNames defaultSettings 1)).Runs timed (.start 0)
      (scrapeOf listing seconds waited).1 (scrapeOf listing seconds waited).2 :=
    Prog.runs_run (timed_quickCluster listing seconds waited) _ _
  cases hx : (scrapeOf listing seconds waited).1 with
  | ok families => exact ⟨families, hx ▸ hrun⟩
  | error exc =>
      rw [hx] at h
      cases h

def amfAndSmf : String := "[\x7b\"name\": \"amf\"\x7d, \x7b\"name\": \"smf\"\x7d]"

/-- With a second for each process of its own, half a second for the wave of two releases
and some for the prober, the scrape is in time. -/
theorem scrape_in_time_amfAndSmf : ∃ families,
    (collect defaultSettings (releaseNames defaultSettings 1)).Runs timed (.start 0) (.ok families)
        (scrapeOf amfAndSmf 1 (1 / 2)).2 ∧
      (scrapeOf amfAndSmf 1 (1 / 2)).2 = ⟨4, 3, 1 / 2⟩ ∧
      (scrapeOf amfAndSmf 1 (1 / 2)).2.clock ≤ 0 + defaultSettings.scrapeBudget + 1 / 4 := by
  have hw : (scrapeOf amfAndSmf 1 (1 / 2)).2 = ⟨4, 3, 1 / 2⟩ := by decide +kernel
  obtain ⟨families, hrun⟩ := @scrapeOf_runs amfAndSmf 1 (1 / 2) (by decide +kernel)
  refine ⟨families, hrun, hw, (scrape_in_time_iff hrun).mpr (.inl ?_)⟩
  rw [hw]
  decide +kernel

/-- The version check, the listing and the pod listing may take three seconds each. -/
theorem scrape_overruns :
    defaultSettings.readTimeout + defaultSettings.probeTimeout ≤ defaultSettings.scrapeBudget ∧
      defaultSettings.scrapeProbeTimeout < defaultSettings.scrapeBudget ∧
      ∃ families w, (collect defaultSettings (releaseNames defaultSettings 1)).Runs timed
          (.start 0) (.ok families) w ∧
        ¬w.clock ≤ 0 + defaultSettings.scrapeBudget + 1 / 4 := by
  obtain ⟨families, hrun⟩ := @scrapeOf_runs "[]" 3 0 (by decide +kernel)
  exact ⟨by decide +kernel, by decide +kernel, families, _, hrun, by decide +kernel⟩

end NfOrchestrator.Metrics
