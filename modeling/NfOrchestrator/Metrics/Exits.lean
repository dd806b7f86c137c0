import NfOrchestrator.Deploy.Verdicts
import NfOrchestrator.Effects.Pool
import NfOrchestrator.Metrics.Accounting

/-!
# NfOrchestrator.Metrics.Exits

**How a scrape ends.** `collect` has five exits besides the exceptions that leave it, and
each emits families of its own. `Scraped` lists them, with what the scrape found out on
the way there (`Facts`); it describes exactly the runs of `collect` (`scraped_iff`), in
any environment and for any program that lists the releases.
-/

namespace NfOrchestrator.Metrics

open Deploy Reconciler

/-! ### What is emitted at each exit -/

/-- What `recordProbe` returns: the probe, and the two families it adds to. -/
abbrev Recorded := Option Probe × GaugeMetricFamily × GaugeMetricFamily

/-- The families of a scrape that could not list the releases. -/
def unlistedFamilies (found : Findings) (exc : Exc) (r : Recorded) : List GaugeMetricFamily :=
  let unreachable := [clusterReachable.addMetric [] 0, r.2.2]
  match exc with
  | .deploy e =>
      if e.cls = .hostMisconfigured then
        [r.2.1, r.2.2, orchestratorMisconfigured.addMetric [] 1]
      else if e.isHostOverloaded then
        let exhausted := found.exhausted || e.cls == .hostExhausted || r.1.any Probe.exhausted
        [r.2.1, r.2.2, orchestratorExhausted.addMetric [] (flag exhausted)]
      else if e.cls = .clusterBusy then
        [clusterReachable.addMetric [] 1, clusterBusy.addMetric [] 1, r.2.1, r.2.2]
      else unreachable
  | .os _ | .py _ => unreachable

variable (cfg : Settings)

/-- The families of a scrape that went through the futures. -/
def listedFamilies (found : Findings) (t : Tally) (r : Recorded) : List GaugeMetricFamily :=
  let exhausted := t.exhausted || r.1.any Probe.exhausted
  let misconfigured := t.misconfigured || r.1.any fun p =>
    p.spawnFailure.any fun e => e.cls == .hostMisconfigured
  let busy := found.throttled || t.refused != 0 || r.1.any (Probe.slow cfg)
  [clusterReachable.addMetric [] 1, clusterBusy.addMetric [] (flag busy), r.2.1,
    r.2.2, orchestratorExhausted.addMetric [] (flag exhausted),
    orchestratorMisconfigured.addMetric [] (flag misconfigured), t.unreported, t.reported, t.state,
    t.desired, t.ready, t.operation]

/-- What is known after the pods were listed, or the listing failed. -/
def podsFound (found : Findings) :
    Except Exc PodsByRelease → Except Exc (Findings × Option PodsByRelease)
  | .ok pods => .ok (found, some pods)
  | .error (.deploy e) =>
      if e.cls = .hostMisconfigured then .ok ({ found with misconfigured := true }, none)
      else if e.isHostOverloaded then
        .ok ({ found with exhausted := found.exhausted || e.cls == .hostExhausted }, none)
      else if e.cls = .clusterBusy then .ok ({ found with throttled := true }, none)
      else .ok (found, none)
  | .error (.os _) => .ok (found, none)
  | .error (.py e) => .error (.py e)

/-- An exception that the clauses for a failed call let pass. -/
def Foreign : Exc → Prop
  | .py _ => True
  | .deploy _ | .os _ => False

/-! ### The parts of a run -/

section parts

variable {W : Type} {E : Env sig W} {w w' : W}

theorem runs_engine {α : Type} {p : Eff α} {x : Except Exc α} :
    (engine p).Runs E w x w' ↔ p.Runs E.inl w x w' := Prog.runs_inl

theorem runs_attempt {α : Type} {p : Scrape α} {y : Except Exc (Except Exc α)} :
    (attempt p).Runs E w y w' ↔ ∃ x, y = .ok x ∧ p.Runs E w x w' := by
  rw [attempt, Prog.runs_tryCatch]
  simp only [Prog.runs_map]
  constructor
  · intro h
    rcases h with ⟨a, ⟨x, hp, hx⟩, rfl⟩ | ⟨exc, w₁, ⟨x, hp, hx⟩, rfl, rfl⟩
    · cases x with
      | ok b => exact ⟨.ok b, hx, hp⟩
      | error e => cases hx
    · cases x with
      | ok b => cases hx
      | error e =>
          obtain rfl := Except.error.inj hx
          exact ⟨.error exc, rfl, hp⟩
  · intro h
    rcases h with ⟨e | a, rfl, hp⟩
    · exact .inr ⟨e, w', ⟨_, hp, rfl⟩, rfl, rfl⟩
    · exact .inl ⟨.ok a, ⟨_, hp, rfl⟩, rfl⟩

theorem returns_recordProbe (started : Bool) (deadline : ℚ) (clusterSeconds localSeconds) :
    (recordProbe started deadline clusterSeconds localSeconds).Returns := by
  rw [recordProbe]
  split_ifs
  · trivial
  · refine (Prog.returns_op _).inl.bind fun now => (Prog.returns_op _).bind fun _ =>
      (Prog.returns_op _).bind fun probe => ?_
    cases probe <;> trivial

/-- A scrape that could not list the releases waits for its probe, unless the exception is
one it lets pass. -/
theorem runs_collectUnlisted {found : Findings} {exc : Exc}
    {x : Except Exc (List GaugeMetricFamily)} :
    (collectUnlisted found exc).Runs E w x w' ↔
      (Foreign exc ∧ x = .error exc ∧ w' = w) ∨
      (¬Foreign exc ∧ ∃ r : Recorded,
        (recordProbe found.proberStarted found.deadline clusterProbeSeconds
          orchestratorProbeLocalSeconds).Runs E w (.ok r) w' ∧
        x = .ok (unlistedFamilies found exc r)) := by
  have hrecorded : ∀ f : Recorded → List GaugeMetricFamily,
      (recordProbe found.proberStarted found.deadline clusterProbeSeconds
        orchestratorProbeLocalSeconds >>= fun r => pure (f r)).Runs E w x w' ↔
      ∃ r : Recorded, (recordProbe found.proberStarted found.deadline clusterProbeSeconds
        orchestratorProbeLocalSeconds).Runs E w (.ok r) w' ∧ x = .ok (f r) := by
    intro f
    rw [Prog.runs_bind]
    constructor
    · intro h
      rcases h with ⟨r, w₁, hr, rfl, rfl⟩ | ⟨e, hr, rfl⟩
      · exact ⟨r, hr, rfl⟩
      · obtain ⟨r, hok⟩ := (returns_recordProbe _ _ _ _).ok hr
        cases hok
    · intro h
      obtain ⟨r, hr, rfl⟩ := h
      exact .inl ⟨r, w', hr, rfl, rfl⟩
  cases exc with
  | py e => simp [collectUnlisted, Foreign, Prog.Runs]
  | os e =>
      simp only [Foreign, false_and, false_or, not_false_eq_true, true_and]
      exact hrecorded _
  | deploy e =>
      simp only [Foreign, false_and, false_or, not_false_eq_true, true_and]
      rw [← hrecorded, collectUnlisted]
      simp only [unlistedFamilies]
      split_ifs <;> rfl

/-- A handler that computes only looks at how its body ended. -/
theorem tryCatch_ofExcept {α β : Type} (p : Scrape α) (f : α → β) (h : Except Exc α → Except Exc β)
    (hok : ∀ a, h (.ok a) = .ok (f a)) :
    (tryCatch (p >>= fun a => pure (f a)) fun exc => Prog.ofExcept (h (.error exc))) =
      attempt p >>= fun x => Prog.ofExcept (h x) := by
  induction p with
  | ret a =>
      change Prog.ret (f a) = Prog.ofExcept (h (.ok a))
      rw [hok]
      rfl
  | raise e => rfl
  | call o k ih => exact congrArg (Prog.call o) (funext ih)

theorem runs_listPods {found : Findings} {x : Except Exc (Findings × Option PodsByRelease)} :
    (listPods cfg found).Runs E w x w' ↔
      ∃ pods, (engine (podsByRelease cfg)).Runs E w pods w' ∧ x = podsFound found pods := by
  have hlist : listPods cfg found =
      attempt (engine (podsByRelease cfg)) >>= fun pods =>
        Prog.ofExcept (podsFound found pods) := by
    rw [← tryCatch_ofExcept _ (fun pods => (found, some pods)) _ fun _ => rfl, listPods]
    congr 1
    funext exc
    rcases exc with e | e | e
    · simp only [podsFound]
      split_ifs <;> rfl
    · rfl
    · rfl
  rw [hlist, Prog.runs_bind]
  simp only [runs_attempt, Prog.runs_ofExcept]
  constructor
  · intro h
    rcases h with ⟨pods, w₁, ⟨_, hpods, hp⟩, rfl, rfl⟩ | ⟨e, ⟨_, he, -⟩, -⟩
    · obtain rfl := Except.ok.inj hpods
      exact ⟨pods, hp, rfl⟩
    · cases he
  · intro h
    obtain ⟨pods, hp, rfl⟩ := h
    exact .inl ⟨pods, w', ⟨pods, rfl, hp⟩, rfl, rfl⟩

theorem returns_waves (pods : Option PodsByRelease) (deadline : ℚ) (wave : ℕ+) (previousCost : ℚ)
    (futures : List (String × Future)) (queue : List String) :
    (waves cfg pods deadline wave previousCost futures queue).Returns := by
  have hclock : (engine monotonic).Returns := (Prog.returns_op _).inl
  have hsubmitAll : ∀ names batch, (submitAll pods batch names).Returns := by
    intro names
    induction names with
    | nil => exact fun _ => trivial
    | cons name rest ih =>
        intro batch
        refine Prog.Returns.bind ?_ fun _ => ih _
        refine (Prog.returns_op _).bind fun started => ?_
        split_ifs <;> trivial
  have hallDone : ∀ futures, (allDone futures).Returns := by
    intro futures
    induction futures with
    | nil => trivial
    | cons future rest ih =>
        refine Prog.Returns.bind ?_ fun done => ?_
        · cases future with
          | started name given => exact Prog.returns_op _
          | settled | neverStarted => trivial
        · split_ifs
          · exact ih
          · trivial
  induction wave, previousCost, futures, queue using (waves.induct cfg) with
  | case1 wave previousCost futures =>
      rw [waves]
      trivial
  | case2 wave previousCost futures name rest queue =>
      rename_i ih
      rw [waves]
      refine hclock.bind fun now => ?_
      dsimp only
      split_ifs
      · trivial
      · refine hclock.bind fun started => (hsubmitAll _ _).bind fun batch => hclock.bind fun now =>
          (Prog.returns_op _).bind fun _ => hclock.bind fun now => (hallDone _).bind fun done => ?_
        split_ifs
        · exact ih started batch now
        · trivial

theorem returns_reconcileWithin (names : List String) (pods : Option PodsByRelease)
    (deadline : ℚ) : (reconcileWithin cfg names pods deadline).Returns :=
  (returns_waves cfg pods deadline _ 0 [] names).bind fun _ => (Prog.returns_op _).bind fun _ =>
    trivial

/-- The loop over the futures: what each of them was found to hold, up to the one it
stopped at, and how it ended. -/
inductive Polled (E : Env sig W) :
    Tally → List (String × Future) → W → List (Option (Except Exc Snapshot)) → Except Exc Tally →
      W → Prop
  | nil {t : Tally} {w : W} : Polled E t [] w [] (.ok t) w
  | raised {t : Tally} {name : String} {future : Future} {rest : List (String × Future)} {w w' : W}
      {exc : Exc} (hpoll : future.poll.Runs E w (.error exc) w') :
      Polled E t ((name, future) :: rest) w [some (.error exc)] (.error exc) w'
  | overflow {t : Tally} {name : String} {future : Future} {rest : List (String × Future)}
      {w w' : W} {current : Option Snapshot} {e : PyError}
      (hpoll : future.poll.Runs E w (.ok current) w') (hadd : t.add name current = .error e) :
      Polled E t ((name, future) :: rest) w [current.map .ok] (.error (.py e)) w'
  | cons {t t' : Tally} {name : String} {future : Future} {rest : List (String × Future)}
      {w w₁ w' : W} {current : Option Snapshot} {polled : List (Option (Except Exc Snapshot))}
      {x : Except Exc Tally} (hpoll : future.poll.Runs E w (.ok current) w₁)
      (hadd : t.add name current = .ok t') (hrest : Polled E t' rest w₁ polled x w') :
      Polled E t ((name, future) :: rest) w (current.map .ok :: polled) x w'

theorem runs_account {t : Tally} {futures : List (String × Future)} {x : Except Exc Tally} :
    (account t futures).Runs E w x w' ↔ ∃ polled, Polled E t futures w polled x w' := by
  constructor
  · intro h
    induction futures generalizing t w with
    | nil =>
        obtain ⟨rfl, rfl⟩ := h
        exact ⟨[], .nil⟩
    | cons e rest ih =>
        rw [account, Prog.runs_bind] at h
        rcases h with ⟨current, w₁, hpoll, h⟩ | ⟨exc, hpoll, rfl⟩
        · rw [Prog.runs_bind] at h
          simp only [runs_engine, ofPy, Prog.runs_ofExcept] at h
          rcases h with ⟨t', w₂, ⟨hadd, rfl⟩, hrest⟩ | ⟨exc, ⟨hadd, rfl⟩, rfl⟩
          · cases hok : t.add e.1 current with
            | ok t'' =>
                rw [hok] at hadd
                obtain rfl := Except.ok.inj hadd
                obtain ⟨polled, hpolled⟩ := ih hrest
                exact ⟨_, .cons hpoll hok hpolled⟩
            | error e =>
                rw [hok] at hadd
                cases hadd
          · cases hok : t.add e.1 current with
            | ok t'' =>
                rw [hok] at hadd
                cases hadd
            | error e =>
                rw [hok] at hadd
                obtain rfl := Except.error.inj hadd
                exact ⟨_, .overflow hpoll hok⟩
        · exact ⟨_, .raised hpoll⟩
  · intro hx
    obtain ⟨polled, h⟩ := hx
    induction h with
    | nil => exact ⟨rfl, rfl⟩
    | raised hpoll => exact Prog.runs_bind.mpr (.inr ⟨_, hpoll, rfl⟩)
    | overflow hpoll hadd =>
        refine hpoll.bind (Prog.runs_bind.mpr (.inr ⟨_, ?_, rfl⟩))
        rw [runs_engine, hadd]
        exact ⟨rfl, rfl⟩
    | cons hpoll hadd _ ih =>
        refine hpoll.bind (Prog.Runs.bind ?_ ih)
        rw [runs_engine, hadd]
        exact ⟨rfl, rfl⟩

end parts

/-! ### The exits -/

/-- What a scrape found out, up to where it ended. -/
structure Facts where
  /-- What `tool_problems` returned. -/
  problems : List String := []
  proberStarted : Bool := true
  /-- How listing the releases ended, and then their pods, if it came to that. -/
  listing : Option (Except Exc (List String)) := none
  podListing : Option (Except Exc PodsByRelease) := none
  /-- What the futures were found to hold. -/
  polled : List (Option (Except Exc Snapshot)) := []
  /-- The probe it waited for at the end. -/
  probe : Option Probe := none

variable {W : Type}

/-- The scrape has asked about the tools and tried to start its prober. -/
inductive Begun (E : Env sig W) (w : W) (problems : List String) (started : Bool) :
    Findings → W → Prop
  | intro {now : ℚ} {w₁ w₂ w' : W} (hnow : (engine monotonic).Runs E w (.ok now) w₁)
      (htools : (engine (toolProblems cfg)).Runs E w₁ (.ok problems) w₂)
      (hprober : (perform .startProber).Runs E w₂ (.ok started) w') :
      Begun E w problems started
        { deadline := now + cfg.scrapeBudget, proberStarted := started, exhausted := !started,
          misconfigured := !problems.isEmpty } w'

variable (releaseNames : Eff (List String))

/-- A run of `collect`, with what it found out and where it ended. -/
inductive Scraped (E : Env sig W) (w : W) :
    Facts → Except Exc (List GaugeMetricFamily) → W → Prop
  /-- Asking about the tools raised. -/
  | unchecked {exc : Exc} {w' : W} (h : (setUp cfg).Runs E w (.error exc) w') :
      Scraped E w {} (.error exc) w'
  /-- Listing the releases raised what no clause is for. -/
  | passed {problems : List String} {started : Bool} {found : Findings} {w₁ w' : W} {exc : Exc}
      (hbegun : Begun cfg E w problems started found w₁)
      (hlist : (engine releaseNames).Runs E w₁ (.error exc) w') (hexc : Foreign exc) :
      Scraped E w { problems := problems, proberStarted := started, listing := some (.error exc) }
        (.error exc) w'
  /-- The releases could not be listed. -/
  | unlisted {problems : List String} {started : Bool} {found : Findings} {w₁ w₂ w' : W}
      {exc : Exc} {r : Recorded} (hbegun : Begun cfg E w problems started found w₁)
      (hlist : (engine releaseNames).Runs E w₁ (.error exc) w₂) (hexc : ¬Foreign exc)
      (hprobe : (recordProbe found.proberStarted found.deadline clusterProbeSeconds
        orchestratorProbeLocalSeconds).Runs E w₂ (.ok r) w') :
      Scraped E w { problems := problems, proberStarted := started, listing := some (.error exc),
                    probe := r.1 } (.ok (unlistedFamilies found exc r)) w'
  /-- Listing the pods raised what no clause is for. -/
  | unparsed {problems : List String} {started : Bool} {found : Findings} {w₁ w₂ w' : W}
      {names : List String} {pods : Except Exc PodsByRelease} {exc : Exc}
      (hbegun : Begun cfg E w problems started found w₁)
      (hlist : (engine releaseNames).Runs E w₁ (.ok names) w₂)
      (hpods : (engine (podsByRelease cfg)).Runs E w₂ pods w')
      (hfound : podsFound found pods = .error exc) :
      Scraped E w { problems := problems, proberStarted := started, listing := some (.ok names),
                    podListing := some pods } (.error exc) w'
  /-- The loop over the futures raised. -/
  | stopped {problems : List String} {started : Bool} {found found' : Findings}
      {w₁ w₂ w₃ w₄ w' : W} {names : List String} {pods : Except Exc PodsByRelease}
      {given : Option PodsByRelease} {futures : List (String × Future)}
      {polled : List (Option (Except Exc Snapshot))} {exc : Exc}
      (hbegun : Begun cfg E w problems started found w₁)
      (hlist : (engine releaseNames).Runs E w₁ (.ok names) w₂)
      (hpods : (engine (podsByRelease cfg)).Runs E w₂ pods w₃)
      (hfound : podsFound found pods = .ok (found', given))
      (hrec : (reconcileWithin cfg names given found'.deadline).Runs E w₃ (.ok futures) w₄)
      (hpolled : Polled E { exhausted := found'.exhausted, misconfigured := found'.misconfigured }
        futures w₄ polled (.error exc) w') :
      Scraped E w { problems := problems, proberStarted := started, listing := some (.ok names),
                    podListing := some pods, polled := polled } (.error exc) w'
  /-- The scrape went through all of the futures. -/
  | listed {problems : List String} {started : Bool} {found found' : Findings}
      {w₁ w₂ w₃ w₄ w₅ w' : W} {names : List String} {pods : Except Exc PodsByRelease}
      {given : Option PodsByRelease} {futures : List (String × Future)}
      {polled : List (Option (Except Exc Snapshot))} {t : Tally} {r : Recorded}
      (hbegun : Begun cfg E w problems started found w₁)
      (hlist : (engine releaseNames).Runs E w₁ (.ok names) w₂)
      (hpods : (engine (podsByRelease cfg)).Runs E w₂ pods w₃)
      (hfound : podsFound found pods = .ok (found', given))
      (hrec : (reconcileWithin cfg names given found'.deadline).Runs E w₃ (.ok futures) w₄)
      (hpolled : Polled E { exhausted := found'.exhausted, misconfigured := found'.misconfigured }
        futures w₄ polled (.ok t) w₅)
      (hprobe : (recordProbe found'.proberStarted found'.deadline clusterProbeSeconds
        orchestratorProbeLocalSeconds).Runs E w₅ (.ok r) w') :
      Scraped E w { problems := problems, proberStarted := started, listing := some (.ok names),
                    podListing := some pods, polled := polled, probe := r.1 }
        (.ok (listedFamilies cfg found' t r)) w'

variable {cfg} {releaseNames} {E : Env sig W} {w w' : W}

/-- The probe's families keep their names. -/
theorem recordProbe_families {started : Bool} {deadline : ℚ}
    {clusterSeconds localSeconds : GaugeMetricFamily} {r : Recorded}
    (h : (recordProbe started deadline clusterSeconds localSeconds).Runs E w (.ok r) w') :
    r.2.1.name = clusterSeconds.name ∧ r.2.2.name = localSeconds.name := by
  refine h.post (wp_recordProbe (P := fun _ => True) (Q := fun x _ => ∀ r : Recorded, x = .ok r →
    r.2.1.name = clusterSeconds.name ∧ r.2.2.name = localSeconds.name)
    (fun _ _ _ _ _ => trivial) (fun _ _ _ _ _ _ => trivial) (fun _ _ _ _ _ => trivial)
    trivial (fun w _ r hr => ?_) fun w probe seconds here _ hseconds hhere _ r hr => ?_) r rfl
  · obtain rfl := Except.ok.inj hr
    exact ⟨rfl, rfl⟩
  · obtain rfl := Except.ok.inj hr
    exact ⟨hseconds, hhere⟩

theorem runs_setUp {found : Findings} : (setUp cfg).Runs E w (.ok found) w' ↔
    ∃ problems started, Begun cfg E w problems started found w' := by
  constructor
  · intro h
    rw [setUp, Prog.runs_bind] at h
    obtain ⟨now, w₁, hnow, h⟩ | ⟨e, -, he⟩ := h
    · rw [Prog.runs_bind] at h
      obtain ⟨problems, w₂, htools, h⟩ | ⟨e, -, he⟩ := h
      · rw [Prog.runs_bind] at h
        obtain ⟨started, w₃, hprober, hfound, rfl⟩ | ⟨e, -, he⟩ := h
        · obtain rfl := Except.ok.inj hfound
          exact ⟨problems, started, .intro hnow htools hprober⟩
        · cases he
      · cases he
    · cases he
  · intro hx
    obtain ⟨problems, started, hnow, htools, hprober⟩ := hx
    exact hnow.bind (htools.bind (hprober.bind ⟨rfl, rfl⟩))

theorem runs_collectListed {found : Findings} {names : List String} {pods : Option PodsByRelease}
    {x : Except Exc (List GaugeMetricFamily)} :
    (collectListed cfg found names pods).Runs E w x w' ↔
      ∃ futures w₁ polled,
        (reconcileWithin cfg names pods found.deadline).Runs E w (.ok futures) w₁ ∧
        ((∃ exc, Polled E { exhausted := found.exhausted, misconfigured := found.misconfigured }
            futures w₁ polled (.error exc) w' ∧ x = .error exc) ∨
          ∃ t w₂ r, Polled E { exhausted := found.exhausted, misconfigured := found.misconfigured }
            futures w₁ polled (.ok t) w₂ ∧
            (recordProbe found.proberStarted found.deadline clusterProbeSeconds
              orchestratorProbeLocalSeconds).Runs E w₂ (.ok r) w' ∧
            x = .ok (listedFamilies cfg found t r)) := by
  rw [collectListed, Prog.runs_bind]
  constructor
  · intro hx
    rcases hx with ⟨futures, w₁, hrec, h⟩ | ⟨exc, hrec, rfl⟩
    · refine ⟨futures, w₁, ?_⟩
      rw [Prog.runs_bind] at h
      rcases h with ⟨t, w₂, haccount, h⟩ | ⟨exc, haccount, rfl⟩
      · obtain ⟨polled, hpolled⟩ := runs_account.mp haccount
        rw [Prog.runs_bind] at h
        rcases h with ⟨r, w₃, hprobe, rfl, rfl⟩ | ⟨exc, hprobe, rfl⟩
        · exact ⟨polled, hrec, .inr ⟨t, w₂, r, hpolled, hprobe, rfl⟩⟩
        · obtain ⟨r, hok⟩ := (returns_recordProbe _ _ _ _).ok hprobe
          cases hok
      · obtain ⟨polled, hpolled⟩ := runs_account.mp haccount
        exact ⟨polled, hrec, .inl ⟨exc, hpolled, rfl⟩⟩
    · obtain ⟨futures, hok⟩ := (returns_reconcileWithin cfg _ _ _).ok hrec
      cases hok
  · intro hx
    rcases hx with ⟨futures, w₁, polled, hrec, ⟨exc, hpolled, rfl⟩ |
      ⟨t, w₂, r, hpolled, hprobe, rfl⟩⟩
    · refine .inl ⟨futures, w₁, hrec, Prog.runs_bind.mpr (.inr ⟨exc, ?_, rfl⟩)⟩
      exact runs_account.mpr ⟨polled, hpolled⟩
    · refine .inl ⟨futures, w₁, hrec, Prog.Runs.bind ?_ (hprobe.bind ⟨rfl, rfl⟩)⟩
      exact runs_account.mpr ⟨polled, hpolled⟩

/-- The exits are all there are, and each can be taken. -/
theorem scraped_iff {x : Except Exc (List GaugeMetricFamily)} :
    (collect cfg releaseNames).Runs E w x w' ↔
      ∃ facts, Scraped cfg releaseNames E w facts x w' := by
  rw [collect, Prog.runs_bind]
  constructor
  · intro hx
    rcases hx with ⟨found, w₁, hset, h⟩ | ⟨exc, hset, rfl⟩
    · obtain ⟨problems, started, hbegun⟩ := runs_setUp.mp hset
      rw [Prog.runs_bind] at h
      simp only [runs_attempt] at h
      rcases h with ⟨listing, w₂, ⟨_, hlisting, hlist⟩, h⟩ | ⟨exc, ⟨_, hexc, -⟩, -⟩
      · obtain rfl := Except.ok.inj hlisting
        cases listing with
        | error exc =>
            rcases runs_collectUnlisted.mp h with ⟨hexc, rfl, rfl⟩ | ⟨hexc, r, hprobe, rfl⟩
            · exact ⟨_, .passed hbegun hlist hexc⟩
            · exact ⟨_, .unlisted hbegun hlist hexc hprobe⟩
        | ok names =>
            rw [Prog.runs_bind] at h
            simp only [runs_listPods] at h
            rcases h with ⟨⟨found', given⟩, w₃, ⟨pods, hpods, hfound⟩, h⟩ |
              ⟨exc, ⟨pods, hpods, hfound⟩, rfl⟩
            · obtain ⟨futures, w₄, polled, hrec, ⟨exc, hpolled, rfl⟩ |
                ⟨t, w₅, r, hpolled, hprobe, rfl⟩⟩ := runs_collectListed.mp h
              · exact ⟨_, .stopped hbegun hlist hpods hfound.symm hrec hpolled⟩
              · exact ⟨_, .listed hbegun hlist hpods hfound.symm hrec hpolled hprobe⟩
            · exact ⟨_, .unparsed hbegun hlist hpods hfound.symm⟩
      · cases hexc
    · exact ⟨_, .unchecked hset⟩
  · intro hx
    obtain ⟨facts, h⟩ := hx
    -- Each exit is put together again from its parts.
    cases h with
    | unchecked h => exact .inr ⟨_, h, rfl⟩
    | passed hbegun hlist hexc =>
        refine .inl ⟨_, _, runs_setUp.mpr ⟨_, _, hbegun⟩, ?_⟩
        refine Prog.Runs.bind (runs_attempt.mpr ⟨_, rfl, hlist⟩) ?_
        exact runs_collectUnlisted.mpr (.inl ⟨hexc, rfl, rfl⟩)
    | unlisted hbegun hlist hexc hprobe =>
        refine .inl ⟨_, _, runs_setUp.mpr ⟨_, _, hbegun⟩, ?_⟩
        refine Prog.Runs.bind (runs_attempt.mpr ⟨_, rfl, hlist⟩) ?_
        exact runs_collectUnlisted.mpr (.inr ⟨hexc, _, hprobe, rfl⟩)
    | unparsed hbegun hlist hpods hfound =>
        refine .inl ⟨_, _, runs_setUp.mpr ⟨_, _, hbegun⟩, ?_⟩
        refine Prog.Runs.bind (runs_attempt.mpr ⟨_, rfl, hlist⟩) ?_
        exact Prog.runs_bind.mpr (.inr ⟨_, (runs_listPods cfg).mpr ⟨_, hpods, hfound.symm⟩, rfl⟩)
    | stopped hbegun hlist hpods hfound hrec hpolled =>
        refine .inl ⟨_, _, runs_setUp.mpr ⟨_, _, hbegun⟩, ?_⟩
        refine Prog.Runs.bind (runs_attempt.mpr ⟨_, rfl, hlist⟩) ?_
        refine Prog.Runs.bind ((runs_listPods cfg).mpr ⟨_, hpods, hfound.symm⟩) ?_
        exact runs_collectListed.mpr ⟨_, _, _, hrec, .inl ⟨_, hpolled, rfl⟩⟩
    | listed hbegun hlist hpods hfound hrec hpolled hprobe =>
        refine .inl ⟨_, _, runs_setUp.mpr ⟨_, _, hbegun⟩, ?_⟩
        refine Prog.Runs.bind (runs_attempt.mpr ⟨_, rfl, hlist⟩) ?_
        refine Prog.Runs.bind ((runs_listPods cfg).mpr ⟨_, hpods, hfound.symm⟩) ?_
        exact runs_collectListed.mpr ⟨_, _, _, hrec, .inr ⟨_, _, _, hpolled, hprobe, rfl⟩⟩

/-- A scrape that is seen to begin, and then fails to list the releases. -/
theorem exists_unlisted (cfg : Settings) (releaseNames : Eff (List String))
    {h : (o : sig.Op) → W → sig.Resp o × W}
    (hE : ∀ o w, E o w (h o w).1 (h o w).2) {found : Findings} {exc : Exc}
    (hset : ((setUp cfg).run h w).1 = .ok found)
    (hlist : ((engine releaseNames).run h ((setUp cfg).run h w).2).1 = .error exc)
    (hexc : ¬Foreign exc) :
    ∃ facts r w', Scraped cfg releaseNames E w facts (.ok (unlistedFamilies found exc r)) w' ∧
      facts.listing = some (.error exc) ∧ facts.problems.isEmpty = !found.misconfigured ∧
      r.2.1.name = "nf_cluster_probe_seconds" ∧
      r.2.2.name = "nf_orchestrator_probe_local_seconds" := by
  have hsetUp := Prog.runs_run hE (setUp cfg) w
  rw [hset] at hsetUp
  have hlisting := Prog.runs_run hE (engine releaseNames) ((setUp cfg).run h w).2
  rw [hlist] at hlisting
  obtain ⟨problems, started, hbegun⟩ := runs_setUp.mp hsetUp
  have hprobe := Prog.runs_run hE (recordProbe found.proberStarted found.deadline
    clusterProbeSeconds orchestratorProbeLocalSeconds)
    ((engine releaseNames).run h ((setUp cfg).run h w).2).2
  obtain ⟨r, hr⟩ := (returns_recordProbe _ _ _ _).ok hprobe
  rw [hr] at hprobe
  obtain ⟨hseconds, hlocal⟩ := recordProbe_families hprobe
  refine ⟨_, r, _, .unlisted hbegun hlisting hexc hprobe, rfl, ?_, hseconds, hlocal⟩
  cases hbegun
  simp

/-- A host that answers at once: how its processes end, whether a thread can be started for
the probe, and what the probe found. -/
def promptReply (ends : List String → Outcome) (started : Bool) (probe : Option Probe) :
    (o : sig.Op) → sig.Resp o
  | .inl (.finish command _) => ends command
  | .inl o => blankReply o
  | .inr .startProber => started
  | .inr .measured => probe
  | .inr (.submit _ _) | .inr (.done _ _) => true
  | .inr (.poll _ _) => none
  | .inr (.wait _ _) | .inr .shutdown | .inr (.joinProber _) => ()

end NfOrchestrator.Metrics
