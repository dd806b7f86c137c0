import NfOrchestrator.Metrics.Exits

/-!
# NfOrchestrator.Metrics.HostFaults

**What a scrape says of its own host.** Two gauges carry what the scrape found out about
the host: that a tool is wrong, and that there was no room for a process or a thread. They
are emitted at the last exit, and each at one of the early ones; at the others what was
found is lost (`host_faults_shown_iff`).
-/

namespace NfOrchestrator.Metrics

open Deploy Reconciler

/-! ### Room for processes and threads -/

variable (cfg : Settings)

/-- The call found no room for a process or a thread on this host. A process that started
and crashed for want of threads says so in its own error text. -/
def spent : (o : sig.Op) → sig.Resp o → Prop
  | .inl (.spawn command), failure =>
      ∃ exc e, failure = some exc ∧ spawnFailure (command.headD "") exc = some e ∧
        e.cls = .hostExhausted
  | .inl (.finish command _), outcome =>
      ∃ returncode stdout stderr, outcome = .completed returncode stdout stderr ∧
        returncode ≠ 0 ∧ mentions exhaustionMarkers (Str.lower
          (if command = probeCommand cfg then errorText stderr else complaint stdout stderr)) = true
  | .inr .startProber, started | .inr (.submit _ _), started => started = false
  | .inr (.poll _ _), found => found = some (.ok (.unread .exhausted))
  | .inr .measured, probe => ∃ p, probe = some p ∧ p.exhausted = true
  | _, _ => False

/-- Some call, worker or probe of the scrape was exhausted, or its prober not started. -/
def Exhausted (tr : List (Event sig)) : Prop := ∃ e ∈ tr, spent cfg e.op e.resp

/-! ### What must be shown -/

/-- The scrape emits one sample of the family, with this value. -/
def Says (x : Except Exc (List GaugeMetricFamily)) (family : String) (value : ℚ) : Prop :=
  ∃ families, x = .ok families ∧ samplesOf families family = [([], value)]

/-- What the scrape found out about its own host is in what it emits. -/
structure ShowsHost (facts : Facts) (tr : List (Event sig))
    (x : Except Exc (List GaugeMetricFamily)) : Prop where
  misconfigured : facts.problems ≠ [] → Says x "nf_orchestrator_misconfigured" 1
  exhausted : Exhausted cfg tr → Says x "nf_orchestrator_exhausted" 1

/-! ### What is kept -/

namespace Facts

/-- The releases were listed, and nothing the pods or the futures held made the scrape
raise. -/
structure Complete (facts : Facts) : Prop where
  listed : ∃ names, facts.listing = some (.ok names)
  pods : ∃ pods, facts.podListing = some pods ∧ ∀ exc, pods = .error exc → ¬Foreign exc
  futures : ∀ found ∈ facts.polled, Emittable found

/-- Listing the releases failed with an exception of such a class. -/
def UnlistedFor (facts : Facts) (classes : DeployErrorClass → Prop) : Prop :=
  ∃ e, facts.listing = some (.error (.deploy e)) ∧ classes e.cls

/-- The scrape itself noticed that there was no room. -/
def SawNoRoom (facts : Facts) : Prop :=
  facts.proberStarted = false ∨
    (∃ e, facts.podListing = some (.error (.deploy e)) ∧ e.cls = .hostExhausted) ∨
    some (.ok (.unread .exhausted)) ∈ facts.polled ∨
    ∃ p, facts.probe = some p ∧ p.exhausted = true

/-- The exit that was taken emits the gauge for each thing that was found. -/
structure KeepsHost (facts : Facts) (tr : List (Event sig)) : Prop where
  misconfigured : facts.problems ≠ [] →
    facts.Complete ∨ facts.UnlistedFor (· = .hostMisconfigured)
  exhausted : Exhausted cfg tr →
    facts.Complete ∧ facts.SawNoRoom ∨ facts.UnlistedFor (· = .hostExhausted) ∨
      facts.UnlistedFor (· = .hostOverloaded) ∧
        (facts.proberStarted = false ∨ ∃ p, facts.probe = some p ∧ p.exhausted = true)

end Facts

/-! ### The loop -/

theorem add_flags {t t' : Tally} {name : String} {current : Option Snapshot}
    (h : t.add name current = .ok t') :
    (t'.exhausted = true ↔ t.exhausted = true ∨ current = some (.unread .exhausted)) ∧
      (t.misconfigured = true → t'.misconfigured = true) := by
  rcases current with _ | current | why
  · obtain rfl := Except.ok.inj h
    simp
  · change t.emit name current = _ at h
    obtain ⟨desired, -, h⟩ := bind_eq_ok.mp h
    obtain rfl := Except.ok.inj h
    simp
  · cases why <;>
      · obtain rfl := Except.ok.inj h
        simp

/-- A turn of the loop succeeds when what the future held can be emitted. -/
theorem exists_add_iff (t : Tally) (name : String) (current : Option Snapshot) :
    (∃ t', t.add name current = .ok t') ↔ Emittable (current.map .ok) := by
  constructor
  · intro hx
    obtain ⟨t', h⟩ := hx
    by_contra hcurrent
    cases current with
    | none => exact hcurrent trivial
    | some s =>
        rw [add_of_not_emittable t name hcurrent] at h
        cases h
  · intro hcurrent
    rcases current with _ | current | why
    · exact ⟨_, rfl⟩
    · change ∃ t', t.emit name current = _
      rw [Tally.emit, toFloat_of_lt hcurrent]
      exact ⟨_, rfl⟩
    · cases why <;> exact ⟨_, rfl⟩

section loop

variable {W : Type} {E : Env sig W} {w w' : W} {t t' : Tally} {futures : List (String × Future)}
  {polled : List (Option (Except Exc Snapshot))}

theorem map_ok_eq_iff {current : Option Snapshot} {s : Snapshot} :
    (current.map .ok : Option (Except Exc Snapshot)) = some (.ok s) ↔ current = some s := by
  cases current <;> simp

/-- The loop ends with an exception when one of the futures cannot be emitted. -/
theorem Polled.emittable_iff {x : Except Exc Tally} (h : Polled E t futures w polled x w') :
    (∃ t', x = .ok t') ↔ ∀ found ∈ polled, Emittable found := by
  induction h with
  | nil => simp
  | raised hpoll => exact iff_of_false (by simp) (by simp [Emittable])
  | @overflow t name _ _ _ _ current e hpoll hadd =>
      refine iff_of_false (by simp) fun hall => ?_
      obtain ⟨t', hok⟩ := (exists_add_iff t name current).mpr (hall _ List.mem_cons_self)
      rw [hadd] at hok
      cases hok
  | cons hpoll hadd _ ih =>
      rw [ih, List.forall_mem_cons, and_iff_right]
      exact (exists_add_iff _ _ _).mp ⟨_, hadd⟩

/-- The flags at the end of the loop are those at its start and what the futures held. -/
theorem Polled.flags (h : Polled E t futures w polled (.ok t') w') :
    (t'.exhausted = true ↔ t.exhausted = true ∨ some (.ok (.unread .exhausted)) ∈ polled) ∧
      (t.misconfigured = true → t'.misconfigured = true) := by
  generalize hx : (.ok t' : Except Exc Tally) = x at h
  induction h with
  | nil =>
      obtain rfl := Except.ok.inj hx
      simp
  | raised | overflow => cases hx
  | cons hpoll hadd _ ih =>
      obtain ⟨hexhausted, hmisconfigured⟩ := ih hx
      obtain ⟨hadded, hkept⟩ := add_flags hadd
      refine ⟨?_, fun h => hmisconfigured (hkept h)⟩
      rw [hexhausted, hadded, List.mem_cons, or_assoc, eq_comm (a := some _), map_ok_eq_iff]

/-- The families of the loop keep their names. -/
theorem Polled.tallied {told : List (String × Told)} (ht : Tallied told t)
    (h : Polled E t futures w polled (.ok t') w') : ∃ told', Tallied told' t' := by
  generalize hx : (.ok t' : Except Exc Tally) = x at h
  induction h generalizing told with
  | nil =>
      obtain rfl := Except.ok.inj hx
      exact ⟨told, ht⟩
  | raised | overflow => cases hx
  | cons hpoll hadd _ ih =>
      obtain ⟨t₂, hadded, ht₂⟩ := ht.add _ ((exists_add_iff _ _ _).mp ⟨_, hadd⟩)
      obtain rfl := Except.ok.inj (hadd.symm.trans hadded)
      exact ih ht₂ hx

end loop

/-! ### What the exits emit -/

theorem samplesOf_listed {found : Findings} {t : Tally} {r : Recorded}
    {told : List (String × Told)} (ht : Tallied told t)
    (hseconds : r.2.1.name = "nf_cluster_probe_seconds")
    (hlocal : r.2.2.name = "nf_orchestrator_probe_local_seconds") :
    samplesOf (listedFamilies cfg found t r) "nf_orchestrator_exhausted" =
        [([], flag (t.exhausted || r.1.any Probe.exhausted))] ∧
      samplesOf (listedFamilies cfg found t r) "nf_orchestrator_misconfigured" =
        [([], flag (t.misconfigured || r.1.any fun p =>
          p.spawnFailure.any fun e => e.cls == .hostMisconfigured))] := by
  constructor <;>
    simp [samplesOf, listedFamilies, hseconds, hlocal, ht.reported_name, ht.state_name,
      ht.desired_name, ht.ready_name, ht.operation_name]

theorem samplesOf_unlisted_host {found : Findings} {exc : Exc} {r : Recorded}
    (hseconds : r.2.1.name = "nf_cluster_probe_seconds")
    (hlocal : r.2.2.name = "nf_orchestrator_probe_local_seconds") :
    samplesOf (unlistedFamilies found exc r) "nf_orchestrator_exhausted" =
        (match exc with
          | .deploy e =>
              if e.isHostOverloaded then
                [([], flag (found.exhausted || e.cls == .hostExhausted || r.1.any Probe.exhausted))]
              else []
          | _ => []) ∧
      samplesOf (unlistedFamilies found exc r) "nf_orchestrator_misconfigured" =
        (match exc with
          | .deploy e => if e.cls = .hostMisconfigured then [([], 1)] else []
          | _ => []) := by
  rcases exc with ⟨cls, message⟩ | e | e
  · cases cls <;>
      simp [samplesOf, unlistedFamilies, DeployError.isHostOverloaded, hseconds, hlocal]
  · simp [samplesOf, unlistedFamilies, hlocal]
  · simp [samplesOf, unlistedFamilies, hlocal]

theorem says_ok {families : List GaugeMetricFamily} {family : String} {value : ℚ} :
    Says (.ok families) family value ↔ samplesOf families family = [([], value)] := by
  constructor
  · intro hx
    obtain ⟨families', hfamilies, h⟩ := hx
    obtain rfl := Except.ok.inj hfamilies
    exact h
  · exact fun h => ⟨families, rfl, h⟩

theorem not_says_error (exc : Exc) (family : String) (value : ℚ) :
    ¬Says (.error exc) family value := by
  intro h
  obtain ⟨families, hfamilies, -⟩ := h
  cases hfamilies

theorem flag_eq_one_iff (b : Bool) : flag b = 1 ↔ b = true := by cases b <;> simp [flag]

theorem sample_flag_iff (b : Bool) : [(([] : List String), flag b)] = [([], 1)] ↔ b = true := by
  simp [flag_eq_one_iff]

theorem any_exhausted_iff (probe : Option Probe) :
    probe.any Probe.exhausted = true ↔ ∃ p, probe = some p ∧ p.exhausted = true := by
  cases probe <;> simp

/-! ### The exits -/

section exits

variable {cfg} {releaseNames : Eff (List String)} {W : Type} {E : Env sig W} {w w' : W}
  {facts : Facts} {x : Except Exc (List GaugeMetricFamily)}

/-- What is known before the releases are listed. -/
theorem Begun.flags {problems : List String} {started : Bool} {found : Findings}
    (h : Begun cfg E w problems started found w') :
    found.proberStarted = started ∧ found.exhausted = !started ∧
      (found.misconfigured = true ↔ problems ≠ []) := by
  cases h
  simp

/-- A listing of the pods that failed adds to what is known, unless it ends the scrape. -/
theorem podsFound_ok {found found' : Findings} {pods : Except Exc PodsByRelease}
    {given : Option PodsByRelease} (h : podsFound found pods = .ok (found', given)) :
    (∀ exc, pods = .error exc → ¬Foreign exc) ∧ found'.proberStarted = found.proberStarted ∧
      (found'.exhausted = true ↔ found.exhausted = true ∨
        ∃ e, pods = .error (.deploy e) ∧ e.cls = .hostExhausted) ∧
      (found.misconfigured = true → found'.misconfigured = true) := by
  rcases pods with (⟨cls, message⟩ | e | e) | pods
  · cases cls <;>
      · simp only [podsFound, DeployError.isHostOverloaded] at h
        obtain ⟨rfl, rfl⟩ := Prod.mk.inj (Except.ok.inj h)
        simp [Foreign]
  · obtain ⟨rfl, rfl⟩ := Prod.mk.inj (Except.ok.inj h)
    simp [Foreign]
  · cases h
  · obtain ⟨rfl, rfl⟩ := Prod.mk.inj (Except.ok.inj h)
    simp

theorem podsFound_error {found : Findings} {pods : Except Exc PodsByRelease} {exc : Exc}
    (h : podsFound found pods = .error exc) : pods = .error exc ∧ Foreign exc := by
  rcases pods with (⟨cls, message⟩ | e | e) | pods
  · cases cls <;> cases h
  · cases h
  · obtain rfl := Except.error.inj h
    exact ⟨rfl, trivial⟩
  · cases h

/-- A scrape emits families at the last exit, when it is complete, and at the exits of a
listing that failed in a known way. -/
theorem Scraped.exit (h : Scraped cfg releaseNames E w facts x w') :
    (∃ exc, x = .error exc ∧ ¬facts.Complete ∧ ∀ classes, ¬facts.UnlistedFor classes) ∨
    (∃ found r exc, x = .ok (unlistedFamilies found exc r) ∧ facts.listing = some (.error exc) ∧
      found.exhausted = !facts.proberStarted ∧ r.1 = facts.probe ∧
      r.2.1.name = "nf_cluster_probe_seconds" ∧
      r.2.2.name = "nf_orchestrator_probe_local_seconds") ∨
    (∃ found t r told, x = .ok (listedFamilies cfg found t r) ∧ facts.Complete ∧
      (t.exhausted = true ↔ facts.proberStarted = false ∨
        (∃ e, facts.podListing = some (.error (.deploy e)) ∧ e.cls = .hostExhausted) ∨
        some (.ok (.unread .exhausted)) ∈ facts.polled) ∧
      (facts.problems ≠ [] → t.misconfigured = true) ∧ r.1 = facts.probe ∧ Tallied told t ∧
      r.2.1.name = "nf_cluster_probe_seconds" ∧
      r.2.2.name = "nf_orchestrator_probe_local_seconds") := by
  cases h with
  | unchecked =>
      -- the tools could not be checked, so nothing was listed
      refine .inl ⟨_, rfl, fun hcomplete => ?_, by simp [Facts.UnlistedFor]⟩
      obtain ⟨names, hnames⟩ := hcomplete.listed
      cases hnames
  | passed hbegun hlist hexc =>
      refine .inl ⟨_, rfl, fun hcomplete => ?_, ?_⟩
      · obtain ⟨names, hnames⟩ := hcomplete.listed
        cases Option.some.inj hnames
      · intro classes hx
        obtain ⟨e, he, -⟩ := hx
        obtain rfl := Except.error.inj (Option.some.inj he)
        exact hexc
  | unlisted hbegun hlist hexc hprobe =>
      obtain ⟨hseconds, hlocal⟩ := recordProbe_families hprobe
      exact .inr (.inl ⟨_, _, _, rfl, rfl, hbegun.flags.2.1, rfl, hseconds, hlocal⟩)
  | unparsed hbegun hlist hpods hfound =>
      obtain ⟨rfl, hexc⟩ := podsFound_error hfound
      refine .inl ⟨_, rfl, fun hcomplete => ?_, by simp [Facts.UnlistedFor]⟩
      obtain ⟨pods, hsome, hpassed⟩ := hcomplete.pods
      exact hpassed _ (Option.some.inj hsome).symm hexc
  | stopped hbegun hlist hpods hfound hrec hpolled =>
      refine .inl ⟨_, rfl, fun hcomplete => ?_, by simp [Facts.UnlistedFor]⟩
      obtain ⟨t, ht⟩ := hpolled.emittable_iff.mpr hcomplete.futures
      cases ht
  | listed hbegun hlist hpods hfound hrec hpolled hprobe =>
      obtain ⟨-, hexhausted, hproblems⟩ := hbegun.flags
      obtain ⟨hpassed, -, hexhausted', hkept⟩ := podsFound_ok hfound
      obtain ⟨hflag, hmisconfigured⟩ := hpolled.flags
      obtain ⟨told, ht⟩ := hpolled.tallied (tallied_nil _ _)
      obtain ⟨hseconds, hlocal⟩ := recordProbe_families hprobe
      refine .inr (.inr ⟨_, _, _, told, rfl, ⟨⟨_, rfl⟩, ⟨_, rfl, hpassed⟩, ?_⟩, ?_, ?_, rfl, ht,
        hseconds, hlocal⟩)
      · exact hpolled.emittable_iff.mp ⟨_, rfl⟩
      · rw [hflag, hexhausted', hexhausted, or_assoc]
        simp
      · exact fun h => hmisconfigured (hkept (hproblems.mpr h))

theorem Facts.Complete.not_unlistedFor (h : facts.Complete) (classes : DeployErrorClass → Prop) :
    ¬facts.UnlistedFor classes := by
  intro hx
  obtain ⟨e, he, -⟩ := hx
  obtain ⟨names, hnames⟩ := h.listed
  rw [hnames] at he
  cases he

theorem not_complete_of_error {exc : Exc} (h : facts.listing = some (.error exc)) :
    ¬facts.Complete := by
  intro hcomplete
  obtain ⟨names, hnames⟩ := hcomplete.listed
  rw [h] at hnames
  cases hnames

theorem unlistedFor_iff {exc : Exc} (h : facts.listing = some (.error exc))
    {classes : DeployErrorClass → Prop} :
    facts.UnlistedFor classes ↔ ∃ e, exc = .deploy e ∧ classes e.cls := by
  simp [Facts.UnlistedFor, h]

/-- Where a tool is wrong, the gauge for it is emitted at the last exit and at that of
a listing that failed for the same reason. -/
theorem Scraped.says_misconfigured_iff (h : Scraped cfg releaseNames E w facts x w')
    (hproblems : facts.problems ≠ []) :
    Says x "nf_orchestrator_misconfigured" 1 ↔
      facts.Complete ∨ facts.UnlistedFor (· = .hostMisconfigured) := by
  rcases h.exit with ⟨exc, rfl, hcomplete, hunlisted⟩ |
    ⟨found, r, exc, rfl, hlisting, -, -, hseconds, hlocal⟩ |
    ⟨found, t, r, told, rfl, hcomplete, -, hmisconfigured, -, ht, hseconds, hlocal⟩
  · exact iff_of_false (not_says_error exc _ _) (by simp [hcomplete, hunlisted])
  · rw [says_ok, (samplesOf_unlisted_host hseconds hlocal).2,
      or_iff_right (not_complete_of_error hlisting), unlistedFor_iff hlisting]
    rcases exc with e | e | e
    · dsimp only
      split_ifs with hcls <;> simp [hcls]
    · simp
    · simp
  · refine iff_of_true ?_ (.inl hcomplete)
    rw [says_ok, (samplesOf_listed cfg ht hseconds hlocal).2, sample_flag_iff,
      hmisconfigured hproblems, Bool.true_or]

/-- The gauge for a host without room is 1 at the last exit when the scrape noticed it, and
at that of a listing this host could not run. -/
theorem Scraped.says_exhausted_iff (h : Scraped cfg releaseNames E w facts x w') :
    Says x "nf_orchestrator_exhausted" 1 ↔
      facts.Complete ∧ facts.SawNoRoom ∨ facts.UnlistedFor (· = .hostExhausted) ∨
        facts.UnlistedFor (· = .hostOverloaded) ∧
          (facts.proberStarted = false ∨ ∃ p, facts.probe = some p ∧ p.exhausted = true) := by
  rcases h.exit with ⟨exc, rfl, hcomplete, hunlisted⟩ |
    ⟨found, r, exc, rfl, hlisting, hexhausted, hprobe, hseconds, hlocal⟩ |
    ⟨found, t, r, told, rfl, hcomplete, hexhausted, -, hprobe, ht, hseconds, hlocal⟩
  · exact iff_of_false (not_says_error exc _ _) (by simp [hcomplete, hunlisted])
  · rw [says_ok, (samplesOf_unlisted_host hseconds hlocal).1,
      iff_false_intro (not_complete_of_error hlisting), false_and, false_or,
      unlistedFor_iff hlisting, unlistedFor_iff hlisting, ← hprobe]
    rcases exc with ⟨cls, message⟩ | e | e
    · cases cls <;>
        simp [DeployError.isHostOverloaded, flag_eq_one_iff, hexhausted, any_exhausted_iff]
    · simp
    · simp
  · have hunlisted : ∀ classes, facts.UnlistedFor classes ↔ False :=
      fun classes => iff_false_intro (hcomplete.not_unlistedFor classes)
    rw [says_ok, (samplesOf_listed cfg ht hseconds hlocal).1, sample_flag_iff, hunlisted, hunlisted,
      false_and, or_false, or_false, and_iff_right hcomplete, Bool.or_eq_true, hexhausted,
      Facts.SawNoRoom, ← hprobe]
    simp only [or_assoc, any_exhausted_iff]

/-- A scrape shows what it found out about its own host exactly when it ends at an exit that
emits the gauge for it. -/
theorem host_faults_shown_iff {tr : List (Event sig)}
    (h : Scraped cfg releaseNames E.logged (w, []) facts x (w', tr)) :
    ShowsHost cfg facts tr x ↔ facts.KeepsHost cfg tr := by
  constructor
  · intro hshows
    refine ⟨fun hproblems => ?_, fun hexhausted => ?_⟩
    · exact (h.says_misconfigured_iff hproblems).mp (hshows.misconfigured hproblems)
    · exact h.says_exhausted_iff.mp (hshows.exhausted hexhausted)
  · intro hkeeps
    refine ⟨fun hproblems => ?_, fun hexhausted => ?_⟩
    · exact (h.says_misconfigured_iff hproblems).mpr (hkeeps.misconfigured hproblems)
    · exact h.says_exhausted_iff.mpr (hkeeps.exhausted hexhausted)

end exits

/-! ### A wrong helm and an outage -/

/-- A host with Helm 3, and a cluster that cannot be reached. -/
def outageReply : (o : sig.Op) → sig.Resp o :=
  promptReply (fun command =>
    if command = ["helm", "version", "--short"] then .completed 0 "v3.19.0" ""
    else .completed 1 "" "Error: Kubernetes cluster unreachable") true none

/-- The replies of a host, with what was called and what the replies were. -/
def logReplies (reply : (o : sig.Op) → sig.Resp o) (o : sig.Op) (w : Unit × List (Event sig)) :
    sig.Resp o × Unit × List (Event sig) :=
  (reply o, (), w.2 ++ [⟨o, reply o⟩])

/-- The message of the failed listing. -/
def outage : DeployError := ⟨.clusterUnreachable, "Error: Kubernetes cluster unreachable"⟩

theorem exists_outage :
    ∃ facts x w' tr, Scraped {} (releaseNames {} 1) (replying fun o r => r = outageReply o).logged
        ((), []) facts x (w', tr) ∧
      facts.problems ≠ [] ∧ facts.listing = some (.error (.deploy outage)) := by
  have hset : ((setUp {}).run (logReplies outageReply) ((), [])).1 =
      .ok ⟨4, true, false, true, false⟩ := by decide +kernel
  have hlist : ((engine (releaseNames {} 1)).run (logReplies outageReply)
      ((setUp {}).run (logReplies outageReply) ((), [])).2).1 = .error (.deploy outage) := by
    decide +kernel
  obtain ⟨facts, r, ⟨w', tr⟩, h, hlisting, hproblems, -⟩ := exists_unlisted {} (releaseNames {} 1)
    (E := (replying fun o r => r = outageReply o).logged) (h := logReplies outageReply)
    (fun _ _ => ⟨rfl, rfl⟩) hset hlist id
  refine ⟨facts, _, w', tr, h, fun hnone => ?_, hlisting⟩
  rw [hnone] at hproblems
  cases hproblems

theorem host_faults_shown_iff_outage :
    ∃ facts x w' tr, Scraped {} (releaseNames {} 1) (replying fun o r => r = outageReply o).logged
        ((), []) facts x (w', tr) ∧
      (ShowsHost {} facts tr x ↔ facts.KeepsHost {} tr) := by
  obtain ⟨facts, x, w', tr, h, -⟩ := exists_outage
  exact ⟨facts, x, w', tr, h, host_faults_shown_iff h⟩

/-- A scrape that finds a wrong helm and cannot reach the cluster does not say that helm is
wrong. -/
theorem outage_hides_wrong_helm :
    ∃ facts x w' tr, Scraped {} (releaseNames {} 1) (replying fun o r => r = outageReply o).logged
        ((), []) facts x (w', tr) ∧
      facts.problems ≠ [] ∧ ¬ShowsHost {} facts tr x := by
  obtain ⟨facts, x, w', tr, h, hproblems, hlisting⟩ := exists_outage
  refine ⟨facts, x, w', tr, h, hproblems, fun hshows => ?_⟩
  rcases (h.says_misconfigured_iff hproblems).mp (hshows.misconfigured hproblems) with
    hcomplete | ⟨e, he, hcls⟩
  · exact not_complete_of_error hlisting hcomplete
  · rw [hlisting] at he
    cases he
    cases hcls

end NfOrchestrator.Metrics
