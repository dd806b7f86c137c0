import NfOrchestrator.Deploy.Tally

/-!
# NfOrchestrator.Deploy.Sharing

**Calls that time out together** and the probes they start. Any number of calls run
interleaved on the shared world, with no probe cached at first. Each takes the lock,
and reuses the answer it finds or measures one, so the calls should start one probe
between them, and a second one, with more time, only when the first never got kubectl
started.

**Key idea.** A caller starts a first probe for each time it finds the cache empty, and
one with more time for each answer it has that never got kubectl started
(`Balanced`). Summed over the callers, that counts the probes of the whole run
(`Tally`).
-/

namespace NfOrchestrator.Deploy

variable (cfg : Settings)

/-! ### Calls and their runs -/

/-- A call of `run_bounded` that is not the readiness check. -/
structure Call where
  command : List String
  args : List String
  timeout : ℚ
  not_readyz : args ≠ readyz
  not_probe : command ≠ probeCommand cfg

variable {ι : Type} [DecidableEq ι] {cfg}

/-- The processes of a run of calls. -/
abbrev Calling (ι : Type) := Pool sig Exc (fun _ : ι => String) Shared

/-- `P` is reached by some interleaving of the calls, from a world with no probe cached. -/
def ReachedBy (calls : ι → Call cfg) (P : Calling ι) : Prop :=
  ∃ w : Shared, w.probe = none ∧ Pool.Reachable shared
    (Pool.start (fun i => runBounded cfg (calls i).command (calls i).args (calls i).timeout) w) P

/-- The events of all threads. -/
def events (P : Calling ι) : List (Event sig) := P.trace.map Prod.snd

/-- What a caller finds in the cache is no older than `PROBE_TTL` when it looks. -/
def Prompt (cfg : Settings) (P : Calling ι) : Prop :=
  ∀ i, ∀ x ∈ takes (P.localTrace i), x.1 ≤ cfg.probeTtl

/-- The calls start at most two probes between them, the second with more time and only
if the first never got kubectl started, and what any of them finds in the cache is an
answer of these. -/
structure ShareProbes (cfg : Settings) (P : Calling ι) : Prop where
  starts : probeStarts cfg (events P) ≤ 2
  bounds : (probeBounds cfg (events P)).Sublist [cfg.probeTimeout, cfg.escalatedProbeTimeout]
  second : probeStarts cfg (events P) = 2 →
    ∃ p rest, answers (events P) = p :: rest ∧ p.started = false
  reused : ∀ t p, (⟨.getProbe, some (t, p)⟩ : Event sig) ∈ events P → p ∈ answers (events P)

/-- Nobody takes from the cache an answer that never got kubectl started, and at most
one caller finds the cache empty. -/
structure TakesStarted (P : Calling ι) : Prop where
  started : ∀ i, ∀ x ∈ takes (P.localTrace i), x.2.started = true
  empty : emptyLooks (events P) ≤ 1

/-- Every call has ended. -/
def Concluded (P : Calling ι) : Prop :=
  ∀ i, (∃ s, P.thread i = .ret s) ∨ ∃ e, P.thread i = .raise e

/-! ### The probes of a run -/

/-- In every state a run reaches, each caller has its books, and together they are those
of the run. -/
theorem ReachedBy.tally [Fintype ι] (httl : 0 < cfg.probeTtl) {calls : ι → Call cfg}
    {P : Calling ι} (hr : ReachedBy calls P) (hprompt : Prompt cfg P) :
    ∃ g : ι → Caller, Tally cfg P.world P.trace g ∧ (∀ i, Books cfg (P.localTrace i) (g i)) ∧
      ∀ i, (P.thread i).wp (calling cfg) (fun _ c => c.phase = .free false) (g i) := by
  obtain ⟨w, hw, hreach⟩ := hr
  have hbooks : ∀ {tr : List (Event sig)} {c : Caller},
      (Moves cfg : Protocol sig Caller).Leads {} tr c → Balanced c ∧ Books cfg tr c := by
    intro tr c hleads
    refine hleads.invariant (I := fun tr c => Balanced c ∧ Books cfg tr c)
      ⟨balanced_start, books_start⟩ ?_
    intro tr c e c' hmove hc
    exact ⟨hmove.balanced hc.1, hmove.books hc.1 hc.2⟩
  have hfresh : ∀ i tr e post c, P.localTrace i = tr ++ e :: post →
      (Moves cfg : Protocol sig Caller).Leads {} tr c → Fresh cfg c e := by
    intro i tr e post c hsplit hleads t p m hfound he
    subst he
    -- the answer found is the last event, so the trace says how old it is
    obtain ⟨pre, rfl⟩ := (hbooks hleads).2.found t p hfound
    refine hprompt i (m - t, p) ?_
    rw [hsplit]
    exact mem_takes pre t m p post
  obtain ⟨g, hleads, hwp, htally⟩ := Pool.follows (δ := fun _ => Moves cfg) (A := Fresh cfg)
    (fun i => wp_runBounded_moves httl (calls i).not_probe (calls i).args (calls i).timeout {} rfl)
    (tally_start hw) (fun i o w r w' tr g c hE hmove h => h.step hE hmove) hreach hfresh
  exact ⟨g, htally, fun i => (hbooks (hleads i)).2, hwp⟩

/-- What all threads do is what one of them does, where the others do nothing. -/
theorem filterMap_events {β : Type} (f : Event sig → Option β) {P : Calling ι} {i : ι}
    (h : ∀ j, j ≠ i → (P.localTrace j).filterMap f = []) :
    (events P).filterMap f = (P.localTrace i).filterMap f := by
  unfold events Pool.localTrace at *
  rw [List.filterMap_map, List.filterMap_filterMap]
  refine List.filterMap_congr fun x hx => ?_
  by_cases hi : x.1 = i
  · simp [hi]
  · have hnone : f x.2 = none := by
      have hmem : x.2 ∈ P.trace.filterMap fun e => if e.1 = x.1 then some e.2 else none :=
        List.mem_filterMap.mpr ⟨x, hx, by simp⟩
      exact List.filterMap_eq_nil_iff.mp (h x.1 hi) x.2 hmem
    simp [hi, hnone]

theorem mem_answers_events {P : Calling ι} {p : Probe} (h : p ∈ answers (events P)) :
    ∃ i, p ∈ answers (P.localTrace i) := by
  obtain ⟨e, he, hp⟩ := List.mem_filterMap.mp h
  obtain ⟨⟨i, e'⟩, hmem, rfl⟩ := List.mem_map.mp he
  exact ⟨i, List.mem_filterMap.mpr ⟨e', List.mem_filterMap.mpr ⟨(i, e'), hmem, by simp⟩, hp⟩⟩

/-- What is in the cache, or was read from it, is an answer put there. -/
theorem ReachedBy.reused {calls : ι → Call cfg} {P : Calling ι} (hr : ReachedBy calls P) (t : ℚ)
    (p : Probe) (h : (⟨.getProbe, some (t, p)⟩ : Event sig) ∈ events P) :
    p ∈ answers (events P) := by
  obtain ⟨w, hw, hreach⟩ := hr
  refine (hreach.invariant (I := fun w tr =>
    (∀ t p, w.probe = some (t, p) → p ∈ answers (tr.map Prod.snd)) ∧
      ∀ t p, (⟨.getProbe, some (t, p)⟩ : Event sig) ∈ tr.map Prod.snd →
        p ∈ answers (tr.map Prod.snd)) ?_ ⟨?_, ?_⟩).2 t p h
  · intro i o w r w' tr hE hI
    have hsnoc : ∀ p ∈ answers (tr.map Prod.snd),
        p ∈ answers ((tr ++ [(i, (⟨o, r⟩ : Event sig))]).map Prod.snd) := by
      intro p hp
      simp only [answers, List.map_append, List.filterMap_append]
      exact List.mem_append_left _ hp
    refine ⟨fun t p hcache => ?_, fun t p hmem => ?_⟩
    · rw [shared_probe hE] at hcache
      rcases cacheAfter_eq w o with heq | ⟨t', p', rfl, heq⟩
      · exact hsnoc p (hI.1 t p (by rw [← heq, hcache]))
      · obtain ⟨rfl, rfl⟩ : t' = t ∧ p' = p := by simpa [heq] using hcache
        simp [answers, answer?]
    · rw [List.map_append, List.mem_append] at hmem
      rcases hmem with hmem | hmem
      · exact hsnoc p (hI.2 t p hmem)
      · cases List.mem_singleton.mp hmem
        exact hsnoc p (hI.1 t p hE.1.symm)
  · intro t p hcache
    rw [show (Pool.start _ w).world = w from rfl, hw] at hcache
    cases hcache
  · intro t p hmem
    cases hmem

/-- Where nobody takes an answer that never got kubectl started, a caller's probes follow
an empty cache: none, one, or one and a second for an answer that never started. -/
theorem Balanced.count_le (h : Balanced c) (htaken : c.taken = 0) :
    c.spawned.count true ≤ c.failed ∧ c.failed ≤ c.spawned.count false ∧
      c.spawned.count false ≤ c.empty := by
  obtain ⟨hfirst, hsecond, hfailed, -⟩ := h
  omega

theorem Balanced.spawned_eq (h : Balanced c) (htaken : c.taken = 0) (hempty : c.empty ≤ 1) :
    c.spawned = [] ∨ c.spawned = [false] ∨ c.spawned = [false, true] := by
  obtain ⟨htrue, hfalse, hle⟩ := h.count_le htaken
  have hhead := h.head
  have hlength := List.count_false_add_count_true c.spawned
  rcases hs : c.spawned with - | ⟨a, - | ⟨b, - | ⟨d, rest⟩⟩⟩
  · exact .inl rfl
  · rw [hs] at hhead
    cases a with
    | true => exact absurd (hhead rfl) (by omega)
    | false => exact .inr (.inl rfl)
  · rw [hs] at hhead hfalse hle
    cases a with
    | true => exact absurd (hhead rfl) (by omega)
    | false =>
        cases b with
        | true => exact .inr (.inr rfl)
        | false => exact absurd (le_trans hle hempty) (by decide)
  · rw [hs] at hlength
    simp only [List.length_cons] at hlength
    rw [← hs] at hlength
    omega

theorem sum_le_one_solo [Fintype ι] {f : ι → ℕ} (h : ∑ j, f j ≤ 1) {i : ι} (hi : 1 ≤ f i) :
    f i = 1 ∧ ∀ j, j ≠ i → f j = 0 := by
  have hsplit := Finset.add_sum_erase Finset.univ f (Finset.mem_univ i)
  refine ⟨by omega, fun j hj => ?_⟩
  have hle := Finset.single_le_sum (f := f) (fun _ _ => Nat.zero_le _)
    (Finset.mem_erase.mpr ⟨hj, Finset.mem_univ j⟩)
  omega

omit [DecidableEq ι] in
/-- A caller that has started no probe waited for none and stored no answer. -/
theorem Books.silent {tr : List (Event sig)} {c : Caller} (h : Books cfg tr c)
    (hnone : c.spawned = []) : probeBounds cfg tr = [] ∧ Deploy.answers tr = [] := by
  obtain ⟨ended, hspawned, hsub⟩ := h.bounds
  have hanswers := h.answers
  rw [hnone] at hspawned hanswers
  obtain rfl : ended = [] := (List.append_eq_nil_iff.mp hspawned.symm).1
  refine ⟨List.sublist_nil.mp hsub, List.length_eq_zero_iff.mp ?_⟩
  simp only [List.length_nil] at hanswers
  omega

/-- Where nobody takes an answer that never got kubectl started, one caller starts all the
probes. -/
theorem shareProbes_of_takesStarted [Fintype ι] {calls : ι → Call cfg} {P : Calling ι}
    {g : ι → Caller} (hr : ReachedBy calls P) (htally : Tally cfg P.world P.trace g)
    (hbooks : ∀ i, Books cfg (P.localTrace i) (g i)) (h : TakesStarted P) :
    ShareProbes cfg P := by
  have htaken : ∀ i, (g i).taken = 0 := by
    intro i
    rw [(hbooks i).taken, List.countP_eq_zero]
    intro x hx
    simp [h.started i x hx]
  have hempty : ∑ i, (g i).empty ≤ 1 := htally.empty ▸ h.empty
  have hsilent : ∀ i, (g i).spawned = [] → probeBounds cfg (P.localTrace i) = [] ∧
      answers (P.localTrace i) = [] := fun i hi => (hbooks i).silent hi
  by_cases hall : ∀ i, (g i).spawned = []
  · have hstarts : probeStarts cfg (events P) = 0 := by
      rw [show probeStarts cfg (events P) = _ from htally.starts]
      exact Finset.sum_eq_zero fun i _ => by rw [hall i]; rfl
    have hbounds : probeBounds cfg (events P) = [] := by
      refine List.filterMap_eq_nil_iff.mpr fun e he => ?_
      obtain ⟨⟨i, e'⟩, hmem, rfl⟩ := List.mem_map.mp he
      exact List.filterMap_eq_nil_iff.mp (hsilent i (hall i)).1 e' (List.mem_filterMap.mpr
        ⟨(i, e'), hmem, by simp⟩)
    exact ⟨by omega, by rw [hbounds]; exact List.nil_sublist _, fun h => by omega, hr.reused⟩
  · -- somebody has started one, for the one empty cache, so nobody else has
    obtain ⟨i, hi⟩ := not_forall.mp hall
    have hone : 1 ≤ (g i).empty := by
      obtain ⟨htrue, hfalse, hle⟩ := (htally.balanced i).count_le (htaken i)
      have hlength := List.count_false_add_count_true (g i).spawned
      have hpos := List.length_pos_iff.mpr hi
      omega
    obtain ⟨hself, hothers⟩ := sum_le_one_solo hempty hone
    have hquiet : ∀ j, j ≠ i → (g j).spawned = [] := by
      intro j hj
      obtain ⟨htrue, hfalse, hle⟩ := (htally.balanced j).count_le (htaken j)
      have hlength := List.count_false_add_count_true (g j).spawned
      have := hothers j hj
      exact List.length_eq_zero_iff.mp (by omega)
    have hstarts : probeStarts cfg (events P) = (g i).spawned.length := by
      rw [show probeStarts cfg (events P) = _ from htally.starts]
      exact Finset.sum_eq_single i (fun j _ hj => by rw [hquiet j hj]; rfl) (by simp)
    have hspawned := (htally.balanced i).spawned_eq (htaken i) (le_of_eq hself)
    refine ⟨?_, ?_, fun htwo => ?_, hr.reused⟩
    · rw [hstarts]
      rcases hspawned with h | h | h <;> rw [h] <;> simp
    · rw [probeBounds, filterMap_events _ fun j hj => (hsilent j (hquiet j hj)).1]
      obtain ⟨ended, heq, hsub⟩ := (hbooks i).bounds
      refine hsub.trans (((List.sublist_append_left ended (g i).phase.waiting).map _).trans ?_)
      rw [← heq]
      rcases hspawned with h | h | h <;> rw [h] <;> simp [probeBound]
    · rw [answers, filterMap_events _ fun j hj => (hsilent j (hquiet j hj)).2]
      obtain ⟨htrue, -, -⟩ := (htally.balanced i).count_le (htaken i)
      have hboth : (g i).spawned = [false, true] := by
        rw [hstarts] at htwo
        rcases hspawned with h | h | h
        · rw [h] at htwo; cases htwo
        · rw [h] at htwo; cases htwo
        · exact h
      rw [hboth] at htrue
      exact (hbooks i).first (le_of_eq hself) (htaken i) htrue

omit [DecidableEq ι] in
/-- Once all have ended, a caller has started a probe for each empty cache it found and
for each answer it had that never got kubectl started. -/
theorem starts_of_concluded [Fintype ι] {P : Calling ι} {g : ι → Caller}
    (htally : Tally cfg P.world P.trace g)
    (hwp : ∀ i, (P.thread i).wp (calling cfg) (fun _ c => c.phase = .free false) (g i))
    (hend : Concluded P) :
    (∀ i, (g i).spawned.count true = (g i).taken + (g i).failed) ∧
      probeStarts cfg (events P) =
        ∑ i, (g i).empty + ∑ i, (g i).taken + ∑ i, (g i).failed := by
  have hfree : ∀ i, (g i).phase = .free false := by
    intro i
    have hi := hwp i
    rcases hend i with ⟨s, hs⟩ | ⟨exc, hs⟩
    · rw [hs] at hi
      exact hi
    · rw [hs] at hi
      exact hi
  have hcount : ∀ i, (g i).spawned.count false = (g i).empty ∧
      (g i).spawned.count true = (g i).taken + (g i).failed := by
    intro i
    obtain ⟨hfirst, hsecond, -, -⟩ := htally.balanced i
    rw [hfree i] at hfirst hsecond
    exact ⟨hfirst, hsecond⟩
  refine ⟨fun i => (hcount i).2, ?_⟩
  rw [show probeStarts cfg (events P) = _ from htally.starts, ← Finset.sum_add_distrib,
    ← Finset.sum_add_distrib]
  refine Finset.sum_congr rfl fun i _ => ?_
  have hlength := List.count_false_add_count_true (g i).spawned
  have := hcount i
  omega

theorem takesStarted_of_shareProbes [Fintype ι] {P : Calling ι} {g : ι → Caller}
    (htally : Tally cfg P.world P.trace g) (hbooks : ∀ i, Books cfg (P.localTrace i) (g i))
    (hwp : ∀ i, (P.thread i).wp (calling cfg) (fun _ c => c.phase = .free false) (g i))
    (hend : Concluded P) (h : ShareProbes cfg P) : TakesStarted P := by
  obtain ⟨hsecond, hstarts⟩ := starts_of_concluded htally hwp hend
  have htwo := h.starts
  have hle : ∀ (f : ι → ℕ) i, f i ≤ ∑ j, f j := fun f i =>
    Finset.single_le_sum (f := f) (fun _ _ => Nat.zero_le _) (Finset.mem_univ i)
  -- an answer that never got kubectl started costs a first probe and two with more time
  have hnone : ∑ i, (g i).taken = 0 := by
    by_contra hne
    obtain ⟨i, -, hi⟩ := Finset.exists_ne_zero_of_sum_ne_zero hne
    obtain ⟨j, hj⟩ := htally.taken i (Nat.one_le_iff_ne_zero.mpr hi)
    have hfirst := (htally.balanced j).first
    have hfailed := (htally.balanced j).failed
    have hsum := hle (fun i => (g i).empty) j
    have hsum' := hle (fun i => (g i).failed) j
    omega
  have htaken : ∀ i, (g i).taken = 0 := fun i =>
    Finset.sum_eq_zero_iff.mp hnone i (Finset.mem_univ i)
  constructor
  · intro i x hx
    have hcount := (hbooks i).taken
    rw [htaken i, eq_comm, List.countP_eq_zero] at hcount
    simpa using hcount x hx
  · rw [show emptyLooks (events P) = _ from htally.empty]
    by_contra hmany
    have hfailed : ∑ i, (g i).failed = 0 := by omega
    -- two probes were started, and the first answer is one that never got kubectl started
    obtain ⟨p, rest, hanswers, hstarted⟩ := h.second (by omega)
    obtain ⟨i, hp⟩ := mem_answers_events (P := P) (p := p) (by simp [hanswers])
    have hnot : (g i).failed = 0 := Finset.sum_eq_zero_iff.mp hfailed i (Finset.mem_univ i)
    have hcount := hsecond i
    rcases (hbooks i).unstarted p hp hstarted with hpos | hmem
    · omega
    · have := List.count_pos_iff.mpr hmem
      have := htaken i
      omega

/-- Calls that time out together share their probes in exactly the runs in which nobody
takes from the cache an answer that never got kubectl started. -/
theorem share_probes_iff [Fintype ι] (httl : 0 < cfg.probeTtl) {calls : ι → Call cfg}
    {P : Calling ι} (hr : ReachedBy calls P) (hprompt : Prompt cfg P) :
    (TakesStarted P → ShareProbes cfg P) ∧
      (Concluded P → (ShareProbes cfg P ↔ TakesStarted P)) := by
  obtain ⟨g, htally, hbooks, hwp⟩ := hr.tally httl hprompt
  have hshare := shareProbes_of_takesStarted hr htally hbooks
  exact ⟨hshare, fun hend => ⟨takesStarted_of_shareProbes htally hbooks hwp hend, hshare⟩⟩

/-! ### Two callers -/

/-- What a kubectl that got started has written. -/
def startedLog : String := "I1201 12:00:01.100000 1 loader.go:395] Config loaded from file"

/-- A world in which every call is killed, and so is every probe: one held to
`PROBE_TIMEOUT` has by then written `log`, one with more time has got started. -/
def starved (cfg : Settings) (log : Option String) :
    (o : Op) → Shared → Option (Resp o × Shared)
  | .monotonic, w => some (w.clock, w)
  | .time, w => some ((0 : ℚ), w)
  | .localtime _, w => some (⟨12, 0, 0⟩, w)
  | .which _, w => some (true, w)
  | .spawn _, w => some (none, w)
  | .finish _ timeout, w =>
      some (.timedOut (if timeout = cfg.probeTimeout then log else some startedLog), w)
  | .acquireProbeLock, w => if w.locked then none else some ((), { w with locked := true })
  | .releaseProbeLock, w => some ((), { w with locked := false })
  | .getProbe, w => some (w.probe, w)
  | .setProbe t p, w => some ((), { w with probe := some (t, p) })
  | .getLastSuccess, w => some (w.lastSuccess, w)
  | .setLastSuccess t, w => some ((), { w with lastSuccess := some t })
  | .getVersions, w => some (w.versions, w)
  | .setVersions t problems, w => some ((), { w with versions := some (t, problems) })

theorem starved_shared (log : Option String) (o : Op) (w : Shared) (x : Resp o × Shared)
    (h : starved cfg log o w = some x) : shared o w x.1 x.2 := by
  cases o with
  | acquireProbeLock =>
      rw [starved] at h
      split_ifs at h with hlocked
      cases h
      exact ⟨by simpa using hlocked, rfl⟩
  | monotonic =>
      cases h
      exact ⟨le_rfl, rfl⟩
  | getProbe | getLastSuccess | getVersions =>
      cases h
      exact ⟨rfl, rfl⟩
  | _ =>
      cases h
      exact rfl

/-- `helm list`, twice. -/
def twoLists (_ : Fin 2) : Call defaultSettings where
  command := ["helm", "list"]
  args := ["list"]
  timeout := 3
  not_readyz := by decide
  not_probe := by decide

/-- The two calls, where the threads take their turns as the schedule says. -/
def twoCalls (log : Option String) (schedule : List (Fin 2)) : Calling (Fin 2) :=
  Pool.exec (starved defaultSettings log) schedule
    (Pool.start (fun i => runBounded defaultSettings (twoLists i).command (twoLists i).args
      (twoLists i).timeout) { clock := 0 })

theorem twoCalls_reached (log : Option String) (schedule : List (Fin 2)) :
    ReachedBy twoLists (twoCalls log schedule) :=
  ⟨{ clock := 0 }, rfl, Pool.exec_reachable (starved_shared log) _ _⟩

/-- One after the other. -/
def inTurn : List (Fin 2) := List.replicate 30 0 ++ List.replicate 30 1

/-- The second call runs where the first one has measured a probe. -/
def between : List (Fin 2) := List.replicate 12 0 ++ List.replicate 40 1 ++ List.replicate 30 0

theorem prompt_of_ages {P : Calling (Fin 2)}
    (h : ∀ i : Fin 2, (takes (P.localTrace i)).all (fun x => decide (x.1 ≤ 2)) = true) :
    Prompt {} P := by
  intro i x hx
  exact of_decide_eq_true (List.all_eq_true.mp (h i) x hx)

/-- Where the first probe gets kubectl started, two calls share it. -/
theorem share_probes_iff_inTurn :
    probeStarts {} (events (twoCalls (some "I") inTurn)) = 1 ∧
      ShareProbes {} (twoCalls (some "I") inTurn) := by
  refine ⟨by decide +kernel, (share_probes_iff (by decide) (twoCalls_reached _ _)
    (prompt_of_ages (by decide +kernel))).1 ⟨?_, by decide +kernel⟩⟩
  have hstarted : ∀ i : Fin 2, (takes ((twoCalls (some "I") inTurn).localTrace i)).all
      (fun x => x.2.started) = true := by decide +kernel
  exact fun i x hx => List.all_eq_true.mp (hstarted i) x hx

/-- Where it does not, each of the two calls starts one with more time. -/
theorem each_escalates :
    ReachedBy twoLists (twoCalls none between) ∧ Prompt {} (twoCalls none between) ∧
      (∀ i, ownOutcome ((twoCalls none between).localTrace i) =
        some (.timedOut (some startedLog))) ∧
      probeStarts {} (events (twoCalls none between)) = 3 ∧
      ¬ ShareProbes {} (twoCalls none between) := by
  have hstarts : probeStarts {} (events (twoCalls none between)) = 3 := by decide +kernel
  exact ⟨twoCalls_reached _ _, prompt_of_ages (by decide +kernel), by decide +kernel, hstarts,
    fun h => absurd h.starts (by rw [hstarts]; decide)⟩

end NfOrchestrator.Deploy
