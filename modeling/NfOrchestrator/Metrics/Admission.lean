import NfOrchestrator.Metrics.Collect

/-!
# NfOrchestrator.Metrics.Admission

**Every listed release has one future.** A name leaves the queue in a wave, into a future
that was started or settled, or stays in it and gets a future that was never started.

The world of a scrape is what its pool has been given to do: the jobs started so far. What
`waves` keeps is that the futures' names and the queue are the listed names, and that the
futures that were started are the jobs of the pool (`Admitting`).
-/

namespace NfOrchestrator.Metrics

open Deploy Reconciler

/-! ### Dicts -/

section dicts

variable {α : Type}

theorem any_key_fresh {d : List (String × α)} {key : String} (h : key ∉ d.map Prod.fst) :
    d.any (·.1 == key) = false := by
  rw [List.any_eq_false]
  intro e he hkey
  exact h (eq_of_beq hkey ▸ List.mem_map_of_mem he)

theorem setItem_fresh {d : List (String × α)} {key : String} (h : key ∉ d.map Prod.fst)
    (value : α) : setItem d key value = d ++ [(key, value)] := by
  rw [setItem, any_key_fresh h]
  rfl

theorem setDefault_fresh {d : List (String × α)} {key : String} (h : key ∉ d.map Prod.fst)
    (value : α) : setDefault d key value = d ++ [(key, value)] := by
  rw [setDefault, any_key_fresh h]
  rfl

theorem update_fresh {d e : List (String × α)}
    (h : (d.map Prod.fst ++ e.map Prod.fst).Nodup) : update d e = d ++ e := by
  induction e generalizing d with
  | nil => simp [update]
  | cons kv rest ih =>
      have hkey : kv.1 ∉ d.map Prod.fst := by
        intro hmem
        exact (List.nodup_append.mp h).2.2 _ hmem _ (by simp) rfl
      have hnext := ih (d := d ++ [kv]) (by simpa using h)
      rw [update, List.foldl_cons, setItem_fresh hkey]
      simpa [update] using hnext

end dicts

/-! ### The pool as the world -/

/-- One piece of work: a release, with its pods when they were listed. -/
abbrev Job := String × Option (List PodState)

/-- The jobs among the futures. -/
def startedJobs (futures : List (String × Future)) : List Job :=
  futures.filterMap fun e =>
    match e.2 with
    | .started name pods => some (name, pods)
    | .settled | .neverStarted => none

theorem startedJobs_append (d e : List (String × Future)) :
    startedJobs (d ++ e) = startedJobs d ++ startedJobs e := List.filterMap_append

/-- A scrape whose engine gets the replies `R` allows, and whose pool has found of each job
what `P` allows by the time it is asked. Starting a thread may fail at any time, and
a wave may end and the clock advance in any way. -/
def scraping (R : (o : Deploy.Op) → Deploy.Resp o → Prop)
    (P : Job → Option (Except Exc Snapshot) → Prop) : Env sig (List Job) :=
  fun o jobs r jobs' =>
    match o, r with
    | .inl o, r => R o r ∧ jobs' = jobs
    | .inr (.submit name pods), r => jobs' = cond r (jobs ++ [(name, pods)]) jobs
    | .inr (.poll name pods), r => P (name, pods) r ∧ jobs' = jobs
    | .inr _, _ => jobs' = jobs

/-- A future stands for the release it is kept under, with the pods listed for it. -/
def Own (pods : Option PodsByRelease) (e : String × Future) : Prop :=
  match e.2 with
  | .started name given => name = e.1 ∧ given = pods.map fun p => podsFor p e.1
  | .settled | .neverStarted => True

/-- Between two waves: every listed name is in the queue or has its future, and the
futures that were started are the jobs of the pool. -/
structure Admitting (pods : Option PodsByRelease) (names : List String)
    (futures : List (String × Future)) (queue : List String) (jobs : List Job) : Prop where
  names_eq : futures.map Prod.fst ++ queue = names
  jobs_eq : jobs = startedJobs futures
  own : ∀ e ∈ futures, Own pods e

variable {R : (o : Deploy.Op) → Deploy.Resp o → Prop}
  {P : Job → Option (Except Exc Snapshot) → Prop} {jobs : List Job}

/-- The engine's clock, and every call on the pool but two, leaves the pool as it is. -/
theorem wp_clock {Q : Except Exc ℚ → List Job → Prop} (h : ∀ now, Q (.ok now) jobs) :
    (engine monotonic).wp (scraping R P).spec Q jobs := by
  rw [wp_engine, wp_monotonic]
  intro now _ hx
  obtain ⟨-, rfl⟩ := hx
  exact h now

theorem wp_submit {name : String} {given : Option (List PodState)}
    {Q : Except Exc Future → List Job → Prop}
    (hstarted : Q (.ok (.started name given)) (jobs ++ [(name, given)]))
    (hsettled : Q (.ok .settled) jobs) :
    (submit name given).wp (scraping R P).spec Q jobs := by
  rw [submit, Prog.wp_bind, wp_perform]
  rintro (_ | _) _ rfl
  · exact hsettled
  · exact hstarted

/-- A wave's futures are kept under its names, and its jobs are added to the pool. -/
theorem wp_submitAll (pods : Option PodsByRelease) {names : List String}
    {batch : List (String × Future)} (hnodup : (batch.map Prod.fst ++ names).Nodup) :
    (submitAll pods batch names).wp (scraping R P).spec
      (fun x jobs' => ∃ news : List (String × Future), x = .ok (batch ++ news) ∧
        news.map Prod.fst = names ∧ jobs' = jobs ++ startedJobs news ∧ ∀ e ∈ news, Own pods e)
      jobs := by
  induction names generalizing batch jobs with
  | nil => exact ⟨[], by simp, rfl, by simp [startedJobs], by simp⟩
  | cons name rest ih =>
      have hname : name ∉ batch.map Prod.fst := by
        intro hmem
        exact (List.nodup_append.mp hnodup).2.2 _ hmem _ (by simp) rfl
      -- Whatever future the name got, the rest of the wave follows it.
      have hnext : ∀ (future : Future) (jobs₁ : List Job), Own pods (name, future) →
          jobs₁ = jobs ++ startedJobs [(name, future)] →
          (submitAll pods (setItem batch name future) rest).wp (scraping R P).spec
            (fun x jobs' => ∃ news : List (String × Future), x = .ok (batch ++ news) ∧
              news.map Prod.fst = name :: rest ∧ jobs' = jobs ++ startedJobs news ∧
                ∀ e ∈ news, Own pods e) jobs₁ := by
        intro future _ hown h
        subst h
        rw [setItem_fresh hname]
        refine Prog.wp_mono (Env.spec_mono _) ?_ (ih (by simpa using hnodup))
        intro x jobs' h
        obtain ⟨news, rfl, hnames, rfl, hnews⟩ := h
        refine ⟨(name, future) :: news, by simp, by simp [hnames], ?_, ?_⟩
        · rw [List.append_assoc, ← startedJobs_append]
          rfl
        · intro e he
          rcases List.mem_cons.mp he with rfl | he
          · exact hown
          · exact hnews e he
      rw [submitAll, Prog.wp_bind]
      exact wp_submit (hnext (.started name _) _ ⟨rfl, rfl⟩ rfl)
        (hnext .settled _ trivial (by simp [startedJobs]))

theorem wp_allDone {futures : List Future} {Q : Except Exc Bool → List Job → Prop}
    (h : ∀ b, Q (.ok b) jobs) : (allDone futures).wp (scraping R P).spec Q jobs := by
  induction futures with
  | nil => exact h true
  | cons future rest ih =>
      have hnext : ∀ b : Bool, (if b = true then allDone rest else return false).wp
          (scraping R P).spec Q jobs := by
        intro hx
        rcases hx with _ | _
        · exact h false
        · exact ih
      rw [allDone, Prog.wp_bind]
      cases future with
      | settled => exact hnext true
      | neverStarted => exact hnext false
      | started name given =>
          intro b _ hx
          subst hx
          exact hnext b

variable {pods : Option PodsByRelease} {names queue : List String}
  {futures news : List (String × Future)}

/-- A wave moves its names from the queue to the futures. -/
theorem Admitting.wave (h : Admitting pods names futures queue jobs) (hnodup : names.Nodup)
    {n : ℕ} (hnews : news.map Prod.fst = queue.take n) (hown : ∀ e ∈ news, Own pods e) :
    Admitting pods names (update futures news) (queue.drop n) (jobs ++ startedJobs news) := by
  have hfresh : (futures.map Prod.fst ++ news.map Prod.fst).Nodup := by
    rw [hnews]
    refine List.Nodup.sublist ?_ hnodup
    rw [← h.names_eq]
    exact (List.take_sublist n queue).append_left _
  rw [update_fresh hfresh]
  refine ⟨?_, ?_, ?_⟩
  · rw [List.map_append, hnews, List.append_assoc, List.take_append_drop, h.names_eq]
  · rw [startedJobs_append, h.jobs_eq]
  · intro e he
    rcases List.mem_append.mp he with he | he
    · exact h.own e he
    · exact hown e he

theorem wp_waves (cfg : Settings) (hnodup : names.Nodup) (deadline : ℚ) (wave : ℕ+)
    (previousCost : ℚ) (h : Admitting pods names futures queue jobs) :
    (waves cfg pods deadline wave previousCost futures queue).wp (scraping R P).spec
      (fun x jobs' => ∃ futures' queue', x = .ok (futures', queue') ∧
        Admitting pods names futures' queue' jobs') jobs := by
  induction wave, previousCost, futures, queue using (waves.induct cfg)
    generalizing jobs with
  | case1 wave previousCost futures =>
      rw [waves]
      exact ⟨futures, [], rfl, h⟩
  | case2 wave previousCost futures name rest queue =>
      rename_i ih
      rw [waves, Prog.wp_bind]
      refine wp_clock fun now => ?_
      rw [Prog.bindPost_ok]
      dsimp only
      split_ifs
      · exact ⟨futures, name :: rest, rfl, h⟩
      have hwave : (([] : List (String × Future)).map Prod.fst ++ (name :: rest).take wave).Nodup :=
        (hnodup.sublist (h.names_eq ▸ List.sublist_append_right _ _)).sublist
          (List.take_sublist _ _)
      rw [Prog.wp_bind]
      refine wp_clock fun started => ?_
      rw [Prog.bindPost_ok, Prog.wp_bind]
      refine Prog.wp_mono (Env.spec_mono _) ?_ (wp_submitAll pods hwave)
      intro x jobs₁ hx
      obtain ⟨news, rfl, hnews, rfl, hown⟩ := hx
      -- the wave is submitted; what follows touches no future
      have hnext := h.wave hnodup hnews hown
      rw [Prog.bindPost_ok, Prog.wp_bind]
      refine wp_clock fun now => ?_
      rw [Prog.bindPost_ok, Prog.wp_bind, wp_perform]
      rintro ⟨⟩ _ rfl
      rw [Prog.bindPost_ok, Prog.wp_bind]
      refine wp_clock fun now => ?_
      rw [Prog.bindPost_ok, Prog.wp_bind]
      refine wp_allDone ?_
      intro hx
      rcases hx with _ | _
      · exact ⟨_, _, rfl, hnext⟩
      · exact ih started _ now hnext

/-- The names left in the queue get the futures that were never started. -/
theorem Admitting.rest (h : Admitting pods names futures queue jobs) (hnodup : names.Nodup) :
    Admitting pods names (queue.foldl (fun d name => setDefault d name .neverStarted) futures) []
      jobs := by
  induction queue generalizing futures with
  | nil => exact h
  | cons name rest ih =>
      have hname : name ∉ futures.map Prod.fst := by
        intro hmem
        rw [← h.names_eq] at hnodup
        exact (List.nodup_append.mp hnodup).2.2 _ hmem _ (by simp) rfl
      rw [List.foldl_cons, setDefault_fresh hname]
      refine ih ⟨?_, ?_, ?_⟩
      · simpa using h.names_eq
      · rw [startedJobs_append, h.jobs_eq]
        simp [startedJobs]
      · intro e he
        rcases List.mem_append.mp he with he | he
        · exact h.own e he
        · obtain rfl := List.mem_singleton.mp he
          trivial

/-- `reconcileWithin` returns one future for each listed name, in their order. -/
theorem wp_reconcileWithin (cfg : Settings) (hnodup : names.Nodup) (deadline : ℚ) :
    (reconcileWithin cfg names pods deadline).wp (scraping R P).spec
      (fun x jobs => ∃ futures, x = .ok futures ∧ Admitting pods names futures [] jobs) [] := by
  rw [reconcileWithin, Prog.wp_bind]
  refine Prog.wp_mono (Env.spec_mono _) ?_
    (wp_waves cfg hnodup deadline _ 0 ⟨rfl, rfl, by simp⟩)
  intro x jobs hx
  obtain ⟨futures, queue, rfl, h⟩ := hx
  rw [Prog.bindPost_ok]
  dsimp only
  rw [Prog.wp_bind, wp_perform]
  rintro ⟨⟩ _ rfl
  exact ⟨_, rfl, h.rest hnodup⟩

end NfOrchestrator.Metrics
