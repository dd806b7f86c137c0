import NfOrchestrator.Deploy.Noting

/-!
# NfOrchestrator.Deploy.Evidence

**Evidence that the cluster answered**, over whole runs. Any number of calls and
readiness probes run interleaved, on a world that answers them anyhow (`shared`), and
`_last_success` must only ever hold the time of an answer.

**Key idea.** What a thread assigns to the global is a fact about that thread alone
(`Deploy.Noting`). What another thread then reads from it is what some thread
assigned, which is a fact about the world alone (`assigned_step`). The two meet in the
trace.
-/

namespace NfOrchestrator.Deploy

variable (cfg : Settings)

/-! ### The shared world -/

/-- What the threads of the process share. -/
structure Shared where
  /-- The clock's last reading. -/
  clock : ℚ
  locked : Bool := false
  probe : Option (ℚ × Probe) := none
  lastSuccess : Option ℚ := none
  versions : Option (ℚ × List String) := none

/-- The clock does not go back, one thread at a time holds the lock, and a global
holds what was assigned to it last. Anything else gets any reply. -/
def shared : Env sig Shared := fun o w r w' =>
  match o, r with
  | .monotonic, t => w.clock ≤ t ∧ w' = { w with clock := t }
  | .acquireProbeLock, _ => w.locked = false ∧ w' = { w with locked := true }
  | .releaseProbeLock, _ => w' = { w with locked := false }
  | .getProbe, p => p = w.probe ∧ w' = w
  | .setProbe t p, _ => w' = { w with probe := some (t, p) }
  | .getLastSuccess, t => t = w.lastSuccess ∧ w' = w
  | .setLastSuccess t, _ => w' = { w with lastSuccess := some t }
  | .getVersions, v => v = w.versions ∧ w' = w
  | .setVersions t problems, _ => w' = { w with versions := some (t, problems) }
  | .time, _ | .localtime _, _ | .which _, _ | .spawn _, _ | .finish _ _, _ => w' = w

/-! ### Runs of the whole process -/

/-- A call of `run_bounded`, or a readiness probe. -/
inductive Task where
  | call (command args : List String) (timeout : ℚ)
  | probe (maxAge : ℚ) (timeout : Option ℚ)

namespace Task

def Result : Task → Type
  | .call _ _ _ => String
  | .probe _ _ => Probe

def prog : (t : Task) → Eff t.Result
  | .call command args timeout => runBounded cfg command args timeout
  | .probe maxAge timeout => apiServerProbe cfg maxAge timeout

/-- What is assumed of a task's replies: a call's own process does not end in a failure
of this host. -/
def rely : Task → List (Event sig) → Event sig → Prop
  | .call _ _ _ => OwnExitFine
  | .probe _ _ => fun _ _ => True

/-- A call that was killed, and cites another call, read a recent time. -/
def post : (t : Task) → Except Exc t.Result → List (Event sig) → Prop
  | .call command args timeout => fun x tr =>
      ∀ stderr, ownOutcome tr = some (.timedOut stderr) →
        x = .error (.deploy (busyReport (Str.join " " (command.take 1 ++ args.take 1))
          timeout recentEvidence)) → ReadRecent cfg tr
  | .probe _ _ => fun _ _ => True

theorem wp_prog (t : Task) :
    (t.prog cfg).wp (recorded t.rely NotesAnswers) (t.post cfg) [] := by
  cases t with
  | call command args timeout => exact wp_runBounded cfg command args timeout
  | probe maxAge timeout =>
      refine Prog.wp_mono (recorded_mono _ NotesAnswers) ?_
        (plain_apiServerProbe cfg (startsWith_any _) _ _ [])
      exact fun _ _ _ => trivial

theorem post_call {t : Task} {command args : List String} {timeout : ℚ}
    (ht : t = .call command args timeout) {e : Exc} {tr : List (Event sig)}
    (h : t.post cfg (.error e) tr) {stderr : Option String}
    (hown : ownOutcome tr = some (.timedOut stderr))
    (he : e = .deploy (busyReport (Str.join " " (command.take 1 ++ args.take 1)) timeout
      recentEvidence)) : ReadRecent cfg tr := by
  subst ht he
  exact h stderr hown rfl

end Task

theorem ownOutcome_append {tr : List (Event sig)} {outcome : Outcome}
    (h : ownOutcome tr = some outcome) (post : List (Event sig)) :
    ownOutcome (tr ++ post) = some outcome := by
  unfold ownOutcome at h
  split at h
  · rw [← h]; rfl
  · cases h

variable {ι : Type} [DecidableEq ι] {tasks : ι → Task}

/-- The processes of a run: its tasks, interleaved on the shared world. -/
abbrev Run (tasks : ι → Task) := Pool sig Exc (fun i => (tasks i).Result) Shared

/-- `P` is reached by some interleaving of the tasks, from a world in which nothing was
noted yet. -/
def Reaches (tasks : ι → Task) (P : Run tasks) : Prop :=
  ∃ w : Shared, w.lastSuccess = none ∧
    Pool.Reachable shared (Pool.start (fun i => (tasks i).prog cfg) w) P

/-- Some thread noted an answer at the time `t`. -/
def AnsweredAt (P : Run tasks) (t : ℚ) : Prop :=
  ∃ i pre post, P.localTrace i = pre ++ ⟨.setLastSuccess t, ()⟩ :: post ∧ Noted pre t

/-- A time in `_last_success`, or read from it, was assigned to it by some thread. -/
def Assigned (w : Shared) (tr : List (ι × Event sig)) : Prop :=
  (∀ t, w.lastSuccess = some t → ∃ j, (j, ⟨.setLastSuccess t, ()⟩) ∈ tr) ∧
    ∀ i t, (i, ⟨.getLastSuccess, some t⟩) ∈ tr → ∃ j, (j, ⟨.setLastSuccess t, ()⟩) ∈ tr

omit [DecidableEq ι] in
/-- A step that keeps the global and does not read it keeps what was assigned. -/
theorem Assigned.keep {w w' : Shared} {tr : List (ι × Event sig)} (h : Assigned w tr)
    (hw : w'.lastSuccess = w.lastSuccess) {e : ι × Event sig} (he : e.2.op ≠ .getLastSuccess) :
    Assigned w' (tr ++ [e]) := by
  refine ⟨fun t ht => ?_, fun i t hi => ?_⟩
  · obtain ⟨j, hj⟩ := h.1 t (hw ▸ ht)
    exact ⟨j, List.mem_append_left _ hj⟩
  · rcases List.mem_append.mp hi with hi | hi
    · obtain ⟨j, hj⟩ := h.2 i t hi
      exact ⟨j, List.mem_append_left _ hj⟩
    · rw [← List.mem_singleton.mp hi] at he
      exact absurd rfl he

omit [DecidableEq ι] in
theorem assigned_step (i : ι) (o : Op) (w : Shared) (r : Resp o) (w' : Shared)
    (tr : List (ι × Event sig)) (hE : shared o w r w') (h : Assigned w tr) :
    Assigned w' (tr ++ [(i, ⟨o, r⟩)]) := by
  cases o with
  | setLastSuccess t =>
      obtain rfl : w' = { w with lastSuccess := some t } := hE
      refine ⟨fun u hu => ?_, fun j u hj => ?_⟩
      · obtain rfl := Option.some.inj hu
        exact ⟨i, List.mem_append_right _ (List.mem_singleton.mpr rfl)⟩
      · rcases List.mem_append.mp hj with hj | hj
        · obtain ⟨k, hk⟩ := h.2 j u hj
          exact ⟨k, List.mem_append_left _ hk⟩
        · simp at hj
  | getLastSuccess =>
      obtain ⟨rfl, rfl⟩ := hE
      refine ⟨fun u hu => ?_, fun j u hj => ?_⟩
      · obtain ⟨k, hk⟩ := h.1 u hu
        exact ⟨k, List.mem_append_left _ hk⟩
      · have hassigned : ∃ k, (k, (⟨.setLastSuccess u, ()⟩ : Event sig)) ∈ tr := by
          rcases List.mem_append.mp hj with hj | hj
          · exact h.2 j u hj
          · simp only [List.mem_singleton, Prod.mk.injEq, Event.mk.injEq, heq_eq_eq,
              true_and] at hj
            exact h.1 u hj.2.symm
        obtain ⟨k, hk⟩ := hassigned
        exact ⟨k, List.mem_append_left _ hk⟩
  | monotonic | acquireProbeLock | getProbe | getVersions =>
      obtain ⟨-, rfl⟩ := hE
      exact h.keep rfl (by simp)
  | _ =>
      obtain rfl : w' = _ := hE
      exact h.keep rfl (by simp)

theorem reaches_assigned {P : Run tasks} (hr : Reaches cfg tasks P) :
    Assigned P.world P.trace := by
  obtain ⟨w, hw, hreach⟩ := hr
  refine hreach.invariant assigned_step ⟨fun t ht => ?_, fun i t hi => by cases hi⟩
  rw [show (Pool.start _ w).world = w from rfl, hw] at ht
  cases ht

/-- No call's own process has ended in a failure of this host. -/
def ExitsFine (P : Run tasks) : Prop :=
  ∀ i command args timeout outcome, tasks i = .call command args timeout →
    ownOutcome (P.localTrace i) = some outcome → ¬ HostFault outcome

theorem ExitsFine.along {P : Run tasks} (h : ExitsFine P) (i : ι) :
    Along (tasks i).rely (P.localTrace i) := by
  intro pre e post hsplit
  cases htask : tasks i with
  | probe maxAge timeout => trivial
  | call command args timeout =>
      intro outcome hown
      refine h i command args timeout outcome htask ?_
      rw [hsplit, show pre ++ e :: post = pre ++ [e] ++ post by simp]
      exact ownOutcome_append hown post

/-- In a run, every assignment to `_last_success` notes an answer. -/
theorem reaches_notes {P : Run tasks} (hr : Reaches cfg tasks P) (hexits : ExitsFine P) (i : ι) :
    Along NotesAnswers (P.localTrace i) ∧
      (P.thread i).wp (recorded (tasks i).rely NotesAnswers) ((tasks i).post cfg)
        (P.localTrace i) := by
  obtain ⟨w, -, hreach⟩ := hr
  exact Pool.recorded_sound (fun i => (tasks i).wp_prog cfg) hreach (fun i => hexits.along i) i

theorem answeredAt_of_mem {P : Run tasks} (hr : Reaches cfg tasks P) (hexits : ExitsFine P)
    {j : ι} {t : ℚ} (h : (j, ⟨.setLastSuccess t, ()⟩) ∈ P.trace) : AnsweredAt P t := by
  obtain ⟨pre, post, hsplit⟩ := List.append_of_mem (Pool.mem_localTrace.mpr h)
  exact ⟨j, pre, post, hsplit, (reaches_notes cfg hr hexits j).1 pre _ post hsplit t rfl⟩

/-! ### A run of one call -/

def listCall : Task := .call ["helm", "list"] ["list"] 3

/-- A call whose exit is not read as an unreachable cluster notes the time. -/
theorem exists_noting (returncode : ℤ) (stdout stderr : String)
    (h : returncode = 0 ∨ (classifyError (complaint stdout stderr)).cls ≠ .clusterUnreachable) :
    ∃ P : Run (fun _ : Unit => listCall), Reaches {} (fun _ => listCall) P ∧
      P.world.lastSuccess = some 0 ∧
      P.localTrace () = [⟨.spawn ["helm", "list"], none⟩,
        ⟨.finish ["helm", "list"] 3, .completed returncode stdout stderr⟩, ⟨.monotonic, (0 : ℚ)⟩,
        ⟨.setLastSuccess 0, ()⟩] := by
  have hnote : ∃ k, afterExit returncode stdout stderr = noteSuccess >>= k := by
    unfold afterExit refuse
    split_ifs with hrc hcls
    · exact ⟨_, rfl⟩
    · exact absurd (h.resolve_left hrc) hcls
    · exact ⟨_, rfl⟩
  obtain ⟨k, hk⟩ := hnote
  let w : Shared := { clock := 0 }
  have hcalls : Pool.Calls shared (listCall.prog {}) w
      [⟨.spawn ["helm", "list"], none⟩,
        ⟨.finish ["helm", "list"] 3, .completed returncode stdout stderr⟩, ⟨.monotonic, (0 : ℚ)⟩,
        ⟨.setLastSuccess 0, ()⟩] (k ()) { w with lastSuccess := some 0 } := by
    have hspawn : shared (.spawn ["helm", "list"]) w none w := rfl
    have hfinish : shared (.finish ["helm", "list"] 3) w (.completed returncode stdout stderr) w :=
      rfl
    have hclock : shared .monotonic w (0 : ℚ) w := ⟨le_rfl, rfl⟩
    refine .cons hspawn (.cons hfinish ?_)
    show Pool.Calls shared (afterExit returncode stdout stderr) w _ _ _
    rw [hk]
    exact .cons hclock (.cons rfl .nil)
  obtain ⟨P, hreach, hworld, -, htrace⟩ := hcalls.reachable
    (P := Pool.start (fun _ : Unit => listCall.prog {}) w) (i := ()) rfl
  refine ⟨P, ⟨w, rfl, hreach⟩, by rw [hworld], ?_⟩
  simp [Pool.localTrace, htrace, Pool.start]

/-! ### The evidence is sound -/

/-- In every state a run reaches, `_last_success` holds nothing or the time of an answer,
no other outcome ever moved it, and a killed call that cites another call's answer
cites one within `RECENT_SUCCESS`. -/
theorem evidence_sound {P : Run tasks} (hr : Reaches cfg tasks P) (hexits : ExitsFine P) :
    (∀ t, P.world.lastSuccess = some t → AnsweredAt P t) ∧
      (∀ i pre t post, P.localTrace i = pre ++ ⟨.setLastSuccess t, ()⟩ :: post → Noted pre t) ∧
      ∀ i command args timeout stderr, tasks i = .call command args timeout →
        ownOutcome (P.localTrace i) = some (.timedOut stderr) →
        P.thread i = .raise (.deploy (busyReport (Str.join " " (command.take 1 ++ args.take 1))
          timeout recentEvidence)) →
        ∃ now last, ⟨.monotonic, now⟩ ∈ P.localTrace i ∧ now - last ≤ cfg.recentSuccess ∧
          AnsweredAt P last := by
  obtain ⟨hworld, hread⟩ := reaches_assigned cfg hr
  refine ⟨fun t ht => ?_, fun i pre t post h => ?_, ?_⟩
  · obtain ⟨j, hj⟩ := hworld t ht
    exact answeredAt_of_mem cfg hr hexits hj
  · exact (reaches_notes cfg hr hexits i).1 pre _ post h t rfl
  · intro i command args timeout stderr htask hown hraise
    have hwp := (reaches_notes cfg hr hexits i).2
    rw [hraise, Prog.wp_raise] at hwp
    obtain ⟨pre, now, last, hlocal, hrecent⟩ := Task.post_call cfg htask hwp hown rfl
    have hlast : (i, ⟨.getLastSuccess, some last⟩) ∈ P.trace :=
      Pool.mem_localTrace.mp (by simp [hlocal])
    obtain ⟨j, hj⟩ := hread i last hlast
    exact ⟨now, last, by simp [hlocal], hrecent, answeredAt_of_mem cfg hr hexits hj⟩

theorem evidence_sound_answered :
    ∃ P : Run (fun _ : Unit => listCall), P.world.lastSuccess = some 0 ∧ AnsweredAt P 0 := by
  obtain ⟨P, hr, hlast, hlocal⟩ := exists_noting 0 "[]" "" (.inl rfl)
  have hexits : ExitsFine P := by
    intro i command args timeout outcome _ hown
    rw [show P.localTrace i = P.localTrace () from rfl, hlocal, ownOutcome_started] at hown
    obtain rfl := Option.some.inj hown
    exact fun h => h.1 rfl
  exact ⟨P, hlast, (evidence_sound {} hr hexits).1 0 hlast⟩

/-- What helm writes when it cannot create a thread. -/
def crashText : String :=
  "runtime: failed to create new OS thread (have 2 already; errno=11)\nfatal error: newosproc"

/-- A helm that crashed while starting moves `_last_success`, and nothing ever answered. -/
theorem crash_noted :
    ∃ P : Run (fun _ : Unit => listCall), Reaches {} (fun _ => listCall) P ∧
      P.world.lastSuccess = some 0 ∧ ¬ AnsweredAt P 0 := by
  have hcls : (classifyError (complaint "" crashText)).cls = .hostExhausted := by decide +kernel
  obtain ⟨P, hr, hlast, hlocal⟩ :=
    exists_noting 2 "" crashText (.inr (by rw [hcls]; decide))
  refine ⟨P, hr, hlast, ?_⟩
  intro hx
  obtain ⟨i, pre, post, hsplit, pre', command, timeout, outcome, rfl, hanswer⟩ := hx
  have hmem : (⟨.finish command timeout, outcome⟩ : Event sig) ∈ P.localTrace () := by
    rw [show P.localTrace () = P.localTrace i from rfl, hsplit]
    simp
  simp only [hlocal, List.mem_cons, Event.mk.injEq, reduceCtorEq, false_and, false_or,
    List.not_mem_nil, or_false, Op.finish.injEq] at hmem
  obtain ⟨⟨rfl, rfl⟩, houtcome⟩ := hmem
  obtain rfl := eq_of_heq houtcome
  rcases hanswer with h | h
  · exact absurd h (by decide)
  · rw [clusterReplied, hcls] at h
    cases h

end NfOrchestrator.Deploy
